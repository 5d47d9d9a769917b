import SimTriage.Json.Value

/-!
Reading JSON texts. The fuel of the readers counts characters of the text still to be read, each of
which is read once.
-/

set_option autoImplicit false

namespace SimTriage.Json

def isSpace (c : Char) : Bool := c = ' ' || c = '\t' || c = '\n' || c = '\r'

def skipSpace (text : Text) : Text := text.dropWhile isSpace

def hexValue? (c : Char) : Option Nat :=
  if '0' ≤ c && c ≤ '9' then some (c.toNat - '0'.toNat)
  else if 'a' ≤ c && c ≤ 'f' then some (c.toNat - 'a'.toNat + 10)
  else if 'A' ≤ c && c ≤ 'F' then some (c.toNat - 'A'.toNat + 10)
  else none

/-- Four hexadecimal digits and the rest. -/
def unit? : Text → Option (Nat × Text)
  | a :: b :: c :: d :: rest => do
    let a ← hexValue? a
    let b ← hexValue? b
    let c ← hexValue? c
    let d ← hexValue? d
    return (a * 0x1000 + b * 0x100 + c * 0x10 + d, rest)
  | _ => none

/-- The character of an escape, from behind its backslash, and the rest. -/
def escape? : Text → Option (Char × Text)
  | '"' :: rest => some ('"', rest)
  | '\\' :: rest => some ('\\', rest)
  | '/' :: rest => some ('/', rest)
  | 'b' :: rest => some ('\x08', rest)
  | 'f' :: rest => some ('\x0c', rest)
  | 'n' :: rest => some ('\n', rest)
  | 'r' :: rest => some ('\r', rest)
  | 't' :: rest => some ('\t', rest)
  | 'u' :: rest => do
    let (unit, rest) ← unit? rest
    if unit < 0xD800 || 0xE000 ≤ unit then return (Char.ofNat unit, rest)
    else if 0xDC00 ≤ unit then none
    else
      match rest with
      | '\\' :: 'u' :: rest => do
        let (low, rest) ← unit? rest
        if 0xDC00 ≤ low && low < 0xE000 then
          return (Char.ofNat (0x10000 + (unit - 0xD800) * 0x400 + (low - 0xDC00)), rest)
        else none
      | _ => none
  | _ => none

/-- A string from behind its opening quote, and what follows its closing one. -/
def string? : Nat → Text → Option (Text × Text)
  | 0, _ => none
  | _ + 1, [] => none
  | _ + 1, '"' :: rest => some ([], rest)
  | fuel + 1, '\\' :: rest => do
    let (c, rest) ← escape? rest
    let (text, rest) ← string? fuel rest
    return (c :: text, rest)
  | fuel + 1, c :: rest =>
    if c.toNat < 0x20 then none
    else do
      let (text, rest) ← string? fuel rest
      return (c :: text, rest)

def digits (text : Text) : Text × Text := text.span Text.isDigit

def exponent? : Text → Option (Option Int × Text)
  | e :: rest =>
    if e = 'e' || e = 'E' then
      let (negative, rest) :=
        match rest with
        | '-' :: rest => (true, rest)
        | '+' :: rest => (false, rest)
        | rest => (false, rest)
      let (run, rest) := digits rest
      let value := Int.ofNat (Text.numeralValue run)
      if run.isEmpty then none else some (some (if negative then -value else value), rest)
    else some (none, e :: rest)
  | [] => some (none, [])

def fraction? : Text → Option (Option Text × Text)
  | '.' :: rest =>
    let (run, rest) := digits rest
    if run.isEmpty then none else some (some run, rest)
  | rest => some (none, rest)

/-- A number without sign; it is an integer if it has neither a fraction nor an exponent. -/
def magnitude? (negative : Bool) (text : Text) : Option (Json × Text) := do
  let (run, rest) := digits text
  if run.isEmpty || (run.length ≠ 1 && run.head? = some '0') then none
  else
    let signed (n : Nat) : Int := if negative then -Int.ofNat n else Int.ofNat n
    let (fraction, rest) ← fraction? rest
    let (exponent, rest) ← exponent? rest
    match fraction, exponent with
    | none, none => return (.integer (signed (Text.numeralValue run)), rest)
    | _, _ =>
      let places := fraction.getD []
      return (.decimal (signed (Text.numeralValue (run ++ places)))
        (exponent.getD 0 - places.length), rest)

mutual

def value? : Nat → Text → Option (Json × Text)
  | 0, _ => none
  | fuel + 1, text =>
    match text with
    | '"' :: rest => do
      let (text, rest) ← string? (fuel + 1) rest
      return (.string text, rest)
    | '[' :: rest =>
      match skipSpace rest with
      | ']' :: rest => some (.array [], rest)
      | rest => do
        let (items, rest) ← items? fuel rest
        return (.array items, rest)
    | '\x7b' :: rest =>
      match skipSpace rest with
      | '\x7d' :: rest => some (.object [], rest)
      | rest => do
        let (members, rest) ← members? fuel rest
        return (.object members, rest)
    | '-' :: rest => magnitude? true rest
    | 'n' :: 'u' :: 'l' :: 'l' :: rest => some (.null, rest)
    | 't' :: 'r' :: 'u' :: 'e' :: rest => some (.bool true, rest)
    | 'f' :: 'a' :: 'l' :: 's' :: 'e' :: rest => some (.bool false, rest)
    | text => magnitude? false text

def items? : Nat → Text → Option (List Json × Text)
  | 0, _ => none
  | fuel + 1, text => do
    let (item, rest) ← value? fuel (skipSpace text)
    match skipSpace rest with
    | ']' :: rest => return ([item], rest)
    | ',' :: rest => do
      let (items, rest) ← items? fuel rest
      return (item :: items, rest)
    | _ => none

def members? : Nat → Text → Option (List (Text × Json) × Text)
  | 0, _ => none
  | fuel + 1, text =>
    match skipSpace text with
    | '"' :: rest => do
      let (name, rest) ← string? (fuel + 1) rest
      match skipSpace rest with
      | ':' :: rest => do
        let (value, rest) ← value? fuel (skipSpace rest)
        match skipSpace rest with
        | '\x7d' :: rest => return ([(name, value)], rest)
        | ',' :: rest => do
          let (members, rest) ← members? fuel rest
          return ((name, value) :: members, rest)
        | _ => none
      | _ => none
    | _ => none

end

def read? (text : Text) : Option Json := do
  let (value, rest) ← value? (2 * text.length + 1) (skipSpace text)
  if (skipSpace rest).isEmpty then some value else none

end SimTriage.Json
