import SimTriage.Text.Blank
import SimTriage.Text.Numeral

/-!
Host errors in headlines: the first `Error(<type>, <code>)` of a text.
-/

set_option autoImplicit false

namespace SimTriage

/-- An error of the host. The contract code is the number of a code such as `#12`. -/
structure HostError where
  type : Text
  code : Text
  contractCode : Option Nat
deriving DecidableEq, Repr

namespace HostError

/-- The letters that names of types begin with. -/
def isNameStart (c : Char) : Bool := c.isAlpha || c = '_'

/-- The letters and digits that types and codes are made of. -/
def isNameChar (c : Char) : Bool := c.isAlphanum || c = '_'

/-- The name of a type that the text begins with, and the rest. -/
def type? : Text → Option (Text × Text)
  | [] => none
  | c :: rest =>
    if isNameStart c then some (c :: rest.takeWhile isNameChar, rest.dropWhile isNameChar)
    else none

/-- The code that the text begins with, and the rest. -/
def code? (text : Text) : Option (Text × Text) :=
  let (mark, rest) : Text × Text :=
    match text with
    | '#' :: rest => (['#'], rest)
    | rest => ([], rest)
  match rest.takeWhile isNameChar with
  | [] => none
  | name => some (mark ++ name, rest.dropWhile isNameChar)

/-- The type and the code of a host error that the text begins with. -/
def pairAt? (text : Text) : Option (Text × Text) := do
  let rest ← Text.after? "Error(" text
  let (type, rest) ← type? rest
  let rest ← Text.after? "," rest
  let (code, rest) ← code? (Text.trimStart rest)
  let _ ← Text.after? ")" rest
  return (type, code)

/-- The type and the code of the first host error in the text. -/
def pair? : Text → Option (Text × Text)
  | [] => none
  | c :: rest =>
    match pairAt? (c :: rest) with
    | some pair => some pair
    | none => pair? rest

/-- The digits of a code that is a mark and digits. -/
def contractDigits? : Text → Option Text
  | '#' :: digits => if digits.all Text.isDigit && !digits.isEmpty then some digits else none
  | _ => none

def find (text : Text) : Except Text.OverlongNumeral (Option HostError) :=
  match pair? text with
  | none => .ok none
  | some (type, code) =>
    match contractDigits? code with
    | none => .ok (some ⟨type, code, none⟩)
    | some digits => do
      let number ← Text.readNumeral digits
      return some ⟨type, code, some number⟩

end HostError

end SimTriage
