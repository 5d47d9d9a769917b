import SimTriage.Text.Printable

/-!
Quotations of texts and bytes in diagnostics. A quotation is delimited by single quotes, or by
double quotes when the text holds a single quote and no double quote; whatever is not printable is
written as an escape.
-/

set_option autoImplicit false

namespace SimTriage.Text

def hexDigit (n : Nat) : Char := Nat.digitChar (n % 16)

/-- The last `width` hexadecimal digits of `n`, in lower case. -/
def hexDigits : Nat → Nat → Text
  | 0, _ => []
  | width + 1, n => hexDigits width (n / 16) ++ [hexDigit n]

namespace Quoted

def delimiter (text : Text) : Char :=
  if text.contains '\'' && !text.contains '"' then '"' else '\''

/-- A code point as an escape: the shortest of the forms with two, four and eight digits. -/
def numericEscape (n : Nat) : Text :=
  if n < 0x100 then ['\\', 'x'] ++ hexDigits 2 n
  else if n < 0x10000 then ['\\', 'u'] ++ hexDigits 4 n
  else ['\\', 'U'] ++ hexDigits 8 n

/-- One character inside a quotation delimited by `quote`. -/
def encodeChar (quote c : Char) : Text :=
  if c = quote || c = '\\' then ['\\', c]
  else if c = '\t' then ['\\', 't']
  else if c = '\n' then ['\\', 'n']
  else if c = '\r' then ['\\', 'r']
  else if isPrintable c then [c]
  else numericEscape c.toNat

end Quoted

def quoted (text : Text) : Text :=
  let quote := Quoted.delimiter text
  quote :: text.flatMap (Quoted.encodeChar quote) ++ [quote]

/-- Bytes as a quotation marked with `b`; bytes from 0x80 up are always escaped. -/
def quotedBytes (bytes : Bytes) : Text :=
  let text : Text := bytes.map fun b => Char.ofNat b.toNat
  let quote := Quoted.delimiter text
  let encode (c : Char) : Text :=
    if c.toNat < 0x80 then Quoted.encodeChar quote c else Quoted.numericEscape c.toNat
  'b' :: quote :: text.flatMap encode ++ [quote]

end SimTriage.Text
