import SimTriage.Text.Blank
import SimTriage.Text.DecimalDigit
import SimTriage.Text.Numeral

/-!
Integers as people type them: blanks around, a sign, digits of any script, and single underscores
between digits.
-/

set_option autoImplicit false

namespace SimTriage.Text

/-- Blanks that may surround a typed integer: the blanks of event logs without the information
separators. -/
def isMargin (c : Char) : Bool := isBlank c && !(0x1C ≤ c.toNat && c.toNat ≤ 0x1F)

/-- Digit values, where an underscore may stand between two digits. -/
def groupedDigits? : Text → Option (List Nat)
  | [] => none
  | [c] => (decimalDigit? c).map ([·])
  | c :: '_' :: rest => do
    let digit ← decimalDigit? c
    let digits ← groupedDigits? rest
    return digit :: digits
  | c :: rest => do
    let digit ← decimalDigit? c
    let digits ← groupedDigits? rest
    return digit :: digits

/-- The value of a run of digit values, most significant first. -/
def digitsValue (digits : List Nat) : Nat := digits.foldl (fun total digit => 10 * total + digit) 0

/-- A typed natural number of at most `maxDigits` digits. -/
def readNatural? (text : Text) : Option Nat := do
  let digits ← groupedDigits? text
  guard (digits.length ≤ maxDigits)
  return digitsValue digits

def readInteger? (text : Text) : Option Int :=
  match stripWhere isMargin text with
  | '-' :: digits => (readNatural? digits).map (-Int.ofNat ·)
  | '+' :: digits => (readNatural? digits).map Int.ofNat
  | digits => (readNatural? digits).map Int.ofNat

end SimTriage.Text
