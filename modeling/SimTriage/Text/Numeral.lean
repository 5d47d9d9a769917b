import SimTriage.Text

/-!
Decimal numerals: the value of a run of ASCII digits, and the numeral of a natural number or an
integer without leading zeros.
-/

set_option autoImplicit false

namespace SimTriage.Text

def isDigit (c : Char) : Bool := '0' ≤ c && c ≤ '9'

/-- Reads digits onto the value of those to their left. -/
def numeralValueFrom (value : Nat) (digits : Text) : Nat :=
  digits.foldl (fun total c => 10 * total + (c.toNat - '0'.toNat)) value

/-- The value of a run of ASCII digits, most significant first. Leading zeros add nothing. -/
def numeralValue (digits : Text) : Nat := numeralValueFrom 0 digits

def ofNat (n : Nat) : Text := Nat.toDigits 10 n

def ofInt : Int → Text
  | .ofNat n => ofNat n
  | .negSucc n => '-' :: ofNat (n + 1)

/-- A numeral longer than this is refused, leading zeros included. -/
def maxDigits : Nat := 4300

structure OverlongNumeral where
  digits : Nat
deriving DecidableEq, Repr

def OverlongNumeral.message (numeral : OverlongNumeral) : Text :=
  "Exceeds the limit (" ++ ofNat maxDigits ++
    " digits) for integer string conversion: value has " ++ ofNat numeral.digits ++
    " digits; use sys.set_int_max_str_digits() to increase the limit"

/-- The value of a run of ASCII digits that is not too long. -/
def readNumeral (digits : Text) : Except OverlongNumeral Nat :=
  if maxDigits < digits.length then .error ⟨digits.length⟩ else .ok (numeralValue digits)

end SimTriage.Text
