import SimTriage.Json.Value

/-!
Whole numbers among decimals. A decimal stands for the nearest binary64 value, so a long fraction
may round to a whole number and a large exponent to infinity.
-/

set_option autoImplicit false

namespace SimTriage.Json

inductive Wholeness
  | whole (value : Int)
  | fractional
  | infinite
deriving DecidableEq, Repr

/-- The binary64 value of a magnitude. Exponents beyond the range of such values are not computed
with. -/
def nearest (magnitude : Nat) (exponent : Int) : Float :=
  if magnitude = 0 || exponent + magnitude.log2 < -400 then 0
  else if 400 < exponent then Float.ofScientific 1 false 400
  else Float.ofScientific magnitude (exponent < 0) exponent.natAbs

/-- A finite value is `significand * 2 ^ (scale - 1075)`, with the fields that its bits give. -/
def wholeness (value : Float) : Wholeness :=
  let bits := value.toBits.toNat
  let field := (bits >>> 52) % 2048
  if field = 2047 then .infinite
  else
    let scale := max field 1
    let significand := bits % (1 <<< 52) + if field = 0 then 0 else 1 <<< 52
    if 1075 ≤ scale then .whole (significand <<< (scale - 1075) : Nat)
    else if significand % (1 <<< (1075 - scale)) = 0 then
      .whole (significand >>> (1075 - scale) : Nat)
    else .fractional

def wholenessOf (mantissa exponent : Int) : Wholeness :=
  match wholeness (nearest mantissa.natAbs exponent) with
  | .whole value => .whole (if mantissa < 0 then -value else value)
  | other => other

end SimTriage.Json
