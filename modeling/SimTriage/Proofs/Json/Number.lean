import SimTriage.Json.Reader
import SimTriage.Proofs.Text.Numeral

/-!
The written form of numbers: reading it gives the number back where the text behind it cannot be a
part of it.
-/

set_option autoImplicit false

namespace SimTriage.Json

variable {rest : Text}

/-- No number goes on with this text. -/
def EndsNumber (rest : Text) : Prop :=
  ∀ c ∈ rest.head?, Text.isDigit c = false ∧ c ≠ '.' ∧ c ≠ 'e' ∧ c ≠ 'E'

theorem digits_ofNat (n : Nat) (stop : ∀ c ∈ rest.head?, Text.isDigit c = false) :
    digits (Text.ofNat n ++ rest) = (Text.ofNat n, rest) :=
  Text.span_run (Text.ofNat_run n).2 stop

/-- The digits of a numeral are acceptable as those of a number. -/
theorem accepts_ofNat (n : Nat) :
    ((Text.ofNat n).isEmpty ||
      (decide ((Text.ofNat n).length ≠ 1) && decide ((Text.ofNat n).head? = some '0'))) = false := by
  obtain ⟨c, run, front, -⟩ := Text.exists_ofNat_cons n
  have filled : (Text.ofNat n).isEmpty = false := by rw [front]; rfl
  simpa only [filled, Bool.false_or, Bool.and_eq_false_iff, decide_eq_false_iff_not,
    Decidable.not_not, or_iff_not_imp_right] using Text.length_ofNat_eq_one

theorem fraction?_none (stop : ∀ c ∈ rest.head?, c ≠ '.') :
    fraction? rest = some (none, rest) := by
  unfold fraction?
  split
  · exact absurd rfl (stop '.' rfl)
  · rfl

theorem exponent?_none (stop : ∀ c ∈ rest.head?, c ≠ 'e' ∧ c ≠ 'E') :
    exponent? rest = some (none, rest) := by
  cases rest with
  | nil => rfl
  | cons c rest =>
      obtain ⟨small, capital⟩ := stop c rfl
      simp only [exponent?, small, capital, decide_false, Bool.or_self, Bool.false_eq_true,
        ↓reduceIte]

theorem exponent?_ofNat (stop : ∀ c ∈ rest.head?, Text.isDigit c = false) (n : Nat) :
    exponent? ('e' :: (Text.ofNat n ++ rest)) = some (some (n : Int), rest) := by
  have cut := digits_ofNat n stop
  have filled := List.isEmpty_eq_false_iff.mpr (Text.ofNat_run n).1
  obtain ⟨c, run, front, digit⟩ := Text.exists_ofNat_cons n
  unfold exponent?
  simp -zeta only [decide_true, Bool.true_or, ↓reduceIte]
  -- a numeral begins with no sign
  split
  case h_1 sign =>
    rw [front] at sign
    cases sign
    cases digit
  case h_2 sign =>
    rw [front] at sign
    cases sign
    cases digit
  case h_3 =>
    simp only [cut, filled, Text.numeralValue_ofNat]
    rfl

theorem exponent?_ofInt (stop : ∀ c ∈ rest.head?, Text.isDigit c = false) (value : Int) :
    exponent? ('e' :: (Text.ofInt value ++ rest)) = some (some value, rest) := by
  cases value with
  | ofNat n => exact exponent?_ofNat stop n
  | negSucc n =>
      have cut := digits_ofNat (n + 1) stop
      have filled := List.isEmpty_eq_false_iff.mpr (Text.ofNat_run (n + 1)).1
      simp only [exponent?, Text.ofInt, List.cons_append, cut, Text.numeralValue_ofNat, filled]
      rfl

theorem magnitude?_ofNat (negative : Bool) (n : Nat) (ends : EndsNumber rest) :
    magnitude? negative (Text.ofNat n ++ rest) =
      some (.integer (if negative then -Int.ofNat n else Int.ofNat n), rest) := by
  have cut := digits_ofNat n fun c first => (ends c first).1
  have whole := fraction?_none fun c first => (ends c first).2.1
  have plain := exponent?_none fun c first => (ends c first).2.2
  have fits := accepts_ofNat n
  simp only [magnitude?, cut, fits, whole, plain, Bool.false_eq_true, ↓reduceIte,
    Option.bind_eq_bind, Option.bind_some, Text.numeralValue_ofNat, Option.pure_def]

theorem magnitude?_exponent (negative : Bool) (n : Nat) (exponent : Int)
    (stop : ∀ c ∈ rest.head?, Text.isDigit c = false) :
    magnitude? negative (Text.ofNat n ++ 'e' :: (Text.ofInt exponent ++ rest)) =
      some (.decimal (if negative then -Int.ofNat n else Int.ofNat n) exponent, rest) := by
  have cut : digits (Text.ofNat n ++ 'e' :: (Text.ofInt exponent ++ rest)) =
      (Text.ofNat n, 'e' :: (Text.ofInt exponent ++ rest)) :=
    digits_ofNat n (by
      rintro c first
      cases first
      decide)
  have fits := accepts_ofNat n
  have whole : fraction? ('e' :: (Text.ofInt exponent ++ rest)) = some (none, _) :=
    fraction?_none (by simp)
  simp only [magnitude?, cut, fits, whole, exponent?_ofInt stop, Bool.false_eq_true, ↓reduceIte,
    Option.bind_eq_bind, Option.bind_some, Option.getD_none, Option.getD_some, List.append_nil,
    List.length_nil, Text.numeralValue_ofNat, Option.pure_def, Int.natCast_zero, Int.sub_zero]

end SimTriage.Json
