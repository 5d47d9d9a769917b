import Mathlib.Algebra.Group.Nat.Defs
import SimTriage.Proofs.Text.Runs

/-!
The numeral of a natural number: what it is made of, how long it is, and that reading gives the
number back.
-/

set_option autoImplicit false

namespace SimTriage.Text

theorem ofNat_run (n : Nat) : IsRun isDigit (ofNat n) := by
  constructor
  · exact Nat.toDigits_ne_nil
  · intro c member
    have digit : c.isDigit = true := Nat.isDigit_of_mem_toDigits (by decide) (by decide) member
    simpa [isDigit, Char.isDigit, Char.le_def] using digit

theorem ofNat_length_le {n k : Nat} (positive : 0 < k) (small : n < 10 ^ k) :
    (ofNat n).length ≤ k :=
  (Nat.length_toDigits_le_iff (by decide) positive).mpr small

theorem ofInt_of_nonneg {n : Int} (nonneg : 0 ≤ n) : ofInt n = ofNat n.toNat := by
  obtain ⟨k, rfl⟩ := Int.eq_ofNat_of_zero_le nonneg
  rfl

theorem ofDigitChars_ofNat (n : Nat) : Nat.ofDigitChars 10 (ofNat n) 0 = n :=
  Nat.ofDigitChars_ten_toDigits

theorem numeralValue_ofNat (n : Nat) : numeralValue (ofNat n) = n := ofDigitChars_ofNat n

theorem exists_ofNat_cons (n : Nat) :
    ∃ c digits, ofNat n = c :: digits ∧ isDigit c = true := by
  obtain ⟨filled, inside⟩ := ofNat_run n
  obtain ⟨c, digits, front⟩ := List.exists_cons_of_ne_nil filled
  exact ⟨c, digits, front, inside c (by rw [front]; exact List.mem_cons_self)⟩

/-- Only zero is written with a zero in front. -/
theorem head?_ofNat_ne {n : Nat} (filled : n ≠ 0) : (ofNat n).head? ≠ some '0' := by
  induction n using Nat.strongRecOn with
  | ind n ih =>
    by_cases single : n < 10
    · rw [ofNat, Nat.toDigits_of_lt_base single]
      have each : ∀ k < 10, k ≠ 0 → some (Nat.digitChar k) ≠ some '0' := by decide
      exact each n single filled
    · have written : ofNat n = ofNat (n / 10) ++ [Nat.digitChar (n % 10)] :=
        Nat.toDigits_of_base_le (by decide) (Nat.le_of_not_lt single)
      obtain ⟨c, digits, front, -⟩ := exists_ofNat_cons (n / 10)
      rw [written, front]
      have before := ih (n / 10) (by omega) (by omega)
      rwa [front] at before

/-- A numeral with more than one digit begins with another digit than zero. -/
theorem length_ofNat_eq_one {n : Nat} (zero : (ofNat n).head? = some '0') :
    (ofNat n).length = 1 := by
  by_cases filled : n = 0
  · rw [filled]
    rfl
  · exact absurd zero (head?_ofNat_ne filled)

theorem numeralValueFrom_lt {digits : Text} (inside : ∀ c ∈ digits, isDigit c = true)
    (value : Nat) : numeralValueFrom value digits < (value + 1) * 10 ^ digits.length := by
  induction digits generalizing value with
  | nil => simp [numeralValueFrom]
  | cons c digits ih =>
      obtain ⟨digit, behind⟩ := List.forall_mem_cons.mp inside
      have bounds := bounds_of_isDigit digit
      have zero : '0'.toNat = 0x30 := rfl
      have small : 10 * value + (c.toNat - '0'.toNat) + 1 ≤ (value + 1) * 10 := by omega
      calc numeralValueFrom value (c :: digits)
          < (10 * value + (c.toNat - '0'.toNat) + 1) * 10 ^ digits.length := ih behind _
        _ ≤ (value + 1) * 10 * 10 ^ digits.length := Nat.mul_le_mul_right _ small
        _ = (value + 1) * 10 ^ (c :: digits).length := by
          rw [List.length_cons, Nat.pow_succ', Nat.mul_assoc]

/-- The numeral of a number has no more digits than any numeral that the number was read from. -/
theorem ofNat_numeralValue_length_le {digits : Text} (run : IsRun isDigit digits) :
    (ofNat (numeralValue digits)).length ≤ digits.length := by
  have small := numeralValueFrom_lt run.2 0
  rw [Nat.zero_add, Nat.one_mul] at small
  exact ofNat_length_le (List.length_pos_iff.mpr run.1) small

end SimTriage.Text
