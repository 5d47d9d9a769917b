import SimTriage.Proofs.Text.Numeral
import SimTriage.Text.Integer

/-!
The numeral of a natural number, read as people type integers: it gives the number back, unless it
is too long.
-/

set_option autoImplicit false

namespace SimTriage.Text

/-- Nothing is stripped from a text that holds nothing to drop. -/
theorem stripWhere_eq_self {drop : Char → Bool} {text : Text}
    (kept : ∀ c ∈ text, drop c = false) : stripWhere drop text = text := by
  have front : ∀ part : Text, (∀ c ∈ part, drop c = false) → part.dropWhile drop = part := by
    intro part kept
    cases part with
    | nil => rfl
    | cons c part => simp [kept c List.mem_cons_self]
  have back : text.reverse.dropWhile drop = text.reverse :=
    front text.reverse fun c member => kept c (List.mem_reverse.mp member)
  rw [stripWhere, front text kept, back, List.reverse_reverse]

theorem isMargin_of_isDigit {c : Char} (digit : isDigit c = true) : isMargin c = false := by
  simp [isMargin, isBlank_of_isDigit digit]

theorem decimalDigit?_of_isDigit {c : Char} (digit : isDigit c = true) :
    decimalDigit? c = some (c.toNat - '0'.toNat) := by
  have bounds := bounds_of_isDigit digit
  have inside : (decide (0x30 ≤ c.toNat) && decide (c.toNat < 0x30 + 10)) = true := by
    simp only [Bool.and_eq_true, decide_eq_true_eq]
    omega
  have found : digitZeros.find? (fun first => first ≤ c.toNat && c.toNat < first + 10) =
      some 0x30 := by
    unfold digitZeros
    exact List.find?_cons_of_pos inside
  rw [decimalDigit?, found]
  rfl

theorem groupedDigits?_of_isRun {text : Text} (run : IsRun isDigit text) :
    groupedDigits? text = some (text.map fun c => c.toNat - '0'.toNat) := by
  obtain ⟨filled, digits⟩ := run
  fun_induction groupedDigits? text with
  | case1 => exact absurd rfl filled
  | case2 c =>
      rw [decimalDigit?_of_isDigit (digits c List.mem_cons_self)]
      rfl
  | case3 c rest ih =>
      have underscore := digits '_' (by simp)
      exact absurd underscore (by decide)
  | case4 c rest more other ih =>
      obtain ⟨digit, behind⟩ := List.forall_mem_cons.mp digits
      rw [decimalDigit?_of_isDigit digit, ih more behind]
      rfl

/-- The numeral of a number is read as that number, if it is not too long. -/
theorem readNatural?_ofNat {n : Nat} (short : (ofNat n).length ≤ maxDigits) :
    readNatural? (ofNat n) = some n := by
  have value : digitsValue ((ofNat n).map fun c => c.toNat - '0'.toNat) = n := by
    rw [digitsValue, List.foldl_map]
    exact ofDigitChars_ofNat n
  have passes : (guard ((ofNat n).length ≤ maxDigits) : Option Unit) = some () := if_pos short
  rw [readNatural?, groupedDigits?_of_isRun (ofNat_run n)]
  change (guard (((ofNat n).map _).length ≤ maxDigits) >>= fun _ => some (digitsValue _)) = some n
  rw [List.length_map, passes, value]
  rfl

theorem readInteger?_ofNat {n : Nat} (short : (ofNat n).length ≤ maxDigits) :
    readInteger? (ofNat n) = some (n : Int) := by
  obtain ⟨filled, digits⟩ := ofNat_run n
  have stripped : stripWhere isMargin (ofNat n) = ofNat n :=
    stripWhere_eq_self fun c member => isMargin_of_isDigit (digits c member)
  unfold readInteger?
  rw [stripped]
  split
  case h_1 rest written =>
    have sign := digits '-' (by rw [written]; exact List.mem_cons_self)
    exact absurd sign (by decide)
  case h_2 rest written =>
    have sign := digits '+' (by rw [written]; exact List.mem_cons_self)
    exact absurd sign (by decide)
  case h_3 => rw [readNatural?_ofNat short]; rfl

end SimTriage.Text
