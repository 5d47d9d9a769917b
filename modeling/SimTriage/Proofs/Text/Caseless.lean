import SimTriage.Proofs.Json.StringForm
import SimTriage.Text.Caseless

/-!
Letter case of ASCII texts: its three forms are taken letter by letter. Of any other text, the
upper-case form and the folded form belong together as soon as both are ASCII.
-/

set_option autoImplicit false

namespace SimTriage.Text

variable {c : Char} {text : Text}

instance : DecidablePred IsAscii := fun text =>
  decidable_of_iff (text.all (fun c => decide (c.toNat < 0x80)) = true)
    (by simp [IsAscii, List.all_eq_true])

/-- What holds for the first 128 code points holds for every character of ASCII. -/
theorem forall_of_ascii {p : Char → Prop} (each : ∀ n < 0x80, p (Char.ofNat n))
    (ascii : c.toNat < 0x80) : p c := by
  rw [← Char.ofNat_toNat c]
  exact each c.toNat ascii

/-- The letters of ASCII stay in ASCII, and a capital is taken back to its small letter. -/
theorem letter_of_ascii (ascii : c.toNat < 0x80) :
    c.toUpper.toNat < 0x80 ∧ c.toLower.toNat < 0x80 ∧ lower [c.toUpper] = [c.toLower] :=
  forall_of_ascii
    (p := fun c => c.toUpper.toNat < 0x80 ∧ c.toLower.toNat < 0x80 ∧ lower [c.toUpper] = [c.toLower])
    (by decide) ascii

/-- The characters with forms of their own are none of ASCII. -/
theorem upperForm_of_ascii (ascii : c.toNat < 0x80) : upperForm c = [c.toUpper] := by
  unfold upperForm
  split
  case h_11 => rfl
  all_goals exact absurd ascii (by decide)

theorem foldedForm_of_ascii (ascii : c.toNat < 0x80) : foldedForm c = [c.toLower] := by
  unfold foldedForm
  split
  case h_12 => rfl
  all_goals exact absurd ascii (by decide)

theorem upper_of_isAscii (ascii : IsAscii text) : upper text = text.map Char.toUpper := by
  induction text with
  | nil => rfl
  | cons c text ih =>
      obtain ⟨first, rest⟩ := isAscii_cons.mp ascii
      rw [upper, List.flatMap_cons, upperForm_of_ascii first, ← upper, ih rest]
      rfl

theorem folded_of_isAscii (ascii : IsAscii text) : folded text = text.map Char.toLower := by
  induction text with
  | nil => rfl
  | cons c text ih =>
      obtain ⟨first, rest⟩ := isAscii_cons.mp ascii
      rw [folded, List.flatMap_cons, foldedForm_of_ascii first, ← folded, ih rest]
      rfl

theorem lower_of_isAscii (ascii : IsAscii text) : lower text = text.map Char.toLower := by
  refine List.map_congr_left fun c member => if_neg ?_
  rintro rfl
  exact absurd (ascii _ member) (by decide)

theorem isAscii_upper (ascii : IsAscii text) : IsAscii (upper text) := by
  rw [upper_of_isAscii ascii]
  exact List.forall_mem_map.mpr fun c member => (letter_of_ascii (ascii c member)).1

theorem isAscii_folded (ascii : IsAscii text) : IsAscii (folded text) := by
  rw [folded_of_isAscii ascii]
  exact List.forall_mem_map.mpr fun c member => (letter_of_ascii (ascii c member)).2.1

theorem length_lower (text : Text) : (lower text).length = text.length := List.length_map _

theorem lower_append (front back : Text) : lower (front ++ back) = lower front ++ lower back :=
  List.map_append

/-- Only letters of ASCII have a capital of their own under `Char.toUpper`. -/
theorem toUpper_of_not_ascii (other : ¬ c.toNat < 0x80) : c.toUpper = c := by
  delta Char.toUpper
  split
  · rename_i small
    have high : c.val ≤ 'z'.val := small.2
    have bound : c.toNat ≤ 'z'.toNat := UInt32.le_iff_toNat_le.mp high
    exact absurd (Nat.lt_of_le_of_lt bound (by decide)) other
  · rfl

theorem lower_upperForm (upperAscii : IsAscii (upperForm c)) (foldedAscii : IsAscii (foldedForm c)) :
    lower (upperForm c) = foldedForm c := by
  by_cases ascii : c.toNat < 0x80
  · rw [upperForm_of_ascii ascii, foldedForm_of_ascii ascii]
    exact (letter_of_ascii ascii).2.2
  · revert upperAscii foldedAscii
    unfold upperForm
    split
    -- the last case is that of a character that has no form in ASCII
    case h_11 =>
      rw [toUpper_of_not_ascii ascii]
      exact fun upperAscii => absurd (upperAscii c (List.mem_singleton_self c)) ascii
    all_goals decide

/-- Where both forms are ASCII, one is the other in lower case. -/
theorem lower_upper (upperAscii : IsAscii (upper text)) (foldedAscii : IsAscii (folded text)) :
    lower (upper text) = folded text := by
  induction text with
  | nil => rfl
  | cons c text ih =>
      rw [upper, List.flatMap_cons, isAscii_append] at upperAscii
      rw [folded, List.flatMap_cons, isAscii_append] at foldedAscii
      have first := lower_upperForm upperAscii.1 foldedAscii.1
      have rest := ih upperAscii.2 foldedAscii.2
      rw [upper, List.flatMap_cons, lower_append, first, ← upper, rest]
      rfl

theorem lower_upper_of_isAscii (ascii : IsAscii text) : lower (upper text) = lower text := by
  rw [lower_upper (isAscii_upper ascii) (isAscii_folded ascii), folded_of_isAscii ascii,
    lower_of_isAscii ascii]

theorem toLower_of_not_ascii (other : ¬ c.toNat < 0x80) : c.toLower = c := by
  delta Char.toLower
  split
  · rename_i capital
    have high : c.val ≤ 'Z'.val := capital.2
    have bound : c.toNat ≤ 'Z'.toNat := UInt32.le_iff_toNat_le.mp high
    exact absurd (Nat.lt_of_le_of_lt bound (by decide)) other
  · rfl

/-- The texts are the same but for the case of letters of ASCII. -/
def EqualCaseless (text other : Text) : Prop := text.map Char.toLower = other.map Char.toLower

instance (text other : Text) : Decidable (EqualCaseless text other) :=
  inferInstanceAs (Decidable (text.map Char.toLower = other.map Char.toLower))

/-- A name in small letters of ASCII, and without the one that the Kelvin sign has for its small
letter. -/
def IsSmall (name : Text) : Prop := ∀ c ∈ name, c.toNat < 0x80 ∧ c.toLower = c ∧ c ≠ 'k'

instance : DecidablePred IsSmall := fun name =>
  decidable_of_iff
    (name.all (fun c => decide (c.toNat < 0x80 ∧ c.toLower = c ∧ c ≠ 'k')) = true)
    (by simp [IsSmall, List.all_eq_true])

/-- The small letter of a character. -/
def lowerForm (c : Char) : Char := if c = '\u212a' then 'k' else c.toLower

theorem lower_eq_map (text : Text) : lower text = text.map lowerForm := rfl

theorem lowerForm_eq_iff {d : Char} (ascii : d.toNat < 0x80) (other : d ≠ 'k') :
    lowerForm c = d ↔ c.toLower = d := by
  unfold lowerForm
  by_cases kelvin : c = '\u212a'
  · subst kelvin
    constructor
    · intro same
      exact absurd same.symm other
    · intro same
      rw [toLower_of_not_ascii (by decide)] at same
      rw [← same] at ascii
      exact absurd ascii (by decide)
  · rw [if_neg kelvin]

theorem lowerForm_eq_dot_iff : lowerForm c = '.' ↔ c = '.' := by
  rw [lowerForm_eq_iff (by decide) (by decide)]
  by_cases ascii : c.toNat < 0x80
  · exact forall_of_ascii (p := fun c => c.toLower = '.' ↔ c = '.') (by decide) ascii
  · rw [toLower_of_not_ascii ascii]

/-- What is a name of small letters in lower case differs from it in the case of letters alone. -/
theorem lower_eq_iff {name : Text} (small : IsSmall name) :
    lower text = name ↔ EqualCaseless text name := by
  have kept : name.map Char.toLower = name := by
    rw [List.map_congr_left fun c member => (small c member).2.1]
    exact List.map_id name
  rw [EqualCaseless, kept]
  clear kept
  induction text generalizing name with
  | nil => rfl
  | cons c text ih =>
      cases name with
      | nil => simp [lower]
      | cons d name =>
          obtain ⟨first, others⟩ := List.forall_mem_cons.mp small
          rw [lower_eq_map, List.map_cons, List.map_cons, List.cons.injEq, List.cons.injEq]
          exact and_congr (lowerForm_eq_iff first.1 first.2.2) (ih others)

end SimTriage.Text
