import Mathlib.Data.List.TakeDrop
import Mathlib.Data.List.TakeWhile
import SimTriage.Text.Blank
import SimTriage.Text.Numeral

/-!
Runs of characters at the front of a text: cutting off a known beginning, the longest run of a
class, and the blanks at either end.
-/

set_option autoImplicit false

namespace SimTriage.Text

theorem after?_append (start rest : Text) : after? start (start ++ rest) = some rest := by
  induction start with
  | nil => rfl
  | cons c start ih => simp only [List.cons_append, after?, ↓reduceIte, ih]

theorem append_of_after? {start text rest : Text} (cut : after? start text = some rest) :
    text = start ++ rest := by
  induction start generalizing text with
  | nil => exact Option.some.inj cut
  | cons s start ih =>
      cases text with
      | nil => cases cut
      | cons c text =>
          by_cases same : s = c
          · subst same
            simp only [after?, ↓reduceIte] at cut
            rw [ih cut, List.cons_append]
          · simp only [after?, same, ↓reduceIte] at cut
            cases cut

theorem after?_eq_some_iff {start text rest : Text} :
    after? start text = some rest ↔ text = start ++ rest := by
  constructor
  · exact append_of_after?
  · intro same
    rw [same]
    exact after?_append start rest

/-- A run of a class of characters that is not empty. -/
def IsRun (p : Char → Bool) (text : Text) : Prop := text ≠ [] ∧ ∀ c ∈ text, p c = true

instance (p : Char → Bool) (text : Text) : Decidable (IsRun p text) :=
  decidable_of_iff (text ≠ [] ∧ text.all p = true) (by rw [List.all_eq_true, IsRun])

/-- The longest run of a class ends where its members do. -/
theorem span_run {p : Char → Bool} {run rest : Text} (inside : ∀ c ∈ run, p c = true)
    (stop : ∀ c ∈ rest.head?, p c = false) : (run ++ rest).span p = (run, rest) := by
  rw [List.span_eq_takeWhile_dropWhile, List.takeWhile_append_of_pos inside,
    List.dropWhile_append_of_pos inside]
  cases rest with
  | nil => simp
  | cons c rest =>
      have outside : p c = false := stop c rfl
      simp [outside]

theorem head?_dropWhile {p : Char → Bool} {text : Text} :
    ∀ c ∈ (text.dropWhile p).head?, p c = false := by
  intro c first
  have stops := List.head?_dropWhile_not p text
  rw [Option.mem_def.mp first] at stops
  exact stops

/-- Nothing but blanks. -/
def IsBlankRun (text : Text) : Prop := ∀ c ∈ text, isBlank c = true

instance (text : Text) : Decidable (IsBlankRun text) :=
  decidable_of_iff (text.all isBlank = true) List.all_eq_true

@[simp] theorem isBlankRun_nil : IsBlankRun [] := by
  intro c member
  cases member

theorem trimStart_append {blanks : Text} (blank : IsBlankRun blanks) (rest : Text) :
    trimStart (blanks ++ rest) = trimStart rest :=
  List.dropWhile_append_of_pos blank

theorem trimStart_eq_self {text : Text} (solid : ∀ c ∈ text.head?, isBlank c = false) :
    trimStart text = text := by
  cases text with
  | nil => rfl
  | cons c rest => simp [trimStart, solid c rfl]

/-- A text is its blanks in front and what trimming leaves. -/
theorem exists_trimStart (text : Text) :
    ∃ blanks, IsBlankRun blanks ∧ text = blanks ++ trimStart text :=
  ⟨text.takeWhile isBlank, fun _ member => List.mem_takeWhile_imp member,
    (List.takeWhile_append_dropWhile).symm⟩

/-- No visible character of ASCII is a blank. -/
theorem isBlank_of_visible {c : Char} (visible : 0x21 ≤ c.toNat ∧ c.toNat ≤ 0x7E) :
    isBlank c = false := by
  have outside : ∀ range ∈ blankRanges, ¬ (range.1 ≤ c.toNat ∧ c.toNat ≤ range.2) := by
    intro range member
    have apart : range.2 < 0x21 ∨ 0x7E < range.1 := by
      revert range
      decide
    omega
  simpa [isBlank] using outside

theorem bounds_of_isDigit {c : Char} (digit : isDigit c = true) :
    0x30 ≤ c.toNat ∧ c.toNat ≤ 0x39 := by
  simpa [isDigit, Char.le_def, UInt32.le_iff_toNat_le] using digit

theorem isBlank_of_isDigit {c : Char} (digit : isDigit c = true) : isBlank c = false := by
  have bounds := bounds_of_isDigit digit
  exact isBlank_of_visible (by omega)

end SimTriage.Text
