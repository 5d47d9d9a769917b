import Mathlib.Data.List.DropRight
import SimTriage.Proofs.Text.Runs

/-!
Stripping: blanks in front add nothing, and a text is its own stripped form exactly if neither of
its ends is a blank. A stripped form is its own, and empty only for blanks.
-/

set_option autoImplicit false

namespace SimTriage.Text

theorem strip_append {blanks : Text} (blank : IsBlankRun blanks) (text : Text) :
    strip (blanks ++ text) = strip text := by
  simp only [strip, stripWhere, List.dropWhile_append_of_pos blank]

theorem strip_cons_of_isBlank {c : Char} (blank : isBlank c = true) (text : Text) :
    strip (c :: text) = strip text := by
  have run : IsBlankRun [c] := by simpa [IsBlankRun] using blank
  exact strip_append run text

/-- Blanks behind a text add nothing either. -/
theorem strip_append_right {blanks : Text} (blank : IsBlankRun blanks) (text : Text) :
    strip (text ++ blanks) = strip text := by
  have none : blanks.dropWhile isBlank = [] := List.dropWhile_eq_nil_iff.mpr blank
  have dropped : (blanks.reverse).dropWhile isBlank = [] :=
    List.dropWhile_eq_nil_iff.mpr fun c member => blank c (List.mem_reverse.mp member)
  simp only [strip, stripWhere, List.dropWhile_append, none]
  split
  · rename_i empty
    rw [List.isEmpty_iff.mp empty]
  · rw [List.reverse_append, List.dropWhile_append, dropped]
    rfl

theorem strip_eq_self_iff {text : Text} :
    strip text = text ↔
      (∀ c ∈ text.head?, isBlank c = false) ∧ ∀ c ∈ text.getLast?, isBlank c = false := by
  change (text.dropWhile isBlank).rdropWhile isBlank = text ↔ _
  constructor
  · intro same
    have front : text.dropWhile isBlank = text := by
      have shorter := (List.rdropWhile_prefix isBlank (text.dropWhile isBlank)).length_le
      rw [same] at shorter
      exact (List.dropWhile_suffix isBlank).eq_of_length_le shorter
    rw [front, List.rdropWhile_eq_self_iff] at same
    constructor
    · intro c first
      rw [← front] at first
      exact head?_dropWhile c first
    · intro c last
      have nonempty : text ≠ [] := by
        intro empty
        rw [empty] at last
        cases last
      rw [List.getLast?_eq_some_getLast nonempty, Option.mem_some_iff] at last
      rw [← last]
      simpa using same nonempty
  · intro ends
    obtain ⟨first, last⟩ := ends
    have front : text.dropWhile isBlank = text := trimStart_eq_self first
    rw [front, List.rdropWhile_eq_self_iff]
    intro nonempty
    have solid := last _ (List.getLast?_eq_some_getLast nonempty)
    simp [solid]

theorem strip_strip (text : Text) : strip (strip text) = strip text := by
  have written : strip text = (trimStart text).rdropWhile isBlank := rfl
  rw [strip_eq_self_iff, written]
  constructor
  · intro c first
    obtain ⟨rest, split⟩ := List.rdropWhile_prefix isBlank (trimStart text)
    have whole : c ∈ (trimStart text).head? := by
      rw [← split, List.head?_append, Option.mem_def.mp first, Option.some_or, Option.mem_some_iff]
    exact head?_dropWhile c whole
  · intro c last
    have nonempty : (trimStart text).rdropWhile isBlank ≠ [] := by
      intro empty
      rw [empty] at last
      cases last
    rw [List.getLast?_eq_some_getLast nonempty, Option.mem_some_iff] at last
    rw [← last]
    simpa using List.rdropWhile_last_not isBlank (trimStart text) nonempty

/-- A text is its stripped form between blanks. -/
theorem exists_strip (text : Text) :
    ∃ front back, IsBlankRun front ∧ IsBlankRun back ∧ text = front ++ (strip text ++ back) := by
  obtain ⟨front, blank, split⟩ := exists_trimStart text
  refine ⟨front, (trimStart text).rtakeWhile isBlank, blank,
    fun c member => List.mem_rtakeWhile_imp member, ?_⟩
  have written : strip text = (trimStart text).rdropWhile isBlank := rfl
  rw [written, List.rdropWhile_append_rtakeWhile, ← split]

theorem mem_of_mem_strip {c : Char} {text : Text} (member : c ∈ strip text) : c ∈ text := by
  obtain ⟨front, back, -, -, split⟩ := exists_strip text
  rw [split]
  exact List.mem_append_right _ (List.mem_append_left _ member)

/-- Stripping takes no character that is not blank. -/
theorem count_strip {c : Char} (solid : isBlank c = false) (text : Text) :
    (strip text).count c = text.count c := by
  have absent : ∀ {blanks : Text}, IsBlankRun blanks → blanks.count c = 0 := fun blank =>
    List.count_eq_zero.mpr fun member => by
      rw [blank c member] at solid
      cases solid
  obtain ⟨front, back, blankFront, blankBack, split⟩ := exists_strip text
  have counts := congrArg (List.count c) split
  rw [List.count_append, List.count_append, absent blankFront, absent blankBack] at counts
  omega

theorem strip_eq_nil_iff {text : Text} : strip text = [] ↔ IsBlankRun text := by
  change (text.dropWhile isBlank).rdropWhile isBlank = [] ↔ _
  rw [List.rdropWhile_eq_nil_iff]
  constructor
  · intro blank c member
    rw [← List.takeWhile_append_dropWhile (p := isBlank) (l := text), List.mem_append] at member
    exact member.elim List.mem_takeWhile_imp (blank c)
  · intro blank c member
    exact blank c ((List.dropWhile_suffix isBlank).subset member)

end SimTriage.Text
