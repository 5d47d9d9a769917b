import Mathlib.Data.List.Infix
import Mathlib.Order.WellFounded
import SimTriage.Proofs.HostError

/-!
The first mention of a host error. It is the only one that begins where it does, and neither a text
in front of it in which no mention begins nor any text behind it changes what is found.
-/

set_option autoImplicit false

namespace SimTriage.HostError

open Text (IsBlankRun IsRun)

namespace Mention

variable {m other : Mention} {text behind : Text}

/-- The mention without the bracket that closes it. -/
def opened (m : Mention) : Text := "Error(" ++ (m.type ++ ("," ++ (m.blanks ++ m.code)))

theorem text_eq_opened (m : Mention) : m.text = (m.before ++ m.opened ++ ")") ++ m.behind := by
  unfold text opened
  simp only [List.append_assoc]

/-- The first closing bracket behind the beginning of a mention is its last character. -/
theorem not_mem_opened (spells : m.Spells text) : ')' ∉ m.opened := by
  have notName : isNameChar ')' = false := by decide
  have outside : ∀ {name : Text}, (∀ c ∈ name, isNameChar c = true) → ')' ∉ name := by
    intro name inside member
    rw [inside _ member] at notName
    cases notName
  have type : ')' ∉ m.type := by
    obtain ⟨c, rest, same, start, inside⟩ := spells.type
    rw [same, List.mem_cons, not_or]
    refine ⟨?_, outside inside⟩
    rintro rfl
    exact absurd start (by decide)
  have blanks : ')' ∉ m.blanks := fun member => absurd (spells.blanks _ member) (by decide)
  have code : ')' ∉ m.code := by
    rcases spells.code with run | ⟨name, same, run⟩
    · exact outside run.2
    · rw [same, List.mem_cons, not_or]
      exact ⟨by decide, outside run.2⟩
  unfold opened
  simp only [List.mem_append, not_or]
  exact ⟨by decide, type, by decide, blanks, code⟩

/-- The same mention with more text behind it. -/
def follow (behind : Text) (m : Mention) : Mention := { m with behind := m.behind ++ behind }

theorem Spells.follow (spells : m.Spells text) (behind : Text) :
    (m.follow behind).Spells (text ++ behind) := by
  refine ⟨spells.type, spells.blanks, spells.code, ?_⟩
  rw [spells.text]
  simp only [Mention.text, Mention.follow, List.append_assoc]

/-- A mention that begins no later than one in the front part of a text is in that part too: it is
closed no later than the other one. -/
theorem Spells.exists_follow (spells : other.Spells (text ++ behind)) (within : m.Spells text)
    (earlier : other.before.length ≤ m.before.length) :
    ∃ inner : Mention, other = inner.follow behind ∧ inner.Spells text := by
  have split := spells.text
  rw [text_eq_opened] at split
  have cutAt : ∀ rest, text = (other.before ++ other.opened ++ ")") ++ rest →
      other.behind = rest ++ behind →
      ∃ inner : Mention, other = inner.follow behind ∧ inner.Spells text := by
    intro rest same left
    refine ⟨{ other with behind := rest }, ?_, spells.type, spells.blanks, spells.code, ?_⟩
    · rw [Mention.follow, ← left]
    · rw [same, text_eq_opened]
      rfl
  rcases List.append_eq_append_iff.mp split with ⟨more, ends, left⟩ | ⟨rest, ends, left⟩
  · rcases List.eq_nil_or_concat more with rfl | ⟨more, last, rfl⟩
    · exact cutAt [] (by simpa using ends.symm) left.symm
    · -- the bracket that closes the one in the front part would be in the opened other one
      rw [List.concat_eq_append, ← List.append_assoc] at ends
      have inside : text <+: other.before ++ other.opened :=
        ⟨more, (List.append_inj' ends rfl).1.symm⟩
      rw [within.text, text_eq_opened, List.append_assoc, List.append_assoc] at inside
      have front : other.before <+: m.before :=
        List.prefix_of_prefix_length_le (List.prefix_append _ _)
          ((List.prefix_append _ _).trans inside) earlier
      obtain ⟨gap, gapped⟩ := front
      rw [← gapped, List.append_assoc, List.prefix_append_right_inj] at inside
      exact absurd (inside.subset (by simp)) (not_mem_opened spells)
  · exact cutAt rest ends left

theorem IsFirst.follow (isFirst : m.IsFirst text) (behind : Text) :
    (m.follow behind).IsFirst (text ++ behind) := by
  refine ⟨isFirst.spells.follow behind, fun other spells => ?_⟩
  by_contra earlier
  obtain ⟨inner, rfl, spellsInner⟩ :=
    spells.exists_follow isFirst.spells (Nat.le_of_not_le earlier)
  exact earlier (isFirst.first inner spellsInner)

/-- No two mentions begin at the same place, and so there is one that begins first. -/
theorem IsFirst.eq (isFirst : m.IsFirst text) (isFirstOther : other.IsFirst text) : m = other := by
  have found := pair?_of_isFirst isFirst
  rw [pair?_of_isFirst isFirstOther, Option.some.injEq, Prod.mk.injEq] at found
  obtain ⟨type, code⟩ := found
  have length : m.before.length = other.before.length :=
    Nat.le_antisymm (isFirst.first other isFirstOther.spells)
      (isFirstOther.first m isFirst.spells)
  have same := isFirst.spells.text.symm.trans isFirstOther.spells.text
  unfold Mention.text at same
  obtain ⟨before, rest⟩ := List.append_inj same length
  rw [type, code] at rest
  replace rest := List.append_cancel_left (List.append_cancel_left (List.append_cancel_left rest))
  have trimmed := congrArg Text.trimStart rest
  have solid : ∀ rest, Text.trimStart (m.code ++ rest) = m.code ++ rest := fun rest =>
    Text.trimStart_eq_self (isBlank_head?_code isFirst.spells.code)
  rw [Text.trimStart_append isFirst.spells.blanks, Text.trimStart_append isFirstOther.spells.blanks,
    solid, solid] at trimmed
  have behind := List.append_cancel_left (List.append_cancel_left trimmed)
  rw [behind] at rest
  have blanks := List.append_cancel_right rest
  obtain ⟨_, _, _, _, _⟩ := m
  obtain ⟨_, _, _, _, _⟩ := other
  rw [Mention.mk.injEq]
  exact ⟨before, type.symm, blanks, code.symm, behind⟩

theorem exists_first (mentioned : ∃ m : Mention, m.Spells text) :
    ∃ m : Mention, m.IsFirst text := by
  obtain ⟨m, spells, least⟩ :=
    (measure fun m : Mention => m.before.length).wf.has_min {m | m.Spells text} mentioned
  exact ⟨m, spells, fun other spellsOther => Nat.not_lt.mp (least other spellsOther)⟩

end Mention

variable {text other : Text}

theorem pair?_eq_none_iff : pair? text = none ↔ ¬ ∃ m : Mention, m.Spells text := by
  constructor
  · intro missing mentioned
    obtain ⟨m, isFirst⟩ := Mention.exists_first mentioned
    rw [Mention.pair?_of_isFirst isFirst] at missing
    cases missing
  · intro unmentioned
    by_contra present
    obtain ⟨⟨type, code⟩, found⟩ := Option.ne_none_iff_exists'.mp present
    obtain ⟨m, isFirst, -⟩ := Mention.exists_isFirst_of_pair? found
    exact unmentioned ⟨m, isFirst.spells⟩

/-- What is found is settled by the first pair. -/
theorem find_congr (same : pair? text = pair? other) : find text = find other := by
  rw [find, find, same]

theorem find_of_isFirst {m : Mention} (isFirst : m.IsFirst text) :
    find text =
      match contractDigits? m.code with
      | none => .ok (some ⟨m.type, m.code, none⟩)
      | some digits =>
        if 4300 < digits.length then .error ⟨digits.length⟩
        else .ok (some ⟨m.type, m.code, some (Nat.ofDigitChars 10 digits 0)⟩) := by
  rw [find, Mention.pair?_of_isFirst isFirst]
  dsimp only
  cases contractDigits? m.code with
  | none => rfl
  | some digits =>
      by_cases long : 4300 < digits.length
      · simp only [Text.readNumeral, Text.maxDigits, long, ↓reduceIte]
        rfl
      · simp only [Text.readNumeral, Text.maxDigits, long, ↓reduceIte]
        rfl

theorem find_eq_none_iff : find text = .ok none ↔ ¬ ∃ m : Mention, m.Spells text := by
  rw [← pair?_eq_none_iff]
  constructor
  · intro missing
    by_contra present
    obtain ⟨⟨type, code⟩, found⟩ := Option.ne_none_iff_exists'.mp present
    obtain ⟨m, isFirst, -⟩ := Mention.exists_isFirst_of_pair? found
    rw [find_of_isFirst isFirst] at missing
    split at missing
    · cases missing
    · split at missing <;> cases missing
  · intro missing
    rw [find, missing]

/-- A host error that is found is the one that is mentioned first. -/
theorem exists_isFirst_of_find {error : HostError} (isFound : find text = .ok (some error)) :
    ∃ m : Mention, m.IsFirst text ∧ m.type = error.type ∧ m.code = error.code := by
  have found : find text ≠ .ok none := by simp [isFound]
  obtain ⟨m, isFirst⟩ := Mention.exists_first (not_imp_comm.mp find_eq_none_iff.mpr found)
  rw [find_of_isFirst isFirst] at isFound
  refine ⟨m, isFirst, ?_⟩
  split at isFound
  · cases isFound
    exact ⟨rfl, rfl⟩
  · split at isFound
    · cases isFound
    · cases isFound
      exact ⟨rfl, rfl⟩

/-- A text in front in which no mention begins is passed over, whatever else begins in it. -/
theorem pair?_append {front : Text}
    (outside : ∀ m : Mention, m.Spells (front ++ text) → front.length ≤ m.before.length) :
    pair? (front ++ text) = pair? text := by
  induction front with
  | nil => rfl
  | cons c front ih =>
      have missing : pairAt? (c :: (front ++ text)) = none := by
        by_contra present
        obtain ⟨⟨type, code⟩, found⟩ := Option.ne_none_iff_exists'.mp present
        obtain ⟨m, spells, begins, -⟩ := pairAt?_eq_some_iff.mp found
        have late := outside m spells
        rw [begins] at late
        cases late
      have passed : pair? (c :: (front ++ text)) = pair? (front ++ text) := by
        rw [pair?, missing]
      rw [List.cons_append, passed]
      refine ih fun m spells => ?_
      exact Nat.le_of_succ_le_succ (outside (m.shift c) (Mention.spells_shift.mpr spells))

/-- A host error is found exactly if one is mentioned, and then it is the one that is mentioned first,
in the only way to cut the text there. Its number is that of a code that is a mark and digits, and
too many digits are the only failure. Text in front in which no mention begins, such as an opening
without a pair behind it, and text behind make no difference. -/
theorem find_outcome (text : Text) :
    (find text = .ok none ↔ ¬ ∃ m : Mention, m.Spells text) ∧
    ((∃ m : Mention, m.Spells text) → ∃! m : Mention, m.IsFirst text) ∧
    (∀ m : Mention, m.IsFirst text →
      (∀ digits, m.code = '#' :: digits → IsRun Text.isDigit digits →
        find text =
          if 4300 < digits.length then .error ⟨digits.length⟩
          else .ok (some ⟨m.type, m.code, some (Nat.ofDigitChars 10 digits 0)⟩)) ∧
      ((∀ digits, m.code = '#' :: digits → ¬ IsRun Text.isDigit digits) →
        find text = .ok (some ⟨m.type, m.code, none⟩))) ∧
    ((∃ fault, find text = .error fault) ↔ ∃ m : Mention, m.IsFirst text ∧ ∃ digits,
      m.code = '#' :: digits ∧ IsRun Text.isDigit digits ∧ 4300 < digits.length) ∧
    (∀ front, (∀ m : Mention, m.Spells (front ++ text) → front.length ≤ m.before.length) →
      find (front ++ text) = find text) ∧
    (∀ behind, find text ≠ .ok none → find (text ++ behind) = find text) := by
  refine ⟨find_eq_none_iff, fun mentioned => ?_, fun m isFirst => ⟨?_, ?_⟩, ⟨?_, ?_⟩, ?_, ?_⟩
  · obtain ⟨m, isFirst⟩ := Mention.exists_first mentioned
    exact ⟨m, isFirst, fun other isFirstOther => isFirstOther.eq isFirst⟩
  · intro digits isCode run
    rw [find_of_isFirst isFirst, contractDigits?_eq_some_iff.mpr ⟨isCode, run⟩]
  · intro unmarked
    have none : contractDigits? m.code = none := by
      by_contra present
      obtain ⟨digits, marked⟩ := Option.ne_none_iff_exists'.mp present
      obtain ⟨isCode, run⟩ := contractDigits?_eq_some_iff.mp marked
      exact unmarked digits isCode run
    rw [find_of_isFirst isFirst, none]
  · intro failed
    obtain ⟨fault, failed⟩ := failed
    obtain ⟨digits, ⟨m, isFirst, isCode, run, long⟩, -⟩ := find_eq_error_iff.mp failed
    exact ⟨m, isFirst, digits, isCode, run, long⟩
  · intro overlong
    obtain ⟨m, isFirst, digits, isCode, run, long⟩ := overlong
    exact ⟨_, find_eq_error_iff.mpr ⟨digits, ⟨m, isFirst, isCode, run, long⟩, rfl⟩⟩
  · exact fun front outside => find_congr (pair?_append outside)
  · intro behind found
    have mentioned := not_imp_comm.mp find_eq_none_iff.mpr found
    obtain ⟨m, isFirst⟩ := Mention.exists_first mentioned
    refine find_congr ?_
    rw [Mention.pair?_of_isFirst isFirst, Mention.pair?_of_isFirst (isFirst.follow behind)]
    rfl

/-- Neither an opening that leads nowhere nor one inside another hides what follows them, and a
second host error is not looked at. -/
example : find "Error(, Error(Error(A, #07), Error(B, c)" = .ok (some ⟨"A", "#07", some 7⟩) := rfl

end SimTriage.HostError
