import SimTriage.Proofs.Event.Grammar
import SimTriage.Proofs.Event.Topics
import SimTriage.Proofs.Text.Numeral

/-!
Lines that are entries, those among them whose index is too long to be read, and what the entries
that are read off lines are made of.
-/

set_option autoImplicit false

namespace SimTriage.Event

open Text (IsBlankRun IsRun)

/-- The line is an entry, whatever the length of its index. -/
def IsLine (line : Text) : Prop := ∃ s : Layout, s.Spells line

/-- The line is an entry but for its index, which has too many digits. -/
def IsOverlongLine (line : Text) : Prop :=
  ∃ s : Layout, s.Spells line ∧ 4300 < s.heading.index.length

theorem IsOverlongLine.isLine {line : Text} (overlong : IsOverlongLine line) : IsLine line := by
  obtain ⟨s, spells, -⟩ := overlong
  exact ⟨s, spells⟩

/-- All layouts of a line have the same index. -/
theorem IsOverlongLine.of_spells {line : Text} {s : Layout} (overlong : IsOverlongLine line)
    (spells : s.Spells line) : 4300 < s.heading.index.length := by
  obtain ⟨t, spellsT, long⟩ := overlong
  obtain ⟨_, _, found⟩ := Entry.parts?_of_spells spells
  obtain ⟨_, _, foundT⟩ := Entry.parts?_of_spells spellsT
  have same := Option.some.inj (found.symm.trans foundT)
  injection same with index
  rw [index]
  exact long

theorem splitTopics_ne_nil {body : Text} (nonempty : body ≠ []) : splitTopics body ≠ [] := by
  have joined := join_cutTopics 0 body
  rw [splitTopics, ne_eq, List.map_eq_nil_iff]
  split
  · rename_i last
    intro none
    -- a single piece without any character is the whole body
    have single : cutTopics 0 body = [[]] := by
      rw [← List.dropLast_append_getLast? _ last, none, List.nil_append]
    rw [single] at joined
    exact nonempty joined.symm
  · exact cutTopics_ne_nil 0 body

theorem strip_of_mem_splitTopics {body topic : Text} (member : topic ∈ splitTopics body) :
    Text.strip topic = topic := by
  obtain ⟨piece, -, rfl⟩ := List.mem_map.mp member
  exact Text.strip_strip piece

/-- Nothing follows the data of a line that is stripped, and the data is more than blanks. -/
theorem Layout.data_of_stripped {s : Layout} {line : Text} (spells : s.Spells line)
    (stripped : Text.strip line = line) : Text.strip s.data ≠ [] := by
  have solid := (Text.strip_eq_self_iff.mp stripped).2
  have nonempty := spells.data.1
  have written : line = s.text := by
    rcases spells.line with same | same
    · exact same
    · have feed := solid '\n' (by simp [same])
      exact absurd feed (by decide)
  intro blank
  have last : line.getLast? = some (s.data.getLast nonempty) := by
    rw [written, Layout.text]
    simp only [← List.append_assoc]
    rw [List.getLast?_append_of_ne_nil _ nonempty, List.getLast?_eq_some_getLast nonempty]
  have isBlank := Text.strip_eq_nil_iff.mp blank _ (List.getLast_mem nonempty)
  rw [solid _ last] at isBlank
  cases isBlank

namespace Entry

variable {line : Text} {entry : Entry}

theorem isLine_iff : IsLine line ↔ read line ≠ .ok none := by
  constructor
  · intro isLine
    obtain ⟨s, spells⟩ := isLine
    rcases read_of_spells spells with ⟨-, failed⟩ | ⟨-, entry, accepted⟩
    · simp [failed]
    · simp [accepted]
  · exact spells_of_read_ne_none

instance : DecidablePred IsLine := fun _ => decidable_of_iff _ isLine_iff.symm

/-- An index that is too long is the only failure, and its digits are counted. -/
theorem read_eq_error_iff {fault : Text.OverlongNumeral} :
    read line = .error fault ↔
      ∃ s : Layout, s.Spells line ∧ 4300 < s.heading.index.length ∧
        fault = ⟨s.heading.index.length⟩ := by
  constructor
  · intro failed
    have isLine : read line ≠ .ok none := by simp [failed]
    obtain ⟨s, spells⟩ := spells_of_read_ne_none isLine
    rcases read_of_spells spells with ⟨long, other⟩ | ⟨-, entry, accepted⟩
    · rw [failed] at other
      exact ⟨s, spells, long, Except.error.inj other⟩
    · rw [failed] at accepted
      cases accepted
  · intro laidOut
    obtain ⟨s, spells, long, rfl⟩ := laidOut
    rcases read_of_spells spells with ⟨-, failed⟩ | ⟨short, -⟩
    · exact failed
    · omega

theorem isOverlongLine_iff : IsOverlongLine line ↔ ∃ fault, read line = .error fault := by
  simp only [read_eq_error_iff]
  constructor
  · intro overlong
    obtain ⟨s, spells, long⟩ := overlong
    exact ⟨_, s, spells, long, rfl⟩
  · intro failed
    obtain ⟨_, s, spells, long, -⟩ := failed
    exact ⟨s, spells, long⟩

theorem exists_layout_of_read (accepted : read line = .ok (some entry)) :
    ∃ s : Layout, s.Spells line ∧ entry.kind.label = s.heading.label ∧
      entry = ⟨Nat.ofDigitChars 10 s.heading.index 0, entry.kind, s.heading.contractName,
        splitTopics s.topics, Text.strip s.data⟩ := by
  have isLine : IsLine line := isLine_iff.mpr (by simp [accepted])
  obtain ⟨s, spells, shortest⟩ := exists_shortest isLine
  obtain ⟨kind, label⟩ := spells.label
  have found := read_of_parts? (parts?_of_shortest spells shortest) label
  rw [accepted] at found
  split at found
  · cases found
  · cases found
    exact ⟨s, spells, label, rfl⟩

/-- The index of an entry that is read is not too long to be written. -/
theorem index_length_le_of_read (accepted : read line = .ok (some entry)) :
    (Text.ofNat entry.index.natAbs).length ≤ Text.maxDigits := by
  obtain ⟨s, spells, -, same⟩ := exists_layout_of_read accepted
  rw [same]
  rcases read_of_spells spells with ⟨-, failed⟩ | ⟨short, -⟩
  · cases failed.symm.trans accepted
  · exact (Text.ofNat_numeralValue_length_le spells.heading.index).trans short

/-- What every entry that is read is made of. -/
structure WellFormed (entry : Entry) : Prop where
  index : 0 ≤ entry.index
  contract : ∀ contract ∈ entry.contract, IsRun isContractChar contract
  topics : entry.topics ≠ []
  topic : ∀ topic ∈ entry.topics, Text.strip topic = topic
  data : entry.data ≠ [] ∧ Text.strip entry.data = entry.data

theorem wellFormed_of_read (stripped : Text.strip line = line)
    (accepted : read line = .ok (some entry)) : entry.WellFormed := by
  obtain ⟨s, spells, -, same⟩ := exists_layout_of_read accepted
  rw [same]
  refine ⟨Int.natCast_nonneg _, ?_, splitTopics_ne_nil spells.topics.1, ?_, ?_, ?_⟩
  · intro contract named
    obtain ⟨field, member, rfl⟩ := Option.map_eq_some_iff.mp named
    exact (spells.heading.contract field member).1
  · exact fun topic member => strip_of_mem_splitTopics member
  · exact Layout.data_of_stripped spells stripped
  · exact Text.strip_strip s.data

end Entry

end SimTriage.Event
