import SimTriage.Proofs.Command.Topics

/-!
The lines that entries are printed as. Whatever stands in the message that an entry has been read
from, its line holds no line feed, and its index, kind and contract can be read off the line again.
-/

set_option autoImplicit false

namespace SimTriage

open Event (Entry Kind isContractChar splitTopics)
open Text (IsRun)

/-- All characters of topics are those of their body. -/
theorem Event.mem_of_mem_splitTopics {body topic : Text} {c : Char}
    (isTopic : topic ∈ splitTopics body) (member : c ∈ topic) : c ∈ body := by
  obtain ⟨piece, isPiece, rfl⟩ := List.mem_map.mp isTopic
  rw [← join_cutTopics 0 body]
  refine Text.mem_join_of_mem [','] ?_ (Text.mem_of_mem_strip member)
  split at isPiece
  · exact List.mem_of_mem_dropLast isPiece
  · exact isPiece

namespace Event.Entry.IsLogged

variable {entry : Entry}

theorem wellFormed (logged : entry.IsLogged) : entry.WellFormed := by
  obtain ⟨text, message, accepted, member⟩ := logged
  exact Message.wellFormed_of_read accepted member

/-- The topics and the data of an entry have been within one line. -/
theorem newline_not_mem (logged : entry.IsLogged) :
    (∀ topic ∈ entry.topics, '\n' ∉ topic) ∧ '\n' ∉ entry.data := by
  obtain ⟨text, message, accepted, member⟩ := logged
  obtain ⟨-, rfl⟩ := Message.read_eq_ok_iff.mp accepted
  obtain ⟨line, -, found⟩ := Message.exists_read_of_mem_logOf member
  obtain ⟨s, spells, -, same⟩ := Entry.exists_layout_of_read found
  rw [same]
  constructor
  · exact fun topic isTopic inTopic => spells.topics.2 (mem_of_mem_splitTopics isTopic inTopic)
  · exact fun inData => spells.data.2 (Text.mem_of_mem_strip inData)

end Event.Entry.IsLogged

namespace Command

variable {entry : Entry}

/-- A contract that has been read has a character. -/
theorem contractField_eq (wellFormed : entry.WellFormed) :
    contractField entry = entry.contract.getD "-" := by
  unfold contractField
  split
  · rename_i none
    rw [none, Option.getD_none]
  · rename_i empty
    exact absurd rfl (wellFormed.contract [] empty).1
  · rename_i contract _ some
    rw [some, Option.getD_some]

theorem contractField_run (wellFormed : entry.WellFormed) :
    IsRun isContractChar (contractField entry) := by
  rw [contractField_eq wellFormed]
  cases named : entry.contract with
  | none => decide
  | some contract => exact wellFormed.contract contract named

theorem newline_not_mem_run {p : Char → Bool} {run : Text} (isRun : IsRun p run)
    (outside : p '\n' = false) : '\n' ∉ run := by
  intro member
  rw [isRun.2 _ member] at outside
  cases outside

theorem newline_not_mem_ofNat (n : Nat) : '\n' ∉ Text.ofNat n :=
  newline_not_mem_run (Text.ofNat_run n) (by decide)

theorem newline_not_mem_label (kind : Kind) : '\n' ∉ kind.label := by
  cases kind <;> decide

theorem newline_not_mem_entryText (logged : entry.IsLogged) : '\n' ∉ entryText entry := by
  have wellFormed := logged.wellFormed
  obtain ⟨topics, data⟩ := logged.newline_not_mem
  have index : '\n' ∉ Text.ofInt entry.index := by
    rw [Text.ofInt_of_nonneg wellFormed.index]
    exact newline_not_mem_ofNat _
  have label := newline_not_mem_label entry.kind
  have contract := newline_not_mem_run (contractField_run wellFormed) (by decide)
  have joined : '\n' ∉ Text.join ", " entry.topics := by
    intro member
    rcases Text.mem_join member with inSeparator | ⟨topic, isTopic, inTopic⟩
    · exact absurd inSeparator (by decide)
    · exact topics topic isTopic inTopic
  unfold entryText topicsField
  simp only [List.append_assoc, List.mem_append, not_or]
  exact ⟨index, by decide, label, by decide, contract, by decide, by decide, joined, by decide,
    by decide, data⟩

/-- What the front of a line tells of its entry. A hyphen is the contract of an entry without one,
or one of that name. -/
structure Tag where
  index : Int
  kind : Kind
  contract : Text
deriving DecidableEq, Repr

/-- Reads the tag off the front of a line. -/
def readTag? (text : Text) : Option Tag := do
  let (index, rest) ← Entry.run? Text.isDigit text
  let (label, rest) ← Entry.run? (· ≠ ']') (← Text.after? ": [" rest)
  let kind ← Kind.ofLabel? label
  let (contract, _) ← Entry.run? isContractChar (← Text.after? "] " rest)
  return ⟨Text.numeralValue index, kind, contract⟩

/-- A colon ends the index, a bracket the label and a space the contract, and none of them can stand
inside. -/
theorem readTag?_entryText (wellFormed : entry.WellFormed) :
    readTag? (entryText entry) = some ⟨entry.index, entry.kind, entry.contract.getD "-"⟩ := by
  have index : ∀ rest : Text, Entry.run? Text.isDigit (Text.ofNat entry.index.toNat ++
      (": [" ++ rest)) = some (Text.ofNat entry.index.toNat, ": [" ++ rest) := fun rest =>
    Entry.run?_eq_some_iff.mpr ⟨Text.ofNat_run _, rfl, fun c first => by cases first; decide⟩
  have label : ∀ rest : Text, Entry.run? (· ≠ ']') (entry.kind.label ++ ("] " ++ rest)) =
      some (entry.kind.label, "] " ++ rest) := fun rest =>
    Entry.run?_eq_some_iff.mpr
      ⟨Event.Kind.label_run entry.kind, rfl, fun c first => by cases first; decide⟩
  have contract : ∀ rest : Text, Entry.run? isContractChar (contractField entry ++
      (" " ++ rest)) = some (contractField entry, " " ++ rest) := fun rest =>
    Entry.run?_eq_some_iff.mpr
      ⟨contractField_run wellFormed, rfl, fun c first => by cases first; decide⟩
  have number : ((Text.numeralValue (Text.ofNat entry.index.toNat) : Nat) : Int) = entry.index := by
    rw [Text.numeralValue_ofNat]
    exact Int.toNat_of_nonneg wellFormed.index
  rw [← contractField_eq wellFormed]
  simp only [readTag?, entryText, List.append_assoc, Text.ofInt_of_nonneg wellFormed.index, index,
    Text.after?_append, label, Kind.ofLabel?_label, contract, Option.bind_eq_bind, Option.bind_some,
    Option.pure_def, number]

end Command

end SimTriage
