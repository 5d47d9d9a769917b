import SimTriage.Proofs.Event.Line
import SimTriage.Proofs.Failure
import SimTriage.Proofs.Message.Collect

/-!
The log of a message, line by line: which lines add an entry to it, and which line keeps a message
from being read.
-/

set_option autoImplicit false

namespace SimTriage

open Event (Entry IsLine IsOverlongLine)

/-- The entry of a line. A line whose index cannot be read has none. -/
def Event.Entry.ofLine? (line : Text) : Option Entry :=
  match read line with
  | .ok found => found
  | .error _ => none

namespace Message

variable {text : Text} {message : Message}

/-- The lines after the headline, stripped. -/
def bodyLines (text : Text) : List Text := (Text.splitOn '\n' text).tail.map Text.strip

/-- The entries that the lines after the headline are, in order. -/
def logOf (text : Text) : List Entry := (bodyLines text).filterMap Entry.ofLine?

theorem strip_of_mem_bodyLines {line : Text} (member : line ∈ bodyLines text) :
    Text.strip line = line := by
  obtain ⟨raw, -, rfl⟩ := List.mem_map.mp member
  exact Text.strip_strip raw

theorem read_of_not_isCandidate {line : Text} (skipped : isCandidate line = false) :
    Entry.read line = .ok none := by
  by_cases empty : line = []
  · subst empty
    rfl
  · have header : line = logHeader := by simpa [isCandidate, empty] using skipped
    subst header
    rfl

theorem isCandidate_of_isLine {line : Text} (isLine : IsLine line) : isCandidate line = true := by
  by_contra skipped
  exact Entry.isLine_iff.mp isLine (read_of_not_isCandidate (by simpa using skipped))

/-- The lines that are skipped have no entry. -/
theorem logOf_eq_candidates (text : Text) :
    logOf text = (candidates text).filterMap Entry.ofLine? := by
  rw [candidates, List.filterMap_filter]
  refine List.filterMap_congr fun line _ => ?_
  by_cases candidate : isCandidate line = true
  · simp [candidate]
  · have skipped : isCandidate line = false := by simpa using candidate
    simp [skipped, Entry.ofLine?, read_of_not_isCandidate skipped]

/-- A message cannot be read because of the first line whose index is too long. -/
theorem read_eq_error_iff {fault : Text.OverlongNumeral} :
    read text = .error fault ↔
      ∃ line, IsFirst IsOverlongLine (bodyLines text) line ∧ Entry.read line = .error fault := by
  have overlong : IsOverlongLine = fun line => ∃ fault, Entry.read line = .error fault := by
    funext line
    exact propext Entry.isOverlongLine_iff
  have first : ∀ line, IsFirst IsOverlongLine (candidates text) line ↔
      IsFirst IsOverlongLine (bodyLines text) line := fun line =>
    IsFirst.filter_iff fun line overlong => isCandidate_of_isLine overlong.isLine
  have whole : read text = _ := readWith_eq Entry.read text
  simp only [← first]
  rw [whole, bind_eq_error_iff, overlong, mapM_eq_error_iff]
  constructor
  · intro failed
    rcases failed with failed | ⟨_, _, ended⟩
    · exact failed
    · cases ended
  · exact Or.inl

theorem read_fails_iff :
    (∃ fault, read text = .error fault) ↔ ∃ line ∈ bodyLines text, IsOverlongLine line := by
  constructor
  · intro failed
    obtain ⟨fault, failed⟩ := failed
    obtain ⟨line, first, -⟩ := read_eq_error_iff.mp failed
    exact ⟨line, first.mem, first.holds⟩
  · intro present
    obtain ⟨line, first⟩ := exists_isFirst present
    obtain ⟨fault, failed⟩ := Entry.isOverlongLine_iff.mp first.holds
    exact ⟨fault, read_eq_error_iff.mpr ⟨line, first, failed⟩⟩

/-- A message is read unless an index is too long, and it is its first line and its log. -/
theorem read_eq_ok_iff :
    read text = .ok message ↔
      (∀ line ∈ bodyLines text, ¬ IsOverlongLine line) ∧
        message = ⟨text.takeWhile (· ≠ '\n'), logOf text⟩ := by
  have written : ∀ other, read text = .ok other →
      other = ⟨text.takeWhile (· ≠ '\n'), logOf text⟩ := by
    intro other accepted
    have whole : read text = _ := readWith_eq Entry.read text
    rw [whole] at accepted
    obtain ⟨found, all, same⟩ := bind_eq_ok_iff.mp accepted
    cases same
    have entries := congrArg
      (List.filterMap fun r : Except Text.OverlongNumeral (Option Entry) => r.toOption.join)
      (mapM_eq_ok_iff.mp all)
    have ofLine : (fun r : Except Text.OverlongNumeral (Option Entry) => r.toOption.join) ∘
        Entry.read = Entry.ofLine? := by
      funext line
      simp only [Function.comp_apply, Entry.ofLine?]
      cases Entry.read line <;> rfl
    rw [List.filterMap_map, List.filterMap_map, ofLine, ← logOf_eq_candidates] at entries
    rw [entries]
    rfl
  constructor
  · intro accepted
    refine ⟨fun line member overlong => ?_, written message accepted⟩
    obtain ⟨fault, failed⟩ := read_fails_iff.mpr ⟨line, member, overlong⟩
    rw [accepted] at failed
    cases failed
  · intro passes
    obtain ⟨short, rfl⟩ := passes
    cases result : read text with
    | error fault =>
        obtain ⟨line, member, overlong⟩ := read_fails_iff.mp ⟨fault, result⟩
        exact absurd overlong (short line member)
    | ok other => rw [written other result]

/-- Every line that is an entry adds one to the log. -/
theorem length_logOf (short : ∀ line ∈ bodyLines text, ¬ IsOverlongLine line) :
    (logOf text).length = (bodyLines text).countP (IsLine ·) := by
  have added : ∀ line ∈ bodyLines text,
      (Entry.ofLine? line).isSome = decide (IsLine line) := by
    intro line member
    rw [Bool.eq_iff_iff, decide_eq_true_iff, Entry.isLine_iff, Entry.ofLine?]
    cases found : Entry.read line with
    | error fault => exact absurd (Entry.isOverlongLine_iff.mpr ⟨fault, found⟩) (short line member)
    | ok entry => cases entry <;> simp
  rw [logOf, List.length_filterMap_eq_countP]
  exact List.countP_congr fun line member => by rw [added line member]

theorem exists_read_of_mem_logOf {entry : Entry} (member : entry ∈ logOf text) :
    ∃ line ∈ bodyLines text, Entry.read line = .ok (some entry) := by
  obtain ⟨line, inBody, found⟩ := List.mem_filterMap.mp member
  refine ⟨line, inBody, ?_⟩
  unfold Entry.ofLine? at found
  split at found
  · rename_i result accepted
    rw [accepted, found]
  · cases found

theorem wellFormed_of_mem_logOf {entry : Entry} (member : entry ∈ logOf text) :
    entry.WellFormed := by
  obtain ⟨line, inBody, accepted⟩ := exists_read_of_mem_logOf member
  exact Entry.wellFormed_of_read (strip_of_mem_bodyLines inBody) accepted

/-- Whatever is in the log of a message has been read off one of its lines. -/
theorem wellFormed_of_read {entry : Entry} (accepted : read text = .ok message)
    (member : entry ∈ message.log) : entry.WellFormed := by
  obtain ⟨-, rfl⟩ := read_eq_ok_iff.mp accepted
  exact wellFormed_of_mem_logOf member

end Message

end SimTriage
