import SimTriage.Proofs.HostError
import SimTriage.Proofs.Message.Log

/-!
When reading fails. Any text is read as a message, and searched for a host error, unless a number in
it has too many digits; leading zeros are digits too.
-/

set_option autoImplicit false

namespace SimTriage.Message

open Event (Entry Kind Layout IsOverlongLine)

/-- A text is read as its first line and its log, and its host error is found, exactly unless an
index or the number of the host error is too long. Of several such lines the first one counts. -/
theorem read_find_fails_iff (text : Text) :
    ((∃ message, read text = .ok message) ↔ ∀ line ∈ bodyLines text, ¬ IsOverlongLine line) ∧
    (∀ message, read text = .ok message →
      message = ⟨text.takeWhile (· ≠ '\n'), logOf text⟩) ∧
    (∀ fault, read text = .error fault ↔ ∃ line, IsFirst IsOverlongLine (bodyLines text) line ∧
      ∃ s : Layout, s.Spells line ∧ fault = ⟨s.heading.index.length⟩) ∧
    ((∃ found, HostError.find text = .ok found) ↔ ¬ ∃ digits, HostError.IsOverlong text digits) ∧
    (∀ fault, HostError.find text = .error fault ↔
      ∃ digits, HostError.IsOverlong text digits ∧ fault = ⟨digits.length⟩) := by
  refine ⟨⟨?_, ?_⟩, ?_, ?_, HostError.exists_find_iff, fun fault => HostError.find_eq_error_iff⟩
  · intro accepted
    obtain ⟨message, accepted⟩ := accepted
    exact (read_eq_ok_iff.mp accepted).1
  · exact fun short => ⟨_, read_eq_ok_iff.mpr ⟨short, rfl⟩⟩
  · exact fun message accepted => (read_eq_ok_iff.mp accepted).2
  · intro fault
    rw [read_eq_error_iff]
    refine exists_congr fun line => and_congr_right fun first => ?_
    rw [Entry.read_eq_error_iff]
    constructor
    · intro laidOut
      obtain ⟨s, spells, -, same⟩ := laidOut
      exact ⟨s, spells, same⟩
    · intro laidOut
      obtain ⟨s, spells, same⟩ := laidOut
      exact ⟨s, spells, first.holds.of_spells spells, same⟩

/-- The number zero, with so many digits. -/
def zeros (count : Nat) : Text := List.replicate count '0'

/-- The line of an entry with the index zero. -/
def zeroLine (count : Nat) : Text := zeros count ++ ": [Contract Event] topics:[a], data:1"

theorem zeros_run (count : Nat) : Text.IsRun Text.isDigit (zeros (count + 1)) := by
  refine ⟨by simp [zeros], fun c member => ?_⟩
  rw [List.eq_of_mem_replicate member]
  decide

theorem read_zeroLine {count : Nat} (long : 4300 < count) :
    Entry.read (zeroLine count) = .error ⟨count⟩ := by
  obtain ⟨more, rfl⟩ : ∃ more, count = more + 1 := ⟨count - 1, by omega⟩
  have space : Text.IsBlankRun [' '] := by decide
  have topics : (['a'] : Text) ≠ [] ∧ '\n' ∉ (['a'] : Text) := by decide
  have data : (['1'] : Text) ≠ [] ∧ '\n' ∉ (['1'] : Text) := by decide
  let s : Layout :=
    ⟨⟨[], zeros (more + 1), [], [' '], Kind.contract.label, [' '], none⟩, ['a'], [' '], ['1']⟩
  have spells : s.Spells (zeroLine (more + 1)) := by
    refine ⟨⟨Text.isBlankRun_nil, zeros_run more, Text.isBlankRun_nil, space, space, ?_⟩,
      ⟨.contract, rfl⟩, topics, space, data, Or.inl ?_⟩
    · intro field member
      cases member
    · simp only [s, zeroLine, Layout.text, Event.Heading.text, List.append_assoc, List.nil_append]
      rfl
  have length : s.heading.index.length = more + 1 := List.length_replicate
  exact Entry.read_eq_error_iff.mpr ⟨s, spells, by omega, by rw [length]⟩

theorem bodyLines_zeroLine (count : Nat) :
    bodyLines ("boom\n" ++ zeroLine (count + 1)) = [zeroLine (count + 1)] := by
  have line : '\n' ∉ zeroLine (count + 1) := by
    intro member
    rcases List.mem_append.mp member with member | member
    · exact absurd (List.eq_of_mem_replicate member) (by decide)
    · revert member
      decide
  have stripped : Text.strip (zeroLine (count + 1)) = zeroLine (count + 1) := by
    rw [Text.strip_eq_self_iff]
    constructor
    · intro c first
      cases first
      decide
    · intro c last
      rw [zeroLine, List.getLast?_append_of_ne_nil _ (by decide)] at last
      cases last
      decide
  have split := Text.splitOn_append '\n' "boom" (zeroLine (count + 1))
  rw [Text.splitOn_of_not_mem line] at split
  have lines : Text.splitOn '\n' ("boom\n" ++ zeroLine (count + 1)) = _ := split
  rw [bodyLines, lines]
  exact congrArg ([·]) stripped

theorem find_zeros {count : Nat} (long : 4300 < count) :
    HostError.find ("Error(Contract, #" ++ (zeros count ++ ")")) = .error ⟨count⟩ := by
  obtain ⟨more, rfl⟩ : ∃ more, count = more + 1 := ⟨count - 1, by omega⟩
  have digits := zeros_run more
  have space : Text.IsBlankRun [' '] := by decide
  have length : (zeros (more + 1)).length = more + 1 := List.length_replicate
  have named : Text.IsRun HostError.isNameChar (zeros (more + 1)) := by
    refine ⟨digits.1, fun c member => ?_⟩
    rw [List.eq_of_mem_replicate member]
    decide
  have letters : ∀ c ∈ ("ontract" : Text), HostError.isNameChar c = true :=
    List.all_eq_true.mp (by decide)
  let m : HostError.Mention := ⟨[], "Contract", [' '], '#' :: zeros (more + 1), []⟩
  have opening : ("Error(Contract, #" : Text) = "Error(" ++ ("Contract" ++ ("," ++ [' ', '#'])) :=
    rfl
  have spells : m.Spells ("Error(Contract, #" ++ (zeros (more + 1) ++ ")")) := by
    refine ⟨⟨'C', "ontract", rfl, rfl, letters⟩, space, Or.inr ⟨_, rfl, named⟩, ?_⟩
    simp only [m, HostError.Mention.text, opening, List.append_assoc, List.cons_append,
      List.nil_append, List.append_nil]
  have isFirst : m.IsFirst ("Error(Contract, #" ++ (zeros (more + 1) ++ ")")) :=
    ⟨spells, fun other _ => Nat.zero_le _⟩
  exact HostError.find_eq_error_iff.mpr
    ⟨_, ⟨m, isFirst, rfl, digits, by omega⟩, by rw [length]⟩

/-- An index of 4301 zeros keeps a message from being read, and as many zeros behind the mark of a
code keep a host error from being found, although each of these numbers is zero. -/
theorem not_read_zeros :
    read ("boom\n" ++ zeroLine 4301) = .error ⟨4301⟩ ∧
      HostError.find ("Error(Contract, #" ++ (zeros 4301 ++ ")")) = .error ⟨4301⟩ ∧
      ¬ ((∀ text, ∃ message, read text = .ok message) ∧
        ∀ text, ∃ found, HostError.find text = .ok found) := by
  have failed : Entry.read (zeroLine 4301) = .error ⟨4301⟩ := read_zeroLine (by decide)
  have unread : read ("boom\n" ++ zeroLine 4301) = .error ⟨4301⟩ := by
    rw [read_eq_error_iff, bodyLines_zeroLine]
    exact ⟨_, .cons_self (Entry.isOverlongLine_iff.mpr ⟨_, failed⟩), failed⟩
  refine ⟨unread, find_zeros (by decide), fun always => ?_⟩
  obtain ⟨message, accepted⟩ := always.1 ("boom\n" ++ zeroLine 4301)
  rw [unread] at accepted
  cases accepted

end SimTriage.Message
