import SimTriage.Command.Print
import SimTriage.Proofs.Event.Segments
import SimTriage.Proofs.Message.Log

/-!
The topics of an entry as its line shows them, joined. Topics that can be told apart are split again
where they were joined, and so are all topics that a body is split into, but for a single empty one.
-/

set_option autoImplicit false

namespace SimTriage

open Event (Entry IsAtomic IsBalanced splitTopics)

namespace Event

variable {body other topic : Text}

theorem isBalanced_strip : IsBalanced (Text.strip topic) ↔ IsBalanced topic := by
  rw [IsBalanced, IsBalanced, Text.count_strip (by decide), Text.count_strip (by decide)]

theorem IsAtomic.strip (atomic : IsAtomic topic) : IsAtomic (Text.strip topic) := by
  intro front back split
  obtain ⟨blanks, more, blank, -, whole⟩ := Text.exists_strip topic
  have balanced : IsBalanced blanks := by
    rw [← isBalanced_strip, Text.strip_eq_nil_iff.mpr blank]
    rfl
  rw [← isBalanced_append balanced]
  refine atomic (blanks ++ front) (back ++ more) ?_
  rw [whole, split]
  simp only [List.append_assoc, List.cons_append]

/-- No topic of a body holds a comma at which it would be split, and only the last may leave a
bracket open. -/
theorem isAtomic_isBalanced_splitTopics (body : Text) :
    (∀ topic ∈ splitTopics body, IsAtomic topic) ∧
      ∀ topic ∈ (splitTopics body).dropLast, IsBalanced topic := by
  obtain ⟨atomic, balanced⟩ := (isCut_cutTopics body).isAtomic_isBalanced
  rw [splitTopics, ← List.map_dropLast]
  refine ⟨List.forall_mem_map.mpr fun segment member => ?_,
    List.forall_mem_map.mpr fun segment member => isBalanced_strip.mpr ?_⟩
  · split at member
    · exact (atomic segment (List.mem_of_mem_dropLast member)).strip
    · exact (atomic segment member).strip
  · split at member
    · exact balanced segment (List.mem_of_mem_dropLast member)
    · exact balanced segment member

/-- A topic is not split any further. -/
theorem splitTopics_of_mem (member : topic ∈ splitTopics body) (nonempty : topic ≠ []) :
    splitTopics topic = [topic] := by
  have stripped : ∀ other ∈ [topic], Text.strip other = other :=
    List.forall_mem_singleton.mpr (strip_of_mem_splitTopics member)
  have atomic : ∀ other ∈ [topic], IsAtomic other :=
    List.forall_mem_singleton.mpr ((isAtomic_isBalanced_splitTopics body).1 topic member)
  exact splitTopics_join (by simp) (by simpa using nonempty) stripped atomic (by simp)

/-- Joining the topics of a body leads to a text with the same topics, unless the only topic is an
empty one. -/
theorem splitTopics_join_splitTopics (several : splitTopics body ≠ [[]]) :
    splitTopics (Text.join ", " (splitTopics body)) = splitTopics body := by
  obtain ⟨atomic, balanced⟩ := isAtomic_isBalanced_splitTopics body
  by_cases none : splitTopics body = []
  · rw [none]
    rfl
  · exact splitTopics_join none several (fun _ => strip_of_mem_splitTopics) atomic balanced

/-- The joined topics of a body with any character determine them. -/
theorem join_splitTopics_inj (filled : body ≠ []) (filledOther : other ≠ [])
    (same : Text.join ", " (splitTopics body) = Text.join ", " (splitTopics other)) :
    splitTopics body = splitTopics other := by
  have single : ∀ {body other : Text}, other ≠ [] → splitTopics body = [[]] →
      Text.join ", " (splitTopics body) = Text.join ", " (splitTopics other) →
      splitTopics other = [[]] := by
    intro body other filled empty same
    by_contra several
    rw [empty] at same
    exact Text.join_ne_nil (by decide) (splitTopics_ne_nil filled) several same.symm
  by_cases empty : splitTopics body = [[]]
  · rw [empty, single filledOther empty same]
  · by_cases emptyOther : splitTopics other = [[]]
    · rw [emptyOther, single filled emptyOther same.symm]
    · rw [← splitTopics_join_splitTopics empty, same, splitTopics_join_splitTopics emptyOther]

end Event

/-- The entry is in the log of a message that has been read. -/
def Event.Entry.IsLogged (entry : Entry) : Prop :=
  ∃ text message, Message.read text = .ok message ∧ entry ∈ message.log

theorem Event.Entry.IsLogged.exists_body {entry : Entry} (logged : entry.IsLogged) :
    ∃ body, body ≠ [] ∧ entry.topics = splitTopics body := by
  obtain ⟨text, message, accepted, member⟩ := logged
  obtain ⟨-, rfl⟩ := Message.read_eq_ok_iff.mp accepted
  obtain ⟨line, -, found⟩ := Message.exists_read_of_mem_logOf member
  obtain ⟨s, spells, -, same⟩ := Entry.exists_layout_of_read found
  exact ⟨s.topics, spells.topics.1, congrArg Entry.topics same⟩

namespace Command

theorem entryLine_topicsField (entry : Entry) :
    ∃ front : Text, entryLine entry =
      front ++ (" " ++ (topicsField entry.topics ++ (" data=" ++ (entry.data ++ ['\n'])))) := by
  -- the parts behind the contract are grouped, whatever stands in front of them
  have regroup : ∀ front space topics label data feed : Text,
      front ++ space ++ topics ++ label ++ data ++ feed =
        front ++ (space ++ (topics ++ (label ++ (data ++ feed)))) := by
    intros
    simp only [List.append_assoc]
  exact ⟨_, regroup _ _ _ _ _ _⟩

/-- Splitting undoes joining, and joining split topics again changes nothing, but for a single empty
topic, which joins to a text without topics. So the line of a logged entry tells its topics. -/
theorem joined_topics :
    (∀ topics : List Text, topics ≠ [[]] → (∀ topic ∈ topics, Text.strip topic = topic) →
      (∀ topic ∈ topics.dropLast, IsBalanced topic) → (∀ topic ∈ topics, IsAtomic topic) →
      splitTopics (Text.join ", " topics) = topics) ∧
    (∀ body, (splitTopics (Text.join ", " (splitTopics body)) = splitTopics body ↔
        splitTopics body ≠ [[]]) ∧
      ∀ topic ∈ splitTopics body, topic ≠ [] → splitTopics topic = [topic]) ∧
    (∀ entry : Entry, ∃ front : Text, entryLine entry =
      front ++ (" " ++ (topicsField entry.topics ++ (" data=" ++ (entry.data ++ ['\n']))))) ∧
    (∀ entry other : Entry, entry.IsLogged → other.IsLogged →
      topicsField entry.topics = topicsField other.topics → entry.topics = other.topics) := by
  refine ⟨fun topics several stripped balanced atomic => ?_, fun body => ⟨⟨?_, ?_⟩, ?_⟩,
    entryLine_topicsField, fun entry other logged loggedOther same => ?_⟩
  · by_cases none : topics = []
    · rw [none]
      rfl
    · exact Event.splitTopics_join none several stripped atomic balanced
  · intro same empty
    rw [empty] at same
    exact absurd same (by decide)
  · exact Event.splitTopics_join_splitTopics
  · exact fun topic member nonempty => Event.splitTopics_of_mem member nonempty
  · obtain ⟨body, filled, topics⟩ := logged.exists_body
    obtain ⟨bodyOther, filledOther, topicsOther⟩ := loggedOther.exists_body
    have joined : Text.join ", " entry.topics = Text.join ", " other.topics := by
      unfold topicsField at same
      exact (List.append_cancel_left (List.append_cancel_right same))
    rw [topics, topicsOther] at joined ⊢
    exact Event.join_splitTopics_inj filled filledOther joined

/-- Empty topics in front, in between and behind, and a last one that opens a bracket. -/
example : splitTopics (Text.join ", " ["", "[a, b]", "", "[c, d"]) = ["", "[a, b]", "", "[c, d"] := by
  decide

end Command

end SimTriage
