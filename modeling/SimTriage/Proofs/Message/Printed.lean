import Mathlib.Data.List.Infix
import SimTriage.Proofs.Event.Grammar
import SimTriage.Proofs.Event.Topics
import SimTriage.Proofs.Message.Collect
import SimTriage.Proofs.Text.Numeral

/-!
The printed form of messages, and which messages it gives back when it is read: those whose fields
cannot be taken for the separators between them.
-/

set_option autoImplicit false

namespace SimTriage

open Event (Entry Heading Kind Layout IsAtomic IsBalanced)
open Text (IsBlankRun IsRun)

namespace Event.Entry

/-- The line of an entry. -/
def line (entry : Entry) : Text :=
  "   " ++ Text.ofInt entry.index ++ ": [" ++ entry.kind.label ++ "] " ++
    (match entry.contract with
     | none => []
     | some contract => "contract:" ++ contract ++ ", ") ++
    "topics:[" ++ Text.join ", " entry.topics ++ "], data:" ++ entry.data

/-- The data of a line could begin in the middle of its topics. -/
def HasEarlyData (topics : Text) : Prop :=
  ∃ front blanks back : Text, front ≠ [] ∧ IsBlankRun blanks ∧
    topics = front ++ ("]," ++ (blanks ++ ("data:" ++ back)))

/-- The data of a line could begin here. -/
def startsData (text : Text) : Bool :=
  ((Text.after? "]," text).bind fun rest => Text.after? "data:" (Text.trimStart rest)).isSome

theorem startsData_iff {text : Text} :
    startsData text = true ↔ ∃ blanks back : Text, IsBlankRun blanks ∧
      text = "]," ++ (blanks ++ ("data:" ++ back)) := by
  simp only [startsData, Option.isSome_iff_exists, Option.bind_eq_some_iff, Text.after?_eq_some_iff]
  constructor
  · intro cut
    obtain ⟨back, rest, rfl, start⟩ := cut
    obtain ⟨blanks, blank, split⟩ := Text.exists_trimStart rest
    exact ⟨blanks, back, blank, by rw [← start, ← split]⟩
  · intro written
    obtain ⟨blanks, back, blank, rfl⟩ := written
    refine ⟨back, _, rfl, ?_⟩
    rw [Text.trimStart_append blank]
    rfl

theorem hasEarlyData_iff {topics : Text} :
    HasEarlyData topics ↔ ∃ rest ∈ topics.tail.tails, startsData rest = true := by
  constructor
  · intro early
    obtain ⟨front, blanks, back, nonempty, blank, rfl⟩ := early
    refine ⟨_, ?_, startsData_iff.mpr ⟨blanks, back, blank, rfl⟩⟩
    rw [List.mem_tails, List.tail_append_of_ne_nil nonempty]
    exact List.suffix_append _ _
  · intro found
    obtain ⟨rest, suffix, starts⟩ := found
    obtain ⟨blanks, back, blank, rfl⟩ := startsData_iff.mp starts
    rw [List.mem_tails] at suffix
    obtain ⟨front, split⟩ := suffix
    cases topics with
    | nil => simp at split
    | cons c topics =>
        rw [List.tail_cons] at split
        exact ⟨c :: front, blanks, back, by simp, blank, by rw [List.cons_append, split]⟩

instance (topics : Text) : Decidable (HasEarlyData topics) :=
  decidable_of_iff _ hasEarlyData_iff.symm

/-- The fields of the entry can be told from the separators of its line. -/
structure Printable (entry : Entry) : Prop where
  index : 0 ≤ entry.index ∧ entry.index.toNat < 10 ^ 4300
  contract : ∀ contract ∈ entry.contract, IsRun Event.isContractChar contract
  data : entry.data ≠ [] ∧ Text.strip entry.data = entry.data ∧ '\n' ∉ entry.data
  topics : entry.topics ≠ [] ∧ entry.topics ≠ [[]]
  topic : ∀ topic ∈ entry.topics,
    Text.strip topic = topic ∧ '\n' ∉ topic ∧ IsBalanced topic ∧ IsAtomic topic
  joined : ¬ HasEarlyData (Text.join ", " entry.topics)

/-- The stripped line of an entry, part by part. -/
def heading (entry : Entry) : Heading where
  beforeIndex := []
  index := Text.ofInt entry.index
  beforeColon := []
  beforeLabel := [' ']
  label := entry.kind.label
  beforeFields := [' ']
  contract := entry.contract.map (·, [' '])

def layout (entry : Entry) : Layout where
  heading := entry.heading
  topics := Text.join ", " entry.topics
  beforeData := [' ']
  data := entry.data

theorem line_eq_layout (entry : Entry) : entry.line = "   " ++ entry.layout.text := by
  have beforeLabel : (": [" : Text) = ":" ++ ([' '] ++ "[") := rfl
  have afterLabel : ("] " : Text) = "]" ++ [' '] := rfl
  have afterContract : (", " : Text) = "," ++ [' '] := rfl
  have afterTopics : ("], data:" : Text) = "]," ++ ([' '] ++ "data:") := rfl
  unfold line
  simp only [layout, heading, Layout.text, Heading.text]
  rw [beforeLabel, afterLabel, afterTopics]
  cases entry.contract with
  | none =>
      simp only [Option.map_none, Heading.contractField_none, List.append_assoc, List.nil_append]
  | some contract =>
      dsimp only
      rw [Option.map_some, Heading.contractField_some, afterContract]
      simp only [List.append_assoc, List.nil_append]

theorem isBlankRun_space : IsBlankRun [' '] := by decide

/-- Text that goes on with a character that does not occur in `needle` holds all of `needle`, if it
begins like it. -/
theorem exists_of_append_eq {needle front back rest : Text} {c : Char} (absent : c ∉ needle)
    (same : front ++ c :: back = needle ++ rest) : ∃ more, front = needle ++ more := by
  rcases List.append_eq_append_iff.mp same with ⟨more, split, behind⟩ | ⟨more, split, -⟩
  · cases more with
    | nil => exact ⟨[], by simp [split]⟩
    | cons d more =>
        rw [List.cons_append, List.cons.injEq] at behind
        exact absurd (by simp [split, behind.1]) absent
  · exact ⟨more, split⟩

/-- Where the end of topics is found inside of them, their data begins early. -/
theorem hasEarlyData_of_append_eq {topics other blanks after behind : Text} (nonempty : other ≠ [])
    (blank : IsBlankRun blanks) (shorter : other.length < topics.length)
    (same : topics ++ ']' :: behind = other ++ ("]," ++ (blanks ++ ("data:" ++ after)))) :
    HasEarlyData topics := by
  have absent : ']' ∉ ("," ++ (blanks ++ "data:") : Text) := by
    intro member
    rcases List.mem_append.mp member with inComma | member
    · revert inComma
      decide
    · rcases List.mem_append.mp member with inBlanks | inData
      · exact absurd (blank _ inBlanks) (by decide)
      · revert inData
        decide
  obtain ⟨middle, rfl⟩ : ∃ middle, topics = other ++ middle := by
    rcases List.append_eq_append_iff.mp same with ⟨middle, split, -⟩ | ⟨middle, split, -⟩
    · have length := congrArg List.length split
      rw [List.length_append] at length
      omega
    · exact ⟨middle, split⟩
  rw [List.append_assoc, List.append_cancel_left_eq] at same
  cases middle with
  | nil => simp at shorter
  | cons c middle =>
      change c :: (middle ++ ']' :: behind) = ']' :: ("," ++ (blanks ++ ("data:" ++ after))) at same
      rw [List.cons.injEq] at same
      obtain ⟨rfl, rest⟩ := same
      have needle : middle ++ ']' :: behind = ("," ++ (blanks ++ "data:")) ++ after := by
        rw [rest]
        simp only [List.append_assoc]
      obtain ⟨back, rfl⟩ := exists_of_append_eq absent needle
      refine ⟨other, blanks, back, nonempty, blank, ?_⟩
      simp only [List.append_assoc]
      rfl

/-- Without early data, the body that is found is all of the topics. -/
theorem body?_topics {topics data : Text} (nonempty : topics ≠ []) (line : '\n' ∉ topics)
    (late : ¬ HasEarlyData topics) (dataNonempty : data ≠ []) (dataLine : '\n' ∉ data) :
    body? (topics ++ ("]," ++ ([' '] ++ ("data:" ++ data)))) = some (topics, data) := by
  refine body?_eq_some_iff.mpr ⟨⟨nonempty, line, _, rfl, ?_⟩, ?_⟩
  · exact dataAfter?_eq_some_iff.mpr ⟨[' '], isBlankRun_space, dataNonempty, dataLine, Or.inl rfl⟩
  intro other content isOther
  by_contra longer
  obtain ⟨otherNonempty, -, rest, split, found⟩ := isOther
  obtain ⟨blanks, blank, -, -, ending⟩ := dataAfter?_eq_some_iff.mp found
  obtain ⟨after, written⟩ : ∃ after, rest = "]," ++ (blanks ++ ("data:" ++ after)) := by
    rcases ending with rfl | rfl
    · exact ⟨content, rfl⟩
    · exact ⟨content ++ ['\n'], by simp only [List.append_assoc]⟩
  rw [written] at split
  exact late (hasEarlyData_of_append_eq otherNonempty blank (by omega) split)

namespace Printable

variable {entry : Entry}

theorem index_run (printable : entry.Printable) : IsRun Text.isDigit (Text.ofInt entry.index) := by
  rw [Text.ofInt_of_nonneg printable.index.1]
  exact Text.ofNat_run _

theorem topics_ne_nil (printable : entry.Printable) : Text.join ", " entry.topics ≠ [] :=
  Text.join_ne_nil (by decide) printable.topics.1 printable.topics.2

theorem topics_line (printable : entry.Printable) : '\n' ∉ Text.join ", " entry.topics := by
  intro member
  rcases Text.mem_join member with inSeparator | ⟨topic, isTopic, inTopic⟩
  · revert inSeparator
    decide
  · exact (printable.topic topic isTopic).2.1 inTopic

theorem heading_wellFormed (printable : entry.Printable) : entry.heading.WellFormed where
  beforeIndex := by simp [heading]
  index := printable.index_run
  beforeColon := by simp [heading]
  beforeLabel := isBlankRun_space
  beforeFields := isBlankRun_space
  contract := by
    intro field member
    obtain ⟨contract, named, rfl⟩ := Option.map_eq_some_iff.mp member
    exact ⟨printable.contract contract named, isBlankRun_space⟩

theorem heading_contractName (entry : Entry) : entry.heading.contractName = entry.contract := by
  simp only [heading, Heading.contractName, Option.map_map]
  cases entry.contract <;> rfl

/-- The line of a printable entry is read as that entry. -/
theorem read_layout (printable : entry.Printable) :
    read entry.layout.text = .ok (some entry) := by
  obtain ⟨dataNonempty, dataStripped, dataLine⟩ := printable.data
  have body := body?_topics printable.topics_ne_nil printable.topics_line printable.joined
    dataNonempty dataLine
  have found : parts? entry.layout.text = some
      ⟨Text.ofInt entry.index, entry.kind.label, entry.contract, Text.join ", " entry.topics,
        entry.data⟩ := by
    change parts? (entry.heading.text ++ _) = _
    rw [parts?_heading printable.heading_wellFormed entry.kind.label_run]
    simp only [layout, body, Option.map_some, heading_contractName]
    rfl
  have length : (Text.ofInt entry.index).length ≤ 4300 := by
    rw [Text.ofInt_of_nonneg printable.index.1]
    exact Text.ofNat_length_le (by decide) printable.index.2
  have value : (Nat.ofDigitChars 10 (Text.ofInt entry.index) 0 : Int) = entry.index := by
    rw [Text.ofInt_of_nonneg printable.index.1, Text.ofDigitChars_ofNat]
    exact Int.toNat_of_nonneg printable.index.1
  have topics : splitTopics (Text.join ", " entry.topics) = entry.topics := by
    refine splitTopics_join printable.topics.1 printable.topics.2 ?_ ?_ ?_
    · exact fun topic member => (printable.topic topic member).1
    · exact fun topic member => (printable.topic topic member).2.2.2
    · intro topic member
      exact (printable.topic topic (List.dropLast_subset _ member)).2.2.1
  rw [read_of_parts? found rfl]
  simp only [Nat.not_lt.mpr length, ↓reduceIte, value, topics, dataStripped]

/-- Only the spaces in front of the line are stripped. -/
theorem strip_line (printable : entry.Printable) : Text.strip entry.line = entry.layout.text := by
  rw [line_eq_layout, Text.strip_append (by decide), Text.strip_eq_self_iff]
  obtain ⟨nonempty, inside⟩ := printable.index_run
  obtain ⟨dataNonempty, dataStripped, -⟩ := printable.data
  constructor
  · intro c first
    apply Text.isBlank_of_isDigit
    cases index : Text.ofInt entry.index with
    | nil => exact absurd index nonempty
    | cons d digits =>
        simp only [layout, heading, Layout.text, Heading.text, index, List.nil_append,
          List.cons_append, List.head?_cons, Option.mem_some_iff] at first
        rw [← first]
        exact inside d (by simp [index])
  · intro c last
    simp only [layout, Layout.text, ← List.append_assoc] at last
    rw [List.getLast?_append_of_ne_nil _ dataNonempty] at last
    exact (Text.strip_eq_self_iff.mp dataStripped).2 c last

theorem not_mem_line (printable : entry.Printable) : '\n' ∉ entry.line := by
  have index : '\n' ∉ Text.ofInt entry.index := fun member =>
    absurd (printable.index_run.2 _ member) (by decide)
  have label : '\n' ∉ entry.kind.label := by cases entry.kind <;> decide
  have contract : ∀ contract ∈ entry.contract, '\n' ∉ contract := fun contract named member =>
    absurd ((printable.contract contract named).2 _ member) (by decide)
  have topics : '\n' ∉ Text.join [',', ' '] entry.topics := printable.topics_line
  have data := printable.data.2.2
  unfold line
  cases field : entry.contract with
  | none => simp [index, label, topics, data]
  | some name => simp [index, label, topics, data, contract name field]

theorem isCandidate_layout (printable : entry.Printable) :
    Message.isCandidate entry.layout.text = true := by
  obtain ⟨nonempty, inside⟩ := printable.index_run
  cases index : Text.ofInt entry.index with
  | nil => exact absurd index nonempty
  | cons d digits =>
      have digit : Text.isDigit d = true := inside d (by simp [index])
      have first : entry.layout.text.head? = some d := by
        simp [layout, heading, Layout.text, Heading.text, index]
      rw [Message.isCandidate, decide_eq_true_iff]
      constructor
      · intro empty
        rw [empty] at first
        cases first
      · intro header
        rw [header] at first
        cases first
        revert digit
        decide

end Printable

end Event.Entry

namespace Message

/-- The printed form of a message: its headline, the header, and a line for each entry. -/
def print (message : Message) : Text :=
  Text.join "\n" (message.headline :: logHeader :: message.log.map Entry.line)

theorem candidates_print {message : Message} (headline : '\n' ∉ message.headline)
    (printable : ∀ entry ∈ message.log, entry.Printable) :
    candidates message.print = message.log.map fun entry => entry.layout.text := by
  have lines : Text.splitOn '\n' message.print =
      message.headline :: logHeader :: message.log.map Entry.line := by
    refine Text.splitOn_join (by simp) fun line member => ?_
    rcases List.mem_cons.mp member with rfl | member
    · exact headline
    rcases List.mem_cons.mp member with rfl | member
    · decide
    obtain ⟨entry, logged, rfl⟩ := List.mem_map.mp member
    exact (printable entry logged).not_mem_line
  have stripped : (message.log.map Entry.line).map Text.strip =
      message.log.map fun entry => entry.layout.text := by
    rw [List.map_map]
    exact List.map_congr_left fun entry logged => (printable entry logged).strip_line
  have header : isCandidate (Text.strip logHeader) = false := by decide
  have kept : ∀ line ∈ message.log.map fun entry => entry.layout.text,
      isCandidate line = true := by
    intro line member
    obtain ⟨entry, logged, rfl⟩ := List.mem_map.mp member
    exact (printable entry logged).isCandidate_layout
  rw [candidates, lines, List.tail_cons, List.map_cons, stripped,
    List.filter_cons_of_neg (by simp [header]), List.filter_eq_self.mpr kept]

/-- Reading gives back a message from its printed form, with or without a line feed at its end. -/
theorem read_print {message : Message} (headline : '\n' ∉ message.headline)
    (printable : ∀ entry ∈ message.log, entry.Printable) :
    read message.print = .ok message ∧ read (message.print ++ ['\n']) = .ok message := by
  have entries : (message.log.map fun entry => entry.layout.text).mapM Entry.read =
      .ok (message.log.map some) := by
    generalize message.log = log at printable
    induction log with
    | nil => rfl
    | cons entry log ih =>
        have first := (printable entry List.mem_cons_self).read_layout
        have later := ih fun e logged => printable e (List.mem_cons_of_mem _ logged)
        rw [List.map_cons, List.mapM_cons, first, later]
        rfl
  have first : message.print.takeWhile (· ≠ '\n') = message.headline := by
    rw [print, Text.join, List.append_assoc, List.takeWhile_append_of_pos]
    · simp
    · intro c member
      simp only [ne_eq, decide_not, Bool.not_eq_true', decide_eq_false_iff_not]
      intro feed
      rw [feed] at member
      exact headline member
    · simp
  have whole : read message.print = .ok message := by
    rw [read, readWith_eq, candidates_print headline printable, entries, first]
    simp [pure_eq_ok]
  refine ⟨whole, ?_⟩
  have feed : read ['\n'] = .ok ⟨[], []⟩ := rfl
  rw [read_append_of_ok whole feed, List.append_nil]

/-- Topics that begin like the end of topics, nested and empty topics, and data that looks like
topics are all given back. -/
theorem read_print_separators :
    read (print ⟨"Error: data:[", [
        ⟨7, .failedContract, some "[C]:", ["], data:[", "[a, b]", "", "topics:[]"], "], data:1"⟩,
        ⟨0, .diagnostic, none, ["", ""], "x"⟩]⟩) =
      .ok ⟨"Error: data:[", [
        ⟨7, .failedContract, some "[C]:", ["], data:[", "[a, b]", "", "topics:[]"], "], data:1"⟩,
        ⟨0, .diagnostic, none, ["", ""], "x"⟩]⟩ := by
  have short : ∀ index : Nat, index < 10 → index < 10 ^ 4300 := by
    intro index digit
    have raised : ∀ n : Nat, n ≠ 0 → 10 ≤ 10 ^ n := fun n positive => Nat.le_self_pow positive 10
    exact Nat.lt_of_lt_of_le digit (raised 4300 (by decide))
  refine (read_print (by decide) fun entry member => ?_).1
  rcases List.mem_cons.mp member with rfl | member
  · exact ⟨⟨by decide, short 7 (by decide)⟩, by decide, by decide, by decide, by decide, by decide⟩
  · rw [List.mem_singleton] at member
    subst member
    exact ⟨⟨by decide, short 0 (by decide)⟩, by decide, by decide, by decide, by decide, by decide⟩

end Message

end SimTriage
