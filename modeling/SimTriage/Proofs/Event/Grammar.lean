import Mathlib.Data.List.Basic
import Mathlib.Data.Nat.Find
import SimTriage.Proofs.Event.Heading

/-!
The grammar of event log lines. A line is an entry exactly if it can be laid out as a heading, a
body of topics and data. A line may have several layouts, which differ in where the topics end; the
entry that is read comes from the one with the shortest topics.
-/

set_option autoImplicit false

namespace SimTriage.Event

open Text (IsBlankRun IsRun)

/-- A way to write a line, with the blanks between its parts. -/
structure Layout where
  heading : Heading
  topics : Text
  beforeData : Text
  data : Text

namespace Layout

def text (s : Layout) : Text :=
  s.heading.text ++ (s.topics ++ ("]," ++ (s.beforeData ++ ("data:" ++ s.data))))

/-- The line is written so, but for a line feed that may stand at its end. -/
structure Spells (s : Layout) (line : Text) : Prop where
  heading : s.heading.WellFormed
  label : ∃ kind : Kind, kind.label = s.heading.label
  topics : s.topics ≠ [] ∧ '\n' ∉ s.topics
  beforeData : IsBlankRun s.beforeData
  data : s.data ≠ [] ∧ '\n' ∉ s.data
  line : line = s.text ∨ line = s.text ++ ['\n']

end Layout

theorem Kind.label_run (kind : Kind) : IsRun (· ≠ ']') kind.label := by
  cases kind <;> decide

namespace Entry

theorem dropFinalNewline_of_not_mem {text : Text} (line : '\n' ∉ text) :
    Text.dropFinalNewline text = text := by
  have last : text.getLast? ≠ some '\n' := fun last => line (List.mem_of_getLast? last)
  simp only [Text.dropFinalNewline, last, ↓reduceIte]

theorem data?_eq_some_iff {text data : Text} :
    data? text = some data ↔
      data ≠ [] ∧ '\n' ∉ data ∧ (text = data ∨ text = data ++ ['\n']) := by
  have decided : ∀ kept : Text, ((if kept.isEmpty || kept.contains '\n' then none else some kept) =
      some data) ↔ kept = data ∧ data ≠ [] ∧ '\n' ∉ data := by
    intro kept
    by_cases refused : kept = [] ∨ '\n' ∈ kept
    · have refuses : (kept.isEmpty || kept.contains '\n') = true := by simpa using refused
      simp only [refuses, ↓reduceIte, reduceCtorEq, false_iff]
      intro accepted
      obtain ⟨rfl, nonempty, line⟩ := accepted
      exact refused.elim nonempty line
    · have accepts : (kept.isEmpty || kept.contains '\n') = false := by simpa using refused
      rw [not_or] at refused
      simp only [accepts, Bool.false_eq_true, ↓reduceIte, Option.some.injEq]
      constructor
      · intro same
        subst same
        exact ⟨rfl, refused⟩
      · exact And.left
  rw [data?, decided]
  constructor
  · intro accepted
    obtain ⟨kept, nonempty, line⟩ := accepted
    refine ⟨nonempty, line, ?_⟩
    by_cases last : text.getLast? = some '\n'
    · simp only [Text.dropFinalNewline, last, ↓reduceIte] at kept
      right
      rw [← kept]
      exact (List.dropLast_append_getLast? _ last).symm
    · simp only [Text.dropFinalNewline, last, ↓reduceIte] at kept
      exact Or.inl kept
  · intro accepted
    obtain ⟨nonempty, line, rfl | rfl⟩ := accepted
    · exact ⟨dropFinalNewline_of_not_mem line, nonempty, line⟩
    · refine ⟨?_, nonempty, line⟩
      simp [Text.dropFinalNewline]

theorem dataAfter?_eq_some_iff {text data : Text} :
    dataAfter? text = some data ↔ ∃ blanks, IsBlankRun blanks ∧ data ≠ [] ∧ '\n' ∉ data ∧
      (text = "]," ++ (blanks ++ ("data:" ++ data)) ∨
        text = "]," ++ (blanks ++ ("data:" ++ data)) ++ ['\n']) := by
  simp only [dataAfter?, Option.bind_eq_bind, Option.bind_eq_some_iff, Text.after?_eq_some_iff]
  constructor
  · intro cut
    obtain ⟨behind, rfl, content, start, found⟩ := cut
    obtain ⟨nonempty, line, ending⟩ := data?_eq_some_iff.mp found
    obtain ⟨blanks, blank, split⟩ := Text.exists_trimStart behind
    refine ⟨blanks, blank, nonempty, line, ?_⟩
    rw [split, start]
    rcases ending with rfl | rfl
    · exact Or.inl rfl
    · right
      simp only [List.append_assoc]
  · intro written
    obtain ⟨blanks, blank, nonempty, line, ending⟩ := written
    have start : ∀ content : Text,
        Text.trimStart (blanks ++ ("data:" ++ content)) = "data:" ++ content := by
      intro content
      rw [Text.trimStart_append blank]
      rfl
    rcases ending with rfl | rfl
    · exact ⟨_, rfl, data, start data,
        data?_eq_some_iff.mpr ⟨nonempty, line, Or.inl rfl⟩⟩
    · refine ⟨blanks ++ ("data:" ++ (data ++ ['\n'])), by simp only [List.append_assoc], _,
        start _, data?_eq_some_iff.mpr ⟨nonempty, line, Or.inr rfl⟩⟩

/-- The text begins with a body of topics behind which the data can begin. -/
def IsBody (text body data : Text) : Prop :=
  body ≠ [] ∧ '\n' ∉ body ∧ ∃ rest, text = body ++ rest ∧ dataAfter? rest = some data

theorem isBody_cons {c : Char} {text data : Text} (body : Text) (missing : dataAfter? text = none) :
    IsBody (c :: text) (c :: body) data ↔ c ≠ '\n' ∧ IsBody text body data := by
  constructor
  · intro isBody
    obtain ⟨-, line, rest, split, found⟩ := isBody
    rw [List.cons_append, List.cons.injEq] at split
    rw [List.mem_cons, not_or] at line
    refine ⟨Ne.symm line.1, ?_, line.2, rest, split.2, found⟩
    intro empty
    rw [empty, List.nil_append] at split
    rw [← split.2, missing] at found
    cases found
  · intro isBody
    obtain ⟨feed, -, line, rest, rfl, found⟩ := isBody
    exact ⟨by simp, by simp [Ne.symm feed, line], rest, rfl, found⟩

/-- A body that is found is the shortest of all. -/
theorem isBody_of_body? {text body data : Text} (found : body? text = some (body, data)) :
    IsBody text body data ∧
      ∀ other content, IsBody text other content → body.length ≤ other.length := by
  induction text generalizing body with
  | nil => cases found
  | cons c text ih =>
      by_cases feed : c = '\n'
      · simp only [body?, feed, ↓reduceIte] at found
        cases found
      · simp only [body?, feed, ↓reduceIte] at found
        cases ending : dataAfter? text with
        | some content =>
            rw [ending] at found
            cases found
            refine ⟨⟨by simp, by simp [Ne.symm feed], text, rfl, ending⟩, ?_⟩
            intro other content isBody
            exact List.length_pos_iff.mpr isBody.1
        | none =>
            rw [ending] at found
            obtain ⟨⟨rest, content⟩, later, same⟩ := Option.map_eq_some_iff.mp found
            cases same
            obtain ⟨isBody, shortest⟩ := ih later
            refine ⟨(isBody_cons rest ending).mpr ⟨feed, isBody⟩, ?_⟩
            intro other content isOther
            cases other with
            | nil => exact absurd rfl isOther.1
            | cons d other =>
                have same : c = d := by
                  obtain ⟨-, -, rest, split, -⟩ := isOther
                  exact (List.cons.inj split).1
                subst same
                have shorter := shortest other content ((isBody_cons other ending).mp isOther).2
                simpa using shorter

theorem body?_isSome {text body data : Text} (isBody : IsBody text body data) :
    (body? text).isSome := by
  induction text generalizing body with
  | nil =>
      obtain ⟨nonempty, -, rest, split, -⟩ := isBody
      exact absurd (List.append_eq_nil_iff.mp split.symm).1 nonempty
  | cons c text ih =>
      cases body with
      | nil => exact absurd rfl isBody.1
      | cons d body =>
          have same : c = d := by
            obtain ⟨-, -, rest, split, -⟩ := isBody
            exact (List.cons.inj split).1
          subst same
          have feed : c ≠ '\n' := fun feed => isBody.2.1 (by simp [feed])
          simp only [body?, feed, ↓reduceIte]
          cases ending : dataAfter? text with
          | some content => rfl
          | none =>
              have later := ih ((isBody_cons body ending).mp isBody).2
              simpa using later

theorem body?_eq_some_iff {text body data : Text} :
    body? text = some (body, data) ↔ IsBody text body data ∧
      ∀ other content, IsBody text other content → body.length ≤ other.length := by
  constructor
  · exact isBody_of_body?
  · intro least
    obtain ⟨isBody, shortest⟩ := least
    obtain ⟨⟨other, content⟩, found⟩ := Option.isSome_iff_exists.mp (body?_isSome isBody)
    obtain ⟨isOther, shorter⟩ := isBody_of_body? found
    have length := Nat.le_antisymm (shortest _ _ isOther) (shorter _ _ isBody)
    obtain ⟨-, -, rest, split, ending⟩ := isBody
    obtain ⟨-, -, others, splitOther, endingOther⟩ := isOther
    obtain ⟨rfl, rfl⟩ := List.append_inj (split.symm.trans splitOther) length
    have same : content = data := Option.some.inj (endingOther.symm.trans ending)
    rw [found, same]

/-- In a line that a layout spells, the topics of the layout are one of the possible bodies. -/
theorem isBody_of_spells {s : Layout} {line : Text} (spells : s.Spells line) :
    ∃ rest, line = s.heading.text ++ rest ∧ IsBody rest s.topics s.data := by
  obtain ⟨-, -, topics, beforeData, data, written⟩ := spells
  have body : ∀ ending : Text, (ending = [] ∨ ending = ['\n']) →
      IsBody (s.topics ++ ("]," ++ (s.beforeData ++ ("data:" ++ s.data)) ++ ending))
        s.topics s.data := by
    intro ending final
    refine ⟨topics.1, topics.2, _, rfl, dataAfter?_eq_some_iff.mpr ?_⟩
    refine ⟨s.beforeData, beforeData, data.1, data.2, ?_⟩
    rcases final with rfl | rfl
    · exact Or.inl (List.append_nil _)
    · exact Or.inr rfl
  rcases written with rfl | rfl
  · refine ⟨_, ?_, body [] (Or.inl rfl)⟩
    simp only [Layout.text, List.append_nil]
  · refine ⟨_, ?_, body ['\n'] (Or.inr rfl)⟩
    simp only [Layout.text, List.append_assoc]

theorem spells_of_isBody {h : Heading} {rest body data : Text} (wellFormed : h.WellFormed)
    (label : ∃ kind : Kind, kind.label = h.label) (isBody : IsBody rest body data) :
    ∃ blanks, (Layout.mk h body blanks data).Spells (h.text ++ rest) := by
  obtain ⟨nonempty, line, behind, rfl, found⟩ := isBody
  obtain ⟨blanks, blank, dataNonempty, dataLine, written⟩ := dataAfter?_eq_some_iff.mp found
  refine ⟨blanks, wellFormed, label, ⟨nonempty, line⟩, blank, ⟨dataNonempty, dataLine⟩, ?_⟩
  rcases written with rfl | rfl
  · left
    simp only [Layout.text]
  · right
    simp only [Layout.text, List.append_assoc]

theorem exists_shortest {line : Text} (spelled : ∃ s : Layout, s.Spells line) :
    ∃ s : Layout, s.Spells line ∧
      ∀ t : Layout, t.Spells line → s.topics.length ≤ t.topics.length := by
  have lengths : ∃ length, ∃ s : Layout, s.Spells line ∧ s.topics.length = length := by
    obtain ⟨s, spells⟩ := spelled
    exact ⟨_, s, spells, rfl⟩
  classical
  obtain ⟨s, spells, length⟩ := Nat.find_spec lengths
  refine ⟨s, spells, fun t spellsT => ?_⟩
  rw [length]
  exact Nat.find_min' lengths ⟨t, spellsT, rfl⟩

/-- Whatever the body that is found, the parts in front of it are those of any layout. -/
theorem parts?_of_spells {s : Layout} {line : Text} (spells : s.Spells line) :
    ∃ body data, parts? line = some
      ⟨s.heading.index, s.heading.label, s.heading.contractName, body, data⟩ := by
  obtain ⟨kind, label⟩ := spells.label
  obtain ⟨rest, rfl, isBody⟩ := isBody_of_spells spells
  obtain ⟨⟨body, data⟩, found⟩ := Option.isSome_iff_exists.mp (body?_isSome isBody)
  refine ⟨body, data, ?_⟩
  rw [parts?_heading spells.heading (label ▸ kind.label_run), found]
  rfl

theorem parts?_of_shortest {s : Layout} {line : Text} (spells : s.Spells line)
    (shortest : ∀ t : Layout, t.Spells line → s.topics.length ≤ t.topics.length) :
    parts? line = some
      ⟨s.heading.index, s.heading.label, s.heading.contractName, s.topics, s.data⟩ := by
  obtain ⟨kind, label⟩ := spells.label
  obtain ⟨rest, rfl, isBody⟩ := isBody_of_spells spells
  have found : body? rest = some (s.topics, s.data) := by
    refine body?_eq_some_iff.mpr ⟨isBody, fun other content isOther => ?_⟩
    obtain ⟨blanks, spellsOther⟩ := spells_of_isBody spells.heading spells.label isOther
    exact shortest _ spellsOther
  rw [parts?_heading spells.heading (label ▸ kind.label_run), found]
  rfl

theorem exists_spells_of_parts? {line : Text} {parts : Parts} {kind : Kind}
    (found : parts? line = some parts) (label : Kind.ofLabel? parts.label = some kind) :
    ∃ s : Layout, s.Spells line ∧ s.heading.index = parts.index := by
  obtain ⟨h, rest, wellFormed, rfl, index, sameLabel, -, body⟩ := heading_of_parts? found
  have known : ∃ kind : Kind, kind.label = h.label :=
    ⟨kind, (Kind.label_of_ofLabel? label).trans sameLabel⟩
  obtain ⟨blanks, spells⟩ := spells_of_isBody wellFormed known (body?_eq_some_iff.mp body).1
  exact ⟨_, spells, index.symm⟩

/-- Reading once the parts of the line are known. -/
theorem read_of_parts? {line : Text} {parts : Parts} {kind : Kind}
    (found : parts? line = some parts) (label : kind.label = parts.label) :
    read line =
      if 4300 < parts.index.length then .error ⟨parts.index.length⟩
      else .ok (some ⟨Nat.ofDigitChars 10 parts.index 0, kind, parts.contract,
        splitTopics parts.topics, Text.strip parts.data⟩) := by
  have known : Kind.ofLabel? parts.label = some kind := label ▸ Kind.ofLabel?_label kind
  by_cases long : 4300 < parts.index.length
  · simp only [read, found, known, Text.readNumeral, Text.maxDigits, long, ↓reduceIte]
    rfl
  · simp only [read, found, known, Text.readNumeral, Text.maxDigits, long, ↓reduceIte]
    rfl

theorem spells_of_read_ne_none {line : Text} (accepted : read line ≠ .ok none) :
    ∃ s : Layout, s.Spells line := by
  cases found : parts? line with
  | none =>
      simp only [read, found] at accepted
      exact absurd rfl accepted
  | some parts =>
      cases label : Kind.ofLabel? parts.label with
      | none =>
          simp only [read, found, label] at accepted
          exact absurd rfl accepted
      | some kind =>
          obtain ⟨s, spells, -⟩ := exists_spells_of_parts? found label
          exact ⟨s, spells⟩

/-- How a line that a layout spells is read, whichever of its bodies is found. -/
theorem read_of_spells {s : Layout} {line : Text} (spells : s.Spells line) :
    (4300 < s.heading.index.length ∧ read line = .error ⟨s.heading.index.length⟩) ∨
      (s.heading.index.length ≤ 4300 ∧ ∃ entry, read line = .ok (some entry)) := by
  obtain ⟨kind, label⟩ := spells.label
  obtain ⟨body, data, found⟩ := parts?_of_spells spells
  rw [read_of_parts? found label]
  by_cases long : 4300 < s.heading.index.length
  · simp only [long, ↓reduceIte, true_and, true_or]
  · simp only [long, ↓reduceIte, false_and, false_or]
    exact ⟨by omega, _, rfl⟩

/-- A line is an entry exactly if a layout spells it, and its index is at most 4300 digits long; a
longer index is the only failure. All layouts of a line agree on its index, its label and its
contract, and the entry is that of the layouts with the shortest topics. -/
theorem read_iff_layout (line : Text) :
    ((∃ entry, read line = .ok (some entry)) ↔
      ∃ s : Layout, s.Spells line ∧ s.heading.index.length ≤ 4300) ∧
    ((∃ fault, read line = .error fault) ↔
      ∃ s : Layout, s.Spells line ∧ 4300 < s.heading.index.length) ∧
    (∀ s t : Layout, s.Spells line → t.Spells line →
      s.heading.index = t.heading.index ∧ s.heading.label = t.heading.label ∧
        s.heading.contractName = t.heading.contractName) ∧
    ((∃ s : Layout, s.Spells line) →
      ∃ s : Layout, s.Spells line ∧
        ∀ t : Layout, t.Spells line → s.topics.length ≤ t.topics.length) ∧
    (∀ s : Layout, s.Spells line →
      (∀ t : Layout, t.Spells line → s.topics.length ≤ t.topics.length) →
      ∀ kind : Kind, kind.label = s.heading.label →
        read line =
          if 4300 < s.heading.index.length then .error ⟨s.heading.index.length⟩
          else .ok (some ⟨Nat.ofDigitChars 10 s.heading.index 0, kind, s.heading.contractName,
            splitTopics s.topics, Text.strip s.data⟩)) := by
  refine ⟨⟨?_, ?_⟩, ⟨?_, ?_⟩, ?_, exists_shortest, ?_⟩
  · intro read
    obtain ⟨entry, accepted⟩ := read
    have read : read line ≠ .ok none := by simp [accepted]
    obtain ⟨s, spells⟩ := spells_of_read_ne_none read
    rcases read_of_spells spells with ⟨-, failed⟩ | ⟨short, -⟩
    · rw [accepted] at failed
      cases failed
    · exact ⟨s, spells, short⟩
  · intro laidOut
    obtain ⟨s, spells, short⟩ := laidOut
    rcases read_of_spells spells with ⟨long, -⟩ | ⟨-, accepted⟩
    · omega
    · exact accepted
  · intro read
    obtain ⟨fault, failed⟩ := read
    have read : read line ≠ .ok none := by simp [failed]
    obtain ⟨s, spells⟩ := spells_of_read_ne_none read
    rcases read_of_spells spells with ⟨long, -⟩ | ⟨-, entry, accepted⟩
    · exact ⟨s, spells, long⟩
    · rw [accepted] at failed
      cases failed
  · intro laidOut
    obtain ⟨s, spells, long⟩ := laidOut
    rcases read_of_spells spells with ⟨-, failed⟩ | ⟨short, -⟩
    · exact ⟨_, failed⟩
    · omega
  · intro s t spellsS spellsT
    obtain ⟨_, _, foundS⟩ := parts?_of_spells spellsS
    obtain ⟨_, _, foundT⟩ := parts?_of_spells spellsT
    have same := Option.some.inj (foundS.symm.trans foundT)
    injection same with index label contract
    exact ⟨index, label, contract⟩
  · intro s spells shortest kind label
    exact read_of_parts? (parts?_of_shortest spells shortest) label

end Entry

end SimTriage.Event
