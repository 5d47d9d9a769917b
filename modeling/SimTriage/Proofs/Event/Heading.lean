import SimTriage.Event.Entry
import SimTriage.Proofs.Text.Runs

/-!
The part of an event log line in front of its topics. A text that begins with a heading is read
through to the body of the topics, and every text that is read so far begins with a heading.
-/

set_option autoImplicit false

namespace SimTriage.Event

open Text (IsBlankRun IsRun)

/-- The characters of contract names. -/
def isContractChar (c : Char) : Bool := !(Text.isBlank c) && c ≠ ','

/-- The parts of a line in front of the topics, with the blanks between them. A contract comes with
the blanks behind its comma. -/
structure Heading where
  beforeIndex : Text
  index : Text
  beforeColon : Text
  beforeLabel : Text
  label : Text
  beforeFields : Text
  contract : Option (Text × Text)

namespace Heading

def contractField : Option (Text × Text) → Text
  | none => []
  | some (name, blanks) => "contract:" ++ (name ++ ("," ++ blanks))

@[simp] theorem contractField_none : contractField none = [] := rfl

@[simp] theorem contractField_some (name blanks : Text) :
    contractField (some (name, blanks)) = "contract:" ++ (name ++ ("," ++ blanks)) := rfl

def text (h : Heading) : Text :=
  h.beforeIndex ++ (h.index ++ (h.beforeColon ++ (":" ++ (h.beforeLabel ++ ("[" ++ (h.label ++
    ("]" ++ (h.beforeFields ++ (contractField h.contract ++ "topics:[")))))))))

def contractName (h : Heading) : Option Text := h.contract.map Prod.fst

structure WellFormed (h : Heading) : Prop where
  beforeIndex : IsBlankRun h.beforeIndex
  index : IsRun Text.isDigit h.index
  beforeColon : IsBlankRun h.beforeColon
  beforeLabel : IsBlankRun h.beforeLabel
  beforeFields : IsBlankRun h.beforeFields
  contract : ∀ field ∈ h.contract, IsRun isContractChar field.1 ∧ IsBlankRun field.2

end Heading

namespace Entry

theorem run?_eq_some_iff {p : Char → Bool} {text run rest : Text} :
    run? p text = some (run, rest) ↔
      IsRun p run ∧ text = run ++ rest ∧ ∀ c ∈ rest.head?, p c = false := by
  constructor
  · intro found
    rw [run?, List.span_eq_takeWhile_dropWhile] at found
    split at found
    · cases found
    · rename_i nonempty
      cases Option.some.inj found
      refine ⟨⟨fun empty => ?_, fun c member => List.mem_takeWhile_imp member⟩,
        (List.takeWhile_append_dropWhile).symm, Text.head?_dropWhile⟩
      exact nonempty _ (Prod.ext empty rfl)
  · intro isRun
    obtain ⟨⟨nonempty, inside⟩, rfl, stop⟩ := isRun
    rw [run?, Text.span_run inside stop]
    cases run with
    | nil => exact absurd rfl nonempty
    | cons c run => rfl

theorem contract?_topics (rest : Text) :
    contract? ("topics:[" ++ rest) = some (none, "topics:[" ++ rest) := by
  have missing : Text.after? "contract:" ("topics:[" ++ rest) = none := rfl
  unfold contract?
  rw [missing]

theorem contract?_field {field : Option (Text × Text)} (rest : Text)
    (wellFormed : ∀ f ∈ field, IsRun isContractChar f.1 ∧ IsBlankRun f.2) :
    contract? (Heading.contractField field ++ ("topics:[" ++ rest)) =
      some (field.map Prod.fst, "topics:[" ++ rest) := by
  cases field with
  | none => exact contract?_topics rest
  | some field =>
      obtain ⟨name, blanks⟩ := field
      obtain ⟨run, blank⟩ := wellFormed _ rfl
      have named : run? (fun c => !(Text.isBlank c) && c ≠ ',')
          (name ++ ("," ++ (blanks ++ ("topics:[" ++ rest)))) =
          some (name, "," ++ (blanks ++ ("topics:[" ++ rest))) :=
        run?_eq_some_iff.mpr ⟨run, rfl, fun c first => by cases first; decide⟩
      have trimmed : Text.trimStart (blanks ++ ("topics:[" ++ rest)) = "topics:[" ++ rest := by
        rw [Text.trimStart_append blank]
        rfl
      simp only [contract?, Heading.contractField_some, List.append_assoc, Text.after?_append,
        named, Option.bind_eq_bind, Option.bind_some, Option.pure_def, trimmed, Option.map_some]

theorem field_of_contract? {text rest : Text} {name : Option Text}
    (found : contract? text = some (name, rest)) :
    ∃ field : Option (Text × Text),
      (∀ f ∈ field, IsRun isContractChar f.1 ∧ IsBlankRun f.2) ∧
      field.map Prod.fst = name ∧ text = Heading.contractField field ++ rest := by
  unfold contract? at found
  split at found
  · cases found
    exact ⟨none, by simp, rfl, rfl⟩
  · rename_i fields start
    simp only [Option.bind_eq_bind, Option.pure_def, Option.bind_eq_some_iff] at found
    obtain ⟨⟨contract, behind⟩, run, tail, comma, same⟩ := found
    cases Option.some.inj same
    obtain ⟨isRun, rfl, -⟩ := run?_eq_some_iff.mp run
    obtain ⟨blanks, blank, split⟩ := Text.exists_trimStart tail
    refine ⟨some (contract, blanks), ?_, rfl, ?_⟩
    · intro f member
      rw [Option.mem_some_iff] at member
      subst member
      exact ⟨isRun, blank⟩
    · have behindComma := Text.append_of_after? comma
      dsimp only at behindComma
      rw [Text.append_of_after? start, behindComma]
      simp only [Heading.contractField_some, List.append_assoc]
      rw [← split]

/-- No blank begins an index, so trimming leaves it whole. -/
theorem run?_index {index rest : Text} (isIndex : IsRun Text.isDigit index)
    (stop : ∀ c ∈ rest.head?, Text.isDigit c = false) :
    run? Text.isDigit (Text.trimStart (index ++ rest)) = some (index, rest) := by
  have solid : ∀ c ∈ (index ++ rest).head?, Text.isBlank c = false := by
    intro c first
    apply Text.isBlank_of_isDigit
    obtain ⟨nonempty, inside⟩ := isIndex
    cases index with
    | nil => exact absurd rfl nonempty
    | cons d digits =>
        cases first
        exact inside c List.mem_cons_self
  rw [Text.trimStart_eq_self solid]
  exact run?_eq_some_iff.mpr ⟨isIndex, rfl, stop⟩

/-- The blanks in front of the colon, or the colon itself, end an index. -/
theorem isDigit_head?_colon {blanks : Text} (blank : IsBlankRun blanks) (rest : Text) :
    ∀ c ∈ (blanks ++ (":" ++ rest)).head?, Text.isDigit c = false := by
  intro c first
  cases blanks with
  | nil =>
      cases first
      decide
  | cons d blanks =>
      cases first
      by_contra digit
      have solid := Text.isBlank_of_isDigit (by simpa using digit)
      rw [blank c List.mem_cons_self] at solid
      cases solid

theorem contract?_fields {blanks : Text} {field : Option (Text × Text)} (rest : Text)
    (blank : IsBlankRun blanks)
    (wellFormed : ∀ f ∈ field, IsRun isContractChar f.1 ∧ IsBlankRun f.2) :
    contract? (Text.trimStart (blanks ++ (Heading.contractField field ++ ("topics:[" ++ rest)))) =
      some (field.map Prod.fst, "topics:[" ++ rest) := by
  rw [Text.trimStart_append blank, Text.trimStart_eq_self]
  · exact contract?_field rest wellFormed
  · intro c first
    cases field with
    | none =>
        cases first
        decide
    | some field =>
        cases first
        decide

/-- Behind a heading, only the body of the topics is left to be read. -/
theorem parts?_heading {h : Heading} (wellFormed : h.WellFormed)
    (label : IsRun (· ≠ ']') h.label) (rest : Text) :
    parts? (h.text ++ rest) = (body? rest).map fun found =>
      ⟨h.index, h.label, h.contractName, found.1, found.2⟩ := by
  obtain ⟨blank₀, index, blank₁, blank₂, blank₃, contract⟩ := wellFormed
  have colon : ∀ rest : Text, Text.trimStart (h.beforeColon ++ (":" ++ rest)) = ":" ++ rest := by
    intro rest
    rw [Text.trimStart_append blank₁]
    rfl
  have opening : ∀ rest : Text, Text.trimStart (h.beforeLabel ++ ("[" ++ rest)) = "[" ++ rest := by
    intro rest
    rw [Text.trimStart_append blank₂]
    rfl
  have labelRun : ∀ rest : Text,
      run? (· ≠ ']') (h.label ++ ("]" ++ rest)) = some (h.label, "]" ++ rest) := by
    intro rest
    exact run?_eq_some_iff.mpr ⟨label, rfl, fun c first => by cases first; decide⟩
  have fields : ∀ rest : Text, contract? (Text.trimStart (h.beforeFields ++
      (Heading.contractField h.contract ++ ("topics:[" ++ rest)))) =
      some (h.contractName, "topics:[" ++ rest) :=
    fun rest => contract?_fields rest blank₃ contract
  simp only [parts?, Heading.text, List.append_assoc]
  rw [Text.trimStart_append blank₀, run?_index index (isDigit_head?_colon blank₁ _)]
  simp only [Option.bind_eq_bind, Option.bind_some, colon, Text.after?_append, opening, labelRun,
    fields, Option.pure_def]
  cases body? rest <;> rfl

theorem heading_of_parts? {line : Text} {parts : Parts} (found : parts? line = some parts) :
    ∃ (h : Heading) (rest : Text), h.WellFormed ∧ line = h.text ++ rest ∧
      parts.index = h.index ∧ parts.label = h.label ∧ parts.contract = h.contractName ∧
      body? rest = some (parts.topics, parts.data) := by
  simp only [parts?, Option.bind_eq_bind, Option.pure_def, Option.bind_eq_some_iff] at found
  obtain ⟨⟨index, rest₁⟩, indexRun, rest₂, colon, rest₃, opening, ⟨label, rest₄⟩, labelRun,
    rest₅, closing, ⟨name, rest₆⟩, fields, rest₇, start, ⟨topics, data⟩, body, same⟩ := found
  cases Option.some.inj same
  obtain ⟨blanks₀, blank₀, split₀⟩ := Text.exists_trimStart line
  obtain ⟨blanks₁, blank₁, split₁⟩ := Text.exists_trimStart rest₁
  obtain ⟨blanks₂, blank₂, split₂⟩ := Text.exists_trimStart rest₂
  obtain ⟨blanks₃, blank₃, split₃⟩ := Text.exists_trimStart rest₅
  obtain ⟨isIndex, indexSplit, -⟩ := run?_eq_some_iff.mp indexRun
  obtain ⟨-, labelSplit, -⟩ := run?_eq_some_iff.mp labelRun
  obtain ⟨field, isField, rfl, fieldSplit⟩ := field_of_contract? fields
  refine ⟨⟨blanks₀, index, blanks₁, blanks₂, label, blanks₃, field⟩, rest₇,
    ⟨blank₀, isIndex, blank₁, blank₂, blank₃, isField⟩, ?_, rfl, rfl, rfl, body⟩
  simp only [Heading.text, List.append_assoc]
  rw [← Text.append_of_after? start, ← fieldSplit, ← split₃, ← Text.append_of_after? closing,
    ← labelSplit, ← Text.append_of_after? opening, ← split₂, ← Text.append_of_after? colon,
    ← split₁, ← indexSplit, ← split₀]

end Entry

end SimTriage.Event
