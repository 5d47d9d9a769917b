import SimTriage.Event.Kind
import SimTriage.Event.Topics
import SimTriage.Text.Numeral

/-!
Event log entries and the lines they are written as:
`<index>: [<label>] contract:<contract>, topics:[<topics>], data:<data>`, where the contract part
may be missing and blanks may stand between the parts. The topics end at the first place after
which the data can begin.
-/

set_option autoImplicit false

namespace SimTriage.Event

/-- One entry of an event log. The data is kept as it is written. -/
structure Entry where
  index : Int
  kind : Kind
  contract : Option Text
  topics : List Text
  data : Text
deriving DecidableEq, Repr

namespace Entry

/-- The parts of a line, before the label and the index are looked at. -/
structure Parts where
  index : Text
  label : Text
  contract : Option Text
  topics : Text
  data : Text
deriving DecidableEq, Repr

/-- The characters up to the first that fails, if there are any, and the rest. -/
def run? (accepts : Char → Bool) (text : Text) : Option (Text × Text) :=
  match text.span accepts with
  | ([], _) => none
  | found => some found

/-- The data of a line: what is left of it but for a line feed at its very end. It is not empty
and holds no line feed. -/
def data? (text : Text) : Option Text :=
  let data := Text.dropFinalNewline text
  if data.isEmpty || data.contains '\n' then none else some data

def dataAfter? (text : Text) : Option Text := do
  let rest ← Text.after? "]," text
  let rest ← Text.after? "data:" (Text.trimStart rest)
  data? rest

/-- The shortest body of topics that the data of the line can follow, and that data. A body is not
empty and holds no line feed. -/
def body? : Text → Option (Text × Text)
  | [] => none
  | c :: rest =>
    if c = '\n' then none
    else match dataAfter? rest with
      | some data => some ([c], data)
      | none => (body? rest).map fun found => (c :: found.1, found.2)

/-- The contract of a line, if it names one, and what follows it. -/
def contract? (text : Text) : Option (Option Text × Text) :=
  match Text.after? "contract:" text with
  | none => some (none, text)
  | some rest => do
    let (contract, rest) ← run? (fun c => !(Text.isBlank c) && c ≠ ',') rest
    let rest ← Text.after? "," rest
    return (some contract, Text.trimStart rest)

/-- The parts of a line of the form above. -/
def parts? (line : Text) : Option Parts := do
  let (index, rest) ← run? Text.isDigit (Text.trimStart line)
  let rest ← Text.after? ":" (Text.trimStart rest)
  let rest ← Text.after? "[" (Text.trimStart rest)
  let (label, rest) ← run? (· ≠ ']') rest
  let rest ← Text.after? "]" rest
  let (contract, rest) ← contract? (Text.trimStart rest)
  let rest ← Text.after? "topics:[" rest
  let (topics, data) ← body? rest
  return ⟨index, label, contract, topics, data⟩

/-- The entry of a line, or none if the line has another form or an unknown label. An index that
is too long is an error only in a line that is otherwise an entry. -/
def read (line : Text) : Except Text.OverlongNumeral (Option Entry) :=
  match parts? line with
  | none => .ok none
  | some parts =>
    match Kind.ofLabel? parts.label with
    | none => .ok none
    | some kind => do
      let index ← Text.readNumeral parts.index
      return some
        ⟨index, kind, parts.contract, splitTopics parts.topics, Text.strip parts.data⟩

end Entry

end SimTriage.Event
