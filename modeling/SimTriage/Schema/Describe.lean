import SimTriage.Schema.Shape
import SimTriage.Text.Caseless

/-!
Shapes as JSON Schema documents. Records and kinds are defined once and referred to by name.
-/

set_option autoImplicit false

namespace SimTriage.Schema

def kindName : Text := "EventType"

/-- The title of a field: the words of its name, each with a capital. -/
def title (name : Text) : Text :=
  let capital : Text → Text
    | [] => []
    | c :: rest => c.toUpper :: rest
  Text.join " " ((Text.splitOn '_' name).map capital)

def reference (name : Text) : List (Text × Json) := [("$ref", .string ("#/$defs/" ++ name))]

def typed (name : Text) : Text × Json := ("type", .string name)

/-- The shape, with what it refers to named. -/
def summaryOf : Shape → List (Text × Json)
  | .text => [typed "string"]
  | .integer false => [typed "integer"]
  | .integer true => [("minimum", .integer 0), typed "integer"]
  | .kind => reference kindName
  | .nullable inner =>
    [("anyOf", .array [.object (summaryOf inner), .object [typed "null"]])]
  | .list item => [("items", .object (summaryOf item)), typed "array"]
  | .counts => [("additionalProperties", .object [typed "integer"]), typed "object"]
  | .record name _ => reference name

/-- A shape that is defined elsewhere brings its own title. -/
def isReference : Shape → Bool
  | .kind | .record _ _ => true
  | .nullable inner => isReference inner
  | _ => false

def property (field : Field Shape) : Text × Json :=
  let fallback : List (Text × Json) :=
    match field.presence with
    | .fallback value => [("default", value)]
    | _ => []
  let description : List (Text × Json) :=
    match field.description with
    | some text => [("description", .string text)]
    | none => []
  let titles : List (Text × Json) :=
    if isReference field.shape then [] else [("title", .string (title field.name))]
  (field.name, .object (summaryOf field.shape ++ fallback ++ description ++ titles))

def requiredNames (fields : List (Field Shape)) : List Json :=
  fields.filterMap fun field =>
    match field.presence with
    | .required => some (.string field.name)
    | _ => none

/-- A record as a document without definitions. -/
def recordDocument (name : Text) (fields : List (Field Shape)) : List (Text × Json) :=
  [("properties", .object (fields.map property)),
   ("required", .array (requiredNames fields)),
   ("title", .string name),
   typed "object"]

def kindDocument : Json :=
  .object
    [("description", .string "Event categories printed by the Soroban host in the event log."),
     ("enum", .array (Event.Kind.all.map fun kind => .string kind.label)),
     ("title", .string kindName),
     typed "string"]

mutual

/-- Everything that a shape refers to. -/
def definitions : Shape → List (Text × Json)
  | .kind => [(kindName, kindDocument)]
  | .nullable inner => definitions inner
  | .list item => definitions item
  | .record name fields => (name, .object (recordDocument name fields)) :: fieldDefinitions fields
  | .text | .integer _ | .counts => []

def fieldDefinitions : List (Field Shape) → List (Text × Json)
  | [] => []
  | ⟨_, shape, _, _⟩ :: fields => definitions shape ++ fieldDefinitions fields

end

def document : Shape → Json
  | .record name fields =>
    .object (("$defs", .object (fieldDefinitions fields)) :: recordDocument name fields)
  | shape => .object (("$defs", .object (definitions shape)) :: summaryOf shape)

end SimTriage.Schema
