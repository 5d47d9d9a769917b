import SimTriage.Event.Kind
import SimTriage.Json.Value

/-!
Shapes of JSON values, and what can be wrong with a value that is held against one.
-/

set_option autoImplicit false

namespace SimTriage.Schema

/-- What a missing field means. A fallback is part of the published shape; a field that starts as
something is merely filled in. -/
inductive Presence
  | required
  | fallback (value : Json)
  | startsAs (value : Json)

/-- A field of a record, with its shape of type `α`. -/
structure Field (α : Type) where
  name : Text
  shape : α
  presence : Presence := .required
  description : Option Text := none

inductive Shape
  | text
  | integer (nonNegative : Bool)
  | kind
  | nullable (inner : Shape)
  | list (item : Shape)
  | counts
  | record (name : Text) (fields : List (Field Shape))

/-- One step from a value to a part of it. -/
inductive Step
  | field (name : Text)
  | index (place : Nat)
deriving DecidableEq

inductive Cause
  | missing
  | notRecord
  | notText
  | notList
  | notCounts
  | notKind
  | notInteger
  | unreadableInteger
  | overlongInteger
  | fractional
  | infinite
  | negative
deriving DecidableEq, Repr

namespace Cause

def code : Cause → Text
  | .missing => "missing"
  | .notRecord => "model_type"
  | .notText => "string_type"
  | .notList => "list_type"
  | .notCounts => "dict_type"
  | .notKind => "enum"
  | .notInteger => "int_type"
  | .unreadableInteger => "int_parsing"
  | .overlongInteger => "int_parsing_size"
  | .fractional => "int_from_float"
  | .infinite => "finite_number"
  | .negative => "greater_than_equal"

end Cause

/-- A fault and the way to the part that has it. -/
structure Fault where
  path : List Step
  cause : Cause
deriving DecidableEq

namespace Fault

/-- The same fault, seen from one step further up. -/
def under (step : Step) (fault : Fault) : Fault := { fault with path := step :: fault.path }

end Fault

end SimTriage.Schema
