import SimTriage.Json.Whole
import SimTriage.Schema.Outcome
import SimTriage.Schema.SpelledInteger

/-!
Holding a value against a shape. Whole numbers are recognised in several spellings and come out as
integers, missing fields are filled in, and fields that the shape does not have are dropped. All
faults are reported, depth first and in the order of the shape's fields.
-/

set_option autoImplicit false

namespace SimTriage.Schema

/-- The integer that a value is or spells. -/
def integerOf : Json → Except Cause Int
  | .integer value => .ok value
  | .bool value => .ok (if value then 1 else 0)
  | .decimal mantissa exponent =>
    match Json.wholenessOf mantissa exponent with
    | .whole value => if value.natAbs < 1 <<< 63 then .ok value else .error .overlongInteger
    | .fractional => .error .fractional
    | .infinite => .error .infinite
  | .string text => integerOfText text
  | .null | .array _ | .object _ => .error .notInteger

def integer (nonNegative : Bool) (value : Json) : Outcome Json :=
  match integerOf value with
  | .error cause => fail cause
  | .ok n => if nonNegative && n < 0 then fail .negative else .ok (.integer n)

mutual

/-- The value as the shape has it, or everything that is wrong with it. -/
def validate : Shape → Json → Outcome Json
  | .text, value =>
    match value with
    | .string text => .ok (.string text)
    | _ => fail .notText
  | .integer nonNegative, value => integer nonNegative value
  | .kind, value =>
    match value with
    | .string text => if (Event.Kind.ofLabel? text).isSome then .ok value else fail .notKind
    | _ => fail .notKind
  | .nullable inner, value =>
    match value with
    | .null => .ok .null
    | value => validate inner value
  | .list item, value =>
    match value with
    | .array values =>
      .array <$> collect
        (values.zipIdx.map fun part => under (.index part.2) (validate item part.1))
    | _ => fail .notList
  | .counts, value =>
    match value with
    | .object members =>
      .object <$> collect (members.map fun member => asMember member.1 (integer false member.2))
    | _ => fail .notCounts
  | .record _ fields, value =>
    match value with
    | .object members => .object <$> collect (validateFields fields members)
    | _ => fail .notRecord

/-- The fields of a record, from the members of a value. -/
def validateFields :
    List (Field Shape) → List (Text × Json) → List (Outcome (Text × Json))
  | [], _ => []
  | ⟨name, shape, presence, _⟩ :: fields, members =>
    asMember name
      (match members.lookup name with
       | some value => validate shape value
       | none => absent presence) :: validateFields fields members

end

end SimTriage.Schema
