import SimTriage.Schema.Outcome

/-!
Validators: what holds values against shapes and describes shapes to others. Which spellings of an
integer are recognised, and how a shape is described, is left to the validator. All else is laid
down here.
-/

set_option autoImplicit false

namespace SimTriage.Schema

structure Validator where
  /-- The value as the shape has it, or everything that is wrong with it. -/
  check : Shape → Json → Outcome Json
  /-- The shape as a JSON Schema document. -/
  document : Shape → Json
  /-- Texts are kept, and nothing else is taken for one. -/
  text : ∀ value result,
    check .text value = .ok result ↔ (∃ text, value = .string text) ∧ result = value
  /-- The labels of kinds are kept, and nothing else is taken for one. -/
  kind : ∀ value result, check .kind value = .ok result ↔
    (∃ kind : Event.Kind, value = .string kind.label) ∧ result = value
  /-- Integers within the bound are kept. -/
  integer : ∀ nonNegative n, (nonNegative = true → 0 ≤ n) →
    check (.integer nonNegative) (.integer n) = .ok (.integer n)
  /-- Whatever else is taken for an integer comes out as one, within the bound. -/
  recognised : ∀ nonNegative value result, check (.integer nonNegative) value = .ok result →
    ∃ n : Int, result = .integer n ∧ (nonNegative = true → 0 ≤ n)
  /-- Where a value may be missing, null is kept, -/
  null : ∀ inner, check (.nullable inner) .null = .ok .null
  /-- and anything else is a value. -/
  given : ∀ inner value, value ≠ .null → check (.nullable inner) value = check inner value
  /-- The items of a list are checked one by one, and named by their places. -/
  items : ∀ item values, check (.list item) (.array values) =
    .array <$> collect (values.zipIdx.map fun part => under (.index part.2) (check item part.1))
  /-- Only arrays are lists. -/
  array : ∀ item value result, check (.list item) value = .ok result →
    ∃ values, value = .array values
  /-- Counts are integers, each under its name. -/
  counts : ∀ members, check .counts (.object members) =
    .object <$> collect
      (members.map fun member => asMember member.1 (check (.integer false) member.2))
  /-- The fields of a record are checked one by one, in the order of the record. What is missing is
  filled in unless it is required, and what is no field is dropped. -/
  fields : ∀ name fields members, check (.record name fields) (.object members) =
    .object <$> collect
      (fields.map fun field => asMember field.name (field.outcome check members))
  /-- Only objects are counts, -/
  object : ∀ value result, check .counts value = .ok result → ∃ members, value = .object members
  /-- or records. -/
  objectOfRecord : ∀ name fields value result, check (.record name fields) value = .ok result →
    ∃ members, value = .object members
  /-- Nothing is refused without a fault. -/
  reasoned : ∀ shape value, check shape value ≠ .error []

end SimTriage.Schema
