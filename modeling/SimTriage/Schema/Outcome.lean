import SimTriage.Schema.Shape

/-!
What holding a value against a shape comes to: a value, or everything that is wrong. Outcomes for
parts are put together to one for the whole, which has the faults of all parts in their order.
-/

set_option autoImplicit false

namespace SimTriage.Schema

/-- A value, or everything that is wrong with it. -/
abbrev Outcome (α : Type) := Except (List Fault) α

/-- Both parts, or the faults of both. -/
def both {α β γ : Type} (combine : α → β → γ) : Outcome α → Outcome β → Outcome γ
  | .ok a, .ok b => .ok (combine a b)
  | .ok _, .error faults => .error faults
  | .error faults, .ok _ => .error faults
  | .error front, .error back => .error (front ++ back)

/-- All parts, or the faults of all of them. -/
def collect {α : Type} : List (Outcome α) → Outcome (List α)
  | [] => .ok []
  | outcome :: outcomes => both (· :: ·) outcome (collect outcomes)

/-- The outcome for a part, seen from the whole. -/
def under {α : Type} (step : Step) : Outcome α → Outcome α
  | .ok value => .ok value
  | .error faults => .error (faults.map (Fault.under step))

/-- A value with its name, seen from the object that holds it. -/
def asMember (name : Text) (outcome : Outcome Json) : Outcome (Text × Json) :=
  (fun value => (name, value)) <$> under (.field name) outcome

/-- A fault of the value itself. -/
def fail {α : Type} (cause : Cause) : Outcome α := .error [⟨[], cause⟩]

/-- A field that the value lacks. -/
def absent (presence : Presence) : Outcome Json :=
  match presence with
  | .required => fail .missing
  | .fallback value | .startsAs value => .ok value

/-- What the members of a value come to for a field, if `check` holds values against shapes. -/
def Field.outcome (check : Shape → Json → Outcome Json) (members : List (Text × Json))
    (field : Field Shape) : Outcome Json :=
  match members.lookup field.name with
  | some value => check field.shape value
  | none => absent field.presence

end SimTriage.Schema
