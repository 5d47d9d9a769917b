import SimTriage.Proofs.Schema.Outcome

/-!
Values that have a shape as they are. Held against the shape, such a value comes out unchanged:
nothing in it is recognised as something else, filled in or dropped.
-/

set_option autoImplicit false

namespace SimTriage.Schema

variable {validator : Validator} {value : Json}

/-- The value has the shape, and comes out as it is. -/
def Conforms (validator : Validator) (shape : Shape) (value : Json) : Prop :=
  validator.check shape value = .ok value

theorem conforms_text (text : Text) : Conforms validator .text (.string text) :=
  (validator.text _ _).mpr ⟨⟨text, rfl⟩, rfl⟩

theorem conforms_integer {nonNegative : Bool} {n : Int} (bound : nonNegative = true → 0 ≤ n) :
    Conforms validator (.integer nonNegative) (.integer n) :=
  validator.integer nonNegative n bound

theorem conforms_natural (n : Nat) : Conforms validator (.integer true) (.integer n) :=
  conforms_integer fun _ => Int.natCast_nonneg n

theorem conforms_kind (kind : Event.Kind) : Conforms validator .kind (.string kind.label) :=
  (validator.kind _ _).mpr ⟨⟨kind, rfl⟩, rfl⟩

theorem conforms_null (inner : Shape) : Conforms validator (.nullable inner) .null :=
  validator.null inner

theorem Conforms.nullable {inner : Shape} (conforms : Conforms validator inner value) :
    Conforms validator (.nullable inner) value := by
  by_cases absent : value = .null
  · rw [absent]
    exact conforms_null inner
  · exact (validator.given inner value absent).trans conforms

theorem conforms_list {item : Shape} {values : List Json}
    (each : ∀ value ∈ values, Conforms validator item value) :
    Conforms validator (.list item) (.array values) :=
  Validator.list_eq_ok_iff.mpr ⟨values, List.forall₂_same.mpr each, rfl⟩

theorem conforms_texts (texts : List Text) :
    Conforms validator (.list .text) (.array (texts.map .string)) := by
  refine conforms_list fun value member => ?_
  obtain ⟨text, -, rfl⟩ := List.mem_map.mp member
  exact conforms_text text

theorem conforms_members {members : List (Text × Json)}
    (each : ∀ member ∈ members, Conforms validator (.integer false) member.2) :
    Conforms validator .counts (.object members) := by
  refine Validator.counts_eq_ok_iff.mpr ⟨members, List.forall₂_same.mpr ?_, rfl⟩
  exact fun member listed => ⟨rfl, each member listed⟩

theorem conforms_counts {α : Type} (name : α → Text) (count : α → Nat) (entries : List α) :
    Conforms validator .counts (.object (entries.map fun a => (name a, .integer (count a)))) := by
  apply conforms_members
  intro member listed
  obtain ⟨a, -, rfl⟩ := List.mem_map.mp listed
  exact conforms_integer (by simp)

/-- What a record comes to hold for a field: the member of that name as it is, or what the field has
in place of a missing one. -/
inductive Supplies (validator : Validator) (members : List (Text × Json)) :
    Field Shape → Text × Json → Prop
  | held {field : Field Shape} {value : Json} (found : members.lookup field.name = some value)
      (conforms : Conforms validator field.shape value) :
      Supplies validator members field (field.name, value)
  | filled {field : Field Shape} {value : Json} (missing : members.lookup field.name = none)
      (known : absent field.presence = .ok value) :
      Supplies validator members field (field.name, value)

theorem check_record {name : Text} {fields : List (Field Shape)}
    {members results : List (Text × Json)}
    (supplied : List.Forall₂ (Supplies validator members) fields results) :
    validator.check (.record name fields) (.object members) = .ok (.object results) := by
  refine Validator.record_eq_ok_iff.mpr ⟨results, supplied.imp ?_, rfl⟩
  intro field result supplies
  cases supplies with
  | held found conforms =>
      rw [Field.outcome, found]
      exact ⟨rfl, conforms⟩
  | filled missing known =>
      rw [Field.outcome, missing]
      exact ⟨rfl, known⟩

end SimTriage.Schema
