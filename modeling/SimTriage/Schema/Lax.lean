import SimTriage.Schema.Describe
import SimTriage.Schema.Validate
import SimTriage.Schema.Validator

/-!
The validator that is built in. It recognises whole numbers in several spellings.
-/

set_option autoImplicit false

namespace SimTriage.Schema

variable {α β : Type} {outcome : Outcome α} {value result : Json}

theorem validate_text_eq_ok_iff :
    validate .text value = .ok result ↔ (∃ text, value = .string text) ∧ result = value := by
  cases value with
  | string text => simp [validate, eq_comm]
  | null | bool | integer | decimal | array | object => simp [validate, fail]

theorem validate_kind_eq_ok_iff :
    validate .kind value = .ok result ↔
      (∃ kind : Event.Kind, value = .string kind.label) ∧ result = value := by
  cases value with
  | string text =>
      rw [validate]
      constructor
      · intro taken
        split at taken
        · rename_i known
          obtain ⟨kind, found⟩ := Option.isSome_iff_exists.mp known
          cases taken
          exact ⟨⟨kind, by rw [Event.Kind.label_of_ofLabel? found]⟩, rfl⟩
        · cases taken
      · rintro ⟨⟨kind, same⟩, rfl⟩
        cases same
        rw [Event.Kind.ofLabel?_label]
        rfl
  | null | bool | integer | decimal | array | object => simp [validate, fail]

theorem integer_integer {nonNegative : Bool} {n : Int} (bound : nonNegative = true → 0 ≤ n) :
    integer nonNegative (.integer n) = .ok (.integer n) := by
  have accepted : (nonNegative && n < 0) = false := by
    cases nonNegative with
    | false => rfl
    | true => simpa using bound rfl
  simp only [integer, integerOf, accepted, Bool.false_eq_true, ↓reduceIte]

/-- An integer comes out as one within the bound, however it was spelled. -/
theorem exists_of_integer {nonNegative : Bool} (taken : integer nonNegative value = .ok result) :
    ∃ n : Int, result = .integer n ∧ (nonNegative = true → 0 ≤ n) := by
  unfold integer at taken
  split at taken
  · cases taken
  · rename_i n _
    split at taken
    · cases taken
    · rename_i bounded
      cases taken
      refine ⟨n, rfl, fun bound => ?_⟩
      simpa [bound] using bounded

theorem validateFields_eq (fields : List (Field Shape)) (members : List (Text × Json)) :
    validateFields fields members =
      fields.map fun field => asMember field.name (field.outcome validate members) := by
  induction fields with
  | nil => rfl
  | cons field fields ih =>
      obtain ⟨name, shape, presence, description⟩ := field
      rw [validateFields, ih, List.map_cons]
      rfl

section Reasoned

/-- Nothing is refused without a fault. -/
def IsReasoned (outcome : Outcome α) : Prop := outcome ≠ .error []

theorem isReasoned_ok (a : α) : IsReasoned (.ok a) := by
  intro refused
  cases refused

theorem isReasoned_error_iff {faults : List Fault} :
    IsReasoned (.error faults : Outcome α) ↔ faults ≠ [] := by
  simp [IsReasoned]

theorem isReasoned_fail (cause : Cause) : IsReasoned (fail cause : Outcome α) := by
  intro refused
  cases refused

theorem IsReasoned.map (f : α → β) (reasoned : IsReasoned outcome) :
    IsReasoned (f <$> outcome) := by
  cases outcome with
  | ok a => exact isReasoned_ok (f a)
  | error faults => exact isReasoned_error_iff.mpr (isReasoned_error_iff.mp reasoned)

theorem IsReasoned.under (step : Step) (reasoned : IsReasoned outcome) :
    IsReasoned (under step outcome) := by
  cases outcome with
  | ok a => exact isReasoned_ok a
  | error faults =>
      rw [isReasoned_error_iff] at reasoned
      rw [Schema.under, isReasoned_error_iff, ne_eq, List.map_eq_nil_iff]
      exact reasoned

theorem IsReasoned.asMember {outcome : Outcome Json} (name : Text)
    (reasoned : IsReasoned outcome) : IsReasoned (asMember name outcome) :=
  (reasoned.under _).map _

theorem isReasoned_collect {outcomes : List (Outcome α)}
    (each : ∀ outcome ∈ outcomes, IsReasoned outcome) : IsReasoned (collect outcomes) := by
  induction outcomes with
  | nil => exact isReasoned_ok []
  | cons outcome outcomes ih =>
      obtain ⟨first, others⟩ := List.forall_mem_cons.mp each
      have rest := ih others
      rw [collect]
      cases outcome with
      | ok a =>
          cases collected : collect outcomes with
          | ok values => exact isReasoned_ok _
          | error back =>
              rw [collected, isReasoned_error_iff] at rest
              exact isReasoned_error_iff.mpr rest
      | error front =>
          rw [isReasoned_error_iff] at first
          cases collect outcomes with
          | ok values => exact isReasoned_error_iff.mpr first
          | error back =>
              apply isReasoned_error_iff.mpr
              exact List.append_ne_nil_of_left_ne_nil first back

theorem isReasoned_integer (nonNegative : Bool) (value : Json) :
    IsReasoned (integer nonNegative value) := by
  unfold integer
  split
  · exact isReasoned_fail _
  · split
    · exact isReasoned_fail _
    · exact isReasoned_ok _

theorem isReasoned_absent (presence : Presence) : IsReasoned (absent presence) := by
  cases presence with
  | required => exact isReasoned_fail .missing
  | fallback value | startsAs value => exact isReasoned_ok value

end Reasoned

/-- Shapes by what they are made of, with the fields of a record treated as a whole. -/
@[elab_as_elim]
theorem Shape.inductionOn {motive : Shape → Prop} (shape : Shape) (text : motive .text)
    (integer : ∀ nonNegative, motive (.integer nonNegative)) (kind : motive .kind)
    (nullable : ∀ inner, motive inner → motive (.nullable inner))
    (list : ∀ item, motive item → motive (.list item)) (counts : motive .counts)
    (record : ∀ name fields, (∀ field ∈ fields, motive (Field.shape field)) →
      motive (.record name fields)) : motive shape := by
  refine Shape.rec (motive_2 := fun fields => ∀ field ∈ fields, motive (Field.shape field))
    (motive_3 := fun field => motive field.shape)
    text integer kind nullable list counts record ?_ ?_ ?_ shape
  · exact List.forall_mem_nil _
  · exact fun field fields first others => List.forall_mem_cons.mpr ⟨first, others⟩
  · exact fun _ _ _ _ holds => holds

theorem isReasoned_validate (shape : Shape) : ∀ value, IsReasoned (validate shape value) := by
  induction shape using Shape.inductionOn with
  | text =>
      intro value
      cases value with
      | string text => exact isReasoned_ok _
      | null | bool | integer | decimal | array | object => exact isReasoned_fail _
  | integer nonNegative =>
      intro value
      rw [validate]
      exact isReasoned_integer nonNegative value
  | kind =>
      intro value
      cases value with
      | string text =>
          rw [validate]
          split
          · exact isReasoned_ok _
          · exact isReasoned_fail _
      | null | bool | integer | decimal | array | object => exact isReasoned_fail _
  | nullable inner ih =>
      intro value
      cases value with
      | null => exact isReasoned_ok _
      | bool | integer | decimal | string | array | object => exact ih _
  | list item ih =>
      intro value
      cases value with
      | array values =>
          rw [validate]
          apply IsReasoned.map
          apply isReasoned_collect
          exact List.forall_mem_map.mpr fun part _ => (ih part.1).under _
      | null | bool | integer | decimal | string | object => exact isReasoned_fail _
  | counts =>
      intro value
      cases value with
      | object members =>
          rw [validate]
          apply IsReasoned.map
          apply isReasoned_collect
          exact List.forall_mem_map.mpr fun member _ =>
            (isReasoned_integer false member.2).asMember member.1
      | null | bool | integer | decimal | string | array => exact isReasoned_fail _
  | record name fields ih =>
      intro value
      cases value with
      | object members =>
          rw [validate, validateFields_eq]
          apply IsReasoned.map
          apply isReasoned_collect
          refine List.forall_mem_map.mpr fun field listed => IsReasoned.asMember field.name ?_
          unfold Field.outcome
          split
          · exact ih field listed _
          · exact isReasoned_absent field.presence
      | null | bool | integer | decimal | string | array => exact isReasoned_fail _

def Validator.lax : Validator where
  check := validate
  document := Schema.document
  text _ _ := validate_text_eq_ok_iff
  kind _ _ := validate_kind_eq_ok_iff
  integer nonNegative n bound := by
    rw [validate]
    exact integer_integer bound
  recognised nonNegative value result taken := by
    rw [validate] at taken
    exact exists_of_integer taken
  null inner := rfl
  given inner value present := by
    cases value with
    | null => exact absurd rfl present
    | bool | integer | decimal | string | array | object => rfl
  items item values := by rw [validate]
  array item value result taken := by
    cases value with
    | array values => exact ⟨values, rfl⟩
    | null | bool | integer | decimal | string | object => cases taken
  counts members := by simp only [validate]
  fields name fields members := by rw [validate, validateFields_eq]
  object value result taken := by
    cases value with
    | object members => exact ⟨members, rfl⟩
    | null | bool | integer | decimal | string | array => cases taken
  objectOfRecord name fields value result taken := by
    cases value with
    | object members => exact ⟨members, rfl⟩
    | null | bool | integer | decimal | string | array => cases taken
  reasoned := isReasoned_validate

end SimTriage.Schema
