import SimTriage.Proofs.Schema.Conforms
import SimTriage.Schema.Published

/-!
Values that have been held against a shape once. Held against it again they come out as they are:
what was recognised, filled in or dropped the first time is settled. A record asks for two things
that its shape has to see to: no two fields of one name, and no stand-in for a missing field that
lacks the shape of the field.
-/

set_option autoImplicit false

namespace SimTriage.Schema

variable {validator : Validator} {shape : Shape} {fields : List (Field Shape)} {value result : Json}
variable {members results : List (Text × Json)}

/-- What stands in for a missing field has the shape of the field. -/
def Presence.Fits (validator : Validator) (shape : Shape) : Presence → Prop
  | .required => True
  | .fallback value | .startsAs value => Conforms validator shape value

/-- Records have each field once, and what they fill in has the shape that it is filled in for. -/
inductive IsSound (validator : Validator) : Shape → Prop
  | text : IsSound validator .text
  | integer (nonNegative : Bool) : IsSound validator (.integer nonNegative)
  | kind : IsSound validator .kind
  | nullable {inner : Shape} (sound : IsSound validator inner) :
      IsSound validator (.nullable inner)
  | list {item : Shape} (sound : IsSound validator item) : IsSound validator (.list item)
  | counts : IsSound validator .counts
  | record {name : Text} {fields : List (Field Shape)} (distinct : (fields.map Field.name).Nodup)
      (sound : ∀ field ∈ fields, IsSound validator field.shape)
      (fits : ∀ field ∈ fields, field.presence.Fits validator field.shape) :
      IsSound validator (.record name fields)

/-- An integer comes out as one within the bound, however it was spelled. -/
theorem conforms_of_integer {nonNegative : Bool}
    (taken : validator.check (.integer nonNegative) value = .ok result) :
    Conforms validator (.integer nonNegative) result := by
  obtain ⟨n, rfl, bound⟩ := validator.recognised nonNegative value result taken
  exact conforms_integer bound

/-- What each pair says of its second part holds throughout the second list. -/
theorem forall_mem_of_forall₂ {α β : Type} {R : α → β → Prop} {p : β → Prop} {front : List α}
    {back : List β} (paired : List.Forall₂ R front back) (each : ∀ a b, R a b → p b) :
    ∀ b ∈ back, p b := by
  induction paired with
  | nil => exact List.forall_mem_nil p
  | cons related _ ih => exact List.forall_mem_cons.mpr ⟨each _ _ related, ih⟩

/-- Where no two members have one name, each is found by its name. -/
theorem lookup_of_mem {name : Text} (distinct : (members.map Prod.fst).Nodup)
    (member : (name, value) ∈ members) : members.lookup name = some value := by
  induction members with
  | nil => cases member
  | cons first members ih =>
      rw [List.map_cons, List.nodup_cons] at distinct
      rcases List.mem_cons.mp member with same | later
      · rw [← same, List.lookup_cons_self]
      · have other : (name == first.1) = false := by
          apply beq_false_of_ne
          rintro rfl
          exact distinct.1 (List.mem_map.mpr ⟨_, later, rfl⟩)
        rw [List.lookup_cons, other]
        exact ih distinct.2 later

/-- What comes out for a field has its shape, if all that comes out for the shape has it. -/
theorem conforms_of_outcome {field : Field Shape}
    (fits : field.presence.Fits validator field.shape)
    (settles : ∀ value result, validator.check field.shape value = .ok result →
      Conforms validator field.shape result)
    (taken : field.outcome validator.check members = .ok result) :
    Conforms validator field.shape result := by
  unfold Field.outcome at taken
  split at taken
  · exact settles _ _ taken
  · cases presence : field.presence with
    | required =>
        rw [presence] at taken
        cases taken
    | fallback known =>
        rw [presence] at taken fits
        cases taken
        exact fits
    | startsAs known =>
        rw [presence] at taken fits
        cases taken
        exact fits

/-- A record that has come out finds its fields in itself. -/
theorem conforms_record {name : Text} (distinct : (fields.map Field.name).Nodup)
    (paired : List.Forall₂ (fun field result => field.name = result.1 ∧
      field.outcome validator.check members = .ok result.2) fields results)
    (each : ∀ field ∈ fields, ∀ result, field.outcome validator.check members = .ok result →
      Conforms validator field.shape result) :
    Conforms validator (.record name fields) (.object results) := by
  -- the results bear the names of the fields, so each field finds its own result
  have names : fields.map Field.name = results.map Prod.fst := by
    rw [← List.forall₂_eq_eq_eq, List.forall₂_map_left_iff, List.forall₂_map_right_iff]
    exact paired.imp fun _ _ holds => holds.1
  rw [names] at distinct
  rw [List.forall₂_iff_zip] at paired
  apply check_record
  rw [List.forall₂_iff_zip]
  refine ⟨paired.1, ?_⟩
  rintro field ⟨name, value⟩ together
  obtain ⟨same, outcome⟩ := paired.2 together
  obtain ⟨listed, held⟩ := List.of_mem_zip together
  dsimp only at same outcome
  subst same
  exact .held (lookup_of_mem distinct held) (each field listed value outcome)

/-- What a shape has made of a value stays as it is. -/
theorem conforms_of_check (sound : IsSound validator shape) :
    ∀ value result, validator.check shape value = .ok result →
      Conforms validator shape result := by
  -- one case per kind of shape; a record alone asks for more than that its parts settle
  induction sound with
  | text =>
      intro value result taken
      obtain ⟨⟨text, rfl⟩, rfl⟩ := (validator.text value result).mp taken
      exact conforms_text text
  | integer nonNegative => exact fun value result => conforms_of_integer
  | kind =>
      intro value result taken
      obtain ⟨⟨kind, rfl⟩, rfl⟩ := (validator.kind value result).mp taken
      exact conforms_kind kind
  | @nullable inner _ ih =>
      intro value result taken
      by_cases absent : value = .null
      · rw [absent, validator.null] at taken
        cases taken
        exact conforms_null inner
      · rw [validator.given inner value absent] at taken
        exact (ih value result taken).nullable
  | list _ ih =>
      intro value result taken
      obtain ⟨values, rfl⟩ := validator.array _ value result taken
      obtain ⟨results, listed, rfl⟩ := Validator.list_eq_ok_iff.mp taken
      exact conforms_list (forall_mem_of_forall₂ listed ih)
  | counts =>
      intro value result taken
      obtain ⟨members, rfl⟩ := validator.object value result taken
      obtain ⟨results, counted, rfl⟩ := Validator.counts_eq_ok_iff.mp taken
      apply conforms_members
      refine forall_mem_of_forall₂ counted ?_
      intro member result both
      exact conforms_of_integer both.2
  | record distinct _ fits ih =>
      intro value result taken
      obtain ⟨members, rfl⟩ := validator.objectOfRecord _ _ value result taken
      obtain ⟨results, paired, rfl⟩ := Validator.record_eq_ok_iff.mp taken
      apply conforms_record distinct paired
      intro field listed result outcome
      exact conforms_of_outcome (fits field listed) (ih field listed) outcome

theorem isSound_entry : IsSound validator entry := by
  apply IsSound.record
  · decide
  · simp only [entryFields, optional, List.forall_mem_cons]
    exact ⟨.integer true, .kind, .nullable .text, .list .text, .text, List.forall_mem_nil _⟩
  · simp only [entryFields, optional, List.forall_mem_cons]
    exact ⟨trivial, trivial, conforms_null _, conforms_texts [], trivial, List.forall_mem_nil _⟩

theorem isSound_hostError : IsSound validator hostError := by
  apply IsSound.record
  · decide
  · simp only [hostErrorFields, optional, List.forall_mem_cons]
    exact ⟨.text, .text, .nullable (.integer false), List.forall_mem_nil _⟩
  · simp only [hostErrorFields, optional, List.forall_mem_cons]
    exact ⟨trivial, trivial, conforms_null _, List.forall_mem_nil _⟩

theorem isSound_parsedError : IsSound validator parsedError := by
  apply IsSound.record
  · decide
  · simp only [parsedErrorFields, optional, List.forall_mem_cons]
    exact ⟨.text, .nullable isSound_hostError, .nullable (.integer true),
      .nullable (.integer true), .list isSound_entry, List.forall_mem_nil _⟩
  · simp only [parsedErrorFields, optional, List.forall_mem_cons]
    exact ⟨trivial, conforms_null _, conforms_null _, conforms_null _,
      conforms_list (List.forall_mem_nil _), List.forall_mem_nil _⟩

theorem isSound_errorSummary : IsSound validator errorSummary := by
  apply IsSound.record
  · decide
  · simp only [errorSummaryFields, optional, List.forall_mem_cons]
    exact ⟨.text, .integer true, .integer true, .integer true, .counts, .list .text,
      .nullable isSound_hostError, List.forall_mem_nil _⟩
  · simp only [errorSummaryFields, optional, List.forall_mem_cons]
    exact ⟨trivial, trivial, trivial, trivial, conforms_members (List.forall_mem_nil _),
      conforms_texts [], conforms_null _, List.forall_mem_nil _⟩

end SimTriage.Schema
