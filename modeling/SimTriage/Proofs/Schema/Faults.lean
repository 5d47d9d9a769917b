import Mathlib.Data.List.Nodup
import SimTriage.Proofs.Schema.Stable
import SimTriage.Schema.Lax

/-!
Where the faults of a value are. The faults of a list are those of its items and the faults of a
record those of its fields, each under its own step and in order, so a value is taken exactly if
each of its parts is. For the shapes that are published this comes together with what holds of
values once they are taken.
-/

set_option autoImplicit false

namespace SimTriage.Schema

variable {α β : Type} {validator : Validator} {shape item : Shape} {value : Json}
variable {field : Field Shape} {fields : List (Field Shape)} {members : List (Text × Json)}

/-- Everything that is wrong. -/
def faultsOf : Outcome α → List Fault
  | .ok _ => []
  | .error faults => faults

theorem faultsOf_under (step : Step) (outcome : Outcome α) :
    faultsOf (under step outcome) = (faultsOf outcome).map (Fault.under step) := by
  cases outcome <;> rfl

theorem faultsOf_map (f : α → β) (outcome : Outcome α) :
    faultsOf (f <$> outcome) = faultsOf outcome := by
  cases outcome <;> rfl

theorem faultsOf_collect (outcomes : List (Outcome α)) :
    faultsOf (collect outcomes) = outcomes.flatMap faultsOf := by
  induction outcomes with
  | nil => rfl
  | cons outcome outcomes ih =>
      rw [List.flatMap_cons, ← ih, collect]
      cases outcome <;> cases collect outcomes <;> simp [both, faultsOf]

/-- The value is taken for one of the shape. -/
def IsValid (validator : Validator) (shape : Shape) (value : Json) : Prop :=
  ∃ result, validator.check shape value = .ok result

/-- The members have a value of the shape for the field, or do without one where that is allowed. -/
def Field.IsMet (validator : Validator) (members : List (Text × Json)) (field : Field Shape) :
    Prop :=
  match members.lookup field.name with
  | some value => IsValid validator field.shape value
  | none => field.presence ≠ .required

theorem faultsOf_eq_nil_iff :
    faultsOf (validator.check shape value) = [] ↔ IsValid validator shape value := by
  have reasoned := validator.reasoned shape value
  unfold IsValid
  cases checked : validator.check shape value with
  | ok result => simp [faultsOf]
  | error faults =>
      rw [checked] at reasoned
      simpa [faultsOf] using reasoned

theorem Field.faultsOf_outcome_eq_nil_iff :
    faultsOf (field.outcome validator.check members) = [] ↔ field.IsMet validator members := by
  unfold Field.outcome Field.IsMet
  cases members.lookup field.name with
  | some value => exact faultsOf_eq_nil_iff
  | none =>
      cases field.presence with
      | required => simp [absent, fail, faultsOf]
      | fallback value | startsAs value => simp [absent, faultsOf]

theorem faultsOf_list (item : Shape) (values : List Json) :
    faultsOf (validator.check (.list item) (.array values)) =
      values.zipIdx.flatMap fun part =>
        (faultsOf (validator.check item part.1)).map (Fault.under (.index part.2)) := by
  rw [validator.items, faultsOf_map, faultsOf_collect, List.flatMap_map]
  simp only [faultsOf_under]

theorem faultsOf_record (name : Text) (fields : List (Field Shape)) (members : List (Text × Json)) :
    faultsOf (validator.check (.record name fields) (.object members)) =
      fields.flatMap fun field =>
        (faultsOf (field.outcome validator.check members)).map
          (Fault.under (.field field.name)) := by
  rw [validator.fields, faultsOf_map, faultsOf_collect, List.flatMap_map]
  simp only [asMember, faultsOf_map, faultsOf_under]

theorem isValid_list_iff {values : List Json} :
    IsValid validator (.list item) (.array values) ↔
      ∀ value ∈ values, IsValid validator item value := by
  rw [← faultsOf_eq_nil_iff, faultsOf_list, List.flatMap_eq_nil_iff]
  simp only [List.map_eq_nil_iff, faultsOf_eq_nil_iff]
  conv_rhs => rw [← List.zipIdx_map_fst 0 values, List.forall_mem_map]

theorem isValid_record_iff {name : Text} :
    IsValid validator (.record name fields) (.object members) ↔
      ∀ field ∈ fields, field.IsMet validator members := by
  rw [← faultsOf_eq_nil_iff, faultsOf_record, List.flatMap_eq_nil_iff]
  simp only [List.map_eq_nil_iff, Field.faultsOf_outcome_eq_nil_iff]

/-- The fault is in the field of that name, or deeper. -/
def Fault.isBelow (name : Text) (fault : Fault) : Bool := fault.path.head? = some (.field name)

theorem filter_isBelow_under (name other : Text) (faults : List Fault) :
    (faults.map (Fault.under (.field other))).filter (Fault.isBelow name) =
      if other = name then faults.map (Fault.under (.field other)) else [] := by
  by_cases same : other = name
  · rw [if_pos same, List.filter_eq_self]
    intro fault listed
    obtain ⟨inner, -, rfl⟩ := List.mem_map.mp listed
    simp [Fault.isBelow, Fault.under, same]
  · rw [if_neg same, List.filter_eq_nil_iff]
    intro fault listed
    obtain ⟨inner, -, rfl⟩ := List.mem_map.mp listed
    simp [Fault.isBelow, Fault.under, same]

/-- Where no two fields have one name, the faults below a name are those of its field. -/
theorem faultsBelow_record {name : Text} (distinct : (fields.map Field.name).Nodup)
    (listed : field ∈ fields) :
    (faultsOf (validator.check (.record name fields) (.object members))).filter
        (Fault.isBelow field.name) =
      (faultsOf (field.outcome validator.check members)).map (Fault.under (.field field.name)) := by
  rw [faultsOf_record, List.filter_flatMap]
  simp only [filter_isBelow_under]
  induction fields with
  | nil => cases listed
  | cons first fields ih =>
      rw [List.map_cons, List.nodup_cons] at distinct
      rw [List.flatMap_cons]
      rcases List.mem_cons.mp listed with rfl | later
      · rw [if_pos rfl, List.append_right_eq_self, List.flatMap_eq_nil_iff]
        intro other member
        apply if_neg
        intro same
        exact distinct.1 (List.mem_map.mpr ⟨other, member, same⟩)
      · rw [if_neg, List.nil_append, ih distinct.2 later]
        intro same
        exact distinct.1 (List.mem_map.mpr ⟨field, later, same.symm⟩)

section ListField

variable {name : Text} {values : List Json}

theorem faultsBelow_list (distinct : (fields.map Field.name).Nodup) (listed : field ∈ fields)
    (isList : field.shape = .list item) (found : members.lookup field.name = some (.array values)) :
    (faultsOf (validator.check (.record name fields) (.object members))).filter
        (Fault.isBelow field.name) =
      values.zipIdx.flatMap fun part => (faultsOf (validator.check item part.1)).map fun fault =>
        (fault.under (.index part.2)).under (.field field.name) := by
  have outcome : field.outcome validator.check members =
      validator.check (.list item) (.array values) := by
    rw [Field.outcome, found, isList]
  rw [faultsBelow_record distinct listed, outcome, faultsOf_list, List.map_flatMap]
  simp only [List.map_map]
  rfl

theorem isValid_record_list_iff (distinct : (fields.map Field.name).Nodup) (listed : field ∈ fields)
    (isList : field.shape = .list item) (found : members.lookup field.name = some (.array values)) :
    IsValid validator (.record name fields) (.object members) ↔
      (∀ value ∈ values, IsValid validator item value) ∧
        ∀ other ∈ fields, other.name ≠ field.name → other.IsMet validator members := by
  have own : field.IsMet validator members ↔ ∀ value ∈ values, IsValid validator item value := by
    rw [Field.IsMet, found, isList]
    exact isValid_list_iff
  rw [isValid_record_iff, ← own]
  constructor
  · intro each
    exact ⟨each field listed, fun other member _ => each other member⟩
  · rintro ⟨met, others⟩ other member
    by_cases same : other.name = field.name
    · rwa [List.inj_on_of_nodup_map distinct member listed same]
    · exact others other member same

end ListField

/-- What a published shape has made of a value it makes of it again, and it refuses a value exactly
if it finds a fault. The faults below the log of a message are those of its entries, each entry held
against its own shape and named by its place, one after the other. The message is taken exactly if
all entries and all other fields are. -/
theorem published_settled (validator : Validator) :
    (∀ shape ∈ [entry, hostError, parsedError, errorSummary], ∀ value,
      (∀ result, validator.check shape value = .ok result →
        validator.check shape result = .ok result) ∧
      (IsValid validator shape value ↔ faultsOf (validator.check shape value) = [])) ∧
    ∀ members values, (Json.object members).member? "event_log" = some (.array values) →
      (faultsOf (validator.check parsedError (.object members))).filter
          (Fault.isBelow "event_log") =
        values.zipIdx.flatMap (fun part =>
          (faultsOf (validator.check entry part.1)).map fun fault =>
            ⟨.field "event_log" :: .index part.2 :: fault.path, fault.cause⟩) ∧
      (IsValid validator parsedError (.object members) ↔
        (∀ value ∈ values, IsValid validator entry value) ∧
          ∀ field ∈ parsedErrorFields, field.name ≠ "event_log" →
            field.IsMet validator members) := by
  have sound :
      ∀ shape ∈ [entry, hostError, parsedError, errorSummary], IsSound validator shape := by
    simp only [List.forall_mem_cons]
    exact ⟨isSound_entry, isSound_hostError, isSound_parsedError, isSound_errorSummary,
      List.forall_mem_nil _⟩
  have distinct : (parsedErrorFields.map Field.name).Nodup := by decide
  have listed : ⟨"event_log", .list entry, .startsAs (.array []), none⟩ ∈ parsedErrorFields :=
    .tail _ (.tail _ (.tail _ (.tail _ (.head _))))
  constructor
  · intro shape member value
    exact ⟨conforms_of_check (sound shape member) value, faultsOf_eq_nil_iff.symm⟩
  · intro members values found
    exact ⟨faultsBelow_list distinct listed rfl found,
      isValid_record_list_iff distinct listed rfl found⟩

/-- An entry in loose spelling, with a field that is dropped and two that are filled in. -/
def looseEntry : Json :=
  .object [("data", .string "1"), ("index", .string " +007.0 "), ("extra", .bool true),
    ("type", .string "Contract Event")]

/-- The same entry as it comes out. -/
def settledEntry : Json :=
  .object [("index", .integer 7), ("type", .string "Contract Event"), ("contract", .null),
    ("topics", .array []), ("data", .string "1")]

/-- An entry with three faults. -/
def faultyEntry : Json := .object [("index", .integer (-1)), ("data", .integer 3)]

/-- A message with both of them, and without a headline. -/
def looseMessage : Json := .object [("event_log", .array [looseEntry, faultyEntry])]

/-- A loose entry is settled in one pass, and a faulty one behind it is named by its place. -/
theorem published_settled_loose :
    Validator.lax.check entry looseEntry = .ok settledEntry ∧
      Validator.lax.check entry settledEntry = .ok settledEntry ∧
      looseMessage.member? "event_log" = some (.array [looseEntry, faultyEntry]) ∧
      (faultsOf (Validator.lax.check parsedError looseMessage)).filter (Fault.isBelow "event_log") =
        [⟨[.field "event_log", .index 1, .field "index"], .negative⟩,
          ⟨[.field "event_log", .index 1, .field "type"], .missing⟩,
          ⟨[.field "event_log", .index 1, .field "data"], .notText⟩] ∧
      ¬ IsValid .lax parsedError looseMessage := by
  have loose : Validator.lax.check entry looseEntry = .ok settledEntry := by rfl
  obtain ⟨settles, below⟩ := published_settled .lax
  have found : looseMessage.member? "event_log" = some (.array [looseEntry, faultyEntry]) := by rfl
  obtain ⟨faults, taken⟩ := below _ _ found
  refine ⟨loose, (settles entry (.head _) looseEntry).1 settledEntry loose, found, ?_, ?_⟩
  · exact faults.trans rfl
  · intro whole
    obtain ⟨each, -⟩ := taken.mp whole
    obtain ⟨result, valid⟩ := each faultyEntry (.tail _ (.head _))
    cases valid

end SimTriage.Schema
