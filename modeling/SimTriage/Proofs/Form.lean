import SimTriage.Form

/-!
Reading the JSON forms of messages and summaries: labels become kinds again, and null becomes none.
The forms lose nothing.
-/

set_option autoImplicit false

namespace SimTriage

open Event (Entry Kind)

namespace Json

variable {α : Type}

def text? : Json → Option Text
  | .string text => some text
  | _ => none

def integer? : Json → Option Int
  | .integer n => some n
  | _ => none

def natural? : Json → Option Nat
  | .integer (.ofNat n) => some n
  | _ => none

/-- Every item of an array. -/
def list? (item? : Json → Option α) : Json → Option (List α)
  | .array items => items.mapM item?
  | _ => none

/-- Null, or a value of the form. -/
def nullable? (form? : Json → Option α) : Json → Option (Option α)
  | .null => some none
  | value => (form? value).map some

/-- The value under that name, which has to be there. -/
def field? (name : Text) (form? : Json → Option α) (value : Json) : Option α :=
  (value.member? name).bind form?

theorem mapM_map {β : Type} {write : α → β} {read? : β → Option α} {values : List α}
    (each : ∀ a ∈ values, read? (write a) = some a) :
    (values.map write).mapM read? = some values := by
  induction values with
  | nil => rfl
  | cons a values ih =>
      obtain ⟨first, others⟩ := List.forall_mem_cons.mp each
      rw [List.map_cons, List.mapM_cons, first, ih others]
      rfl

theorem list?_map {write : α → Json} {item? : Json → Option α} {values : List α}
    (each : ∀ a ∈ values, item? (write a) = some a) :
    list? item? (.array (values.map write)) = some values :=
  mapM_map each

theorem list?_texts (texts : List Text) :
    list? text? (.array (texts.map .string)) = some texts :=
  list?_map fun _ _ => rfl

theorem nullable?_ofText? (text : Option Text) : nullable? text? (ofText? text) = some text := by
  cases text <;> rfl

theorem nullable?_ofNat? (n : Option Nat) : nullable? natural? (ofNat? n) = some n := by
  cases n <;> rfl

end Json

open Json (field? text? integer? natural? list? nullable?)

/-- The kind with that label. -/
def Event.Kind.ofJson? (value : Json) : Option Kind := (text? value).bind ofLabel?

def Event.Entry.ofJson? (value : Json) : Option Entry := do
  let index ← field? "index" integer? value
  let kind ← field? "type" Kind.ofJson? value
  let contract ← field? "contract" (nullable? text?) value
  let topics ← field? "topics" (list? text?) value
  let data ← field? "data" text? value
  return { index, kind, contract, topics, data }

def HostError.ofJson? (value : Json) : Option HostError := do
  let type ← field? "type" text? value
  let code ← field? "code" text? value
  let contractCode ← field? "contract_code" (nullable? natural?) value
  return { type, code, contractCode }

def Message.ofJson? (value : Json) : Option Message := do
  let headline ← field? "main_error" text? value
  let log ← field? "event_log" (list? Entry.ofJson?) value
  return { headline, log }

/-- A number for each kind, by the labels of the kinds. -/
def Event.Kind.counts? : Json → Option (List (Kind × Nat))
  | .object members => members.mapM fun member => do
    return (← ofLabel? member.1, ← natural? member.2)
  | _ => none

def Summary.ofJson? (value : Json) : Option Summary := do
  let headline ← field? "main_error" text? value
  let entryCount ← field? "entry_count" natural? value
  let failedCount ← field? "failed_count" natural? value
  let contractEventCount ← field? "contract_event_count" natural? value
  let kindCounts ← field? "type_counts" Kind.counts? value
  let contracts ← field? "contracts" (list? text?) value
  let hostError ← field? "host_error" (nullable? HostError.ofJson?) value
  return {
    headline, entryCount, failedCount, contractEventCount, kindCounts, contracts, hostError }

theorem Event.Entry.ofJson?_toJson (entry : Entry) : ofJson? entry.toJson = some entry := by
  have kind : Kind.ofJson? (.string entry.kind.label) = some entry.kind :=
    Kind.ofLabel?_label entry.kind
  have contract := Json.nullable?_ofText? entry.contract
  have topics := Json.list?_texts entry.topics
  simp [ofJson?, toJson, field?, Json.member?, List.lookup_cons, kind, contract, topics, integer?,
    text?]

theorem HostError.ofJson?_toJson (error : HostError) : ofJson? error.toJson = some error := by
  have contractCode := Json.nullable?_ofNat? error.contractCode
  simp [ofJson?, toJson, field?, Json.member?, List.lookup_cons, contractCode, text?]

theorem HostError.nullable?_toJson? (error : Option HostError) :
    nullable? ofJson? (toJson? error) = some error := by
  cases error with
  | none => rfl
  | some error => exact congrArg (Option.map some) (ofJson?_toJson error)

theorem Message.ofJson?_toJson (message : Message) : ofJson? message.toJson = some message := by
  have log := Json.list?_map fun entry (_ : entry ∈ message.log) => Entry.ofJson?_toJson entry
  simp [ofJson?, toJson, field?, Json.member?, List.lookup_cons, log, text?]

theorem Event.Kind.counts?_map (counts : List (Kind × Nat)) :
    counts? (.object (counts.map fun entry => (entry.1.label, .integer entry.2))) =
      some counts := by
  refine Json.mapM_map fun entry _ => ?_
  simp [ofLabel?_label, natural?]

theorem Summary.ofJson?_toJson (summary : Summary) : ofJson? summary.toJson = some summary := by
  have counts := Kind.counts?_map summary.kindCounts
  have contracts := Json.list?_texts summary.contracts
  have hostError := HostError.nullable?_toJson? summary.hostError
  simp [ofJson?, toJson, field?, Json.member?, List.lookup_cons, counts, contracts, hostError, text?,
    natural?]

end SimTriage
