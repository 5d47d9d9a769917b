import SimTriage.Text

/-!
The four kinds of events that a failed simulation reports.
-/

set_option autoImplicit false

namespace SimTriage.Event

/-- The category of an event. The failed ones were rolled back with the call that caused them. -/
inductive Kind
  | diagnostic
  | failedDiagnostic
  | failedContract
  | contract
deriving DecidableEq, Repr

namespace Kind

/-- Every kind, in the order of counts and listings. -/
def all : List Kind := [.diagnostic, .failedDiagnostic, .failedContract, .contract]

/-- The label that event log lines print. -/
def label : Kind → Text
  | .diagnostic => "Diagnostic Event"
  | .failedDiagnostic => "Failed Diagnostic Event (not emitted)"
  | .failedContract => "Failed Contract Event (not emitted)"
  | .contract => "Contract Event"

def key : Kind → Text
  | .diagnostic => "DIAGNOSTIC_EVENT"
  | .failedDiagnostic => "FAILED_DIAGNOSTIC_EVENT"
  | .failedContract => "FAILED_CONTRACT_EVENT"
  | .contract => "CONTRACT_EVENT"

/-- The event was never emitted. -/
def isFailed : Kind → Bool
  | .failedDiagnostic | .failedContract => true
  | .diagnostic | .contract => false

/-- A contract published the event, or tried to. -/
def isContract : Kind → Bool
  | .contract | .failedContract => true
  | .diagnostic | .failedDiagnostic => false

def ofLabel? (text : Text) : Option Kind := all.find? fun kind => kind.label = text

def ofKey? (text : Text) : Option Kind := all.find? fun kind => kind.key = text

theorem mem_all (kind : Kind) : kind ∈ all := by cases kind <;> decide

theorem ofLabel?_label (kind : Kind) : ofLabel? kind.label = some kind := by
  cases kind <;> decide

theorem ofKey?_key (kind : Kind) : ofKey? kind.key = some kind := by cases kind <;> decide

theorem label_of_ofLabel? {text : Text} {kind : Kind} (found : ofLabel? text = some kind) :
    kind.label = text := by
  have holds := List.find?_some found
  simpa using holds

end Kind

end SimTriage.Event
