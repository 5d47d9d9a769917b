import SimTriage.Schema.Shape

/-!
The shapes of what is given out: entries, host errors, parsed messages and summaries.
-/

set_option autoImplicit false

namespace SimTriage.Schema

/-- A field that is null where nothing is given. -/
def optional (name : Text) (shape : Shape) (description : Option Text := none) : Field Shape :=
  ⟨name, .nullable shape, .fallback .null, description⟩

def entryFields : List (Field Shape) :=
  [⟨"index", .integer true, .required,
      some "Sequence number declared by the event log line."⟩,
   ⟨"type", .kind, .required, some "Event category label."⟩,
   optional "contract" .text (some "Contract id, null when absent."),
   ⟨"topics", .list .text, .startsAs (.array []), some "Topics split on top-level commas."⟩,
   ⟨"data", .text, .required, some "Raw event payload text."⟩]

def entry : Shape := .record "EventLogEntryModel" entryFields

def hostErrorFields : List (Field Shape) :=
  [⟨"type", .text, .required, some "Host error type, e.g. WasmVm or Contract."⟩,
   ⟨"code", .text, .required, some "Raw error code text."⟩,
   optional "contract_code" (.integer false) (some "Numeric code for Error(Contract, #n).")]

def hostError : Shape := .record "HostErrorModel" hostErrorFields

def parsedErrorFields : List (Field Shape) :=
  [⟨"main_error", .text, .required, some "First line of the message, verbatim."⟩,
   optional "host_error" hostError (some "Error(<type>, <code>) from the headline."),
   optional "total" (.integer true) (some "Entries in the event log before filtering."),
   optional "count" (.integer true) (some "Entries returned after filtering."),
   ⟨"event_log", .list entry, .startsAs (.array []), none⟩]

def parsedError : Shape := .record "ParsedErrorModel" parsedErrorFields

def errorSummaryFields : List (Field Shape) :=
  [⟨"main_error", .text, .required, none⟩,
   ⟨"entry_count", .integer true, .required, none⟩,
   ⟨"failed_count", .integer true, .required, none⟩,
   ⟨"contract_event_count", .integer true, .required, none⟩,
   ⟨"type_counts", .counts, .startsAs (.object []), none⟩,
   ⟨"contracts", .list .text, .startsAs (.array []), none⟩,
   optional "host_error" hostError]

def errorSummary : Shape := .record "ErrorSummaryModel" errorSummaryFields

def named? (name : Text) : Option Shape :=
  [entry, hostError, parsedError, errorSummary].find? fun shape =>
    match shape with
    | .record own _ => own = name
    | _ => false

end SimTriage.Schema
