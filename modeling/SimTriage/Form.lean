import SimTriage.Json.Value
import SimTriage.Summary

/-!
The JSON forms of entries, host errors, messages and summaries.
-/

set_option autoImplicit false

namespace SimTriage

namespace Event

def Entry.toJson (entry : Entry) : Json :=
  .object
    [("index", .integer entry.index),
     ("type", .string entry.kind.label),
     ("contract", .ofText? entry.contract),
     ("topics", .array (entry.topics.map .string)),
     ("data", .string entry.data)]

end Event

namespace HostError

def toJson (error : HostError) : Json :=
  .object
    [("type", .string error.type),
     ("code", .string error.code),
     ("contract_code", .ofNat? error.contractCode)]

def toJson? : Option HostError → Json
  | some error => error.toJson
  | none => .null

end HostError

namespace Message

def toJson (message : Message) : Json :=
  .object
    [("main_error", .string message.headline),
     ("event_log", .array (message.log.map Event.Entry.toJson))]

end Message

namespace Summary

def toJson (summary : Summary) : Json :=
  .object
    [("main_error", .string summary.headline),
     ("entry_count", .integer summary.entryCount),
     ("failed_count", .integer summary.failedCount),
     ("contract_event_count", .integer summary.contractEventCount),
     ("type_counts",
      .object (summary.kindCounts.map fun entry => (entry.1.label, .integer entry.2))),
     ("contracts", .array (summary.contracts.map .string)),
     ("host_error", HostError.toJson? summary.hostError)]

end Summary

end SimTriage
