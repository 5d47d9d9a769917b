import SimTriage.Event.KindName
import SimTriage.Filter
import SimTriage.Form
import SimTriage.Schema.Published
import SimTriage.Schema.Validator

/-!
Queries on messages: a filter in the words of its user, and the answer, which is held against its
published shape before it is given out.
-/

set_option autoImplicit false

namespace SimTriage

/-- What a user asks of a message. Kinds are given by name. -/
structure Query where
  kindNames : Option (List Text) := none
  contract : Option Text := none
  part : Option Text := none
  failedOnly : Bool := false
  limit : Option Int := none
deriving DecidableEq, Repr

/-- The entries that a query selects, with how many there were and what the headline says. -/
structure Answer where
  headline : Text
  hostError : Option HostError
  total : Nat
  entries : List Event.Entry
deriving DecidableEq, Repr

namespace Query

def defaultLimit : Int := 200

/-- No answer has more entries. -/
def hardLimit : Int := 5000

/-- The limit in force. -/
def resolveLimit : Option Int → Except Failure Int
  | none => .ok defaultLimit
  | some limit => if limit ≤ 0 then .error .limitNotPositive else .ok (min limit hardLimit)

def toFilter (query : Query) : Except Failure Filter := do
  let kinds ← Event.Kind.choose query.kindNames
  let limit ← resolveLimit query.limit
  return ⟨kinds, query.contract, query.part, query.failedOnly, some limit⟩

def answer (query : Query) (message : Message) : Except Failure Answer := do
  let filter ← query.toFilter
  let entries ← filter.apply message.log
  let hostError ← HostError.find message.headline
  return ⟨message.headline, hostError, message.log.length, entries⟩

end Query

namespace Answer

def toJson (answer : Answer) : Json :=
  .object
    [("main_error", .string answer.headline),
     ("host_error", HostError.toJson? answer.hostError),
     ("total", .integer answer.total),
     ("count", .integer answer.entries.length),
     ("event_log", .array (answer.entries.map Event.Entry.toJson))]

end Answer

/-- The value, unless the validator refuses it for the published shape. -/
def publish (validator : Schema.Validator) (shape : Schema.Shape) (value : Json) :
    Except Failure Json :=
  match validator.check shape value with
  | .ok _ => .ok value
  | .error faults => .error (.invalid faults)

namespace Message

def query (message : Message) (validator : Schema.Validator) (query : Query) :
    Except Failure Json := do
  let answer ← query.answer message
  publish validator Schema.parsedError answer.toJson

end Message

/-- Reads a text and answers a query on it, in published form. -/
def parseText (validator : Schema.Validator) (text : Text) (query : Query) :
    Except Failure Json := do
  let message ← Message.read text
  message.query validator query

/-- Reads a text and summarises it, in published form. -/
def summarizeText (validator : Schema.Validator) (text : Text) : Except Failure Json := do
  let message ← Message.read text
  let summary ← Summary.ofMessage message
  publish validator Schema.errorSummary summary.toJson

end SimTriage
