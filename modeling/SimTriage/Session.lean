import SimTriage.Filter
import SimTriage.Form

/-!
Sessions: a message that is loaded, extended, filtered and summarised step by step. A step that
fails leaves the message as it was.
-/

set_option autoImplicit false

namespace SimTriage.Session

inductive Step
  | load (message : Message)
  | append (entries : List Event.Entry)
  | filter (f : Filter)
  | summarize

/-- The message of a session before its first step. -/
def start : Message := ⟨[], []⟩

namespace Step

/-- The message after a step. -/
def apply (message : Message) : Step → Except Failure Message
  | .load other => .ok other
  | .append entries => .ok { message with log := message.log ++ entries }
  | .filter f => do
    let log ← f.apply message.log
    return { message with log }
  | .summarize => .ok message

/-- What a step answers: the message after it, or the summary. -/
def answer (message : Message) : Step → Except Failure Json
  | .summarize => do
    let summary ← Summary.ofMessage message
    return summary.toJson
  | step => Message.toJson <$> step.apply message

end Step

/-- The message after a step that may have failed before it began. -/
def next (message : Message) (step : Except Failure Step) : Message :=
  match step.bind (Step.apply message) with
  | .ok after => after
  | .error _ => message

def run : Message → List (Except Failure Step) → List (Except Failure Json)
  | _, [] => []
  | message, step :: steps =>
    step.bind (Step.answer message) :: run (next message step) steps

end SimTriage.Session
