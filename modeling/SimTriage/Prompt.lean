import SimTriage.Json.Value

/-!
Prompts: conversations prepared for an assistant, each with one gap to fill.
-/

set_option autoImplicit false

namespace SimTriage

inductive Prompt
  | explainFailure
  | triageFile
deriving DecidableEq, Repr

namespace Prompt

def name : Prompt → Text
  | .explainFailure => "explain_simulation_failure"
  | .triageFile => "triage_simulation_error_file"

def named? (name : Text) : Option Prompt :=
  [explainFailure, triageFile].find? fun prompt => prompt.name = name

inductive Part
  | text (content : Text)
  | resource (address : Text)
deriving DecidableEq

/-- What is said: a plain text, or several parts. -/
inductive Content
  | plain (text : Text)
  | parts (several : List Part)
deriving DecidableEq

structure Turn where
  role : Text
  content : Content
deriving DecidableEq

def explanation (message : Text) : List Turn :=
  [⟨"system", .plain
      ("You are a Soroban smart-contract debugging assistant. " ++
       "Explain simulation failures from the event log only. " ++
       "Do not invent details; if the evidence is insufficient, say so.")⟩,
   ⟨"user", .plain
      ("Explain why this transaction simulation failed. Follow this workflow:\n" ++
       "- Call summarize_simulation_error first with the message below.\n" ++
       "- Then call parse_simulation_error with failed_only=true to list " ++
       "the events that were rolled back.\n" ++
       "- The event log is printed newest first: the lowest index is the " ++
       "last thing that happened.\n" ++
       "- Quote entries by index, e.g. [#2] Failed Diagnostic Event ...\n\n" ++
       "Return this structure:\n" ++
       "1) What failed (1-2 sentences, name the host error)\n" ++
       "2) Call chain (fn_call/fn_return entries, oldest first)\n" ++
       "3) Evidence (2-5 quoted entries)\n" ++
       "4) Next actions (2-4 bullets)\n\n" ++
       "Message:\n" ++ message ++ "\n")⟩]

def triage (path : Text) : List Turn :=
  [⟨"system", .plain
      ("You are a Soroban smart-contract debugging assistant. " ++
       "Provide concise, evidence-based summaries from event logs.")⟩,
   ⟨"user", .plain
      ("Call parse_simulation_error_file with:\n" ++
       "- path: " ++ path ++ "\n\n" ++
       "Report the host error, the contracts involved and the failed " ++
       "events. If the event log is empty, say so and show the headline.\n")⟩,
   ⟨"user", .parts
      [.text "Optional: the raw message is available via:",
       .resource ("file://" ++ path)]⟩]

/-- The conversation, with the gap filled. -/
def turns (prompt : Prompt) (filling : Text) : List Turn :=
  match prompt with
  | .explainFailure => explanation filling
  | .triageFile => triage filling

def Part.toJson : Part → Json
  | .text content => .object [("type", .string "text"), ("text", .string content)]
  | .resource address => .object [("type", .string "resource"), ("uri", .string address)]

def Content.toJson : Content → Json
  | .plain text => .string text
  | .parts several => .array (several.map Part.toJson)

def Turn.toJson (turn : Turn) : Json :=
  .object [("role", .string turn.role), ("content", turn.content.toJson)]

end Prompt

end SimTriage
