import SimTriage.Command.Run

/-!
A run of the command line as it goes: what is written at which point, and what stays written when
something breaks off behind that point.
-/

set_option autoImplicit false

namespace SimTriage.Command

open Event (Entry)

structure Screen where
  output : Text
  complaints : Text
deriving DecidableEq, Repr

def Screen.blank : Screen := ⟨[], []⟩

/-- Why a step breaks off: for a failure, or because an integer has too many digits to be
written. -/
inductive Break
  | failed (failure : Failure)
  | overlongInteger
deriving DecidableEq

namespace Break

def kind : Break → Failure.Kind
  | .failed failure => failure.kind
  | .overlongInteger => .value

def message : Break → Text
  | .failed failure => failure.message
  | .overlongInteger =>
    "Exceeds the limit (" ++ Text.ofNat Text.maxDigits ++
      " digits) for integer string conversion; use sys.set_int_max_str_digits() " ++
      "to increase the limit"

end Break

/-- A step that writes as it goes. What it has written stays when it breaks off. -/
abbrev Writing (α : Type) := ExceptT Break (StateM Screen) α

/-- How a run ends: with an exit code, with a break that nothing reports, or in a server that takes
over. -/
inductive Ending
  | exited (code : Nat)
  | escaped (cause : Break)
  | served
deriving DecidableEq

namespace Writing

def say (text : Text) : Writing Unit :=
  modify fun screen => { screen with output := screen.output ++ text }

/-- A result that has to be there before the next step. -/
def attempt {α : Type} : Except Failure α → Writing α
  | .ok value => pure value
  | .error failure => throw (.failed failure)

/-- An integer that is about to be written. The limit is the one on numerals that are read. -/
def allow (value : Int) : Writing Unit :=
  if Text.maxDigits < (Text.ofNat value.natAbs).length then throw .overlongInteger else pure ()

/-- JSON is written as a whole. Of its integers, `read` are those that come from a text; the others
count things in memory, so they are never too long. -/
def json (read : List Int) (value : Json) : Writing Unit := do
  read.forM allow
  say (printJson value)

def entry (entry : Entry) : Writing Unit := do
  allow entry.index
  say (entryLine entry)

def entries (message : Message) : Writing Unit := do
  say (line message.headline)
  message.log.forM entry
  say (line [] ++ line (foundText message.log.length))

def hostError : Option HostError → Writing Unit
  | none => pure ()
  | some error => say (line (hostErrorText error))

/-- Kinds without entries are left out. -/
def kindCount (counted : Event.Kind × Nat) : Writing Unit :=
  if counted.2 = 0 then pure () else say (line (kindText counted))

def summary (summary : Summary) : Writing Unit := do
  say (line summary.headline)
  hostError summary.hostError
  say (line (countsText summary))
  summary.kindCounts.forM kindCount
  if summary.contracts = [] then pure () else say (line (contractsText summary.contracts))

end Writing

namespace Options

/-- Writes a summary. Of its integers, only the contract code comes from a text. -/
def recount (options : Options) (summary : Summary) : Writing Unit :=
  if options.asJson then
    Writing.json ((summary.hostError.bind (·.contractCode)).toList.map Int.ofNat) summary.toJson
  else Writing.summary summary

/-- The first part of a run, whose breaks are reported: it writes the summary of the message, or it
selects the entries that are still to be written. -/
def prepare (env : File.Environment) (input : Input) (options : Options) :
    Writing (Option Message) := do
  let message ← Writing.attempt (load env input options.source)
  if options.summary then
    let summary ← Writing.attempt (liftM (Summary.ofMessage message))
    options.recount summary
    return none
  else
    let log ← Writing.attempt (options.select message.log)
    return some ⟨message.headline, log⟩

/-- The second part of a run, whose breaks nothing reports. -/
def conclude (options : Options) (selected : Message) : Writing Unit :=
  if options.asJson then Writing.json (selected.log.map (·.index)) selected.toJson
  else Writing.entries selected

/-- Does what the options ask for, and writes as it goes. -/
def perform (env : File.Environment) (input : Input) (options : Options) : Ending × Screen :=
  if options.serve then (.served, .blank)
  else
    match (options.prepare env input).run.run .blank with
    | (.ok none, screen) => (.exited 0, screen)
    | (.ok (some selected), screen) =>
      match (options.conclude selected).run.run screen with
      | (.ok (), screen) => (.exited 0, screen)
      | (.error cause, screen) => (.escaped cause, screen)
    | (.error cause, screen) =>
      match complaint? options.source cause.kind cause.message with
      | some complaint => (.exited 2, ⟨screen.output, screen.complaints ++ complaint⟩)
      | none => (.escaped cause, screen)

end Options

/-- Runs the command line and writes as it goes: how the run ends, and all that it has written by
then. -/
def perform (env : File.Environment) (input : Input) (arguments : List Text) : Ending × Screen :=
  match Request.ofArguments arguments with
  | .error misuse => (.exited 2, ⟨[], complaint misuse⟩)
  | .ok .help => (.exited 0, ⟨helpText, []⟩)
  | .ok (.run options) => options.perform env input

end SimTriage.Command
