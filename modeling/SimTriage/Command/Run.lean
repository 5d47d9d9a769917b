import SimTriage.Command.Print
import SimTriage.Command.Usage
import SimTriage.File.MessageFile
import SimTriage.Filter

/-!
A run of the command line, from its arguments and its input to its exit code and what it prints.
-/

set_option autoImplicit false

namespace SimTriage.Command

structure Result where
  exitCode : Nat
  output : Text
  complaints : Text
deriving DecidableEq, Repr

/-- What a run comes to: an end, a failure that nothing reports, or a server that takes over. -/
inductive Outcome
  | finished (result : Result)
  | escaped (failure : Failure)
  | served
deriving DecidableEq

def success (output : Text) : Outcome := .finished ⟨0, output, []⟩

def refusal (complaint : Text) : Outcome := .finished ⟨2, [], complaint⟩

/-- What a stream makes of the line ends in a text. -/
inductive LineEnds
  | kept
  | unified
deriving DecidableEq, Repr

def LineEnds.apply : LineEnds → Text → Text
  | .kept, text => text
  | .unified, text => Text.unifyNewlines text

/-- Standard input. Its line ends are kept, unless the stream brings them into one spelling. -/
structure Input where
  bytes : Bytes
  lineEnds : LineEnds := .kept
deriving DecidableEq, Repr

/-- The message that the options name: standard input, which has to be UTF-8, or a file. -/
def load (env : File.Environment) (input : Input) (source : Text) : Except Failure Message :=
  if source = "-" then do
    let text ← Text.decode .utf8 .refuse input.bytes
    Message.read (input.lineEnds.apply text)
  else env.readMessage source

namespace Options

/-- The filter that the options stand for, but for the part to look for. Without their values, a
choice of kinds has no kind, a contract has no entry, and a limit cannot be compared with. -/
def filter (options : Options) : Except Failure Filter := do
  let limit ←
    match options.limit with
    | none => pure none
    | some (.value limit) => pure (some limit)
    | some .void => throw .limitVoid
  let kinds :=
    match options.kinds with
    | none => none
    | some (.value kinds) => some kinds
    | some .void => some []
  match options.contract with
  | none => return { kinds, failedOnly := options.failedOnly, limit }
  | some (.value contract) =>
    return { kinds, contract := some contract, failedOnly := options.failedOnly, limit }
  | some .void => return { kinds := some [], failedOnly := options.failedOnly, limit }

/-- The entries that the options select. A part without a value cannot be looked for in any
entry. -/
def select (options : Options) (log : List Event.Entry) : Except Failure (List Event.Entry) := do
  let filter ← options.filter
  match options.part with
  | none => filter.apply log
  | some (.value part) => Filter.apply { filter with part := some part } log
  | some .void =>
    match ← filter.apply log with
    | [] => return []
    | _ :: _ => throw .partVoid

end Options

def print (options : Options) (message : Message) : Except Failure Text :=
  if options.summary then do
    let summary ← Summary.ofMessage message
    return if options.asJson then printJson summary.toJson else printSummary summary
  else do
    let log ← options.select message.log
    let selected : Message := ⟨message.headline, log⟩
    return if options.asJson then printJson selected.toJson else printEntries selected

/-- What is said about a failure of some kind, if anything. -/
def complaint? (source : Text) (kind : Failure.Kind) (message : Text) : Option Text :=
  match kind with
  | .missingFile => some (line message)
  | .system | .badArchive | .truncated =>
    some (line ("Error: cannot read " ++ source ++ ": " ++ message))
  | .value | .undecodable | .validation => some (line ("Error: " ++ message))
  | .key | .type | .lookup | .runtime | .corruptStream => none

/-- How a failure is reported, if it is. -/
def report (source : Text) (failure : Failure) : Outcome :=
  match complaint? source failure.kind failure.message with
  | some complaint => refusal complaint
  | none => .escaped failure

def runOptions (env : File.Environment) (input : Input) (options : Options) : Outcome :=
  if options.serve then .served
  else
    match (do
      let message ← load env input options.source
      print options message) with
    | .ok output => success output
    | .error failure => report options.source failure

/-- The source that a command line reads, if it comes to reading one. -/
def sourceOf? (arguments : List Text) : Option Text :=
  match Request.ofArguments arguments with
  | .ok (.run options) => if options.serve then none else some options.source
  | _ => none

def run (env : File.Environment) (input : Input) (arguments : List Text) : Outcome :=
  match Request.ofArguments arguments with
  | .error misuse => refusal (complaint misuse)
  | .ok .help => success helpText
  | .ok (.run options) => runOptions env input options

end SimTriage.Command
