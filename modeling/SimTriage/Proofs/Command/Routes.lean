import SimTriage.Proofs.Command.Arguments
import SimTriage.Proofs.Command.Run
import SimTriage.Proofs.File.Confined
import SimTriage.Proofs.File.Content
import SimTriage.Resource

/-!
The routes by which a message comes in: a file, a compressed file, standard input, and a file that
is asked for. The same bytes lead to the same text and to the same end by all of them, but for line
ends on standard input: a file has line feeds alone, and standard input what its stream makes of
them.
-/

set_option autoImplicit false

namespace SimTriage

/-- Failures that are reported along with the source that could not be read. -/
def Failure.NamesSource (failure : Failure) : Prop :=
  failure.kind ∈ [.system, .badArchive, .truncated]

namespace Command

variable {options : Options} {message : Message} {failure : Failure} {text : Text}

theorem report_congr (unnamed : ¬ failure.NamesSource) (source other : Text) :
    report source failure = report other failure := by
  unfold Failure.NamesSource at unnamed
  unfold report complaint?
  cases kind : failure.kind with
  | system | badArchive | truncated =>
      rw [kind] at unnamed
      simp at unnamed
  | missingFile | value | undecodable | validation => rfl
  | key | type | lookup | runtime | corruptStream => rfl

/-- The end of a run that has come to an output, or to a failure. -/
def ended (source : Text) : Except Failure Text → Outcome
  | .ok output => success output
  | .error failure => report source failure

theorem ended_congr {came : Except Failure Text}
    (unnamed : ∀ failure, came = .error failure → ¬ failure.NamesSource) (source other : Text) :
    ended source came = ended other came := by
  cases came with
  | ok output => rfl
  | error failure => exact report_congr (unnamed failure rfl) source other

theorem runOptions_eq (env : File.Environment) (input : Input) (options : Options) :
    runOptions env input options =
      if options.serve then .served
      else ended options.source (load env input options.source >>= print options) := rfl

theorem not_namesSource_overlongNumeral (fault : Text.OverlongNumeral) :
    ¬ (Failure.overlongNumeral fault).NamesSource := by
  simp [Failure.NamesSource, Failure.kind]

theorem not_namesSource_of_apply {filter : Filter} {log : List Event.Entry}
    (failed : filter.apply log = .error failure) : ¬ failure.NamesSource := by
  obtain ⟨rfl, -⟩ := Filter.apply_eq_error_iff.mp failed
  simp [Failure.NamesSource, Failure.kind]

theorem not_namesSource_of_filter (failed : options.filter = .error failure) :
    ¬ failure.NamesSource := by
  unfold Options.filter at failed
  revert failed
  -- only a limit without its value stops the steps of the filter
  rcases options.limit with _ | _ | _
  case some.void =>
    intro failed
    cases failed
    simp [Failure.NamesSource, Failure.kind]
  all_goals
    rcases options.contract with _ | _ | _ <;>
      exact fun failed => by cases failed

theorem not_namesSource_of_select {log : List Event.Entry}
    (failed : options.select log = .error failure) : ¬ failure.NamesSource := by
  unfold Options.select at failed
  rcases bind_eq_error_iff.mp failed with failed | ⟨filter, -, failed⟩
  · exact not_namesSource_of_filter failed
  split at failed
  · exact not_namesSource_of_apply failed
  · exact not_namesSource_of_apply failed
  · rcases bind_eq_error_iff.mp failed with failed | ⟨selected, -, failed⟩
    · exact not_namesSource_of_apply failed
    · split at failed <;> cases failed
      simp [Failure.NamesSource, Failure.kind]

/-- Whatever the options, what cannot be printed is not put down to the source. -/
theorem not_namesSource_of_print (failed : print options message = .error failure) :
    ¬ failure.NamesSource := by
  unfold print at failed
  split at failed
  · rcases bind_eq_error_iff.mp failed with failed | ⟨_, -, ended⟩
    · obtain ⟨fault, -, rfl⟩ := liftM_eq_error_iff.mp failed
      exact not_namesSource_overlongNumeral fault
    · cases ended
  · rcases bind_eq_error_iff.mp failed with failed | ⟨_, -, ended⟩
    · exact not_namesSource_of_select failed
    · cases ended

/-- Where a run takes its message from: the files there are, what stands on standard input, and the
source by name. -/
structure Route where
  env : File.Environment
  input : Input
  source : Text

namespace Route

variable {here there route : Route} {bytes : Bytes}

/-- The bytes that come in by the route. -/
def Supplies (route : Route) (bytes : Bytes) : Prop :=
  if route.source = "-" then route.input.bytes = bytes else route.env.Stores route.source bytes

/-- What a text comes in as by the route. -/
def received (route : Route) (text : Text) : Text :=
  if route.source = "-" then route.input.lineEnds.apply text else Text.unifyNewlines text

/-- The text comes in with line feeds alone: from a file in any case, from standard input if its
stream brings line ends into one spelling, or if there is nothing to bring into another. -/
def Unifies (route : Route) (text : Text) : Prop :=
  route.source = "-" → route.input.lineEnds = .unified ∨ '\r' ∉ text

theorem Unifies.received_eq (unifies : route.Unifies text) :
    route.received text = Text.unifyNewlines text := by
  unfold received
  split
  case isTrue named =>
    rcases unifies named with unified | absent
    · rw [unified]
      rfl
    · rw [Text.unifyNewlines_of_not_mem absent]
      cases route.input.lineEnds with
      | kept => rfl
      | unified => exact Text.unifyNewlines_of_not_mem absent
  case isFalse => rfl

/-- The message in UTF-8 that a run reads is the one in the text that comes in. -/
theorem Supplies.load_eq (supplies : route.Supplies bytes)
    (valid : Text.decode .utf8 .refuse bytes = .ok text) :
    load route.env route.input route.source = liftM (Message.read (route.received text)) := by
  unfold Supplies at supplies
  unfold received
  split at supplies
  case isTrue named =>
    rw [load, if_pos named, if_pos named, supplies, valid]
    rfl
  case isFalse named =>
    have written : bytes = Text.Utf8.encode text := Text.decode_refuse_eq_ok_iff.mp valid
    rw [load, if_neg named, if_neg named, File.Environment.readMessage, supplies.readText_standard,
      written, Text.shown_encode]
    rfl

/-- With the same options but for the source, runs on the same bytes end alike if these come in as
the same text. -/
theorem runOptions_congr (options : Options) (comesIn : here.Supplies bytes)
    (comesToo : there.Supplies bytes) (valid : Text.decode .utf8 .refuse bytes = .ok text)
    (same : here.received text = there.received text) :
    runOptions here.env here.input { options with source := here.source } =
      runOptions there.env there.input { options with source := there.source } := by
  have runs : ∀ route : Route, route.Supplies bytes →
      runOptions route.env route.input { options with source := route.source } =
        if options.serve then .served
        else ended route.source
          (liftM (Message.read (route.received text)) >>= print options) := by
    intro route supplies
    rw [runOptions_eq, supplies.load_eq valid]
    rfl
  rw [runs here comesIn, runs there comesToo, same]
  cases options.serve with
  | true => rfl
  | false =>
      refine ended_congr (fun failure failed => ?_) here.source there.source
      rcases bind_eq_error_iff.mp failed with failed | ⟨message, -, failed⟩
      · obtain ⟨fault, -, rfl⟩ := liftM_eq_error_iff.mp failed
        exact not_namesSource_overlongNumeral fault
      · exact not_namesSource_of_print failed

/-- Command lines that differ in the source alone end alike on the same bytes. -/
theorem run_congr {arguments others : List Text} (options : Options) (comesIn : here.Supplies bytes)
    (comesToo : there.Supplies bytes) (valid : Text.decode .utf8 .refuse bytes = .ok text)
    (same : here.received text = there.received text)
    (asked : Request.ofArguments arguments = .ok (.run { options with source := here.source }))
    (askedToo : Request.ofArguments others = .ok (.run { options with source := there.source })) :
    run here.env here.input arguments = run there.env there.input others := by
  rw [run, asked, run, askedToo]
  exact runOptions_congr options comesIn comesToo valid same

/-- The source as the first argument, and the same arguments behind it. -/
theorem run_cons_congr (comesIn : here.Supplies bytes) (comesToo : there.Supplies bytes)
    (valid : Text.decode .utf8 .refuse bytes = .ok text)
    (same : here.received text = there.received text) (isWord : IsWord here.source)
    (isWordToo : IsWord there.source) (arguments : List Text) :
    run here.env here.input (here.source :: arguments) =
      run there.env there.input (there.source :: arguments) := by
  have asked := Request.ofArguments_source isWord arguments
  have askedToo := Request.ofArguments_source isWordToo arguments
  cases followed : Request.ofArguments ("-" :: arguments) with
  | error misuse =>
      rw [followed] at asked askedToo
      rw [run, asked, run, askedToo]
      rfl
  | ok request =>
      rw [followed] at asked askedToo
      cases request with
      | help =>
          rw [run, asked, run, askedToo]
          rfl
      | run options => exact run_congr options comesIn comesToo valid same asked askedToo

end Route

/-- A message with a carriage return as its only line end. -/
def returned : Bytes := Text.Utf8.encode "boom\r1: [Contract Event] topics:[a], data:é"

/-- The same message in a compressed file. -/
def returnedPacked : Bytes :=
  [0x1F, 0x8B, 8, 0, 0, 0, 0, 0, 0, 3, 1, 44, 0, 0xD3, 0xFF] ++ returned ++
    [0x0D, 0x7F, 0xBD, 0xC0, 44, 0, 0, 0]

end Command

end SimTriage
