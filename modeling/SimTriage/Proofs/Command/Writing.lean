import SimTriage.Command.Writing
import SimTriage.Proofs.Command.Run
import SimTriage.Proofs.Message.Log
import SimTriage.Proofs.Summary

/-!
Runs that write as they go. A step either breaks off before it has written anything, or it comes to
its end; so a run writes all of its output or none of it, and it comes to what `run` says.
-/

set_option autoImplicit false

namespace SimTriage.Command

open Event (Entry)

/-- The step comes to its end with this value and writes this text, whatever has been written. -/
def Writes {α : Type} (step : Writing α) (text : Text) (value : α) : Prop :=
  ∀ screen : Screen,
    step.run.run screen = (.ok value, ⟨screen.output ++ text, screen.complaints⟩)

/-- The step breaks off before it has written anything. -/
def BreaksOff {α : Type} (step : Writing α) (cause : Break) : Prop :=
  ∀ screen : Screen, step.run.run screen = (.error cause, screen)

section Steps

variable {α β : Type} {step : Writing α} {next : α → Writing β} {text more : Text} {a : α} {b : β}
  {cause : Break} {failure : Failure}

/-- A step behind one that comes to its end goes on from what that one has written. -/
theorem Writes.run_bind (first : Writes step text a) (next : α → Writing β) (screen : Screen) :
    (step >>= next).run.run screen =
      (next a).run.run ⟨screen.output ++ text, screen.complaints⟩ := by
  rw [ExceptT.run_bind, StateT.run_bind, first screen]
  rfl

theorem Writes.bind (first : Writes step text a) (later : Writes (next a) more b) :
    Writes (step >>= next) (text ++ more) b := by
  intro screen
  rw [first.run_bind, later, List.append_assoc]

theorem Writes.andThen {step : Writing Unit} {later : Writing β} (first : Writes step text ())
    (second : Writes later more b) : Writes (step >>= fun _ => later) (text ++ more) b :=
  first.bind second

/-- Behind steps that have written nothing, a break is the first thing to happen. -/
theorem Writes.breaksOff (first : Writes step [] a) (later : BreaksOff (next a) cause) :
    BreaksOff (step >>= next) cause := by
  intro screen
  rw [first.run_bind, later, List.append_nil]

theorem BreaksOff.bind (breaks : BreaksOff step cause) (next : α → Writing β) :
    BreaksOff (step >>= next) cause := by
  intro screen
  rw [ExceptT.run_bind, StateT.run_bind, breaks screen]
  rfl

theorem writes_pure (a : α) : Writes (pure a) [] a := by
  intro screen
  rw [List.append_nil]
  rfl

/-- A value in the end writes nothing more. -/
theorem Writes.andReturn {step : Writing Unit} (first : Writes step text ()) (b : β) :
    Writes (step >>= fun _ => pure b) text b := by
  intro screen
  rw [first.run_bind]
  rfl

theorem writes_say (text : Text) : Writes (Writing.say text) text () := fun _ => rfl

theorem writes_attempt (a : α) : Writes (Writing.attempt (.ok a)) [] a := writes_pure a

theorem breaksOff_attempt (failure : Failure) :
    BreaksOff (Writing.attempt (.error failure) : Writing α) (.failed failure) := fun _ => rfl

/-- The integer has a numeral that may be written. -/
def IsShort (value : Int) : Prop := (Text.ofNat value.natAbs).length ≤ Text.maxDigits

theorem writes_allow {value : Int} (short : IsShort value) :
    Writes (Writing.allow value) [] () := by
  rw [Writing.allow, if_neg (Nat.not_lt.mpr short)]
  exact writes_pure ()

/-- Steps for all members of a list write one after the other. -/
theorem writes_forM {γ : Type} {list : List γ} {step : γ → Writing Unit} (text : γ → Text)
    (each : ∀ c ∈ list, Writes (step c) (text c) ()) :
    Writes (list.forM step) (list.flatMap text) () := by
  induction list with
  | nil => exact writes_pure ()
  | cons c list ih =>
      obtain ⟨now, later⟩ := List.forall_mem_cons.mp each
      exact now.bind (ih later)

end Steps

section Documents

variable {message : Message} {read : List Int}

theorem writes_json (short : ∀ value ∈ read, IsShort value) (value : Json) :
    Writes (Writing.json read value) (printJson value) () := by
  have allowed := writes_forM (fun _ => []) fun value member => writes_allow (short value member)
  have nothing : read.flatMap (fun _ => ([] : Text)) = [] := by simp
  rw [nothing] at allowed
  exact allowed.bind (writes_say (printJson value))

theorem writes_entry {entry : Entry} (short : IsShort entry.index) :
    Writes (Writing.entry entry) (entryLine entry) () :=
  (writes_allow short).bind (writes_say (entryLine entry))

theorem writes_entries (short : ∀ entry ∈ message.log, IsShort entry.index) :
    Writes (Writing.entries message) (printEntries message) () := by
  have lines := writes_forM entryLine fun entry member => writes_entry (short entry member)
  have whole : printEntries message = line message.headline ++ (message.log.flatMap entryLine ++
      (line [] ++ line (foundText message.log.length))) := by
    simp only [printEntries, entriesLines, List.flatMap_append, List.flatMap_cons, List.flatMap_nil,
      List.flatMap_map, List.append_assoc, List.append_nil]
    rfl
  rw [whole]
  exact (writes_say (line message.headline)).andThen (lines.andThen (writes_say _))

theorem writes_hostError (error : Option HostError) :
    Writes (Writing.hostError error) ((error.toList.map hostErrorText).flatMap line) () := by
  cases error with
  | none => exact writes_pure ()
  | some error =>
      have single : ((some error).toList.map hostErrorText).flatMap line =
          line (hostErrorText error) := List.append_nil _
      rw [single]
      exact writes_say _

/-- Kinds that are left out write nothing. -/
theorem writes_kindCounts (counts : List (Event.Kind × Nat)) :
    Writes (counts.forM Writing.kindCount)
      (((counts.filter fun counted => counted.2 ≠ 0).map kindText).flatMap line) () := by
  induction counts with
  | nil => exact writes_pure ()
  | cons counted counts ih =>
      by_cases zero : counted.2 = 0
      · have nothing : Writes (Writing.kindCount counted) [] () := by
          rw [Writing.kindCount, if_pos zero]
          exact writes_pure ()
        rw [List.filter_cons_of_neg (by simp [zero])]
        exact nothing.bind ih
      · have written : Writes (Writing.kindCount counted) (line (kindText counted)) () := by
          rw [Writing.kindCount, if_neg zero]
          exact writes_say _
        rw [List.filter_cons_of_pos (by simp [zero]), List.map_cons, List.flatMap_cons]
        exact written.bind ih

theorem writes_contracts (contracts : List Text) :
    Writes (if contracts = [] then pure () else Writing.say (line (contractsText contracts)))
      ((if contracts = [] then [] else [contractsText contracts]).flatMap line) () := by
  split
  · exact writes_pure ()
  · rw [List.flatMap_singleton]
    exact writes_say _

theorem writes_summary (summary : Summary) :
    Writes (Writing.summary summary) (printSummary summary) () := by
  simp only [printSummary, summaryLines, List.flatMap_append, List.flatMap_singleton,
    List.append_assoc]
  exact (writes_say (line summary.headline)).andThen
    ((writes_hostError summary.hostError).andThen ((writes_say _).andThen
      ((writes_kindCounts summary.kindCounts).andThen (writes_contracts summary.contracts))))

end Documents

section Numbers

variable {env : File.Environment} {input : Input} {source : Text} {options : Options}
  {message : Message} {log selected : List Entry}

/-- Every message that is loaded has been read from a text. -/
theorem exists_read_of_load (loaded : load env input source = .ok message) :
    ∃ text, Message.read text = .ok message := by
  unfold load at loaded
  split at loaded
  · obtain ⟨text, -, read⟩ := bind_eq_ok_iff.mp loaded
    exact ⟨_, liftM_eq_ok_iff.mp read⟩
  · obtain ⟨text, -, read⟩ := bind_eq_ok_iff.mp loaded
    exact ⟨text, liftM_eq_ok_iff.mp read⟩

theorem isShort_of_load (loaded : load env input source = .ok message) :
    ∀ entry ∈ message.log, IsShort entry.index := by
  intro entry member
  obtain ⟨text, read⟩ := exists_read_of_load loaded
  obtain ⟨-, rfl⟩ := Message.read_eq_ok_iff.mp read
  obtain ⟨line, -, accepted⟩ := Message.exists_read_of_mem_logOf member
  exact Entry.index_length_le_of_read accepted

/-- What the options select has been in the log. -/
theorem subset_of_select (chosen : options.select log = .ok selected) : selected ⊆ log := by
  have applied : ∀ {filter : Filter} {selected : List Entry},
      filter.apply log = .ok selected → selected ⊆ log :=
    fun applied => List.Subset.trans (Filter.sublist_of_apply applied).subset
      (List.filter_subset_self _)
  obtain ⟨filter, -, chosen⟩ := bind_eq_ok_iff.mp chosen
  split at chosen
  · exact applied chosen
  · exact applied chosen
  · obtain ⟨passing, -, chosen⟩ := bind_eq_ok_iff.mp chosen
    split at chosen
    · cases chosen
      exact List.nil_subset log
    · cases chosen

/-- The number in a summary is not too long to be written. -/
theorem isShort_of_ofMessage {summary : Summary}
    (counted : Summary.ofMessage message = .ok summary) :
    ∀ value ∈ (summary.hostError.bind (·.contractCode)).toList.map Int.ofNat, IsShort value := by
  obtain ⟨found, isFound, rfl⟩ := Summary.ofMessage_eq_ok_iff.mp counted
  intro value member
  obtain ⟨number, given, rfl⟩ := List.mem_map.mp member
  obtain ⟨error, there, given⟩ := Option.bind_eq_some_iff.mp (Option.mem_toList.mp given)
  exact HostError.contractCode_length_le_of_find (isFound.trans (congrArg _ there)) given

end Numbers

section Run

variable {env : File.Environment} {input : Input} {options : Options} {message : Message}
  {failure : Failure} {arguments : List Text}

/-- If there is nothing to print, the first part breaks off before anything is written. -/
theorem breaksOff_prepare
    (failed : load env input options.source >>= print options = .error failure) :
    BreaksOff (options.prepare env input) (.failed failure) := by
  unfold Options.prepare
  cases loaded : load env input options.source with
  | error other =>
      rw [loaded] at failed
      cases failed
      exact (breaksOff_attempt _).bind _
  | ok message =>
      rw [loaded] at failed
      refine (writes_attempt message).breaksOff ?_
      change print options message = .error failure at failed
      unfold print at failed
      split
      · rename_i asked
        rw [if_pos asked] at failed
        rcases bind_eq_error_iff.mp failed with failed | ⟨_, _, ended⟩
        · rw [failed]
          exact (breaksOff_attempt _).bind _
        · cases ended
      · rename_i asked
        rw [if_neg asked] at failed
        rcases bind_eq_error_iff.mp failed with failed | ⟨_, _, ended⟩
        · rw [failed]
          exact (breaksOff_attempt _).bind _
        · cases ended

/-- The summary of a message is written to the last. -/
theorem writes_recount {summary : Summary} (counted : Summary.ofMessage message = .ok summary) :
    Writes (options.recount summary)
      (if options.asJson then printJson summary.toJson else printSummary summary) () := by
  unfold Options.recount
  split
  · exact writes_json (isShort_of_ofMessage counted) summary.toJson
  · exact writes_summary summary

/-- A summary is written in the first part, and nothing is left for the second. -/
theorem writes_prepare_summary {summary : Summary} (asked : options.summary = true)
    (loaded : load env input options.source = .ok message)
    (counted : Summary.ofMessage message = .ok summary) :
    Writes (options.prepare env input)
      (if options.asJson then printJson summary.toJson else printSummary summary) none := by
  unfold Options.prepare
  rw [loaded, asked]
  refine (writes_attempt message).bind ?_
  rw [if_pos rfl, counted]
  exact (writes_attempt summary).bind ((writes_recount counted).andReturn none)

/-- Selected entries are left for the second part, and nothing is written before it. -/
theorem writes_prepare_selected {log : List Entry} (asked : ¬options.summary)
    (loaded : load env input options.source = .ok message)
    (chosen : options.select message.log = .ok log) :
    Writes (options.prepare env input) [] (some ⟨message.headline, log⟩) := by
  unfold Options.prepare
  rw [loaded]
  refine (writes_attempt message).bind (?_ : Writes _ [] _)
  rw [if_neg asked, chosen]
  exact (writes_attempt log).bind (writes_pure _)

/-- Selected entries of a message that has been loaded are written to the last. -/
theorem writes_conclude (options : Options) (selected : Message)
    (short : ∀ entry ∈ selected.log, IsShort entry.index) :
    Writes (options.conclude selected)
      (if options.asJson then printJson selected.toJson else printEntries selected) () := by
  unfold Options.conclude
  split
  · exact writes_json (List.forall_mem_map.mpr short) selected.toJson
  · exact writes_entries short

/-- The end of a run and what has been written by then, if all of it is written. -/
def Outcome.written : Outcome → Ending × Screen
  | .finished result => (.exited result.exitCode, ⟨result.output, result.complaints⟩)
  | .escaped failure => (.escaped (.failed failure), .blank)
  | .served => (.served, .blank)

theorem report_written (source : Text) (failure : Failure) :
    (report source failure).written =
      match complaint? source failure.kind failure.message with
      | some complaint => (.exited 2, ⟨[], complaint⟩)
      | none => (.escaped (.failed failure), .blank) := by
  rw [report]
  cases complaint? source failure.kind failure.message <;> rfl

/-- Written as it goes, a run on some options comes to the same end, with the same output and
complaints. -/
theorem Options.perform_eq (env : File.Environment) (input : Input) (options : Options) :
    options.perform env input = (runOptions env input options).written := by
  unfold Options.perform runOptions
  split
  · rfl
  · cases done : load env input options.source >>= print options with
    | error failure =>
        rw [breaksOff_prepare done]
        exact (report_written options.source failure).symm
    | ok output =>
        obtain ⟨message, loaded, printed⟩ := bind_eq_ok_iff.mp done
        unfold print at printed
        split at printed
        · rename_i asked
          obtain ⟨summary, counted, same⟩ := bind_eq_ok_iff.mp printed
          cases same
          rw [writes_prepare_summary asked loaded (liftM_eq_ok_iff.mp counted)]
          rfl
        · rename_i asked
          obtain ⟨log, chosen, same⟩ := bind_eq_ok_iff.mp printed
          cases same
          have short : ∀ entry ∈ log, IsShort entry.index :=
            fun entry member => isShort_of_load loaded entry (subset_of_select chosen member)
          rw [writes_prepare_selected asked loaded chosen]
          dsimp only
          rw [writes_conclude options ⟨message.headline, log⟩ short]
          rfl

theorem perform_eq (env : File.Environment) (input : Input) (arguments : List Text) :
    perform env input arguments = (run env input arguments).written := by
  unfold perform run
  cases Request.ofArguments arguments with
  | error misuse => rfl
  | ok request =>
      cases request with
      | help => rfl
      | run options => exact options.perform_eq env input

/-- Whatever a run on some options writes is all that is printed of a message, and then it ends
well and without complaint. -/
theorem runOptions_written (env : File.Environment) (input : Input) (options : Options) :
    (∃ message output, load env input options.source = .ok message ∧
        print options message = .ok output ∧
        (runOptions env input options).written = (.exited 0, ⟨output, []⟩)) ∨
      ((runOptions env input options).written.1 ≠ .exited 0 ∧
        (runOptions env input options).written.1 ≠ .escaped .overlongInteger ∧
        (runOptions env input options).written.2.output = []) := by
  unfold runOptions
  split
  · exact Or.inr ⟨nofun, nofun, rfl⟩
  · cases done : load env input options.source >>= print options with
    | ok output =>
        obtain ⟨message, loaded, printed⟩ := bind_eq_ok_iff.mp done
        exact Or.inl ⟨message, output, loaded, printed, rfl⟩
    | error failure =>
        right
        dsimp only
        rw [report_written]
        cases complaint? options.source failure.kind failure.message with
        | none => exact ⟨nofun, nofun, rfl⟩
        | some complaint => exact ⟨nofun, nofun, rfl⟩

/-- A run writes the help, or all that is printed of a message, or no output at all. -/
theorem perform_cases (env : File.Environment) (input : Input) (arguments : List Text) :
    (Request.ofArguments arguments = .ok .help ∧
        perform env input arguments = (.exited 0, ⟨helpText, []⟩)) ∨
      (∃ options message output, Request.ofArguments arguments = .ok (.run options) ∧
        load env input options.source = .ok message ∧ print options message = .ok output ∧
        perform env input arguments = (.exited 0, ⟨output, []⟩)) ∨
      ((perform env input arguments).1 ≠ .exited 0 ∧
        (perform env input arguments).1 ≠ .escaped .overlongInteger ∧
        (perform env input arguments).2.output = []) := by
  rw [perform_eq]
  unfold run
  cases Request.ofArguments arguments with
  | error misuse => exact Or.inr (Or.inr ⟨nofun, nofun, rfl⟩)
  | ok request =>
      cases request with
      | help => exact Or.inl ⟨rfl, rfl⟩
      | run options =>
          rcases runOptions_written env input options with
            ⟨message, output, loaded, printed, written⟩ | none
          · exact Or.inr (Or.inl ⟨options, message, output, rfl, loaded, printed, written⟩)
          · exact Or.inr (Or.inr none)

/-- Written as it goes, a run comes to the same as it does when only its end is looked at, and it
writes all of its output or none of it. If it ends with exit code 2 or with a failure that nothing
reports, it has written none. If it has written any output but the help, it has ended
with exit code 0 and without complaint, and the output is all that is printed of the message. It
never breaks off for an integer that is too long to be written: the summary of a message that has
been loaded, and the entries selected from it, are written to the last. -/
theorem perform_outcome (env : File.Environment) (input : Input) (arguments : List Text) :
    let (ending, screen) := perform env input arguments
    (ending, screen) = (run env input arguments).written ∧
    ((ending = .exited 2 ∨ ∃ cause, ending = .escaped cause) → screen.output = []) ∧
    (screen.output ≠ [] → Request.ofArguments arguments ≠ .ok .help →
      ending = .exited 0 ∧ screen.complaints = [] ∧
        ∃ options message, Request.ofArguments arguments = .ok (.run options) ∧
          load env input options.source = .ok message ∧
          print options message = .ok screen.output) ∧
    ending ≠ .escaped .overlongInteger ∧
    ∀ (options : Options) (message : Message), load env input options.source = .ok message →
      (∀ summary, Summary.ofMessage message = .ok summary →
        Writes (options.recount summary)
          (if options.asJson then printJson summary.toJson else printSummary summary) ()) ∧
      (∀ log, options.select message.log = .ok log →
        Writes (options.conclude ⟨message.headline, log⟩)
          (if options.asJson then printJson (Message.toJson ⟨message.headline, log⟩)
            else printEntries ⟨message.headline, log⟩) ()) := by
  have ways := perform_cases env input arguments
  have same := perform_eq env input arguments
  generalize perform env input arguments = done at ways same ⊢
  obtain ⟨ending, screen⟩ := done
  refine ⟨same, ?_, ?_, ?_, fun options message loaded =>
    ⟨fun summary counted => writes_recount counted, fun log chosen => ?_⟩⟩
  · intro ended
    rcases ways with ⟨-, written⟩ | ⟨_, _, _, -, -, -, written⟩ | ⟨-, -, nothing⟩
    · cases written
      simp at ended
    · cases written
      simp at ended
    · exact nothing
  · intro something notHelp
    rcases ways with ⟨help, -⟩ | ⟨options, message, output, asked, loaded, printed, written⟩ |
      ⟨-, -, nothing⟩
    · exact absurd help notHelp
    · cases written
      exact ⟨rfl, rfl, options, message, asked, loaded, printed⟩
    · exact absurd nothing something
  · rcases ways with ⟨-, written⟩ | ⟨_, _, _, -, -, -, written⟩ | ⟨-, short, -⟩
    · cases written
      nofun
    · cases written
      nofun
    · exact short
  · exact writes_conclude options ⟨message.headline, log⟩ fun entry member =>
      isShort_of_load loaded entry (subset_of_select chosen member)

end Run

end SimTriage.Command
