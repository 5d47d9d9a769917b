import SimTriage.Command.Run
import SimTriage.Proofs.Command.Options
import SimTriage.Proofs.File.MessageFile
import SimTriage.Proofs.Filter
import SimTriage.Proofs.HostError

/-!
How runs of the command line end. Whatever goes wrong on the way is reported and leaves a complaint,
except for a compressed file whose stream is damaged.
-/

set_option autoImplicit false

namespace SimTriage

/-- Failures of the classes that a run reports. -/
def Failure.IsReported (failure : Failure) : Prop :=
  failure.kind ∈ [.missingFile, .system, .badArchive, .truncated, .value, .undecodable, .validation]

namespace Command

open File.Environment (decode_plain_eq_error_iff decode_compressed_eq_error_iff isFile_eq_error_iff
  readText_eq_error_iff)

variable {env : File.Environment} {input : Input} {source : Text} {options : Options}
variable {failure : Failure}

/-- The source is a compressed file whose stream is damaged. -/
structure HasDamagedStream (env : File.Environment) (source : Text) (fault : Gzip.DeflateFault) :
    Prop where
  named : source ≠ "-"
  isFile : env.isFile (.ofText source) = .ok true
  compressed : File.Environment.isCompressed (.ofText source) = true
  damaged : Gzip.decompress (env.content (.ofText source)) = .error (.deflate fault)

theorem report_of_isReported (source : Text) (reported : failure.IsReported) :
    ∃ complaint, complaint ≠ [] ∧ report source failure = refusal complaint := by
  have line_ne_nil : ∀ text, line text ≠ [] := fun text => by simp [line]
  unfold Failure.IsReported at reported
  unfold report complaint?
  cases kind : failure.kind with
  | missingFile => exact ⟨_, line_ne_nil _, rfl⟩
  | system | badArchive | truncated => exact ⟨_, line_ne_nil _, rfl⟩
  | value | undecodable | validation => exact ⟨_, line_ne_nil _, rfl⟩
  | key | type | lookup | runtime | corruptStream =>
      rw [kind] at reported
      simp at reported

theorem isReported_overlongNumeral (fault : Text.OverlongNumeral) :
    (Failure.overlongNumeral fault).IsReported := by
  simp [Failure.IsReported, Failure.kind]

theorem isReported_undecodable (fault : Text.Undecodable) :
    (Failure.undecodable fault).IsReported := by
  simp [Failure.IsReported, Failure.kind]

theorem readText_fails (named : source ≠ "-") (failed : env.readText source = .error failure) :
    failure.IsReported ∨
      ∃ fault, HasDamagedStream env source fault ∧ failure = .gzip (.deflate fault) := by
  have decodes : ∀ {content : Bytes},
      File.Environment.decode false .standard content = .error failure → failure.IsReported := by
    intro content failed
    obtain ⟨fault, -, rfl⟩ := decode_plain_eq_error_iff.mp failed
    exact isReported_undecodable fault
  rcases readText_eq_error_iff.mp failed with failed | ⟨-, rfl⟩ | ⟨found, failed⟩
  · obtain ⟨-, rfl⟩ := isFile_eq_error_iff.mp failed
    left
    simp [Failure.IsReported, Failure.kind]
  · left
    simp [Failure.IsReported, Failure.kind]
  cases compressed : File.Environment.isCompressed (.ofText source) with
  | false =>
      rw [compressed] at failed
      exact Or.inl (decodes failed)
  | true =>
      rw [compressed, File.Codec.standard, decode_compressed_eq_error_iff] at failed
      rcases failed with ⟨fault, damaged, rfl⟩ | ⟨bytes, -, failed⟩
      · cases fault with
        | deflate fault => exact Or.inr ⟨fault, ⟨named, found, compressed, damaged⟩, rfl⟩
        | badMagic | unknownMethod | ended | wrongChecksum | wrongLength =>
            left
            simp [Failure.IsReported, Failure.kind]
      · exact Or.inl (decodes failed)

theorem load_fails (failed : load env input source = .error failure) :
    failure.IsReported ∨
      ∃ fault, HasDamagedStream env source fault ∧ failure = .gzip (.deflate fault) := by
  have unread : ∀ {text : Text},
      (liftM (Message.read text) : Except Failure Message) = .error failure →
        failure.IsReported := by
    intro text failed
    obtain ⟨fault, -, rfl⟩ := liftM_eq_error_iff.mp failed
    exact isReported_overlongNumeral fault
  by_cases named : source = "-"
  · rw [load, if_pos named, bind_eq_error_iff, liftM_undecodable_eq_error_iff] at failed
    rcases failed with ⟨fault, -, rfl⟩ | ⟨text, -, failed⟩
    · exact Or.inl (isReported_undecodable fault)
    · exact Or.inl (unread failed)
  · rw [load, if_neg named, File.Environment.readMessage, bind_eq_error_iff] at failed
    rcases failed with failed | ⟨text, -, failed⟩
    · exact readText_fails named failed
    · exact Or.inl (unread failed)

theorem load_of_hasDamagedStream {fault : Gzip.DeflateFault} (input : Input)
    (damaged : HasDamagedStream env source fault) :
    load env input source = .error (.gzip (.deflate fault)) := by
  have unread : env.readText source = .error (.gzip (.deflate fault)) := by
    refine readText_eq_error_iff.mpr (Or.inr (Or.inr ⟨damaged.isFile, ?_⟩))
    rw [damaged.compressed, File.Codec.standard, decode_compressed_eq_error_iff]
    exact Or.inl ⟨_, damaged.damaged, rfl⟩
  rw [load, if_neg damaged.named]
  exact bind_eq_error_iff.mpr (Or.inl unread)

/-- Usable options stand for a filter whose limit, if there is one, is positive. -/
theorem exists_filter (usable : options.Usable) :
    ∃ filter, options.filter = .ok filter ∧ ∀ limit ∈ filter.limit, 0 < limit := by
  obtain ⟨limit, given, positive⟩ := usable.exists_limit
  unfold Options.filter
  rw [given]
  -- the steps of the filter can be followed once it is known which options were given
  cases limit <;> rcases options.contract with _ | _ | _ <;> exact ⟨_, rfl, positive⟩

theorem exists_select (usable : options.Usable) (log : List Event.Entry) :
    ∃ selected, options.select log = .ok selected := by
  obtain ⟨filter, chose, positive⟩ := exists_filter usable
  unfold Options.select
  rw [chose]
  cases given : options.part with
  | none => exact Filter.exists_apply positive log
  | some part =>
      cases part with
      | value part =>
          have narrowed : ∀ limit ∈ ({ filter with part := some part } : Filter).limit, 0 < limit :=
            positive
          exact Filter.exists_apply narrowed log
      | void => exact absurd given usable.part

/-- With usable options, only the host error that a summary looks for can fail. -/
theorem print_fails {message : Message} (usable : options.Usable)
    (failed : print options message = .error failure) : failure.IsReported := by
  unfold print at failed
  split at failed
  · rcases bind_eq_error_iff.mp failed with failed | ⟨_, _, ended⟩
    · obtain ⟨fault, -, rfl⟩ := liftM_eq_error_iff.mp failed
      exact isReported_overlongNumeral fault
    · cases ended
  · obtain ⟨selected, chosen⟩ := exists_select usable message.log
    rw [chosen] at failed
    cases failed

/-- With usable options there is something to print, unless a summary looks for a host error that
cannot be read. -/
theorem exists_print_iff {message : Message} (usable : options.Usable) :
    (∃ output, print options message = .ok output) ↔
      (options.summary = true → ¬ ∃ digits, HostError.IsOverlong message.headline digits) := by
  rw [← HostError.exists_find_iff]
  unfold print
  cases options.summary with
  | false =>
      obtain ⟨selected, chosen⟩ := exists_select usable message.log
      rw [chosen]
      exact ⟨fun _ asked => (by cases asked), fun _ => ⟨_, rfl⟩⟩
  | true =>
      rw [if_pos rfl]
      constructor
      · intro printed _
        obtain ⟨output, printed⟩ := printed
        obtain ⟨summary, counted, -⟩ := bind_eq_ok_iff.mp printed
        obtain ⟨found, isFound, -⟩ := bind_eq_ok_iff.mp (liftM_eq_ok_iff.mp counted)
        exact ⟨found, isFound⟩
      · intro readable
        obtain ⟨found, isFound⟩ := readable rfl
        have counted : Summary.ofMessage message = .ok _ :=
          bind_eq_ok_iff.mpr ⟨found, isFound, rfl⟩
        exact ⟨_, bind_eq_ok_iff.mpr ⟨_, liftM_eq_ok_iff.mpr counted, rfl⟩⟩

section Run

variable {arguments : List Text}

theorem run_eq (env : File.Environment) (input : Input)
    (accepted : Request.ofArguments arguments = .ok (.run options)) (stays : options.serve = false) :
    run env input arguments =
      match load env input options.source >>= print options with
      | .ok output => success output
      | .error failure => report options.source failure := by
  have asked : run env input arguments = runOptions env input options := by
    rw [run, accepted]
  rw [asked, runOptions, stays]
  exact if_neg Bool.false_ne_true

theorem run_of_hasDamagedStream {fault : Gzip.DeflateFault} (input : Input)
    (accepted : Request.ofArguments arguments = .ok (.run options)) (stays : options.serve = false)
    (damaged : HasDamagedStream env options.source fault) :
    run env input arguments = .escaped (.gzip (.deflate fault)) := by
  rw [run_eq env input accepted stays, load_of_hasDamagedStream input damaged]
  rfl

/-- The ways in which a run ends that leaves no option without its value. -/
theorem run_cases (env : File.Environment) (input : Input)
    (accepted : Request.ofArguments arguments = .ok (.run options)) (stays : options.serve = false)
    (filled : ¬ HasVoid arguments) :
    (∃ message output, load env input options.source = .ok message ∧
      print options message = .ok output ∧ run env input arguments = success output) ∨
    (∃ complaint, complaint ≠ [] ∧ run env input arguments = refusal complaint) ∨
    ∃ fault, HasDamagedStream env options.source fault ∧
      run env input arguments = .escaped (.gzip (.deflate fault)) := by
  have usable := Request.usable_of_ofArguments filled accepted
  have ends := run_eq env input accepted stays
  cases ran : load env input options.source >>= print options with
  | ok output =>
      obtain ⟨message, loaded, printed⟩ := bind_eq_ok_iff.mp ran
      rw [ran] at ends
      exact Or.inl ⟨message, output, loaded, printed, ends⟩
  | error failure =>
      rw [ran] at ends
      have cause : failure.IsReported ∨
          ∃ fault, HasDamagedStream env options.source fault ∧ failure = .gzip (.deflate fault) := by
        rcases bind_eq_error_iff.mp ran with failed | ⟨message, -, failed⟩
        · exact load_fails failed
        · exact Or.inl (print_fails usable failed)
      rcases cause with reported | ⟨fault, damaged, rfl⟩
      · obtain ⟨complaint, complains, refused⟩ := report_of_isReported options.source reported
        exact Or.inr (Or.inl ⟨complaint, complains, ends.trans refused⟩)
      · exact Or.inr (Or.inr ⟨fault, damaged, ends⟩)

/-- A run on an accepted command line ends well and without any complaint exactly if a message is
read, and its host error too where a summary asks for it. Otherwise it ends with a complaint and
exit code 2, unless it reads a compressed file whose stream is damaged: that failure escapes. -/
theorem run_outcome (accepted : Request.ofArguments arguments = .ok (.run options))
    (stays : options.serve = false) (filled : ¬ HasVoid arguments) :
    (∀ failure, run env input arguments = .escaped failure ↔
      ∃ fault, HasDamagedStream env options.source fault ∧ failure = .gzip (.deflate fault)) ∧
    ((∃ output, run env input arguments = .finished ⟨0, output, []⟩) ↔
      ∃ message, load env input options.source = .ok message ∧
        (options.summary = true → ¬ ∃ digits, HostError.IsOverlong message.headline digits)) ∧
    ((∀ fault, ¬ HasDamagedStream env options.source fault) →
      (∃ output, run env input arguments = .finished ⟨0, output, []⟩) ∨
      ∃ complaint, complaint ≠ [] ∧ run env input arguments = .finished ⟨2, [], complaint⟩) := by
  have usable := Request.usable_of_ofArguments filled accepted
  refine ⟨fun failure => ⟨fun escaped => ?_, fun stream => ?_⟩, ⟨fun finished => ?_, ?_⟩, ?_⟩
  · rcases run_cases env input accepted stays filled with
      ⟨_, _, -, -, ends⟩ | ⟨_, -, ends⟩ | ⟨fault, damaged, ends⟩
    · cases ends.symm.trans escaped
    · cases ends.symm.trans escaped
    · cases ends.symm.trans escaped
      exact ⟨fault, damaged, rfl⟩
  · obtain ⟨fault, damaged, rfl⟩ := stream
    exact run_of_hasDamagedStream input accepted stays damaged
  · obtain ⟨output, finished⟩ := finished
    rcases run_cases env input accepted stays filled with
      ⟨message, output, loaded, printed, -⟩ | ⟨_, -, ends⟩ | ⟨_, -, ends⟩
    · exact ⟨message, loaded, (exists_print_iff usable).mp ⟨output, printed⟩⟩
    · cases ends.symm.trans finished
    · cases ends.symm.trans finished
  · intro readable
    obtain ⟨message, loaded, readable⟩ := readable
    obtain ⟨output, printed⟩ := (exists_print_iff usable).mpr readable
    have ran := bind_eq_ok_iff.mpr ⟨message, loaded, printed⟩
    exact ⟨output, by rw [run_eq env input accepted stays, ran]; rfl⟩
  · intro sound
    rcases run_cases env input accepted stays filled with
      ⟨_, output, -, -, ends⟩ | complains | ⟨fault, damaged, -⟩
    · exact Or.inl ⟨output, ends⟩
    · exact Or.inr complains
    · exact absurd damaged (sound fault)

end Run

/-- A file system with a single file in it. -/
def single (name : Text) (content : Bytes) : File.Environment where
  system := ⟨[([name], .file content)]⟩
  here := []
  home := some "/"
  accounts := []
  baseSetting := none

/-- A file that ends right behind the mark of the format is reported. -/
theorem run_outcome_truncated :
    Request.ofArguments ["--limit=2", "cut.gz"] =
        .ok (.run { source := "cut.gz", limit := some (.value 2) }) ∧
      ¬ HasVoid ["--limit=2", "cut.gz"] ∧
      (∀ failure, run (single "cut.gz" [0x1F, 0x8B]) ⟨[], .kept⟩ ["--limit=2", "cut.gz"] ≠
        .escaped failure) ∧
      ∃ complaint, complaint ≠ [] ∧
        run (single "cut.gz" [0x1F, 0x8B]) ⟨[], .kept⟩ ["--limit=2", "cut.gz"] =
          .finished ⟨2, [], complaint⟩ := by
  have accepted : Request.ofArguments ["--limit=2", "cut.gz"] =
      .ok (.run { source := "cut.gz", limit := some (.value 2) }) := by decide +kernel
  have filled : ¬ HasVoid ["--limit=2", "cut.gz"] := by decide +kernel
  have unread :
      load (single "cut.gz" [0x1F, 0x8B]) ⟨[], .kept⟩ "cut.gz" = .error (.gzip .ended) := by
    decide +kernel
  have sound : ∀ fault, ¬ HasDamagedStream (single "cut.gz" [0x1F, 0x8B]) "cut.gz" fault := by
    intro fault damaged
    cases unread.symm.trans (load_of_hasDamagedStream _ damaged)
  obtain ⟨escapes, finishes, ends⟩ := run_outcome accepted rfl filled
  refine ⟨accepted, filled, fun failure escaped => ?_, ?_⟩
  · obtain ⟨fault, damaged, -⟩ := (escapes failure).mp escaped
    exact sound fault damaged
  · rcases ends sound with finished | complains
    · obtain ⟨message, loaded, -⟩ := finishes.mp finished
      cases unread.symm.trans loaded
    · exact complains

/-- A block of a type that does not exist, behind a sound header. -/
def damagedContent : Bytes := [0x1F, 0x8B, 8, 0, 0, 0, 0, 0, 0, 3, 7, 0, 0, 0, 0, 0]

/-- Of a file with a damaged stream the run makes no complaint. -/
theorem not_finished_damaged :
    run (single "bad.gz" damagedContent) ⟨[], .kept⟩ ["bad.gz"] =
        .escaped (.gzip (.deflate .invalidBlockType)) ∧
      ¬ ∀ env input arguments options, Request.ofArguments arguments = .ok (.run options) →
        options.serve = false → ¬ HasVoid arguments →
        (∃ output, run env input arguments = .finished ⟨0, output, []⟩) ∨
        ∃ complaint, complaint ≠ [] ∧ run env input arguments = .finished ⟨2, [], complaint⟩ := by
  have escaped : run (single "bad.gz" damagedContent) ⟨[], .kept⟩ ["bad.gz"] =
      .escaped (.gzip (.deflate .invalidBlockType)) := by decide +kernel
  refine ⟨escaped, fun always => ?_⟩
  have filled : ¬ HasVoid ["bad.gz"] := by decide +kernel
  have ends := always (single "bad.gz" damagedContent) ⟨[], .kept⟩ ["bad.gz"] _ rfl rfl filled
  rw [escaped] at ends
  rcases ends with ⟨output, ends⟩ | ⟨complaint, -, ends⟩
  · cases ends
  · cases ends

end Command

end SimTriage
