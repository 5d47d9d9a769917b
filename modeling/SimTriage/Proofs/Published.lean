import SimTriage.Proofs.Query

/-!
Whatever is given out has its published shape as it stands. The check against the shape turns
nothing back: all that it asks of an answer beyond its form is that the indices of its entries are
not negative.
-/

set_option autoImplicit false

namespace SimTriage

open Event (Entry)
open Schema (Conforms)

variable {validator : Schema.Validator} {text : Text} {query : Query} {message : Message}
  {json : Json}

/-- Every summary can be given out. -/
theorem publish_summary (summary : Summary) :
    publish validator Schema.errorSummary summary.toJson = .ok summary.toJson :=
  Schema.publish_of_conforms (Schema.conforms_summary summary)

theorem summarizeText_eq_ok_iff :
    summarizeText validator text = .ok json ↔
      ∃ message summary, Message.read text = .ok message ∧
        Summary.ofMessage message = .ok summary ∧ json = summary.toJson := by
  rw [summarizeText, bind_eq_ok_iff]
  refine exists_congr fun message => ?_
  rw [liftM_eq_ok_iff, bind_eq_ok_iff]
  constructor
  · intro steps
    obtain ⟨accepted, summary, counted, published⟩ := steps
    rw [publish_summary] at published
    exact ⟨summary, accepted, liftM_eq_ok_iff.mp counted, (Except.ok.inj published).symm⟩
  · intro counted
    obtain ⟨summary, accepted, counted, rfl⟩ := counted
    exact ⟨accepted, summary, liftM_eq_ok_iff.mpr counted, publish_summary summary⟩

/-- A summary fails only for a numeral: of the message, or of the host error in its headline. -/
theorem summarizeText_fails {failure : Failure}
    (failed : summarizeText validator text = .error failure) :
    ∃ fault, failure = .overlongNumeral fault := by
  rw [summarizeText, bind_eq_error_iff, liftM_eq_error_iff] at failed
  rcases failed with ⟨fault, -, rfl⟩ | ⟨message, -, failed⟩
  · exact ⟨fault, rfl⟩
  rcases bind_eq_error_iff.mp failed with failed | ⟨summary, -, refused⟩
  · obtain ⟨fault, -, rfl⟩ := liftM_eq_error_iff.mp failed
    exact ⟨fault, rfl⟩
  · rw [publish_summary] at refused
    cases refused

theorem conforms_of_parseText (givenOut : parseText validator text query = .ok json) :
    Conforms validator Schema.parsedError json := by
  obtain ⟨message, answer, accepted, answered, rfl⟩ := parseText_eq_ok_iff.mp givenOut
  exact Schema.conforms_answer (index_of_mem_entries accepted answered)

theorem conforms_of_summarizeText (givenOut : summarizeText validator text = .ok json) :
    Conforms validator Schema.errorSummary json := by
  obtain ⟨_, summary, -, -, rfl⟩ := summarizeText_eq_ok_iff.mp givenOut
  exact Schema.conforms_summary summary

/-- Whatever they are held against their shapes with, answers and summaries come out as they are,
and are never refused; a message comes out with null for what only an answer has. All this because every
entry that is read is well-formed. -/
theorem published_conforms (validator : Schema.Validator) (text : Text) :
    (∀ query json, parseText validator text query = .ok json →
      validator.check Schema.parsedError json = .ok json) ∧
    (∀ query faults, parseText validator text query ≠ .error (.invalid faults)) ∧
    (∀ json, summarizeText validator text = .ok json →
      validator.check Schema.errorSummary json = .ok json) ∧
    (∀ faults, summarizeText validator text ≠ .error (.invalid faults)) ∧
    ∀ message, Message.read text = .ok message →
      validator.check Schema.parsedError message.toJson = .ok (.object
        [("main_error", .string message.headline),
         ("host_error", .null),
         ("total", .null),
         ("count", .null),
         ("event_log", .array (message.log.map Entry.toJson))]) ∧
      ∀ entry ∈ message.log, entry.WellFormed := by
  refine ⟨fun _ _ => conforms_of_parseText, ?_, fun _ => conforms_of_summarizeText, ?_, ?_⟩
  · intro query faults refused
    have kind := (parseText_fails_iff.mp refused).kind_eq_value
    cases kind
  · intro faults refused
    obtain ⟨_, same⟩ := summarizeText_fails refused
    cases same
  · intro message accepted
    have wellFormed : ∀ entry ∈ message.log, entry.WellFormed := fun _ member =>
      Message.wellFormed_of_read accepted member
    exact ⟨Schema.check_message fun entry member => (wellFormed entry member).index, wellFormed⟩

/-- The summary of the same message. -/
def refusedSummary : Summary where
  headline := "HostError: Error(Contract, #6)"
  entryCount := 2
  failedCount := 1
  contractEventCount := 2
  kindCounts := [(.diagnostic, 0), (.failedDiagnostic, 0), (.failedContract, 1), (.contract, 1)]
  contracts := ["C"]
  hostError := some ⟨"Contract", "#6", some 6⟩

theorem published_conforms_refused :
    summarizeText .lax refusedText = .ok refusedSummary.toJson ∧
      Schema.Validator.lax.check Schema.errorSummary refusedSummary.toJson =
        .ok refusedSummary.toJson ∧
      parseText .lax refusedText { failedOnly := true } = .ok refusedAnswer.toJson ∧
      Schema.Validator.lax.check Schema.parsedError refusedAnswer.toJson =
        .ok refusedAnswer.toJson := by
  have counted : summarizeText .lax refusedText = .ok refusedSummary.toJson :=
    summarizeText_eq_ok_iff.mpr ⟨_, refusedSummary, read_refusedText, by decide +kernel, rfl⟩
  obtain ⟨answers, -, summaries, -⟩ := published_conforms .lax refusedText
  exact ⟨counted, summaries _ counted, parseText_refusedText, answers _ _ parseText_refusedText⟩

end SimTriage
