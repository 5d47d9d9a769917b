import SimTriage.Proofs.Schema.Conforms
import SimTriage.Query

/-!
The forms of entries, host errors, answers and summaries have the shapes that are published for
them. All that this asks of an entry is an index that is not negative.
-/

set_option autoImplicit false

namespace SimTriage.Schema

variable {validator : Validator}

theorem conforms_ofText? (text : Option Text) :
    Conforms validator (.nullable .text) (.ofText? text) := by
  cases text with
  | none => exact conforms_null _
  | some text => exact (conforms_text text).nullable

theorem conforms_ofNat? (n : Option Nat) :
    Conforms validator (.nullable (.integer false)) (.ofNat? n) := by
  cases n with
  | none => exact conforms_null _
  | some n => exact (conforms_integer (by simp)).nullable

theorem conforms_entry {e : Event.Entry} (index : 0 ≤ e.index) :
    Conforms validator entry e.toJson := by
  apply check_record
  refine .cons (.held rfl (conforms_integer fun _ => index)) ?_
  refine .cons (.held rfl (conforms_kind e.kind)) ?_
  refine .cons (.held rfl (conforms_ofText? e.contract)) ?_
  refine .cons (.held rfl (conforms_texts e.topics)) ?_
  exact .cons (.held rfl (conforms_text e.data)) .nil

theorem conforms_entries {log : List Event.Entry} (indices : ∀ e ∈ log, 0 ≤ e.index) :
    Conforms validator (.list entry) (.array (log.map Event.Entry.toJson)) := by
  refine conforms_list fun value member => ?_
  obtain ⟨e, logged, rfl⟩ := List.mem_map.mp member
  exact conforms_entry (indices e logged)

theorem conforms_hostError (error : HostError) : Conforms validator hostError error.toJson := by
  apply check_record
  refine .cons (.held rfl (conforms_text error.type)) ?_
  refine .cons (.held rfl (conforms_text error.code)) ?_
  exact .cons (.held rfl (conforms_ofNat? error.contractCode)) .nil

theorem conforms_hostError? (error : Option HostError) :
    Conforms validator (.nullable hostError) (HostError.toJson? error) := by
  cases error with
  | none => exact conforms_null _
  | some error => exact (conforms_hostError error).nullable

theorem conforms_answer {answer : Answer} (indices : ∀ e ∈ answer.entries, 0 ≤ e.index) :
    Conforms validator parsedError answer.toJson := by
  apply check_record
  refine .cons (.held rfl (conforms_text answer.headline)) ?_
  refine .cons (.held rfl (conforms_hostError? answer.hostError)) ?_
  refine .cons (.held rfl (conforms_natural answer.total).nullable) ?_
  refine .cons (.held rfl (conforms_natural answer.entries.length).nullable) ?_
  exact .cons (.held rfl (conforms_entries indices)) .nil

theorem conforms_summary (summary : Summary) : Conforms validator errorSummary summary.toJson := by
  apply check_record
  refine .cons (.held rfl (conforms_text summary.headline)) ?_
  refine .cons (.held rfl (conforms_natural summary.entryCount)) ?_
  refine .cons (.held rfl (conforms_natural summary.failedCount)) ?_
  refine .cons (.held rfl (conforms_natural summary.contractEventCount)) ?_
  refine .cons (.held rfl (conforms_counts (fun e => e.1.label) Prod.snd summary.kindCounts)) ?_
  refine .cons (.held rfl (conforms_texts summary.contracts)) ?_
  exact .cons (.held rfl (conforms_hostError? summary.hostError)) .nil

/-- A message has the shape of an answer, but for three fields that come out as null. -/
theorem check_message {message : Message} (indices : ∀ e ∈ message.log, 0 ≤ e.index) :
    validator.check parsedError message.toJson = .ok (.object
      [("main_error", .string message.headline),
       ("host_error", .null),
       ("total", .null),
       ("count", .null),
       ("event_log", .array (message.log.map Event.Entry.toJson))]) := by
  apply check_record
  refine .cons (.held rfl (conforms_text message.headline)) ?_
  refine .cons (.filled rfl rfl) (.cons (.filled rfl rfl) (.cons (.filled rfl rfl) ?_))
  exact .cons (.held rfl (conforms_entries indices)) .nil

theorem publish_of_conforms {shape : Shape} {value : Json}
    (conforms : Conforms validator shape value) : publish validator shape value = .ok value := by
  rw [publish, conforms]

end SimTriage.Schema
