import Mathlib.Data.List.Flatten
import SimTriage.Proofs.Filter
import SimTriage.Session

/-!
Sessions of appends and filters. What is left of the log at the end is, batch by batch in the order
in which the entries came, what passes the filters that were applied after the batch was there.
-/

set_option autoImplicit false

namespace SimTriage.Session

open Event (Entry)

/-- A step that adds entries to the log, or filters it without a limit. -/
inductive Step.IsUnlimited : Step → Prop
  | append (entries : List Entry) : IsUnlimited (.append entries)
  | filter (f : Filter) (unlimited : f.limit = none) : IsUnlimited (.filter f)

/-- The message after all steps. -/
def final (message : Message) (steps : List Step) : Message :=
  steps.foldl (fun message step => next message (.ok step)) message

/-- Entries that came into the log together, and the filters that were applied from then on. -/
structure Batch where
  entries : List Entry
  filters : List Filter

/-- What is left of a batch. -/
def Batch.rest (batch : Batch) : List Entry :=
  batch.entries.filter fun entry => decide (∀ f ∈ batch.filters, f.Selects entry)

/-- The filters among the steps. -/
def filters : List Step → List Filter
  | [] => []
  | .filter f :: steps => f :: filters steps
  | _ :: steps => filters steps

/-- The batches that steps append. -/
def arrivals : List Step → List Batch
  | [] => []
  | .append entries :: steps => ⟨entries, filters steps⟩ :: arrivals steps
  | _ :: steps => arrivals steps

/-- All batches of a session, in the order in which they came; the log at its start is the first. -/
def batches (log : List Entry) (steps : List Step) : List Batch :=
  ⟨log, filters steps⟩ :: arrivals steps

variable {message : Message} {log : List Entry} {steps : List Step} {f g : Filter}

theorem next_append (message : Message) (entries : List Entry) :
    next message (.ok (.append entries)) = ⟨message.headline, message.log ++ entries⟩ := rfl

theorem next_filter (unlimited : f.limit = none) (message : Message) :
    next message (.ok (.filter f)) = ⟨message.headline, message.log.filter (f.Selects ·)⟩ := by
  have applied : Except.bind (.ok (.filter f)) (Step.apply message) =
      .ok ⟨message.headline, message.log.filter (f.Selects ·)⟩ := by
    change Step.apply message (.filter f) = _
    rw [Step.apply, Filter.apply_of_unlimited unlimited]
    rfl
  rw [next, applied]

/-- What one filter leaves of a log is a batch that only later filters are applied to. -/
theorem rest_filter (log : List Entry) (f : Filter) (later : List Filter) :
    Batch.rest ⟨log.filter (f.Selects ·), later⟩ = Batch.rest ⟨log, f :: later⟩ := by
  simp only [Batch.rest, List.filter_filter, List.forall_mem_cons]
  refine List.filter_congr fun entry _ => ?_
  rw [Bool.decide_and, Bool.and_comm]

theorem rest_append (log entries : List Entry) (later : List Filter) :
    Batch.rest ⟨log ++ entries, later⟩ = Batch.rest ⟨log, later⟩ ++ Batch.rest ⟨entries, later⟩ :=
  List.filter_append _ _

theorem rest_sublist (batch : Batch) : batch.rest.Sublist batch.entries := List.filter_sublist

/-- The log at the end of a session is what is left of its batches. -/
theorem log_final (unlimited : ∀ step ∈ steps, step.IsUnlimited) (message : Message) :
    final message steps =
      ⟨message.headline, (batches message.log steps).flatMap Batch.rest⟩ := by
  -- on the steps still to come, with the log so far as the first batch
  induction steps generalizing message with
  | nil => simp [final, batches, arrivals, filters, Batch.rest]
  | cons step steps ih =>
      obtain ⟨now, later⟩ := List.forall_mem_cons.mp unlimited
      have ended : final message (step :: steps) = _ := ih later (next message (.ok step))
      rw [ended]
      cases now with
      | append entries =>
          rw [next_append]
          simp only [batches, arrivals, filters, List.flatMap_cons, rest_append, List.append_assoc]
      | filter f noLimit =>
          rw [next_filter noLimit]
          simp only [batches, arrivals, filters, List.flatMap_cons, rest_filter]

/-- Every step of such a session is answered with the message after it. -/
theorem run_unlimited (unlimited : ∀ step ∈ steps, step.IsUnlimited) (message : Message) :
    run message (steps.map .ok) =
      (List.range steps.length).map fun n => .ok (final message (steps.take (n + 1))).toJson := by
  induction steps generalizing message with
  | nil => rfl
  | cons step steps ih =>
      obtain ⟨now, later⟩ := List.forall_mem_cons.mp unlimited
      have answered : step.answer message = .ok (next message (.ok step)).toJson := by
        cases now with
        | append entries => rfl
        | filter f noLimit =>
            rw [next_filter noLimit]
            change Message.toJson <$> Step.apply message (.filter f) = _
            rw [Step.apply, Filter.apply_of_unlimited noLimit]
            rfl
      rw [List.map_cons, run, List.length_cons, List.range_succ_eq_map, List.map_cons, List.map_map]
      congr 1
      exact ih later (next message (.ok step))

theorem final_append (message : Message) (front back : List Step) :
    final message (front ++ back) = final (final message front) back := List.foldl_append

/-- Steps between the same others that come to the same leave the session as it is. -/
theorem final_congr {front back one other : List Step}
    (same : ∀ message, final message one = final message other) (message : Message) :
    final message (front ++ (one ++ back)) = final message (front ++ (other ++ back)) := by
  simp only [final_append, same]

theorem final_swap (unlimitedF : f.limit = none) (unlimitedG : g.limit = none) (message : Message) :
    final message [.filter f, .filter g] = final message [.filter g, .filter f] := by
  simp only [final, List.foldl_cons, List.foldl_nil, next_filter unlimitedF,
    next_filter unlimitedG, List.filter_filter, Bool.and_comm]

theorem final_repeat (unlimited : f.limit = none) (message : Message) :
    final message [.filter f, .filter f] = final message [.filter f] := by
  simp only [final, List.foldl_cons, List.foldl_nil, next_filter unlimited, List.filter_filter,
    Bool.and_self]

/-- With a limit, what comes behind a log is filtered up to what the log has left of the limit. -/
theorem apply_append {limit : Int} (given : f.limit = some limit) (positive : 0 < limit)
    (front back : List Entry) :
    ∃ first all, f.apply front = .ok first ∧
      Filter.apply { f with limit := none } back = .ok all ∧
      f.apply (front ++ back) = .ok (first ++ all.take (limit.toNat - first.length)) := by
  refine ⟨_, _, Filter.apply_of_limit given positive front, Filter.apply_of_unlimited rfl back, ?_⟩
  have left : ∀ passing : List Entry, limit.toNat - (passing.take limit.toNat).length =
      limit.toNat - passing.length := by
    intro passing
    rw [List.length_take]
    omega
  simp only [Filter.selects_limit_iff, left]
  rw [Filter.apply_of_limit given positive, List.filter_append, List.take_append]

/-- What a filter lets through passes it once more. -/
theorem apply_idempotent {selected : List Entry} (applied : f.apply log = .ok selected) :
    f.apply selected = .ok selected := by
  have own : ∀ entry ∈ selected, f.Selects entry := by
    intro entry member
    have passed := (Filter.sublist_of_apply applied).subset member
    exact of_decide_eq_true (List.mem_filter.mp passed).2
  have whole : selected.filter (f.Selects ·) = selected :=
    List.filter_eq_self.mpr fun entry member => decide_eq_true (own entry member)
  obtain ⟨positive, same⟩ := Filter.apply_eq_ok_iff.mp applied
  refine Filter.apply_eq_ok_iff.mpr ⟨positive, ?_⟩
  rw [whole, same]
  cases f.limit with
  | none => rfl
  | some limit => simp only [Filter.upTo, List.take_take, Nat.min_self]

/-- A session of appends and filters without limit answers every step with the message after it. Its
last log is what is left of its batches, each after the filters that came later than it; neither the
order of neighbouring filters nor a filter that is repeated makes a difference. With a limit, a log
is filtered in parts as if it were whole, and filtered again it stays as it is. -/
theorem session_outcome (message : Message) (steps : List Step)
    (unlimited : ∀ step ∈ steps, step.IsUnlimited) :
    run message (steps.map .ok) =
      (List.range steps.length).map (fun n => .ok (final message (steps.take (n + 1))).toJson) ∧
    final message steps =
      ⟨message.headline, (batches message.log steps).flatMap Batch.rest⟩ ∧
    (final message steps).log.Sublist ((batches message.log steps).flatMap Batch.entries) ∧
    (∀ front back f g, steps = front ++ ([.filter f, .filter g] ++ back) →
      final message (front ++ ([.filter g, .filter f] ++ back)) = final message steps) ∧
    (∀ front back f, steps = front ++ ([.filter f] ++ back) →
      final message (front ++ ([.filter f, .filter f] ++ back)) = final message steps) ∧
    ∀ (f : Filter) (limit : Int), f.limit = some limit → 1 ≤ limit →
      (∀ front back, ∃ first all, f.apply front = .ok first ∧
        Filter.apply { f with limit := none } back = .ok all ∧
        f.apply (front ++ back) = .ok (first ++ all.take (limit.toNat - first.length))) ∧
      ∀ log, ∃ selected, f.apply log = .ok selected ∧ f.apply selected = .ok selected := by
  have ended := log_final unlimited message
  have noLimit : ∀ f, .filter f ∈ steps → f.limit = none := by
    intro f member
    cases unlimited _ member with
    | filter _ noLimit => exact noLimit
  refine ⟨run_unlimited unlimited message, ended, ?_, ?_, ?_, ?_⟩
  · rw [ended]
    exact List.Sublist.flatMap_right _ fun batch _ => rest_sublist batch
  · rintro front back f g rfl
    exact final_congr (final_swap (noLimit g (by simp)) (noLimit f (by simp))) message
  · rintro front back f rfl
    exact final_congr (final_repeat (noLimit f (by simp))) message
  · intro f limit given positive
    refine ⟨apply_append given positive, fun log => ?_⟩
    have applied := Filter.apply_of_limit given positive log
    exact ⟨_, applied, apply_idempotent applied⟩

/-- An event that failed, and one that was emitted. -/
def mixedLog : List Entry :=
  [⟨1, .failedContract, some "A", ["a"], "1"⟩, ⟨0, .contract, none, ["b"], "2"⟩]

/-- The first batch passes both filters, the one between them only the second. -/
theorem session_outcome_mixed :
    (∀ step ∈ [Step.filter { failedOnly := true }, .append mixedLog, .filter { part := some "2" }],
      step.IsUnlimited) ∧
    final ⟨"down", mixedLog⟩ [.filter { failedOnly := true }, .append mixedLog,
      .filter { part := some "2" }] = ⟨"down", [⟨0, .contract, none, ["b"], "2"⟩]⟩ := by
  have unlimited : ∀ step ∈ [Step.filter { failedOnly := true }, .append mixedLog,
      .filter { part := some "2" }], step.IsUnlimited := by
    simp only [List.forall_mem_cons]
    exact ⟨.filter _ rfl, .append _, .filter _ rfl, by simp⟩
  refine ⟨unlimited, (session_outcome ⟨"down", mixedLog⟩ _ unlimited).2.1.trans ?_⟩
  decide

end SimTriage.Session
