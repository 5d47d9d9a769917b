import SimTriage.Proofs.Event.KindName
import SimTriage.Proofs.Filter
import SimTriage.Proofs.HostError
import SimTriage.Proofs.Message.Log
import SimTriage.Proofs.Schema.Published
import SimTriage.Schema.Lax

/-!
Answers to queries, from the text of a message to what is given out: the causes of failure in the
order in which they are looked for, and the answer where there is none.
-/

set_option autoImplicit false

namespace SimTriage

open Event (Entry IsLine IsOverlongLine Kind Layout)

namespace Query

variable {query : Query} {message : Message} {answer : Answer} {failure : Failure}

/-- The names of kinds in the query. -/
def names (query : Query) : List Text := query.kindNames.getD []

/-- The greatest number of entries in an answer. -/
def bound (query : Query) : Nat :=
  match query.limit with
  | none => 200
  | some limit => min limit.toNat 5000

/-- The query asks for the entry. Blank names do not ask for anything. -/
structure Selects (query : Query) (entry : Entry) : Prop where
  kind : (∃ name ∈ query.names, Text.strip name ≠ []) →
    ∃ name ∈ query.names, Text.strip name ≠ [] ∧ Kind.named? name = some entry.kind
  failed : query.failedOnly = true → entry.kind.isFailed = true
  contract : ∀ contract ∈ query.contract, entry.contract = some contract
  part : ∀ part ∈ query.part, part <:+: entry.data ∨ ∃ topic ∈ entry.topics, part <:+: topic

theorem selects_iff {entry : Entry} :
    query.Selects entry ↔
      ((∃ name ∈ query.names, Text.strip name ≠ []) →
        ∃ name ∈ query.names, Text.strip name ≠ [] ∧ Kind.named? name = some entry.kind) ∧
      (query.failedOnly = true → entry.kind.isFailed = true) ∧
      (∀ contract ∈ query.contract, entry.contract = some contract) ∧
      ∀ part ∈ query.part, part <:+: entry.data ∨ ∃ topic ∈ entry.topics, part <:+: topic :=
  ⟨fun selects => ⟨selects.kind, selects.failed, selects.contract, selects.part⟩,
    fun selects => ⟨selects.1, selects.2.1, selects.2.2.1, selects.2.2.2⟩⟩

instance (query : Query) : DecidablePred query.Selects := fun _ =>
  decidable_of_iff _ selects_iff.symm

/-- The limit, if there is one, is positive. -/
def HasPositiveLimit (query : Query) : Prop := ∀ limit ∈ query.limit, 0 < limit

/-- The query has no name that is unknown. -/
def NamesKinds (query : Query) : Prop := ∀ name ∈ query.names, ¬ Kind.IsUnknown name

theorem resolveLimit_eq_ok_iff {limit : Int} :
    resolveLimit query.limit = .ok limit ↔ query.HasPositiveLimit ∧ limit = query.bound := by
  unfold HasPositiveLimit bound
  cases query.limit with
  | none => simp [resolveLimit, defaultLimit, eq_comm]
  | some given =>
      by_cases low : given ≤ 0
      · have notPositive : ¬ 0 < given := by omega
        simp [resolveLimit, low, notPositive]
      · have capped : min given hardLimit = (min given.toNat 5000 : Nat) := by
          simp only [hardLimit]
          omega
        simp [resolveLimit, low, capped, eq_comm]
        omega

theorem resolveLimit_eq_error_iff :
    resolveLimit query.limit = .error failure ↔
      ∃ limit, query.limit = some limit ∧ limit ≤ 0 ∧ failure = .limitNotPositive := by
  cases query.limit with
  | none => simp [resolveLimit]
  | some given =>
      by_cases low : given ≤ 0
      · simp [resolveLimit, low, eq_comm]
      · simp [resolveLimit, low]

/-- The filter of a query without unknown names. -/
def meant (query : Query) : Filter where
  kinds := Kind.chosen query.kindNames
  contract := query.contract
  part := query.part
  failedOnly := query.failedOnly
  limit := some query.bound

theorem toFilter_eq_ok_iff {filter : Filter} :
    query.toFilter = .ok filter ↔
      query.NamesKinds ∧ query.HasPositiveLimit ∧ filter = query.meant := by
  rw [toFilter, bind_eq_ok_iff]
  simp only [Kind.choose_eq_ok_iff, bind_eq_ok_iff, resolveLimit_eq_ok_iff]
  constructor
  · intro steps
    obtain ⟨_, ⟨known, rfl⟩, _, ⟨positive, rfl⟩, same⟩ := steps
    cases same
    exact ⟨known, positive, rfl⟩
  · intro passes
    obtain ⟨known, positive, rfl⟩ := passes
    exact ⟨_, ⟨known, rfl⟩, _, ⟨positive, rfl⟩, rfl⟩

theorem toFilter_eq_error_iff :
    query.toFilter = .error failure ↔
      (∃ name, IsFirst Kind.IsUnknown query.names name ∧ failure = .unknownKindName name) ∨
      (query.NamesKinds ∧
        ∃ limit, query.limit = some limit ∧ limit ≤ 0 ∧ failure = .limitNotPositive) := by
  rw [toFilter, bind_eq_error_iff, Kind.choose_eq_error_iff]
  refine or_congr_right ?_
  constructor
  · intro steps
    obtain ⟨kinds, chose, failed⟩ := steps
    rcases bind_eq_error_iff.mp failed with failed | ⟨_, _, ended⟩
    · exact ⟨(Kind.choose_eq_ok_iff.mp chose).1, resolveLimit_eq_error_iff.mp failed⟩
    · cases ended
  · intro fails
    obtain ⟨known, low⟩ := fails
    refine ⟨_, Kind.choose_eq_ok_iff.mpr ⟨known, rfl⟩, ?_⟩
    exact bind_eq_error_iff.mpr (Or.inl (resolveLimit_eq_error_iff.mpr low))

/-- A kind is among those chosen exactly if a name means it, unless all names are blank. -/
theorem mem_chosen_iff (known : query.NamesKinds) {kind : Kind} :
    (∀ kinds ∈ Kind.chosen query.kindNames, kind ∈ kinds) ↔
      ((∃ name ∈ query.names, Text.strip name ≠ []) →
        ∃ name ∈ query.names, Text.strip name ≠ [] ∧ Kind.named? name = some kind) := by
  rw [← Kind.mem_meant]
  change (∀ kinds ∈ (if (Kind.meant query.names).isEmpty then none
    else some (Kind.meant query.names)), kind ∈ kinds) ↔ _
  by_cases given : ∃ name ∈ query.names, Text.strip name ≠ []
  · have chosen : (Kind.meant query.names).isEmpty = false := by
      rw [List.isEmpty_eq_false_iff]
      exact Kind.meant_ne_nil known given
    rw [chosen]
    constructor
    · exact fun all _ => all _ rfl
    · intro asked kinds same
      cases same
      exact asked given
  · have none : Kind.meant query.names = [] := by
      rw [List.eq_nil_iff_forall_not_mem]
      intro own inside
      obtain ⟨name, member, filled, -⟩ := Kind.mem_meant.mp inside
      exact given ⟨name, member, filled⟩
    rw [none]
    constructor
    · exact fun _ asked => absurd asked given
    · intro _ kinds same
      cases same

theorem selects_meant_iff (known : query.NamesKinds) {entry : Entry} :
    query.meant.Selects entry ↔ query.Selects entry := by
  constructor
  · intro selects
    exact ⟨(mem_chosen_iff known).mp selects.kind, selects.failed, selects.contract, selects.part⟩
  · intro selects
    exact ⟨(mem_chosen_iff known).mpr selects.kind, selects.failed, selects.contract, selects.part⟩

theorem bound_pos (positive : query.HasPositiveLimit) : 0 < query.bound := by
  unfold bound
  cases given : query.limit with
  | none => decide
  | some limit =>
      have low := positive limit given
      dsimp only
      omega

theorem bound_le (query : Query) : query.bound ≤ 5000 := by
  unfold bound
  cases query.limit with
  | none => decide
  | some limit => exact Nat.min_le_right _ _

/-- The entries of a log that the query asks for. -/
theorem apply_meant (known : query.NamesKinds) (positive : query.HasPositiveLimit)
    (log : List Entry) :
    query.meant.apply log = .ok ((log.filter (query.Selects ·)).take query.bound) := by
  have limit : (0 : Int) < query.bound := Int.natCast_pos.mpr (bound_pos positive)
  rw [Filter.apply_of_limit rfl limit, Int.toNat_natCast]
  simp only [selects_meant_iff known]

theorem answer_eq_ok_iff :
    query.answer message = .ok answer ↔
      query.NamesKinds ∧ query.HasPositiveLimit ∧
        HostError.find message.headline = .ok answer.hostError ∧
        answer = ⟨message.headline, answer.hostError, message.log.length,
          (message.log.filter (query.Selects ·)).take query.bound⟩ := by
  rw [Query.answer, bind_eq_ok_iff]
  constructor
  · intro steps
    obtain ⟨filter, chose, steps⟩ := steps
    obtain ⟨known, positive, rfl⟩ := toFilter_eq_ok_iff.mp chose
    obtain ⟨entries, applied, steps⟩ := bind_eq_ok_iff.mp steps
    rw [apply_meant known positive] at applied
    cases applied
    obtain ⟨found, isFound, same⟩ := bind_eq_ok_iff.mp steps
    cases same
    exact ⟨known, positive, liftM_eq_ok_iff.mp isFound, rfl⟩
  · intro passes
    obtain ⟨known, positive, found, same⟩ := passes
    refine ⟨_, toFilter_eq_ok_iff.mpr ⟨known, positive, rfl⟩, ?_⟩
    refine bind_eq_ok_iff.mpr ⟨_, apply_meant known positive _, ?_⟩
    refine bind_eq_ok_iff.mpr ⟨_, liftM_eq_ok_iff.mpr found, ?_⟩
    rw [same]
    rfl

theorem answer_eq_error_iff :
    query.answer message = .error failure ↔
      query.toFilter = .error failure ∨
      (query.NamesKinds ∧ query.HasPositiveLimit ∧
        ∃ digits, HostError.IsOverlong message.headline digits ∧
          failure = .overlongNumeral ⟨digits.length⟩) := by
  rw [Query.answer, bind_eq_error_iff]
  refine or_congr_right ?_
  constructor
  · intro steps
    obtain ⟨filter, chose, steps⟩ := steps
    obtain ⟨known, positive, rfl⟩ := toFilter_eq_ok_iff.mp chose
    have applied := apply_meant known positive message.log
    rcases bind_eq_error_iff.mp steps with failed | ⟨entries, _, steps⟩
    · rw [applied] at failed
      cases failed
    rcases bind_eq_error_iff.mp steps with failed | ⟨_, _, ended⟩
    · obtain ⟨fault, notFound, rfl⟩ := liftM_eq_error_iff.mp failed
      obtain ⟨digits, overlong, rfl⟩ := HostError.find_eq_error_iff.mp notFound
      exact ⟨known, positive, digits, overlong, rfl⟩
    · cases ended
  · intro fails
    obtain ⟨known, positive, digits, overlong, rfl⟩ := fails
    refine ⟨_, toFilter_eq_ok_iff.mpr ⟨known, positive, rfl⟩, ?_⟩
    refine bind_eq_error_iff.mpr (Or.inr ⟨_, apply_meant known positive _, ?_⟩)
    refine bind_eq_error_iff.mpr (Or.inl (liftM_eq_error_iff.mpr ⟨_, ?_, rfl⟩))
    exact HostError.find_eq_error_iff.mpr ⟨digits, overlong, rfl⟩

end Query

section Text

variable {validator : Schema.Validator} {text : Text} {query : Query} {message : Message}
  {answer : Answer} {failure : Failure}

theorem index_of_mem_entries (accepted : Message.read text = .ok message)
    (answered : query.answer message = .ok answer) : ∀ entry ∈ answer.entries, 0 ≤ entry.index := by
  intro entry member
  obtain ⟨-, -, -, same⟩ := Query.answer_eq_ok_iff.mp answered
  rw [same] at member
  have logged := List.mem_of_mem_filter (List.mem_of_mem_take member)
  exact (Message.wellFormed_of_read accepted logged).index

/-- An answer on a message that was read can always be given out. -/
theorem publish_answer (accepted : Message.read text = .ok message)
    (answered : query.answer message = .ok answer) :
    publish validator Schema.parsedError answer.toJson = .ok answer.toJson :=
  Schema.publish_of_conforms (Schema.conforms_answer (index_of_mem_entries accepted answered))

theorem parseText_eq_ok_iff {json : Json} :
    parseText validator text query = .ok json ↔
      ∃ message answer, Message.read text = .ok message ∧ query.answer message = .ok answer ∧
        json = answer.toJson := by
  rw [parseText, bind_eq_ok_iff]
  constructor
  · intro steps
    obtain ⟨message, accepted, steps⟩ := steps
    obtain ⟨answer, answered, published⟩ := bind_eq_ok_iff.mp steps
    have read := liftM_eq_ok_iff.mp accepted
    rw [publish_answer read answered] at published
    exact ⟨message, answer, read, answered, (Except.ok.inj published).symm⟩
  · intro answered
    obtain ⟨message, answer, accepted, answered, rfl⟩ := answered
    refine ⟨message, liftM_eq_ok_iff.mpr accepted, ?_⟩
    exact bind_eq_ok_iff.mpr ⟨answer, answered, publish_answer accepted answered⟩

theorem parseText_eq_error_iff :
    parseText validator text query = .error failure ↔
      (∃ fault, Message.read text = .error fault ∧ failure = .overlongNumeral fault) ∨
      ∃ message, Message.read text = .ok message ∧ query.answer message = .error failure := by
  rw [parseText, bind_eq_error_iff, liftM_eq_error_iff]
  refine or_congr_right (exists_congr fun message => ?_)
  rw [liftM_eq_ok_iff]
  refine and_congr_right fun accepted => ?_
  rw [Message.query, bind_eq_error_iff]
  constructor
  · intro failed
    rcases failed with failed | ⟨answer, answered, refused⟩
    · exact failed
    · rw [publish_answer accepted answered] at refused
      cases refused
  · exact Or.inl

/-- Why a query on a text fails. A cause counts where none of those above it is present. -/
inductive Query.Fails (text : Text) (query : Query) : Failure → Prop
  | index {line : Text} {s : Layout}
      (first : IsFirst IsOverlongLine (Message.bodyLines text) line) (spells : s.Spells line) :
      Fails text query (.overlongNumeral ⟨s.heading.index.length⟩)
  | kindName {name : Text}
      (readable : ∀ line ∈ Message.bodyLines text, ¬ IsOverlongLine line)
      (first : IsFirst Kind.IsUnknown query.names name) :
      Fails text query (.unknownKindName name)
  | limit {limit : Int}
      (readable : ∀ line ∈ Message.bodyLines text, ¬ IsOverlongLine line)
      (known : query.NamesKinds) (given : query.limit = some limit) (low : limit ≤ 0) :
      Fails text query .limitNotPositive
  | hostError {digits : Text}
      (readable : ∀ line ∈ Message.bodyLines text, ¬ IsOverlongLine line)
      (known : query.NamesKinds) (positive : query.HasPositiveLimit)
      (overlong : HostError.IsOverlong (text.takeWhile (· ≠ '\n')) digits) :
      Fails text query (.overlongNumeral ⟨digits.length⟩)

/-- What the answer to a query on a text is. -/
structure Query.Answers (text : Text) (query : Query) (answer : Answer) : Prop where
  headline : answer.headline = text.takeWhile (· ≠ '\n')
  hostError : HostError.find answer.headline = .ok answer.hostError
  total : answer.total = (Message.bodyLines text).countP (IsLine ·)
  entries : answer.entries = ((Message.logOf text).filter (query.Selects ·)).take query.bound

theorem parseText_fails_iff :
    parseText validator text query = .error failure ↔ query.Fails text failure := by
  rw [parseText_eq_error_iff]
  constructor
  · intro failed
    rcases failed with ⟨fault, failed, rfl⟩ | ⟨message, accepted, failed⟩
    · obtain ⟨line, first, failed⟩ := Message.read_eq_error_iff.mp failed
      obtain ⟨s, spells, -, rfl⟩ := Entry.read_eq_error_iff.mp failed
      exact .index first spells
    · obtain ⟨readable, rfl⟩ := Message.read_eq_ok_iff.mp accepted
      rcases Query.answer_eq_error_iff.mp failed with failed | ⟨known, positive, digits, long, rfl⟩
      · rcases Query.toFilter_eq_error_iff.mp failed with ⟨name, first, rfl⟩ | ⟨known, low⟩
        · exact .kindName readable first
        · obtain ⟨limit, given, low, rfl⟩ := low
          exact .limit readable known given low
      · exact .hostError readable known positive long
  · intro fails
    have answered : ∀ {failure}, (∀ line ∈ Message.bodyLines text, ¬ IsOverlongLine line) →
        query.answer ⟨text.takeWhile (· ≠ '\n'), Message.logOf text⟩ = .error failure →
        ∃ message, Message.read text = .ok message ∧ query.answer message = .error failure :=
      fun readable failed => ⟨_, Message.read_eq_ok_iff.mpr ⟨readable, rfl⟩, failed⟩
    cases fails with
    | @index line s first spells =>
        refine Or.inl ⟨_, Message.read_eq_error_iff.mpr ⟨line, first, ?_⟩, rfl⟩
        exact Entry.read_eq_error_iff.mpr ⟨s, spells, first.holds.of_spells spells, rfl⟩
    | @kindName name readable first =>
        refine Or.inr (answered readable (Query.answer_eq_error_iff.mpr (Or.inl ?_)))
        exact Query.toFilter_eq_error_iff.mpr (Or.inl ⟨name, first, rfl⟩)
    | @limit limit readable known given low =>
        refine Or.inr (answered readable (Query.answer_eq_error_iff.mpr (Or.inl ?_)))
        exact Query.toFilter_eq_error_iff.mpr (Or.inr ⟨known, limit, given, low, rfl⟩)
    | @hostError digits readable known positive overlong =>
        refine Or.inr (answered readable (Query.answer_eq_error_iff.mpr (Or.inr ?_)))
        exact ⟨known, positive, digits, overlong, rfl⟩

theorem exists_answers_of_parseText {json : Json}
    (answered : parseText validator text query = .ok json) :
    ∃ answer, query.Answers text answer ∧ json = answer.toJson := by
  obtain ⟨message, answer, accepted, answered, rfl⟩ := parseText_eq_ok_iff.mp answered
  obtain ⟨readable, rfl⟩ := Message.read_eq_ok_iff.mp accepted
  obtain ⟨-, -, found, same⟩ := Query.answer_eq_ok_iff.mp answered
  refine ⟨answer, ⟨?_, ?_, ?_, ?_⟩, rfl⟩
  · rw [same]
  · rw [same]
    exact found
  · rw [same]
    exact Message.length_logOf readable
  · rw [same]

/-- Raising the limit only adds entries behind those that were there. -/
theorem Query.Answers.prefix_of_raised {limit : Option Int} {raised : Answer}
    (answers : query.Answers text answer)
    (raises : Query.Answers text { query with limit } raised)
    (higher : query.bound ≤ Query.bound { query with limit }) :
    answer.entries <+: raised.entries := by
  have same : ∀ entry, Query.Selects { query with limit } entry ↔ query.Selects entry := by
    intro entry
    rw [Query.selects_iff, Query.selects_iff]
    rfl
  have entries := raises.entries
  simp only [same] at entries
  rw [answers.entries, entries]
  exact List.take_prefix_take_left higher

theorem Query.Answers.length_le (answers : query.Answers text answer) :
    answer.entries.length ≤ 5000 := by
  rw [answers.entries]
  exact (List.length_take_le _ _).trans query.bound_le

/-- A limit beyond the greatest number of entries is as good as that number. -/
theorem Query.resolveLimit_of_hardLimit {limit : Int} (beyond : 5000 ≤ limit) :
    resolveLimit (some limit) = resolveLimit (some 5000) := by
  have positive : ¬ limit ≤ 0 := by omega
  have capped : min limit 5000 = 5000 := Int.min_eq_right beyond
  simp [resolveLimit, hardLimit, positive, capped]

theorem Query.Fails.kind_eq_value (fails : query.Fails text failure) : failure.kind = .value := by
  cases fails <;> rfl

/-- A message with two entries and a contract's error in its headline. -/
def refusedText : Text :=
  "HostError: Error(Contract, #6)\n1: [Contract Event] topics:[a], data:1\n" ++
    "0: [Failed Contract Event (not emitted)] contract:C, topics:[b], data:2"

theorem read_refusedText :
    Message.read refusedText = .ok ⟨"HostError: Error(Contract, #6)",
      [⟨1, .contract, none, ["a"], "1"⟩, ⟨0, .failedContract, some "C", ["b"], "2"⟩]⟩ := by
  decide +kernel

/-- The answer to a query for entries of what has failed. -/
def refusedAnswer : Answer where
  headline := "HostError: Error(Contract, #6)"
  hostError := some ⟨"Contract", "#6", some 6⟩
  total := 2
  entries := [⟨0, .failedContract, some "C", ["b"], "2"⟩]

theorem parseText_refusedText :
    parseText .lax refusedText { failedOnly := true } = .ok refusedAnswer.toJson :=
  parseText_eq_ok_iff.mpr ⟨_, refusedAnswer, read_refusedText, by decide +kernel, rfl⟩

end Text

end SimTriage
