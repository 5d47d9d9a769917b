import Mathlib.Algebra.GroupWithZero.Nat
import SimTriage.Proofs.Published

/-!
What a summary tells of a log. Its counts are the numbers of entries that filters select, and its
contracts are those that a filter finds, each at its first entry. Of a text, the summary and the
answer to a query tell the same.
-/

set_option autoImplicit false

namespace SimTriage

open Event (Entry Kind)

/-- So many entries of the log pass the filter. -/
def Filter.Counts (f : Filter) (log : List Entry) (count : Nat) : Prop :=
  ∃ selected, f.apply log = .ok selected ∧ count = selected.length

namespace Filter

variable {f : Filter} {log : List Entry} {count : Nat}

theorem counts_iff (unlimited : f.limit = none) :
    f.Counts log count ↔ count = log.countP (f.Selects ·) := by
  rw [Counts, apply_of_unlimited unlimited, List.countP_eq_length_filter]
  constructor
  · rintro ⟨selected, same, rfl⟩
    rw [Except.ok.inj same]
  · exact fun same => ⟨_, rfl, same⟩

theorem selects_kinds_iff {kinds : List Kind} {entry : Entry} :
    Selects { kinds := some kinds } entry ↔ entry.kind ∈ kinds := by
  constructor
  · exact fun selects => selects.kind kinds rfl
  · exact fun member => ⟨by simpa using member, by simp, by simp, by simp⟩

theorem selects_failedOnly_iff {entry : Entry} :
    Selects { failedOnly := true } entry ↔ entry.kind.isFailed = true := by
  constructor
  · exact fun selects => selects.failed rfl
  · exact fun failed => ⟨by simp, fun _ => failed, by simp, by simp⟩

theorem selects_contract_iff {contract : Text} {entry : Entry} :
    Selects { contract := some contract } entry ↔ entry.contract = some contract := by
  constructor
  · exact fun selects => selects.contract contract rfl
  · exact fun same => ⟨by simp, by simp, by simpa using same, by simp⟩

end Filter

namespace Summary

/-- Where in the log the contract has its first entry. -/
def firstOf (log : List Entry) (contract : Text) : Nat :=
  log.findIdx fun entry => entry.contract = some contract

/-- The contracts are those of a log, in the order of their first entries. -/
structure Lists (contracts : List Text) (log : List Entry) : Prop where
  nodup : contracts.Nodup
  mem : ∀ contract, contract ∈ contracts ↔ ∃ entry ∈ log, entry.contract = some contract
  order : contracts.Pairwise fun one other => firstOf log one < firstOf log other

namespace Lists

variable {contracts : List Text} {log : List Entry} {entry : Entry} {contract : Text}

theorem firstOf_lt_iff :
    firstOf log contract < log.length ↔ ∃ entry ∈ log, entry.contract = some contract := by
  simp only [firstOf, List.findIdx_lt_length, decide_eq_true_eq]

theorem firstOf_append (logged : firstOf log contract < log.length) (later : List Entry) :
    firstOf (log ++ later) contract = firstOf log contract := by
  unfold firstOf at logged ⊢
  rw [List.findIdx_append, if_pos logged]

theorem firstOf_append_of_not_lt (unlogged : ¬ firstOf log contract < log.length)
    (later : List Entry) :
    firstOf (log ++ later) contract = firstOf later contract + log.length := by
  unfold firstOf at unlogged ⊢
  rw [List.findIdx_append, if_neg unlogged]

theorem firstOf_lt (lists : Lists contracts log) (member : contract ∈ contracts) :
    firstOf log contract < log.length := firstOf_lt_iff.mpr ((lists.mem contract).mp member)

/-- What comes behind a log leaves the order of its contracts as it is. -/
theorem order_append (lists : Lists contracts log) (later : List Entry) :
    contracts.Pairwise fun one other =>
      firstOf (log ++ later) one < firstOf (log ++ later) other := by
  refine lists.order.imp_of_mem fun {one other} memberOne memberOther before => ?_
  rw [firstOf_append (lists.firstOf_lt memberOne), firstOf_append (lists.firstOf_lt memberOther)]
  exact before

/-- An entry of a listed contract, or of none, adds nothing. -/
theorem keep (lists : Lists contracts log)
    (listed : ∀ contract, entry.contract = some contract → contract ∈ contracts) :
    Lists contracts (log ++ [entry]) := by
  refine ⟨lists.nodup, fun contract => ?_, lists.order_append [entry]⟩
  rw [lists.mem contract]
  constructor
  · rintro ⟨e, logged, same⟩
    exact ⟨e, List.mem_append_left _ logged, same⟩
  · rintro ⟨e, logged, same⟩
    rcases List.mem_append.mp logged with logged | last
    · exact ⟨e, logged, same⟩
    · cases List.mem_singleton.mp last
      exact (lists.mem contract).mp (listed contract same)

/-- A contract that is not listed comes behind all others. -/
theorem snoc (lists : Lists contracts log) (present : entry.contract = some contract)
    (unlisted : contract ∉ contracts) : Lists (contracts ++ [contract]) (log ++ [entry]) := by
  have absent : ¬ firstOf log contract < log.length := fun logged =>
    unlisted ((lists.mem contract).mpr (firstOf_lt_iff.mp logged))
  have first : firstOf [entry] contract = 0 := by simp [firstOf, present]
  have last : firstOf (log ++ [entry]) contract = log.length := by
    rw [firstOf_append_of_not_lt absent, first, Nat.zero_add]
  refine ⟨?_, fun other => ?_, ?_⟩
  · rw [List.nodup_append]
    refine ⟨lists.nodup, List.pairwise_singleton _ _, ?_⟩
    rintro one member other added rfl
    exact unlisted (List.mem_singleton.mp added ▸ member)
  · rw [List.mem_append, List.mem_singleton, lists.mem other]
    constructor
    · rintro (⟨e, logged, same⟩ | rfl)
      · exact ⟨e, List.mem_append_left _ logged, same⟩
      · exact ⟨entry, List.mem_append_right _ List.mem_cons_self, present⟩
    · rintro ⟨e, logged, same⟩
      rcases List.mem_append.mp logged with logged | last
      · exact Or.inl ⟨e, logged, same⟩
      · cases List.mem_singleton.mp last
        exact Or.inr (Option.some.inj (same.symm.trans present))
  · rw [List.pairwise_append]
    refine ⟨lists.order_append [entry], List.pairwise_singleton _ _, ?_⟩
    intro one member other added
    rw [List.mem_singleton.mp added, last, firstOf_append (lists.firstOf_lt member)]
    exact lists.firstOf_lt member

end Lists

namespace Tally

variable {tally : Tally} {log : List Entry}

/-- What has been counted is what there is in the log. -/
structure Counts (tally : Tally) (log : List Entry) : Prop where
  kinds : ∀ kind, tally.kindCounts kind = log.countP (·.kind = kind)
  failed : tally.failed = log.countP (·.kind.isFailed)
  contractEvents : tally.contractEvents = log.countP (·.kind.isContract)
  contracts : Lists tally.contracts log

theorem counts_empty : empty.Counts [] where
  kinds _ := rfl
  failed := rfl
  contractEvents := rfl
  contracts := ⟨List.nodup_nil, by simp [empty], List.Pairwise.nil⟩

theorem lists_add (lists : Lists tally.contracts log) (entry : Entry) :
    Lists (tally.add entry).contracts (log ++ [entry]) := by
  unfold add
  cases present : entry.contract with
  | none => exact lists.keep (by simp [present])
  | some contract =>
      by_cases listed : contract ∈ tally.contracts
      · simp only [List.contains_iff_mem.mpr listed, if_true]
        refine lists.keep fun other same => ?_
        rw [← Option.some.inj (present.symm.trans same)]
        exact listed
      · have unlisted : tally.contracts.contains contract = false := by simpa using listed
        simp only [unlisted, Bool.false_eq_true, if_false]
        exact lists.snoc present listed

/-- One more entry in the log is one more entry counted. -/
theorem Counts.add (counts : tally.Counts log) (entry : Entry) :
    (tally.add entry).Counts (log ++ [entry]) where
  kinds kind := by
    have before := counts.kinds kind
    by_cases own : kind = entry.kind
    · subst own
      simp [Tally.add, before]
    · simp [Tally.add, before, own, Ne.symm own]
  failed := by
    simp only [Tally.add, counts.failed, List.countP_append, List.countP_singleton]
    cases entry.kind.isFailed <;> rfl
  contractEvents := by
    simp only [Tally.add, counts.contractEvents, List.countP_append, List.countP_singleton]
    cases entry.kind.isContract <;> rfl
  contracts := lists_add counts.contracts entry

theorem Counts.foldl (counts : tally.Counts log) (later : List Entry) :
    (later.foldl Tally.add tally).Counts (log ++ later) := by
  -- on the entries still to come, with those counted so far as the log
  induction later generalizing tally log with
  | nil => rwa [List.append_nil]
  | cons entry later ih =>
      rw [← List.singleton_append, ← List.append_assoc]
      exact ih (counts.add entry)

theorem counts_ofLog (log : List Entry) : (ofLog log).Counts log := counts_empty.foldl log

end Tally

/-- Every entry is of one of the kinds. -/
theorem sum_countP_kind (log : List Entry) :
    (Kind.all.map fun kind => log.countP (·.kind = kind)).sum = log.length := by
  induction log with
  | nil => rfl
  | cons entry log ih =>
      rw [List.length_cons, ← ih]
      cases own : entry.kind <;> simp [Kind.all, own] <;> omega

theorem countP_isFailed (log : List Entry) :
    log.countP (·.kind.isFailed) =
      log.countP (·.kind = .failedDiagnostic) + log.countP (·.kind = .failedContract) := by
  induction log with
  | nil => rfl
  | cons entry log ih =>
      simp only [List.countP_cons, ih]
      cases own : entry.kind <;> simp [Kind.isFailed] <;> omega

/-- The summary tells of the log what filters select from it. -/
structure Tells (summary : Summary) (log : List Entry) : Prop where
  kinds : summary.kindCounts.map Prod.fst = Kind.all
  kindCounts : ∀ kind count, (kind, count) ∈ summary.kindCounts →
    Filter.Counts { kinds := some [kind] } log count
  total : (summary.kindCounts.map Prod.snd).sum = summary.entryCount
  entryCount : summary.entryCount = log.length
  failed : Filter.Counts { failedOnly := true } log summary.failedCount
  failedKinds : ∃ diagnostics contracts, (.failedDiagnostic, diagnostics) ∈ summary.kindCounts ∧
    (.failedContract, contracts) ∈ summary.kindCounts ∧
    summary.failedCount = diagnostics + contracts
  contractEvents :
    Filter.Counts { kinds := some [.contract, .failedContract] } log summary.contractEventCount
  nodup : summary.contracts.Nodup
  contracts : ∀ contract, contract ∈ summary.contracts ↔
    ∃ entry selected, Filter.apply { contract := some contract } log = .ok (entry :: selected)
  order : summary.contracts.Pairwise fun one other => firstOf log one < firstOf log other

/-- The summary that a tally comes to. -/
theorem ofMessage_eq_ok_iff {message : Message} {summary : Summary} :
    ofMessage message = .ok summary ↔
      ∃ found, HostError.find message.headline = .ok found ∧
        summary = {
          headline := message.headline
          entryCount := message.log.length
          failedCount := (Tally.ofLog message.log).failed
          contractEventCount := (Tally.ofLog message.log).contractEvents
          kindCounts := Kind.all.map fun kind => (kind, (Tally.ofLog message.log).kindCounts kind)
          contracts := (Tally.ofLog message.log).contracts
          hostError := found } := by
  rw [ofMessage, bind_eq_ok_iff]
  refine exists_congr fun found => and_congr_right fun _ => ?_
  exact ⟨fun same => (Except.ok.inj same).symm, fun same => congrArg _ same.symm⟩

/-- A filter for the contract finds its first entry exactly if the contract has one. -/
theorem finds_contract_iff {log : List Entry} {contract : Text} :
    (∃ entry selected, Filter.apply { contract := some contract } log = .ok (entry :: selected)) ↔
      ∃ entry ∈ log, entry.contract = some contract := by
  rw [Filter.apply_of_unlimited rfl]
  simp only [Except.ok.injEq, Filter.selects_contract_iff]
  constructor
  · rintro ⟨entry, selected, same⟩
    have member : entry ∈ log.filter fun e => e.contract = some contract := by
      rw [same]
      exact List.mem_cons_self
    exact ⟨entry, List.mem_of_mem_filter member, by simpa using List.of_mem_filter member⟩
  · rintro ⟨entry, logged, same⟩
    have member : entry ∈ log.filter fun e => e.contract = some contract :=
      List.mem_filter.mpr ⟨logged, by simpa using same⟩
    exact List.exists_cons_of_ne_nil (List.ne_nil_of_mem member)

theorem tells_of_ofMessage {message : Message} {summary : Summary}
    (counted : ofMessage message = .ok summary) : summary.Tells message.log := by
  obtain ⟨found, -, same⟩ := ofMessage_eq_ok_iff.mp counted
  have counts := Tally.counts_ofLog message.log
  have numbers : summary.kindCounts =
      Kind.all.map fun kind => (kind, message.log.countP (·.kind = kind)) := by
    rw [same]
    simp only [counts.kinds]
  have failed : summary.failedCount = message.log.countP (·.kind.isFailed) := by
    rw [same]
    exact counts.failed
  have contractEvents : summary.contractEventCount = message.log.countP (·.kind.isContract) := by
    rw [same]
    exact counts.contractEvents
  have lists : Lists summary.contracts message.log := by
    rw [same]
    exact counts.contracts
  have length : summary.entryCount = message.log.length := by rw [same]
  refine ⟨?_, fun kind count listed => ?_, ?_, length, ?_, ?_, ?_, lists.nodup,
    fun contract => ?_, lists.order⟩
  · rw [numbers]
    rfl
  · rw [numbers] at listed
    obtain ⟨_, -, pair⟩ := List.mem_map.mp listed
    cases pair
    rw [Filter.counts_iff rfl]
    simp only [Filter.selects_kinds_iff, List.mem_singleton]
  · rw [numbers, List.map_map, length, ← sum_countP_kind]
    rfl
  · rw [Filter.counts_iff rfl, failed]
    simp only [Filter.selects_failedOnly_iff, Bool.decide_eq_true]
  · rw [numbers, failed, countP_isFailed]
    exact ⟨_, _, List.mem_map_of_mem (Kind.mem_all _), List.mem_map_of_mem (Kind.mem_all _), rfl⟩
  · rw [Filter.counts_iff rfl, contractEvents]
    refine List.countP_congr fun entry _ => ?_
    rw [decide_eq_true_iff, Filter.selects_kinds_iff]
    cases entry.kind <;> simp [Kind.isContract]
  · rw [lists.mem contract, finds_contract_iff]

end Summary

section Text

variable {validator : Schema.Validator} {text : Text} {message : Message} {found : Option HostError}
  {limit : Option Int}

theorem exists_ofMessage (isFound : HostError.find message.headline = .ok found) :
    ∃ summary, Summary.ofMessage message = .ok summary ∧ summary.headline = message.headline ∧
      summary.hostError = found ∧ summary.Tells message.log := by
  have counted := Summary.ofMessage_eq_ok_iff.mpr ⟨found, isFound, rfl⟩
  exact ⟨_, counted, rfl, rfl, Summary.tells_of_ofMessage counted⟩

theorem summarizeText_of_unreadable {fault : Text.OverlongNumeral}
    (accepted : Message.read text = .ok message)
    (unreadable : HostError.find message.headline = .error fault) :
    summarizeText validator text = .error (.overlongNumeral fault) := by
  have uncounted : Summary.ofMessage message = .error fault := by
    rw [Summary.ofMessage, unreadable]
    rfl
  rw [summarizeText, bind_eq_error_iff]
  refine Or.inr ⟨message, liftM_eq_ok_iff.mpr accepted, bind_eq_error_iff.mpr (Or.inl ?_)⟩
  exact liftM_eq_error_iff.mpr ⟨fault, uncounted, rfl⟩

theorem selects_failedOnly_iff {entry : Entry} :
    Query.Selects { failedOnly := true, limit } entry ↔ entry.kind.isFailed = true := by
  constructor
  · exact fun selects => selects.failed rfl
  · exact fun failed => ⟨by simp [Query.names], fun _ => failed, by simp, by simp⟩

/-- The answer to a query that names no kinds. -/
theorem parseText_of_unnamed {query : Query} (unnamed : query.kindNames = none)
    (positive : query.HasPositiveLimit) (accepted : Message.read text = .ok message)
    (isFound : HostError.find message.headline = .ok found) :
    parseText validator text query = .ok (Answer.toJson ⟨message.headline, found, message.log.length,
      (message.log.filter (query.Selects ·)).take query.bound⟩) := by
  have known : query.NamesKinds := by simp [Query.NamesKinds, Query.names, unnamed]
  refine parseText_eq_ok_iff.mpr ⟨message, _, accepted, ?_, rfl⟩
  exact Query.answer_eq_ok_iff.mpr ⟨known, positive, isFound, rfl⟩

/-- Of failed entries alone, an answer has as many as the log has, up to its limit. -/
theorem parseText_failedOnly {bound : Int} (resolved : Query.resolveLimit limit = .ok bound)
    (accepted : Message.read text = .ok message)
    (isFound : HostError.find message.headline = .ok found) :
    ∃ narrowed, parseText validator text { failedOnly := true, limit } = .ok narrowed ∧
      narrowed.member? "count" =
        some (.integer (min (message.log.countP (·.kind.isFailed)) bound)) := by
  have selects : ∀ entry, Query.Selects { failedOnly := true, limit } entry ↔
      entry.kind.isFailed = true := fun _ => selects_failedOnly_iff
  have unnamed : Query.kindNames { failedOnly := true, limit } = none := rfl
  have limited : Query.limit { failedOnly := true, limit } = limit := rfl
  generalize ({ failedOnly := true, limit } : Query) = query at selects unnamed limited ⊢
  rw [← limited] at resolved
  obtain ⟨positive, rfl⟩ := Query.resolveLimit_eq_ok_iff.mp resolved
  have length : ((message.log.filter (query.Selects ·)).take query.bound).length =
      min query.bound (message.log.countP (·.kind.isFailed)) := by
    simp only [List.length_take, ← List.countP_eq_length_filter, selects, Bool.decide_eq_true]
  have member : ∀ answer : Answer, answer.toJson.member? "count" =
      some (.integer answer.entries.length) := fun _ => rfl
  refine ⟨_, parseText_of_unnamed unnamed positive accepted isFound, ?_⟩
  rw [member, length, Option.some.injEq, Json.integer.injEq]
  omega

/-- What a summary and an answer both tell of a text, by the names under which they tell it. -/
def sharedNames : List (Text × Text) :=
  [("main_error", "main_error"), ("host_error", "host_error"), ("entry_count", "total")]

/-- A summary that is given out tells what the answer tells, and how many failed entries an answer
can have. -/
structure Told (validator : Schema.Validator) (text : Text) (told answer : Json) : Prop where
  shared : ∀ names ∈ sharedNames, ∃ value,
    told.member? names.1 = some value ∧ answer.member? names.2 = some value
  failed : ∃ failed : Nat, told.member? "failed_count" = some (.integer failed) ∧
    ∀ limit bound, Query.resolveLimit limit = .ok bound →
      ∃ narrowed, parseText validator text { failedOnly := true, limit } = .ok narrowed ∧
        narrowed.member? "count" = some (.integer (min failed bound))

/-- Wherever the host error can be read, the summary of a message tells what filters select from its
log. Of a text, the summary fails for the reason for which an answer fails, or it tells the same. -/
theorem summary_outcome (validator : Schema.Validator) :
    (∀ message found, HostError.find message.headline = .ok found →
      ∃ summary, Summary.ofMessage message = .ok summary ∧ summary.headline = message.headline ∧
        summary.hostError = found ∧ summary.Tells message.log) ∧
    ∀ text,
      (∃ failure, summarizeText validator text = .error failure ∧
        parseText validator text {} = .error failure) ∨
      ∃ told answer, summarizeText validator text = .ok told ∧
        parseText validator text {} = .ok answer ∧ Told validator text told answer := by
  refine ⟨fun message found => exists_ofMessage, fun text => ?_⟩
  cases accepted : Message.read text with
  | error fault =>
      refine Or.inl ⟨.overlongNumeral fault, ?_, ?_⟩
      · rw [summarizeText, accepted]
        rfl
      · exact parseText_eq_error_iff.mpr (Or.inl ⟨fault, accepted, rfl⟩)
  | ok message =>
      cases isFound : HostError.find message.headline with
      | error fault =>
          refine Or.inl ⟨.overlongNumeral fault, ?_, ?_⟩
          · exact summarizeText_of_unreadable accepted isFound
          · obtain ⟨digits, overlong, rfl⟩ := HostError.find_eq_error_iff.mp isFound
            refine parseText_eq_error_iff.mpr (Or.inr ⟨message, accepted, ?_⟩)
            have known : Query.NamesKinds {} := by simp [Query.NamesKinds, Query.names]
            have positive : Query.HasPositiveLimit {} := by simp [Query.HasPositiveLimit]
            exact Query.answer_eq_error_iff.mpr (Or.inr ⟨known, positive, digits, overlong, rfl⟩)
      | ok found =>
          obtain ⟨summary, counted, headline, hostError, tells⟩ := exists_ofMessage isFound
          have told : summarizeText validator text = .ok summary.toJson :=
            summarizeText_eq_ok_iff.mpr ⟨message, summary, accepted, counted, rfl⟩
          have positive : Query.HasPositiveLimit {} := by simp [Query.HasPositiveLimit]
          have answered : parseText validator text {} = _ :=
            parseText_of_unnamed rfl positive accepted isFound
          have failed : summary.failedCount = message.log.countP (·.kind.isFailed) := by
            have counts := (Filter.counts_iff rfl).mp tells.failed
            simpa only [Filter.selects_failedOnly_iff, Bool.decide_eq_true] using counts
          refine Or.inr ⟨_, _, told, answered, ?_, summary.failedCount, rfl, ?_⟩
          · have length : summary.entryCount = message.log.length := tells.entryCount
            intro names listed
            simp only [sharedNames, List.mem_cons, List.not_mem_nil, or_false] at listed
            rcases listed with rfl | rfl | rfl
            · exact ⟨_, rfl, by rw [headline]; rfl⟩
            · exact ⟨_, rfl, by rw [hostError]; rfl⟩
            · exact ⟨_, rfl, by rw [length]; rfl⟩
          · intro limit bound resolved
            rw [failed]
            exact parseText_failedOnly resolved accepted isFound

/-- One contract twice, another once, and an entry of none. -/
def repeatedLog : List Entry :=
  [⟨3, .contract, some "B", [], "1"⟩, ⟨2, .failedDiagnostic, none, [], "2"⟩,
   ⟨1, .failedContract, some "A", [], "3"⟩, ⟨0, .contract, some "B", [], "4"⟩]

/-- The summary of that log, and what is told of a text with a contract's error. -/
theorem summary_outcome_repeated :
    HostError.find "down" = .ok none ∧
      (∃ summary, Summary.ofMessage ⟨"down", repeatedLog⟩ = .ok summary ∧
        summary.contracts = ["B", "A"] ∧ summary.failedCount = 2 ∧ summary.Tells repeatedLog) ∧
      ∃ told answer, summarizeText .lax refusedText = .ok told ∧
        parseText .lax refusedText {} = .ok answer ∧ Told .lax refusedText told answer := by
  have isFound : HostError.find "down" = .ok none := by decide +kernel
  obtain ⟨tellsOf, agree⟩ := summary_outcome .lax
  obtain ⟨summary, counted, -, -, tells⟩ := tellsOf ⟨"down", repeatedLog⟩ none isFound
  obtain ⟨found, -, same⟩ := Summary.ofMessage_eq_ok_iff.mp counted
  refine ⟨isFound, ⟨summary, counted, ?_, ?_, tells⟩, ?_⟩
  · rw [same]
    rfl
  · rw [same]
    rfl
  · rcases agree refusedText with ⟨failure, -, failed⟩ | told
    · obtain ⟨answer, answered⟩ : ∃ answer, parseText .lax refusedText {} = .ok answer :=
        ⟨_, parseText_eq_ok_iff.mpr ⟨_, _, read_refusedText, rfl, rfl⟩⟩
      cases failed.symm.trans answered
    · exact told

end Text

end SimTriage
