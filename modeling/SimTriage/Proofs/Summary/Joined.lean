import SimTriage.Proofs.Summary

/-!
Summaries of logs that are put together or come in another order. Counts add up, and behind the
contracts of the first log come those of the second that are new. Another order of the entries
changes no count, and of the contracts only their order.
-/

set_option autoImplicit false

namespace SimTriage.Summary

open Event (Entry Kind)

namespace Tally

/-- Two tallies put together. Contracts that the first has already are not listed again. -/
def join (first second : Tally) : Tally where
  kindCounts kind := first.kindCounts kind + second.kindCounts kind
  failed := first.failed + second.failed
  contractEvents := first.contractEvents + second.contractEvents
  contracts := first.contracts ++ second.contracts.filter (· ∉ first.contracts)

theorem join_empty (tally : Tally) : tally.join empty = tally := by
  simp [join, empty]

theorem contracts_add_of_none (tally : Tally) {entry : Entry} (absent : entry.contract = none) :
    (tally.add entry).contracts = tally.contracts := by
  simp only [add, absent]

theorem contracts_add_of_mem {tally : Tally} {entry : Entry} {contract : Text}
    (present : entry.contract = some contract) (listed : contract ∈ tally.contracts) :
    (tally.add entry).contracts = tally.contracts := by
  simp [add, present, listed]

theorem contracts_add_of_not_mem {tally : Tally} {entry : Entry} {contract : Text}
    (present : entry.contract = some contract) (unlisted : contract ∉ tally.contracts) :
    (tally.add entry).contracts = tally.contracts ++ [contract] := by
  simp [add, present, unlisted]

/-- A contract is listed in two tallies together if one of them lists it. -/
theorem mem_contracts_join {first second : Tally} {contract : Text} :
    contract ∈ (first.join second).contracts ↔
      contract ∈ first.contracts ∨ contract ∈ second.contracts := by
  by_cases own : contract ∈ first.contracts
  · simp [join, own]
  · simp [join, own]

theorem contracts_add_join (first second : Tally) (entry : Entry) :
    ((first.join second).add entry).contracts = (first.join (second.add entry)).contracts := by
  cases present : entry.contract with
  | none =>
      rw [contracts_add_of_none _ present]
      simp only [join, contracts_add_of_none _ present]
  | some contract =>
      by_cases later : contract ∈ second.contracts
      · rw [contracts_add_of_mem present (mem_contracts_join.mpr (Or.inr later))]
        simp only [join, contracts_add_of_mem present later]
      · have added := contracts_add_of_not_mem present later
        by_cases own : contract ∈ first.contracts
        · rw [contracts_add_of_mem present (mem_contracts_join.mpr (Or.inl own))]
          simp [join, added, own]
        · have unlisted : contract ∉ (first.join second).contracts := by
            rw [mem_contracts_join, not_or]
            exact ⟨own, later⟩
          rw [contracts_add_of_not_mem present unlisted]
          simp [join, added, own]

/-- One more entry behind both logs is one more entry of the second. -/
theorem add_join (first second : Tally) (entry : Entry) :
    (first.join second).add entry = first.join (second.add entry) := by
  have kindCounts : ((first.join second).add entry).kindCounts =
      (first.join (second.add entry)).kindCounts := by
    funext kind
    simp only [add, join]
    split <;> omega
  have failed : ((first.join second).add entry).failed =
      (first.join (second.add entry)).failed := by
    simp only [add, join]
    split <;> omega
  have contractEvents : ((first.join second).add entry).contractEvents =
      (first.join (second.add entry)).contractEvents := by
    simp only [add, join]
    split <;> omega
  have equal : ∀ one other : Tally, one.kindCounts = other.kindCounts →
      one.failed = other.failed → one.contractEvents = other.contractEvents →
      one.contracts = other.contracts → one = other := by
    rintro ⟨_, _, _, _⟩ ⟨_, _, _, _⟩ rfl rfl rfl rfl
    rfl
  exact equal _ _ kindCounts failed contractEvents (contracts_add_join first second entry)

theorem foldl_join (first second : Tally) (log : List Entry) :
    log.foldl add (first.join second) = first.join (log.foldl add second) := by
  induction log generalizing second with
  | nil => rfl
  | cons entry log ih => rw [List.foldl_cons, List.foldl_cons, add_join, ih]

theorem ofLog_append (front back : List Entry) :
    ofLog (front ++ back) = (ofLog front).join (ofLog back) := by
  calc ofLog (front ++ back)
      = back.foldl add (ofLog front) := List.foldl_append
    _ = back.foldl add ((ofLog front).join empty) := by rw [join_empty]
    _ = (ofLog front).join (ofLog back) := foldl_join (ofLog front) empty back

end Tally

/-- The number of entries of a kind. -/
def countOf? (summary : Summary) (kind : Kind) : Option Nat := summary.kindCounts.lookup kind

/-- The summary counts what two others count together. It lists the contracts of the first, and
behind them those of the second that the first does not list. -/
structure Joins (whole first second : Summary) : Prop where
  entryCount : whole.entryCount = first.entryCount + second.entryCount
  failedCount : whole.failedCount = first.failedCount + second.failedCount
  contractEventCount :
    whole.contractEventCount = first.contractEventCount + second.contractEventCount
  countOf : ∀ kind, ∃ n m, first.countOf? kind = some n ∧ second.countOf? kind = some m ∧
    whole.countOf? kind = some (n + m)
  contracts : whole.contracts =
    first.contracts ++ second.contracts.filter (· ∉ first.contracts)

/-- Two summaries count the same and list the same contracts, perhaps in another order. -/
structure Matches (one other : Summary) : Prop where
  entryCount : one.entryCount = other.entryCount
  failedCount : one.failedCount = other.failedCount
  contractEventCount : one.contractEventCount = other.contractEventCount
  kindCounts : one.kindCounts = other.kindCounts
  contracts : one.contracts.Perm other.contracts

/-- The summary that goes with a tally of a log. -/
def ofTally (headline : Text) (hostError : Option HostError) (log : List Entry) : Summary where
  headline := headline
  entryCount := log.length
  failedCount := (Tally.ofLog log).failed
  contractEventCount := (Tally.ofLog log).contractEvents
  kindCounts := Kind.all.map fun kind => (kind, (Tally.ofLog log).kindCounts kind)
  contracts := (Tally.ofLog log).contracts
  hostError := hostError

variable {headline : Text} {found : Option HostError} {log other : List Entry}

theorem ofMessage_of_find (isFound : HostError.find headline = .ok found) (log : List Entry) :
    ofMessage ⟨headline, log⟩ = .ok (ofTally headline found log) :=
  ofMessage_eq_ok_iff.mpr ⟨found, isFound, rfl⟩

theorem countOf?_ofTally (kind : Kind) :
    (ofTally headline found log).countOf? kind = some ((Tally.ofLog log).kindCounts kind) := by
  cases kind <;> rfl

theorem joins_ofTally (headline : Text) (found : Option HostError) (front back : List Entry) :
    (ofTally headline found (front ++ back)).Joins (ofTally headline found front)
      (ofTally headline found back) where
  entryCount := List.length_append
  failedCount := congrArg Tally.failed (Tally.ofLog_append front back)
  contractEventCount := congrArg Tally.contractEvents (Tally.ofLog_append front back)
  countOf kind := by
    refine ⟨_, _, countOf?_ofTally kind, countOf?_ofTally kind, ?_⟩
    rw [countOf?_ofTally, Tally.ofLog_append]
    rfl
  contracts := congrArg Tally.contracts (Tally.ofLog_append front back)

/-- What a tally has counted does not depend on the order of the entries. -/
theorem matches_ofTally (headline : Text) (found : Option HostError) (order : other.Perm log) :
    (ofTally headline found other).Matches (ofTally headline found log) := by
  have counts := Tally.counts_ofLog log
  have countsOther := Tally.counts_ofLog other
  have kinds : ∀ kind, (Tally.ofLog other).kindCounts kind = (Tally.ofLog log).kindCounts kind := by
    intro kind
    rw [counts.kinds, countsOther.kinds]
    exact order.countP_eq _
  have listed : ∀ contract,
      contract ∈ (Tally.ofLog other).contracts ↔ contract ∈ (Tally.ofLog log).contracts := by
    intro contract
    rw [counts.contracts.mem, countsOther.contracts.mem]
    simp only [order.mem_iff]
  refine ⟨order.length_eq, ?_, ?_, ?_, ?_⟩
  · show (Tally.ofLog other).failed = (Tally.ofLog log).failed
    rw [counts.failed, countsOther.failed]
    exact order.countP_eq _
  · show (Tally.ofLog other).contractEvents = (Tally.ofLog log).contractEvents
    rw [counts.contractEvents, countsOther.contractEvents]
    exact order.countP_eq _
  · simp only [ofTally, kinds]
  · exact (List.perm_ext_iff_of_nodup countsOther.contracts.nodup counts.contracts.nodup).mpr listed

/-- Where the host error can be read, every log under the headline has a summary. Its headline and
host error are always the same; for two logs in a row it adds up what it is for each, and for
another order of the entries it counts the same. -/
theorem ofMessage_joined (isFound : HostError.find headline = .ok found) :
    (∀ log, ∃ summary, ofMessage ⟨headline, log⟩ = .ok summary ∧
      summary.headline = headline ∧ summary.hostError = found) ∧
    (∀ front back, ∃ first second whole, ofMessage ⟨headline, front⟩ = .ok first ∧
      ofMessage ⟨headline, back⟩ = .ok second ∧
      ofMessage ⟨headline, front ++ back⟩ = .ok whole ∧ whole.Joins first second) ∧
    ∀ log other, other.Perm log → ∃ one two, ofMessage ⟨headline, log⟩ = .ok one ∧
      ofMessage ⟨headline, other⟩ = .ok two ∧ two.Matches one := by
  have summarised := ofMessage_of_find isFound
  refine ⟨fun log => ⟨_, summarised log, rfl, rfl⟩, fun front back => ?_, fun log other order => ?_⟩
  · exact ⟨_, _, _, summarised front, summarised back, summarised (front ++ back),
      joins_ofTally headline found front back⟩
  · exact ⟨_, _, summarised log, summarised other, matches_ofTally headline found order⟩

/-- An entry of a contract that the other log has too, and one of a new contract. -/
def laterLog : List Entry :=
  [⟨5, .contract, some "A", [], "5"⟩, ⟨4, .diagnostic, some "C", [], "6"⟩]

theorem ofMessage_joined_repeated :
    HostError.find "down" = .ok none ∧ laterLog.reverse.Perm laterLog ∧
    (∃ first second whole, ofMessage ⟨"down", repeatedLog⟩ = .ok first ∧
      ofMessage ⟨"down", laterLog⟩ = .ok second ∧
      ofMessage ⟨"down", repeatedLog ++ laterLog⟩ = .ok whole ∧ whole.Joins first second ∧
      first.contracts = ["B", "A"] ∧ whole.contracts = ["B", "A", "C"]) ∧
    ∃ one two, ofMessage ⟨"down", laterLog⟩ = .ok one ∧
      ofMessage ⟨"down", laterLog.reverse⟩ = .ok two ∧ two.Matches one ∧
      one.contracts = ["A", "C"] ∧ two.contracts = ["C", "A"] := by
  have isFound : HostError.find "down" = .ok none := by decide
  have order : laterLog.reverse.Perm laterLog := List.reverse_perm _
  obtain ⟨-, joined, ordered⟩ := ofMessage_joined isFound
  refine ⟨isFound, order, ?_, ?_⟩
  · obtain ⟨first, second, whole, ofFront, ofBack, ofWhole, joins⟩ := joined repeatedLog laterLog
    refine ⟨first, second, whole, ofFront, ofBack, ofWhole, joins, ?_, ?_⟩
    · cases (ofMessage_of_find isFound repeatedLog).symm.trans ofFront
      rfl
    · cases (ofMessage_of_find isFound (repeatedLog ++ laterLog)).symm.trans ofWhole
      rfl
  · obtain ⟨one, two, ofLog, ofReverse, same⟩ := ordered laterLog laterLog.reverse order
    refine ⟨one, two, ofLog, ofReverse, same, ?_, ?_⟩
    · cases (ofMessage_of_find isFound laterLog).symm.trans ofLog
      rfl
    · cases (ofMessage_of_find isFound laterLog.reverse).symm.trans ofReverse
      rfl

end SimTriage.Summary
