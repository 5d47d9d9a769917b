import Mathlib.Data.List.Infix
import SimTriage.Filter

/-!
What filters select. A filter keeps the first entries that pass, up to its limit, in the order of
the log.
-/

set_option autoImplicit false

namespace SimTriage

open Event (Entry Kind)

theorem Text.includes_iff {part text : Text} : Text.includes part text = true ↔ part <:+: text := by
  induction text with
  | nil => simp [Text.includes]
  | cons c text ih =>
      rw [Text.includes, Bool.or_eq_true, List.isPrefixOf_iff_prefix, ih, List.infix_cons_iff]

namespace Filter

variable {f : Filter} {entry : Entry}

/-- What it takes for an entry to pass. -/
structure Selects (f : Filter) (entry : Entry) : Prop where
  kind : ∀ kinds ∈ f.kinds, entry.kind ∈ kinds
  failed : f.failedOnly = true → entry.kind.isFailed = true
  contract : ∀ contract ∈ f.contract, entry.contract = some contract
  part : ∀ part ∈ f.part, part <:+: entry.data ∨ ∃ topic ∈ entry.topics, part <:+: topic

theorem acceptsKind_iff : f.acceptsKind entry = true ↔ ∀ kinds ∈ f.kinds, entry.kind ∈ kinds := by
  unfold acceptsKind
  cases f.kinds <;> simp

theorem acceptsContract_iff :
    f.acceptsContract entry = true ↔ ∀ contract ∈ f.contract, entry.contract = some contract := by
  unfold acceptsContract
  cases f.contract <;> simp

theorem acceptsPart_iff :
    f.acceptsPart entry = true ↔
      ∀ part ∈ f.part, part <:+: entry.data ∨ ∃ topic ∈ entry.topics, part <:+: topic := by
  unfold acceptsPart
  cases f.part <;> simp [Text.includes_iff]

theorem accepts_iff : f.accepts entry = true ↔ f.Selects entry := by
  rw [accepts, Bool.and_eq_true, Bool.and_eq_true, Bool.and_eq_true, acceptsKind_iff,
    acceptsContract_iff, acceptsPart_iff]
  have failed : (!f.failedOnly || entry.kind.isFailed) = true ↔
      (f.failedOnly = true → entry.kind.isFailed = true) := by
    cases f.failedOnly <;> simp
  rw [failed]
  constructor
  · intro checks
    obtain ⟨⟨⟨kind, failed⟩, contract⟩, part⟩ := checks
    exact ⟨kind, failed, contract, part⟩
  · exact fun selects => ⟨⟨⟨selects.kind, selects.failed⟩, selects.contract⟩, selects.part⟩

instance (f : Filter) : DecidablePred f.Selects := fun _ => decidable_of_iff _ accepts_iff

/-- The entries in front of the limit, if there is one. -/
def upTo (limit : Option Int) (entries : List Entry) : List Entry :=
  match limit with
  | none => entries
  | some limit => entries.take limit.toNat

theorem upTo_of_room {limit : Option Int} {found : List Entry}
    (room : ∀ most ∈ limit, (found.length : Int) ≤ most) : upTo limit found = found := by
  cases limit with
  | none => rfl
  | some most =>
      have enough := room most rfl
      exact List.take_of_length_le (by omega)

/-- Up to a limit that has just been reached, what comes behind does not matter. -/
theorem upTo_append_of_full {limit : Int} {found : List Entry} (full : limit = found.length)
    (rest : List Entry) : upTo (some limit) (found ++ rest) = found := by
  rw [full, upTo, Int.toNat_natCast, List.take_left]

/-- As long as there is room for one more entry, going on finds the first ones that pass. -/
theorem toList_gather {found : Array Entry} (room : ∀ limit ∈ f.limit, (found.size : Int) < limit)
    (entries : List Entry) :
    (f.gather found entries).toList =
      upTo f.limit (found.toList ++ entries.filter (f.Selects ·)) := by
  induction entries generalizing found with
  | nil =>
      rw [gather, List.filter_nil, List.append_nil, upTo_of_room]
      exact fun limit given => Int.le_of_lt (room limit given)
  | cons entry entries ih =>
      by_cases selects : f.Selects entry
      · rw [gather, if_pos (accepts_iff.mpr selects),
          List.filter_cons_of_pos (by simpa using selects), List.append_cons, ← Array.toList_push]
        dsimp only
        cases given : f.limit with
        | none =>
            rw [if_neg (by simp [isFull, given]), ih (by simp [given]), given]
        | some limit =>
            have before := room limit given
            by_cases full : limit ≤ (found.push entry).size
            · have reached : limit = (found.push entry).toList.length := by
                rw [Array.size_push] at full
                rw [Array.length_toList, Array.size_push]
                omega
              rw [if_pos (by simpa [isFull, given] using full), upTo_append_of_full reached]
            · rw [if_neg (by simpa [isFull, given] using full), ih, given]
              intro other same
              rw [given] at same
              cases same
              exact Int.not_le.mp full
      · rw [gather, if_neg (mt accepts_iff.mp selects),
          List.filter_cons_of_neg (by simpa using selects), ih room]

/-- Where there is no kind to be of, no entry passes. -/
theorem filter_of_noKinds (noKinds : f.kinds = some []) (entries : List Entry) :
    entries.filter (f.Selects ·) = [] := by
  rw [List.filter_eq_nil_iff]
  intro entry _ selects
  exact absurd ((of_decide_eq_true selects).kind [] noKinds) List.not_mem_nil

/-- What a filter with a positive limit, or without one, lets through. -/
theorem apply_eq_upTo (positive : ∀ limit ∈ f.limit, 0 < limit) (entries : List Entry) :
    f.apply entries = .ok (upTo f.limit (entries.filter (f.Selects ·))) := by
  have allowed : f.limit.any (· ≤ 0) = false := by
    cases given : f.limit with
    | none => rfl
    | some limit => simpa using positive limit given
  unfold apply
  rw [if_neg (Bool.eq_false_iff.mp allowed)]
  split
  · rename_i noKinds
    rw [filter_of_noKinds noKinds, upTo_of_room]
    exact fun limit given => Int.le_of_lt (positive limit given)
  · rw [toList_gather positive, List.nil_append]

theorem exists_apply (positive : ∀ limit ∈ f.limit, 0 < limit) (entries : List Entry) :
    ∃ selected, f.apply entries = .ok selected := ⟨_, apply_eq_upTo positive entries⟩

/-- With a limit, the first entries that pass come out. -/
theorem apply_of_limit {limit : Int} (given : f.limit = some limit) (positive : 0 < limit)
    (entries : List Entry) :
    f.apply entries = .ok ((entries.filter (f.Selects ·)).take limit.toNat) := by
  rw [apply_eq_upTo, given]
  · rfl
  · rw [given]
    rintro _ ⟨⟩
    exact positive

/-- Without a limit, all entries that pass come out. -/
theorem apply_of_unlimited (unlimited : f.limit = none) (log : List Entry) :
    f.apply log = .ok (log.filter (f.Selects ·)) := by
  rw [apply_eq_upTo, unlimited]
  · rfl
  · rw [unlimited]
    nofun

/-- A limit that is not positive is the only failure, whatever the entries are. -/
theorem apply_eq_error_iff {failure : Failure} {entries : List Entry} :
    f.apply entries = .error failure ↔
      failure = .limitNotPositive ∧ ∃ limit ∈ f.limit, limit ≤ 0 := by
  by_cases low : ∃ limit ∈ f.limit, limit ≤ 0
  · have refused : f.limit.any (· ≤ 0) = true := by simpa [Option.any_eq_true] using low
    rw [apply, if_pos refused, Except.error.injEq, and_iff_left low, eq_comm]
  · have positive : ∀ limit ∈ f.limit, 0 < limit :=
      fun limit given => Int.not_le.mp fun few => low ⟨limit, given, few⟩
    rw [apply_eq_upTo positive]
    exact ⟨nofun, fun both => absurd both.2 low⟩

theorem upTo_sublist (limit : Option Int) (entries : List Entry) :
    (upTo limit entries).Sublist entries := by
  cases limit with
  | none => exact List.Sublist.refl _
  | some limit => exact List.take_sublist _ _

theorem apply_eq_ok_iff {entries selected : List Entry} :
    f.apply entries = .ok selected ↔
      (∀ limit ∈ f.limit, 0 < limit) ∧ selected = upTo f.limit (entries.filter (f.Selects ·)) := by
  constructor
  · intro applied
    have positive : ∀ limit ∈ f.limit, 0 < limit := by
      intro limit given
      by_contra low
      cases applied.symm.trans (apply_eq_error_iff.mpr ⟨rfl, limit, given, Int.not_lt.mp low⟩)
    rw [apply_eq_upTo positive] at applied
    exact ⟨positive, (Except.ok.inj applied).symm⟩
  · intro passes
    obtain ⟨positive, rfl⟩ := passes
    exact apply_eq_upTo positive entries

/-- What comes out has been in the log and passes. -/
theorem sublist_of_apply {entries selected : List Entry}
    (applied : f.apply entries = .ok selected) :
    selected.Sublist (entries.filter (f.Selects ·)) := by
  rw [(apply_eq_ok_iff.mp applied).2]
  exact upTo_sublist _ _

/-- The limit has no part in what it takes to pass. -/
theorem selects_limit_iff (limit : Option Int) :
    Selects { f with limit } entry ↔ f.Selects entry := by
  constructor
  · exact fun selects => ⟨selects.kind, selects.failed, selects.contract, selects.part⟩
  · exact fun selects => ⟨selects.kind, selects.failed, selects.contract, selects.part⟩

theorem upTo_prefix_of_le {limit : Option Int} {low : Int} (higher : ∀ high ∈ limit, low ≤ high)
    (entries : List Entry) : upTo (some low) entries <+: upTo limit entries := by
  cases limit with
  | none => exact List.take_prefix _ _
  | some high =>
      have below : low.toNat ≤ high.toNat := Int.toNat_le_toNat (higher high rfl)
      exact List.take_prefix_take_left below

/-- The label of a failed event says that it was not emitted. -/
theorem isFailed_iff_label (kind : Kind) :
    kind.isFailed = true ↔ ("(not emitted)" : Text) <:+ kind.label := by
  cases kind <;> decide

/-- A filter fails for its limit alone, and else lets through the first entries, up to that limit,
that meet each of its conditions, in order. A choice of no kinds lets nothing through, and a higher
limit, or none, adds entries behind those that were there. -/
theorem apply_outcome (f : Filter) (entries : List Entry) :
    (∀ failure, f.apply entries = .error failure ↔
      failure = .limitNotPositive ∧ ∃ limit ∈ f.limit, limit ≤ 0) ∧
    Failure.limitNotPositive.kind = .value ∧
    ((∀ limit ∈ f.limit, 0 < limit) →
      f.apply entries = .ok (upTo f.limit (entries.filter (f.Selects ·)))) ∧
    (∀ entry, f.Selects entry ↔
      (f.kinds = none ∨ ∃ kinds, f.kinds = some kinds ∧ entry.kind ∈ kinds) ∧
      (f.failedOnly = false ∨ ("(not emitted)" : Text) <:+ entry.kind.label) ∧
      (f.contract = none ∨ ∃ contract, f.contract = some contract ∧
        entry.contract = some contract) ∧
      (f.part = none ∨ ∃ part, f.part = some part ∧
        (part <:+: entry.data ∨ ∃ topic ∈ entry.topics, part <:+: topic))) ∧
    (f.kinds = some [] → (∀ limit ∈ f.limit, 0 < limit) → f.apply entries = .ok []) ∧
    ∀ low selected, apply { f with limit := some low } entries = .ok selected →
      ∀ limit : Option Int, (∀ high ∈ limit, low ≤ high) →
        ∃ more, apply { f with limit } entries = .ok more ∧ selected <+: more := by
  refine ⟨fun _ => apply_eq_error_iff, rfl, fun positive => apply_eq_upTo positive entries,
    fun entry => ?_, fun noKinds positive => ?_, fun low selected applied limit higher => ?_⟩
  · have optional : ∀ {α : Type} (given : Option α) (P : α → Prop),
        (∀ value ∈ given, P value) ↔ given = none ∨ ∃ value, given = some value ∧ P value := by
      intro α given P
      cases given <;> simp
    have failed : (f.failedOnly = true → entry.kind.isFailed = true) ↔
        f.failedOnly = false ∨ ("(not emitted)" : Text) <:+ entry.kind.label := by
      rw [isFailed_iff_label]
      cases f.failedOnly <;> simp
    rw [← optional f.kinds, ← optional f.contract, ← optional f.part, ← failed]
    constructor
    · exact fun selects => ⟨selects.kind, selects.failed, selects.contract, selects.part⟩
    · exact fun checks => ⟨checks.1, checks.2.1, checks.2.2.1, checks.2.2.2⟩
  · rw [apply_eq_upTo positive, filter_of_noKinds noKinds, upTo_of_room]
    exact fun limit given => Int.le_of_lt (positive limit given)
  · obtain ⟨positive, rfl⟩ := apply_eq_ok_iff.mp applied
    have positiveHigh : ∀ high ∈ limit, 0 < high :=
      fun high given => Int.lt_of_lt_of_le (positive low rfl) (higher high given)
    refine ⟨_, apply_eq_upTo positiveHigh entries, ?_⟩
    simp only [selects_limit_iff]
    exact upTo_prefix_of_le higher _

end Filter

end SimTriage
