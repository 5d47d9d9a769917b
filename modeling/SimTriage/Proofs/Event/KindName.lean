import SimTriage.Event.KindName
import SimTriage.Proofs.Failure

/-!
Choosing kinds by name: blank names are passed over, the others are looked up in order, and the
first of them that means nothing is the failure.
-/

set_option autoImplicit false

namespace SimTriage.Event.Kind

/-- The name is not blank, and means no kind. -/
def IsUnknown (name : Text) : Prop := Text.strip name ≠ [] ∧ named? name = none

/-- The kinds that names mean which are not blank. -/
def meant (names : List Text) : List Kind :=
  (names.filter fun name => Text.strip name ≠ []).filterMap named?

variable {name : Text} {names : List Text}

theorem mem_meant {kind : Kind} :
    kind ∈ meant names ↔ ∃ name ∈ names, Text.strip name ≠ [] ∧ named? name = some kind := by
  simp [meant, and_assoc]

theorem resolve_cons_of_blank (blank : Text.strip name = []) :
    resolve (name :: names) = resolve names := by
  simp [resolve, blank]

theorem resolve_cons_of_unknown (unknown : IsUnknown name) :
    resolve (name :: names) = .error (.unknownKindName name) := by
  simp [resolve, unknown.1, unknown.2]

theorem resolve_cons {kind : Kind} (given : Text.strip name ≠ [])
    (found : named? name = some kind) :
    resolve (name :: names) = (kind :: ·) <$> resolve names := by
  simp [resolve, given, found]

theorem not_isUnknown_of_blank (blank : Text.strip name = []) : ¬ IsUnknown name :=
  fun unknown => unknown.1 blank

theorem not_isUnknown {kind : Kind} (found : named? name = some kind) : ¬ IsUnknown name := by
  intro unknown
  obtain ⟨-, missing⟩ := unknown
  rw [found] at missing
  cases missing

/-- The first name that means nothing is the failure. -/
theorem resolve_eq_error_iff {failure : Failure} :
    resolve names = .error failure ↔
      ∃ name, IsFirst IsUnknown names name ∧ failure = .unknownKindName name := by
  induction names with
  | nil => simp [resolve, IsFirst.not_nil]
  | cons name names ih =>
      by_cases blank : Text.strip name = []
      · rw [resolve_cons_of_blank blank, ih]
        simp [IsFirst.cons_iff, not_isUnknown_of_blank blank]
      · cases found : named? name with
        | none =>
            have unknown : IsUnknown name := ⟨blank, found⟩
            rw [resolve_cons_of_unknown unknown]
            simp [IsFirst.cons_iff, unknown, eq_comm]
        | some kind =>
            rw [resolve_cons blank found, map_eq_error_iff, ih]
            simp [IsFirst.cons_iff, not_isUnknown found]

/-- Where every name is blank or means a kind, these kinds are the result. -/
theorem resolve_eq_ok_iff {kinds : List Kind} :
    resolve names = .ok kinds ↔
      (∀ name ∈ names, ¬ IsUnknown name) ∧ kinds = meant names := by
  induction names generalizing kinds with
  | nil =>
      constructor
      · intro resolved
        cases resolved
        exact ⟨fun name member => absurd member List.not_mem_nil, rfl⟩
      · intro known
        obtain ⟨-, rfl⟩ := known
        rfl
  | cons name names ih =>
      rw [List.forall_mem_cons]
      by_cases blank : Text.strip name = []
      · have same : meant (name :: names) = meant names := by simp [meant, blank]
        rw [resolve_cons_of_blank blank, ih, same]
        simp [not_isUnknown_of_blank blank]
      · cases found : named? name with
        | none =>
            have unknown : IsUnknown name := ⟨blank, found⟩
            rw [resolve_cons_of_unknown unknown]
            simp [unknown]
        | some kind =>
            have more : meant (name :: names) = kind :: meant names := by simp [meant, blank, found]
            rw [resolve_cons blank found, map_eq_ok_iff, more]
            simp only [ih, not_isUnknown found, not_false_eq_true, true_and, and_assoc,
              exists_and_left, exists_eq_left, eq_comm (a := kinds)]

/-- The choice that names mean: none, unless one of them is not blank. -/
def chosen (names : Option (List Text)) : Option (List Kind) :=
  let kinds := meant (names.getD [])
  if kinds.isEmpty then none else some kinds

/-- Where every name is known, a name that is not blank means a kind. -/
theorem meant_ne_nil (known : ∀ name ∈ names, ¬ IsUnknown name)
    (filled : ∃ name ∈ names, Text.strip name ≠ []) : meant names ≠ [] := by
  obtain ⟨name, member, filled⟩ := filled
  obtain ⟨kind, found⟩ : ∃ kind, named? name = some kind :=
    Option.ne_none_iff_exists'.mp fun missing => known name member ⟨filled, missing⟩
  exact List.ne_nil_of_mem (mem_meant.mpr ⟨name, member, filled, found⟩)

theorem exists_chosen (known : ∀ name ∈ names, ¬ IsUnknown name)
    (filled : ∃ name ∈ names, Text.strip name ≠ []) :
    ∃ kinds, chosen (some names) = some kinds :=
  ⟨meant names, if_neg (by simp [meant_ne_nil known filled])⟩

variable {names : Option (List Text)}

theorem choose_eq_error_iff {failure : Failure} :
    choose names = .error failure ↔
      ∃ name, IsFirst IsUnknown (names.getD []) name ∧ failure = .unknownKindName name := by
  cases names with
  | none => simp [choose, IsFirst.not_nil]
  | some names =>
      rw [choose, bind_eq_error_iff, resolve_eq_error_iff]
      constructor
      · intro failed
        rcases failed with failed | ⟨_, _, ended⟩
        · exact failed
        · cases ended
      · exact Or.inl

theorem choose_eq_ok_iff {kinds : Option (List Kind)} :
    choose names = .ok kinds ↔
      (∀ name ∈ names.getD [], ¬ IsUnknown name) ∧ kinds = chosen names := by
  cases names with
  | none =>
      constructor
      · intro chose
        cases chose
        exact ⟨fun name member => absurd member List.not_mem_nil, rfl⟩
      · intro known
        obtain ⟨-, rfl⟩ := known
        rfl
  | some names =>
      rw [choose, bind_eq_ok_iff]
      constructor
      · intro steps
        obtain ⟨_, resolved, same⟩ := steps
        cases same
        obtain ⟨known, rfl⟩ := resolve_eq_ok_iff.mp resolved
        exact ⟨known, rfl⟩
      · intro known
        obtain ⟨known, rfl⟩ := known
        exact ⟨_, resolve_eq_ok_iff.mpr ⟨known, rfl⟩, rfl⟩

end SimTriage.Event.Kind
