import Mathlib.Data.List.DropRight
import SimTriage.File.Access
import SimTriage.Proofs.Failure
import SimTriage.Proofs.File.Settled

/-!
What a request for a file goes through before the file is read: the base directory, the home
directory, and the checks of the resolved path.
-/

set_option autoImplicit false

namespace SimTriage.File

namespace Path

variable {base path : Path}

theorem join_isAbsolute (absolute : base.isAbsolute = true) (path : Path) :
    (base.join path).isAbsolute = true := by
  unfold join
  split
  · assumption
  · exact absolute

theorem join_append (base path : Path) (more : List Text) :
    base.join ⟨path.root, path.names ++ more⟩ =
      ⟨(base.join path).root, (base.join path).names ++ more⟩ := by
  by_cases absolute : path.isAbsolute = true
  · have absoluteMore : isAbsolute ⟨path.root, path.names ++ more⟩ = true := absolute
    simp only [join, absolute, absoluteMore, ↓reduceIte]
  · have relativeMore : ¬ isAbsolute ⟨path.root, path.names ++ more⟩ = true := absolute
    simp only [join, absolute, relativeMore, ↓reduceIte, Bool.false_eq_true, List.append_assoc]

theorem mem_join {name : Text} (member : name ∈ (base.join path).names) :
    name ∈ base.names ∨ name ∈ path.names := by
  unfold join at member
  split at member
  · exact Or.inr member
  · exact List.mem_append.mp member

theorem slashless_join (first : Slashless base.names) (later : Slashless path.names) :
    Slashless (base.join path).names := by
  intro name member
  exact (mem_join member).elim (first name) (later name)

theorem splitSuffix_eq (name : Text) :
    splitSuffix name =
      if name.rtakeWhile (· ≠ '.') = [] || (name.rdropWhile (· ≠ '.')).length ≤ 1 then (name, [])
      else ((name.rdropWhile (· ≠ '.')).dropLast, '.' :: name.rtakeWhile (· ≠ '.')) := rfl

/-- The suffix is cut off the end of a name, and something stays in front of it. -/
theorem append_splitSuffix (name : Text) :
    (splitSuffix name).1 ++ (splitSuffix name).2 = name ∧
      ((splitSuffix name).2 ≠ [] → (splitSuffix name).1 ≠ []) := by
  by_cases whole : (name.rtakeWhile (· ≠ '.') = [] ||
      (name.rdropWhile (· ≠ '.')).length ≤ 1) = true
  · rw [splitSuffix_eq, if_pos whole]
    exact ⟨List.append_nil name, fun nonempty => absurd rfl nonempty⟩
  · rw [splitSuffix_eq, if_neg whole]
    rw [Bool.or_eq_true, not_or, decide_eq_true_iff, decide_eq_true_iff] at whole
    have long : 1 < (name.rdropWhile (· ≠ '.')).length := Nat.lt_of_not_le whole.2
    have nonempty : name.rdropWhile (· ≠ '.') ≠ [] := List.ne_nil_of_length_pos (by omega)
    have closed := List.dropLast_append_getLast nonempty
    have last : (name.rdropWhile (· ≠ '.')).getLast nonempty = '.' := by
      simpa using List.rdropWhile_last_not (· ≠ '.') name nonempty
    rw [last] at closed
    constructor
    · dsimp only
      rw [← List.singleton_append, ← List.append_assoc, closed, List.rdropWhile_append_rtakeWhile]
    · intro _
      apply List.ne_nil_of_length_pos
      rw [List.length_dropLast]
      omega

end Path

namespace Environment

variable {env : Environment} {request : Text} {base path located : Path}

/-- A name that ends as names of message files do: behind something else, and in any case. -/
def IsMessageName (name : Text) : Prop :=
  ∃ stem ending compressed : Text, stem ≠ [] ∧ name = stem ++ (ending ++ compressed) ∧
    Text.lower ending ∈ allowedSuffixes ∧ (compressed = [] ∨ Text.lower compressed = ".gz")

theorem isMessageName_of_effectiveSuffix {name : Text}
    (allowed : allowedSuffixes.contains (effectiveSuffix name) = true) : IsMessageName name := by
  have nonempty : ∀ suffix : Text, Text.lower suffix ∈ allowedSuffixes → suffix ≠ [] := by
    intro suffix member empty
    rw [empty] at member
    revert member
    decide
  rw [List.contains_iff_mem] at allowed
  obtain ⟨cut, stem⟩ := Path.append_splitSuffix name
  by_cases compressed : Text.lower (Path.splitSuffix name).2 = ".gz"
  · simp only [effectiveSuffix, compressed, ↓reduceIte] at allowed
    obtain ⟨cutStem, front⟩ := Path.append_splitSuffix (Path.splitSuffix name).1
    refine ⟨_, _, _, front (nonempty _ allowed), ?_, allowed, Or.inr compressed⟩
    rw [← List.append_assoc, cutStem, cut]
  · simp only [effectiveSuffix, compressed, ↓reduceIte] at allowed
    refine ⟨_, _, [], stem (nonempty _ allowed), ?_, allowed, Or.inl rfl⟩
    rw [List.append_nil, cut]

/-- What is known of a resolved path, whatever stopped it. -/
theorem plain_of_resolve (resolved : env.resolve path = .ok located) :
    located.isAbsolute = true ∧ ∀ name ∈ located.names, IsPlain name := by
  obtain ⟨progress, -, final, -⟩ := resolve_eq_ok_iff.mp resolved
  have absolute : (env.herePath.join progress.path).isAbsolute = true :=
    Path.join_isAbsolute rfl progress.path
  rw [← final]
  constructor
  · rw [Path.isAbsolute, Path.root_normalize]
    exact absolute
  · exact Path.plain_normalize absolute

theorem slashless_of_resolveWithin {depth : Nat} {start : Path} {names : List Text}
    {progress : Progress} (begins : Slashless start.names) (slashless : Slashless names)
    (ran : env.resolveWithin depth start names [] = .ok progress) :
    Slashless progress.path.names := by
  have holds := resolveWithin_holds keeps_slashless slashless begins MetAll.nil ran
  cases progress with
  | resolved path met => exact holds.1
  | stopped path => exact holds

theorem slashless_of_resolve (here : Slashless env.here) (slashless : Slashless path.names)
    (resolved : env.resolve path = .ok located) : Slashless located.names := by
  obtain ⟨progress, ran, final, -⟩ := resolve_eq_ok_iff.mp resolved
  have begins : Slashless (if path.isAbsolute then ⟨.slash, []⟩ else ⟨.here, []⟩ : Path).names := by
    split <;> simp [Slashless]
  rw [← final]
  apply Path.slashless_normalize
  exact Path.slashless_join here (slashless_of_resolveWithin begins slashless ran)

theorem slashless_base (here : Slashless env.here) (isBase : env.base = .ok base) :
    Slashless base.names := by
  apply slashless_of_resolve here _ isBase
  cases env.baseSetting with
  | none => exact here
  | some setting => exact fun name member => (Path.written_ofText setting name member).2

/-- The names of a request are written ones, also with a home directory in front. -/
theorem written_expandHome (expanded : env.expandHome (.ofText request) = .ok path) :
    ∀ name ∈ path.names, IsWritten name := by
  unfold expandHome at expanded
  split at expanded
  · rename_i user names _ split
    obtain ⟨home, -, same⟩ := bind_eq_ok_iff.mp expanded
    cases same
    intro name member
    rcases List.mem_append.mp member with member | member
    · exact Path.written_ofText home name member
    · apply Path.written_ofText request
      rw [split]
      exact List.mem_cons_of_mem _ member
  · cases expanded
    exact Path.written_ofText request

/-- The names that are looked up for a request have no slashes in them. -/
theorem slashless_requested (here : Slashless env.here) (isBase : env.base = .ok base)
    (expanded : env.expandHome (.ofText request) = .ok path) :
    Slashless (base.join path).names := by
  apply Path.slashless_join (slashless_base here isBase)
  exact fun name member => (written_expandHome expanded name member).2

/-- Names behind those of a request do not change what its first name means. -/
theorem expandHome_append {more : List Text}
    (starts : ∀ user : Text, more.head? ≠ some ('~' :: user))
    (expanded : env.expandHome path = .ok located) :
    env.expandHome ⟨path.root, path.names ++ more⟩ = .ok ⟨located.root, located.names ++ more⟩ := by
  obtain ⟨root, names⟩ := path
  by_cases tilde : root = .here ∧ ∃ user rest, names = ('~' :: user) :: rest
  · obtain ⟨rfl, user, rest, rfl⟩ := tilde
    obtain ⟨home, found, same⟩ := bind_eq_ok_iff.mp expanded
    cases same
    refine bind_eq_ok_iff.mpr ⟨home, found, ?_⟩
    rw [List.append_assoc]
    rfl
  · have same : located = ⟨root, names⟩ := by
      unfold expandHome at expanded
      split at expanded
      · rename_i user rest isHere split
        exact absurd ⟨isHere, user, rest, split⟩ tilde
      · cases expanded
        rfl
    rw [same]
    unfold expandHome
    split
    · rename_i user rest isHere split
      cases names with
      | nil => exact absurd (congrArg List.head? split) (starts user)
      | cons name names =>
          rw [List.cons_append, List.cons.injEq] at split
          exact absurd ⟨isHere, user, names, by rw [split.1]⟩ tilde
    · rfl

theorem isFile_eq_true_iff :
    env.isFile path = .ok true ↔
      ∃ place content, env.system.stat env.here path = .ok (place, .file content) := by
  unfold isFile
  constructor
  · intro isFile
    split at isFile
    · rename_i place content reached
      exact ⟨place, content, reached⟩
    · cases isFile
    · cases isFile
  · intro leads
    obtain ⟨place, content, reached⟩ := leads
    rw [reached]

theorem confine_eq_ok_iff :
    env.confine request = .ok located ↔
      ∃ base path, env.base = .ok base ∧ env.expandHome (.ofText request) = .ok path ∧
        env.resolve (base.join path) = .ok located ∧ located.isUnder base = true := by
  unfold confine
  constructor
  · intro confined
    obtain ⟨base, isBase, confined⟩ := bind_eq_ok_iff.mp confined
    obtain ⟨path, expanded, confined⟩ := bind_eq_ok_iff.mp confined
    obtain ⟨resolved, isResolved, confined⟩ := bind_eq_ok_iff.mp confined
    split at confined
    · rename_i under
      cases confined
      exact ⟨base, path, isBase, expanded, isResolved, under⟩
    · cases confined
  · intro steps
    obtain ⟨base, path, isBase, expanded, isResolved, under⟩ := steps
    refine bind_eq_ok_iff.mpr ⟨base, isBase, ?_⟩
    refine bind_eq_ok_iff.mpr ⟨path, expanded, ?_⟩
    refine bind_eq_ok_iff.mpr ⟨located, isResolved, ?_⟩
    rw [if_pos under]
    rfl

/-- When a request is accepted, and as what. -/
theorem locate_eq_ok_iff :
    env.locate request = .ok located ↔
      env.confine request = .ok located ∧ env.isFile located = .ok true ∧
        allowedSuffixes.contains (effectiveSuffix located.name) = true := by
  unfold locate
  constructor
  · intro accepted
    obtain ⟨resolved, confined, accepted⟩ := bind_eq_ok_iff.mp accepted
    obtain ⟨file, isFile, accepted⟩ := bind_eq_ok_iff.mp accepted
    cases file with
    | false => cases accepted
    | true =>
        simp only [Bool.not_true, Bool.false_eq_true, ↓reduceIte] at accepted
        split at accepted
        · rename_i allowed
          cases accepted
          exact ⟨confined, isFile, allowed⟩
        · cases accepted
  · intro checks
    obtain ⟨confined, isFile, allowed⟩ := checks
    refine bind_eq_ok_iff.mpr ⟨located, confined, ?_⟩
    refine bind_eq_ok_iff.mpr ⟨true, isFile, ?_⟩
    simp only [Bool.not_true, Bool.false_eq_true, ↓reduceIte, allowed]
    rfl

end Environment

end SimTriage.File
