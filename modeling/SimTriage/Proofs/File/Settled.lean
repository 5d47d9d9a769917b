import SimTriage.File.Resolve
import SimTriage.Proofs.File.Walk

/-!
What resolving a path comes to. If no link on the way to itself stops it, the resolved path has no
link left on its way; if one does, names behind it change nothing but the path that is left.
-/

set_option autoImplicit false

namespace SimTriage.File

/-- The path that has been reached. -/
def Progress.path : Progress → Path
  | .resolved path _ => path
  | .stopped path => path

namespace Environment

variable {env : Environment} {P : Path → Prop} {path : Path} {names : List Text} {met : Met}

/-- What holds at the root, and goes on holding when a name is entered behind which no link
stands. -/
structure Keeps (env : Environment) (P : Path → Prop) : Prop where
  slashless : ∀ path, P path → Slashless path.names
  root : P ⟨.slash, []⟩
  up : ∀ path name, Path.isIdle name = true ∨ name = doubleDot → P path → P (path.enter name)
  down : ∀ path name, IsPlain name → '/' ∉ name →
    env.system.linkTarget env.here (path.enter name) = .ok none → P path → P (path.enter name)

/-- All paths that links resolved to have the property. -/
def MetAll (P : Path → Prop) (met : Met) : Prop := ∀ entry ∈ met, ∀ path ∈ entry.2, P path

/-- The path that is reached has the property, if nothing stopped it. -/
def Holds (P : Path → Prop) : Progress → Prop
  | .resolved path met => P path ∧ MetAll P met
  | .stopped path => Slashless path.names

theorem slashless_leave (path : Path) (names : List Text) (first : Slashless path.names)
    (later : Slashless names) : Slashless (leave path names).names := by
  unfold leave
  split
  · exact later
  · exact later
  · exact later
  · exact first.append later

theorem leave_of_filled (filled : ∀ name ∈ names, name ≠ []) (path : Path) :
    leave path names = ⟨path.root, path.names ++ names⟩ := by
  unfold leave
  split
  · exact absurd rfl (filled [] List.mem_cons_self)
  · exact absurd rfl (filled [] List.mem_cons_self)
  · exact absurd rfl (filled [] List.mem_cons_self)
  · rfl

/-- More names behind a path are left behind it. -/
theorem leave_append {more : List Text} (filled : ∀ name ∈ names ++ more, name ≠ []) (path : Path) :
    leave path (names ++ more) = ⟨(leave path names).root, (leave path names).names ++ more⟩ := by
  have filledNames : ∀ name ∈ names, name ≠ [] :=
    fun name member => filled name (List.mem_append_left _ member)
  rw [leave_of_filled filled, leave_of_filled filledNames, List.append_assoc]

theorem slashless_enter {name : Text} (slashless : Slashless path.names) (noSlash : '/' ∉ name) :
    Slashless (path.enter name).names := by
  intro other member
  rcases Path.mem_enter member with member | rfl
  · exact slashless other member
  · exact noSlash

/-- Where the names of a link are followed from. -/
def linkStart (path : Path) (target : Text) : Path :=
  if Root.ofText target = .here then path else ⟨.slash, []⟩

/-- How resolving names behind a path comes to an end, if `follow` tells what the names of a link
come to. -/
inductive Reaches (env : Environment) (follow : Path → List Text → Met → Except Obstacle Progress) :
    List Text → Path → Met → Progress → Prop
  | done {path : Path} {met : Met} : Reaches env follow [] path met (.resolved path met)
  | up {name : Text} {names : List Text} {path : Path} {met : Met} {progress : Progress}
      (passes : Path.isIdle name = true ∨ name = doubleDot)
      (later : Reaches env follow names (path.enter name) met progress) :
      Reaches env follow (name :: names) path met progress
  | free {name : Text} {names : List Text} {path : Path} {met : Met} {progress : Progress}
      (plain : IsPlain name) (free : env.system.linkTarget env.here (path.enter name) = .ok none)
      (later : Reaches env follow names (path.enter name) met progress) :
      Reaches env follow (name :: names) path met progress
  | known {name target : Text} {names : List Text} {path known : Path} {met : Met}
      {progress : Progress} (plain : IsPlain name)
      (link : env.system.linkTarget env.here (path.enter name) = .ok (some target))
      (seen : met.lookup (path.enter name) = some (some known))
      (later : Reaches env follow names known met progress) :
      Reaches env follow (name :: names) path met progress
  | again {name target : Text} {names : List Text} {path : Path} {met : Met} (plain : IsPlain name)
      (link : env.system.linkTarget env.here (path.enter name) = .ok (some target))
      (seen : met.lookup (path.enter name) = some none) :
      Reaches env follow (name :: names) path met (.stopped (leave (path.enter name) names))
  | stopped {name target : Text} {names : List Text} {path left : Path} {met : Met}
      (plain : IsPlain name)
      (link : env.system.linkTarget env.here (path.enter name) = .ok (some target))
      (unmet : met.lookup (path.enter name) = none)
      (inner : follow (linkStart path target) (Path.split target) ((path.enter name, none) :: met) =
        .ok (.stopped left)) :
      Reaches env follow (name :: names) path met (.stopped (leave left names))
  | resolved {name target : Text} {names : List Text} {path reached : Path} {met after : Met}
      {progress : Progress} (plain : IsPlain name)
      (link : env.system.linkTarget env.here (path.enter name) = .ok (some target))
      (unmet : met.lookup (path.enter name) = none)
      (inner : follow (linkStart path target) (Path.split target) ((path.enter name, none) :: met) =
        .ok (.resolved reached after))
      (later : Reaches env follow names reached ((path.enter name, some reached) :: after)
        progress) :
      Reaches env follow (name :: names) path met progress

section Reaches

variable {follow : Path → List Text → Met → Except Obstacle Progress} {progress : Progress}

theorem reaches_of_resolveNames (ran : resolveNames env follow names path met = .ok progress) :
    Reaches env follow names path met progress := by
  fun_induction resolveNames env follow names path met with
  | case1 =>
      cases ran
      exact .done
  | case2 name names path met passes ih => exact .up (by simpa using passes) (ih ran)
  | case3 => cases ran
  | case4 name names path met passes next free ih =>
      exact .free (isPlain_of_busy passes) free (ih ran)
  | case5 name names path met passes next target link known seen ih =>
      exact .known (isPlain_of_busy passes) link seen (ih ran)
  | case6 name names path met passes next target link seen =>
      cases ran
      exact .again (isPlain_of_busy passes) link seen
  | case7 => cases ran
  | case8 name names path met passes next target link unmet start left inner =>
      cases ran
      exact .stopped (isPlain_of_busy passes) link unmet inner
  | case9 name names path met passes next target link unmet start reached after inner ih =>
      exact .resolved (isPlain_of_busy passes) link unmet inner (ih ran)

theorem Reaches.resolveNames_eq (reaches : Reaches env follow names path met progress) :
    resolveNames env follow names path met = .ok progress := by
  have busy : ∀ name : Text, IsPlain name → (Path.isIdle name || name = doubleDot) = false := by
    intro name plain
    simpa [IsPlain] using plain
  induction reaches with
  | done => rfl
  | up passes _ ih => simpa only [resolveNames, passes, Bool.or_eq_true, decide_eq_true_eq,
      ↓reduceIte] using ih
  | free plain free _ ih =>
      simpa only [resolveNames, busy _ plain, free, Bool.false_eq_true, ↓reduceIte] using ih
  | known plain link seen _ ih =>
      simpa only [resolveNames, busy _ plain, link, seen, Bool.false_eq_true, ↓reduceIte] using ih
  | again plain link seen =>
      simp only [resolveNames, busy _ plain, link, seen, Bool.false_eq_true, ↓reduceIte]
  | stopped plain link unmet inner =>
      unfold linkStart at inner
      simp only [resolveNames, busy _ plain, link, unmet, inner, Bool.false_eq_true, ↓reduceIte]
  | resolved plain link unmet inner _ ih =>
      unfold linkStart at inner
      simpa only [resolveNames, busy _ plain, link, unmet, inner, Bool.false_eq_true, ↓reduceIte]
        using ih

end Reaches

theorem MetAll.nil : MetAll P [] := by simp [MetAll]

theorem MetAll.cons_none {link : Path} (all : MetAll P met) : MetAll P ((link, none) :: met) := by
  intro other member
  rcases List.mem_cons.mp member with same | member
  · simp [same]
  · exact all other member

theorem MetAll.cons_some {link known : Path} (holds : P known) (all : MetAll P met) :
    MetAll P ((link, some known) :: met) := by
  intro other member
  rcases List.mem_cons.mp member with same | member
  · simpa [same] using holds
  · exact all other member

theorem MetAll.of_lookup {link known : Path} (all : MetAll P met)
    (seen : met.lookup link = some (some known)) : P known := by
  obtain ⟨front, back, split, -⟩ := List.lookup_eq_some_iff.mp seen
  have member : (link, some known) ∈ met := by simp [split]
  exact all _ member known rfl

theorem Keeps.linkStart (keeps : env.Keeps P) (holds : P path) (target : Text) :
    P (linkStart path target) := by
  unfold Environment.linkStart
  split
  · exact holds
  · exact keeps.root

/-- What is kept holds of the path of the names, if it holds of the paths of links. -/
theorem Reaches.holds {follow : Path → List Text → Met → Except Obstacle Progress}
    {progress : Progress} (keeps : env.Keeps P)
    (followed : ∀ path names met progress, P path → Slashless names → MetAll P met →
      follow path names met = .ok progress → Holds P progress)
    (reaches : Reaches env follow names path met progress)
    (slashless : Slashless names) (holds : P path) (all : MetAll P met) : Holds P progress := by
  induction reaches with
  | done => exact ⟨holds, all⟩
  | up passes _ ih => exact ih slashless.tail (keeps.up _ _ passes holds) all
  | free plain free _ ih =>
      exact ih slashless.tail (keeps.down _ _ plain slashless.head free holds) all
  | known _ _ seen _ ih => exact ih slashless.tail (all.of_lookup seen) all
  | again =>
      have entered := slashless_enter (keeps.slashless _ holds) slashless.head
      exact slashless_leave _ _ entered slashless.tail
  | stopped _ _ _ inner =>
      have within := followed _ _ _ _ (keeps.linkStart holds _) (Path.slashless_split _)
        all.cons_none inner
      exact slashless_leave _ _ within slashless.tail
  | resolved _ _ _ inner _ ih =>
      obtain ⟨holdsReached, allAfter⟩ := followed _ _ _ _ (keeps.linkStart holds _)
        (Path.slashless_split _) all.cons_none inner
      exact ih slashless.tail holdsReached (allAfter.cons_some holdsReached)

theorem resolveWithin_holds {depth : Nat} {progress : Progress} (keeps : env.Keeps P)
    (slashless : Slashless names) (holds : P path) (all : MetAll P met)
    (ran : env.resolveWithin depth path names met = .ok progress) : Holds P progress := by
  induction depth generalizing path names met progress with
  | zero =>
      refine (reaches_of_resolveNames ran).holds keeps ?_ slashless holds all
      intro path names met progress holds slashless _ left
      cases left
      exact slashless_leave _ _ (keeps.slashless path holds) slashless
  | succ depth ih =>
      refine (reaches_of_resolveNames ran).holds keeps ?_ slashless holds all
      exact fun path names met progress holds slashless all ran => ih slashless holds all ran

theorem keeps_slashless : env.Keeps fun path => Slashless path.names where
  slashless := fun _ slashless => slashless
  root := by simp [Slashless]
  up := by
    intro path name passes slashless
    rcases passes with idle | dots
    · rw [Path.enter_of_isIdle idle]
      exact slashless
    · rw [dots]
      exact slashless_enter slashless (by decide)
  down := fun path name _ noSlash _ slashless => slashless_enter slashless noSlash

/-- A path from the root that cannot be resolved any further. -/
structure Settled (env : Environment) (path : Path) : Prop where
  root : path.root = .slash
  plain : ∀ name ∈ path.names, IsPlain name
  slashless : Slashless path.names
  free : env.system.LinkFree env.here path.names

theorem Settled.isAbsolute (settled : env.Settled path) : path.isAbsolute = true := by
  simp [Path.isAbsolute, settled.root]

theorem Settled.normalize_join (settled : env.Settled path) :
    (env.herePath.join path).normalize = path := by
  rw [Path.join, if_pos settled.isAbsolute, Path.normalize_of_isPlain settled.plain]

theorem keeps_settled : env.Keeps env.Settled where
  slashless := fun _ settled => settled.slashless
  root := by
    refine ⟨rfl, by simp, by simp [Slashless], ?_⟩
    intro front isPrefix nonempty
    exact absurd (List.prefix_nil.mp isPrefix) nonempty
  up := by
    intro path name passes settled
    rcases passes with idle | dots
    · rw [Path.enter_of_isIdle idle]
      exact settled
    · have above : path.names.dropLast <+: path.names := List.dropLast_prefix path.names
      rw [dots, Path.enter_doubleDot settled.isAbsolute settled.plain]
      refine ⟨settled.root, ?_, ?_, ?_⟩
      · exact fun other member => settled.plain other (above.subset member)
      · exact fun other member => settled.slashless other (above.subset member)
      · exact fun front isPrefix => settled.free front (isPrefix.trans above)
  down := by
    intro path name plain noSlash free settled
    have slashless := slashless_enter settled.slashless noSlash
    rw [Path.enter_of_isPlain plain] at free slashless ⊢
    have plainNames : ∀ other ∈ path.names ++ [name], IsPlain other :=
      List.forall_mem_append.mpr ⟨settled.plain, List.forall_mem_singleton.mpr plain⟩
    refine ⟨settled.root, plainNames, slashless, ?_⟩
    intro front isPrefix nonempty
    rcases List.prefix_concat_iff.mp isPrefix with rfl | isPrefix
    · rwa [settled.root] at free
    · exact settled.free front isPrefix nonempty

/-- Names behind a link that stops the way are left as they are. -/
theorem Reaches.append {follow : Path → List Text → Met → Except Obstacle Progress}
    {more : List Text} {progress : Progress} (reaches : Reaches env follow names path met progress)
    (filled : ∀ name ∈ names ++ more, name ≠ []) {left : Path} (stops : progress = .stopped left) :
    Reaches env follow (names ++ more) path met (.stopped ⟨left.root, left.names ++ more⟩) := by
  have later : ∀ (name : Text) (names : List Text), (∀ other ∈ name :: names ++ more, other ≠ []) →
      ∀ other ∈ names ++ more, other ≠ [] :=
    fun name names filled other member => filled other (List.mem_cons_of_mem _ member)
  induction reaches with
  | done => cases stops
  | up passes _ ih => exact .up passes (ih (later _ _ filled) stops)
  | free plain free _ ih => exact .free plain free (ih (later _ _ filled) stops)
  | known plain link seen _ ih => exact .known plain link seen (ih (later _ _ filled) stops)
  | again plain link seen =>
      cases stops
      rw [← leave_append (later _ _ filled)]
      exact .again plain link seen
  | stopped plain link unmet inner =>
      cases stops
      rw [← leave_append (later _ _ filled)]
      exact .stopped plain link unmet inner
  | resolved plain link unmet inner _ ih =>
      exact .resolved plain link unmet inner (ih (later _ _ filled) stops)

theorem resolveWithin_stopped {depth : Nat} {more : List Text} {left : Path}
    (filled : ∀ name ∈ names ++ more, name ≠ [])
    (ran : env.resolveWithin depth path names met = .ok (.stopped left)) :
    env.resolveWithin depth path (names ++ more) met =
      .ok (.stopped ⟨left.root, left.names ++ more⟩) := by
  cases depth with
  | zero => exact ((reaches_of_resolveNames ran).append filled rfl).resolveNames_eq
  | succ depth => exact ((reaches_of_resolveNames ran).append filled rfl).resolveNames_eq

/-- What resolving a path makes of the path that is reached. -/
theorem resolve_of_ran {progress : Progress}
    (ran : env.resolveWithin env.nestingBound
      (if path.isAbsolute then ⟨.slash, []⟩ else ⟨.here, []⟩) path.names [] = .ok progress) :
    env.resolve path =
      match env.system.stat env.here (env.herePath.join progress.path).normalize with
      | .error .tooManyLinks =>
        .error (.linkLoop (env.herePath.join progress.path).normalize.text)
      | .error .zeroByte => .error .zeroInPath
      | _ => .ok (env.herePath.join progress.path).normalize := by
  -- stopped or not, the rest is the same
  rcases progress with ⟨reached, met⟩ | reached
  all_goals
    simp only [resolve, ran, pure_bind, Progress.path]
    rfl

theorem resolve_of_error {obstacle : Obstacle}
    (ran : env.resolveWithin env.nestingBound
      (if path.isAbsolute then ⟨.slash, []⟩ else ⟨.here, []⟩) path.names [] = .error obstacle) :
    env.resolve path = .error .zeroInPath := by
  simp only [resolve, ran]
  rfl

/-- The resolved form of a path is the normal form of the path that is reached. -/
theorem resolve_eq_ok_iff {final : Path} :
    env.resolve path = .ok final ↔
      ∃ progress, env.resolveWithin env.nestingBound
          (if path.isAbsolute then ⟨.slash, []⟩ else ⟨.here, []⟩) path.names [] = .ok progress ∧
        (env.herePath.join progress.path).normalize = final ∧
        env.system.stat env.here final ≠ .error .tooManyLinks ∧
        env.system.stat env.here final ≠ .error .zeroByte := by
  cases ran : env.resolveWithin env.nestingBound
      (if path.isAbsolute then ⟨.slash, []⟩ else ⟨.here, []⟩) path.names [] with
  | error obstacle => simp [resolve_of_error ran]
  | ok progress =>
      rw [resolve_of_ran ran]
      constructor
      · intro ok
        split at ok
        · cases ok
        · cases ok
        · rename_i notLoop notZero
          cases ok
          exact ⟨progress, rfl, rfl, notLoop, notZero⟩
      · intro ending
        obtain ⟨other, same, rfl, notLoop, notZero⟩ := ending
        cases same
        split
        · rename_i loop
          exact absurd loop notLoop
        · rename_i zero
          exact absurd zero notZero
        · rfl

end Environment

end SimTriage.File
