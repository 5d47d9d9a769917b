import Mathlib.Logic.Relation
import SimTriage.Proofs.File.Clear
import SimTriage.Proofs.File.Nesting

/-!
Loops of links. A link is on a loop if following it, name by name, comes upon the link at its place
again; names where nothing stands are entered like any others on the way. Where there is no loop,
nothing stops the resolution of a path.
-/

set_option autoImplicit false

namespace SimTriage.File

/-- A path, and the names that are still to be entered behind it. -/
abbrev Course := Path × List Text

theorem Path.enter_inj {path other : Path} {name otherName : Text} (plain : IsPlain name)
    (plainOther : IsPlain otherName) (same : path.enter name = other.enter otherName) :
    path = other ∧ name = otherName := by
  obtain ⟨root, names⟩ := path
  obtain ⟨otherRoot, otherNames⟩ := other
  rw [Path.enter_of_isPlain plain, Path.enter_of_isPlain plainOther] at same
  obtain ⟨rfl, same⟩ := Path.mk.inj same
  obtain ⟨rfl, last⟩ := List.append_inj' same rfl
  exact ⟨rfl, List.singleton_inj.mp last⟩

namespace Environment

variable {env other : Environment} {path reached : Path} {name target : Text} {names : List Text}
  {met after : Met} {place : Place} {opened : List Place} {course later : Course}

/-- One step on a course: the next name is entered, or replaced by the names of the link behind
it. -/
inductive Step (env : Environment) : Course → Course → Prop
  | pass {path : Path} {name : Text} {names : List Text}
      (passes : Path.isIdle name = true ∨ name = doubleDot) :
      Step env (path, name :: names) (path.enter name, names)
  | enter {path : Path} {name : Text} {names : List Text} (plain : IsPlain name)
      (free : env.link? (path.enter name) = none) :
      Step env (path, name :: names) (path.enter name, names)
  | follow {path : Path} {name target : Text} {names : List Text} (plain : IsPlain name)
      (link : env.link? (path.enter name) = some target) :
      Step env (path, name :: names) (linkStart path target, Path.split target ++ names)

/-- Any number of steps. -/
abbrev Steps (env : Environment) : Course → Course → Prop := Relation.ReflTransGen env.Step

/-- The next name is that of a link, which stands at the place. -/
inductive Faces (env : Environment) : Course → Place → Prop
  | link {path : Path} {name target : Text} {names : List Text} (plain : IsPlain name)
      (link : env.link? (path.enter name) = some target) :
      Faces env (path, name :: names) (env.place (path.enter name))

/-- Following a link behind a clear path comes upon a link at the same place again. Since missing
names are entered too, a link such as `loop`, to `missing/../loop`, is on a loop though no lookup
gets round it. -/
def HasLoop (env : Environment) : Prop :=
  ∃ path name place later, env.Clear path ∧ env.Faces (path, [name]) place ∧
    Relation.TransGen env.Step (path, [name]) later ∧ env.Faces later place

/-- A link is followed. -/
theorem Step.eq_of_link (step : env.Step (path, name :: names) later) (plain : IsPlain name)
    (link : env.link? (path.enter name) = some target) :
    later = (linkStart path target, Path.split target ++ names) := by
  cases step with
  | pass passes =>
      rcases passes with idle | dots
      · rw [plain.1] at idle
        cases idle
      · exact absurd dots plain.2
  | enter _ free =>
      rw [free] at link
      cases link
  | follow _ other =>
      rw [other] at link
      cases link
      rfl

/-- There is no loop if no course behind a link faces one. -/
theorem not_hasLoop_of_preserved (behind : Course → Prop)
    (begins : ∀ path name target, IsPlain name → env.link? (path.enter name) = some target →
      behind (linkStart path target, Path.split target ++ []))
    (preserved : ∀ course later, behind course → env.Step course later → behind later)
    (free : ∀ course place, behind course → ¬ env.Faces course place) : ¬ env.HasLoop := by
  intro loop
  obtain ⟨path, name, place, later, -, first, steps, again⟩ := loop
  obtain ⟨next, step, rest⟩ := Relation.TransGen.head'_iff.mp steps
  have started : behind next := by
    cases first with
    | link plain link =>
        rw [step.eq_of_link plain link]
        exact begins path name _ plain link
  refine free later place ?_ again
  clear steps again
  induction rest with
  | refl => exact started
  | tail _ step ih => exact preserved _ _ ih step

/-- More names behind a course wait until it has come to its end. -/
theorem Step.append (step : env.Step course later) (more : List Text) :
    env.Step (course.1, course.2 ++ more) (later.1, later.2 ++ more) := by
  cases step with
  | pass passes => exact .pass passes
  | enter plain free => exact .enter plain free
  | @follow path name target names plain link =>
      have followed : env.Step (path, name :: (names ++ more)) _ := .follow plain link
      rwa [← List.append_assoc] at followed

theorem Steps.append (steps : env.Steps course later) (more : List Text) :
    env.Steps (course.1, course.2 ++ more) (later.1, later.2 ++ more) :=
  steps.lift (fun course : Course => (course.1, course.2 ++ more)) fun _ _ step => step.append more

/-- Behind a name, the others are entered from where it leads. -/
theorem Steps.behind {known : Path} (steps : env.Steps (path, [name]) (known, []))
    (names : List Text) : env.Steps (path, name :: names) (known, names) :=
  steps.append names

section Arrives

/-- What is known of links is where following them leads. -/
def Traced (env : Environment) (met : Met) : Prop :=
  ∀ path name known, IsPlain name → met.lookup (path.enter name) = some (some known) →
    env.Steps (path, [name]) (known, [])

/-- Names that are resolved are followed to their end, and no link is left that is still being
resolved, other than those that were before. -/
structure Arrives (env : Environment) (path : Path) (names : List Text) (met : Met)
    (reached : Path) (after : Met) : Prop where
  clear : env.Clear reached
  all : MetAll env.Clear after
  traced : env.Traced after
  steps : env.Steps (path, names) (reached, [])
  pending : ∀ link, after.lookup link = some none → met.lookup link = some none

theorem Traced.nil : env.Traced [] := fun _ _ _ _ seen => nomatch seen

theorem Traced.cons_none (traced : env.Traced met) (link : Path) :
    env.Traced ((link, none) :: met) := by
  intro path name known plain seen
  by_cases same : path.enter name = link
  · rw [same, List.lookup_cons_self] at seen
    cases seen
  · rw [lookup_cons_of_ne none same] at seen
    exact traced path name known plain seen

theorem Traced.cons_some (traced : env.Traced met) (plain : IsPlain name)
    (steps : env.Steps (path, [name]) (reached, [])) :
    env.Traced ((path.enter name, some reached) :: met) := by
  intro other otherName known plainOther seen
  by_cases same : other.enter otherName = path.enter name
  · rw [same, List.lookup_cons_self] at seen
    cases seen
    obtain ⟨rfl, rfl⟩ := Path.enter_inj plainOther plain same
    exact steps
  · rw [lookup_cons_of_ne _ same] at seen
    exact traced other otherName known plainOther seen

/-- Steps that come first do not change where names arrive. -/
theorem Arrives.of_steps {next : Path} {rest : List Text} {between : Met}
    (steps : env.Steps (path, names) (next, rest))
    (pending : ∀ link, between.lookup link = some none → met.lookup link = some none)
    (arrives : env.Arrives next rest between reached after) :
    env.Arrives path names met reached after where
  clear := arrives.clear
  all := arrives.all
  traced := arrives.traced
  steps := steps.trans arrives.steps
  pending := fun link isPending => pending link (arrives.pending link isPending)

/-- A link is known once it is resolved. -/
theorem lookup_of_resolved {link : Path}
    (pending : ∀ other, after.lookup other = some none →
      List.lookup other ((link, none) :: met) = some none) (other : Path)
    (isPending : List.lookup other ((link, some reached) :: after) = some none) :
    met.lookup other = some none := by
  by_cases same : other = link
  · rw [same, List.lookup_cons_self] at isPending
    cases isPending
  · rw [lookup_cons_of_ne _ same] at isPending
    have before := pending other isPending
    rwa [lookup_cons_of_ne _ same] at before

/-- Following a link is one step, and then its names are entered. -/
theorem Arrives.steps_link (plain : IsPlain name) (link : env.link? (path.enter name) = some target)
    {during : Met}
    (inner : env.Arrives (linkStart path target) (Path.split target) during reached after) :
    env.Steps (path, [name]) (reached, []) := by
  have followed : env.Step (path, [name]) _ := .follow plain link
  rw [List.append_nil] at followed
  exact .head followed inner.steps

theorem Reaches.arrives {follow : Path → List Text → Met → Except Obstacle Progress}
    {progress : Progress} (tree : env.system.IsTree)
    (followed : ∀ path names met reached after, env.Clear path → Slashless names →
      MetAll env.Clear met → env.Traced met →
      follow path names met = .ok (.resolved reached after) →
        env.Arrives path names met reached after)
    (reaches : Reaches env follow names path met progress)
    (resolved : progress = .resolved reached after)
    (slashless : Slashless names) (clear : env.Clear path) (all : MetAll env.Clear met)
    (traced : env.Traced met) : env.Arrives path names met reached after := by
  have keeps := keeps_clear tree
  induction reaches with
  | done =>
      cases resolved
      exact ⟨clear, all, traced, .refl, fun _ isPending => isPending⟩
  | up passes _ ih =>
      have arrives := ih resolved slashless.tail (keeps.up _ _ passes clear) all traced
      exact arrives.of_steps (.single (.pass passes)) fun _ isPending => isPending
  | free plain free _ ih =>
      have below := keeps.down _ _ plain slashless.head free clear
      have arrives := ih resolved slashless.tail below all traced
      have unseen := clear.link?_eq_none tree plain free
      exact arrives.of_steps (.single (.enter plain unseen)) fun _ isPending => isPending
  | known plain link seen _ ih =>
      have arrives := ih resolved slashless.tail (all.of_lookup seen) all traced
      have steps := traced _ _ _ plain seen
      exact arrives.of_steps (Steps.behind steps _) fun _ isPending => isPending
  | again => cases resolved
  | stopped => cases resolved
  | resolved plain link unmet inner _ ih =>
      rw [clear.linkTarget_iff tree plain] at link
      have arrived := followed _ _ _ _ _ (keeps.linkStart clear _) (Path.slashless_split _)
        all.cons_none (traced.cons_none _) inner
      have steps := arrived.steps_link plain link
      have arrives := ih resolved slashless.tail arrived.clear (arrived.all.cons_some arrived.clear)
        (arrived.traced.cons_some plain steps)
      exact arrives.of_steps (Steps.behind steps _) (lookup_of_resolved arrived.pending)

theorem resolveWithin_arrives {depth : Nat} (tree : env.system.IsTree) (clear : env.Clear path)
    (slashless : Slashless names) (all : MetAll env.Clear met) (traced : env.Traced met)
    (ran : env.resolveWithin depth path names met = .ok (.resolved reached after)) :
    env.Arrives path names met reached after := by
  induction depth generalizing path names met reached after with
  | zero =>
      refine (reaches_of_resolveNames ran).arrives tree ?_ rfl slashless clear all traced
      intro path names met reached after _ _ _ _ stopped
      cases stopped
  | succ depth ih =>
      refine (reaches_of_resolveNames ran).arrives tree ?_ rfl slashless clear all traced
      exact fun path names met reached after clear slashless all traced ran =>
        ih clear slashless all traced ran

end Arrives

section Pursued

/-- The links that are being resolved are at different places, and following each of them has led to
where the course is. -/
structure Pursued (env : Environment) (met : Met) (opened : List Place) (course : Course) :
    Prop where
  nodup : opened.Nodup
  link : ∀ place ∈ opened, ∃ target, env.system.node? place = some (.link target)
  pending : ∀ (path : Path) (name : Text), IsPlain name →
    met.lookup (path.enter name) = some none → env.place (path.enter name) ∈ opened
  chased : ∀ place ∈ opened, ∃ path name more, env.Clear path ∧ env.Faces (path, [name]) place ∧
    Relation.TransGen env.Step (path, [name]) (course.1, course.2 ++ more)

theorem Pursued.nil (course : Course) : env.Pursued [] [] course where
  nodup := List.nodup_nil
  link := by simp
  pending := fun _ _ _ isPending => nomatch isPending
  chased := by simp

theorem Pursued.steps (pursued : env.Pursued met opened course) (steps : env.Steps course later)
    (pending : ∀ link, after.lookup link = some none → met.lookup link = some none) :
    env.Pursued after opened later where
  nodup := pursued.nodup
  link := pursued.link
  pending := fun path name plain isPending =>
    pursued.pending path name plain (pending _ isPending)
  chased := by
    intro place member
    obtain ⟨path, name, more, clear, faces, chased⟩ := pursued.chased place member
    exact ⟨path, name, more, clear, faces, chased.trans_left (Steps.append steps more)⟩

/-- Without loops, a link that is come upon is a new one. -/
theorem Pursued.place_not_mem (noLoop : ¬ env.HasLoop)
    (pursued : env.Pursued met opened (path, name :: names)) (plain : IsPlain name)
    (link : env.link? (path.enter name) = some target) :
    env.place (path.enter name) ∉ opened := by
  intro member
  obtain ⟨first, firstName, more, clear, faces, chased⟩ := pursued.chased _ member
  exact noLoop ⟨first, firstName, _, _, clear, faces, chased, .link plain link⟩

/-- So there is one more link that is being resolved. -/
theorem Pursued.follow (noLoop : ¬ env.HasLoop) (clear : env.Clear path)
    (pursued : env.Pursued met opened (path, name :: names)) (plain : IsPlain name)
    (link : env.link? (path.enter name) = some target) :
    env.Pursued ((path.enter name, none) :: met) (env.place (path.enter name) :: opened)
      (linkStart path target, Path.split target) where
  nodup := List.nodup_cons.mpr ⟨pursued.place_not_mem noLoop plain link, pursued.nodup⟩
  link := by
    intro place member
    rcases List.mem_cons.mp member with rfl | member
    · exact ⟨target, (link?_eq_some_iff.mp link).2⟩
    · exact pursued.link place member
  pending := by
    intro other otherName plainOther isPending
    by_cases same : other.enter otherName = path.enter name
    · rw [same]
      exact List.mem_cons_self
    · rw [lookup_cons_of_ne none same] at isPending
      exact List.mem_cons_of_mem _ (pursued.pending other otherName plainOther isPending)
  chased := by
    intro place member
    rcases List.mem_cons.mp member with rfl | member
    · exact ⟨path, name, [], clear, .link plain link, .single (.follow plain link)⟩
    · obtain ⟨first, firstName, more, clear, faces, chased⟩ := pursued.chased place member
      refine ⟨first, firstName, names ++ more, clear, faces, chased.tail ?_⟩
      exact .follow plain link

/-- Without loops, names are resolved, if links behind them are. -/
theorem Reaches.not_stopped {follow : Path → List Text → Met → Except Obstacle Progress}
    {progress : Progress} (tree : env.system.IsTree) (noLoop : ¬ env.HasLoop)
    (arrives : ∀ path names met reached after, env.Clear path → Slashless names →
      MetAll env.Clear met → env.Traced met →
      follow path names met = .ok (.resolved reached after) →
        env.Arrives path names met reached after)
    (resolves : ∀ path names met place, env.Clear path → Slashless names →
      MetAll env.Clear met → env.Traced met → env.Pursued met (place :: opened) (path, names) →
        ∀ left, follow path names met ≠ .ok (.stopped left))
    (reaches : Reaches env follow names path met progress) (slashless : Slashless names)
    (clear : env.Clear path) (all : MetAll env.Clear met) (traced : env.Traced met)
    (pursued : env.Pursued met opened (path, names)) (left : Path) :
    progress ≠ .stopped left := by
  have keeps := keeps_clear tree
  have kept : ∀ {met : Met} (link : Path), met.lookup link = some none →
      met.lookup link = some none := fun _ isPending => isPending
  induction reaches with
  | done => nofun
  | up passes _ ih =>
      exact ih slashless.tail (keeps.up _ _ passes clear) all traced
        (pursued.steps (.single (.pass passes)) kept)
  | free plain free _ ih =>
      have unseen := clear.link?_eq_none tree plain free
      exact ih slashless.tail (keeps.down _ _ plain slashless.head free clear) all traced
        (pursued.steps (.single (.enter plain unseen)) kept)
  | known plain link seen _ ih =>
      have steps := traced _ _ _ plain seen
      exact ih slashless.tail (all.of_lookup seen) all traced
        (pursued.steps (Steps.behind steps _) kept)
  | again plain link seen =>
      rw [clear.linkTarget_iff tree plain] at link
      exact absurd (pursued.pending _ _ plain seen) (pursued.place_not_mem noLoop plain link)
  | stopped plain link unmet inner =>
      rw [clear.linkTarget_iff tree plain] at link
      exact absurd inner (resolves _ _ _ _ (keeps.linkStart clear _) (Path.slashless_split _)
        all.cons_none (traced.cons_none _) (pursued.follow noLoop clear plain link) _)
  | resolved plain link unmet inner _ ih =>
      rw [clear.linkTarget_iff tree plain] at link
      have arrived := arrives _ _ _ _ _ (keeps.linkStart clear _) (Path.slashless_split _)
        all.cons_none (traced.cons_none _) inner
      have steps := arrived.steps_link plain link
      exact ih slashless.tail arrived.clear (arrived.all.cons_some arrived.clear)
        (arrived.traced.cons_some plain steps)
        (pursued.steps (Steps.behind steps _) (lookup_of_resolved arrived.pending))

/-- Without loops, nothing stops the resolution of names, if links may be nested as deep as there
are links. -/
theorem resolveWithin_not_stopped {depth : Nat} (tree : env.system.IsTree)
    (noLoop : ¬ env.HasLoop) (clear : env.Clear path) (slashless : Slashless names)
    (all : MetAll env.Clear met) (traced : env.Traced met)
    (pursued : env.Pursued met opened (path, names))
    (enough : env.system.linkCount ≤ depth + opened.length) (left : Path) :
    env.resolveWithin depth path names met ≠ .ok (.stopped left) := by
  intro ran
  induction depth generalizing path names met opened left with
  | zero =>
      refine (reaches_of_resolveNames ran).not_stopped tree noLoop ?_ ?_ slashless clear all traced
        pursued left rfl
      · intro path names met reached after _ _ _ _ stopped
        cases stopped
      · -- there is no link left that could be followed
        intro path names met place _ _ _ _ pursued
        have fewer := System.length_le_linkCount pursued.nodup pursued.link
        rw [List.length_cons] at fewer
        omega
  | succ depth ih =>
      refine (reaches_of_resolveNames ran).not_stopped tree noLoop ?_ ?_ slashless clear all traced
        pursued left rfl
      · exact fun path names met reached after clear slashless all traced ran =>
          resolveWithin_arrives tree clear slashless all traced ran
      · intro path names met place clear slashless all traced pursued left
        refine ih clear slashless all traced pursued ?_ left
        rw [List.length_cons]
        omega

end Pursued

end Environment

end SimTriage.File
