import SimTriage.Proofs.File.Settled

/-!
How deep links are nested. The links that are being resolved are different ones, so there are never
more of them than links in the file system: the bound on their number stops nothing.
-/

set_option autoImplicit false

namespace SimTriage.File.Environment

variable {env : Environment} {path : Path} {names : List Text} {met : Met} {opened : List Place}

/-- The places of the links that are being resolved: each of them once, and none resolved yet. -/
structure Opened (env : Environment) (met : Met) (opened : List Place) : Prop where
  nodup : opened.Nodup
  link : ∀ place ∈ opened, ∃ target, env.system.node? place = some (.link target)
  pending : ∀ place ∈ opened, met.lookup ⟨.slash, place⟩ = some none

/-- A link that is being resolved before is being resolved after, unless something stopped it. -/
def KeepsPending (before : Met) : Progress → Prop
  | .resolved _ after => ∀ path, before.lookup path = some none → after.lookup path = some none
  | .stopped _ => True

/-- What is known of one path says nothing of another. -/
theorem lookup_cons_of_ne {link other : Path} (entry : Option Path) (different : other ≠ link)
    (met : Met) : List.lookup other ((link, entry) :: met) = met.lookup other := by
  have unequal : (other == link) = false := beq_false_of_ne different
  simp only [List.lookup_cons, unequal]

theorem Opened.nil : env.Opened met [] := ⟨List.nodup_nil, by simp, by simp⟩

/-- A link that has not been met is a new one. -/
theorem Opened.enter {place : Place} {target : Text} (isOpened : env.Opened met opened)
    (unmet : met.lookup ⟨.slash, place⟩ = none)
    (found : env.system.node? place = some (.link target)) :
    env.Opened ((⟨.slash, place⟩, none) :: met) (place :: opened) where
  nodup := by
    refine List.nodup_cons.mpr ⟨?_, isOpened.nodup⟩
    intro member
    rw [isOpened.pending place member] at unmet
    cases unmet
  link := by
    intro other member
    rcases List.mem_cons.mp member with rfl | member
    · exact ⟨target, found⟩
    · exact isOpened.link other member
  pending := by
    intro other member
    by_cases same : other = place
    · subst same
      exact List.lookup_cons_self
    · have different : (⟨.slash, other⟩ : Path) ≠ ⟨.slash, place⟩ := by simpa using same
      rw [lookup_cons_of_ne none different]
      exact isOpened.pending other (List.mem_of_ne_of_mem same member)

/-- A link that is met behind a settled path stands at the place that its path names, so it is one
more link that is being resolved. -/
theorem Opened.enter_link {name target : Text} (isOpened : env.Opened met opened)
    (settled : env.Settled path) (plain : IsPlain name)
    (link : env.system.linkTarget env.here (path.enter name) = .ok (some target))
    (unmet : met.lookup (path.enter name) = none) :
    path.enter name = ⟨.slash, path.names ++ [name]⟩ ∧
      env.Opened ((path.enter name, none) :: met) ((path.names ++ [name]) :: opened) := by
  have next : path.enter name = ⟨.slash, path.names ++ [name]⟩ := by
    rw [Path.enter_of_isPlain plain, settled.root]
  rw [next] at link unmet ⊢
  have plainNames : ∀ other ∈ path.names ++ [name], IsPlain other :=
    List.forall_mem_append.mpr ⟨settled.plain, List.forall_mem_singleton.mpr plain⟩
  have found := System.node?_of_linkTarget plainNames settled.free link
  exact ⟨rfl, isOpened.enter unmet found⟩

/-- Once a link is resolved, those around it are still being resolved. -/
theorem Opened.leave {place : Place} {reached : Path} {after : Met}
    (isOpened : env.Opened met opened) (unmet : met.lookup ⟨.slash, place⟩ = none)
    (keeps : KeepsPending ((⟨.slash, place⟩, none) :: met) (.resolved reached after)) :
    env.Opened ((⟨.slash, place⟩, some reached) :: after) opened where
  nodup := isOpened.nodup
  link := isOpened.link
  pending := by
    intro other member
    have pending := isOpened.pending other member
    have different : (⟨.slash, other⟩ : Path) ≠ ⟨.slash, place⟩ := by
      intro same
      rw [same, unmet] at pending
      cases pending
    rw [lookup_cons_of_ne _ different]
    apply keeps
    rwa [lookup_cons_of_ne _ different]

theorem Reaches.keepsPending {follow : Path → List Text → Met → Except Obstacle Progress}
    {progress : Progress}
    (followed : ∀ path names met progress, follow path names met = .ok progress →
      KeepsPending met progress)
    (reaches : Reaches env follow names path met progress) : KeepsPending met progress := by
  induction reaches with
  | done => exact fun _ pending => pending
  | up _ _ ih => exact ih
  | free _ _ _ ih => exact ih
  | known _ _ _ _ ih => exact ih
  | again => trivial
  | stopped => trivial
  | @resolved name _ _ path _ met _ progress _ _ unmet inner _ ih =>
      cases progress with
      | stopped left => trivial
      | resolved final after =>
          intro other pending
          have different : other ≠ path.enter name := by
            intro same
            rw [same, unmet] at pending
            cases pending
          apply ih
          rw [lookup_cons_of_ne _ different]
          apply followed _ _ _ _ inner
          rwa [lookup_cons_of_ne _ different]

theorem resolveWithin_keepsPending {depth : Nat} {progress : Progress}
    (ran : env.resolveWithin depth path names met = .ok progress) : KeepsPending met progress := by
  induction depth generalizing path names met progress with
  | zero =>
      refine (reaches_of_resolveNames ran).keepsPending fun path names met progress left => ?_
      cases left
      trivial
  | succ depth ih =>
      exact (reaches_of_resolveNames ran).keepsPending fun path names met progress ran => ih ran

/-- How links are followed matters only for those that can be met: behind a settled path, and
beside those that are being resolved. -/
theorem Reaches.congr {follow other : Path → List Text → Met → Except Obstacle Progress}
    {progress : Progress} (reaches : Reaches env follow names path met progress)
    (agree : ∀ path names met place inner, env.Settled path → Slashless names →
      MetAll env.Settled met → env.Opened met (place :: opened) →
      follow path names met = .ok inner →
        other path names met = .ok inner ∧ Holds env.Settled inner ∧ KeepsPending met inner)
    (settled : env.Settled path) (slashless : Slashless names) (all : MetAll env.Settled met)
    (isOpened : env.Opened met opened) : Reaches env other names path met progress := by
  induction reaches with
  | done => exact .done
  | up passes _ ih =>
      exact .up passes (ih (keeps_settled.up _ _ passes settled) slashless.tail all isOpened)
  | free plain free _ ih =>
      have below := keeps_settled.down _ _ plain slashless.head free settled
      exact .free plain free (ih below slashless.tail all isOpened)
  | known plain link seen _ ih =>
      exact .known plain link seen (ih (all.of_lookup seen) slashless.tail all isOpened)
  | again plain link seen => exact .again plain link seen
  | stopped plain link unmet inner =>
      obtain ⟨-, opens⟩ := isOpened.enter_link settled plain link unmet
      obtain ⟨same, -, -⟩ := agree _ _ _ _ _ (keeps_settled.linkStart settled _)
        (Path.slashless_split _) all.cons_none opens inner
      exact .stopped plain link unmet same
  | resolved plain link unmet inner _ ih =>
      obtain ⟨next, opens⟩ := isOpened.enter_link settled plain link unmet
      obtain ⟨same, ⟨settledReached, allAfter⟩, keeps⟩ :=
        agree _ _ _ _ _ (keeps_settled.linkStart settled _) (Path.slashless_split _)
          all.cons_none opens inner
      refine .resolved plain link unmet same
        (ih settledReached slashless.tail (allAfter.cons_some settledReached) ?_)
      rw [next] at unmet keeps ⊢
      exact isOpened.leave unmet keeps

/-- If links are nested at most as deep as there are links, one level more changes nothing. -/
theorem resolveWithin_succ {depth : Nat} {progress : Progress} (settled : env.Settled path)
    (slashless : Slashless names) (all : MetAll env.Settled met) (isOpened : env.Opened met opened)
    (enough : env.system.linkCount ≤ depth + opened.length)
    (ran : env.resolveWithin depth path names met = .ok progress) :
    env.resolveWithin (depth + 1) path names met = .ok progress := by
  induction depth generalizing path names met opened progress with
  | zero =>
      refine ((reaches_of_resolveNames ran).congr ?_ settled slashless all isOpened).resolveNames_eq
      -- there is no link left that could be met
      intro path names met place inner _ _ _ isOpened
      have fewer := System.length_le_linkCount isOpened.nodup isOpened.link
      rw [List.length_cons] at fewer
      omega
  | succ depth ih =>
      refine ((reaches_of_resolveNames ran).congr ?_ settled slashless all isOpened).resolveNames_eq
      intro path names met place inner settled slashless all isOpened ran
      refine ⟨ih settled slashless all isOpened ?_ ran, ?_, resolveWithin_keepsPending ran⟩
      · rw [List.length_cons]
        omega
      · exact resolveWithin_holds keeps_settled slashless settled all ran

theorem linkCount_le_nestingBound (env : Environment) :
    env.system.linkCount ≤ env.nestingBound := by
  have several : env.system.linkCount * 1 ≤ env.system.linkCount * (env.here.length + 2) :=
    Nat.mul_le_mul_left _ (by omega)
  unfold nestingBound
  omega

/-- The bound on how deep links can be nested stops nothing: behind the root, whatever is reached
within it is reached within any greater one. -/
theorem resolveWithin_of_nestingBound_le {depth : Nat} {progress : Progress}
    (slashless : Slashless names) (enough : env.nestingBound ≤ depth)
    (ran : env.resolveWithin env.nestingBound ⟨.slash, []⟩ names [] = .ok progress) :
    env.resolveWithin depth ⟨.slash, []⟩ names [] = .ok progress := by
  induction enough with
  | refl => exact ran
  | step enough ih =>
      have covered := Nat.le_trans env.linkCount_le_nestingBound enough
      exact resolveWithin_succ keeps_settled.root slashless MetAll.nil Opened.nil covered ih

end SimTriage.File.Environment
