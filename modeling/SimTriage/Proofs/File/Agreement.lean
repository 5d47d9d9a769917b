import SimTriage.Proofs.File.Loop

/-!
What resolving a path looks at. It comes to the same in any two file systems with the same links,
whatever files and directories they have, even where a loop of links stops it.
-/

set_option autoImplicit false

namespace SimTriage.File

namespace Environment

variable {env other : Environment} {path : Path} {names : List Text} {met : Met}

/-- Environments that show the same links to those who resolve a path. In both, all that there is
can be reached from the root. -/
structure SharesLinks (env other : Environment) : Prop where
  tree : env.system.IsTree
  treeOther : other.system.IsTree
  here : other.here = env.here
  links : ∀ place target, other.system.node? place = some (.link target) ↔
    env.system.node? place = some (.link target)

theorem SharesLinks.symm (shares : env.SharesLinks other) : other.SharesLinks env where
  tree := shares.treeOther
  treeOther := shares.tree
  here := shares.here.symm
  links := fun place target => (shares.links place target).symm

theorem SharesLinks.place (shares : env.SharesLinks other) (path : Path) :
    other.place path = env.place path := by
  rw [Environment.place, Environment.place, shares.here]

theorem SharesLinks.link? (shares : env.SharesLinks other) (path : Path) :
    other.link? path = env.link? path := by
  ext target
  rw [link?_eq_some_iff, link?_eq_some_iff, shares.place, shares.links]

theorem SharesLinks.linkCount_le (shares : env.SharesLinks other) :
    env.system.linkCount ≤ other.system.linkCount := by
  refine System.length_le_linkCount env.system.nodup_linkPlaces fun place member => ?_
  obtain ⟨target, found⟩ := System.mem_linkPlaces_iff.mp member
  exact ⟨target, (shares.links place target).mpr found⟩

/-- Links may be nested equally deep. -/
theorem SharesLinks.nestingBound_eq (shares : env.SharesLinks other) :
    other.nestingBound = env.nestingBound := by
  have count : other.system.linkCount = env.system.linkCount :=
    Nat.le_antisymm shares.symm.linkCount_le shares.linkCount_le
  rw [nestingBound, nestingBound, count, shares.here]

/-- Resolving names comes to the same, if following links does. -/
theorem resolveNames_congr {follow further : Path → List Text → Met → Except Obstacle Progress}
    (shares : env.SharesLinks other)
    (holds : ∀ path names met progress, env.Clear path → Slashless names →
      MetAll env.Clear met → follow path names met = .ok progress → Holds env.Clear progress)
    (agree : ∀ path names met, env.Clear path → Slashless names → MetAll env.Clear met →
      further path names met = follow path names met)
    (clear : env.Clear path) (slashless : Slashless names) (all : MetAll env.Clear met) :
    resolveNames other further names path met = resolveNames env follow names path met := by
  have keeps := keeps_clear shares.tree
  have sees : ∀ {path : Path} {name : Text}, env.Clear path → IsPlain name →
      other.system.linkTarget other.here (path.enter name) =
        env.system.linkTarget env.here (path.enter name) :=
    fun clear plain => clear.linkTarget_congr shares.tree shares.treeOther shares.here shares.link?
      plain
  -- a link is followed behind a clear path, so following it comes to the same
  have follows : ∀ {path : Path} {target : Text} {met : Met}, env.Clear path →
      MetAll env.Clear met → further (linkStart path target) (Path.split target) met =
        follow (linkStart path target) (Path.split target) met :=
    fun clear all => agree _ _ _ (keeps.linkStart clear _) (Path.slashless_split _) all
  fun_induction resolveNames env follow names path met with
  | case1 => rfl
  | case2 name names path met passes ih =>
      rw [resolveNames, if_pos passes]
      have above := keeps.up path name (by simpa using passes) clear
      exact ih above slashless.tail all
  | case3 name names path met passes next obstacle failed =>
      have seen := (sees clear (isPlain_of_busy passes)).trans failed
      simp only [resolveNames, passes, seen, Bool.false_eq_true, ↓reduceIte]
  | case4 name names path met passes next free ih =>
      have plain := isPlain_of_busy passes
      have seen := (sees clear plain).trans free
      simp only [resolveNames, passes, seen, Bool.false_eq_true, ↓reduceIte]
      exact ih (keeps.down path name plain slashless.head free clear) slashless.tail all
  | case5 name names path met passes next target link known seen ih =>
      have noticed := (sees clear (isPlain_of_busy passes)).trans link
      unfold next at seen
      simp only [resolveNames, passes, noticed, seen, Bool.false_eq_true, ↓reduceIte]
      exact ih (all.of_lookup seen) slashless.tail all
  | case6 name names path met passes next target link seen =>
      have noticed := (sees clear (isPlain_of_busy passes)).trans link
      unfold next at seen
      simp only [resolveNames, passes, noticed, seen, Bool.false_eq_true, ↓reduceIte]
      rfl
  | case7 name names path met passes next target link unmet start obstacle inner =>
      have noticed := (sees clear (isPlain_of_busy passes)).trans link
      have agreed := (follows clear all.cons_none).trans inner
      unfold linkStart next at agreed
      unfold next at unmet
      simp only [resolveNames, passes, noticed, unmet, agreed, Bool.false_eq_true, ↓reduceIte]
  | case8 name names path met passes next target link unmet start left inner =>
      have noticed := (sees clear (isPlain_of_busy passes)).trans link
      have agreed := (follows clear all.cons_none).trans inner
      unfold linkStart next at agreed
      unfold next at unmet
      simp only [resolveNames, passes, noticed, unmet, agreed, Bool.false_eq_true, ↓reduceIte]
  | case9 name names path met passes next target link unmet start reached after inner ih =>
      have noticed := (sees clear (isPlain_of_busy passes)).trans link
      have agreed := (follows clear all.cons_none).trans inner
      obtain ⟨clearReached, allAfter⟩ :=
        holds _ _ _ _ (keeps.linkStart clear target) (Path.slashless_split target) all.cons_none
          inner
      unfold linkStart next at agreed
      unfold next at unmet
      simp only [resolveNames, passes, noticed, unmet, agreed, Bool.false_eq_true, ↓reduceIte]
      exact ih clearReached slashless.tail (allAfter.cons_some clearReached)

/-- Whatever stops the resolution of names does so wherever the links are the same. -/
theorem SharesLinks.resolveWithin_eq {depth : Nat} (shares : env.SharesLinks other)
    (clear : env.Clear path) (slashless : Slashless names) (all : MetAll env.Clear met) :
    other.resolveWithin depth path names met = env.resolveWithin depth path names met := by
  induction depth generalizing path names met with
  | zero =>
      refine resolveNames_congr shares (fun path names met progress clear slashless _ stopped => ?_)
        (fun _ _ _ _ _ _ => rfl) clear slashless all
      cases stopped
      exact slashless_leave path names clear.slashless slashless
  | succ depth ih =>
      exact resolveNames_congr shares
        (fun path names met progress clear slashless all ran =>
          resolveWithin_holds (keeps_clear shares.tree) slashless clear all ran)
        (fun path names met clear slashless all => ih clear slashless all) clear slashless all

/-- Without loops, the bound on how deep links may be nested stops nothing. -/
theorem not_stopped_of_not_hasLoop (tree : env.system.IsTree) (noLoop : ¬ env.HasLoop)
    (clear : env.Clear path) (slashless : Slashless names) (left : Path) :
    env.resolveWithin env.nestingBound path names [] ≠ .ok (.stopped left) :=
  resolveWithin_not_stopped tree noLoop clear slashless MetAll.nil Traced.nil (Pursued.nil _)
    env.linkCount_le_nestingBound left

end Environment

end SimTriage.File
