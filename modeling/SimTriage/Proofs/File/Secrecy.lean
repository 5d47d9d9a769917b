import SimTriage.Proofs.File.Agreement
import SimTriage.Proofs.File.Confined

/-!
Requests and what lies outside the base directory. Of what is outside only links have a say in what
a request comes to: files and directories there might as well not be, unless a loop of links stops
the request. What a lookup of the path comes to that is left then may be seen.
-/

set_option autoImplicit false

namespace SimTriage.File

namespace System

variable {system other : System} {final : Bool} {here : Place} {names : List Text}
  {follow followOther : Place → List Text → Except Obstacle (Place × Node)}

/-- Along names without links on their way, walks find what stands there. -/
theorem walk_congr (plain : ∀ name ∈ names, IsPlain name)
    (free : ∀ front, front <+: names → front ≠ [] → AreShort front →
      ∀ target, system.node? (here ++ front) ≠ some (.link target))
    (same : ∀ front, front <+: names → front ≠ [] →
      other.node? (here ++ front) = system.node? (here ++ front)) :
    walk other final followOther names here = walk system final follow names here := by
  induction names generalizing here with
  | nil => rfl
  | cons name names ih =>
      have plainName := plain name List.mem_cons_self
      have first : [name] <+: name :: names := List.prefix_append [name] names
      have sameFirst := same [name] first (by simp)
      simp only [walk, plainName.1, plainName.2, sameFirst, Bool.false_eq_true, ↓reduceIte]
      split
      · rfl
      rename_i long
      have shortName : AreShort [name] := List.forall_mem_singleton.mpr (Nat.le_of_not_lt long)
      split
      · rfl
      · have behind : ∀ front : List Text, here ++ name :: front = here ++ [name] ++ front := by
          simp
        have longer : ∀ {front : List Text}, front <+: names → name :: front <+: name :: names :=
          fun isPrefix => List.cons_prefix_cons.mpr ⟨rfl, isPrefix⟩
        apply ih
        · exact fun other member => plain other (List.mem_cons_of_mem _ member)
        · intro front isPrefix _ short
          rw [← behind]
          exact free _ (longer isPrefix) (by simp) (List.forall_mem_cons.mpr
            ⟨Nat.le_of_not_lt long, short⟩)
        · intro front isPrefix _
          rw [← behind]
          exact same _ (longer isPrefix) (by simp)
      · rfl
      · rename_i target found
        exact absurd found (free [name] first (by simp) shortName target)

/-- A walk that comes to its end in one file system does not follow too many links in another with
the same ones: it follows no others. -/
theorem walk_ne_tooManyLinks
    (links : ∀ place target, other.node? place = some (.link target) ↔
      system.node? place = some (.link target))
    (followed : ∀ here names found, follow here names = .ok found →
      followOther here names ≠ .error .tooManyLinks)
    {found : Place × Node} (reached : walk system final follow names here = .ok found) :
    walk other final followOther names here ≠ .error .tooManyLinks := by
  have noLink : ∀ {place : Place} {node : Node}, system.node? place = some node →
      (∀ target, node ≠ .link target) → ∀ target, other.node? place ≠ some (.link target) := by
    intro place node found noLink target foundOther
    rw [(links place target).mp foundOther] at found
    cases found
    exact noLink target rfl
  fun_induction walk system final follow names here with
  | case1 => simp [walk]
  | case2 name names here idle ih =>
      rw [walk, if_pos idle]
      exact ih reached
  | case3 names here busy ih =>
      rw [walk, if_neg busy, if_pos rfl]
      exact ih reached
  | case4 => cases reached
  | case5 => cases reached
  | case6 name names here busy dots short found ih =>
      rw [walk, if_neg busy, if_neg dots, if_neg short]
      split
      · simp
      · exact ih reached
      · split <;> simp
      · rename_i target foundOther
        exact absurd foundOther (noLink found (by simp) target)
  | case7 name here busy dots short content found =>
      rw [walk, if_neg busy, if_neg dots, if_neg short]
      split
      · simp
      · simp [walk]
      · simp
      · rename_i target foundOther
        exact absurd foundOther (noLink found (by simp) target)
  | case8 => cases reached
  | case9 name names here busy dots short target found kept =>
      rw [walk, if_neg busy, if_neg dots, if_neg short, (links _ target).mpr found]
      dsimp only
      rw [if_pos kept]
      simp
  | case10 name names here busy dots short target found kept =>
      rw [walk, if_neg busy, if_neg dots, if_neg short, (links _ target).mpr found]
      dsimp only
      rw [if_neg kept]
      exact followed _ _ _ reached

theorem walkWithin_ne_tooManyLinks
    (links : ∀ place target, other.node? place = some (.link target) ↔
      system.node? place = some (.link target)) {count : Nat} {found : Place × Node}
    (reached : walkWithin system final count here names = .ok found) :
    walkWithin other final count here names ≠ .error .tooManyLinks := by
  induction count generalizing here names found with
  | zero =>
      refine walk_ne_tooManyLinks links (fun here names found failed => ?_) reached
      cases failed
  | succ count ih => exact walk_ne_tooManyLinks links (fun _ _ _ reached => ih reached) reached

/-- A lookup goes round a cycle of links: however many may be followed, there are too many. -/
def HasCycle (system : System) : Prop :=
  ∃ final here names, ∀ count, walkWithin system final count here names = .error .tooManyLinks

/-- There is no cycle, if no lookup meets a link behind another. -/
theorem not_hasCycle_of_single
    (single : ∀ final here name target names,
      system.node? (here ++ [name]) = some (.link target) →
        walkWithin system final 0 (if Root.ofText target = .here then here else [])
          (Path.split target ++ names) ≠ .error .tooManyLinks) : ¬ system.HasCycle := by
  intro cycle
  obtain ⟨final, here, names, tooMany⟩ := cycle
  exact walk_ne_error (Or.inr rfl) (single final) names here (tooMany 1)

end System

namespace Environment

variable {env other : Environment} {path base resolved : Path} {request : Text} {inside : Place}

section Stat

/-- No link that is looked up stands on the way of a settled path. -/
theorem Settled.node?_ne_link (settled : env.Settled path) (tree : env.system.IsTree)
    (lookedUp : path.IsLookedUp) {front : List Text} (isPrefix : front <+: path.names)
    (nonempty : front ≠ []) (short : AreShort front) (target : Text) :
    env.system.node? front ≠ some (.link target) := by
  intro found
  have root : path = ⟨.slash, path.names⟩ := by rw [← settled.root]
  obtain ⟨back, split⟩ := isPrefix
  rw [root, ← split] at lookedUp
  have begins := lookedUp.of_append nonempty
  have plain : ∀ other ∈ front, IsPlain other := by
    intro other member
    apply settled.plain
    rw [← split]
    exact List.mem_append_left back member
  have free := settled.free front ⟨back, split⟩ nonempty
  obtain rfl | ⟨here, name, rfl⟩ := List.eq_nil_or_concat front
  · exact absurd rfl nonempty
  rw [List.concat_eq_append] at *
  rw [System.linkTarget_of_found (tree.isDirectory found) plain short begins.zero begins.size found]
    at free
  cases free

/-- What a settled path leads to is found by a walk that follows no links, and wherever the same
stands on its way. -/
theorem Settled.stat_eq_walk (settled : env.Settled path) (tree : env.system.IsTree)
    (same : ∀ front, front <+: path.names → front ≠ [] →
      other.system.node? front = env.system.node? front) (lookedUp : path.IsLookedUp) :
    other.system.stat other.here path =
      System.walk env.system true (fun _ _ => .error .missing) path.names [] := by
  obtain ⟨follow, walks⟩ := System.exists_walk other.system true maxLinks
  rw [System.stat, System.find_of_isLookedUp lookedUp, if_pos settled.isAbsolute, walks]
  exact System.walk_congr settled.plain
    (fun _ isPrefix nonempty short => settled.node?_ne_link tree lookedUp isPrefix nonempty short)
    same

theorem Settled.stat_congr (settled : env.Settled path) (tree : env.system.IsTree)
    (same : ∀ front, front <+: path.names → front ≠ [] →
      other.system.node? front = env.system.node? front) :
    other.system.stat other.here path = env.system.stat env.here path := by
  by_cases lookedUp : path.IsLookedUp
  · rw [settled.stat_eq_walk tree same lookedUp,
      settled.stat_eq_walk tree (fun _ _ _ => rfl) lookedUp]
  · exact (System.find_of_not_isLookedUp lookedUp).trans
      (System.find_of_not_isLookedUp lookedUp).symm

theorem Settled.stat_ne_tooManyLinks (settled : env.Settled path) (tree : env.system.IsTree) :
    env.system.stat env.here path ≠ .error .tooManyLinks := by
  by_cases lookedUp : path.IsLookedUp
  · rw [settled.stat_eq_walk tree (fun _ _ _ => rfl) lookedUp]
    refine System.walk_ne_error (Or.inr rfl) (fun _ _ _ _ _ => ?_) _ _
    nofun
  · rw [System.stat, System.find_of_not_isLookedUp lookedUp]
    split <;> nofun

/-- A path that leads somewhere does not lead along too many links elsewhere. -/
theorem SharesLinks.stat_ne_tooManyLinks (shares : env.SharesLinks other) {found : Place × Node}
    (reached : env.system.stat env.here path = .ok found) :
    other.system.stat other.here path ≠ .error .tooManyLinks := by
  obtain ⟨lookedUp, walked⟩ := System.find_eq_ok_iff.mp reached
  rw [System.stat, System.find_of_isLookedUp lookedUp, shares.here]
  exact System.walkWithin_ne_tooManyLinks shares.links walked

end Stat

/-- Outside the base directory a settled path is refused, whatever is there. -/
theorem Settled.verdict_of_not_isUnder (settled : env.Settled path) (tree : env.system.IsTree)
    (outside : path.isUnder base = false) :
    env.verdict base path =
      if path.text.contains '\x00' then .error .zeroInPath else .error .outsideBase := by
  by_cases zero : path.text.contains '\x00' = true
  · have failed : env.system.stat env.here path = .error .zeroByte :=
      System.find_eq_zeroByte_iff.mpr zero
    rw [if_pos zero, verdict, failed]
  · rw [if_neg zero, verdict]
    split
    · rename_i loop
      exact absurd loop (settled.stat_ne_tooManyLinks tree)
    · rename_i failed
      exact absurd (System.find_eq_zeroByte_iff.mp failed) zero
    · rw [outside]
      rfl

/-- Where the resolution of a path begins. -/
theorem clear_start (path : Path) :
    env.Clear (if path.isAbsolute then ⟨.slash, []⟩ else ⟨.here, []⟩) := by
  split
  · exact .root
  · exact .up 0

/-- Two environments that differ in nothing but the files and directories outside the base
directory, which exists: where and for whom paths are looked up is the same, and so are the links,
and all that stands at the place of the base directory or below it. -/
structure AgreesInside (env other : Environment) (base : Path) (inside : Place) : Prop
    extends env.SharesLinks other where
  home : other.home = env.home
  accounts : other.accounts = env.accounts
  setting : other.baseSetting = env.baseSetting
  isBase : env.base = .ok base
  leads : ∃ node, env.system.stat env.here base = .ok (inside, node)
  same : ∀ place, inside <+: place → other.system.node? place = env.system.node? place

section Agreement

variable (agrees : env.AgreesInside other base inside)

include agrees

theorem AgreesInside.expandHome (path : Path) : other.expandHome path = env.expandHome path := by
  simp only [Environment.expandHome, homeOf, agrees.home, agrees.accounts]

theorem AgreesInside.herePath_eq : other.herePath = env.herePath := by
  rw [herePath, herePath, agrees.here]

/-- The base directory is the same. -/
theorem AgreesInside.base_eq (here : Slashless env.here) : other.base = .ok base := by
  obtain ⟨progress, ran, final, -, noZero⟩ := resolve_eq_ok_iff.mp agrees.isBase
  obtain ⟨node, leads⟩ := agrees.leads
  have shares := agrees.toSharesLinks
  unfold Environment.base
  rw [agrees.setting, agrees.herePath_eq]
  refine resolve_eq_ok_iff.mpr ⟨progress, ?_, ?_, shares.stat_ne_tooManyLinks leads, ?_⟩
  · rw [shares.nestingBound_eq, shares.resolveWithin_eq (clear_start _) _ MetAll.nil]
    · exact ran
    · cases env.baseSetting with
      | none => exact here
      | some setting => exact fun name member => (Path.written_ofText setting name member).2
  · rw [agrees.herePath_eq]
    exact final
  · exact fun zero =>
      noZero (System.find_eq_zeroByte_iff.mpr (System.find_eq_zeroByte_iff.mp zero))

/-- On the way to a settled path below the base directory the same stands. -/
theorem AgreesInside.node?_eq (settled : env.Settled resolved)
    (under : resolved.isUnder base = true) {front : List Text}
    (isPrefix : front <+: resolved.names) :
    other.system.node? front = env.system.node? front := by
  rw [Path.isUnder, Bool.and_eq_true, decide_eq_true_iff, List.isPrefixOf_iff_prefix] at under
  obtain ⟨root, above⟩ := under
  obtain ⟨node, leads⟩ := agrees.leads
  -- the base directory stands at the place that its path names, here and there
  have place : inside = base.names :=
    System.stat_place (root.symm.trans settled.root)
      (fun name member => settled.plain name (above.subset member))
      (fun front isPrefix => settled.free front (isPrefix.trans above)) leads
  have absolute : base.isAbsolute = true := by
    rw [Path.isAbsolute, ← root, settled.root]
    rfl
  have stands := System.find_stands absolute leads
  have standsOther := agrees.treeOther inside node
    ((agrees.same inside List.prefix_rfl).trans stands.found)
  rw [← place] at above
  rcases List.prefix_or_prefix_of_prefix isPrefix above with outer | inner
  · by_cases whole : front = inside
    · rw [whole]
      exact agrees.same inside List.prefix_rfl
    · rw [stands.way front outer whole, standsOther.way front outer whole]
  · exact agrees.same front inner

/-- So a settled path is decided on in the same way. -/
theorem AgreesInside.verdict_eq (settled : env.Settled resolved)
    (settledOther : other.Settled resolved) :
    other.verdict base resolved = env.verdict base resolved := by
  cases under : resolved.isUnder base with
  | false =>
      rw [settled.verdict_of_not_isUnder agrees.tree under,
        settledOther.verdict_of_not_isUnder agrees.treeOther under]
  | true =>
      have same := settled.stat_congr agrees.tree fun front isPrefix _ =>
        agrees.node?_eq settled under isPrefix
      rw [verdict, verdict, same]

/-- The names of a request are resolved to the same. -/
theorem AgreesInside.resolveWithin_eq (here : Slashless env.here) (depth : Nat)
    (expanded : env.expandHome (.ofText request) = .ok path) :
    other.resolveWithin depth ⟨.slash, []⟩ (base.join path).names [] =
      env.resolveWithin depth ⟨.slash, []⟩ (base.join path).names [] :=
  agrees.toSharesLinks.resolveWithin_eq .root (slashless_requested here agrees.isBase expanded)
    MetAll.nil

/-- What stops a request in one of the environments stops it in the other. -/
theorem AgreesInside.stopsAt_iff (here : Slashless env.here) {left : Path} :
    other.StopsAt request left ↔ env.StopsAt request left := by
  have isBase := agrees.isBase
  have isBaseOther := agrees.base_eq here
  have bound := agrees.toSharesLinks.nestingBound_eq
  constructor
  · intro stops
    obtain ⟨start, path, isStart, expanded, ran⟩ := stops
    cases Except.ok.inj (isBaseOther.symm.trans isStart)
    rw [agrees.expandHome] at expanded
    refine ⟨base, path, isBase, expanded, fun depth enough => ?_⟩
    rw [← agrees.resolveWithin_eq here depth expanded]
    exact ran depth (bound ▸ enough)
  · intro stops
    obtain ⟨start, path, isStart, expanded, ran⟩ := stops
    cases Except.ok.inj (isBase.symm.trans isStart)
    refine ⟨base, path, isBaseOther, (agrees.expandHome _).trans expanded,
      fun depth enough => ?_⟩
    rw [agrees.resolveWithin_eq here depth expanded]
    exact ran depth (bound ▸ enough)

/-- A request that no loop stops comes to the same, be it accepted or not. -/
theorem AgreesInside.locate_eq (here : Slashless env.here)
    (unstopped : ¬ ∃ left, env.StopsAt request left) :
    other.locate request = env.locate request := by
  have isBase := agrees.isBase
  have isBaseOther := agrees.base_eq here
  have expandedOther := agrees.expandHome (.ofText request)
  cases expanded : env.expandHome (.ofText request) with
  | error failure =>
      rw [locate_of_expandHome isBase expanded,
        locate_of_expandHome isBaseOther (expandedOther.trans expanded)]
  | ok path =>
      rw [expanded] at expandedOther
      have same : other.resolveWithin other.nestingBound ⟨.slash, []⟩ (base.join path).names [] =
          env.resolveWithin env.nestingBound ⟨.slash, []⟩ (base.join path).names [] := by
        rw [agrees.toSharesLinks.nestingBound_eq]
        exact agrees.resolveWithin_eq here _ expanded
      cases ran : env.resolveWithin env.nestingBound ⟨.slash, []⟩ (base.join path).names [] with
      | error obstacle =>
          have ranOther := same.trans ran
          rw [← start_eq_root isBase path] at ran ranOther
          rw [locate_of_resolve isBase expanded (resolve_of_error ran),
            locate_of_resolve isBaseOther expandedOther (resolve_of_error ranOther)]
      | ok progress =>
          have settled := (settled_or_stopsAt here isBase expanded ran).resolve_right
            fun stops => unstopped ⟨_, stops⟩
          have hereOther : Slashless other.here := by rwa [agrees.here]
          have settledOther :=
            (settled_or_stopsAt hereOther isBaseOther expandedOther (same.trans ran)).resolve_right
              fun stops => unstopped ⟨_, (agrees.stopsAt_iff here).mp stops⟩
          rw [locate_eq_verdict isBase expanded ran,
            locate_eq_verdict isBaseOther expandedOther (same.trans ran), agrees.herePath_eq,
            settled.normalize_join]
          exact agrees.verdict_eq settled settledOther

end Agreement

/-- Without loops, nothing stops a request. -/
theorem not_stopsAt_of_not_hasLoop (tree : env.system.IsTree) (here : Slashless env.here)
    (noLoop : ¬ env.HasLoop) : ¬ ∃ left, env.StopsAt request left := by
  intro stops
  obtain ⟨left, base, path, isBase, expanded, ran⟩ := stops
  have slashless := slashless_requested here isBase expanded
  exact not_stopped_of_not_hasLoop tree noLoop .root slashless left (ran _ Nat.le.refl)

/-- What requests say of files and directories outside the base directory. In environments that
differ in nothing else, the base directory is the same, and every request that no loop of links
stops comes to the same: to the same path, or to the same failure. So does every request where there
are no loops. If a loop does stop a request, it is what a lookup of the path comes to that is left
which decides on it, here and there. A request that is resolved to somewhere outside the base
directory is refused; if it is not stopped, in both, and in the same words, whatever is there. -/
theorem locate_agrees (agrees : env.AgreesInside other base inside) (here : Slashless env.here) :
    other.base = .ok base ∧
      (∀ request, (¬ ∃ left, env.StopsAt request left) →
        other.locate request = env.locate request) ∧
      (¬ env.HasLoop → ∀ request, other.locate request = env.locate request) ∧
      (∀ request left, env.StopsAt request left →
        env.locate request = env.verdict base (env.herePath.join left).normalize ∧
          other.locate request = other.verdict base (env.herePath.join left).normalize) ∧
      (∀ request path resolved, env.expandHome (.ofText request) = .ok path →
        env.resolve (base.join path) = .ok resolved → resolved.isUnder base = false →
          env.locate request = .error .outsideBase ∧
            ((¬ ∃ left, env.StopsAt request left) →
              other.locate request = .error .outsideBase)) ∧
      Failure.outsideBase.kind = .value ∧
      Failure.outsideBase.message = "Path escapes base dir" := by
  refine ⟨agrees.base_eq here, fun _ => agrees.locate_eq here, ?_, ?_, ?_, rfl, rfl⟩
  · intro noLoop request
    exact agrees.locate_eq here (not_stopsAt_of_not_hasLoop agrees.tree here noLoop)
  · intro request left stops
    refine ⟨locate_of_stopsAt stops agrees.isBase, ?_⟩
    rw [← agrees.herePath_eq]
    exact locate_of_stopsAt ((agrees.stopsAt_iff here).mpr stops) (agrees.base_eq here)
  · intro request path resolved expanded isResolved outside
    have refused := locate_of_not_isUnder agrees.isBase expanded isResolved outside
    exact ⟨refused, fun unstopped => (agrees.locate_eq here unstopped).trans refused⟩

/-- The environment with one more file. -/
def withFile (env : Environment) (place : Place) (content : Bytes) : Environment :=
  { env with system := ⟨env.system.nodes ++ [(place, .file content)]⟩ }

theorem node?_withFile {place elsewhere : Place} (content : Bytes) (different : elsewhere ≠ place) :
    (env.withFile place content).system.node? elsewhere = env.system.node? elsewhere := by
  cases elsewhere with
  | nil => rfl
  | cons name names =>
      have missing : List.lookup (name :: names) [(place, Node.file content)] = none := by
        rw [List.lookup_cons, beq_false_of_ne different]
        rfl
      change List.lookup (name :: names) (env.system.nodes ++ [(place, _)]) =
        List.lookup (name :: names) env.system.nodes
      rw [List.lookup_append, missing, Option.or_none]

/-- A file that comes to stand where nothing was, outside the base directory, is such a
difference. -/
theorem agreesInside_withFile {place : Place} {content : Bytes} (tree : env.system.IsTree)
    (treeWith : (env.withFile place content).system.IsTree)
    (found : (env.withFile place content).system.node? place = some (.file content))
    (free : env.system.node? place = none) (outside : ¬ inside <+: place)
    (isBase : (env.withFile place content).base = .ok base)
    (leads : ∃ node, (env.withFile place content).system.stat env.here base = .ok (inside, node)) :
    (env.withFile place content).AgreesInside env base inside where
  tree := treeWith
  treeOther := tree
  here := rfl
  links := by
    intro elsewhere target
    by_cases same : elsewhere = place
    · subst same
      rw [free, found]
      exact ⟨nofun, nofun⟩
    · rw [node?_withFile content same]
  home := rfl
  accounts := rfl
  setting := rfl
  isBase := isBase
  leads := leads
  same := by
    intro elsewhere below
    rw [node?_withFile content]
    rintro rfl
    exact outside below

/-- The place of a file next to a base directory. -/
def hidden : Place := ["secret.env"]

/-- A base directory with a message file and a link that leads out, to where nothing is. -/
def bare : Environment where
  system := ⟨[
    (["base"], .directory),
    (["base", "notes.log"], .file (Text.Utf8.encode "notes")),
    (["base", "out.log"], .link "/secret.env")]⟩
  here := []
  home := some "/"
  accounts := []
  baseSetting := some "/base"

/-- The same with a file there. -/
def stocked : Environment := bare.withFile hidden (Text.Utf8.encode "secret")

theorem agreesInside_bare : stocked.AgreesInside bare ⟨.slash, ["base"]⟩ ["base"] :=
  agreesInside_withFile (System.isTree_of_forall (by decide +kernel))
    (System.isTree_of_forall (by decide +kernel)) (by decide +kernel) (by decide +kernel)
    (by decide) (by decide +kernel) ⟨.directory, by decide +kernel⟩

theorem link?_stocked {path : Path} {target : Text} (link : stocked.link? path = some target) :
    stocked.place path = ["base", "out.log"] ∧ target = "/secret.env" := by
  obtain ⟨-, found⟩ := link?_eq_some_iff.mp link
  rcases System.mem_of_node? found with ⟨-, directory⟩ | listed
  · cases directory
  · simpa [stocked, bare, withFile] using listed

/-- The courses behind the link. -/
inductive LeadsOn : Course → Prop
  | first : LeadsOn (⟨.slash, []⟩, [] :: hidden)
  | second : LeadsOn (⟨.slash, []⟩, hidden)
  | last : LeadsOn (⟨.slash, hidden⟩, [])

theorem not_hasLoop_stocked : ¬ stocked.HasLoop := by
  apply not_hasLoop_of_preserved LeadsOn
  · intro path name target _ link
    rw [(link?_stocked link).2]
    exact .first
  · intro course later leads step
    cases leads with
    | first =>
        cases step with
        | pass _ => exact .second
        | enter plain _ => exact absurd rfl plain.ne_nil
        | follow plain _ => exact absurd rfl plain.ne_nil
    | second =>
        cases step with
        | pass passes => exact absurd passes (by decide)
        | enter _ _ => exact .last
        | follow _ link => exact absurd (link?_stocked link).1 (by decide)
    | last => cases step
  · intro course place leads faces
    cases faces with
    | link plain link =>
        cases leads with
        | first => exact plain.ne_nil rfl
        | second => exact absurd (link?_stocked link).1 (by decide)

/-- Whether there is anything to lead out to does not show. -/
theorem locate_agrees_out :
    stocked.AgreesInside bare ⟨.slash, ["base"]⟩ ["base"] ∧ Slashless stocked.here ∧
      ¬ stocked.HasLoop ∧ stocked.locate "out.log" = .error .outsideBase ∧
      bare.locate "out.log" = .error .outsideBase := by
  have here : Slashless stocked.here := by simp [Slashless, stocked, bare, withFile]
  obtain ⟨-, -, -, -, outside, -⟩ := locate_agrees agreesInside_bare here
  obtain ⟨refused, refusedOther⟩ := outside "out.log" ⟨.here, ["out.log"]⟩ ⟨.slash, ["secret.env"]⟩
    (by decide +kernel) (by decide +kernel) (by decide +kernel)
  have unstopped : ¬ ∃ left, stocked.StopsAt "out.log" left :=
    not_stopsAt_of_not_hasLoop agreesInside_bare.tree here not_hasLoop_stocked
  exact ⟨agreesInside_bare, here, not_hasLoop_stocked, refused, refusedOther unstopped⟩

/-- A base directory with a link that comes back to itself by way of a directory that does not
exist, so that no lookup gets round it, and a link that leads out, to where nothing is. -/
def dangling : Environment :=
  { bare with
    system := ⟨[
      (["base"], .directory),
      (["base", "loop"], .link "missing/../loop"),
      (["base", "out.log"], .link "../secret.env")]⟩ }

/-- The same with a file there. -/
def exposing : Environment := dangling.withFile hidden (Text.Utf8.encode "secret")

theorem link_dangling {here : Place} {name target : Text}
    (found : dangling.system.node? (here ++ [name]) = some (.link target)) :
    here = ["base"] ∧ (target = "missing/../loop" ∨ target = "../secret.env") := by
  rcases System.mem_of_node? found with ⟨nil, -⟩ | listed
  · simp at nil
  · have above : ∀ place : Place, here ++ [name] = place → here = place.dropLast := by
      rintro place rfl
      rw [List.dropLast_concat]
    have entries : (here ++ [name] = ["base", "loop"] ∧ target = "missing/../loop") ∨
        (here ++ [name] = ["base", "out.log"] ∧ target = "../secret.env") := by
      simpa [dangling] using listed
    rcases entries with ⟨place, rfl⟩ | ⟨place, rfl⟩
    · exact ⟨above _ place, Or.inl rfl⟩
    · exact ⟨above _ place, Or.inr rfl⟩

theorem not_hasCycle_dangling : ¬ dangling.system.HasCycle := by
  refine System.not_hasCycle_of_single fun final here name target names found => ?_
  obtain ⟨rfl, rfl | rfl⟩ := link_dangling found
  · nofun
  · nofun

theorem not_hasCycle_exposing : ¬ exposing.system.HasCycle := by
  refine System.not_hasCycle_of_single fun final here name target names found => ?_
  have elsewhere : here ++ [name] ≠ hidden := by
    intro same
    rw [same] at found
    have file : exposing.system.node? hidden = some (.file (Text.Utf8.encode "secret")) := by
      decide +kernel
    rw [file] at found
    cases found
  have foundBefore := found
  unfold exposing at foundBefore
  rw [node?_withFile _ elsewhere] at foundBefore
  obtain ⟨rfl, rfl | rfl⟩ := link_dangling foundBefore
  · nofun
  · cases names <;> nofun

theorem agreesInside_dangling : exposing.AgreesInside dangling ⟨.slash, ["base"]⟩ ["base"] :=
  agreesInside_withFile (System.isTree_of_forall (by decide +kernel))
    (System.isTree_of_forall (by decide +kernel)) (by decide +kernel) (by decide +kernel)
    (by decide) (by decide +kernel) ⟨.directory, by decide +kernel⟩

/-- That no lookup goes round a cycle of links is not enough: a request can be stopped by a link
that no lookup gets round, and then it shows whether there is a file outside the base directory. -/
theorem not_locate_agrees_dangling :
    exposing.locate "loop/../out.log" = .ok ⟨.slash, ["base", "out.log"]⟩ ∧
      dangling.locate "loop/../out.log" = .error (.fileMissing "/base/out.log") ∧
      ¬ ∀ (env other : Environment) (base : Path) (inside : Place),
        env.AgreesInside other base inside → Slashless env.here → ¬ env.system.HasCycle →
          ¬ other.system.HasCycle → ∀ request, other.locate request = env.locate request := by
  have accepted : exposing.locate "loop/../out.log" = .ok ⟨.slash, ["base", "out.log"]⟩ := by
    decide +kernel
  have refused : dangling.locate "loop/../out.log" = .error (.fileMissing "/base/out.log") := by
    decide +kernel
  refine ⟨accepted, refused, fun always => ?_⟩
  have here : Slashless exposing.here := by simp [Slashless, exposing, dangling, bare, withFile]
  have same := always _ _ _ _ agreesInside_dangling here not_hasCycle_exposing not_hasCycle_dangling
    "loop/../out.log"
  rw [accepted, refused] at same
  cases same

end Environment

end SimTriage.File
