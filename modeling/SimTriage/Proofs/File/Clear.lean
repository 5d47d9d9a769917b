import Mathlib.Data.List.Infix
import SimTriage.Proofs.File.Settled

/-!
What a lookup sees of links. Behind a path without links on its way, that is the link at the place
that the path names, unless the path is too long to be looked up: files and directories elsewhere
do not matter.
-/

set_option autoImplicit false

namespace SimTriage.File

/-- A path that is looked up if it is written out. -/
structure Path.IsLookedUp (path : Path) : Prop where
  zero : path.text.contains '\x00' = false
  size : (Text.Utf8.encode path.text).length < maxPathSize

/-- Names that a lookup does not find too long. -/
def AreShort (names : List Text) : Prop :=
  ∀ name ∈ names, (Text.Utf8.encode name).length ≤ maxNameSize

instance (path : Path) : Decidable path.IsLookedUp :=
  decidable_of_iff
    (path.text.contains '\x00' = false ∧ (Text.Utf8.encode path.text).length < maxPathSize)
    ⟨fun both => ⟨both.1, both.2⟩, fun lookedUp => ⟨lookedUp.zero, lookedUp.size⟩⟩

instance (names : List Text) : Decidable (AreShort names) :=
  inferInstanceAs (Decidable (∀ name ∈ names, _))

/-- What is looked up with more names behind it is looked up without them. -/
theorem Path.IsLookedUp.of_append {root : Root} {front back : List Text}
    (lookedUp : Path.IsLookedUp ⟨root, front ++ back⟩) (nonempty : front ≠ []) :
    Path.IsLookedUp ⟨root, front⟩ := by
  obtain ⟨zero, size⟩ := lookedUp
  obtain ⟨rest, written⟩ := Path.text_append_prefix root front back nonempty
  rw [← written] at zero size
  constructor
  · rw [List.contains_eq_mem, decide_eq_false_iff_not] at zero ⊢
    exact fun member => zero (List.mem_append_left _ member)
  · rw [Text.Utf8.encode_append, List.length_append] at size
    omega

/-- Double dots lead back from a name. -/
theorem Path.enter_enter_doubleDot {path : Path} {name : Text} (plain : IsPlain name) :
    (path.enter name).enter doubleDot = path := by
  have busy : Path.isIdle doubleDot = false := by decide
  rw [Path.enter_of_isPlain plain, Path.enter]
  simp only [busy, List.getLast?_append, List.getLast?_singleton, Option.some_or, plain.2,
    List.dropLast_concat, Bool.false_eq_true, ↓reduceIte]

/-- Above a start without root, double dots stay. -/
theorem Path.enter_doubleDot_replicate (count : Nat) :
    Path.enter ⟨.here, List.replicate count doubleDot⟩ doubleDot =
      ⟨.here, List.replicate (count + 1) doubleDot⟩ := by
  have busy : Path.isIdle doubleDot = false := by decide
  cases count with
  | zero => rfl
  | succ count =>
      rw [Path.enter, List.replicate_succ' (n := count + 1)]
      simp [busy, List.getLast?_replicate]

namespace System

variable {system : System} {final : Bool} {here : Place} {path : Path}

/-- Every node stands at a real place. -/
def IsTree (system : System) : Prop :=
  ∀ place node, system.node? place = some node → system.Stands place node

/-- It is enough that directories are listed on the way to all that is listed. -/
theorem isTree_of_forall
    (ways : ∀ entry ∈ system.nodes, ∀ front ∈ entry.1.inits, front ≠ entry.1 →
      system.node? front = some .directory) : system.IsTree := by
  intro place node found
  rcases mem_of_node? found with ⟨rfl, rfl⟩ | listed
  · exact isDirectory_nil.stands
  · exact ⟨fun front isPrefix => ways _ listed front ((List.mem_inits front place).mpr isPrefix),
      found⟩

theorem IsTree.isDirectory {name : Text} {node : Node} (tree : system.IsTree)
    (found : system.node? (here ++ [name]) = some node) : system.IsDirectory here := by
  intro front isPrefix
  refine (tree _ _ found).way front (isPrefix.trans (List.prefix_append _ _)) ?_
  rintro rfl
  have longer := isPrefix.length_le
  rw [List.length_append, List.length_singleton] at longer
  omega

/-- The place that one more name leads to, if no link stands there. -/
def climb (place : Place) (name : Text) : Place :=
  if Path.isIdle name then place
  else if name = doubleDot then place.dropLast
  else place ++ [name]

theorem climb_of_isPlain {name : Text} (plain : IsPlain name) (place : Place) :
    climb place name = place ++ [name] := by
  simp only [climb, plain.1, plain.2, Bool.false_eq_true, ↓reduceIte]

theorem walk_doubleDots {follow : Place → List Text → Except Obstacle (Place × Node)} (count : Nat)
    (rest : List Text) (here : Place) :
    walk system final follow (List.replicate count doubleDot ++ rest) here =
      walk system final follow rest ((List.replicate count doubleDot).foldl climb here) := by
  induction count generalizing here with
  | zero => rfl
  | succ count ih =>
      have busy : Path.isIdle doubleDot = false := by decide
      rw [List.replicate_succ, List.cons_append, List.foldl_cons, ← ih]
      simp only [walk, climb, busy, Bool.false_eq_true, ↓reduceIte]

/-- A walk of one name that ends at a link has found it there. -/
theorem found_of_walk_link {follow : Place → List Text → Except Obstacle (Place × Node)}
    {name target : Text} {place : Place} (plain : IsPlain name)
    (reached : walk system false follow [name] here = .ok (place, .link target)) :
    (Text.Utf8.encode name).length ≤ maxNameSize ∧
      system.node? (here ++ [name]) = some (.link target) := by
  unfold walk at reached
  simp only [plain.1, plain.2, Bool.false_eq_true, ↓reduceIte] at reached
  split at reached
  · cases reached
  rename_i long
  refine ⟨Nat.le_of_not_lt long, ?_⟩
  split at reached
  · cases reached
  · cases reached
  · cases reached
  · rename_i other found
    cases reached
    exact found

theorem find_of_isLookedUp (lookedUp : path.IsLookedUp) :
    system.find here final path =
      walkWithin system final maxLinks (if path.isAbsolute then [] else here) path.names := by
  unfold find
  dsimp only
  rw [if_neg (Bool.eq_false_iff.mp lookedUp.zero), if_neg (Nat.not_le.mpr lookedUp.size)]

theorem find_of_not_isLookedUp (unwritten : ¬ path.IsLookedUp) :
    system.find here final path =
      .error (if path.text.contains '\x00' then .zeroByte else .nameTooLong) := by
  unfold find
  dsimp only
  split
  · rfl
  rename_i zero
  split
  · rfl
  rename_i size
  exact absurd ⟨Bool.eq_false_iff.mpr zero, Nat.lt_of_not_le size⟩ unwritten

theorem find_eq_ok_iff {found : Place × Node} :
    system.find here final path = .ok found ↔
      path.IsLookedUp ∧
        walkWithin system final maxLinks (if path.isAbsolute then [] else here) path.names =
          .ok found := by
  by_cases lookedUp : path.IsLookedUp
  · rw [find_of_isLookedUp lookedUp, and_iff_right lookedUp]
  · rw [find_of_not_isLookedUp lookedUp]
    exact ⟨nofun, fun both => absurd both.1 lookedUp⟩

/-- Walking along names finds neither zero bytes nor too many links, unless a link is followed. -/
theorem walk_ne_error {follow : Place → List Text → Except Obstacle (Place × Node)}
    {obstacle : Obstacle} (rare : obstacle = .zeroByte ∨ obstacle = .tooManyLinks)
    (followed : ∀ here name target names,
      system.node? (here ++ [name]) = some (.link target) →
        follow (if Root.ofText target = .here then here else []) (Path.split target ++ names) ≠
          .error obstacle)
    (names : List Text) (here : Place) :
    walk system final follow names here ≠ .error obstacle := by
  fun_induction walk system final follow names here with
  | case1 => simp
  | case2 _ _ _ _ ih => exact ih
  | case3 _ _ _ ih => exact ih
  | case4 => rcases rare with rfl | rfl <;> simp
  | case5 => rcases rare with rfl | rfl <;> simp
  | case6 _ _ _ _ _ _ _ ih => exact ih
  | case7 => simp
  | case8 => rcases rare with rfl | rfl <;> simp
  | case9 => simp
  | case10 _ _ _ _ _ _ _ found => exact followed _ _ _ _ found

theorem walkWithin_ne_zeroByte (links : Nat) (here : Place) (names : List Text) :
    walkWithin system final links here names ≠ .error .zeroByte := by
  induction links generalizing here names with
  | zero =>
      refine walk_ne_error (Or.inl rfl) (fun _ _ _ _ _ => ?_) names here
      nofun
  | succ links ih => exact walk_ne_error (Or.inl rfl) (fun _ _ _ _ _ => ih _ _) names here

theorem find_eq_zeroByte_iff :
    system.find here final path = .error .zeroByte ↔ path.text.contains '\x00' = true := by
  by_cases lookedUp : path.IsLookedUp
  · rw [find_of_isLookedUp lookedUp, lookedUp.zero]
    exact ⟨fun found => absurd found (walkWithin_ne_zeroByte _ _ _), nofun⟩
  · rw [find_of_not_isLookedUp lookedUp]
    cases path.text.contains '\x00' <;> simp

theorem linkTarget_eq_some_iff {target : Text} :
    system.linkTarget here path = .ok (some target) ↔
      ∃ place, system.find here false path = .ok (place, .link target) := by
  unfold linkTarget
  constructor
  · intro seen
    split at seen
    · rename_i place other found
      cases seen
      exact ⟨place, found⟩
    · cases seen
    · cases seen
  · intro found
    obtain ⟨place, found⟩ := found
    rw [found]

theorem linkTarget_eq_error_iff {obstacle : Obstacle} :
    system.linkTarget here path = .error obstacle ↔
      path.text.contains '\x00' = true ∧ obstacle = .zeroByte := by
  rw [← find_eq_zeroByte_iff]
  unfold linkTarget
  constructor
  · intro failed
    split at failed
    · cases failed
    · rename_i zero
      cases failed
      exact ⟨zero, rfl⟩
    · cases failed
  · intro zero
    obtain ⟨zero, rfl⟩ := zero
    rw [zero]

/-- Lookups that see the same links come to the same. -/
theorem linkTarget_congr {other : System}
    (same : ∀ target, other.linkTarget here path = .ok (some target) ↔
      system.linkTarget here path = .ok (some target)) :
    other.linkTarget here path = system.linkTarget here path := by
  cases sees : system.linkTarget here path with
  | error obstacle => exact linkTarget_eq_error_iff.mpr (linkTarget_eq_error_iff.mp sees)
  | ok seen =>
      cases seen with
      | some target => exact (same target).mpr sees
      | none =>
          cases seesOther : other.linkTarget here path with
          | error obstacle =>
              rw [linkTarget_eq_error_iff.mpr (linkTarget_eq_error_iff.mp seesOther)] at sees
              cases sees
          | ok seen =>
              cases seen with
              | none => rfl
              | some target =>
                  rw [(same target).mp seesOther] at sees
                  cases sees

end System

namespace Environment

variable {env other : Environment} {path : Path} {name target : Text}

/-- The place that a path names, if no link stands on its way. -/
def place (env : Environment) (path : Path) : Place :=
  path.names.foldl System.climb (if path.isAbsolute then [] else env.here)

/-- The link at the place that a path names, if the path is looked up there. -/
def link? (env : Environment) (path : Path) : Option Text :=
  match env.system.node? (env.place path) with
  | some (.link target) => if path.IsLookedUp ∧ AreShort path.names then some target else none
  | _ => none

/-- A path without links on its way that can be seen: double dots only lead up from the working
directory. -/
inductive Clear (env : Environment) : Path → Prop
  | root : Clear env ⟨.slash, []⟩
  | up (count : Nat) : Clear env ⟨.here, List.replicate count doubleDot⟩
  | down {path : Path} {name : Text} (clear : Clear env path) (plain : IsPlain name)
      (noSlash : '/' ∉ name) (free : env.link? (path.enter name) = none) :
      Clear env (path.enter name)

theorem link?_eq_some_iff :
    env.link? path = some target ↔
      (path.IsLookedUp ∧ AreShort path.names) ∧
        env.system.node? (env.place path) = some (.link target) := by
  unfold link?
  constructor
  · intro seen
    split at seen
    · rename_i other found
      split at seen
      · rename_i fits
        cases seen
        exact ⟨fits, found⟩
      · cases seen
    · cases seen
  · intro both
    obtain ⟨fits, found⟩ := both
    simp only [found, fits, and_self, ↓reduceIte]

theorem place_enter (plain : IsPlain name) :
    env.place (path.enter name) = env.place path ++ [name] := by
  rw [Path.enter_of_isPlain plain]
  unfold place
  rw [List.foldl_append]
  exact System.climb_of_isPlain plain _

theorem Clear.slashless (clear : env.Clear path) : Slashless path.names := by
  induction clear with
  | root => simp [Slashless]
  | up count =>
      intro name member
      rw [List.eq_of_mem_replicate member]
      decide
  | down _ _ noSlash _ ih => exact slashless_enter ih noSlash

/-- Environments with the same links to see have the same clear paths. -/
theorem Clear.congr (same : ∀ path, other.link? path = env.link? path) (clear : env.Clear path) :
    other.Clear path := by
  induction clear with
  | root => exact .root
  | up count => exact .up count
  | down _ plain noSlash free ih => exact .down ih plain noSlash ((same _).trans free)

section Walk

variable {final : Bool} {follow : Place → List Text → Except Obstacle (Place × Node)}
  {rest : List Text}

/-- A walk that gets on along a clear path passes the place that the path names. -/
theorem Clear.walk_of_ok (clear : env.Clear path) {found : Place × Node} {more : List Text}
    (lookedUp : Path.IsLookedUp ⟨path.root, path.names ++ more⟩) (nonempty : rest ≠ [])
    (reached : System.walk env.system final follow (path.names ++ rest)
      (if path.isAbsolute then [] else env.here) = .ok found) :
    AreShort path.names ∧
      System.walk env.system final follow rest (env.place path) = .ok found := by
  induction clear generalizing rest more with
  | root => exact ⟨by simp [AreShort], reached⟩
  | up count =>
      refine ⟨fun name member => ?_, ?_⟩
      · rw [List.eq_of_mem_replicate member]
        decide
      · rwa [System.walk_doubleDots] at reached
  | @down path name clear plain noSlash free ih =>
      have next : path.enter name = ⟨path.root, path.names ++ [name]⟩ :=
        Path.enter_of_isPlain plain
      rw [next, List.append_assoc] at lookedUp
      rw [next, List.append_assoc] at reached
      obtain ⟨short, reached⟩ := ih lookedUp (by simp) reached
      rw [place_enter plain]
      rw [next] at free ⊢
      rw [List.singleton_append] at reached
      unfold System.walk at reached
      simp only [plain.1, plain.2, Bool.false_eq_true, ↓reduceIte] at reached
      split at reached
      · cases reached
      rename_i long
      have shortNames : AreShort (path.names ++ [name]) :=
        List.forall_mem_append.mpr
          ⟨short, List.forall_mem_singleton.mpr (Nat.le_of_not_lt long)⟩
      refine ⟨shortNames, ?_⟩
      split at reached
      · cases reached
      · exact reached
      · cases reached
      · -- the link would have been seen
        rename_i target found
        rw [← List.append_assoc] at lookedUp
        have seen : env.link? (path.enter name) = some target := by
          rw [link?_eq_some_iff, place_enter plain, next]
          exact ⟨⟨lookedUp.of_append (by simp), shortNames⟩, found⟩
        rw [next, free] at seen
        cases seen

/-- Along a clear path to a directory a walk gets on. -/
theorem Clear.walk_of_directory (clear : env.Clear path) (short : AreShort path.names)
    (directory : env.system.IsDirectory (env.place path)) (rest : List Text) :
    System.walk env.system final follow (path.names ++ rest)
        (if path.isAbsolute then [] else env.here) =
      System.walk env.system final follow rest (env.place path) := by
  induction clear generalizing rest with
  | root => rfl
  | up count => exact System.walk_doubleDots count rest _
  | @down path name clear plain noSlash free ih =>
      have next : path.enter name = ⟨path.root, path.names ++ [name]⟩ :=
        Path.enter_of_isPlain plain
      rw [place_enter plain] at directory ⊢
      rw [next] at short ⊢
      obtain ⟨shortPath, shortName⟩ := List.forall_mem_append.mp short
      have above := directory.of_prefix (List.prefix_append (env.place path) [name])
      have found := directory _ List.prefix_rfl
      rw [List.append_assoc, List.singleton_append]
      exact (ih shortPath above (name :: rest)).trans
        (System.walk_of_directory plain (Nat.not_lt.mpr (shortName name (by simp))) found)

end Walk

/-- Behind a clear path, a lookup sees the link at the place that is named, unless the path is too
long. -/
theorem Clear.linkTarget_iff (tree : env.system.IsTree) (clear : env.Clear path)
    (plain : IsPlain name) :
    env.system.linkTarget env.here (path.enter name) = .ok (some target) ↔
      env.link? (path.enter name) = some target := by
  have next : path.enter name = ⟨path.root, path.names ++ [name]⟩ :=
    Path.enter_of_isPlain plain
  obtain ⟨follow, same⟩ := System.exists_walk env.system false maxLinks
  rw [System.linkTarget_eq_some_iff, link?_eq_some_iff, place_enter plain]
  simp only [System.find_eq_ok_iff, next, same]
  constructor
  · intro found
    obtain ⟨place, lookedUp, reached⟩ := found
    obtain ⟨short, reached⟩ := clear.walk_of_ok lookedUp (by simp) reached
    obtain ⟨shortName, found⟩ := System.found_of_walk_link plain reached
    exact ⟨⟨lookedUp, List.forall_mem_append.mpr ⟨short, List.forall_mem_singleton.mpr shortName⟩⟩,
      found⟩
  · intro both
    obtain ⟨⟨lookedUp, short⟩, found⟩ := both
    obtain ⟨shortPath, shortName⟩ := List.forall_mem_append.mp short
    have directory := tree.isDirectory found
    refine ⟨env.place path ++ [name], lookedUp,
      (clear.walk_of_directory shortPath directory [name]).trans ?_⟩
    rw [System.walk_of_link plain (Nat.not_lt.mpr (shortName name (by simp))) found]
    rfl

theorem Clear.link?_eq_none (tree : env.system.IsTree) (clear : env.Clear path)
    (plain : IsPlain name) (free : env.system.linkTarget env.here (path.enter name) = .ok none) :
    env.link? (path.enter name) = none := by
  cases seen : env.link? (path.enter name) with
  | none => rfl
  | some target =>
      rw [(clear.linkTarget_iff tree plain).mpr seen] at free
      cases free

/-- Behind a clear path, the same is seen in environments with the same links to see. -/
theorem Clear.linkTarget_congr (tree : env.system.IsTree) (treeOther : other.system.IsTree)
    (here : other.here = env.here) (same : ∀ path, other.link? path = env.link? path)
    (clear : env.Clear path) (plain : IsPlain name) :
    other.system.linkTarget other.here (path.enter name) =
      env.system.linkTarget env.here (path.enter name) := by
  rw [here]
  apply System.linkTarget_congr
  intro target
  rw [clear.linkTarget_iff tree plain, ← same, ← here]
  exact (clear.congr same).linkTarget_iff treeOther plain

/-- Names are resolved to clear paths. -/
theorem keeps_clear (tree : env.system.IsTree) : env.Keeps env.Clear where
  slashless := fun _ clear => clear.slashless
  root := .root
  up := by
    intro path name passes clear
    rcases passes with idle | rfl
    · rwa [Path.enter_of_isIdle idle]
    cases clear with
    | root => exact .root
    | up count =>
        rw [Path.enter_doubleDot_replicate]
        exact .up (count + 1)
    | down clear plain =>
        rw [Path.enter_enter_doubleDot plain]
        exact clear
  down := by
    intro path name plain noSlash free clear
    exact .down clear plain noSlash (clear.link?_eq_none tree plain free)

end Environment

end SimTriage.File
