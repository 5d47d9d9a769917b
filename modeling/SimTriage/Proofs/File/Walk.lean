import Mathlib.Data.List.Perm.Subperm
import SimTriage.File.System
import SimTriage.Proofs.File.Path

/-!
Where paths lead. A path that leads somewhere leads to a real place, one that is reached from the
root through directories only; and it leads to the place that it names, if no link stands on its
way.
-/

set_option autoImplicit false

namespace SimTriage.File.System

variable {system : System} {final : Bool} {here place : Place} {node : Node}

/-- Every place on the way is a directory, and so is its end. -/
def IsDirectory (system : System) (place : Place) : Prop :=
  ∀ front, front <+: place → system.node? front = some .directory

/-- A node stands at a real place: the way there leads through directories only. -/
structure Stands (system : System) (place : Place) (node : Node) : Prop where
  way : ∀ front, front <+: place → front ≠ place → system.node? front = some .directory
  found : system.node? place = some node

theorem isDirectory_nil : system.IsDirectory [] := by
  intro front isPrefix
  rw [List.prefix_nil] at isPrefix
  subst isPrefix
  rfl

theorem IsDirectory.of_prefix {front : Place} (directory : system.IsDirectory place)
    (isPrefix : front <+: place) : system.IsDirectory front := by
  intro other isOther
  exact directory other (isOther.trans isPrefix)

theorem IsDirectory.stands (directory : system.IsDirectory place) :
    system.Stands place .directory where
  way := fun front isPrefix _ => directory front isPrefix
  found := directory place List.prefix_rfl

theorem IsDirectory.snoc {name : Text} (directory : system.IsDirectory here)
    (found : system.node? (here ++ [name]) = some .directory) :
    system.IsDirectory (here ++ [name]) := by
  intro front isPrefix
  rcases List.prefix_concat_iff.mp isPrefix with rfl | isPrefix
  · exact found
  · exact directory front isPrefix

theorem IsDirectory.stands_snoc {name : Text} (directory : system.IsDirectory here)
    (found : system.node? (here ++ [name]) = some node) : system.Stands (here ++ [name]) node where
  way := by
    intro front isPrefix proper
    rcases List.prefix_concat_iff.mp isPrefix with rfl | isPrefix
    · exact absurd rfl proper
    · exact directory front isPrefix
  found := found

section Step

variable {follow : Place → List Text → Except Obstacle (Place × Node)} {name : Text}
  {names : List Text}

theorem walk_of_directory (plain : IsPlain name)
    (short : ¬ maxNameSize < (Text.Utf8.encode name).length)
    (found : system.node? (here ++ [name]) = some .directory) :
    walk system final follow (name :: names) here =
      walk system final follow names (here ++ [name]) := by
  simp only [walk, plain.1, plain.2, short, found, Bool.false_eq_true, ↓reduceIte]

theorem walk_of_link {target : Text} (plain : IsPlain name)
    (short : ¬ maxNameSize < (Text.Utf8.encode name).length)
    (found : system.node? (here ++ [name]) = some (.link target)) :
    walk system final follow (name :: names) here =
      if names = [] && !final then .ok (here ++ [name], .link target)
      else follow (if Root.ofText target = .here then here else [])
        (Path.split target ++ names) := by
  simp only [walk, plain.1, plain.2, short, found, Bool.false_eq_true, ↓reduceIte]

end Step

/-- A walk ends at a real place, if those that follow links do. -/
theorem walk_stands {follow : Place → List Text → Except Obstacle (Place × Node)}
    (followed : ∀ names here, system.IsDirectory here →
      ∀ place node, follow here names = .ok (place, node) → system.Stands place node)
    {names : List Text} (directory : system.IsDirectory here)
    (reached : walk system final follow names here = .ok (place, node)) :
    system.Stands place node := by
  fun_induction walk system final follow names here with
  | case1 here =>
      cases reached
      exact directory.stands
  | case2 name names here idle ih => exact ih directory reached
  | case3 names here busy ih =>
      exact ih (directory.of_prefix (List.dropLast_prefix here)) reached
  | case4 => cases reached
  | case5 => cases reached
  | case6 name names here busy dots short found ih => exact ih (directory.snoc found) reached
  | case7 name here busy dots short content found =>
      cases reached
      exact directory.stands_snoc found
  | case8 => cases reached
  | case9 name names here busy dots short target found kept =>
      cases reached
      exact directory.stands_snoc found
  | case10 name names here busy dots short target found kept =>
      apply followed _ _ _ _ _ reached
      split
      · exact directory
      · exact isDirectory_nil

theorem walkWithin_stands {links : Nat} {names : List Text} (directory : system.IsDirectory here)
    (reached : walkWithin system final links here names = .ok (place, node)) :
    system.Stands place node := by
  induction links generalizing here names place node with
  | zero =>
      refine walk_stands (fun names here _ place node failed => ?_) directory reached
      cases failed
  | succ links ih =>
      exact walk_stands (fun names here directory place node => ih directory) directory reached

/-- However many links may be followed, names are walked along in the same way. -/
theorem exists_walk (system : System) (final : Bool) (links : Nat) :
    ∃ follow, ∀ here names,
      walkWithin system final links here names = walk system final follow names here := by
  cases links with
  | zero => exact ⟨_, fun _ _ => rfl⟩
  | succ links => exact ⟨_, fun _ _ => rfl⟩

/-- What has to be so for a path to be looked up from the root. -/
theorem walkWithin_of_find {here : Place} {path : Path} (absolute : path.isAbsolute = true)
    (found : system.find here final path = .ok (place, node)) :
    path.text.contains '\x00' = false ∧ (Text.Utf8.encode path.text).length < maxPathSize ∧
      walkWithin system final maxLinks [] path.names = .ok (place, node) := by
  simp only [find, absolute, ↓reduceIte] at found
  split at found
  · cases found
  rename_i zero
  split at found
  · cases found
  rename_i size
  exact ⟨by simpa using zero, Nat.lt_of_not_le size, found⟩

/-- A path from the root leads to a real place. -/
theorem find_stands {here : Place} {path : Path} (absolute : path.isAbsolute = true)
    (found : system.find here final path = .ok (place, node)) : system.Stands place node := by
  obtain ⟨-, -, reached⟩ := walkWithin_of_find absolute found
  exact walkWithin_stands isDirectory_nil reached

/-- Directories on the way are passed as they stand. -/
theorem walk_append {follow : Place → List Text → Except Obstacle (Place × Node)}
    {front back : List Text} (directory : system.IsDirectory (here ++ front))
    (plain : ∀ name ∈ front, IsPlain name)
    (short : ∀ name ∈ front, (Text.Utf8.encode name).length ≤ maxNameSize) :
    walk system final follow (front ++ back) here =
      walk system final follow back (here ++ front) := by
  induction front generalizing here with
  | nil => rw [List.nil_append, List.append_nil]
  | cons name front ih =>
      have split : here ++ name :: front = (here ++ [name]) ++ front := by simp
      have found : system.node? (here ++ [name]) = some .directory := by
        apply directory
        rw [split]
        exact List.prefix_append _ _
      have shortName := Nat.not_lt.mpr (short name List.mem_cons_self)
      rw [List.cons_append, split,
        walk_of_directory (plain name List.mem_cons_self) shortName found]
      apply ih
      · rwa [← split]
      · exact fun other member => plain other (List.mem_cons_of_mem _ member)
      · exact fun other member => short other (List.mem_cons_of_mem _ member)

/-- No link stands where one of the names ends. -/
def LinkFree (system : System) (here : Place) (names : List Text) : Prop :=
  ∀ front, front <+: names → front ≠ [] → system.linkTarget here ⟨.slash, front⟩ = .ok none

/-- A link behind directories is the one that its path leads to. -/
theorem linkTarget_of_found {envHere : Place} {name target : Text}
    (directory : system.IsDirectory here) (plain : ∀ other ∈ here ++ [name], IsPlain other)
    (short : ∀ other ∈ here ++ [name], (Text.Utf8.encode other).length ≤ maxNameSize)
    (zero : (Path.text ⟨.slash, here ++ [name]⟩).contains '\x00' = false)
    (size : (Text.Utf8.encode (Path.text ⟨.slash, here ++ [name]⟩)).length < maxPathSize)
    (found : system.node? (here ++ [name]) = some (.link target)) :
    system.linkTarget envHere ⟨.slash, here ++ [name]⟩ = .ok (some target) := by
  have notLong : ¬ maxPathSize ≤
      (Text.Utf8.encode (Path.text ⟨.slash, here ++ [name]⟩)).length := by omega
  have absolute : Path.isAbsolute ⟨.slash, here ++ [name]⟩ = true := rfl
  have last : name ∈ here ++ [name] := by simp
  have reached : walkWithin system false maxLinks [] (here ++ [name]) =
      .ok (here ++ [name], .link target) := by
    obtain ⟨follow, same⟩ := exists_walk system false maxLinks
    rw [← List.nil_append here] at directory
    rw [same, walk_append directory, List.nil_append,
      walk_of_link (plain name last) (Nat.not_lt.mpr (short name last)) found]
    · rfl
    · exact fun other member => plain other (List.mem_append_left _ member)
    · exact fun other member => short other (List.mem_append_left _ member)
  simp only [linkTarget, find, zero, notLong, absolute, Bool.false_eq_true, ↓reduceIte, reached]

/-- What keeps a written path from being looked up does so for every path that it begins. -/
theorem limits_of_prefix {front names : List Text} (isPrefix : front <+: names)
    (nonempty : front ≠ [])
    (zero : (Path.text ⟨.slash, names⟩).contains '\x00' = false)
    (size : (Text.Utf8.encode (Path.text ⟨.slash, names⟩)).length < maxPathSize) :
    (Path.text ⟨.slash, front⟩).contains '\x00' = false ∧
      (Text.Utf8.encode (Path.text ⟨.slash, front⟩)).length < maxPathSize := by
  obtain ⟨back, rfl⟩ := isPrefix
  obtain ⟨rest, written⟩ := Path.text_append_prefix .slash front back nonempty
  rw [← written] at zero size
  constructor
  · rw [List.contains_eq_mem, decide_eq_false_iff_not] at zero ⊢
    exact fun member => zero (List.mem_append_left _ member)
  · rw [Text.Utf8.encode_append, List.length_append] at size
    omega

/-- Without links on its way, a walk ends at the place that is named. A link that stands there is
on the way if it is followed. -/
theorem walk_place {envHere : Place} {names : List Text}
    (free : ∀ front, front <+: names → front ≠ [] → front ≠ names ∨ final = true →
      system.linkTarget envHere ⟨.slash, front⟩ = .ok none)
    (plain : ∀ name ∈ names, IsPlain name)
    (zero : (Path.text ⟨.slash, names⟩).contains '\x00' = false)
    (size : (Text.Utf8.encode (Path.text ⟨.slash, names⟩)).length < maxPathSize)
    {follow : Place → List Text → Except Obstacle (Place × Node)} {rest : List Text}
    (split : here ++ rest = names) (directory : system.IsDirectory here)
    (short : ∀ name ∈ here, (Text.Utf8.encode name).length ≤ maxNameSize)
    (reached : walk system final follow rest here = .ok (place, node)) : place = names := by
  have isPlain : ∀ (here : Place) (name : Text) (rest : List Text), here ++ name :: rest = names →
      IsPlain name := by
    intro here name rest split
    apply plain
    simp [← split]
  have resplit : ∀ (here : Place) (name : Text) (rest : List Text), here ++ name :: rest = names →
      (here ++ [name]) ++ rest = names := by
    intro here name rest split
    rw [← split, List.append_assoc, List.singleton_append]
  have shortSnoc : ∀ {here : Place} {name : Text},
      (∀ other ∈ here, (Text.Utf8.encode other).length ≤ maxNameSize) →
      ¬ maxNameSize < (Text.Utf8.encode name).length →
      ∀ other ∈ here ++ [name], (Text.Utf8.encode other).length ≤ maxNameSize :=
    fun short long => List.forall_mem_append.mpr
      ⟨short, List.forall_mem_singleton.mpr (Nat.le_of_not_lt long)⟩
  fun_induction walk system final follow rest here with
  | case1 here =>
      cases reached
      rw [← split, List.append_nil]
  | case2 name rest here idle =>
      rw [(isPlain here name rest split).1] at idle
      cases idle
  | case3 rest here => exact absurd rfl (isPlain here doubleDot rest split).2
  | case4 => cases reached
  | case5 => cases reached
  | case6 name rest here _ _ long found ih =>
      exact ih (resplit here name rest split) (directory.snoc found)
        (shortSnoc short long) reached
  | case7 =>
      cases reached
      exact split
  | case8 => cases reached
  | case9 name rest here _ _ _ target found kept =>
      simp only [Bool.and_eq_true, decide_eq_true_eq] at kept
      cases reached
      rw [← split, kept.1]
  | case10 name rest here _ _ long target found followed =>
      -- the way here passes directories only, so the link would have been noticed
      have isPrefix : here ++ [name] <+: names := ⟨rest, resplit here name rest split⟩
      have nonempty : here ++ [name] ≠ [] := by simp
      have passed : here ++ [name] ≠ names ∨ final = true := by
        by_cases last : rest = []
        · right
          simpa [last] using followed
        · left
          rw [← resplit here name rest split]
          simpa using last
      obtain ⟨noZero, fits⟩ := limits_of_prefix isPrefix nonempty zero size
      have noticed : system.linkTarget envHere _ = _ :=
        linkTarget_of_found directory (fun other member => plain other (isPrefix.subset member))
          (shortSnoc short long) noZero fits found
      rw [free _ isPrefix nonempty passed] at noticed
      cases noticed

theorem find_place {here : Place} {names : List Text}
    (free : ∀ front, front <+: names → front ≠ [] → front ≠ names ∨ final = true →
      system.linkTarget here ⟨.slash, front⟩ = .ok none)
    (plain : ∀ name ∈ names, IsPlain name)
    (found : system.find here final ⟨.slash, names⟩ = .ok (place, node)) : place = names := by
  obtain ⟨zero, size, reached⟩ := walkWithin_of_find rfl found
  obtain ⟨follow, same⟩ := exists_walk system final maxLinks
  rw [same] at reached
  exact walk_place free plain zero size (List.nil_append names) isDirectory_nil (by simp) reached

/-- A path without links on its way leads to the place that it names. -/
theorem stat_place {here : Place} {path : Path} (root : path.root = .slash)
    (plain : ∀ name ∈ path.names, IsPlain name) (free : system.LinkFree here path.names)
    (reached : system.stat here path = .ok (place, node)) : place = path.names := by
  obtain ⟨_, names⟩ := path
  subst root
  exact find_place (fun front isPrefix nonempty _ => free front isPrefix nonempty) plain reached

/-- Behind names without links, a link that is found stands where it is named. -/
theorem node?_of_linkTarget {envHere : Place} {names : List Text} {name target : Text}
    (plain : ∀ other ∈ names ++ [name], IsPlain other) (free : system.LinkFree envHere names)
    (link : system.linkTarget envHere ⟨.slash, names ++ [name]⟩ = .ok (some target)) :
    system.node? (names ++ [name]) = some (.link target) := by
  have onTheWay : ∀ front, front <+: names ++ [name] → front ≠ [] →
      front ≠ names ++ [name] ∨ false = true →
      system.linkTarget envHere ⟨.slash, front⟩ = .ok none := by
    intro front isPrefix nonempty proper
    rcases List.prefix_concat_iff.mp isPrefix with whole | isPrefix
    · simp [whole] at proper
    · exact free front isPrefix nonempty
  unfold linkTarget at link
  split at link
  · rename_i place other found
    cases link
    have same : place = names ++ [name] := find_place onTheWay plain found
    rw [← same]
    exact (find_stands rfl found).found
  · cases link
  · cases link

/-- What stands somewhere is listed, except for the root. -/
theorem mem_of_node? (found : system.node? place = some node) :
    (place = [] ∧ node = .directory) ∨ (place, node) ∈ system.nodes := by
  cases place with
  | nil =>
      cases found
      exact Or.inl ⟨rfl, rfl⟩
  | cons name names =>
      obtain ⟨front, back, split, -⟩ := List.lookup_eq_some_iff.mp found
      right
      rw [split]
      simp

theorem nodup_eraseDups {α : Type} [BEq α] [LawfulBEq α] (list : List α) :
    list.eraseDups.Nodup := by
  induction length : list.length using Nat.strongRecOn generalizing list with
  | ind count ih =>
      cases list with
      | nil => exact List.nodup_nil
      | cons a list =>
          rw [List.eraseDups_cons, List.nodup_cons]
          refine ⟨by simp, ih _ ?_ _ rfl⟩
          rw [← length, List.length_cons]
          exact Nat.lt_succ_of_le (List.length_filter_le _ _)

theorem nodup_linkPlaces (system : System) : system.linkPlaces.Nodup :=
  (nodup_eraseDups _).filter _

theorem mem_linkPlaces_iff {place : Place} :
    place ∈ system.linkPlaces ↔ ∃ target, system.node? place = some (.link target) := by
  have isLink : ∀ node : Node, node.isLink = true ↔ ∃ target, node = .link target := by
    intro node
    cases node <;> simp [Node.isLink]
  rw [linkPlaces, List.mem_filter, List.mem_eraseDups, Option.any_eq_true]
  constructor
  · rintro ⟨-, node, found, link⟩
    obtain ⟨target, rfl⟩ := (isLink node).mp link
    exact ⟨target, found⟩
  · rintro ⟨target, found⟩
    refine ⟨?_, _, found, rfl⟩
    rcases mem_of_node? found with ⟨rfl, directory⟩ | held
    · cases directory
    · exact List.mem_map.mpr ⟨_, held, rfl⟩

/-- Different links are at most as many as there are. -/
theorem length_le_linkCount {places : List Place} (nodup : places.Nodup)
    (links : ∀ place ∈ places, ∃ target, system.node? place = some (.link target)) :
    places.length ≤ system.linkCount :=
  (nodup.subperm fun place member => mem_linkPlaces_iff.mpr (links place member)).length_le

end SimTriage.File.System
