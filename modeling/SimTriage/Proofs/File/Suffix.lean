import SimTriage.Proofs.Command.Run
import SimTriage.Proofs.File.Located
import SimTriage.Proofs.Text.Caseless

/-!
What the name of a file says about the file. The check of a request takes a name apart from its end,
suffix by suffix, and so does the reading of a file, on its own. Still they agree: the names let
through are those that end as names of message files do, and each is read as its ending says.
-/

set_option autoImplicit false

namespace SimTriage.File

namespace Path

/-- A name is cut at its last dot, unless nothing stands on one side of it. -/
theorem splitSuffix_dot (stem : Text) {ending : Text} (free : '.' ∉ ending) :
    splitSuffix (stem ++ '.' :: ending) =
      if ending = [] ∨ stem = [] then (stem ++ '.' :: ending, []) else (stem, '.' :: ending) := by
  have passed : ∀ c ∈ ending.reverse, decide (c ≠ '.') = true := by
    intro c member
    rw [decide_eq_true_iff]
    rintro rfl
    exact free (List.mem_reverse.mp member)
  have turned : (stem ++ '.' :: ending).reverse = ending.reverse ++ '.' :: stem.reverse := by
    simp only [List.reverse_append, List.reverse_cons, List.append_assoc, List.singleton_append]
  have behind : ((stem ++ '.' :: ending).reverse.takeWhile (· ≠ '.')).reverse = ending := by
    rw [turned, List.takeWhile_append_of_pos passed, List.takeWhile_cons_of_neg (by decide),
      List.append_nil, List.reverse_reverse]
  have before : ((stem ++ '.' :: ending).reverse.dropWhile (· ≠ '.')).reverse = stem ++ ['.'] := by
    rw [turned, List.dropWhile_append_of_pos passed, List.dropWhile_cons_of_neg (by decide),
      List.reverse_cons, List.reverse_reverse]
  have bare : (stem ++ ['.']).length ≤ 1 ↔ stem = [] := by
    rw [List.length_append, List.length_singleton, ← List.length_eq_zero_iff]
    omega
  unfold splitSuffix
  simp only [behind, before, Bool.or_eq_true, decide_eq_true_iff, bare, List.dropLast_concat]

/-- A dot, and something behind it that has none. -/
def IsSuffix (suffix : Text) : Prop := ∃ ending, ending ≠ [] ∧ '.' ∉ ending ∧ suffix = '.' :: ending

variable {stem suffix : Text}

theorem IsSuffix.ne_nil (isSuffix : IsSuffix suffix) : suffix ≠ [] := by
  obtain ⟨ending, -, -, rfl⟩ := isSuffix
  exact List.cons_ne_nil '.' ending

theorem splitSuffix_append (isSuffix : IsSuffix suffix) (filled : stem ≠ []) :
    splitSuffix (stem ++ suffix) = (stem, suffix) := by
  obtain ⟨ending, nonempty, free, rfl⟩ := isSuffix
  rw [splitSuffix_dot stem free, if_neg]
  exact not_or.mpr ⟨nonempty, filled⟩

/-- A name that begins with its only dot has no suffix. -/
theorem splitSuffix_bare (isSuffix : IsSuffix suffix) : splitSuffix suffix = (suffix, []) := by
  obtain ⟨ending, -, free, rfl⟩ := isSuffix
  have cut := splitSuffix_dot [] free
  rwa [if_pos (Or.inr rfl)] at cut

/-- Nor has a name that ends with a dot. -/
theorem splitSuffix_trailing (stem : Text) : splitSuffix (stem ++ dot) = (stem ++ dot, []) := by
  have cut := splitSuffix_dot stem (List.not_mem_nil (a := '.'))
  rwa [if_pos (Or.inl rfl)] at cut

end Path

namespace Environment

open Text (EqualCaseless lower)
open File.Path (splitSuffix IsSuffix splitSuffix_append splitSuffix_bare splitSuffix_trailing)

variable {stem ending packing name : Text} {path : Path}

/-- The ending of a text file, in any case. -/
def IsEnding (ending : Text) : Prop := EqualCaseless ending ".log" ∨ EqualCaseless ending ".txt"

instance (ending : Text) : Decidable (IsEnding ending) :=
  inferInstanceAs (Decidable (EqualCaseless ending ".log" ∨ EqualCaseless ending ".txt"))

/-- The ending of a compressed file, in any case. -/
def IsPacking (packing : Text) : Prop := EqualCaseless packing ".gz"

instance (packing : Text) : Decidable (IsPacking packing) :=
  inferInstanceAs (Decidable (EqualCaseless packing ".gz"))

/-- A name that ends as that of a text file, behind something else. -/
def IsPlainName (name : Text) : Prop :=
  ∃ stem ending, stem ≠ [] ∧ IsEnding ending ∧ name = stem ++ ending

/-- A name that ends as that of a compressed text file, behind something else. -/
def IsPackedName (name : Text) : Prop :=
  ∃ stem ending packing, stem ≠ [] ∧ IsEnding ending ∧ IsPacking packing ∧
    name = stem ++ ending ++ packing

theorem isEnding_iff : IsEnding ending ↔ lower ending ∈ allowedSuffixes := by
  have log : lower ending = ".log" ↔ EqualCaseless ending ".log" := Text.lower_eq_iff (by decide)
  have txt : lower ending = ".txt" ↔ EqualCaseless ending ".txt" := Text.lower_eq_iff (by decide)
  rw [IsEnding, ← log, ← txt, allowedSuffixes, List.mem_pair]

theorem isPacking_iff : IsPacking packing ↔ lower packing = ".gz" :=
  (Text.lower_eq_iff (by decide)).symm

/-- Lower case keeps each dot where it is, and makes none. -/
theorem isSuffix_of_lower {suffix : Text} (letters : Text) (lowered : lower suffix = '.' :: letters)
    (nonempty : letters ≠ []) (free : '.' ∉ letters) : IsSuffix suffix := by
  cases suffix with
  | nil => cases lowered
  | cons c rest =>
      rw [Text.lower_eq_map, List.map_cons] at lowered
      obtain ⟨first, others⟩ := List.cons.inj lowered
      rw [Text.lowerForm_eq_dot_iff] at first
      subst first
      subst others
      refine ⟨rest, ?_, ?_, rfl⟩
      · rintro rfl
        exact nonempty rfl
      · intro member
        exact free (List.mem_map.mpr ⟨'.', member, rfl⟩)

theorem IsEnding.isSuffix (isEnding : IsEnding ending) : IsSuffix ending := by
  have lowered := isEnding_iff.mp isEnding
  rw [allowedSuffixes, List.mem_pair] at lowered
  rcases lowered with log | txt
  · exact isSuffix_of_lower ['l', 'o', 'g'] log (by decide) (by decide)
  · exact isSuffix_of_lower ['t', 'x', 't'] txt (by decide) (by decide)

theorem IsPacking.isSuffix (isPacking : IsPacking packing) : IsSuffix packing :=
  isSuffix_of_lower ['g', 'z'] (isPacking_iff.mp isPacking) (by decide) (by decide)

theorem IsEnding.not_isPacking (isEnding : IsEnding ending) : ¬ IsPacking ending := by
  have lowered := isEnding_iff.mp isEnding
  rw [isPacking_iff]
  intro packed
  rw [packed] at lowered
  revert lowered
  decide

/-- The suffix in front of the packing decides about a file that is packed. -/
theorem effectiveSuffix_packed (isPacking : IsPacking packing) (filled : stem ≠ []) :
    effectiveSuffix (stem ++ packing) = lower (splitSuffix stem).2 := by
  rw [effectiveSuffix, splitSuffix_append isPacking.isSuffix filled]
  exact if_pos (isPacking_iff.mp isPacking)

theorem effectiveSuffix_plain (isEnding : IsEnding ending) (filled : stem ≠ []) :
    effectiveSuffix (stem ++ ending) = lower ending := by
  rw [effectiveSuffix, splitSuffix_append isEnding.isSuffix filled]
  apply if_neg
  rw [← isPacking_iff]
  exact isEnding.not_isPacking

/-- The check of a request lets the name through. -/
def IsAllowedName (name : Text) : Prop := allowedSuffixes.contains (effectiveSuffix name) = true

instance (name : Text) : Decidable (IsAllowedName name) :=
  inferInstanceAs (Decidable (allowedSuffixes.contains (effectiveSuffix name) = true))

theorem isAllowedName_iff : IsAllowedName name ↔ effectiveSuffix name ∈ allowedSuffixes :=
  List.contains_iff_mem

/-- What has no suffix is not let through. -/
theorem not_isAllowedName_of_whole (whole : splitSuffix name = (name, [])) :
    ¬ IsAllowedName name := by
  have none : effectiveSuffix name = [] := by
    rw [effectiveSuffix, whole]
    rfl
  rw [isAllowedName_iff, none]
  decide

theorem IsPlainName.isAllowedName (isPlain : IsPlainName name) : IsAllowedName name := by
  obtain ⟨stem, ending, filled, isEnding, rfl⟩ := isPlain
  rw [isAllowedName_iff, effectiveSuffix_plain isEnding filled]
  exact isEnding_iff.mp isEnding

theorem IsPackedName.isAllowedName (isPacked : IsPackedName name) : IsAllowedName name := by
  obtain ⟨stem, ending, packing, filled, isEnding, isPacking, rfl⟩ := isPacked
  have front : stem ++ ending ≠ [] := List.append_ne_nil_of_left_ne_nil filled ending
  rw [isAllowedName_iff, effectiveSuffix_packed isPacking front,
    splitSuffix_append isEnding.isSuffix filled]
  exact isEnding_iff.mp isEnding

theorem isMessageName_iff : IsMessageName name ↔ IsPlainName name ∨ IsPackedName name := by
  constructor
  · rintro ⟨stem, ending, packing, filled, rfl, allowed, packed⟩
    rw [← isEnding_iff] at allowed
    rcases packed with rfl | packed
    · left
      rw [List.append_nil]
      exact ⟨stem, ending, filled, allowed, rfl⟩
    · right
      rw [← List.append_assoc]
      exact ⟨stem, ending, packing, filled, allowed, isPacking_iff.mpr packed, rfl⟩
  · intro named
    rcases named with ⟨stem, ending, filled, isEnding, rfl⟩ |
      ⟨stem, ending, packing, filled, isEnding, isPacking, rfl⟩
    · refine ⟨stem, ending, [], filled, ?_, isEnding_iff.mp isEnding, Or.inl rfl⟩
      rw [List.append_nil]
    · refine ⟨stem, ending, packing, filled, ?_, isEnding_iff.mp isEnding, Or.inr ?_⟩
      · rw [List.append_assoc]
      · exact isPacking_iff.mp isPacking

theorem isAllowedName_iff_named : IsAllowedName name ↔ IsPlainName name ∨ IsPackedName name := by
  constructor
  · intro allowed
    exact isMessageName_iff.mp (isMessageName_of_effectiveSuffix allowed)
  · intro named
    rcases named with isPlain | isPacked
    · exact isPlain.isAllowedName
    · exact isPacked.isAllowedName

theorem isCompressed_iff : isCompressed path = true ↔ IsPacking (splitSuffix path.name).2 := by
  rw [isPacking_iff]
  exact decide_eq_true_iff

theorem isCompressed_of_isPackedName (isPacked : IsPackedName path.name) :
    isCompressed path = true := by
  obtain ⟨stem, ending, packing, filled, -, isPacking, named⟩ := isPacked
  have front : stem ++ ending ≠ [] := List.append_ne_nil_of_left_ne_nil filled ending
  rw [isCompressed_iff, named, splitSuffix_append isPacking.isSuffix front]
  exact isPacking

theorem not_isCompressed_of_isPlainName (isPlain : IsPlainName path.name) :
    ¬ isCompressed path = true := by
  obtain ⟨stem, ending, filled, isEnding, named⟩ := isPlain
  rw [isCompressed_iff, named, splitSuffix_append isEnding.isSuffix filled]
  exact isEnding.not_isPacking

/-- Names that resemble those of message files: an ending alone, two packings, a dot at the end. -/
inductive IsLookalike : Text → Prop
  | bare {ending : Text} (isEnding : IsEnding ending) : IsLookalike ending
  | barePacked {ending packing : Text} (isEnding : IsEnding ending)
      (isPacking : IsPacking packing) : IsLookalike (ending ++ packing)
  | packedTwice (stem : Text) {packing further : Text} (isPacking : IsPacking packing)
      (again : IsPacking further) : IsLookalike (stem ++ packing ++ further)
  | trailing (stem : Text) : IsLookalike (stem ++ dot)

theorem IsLookalike.not_isAllowedName (lookalike : IsLookalike name) : ¬ IsAllowedName name := by
  have refused : ∀ suffix : Text, suffix = [] ∨ IsPacking suffix →
      lower suffix ∉ allowedSuffixes := by
    intro suffix known allowed
    rcases known with rfl | isPacking
    · revert allowed
      decide
    · exact (isEnding_iff.mpr allowed).not_isPacking isPacking
  cases lookalike with
  | bare isEnding => exact not_isAllowedName_of_whole (splitSuffix_bare isEnding.isSuffix)
  | @barePacked ending packing isEnding isPacking =>
      rw [isAllowedName_iff, effectiveSuffix_packed isPacking isEnding.isSuffix.ne_nil,
        splitSuffix_bare isEnding.isSuffix]
      exact refused _ (Or.inl rfl)
  | @packedTwice stem packing further isPacking again =>
      have filled : stem ++ packing ≠ [] :=
        List.append_ne_nil_of_right_ne_nil stem isPacking.isSuffix.ne_nil
      rw [isAllowedName_iff, effectiveSuffix_packed again filled]
      -- the inner packing is a suffix only behind something else, and is not let through as one
      by_cases empty : stem = []
      · rw [empty, List.nil_append, splitSuffix_bare isPacking.isSuffix]
        exact refused _ (Or.inl rfl)
      · rw [splitSuffix_append isPacking.isSuffix empty]
        exact refused _ (Or.inr isPacking)
  | trailing stem => exact not_isAllowedName_of_whole (splitSuffix_trailing stem)

/-- The check of a name and the reading of its file agree on it. Let through are the names that end
as names of text files or of compressed text files do, behind something else and in any case, and
none that only looks like one of these. Of the files let through, those with the second kind of name
are opened as compressed, and the others are not. -/
theorem suffixes_agree (path : Path) :
    (IsAllowedName path.name ↔ IsPlainName path.name ∨ IsPackedName path.name) ∧
    (IsLookalike path.name → ¬ IsAllowedName path.name) ∧
    (IsAllowedName path.name → (isCompressed path = true ↔ IsPackedName path.name)) ∧
    ∀ (env : Environment) (file : Text) (codec : Codec), Path.ofText file = path →
      (IsPackedName path.name → env.readText file codec = env.readTextAs true file codec) ∧
      (IsPlainName path.name → env.readText file codec = env.readTextAs false file codec) := by
  refine ⟨isAllowedName_iff_named, IsLookalike.not_isAllowedName, ?_, ?_⟩
  · intro allowed
    constructor
    · intro compressed
      rcases isAllowedName_iff_named.mp allowed with isPlain | isPacked
      · exact absurd compressed (not_isCompressed_of_isPlainName isPlain)
      · exact isPacked
    · exact isCompressed_of_isPackedName
  · intro env file codec stands
    subst stands
    constructor
    · intro isPacked
      rw [readText, isCompressed_of_isPackedName isPacked]
    · intro isPlain
      rw [readText, Bool.eq_false_iff.mpr (not_isCompressed_of_isPlainName isPlain)]

/-- The same two bytes are no compressed file under one name and a text under another, and a third
name is refused. -/
theorem suffixes_agree_mixed :
    IsAllowedName (Path.ofText "Notes.LOG.gz").name ∧
      IsPackedName (Path.ofText "Notes.LOG.gz").name ∧
      isCompressed (Path.ofText "Notes.LOG.gz") = true ∧
      readText (Command.single "Notes.LOG.gz" [0x6E, 0x6F]) "Notes.LOG.gz" =
        .error (.gzip (.badMagic [0x6E, 0x6F])) ∧
      IsPlainName (Path.ofText "notes.Txt").name ∧
      IsAllowedName (Path.ofText "notes.Txt").name ∧
      readText (Command.single "notes.Txt" [0x6E, 0x6F]) "notes.Txt" = .ok "no" ∧
      IsLookalike (Path.ofText ".log.gz").name ∧
      ¬ IsAllowedName (Path.ofText ".log.gz").name := by
  have isPacked : IsPackedName (Path.ofText "Notes.LOG.gz").name :=
    ⟨"Notes", ".LOG", ".gz", by decide, by decide, by decide, rfl⟩
  have isPlain : IsPlainName (Path.ofText "notes.Txt").name :=
    ⟨"notes", ".Txt", by decide, by decide, rfl⟩
  have isEnding : IsEnding ".log" := by decide
  have isPacking : IsPacking ".gz" := by decide
  have lookalike : IsLookalike (Path.ofText ".log.gz").name := .barePacked isEnding isPacking
  have packed := suffixes_agree (Path.ofText "Notes.LOG.gz")
  have plain := suffixes_agree (Path.ofText "notes.Txt")
  have refused := suffixes_agree (Path.ofText ".log.gz")
  have allowed : IsAllowedName (Path.ofText "Notes.LOG.gz").name := packed.1.mpr (Or.inr isPacked)
  refine ⟨allowed, isPacked, (packed.2.2.1 allowed).mpr isPacked, ?_, isPlain,
    plain.1.mpr (Or.inl isPlain), ?_, lookalike, refused.2.1 lookalike⟩
  · rw [(packed.2.2.2 _ _ _ rfl).1 isPacked]
    decide +kernel
  · rw [(plain.2.2.2 _ _ _ rfl).2 isPlain]
    decide +kernel

end Environment

end SimTriage.File
