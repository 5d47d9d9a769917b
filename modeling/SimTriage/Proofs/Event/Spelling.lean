import SimTriage.Command.Options
import SimTriage.Proofs.Event.KindName
import SimTriage.Proofs.Text.Caseless
import SimTriage.Proofs.Text.Strip

/-!
How the name of a kind may be spelled: as its label or as its symbolic name, in any letter case, and
the symbolic name also with hyphens and spaces. No spelling stands for two kinds. Names that stand
in a row mean what their parts mean, and blank names mean no choice rather than the choice of no
kind.
-/

set_option autoImplicit false

namespace SimTriage.Event.Kind

open Text (IsAscii)

/-- Hyphens and spaces as underscores. -/
def underscored (text : Text) : Text := Text.replaceChar ' ' '_' (Text.replaceChar '-' '_' text)

/-- The name is a spelling of the kind. -/
def Spells (name : Text) (kind : Kind) : Prop :=
  Text.lower (Text.strip name) = Text.lower kind.label ∨
    underscored (Text.lower (Text.strip name)) = Text.lower kind.key

variable {name text : Text} {kind other : Kind}

theorem isAscii_strip (ascii : IsAscii name) : IsAscii (Text.strip name) :=
  fun c member => ascii c (Text.mem_of_mem_strip member)

section Underscored

/-- An underscore for a hyphen or a space. -/
def underscore (c : Char) : Char := if c = '-' ∨ c = ' ' then '_' else c

theorem underscored_eq (text : Text) : underscored text = text.map underscore := by
  rw [underscored, Text.replaceChar, Text.replaceChar, List.map_map]
  refine List.map_congr_left fun c _ => ?_
  unfold underscore
  by_cases hyphen : c = '-'
  · simp [hyphen]
  · by_cases space : c = ' '
    · simp [space]
    · simp [hyphen, space]

theorem length_underscored (text : Text) : (underscored text).length = text.length := by
  rw [underscored_eq, List.length_map]

theorem isAscii_of_underscored (ascii : IsAscii (underscored text)) : IsAscii text := by
  intro c member
  by_cases separator : c = '-' ∨ c = ' '
  · rcases separator with rfl | rfl <;> decide
  · apply ascii
    rw [underscored_eq, List.mem_map]
    exact ⟨c, member, if_neg separator⟩

/-- In ASCII, no letter case turns a character into a hyphen or a space. -/
theorem underscore_of_ascii {c : Char} (ascii : c.toNat < 0x80) :
    Text.lower [underscore c] = [underscore c.toLower] ∧
      (underscore c.toLower).toUpper = underscore c.toUpper :=
  Text.forall_of_ascii (p := fun c => Text.lower [underscore c] = [underscore c.toLower] ∧
    (underscore c.toLower).toUpper = underscore c.toUpper) (by decide) ascii

theorem lower_underscored (ascii : IsAscii text) :
    Text.lower (underscored text) = underscored (Text.lower text) := by
  rw [Text.lower_of_isAscii ascii, underscored_eq, underscored_eq, Text.lower, List.map_map,
    List.map_map]
  exact List.map_congr_left fun c member =>
    List.singleton_inj.mp (underscore_of_ascii (ascii c member)).1

theorem capitals_underscored (ascii : IsAscii text) :
    (underscored (Text.lower text)).map Char.toUpper = underscored (Text.upper text) := by
  rw [Text.upper_of_isAscii ascii, Text.lower_of_isAscii ascii, underscored_eq, underscored_eq,
    List.map_map, List.map_map, List.map_map]
  exact List.map_congr_left fun c member => (underscore_of_ascii (ascii c member)).2

end Underscored

section Unique

/-- The labels and the symbolic names of different kinds differ in length. -/
theorem eq_of_length (same : kind.label.length = other.label.length ∨
    kind.key.length = other.key.length ∨ kind.label.length = other.key.length) : kind = other := by
  revert same
  cases kind <;> cases other <;> decide

theorem lower_label_inj (same : Text.lower kind.label = Text.lower other.label) : kind = other := by
  have lengths := congrArg List.length same
  rw [Text.length_lower, Text.length_lower] at lengths
  exact eq_of_length (Or.inl lengths)

theorem lower_key_inj (same : Text.lower kind.key = Text.lower other.key) : kind = other := by
  have lengths := congrArg List.length same
  rw [Text.length_lower, Text.length_lower] at lengths
  exact eq_of_length (Or.inr (Or.inl lengths))

/-- A label that reads like a symbolic name belongs to the kind of that name. -/
theorem underscored_label (same : underscored (Text.lower kind.label) = Text.lower other.key) :
    kind = other := by
  have lengths := congrArg List.length same
  rw [length_underscored, Text.length_lower, Text.length_lower] at lengths
  exact eq_of_length (Or.inr (Or.inr lengths))

theorem Spells.unique (spells : Spells name kind) (spellsOther : Spells name other) :
    kind = other := by
  rcases spells with label | key
  · rcases spellsOther with labelOther | keyOther
    · exact lower_label_inj (label.symm.trans labelOther)
    · rw [label] at keyOther
      exact underscored_label keyOther
  · rcases spellsOther with labelOther | keyOther
    · rw [labelOther] at key
      exact (underscored_label key).symm
    · exact lower_key_inj (key.symm.trans keyOther)

end Unique

section Named

theorem isAscii_label (kind : Kind) : IsAscii kind.label := by
  cases kind <;> decide

theorem isAscii_key (kind : Kind) : IsAscii kind.key := by
  cases kind <;> decide

theorem folded_label (kind : Kind) : Text.folded kind.label = Text.lower kind.label := by
  rw [Text.folded_of_isAscii (isAscii_label kind), Text.lower_of_isAscii (isAscii_label kind)]

theorem byLabel?_eq_some_iff :
    byLabel? text = some kind ↔ Text.folded text = Text.lower kind.label := by
  rw [byLabel?]
  constructor
  · intro found
    have same := List.find?_some found
    rw [decide_eq_true_iff, folded_label] at same
    exact same.symm
  · intro same
    have injective : ∀ other : Kind,
        Text.lower other.label = Text.lower kind.label ↔ other = kind := fun other =>
      ⟨lower_label_inj, congrArg fun kind : Kind => Text.lower kind.label⟩
    simp only [same, folded_label, injective]
    cases kind <;> decide

theorem byKey?_eq_some_iff :
    byKey? text = some kind ↔ underscored (Text.upper text) = kind.key := by
  constructor
  · intro found
    have same := List.find?_some found
    exact (of_decide_eq_true same).symm
  · intro same
    have looked : byKey? text = ofKey? (underscored (Text.upper text)) := rfl
    rw [looked, same, ofKey?_key]

/-- No text leads to two kinds, whichever way it is looked up. -/
theorem byLabel?_byKey?_unique (label : byLabel? text = some kind)
    (key : byKey? text = some other) : kind = other := by
  rw [byLabel?_eq_some_iff] at label
  rw [byKey?_eq_some_iff] at key
  have foldedAscii : IsAscii (Text.folded text) := by
    rw [label, ← folded_label]
    exact Text.isAscii_folded (isAscii_label kind)
  have upperAscii : IsAscii (Text.upper text) := by
    apply isAscii_of_underscored
    rw [key]
    exact isAscii_key other
  -- both forms are ASCII, so the upper-case form can be taken back to the folded one
  have back := Text.lower_upper upperAscii foldedAscii
  apply underscored_label
  rw [← label, ← back, ← key, lower_underscored upperAscii]

theorem byLabel?_of_isAscii (ascii : IsAscii text) :
    byLabel? text = some kind ↔ Text.lower text = Text.lower kind.label := by
  rw [byLabel?_eq_some_iff, Text.folded_of_isAscii ascii, Text.lower_of_isAscii ascii]

theorem byKey?_of_isAscii (ascii : IsAscii text) :
    byKey? text = some kind ↔ underscored (Text.lower text) = Text.lower kind.key := by
  rw [byKey?_eq_some_iff]
  constructor
  · intro same
    rw [← same, lower_underscored (Text.isAscii_upper ascii), Text.lower_upper_of_isAscii ascii]
  · intro same
    have capitals := capitals_underscored ascii
    rw [same] at capitals
    rw [← capitals]
    cases kind <;> decide

/-- A name of ASCII means the kind that it spells. -/
theorem named?_eq_some_iff (ascii : IsAscii name) : named? name = some kind ↔ Spells name kind := by
  have stripped := isAscii_strip ascii
  have looked : named? name =
      (byLabel? (Text.strip name)).orElse fun _ => byKey? (Text.strip name) := rfl
  rw [looked]
  cases found : byLabel? (Text.strip name) with
  | some labelled =>
      have label : Spells name labelled := Or.inl ((byLabel?_of_isAscii stripped).mp found)
      rw [Option.orElse_some, Option.some_inj]
      constructor
      · rintro rfl
        exact label
      · exact label.unique
  | none =>
      rw [Option.orElse_none, byKey?_of_isAscii stripped]
      constructor
      · exact Or.inr
      · rintro (label | key)
        · rw [(byLabel?_of_isAscii stripped).mpr label] at found
          cases found
        · exact key

end Named

section Choice

variable {names front back : List Text} {kinds : List Kind}

/-- The names that are not blank. -/
def filled (names : List Text) : List Text := names.filter fun name => Text.strip name ≠ []

/-- The kinds that names mean, where no choice is read as no kinds. -/
def listed (names : List Text) : Except Failure (List Kind) :=
  (fun kinds => kinds.getD []) <$> choose (some names)

theorem mem_filled : name ∈ filled names ↔ name ∈ names ∧ Text.strip name ≠ [] := by
  simp [filled]

theorem filled_eq_nil_iff : filled names = [] ↔ ∀ name ∈ names, Text.strip name = [] := by
  simp [filled]

theorem meant_eq (names : List Text) : meant names = (filled names).filterMap named? := rfl

/-- Each name that is not blank means one kind, in order. -/
theorem map_filled_iff :
    (filled names).map named? = kinds.map some ↔
      (∀ name ∈ names, ¬ IsUnknown name) ∧ kinds = meant names := by
  constructor
  · intro same
    constructor
    · intro name member unknown
      have found : named? name ∈ kinds.map some := by
        rw [← same]
        exact List.mem_map_of_mem (mem_filled.mpr ⟨member, unknown.1⟩)
      rw [unknown.2] at found
      simp at found
    · have found := congrArg (List.filterMap id) same
      rw [List.filterMap_map, List.filterMap_map] at found
      rw [meant_eq]
      simpa using found.symm
  · rintro ⟨known, rfl⟩
    have each : ∀ name ∈ filled names, ∃ kind, named? name = some kind := by
      intro name member
      obtain ⟨listed, given⟩ := mem_filled.mp member
      exact Option.ne_none_iff_exists'.mp fun missing => known name listed ⟨given, missing⟩
    rw [meant_eq]
    generalize filled names = given at each
    induction given with
    | nil => rfl
    | cons name given ih =>
        obtain ⟨⟨kind, found⟩, others⟩ := List.forall_mem_cons.mp each
        rw [List.map_cons, List.filterMap_cons_some found, List.map_cons, found, ih others]

theorem resolve_append (front back : List Text) :
    resolve (front ++ back) = do
      let first ← resolve front
      let second ← resolve back
      return first ++ second := by
  induction front with
  | nil =>
      change resolve back = resolve back >>= pure
      rw [bind_pure]
  | cons name front ih =>
      rw [List.cons_append]
      by_cases blank : Text.strip name = []
      · rw [resolve_cons_of_blank blank, resolve_cons_of_blank blank, ih]
      · cases found : named? name with
        | none =>
            rw [resolve_cons_of_unknown ⟨blank, found⟩, resolve_cons_of_unknown ⟨blank, found⟩]
            rfl
        | some kind =>
            rw [resolve_cons blank found, resolve_cons blank found, ih]
            simp only [map_bind, map_pure, bind_map_left, List.cons_append]

theorem listed_eq (names : List Text) : listed names = resolve names := by
  rw [listed, choose]
  cases resolve names with
  | error failure => rfl
  | ok kinds => cases kinds <;> rfl

theorem readKinds_eq_ok_iff :
    Command.Request.readKinds text = .ok kinds ↔
      choose (some (Text.splitOn ',' text)) = .ok (some kinds) := by
  unfold Command.Request.readKinds
  cases choose (some (Text.splitOn ',' text)) with
  | error failure => simp
  | ok chosen => cases chosen <;> simp

variable {names : Option (List Text)}

theorem choose_fails_iff :
    (∃ failure, choose names = .error failure) ↔ ∃ name ∈ names.getD [], IsUnknown name := by
  simp only [choose_eq_error_iff]
  constructor
  · rintro ⟨_, name, first, -⟩
    exact ⟨name, first.mem, first.holds⟩
  · intro present
    obtain ⟨name, first⟩ := exists_isFirst present
    exact ⟨_, name, first, rfl⟩

theorem choose_eq_some_iff :
    choose names = .ok (some kinds) ↔
      filled (names.getD []) ≠ [] ∧ (filled (names.getD [])).map named? = kinds.map some := by
  rw [choose_eq_ok_iff, map_filled_iff]
  constructor
  · rintro ⟨known, same⟩
    by_cases empty : meant (names.getD []) = []
    · simp [chosen, empty] at same
    · have own : kinds = meant (names.getD []) := by simpa [chosen, empty] using same
      refine ⟨fun blank => empty ?_, known, own⟩
      rw [meant_eq, blank]
      rfl
  · rintro ⟨given, known, rfl⟩
    obtain ⟨name, member⟩ := List.exists_mem_of_ne_nil _ given
    have empty := meant_ne_nil known ⟨name, mem_filled.mp member⟩
    exact ⟨known, by simp [chosen, empty]⟩

theorem choose_eq_none_iff :
    choose names = .ok none ↔ ∀ name ∈ names.getD [], Text.strip name = [] := by
  rw [choose_eq_ok_iff]
  constructor
  · rintro ⟨known, same⟩
    by_contra some
    simp only [not_forall, exists_prop] at some
    obtain ⟨kinds, chosen⟩ := exists_chosen known some
    have own : Kind.chosen names = Kind.chosen (Option.some (names.getD [])) := rfl
    rw [own, chosen] at same
    cases same
  · intro blank
    refine ⟨fun name member unknown => unknown.1 (blank name member), ?_⟩
    have none : meant (names.getD []) = [] := by
      rw [meant_eq, filled_eq_nil_iff.mpr blank]
      rfl
    simp [chosen, none]

/-- A choice of kinds is never that of no kind. There is none exactly if all names are blank; it
fails exactly if a name that is not blank means nothing, and else it has the kind of each name that
is not blank, in order. Lists of names in a row are chosen from in a row. A name of ASCII means a
kind exactly if it spells it, and no name stands for two kinds. A list of names between commas, as
an option has it, is read as the choice that they make, if they make one. -/
theorem choose_outcome :
    (∀ names, choose names ≠ .ok (some []) ∧
      (choose names = .ok none ↔ ∀ name ∈ names.getD [], Text.strip name = []) ∧
      ((∃ failure, choose names = .error failure) ↔
        ∃ name ∈ names.getD [], Text.strip name ≠ [] ∧ named? name = none) ∧
      (∀ failure, choose names = .error failure → failure.kind = .value) ∧
      ∀ kinds, choose names = .ok (some kinds) ↔ filled (names.getD []) ≠ [] ∧
        (filled (names.getD [])).map named? = kinds.map some) ∧
    (∀ front back, (listed (front ++ back) = do
        let first ← listed front
        let second ← listed back
        return first ++ second) ∧
      ((∃ failure, choose (some (front ++ back)) = .error failure) ↔
        (∃ failure, choose (some front) = .error failure) ∨
          ∃ failure, choose (some back) = .error failure)) ∧
    (∀ name kind, IsAscii name → (named? name = some kind ↔ Spells name kind)) ∧
    (∀ name kind other, Spells name kind → Spells name other → kind = other) ∧
    (∀ name kind other, byLabel? name = some kind → byKey? name = some other → kind = other) ∧
    ∀ text kinds, Command.Request.readKinds text = .ok kinds ↔
      choose (some (Text.splitOn ',' text)) = .ok (some kinds) := by
  refine ⟨fun names => ⟨?_, choose_eq_none_iff, choose_fails_iff, ?_, fun kinds =>
    choose_eq_some_iff⟩, fun front back => ⟨?_, ?_⟩, fun name kind => named?_eq_some_iff,
    fun name kind other => Spells.unique, fun text kind other => byLabel?_byKey?_unique,
    fun text kinds => readKinds_eq_ok_iff⟩
  · intro empty
    obtain ⟨given, same⟩ := choose_eq_some_iff.mp empty
    exact given (List.map_eq_nil_iff.mp same)
  · intro failure failed
    obtain ⟨name, -, rfl⟩ := choose_eq_error_iff.mp failed
    rfl
  · rw [listed_eq, listed_eq, listed_eq, resolve_append]
  · simp only [choose_fails_iff, Option.getD_some, List.mem_append, or_and_right, exists_or]

end Choice

/-- Blank names are passed over, the others are taken in either spelling, and a label that is also a
symbolic name leads to the same kind both ways. -/
theorem choose_outcome_mixed :
    choose (some [" ", "CONTRACT-EVENT", "Diagnostic event", "diagnostic_event"]) =
        .ok (some [.contract, .diagnostic, .diagnostic]) ∧
      IsAscii " failed contract-EVENT" ∧ named? " failed contract-EVENT" = some .failedContract ∧
      Spells "contract event" .contract ∧ byLabel? "contract event" = some .contract ∧
      byKey? "contract event" = some .contract ∧
      ∀ other, Spells "contract event" other ∨ byKey? "contract event" = some other →
        .contract = other := by
  obtain ⟨choices, -, ascii, unique, uniqueLookUp, -⟩ := choose_outcome
  have isAscii : IsAscii " failed contract-EVENT" := by decide
  have spelled : Spells " failed contract-EVENT" .failedContract := by
    right
    decide
  have label : byLabel? "contract event" = some .contract := by decide
  have spells : Spells "contract event" .contract := by
    left
    decide
  refine ⟨?_, isAscii, (ascii _ _ isAscii).mpr spelled, spells, label, by decide, ?_⟩
  · refine ((choices (some _)).2.2.2.2 _).mpr ⟨?_, ?_⟩
    · decide
    · decide
  · rintro other (again | key)
    · exact unique _ _ _ spells again
    · exact uniqueLookUp _ _ _ label key

end SimTriage.Event.Kind
