import SimTriage.HostError
import SimTriage.Proofs.Text.Numeral

/-!
Where a text mentions a host error. The error that is found is the first one mentioned, and it
cannot be read only if its code is a mark and too many digits.
-/

set_option autoImplicit false

namespace SimTriage.HostError

open Text (IsBlankRun IsRun)

/-- The name of a type of host errors. -/
def IsTypeName (name : Text) : Prop :=
  ∃ c rest, name = c :: rest ∧ isNameStart c = true ∧ ∀ d ∈ rest, isNameChar d = true

/-- A code: letters and digits, with a mark in front of them or without one. -/
def IsCode (code : Text) : Prop :=
  IsRun isNameChar code ∨ ∃ name, code = '#' :: name ∧ IsRun isNameChar name

/-- A way to find a host error in a text, with the text in front of it and behind it. -/
structure Mention where
  before : Text
  type : Text
  blanks : Text
  code : Text
  behind : Text

namespace Mention

def text (m : Mention) : Text :=
  m.before ++ ("Error(" ++ (m.type ++ ("," ++ (m.blanks ++ (m.code ++ (")" ++ m.behind))))))

/-- The text mentions the host error there. -/
structure Spells (m : Mention) (text : Text) : Prop where
  type : IsTypeName m.type
  blanks : IsBlankRun m.blanks
  code : IsCode m.code
  text : text = m.text

/-- The text mentions the host error there, and none before it. -/
structure IsFirst (m : Mention) (text : Text) : Prop where
  spells : m.Spells text
  first : ∀ other : Mention, other.Spells text → m.before.length ≤ other.before.length

end Mention

theorem isBlank_of_isNameChar {c : Char} (name : isNameChar c = true) : Text.isBlank c = false := by
  apply Text.isBlank_of_visible
  have bounds : (0x30 ≤ c.toNat ∧ c.toNat ≤ 0x39) ∨ (0x41 ≤ c.toNat ∧ c.toNat ≤ 0x5A) ∨
      (0x61 ≤ c.toNat ∧ c.toNat ≤ 0x7A) ∨ c.toNat = 0x5F := by
    delta isNameChar Char.isAlphanum Char.isAlpha Char.isUpper Char.isLower Char.isDigit at name
    simp only [Bool.or_eq_true, Bool.and_eq_true, decide_eq_true_eq, UInt32.le_iff_toNat_le] at name
    rcases name with ((upper | lower) | digit) | rfl
    · exact Or.inr (Or.inl upper)
    · exact Or.inr (Or.inr (Or.inl lower))
    · exact Or.inl digit
    · decide
  omega

theorem isBlank_head?_code {code rest : Text} (isCode : IsCode code) :
    ∀ c ∈ (code ++ rest).head?, Text.isBlank c = false := by
  intro c first
  rcases isCode with ⟨nonempty, inside⟩ | ⟨name, rfl, -⟩
  · cases code with
    | nil => exact absurd rfl nonempty
    | cons d code =>
        cases first
        exact isBlank_of_isNameChar (inside c List.mem_cons_self)
  · cases first
    decide

theorem takeWhile_run {p : Char → Bool} {run rest : Text} (inside : ∀ c ∈ run, p c = true)
    (stop : ∀ c ∈ rest.head?, p c = false) :
    (run ++ rest).takeWhile p = run ∧ (run ++ rest).dropWhile p = rest := by
  have cut := Text.span_run inside stop
  rw [List.span_eq_takeWhile_dropWhile, Prod.mk.injEq] at cut
  exact cut

theorem type?_eq_some_iff {text name rest : Text} :
    type? text = some (name, rest) ↔
      IsTypeName name ∧ text = name ++ rest ∧ ∀ c ∈ rest.head?, isNameChar c = false := by
  constructor
  · intro found
    cases text with
    | nil => cases found
    | cons c text =>
        by_cases start : isNameStart c = true
        · simp only [type?, start, ↓reduceIte] at found
          cases found
          refine ⟨⟨c, _, rfl, start, fun d member => List.mem_takeWhile_imp member⟩, ?_,
            Text.head?_dropWhile⟩
          rw [List.cons_append, List.takeWhile_append_dropWhile]
        · simp only [type?, start, Bool.false_eq_true, ↓reduceIte] at found
          cases found
  · intro isName
    obtain ⟨⟨c, letters, rfl, start, inside⟩, rfl, stop⟩ := isName
    obtain ⟨taken, dropped⟩ := takeWhile_run inside stop
    simp only [List.cons_append, type?, start, ↓reduceIte, taken, dropped]

/-- The letters and digits of a code, behind a mark or without one. -/
theorem name_eq_some_iff {mark text code rest : Text} :
    (match text.takeWhile isNameChar with
      | [] => none
      | name => some (mark ++ name, text.dropWhile isNameChar)) = some (code, rest) ↔
    ∃ name, IsRun isNameChar name ∧ code = mark ++ name ∧ text = name ++ rest ∧
      ∀ c ∈ rest.head?, isNameChar c = false := by
  constructor
  · intro found
    split at found
    · cases found
    · rename_i nonempty
      cases found
      refine ⟨_, ⟨nonempty, fun c member => List.mem_takeWhile_imp member⟩, rfl, ?_,
        Text.head?_dropWhile⟩
      rw [List.takeWhile_append_dropWhile]
  · intro isName
    obtain ⟨name, ⟨nonempty, inside⟩, rfl, rfl, stop⟩ := isName
    obtain ⟨taken, dropped⟩ := takeWhile_run inside stop
    rw [taken, dropped]
    cases name with
    | nil => exact absurd rfl nonempty
    | cons c name => rfl

theorem code?_eq_some_iff {text code rest : Text} :
    code? text = some (code, rest) ↔
      IsCode code ∧ text = code ++ rest ∧ ∀ c ∈ rest.head?, isNameChar c = false := by
  by_cases marked : ∃ unmarked, text = '#' :: unmarked
  · obtain ⟨unmarked, rfl⟩ := marked
    have behindMark : code? ('#' :: unmarked) = some (code, rest) ↔ _ := name_eq_some_iff
    refine behindMark.trans ⟨?_, ?_⟩
    · intro isName
      obtain ⟨name, run, rfl, rfl, stop⟩ := isName
      exact ⟨Or.inr ⟨name, rfl, run⟩, rfl, stop⟩
    · intro isCode
      obtain ⟨isCode, split, stop⟩ := isCode
      rcases isCode with ⟨nonempty, inside⟩ | ⟨name, rfl, run⟩
      · cases code with
        | nil => exact absurd rfl nonempty
        | cons c code =>
            cases split
            exact absurd (inside _ List.mem_cons_self) (by decide)
      · cases split
        exact ⟨name, run, rfl, rfl, stop⟩
  · have other : ∀ rest, text = '#' :: rest → False := fun rest same => marked ⟨rest, same⟩
    have plain : code? text =
        match text.takeWhile isNameChar with
        | [] => none
        | name => some ([] ++ name, text.dropWhile isNameChar) := by
      unfold code?
      split
      rename_i opening
      -- `other` leaves only the second way to begin a code
      split at opening
      · exact (other _ rfl).elim
      · cases opening
        rfl
    rw [plain, name_eq_some_iff]
    constructor
    · intro isName
      obtain ⟨name, run, rfl, rfl, stop⟩ := isName
      exact ⟨Or.inl run, rfl, stop⟩
    · intro isCode
      obtain ⟨isCode, split, stop⟩ := isCode
      rcases isCode with run | ⟨name, rfl, -⟩
      · exact ⟨code, run, rfl, split, stop⟩
      · exact absurd ⟨_, split⟩ marked

theorem pairAt?_eq_some_iff {text type code : Text} :
    pairAt? text = some (type, code) ↔
      ∃ m : Mention, m.Spells text ∧ m.before = [] ∧ m.type = type ∧ m.code = code := by
  simp only [pairAt?, Option.bind_eq_bind, Option.pure_def, Option.bind_eq_some_iff,
    Text.after?_eq_some_iff]
  constructor
  · intro found
    obtain ⟨rest₁, rfl, ⟨name, rest₂⟩, isType, rest₃, comma, ⟨own, rest₄⟩, isCode, rest₅, close,
      same⟩ := found
    cases same
    obtain ⟨typeName, rfl, -⟩ := type?_eq_some_iff.mp isType
    obtain ⟨isCode, split, -⟩ := code?_eq_some_iff.mp isCode
    obtain ⟨blanks, blank, trimmed⟩ := Text.exists_trimStart rest₃
    dsimp only at comma close
    refine ⟨⟨[], name, blanks, own, rest₅⟩, ⟨typeName, blank, isCode, ?_⟩, rfl, rfl, rfl⟩
    rw [comma, trimmed, split, close]
    rfl
  · intro mentioned
    obtain ⟨⟨_, _, blanks, _, behind⟩, ⟨typeName, blank, isCode, rfl⟩, rfl, rfl, rfl⟩ := mentioned
    dsimp only at typeName blank isCode
    refine ⟨_, rfl, _, type?_eq_some_iff.mpr ⟨typeName, rfl, ?_⟩, _, rfl, (_, ")" ++ behind), ?_,
      behind, rfl, rfl⟩
    · intro c first
      cases first
      decide
    · rw [Text.trimStart_append blank, Text.trimStart_eq_self (isBlank_head?_code isCode)]
      exact code?_eq_some_iff.mpr ⟨isCode, rfl, fun c first => by cases first; decide⟩

namespace Mention

/-- The same mention with one more character in front of the text. -/
def shift (c : Char) (m : Mention) : Mention := { m with before := c :: m.before }

theorem spells_shift {m : Mention} {c : Char} {text : Text} :
    (m.shift c).Spells (c :: text) ↔ m.Spells text := by
  constructor
  · intro spells
    exact ⟨spells.type, spells.blanks, spells.code, (List.cons.inj spells.text).2⟩
  · intro spells
    refine ⟨spells.type, spells.blanks, spells.code, ?_⟩
    rw [spells.text]
    rfl

/-- A mention that does not begin with the text is one in the rest of it. -/
theorem exists_shift {m : Mention} {c : Char} {text : Text} (spells : m.Spells (c :: text))
    (later : m.before ≠ []) : ∃ other : Mention, m = other.shift c ∧ other.Spells text := by
  obtain ⟨before, type, blanks, code, behind⟩ := m
  cases before with
  | nil => exact absurd rfl later
  | cons d before =>
      obtain ⟨same, -⟩ := List.cons.inj spells.text
      subst same
      exact ⟨⟨before, type, blanks, code, behind⟩, rfl, spells_shift.mp spells⟩

theorem before_ne_nil {m : Mention} {text : Text} (spells : m.Spells text)
    (missing : pairAt? text = none) : m.before ≠ [] := by
  intro begins
  have found := pairAt?_eq_some_iff.mpr ⟨m, spells, begins, rfl, rfl⟩
  rw [missing] at found
  cases found

/-- There is a first mention where there is any. -/
theorem exists_isFirst_of_pair? {text type code : Text} (found : pair? text = some (type, code)) :
    ∃ m : Mention, m.IsFirst text ∧ m.type = type ∧ m.code = code := by
  induction text with
  | nil => cases found
  | cons c text ih =>
      rw [pair?] at found
      cases here : pairAt? (c :: text) with
      | some pair =>
          rw [here] at found
          cases found
          obtain ⟨m, spells, begins, isType, isCode⟩ := pairAt?_eq_some_iff.mp here
          refine ⟨m, ⟨spells, fun other _ => ?_⟩, isType, isCode⟩
          simp [begins]
      | none =>
          rw [here] at found
          obtain ⟨m, isFirst, isType, isCode⟩ := ih found
          refine ⟨m.shift c, ⟨spells_shift.mpr isFirst.spells, ?_⟩, isType, isCode⟩
          intro other spells
          obtain ⟨rest, rfl, spellsRest⟩ := exists_shift spells (before_ne_nil spells here)
          exact Nat.succ_le_succ (isFirst.first rest spellsRest)

/-- First mentions differ at most in where they are cut. -/
theorem pair?_of_isFirst {m : Mention} {text : Text} (isFirst : m.IsFirst text) :
    pair? text = some (m.type, m.code) := by
  induction text generalizing m with
  | nil =>
      have split := isFirst.spells.text
      simp [Mention.text] at split
  | cons c text ih =>
      rw [pair?]
      by_cases begins : m.before = []
      · have here := pairAt?_eq_some_iff.mpr ⟨m, isFirst.spells, begins, rfl, rfl⟩
        rw [here]
      · have missing : pairAt? (c :: text) = none := by
          by_contra present
          obtain ⟨⟨type, code⟩, here⟩ := Option.ne_none_iff_exists'.mp present
          obtain ⟨other, spells, beginsOther, -⟩ := pairAt?_eq_some_iff.mp here
          have shorter := isFirst.first other spells
          rw [beginsOther, List.length_nil, Nat.le_zero, List.length_eq_zero_iff] at shorter
          exact begins shorter
        obtain ⟨rest, rfl, spellsRest⟩ := exists_shift isFirst.spells begins
        rw [missing]
        refine ih (m := rest) ⟨spellsRest, fun other spells => ?_⟩
        exact Nat.le_of_succ_le_succ (isFirst.first (other.shift c) (spells_shift.mpr spells))

end Mention

theorem pair?_eq_some_iff {text type code : Text} :
    pair? text = some (type, code) ↔
      ∃ m : Mention, m.IsFirst text ∧ m.type = type ∧ m.code = code := by
  constructor
  · exact Mention.exists_isFirst_of_pair?
  · intro mentioned
    obtain ⟨m, isFirst, rfl, rfl⟩ := mentioned
    exact Mention.pair?_of_isFirst isFirst

theorem contractDigits?_eq_some_iff {code digits : Text} :
    contractDigits? code = some digits ↔ code = '#' :: digits ∧ IsRun Text.isDigit digits := by
  constructor
  · intro found
    unfold contractDigits? at found
    split at found
    · rename_i rest
      split at found
      · rename_i holds
        cases found
        rw [Bool.and_eq_true, List.all_eq_true] at holds
        exact ⟨rfl, by simpa using holds.2, holds.1⟩
      · cases found
    · cases found
  · intro marked
    obtain ⟨rfl, nonempty, inside⟩ := marked
    have holds : (digits.all Text.isDigit && !digits.isEmpty) = true := by
      rw [Bool.and_eq_true, List.all_eq_true]
      exact ⟨inside, by simpa using nonempty⟩
    simp only [contractDigits?, holds, ↓reduceIte]

/-- The first host error of the text is one whose number has too many digits. -/
def IsOverlong (text digits : Text) : Prop :=
  ∃ m : Mention, m.IsFirst text ∧ m.code = '#' :: digits ∧ IsRun Text.isDigit digits ∧
    4300 < digits.length

/-- A number that is too long is the only failure, and its digits are counted. -/
theorem find_eq_error_iff {text : Text} {fault : Text.OverlongNumeral} :
    find text = .error fault ↔ ∃ digits, IsOverlong text digits ∧ fault = ⟨digits.length⟩ := by
  constructor
  · intro failed
    unfold find at failed
    split at failed
    · cases failed
    · rename_i type code found
      split at failed
      · cases failed
      · rename_i digits marked
        obtain ⟨m, isFirst, -, rfl⟩ := pair?_eq_some_iff.mp found
        obtain ⟨isCode, run⟩ := contractDigits?_eq_some_iff.mp marked
        by_cases long : 4300 < digits.length
        · simp only [Text.readNumeral, Text.maxDigits, long, ↓reduceIte] at failed
          cases failed
          exact ⟨digits, ⟨m, isFirst, isCode, run, long⟩, rfl⟩
        · simp only [Text.readNumeral, Text.maxDigits, long, ↓reduceIte] at failed
          cases failed
  · intro overlong
    obtain ⟨digits, ⟨m, isFirst, isCode, run, long⟩, rfl⟩ := overlong
    have found := pair?_eq_some_iff.mpr ⟨m, isFirst, rfl, rfl⟩
    have marked := contractDigits?_eq_some_iff.mpr ⟨isCode, run⟩
    simp only [find, found, marked, Text.readNumeral, Text.maxDigits, long, ↓reduceIte]
    rfl

theorem exists_find_iff {text : Text} :
    (∃ found, find text = .ok found) ↔ ¬ ∃ digits, IsOverlong text digits := by
  constructor
  · intro found overlong
    obtain ⟨found, isFound⟩ := found
    obtain ⟨digits, overlong⟩ := overlong
    cases isFound.symm.trans (find_eq_error_iff.mpr ⟨digits, overlong, rfl⟩)
  · intro short
    cases result : find text with
    | ok found => exact ⟨found, rfl⟩
    | error fault =>
        obtain ⟨digits, overlong, -⟩ := find_eq_error_iff.mp result
        exact absurd ⟨digits, overlong⟩ short

/-- The number of a host error that is found is not too long to be written. -/
theorem contractCode_length_le_of_find {text : Text} {error : HostError} {number : Nat}
    (isFound : find text = .ok (some error)) (given : error.contractCode = some number) :
    (Text.ofNat number).length ≤ Text.maxDigits := by
  unfold find at isFound
  split at isFound
  · cases isFound
  · split at isFound
    · cases isFound
      cases given
    · rename_i digits marked
      obtain ⟨-, run⟩ := contractDigits?_eq_some_iff.mp marked
      by_cases long : Text.maxDigits < digits.length
      · simp only [Text.readNumeral, long, ↓reduceIte] at isFound
        cases isFound
      · simp only [Text.readNumeral, long, ↓reduceIte] at isFound
        cases isFound
        cases given
        exact (Text.ofNat_numeralValue_length_le run).trans (Nat.le_of_not_lt long)

end SimTriage.HostError
