import SimTriage.Text.Utf8

/-!
What UTF-8 is read as. A character is read from the bytes that it is written as and from no others;
the pieces of any input keep all of its bytes in order; and a byte of ASCII ends whatever stands in
front of it, so that damage never reaches across one.
-/

set_option autoImplicit false

namespace SimTriage.Text.Utf8

/-- What the second byte of a character may be, by the first. -/
theorem continues_first {a b : UInt8} :
    continues [a] b = true ↔ (0x80 ≤ b.toNat ∧ b.toNat < 0xC0) ∧
      (a.toNat = 0xE0 → 0xA0 ≤ b.toNat) ∧ (a.toNat = 0xED → b.toNat < 0xA0) ∧
      (a.toNat = 0xF0 → 0x90 ≤ b.toNat) ∧ (a.toNat = 0xF4 → b.toNat < 0x90) := by
  have value : ∀ n : UInt8, a = n ↔ a.toNat = n.toNat := fun n => UInt8.toNat_inj.symm
  unfold continues
  simp only [Bool.and_eq_true, decide_eq_true_eq, UInt8.le_iff_toNat_le, UInt8.lt_iff_toNat_lt]
  refine and_congr_right fun _ => ?_
  split
  case h_1 same | h_2 same | h_3 same | h_4 same =>
      cases same
      simp
  case h_5 e0 ed f0 f4 =>
      have others : a.toNat ≠ 0xE0 ∧ a.toNat ≠ 0xED ∧ a.toNat ≠ 0xF0 ∧ a.toNat ≠ 0xF4 := by
        refine ⟨?_, ?_, ?_, ?_⟩ <;> intro same
        · exact e0 (by rw [(value 0xE0).mpr same])
        · exact ed (by rw [(value 0xED).mpr same])
        · exact f0 (by rw [(value 0xF0).mpr same])
        · exact f4 (by rw [(value 0xF4).mpr same])
      simp [others]

theorem continues_later {a b c : UInt8} {more : Bytes} :
    continues (a :: b :: more) c = true ↔ 0x80 ≤ c.toNat ∧ c.toNat < 0xC0 := by
  simp [continues, UInt8.le_iff_toNat_le, UInt8.lt_iff_toNat_lt]

theorem width_eq_one_iff {a : UInt8} : width a = 1 ↔ a.toNat < 0x80 := by
  simp only [width, UInt8.lt_iff_toNat_lt, UInt8.toNat_ofNat]
  grind

theorem width_eq_two_iff {a : UInt8} : width a = 2 ↔ 0xC2 ≤ a.toNat ∧ a.toNat < 0xE0 := by
  simp only [width, UInt8.lt_iff_toNat_lt, UInt8.toNat_ofNat]
  grind

theorem width_eq_three_iff {a : UInt8} : width a = 3 ↔ 0xE0 ≤ a.toNat ∧ a.toNat < 0xF0 := by
  simp only [width, UInt8.lt_iff_toNat_lt, UInt8.toNat_ofNat]
  grind

theorem width_eq_four_iff {a : UInt8} : width a = 4 ↔ 0xF0 ≤ a.toNat ∧ a.toNat < 0xF5 := by
  simp only [width, UInt8.lt_iff_toNat_lt, UInt8.toNat_ofNat]
  grind

theorem width_le (a : UInt8) : width a ≤ 4 := by
  unfold width
  grind

/-- The bytes of one character, from the first to the last. -/
inductive IsCharacter : Bytes → Prop
  | one {a : UInt8} (first : width a = 1) : IsCharacter [a]
  | two {a b : UInt8} (first : width a = 2) (second : continues [a] b = true) : IsCharacter [a, b]
  | three {a b c : UInt8} (first : width a = 3) (second : continues [a] b = true)
      (third : continues [a, b] c = true) : IsCharacter [a, b, c]
  | four {a b c d : UInt8} (first : width a = 4) (second : continues [a] b = true)
      (third : continues [a, b] c = true) (fourth : continues [a, b, c] d = true) :
      IsCharacter [a, b, c, d]

theorem toNat_ofNat {n : Nat} (scalar : n < 0xD800 ∨ 0xDFFF < n ∧ n < 0x110000) :
    (Char.ofNat n).toNat = n := by
  have valid : n.isValidChar := scalar
  rw [Char.ofNat, dif_pos valid]
  rfl

theorem ofNat_eq {n : Nat} {b : UInt8} (same : n = b.toNat) : UInt8.ofNat n = b := by
  rw [same, UInt8.ofNat_toNat]

/-- A character is written as the bytes that it has been read from. -/
theorem IsCharacter.encodeChar_assemble {bytes : Bytes} (character : IsCharacter bytes) :
    encodeChar (assemble bytes) = bytes := by
  cases character with
  | @one a first =>
      rw [width_eq_one_iff] at first
      have value : (assemble [a]).toNat = a.toNat := toNat_ofNat (by omega)
      simp only [encodeChar, value]
      rw [if_pos first, ofNat_eq rfl]
  | @two a b first second =>
      rw [width_eq_two_iff] at first
      rw [continues_first] at second
      have value : (assemble [a, b]).toNat = (a.toNat - 0xC0) * 0x40 + (b.toNat - 0x80) :=
        toNat_ofNat (by omega)
      simp only [encodeChar, value]
      rw [if_neg (by omega), if_pos (by omega), @ofNat_eq _ a (by omega), @ofNat_eq _ b (by omega)]
  | @three a b c first second third =>
      rw [width_eq_three_iff] at first
      rw [continues_first] at second
      rw [continues_later] at third
      have value : (assemble [a, b, c]).toNat =
          (a.toNat - 0xE0) * 0x1000 + (b.toNat - 0x80) * 0x40 + (c.toNat - 0x80) :=
        toNat_ofNat (by omega)
      simp only [encodeChar, value]
      rw [if_neg (by omega), if_neg (by omega), if_pos (by omega), @ofNat_eq _ a (by omega),
        @ofNat_eq _ b (by omega), @ofNat_eq _ c (by omega)]
  | @four a b c d first second third fourth =>
      rw [width_eq_four_iff] at first
      rw [continues_first] at second
      rw [continues_later] at third fourth
      have value : (assemble [a, b, c, d]).toNat =
          (a.toNat - 0xF0) * 0x40000 + (b.toNat - 0x80) * 0x1000 + (c.toNat - 0x80) * 0x40 +
            (d.toNat - 0x80) := toNat_ofNat (by omega)
      simp only [encodeChar, value]
      rw [if_neg (by omega), if_neg (by omega), if_neg (by omega), @ofNat_eq _ a (by omega),
        @ofNat_eq _ b (by omega), @ofNat_eq _ c (by omega), @ofNat_eq _ d (by omega)]

/-- A character is read from the bytes that it is written as. -/
theorem isCharacter_encodeChar (c : Char) :
    IsCharacter (encodeChar c) ∧ assemble (encodeChar c) = c := by
  have scalar : c.toNat < 0xD800 ∨ 0xDFFF < c.toNat ∧ c.toNat < 0x110000 := c.valid
  have byte : ∀ {n : Nat}, n < 256 → (UInt8.ofNat n).toNat = n := UInt8.toNat_ofNat_of_lt'
  have value : ∀ n, n = c.toNat → Char.ofNat n = c := by
    intro n same
    rw [same, Char.ofNat_toNat]
  unfold encodeChar
  dsimp only
  -- one case for each number of bytes
  split
  · refine ⟨.one ?_, value _ ?_⟩
    · rw [width_eq_one_iff, byte (by omega)]
      omega
    · rw [byte (by omega)]
  split
  · refine ⟨.two ?_ ?_, value _ ?_⟩
    · rw [width_eq_two_iff, byte (by omega)]
      omega
    · rw [continues_first, byte (by omega), byte (by omega)]
      omega
    · rw [byte (by omega), byte (by omega)]
      omega
  split
  · refine ⟨.three ?_ ?_ ?_, value _ ?_⟩
    · rw [width_eq_three_iff, byte (by omega)]
      omega
    · rw [continues_first, byte (by omega), byte (by omega)]
      omega
    · rw [continues_later, byte (by omega)]
      omega
    · rw [byte (by omega), byte (by omega), byte (by omega)]
      omega
  · refine ⟨.four ?_ ?_ ?_ ?_, value _ ?_⟩
    · rw [width_eq_four_iff, byte (by omega)]
      omega
    · rw [continues_first, byte (by omega), byte (by omega)]
      omega
    · rw [continues_later, byte (by omega)]
      omega
    · rw [continues_later, byte (by omega)]
      omega
    · rw [byte (by omega), byte (by omega), byte (by omega), byte (by omega)]
      omega

/-- Bytes that a character may begin with and that do not make one yet. -/
inductive IsBegun : Bytes → Prop
  | one {a : UInt8} (first : 2 ≤ width a) : IsBegun [a]
  | two {a b : UInt8} (first : 3 ≤ width a) (second : continues [a] b = true) : IsBegun [a, b]
  | three {a b c : UInt8} (first : 4 ≤ width a) (second : continues [a] b = true)
      (third : continues [a, b] c = true) : IsBegun [a, b, c]

/-- An allowed byte makes a character of those begun, or leaves them begun. -/
theorem IsBegun.step_of_continues {begun : Bytes} {b : UInt8} (isBegun : IsBegun begun)
    (allowed : continues begun b = true) :
    (IsCharacter (begun ++ [b]) ∧
      step begun b = ([.character (assemble (begun ++ [b]))], [])) ∨
    (IsBegun (begun ++ [b]) ∧ step begun b = ([], begun ++ [b])) := by
  cases isBegun with
  | @one a first =>
      by_cases last : width a = 2
      · left
        exact ⟨.two last allowed, by simp [step, allowed, last]⟩
      · right
        exact ⟨.two (by omega) allowed, by simp [step, allowed, Ne.symm last]⟩
  | @two a c first second =>
      by_cases last : width a = 3
      · left
        exact ⟨.three last second allowed, by simp [step, allowed, last]⟩
      · right
        exact ⟨.three (by omega) second allowed, by simp [step, allowed, Ne.symm last]⟩
  | @three a c d first second third =>
      have last : width a = 4 := Nat.le_antisymm (width_le a) first
      left
      exact ⟨.four last second third allowed, by simp [step, allowed, last]⟩

theorem step_of_not_continues {begun : Bytes} {b : UInt8} (filled : begun ≠ [])
    (refused : continues begun b = false) :
    step begun b = (.broken begun .invalidContinuation :: (start b).1, (start b).2) := by
  cases begun with
  | nil => exact absurd rfl filled
  | cons first begun => simp [step, refused]

/-- A byte that starts a character makes it, begins it, or is no such start. -/
theorem start_cases (b : UInt8) :
    (IsCharacter [b] ∧ start b = ([.character (assemble [b])], [])) ∨
    (IsBegun [b] ∧ start b = ([], [b])) ∨
    start b = ([.broken [b] .invalidStart], []) := by
  unfold start
  split
  · exact Or.inr (Or.inr rfl)
  · rename_i first
    exact Or.inl ⟨.one first, rfl⟩
  · rename_i notNone notOne
    have more : 2 ≤ width b := by
      have none : width b ≠ 0 := notNone
      have one : width b ≠ 1 := notOne
      omega
    exact Or.inr (Or.inl ⟨.one more, rfl⟩)

/-- The bytes that a piece has been read from. -/
def Piece.bytes : Piece → Bytes
  | .character c => encodeChar c
  | .broken bytes _ => bytes

theorem piecesFrom_cons (begun : Bytes) (b : UInt8) (rest : Bytes) :
    piecesFrom begun (b :: rest) = (step begun b).1 ++ piecesFrom (step begun b).2 rest := by
  cases begun <;> rfl

theorem bytes_start (b : UInt8) :
    (start b).1.flatMap Piece.bytes ++ (start b).2 = [b] ∧
      ((start b).2 = [] ∨ IsBegun (start b).2) := by
  rcases start_cases b with ⟨character, starts⟩ | ⟨isBegun, starts⟩ | starts
  · simp [starts, Piece.bytes, character.encodeChar_assemble]
  · simp [starts, isBegun]
  · simp [starts, Piece.bytes]

/-- A step keeps every byte, in a piece or among those begun. -/
theorem bytes_step {begun : Bytes} (b : UInt8) (unfinished : begun = [] ∨ IsBegun begun) :
    (step begun b).1.flatMap Piece.bytes ++ (step begun b).2 = begun ++ [b] ∧
      ((step begun b).2 = [] ∨ IsBegun (step begun b).2) := by
  rcases unfinished with rfl | isBegun
  · exact bytes_start b
  cases allowed : continues begun b with
  | true =>
      rcases isBegun.step_of_continues allowed with ⟨character, steps⟩ | ⟨isBegun, steps⟩
      · simp [steps, Piece.bytes, character.encodeChar_assemble]
      · simp [steps, isBegun]
  | false =>
      have filled : begun ≠ [] := by
        cases isBegun <;> simp
      obtain ⟨bytes, left⟩ := bytes_start b
      rw [step_of_not_continues filled allowed]
      refine ⟨?_, left⟩
      rw [List.flatMap_cons, List.append_assoc, bytes]
      rfl

theorem bytes_piecesFrom {begun : Bytes} (rest : Bytes) (unfinished : begun = [] ∨ IsBegun begun) :
    (piecesFrom begun rest).flatMap Piece.bytes = begun ++ rest := by
  induction rest generalizing begun with
  | nil => cases begun <;> simp [piecesFrom, Piece.bytes]
  | cons b rest ih =>
      obtain ⟨bytes, left⟩ := bytes_step b unfinished
      rw [piecesFrom_cons, List.flatMap_append, ih left, ← List.append_assoc, bytes,
        List.append_assoc]
      rfl

/-- The pieces lose nothing: joined again, their bytes are the input. -/
theorem bytes_pieces (input : Bytes) : (pieces input).flatMap Piece.bytes = input :=
  bytes_piecesFrom input (Or.inl rfl)

theorem pieces_character {bytes : Bytes} (character : IsCharacter bytes) (rest : Bytes) :
    pieces (bytes ++ rest) = .character (assemble bytes) :: pieces rest := by
  cases character with
  | one first => simp [pieces, piecesFrom_cons, step, start, first]
  | two first second => simp [pieces, piecesFrom_cons, step, start, first, second]
  | three first second third => simp [pieces, piecesFrom_cons, step, start, first, second, third]
  | four first second third fourth =>
      simp [pieces, piecesFrom_cons, step, start, first, second, third, fourth]

/-- What has been written is read character by character. -/
theorem pieces_encode (text : Text) : pieces (encode text) = text.map .character := by
  induction text with
  | nil => rfl
  | cons c text ih =>
      obtain ⟨character, same⟩ := isCharacter_encodeChar c
      rw [encode, List.flatMap_cons, pieces_character character, same, List.map_cons]
      exact congrArg _ ih

theorem start_of_ascii {b : UInt8} (ascii : b.toNat < 0x80) :
    start b = ([.character (Char.ofNat b.toNat)], []) := by
  have first : width b = 1 := width_eq_one_iff.mpr ascii
  simp [start, first, assemble]

theorem not_continues_of_ascii {begun : Bytes} {b : UInt8} (ascii : b.toNat < 0x80) :
    continues begun b = false := by
  have low : ¬ 0x80 ≤ b := by
    rw [UInt8.le_iff_toNat_le]
    exact Nat.not_le_of_lt ascii
  simp [continues, low]

/-- A byte of ASCII ends whatever has been begun in front of it, and what follows it is read as if
nothing had been there. Only the reason of a broken piece in front of it may differ. -/
theorem map_piecesFrom_append {α : Type} {f : Piece → α}
    (blind : ∀ bytes reason other, f (.broken bytes reason) = f (.broken bytes other)) {b : UInt8}
    (ascii : b.toNat < 0x80) (begun front rest : Bytes) :
    (piecesFrom begun (front ++ b :: rest)).map f =
      (piecesFrom begun front).map f ++
        f (.character (Char.ofNat b.toNat)) :: (pieces rest).map f := by
  induction front generalizing begun with
  | nil =>
      rw [List.nil_append, piecesFrom_cons]
      cases begun with
      | nil => simp [step, start_of_ascii ascii, piecesFrom, pieces]
      | cons first begun =>
          rw [step_of_not_continues (by simp) (not_continues_of_ascii ascii), start_of_ascii ascii]
          simp [piecesFrom, pieces, blind _ .invalidContinuation .endOfData]
  | cons x front ih =>
      rw [List.cons_append, piecesFrom_cons, piecesFrom_cons, List.map_append, ih, List.map_append,
        List.append_assoc]

end SimTriage.Text.Utf8
