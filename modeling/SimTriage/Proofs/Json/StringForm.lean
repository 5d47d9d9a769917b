import SimTriage.Json.Reader

/-!
The written form of strings. It is ASCII, whatever the text, and reading it gives the text back:
each character is read from its escape alone.
-/

set_option autoImplicit false

namespace SimTriage

/-- Every character is an ASCII character. -/
def Text.IsAscii (text : Text) : Prop := ∀ c ∈ text, c.toNat < 0x80

namespace Text

variable {c : Char} {text front rest : Text}

@[simp] theorem isAscii_nil : IsAscii [] := List.forall_mem_nil _

@[simp] theorem isAscii_cons : IsAscii (c :: text) ↔ c.toNat < 0x80 ∧ IsAscii text :=
  List.forall_mem_cons

@[simp] theorem isAscii_append : IsAscii (front ++ rest) ↔ IsAscii front ∧ IsAscii rest :=
  List.forall_mem_append

end Text

namespace Json

section Escape

variable {n : Nat} {rest : Text}

theorem hexValue?_hexDigit (n : Nat) : hexValue? (Text.hexDigit n) = some (n % 16) := by
  have each : ∀ k < 16, hexValue? (Nat.digitChar k) = some k := by decide
  exact each (n % 16) (Nat.mod_lt n (by decide))

theorem hexDigits_four (n : Nat) :
    Text.hexDigits 4 n = [Text.hexDigit (n / 0x1000), Text.hexDigit (n / 0x100),
      Text.hexDigit (n / 0x10), Text.hexDigit n] := by
  simp only [Text.hexDigits, Nat.div_div_eq_div_mul, List.nil_append, List.cons_append,
    Nat.reduceMul]

theorem unit?_hexDigits (small : n < 0x10000) (rest : Text) :
    unit? (Text.hexDigits 4 n ++ rest) = some (n, rest) := by
  have value : n / 0x1000 % 16 * 0x1000 + n / 0x100 % 16 * 0x100 + n / 0x10 % 16 * 0x10 +
      n % 16 = n := by omega
  rw [hexDigits_four]
  simp only [List.cons_append, List.nil_append, unit?, hexValue?_hexDigit, Option.bind_eq_bind,
    Option.bind_some, value, Option.pure_def]

/-- A code point that takes one unit. -/
theorem escape?_unit (small : n < 0x10000) (scalar : n < 0xD800 ∨ 0xE000 ≤ n) (rest : Text) :
    escape? ('u' :: (Text.hexDigits 4 n ++ rest)) = some (Char.ofNat n, rest) := by
  have alone : (decide (n < 0xD800) || decide (0xE000 ≤ n)) = true := by simpa using scalar
  simp only [escape?, unit?_hexDigits small, Option.bind_eq_bind, Option.bind_some, alone,
    ↓reduceIte, Option.pure_def]

/-- Two units of a code point, each with ten of its bits. -/
theorem escape?_units {high low : Nat} (isHigh : 0xD800 ≤ high ∧ high < 0xDC00)
    (isLow : 0xDC00 ≤ low ∧ low < 0xE000) (rest : Text) :
    escape? ('u' :: (Text.hexDigits 4 high ++ (unitEscape low ++ rest))) =
      some (Char.ofNat (0x10000 + (high - 0xD800) * 0x400 + (low - 0xDC00)), rest) := by
  have paired : ¬ (decide (high < 0xD800) || decide (0xE000 ≤ high)) = true := by
    simp only [Bool.or_eq_true, decide_eq_true_eq]
    omega
  have notLow : ¬ 0xDC00 ≤ high := by omega
  have second : (decide (0xDC00 ≤ low) && decide (low < 0xE000)) = true := by simpa using isLow
  have smallHigh : high < 0x10000 := by omega
  have smallLow : low < 0x10000 := by omega
  simp only [escape?, unit?_hexDigits smallHigh, Option.bind_eq_bind, Option.bind_some, paired,
    ↓reduceIte, Bool.false_eq_true, notLow, unitEscape, List.cons_append, List.nil_append,
    unit?_hexDigits smallLow, second, Option.pure_def]

end Escape

section Characters

variable {c : Char} {text rest : Text}

theorem string?_escape {behind : Text} (escaped : escape? rest = some (c, behind)) (fuel : Nat) :
    string? (fuel + 1) ('\\' :: rest) =
      (string? fuel behind).map fun read => (c :: read.1, read.2) := by
  simp only [string?, escaped, Option.bind_eq_bind, Option.bind_some, Option.pure_def]
  cases string? fuel behind <;> rfl

theorem string?_plain (quote : c ≠ '"') (backslash : c ≠ '\\') (visible : ¬ c.toNat < 0x20)
    (fuel : Nat) (rest : Text) :
    string? (fuel + 1) (c :: rest) = (string? fuel rest).map fun read => (c :: read.1, read.2) := by
  rw [string?.eq_5 _ _ _ quote backslash, if_neg visible]
  cases string? fuel rest <;> rfl

/-- A character above U+FFFF has a second unit. -/
theorem string?_unitEscape (fuel : Nat) (c : Char) (rest : Text) :
    string? (fuel + 1)
        ((if c.toNat < 0x10000 then unitEscape c.toNat
          else unitEscape (0xD800 + (c.toNat - 0x10000) / 0x400) ++
            unitEscape (0xDC00 + (c.toNat - 0x10000) % 0x400)) ++ rest) =
      (string? fuel rest).map fun read => (c :: read.1, read.2) := by
  have scalar : c.toNat < 0xD800 ∨ 0xDFFF < c.toNat ∧ c.toNat < 0x110000 := c.valid
  by_cases small : c.toNat < 0x10000
  · rw [if_pos small]
    have escaped := escape?_unit small (by omega) rest
    rw [Char.ofNat_toNat] at escaped
    exact string?_escape escaped fuel
  · rw [if_neg small, List.append_assoc]
    have escaped := escape?_units
      (show 0xD800 ≤ 0xD800 + (c.toNat - 0x10000) / 0x400 ∧
        0xD800 + (c.toNat - 0x10000) / 0x400 < 0xDC00 by omega)
      (show 0xDC00 ≤ 0xDC00 + (c.toNat - 0x10000) % 0x400 ∧
        0xDC00 + (c.toNat - 0x10000) % 0x400 < 0xE000 by omega) rest
    have value : 0x10000 + (0xD800 + (c.toNat - 0x10000) / 0x400 - 0xD800) * 0x400 +
        (0xDC00 + (c.toNat - 0x10000) % 0x400 - 0xDC00) = c.toNat := by omega
    rw [value, Char.ofNat_toNat] at escaped
    exact string?_escape escaped fuel

/-- One character is read from its written form, and the string goes on behind it. -/
theorem string?_encodeChar (fuel : Nat) (c : Char) (rest : Text) :
    string? (fuel + 1) (encodeChar c ++ rest) =
      (string? fuel rest).map fun read => (c :: read.1, read.2) := by
  unfold encodeChar
  split
  case h_8 quote backslash _ _ _ _ _ =>
    dsimp only
    split
    · rename_i visible
      rw [Bool.and_eq_true, decide_eq_true_eq] at visible
      exact string?_plain quote backslash (Nat.not_lt.mpr visible.1) fuel rest
    · exact string?_unitEscape fuel c rest
  all_goals exact string?_escape rfl fuel

/-- The fuel counts characters of the text, each of which takes one step, whatever its escape. -/
theorem string?_encoded {fuel : Nat} (enough : text.length < fuel) (rest : Text) :
    string? fuel (text.flatMap encodeChar ++ '"' :: rest) = some (text, rest) := by
  induction text generalizing fuel with
  | nil =>
      obtain ⟨fuel, rfl⟩ := Nat.exists_eq_succ_of_ne_zero (Nat.ne_of_gt enough)
      simp only [List.flatMap_nil, List.nil_append, string?]
  | cons c text ih =>
      obtain ⟨fuel, rfl⟩ := Nat.exists_eq_succ_of_ne_zero (Nat.ne_zero_of_lt enough)
      rw [List.flatMap_cons, List.append_assoc, Nat.succ_eq_add_one, string?_encodeChar,
        ih (Nat.lt_of_succ_lt_succ enough)]
      rfl

end Characters

section Ascii

theorem toNat_hexDigit_lt (n : Nat) : (Text.hexDigit n).toNat < 0x80 := by
  have each : ∀ k < 16, (Nat.digitChar k).toNat < 0x80 := by decide
  exact each (n % 16) (Nat.mod_lt n (by decide))

theorem isAscii_unitEscape (unit : Nat) : Text.IsAscii (unitEscape unit) := by
  rw [unitEscape, hexDigits_four]
  simp [toNat_hexDigit_lt]

theorem isAscii_encodeChar (c : Char) : Text.IsAscii (encodeChar c) := by
  unfold encodeChar
  split
  case h_8 =>
    dsimp only
    split
    · rename_i visible
      rw [Bool.and_eq_true, decide_eq_true_eq, decide_eq_true_eq] at visible
      exact Text.isAscii_cons.mpr ⟨by omega, Text.isAscii_nil⟩
    · split <;> simp [isAscii_unitEscape]
  all_goals simp

theorem isAscii_encodeString (text : Text) : Text.IsAscii (encodeString text) := by
  have body : Text.IsAscii (text.flatMap encodeChar) := by
    intro d member
    obtain ⟨c, -, inside⟩ := List.mem_flatMap.mp member
    exact isAscii_encodeChar c d inside
  simp [encodeString, body]

end Ascii

end Json

end SimTriage
