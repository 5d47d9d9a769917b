import SimTriage.Proofs.Json.Number
import SimTriage.Proofs.Json.StringForm

/-!
The written form of JSON values. It is ASCII, and it loses nothing: reading it gives the value back,
so no two values are written alike.

The fuel of the reader is bounded by the length of the written form, of which every step takes at
least one character.
-/

set_option autoImplicit false

namespace SimTriage.Json

/-- Values by what they are made of, with lists of values treated as wholes. -/
@[elab_as_elim]
theorem inductionOn {motive : Json → Prop} (value : Json) (null : motive .null)
    (bool : ∀ value, motive (.bool value)) (integer : ∀ value, motive (.integer value))
    (decimal : ∀ mantissa exponent, motive (.decimal mantissa exponent))
    (string : ∀ text, motive (.string text))
    (array : ∀ items, (∀ item ∈ items, motive item) → motive (.array items))
    (object : ∀ members, (∀ member ∈ members, motive member.2) → motive (.object members)) :
    motive value := by
  refine Json.rec (motive_2 := fun items => ∀ item ∈ items, motive item)
    (motive_3 := fun members => ∀ member ∈ members, motive member.2)
    (motive_4 := fun member => motive member.2)
    null bool integer decimal string array object ?_ ?_ ?_ ?_ ?_ value
  · exact List.forall_mem_nil _
  · exact fun item items first others => List.forall_mem_cons.mpr ⟨first, others⟩
  · exact List.forall_mem_nil _
  · exact fun member members first others => List.forall_mem_cons.mpr ⟨first, others⟩
  · exact fun _ _ holds => holds

variable {fuel : Nat} {text start behind more rest : Text}

section Space

theorem skipSpace_cons {c : Char} (solid : isSpace c = false) (rest : Text) :
    skipSpace (c :: rest) = c :: rest := by
  rw [skipSpace, List.dropWhile_cons_of_neg (by rw [solid]; exact Bool.false_ne_true)]

theorem skipSpace_newline (depth : Nat) (rest : Text) :
    skipSpace (newline depth ++ rest) = skipSpace rest := by
  refine List.dropWhile_append_of_pos fun c member => ?_
  rcases List.mem_cons.mp member with rfl | member
  · rfl
  · rw [(List.mem_replicate.mp member).2]
    rfl

theorem endsNumber_comma (rest : Text) : EndsNumber (',' :: rest) := by
  rintro c first
  cases first
  decide

theorem endsNumber_newline (depth : Nat) (rest : Text) : EndsNumber (newline depth ++ rest) := by
  rintro c first
  cases first
  decide

end Space

section Steps

theorem encodeString_append (text rest : Text) :
    encodeString text ++ rest = '"' :: (text.flatMap encodeChar ++ '"' :: rest) := by
  simp only [encodeString, List.cons_append, List.append_assoc, List.nil_append]

theorem value?_string (enough : text.length < fuel) (rest : Text) :
    value? fuel (encodeString text ++ rest) = some (.string text, rest) := by
  obtain ⟨fuel, rfl⟩ := Nat.exists_eq_succ_of_ne_zero (Nat.ne_zero_of_lt enough)
  rw [encodeString_append, value?, string?_encoded enough]
  rfl

theorem value?_digit {c : Char} (digit : Text.isDigit c = true) (fuel : Nat) (rest : Text) :
    value? (fuel + 1) (c :: rest) = magnitude? false (c :: rest) := by
  unfold value?
  -- every other value begins with a character that is no digit
  split
  all_goals first | rfl | skip
  all_goals
    rename_i same
    cases same
    cases digit

theorem value?_ofNat (n : Nat) (fuel : Nat) (rest : Text) :
    value? (fuel + 1) (Text.ofNat n ++ rest) = magnitude? false (Text.ofNat n ++ rest) := by
  obtain ⟨c, digits, front, digit⟩ := Text.exists_ofNat_cons n
  rw [front]
  exact value?_digit digit fuel (digits ++ rest)

theorem value?_integer (value : Int) (fuel : Nat) (ends : EndsNumber rest) :
    value? (fuel + 1) (Text.ofInt value ++ rest) = some (.integer value, rest) := by
  cases value with
  | ofNat n => exact (value?_ofNat n fuel rest).trans (magnitude?_ofNat false n ends)
  | negSucc n => exact magnitude?_ofNat true (n + 1) ends

theorem value?_decimal (mantissa exponent : Int) (fuel : Nat)
    (stop : ∀ c ∈ rest.head?, Text.isDigit c = false) :
    value? (fuel + 1) (Text.ofInt mantissa ++ 'e' :: (Text.ofInt exponent ++ rest)) =
      some (.decimal mantissa exponent, rest) := by
  cases mantissa with
  | ofNat n => exact (value?_ofNat n fuel _).trans (magnitude?_exponent false n exponent stop)
  | negSucc n => exact magnitude?_exponent true (n + 1) exponent stop

theorem value?_items {items : List Json} (begins : skipSpace text = start)
    (filled : start.head? ≠ some ']') (read : items? fuel start = some (items, rest)) :
    value? (fuel + 1) ('[' :: text) = some (.array items, rest) := by
  rw [value?, begins]
  split
  · exact absurd rfl filled
  · rw [read]
    rfl

theorem value?_members {members : List (Text × Json)} (begins : skipSpace text = start)
    (filled : start.head? ≠ some '\x7d') (read : members? fuel start = some (members, rest)) :
    value? (fuel + 1) ('\x7b' :: text) = some (.object members, rest) := by
  rw [value?, begins]
  split
  · exact absurd rfl filled
  · rw [read]
    rfl

theorem items?_last {item : Json} (begins : skipSpace text = start)
    (read : value? fuel start = some (item, behind)) (closed : skipSpace behind = ']' :: rest) :
    items? (fuel + 1) text = some ([item], rest) := by
  simp only [items?, begins, read, closed, Option.bind_eq_bind, Option.bind_some, Option.pure_def]

theorem items?_next {item : Json} {items : List Json} (begins : skipSpace text = start)
    (read : value? fuel start = some (item, behind))
    (parted : skipSpace behind = ',' :: more) (others : items? fuel more = some (items, rest)) :
    items? (fuel + 1) text = some (item :: items, rest) := by
  simp only [items?, begins, read, parted, others, Option.bind_eq_bind, Option.bind_some,
    Option.pure_def]

theorem members?_last {name : Text} {value : Json} (enough : name.length ≤ fuel)
    (begins : skipSpace text = encodeString name ++ ':' :: more)
    (spaced : skipSpace more = start) (read : value? fuel start = some (value, behind))
    (closed : skipSpace behind = '\x7d' :: rest) :
    members? (fuel + 1) text = some ([(name, value)], rest) := by
  have quoted := string?_encoded (Nat.lt_succ_of_le enough) (':' :: more)
  have colon := skipSpace_cons (c := ':') rfl more
  rw [encodeString_append] at begins
  simp only [members?, begins, quoted, colon, spaced, read, closed, Option.bind_eq_bind,
    Option.bind_some, Option.pure_def]

theorem members?_next {name : Text} {value : Json} {members : List (Text × Json)} {others : Text}
    (enough : name.length ≤ fuel)
    (begins : skipSpace text = encodeString name ++ ':' :: more)
    (spaced : skipSpace more = start) (read : value? fuel start = some (value, behind))
    (parted : skipSpace behind = ',' :: others)
    (readOthers : members? fuel others = some (members, rest)) :
    members? (fuel + 1) text = some ((name, value) :: members, rest) := by
  have quoted := string?_encoded (Nat.lt_succ_of_le enough) (':' :: more)
  have colon := skipSpace_cons (c := ':') rfl more
  rw [encodeString_append] at begins
  simp only [members?, begins, quoted, colon, spaced, read, parted, readOthers, Option.bind_eq_bind,
    Option.bind_some, Option.pure_def]

end Steps

section Written

theorem length_lt_encodeString (text : Text) : text.length < (encodeString text).length := by
  have filled : ∀ c : Char, 1 ≤ (encodeChar c).length := by
    intro c
    unfold encodeChar unitEscape
    split
    case h_8 =>
      dsimp only
      split
      · exact Nat.le_refl 1
      split <;> exact Nat.le_add_left 1 _
    all_goals decide
  have body : text.length ≤ (text.flatMap encodeChar).length := by
    induction text with
    | nil => exact Nat.le_refl 0
    | cons c text ih =>
        rw [List.flatMap_cons, List.length_append, List.length_cons]
        have more := filled c
        omega
  rw [encodeString, List.length_append, List.length_cons]
  exact Nat.lt_succ_of_le (Nat.le_succ_of_le body)

theorem writeAt_array (depth : Nat) (item : Json) (items : List Json) (rest : Text) :
    writeAt depth (.array (item :: items)) ++ rest =
      '[' :: (newline (depth + 1) ++ (writeAt (depth + 1) item ++
        (writeItems (depth + 1) items ++ (newline depth ++ ']' :: rest)))) := by
  simp only [writeAt, List.cons_append, List.append_assoc, List.nil_append]

theorem writeItems_cons (depth : Nat) (item : Json) (items : List Json) (rest : Text) :
    writeItems depth (item :: items) ++ rest =
      ',' :: (newline depth ++ (writeAt depth item ++ (writeItems depth items ++ rest))) := by
  simp only [writeItems, List.cons_append, List.append_assoc]

theorem writeAt_object (depth : Nat) (name : Text) (value : Json) (members : List (Text × Json))
    (rest : Text) :
    writeAt depth (.object ((name, value) :: members)) ++ rest =
      '\x7b' :: (newline (depth + 1) ++ (encodeString name ++ ':' :: ' ' ::
        (writeAt (depth + 1) value ++
          (writeMembers (depth + 1) members ++ (newline depth ++ '\x7d' :: rest))))) := by
  simp only [writeAt, List.cons_append, List.append_assoc, List.nil_append]
  rfl

theorem writeMembers_cons (depth : Nat) (name : Text) (value : Json)
    (members : List (Text × Json)) (rest : Text) :
    writeMembers depth ((name, value) :: members) ++ rest =
      ',' :: (newline depth ++ (encodeString name ++ ':' :: ' ' ::
        (writeAt depth value ++ (writeMembers depth members ++ rest)))) := by
  simp only [writeMembers, List.cons_append, List.append_assoc]
  rfl

/-- No written value begins with white space or closes a list. -/
theorem exists_writeAt_cons (depth : Nat) (value : Json) :
    ∃ c rest, writeAt depth value = c :: rest ∧ isSpace c = false ∧ c ≠ ']' := by
  have digits : ∀ (n : Nat) (more : Text),
      ∃ c rest, Text.ofNat n ++ more = c :: rest ∧ isSpace c = false ∧ c ≠ ']' := by
    intro n more
    obtain ⟨c, digits, front, digit⟩ := Text.exists_ofNat_cons n
    refine ⟨c, digits ++ more, by rw [front, List.cons_append], ?_, ?_⟩
    · simp only [isSpace, Bool.or_eq_false_iff, decide_eq_false_iff_not]
      refine ⟨⟨⟨?_, ?_⟩, ?_⟩, ?_⟩ <;> rintro rfl <;> cases digit
    · rintro rfl
      cases digit
  cases value with
  | null => exact ⟨_, _, rfl, rfl, by decide⟩
  | bool value => cases value <;> exact ⟨_, _, rfl, rfl, by decide⟩
  | integer value =>
      cases value with
      | ofNat n => simpa only [writeAt, Text.ofInt, List.append_nil] using digits n []
      | negSucc n => exact ⟨_, _, rfl, rfl, by decide⟩
  | decimal mantissa exponent =>
      cases mantissa with
      | ofNat n => exact digits n _
      | negSucc n => exact ⟨_, _, rfl, rfl, by decide⟩
  | string text => exact ⟨_, _, rfl, rfl, by decide⟩
  | array items => cases items <;> exact ⟨_, _, rfl, rfl, by decide⟩
  | object members => cases members <;> exact ⟨_, _, rfl, rfl, by decide⟩

theorem skipSpace_writeAt (depth : Nat) (value : Json) (rest : Text) :
    skipSpace (writeAt depth value ++ rest) = writeAt depth value ++ rest := by
  obtain ⟨c, more, front, solid, -⟩ := exists_writeAt_cons depth value
  rw [front]
  exact skipSpace_cons solid (more ++ rest)

/-- The value of a member stands behind a blank. -/
theorem skipSpace_value (depth : Nat) (value : Json) (rest : Text) :
    skipSpace (' ' :: (writeAt depth value ++ rest)) = writeAt depth value ++ rest :=
  skipSpace_writeAt depth value rest

theorem skipSpace_encodeString (text rest : Text) :
    skipSpace (encodeString text ++ rest) = encodeString text ++ rest := by
  rw [encodeString_append]
  exact skipSpace_cons rfl _

/-- The value is read from its written form, wherever that stands. -/
def IsReadBack (value : Json) : Prop :=
  ∀ (depth fuel : Nat) (rest : Text), (writeAt depth value).length ≤ fuel → EndsNumber rest →
    value? fuel (writeAt depth value ++ rest) = some (value, rest)

/-- No written value is empty, so its reader has fuel. -/
theorem isReadBack_of_succ {value : Json}
    (read : ∀ (depth fuel : Nat) (rest : Text), (writeAt depth value).length ≤ fuel + 1 →
      EndsNumber rest → value? (fuel + 1) (writeAt depth value ++ rest) = some (value, rest)) :
    value.IsReadBack := by
  intro depth fuel rest enough ends
  cases fuel with
  | zero =>
      obtain ⟨c, more, front, -⟩ := exists_writeAt_cons depth value
      rw [front] at enough
      exact absurd enough (Nat.not_succ_le_zero _)
  | succ fuel => exact read depth fuel rest enough ends

/-- The fuel of one step is paid for by the comma in front of the next item. -/
theorem items?_written {item : Json} {items : List Json} (first : item.IsReadBack)
    (others : ∀ item ∈ items, item.IsReadBack) (depth close : Nat)
    (enough : (writeAt depth item).length + (writeItems depth items).length < fuel)
    (begins : skipSpace text =
      writeAt depth item ++ (writeItems depth items ++ (newline close ++ ']' :: rest))) :
    items? fuel text = some (item :: items, rest) := by
  induction items generalizing item fuel text with
  | nil =>
      obtain ⟨fuel, rfl⟩ := Nat.exists_eq_succ_of_ne_zero (Nat.ne_zero_of_lt enough)
      refine items?_last begins (first depth fuel _ (by omega) (endsNumber_newline close _)) ?_
      exact (skipSpace_newline close _).trans (skipSpace_cons rfl rest)
  | cons next items ih =>
      obtain ⟨fuel, rfl⟩ := Nat.exists_eq_succ_of_ne_zero (Nat.ne_zero_of_lt enough)
      obtain ⟨second, others⟩ := List.forall_mem_cons.mp others
      have length := congrArg List.length (writeItems_cons depth next items [])
      simp only [List.length_append, List.length_cons, List.length_nil] at length
      rw [writeItems_cons] at begins
      refine items?_next begins (first depth fuel _ (by omega) (endsNumber_comma _))
        (skipSpace_cons rfl _) ?_
      exact ih second others (by omega) ((skipSpace_newline _ _).trans (skipSpace_writeAt _ _ _))

theorem members?_written {name : Text} {value : Json} {members : List (Text × Json)}
    (first : value.IsReadBack) (others : ∀ member ∈ members, member.2.IsReadBack)
    (depth close : Nat)
    (enough : (encodeString name).length + (writeAt depth value).length +
      (writeMembers depth members).length < fuel)
    (begins : skipSpace text = encodeString name ++ ':' :: ' ' :: (writeAt depth value ++
      (writeMembers depth members ++ (newline close ++ '\x7d' :: rest)))) :
    members? fuel text = some ((name, value) :: members, rest) := by
  induction members generalizing name value fuel text with
  | nil =>
      obtain ⟨fuel, rfl⟩ := Nat.exists_eq_succ_of_ne_zero (Nat.ne_zero_of_lt enough)
      have short := length_lt_encodeString name
      refine members?_last (by omega) begins (skipSpace_value depth value _)
        (first depth fuel _ (by omega) (endsNumber_newline close _)) ?_
      exact (skipSpace_newline close _).trans (skipSpace_cons rfl rest)
  | cons next members ih =>
      obtain ⟨fuel, rfl⟩ := Nat.exists_eq_succ_of_ne_zero (Nat.ne_zero_of_lt enough)
      have short := length_lt_encodeString name
      obtain ⟨nextName, nextValue⟩ := next
      obtain ⟨second, others⟩ := List.forall_mem_cons.mp others
      have length := congrArg List.length
        (writeMembers_cons depth nextName nextValue members [])
      simp only [List.length_append, List.length_cons, List.length_nil] at length
      rw [writeMembers_cons] at begins
      refine members?_next (by omega) begins (skipSpace_value depth value _)
        (first depth fuel _ (by omega) (endsNumber_comma _)) (skipSpace_cons rfl _) ?_
      exact ih second others (by omega)
        ((skipSpace_newline _ _).trans (skipSpace_encodeString _ _))

theorem isReadBack_array {item : Json} {items : List Json} (first : item.IsReadBack)
    (others : ∀ item ∈ items, item.IsReadBack) : IsReadBack (.array (item :: items)) := by
  refine isReadBack_of_succ fun depth fuel rest enough _ => ?_
  obtain ⟨c, more, front, -, other⟩ := exists_writeAt_cons (depth + 1) item
  have length := congrArg List.length (writeAt_array depth item items [])
  simp only [List.length_append, List.length_cons, List.length_nil] at length
  rw [writeAt_array]
  refine value?_items ((skipSpace_newline _ _).trans (skipSpace_writeAt _ _ _)) ?_ ?_
  · rw [front]
    exact fun same => other (Option.some.inj same)
  · exact items?_written first others (depth + 1) depth (by omega) (skipSpace_writeAt _ _ _)

theorem isReadBack_object {name : Text} {value : Json} {members : List (Text × Json)}
    (first : value.IsReadBack) (others : ∀ member ∈ members, member.2.IsReadBack) :
    IsReadBack (.object ((name, value) :: members)) := by
  refine isReadBack_of_succ fun depth fuel rest enough _ => ?_
  have length := congrArg List.length (writeAt_object depth name value members [])
  simp only [List.length_append, List.length_cons, List.length_nil] at length
  rw [writeAt_object]
  refine value?_members ((skipSpace_newline _ _).trans (skipSpace_encodeString _ _)) ?_ ?_
  · rw [encodeString_append]
    exact fun same => by cases same
  · exact members?_written first others (depth + 1) depth (by omega) (skipSpace_encodeString _ _)

/-- Every value is read from its written form. -/
theorem isReadBack (value : Json) : value.IsReadBack := by
  induction value using inductionOn with
  | null => exact isReadBack_of_succ fun _ _ _ _ _ => rfl
  | bool value => cases value <;> exact isReadBack_of_succ fun _ _ _ _ _ => rfl
  | integer value => exact isReadBack_of_succ fun _ fuel _ _ ends => value?_integer value fuel ends
  | decimal mantissa exponent =>
      refine isReadBack_of_succ fun _ fuel _ _ ends => ?_
      rw [writeAt, List.append_assoc, List.cons_append]
      exact value?_decimal mantissa exponent fuel fun c first => (ends c first).1
  | string text =>
      refine isReadBack_of_succ fun _ fuel rest enough _ => ?_
      exact value?_string (Nat.lt_of_lt_of_le (length_lt_encodeString text) enough) rest
  | array items ih =>
      cases items with
      | nil => exact isReadBack_of_succ fun _ _ _ _ _ => rfl
      | cons item items =>
          obtain ⟨first, others⟩ := List.forall_mem_cons.mp ih
          exact isReadBack_array first others
  | object members ih =>
      cases members with
      | nil => exact isReadBack_of_succ fun _ _ _ _ _ => rfl
      | cons member members =>
          obtain ⟨first, others⟩ := List.forall_mem_cons.mp ih
          exact isReadBack_object first others

/-- A text that ends in a written value and a line feed holds that value. -/
theorem read?_write (value : Json) : read? (value.write ++ ['\n']) = some value := by
  have front : skipSpace (value.write ++ ['\n']) = value.write ++ ['\n'] :=
    skipSpace_writeAt 0 value _
  have read := isReadBack value 0 (2 * (value.write ++ ['\n']).length + 1) ['\n']
    (by rw [List.length_append, write]; omega) (endsNumber_newline 0 [])
  change value? _ (value.write ++ ['\n']) = _ at read
  rw [read?, front, read]
  rfl

end Written

section Ascii

theorem isAscii_ofNat (n : Nat) : Text.IsAscii (Text.ofNat n) := by
  intro c member
  have digit := (Text.ofNat_run n).2 c member
  have bounds := Text.bounds_of_isDigit digit
  omega

theorem isAscii_ofInt (value : Int) : Text.IsAscii (Text.ofInt value) := by
  cases value <;> simp [Text.ofInt, isAscii_ofNat]

theorem isAscii_newline (depth : Nat) : Text.IsAscii (newline depth) := by
  refine Text.isAscii_cons.mpr ⟨by decide, fun c member => ?_⟩
  rw [(List.mem_replicate.mp member).2]
  decide

theorem isAscii_writeItems {items : List Json}
    (each : ∀ item ∈ items, ∀ depth, Text.IsAscii (writeAt depth item)) (depth : Nat) :
    Text.IsAscii (writeItems depth items) := by
  induction items with
  | nil => exact Text.isAscii_nil
  | cons item items ih =>
      obtain ⟨first, others⟩ := List.forall_mem_cons.mp each
      simp [writeItems, isAscii_newline, first depth, ih others]

theorem isAscii_writeMembers {members : List (Text × Json)}
    (each : ∀ member ∈ members, ∀ depth, Text.IsAscii (writeAt depth member.2)) (depth : Nat) :
    Text.IsAscii (writeMembers depth members) := by
  induction members with
  | nil => exact Text.isAscii_nil
  | cons member members ih =>
      obtain ⟨first, others⟩ := List.forall_mem_cons.mp each
      simp [writeMembers, isAscii_newline, isAscii_encodeString, first depth, ih others]

theorem isAscii_writeAt (value : Json) (depth : Nat) : Text.IsAscii (writeAt depth value) := by
  induction value using inductionOn generalizing depth with
  | null => simp [writeAt]
  | bool value => cases value <;> simp [writeAt]
  | integer value => exact isAscii_ofInt value
  | decimal mantissa exponent => simp [writeAt, isAscii_ofInt]
  | string text => exact isAscii_encodeString text
  | array items ih =>
      cases items with
      | nil => simp [writeAt]
      | cons item items =>
          obtain ⟨first, others⟩ := List.forall_mem_cons.mp ih
          simp [writeAt, isAscii_newline, first, isAscii_writeItems others]
  | object members ih =>
      cases members with
      | nil => simp [writeAt]
      | cons member members =>
          obtain ⟨first, others⟩ := List.forall_mem_cons.mp ih
          simp [writeAt, isAscii_newline, isAscii_encodeString, first, isAscii_writeMembers others]

end Ascii

end SimTriage.Json
