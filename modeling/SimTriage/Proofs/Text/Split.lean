import SimTriage.Text

/-!
Splitting a text at a separator, and joining the pieces again.
-/

set_option autoImplicit false

namespace SimTriage.Text

theorem splitOn_cons_self (separator : Char) (text : Text) :
    splitOn separator (separator :: text) = [] :: splitOn separator text := by
  simp only [splitOn, ↓reduceIte]

theorem splitOn_cons_of_ne {separator c : Char} (other : c ≠ separator) (text : Text) :
    splitOn separator (c :: text) =
      (c :: (splitOn separator text).headD []) :: (splitOn separator text).tail := by
  simp only [splitOn, other, ↓reduceIte]
  cases pieces : splitOn separator text with
  | nil => exact absurd pieces (splitOn_ne_nil separator text)
  | cons piece pieces => rfl

theorem splitOn_append (separator : Char) (front back : Text) :
    splitOn separator (front ++ separator :: back) =
      splitOn separator front ++ splitOn separator back := by
  induction front with
  | nil => exact splitOn_cons_self separator back
  | cons c front ih =>
      by_cases same : c = separator
      · subst same
        rw [List.cons_append, splitOn_cons_self, splitOn_cons_self, ih, List.cons_append]
      · rw [List.cons_append, splitOn_cons_of_ne same, splitOn_cons_of_ne same, ih]
        cases pieces : splitOn separator front with
        | nil => exact absurd pieces (splitOn_ne_nil separator front)
        | cons piece pieces => rfl

theorem splitOn_of_not_mem {separator : Char} {text : Text} (absent : separator ∉ text) :
    splitOn separator text = [text] := by
  induction text with
  | nil => rfl
  | cons c text ih =>
      rw [List.mem_cons, not_or] at absent
      rw [splitOn_cons_of_ne (Ne.symm absent.1), ih absent.2]
      rfl

theorem not_mem_of_mem_splitOn {separator : Char} {text piece : Text}
    (member : piece ∈ splitOn separator text) : separator ∉ piece := by
  induction text generalizing piece with
  | nil =>
      rw [splitOn, List.mem_singleton] at member
      simp [member]
  | cons c text ih =>
      by_cases same : c = separator
      · subst same
        rw [splitOn_cons_self, List.mem_cons] at member
        rcases member with rfl | member
        · simp
        · exact ih member
      · rw [splitOn_cons_of_ne same, List.mem_cons] at member
        cases pieces : splitOn separator text with
        | nil => exact absurd pieces (splitOn_ne_nil separator text)
        | cons first rest =>
            rw [pieces] at member ih
            rcases member with rfl | member
            · rw [List.mem_cons, not_or]
              exact ⟨Ne.symm same, ih (List.mem_cons_self)⟩
            · exact ih (List.mem_cons_of_mem _ member)

theorem join_cons_cons (separator piece next : Text) (pieces : List Text) :
    join separator (piece :: next :: pieces) =
      piece ++ (separator ++ join separator (next :: pieces)) := by
  rw [join, List.append_assoc]
  simp

theorem join_concat {separator : Text} {pieces : List Text} (filled : pieces ≠ []) (last : Text) :
    join separator (pieces ++ [last]) = join separator pieces ++ (separator ++ last) := by
  induction pieces with
  | nil => exact absurd rfl filled
  | cons piece pieces ih =>
      cases pieces with
      | nil => exact join_cons_cons separator piece last []
      | cons next pieces =>
          have later := ih (List.cons_ne_nil next pieces)
          rw [List.cons_append] at later
          rw [List.cons_append, List.cons_append, join_cons_cons, later, join_cons_cons,
            List.append_assoc, List.append_assoc]

/-- What follows the last piece follows the joined text. -/
theorem join_concat_append (separator : Text) (pieces : List Text) (last rest : Text) :
    join separator (pieces ++ [last ++ rest]) = join separator (pieces ++ [last]) ++ rest := by
  cases pieces with
  | nil => rfl
  | cons piece pieces =>
      rw [join_concat (List.cons_ne_nil piece pieces), join_concat (List.cons_ne_nil piece pieces)]
      simp only [List.append_assoc]

theorem splitOn_join {separator : Char} {pieces : List Text} (filled : pieces ≠ [])
    (absent : ∀ piece ∈ pieces, separator ∉ piece) :
    splitOn separator (join [separator] pieces) = pieces := by
  induction pieces with
  | nil => exact absurd rfl filled
  | cons piece pieces ih =>
      have first := splitOn_of_not_mem (absent piece List.mem_cons_self)
      cases pieces with
      | nil => exact first
      | cons next pieces =>
          have later := ih (by simp) fun p member => absent p (List.mem_cons_of_mem _ member)
          rw [join_cons_cons, List.singleton_append, splitOn_append, first, later]
          rfl

theorem mem_join {separator : Text} {pieces : List Text} {c : Char}
    (member : c ∈ join separator pieces) : c ∈ separator ∨ ∃ piece ∈ pieces, c ∈ piece := by
  induction pieces with
  | nil => cases member
  | cons piece pieces ih =>
      cases pieces with
      | nil => exact Or.inr ⟨piece, List.mem_cons_self, member⟩
      | cons next pieces =>
          rw [join_cons_cons, List.mem_append, List.mem_append] at member
          rcases member with inPiece | inSeparator | later
          · exact Or.inr ⟨piece, List.mem_cons_self, inPiece⟩
          · exact Or.inl inSeparator
          · rcases ih later with inSeparator | ⟨p, isPiece, inPiece⟩
            · exact Or.inl inSeparator
            · exact Or.inr ⟨p, List.mem_cons_of_mem _ isPiece, inPiece⟩

/-- Joining keeps all characters of the pieces. -/
theorem mem_join_of_mem (separator : Text) {pieces : List Text} {piece : Text} {c : Char}
    (isPiece : piece ∈ pieces) (member : c ∈ piece) : c ∈ join separator pieces := by
  induction pieces with
  | nil => cases isPiece
  | cons first pieces ih =>
      cases pieces with
      | nil => rwa [List.mem_singleton.mp isPiece] at member
      | cons next pieces =>
          rw [join_cons_cons, List.mem_append, List.mem_append]
          rcases List.mem_cons.mp isPiece with rfl | later
          · exact Or.inl member
          · exact Or.inr (Or.inr (ih later))

theorem join_ne_nil {separator : Text} {pieces : List Text} (gap : separator ≠ [])
    (filled : pieces ≠ []) (nonempty : pieces ≠ [[]]) : join separator pieces ≠ [] := by
  cases pieces with
  | nil => exact absurd rfl filled
  | cons piece pieces =>
      cases pieces with
      | nil => simpa [join] using nonempty
      | cons next pieces => simp [join, gap]

/-- Fewer pieces give a beginning of the joined text. -/
theorem join_append_prefix (separator : Text) (front back : List Text) :
    join separator front <+: join separator (front ++ back) := by
  induction front with
  | nil => exact List.nil_prefix
  | cons piece front ih =>
      cases front with
      | nil =>
          cases back with
          | nil => exact List.prefix_rfl
          | cons next back =>
              rw [List.singleton_append, join_cons_cons]
              exact List.prefix_append _ _
      | cons next front =>
          rw [List.cons_append, List.cons_append, join_cons_cons, join_cons_cons,
            List.prefix_append_right_inj, List.prefix_append_right_inj]
          exact ih

/-- The first piece reaches to the first separator. -/
theorem headD_splitOn (separator : Char) (text : Text) :
    (splitOn separator text).headD [] = text.takeWhile (· ≠ separator) := by
  induction text with
  | nil => rfl
  | cons c text ih =>
      by_cases same : c = separator
      · subst same
        simp [splitOn_cons_self]
      · rw [splitOn_cons_of_ne same, List.headD_cons, ih]
        simp [same]

end SimTriage.Text
