import Mathlib.Data.List.Infix
import SimTriage.Proofs.Event.Topics

/-!
The segments of a body of topics between its top-level commas. There is one way to cut a body at
these commas and at no others, and its topics are the stripped segments.
-/

set_option autoImplicit false

namespace SimTriage.Event

/-- A top-level comma of the body stands behind `front`. -/
def IsTopLevel (body front : Text) : Prop :=
  (∃ back, body = front ++ ',' :: back) ∧ IsBalanced front

/-- A comma between two of the segments stands behind `front` once they are joined. -/
def IsBetween (segments : List Text) (front : Text) : Prop :=
  ∃ before behind : List Text, before ≠ [] ∧ behind ≠ [] ∧ segments = before ++ behind ∧
    front = Text.join [','] before

/-- The segments are those of the body: joined at commas they give it back, and the commas between
them are its top-level ones. -/
structure IsCut (body : Text) (segments : List Text) : Prop where
  filled : segments ≠ []
  joined : Text.join [','] segments = body
  commas : ∀ front, IsTopLevel body front ↔ IsBetween segments front

section Between

variable {segments : List Text} {segment front : Text}

theorem not_isBetween_singleton : ¬ IsBetween [segment] front := by
  rintro ⟨before, behind, filled, left, split, -⟩
  rw [eq_comm, List.append_eq_singleton_iff] at split
  rcases split with ⟨empty, -⟩ | ⟨-, empty⟩
  · exact filled empty
  · exact left empty

theorem isBetween_cons (filled : segments ≠ []) :
    IsBetween (segment :: segments) front ↔
      front = segment ∨ ∃ later, IsBetween segments later ∧ front = segment ++ ',' :: later := by
  constructor
  · rintro ⟨before, behind, nonempty, left, split, rfl⟩
    obtain ⟨_, before, rfl⟩ := List.exists_cons_of_ne_nil nonempty
    obtain ⟨rfl, rfl⟩ := List.cons.inj split
    cases before with
    | nil => exact Or.inl rfl
    | cons next before =>
        refine Or.inr ⟨_, ⟨next :: before, behind, by simp, left, rfl, rfl⟩, ?_⟩
        rw [Text.join_cons_cons, List.singleton_append]
  · rintro (rfl | ⟨later, ⟨before, behind, nonempty, left, rfl, rfl⟩, rfl⟩)
    · exact ⟨[front], segments, by simp, filled, rfl, rfl⟩
    · obtain ⟨next, before, rfl⟩ := List.exists_cons_of_ne_nil nonempty
      refine ⟨segment :: next :: before, behind, by simp, left, rfl, ?_⟩
      rw [Text.join_cons_cons, List.singleton_append]

/-- One more character at the front of the first segment. -/
theorem isBetween_grow {c : Char} :
    IsBetween ((c :: segment) :: segments) front ↔
      ∃ rest, front = c :: rest ∧ IsBetween (segment :: segments) rest := by
  cases segments with
  | nil => simp [not_isBetween_singleton]
  | cons next segments =>
      simp only [isBetween_cons (List.cons_ne_nil next segments), List.cons_append]
      constructor
      · rintro (rfl | ⟨later, between, rfl⟩)
        · exact ⟨segment, rfl, Or.inl rfl⟩
        · exact ⟨_, rfl, Or.inr ⟨later, between, rfl⟩⟩
      · rintro ⟨rest, rfl, rfl | ⟨later, between, rfl⟩⟩
        · exact Or.inl rfl
        · exact Or.inr ⟨later, between, rfl⟩

/-- What the last segment is does not matter to the commas between them. -/
theorem isBetween_snoc (last : Text) :
    IsBetween (segments ++ [last]) front ↔
      ∃ before, before ≠ [] ∧ before <+: segments ∧ front = Text.join [','] before := by
  constructor
  · rintro ⟨before, behind, nonempty, left, split, rfl⟩
    obtain ⟨behind, final, rfl⟩ := List.eq_nil_or_concat behind |>.resolve_left left
    rw [List.concat_eq_append, ← List.append_assoc] at split
    exact ⟨before, nonempty, ⟨behind, (List.append_inj' split rfl).1.symm⟩, rfl⟩
  · rintro ⟨before, nonempty, ⟨behind, rfl⟩, rfl⟩
    exact ⟨before, behind ++ [last], nonempty, by simp, List.append_assoc _ _ _, rfl⟩

end Between

/-- The pieces of a body are cut apart at its commas of nesting zero. -/
theorem isBetween_cutTopics (depth : Int) (body front : Text) :
    IsBetween (cutTopics depth body) front ↔
      (∃ back, body = front ++ ',' :: back) ∧ front.foldl nesting depth = 0 := by
  induction body generalizing depth front with
  | nil => simp [cutTopics, not_isBetween_singleton]
  | cons c body ih =>
      by_cases topLevel : c = ',' ∧ depth = 0
      · obtain ⟨rfl, rfl⟩ := topLevel
        rw [cutTopics_comma, isBetween_cons (cutTopics_ne_nil 0 body)]
        cases front with
        | nil => simp
        | cons d front =>
            simp only [ih, reduceCtorEq, List.nil_append, List.cons.injEq, false_or,
              List.cons_append, List.foldl_cons]
            constructor
            · rintro ⟨_, ⟨⟨back, split⟩, zero⟩, rfl, rfl⟩
              exact ⟨⟨back, rfl, split⟩, zero⟩
            · rintro ⟨⟨back, rfl, split⟩, zero⟩
              exact ⟨front, ⟨⟨back, split⟩, zero⟩, rfl, rfl⟩
      · obtain ⟨piece, pieces, cut⟩ :=
          List.exists_cons_of_ne_nil (cutTopics_ne_nil (nesting depth c) body)
        have later := ih (nesting depth c)
        rw [cut] at later
        rw [cutTopics_cons topLevel, cut, List.headD_cons, List.tail_cons, isBetween_grow]
        simp only [later]
        constructor
        · rintro ⟨rest, rfl, ⟨back, rfl⟩, zero⟩
          exact ⟨⟨back, rfl⟩, zero⟩
        · rintro ⟨⟨back, split⟩, zero⟩
          cases front with
          | nil =>
              obtain ⟨rfl, -⟩ := List.cons.inj split
              exact absurd ⟨rfl, zero⟩ topLevel
          | cons d front =>
              obtain ⟨rfl, rfl⟩ := List.cons.inj split
              exact ⟨front, rfl, ⟨back, rfl⟩, zero⟩

theorem isCut_cutTopics (body : Text) : IsCut body (cutTopics 0 body) where
  filled := cutTopics_ne_nil 0 body
  joined := join_cutTopics 0 body
  commas front := by
    rw [isBetween_cutTopics, foldl_nesting_eq_zero_iff]
    rfl

theorem isBalanced_append {front : Text} (balanced : IsBalanced front) (back : Text) :
    IsBalanced (front ++ back) ↔ IsBalanced back := by
  rw [IsBalanced] at balanced
  rw [IsBalanced, IsBalanced, List.count_append, List.count_append]
  omega

namespace IsCut

variable {body segment : Text} {segments : List Text}

theorem balanced_head (cut : IsCut body (segment :: segments)) (filled : segments ≠ []) :
    IsBalanced segment :=
  ((cut.commas segment).mpr ((isBetween_cons filled).mpr (Or.inl rfl))).2

theorem body_eq (cut : IsCut body (segment :: segments)) (filled : segments ≠ []) :
    body = segment ++ ',' :: Text.join [','] segments := by
  obtain ⟨next, segments, rfl⟩ := List.exists_cons_of_ne_nil filled
  rw [← cut.joined, Text.join_cons_cons, List.singleton_append]

/-- What follows the first of the top-level commas is cut at the others. -/
theorem tail (cut : IsCut body (segment :: segments)) (filled : segments ≠ []) :
    IsCut (Text.join [','] segments) segments := by
  refine ⟨filled, rfl, fun front => ?_⟩
  have whole := cut.commas (segment ++ ',' :: front)
  have split := cut.body_eq filled
  subst split
  rw [IsTopLevel, isBalanced_append (cut.balanced_head filled),
    isBalanced_cons (by decide) (by decide), isBetween_cons filled] at whole
  simpa [IsTopLevel] using whole

theorem atomic_head (cut : IsCut body (segment :: segments)) : IsAtomic segment := by
  intro front back split balanced
  have longer : front.length < segment.length := by simp [split]
  have prefixed : ∃ back, body = front ++ ',' :: back := by
    cases segments with
    | nil => exact ⟨back, cut.joined.symm.trans split⟩
    | cons next segments =>
        rw [cut.body_eq (by simp), split]
        exact ⟨_, List.append_assoc _ _ _⟩
  have between := (cut.commas front).mp ⟨prefixed, balanced⟩
  cases segments with
  | nil => exact not_isBetween_singleton between
  | cons next segments =>
      rcases (isBetween_cons (by simp)).mp between with rfl | ⟨later, -, rfl⟩
      · exact Nat.lt_irrefl _ longer
      · rw [List.length_append] at longer
        exact Nat.not_lt.mpr (Nat.le_add_right _ _) longer

/-- No segment holds a top-level comma of its own, and only the last may leave a bracket open. -/
theorem isAtomic_isBalanced (cut : IsCut body segments) :
    (∀ segment ∈ segments, IsAtomic segment) ∧
      ∀ segment ∈ segments.dropLast, IsBalanced segment := by
  induction segments generalizing body with
  | nil => exact absurd rfl cut.filled
  | cons segment segments ih =>
      cases segments with
      | nil => exact ⟨List.forall_mem_singleton.mpr cut.atomic_head, by simp⟩
      | cons next segments =>
          obtain ⟨atomic, balanced⟩ := ih (cut.tail (by simp))
          rw [List.dropLast_cons_of_ne_nil (by simp)]
          exact ⟨List.forall_mem_cons.mpr ⟨cut.atomic_head, atomic⟩,
            List.forall_mem_cons.mpr ⟨cut.balanced_head (by simp), balanced⟩⟩

/-- There is one way to cut a body. -/
theorem eq_cutTopics (cut : IsCut body segments) : segments = cutTopics 0 body := by
  obtain ⟨atomic, balanced⟩ := cut.isAtomic_isBalanced
  rw [← cut.joined, cutTopics_join cut.filled atomic balanced]

theorem splitTopics_eq {last : Text} (cut : IsCut body (segments ++ [last])) :
    splitTopics body = (if last = [] then segments else segments ++ [last]).map Text.strip := by
  rw [splitTopics, ← cut.eq_cutTopics]
  simp only [List.getLast?_append_of_ne_nil _ (List.cons_ne_nil last []), List.getLast?_singleton,
    Option.some.injEq, List.dropLast_concat]

/-- What follows a text stays in its last segment, if no comma in it is top-level. -/
theorem append {last rest : Text} (cut : IsCut body (segments ++ [last]))
    (inner : ∀ front back, rest = front ++ ',' :: back → ¬ IsBalanced (body ++ front)) :
    IsCut (body ++ rest) (segments ++ [last ++ rest]) := by
  refine ⟨by simp, ?_, fun front => ?_⟩
  · rw [Text.join_concat_append, cut.joined]
  · rw [isBetween_snoc, ← isBetween_snoc last, ← cut.commas]
    refine and_congr_left fun balanced => ⟨?_, ?_⟩
    · rintro ⟨back, split⟩
      rcases List.append_eq_append_iff.mp split with ⟨more, rfl, later⟩ | ⟨more, rfl, later⟩
      · exact absurd balanced (inner more back later)
      · cases more with
        | nil =>
            rw [List.append_nil] at inner
            exact absurd balanced (by simpa using inner [] back later.symm)
        | cons c more =>
            obtain ⟨rfl, -⟩ := List.cons.inj later
            exact ⟨more, rfl⟩
    · rintro ⟨back, rfl⟩
      exact ⟨back ++ rest, List.append_assoc _ _ _⟩

/-- A body that leaves a bracket open, or closes one too many, does not end with its last comma. -/
theorem last_ne_nil {last : Text} (cut : IsCut body (segments ++ [last]))
    (unbalanced : ¬ IsBalanced body) : last ≠ [] := by
  rintro rfl
  cases segments with
  | nil => exact unbalanced (cut.joined ▸ rfl)
  | cons segment segments =>
      have between : IsBetween (segment :: segments ++ [[]])
          (Text.join [','] (segment :: segments)) :=
        (isBetween_snoc []).mpr ⟨_, by simp, List.prefix_rfl, rfl⟩
      have balanced := ((cut.commas _).mpr between).2
      rw [← cut.joined, Text.join_concat (List.cons_ne_nil segment segments),
        isBalanced_append balanced] at unbalanced
      exact unbalanced (by decide)

end IsCut

theorem cutTopics_append_comma {depth : Int} {front : Text}
    (closed : front.foldl nesting depth = 0) (back : Text) :
    cutTopics depth (front ++ ',' :: back) = cutTopics depth front ++ cutTopics 0 back := by
  induction front generalizing depth with
  | nil =>
      rw [List.foldl_nil] at closed
      subst closed
      exact cutTopics_comma back
  | cons c front ih =>
      rw [List.foldl_cons] at closed
      by_cases topLevel : c = ',' ∧ depth = 0
      · obtain ⟨rfl, rfl⟩ := topLevel
        have later : cutTopics 0 (front ++ ',' :: back) = cutTopics 0 front ++ cutTopics 0 back :=
          ih closed
        rw [List.cons_append, cutTopics_comma, cutTopics_comma, later, List.cons_append]
      · obtain ⟨piece, pieces, cut⟩ :=
          List.exists_cons_of_ne_nil (cutTopics_ne_nil (nesting depth c) front)
        rw [List.cons_append, cutTopics_cons topLevel, cutTopics_cons topLevel, ih closed, cut]
        rfl

theorem splitTopics_append {front : Text} (balanced : IsBalanced front) (back : Text) :
    splitTopics (front ++ ',' :: back) = splitTopics (front ++ [',']) ++ splitTopics back := by
  have closed : front.foldl nesting 0 = 0 := (foldl_nesting_eq_zero_iff front).mpr balanced
  have ends : cutTopics 0 (front ++ [',']) = cutTopics 0 front ++ [[]] :=
    cutTopics_append_comma closed []
  have filled := cutTopics_ne_nil 0 back
  simp only [splitTopics, ends, cutTopics_append_comma closed back, List.getLast?_concat, ↓reduceIte,
    List.dropLast_concat, List.getLast?_append_of_ne_nil _ filled,
    List.dropLast_append_of_ne_nil filled, ← List.map_append]
  split <;> rfl

/-- A body has one list of segments between its top-level commas, and its topics are these, stripped;
a last segment without any character is no topic. A comma behind a balanced text parts the topics
in front of it from those behind it, and what never leads back to balance stays one topic. -/
theorem splitTopics_outcome (body : Text) :
    (∃! segments, IsCut body segments) ∧
    (∀ segments last, IsCut body (segments ++ [last]) →
      Text.join [','] (segments ++ [last]) = body ∧
      splitTopics body = (if last = [] then segments else segments ++ [last]).map Text.strip) ∧
    (IsBalanced body → ∀ back,
      splitTopics (body ++ ',' :: back) = splitTopics (body ++ [',']) ++ splitTopics back) ∧
    (∀ rest, (∀ front, front <+: rest → ¬ IsBalanced (body ++ front)) →
      ∃ segments last, IsCut body (segments ++ [last]) ∧
        splitTopics (body ++ rest) = segments.map Text.strip ++ [Text.strip (last ++ rest)]) := by
  refine ⟨⟨_, isCut_cutTopics body, fun other cut => cut.eq_cutTopics⟩,
    fun segments last cut => ⟨cut.joined, cut.splitTopics_eq⟩, splitTopics_append, ?_⟩
  intro rest unreturned
  obtain ⟨segments, last, pieces⟩ := List.eq_nil_or_concat (cutTopics 0 body) |>.resolve_left
    (cutTopics_ne_nil 0 body)
  have cut : IsCut body (segments ++ [last]) := by
    rw [← List.concat_eq_append, ← pieces]
    exact isCut_cutTopics body
  have unbalanced : ¬ IsBalanced body := by
    simpa using unreturned [] List.nil_prefix
  have whole := cut.append fun front back split => unreturned front ⟨_, split.symm⟩
  refine ⟨segments, last, cut, ?_⟩
  have filled : last ++ rest ≠ [] := by simp [cut.last_ne_nil unbalanced]
  rw [whole.splitTopics_eq, if_neg filled, List.map_append, List.map_singleton]

/-- A bracket that is closed before it is opened shields the comma in between, and no more. -/
example : splitTopics "a,],b,[, c,, " = ["a", "],b,[", "c", "", ""] := by decide

end SimTriage.Event
