import SimTriage.Event.Topics
import SimTriage.Proofs.Text.Split
import SimTriage.Proofs.Text.Strip

/-!
Cutting joined topics. The nesting behind a text is the number of brackets it opens less the number
it closes, so a comma is top-level exactly if the text before it opens as many as it closes.
-/

set_option autoImplicit false

namespace SimTriage.Event

/-- The text opens as many brackets as it closes. -/
def IsBalanced (text : Text) : Prop := text.count '[' = text.count ']'

instance (text : Text) : Decidable (IsBalanced text) := inferInstanceAs (Decidable (_ = _))

/-- No comma of the text is top-level. -/
def IsAtomic (text : Text) : Prop :=
  ∀ front back : Text, text = front ++ ',' :: back → ¬ IsBalanced front

theorem isAtomic_iff {text : Text} :
    IsAtomic text ↔ ∀ n ∈ List.range text.length,
      text[n]? = some ',' → ¬ IsBalanced (text.take n) := by
  constructor
  · intro atomic n inside comma
    refine atomic (text.take n) (text.drop (n + 1)) ?_
    obtain ⟨bound, same⟩ := List.getElem?_eq_some_iff.mp comma
    rw [← same, ← List.drop_eq_getElem_cons bound, List.take_append_drop]
  · intro checked front back split
    subst split
    have none := checked front.length (by simp) (by simp)
    simpa using none

instance (text : Text) : Decidable (IsAtomic text) := decidable_of_iff _ isAtomic_iff.symm

theorem foldl_nesting (depth : Int) (text : Text) :
    text.foldl nesting depth = depth + text.count '[' - text.count ']' := by
  induction text generalizing depth with
  | nil => simp
  | cons c text ih =>
      rw [List.foldl_cons, ih, List.count_cons, List.count_cons]
      by_cases opens : c = '['
      · subst opens
        simp [nesting]
        omega
      · by_cases closes : c = ']'
        · subst closes
          simp [nesting]
          omega
        · simp [nesting, opens, closes]

theorem foldl_nesting_eq_zero_iff (text : Text) : text.foldl nesting 0 = 0 ↔ IsBalanced text := by
  rw [foldl_nesting, IsBalanced]
  omega

theorem cutTopics_comma (rest : Text) :
    cutTopics 0 (',' :: rest) = [] :: cutTopics 0 rest := by
  simp [cutTopics]

theorem cutTopics_cons {depth : Int} {c : Char} (inner : ¬ (c = ',' ∧ depth = 0)) (rest : Text) :
    cutTopics depth (c :: rest) =
      (c :: (cutTopics (nesting depth c) rest).headD []) ::
        (cutTopics (nesting depth c) rest).tail := by
  have below : ¬ (c = ',' && depth = 0) = true := by simpa using inner
  rw [cutTopics]
  simp only [below]
  cases pieces : cutTopics (nesting depth c) rest with
  | nil => exact absurd pieces (cutTopics_ne_nil _ rest)
  | cons piece pieces => rfl

/-- A text without a top-level comma stays in one piece with what follows it. -/
theorem cutTopics_append {depth : Int} {front : Text} (back : Text)
    (inner : ∀ before after : Text, front = before ++ ',' :: after →
      before.foldl nesting depth ≠ 0) :
    cutTopics depth (front ++ back) =
      (front ++ (cutTopics (front.foldl nesting depth) back).headD []) ::
        (cutTopics (front.foldl nesting depth) back).tail := by
  induction front generalizing depth with
  | nil =>
      simp only [List.nil_append, List.foldl_nil]
      cases pieces : cutTopics depth back with
      | nil => exact absurd pieces (cutTopics_ne_nil _ back)
      | cons piece pieces => rfl
  | cons c front ih =>
      have first : ¬ (c = ',' ∧ depth = 0) := by
        intro topLevel
        obtain ⟨rfl, zero⟩ := topLevel
        exact inner [] front rfl zero
      have innerLater : ∀ before after : Text, front = before ++ ',' :: after →
          before.foldl nesting (nesting depth c) ≠ 0 := fun before after split =>
        inner (c :: before) after (by rw [split, List.cons_append])
      rw [List.cons_append, cutTopics_cons first, ih innerLater]
      rfl

/-- Joined at commas, segments without top-level commas are the pieces again, if only the last of
them may leave a bracket open. -/
theorem cutTopics_join {segments : List Text} (filled : segments ≠ [])
    (atomic : ∀ segment ∈ segments, IsAtomic segment)
    (balanced : ∀ segment ∈ segments.dropLast, IsBalanced segment) :
    cutTopics 0 (Text.join [','] segments) = segments := by
  induction segments with
  | nil => exact absurd rfl filled
  | cons segment segments ih =>
      have inner : ∀ before after : Text, segment = before ++ ',' :: after →
          before.foldl nesting 0 ≠ 0 := by
        intro before after split zero
        exact atomic segment List.mem_cons_self before after split
          ((foldl_nesting_eq_zero_iff before).mp zero)
      cases segments with
      | nil =>
          have whole := cutTopics_append [] inner
          rw [List.append_nil] at whole
          rw [Text.join, whole]
          simp [cutTopics]
      | cons next segments =>
          have later := ih (by simp) (fun s member => atomic s (List.mem_cons_of_mem _ member))
            fun s member => balanced s (by
              rw [List.dropLast_cons_of_ne_nil (by simp)]
              exact List.mem_cons_of_mem _ member)
          have depth : segment.foldl nesting 0 = 0 := by
            rw [foldl_nesting_eq_zero_iff]
            exact balanced segment (by simp)
          rw [Text.join_cons_cons, List.singleton_append, cutTopics_append _ inner, depth,
            cutTopics_comma, later, List.headD_cons, List.append_nil, List.tail_cons]

/-- A character that is neither a bracket nor a comma can stand in front of a topic. -/
theorem isBalanced_cons {c : Char} (opens : c ≠ '[') (closes : c ≠ ']') {text : Text} :
    IsBalanced (c :: text) ↔ IsBalanced text := by
  rw [IsBalanced, IsBalanced, List.count_cons_of_ne opens, List.count_cons_of_ne closes]

theorem IsAtomic.space {topic : Text} (atomic : IsAtomic topic) : IsAtomic (' ' :: topic) := by
  intro front back split
  cases front with
  | nil => simp at split
  | cons c front =>
      obtain ⟨rfl, rest⟩ := List.cons.inj split
      rw [isBalanced_cons (by decide) (by decide)]
      exact atomic front back rest

/-- Topics as they stand between the commas of their joined form: the first as it is, the others
behind a space. -/
def spaced : List Text → List Text
  | [] => []
  | topic :: topics => topic :: topics.map (' ' :: ·)

theorem join_spaced (topics : List Text) :
    Text.join [','] (spaced topics) = Text.join ", " topics := by
  induction topics with
  | nil => rfl
  | cons topic topics ih =>
      cases topics with
      | nil => rfl
      | cons next topics =>
          rw [Text.join_cons_cons, ← ih, spaced, List.map_cons, Text.join_cons_cons, spaced]
          cases topics <;> simp [Text.join]

/-- The joined form of topics is cut where they were joined. -/
theorem cutTopics_join_spaced {topics : List Text} (filled : topics ≠ [])
    (atomic : ∀ topic ∈ topics, IsAtomic topic)
    (balanced : ∀ topic ∈ topics.dropLast, IsBalanced topic) :
    cutTopics 0 (Text.join ", " topics) = spaced topics := by
  obtain ⟨topic, topics, rfl⟩ := List.exists_cons_of_ne_nil filled
  obtain ⟨first, others⟩ := List.forall_mem_cons.mp atomic
  rw [← join_spaced]
  refine cutTopics_join (by simp [spaced]) ?_ ?_
  · refine List.forall_mem_cons.mpr ⟨first, List.forall_mem_map.mpr fun other member => ?_⟩
    exact (others other member).space
  · cases topics with
    | nil => simp [spaced]
    | cons next topics =>
        rw [List.dropLast_cons_of_ne_nil (by simp)] at balanced
        obtain ⟨firstBalanced, othersBalanced⟩ := List.forall_mem_cons.mp balanced
        rw [spaced, List.dropLast_cons_of_ne_nil (by simp), ← List.map_dropLast]
        refine List.forall_mem_cons.mpr
          ⟨firstBalanced, List.forall_mem_map.mpr fun other member => ?_⟩
        rw [isBalanced_cons (by decide) (by decide)]
        exact othersBalanced other member

theorem getLast?_spaced_ne {topics : List Text} (nonempty : topics ≠ [[]]) :
    (spaced topics).getLast? ≠ some [] := by
  cases topics with
  | nil => simp [spaced]
  | cons topic topics =>
      cases topics with
      | nil => simpa [spaced] using nonempty
      | cons next topics =>
          intro last
          have member : [] ∈ (next :: topics).map (' ' :: ·) := by
            apply List.mem_of_getLast?
            rw [spaced, List.map_cons, List.getLast?_cons_cons] at last
            exact last
          simp at member

/-- Splitting undoes joining. -/
theorem splitTopics_join {topics : List Text} (filled : topics ≠ []) (nonempty : topics ≠ [[]])
    (stripped : ∀ topic ∈ topics, Text.strip topic = topic)
    (atomic : ∀ topic ∈ topics, IsAtomic topic)
    (balanced : ∀ topic ∈ topics.dropLast, IsBalanced topic) :
    splitTopics (Text.join ", " topics) = topics := by
  have space : ∀ topic ∈ topics, Text.strip (' ' :: topic) = topic := by
    intro topic member
    rw [Text.strip_cons_of_isBlank (by decide), stripped topic member]
  simp only [splitTopics, cutTopics_join_spaced filled atomic balanced, getLast?_spaced_ne nonempty,
    ↓reduceIte]
  cases topics with
  | nil => rfl
  | cons topic topics =>
      rw [spaced, List.map_cons, List.map_map, stripped topic List.mem_cons_self]
      congr 1
      calc
        topics.map (Text.strip ∘ (' ' :: ·)) = topics.map id :=
          List.map_congr_left fun t member => space t (List.mem_cons_of_mem _ member)
        _ = topics := List.map_id topics

end SimTriage.Event
