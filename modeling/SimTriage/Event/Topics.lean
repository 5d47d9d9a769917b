import SimTriage.Text.Blank

/-!
The topics of an event, written as one text and cut at its top-level commas. Only square brackets
nest, and they may close before they open: a comma is top-level where as many brackets have been
opened as closed.
-/

set_option autoImplicit false

namespace SimTriage.Event

/-- The nesting after one more character. -/
def nesting (depth : Int) (c : Char) : Int :=
  if c = '[' then depth + 1 else if c = ']' then depth - 1 else depth

/-- The pieces between top-level commas of a text that begins at the given nesting. There is one
piece more than there are such commas. -/
def cutTopics : Int → Text → List Text
  | _, [] => [[]]
  | depth, c :: rest =>
    if c = ',' && depth = 0 then [] :: cutTopics depth rest
    else match cutTopics (nesting depth c) rest with
      | [] => [[c]]
      | piece :: pieces => (c :: piece) :: pieces

/-- The topics of a body: its pieces, stripped. A last piece without any character is no topic. -/
def splitTopics (body : Text) : List Text :=
  let pieces := cutTopics 0 body
  (if pieces.getLast? = some [] then pieces.dropLast else pieces).map Text.strip

theorem cutTopics_ne_nil (depth : Int) (body : Text) : cutTopics depth body ≠ [] := by
  cases body with
  | nil => simp [cutTopics]
  | cons c rest =>
      simp only [cutTopics]
      split
      · simp
      · split <;> simp

/-- Joined at commas again, the pieces give the text back. -/
theorem join_cutTopics (depth : Int) (body : Text) :
    Text.join [','] (cutTopics depth body) = body := by
  induction body generalizing depth with
  | nil => rfl
  | cons c rest ih =>
      simp only [cutTopics]
      split
      · rename_i top
        have same : c = ',' := by simp at top; exact top.1
        cases pieces : cutTopics depth rest with
        | nil => exact absurd pieces (cutTopics_ne_nil depth rest)
        | cons piece more =>
            have joined := ih depth
            rw [pieces] at joined
            simp [Text.join, joined, same]
      · cases pieces : cutTopics (nesting depth c) rest with
        | nil => exact absurd pieces (cutTopics_ne_nil _ rest)
        | cons piece more =>
            have joined := ih (nesting depth c)
            rw [pieces] at joined
            cases more <;> simp_all [Text.join]

end SimTriage.Event
