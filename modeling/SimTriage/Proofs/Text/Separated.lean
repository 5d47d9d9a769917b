import SimTriage.Proofs.Text.Split

/-!
Cutting a text at a separator of several characters. Joined pieces are cut where they were joined,
if the separator begins with a character that no piece holds.
-/

set_option autoImplicit false

namespace SimTriage.Text

/-- The pieces between the places where a separator stands, looked for from the left and behind the
first `skipped` characters. -/
def cutAround (separator : Text) : Nat → Text → List Text
  | _, [] => [[]]
  | skipped + 1, _ :: rest => cutAround separator skipped rest
  | 0, c :: rest =>
    if separator.isPrefixOf (c :: rest) then
      [] :: cutAround separator (separator.length - 1) rest
    else
      match cutAround separator 0 rest with
      | [] => [[c]]
      | piece :: pieces => (c :: piece) :: pieces

/-- The pieces between the places where a separator stands, looked for from the left. -/
def splitAround (separator text : Text) : List Text := cutAround separator 0 text

theorem cutAround_ne_nil (separator : Text) (skipped : Nat) (text : Text) :
    cutAround separator skipped text ≠ [] := by
  fun_induction cutAround separator skipped text with
  | case1 => simp
  | case2 skipped c rest ih => exact ih
  | case3 c rest present ih => simp
  | case4 c rest absent none ih => simp
  | case5 c rest absent piece pieces more ih => simp

theorem cutAround_append (separator front back : Text) :
    cutAround separator front.length (front ++ back) = cutAround separator 0 back := by
  induction front with
  | nil => rfl
  | cons c front ih => exact ih

section Marked

variable {s : Char} {rest : Text}

theorem splitAround_append_self (back : Text) :
    splitAround (s :: rest) ((s :: rest) ++ back) = [] :: splitAround (s :: rest) back := by
  have present : (s :: rest).isPrefixOf (s :: (rest ++ back)) = true :=
    List.isPrefixOf_iff_prefix.mpr (List.prefix_append (s :: rest) back)
  rw [List.cons_append, splitAround, cutAround, if_pos present]
  exact congrArg _ (cutAround_append (s :: rest) rest back)

theorem splitAround_cons_of_ne {c : Char} (other : s ≠ c) (text : Text) :
    splitAround (s :: rest) (c :: text) =
      (c :: (splitAround (s :: rest) text).headD []) :: (splitAround (s :: rest) text).tail := by
  have absent : ¬ (s :: rest).isPrefixOf (c :: text) = true := by
    rw [List.isPrefixOf_iff_prefix, List.cons_prefix_cons]
    exact fun both => other both.1
  rw [splitAround, cutAround, if_neg absent]
  unfold splitAround
  cases pieces : cutAround (s :: rest) 0 text with
  | nil => exact absurd pieces (cutAround_ne_nil _ _ _)
  | cons piece pieces => rfl

theorem splitAround_of_not_mem {piece : Text} (absent : s ∉ piece) :
    splitAround (s :: rest) piece = [piece] := by
  induction piece with
  | nil => rfl
  | cons c piece ih =>
      rw [List.mem_cons, not_or] at absent
      rw [splitAround_cons_of_ne absent.1, ih absent.2]
      rfl

theorem splitAround_append {piece : Text} (absent : s ∉ piece) (back : Text) :
    splitAround (s :: rest) (piece ++ ((s :: rest) ++ back)) =
      piece :: splitAround (s :: rest) back := by
  induction piece with
  | nil => exact splitAround_append_self back
  | cons c piece ih =>
      rw [List.mem_cons, not_or] at absent
      rw [List.cons_append, splitAround_cons_of_ne absent.1, ih absent.2]
      rfl

/-- Joined pieces are found again. -/
theorem splitAround_join {pieces : List Text} (filled : pieces ≠ [])
    (absent : ∀ piece ∈ pieces, s ∉ piece) :
    splitAround (s :: rest) (join (s :: rest) pieces) = pieces := by
  induction pieces with
  | nil => exact absurd rfl filled
  | cons piece pieces ih =>
      obtain ⟨first, behind⟩ := List.forall_mem_cons.mp absent
      cases pieces with
      | nil => exact splitAround_of_not_mem first
      | cons next pieces =>
          rw [join_cons_cons, splitAround_append first, ih (List.cons_ne_nil next pieces) behind]

end Marked

/-- A separator that would overlap itself is found at its first place. -/
example : splitAround "aa" "baaab" = (["b", "ab"] : List Text) := by decide

end SimTriage.Text
