import SimTriage.Proofs.Text.Encoding
import SimTriage.Proofs.Text.Split
import SimTriage.Proofs.Text.Strip

/-!
The lines of a text in another spelling of its line ends. A carriage return in front of every line
feed stands at the end of every line but the last; where every carriage return has its line feed,
line ends in one spelling take these away again. Stripped, the lines are the same in all three.
-/

set_option autoImplicit false

namespace SimTriage.Text

/-- The text with a carriage return in front of every line feed. -/
def withReturns (text : Text) : Text :=
  text.flatMap fun c => if c = '\n' then ['\r', '\n'] else [c]

/-- A text without the carriage return it may end with. -/
def dropReturn (text : Text) : Text := if text.getLast? = some '\r' then text.dropLast else text

/-- Behind every carriage return stands a line feed. -/
def ReturnsBeforeFeeds : Text → Prop
  | [] => True
  | c :: rest => (c = '\r' → rest.head? = some '\n') ∧ ReturnsBeforeFeeds rest

instance decidableReturnsBeforeFeeds : (text : Text) → Decidable (ReturnsBeforeFeeds text)
  | [] => .isTrue trivial
  | _ :: rest =>
    have := decidableReturnsBeforeFeeds rest
    inferInstanceAs (Decidable (_ ∧ _))

/-- The lines with a carriage return at the end of each but the last. -/
def returned : List Text → List Text
  | [] => []
  | [last] => [last]
  | line :: next :: lines => (line ++ ['\r']) :: returned (next :: lines)

theorem returned_cons {lines : List Text} (more : lines ≠ []) (line : Text) :
    returned (line :: lines) = (line ++ ['\r']) :: returned lines := by
  cases lines with
  | nil => exact absurd rfl more
  | cons next lines => rfl

/-- A character in front of the first line changes no line end. -/
theorem returned_head (c : Char) (line : Text) (lines : List Text) :
    returned ((c :: line) :: lines) =
      (c :: (returned (line :: lines)).headD []) :: (returned (line :: lines)).tail := by
  cases lines <;> rfl

theorem withReturns_newline (text : Text) :
    withReturns ('\n' :: text) = '\r' :: '\n' :: withReturns text := rfl

theorem withReturns_cons_of_ne {c : Char} (other : c ≠ '\n') (text : Text) :
    withReturns (c :: text) = c :: withReturns text := by
  simp [withReturns, other]

theorem splitOn_withReturns (text : Text) :
    splitOn '\n' (withReturns text) = returned (splitOn '\n' text) := by
  induction text with
  | nil => rfl
  | cons c text ih =>
      by_cases feed : c = '\n'
      · subst feed
        rw [withReturns_newline, splitOn_cons_of_ne (by decide), splitOn_cons_self,
          splitOn_cons_self, ih, returned_cons (splitOn_ne_nil '\n' text)]
        rfl
      · rw [withReturns_cons_of_ne feed, splitOn_cons_of_ne feed, splitOn_cons_of_ne feed,
          returned_head, ih]
        cases lines : splitOn '\n' text with
        | nil => exact absurd lines (splitOn_ne_nil '\n' text)
        | cons line lines => rfl

theorem map_strip_returned (lines : List Text) :
    (returned lines).map strip = lines.map strip := by
  have blank : IsBlankRun ['\r'] := by decide
  fun_induction returned lines with
  | case1 => rfl
  | case2 last => rfl
  | case3 line next lines ih => rw [List.map_cons, ih, strip_append_right blank, List.map_cons,
      List.map_cons, List.map_cons]

theorem dropReturn_cons_of_ne {c : Char} (other : c ≠ '\r') (text : Text) :
    dropReturn (c :: text) = c :: dropReturn text := by
  cases text with
  | nil => simp [dropReturn, other]
  | cons d text =>
      unfold dropReturn
      rw [List.getLast?_cons_cons]
      split <;> rfl

/-- A carriage return at the end of a line is a blank. -/
theorem strip_dropReturn (text : Text) : strip (dropReturn text) = strip text := by
  have blank : IsBlankRun ['\r'] := by decide
  unfold dropReturn
  split
  · rename_i last
    have whole : text.dropLast ++ ['\r'] = text := List.dropLast_append_getLast? _ last
    rw [← strip_append_right blank text.dropLast, whole]
  · rfl

theorem map_strip_dropReturn (lines : List Text) :
    (lines.map dropReturn).map strip = lines.map strip := by
  rw [List.map_map]
  exact List.map_congr_left fun line _ => strip_dropReturn line

theorem splitOn_unifyNewlines {text : Text} (paired : ReturnsBeforeFeeds text) :
    splitOn '\n' (unifyNewlines text) = (splitOn '\n' text).map dropReturn := by
  fun_induction unifyNewlines text with
  | case1 => rfl
  | case2 rest ih =>
      rw [splitOn_cons_self, splitOn_cons_of_ne (by decide), splitOn_cons_self, ih paired.2.2]
      rfl
  | case3 rest alone ih =>
      obtain ⟨more, rfl⟩ := List.head?_eq_some_iff.mp (paired.1 rfl)
      exact absurd rfl (alone more)
  | case4 c rest _ notReturn ih =>
      by_cases feed : c = '\n'
      · subst feed
        rw [splitOn_cons_self, splitOn_cons_self, ih paired.2]
        rfl
      · rw [splitOn_cons_of_ne feed, splitOn_cons_of_ne feed, ih paired.2]
        cases lines : splitOn '\n' rest with
        | nil => exact absurd lines (splitOn_ne_nil '\n' rest)
        | cons line lines => simp [dropReturn_cons_of_ne notReturn]

/-- The first line ends in a carriage return exactly if another one follows. -/
theorem takeWhile_withReturns (text : Text) :
    (withReturns text).takeWhile (· ≠ '\n') =
      if '\n' ∈ text then text.takeWhile (· ≠ '\n') ++ ['\r'] else text.takeWhile (· ≠ '\n') := by
  induction text with
  | nil => rfl
  | cons c text ih =>
      by_cases feed : c = '\n'
      · subst feed
        simp [withReturns_newline]
      · have first : ∀ rest : Text, (c :: rest).takeWhile (· ≠ '\n') =
            c :: rest.takeWhile (· ≠ '\n') := fun rest =>
          List.takeWhile_cons_of_pos (decide_eq_true feed)
        have elsewhere : '\n' ∈ c :: text ↔ '\n' ∈ text := by simp [Ne.symm feed]
        rw [withReturns_cons_of_ne feed, first, first, ih, apply_ite (List.cons c), List.cons_append]
        simp only [elsewhere]

theorem takeWhile_unifyNewlines {text : Text} (paired : ReturnsBeforeFeeds text) :
    (unifyNewlines text).takeWhile (· ≠ '\n') = dropReturn (text.takeWhile (· ≠ '\n')) := by
  rw [← headD_splitOn, splitOn_unifyNewlines paired, ← headD_splitOn]
  cases lines : splitOn '\n' text with
  | nil => exact absurd lines (splitOn_ne_nil '\n' text)
  | cons line lines => rfl

end SimTriage.Text
