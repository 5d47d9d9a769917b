/-!
Texts as lists of code points, with the few cuts and searches that the formats need: splitting at
a separator, joining, dropping a known beginning, and looking for a part.
-/

set_option autoImplicit false

namespace SimTriage

/-- A text is the list of its code points. -/
abbrev Text := List Char

/-- Raw file content. -/
abbrev Bytes := List UInt8

instance : Coe String Text := ⟨String.toList⟩

namespace Text

/-- The pieces between separators. There is one piece more than there are separators. -/
def splitOn (separator : Char) : Text → List Text
  | [] => [[]]
  | c :: rest =>
    if c = separator then [] :: splitOn separator rest
    else match splitOn separator rest with
      | [] => [[c]]
      | piece :: pieces => (c :: piece) :: pieces

/-- The pieces in order, with `separator` between neighbours. -/
def join (separator : Text) : List Text → Text
  | [] => []
  | [piece] => piece
  | piece :: pieces => piece ++ separator ++ join separator pieces

/-- The text after `start`, if `text` begins with `start`. -/
def after? : Text → Text → Option Text
  | [], text => some text
  | _ :: _, [] => none
  | s :: start, c :: text => if s = c then after? start text else none

/-- Whether `part` occurs in the text, as one block. -/
def includes (part : Text) : Text → Bool
  | [] => part.isEmpty
  | c :: rest => part.isPrefixOf (c :: rest) || includes part rest

/-- The text without the characters to drop that it begins and ends with. -/
def stripWhere (drop : Char → Bool) (text : Text) : Text :=
  ((text.dropWhile drop).reverse.dropWhile drop).reverse

/-- A text without the line feed it may end with. -/
def dropFinalNewline (text : Text) : Text :=
  if text.getLast? = some '\n' then text.dropLast else text

def replaceChar (old new : Char) (text : Text) : Text :=
  text.map fun c => if c = old then new else c

theorem splitOn_ne_nil (separator : Char) (text : Text) : splitOn separator text ≠ [] := by
  cases text with
  | nil => simp [splitOn]
  | cons c rest =>
      simp only [splitOn]
      split
      · simp
      · split <;> simp

end Text

end SimTriage
