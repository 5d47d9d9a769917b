import SimTriage.Text

/-!
White space in event logs, and stripping it from both ends of a text.
-/

set_option autoImplicit false

namespace SimTriage.Text

/-- The code points that count as blank, as closed ranges: the `White_Space` property and the four
information separators U+001C to U+001F. -/
def blankRanges : List (Nat × Nat) :=
  [(0x09, 0x0D), (0x1C, 0x20), (0x85, 0x85), (0xA0, 0xA0), (0x1680, 0x1680), (0x2000, 0x200A),
   (0x2028, 0x2029), (0x202F, 0x202F), (0x205F, 0x205F), (0x3000, 0x3000)]

def isBlank (c : Char) : Bool :=
  blankRanges.any fun range => range.1 ≤ c.toNat && c.toNat ≤ range.2

/-- The text without the blanks it begins with. -/
def trimStart (text : Text) : Text := text.dropWhile isBlank

/-- The text without the blanks at either end. -/
def strip (text : Text) : Text := stripWhere isBlank text

end SimTriage.Text
