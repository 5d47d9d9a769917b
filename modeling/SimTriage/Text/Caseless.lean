import SimTriage.Text

/-!
Letter case, as far as it decides equality with an ASCII name. Every character whose upper-case or
case-folded form lies in ASCII is mapped to that form; every other one is left as it is, which
keeps a text that is not ASCII apart from each ASCII name.
-/

set_option autoImplicit false

namespace SimTriage.Text

/-- The upper-case form of a character, where that form is ASCII (Unicode 14). -/
def upperForm (c : Char) : Text :=
  match c with
  | 'ß' => "SS"
  | 'ı' => "I"
  | 'ſ' => "S"
  | 'ﬀ' => "FF"
  | 'ﬁ' => "FI"
  | 'ﬂ' => "FL"
  | 'ﬃ' => "FFI"
  | 'ﬄ' => "FFL"
  | 'ﬅ' => "ST"
  | 'ﬆ' => "ST"
  | c => [c.toUpper]

/-- The case-folded form of a character, where that form is ASCII (Unicode 14). -/
def foldedForm (c : Char) : Text :=
  match c with
  | 'ß' => "ss"
  | 'ẞ' => "ss"
  | 'ſ' => "s"
  | '\u212a' => "k"
  | 'ﬀ' => "ff"
  | 'ﬁ' => "fi"
  | 'ﬂ' => "fl"
  | 'ﬃ' => "ffi"
  | 'ﬄ' => "ffl"
  | 'ﬅ' => "st"
  | 'ﬆ' => "st"
  | c => [c.toLower]

def upper (text : Text) : Text := text.flatMap upperForm

def folded (text : Text) : Text := text.flatMap foldedForm

/-- Lower case, letter by letter. No character outside ASCII has a lower-case form in ASCII but
the Kelvin sign, whose form is the letter k. -/
def lower (text : Text) : Text :=
  text.map fun c => if c = '\u212a' then 'k' else c.toLower

end SimTriage.Text
