import SimTriage.Schema.Shape
import SimTriage.Text.Integer

/-!
Integers that are spelled as texts inside JSON values. A spelling is brought into plain form, which
is a minus sign if need be and digits without zeros in front, and the plain form is read.
-/

set_option autoImplicit false

namespace SimTriage.Schema

/-- A text behind a zero in front, of which `last` is the latest character: without more zeros and
underscores, up to a digit or a minus sign. At a point or at the end, `last` is kept. -/
def behindZeros? (last : Char) : Text → Option Text
  | [] => some [last]
  | c :: rest =>
    if c = '0' || c = '_' then behindZeros? c rest
    else if Text.isDigit c || c = '-' then some (c :: rest)
    else if c = '.' then some (last :: c :: rest)
    else none

/-- The text without zeros in front. It has to begin with a digit or a minus sign. -/
def dropZeros? : Text → Option Text
  | [] => none
  | c :: rest =>
    if c = '0' then behindZeros? c rest
    else if Text.isDigit c || c = '-' then some (c :: rest)
    else none

/-- The text without the point and the zeros that it ends with, if there is a zero. -/
def dropZeroFraction (text : Text) : Text :=
  match text.span (· ≠ '.') with
  | (whole, '.' :: '0' :: zeros) => if zeros.all (· = '0') then whole else text
  | _ => text

/-- The text without underscores, if they all stand alone and none is first or last. -/
def ungroup (text : Text) : Text :=
  if text.head? = some '_' || text.getLast? = some '_' || Text.includes "__" text then text
  else text.filter (· ≠ '_')

/-- The integer that digits and a sign spell, of which a minus sign counts as one more digit. A zero
stands in front of no digit. -/
def plainMagnitude (negative : Bool) (text : Text) : Except Cause Int :=
  let (digits, rest) := text.span Text.isDigit
  let size := digits.length + if negative then 1 else 0
  match digits with
  | [] | '0' :: _ :: _ => .error .unreadableInteger
  | _ =>
    if Text.maxDigits < size then .error .overlongInteger
    else if rest = [] then
      let value := Int.ofNat (Text.numeralValue digits)
      .ok (if negative then -value else value)
    else .error .unreadableInteger

def plainInteger : Text → Except Cause Int
  | '-' :: magnitude => plainMagnitude true magnitude
  | magnitude => plainMagnitude false magnitude

/-- The plain form of a sign and what follows it. -/
def plainBehind? (sign unsigned : Text) : Option Text :=
  (dropZeros? unsigned).map fun text => ungroup (dropZeroFraction (sign ++ text))

/-- The plain form of a spelling, with a sign or without one. -/
def plainForm? : Text → Option Text
  | '+' :: '-' :: _ => none
  | '+' :: unsigned => plainBehind? [] unsigned
  | '-' :: unsigned => plainBehind? ['-'] unsigned
  | unsigned => plainBehind? [] unsigned

/-- The integer that a text spells, with blanks around it or not. -/
def integerOfText (text : Text) : Except Cause Int :=
  match plainForm? (Text.stripWhere Text.isMargin text) with
  | some plain => plainInteger plain
  | none => .error .unreadableInteger

end SimTriage.Schema
