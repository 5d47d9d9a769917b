import SimTriage.Text.Numeral
import SimTriage.Text.Quoted

/-!
JSON values, and their written form: ASCII only, two spaces for each level of nesting, members in
the order of the value.
-/

set_option autoImplicit false

namespace SimTriage

/-- A JSON value. Numbers with a fraction or an exponent are kept apart from integers, as
`mantissa * 10 ^ exponent`. Members of an object have an order. -/
inductive Json
  | null
  | bool (value : Bool)
  | integer (value : Int)
  | decimal (mantissa exponent : Int)
  | string (text : Text)
  | array (items : List Json)
  | object (members : List (Text × Json))

namespace Json

def ofText? : Option Text → Json
  | some text => .string text
  | none => .null

def ofNat? : Option Nat → Json
  | some n => .integer n
  | none => .null

/-- The value of the first member with that name. -/
def member? (name : Text) : Json → Option Json
  | .object members => members.lookup name
  | _ => none

/-- One 16-bit unit as an escape. -/
def unitEscape (unit : Nat) : Text := ['\\', 'u'] ++ Text.hexDigits 4 unit

/-- One character of a string. Quotes, backslashes, controls and all that is not ASCII are
escaped; a code point above U+FFFF takes two units. -/
def encodeChar (c : Char) : Text :=
  match c with
  | '"' => ['\\', '"']
  | '\\' => ['\\', '\\']
  | '\n' => ['\\', 'n']
  | '\r' => ['\\', 'r']
  | '\t' => ['\\', 't']
  | '\x08' => ['\\', 'b']
  | '\x0c' => ['\\', 'f']
  | c =>
    let n := c.toNat
    if 0x20 ≤ n && n < 0x7F then [c]
    else if n < 0x10000 then unitEscape n
    else
      unitEscape (0xD800 + (n - 0x10000) / 0x400) ++ unitEscape (0xDC00 + (n - 0x10000) % 0x400)

def encodeString (text : Text) : Text := '"' :: text.flatMap encodeChar ++ ['"']

/-- The start of a line at that level of nesting. -/
def newline (depth : Nat) : Text := '\n' :: List.replicate (2 * depth) ' '

mutual

/-- The written form of a value that stands at a level of nesting. -/
def writeAt (depth : Nat) : Json → Text
  | .null => "null"
  | .bool true => "true"
  | .bool false => "false"
  | .integer value => Text.ofInt value
  | .decimal mantissa exponent => Text.ofInt mantissa ++ 'e' :: Text.ofInt exponent
  | .string text => encodeString text
  | .array [] => "[]"
  | .array (item :: items) =>
    '[' :: newline (depth + 1) ++ writeAt (depth + 1) item ++ writeItems (depth + 1) items
      ++ newline depth ++ [']']
  | .object [] => "\x7b\x7d"
  | .object ((name, value) :: members) =>
    '\x7b' :: newline (depth + 1) ++ encodeString name ++ ": " ++ writeAt (depth + 1) value
      ++ writeMembers (depth + 1) members ++ newline depth ++ ['\x7d']

/-- The items after the first. -/
def writeItems (depth : Nat) : List Json → Text
  | [] => []
  | item :: items => ',' :: newline depth ++ writeAt depth item ++ writeItems depth items

/-- The members after the first. -/
def writeMembers (depth : Nat) : List (Text × Json) → Text
  | [] => []
  | (name, value) :: members =>
    ',' :: newline depth ++ encodeString name ++ ": " ++ writeAt depth value
      ++ writeMembers depth members

end

def write (value : Json) : Text := writeAt 0 value

end Json

end SimTriage
