import SimTriage.Text

/-!
UTF-8, read byte by byte. Input that is not UTF-8 is cut into maximal broken pieces: a piece ends
before the first byte that cannot continue the character begun, so a broken character never takes a
byte that starts another one.
-/

set_option autoImplicit false

namespace SimTriage.Text.Utf8

inductive Reason
  | invalidStart
  | invalidContinuation
  | endOfData
deriving DecidableEq, Repr

/-- A character, or bytes that are no character. -/
inductive Piece
  | character (c : Char)
  | broken (bytes : Bytes) (reason : Reason)
deriving DecidableEq

/-- How many bytes a character takes that starts with `first`; none starts so if the answer is
zero. -/
def width (first : UInt8) : Nat :=
  if first < 0x80 then 1
  else if first < 0xC2 then 0
  else if first < 0xE0 then 2
  else if first < 0xF0 then 3
  else if first < 0xF5 then 4
  else 0

/-- Whether `next` may follow the bytes `begun` of an unfinished character. The second byte is
limited further, to keep out overlong forms, surrogates and values above U+10FFFF. -/
def continues (begun : Bytes) (next : UInt8) : Bool :=
  0x80 ≤ next && next < 0xC0 &&
    match begun with
    | [0xE0] => 0xA0 ≤ next
    | [0xED] => next < 0xA0
    | [0xF0] => 0x90 ≤ next
    | [0xF4] => next < 0x90
    | _ => true

/-- The character that complete bytes stand for. -/
def assemble : Bytes → Char
  | [a] => Char.ofNat a.toNat
  | [a, b] => Char.ofNat ((a.toNat - 0xC0) * 0x40 + (b.toNat - 0x80))
  | [a, b, c] =>
    Char.ofNat ((a.toNat - 0xE0) * 0x1000 + (b.toNat - 0x80) * 0x40 + (c.toNat - 0x80))
  | [a, b, c, d] =>
    Char.ofNat ((a.toNat - 0xF0) * 0x40000 + (b.toNat - 0x80) * 0x1000
      + (c.toNat - 0x80) * 0x40 + (d.toNat - 0x80))
  | _ => Char.ofNat 0

/-- A byte at which a new character has to start: the pieces it completes and the bytes it leaves
unfinished. -/
def start (b : UInt8) : List Piece × Bytes :=
  match width b with
  | 0 => ([.broken [b] .invalidStart], [])
  | 1 => ([.character (assemble [b])], [])
  | _ => ([], [b])

/-- One more byte, after the unfinished bytes `begun`. -/
def step (begun : Bytes) (b : UInt8) : List Piece × Bytes :=
  match begun with
  | [] => start b
  | first :: _ =>
    if continues begun b then
      let grown := begun ++ [b]
      if grown.length = width first then ([.character (assemble grown)], []) else ([], grown)
    else
      let (pieces, left) := start b
      (.broken begun .invalidContinuation :: pieces, left)

/-- The pieces of the input, after the unfinished bytes `begun`. -/
def piecesFrom : Bytes → Bytes → List Piece
  | [], [] => []
  | begun, [] => [.broken begun .endOfData]
  | begun, b :: rest =>
    let (pieces, left) := step begun b
    pieces ++ piecesFrom left rest

/-- The input as characters and broken pieces, in order. -/
def pieces (input : Bytes) : List Piece := piecesFrom [] input

def Piece.size : Piece → Nat
  | .character c => c.utf8Size
  | .broken bytes _ => bytes.length

/-- The bytes that stand for a character. -/
def encodeChar (c : Char) : Bytes :=
  let n := c.toNat
  if n < 0x80 then [UInt8.ofNat n]
  else if n < 0x800 then [UInt8.ofNat (0xC0 + n / 0x40), UInt8.ofNat (0x80 + n % 0x40)]
  else if n < 0x10000 then
    [UInt8.ofNat (0xE0 + n / 0x1000), UInt8.ofNat (0x80 + n / 0x40 % 0x40),
     UInt8.ofNat (0x80 + n % 0x40)]
  else
    [UInt8.ofNat (0xF0 + n / 0x40000), UInt8.ofNat (0x80 + n / 0x1000 % 0x40),
     UInt8.ofNat (0x80 + n / 0x40 % 0x40), UInt8.ofNat (0x80 + n % 0x40)]

def encode (text : Text) : Bytes := text.flatMap encodeChar

theorem encode_append (front back : Text) : encode (front ++ back) = encode front ++ encode back :=
  List.flatMap_append

end SimTriage.Text.Utf8
