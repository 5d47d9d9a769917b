import SimTriage.Text.Numeral
import SimTriage.Text.Quoted
import SimTriage.Text.Utf8

/-!
From bytes to text: the encodings a message file may be in, and what becomes of bytes that the
encoding does not cover.
-/

set_option autoImplicit false

namespace SimTriage.Text

inductive Encoding
  | utf8
  | ascii
  | latin1
deriving DecidableEq, Repr

namespace Encoding

def name : Encoding → Text
  | .utf8 => "utf-8"
  | .ascii => "ascii"
  | .latin1 => "latin-1"

/-- The encoding of that name, of those that are built in. -/
def named? (name : Text) : Option Encoding :=
  [utf8, ascii, latin1].find? fun encoding => encoding.name = name

end Encoding

/-- What becomes of a broken piece. -/
inductive OnBroken
  | refuse
  | replace
  | drop
deriving DecidableEq, Repr

/-- A stretch of input that is no text in the encoding of that name. -/
structure Undecodable where
  encoding : Text
  position : Nat
  bytes : Bytes
  reason : Text
deriving DecidableEq

namespace Undecodable

/-- Names the place and the fault. A single byte is shown, a longer stretch only located. -/
def message (fault : Undecodable) : Text :=
  ("'" : Text) ++ fault.encoding ++ "' codec can't decode " ++
    (match fault.bytes with
     | [b] => "byte 0x" ++ hexDigits 2 b.toNat ++ " in position " ++ ofNat fault.position
     | bytes =>
       "bytes in position " ++ ofNat fault.position ++ "-" ++
         ofNat (fault.position + bytes.length - 1)) ++
    ": " ++ fault.reason

end Undecodable

def Utf8.Reason.text : Utf8.Reason → Text
  | .invalidStart => "invalid start byte"
  | .invalidContinuation => "invalid continuation byte"
  | .endOfData => "unexpected end of data"

/-- U+FFFD. -/
def replacement : Char := '\ufffd'

/-- The text of pieces of UTF-8 of which the first stands at `position`. -/
def ofPieces (onBroken : OnBroken) : Nat → List Utf8.Piece → Except Undecodable Text
  | _, [] => .ok []
  | position, piece :: rest =>
    match piece with
    | .character c => (c :: ·) <$> ofPieces onBroken (position + piece.size) rest
    | .broken bytes reason =>
      match onBroken with
      | .refuse => .error ⟨Encoding.utf8.name, position, bytes, reason.text⟩
      | .replace => (replacement :: ·) <$> ofPieces onBroken (position + piece.size) rest
      | .drop => ofPieces onBroken (position + piece.size) rest

/-- ASCII, of which the first byte stands at `position`. -/
def ofAscii (onBroken : OnBroken) : Nat → Bytes → Except Undecodable Text
  | _, [] => .ok []
  | position, b :: rest =>
    if b < 0x80 then (Char.ofNat b.toNat :: ·) <$> ofAscii onBroken (position + 1) rest
    else
      match onBroken with
      | .refuse => .error ⟨Encoding.ascii.name, position, [b], "ordinal not in range(128)"⟩
      | .replace => (replacement :: ·) <$> ofAscii onBroken (position + 1) rest
      | .drop => ofAscii onBroken (position + 1) rest

def decode (encoding : Encoding) (onBroken : OnBroken) (bytes : Bytes) :
    Except Undecodable Text :=
  match encoding with
  | .utf8 => ofPieces onBroken 0 (Utf8.pieces bytes)
  | .ascii => ofAscii onBroken 0 bytes
  | .latin1 => .ok (bytes.map fun b => Char.ofNat b.toNat)

/-- Line ends in one spelling: a carriage return, with the line feed after it if there is one,
becomes a line feed. -/
def unifyNewlines : Text → Text
  | [] => []
  | '\r' :: '\n' :: rest => '\n' :: unifyNewlines rest
  | '\r' :: rest => '\n' :: unifyNewlines rest
  | c :: rest => c :: unifyNewlines rest

end SimTriage.Text
