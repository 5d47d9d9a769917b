import SimTriage.Gzip.Checksum
import SimTriage.Gzip.Inflate
import SimTriage.Text.Quoted

/-!
Gzip files: members one after the other, each a header, a deflate stream and a trailer with the
checksum and the length of its output. Zero bytes may follow a member; a file without any member is
empty.
-/

set_option autoImplicit false

namespace SimTriage.Gzip

inductive Fault
  | badMagic (found : Bytes)
  | unknownMethod
  | ended
  | deflate (fault : DeflateFault)
  | wrongChecksum (stored computed : UInt32)
  | wrongLength
deriving DecidableEq

def hexadecimal (n : Nat) : Text := "0x" ++ Nat.toDigits 16 n

namespace Fault

def message : Fault → Text
  | .badMagic found => "Not a gzipped file (" ++ Text.quotedBytes found ++ ")"
  | .unknownMethod => "Unknown compression method"
  | .ended => "Compressed file ended before the end-of-stream marker was reached"
  | .deflate fault => "Error -3 while decompressing data: " ++ fault.message
  | .wrongChecksum stored computed =>
    "CRC check failed " ++ hexadecimal stored.toNat ++ " != " ++ hexadecimal computed.toNat
  | .wrongLength => "Incorrect length of data produced"

end Fault

def split (count : Nat) (bytes : Bytes) : Except Fault (Bytes × Bytes) :=
  if bytes.length < count then .error .ended else .ok (bytes.take count, bytes.drop count)

/-- The number that bytes stand for, least significant first. -/
def littleEndian : Bytes → Nat
  | [] => 0
  | b :: rest => b.toNat + 256 * littleEndian rest

/-- What follows a text that is closed by a zero byte. An unclosed one reaches to the end. -/
def afterZero (bytes : Bytes) : Bytes := (bytes.dropWhile (· ≠ 0)).drop 1

/-- What follows the rest of a header, from the method on. The flags tell which optional fields
there are: extra data with its length, a name, a comment, and a checksum of the header. -/
def afterHeader (bytes : Bytes) : Except Fault Bytes := do
  let (fixed, rest) ← split 8 bytes
  let flags := (fixed.getD 1 0).toNat
  if fixed.getD 0 0 ≠ 8 then throw .unknownMethod
  let rest ←
    if flags.testBit 2 then do
      let (size, rest) ← split 2 rest
      let (_, rest) ← split (littleEndian size) rest
      pure rest
    else pure rest
  let rest := if flags.testBit 3 then afterZero rest else rest
  let rest := if flags.testBit 4 then afterZero rest else rest
  if flags.testBit 1 then
    let (_, rest) ← split 2 rest
    return rest
  else return rest

/-- The output of one member and what follows it, zero bytes dropped. -/
def member (bytes : Bytes) : Except Fault (Bytes × Bytes) := do
  let stream ← afterHeader bytes
  match inflate stream with
  | .error .ended => throw .ended
  | .error (.faulty fault) => throw (.deflate fault)
  | .ok (output, rest) =>
    let (trailer, rest) ← split 8 rest
    let stored := UInt32.ofNat (littleEndian (trailer.take 4))
    if stored ≠ checksum output then throw (.wrongChecksum stored (checksum output))
    else if littleEndian (trailer.drop 4) ≠ output.length % (1 <<< 32) then throw .wrongLength
    else return (output, rest.dropWhile (· = 0))

/-- The outputs of all members, joined. Each member takes at least one byte. -/
def members : Nat → Bytes → Except Fault Bytes
  | 0, _ => .error .ended
  | _ + 1, [] => .ok []
  | fuel + 1, 0x1F :: 0x8B :: rest => do
    let (output, rest) ← member rest
    let more ← members fuel rest
    return output ++ more
  | _ + 1, bytes => .error (.badMagic (bytes.take 2))

def decompress (bytes : Bytes) : Except Fault Bytes := members (bytes.length + 1) bytes

end SimTriage.Gzip
