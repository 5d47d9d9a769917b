import SimTriage.Text

/-!
A compressed stream as bits: within a byte the least significant bit comes first, and so it does
within a number. Bits of an unfinished byte can be skipped, to go on with whole bytes.
-/

set_option autoImplicit false

namespace SimTriage.Gzip

/-- The bits of a byte, least significant first. -/
def bitsOf (b : UInt8) : List Bool := (List.range 8).map b.toNat.testBit

/-- Input that is part way through a byte: the bits left of it, and the bytes after it. -/
structure Stream where
  bits : List Bool
  bytes : Bytes
deriving DecidableEq

namespace Stream

def ofBytes (bytes : Bytes) : Stream := ⟨[], bytes⟩

def size (s : Stream) : Nat := s.bits.length + 8 * s.bytes.length

def next? (s : Stream) : Option (Bool × Stream) :=
  match s.bits, s.bytes with
  | bit :: bits, bytes => some (bit, ⟨bits, bytes⟩)
  | [], b :: bytes =>
    match bitsOf b with
    | bit :: bits => some (bit, ⟨bits, bytes⟩)
    | [] => none
  | [], [] => none

def number? : Nat → Stream → Option (Nat × Stream)
  | 0, s => some (0, s)
  | count + 1, s => do
    let (bit, s) ← s.next?
    let (high, s) ← number? count s
    return (bit.toNat + 2 * high, s)

/-- The stream from the next whole byte on. -/
def aligned (s : Stream) : Stream := ⟨[], s.bytes⟩

end Stream

end SimTriage.Gzip
