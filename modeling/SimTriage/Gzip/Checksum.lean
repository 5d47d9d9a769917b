import SimTriage.Text

/-!
The 32-bit cyclic redundancy check that closes each member of a gzip file.
-/

set_option autoImplicit false

namespace SimTriage.Gzip

/-- One bit of the division by the reflected polynomial. -/
def checksumBit (remainder : UInt32) : UInt32 :=
  if remainder &&& 1 = 1 then (remainder >>> 1) ^^^ 0xEDB88320 else remainder >>> 1

/-- Takes one byte into the remainder. -/
def checksumByte (remainder : UInt32) (b : UInt8) : UInt32 :=
  (List.range 8).foldl (fun current _ => checksumBit current) (remainder ^^^ b.toUInt32)

def checksum (bytes : Bytes) : UInt32 :=
  bytes.foldl checksumByte 0xFFFFFFFF ^^^ 0xFFFFFFFF

example :
    checksum [0x31, 0x32, 0x33, 0x34, 0x35, 0x36, 0x37, 0x38, 0x39] = 0xCBF43926 := by
  decide +kernel

end SimTriage.Gzip
