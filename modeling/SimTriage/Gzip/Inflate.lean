import SimTriage.Gzip.Code

/-!
Deflate streams: a sequence of blocks, each stored or coded, where coded blocks consist of literal
bytes and of copies of earlier output. Reading stops at the first fault, and a fault that the bits
at hand already show comes before a lack of bits.
-/

set_option autoImplicit false

namespace SimTriage.Gzip

inductive DeflateFault
  | invalidBlockType
  | invalidStoredLengths
  | tooManySymbols
  | invalidLengthCode
  | invalidRepeat
  | missingEndOfBlock
  | invalidLiteralLengths
  | invalidDistanceLengths
  | invalidLiteral
  | invalidDistance
  | distanceTooFar
deriving DecidableEq, Repr

def DeflateFault.message : DeflateFault → Text
  | .invalidBlockType => "invalid block type"
  | .invalidStoredLengths => "invalid stored block lengths"
  | .tooManySymbols => "too many length or distance symbols"
  | .invalidLengthCode => "invalid code lengths set"
  | .invalidRepeat => "invalid bit length repeat"
  | .missingEndOfBlock => "invalid code -- missing end-of-block"
  | .invalidLiteralLengths => "invalid literal/lengths set"
  | .invalidDistanceLengths => "invalid distances set"
  | .invalidLiteral => "invalid literal/length code"
  | .invalidDistance => "invalid distance code"
  | .distanceTooFar => "invalid distance too far back"

namespace Inflate

/-- How a stream fails: the input ends too soon, or it is faulty. -/
inductive Stop
  | ended
  | faulty (fault : DeflateFault)
deriving DecidableEq, Repr

def take (count : Nat) (s : Stream) : Except Stop (Nat × Stream) :=
  match s.number? count with
  | some result => .ok result
  | none => .error .ended

/-- The next symbol, where a hole in the code is the given fault. -/
def symbol (code : Code) (fault : DeflateFault) (s : Stream) : Except Stop (Nat × Stream) :=
  match code.read s with
  | .found value rest => .ok (value, rest)
  | .invalid _ => .error (.faulty fault)
  | .ended => .error .ended

/-- Base and number of extra bits of the copy lengths that symbols from 257 on stand for. -/
def lengthRows : List (Nat × Nat) :=
  [(3, 0), (4, 0), (5, 0), (6, 0), (7, 0), (8, 0), (9, 0), (10, 0), (11, 1), (13, 1), (15, 1),
   (17, 1), (19, 2), (23, 2), (27, 2), (31, 2), (35, 3), (43, 3), (51, 3), (59, 3), (67, 4),
   (83, 4), (99, 4), (115, 4), (131, 5), (163, 5), (195, 5), (227, 5), (258, 0)]

/-- Base and number of extra bits of the distances. -/
def distanceRows : List (Nat × Nat) :=
  [(1, 0), (2, 0), (3, 0), (4, 0), (5, 1), (7, 1), (9, 2), (13, 2), (17, 3), (25, 3), (33, 4),
   (49, 4), (65, 5), (97, 5), (129, 6), (193, 6), (257, 7), (385, 7), (513, 8), (769, 8),
   (1025, 9), (1537, 9), (2049, 10), (3073, 10), (4097, 11), (6145, 11), (8193, 12), (12289, 12),
   (16385, 13), (24577, 13)]

/-- Appends `count` bytes, each a copy of the one `distance` back. -/
def copy (distance : Nat) : Nat → Array UInt8 → Array UInt8
  | 0, output => output
  | count + 1, output => copy distance count (output.push (output.getD (output.size - distance) 0))

/-- A coded block. Each symbol takes at least one bit, so `fuel` bits allow for every symbol. -/
def block (literals distances : Code) : Nat → Array UInt8 → Stream →
    Except Stop (Array UInt8 × Stream)
  | 0, _, _ => .error .ended
  | fuel + 1, output, s => do
    let (value, s) ← symbol literals .invalidLiteral s
    if value < 256 then block literals distances fuel (output.push (UInt8.ofNat value)) s
    else if value = 256 then return (output, s)
    else
      match lengthRows[value - 257]? with
      | none => throw (.faulty .invalidLiteral)
      | some (base, extra) =>
        let (more, s) ← take extra s
        let length := base + more
        let (value, s) ← symbol distances .invalidDistance s
        match distanceRows[value]? with
        | none => throw (.faulty .invalidDistance)
        | some (base, extra) =>
          let (more, s) ← take extra s
          let distance := base + more
          if output.size < distance then throw (.faulty .distanceTooFar)
          else block literals distances fuel (copy distance length output) s

/-- A stored block: its length twice, the second time complemented, and the bytes. -/
def stored (output : Array UInt8) (s : Stream) : Except Stop (Array UInt8 × Stream) := do
  let (length, s) ← take 16 s.aligned
  let (check, s) ← take 16 s
  if length + check ≠ 0xFFFF then throw (.faulty .invalidStoredLengths)
  else if s.bytes.length < length then throw .ended
  else return (output ++ s.bytes.take length, ⟨[], s.bytes.drop length⟩)

def fixedLiterals : List Nat :=
  List.replicate 144 8 ++ List.replicate 112 9 ++ List.replicate 24 7 ++ List.replicate 8 8

def fixedDistances : List Nat := List.replicate 32 5

/-- The order in which the lengths of the code for code lengths are given. -/
def lengthOrder : List Nat :=
  [16, 17, 18, 0, 8, 7, 9, 6, 10, 5, 11, 4, 12, 3, 13, 2, 14, 1, 15]

/-- Numbers of three bits, one for each place listed. -/
def placedLengths : List Nat → Stream → Except Stop (List (Nat × Nat) × Stream)
  | [], s => .ok ([], s)
  | place :: places, s => do
    let (length, s) ← take 3 s
    let (more, s) ← placedLengths places s
    return ((place, length) :: more, s)

/-- The next code length. In a code without any word each bit stands for the length zero. -/
def codeLength (code : Code) (s : Stream) : Except Stop (Nat × Stream) :=
  match code.read s with
  | .found value rest => .ok (value, rest)
  | .invalid rest => .ok (0, rest)
  | .ended => .error .ended

/-- Code lengths until there are `wanted`, those read so far being `lengths`; symbols from 16 on
repeat the last length, or zero, a number of times. -/
def codeLengths (code : Code) (wanted : Nat) : Nat → List Nat → Stream →
    Except Stop (List Nat × Stream)
  | 0, _, _ => .error .ended
  | fuel + 1, lengths, s =>
    if wanted ≤ lengths.length then .ok (lengths, s)
    else do
      let (value, s) ← codeLength code s
      if value < 16 then codeLengths code wanted fuel (lengths ++ [value]) s
      else
        let (base, extra) := if value = 16 then (3, 2) else if value = 17 then (3, 3) else (11, 7)
        let (more, s) ← take extra s
        match (if value = 16 then lengths.getLast? else some 0) with
        | none => throw (.faulty .invalidRepeat)
        | some length =>
          let count := base + more
          if wanted < lengths.length + count then throw (.faulty .invalidRepeat)
          else codeLengths code wanted fuel (lengths ++ List.replicate count length) s

/-- Whether code lengths are usable: complete, or a single word of one bit, or no word at all. -/
def usable (lengths : List Nat) : Bool :=
  Code.complete lengths || lengths.all (· = 0) ||
    (Code.fits lengths && lengths.all (· ≤ 1))

/-- The codes that a block with codes of its own begins with. -/
def dynamicCodes (s : Stream) : Except Stop (Code × Code × Stream) := do
  let (header, s) ← take 14 s
  let literalCount := header % 32 + 257
  let distanceCount := header / 32 % 32 + 1
  let lengthCount := header / 1024 + 4
  if 286 < literalCount || 30 < distanceCount then throw (.faulty .tooManySymbols)
  else
    let (placed, s) ← placedLengths (lengthOrder.take lengthCount) s
    let own := (List.range 19).map fun place => (placed.lookup place).getD 0
    if !(Code.complete own || own.all (· = 0)) then throw (.faulty .invalidLengthCode)
    else
      let wanted := literalCount + distanceCount
      let (lengths, s) ← codeLengths (Code.ofLengths own) wanted (wanted + 1) [] s
      let literals := lengths.take literalCount
      let distances := lengths.drop literalCount
      if literals.getD 256 0 = 0 then throw (.faulty .missingEndOfBlock)
      else if !usable literals then throw (.faulty .invalidLiteralLengths)
      else if !usable distances then throw (.faulty .invalidDistanceLengths)
      else return (Code.ofLengths literals, Code.ofLengths distances, s)

/-- Blocks up to the one marked as the last. Each takes at least three bits. -/
def blocks : Nat → Array UInt8 → Stream → Except Stop (Array UInt8 × Stream)
  | 0, _, _ => .error .ended
  | fuel + 1, output, s => do
    let (last, s) ← take 1 s
    let (kind, s) ← take 2 s
    let (output, s) ←
      match kind with
      | 0 => stored output s
      | 1 =>
        block (Code.ofLengths fixedLiterals) (Code.ofLengths fixedDistances) (s.size + 1) output s
      | 2 => do
        let (literals, distances, s) ← dynamicCodes s
        block literals distances (s.size + 1) output s
      | _ => throw (.faulty .invalidBlockType)
    if last = 1 then return (output, s) else blocks fuel output s

end Inflate

def inflate (input : Bytes) : Except Inflate.Stop (Bytes × Bytes) := do
  let s := Stream.ofBytes input
  let (output, s) ← Inflate.blocks (s.size + 1) #[] s
  return (output.toList, s.aligned.bytes)

end SimTriage.Gzip
