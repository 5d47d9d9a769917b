import SimTriage.Gzip.Bits

/-!
Prefix codes, given by the code length of each symbol: shorter codes come first, and codes of one
length ascend with their symbols. A code is a binary tree; a place where no code word ends is a
hole.
-/

set_option autoImplicit false

namespace SimTriage.Gzip

inductive Code
  | hole
  | symbol (value : Nat)
  | branch (left right : Code)
deriving DecidableEq

namespace Code

def maxLength : Nat := 15

/-- The part of all words of `maxLength` bits that begin with a code word, in such words. -/
def covered : List Nat → Nat
  | [] => 0
  | 0 :: lengths => covered lengths
  | length :: lengths => 1 <<< (maxLength - length) + covered lengths

/-- No two code words collide. -/
def fits (lengths : List Nat) : Bool := covered lengths ≤ 1 <<< maxLength

/-- Every sequence of bits begins with a code word. -/
def complete (lengths : List Nat) : Bool := covered lengths = 1 <<< maxLength

/-- The symbols whose words have the given length, in ascending order. -/
def symbolsOf (lengths : List Nat) (length : Nat) : List Nat :=
  (lengths.zipIdx.filter fun entry => entry.1 = length).map (·.2)

/-- The word `value` of `length` bits leads to `target`. -/
def insert (target : Nat) : Nat → Nat → Code → Code
  | 0, _, _ => .symbol target
  | length + 1, value, code =>
    let (left, right) :=
      match code with
      | .branch left right => (left, right)
      | _ => (.hole, .hole)
    if value.testBit length then .branch left (insert target length value right)
    else .branch (insert target length value left) right

/-- Gives the symbols consecutive words of `length` bits, from `value` on. -/
def insertAll (length : Nat) : Nat → List Nat → Code → Code
  | _, [], code => code
  | value, target :: targets, code =>
    insertAll length (value + 1) targets (insert target length value code)

/-- Adds the words of `count` further lengths; `value` is the first word free at the last one. -/
def grow (lengths : List Nat) : Nat → Nat → Nat → Code → Code
  | 0, _, _, code => code
  | count + 1, length, value, code =>
    let symbols := symbolsOf lengths (length + 1)
    grow lengths count (length + 1) (2 * value + symbols.length)
      (insertAll (length + 1) (2 * value) symbols code)

/-- The code with the given lengths; a symbol of length zero has no word. Without any word the code
has a single bit to read, which leads nowhere. -/
def ofLengths (lengths : List Nat) : Code :=
  grow lengths maxLength 0 0 (.branch .hole .hole)

/-- What the next bits say: a symbol, a hole, or that the bits end too soon. -/
inductive Outcome
  | found (value : Nat) (rest : Stream)
  | invalid (rest : Stream)
  | ended

def read : Code → Stream → Outcome
  | .hole, s => .invalid s
  | .symbol value, s => .found value s
  | .branch left right, s =>
    match s.next? with
    | none => .ended
    | some (false, s) => left.read s
    | some (true, s) => right.read s

end Code

end SimTriage.Gzip
