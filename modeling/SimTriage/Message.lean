import SimTriage.Event.Entry

/-!
Messages of failed simulations: a headline, kept as it is, and the event log found in the lines
after it. Lines that are no entries are passed over.
-/

set_option autoImplicit false

namespace SimTriage

open Event (Entry)

structure Message where
  headline : Text
  log : List Entry
deriving DecidableEq, Repr

namespace Message

/-- The line that announces the event log. -/
def logHeader : Text := "Event log (newest first):"

/-- A line that cannot be an entry, whatever the reader makes of it: empty, or the header. -/
def isSkipped (line : Text) : Bool := line.isEmpty || line = logHeader

/-- The entries read so far. The latest one is pending until another is read or the lines end; those
before it are committed, the latest first. -/
structure Buffer where
  committed : List Entry
  pending : Option Entry
deriving DecidableEq, Repr

namespace Buffer

def empty : Buffer := ⟨[], none⟩

/-- The committed entries, with the pending one in front. -/
def commit (buffer : Buffer) : List Entry :=
  match buffer.pending with
  | none => buffer.committed
  | some entry => entry :: buffer.committed

/-- One more entry commits the pending one. -/
def accept (buffer : Buffer) (entry : Entry) : Buffer := ⟨buffer.commit, some entry⟩

end Buffer

/-- Reads lines in order into a buffer and gives all its entries, in order. -/
def collect {m : Type → Type} [Monad m] (read : Text → m (Option Entry)) :
    Buffer → List Text → m (List Entry)
  | buffer, [] => pure buffer.commit.reverse
  | buffer, raw :: lines => do
    let line := Text.strip raw
    if isSkipped line then collect read buffer lines
    else
      match ← read line with
      | none => collect read buffer lines
      | some entry => collect read (buffer.accept entry) lines

/-- Reads a message with any reader of entries, which may have effects of its own. -/
def readWith {m : Type → Type} [Monad m] (read : Text → m (Option Entry)) (text : Text) :
    m Message := do
  let lines := Text.splitOn '\n' text
  let log ← collect read .empty lines.tail
  return ⟨lines.headD [], log⟩

def read (text : Text) : Except Text.OverlongNumeral Message := readWith Entry.read text

/-- What the reader was handed and what it made of it. -/
structure Step where
  line : Text
  entry : Option Entry
deriving DecidableEq, Repr

/-- Reads a message and records every line that was read as an entry, in order. -/
def trace (text : Text) : Except Text.OverlongNumeral (Message × List Step) :=
  let recorded (line : Text) : StateT (List Step) (Except Text.OverlongNumeral) (Option Entry) := do
    let entry ← Entry.read line
    modify (⟨line, entry⟩ :: ·)
    return entry
  return ((← (readWith recorded text).run []).map id List.reverse)

end Message

end SimTriage
