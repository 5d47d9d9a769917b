import SimTriage.Event.Entry
import SimTriage.Failure

/-!
Filters on event logs: which entries pass, and how many of them at most.
-/

set_option autoImplicit false

namespace SimTriage

open Event (Entry Kind)

/-- A filter. What is not given does not restrict. -/
structure Filter where
  kinds : Option (List Kind) := none
  contract : Option Text := none
  part : Option Text := none
  failedOnly : Bool := false
  limit : Option Int := none
deriving DecidableEq, Repr

namespace Filter

def acceptsKind (f : Filter) (entry : Entry) : Bool :=
  match f.kinds with
  | none => true
  | some kinds => kinds.contains entry.kind

def acceptsContract (f : Filter) (entry : Entry) : Bool :=
  match f.contract with
  | none => true
  | some contract => entry.contract = some contract

/-- The part occurs in the data or in a single topic of the entry. -/
def acceptsPart (f : Filter) (entry : Entry) : Bool :=
  match f.part with
  | none => true
  | some part => Text.includes part entry.data || entry.topics.any (Text.includes part)

def accepts (f : Filter) (entry : Entry) : Bool :=
  f.acceptsKind entry && (!f.failedOnly || entry.kind.isFailed) && f.acceptsContract entry &&
    f.acceptsPart entry

/-- As many entries have been found as the limit allows. -/
def isFull (f : Filter) (found : Array Entry) : Bool :=
  match f.limit with
  | none => false
  | some limit => limit ≤ found.size

/-- Adds entries that pass to those found so far, and looks at no more of them once the limit is
reached. -/
def gather (f : Filter) (found : Array Entry) : List Entry → Array Entry
  | [] => found
  | entry :: entries =>
    if f.accepts entry then
      let found := found.push entry
      if f.isFull found then found else gather f found entries
    else gather f found entries

/-- The entries that pass, in order. A limit that is not positive is an error, and where there is no
kind to be of, no entry is looked at. -/
def apply (f : Filter) (entries : List Entry) : Except Failure (List Entry) :=
  if f.limit.any (· ≤ 0) then .error .limitNotPositive
  else if f.kinds = some [] then .ok []
  else .ok (f.gather #[] entries).toList

end Filter

end SimTriage
