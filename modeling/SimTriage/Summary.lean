import SimTriage.HostError
import SimTriage.Message

/-!
Summaries: counts of entries by kind, the contracts involved, and the host error of the headline.
-/

set_option autoImplicit false

namespace SimTriage

open Event (Entry Kind)

/-- A message in numbers. Contracts stand in the order of their first entries. -/
structure Summary where
  headline : Text
  entryCount : Nat
  failedCount : Nat
  contractEventCount : Nat
  kindCounts : List (Kind × Nat)
  contracts : List Text
  hostError : Option HostError
deriving DecidableEq, Repr

namespace Summary

/-- What has been counted so far. -/
structure Tally where
  kindCounts : Kind → Nat
  failed : Nat
  contractEvents : Nat
  contracts : List Text

namespace Tally

def empty : Tally := ⟨fun _ => 0, 0, 0, []⟩

def add (tally : Tally) (entry : Entry) : Tally where
  kindCounts kind :=
    if kind = entry.kind then tally.kindCounts kind + 1 else tally.kindCounts kind
  failed := if entry.kind.isFailed then tally.failed + 1 else tally.failed
  contractEvents :=
    if entry.kind.isContract then tally.contractEvents + 1 else tally.contractEvents
  contracts :=
    match entry.contract with
    | none => tally.contracts
    | some contract =>
      if tally.contracts.contains contract then tally.contracts
      else tally.contracts ++ [contract]

def ofLog (log : List Entry) : Tally := log.foldl add empty

end Tally

def ofMessage (message : Message) : Except Text.OverlongNumeral Summary := do
  let tally := Tally.ofLog message.log
  let hostError ← HostError.find message.headline
  return {
    headline := message.headline
    entryCount := message.log.length
    failedCount := tally.failed
    contractEventCount := tally.contractEvents
    kindCounts := Kind.all.map fun kind => (kind, tally.kindCounts kind)
    contracts := tally.contracts
    hostError := hostError
  }

end Summary

end SimTriage
