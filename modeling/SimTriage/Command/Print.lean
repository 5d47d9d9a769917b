import SimTriage.Form

/-!
What the command line prints of a message: its entries or its summary, as lines or as JSON.
-/

set_option autoImplicit false

namespace SimTriage.Command

open Event (Entry Kind)

def line (text : Text) : Text := text ++ ['\n']

/-- The contract of an entry as its line has it. A hyphen stands for none, or for an empty one. -/
def contractField (entry : Entry) : Text :=
  match entry.contract with
  | none | some [] => "-"
  | some contract => contract

def topicsField (topics : List Text) : Text := "topics=[" ++ Text.join ", " topics ++ "]"

def entryText (entry : Entry) : Text :=
  Text.ofInt entry.index ++ ": [" ++ entry.kind.label ++ "] " ++ contractField entry ++ " " ++
    topicsField entry.topics ++ " data=" ++ entry.data

def entryLine (entry : Entry) : Text := line (entryText entry)

def foundText (count : Nat) : Text := "Found " ++ Text.ofNat count ++ " matching entries."

/-- The lines of a message: its headline, its entries, an empty line and their number. -/
def entriesLines (message : Message) : List Text :=
  [message.headline] ++ message.log.map entryText ++ [[], foundText message.log.length]

def hostErrorText (error : HostError) : Text := "host error: " ++ error.type ++ " " ++ error.code

def countsText (summary : Summary) : Text :=
  "entries: " ++ Text.ofNat summary.entryCount ++ " (failed: " ++ Text.ofNat summary.failedCount ++
    ", contract events: " ++ Text.ofNat summary.contractEventCount ++ ")"

def kindText (counted : Kind × Nat) : Text :=
  "  " ++ counted.1.label ++ ": " ++ Text.ofNat counted.2

def contractsText (contracts : List Text) : Text := "contracts: " ++ Text.join ", " contracts

/-- The lines of a summary: its headline, its host error if it has one, its counts, its kinds that
have entries, and its contracts if it has any. -/
def summaryLines (summary : Summary) : List Text :=
  [summary.headline] ++ summary.hostError.toList.map hostErrorText ++ [countsText summary] ++
    (summary.kindCounts.filter fun counted => counted.2 ≠ 0).map kindText ++
    if summary.contracts = [] then [] else [contractsText summary.contracts]

def printEntries (message : Message) : Text := (entriesLines message).flatMap line

def printSummary (summary : Summary) : Text := (summaryLines summary).flatMap line

def printJson (value : Json) : Text := line value.write

end SimTriage.Command
