import SimTriage.File.Access

/-!
The resources that can be asked for by address: a help text, a sample message, the published
shapes, and files below the base directory.
-/

set_option autoImplicit false

namespace SimTriage

inductive Resource
  | help
  | sample
  | parsedErrorSchema
  | errorSummarySchema
  | file (request : Text)
deriving DecidableEq

namespace Resource

/-- What the addresses of resources that are not files begin with. -/
def addressStart : Text := "app://soroban-error-triage/"

def addressed : List (Text × Resource) :=
  [(addressStart ++ "help", .help),
   (addressStart ++ "examples/simulation-error", .sample),
   (addressStart ++ "schemas/parsed-error", .parsedErrorSchema),
   (addressStart ++ "schemas/error-summary", .errorSummarySchema)]

def fileAddress : Text := "file://\x7bpath\x7d"

/-- The resource of that address; the file address needs a path. -/
def named? (address : Text) (path : Option Text) : Option Resource :=
  if address = fileAddress then path.map .file else addressed.lookup address

def sampleText : Text :=
  "Transaction simulation failed: \"HostError: Error(WasmVm, InvalidAction)\"\n" ++
  "\n" ++
  "Event log (newest first):\n" ++
  "   0: [Diagnostic Event] contract:CONTRACT_A, topics:[error, " ++
  "Error(WasmVm, InvalidAction)], data:\"escalating error to VM trap from failed host " ++
  "function call: call\"\n" ++
  "   1: [Failed Diagnostic Event (not emitted)] contract:CONTRACT_B, topics:[error, " ++
  "Error(WasmVm, InvalidAction)], data:[\"VM call trapped: UnreachableCodeReached\", repay]\n" ++
  "   2: [Failed Contract Event (not emitted)] contract:CONTRACT_B, topics:[[Accrual], " ++
  "\"updated\"], data:10000260\n" ++
  "   3: [Contract Event] contract:CONTRACT_A, topics:[Loan, updated], data:[Loan, " ++
  "\x7bborrower_address: ADDRESS, nonce: 3\x7d]\n" ++
  "   4: [Diagnostic Event] topics:[fn_call, CONTRACT_A, repay], data:[" ++
  "\x7bborrower_address: ADDRESS, nonce: 3\x7d, 2368612289]\n"

def helpText (base : File.Path) : Text :=
  let line (address : Text) : Text := "- " ++ address ++ "\n"
  "Resources:\n" ++ (addressed.map fun entry => line entry.1).flatten ++
    "- " ++ fileAddress ++ " (restricted to " ++ File.Environment.baseVariable ++
    "; allowed: " ++ Text.join ", " File.Environment.allowedSuffixes ++ ", .gz)\n" ++
    "\nBase directory: " ++ base.text ++ "\n"

/-- What a resource holds: a text, or a document. -/
def read (validator : Schema.Validator) (env : File.Environment) :
    Resource → Except Failure Json
  | .help => do
    let base ← env.base
    return .string (helpText base)
  | .sample => .ok (.string sampleText)
  | .parsedErrorSchema => .ok (validator.document Schema.parsedError)
  | .errorSummarySchema => .ok (validator.document Schema.errorSummary)
  | .file request => do
    let text ← env.readRequested request
    return .string text

end Resource

end SimTriage
