import SimTriage.Command.Options

/-!
The texts that explain the command line.
-/

set_option autoImplicit false

namespace SimTriage.Command

def programName : Text := "soroban-error-triage"

def usage : Text :=
  "usage: soroban-error-triage [-h] [--types TYPES] [--contract CONTRACT]\n" ++
  "                            [--contains CONTAINS] [--failed-only]\n" ++
  "                            [--limit LIMIT] [--json] [--summary] [--serve]\n" ++
  "                            [message_path]\n"

def helpText : Text :=
  usage ++
  "\n" ++
  "Parse failed Soroban transaction simulation messages.\n" ++
  "\n" ++
  "positional arguments:\n" ++
  "  message_path         Message file (.gz ok) or '-' for stdin\n" ++
  "\n" ++
  "options:\n" ++
  "  -h, --help           show this help message and exit\n" ++
  "  --types TYPES        Comma-separated event types (e.g.,\n" ++
  "                       contract_event,failed_diagnostic_event)\n" ++
  "  --contract CONTRACT  Only events from this contract id\n" ++
  "  --contains CONTAINS  Substring filter on topics and data\n" ++
  "  --failed-only        Only events that were not emitted\n" ++
  "  --limit LIMIT        Max entries to print (default: no cap)\n" ++
  "  --json               Print JSON instead of text\n" ++
  "  --summary            Print a summary instead of entries\n" ++
  "  --serve              Run the MCP server over stdio\n"

def complaint (misuse : Misuse) : Text :=
  usage ++ programName ++ ": error: " ++ misuse.message ++ "\n"

end SimTriage.Command
