import SimTriage.Command.Run
import SimTriage.File.Access

/-!
The command line: hands arguments and content to `SimTriage.Command.run` and prints what comes back.
-/

set_option autoImplicit false

namespace SimTriage.Program

/-- Everything that a stream still holds, behind what has been read of it. -/
partial def readAll (stream : IO.FS.Stream) (before : ByteArray) : IO ByteArray := do
  let chunk ← stream.read 65536
  if chunk.isEmpty then return before else readAll stream (before ++ chunk)

/-- The files that a source needs: none for standard input, else the one that it names, if that can
be read. -/
def systemFor (source : Text) : IO File.System := do
  if source = "-" then return ⟨[]⟩
  try
    let content ← IO.FS.readBinFile (String.ofList source)
    return .ofFile [] (.ofText source) content.toList
  catch _ => return ⟨[]⟩

/-- Standard input, if the source is that, with its line ends as they are. -/
def inputFor (source : Text) : IO Command.Input := do
  if source = "-" then return ⟨(← readAll (← IO.getStdin) .empty).toList, .kept⟩
  else return ⟨[], .kept⟩

def conclude : Command.Outcome → IO UInt32
  | .finished result => do
    IO.print (String.ofList result.output)
    IO.eprint (String.ofList result.complaints)
    return result.exitCode.toUInt32
  | .escaped failure => do
    IO.eprintln (String.ofList failure.message)
    return 1
  | .served => do
    IO.eprintln "no server is built in"
    return 1

end SimTriage.Program

open SimTriage in
def main (arguments : List String) : IO UInt32 := do
  let texts := arguments.map String.toList
  let source := (Command.sourceOf? texts).getD []
  let env : File.Environment := {
    system := ← Program.systemFor source
    here := []
    home := (← IO.getEnv "HOME").map String.toList
    accounts := []
    baseSetting := (← IO.getEnv (String.ofList File.Environment.baseVariable)).map String.toList
  }
  Program.conclude (Command.run env (← Program.inputFor source) texts)
