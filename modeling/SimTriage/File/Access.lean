import SimTriage.File.MessageFile
import SimTriage.Query

/-!
Access to files on request: only files below the base directory, and only those whose names end as
names of message files do.
-/

set_option autoImplicit false

namespace SimTriage.File.Environment

def baseVariable : Text := "SOROBAN_TRIAGE_BASE_DIR"

/-- The suffixes that message files may have, in front of `.gz` or at the end. -/
def allowedSuffixes : List Text := [".log", ".txt"]

/-- The base directory: the one that is set, or the working directory. -/
def base (env : Environment) : Except Failure Path :=
  env.resolve (match env.baseSetting with
    | some setting => .ofText setting
    | none => env.herePath)

/-- The home directory that a name such as `~` or `~user` means. One that begins with a tilde itself
is as good as none. -/
def homeOf (env : Environment) (name : Text) : Except Failure Text := do
  let home ←
    match name.drop 1 with
    | [] => pure env.home
    | user =>
      if user.contains '\x00' then throw .zeroInPath else pure (env.accounts.lookup user)
  match home.map fun home => (home.reverse.dropWhile (· = '/')).reverse with
  | none | some ('~' :: _) => throw .noHome
  | some [] => return "/"
  | some home => return home

/-- A path whose first name means a home directory is one below it. -/
def expandHome (env : Environment) (path : Path) : Except Failure Path :=
  match path.root, path.names with
  | .here, ('~' :: user) :: names => do
    let home ← env.homeOf ('~' :: user)
    let start := Path.ofText home
    return ⟨start.root, start.names ++ names⟩
  | _, _ => .ok path

/-- The suffix that decides whether a file may be read: the last one, or the one before `.gz`. -/
def effectiveSuffix (name : Text) : Text :=
  let (stem, suffix) := Path.splitSuffix name
  if Text.lower suffix = ".gz" then Text.lower (Path.splitSuffix stem).2 else Text.lower suffix

/-- The resolved path below the base directory that a request means. -/
def confine (env : Environment) (request : Text) : Except Failure Path := do
  let base ← env.base
  let path ← env.expandHome (.ofText request)
  let resolved ← env.resolve (base.join path)
  if resolved.isUnder base then return resolved else throw .outsideBase

def locate (env : Environment) (request : Text) : Except Failure Path := do
  let resolved ← env.confine request
  if !(← env.isFile resolved) then throw (.fileMissing resolved.text)
  else if allowedSuffixes.contains (effectiveSuffix resolved.name) then return resolved
  else throw (.suffixNotAllowed allowedSuffixes)

def readRequested (env : Environment) (request : Text) : Except Failure Text := do
  let path ← env.locate request
  env.readText path.text

def parseRequested (env : Environment) (validator : Schema.Validator) (request : Text)
    (query : Query) : Except Failure Json := do
  let path ← env.locate request
  let message ← env.readMessage path.text
  message.query validator query

end SimTriage.File.Environment
