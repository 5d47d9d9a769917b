import SimTriage.Failure
import SimTriage.File.System

/-!
Resolving paths: the path of a place without links on the way to it. Names behind a missing one are
taken as they are. A link that leads to itself cannot be replaced; the names from there on are then
taken as they are too, with double dots by their names alone.
-/

set_option autoImplicit false

namespace SimTriage.File

/-- Where and for whom paths are looked up: the files, the working directory, the home directory
if there is one, those of other accounts, and the setting of the base directory. -/
structure Environment where
  system : System
  here : Place
  home : Option Text
  accounts : List (Text × Text)
  baseSetting : Option Text
deriving DecidableEq, Repr

/-- Links met so far, with the path they resolved to; a link without one is being resolved. -/
abbrev Met := List (Path × Option Path)

/-- A path as far as it is resolved, or one that a link on the way to itself stopped. -/
inductive Progress
  | resolved (path : Path) (met : Met)
  | stopped (path : Path)

namespace Environment

def herePath (env : Environment) : Path := ⟨.slash, env.here⟩

/-- A path with names that have not been looked up behind it. Names that begin like an absolute
path are one. -/
def leave (path : Path) (names : List Text) : Path :=
  match names with
  | [] :: [] :: [] :: _ :: _ => ⟨.slash, names⟩
  | [] :: [] :: _ :: _ => ⟨.doubleSlash, names⟩
  | [] :: _ :: _ => ⟨.slash, names⟩
  | names => ⟨path.root, path.names ++ names⟩

/-- Resolves names behind a resolved path; `follow` resolves the names of a link behind the path of
its directory. -/
def resolveNames (env : Environment)
    (follow : Path → List Text → Met → Except Obstacle Progress) :
    List Text → Path → Met → Except Obstacle Progress
  | [], path, met => .ok (.resolved path met)
  | name :: names, path, met =>
    if Path.isIdle name || name = doubleDot then resolveNames env follow names (path.enter name) met
    else
      let next := path.enter name
      match env.system.linkTarget env.here next with
      | .error obstacle => .error obstacle
      | .ok none => resolveNames env follow names next met
      | .ok (some target) =>
        match met.lookup next with
        | some (some known) => resolveNames env follow names known met
        | some none => .ok (.stopped (leave next names))
        | none =>
          let start := if Root.ofText target = .here then path else ⟨.slash, []⟩
          match follow start (Path.split target) ((next, none) :: met) with
          | .error obstacle => .error obstacle
          | .ok (.stopped path) => .ok (.stopped (leave path names))
          | .ok (.resolved path met) =>
            resolveNames env follow names path ((next, some path) :: met)

/-- Resolves names behind a resolved path, where links may be nested so deep. -/
def resolveWithin (env : Environment) :
    Nat → Path → List Text → Met → Except Obstacle Progress
  | 0, path, names, met =>
    resolveNames env (fun path names _ => .ok (.stopped (leave path names))) names path met
  | depth + 1, path, names, met => resolveNames env (resolveWithin env depth) names path met

/-- How deep links can be nested: a link that is being resolved is not entered again, and there
are at most so many ways to write the path of one. -/
def nestingBound (env : Environment) : Nat := env.system.linkCount * (env.here.length + 2) + 1

/-- The resolved form of a path. A loop of links that is left in it is an error. -/
def resolve (env : Environment) (path : Path) : Except Failure Path := do
  let start : Path := if path.isAbsolute then ⟨.slash, []⟩ else ⟨.here, []⟩
  let reached ←
    match env.resolveWithin env.nestingBound start path.names [] with
    | .error _ => throw .zeroInPath
    | .ok (.resolved path _) => pure path
    | .ok (.stopped path) => pure path
  let final := (env.herePath.join reached).normalize
  match env.system.stat env.here final with
  | .error .tooManyLinks => throw (.linkLoop final.text)
  | .error .zeroByte => throw .zeroInPath
  | _ => return final

/-- Whether a path leads to a file. A name that is too long is an error, any other obstacle
means no. -/
def isFile (env : Environment) (path : Path) : Except Failure Bool :=
  match env.system.stat env.here path with
  | .ok (_, .file _) => .ok true
  | .error .nameTooLong => .error (.nameTooLong path.text)
  | _ => .ok false

def content (env : Environment) (path : Path) : Bytes :=
  match env.system.stat env.here path with
  | .ok (_, .file content) => content
  | _ => []

end Environment

end SimTriage.File
