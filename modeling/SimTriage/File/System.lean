import SimTriage.File.Path
import SimTriage.Text.Utf8

/-!
File systems as values, and how a path is followed through one: name by name, where links are
replaced by what they lead to, up to a number of links.
-/

set_option autoImplicit false

namespace SimTriage.File

inductive Node
  | file (content : Bytes)
  | directory
  | link (target : Text)
deriving DecidableEq, Repr

def Node.isLink : Node → Bool
  | .link _ => true
  | .file _ | .directory => false

/-- The names from the root to a place, all of which but the last are directories. -/
abbrev Place := List Text

/-- A file system: what stands where. The root is a directory in any case. -/
structure System where
  nodes : List (Place × Node)
deriving DecidableEq, Repr

/-- Why a path leads nowhere. -/
inductive Obstacle
  | missing
  | notDirectory
  | nameTooLong
  | tooManyLinks
  | zeroByte
deriving DecidableEq, Repr

/-- A name has at most so many bytes. -/
def maxNameSize : Nat := 255

/-- A written path has fewer bytes. -/
def maxPathSize : Nat := 4096

/-- At most so many links are followed on one way. -/
def maxLinks : Nat := 40

namespace System

def node? (system : System) : Place → Option Node
  | [] => some .directory
  | place => system.nodes.lookup place

/-- The file system in which a path leads from `here` to a file, by way of directories only. -/
def ofFile (here : Place) (path : Path) (content : Bytes) : System :=
  let place (count : Nat) : Place :=
    (Path.join ⟨.slash, here⟩ ⟨path.root, path.names.take count⟩).normalize.names
  let directories := (List.range path.names.length).map fun count => (place count, Node.directory)
  ⟨directories ++ [(place path.names.length, .file content)]⟩

/-- The places at which links stand, each of them once. -/
def linkPlaces (system : System) : List Place :=
  (system.nodes.map Prod.fst).eraseDups.filter fun place => (system.node? place).any Node.isLink

def linkCount (system : System) : Nat := system.linkPlaces.length

/-- Where the names lead from a directory. Behind the last name may stand a link, which is followed
if `final` says so; `follow` goes on from a directory along the names of a link and those after it.
-/
def walk (system : System) (final : Bool)
    (follow : Place → List Text → Except Obstacle (Place × Node)) :
    List Text → Place → Except Obstacle (Place × Node)
  | [], here => .ok (here, .directory)
  | name :: names, here =>
    if Path.isIdle name then walk system final follow names here
    else if name = doubleDot then walk system final follow names here.dropLast
    else if maxNameSize < (Text.Utf8.encode name).length then .error .nameTooLong
    else
      match system.node? (here ++ [name]) with
      | none => .error .missing
      | some .directory => walk system final follow names (here ++ [name])
      | some (.file content) =>
        if names = [] then .ok (here ++ [name], .file content) else .error .notDirectory
      | some (.link target) =>
        if names = [] && !final then .ok (here ++ [name], .link target)
        else
          follow (if (Root.ofText target) = .here then here else [])
            (Path.split target ++ names)

/-- Where the names lead from a directory, if so many links may be followed. -/
def walkWithin (system : System) (final : Bool) : Nat → Place → List Text →
    Except Obstacle (Place × Node)
  | 0, here, names => walk system final (fun _ _ => .error .tooManyLinks) names here
  | links + 1, here, names => walk system final (walkWithin system final links) names here

/-- Where a path leads from the directory `here`, and what stands there. -/
def find (system : System) (here : Place) (final : Bool) (path : Path) :
    Except Obstacle (Place × Node) :=
  let text := path.text
  if text.contains '\x00' then .error .zeroByte
  else if maxPathSize ≤ (Text.Utf8.encode text).length then .error .nameTooLong
  else
    walkWithin system final maxLinks (if path.isAbsolute then [] else here) path.names

/-- What a path leads to in the end. -/
def stat (system : System) (here : Place) (path : Path) : Except Obstacle (Place × Node) :=
  system.find here true path

/-- The target of the link that a path leads to. Without a link there is none, whatever else is
there; only a zero byte in the path is an obstacle. -/
def linkTarget (system : System) (here : Place) (path : Path) : Except Obstacle (Option Text) :=
  match system.find here false path with
  | .ok (_, .link target) => .ok (some target)
  | .error .zeroByte => .error .zeroByte
  | _ => .ok none

end System

end SimTriage.File
