import SimTriage.Text.Caseless

/-!
Paths: where they start, and the names from there on. Reading a path drops empty names and single
dots; double dots stay, since what they mean depends on links.
-/

set_option autoImplicit false

namespace SimTriage.File

/-- Where a path starts. Exactly two slashes are a root of their own. -/
inductive Root
  | here
  | slash
  | doubleSlash
deriving DecidableEq, Repr

structure Path where
  root : Root
  names : List Text
deriving DecidableEq, Repr

def dot : Text := ['.']

def doubleDot : Text := ['.', '.']

namespace Root

def ofText : Text → Root
  | '/' :: '/' :: '/' :: _ => .slash
  | '/' :: '/' :: _ => .doubleSlash
  | '/' :: _ => .slash
  | _ => .here

def text : Root → Text
  | .here => []
  | .slash => "/"
  | .doubleSlash => "//"

end Root

namespace Path

/-- The names between slashes, empty ones included. -/
def split (text : Text) : List Text := Text.splitOn '/' text

/-- A name that leads nowhere else. -/
def isIdle (name : Text) : Bool := name = [] || name = dot

def ofText (text : Text) : Path :=
  ⟨.ofText text, (split text).filter fun name => !isIdle name⟩

def text (path : Path) : Text :=
  if path.root = .here && path.names = [] then dot
  else path.root.text ++ Text.join "/" path.names

def isAbsolute (path : Path) : Bool := path.root ≠ .here

/-- The other path, as seen from `base` if it has no root. -/
def join (base other : Path) : Path :=
  if other.isAbsolute then other else ⟨base.root, base.names ++ other.names⟩

/-- `path` is `base` or below it. -/
def isUnder (path base : Path) : Bool :=
  path.root = base.root && base.names.isPrefixOf path.names

def name (path : Path) : Text := path.names.getLastD []

/-- One name without its suffix, and the suffix: from the last dot on, unless that is the first or
the last character. -/
def splitSuffix (name : Text) : Text × Text :=
  let ending := (name.reverse.takeWhile (· ≠ '.')).reverse
  let before := (name.reverse.dropWhile (· ≠ '.')).reverse
  if ending = [] || before.length ≤ 1 then (name, []) else (before.dropLast, '.' :: ending)

def suffix (path : Path) : Text := (splitSuffix path.name).2

/-- One more name. Double dots lead up; above a root they lead nowhere, and above a start without
root they stay. -/
def enter (path : Path) (name : Text) : Path :=
  if isIdle name then path
  else if name = doubleDot then
    match path.names.getLast? with
    | none => if path.isAbsolute then path else ⟨path.root, [doubleDot]⟩
    | some last =>
      if last = doubleDot then ⟨path.root, path.names ++ [doubleDot]⟩
      else ⟨path.root, path.names.dropLast⟩
  else ⟨path.root, path.names ++ [name]⟩

/-- The path with double dots taken by their names alone. -/
def normalize (path : Path) : Path := path.names.foldl enter ⟨path.root, []⟩

end Path

end SimTriage.File
