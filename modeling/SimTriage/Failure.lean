import SimTriage.Event.Kind
import SimTriage.Gzip.Archive
import SimTriage.Schema.Shape
import SimTriage.Text.Caseless
import SimTriage.Text.Encoding

/-!
Why a request fails, by cause. The wording of each cause and the class of causes it belongs to are
functions of it.
-/

set_option autoImplicit false

namespace SimTriage

/-- The cause of a failure. Paths are given as they are shown. -/
inductive Failure
  | overlongNumeral (numeral : Text.OverlongNumeral)
  | limitNotPositive
  | limitVoid
  | partVoid
  | unknownKindName (name : Text)
  | unknownLabel (label : Text)
  | unknownKey (key : Text)
  | undecodable (fault : Text.Undecodable)
  | unknownEncoding (name : Text)
  | gzip (fault : Gzip.Fault)
  | messageFileMissing (path : Text)
  | fileMissing (path : Text)
  | nameTooLong (path : Text)
  | linkLoop (path : Text)
  | zeroInPath
  | noHome
  | outsideBase
  | suffixNotAllowed (allowed : List Text)
  | levelIsText (text : Text)
  | levelIsTable (entries : List (Text × Text × Text))
  | invalid (faults : List Schema.Fault)
deriving DecidableEq

namespace Failure

/-- The classes of causes that are told apart outside. -/
inductive Kind
  | value
  | key
  | type
  | lookup
  | runtime
  | system
  | missingFile
  | undecodable
  | badArchive
  | truncated
  | corruptStream
  | validation
deriving DecidableEq, Repr

def kind : Failure → Kind
  | .overlongNumeral _ | .limitNotPositive | .unknownKindName _ | .unknownLabel _ | .zeroInPath
  | .outsideBase | .suffixNotAllowed _ | .levelIsText _ => .value
  | .unknownKey _ => .key
  | .undecodable _ => .undecodable
  | .unknownEncoding _ => .lookup
  | .gzip .ended => .truncated
  | .gzip (.deflate _) => .corruptStream
  | .gzip _ => .badArchive
  | .messageFileMissing _ | .fileMissing _ => .missingFile
  | .nameTooLong _ => .system
  | .linkLoop _ | .noHome => .runtime
  | .levelIsTable _ | .limitVoid | .partVoid => .type
  | .invalid _ => .validation

/-- A table from one-letter styles to formatters and their default formats, as it is shown. -/
def tableText (entries : List (Text × Text × Text)) : Text :=
  let entry (e : Text × Text × Text) : Text :=
    Text.quoted e.1 ++ ": (<class '" ++ e.2.1 ++ "'>, " ++ Text.quoted e.2.2 ++ ")"
  "\x7b" ++ Text.join ", " (entries.map entry) ++ "\x7d"

def message : Failure → Text
  | .overlongNumeral numeral => numeral.message
  | .limitNotPositive => "limit must be > 0"
  | .limitVoid => "'<=' not supported between instances of 'list' and 'int'"
  | .partVoid => "'in <string>' requires string as left operand, not list"
  | .unknownKindName name =>
    "Unknown event type '" ++ name ++ "'. Valid values: " ++
      Text.join ", " (Event.Kind.all.map fun kind => Text.lower kind.key) ++ "."
  | .unknownLabel label => Text.quoted label ++ " is not a valid EventType"
  | .unknownKey key => Text.quoted key
  | .undecodable fault => fault.message
  | .unknownEncoding name => "unknown encoding: " ++ name
  | .gzip fault => fault.message
  | .messageFileMissing path => "Message file not found: " ++ path
  | .fileMissing path => "File not found: " ++ path
  | .nameTooLong path => "[Errno 36] File name too long: " ++ Text.quoted path
  | .linkLoop path => "Symlink loop from " ++ Text.quoted path
  | .zeroInPath => "embedded null byte"
  | .noHome => "Could not determine home directory."
  | .outsideBase => "Path escapes base dir"
  | .suffixNotAllowed allowed =>
    "File type not allowed. Allowed: " ++ Text.join ", " allowed ++ "."
  | .levelIsText text => "Unknown level: " ++ Text.quoted text
  | .levelIsTable entries => "Level not an integer or a valid string: " ++ tableText entries
  | .invalid faults => Text.join ", " (faults.map fun fault => fault.cause.code)

end Failure

instance : MonadLift (Except Text.OverlongNumeral) (Except Failure) where
  monadLift
    | .ok value => .ok value
    | .error numeral => .error (.overlongNumeral numeral)

instance : MonadLift (Except Text.Undecodable) (Except Failure) where
  monadLift
    | .ok value => .ok value
    | .error fault => .error (.undecodable fault)

instance : MonadLift (Except Gzip.Fault) (Except Failure) where
  monadLift
    | .ok value => .ok value
    | .error fault => .error (.gzip fault)

end SimTriage
