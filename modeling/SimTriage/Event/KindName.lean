import SimTriage.Event.Kind
import SimTriage.Failure
import SimTriage.Text.Blank
import SimTriage.Text.Caseless

/-!
Kinds of events by the names that users type: the label or the symbolic name, in any letter case,
where a hyphen or a space may stand for an underscore of the symbolic name.
-/

set_option autoImplicit false

namespace SimTriage.Event.Kind

/-- The kind whose label a stripped name is, up to letter case. -/
def byLabel? (name : Text) : Option Kind :=
  all.find? fun kind => Text.folded kind.label = Text.folded name

/-- The kind whose symbolic name a stripped name is, up to letter case and separators. -/
def byKey? (name : Text) : Option Kind :=
  ofKey? (Text.replaceChar ' ' '_' (Text.replaceChar '-' '_' (Text.upper name)))

/-- The kind that a name means. Labels are tried first. -/
def named? (name : Text) : Option Kind :=
  let stripped := Text.strip name
  (byLabel? stripped).orElse fun _ => byKey? stripped

/-- The kinds that names mean, in order. Blank names are passed over; a name that means nothing is
an error. -/
def resolve : List Text → Except Failure (List Kind)
  | [] => .ok []
  | name :: names =>
    if (Text.strip name).isEmpty then resolve names
    else
      match named? name with
      | none => .error (.unknownKindName name)
      | some kind => (kind :: ·) <$> resolve names

/-- A choice of kinds by name. Without a name that is not blank there is no choice, which is not
the choice of no kind. -/
def choose : Option (List Text) → Except Failure (Option (List Kind))
  | none => .ok none
  | some names => do
    let kinds ← resolve names
    return if kinds.isEmpty then none else some kinds

end SimTriage.Event.Kind
