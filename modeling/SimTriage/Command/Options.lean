import SimTriage.Event.KindName
import SimTriage.Text.Integer

/-!
The options of the command line. An option may be shortened to any beginning that no other option
shares, its value may follow it or stand behind an equals sign, and the last value counts. Two
hyphens end the options; attached to an option in place of a value, they leave it without one.
-/

set_option autoImplicit false

namespace SimTriage.Command

/-- What an option with a value was given: the value, or the mark that leaves it without one. -/
inductive Operand (α : Type)
  | value (value : α)
  | void
deriving DecidableEq, Repr

structure Options where
  source : Text := "-"
  kinds : Option (Operand (List Event.Kind)) := none
  contract : Option (Operand Text) := none
  part : Option (Operand Text) := none
  failedOnly : Bool := false
  limit : Option (Operand Int) := none
  asJson : Bool := false
  summary : Bool := false
  serve : Bool := false
deriving DecidableEq, Repr

inductive Switch
  | help
  | kinds
  | contract
  | part
  | failedOnly
  | limit
  | json
  | summary
  | serve
deriving DecidableEq, Repr

namespace Switch

/-- Every option, in the order of the usage text. -/
def all : List Switch :=
  [.help, .kinds, .contract, .part, .failedOnly, .limit, .json, .summary, .serve]

def name : Switch → Text
  | .help => "--help"
  | .kinds => "--types"
  | .contract => "--contract"
  | .part => "--contains"
  | .failedOnly => "--failed-only"
  | .limit => "--limit"
  | .json => "--json"
  | .summary => "--summary"
  | .serve => "--serve"

/-- All names, as an error names the option. -/
def title : Switch → Text
  | .help => "-h/--help"
  | other => other.name

def takesValue : Switch → Bool
  | .kinds | .contract | .part | .limit => true
  | .help | .failedOnly | .json | .summary | .serve => false

def exactly? (text : Text) : Option Switch :=
  if text = "-h" then some .help else all.find? fun switch => switch.name = text

/-- The options whose long names begin so. -/
def startingWith (start : Text) : List Switch :=
  all.filter fun switch => start.isPrefixOf switch.name

end Switch

/-- An option as it is written: whether under its long name, and with which text attached. -/
structure Given where
  switch : Switch
  long : Bool
  attached : Option Text
deriving DecidableEq, Repr

/-- One argument: a word, the mark that ends the options, an option, or something that looks like
one. -/
inductive Argument
  | word (text : Text)
  | mark
  | option (given : Given)
  | unknown (text : Text)
deriving DecidableEq, Repr

inductive Misuse
  | ambiguous (text : Text) (candidates : List Switch)
  | option (switch : Switch) (reason : Text)
  | unrecognized (words : List Text)
deriving DecidableEq, Repr

namespace Misuse

def message : Misuse → Text
  | .ambiguous text candidates =>
    "ambiguous option: " ++ text ++ " could match " ++ Text.join ", " (candidates.map Switch.name)
  | .option switch reason => "argument " ++ switch.title ++ ": " ++ reason
  | .unrecognized words => "unrecognized arguments: " ++ Text.join " " words

end Misuse

namespace Argument

/-- A negative number: digits of any script, perhaps with a point before the last ones, and perhaps
a line feed at the end. -/
def isNegativeNumber (text : Text) : Bool :=
  match Text.dropFinalNewline text with
  | '-' :: number =>
    let isDecimal (c : Char) : Bool := (Text.decimalDigit? c).isSome
    match number.span isDecimal with
    | (digits, []) => !digits.isEmpty
    | (_, '.' :: places) => !places.isEmpty && places.all isDecimal
    | _ => false
  | _ => false

/-- A text that begins with a hyphen and is no option: a word if it is a negative number or holds a
space. -/
def other (text : Text) : Argument :=
  if isNegativeNumber text || text.contains ' ' then .word text else .unknown text

/-- The name before an equals sign, and the value after it if there is one. -/
def splitValue (text : Text) : Text × Option Text :=
  match text.span (· ≠ '=') with
  | (name, _ :: value) => (name, some value)
  | (name, []) => (name, none)

def classify (text : Text) : Except Misuse Argument :=
  let (name, attached) := splitValue text
  match text with
  | '-' :: next :: rest =>
    match Switch.exactly? text with
    | some switch => .ok (.option ⟨switch, next = '-', none⟩)
    | none =>
      match Switch.exactly? name with
      | some switch => .ok (.option ⟨switch, next = '-', attached⟩)
      | none =>
        if next = '-' then
          match Switch.startingWith name with
          | [] => .ok (other text)
          | [switch] => .ok (.option ⟨switch, true, attached⟩)
          | candidates => .error (.ambiguous text candidates)
        else if next = 'h' then .ok (.option ⟨.help, false, some rest⟩)
        else .ok (other text)
  | _ => .ok (.word text)

/-- What the arguments are. Behind the mark there are only words. -/
def classifyAll : List Text → Except Misuse (List Argument)
  | [] => .ok []
  | text :: texts =>
    if text = "--" then .ok (.mark :: texts.map .word)
    else do
      let argument ← classify text
      let arguments ← classifyAll texts
      return argument :: arguments

/-- The argument as it was written, for those that no option takes. -/
def text : Argument → Text
  | .word text => text
  | .mark => "--"
  | .option given => given.switch.name
  | .unknown text => text

end Argument

/-- What following a command line leads to. -/
inductive Request
  | help
  | run (options : Options)
deriving DecidableEq, Repr

namespace Request

/-- The kinds that a list of names between commas means; there has to be one. -/
def readKinds (text : Text) : Except Text (List Event.Kind) :=
  match Event.Kind.choose (some (Text.splitOn ',' text)) with
  | .error failure => .error failure.message
  | .ok none => .error "At least one event type must be provided"
  | .ok (some kinds) => .ok kinds

/-- A positive limit. -/
def readLimit (text : Text) : Except Text Int :=
  match Text.readInteger? text with
  | none => .error ("invalid _positive_int value: " ++ Text.quoted text)
  | some limit => if limit ≤ 0 then .error "must be > 0" else .ok limit

/-- A text that a switch cannot take along. -/
def refuseAttached (switch : Switch) (text : Text) : Misuse :=
  .option switch ("ignored explicit argument " ++ Text.quoted text)

def operand {α : Type} (switch : Switch) (read : Text → Except Text α) (text : Text) :
    Except Misuse (Operand α) :=
  match read text with
  | .ok value => .ok (.value value)
  | .error reason => .error (.option switch reason)

def setValue (options : Options) (switch : Switch) (text : Text) : Except Misuse Options :=
  match switch with
  | .kinds => return { options with kinds := ← operand .kinds readKinds text }
  | .contract => return { options with contract := some (.value text) }
  | .part => return { options with part := some (.value text) }
  | .limit => return { options with limit := ← operand .limit readLimit text }
  | _ => .error (refuseAttached switch text)

/-- The options after a switch that is left without its value. -/
def setVoid (options : Options) : Switch → Options
  | .kinds => { options with kinds := some .void }
  | .contract => { options with contract := some .void }
  | .part => { options with part := some .void }
  | .limit => { options with limit := some .void }
  | _ => options

def setFlag (options : Options) : Switch → Options
  | .failedOnly => { options with failedOnly := true }
  | .json => { options with asJson := true }
  | .summary => { options with summary := true }
  | .serve => { options with serve := true }
  | _ => options

/-- The short help option may be repeated in one argument; no other letter may follow it. -/
def checkRepeated (attached : Text) : Except Misuse Unit :=
  match attached, attached.dropWhile (· = 'h') with
  | _ :: _, [] => .ok ()
  | _, left => .error (refuseAttached .help left)

/-- What remains to be read, and what has been read: the options, whether the source is among them,
and the words that nothing takes. -/
structure Reading where
  options : Options
  hasSource : Bool
  extra : List Text

/-- The end of a command line behind all options: the source, if it is still open, and words that
nothing takes. The mark next to the source belongs to it. -/
def finish (reading : Reading) (arguments : List Argument) : Except Misuse Request :=
  let (options, rest) : Options × List Argument :=
    if reading.hasSource then (reading.options, arguments)
    else
      match arguments with
      | .mark :: .word source :: rest => ({ reading.options with source }, rest)
      | .mark :: rest => (reading.options, rest)
      | .word source :: .mark :: rest => ({ reading.options with source }, rest)
      | .word source :: rest => ({ reading.options with source }, rest)
      | rest => (reading.options, rest)
  match reading.extra ++ rest.map Argument.text with
  | [] => .ok (.run options)
  | words => .error (.unrecognized words)

def isOption : Argument → Bool
  | .option _ | .unknown _ => true
  | .word _ | .mark => false

def follow : Reading → List Argument → Except Misuse Request
  | reading, [] => finish reading []
  | reading, .mark :: arguments => finish reading (.mark :: arguments)
  | reading, .unknown text :: arguments =>
    follow { reading with extra := reading.extra ++ [text] } arguments
  | reading, .word text :: arguments =>
    if !arguments.any isOption then finish reading (.word text :: arguments)
    else if reading.hasSource then
      follow { reading with extra := reading.extra ++ [text] } arguments
    else
      follow { reading with options := { reading.options with source := text }, hasSource := true }
        arguments
  | reading, .option given :: arguments =>
    if given.switch.takesValue then
      match given.attached, arguments with
      | some text, arguments =>
        if text = "--" then
          follow { reading with options := setVoid reading.options given.switch } arguments
        else do
          let options ← setValue reading.options given.switch text
          follow { reading with options } arguments
      | none, .word text :: arguments => do
        let options ← setValue reading.options given.switch text
        follow { reading with options } arguments
      | none, _ => .error (.option given.switch "expected one argument")
    else
      match given.attached with
      | none =>
        if given.switch = .help then .ok .help
        else follow { reading with options := setFlag reading.options given.switch } arguments
      | some text =>
        if given.long then .error (refuseAttached given.switch text)
        else do
          checkRepeated text
          return .help

def ofArguments (texts : List Text) : Except Misuse Request := do
  let arguments ← Argument.classifyAll texts
  follow ⟨{}, false, []⟩ arguments

end Request

end SimTriage.Command
