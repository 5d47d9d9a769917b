import SimTriage.File.Resolve
import SimTriage.Message

/-!
Reading messages from files, plain or compressed, by any codec.
-/

set_option autoImplicit false

namespace SimTriage.File

/-- A way to turn bytes into text, or why there is none. -/
abbrev Codec := Except Failure (Bytes → Except Failure Text)

namespace Codec

def ofEncoding (encoding : Text.Encoding) (onBroken : Text.OnBroken) : Codec :=
  .ok fun bytes => liftM (Text.decode encoding onBroken bytes)

def standard : Codec := ofEncoding .utf8 .replace

/-- The codec of that name, of those that are built in. -/
def named (encoding : Text) (onBroken : Text.OnBroken) : Codec :=
  match Text.Encoding.named? encoding with
  | some encoding => ofEncoding encoding onBroken
  | none => .error (.unknownEncoding encoding)

end Codec

namespace Environment

def isCompressed (path : Path) : Bool := Text.lower path.suffix = ".gz"

def unpack (compressed : Bool) (content : Bytes) : Except Gzip.Fault Bytes :=
  if compressed then Gzip.decompress content else .ok content

def decode (compressed : Bool) (codec : Codec) (content : Bytes) : Except Failure Text := do
  let decode ← codec
  let bytes ← unpack compressed content
  let text ← decode bytes
  return Text.unifyNewlines text

/-- The text of a message file that is opened as compressed or not. -/
def readTextAs (env : Environment) (compressed : Bool) (name : Text) (codec : Codec) :
    Except Failure Text := do
  let path := Path.ofText name
  if ← env.isFile path then decode compressed codec (env.content path)
  else throw (.messageFileMissing path.text)

def readText (env : Environment) (name : Text) (codec : Codec := .standard) :
    Except Failure Text :=
  env.readTextAs (isCompressed (.ofText name)) name codec

def readMessage (env : Environment) (name : Text) (codec : Codec := .standard) :
    Except Failure Message := do
  let text ← env.readText name codec
  Message.read text

end Environment

end SimTriage.File
