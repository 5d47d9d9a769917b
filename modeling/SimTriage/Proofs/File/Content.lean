import SimTriage.Proofs.File.MessageFile
import SimTriage.Proofs.Text.Encoding

/-!
The bytes that a message file holds, as they are or compressed. Whatever turns bytes into text, the
text of a file depends on these bytes alone.
-/

set_option autoImplicit false

namespace SimTriage.File.Environment

/-- There is a file of that name and it holds the bytes. -/
structure Stores (env : Environment) (name : Text) (bytes : Bytes) : Prop where
  isFile : env.isFile (.ofText name) = .ok true
  unpacked : unpack (isCompressed (.ofText name)) (env.content (.ofText name)) = .ok bytes

variable {env : Environment} {name : Text} {bytes : Bytes}

theorem Stores.readText_eq (stores : env.Stores name bytes) (codec : Codec) :
    env.readText name codec = codec >>= fun decode => Text.unifyNewlines <$> decode bytes := by
  simp only [readText, readTextAs, decode, stores.isFile, stores.unpacked]
  rfl

/-- A file in UTF-8 with broken pieces replaced always has a text. -/
theorem Stores.readText_standard (stores : env.Stores name bytes) :
    env.readText name = .ok (Text.unifyNewlines (Text.shown bytes)) := by
  rw [stores.readText_eq]
  change Text.unifyNewlines <$> (liftM (Text.decode .utf8 .replace bytes) : Except Failure Text) = _
  rw [Text.decode_replace]
  rfl

end SimTriage.File.Environment
