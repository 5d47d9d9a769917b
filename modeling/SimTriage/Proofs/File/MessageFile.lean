import SimTriage.File.MessageFile
import SimTriage.Proofs.Failure

/-!
Why the text of a message file cannot be had: its path, its compression, or its encoding.
-/

set_option autoImplicit false

namespace SimTriage.File.Environment

variable {env : Environment} {path : Path} {source : Text} {encoding : Text.Encoding}
variable {onBroken : Text.OnBroken} {codec : Codec} {content : Bytes} {failure : Failure}

theorem decode_plain (codec : Codec) (content : Bytes) :
    decode false codec content =
      codec >>= fun decode => Text.unifyNewlines <$> decode content := by
  cases codec <;> rfl

/-- What is compressed is read as if it had been there unpacked, if there is a codec to read it
with. -/
theorem decode_compressed (f : Bytes → Except Failure Text) (content : Bytes) :
    decode true (.ok f) content =
      (liftM (Gzip.decompress content) : Except Failure Bytes) >>= decode false (.ok f) := rfl

theorem decode_plain_eq_error_iff :
    decode false (.ofEncoding encoding onBroken) content = .error failure ↔
      ∃ fault, Text.decode encoding onBroken content = .error fault ∧
        failure = .undecodable fault := by
  rw [decode_plain, Codec.ofEncoding]
  exact map_eq_error_iff.trans liftM_undecodable_eq_error_iff

theorem decode_compressed_eq_error_iff :
    decode true (.ofEncoding encoding onBroken) content = .error failure ↔
      (∃ fault, Gzip.decompress content = .error fault ∧ failure = .gzip fault) ∨
      ∃ bytes, Gzip.decompress content = .ok bytes ∧
        decode false (.ofEncoding encoding onBroken) bytes = .error failure := by
  rw [Codec.ofEncoding, decode_compressed, bind_eq_error_iff, liftM_gzip_eq_error_iff]
  simp only [liftM_gzip_eq_ok_iff]

theorem isFile_eq_error_iff :
    env.isFile path = .error failure ↔
      env.system.stat env.here path = .error .nameTooLong ∧ failure = .nameTooLong path.text := by
  unfold isFile
  split
  · rename_i reached
    simp [reached]
  · rename_i reached
    simp [reached, eq_comm]
  · rename_i other
    simp only [reduceCtorEq, false_iff]
    exact fun tooLong => other tooLong.1

theorem readText_eq_error_iff :
    env.readText source codec = .error failure ↔
      env.isFile (.ofText source) = .error failure ∨
      (env.isFile (.ofText source) = .ok false ∧
        failure = .messageFileMissing (Path.ofText source).text) ∨
      (env.isFile (.ofText source) = .ok true ∧
        decode (isCompressed (.ofText source)) codec (env.content (.ofText source)) =
          .error failure) := by
  have steps : env.readText source codec =
      env.isFile (.ofText source) >>= fun isFile =>
        if isFile then
          decode (isCompressed (.ofText source)) codec (env.content (.ofText source))
        else .error (.messageFileMissing (Path.ofText source).text) := rfl
  rw [steps, bind_eq_error_iff]
  refine or_congr_right ?_
  constructor
  · intro failed
    obtain ⟨isFile, found, failed⟩ := failed
    cases isFile with
    | false =>
        cases failed
        exact Or.inl ⟨found, rfl⟩
    | true => exact Or.inr ⟨found, failed⟩
  · intro failed
    rcases failed with ⟨missing, rfl⟩ | ⟨found, failed⟩
    · exact ⟨false, missing, rfl⟩
    · exact ⟨true, found, failed⟩

end SimTriage.File.Environment
