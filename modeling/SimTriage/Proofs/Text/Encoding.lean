import SimTriage.Proofs.Failure
import SimTriage.Proofs.Text.Utf8
import SimTriage.Text.Encoding

/-!
Bytes as text. UTF-8 comes back as it was written, whatever is to become of broken pieces. With
broken pieces replaced, any bytes have a text; cut at a byte of ASCII, they have the texts of their
parts. Line ends in one spelling are cut at line feeds in the same way.
-/

set_option autoImplicit false

namespace SimTriage.Text

/-- The character that stands for a piece. -/
def Utf8.Piece.shown : Piece → Char
  | .character c => c
  | .broken _ _ => replacement

/-- The text of bytes of UTF-8 with every broken piece replaced. -/
def shown (bytes : Bytes) : Text := (Utf8.pieces bytes).map Utf8.Piece.shown

theorem ofPieces_replace (position : Nat) (pieces : List Utf8.Piece) :
    ofPieces .replace position pieces = .ok (pieces.map Utf8.Piece.shown) := by
  induction pieces generalizing position with
  | nil => rfl
  | cons piece pieces ih =>
      cases piece with
      | character c =>
          rw [ofPieces, ih]
          rfl
      | broken bytes reason =>
          rw [ofPieces, ih]
          rfl

theorem decode_replace (bytes : Bytes) : decode .utf8 .replace bytes = .ok (shown bytes) :=
  ofPieces_replace 0 (Utf8.pieces bytes)

theorem ofPieces_character (onBroken : OnBroken) (position : Nat) (text : Text) :
    ofPieces onBroken position (text.map .character) = .ok text := by
  induction text generalizing position with
  | nil => rfl
  | cons c text ih =>
      rw [List.map_cons, ofPieces, ih]
      rfl

/-- What has been written in UTF-8 is read as it was, however strictly. -/
theorem decode_encode (onBroken : OnBroken) (text : Text) :
    decode .utf8 onBroken (Utf8.encode text) = .ok text := by
  rw [decode, Utf8.pieces_encode]
  exact ofPieces_character onBroken 0 text

theorem shown_encode (text : Text) : shown (Utf8.encode text) = text := by
  have written := decode_replace (Utf8.encode text)
  rw [decode_encode] at written
  exact (Except.ok.inj written).symm

theorem ofPieces_refuse_eq_ok_iff {position : Nat} {pieces : List Utf8.Piece} {text : Text} :
    ofPieces .refuse position pieces = .ok text ↔ pieces = text.map .character := by
  constructor
  · intro accepted
    induction pieces generalizing position text with
    | nil =>
        cases accepted
        rfl
    | cons piece pieces ih =>
        cases piece with
        | character c =>
            obtain ⟨rest, behind, rfl⟩ := map_eq_ok_iff.mp accepted
            rw [ih behind]
            rfl
        | broken bytes reason => cases accepted
  · rintro rfl
    exact ofPieces_character .refuse position text

/-- Bytes that are read without being lenient are those that the text is written as. -/
theorem decode_refuse_eq_ok_iff {bytes : Bytes} {text : Text} :
    decode .utf8 .refuse bytes = .ok text ↔ bytes = Utf8.encode text := by
  constructor
  · intro accepted
    have pieces : Utf8.pieces bytes = text.map .character := ofPieces_refuse_eq_ok_iff.mp accepted
    rw [← Utf8.bytes_pieces bytes, pieces, List.flatMap_map]
    rfl
  · rintro rfl
    exact decode_encode .refuse text

theorem shown_append {b : UInt8} (ascii : b.toNat < 0x80) (front rest : Bytes) :
    shown (front ++ b :: rest) = shown front ++ Char.ofNat b.toNat :: shown rest :=
  Utf8.map_piecesFrom_append (fun _ _ _ => rfl) ascii [] front rest

/-- A character of ASCII in the text has been a byte of its own. -/
theorem mem_of_mem_shown {bytes : Bytes} {c : Char} (ascii : c.toNat < 0x80)
    (member : c ∈ shown bytes) : UInt8.ofNat c.toNat ∈ bytes := by
  obtain ⟨piece, inPieces, shows⟩ := List.mem_map.mp member
  cases piece with
  | character d =>
      have same : d = c := shows
      have written : Utf8.encodeChar c = [UInt8.ofNat c.toNat] := if_pos ascii
      rw [← Utf8.bytes_pieces bytes, List.mem_flatMap]
      refine ⟨_, inPieces, ?_⟩
      rw [Utf8.Piece.bytes, same, written]
      exact List.mem_singleton_self _
  | broken bytes reason =>
      have same : replacement = c := shows
      subst same
      exact absurd ascii (by decide)

theorem unifyNewlines_cons_of_ne {c : Char} (other : c ≠ '\r') (text : Text) :
    unifyNewlines (c :: text) = c :: unifyNewlines text := by
  cases text <;> simp [unifyNewlines, other]

theorem unifyNewlines_of_not_mem {text : Text} (absent : '\r' ∉ text) :
    unifyNewlines text = text := by
  induction text with
  | nil => rfl
  | cons c text ih =>
      rw [List.mem_cons, not_or] at absent
      rw [unifyNewlines_cons_of_ne (Ne.symm absent.1), ih absent.2]

theorem unifyNewlines_return {c : Char} (other : c ≠ '\n') (text : Text) :
    unifyNewlines ('\r' :: c :: text) = '\n' :: unifyNewlines (c :: text) := by
  simp [unifyNewlines, other]

/-- A line feed ends its line, together with a carriage return in front of it. Without the line feed
that carriage return is a line end itself. -/
theorem exists_unifyNewlines (front : Text) :
    ∃ lines, (∀ back, unifyNewlines (front ++ '\n' :: back) = lines ++ '\n' :: unifyNewlines back) ∧
      (unifyNewlines front = lines ∨ unifyNewlines front = lines ++ ['\n']) := by
  fun_induction unifyNewlines front with
  | case1 =>
      refine ⟨[], fun back => ?_, Or.inl rfl⟩
      exact unifyNewlines_cons_of_ne (by decide) back
  | case2 rest ih =>
      obtain ⟨lines, cut, whole⟩ := ih
      refine ⟨'\n' :: lines, fun back => ?_, ?_⟩
      · simp [unifyNewlines, cut]
      · simpa using whole
  | case3 rest notFeed ih =>
      cases rest with
      | nil => exact ⟨[], fun back => rfl, Or.inr rfl⟩
      | cons c rest =>
          have other : c ≠ '\n' := fun same => notFeed rest (by rw [same])
          obtain ⟨lines, cut, whole⟩ := ih
          refine ⟨'\n' :: lines, fun back => ?_, ?_⟩
          · rw [List.cons_append, List.cons_append, unifyNewlines_return other, ← List.cons_append,
              cut, List.cons_append]
          · simpa using whole
  | case4 c rest _ notReturn ih =>
      have other : c ≠ '\r' := fun same => notReturn same
      obtain ⟨lines, cut, whole⟩ := ih
      refine ⟨c :: lines, fun back => ?_, ?_⟩
      · rw [List.cons_append, unifyNewlines_cons_of_ne other, cut, List.cons_append]
      · simpa using whole

end SimTriage.Text
