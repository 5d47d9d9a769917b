import SimTriage.Proofs.Command.Run
import SimTriage.Proofs.File.Content
import SimTriage.Proofs.Message.Collect
import SimTriage.Proofs.Text.LineEnds

/-!
Messages whose lines end in a carriage return and a line feed. The log does not show it, since body
lines are stripped. The headline keeps the carriage return in a message that has been handed over,
and loses it in a message that has been read from a file.
-/

set_option autoImplicit false

namespace SimTriage

namespace Message

/-- A message with another headline. -/
def mapHeadline (f : Text → Text) (message : Message) : Message := ⟨f message.headline, message.log⟩

theorem candidates_congr {text other : Text}
    (same : (Text.splitOn '\n' text).map Text.strip = (Text.splitOn '\n' other).map Text.strip) :
    candidates text = candidates other := by
  unfold candidates
  rw [List.map_tail, same, ← List.map_tail]

theorem candidates_withReturns (text : Text) :
    candidates (Text.withReturns text) = candidates text := by
  apply candidates_congr
  rw [Text.splitOn_withReturns, Text.map_strip_returned]

theorem candidates_unifyNewlines {text : Text} (paired : Text.ReturnsBeforeFeeds text) :
    candidates (Text.unifyNewlines text) = candidates text := by
  apply candidates_congr
  rw [Text.splitOn_unifyNewlines paired, Text.map_strip_dropReturn]

/-- Texts with the same candidates have the same log, or the same fault. -/
theorem read_congr {text other : Text} {f : Text → Text}
    (same : candidates text = candidates other)
    (headline : text.takeWhile (· ≠ '\n') = f (other.takeWhile (· ≠ '\n'))) :
    read text = mapHeadline f <$> read other := by
  have whole : ∀ text, read text = _ := readWith_eq Event.Entry.read
  rw [whole, whole, same, headline]
  cases (candidates other).mapM Event.Entry.read <;> rfl

end Message

namespace File.Environment

open Message (read mapHeadline)

/-- Carriage returns in front of the line feeds of a message change neither its log nor the fault
that keeps it from being read. A headline with a line feed behind it keeps its own, unless the
message is read from a file. -/
theorem readMessage_lineEnds :
    (∀ text, read (Text.withReturns text) =
      mapHeadline (fun headline => if '\n' ∈ text then headline ++ ['\r'] else headline) <$>
        read text) ∧
    ∀ (env : Environment) (name text : Text) (onBroken : Text.OnBroken),
      env.Stores name (Text.Utf8.encode text) → Text.ReturnsBeforeFeeds text →
        env.readMessage name (.ofEncoding .utf8 onBroken) =
          liftM (mapHeadline Text.dropReturn <$> read text) := by
  constructor
  · intro text
    exact Message.read_congr (Message.candidates_withReturns text) (Text.takeWhile_withReturns text)
  · intro env name text onBroken stores paired
    have content : env.readText name (.ofEncoding .utf8 onBroken) =
        .ok (Text.unifyNewlines text) := by
      rw [stores.readText_eq]
      change Text.unifyNewlines <$>
        (liftM (Text.decode .utf8 onBroken (Text.Utf8.encode text)) : Except Failure Text) = _
      rw [Text.decode_encode]
      rfl
    have message : read (Text.unifyNewlines text) = mapHeadline Text.dropReturn <$> read text :=
      Message.read_congr (Message.candidates_unifyNewlines paired)
        (Text.takeWhile_unifyNewlines paired)
    rw [readMessage, content, ← message]
    rfl

/-- A message of two lines, the second an entry. -/
def returnedMessage : Text := "boom\r\n0: [Contract Event] topics:[a], data:1\r\n"

/-- In hand the headline ends in a carriage return, and in a file before it. -/
theorem readMessage_lineEnds_returned :
    (Command.single "crlf.log" (Text.Utf8.encode returnedMessage)).Stores "crlf.log"
        (Text.Utf8.encode returnedMessage) ∧
      Text.ReturnsBeforeFeeds returnedMessage ∧
      read returnedMessage = .ok ⟨"boom\r", [⟨0, .contract, none, ["a"], "1"⟩]⟩ ∧
      (Command.single "crlf.log" (Text.Utf8.encode returnedMessage)).readMessage "crlf.log" =
        .ok ⟨"boom", [⟨0, .contract, none, ["a"], "1"⟩]⟩ := by
  have stores : (Command.single "crlf.log" (Text.Utf8.encode returnedMessage)).Stores "crlf.log"
      (Text.Utf8.encode returnedMessage) := ⟨rfl, rfl⟩
  have paired : Text.ReturnsBeforeFeeds returnedMessage := by decide
  have inHand : read returnedMessage = .ok ⟨"boom\r", [⟨0, .contract, none, ["a"], "1"⟩]⟩ := rfl
  refine ⟨stores, paired, inHand, ?_⟩
  have inFile := readMessage_lineEnds.2 _ _ _ .replace stores paired
  rw [inHand] at inFile
  exact inFile

end File.Environment

end SimTriage
