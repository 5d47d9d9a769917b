import SimTriage.Proofs.Command.Run
import SimTriage.Proofs.File.Content
import SimTriage.Proofs.Message.Log

/-!
Damage in a message file. The log of a file is that of its parts between line feeds, whatever bytes
the parts are made of, so that a damaged line costs no more than its own entry.
-/

set_option autoImplicit false

namespace SimTriage

open Event (Entry)

namespace Message

variable {text line : Text}

/-- The log of the message that a text is. -/
def readLog (text : Text) : Except Text.OverlongNumeral (List Entry) := log <$> read text

theorem readLog_append (front back : Text) :
    readLog (front ++ '\n' :: back) = do
      let first ← readLog front
      let second ← readLog ('\n' :: back)
      return first ++ second := by
  simp only [readLog, read, readWith_append, map_bind, map_pure, bind_map_left]

/-- An empty line at the end adds nothing. -/
theorem readLog_feed (text : Text) : readLog (text ++ ['\n']) = readLog text := by
  have empty : readLog ['\n'] = .ok [] := rfl
  rw [readLog_append, empty]
  cases readLog text with
  | error fault => rfl
  | ok log =>
      change Except.ok (log ++ []) = _
      rw [List.append_nil]

/-- A headline alone has no log. -/
theorem readLog_headline (single : '\n' ∉ line) : readLog line = .ok [] := by
  have lines : bodyLines line = [] := by
    rw [bodyLines, Text.splitOn_of_not_mem single]
    rfl
  have accepted : read line = .ok ⟨line.takeWhile (· ≠ '\n'), logOf line⟩ :=
    read_eq_ok_iff.mpr ⟨by simp [lines], rfl⟩
  rw [readLog, accepted, logOf, lines]
  rfl

/-- A line behind the headline is at most one entry. -/
theorem exists_of_readLog_line {log : List Entry} (single : '\n' ∉ line)
    (accepted : readLog ('\n' :: line) = .ok log) : ∃ entry : Option Entry, log = entry.toList := by
  have lines : bodyLines ('\n' :: line) = [Text.strip line] := by
    rw [bodyLines, Text.splitOn_cons_self, Text.splitOn_of_not_mem single]
    rfl
  obtain ⟨message, isRead, rfl⟩ := map_eq_ok_iff.mp accepted
  obtain ⟨-, rfl⟩ := read_eq_ok_iff.mp isRead
  refine ⟨Entry.ofLine? (Text.strip line), ?_⟩
  rw [logOf, lines]
  cases found : Entry.ofLine? (Text.strip line) <;> simp [found]

end Message

namespace File

open Message (readLog_append readLog_feed readLog_headline exists_of_readLog_line)

variable {name : Text} {line bytes : Bytes}

/-- The log of a file that holds the bytes. -/
def logOf (bytes : Bytes) : Except Text.OverlongNumeral (List Entry) :=
  Message.readLog (Text.unifyNewlines (Text.shown bytes))

theorem logOf_append (front rest : Bytes) :
    logOf (front ++ 0x0A :: rest) = do
      let first ← logOf front
      let second ← logOf (0x0A :: rest)
      return first ++ second := by
  obtain ⟨lines, cut, whole⟩ := Text.exists_unifyNewlines (Text.shown front)
  have feed : ∀ before after : Bytes,
      Text.shown (before ++ 0x0A :: after) = Text.shown before ++ '\n' :: Text.shown after :=
    Text.shown_append (by decide)
  have second : logOf (0x0A :: rest) =
      Message.readLog ('\n' :: Text.unifyNewlines (Text.shown rest)) := by
    rw [logOf, ← List.nil_append (0x0A :: rest), feed]
    exact congrArg _ (Text.unifyNewlines_cons_of_ne (by decide) _)
  -- a carriage return at the end of the front is part of the line end, or a line end by itself
  have first : logOf front = Message.readLog lines := by
    rcases whole with same | same
    · rw [logOf, same]
    · rw [logOf, same, readLog_feed]
  rw [first, second, logOf, feed, cut, readLog_append]

theorem logOf_append_fails_iff (front rest : Bytes) :
    (∃ fault, logOf (front ++ 0x0A :: rest) = .error fault) ↔
      (∃ fault, logOf front = .error fault) ∨ ∃ fault, logOf (0x0A :: rest) = .error fault := by
  rw [logOf_append]
  exact exists_bind_eq_error_iff

/-- Bytes without a line end are a single line. -/
theorem not_mem_shown_line (noFeed : 0x0A ∉ line) (noReturn : 0x0D ∉ line) :
    '\n' ∉ Text.unifyNewlines (Text.shown line) := by
  have feed : '\n' ∉ Text.shown line := fun member =>
    noFeed (Text.mem_of_mem_shown (by decide) member)
  have carriageReturn : '\r' ∉ Text.shown line := fun member =>
    noReturn (Text.mem_of_mem_shown (by decide) member)
  rw [Text.unifyNewlines_of_not_mem carriageReturn]
  exact feed

/-- Nothing, or bytes up to a line feed. -/
def EndsLine (front : Bytes) : Prop := front = [] ∨ ∃ before, front = before ++ [0x0A]

/-- Nothing, or bytes from a line feed on. -/
def StartsLine (rest : Bytes) : Prop := rest = [] ∨ ∃ after, rest = 0x0A :: after

/-- What follows a line feed adds the same entries to any log in front of it. -/
theorem StartsLine.exists_after {rest : Bytes} (starts : StartsLine rest) :
    ∃ after, ∀ front log, logOf (front ++ rest) = .ok log →
      ∃ before, logOf front = .ok before ∧ log = before ++ after := by
  rcases starts with rfl | ⟨behind, rfl⟩
  · refine ⟨[], fun front log accepted => ⟨log, ?_, by simp⟩⟩
    rw [List.append_nil] at accepted
    exact accepted
  · cases later : logOf (0x0A :: behind) with
    | error fault =>
        refine ⟨[], fun front log accepted => ?_⟩
        rw [logOf_append, later] at accepted
        obtain ⟨_, -, failed⟩ := bind_eq_ok_iff.mp accepted
        cases failed
    | ok after =>
        refine ⟨after, fun front log accepted => ?_⟩
        rw [logOf_append, later] at accepted
        obtain ⟨before, first, same⟩ := bind_eq_ok_iff.mp accepted
        cases same
        exact ⟨before, first, rfl⟩

/-- A single line adds at most one entry to the log of what is in front of it. -/
theorem EndsLine.exists_before {front : Bytes} (ends : EndsLine front) :
    ∃ before, ∀ line log, 0x0A ∉ line → 0x0D ∉ line → logOf (front ++ line) = .ok log →
      ∃ entry : Option Entry, log = before ++ entry.toList := by
  rcases ends with rfl | ⟨ahead, rfl⟩
  · refine ⟨[], fun line log noFeed noReturn accepted => ⟨none, ?_⟩⟩
    rw [List.nil_append, logOf, readLog_headline (not_mem_shown_line noFeed noReturn)] at accepted
    cases accepted
    rfl
  cases first : logOf ahead with
  | error fault =>
      refine ⟨[], fun line log noFeed noReturn accepted => ?_⟩
      rw [List.append_assoc, List.singleton_append, logOf_append, first] at accepted
      cases accepted
  | ok before =>
      refine ⟨before, fun line log noFeed noReturn accepted => ?_⟩
      rw [List.append_assoc, List.singleton_append, logOf_append, first] at accepted
      obtain ⟨_, known, accepted⟩ := bind_eq_ok_iff.mp accepted
      cases known
      obtain ⟨own, ofLine, same⟩ := bind_eq_ok_iff.mp accepted
      cases same
      have shows : Text.unifyNewlines (Text.shown (0x0A :: line)) =
          '\n' :: Text.unifyNewlines (Text.shown line) := by
        rw [← List.nil_append (0x0A :: line), Text.shown_append (by decide)]
        exact Text.unifyNewlines_cons_of_ne (by decide) _
      rw [logOf, shows] at ofLine
      obtain ⟨entry, rfl⟩ := exists_of_readLog_line (not_mem_shown_line noFeed noReturn) ofLine
      exact ⟨entry, rfl⟩

namespace Environment

variable {env : Environment}

/-- The log of the message in a file. -/
def readLog (env : Environment) (name : Text) : Except Failure (List Entry) :=
  Message.log <$> env.readMessage name

theorem Stores.readLog_eq (stores : env.Stores name bytes) :
    env.readLog name = liftM (logOf bytes) := by
  rw [readLog, readMessage, stores.readText_standard, logOf, Message.readLog]
  change Message.log <$> (liftM (Message.read _) : Except Failure Message) = _
  cases Message.read (Text.unifyNewlines (Text.shown bytes)) <;> rfl

/-- Let any bytes be put into a file, plain or compressed. Cut at line feeds, its log is cut there
too, and reading it fails for the first part that cannot be read. Other bytes in place of a line, as
long as they are a single line themselves, cost or gain one entry at most and leave all others as
they are. -/
theorem readLog_damaged {name : Text} {file : Bytes → Environment}
    (stores : ∀ bytes, (file bytes).Stores name bytes) :
    (∀ front line rest : Bytes,
      (file (front ++ 0x0A :: line ++ 0x0A :: rest)).readLog name = do
        let first ← (file front).readLog name
        let second ← (file (0x0A :: line)).readLog name
        let third ← (file (0x0A :: rest)).readLog name
        return first ++ second ++ third) ∧
    (∀ front line rest : Bytes,
      (∃ failure, (file (front ++ 0x0A :: line ++ 0x0A :: rest)).readLog name = .error failure) ↔
        ∃ part ∈ [front, 0x0A :: line, 0x0A :: rest],
          ∃ failure, (file part).readLog name = .error failure) ∧
    ∀ front rest : Bytes, EndsLine front → StartsLine rest →
      ∃ before after : List Entry, ∀ line : Bytes, 0x0A ∉ line → 0x0D ∉ line →
        ∀ log, (file (front ++ line ++ rest)).readLog name = .ok log →
          ∃ entry : Option Entry, log = before ++ entry.toList ++ after := by
  simp only [fun bytes => (stores bytes).readLog_eq]
  refine ⟨fun front line rest => ?_, fun front line rest => ?_, fun front rest ends starts => ?_⟩
  · rw [logOf_append, logOf_append]
    simp only [liftM_bind_numeral, bind_assoc]
    rfl
  · have fails : ∀ part, (∃ failure, (liftM (logOf part) : Except Failure _) = .error failure) ↔
        ∃ fault, logOf part = .error fault := fun part => by
      simp only [liftM_eq_error_iff]
      constructor
      · rintro ⟨_, fault, failed, -⟩
        exact ⟨fault, failed⟩
      · rintro ⟨fault, failed⟩
        exact ⟨_, fault, failed, rfl⟩
    simp only [fails, logOf_append_fails_iff, List.mem_cons, List.not_mem_nil, or_false,
      exists_eq_or_imp, exists_eq_left, or_assoc]
  · obtain ⟨after, behind⟩ := starts.exists_after
    obtain ⟨before, ahead⟩ := ends.exists_before
    refine ⟨before, after, fun line noFeed noReturn log accepted => ?_⟩
    obtain ⟨front, ofFront, rfl⟩ := behind _ _ (liftM_eq_ok_iff.mp accepted)
    obtain ⟨entry, rfl⟩ := ahead line front noFeed noReturn ofFront
    exact ⟨entry, rfl⟩

/-- A line that ends inside a character keeps its line feed, and the line behind it its entry. -/
theorem readLog_torn :
    (∀ bytes, (Command.single "torn.log" bytes).Stores "torn.log" bytes) ∧
      (Command.single "torn.log"
        (Text.Utf8.encode "failed\n0: [Contract Event] topics:[a], data:1" ++
          0x0A :: [0x31, 0xE2, 0x82] ++
          0x0A :: Text.Utf8.encode "2: [Contract Event] topics:[b], data:2")).readLog "torn.log" =
        .ok [⟨0, .contract, none, ["a"], "1"⟩, ⟨2, .contract, none, ["b"], "2"⟩] := by
  have stores : ∀ bytes, (Command.single "torn.log" bytes).Stores "torn.log" bytes := fun bytes =>
    ⟨rfl, rfl⟩
  refine ⟨stores, ?_⟩
  rw [(readLog_damaged stores).1]
  decide +kernel

end Environment

end File

end SimTriage
