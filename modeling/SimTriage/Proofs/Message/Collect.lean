import SimTriage.Message
import SimTriage.Proofs.Failure
import SimTriage.Proofs.Text.Split

/-!
What reading a message does with its lines. The lines that can be entries are handed to the reader
one by one, in order, and the log is what the reader makes of them: the buffer between the two
neither loses nor moves an entry.
-/

set_option autoImplicit false

namespace SimTriage.Message

open Event (Entry)

/-- A stripped line that can be an entry: not empty and not the header. -/
def isCandidate (line : Text) : Bool := decide (line ≠ [] ∧ line ≠ logHeader)

/-- The stripped lines after the headline that can be entries. -/
def candidates (text : Text) : List Text :=
  ((Text.splitOn '\n' text).tail.map Text.strip).filter isCandidate

theorem isSkipped_eq (line : Text) : isSkipped line = !isCandidate line := by
  cases line with
  | nil => rfl
  | cons c line => simp [isSkipped, isCandidate]

theorem commit_accept (buffer : Buffer) (entry : Entry) :
    (buffer.accept entry).commit.reverse = buffer.commit.reverse ++ [entry] := by
  simp [Buffer.accept, Buffer.commit]

theorem candidates_append (front back : Text) :
    candidates (front ++ '\n' :: back) = candidates front ++ candidates ('\n' :: back) := by
  have lines : (Text.splitOn '\n' front ++ Text.splitOn '\n' back).tail =
      (Text.splitOn '\n' front).tail ++ Text.splitOn '\n' back :=
    List.tail_append_of_ne_nil (Text.splitOn_ne_nil '\n' front)
  simp only [candidates, Text.splitOn_append, Text.splitOn_cons_self, lines, List.tail_cons,
    List.map_append, List.filter_append]

section Lawful

variable {m : Type → Type} [Monad m] [LawfulMonad m]

/-- Whatever the buffer holds stays in front of what the lines add to it. -/
theorem collect_eq (reader : Text → m (Option Entry)) (buffer : Buffer) (lines : List Text) :
    collect reader buffer lines =
      (fun found => buffer.commit.reverse ++ found.filterMap id) <$>
        ((lines.map Text.strip).filter isCandidate).mapM reader := by
  induction lines generalizing buffer with
  | nil => simp [collect]
  | cons raw lines ih =>
      rw [collect, isSkipped_eq, List.map_cons]
      by_cases candidate : isCandidate (Text.strip raw) = true
      · rw [List.filter_cons_of_pos candidate, List.mapM_cons]
        simp only [candidate, Bool.not_true, Bool.false_eq_true, ↓reduceIte, map_bind, map_pure]
        congr 1
        funext result
        cases result with
        | none =>
            dsimp only
            rw [ih]
            simp
        | some entry =>
            dsimp only
            rw [ih, commit_accept]
            simp
      · rw [List.filter_cons_of_neg candidate]
        simp only [candidate, Bool.not_false, ↓reduceIte]
        exact ih buffer

theorem readWith_eq (reader : Text → m (Option Entry)) (text : Text) :
    readWith reader text = do
      let found ← (candidates text).mapM reader
      return ⟨text.takeWhile (· ≠ '\n'), found.filterMap id⟩ := by
  simp only [readWith, collect_eq, Text.headD_splitOn, candidates]
  simp [Buffer.empty, Buffer.commit]

/-- Cutting a message at a line feed cuts its log there, and neither part sees the other. -/
theorem readWith_append (reader : Text → m (Option Entry)) (front back : Text) :
    readWith reader (front ++ '\n' :: back) = do
      let first ← readWith reader front
      let second ← readWith reader ('\n' :: back)
      return ⟨first.headline, first.log ++ second.log⟩ := by
  have headline : (front ++ '\n' :: back).takeWhile (· ≠ '\n') = front.takeWhile (· ≠ '\n') := by
    rw [← Text.headD_splitOn, ← Text.headD_splitOn, Text.splitOn_append]
    cases pieces : Text.splitOn '\n' front with
    | nil => exact absurd pieces (Text.splitOn_ne_nil '\n' front)
    | cons piece pieces => rfl
  simp only [readWith_eq, candidates_append, List.mapM_append, headline, bind_assoc, pure_bind,
    List.filterMap_append]

end Lawful

/-- A reader that also keeps the lines it is handed, in order. -/
def recording (reader : Text → Option Entry) (line : Text) : StateM (List Text) (Option Entry) := do
  modify (· ++ [line])
  return reader line

theorem mapM_recording (reader : Text → Option Entry) (lines calls : List Text) :
    (lines.mapM (recording reader)).run calls = (lines.map reader, calls ++ lines) := by
  induction lines generalizing calls with
  | nil =>
      rw [List.append_nil]
      rfl
  | cons line lines ih =>
      have rest := ih (calls ++ [line])
      rw [List.append_assoc, List.singleton_append] at rest
      simp only [List.mapM_cons, recording, StateT.run_bind, StateT.run_modify, pure_bind,
        StateT.run_pure, bind_assoc]
      rw [rest]
      rfl

theorem readWith_recording (reader : Text → Option Entry) (text : Text) :
    (readWith (recording reader) text).run [] =
      (⟨text.takeWhile (· ≠ '\n'), (candidates text).filterMap reader⟩, candidates text) := by
  have found : ((candidates text).map reader).filterMap id =
      (candidates text).filterMap reader := by
    rw [List.filterMap_map]
    rfl
  rw [readWith_eq, StateT.run_bind, mapM_recording, ← found]
  rfl

theorem read_append_of_ok {front back : Text} {first second : Message}
    (ok : read front = .ok first) (later : read ('\n' :: back) = .ok second) :
    read (front ++ '\n' :: back) = .ok ⟨first.headline, first.log ++ second.log⟩ := by
  simp only [read] at *
  rw [readWith_append, ok, later]
  rfl

theorem read_append_fails_iff (front back : Text) :
    (∃ fault, read (front ++ '\n' :: back) = .error fault) ↔
      (∃ fault, read front = .error fault) ∨ ∃ fault, read ('\n' :: back) = .error fault := by
  have joined : read (front ++ '\n' :: back) = _ := readWith_append Entry.read front back
  rw [joined]
  exact exists_bind_eq_error_iff

/-- Any reader without effects is handed the candidates, each once and in order, and nothing else;
the log is what it makes of them and the headline is the first line as it is. The reader of entries
may fail besides, and then reads the two parts of a message independently of each other. -/
theorem read_candidates :
    (∀ (reader : Text → Option Entry) (text : Text),
      (readWith (recording reader) text).run [] =
        (⟨text.takeWhile (· ≠ '\n'), (candidates text).filterMap reader⟩, candidates text)) ∧
    (∀ text : Text, read text = do
      let found ← (candidates text).mapM Entry.read
      return ⟨text.takeWhile (· ≠ '\n'), found.filterMap id⟩) ∧
    (∀ front back : Text,
      ((∃ fault, read (front ++ '\n' :: back) = .error fault) ↔
        (∃ fault, read front = .error fault) ∨ ∃ fault, read ('\n' :: back) = .error fault) ∧
      (∀ first second : Message, read front = .ok first → read ('\n' :: back) = .ok second →
        read (front ++ '\n' :: back) = .ok ⟨first.headline, first.log ++ second.log⟩)) := by
  refine ⟨readWith_recording, readWith_eq Entry.read, fun front back => ⟨?_, ?_⟩⟩
  · exact read_append_fails_iff front back
  · intro first second ok later
    exact read_append_of_ok ok later

end SimTriage.Message
