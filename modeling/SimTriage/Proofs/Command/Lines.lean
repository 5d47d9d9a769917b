import SimTriage.Proofs.Command.EntryLine
import SimTriage.Proofs.Command.Shown
import SimTriage.Proofs.HostError.First
import SimTriage.Proofs.Summary
import SimTriage.Proofs.Text.Separated

/-!
Output as lines. It has one line for each thing that is shown, whatever stands in the message, so
the entries can be counted and told apart by their lines, and the contracts of a summary are those
between the commas of its last line.
-/

set_option autoImplicit false

namespace SimTriage

open Event (Entry Kind isContractChar)
open Text (IsRun)

namespace HostError

theorem newline_not_mem_type {name : Text} (isName : IsTypeName name) : '\n' ∉ name := by
  obtain ⟨c, rest, rfl, start, inside⟩ := isName
  intro member
  rcases List.mem_cons.mp member with rfl | behind
  · exact absurd start (by decide)
  · exact absurd (inside _ behind) (by decide)

theorem newline_not_mem_code {code : Text} (isCode : IsCode code) : '\n' ∉ code := by
  intro member
  rcases isCode with run | ⟨name, rfl, run⟩
  · exact absurd (run.2 _ member) (by decide)
  · rcases List.mem_cons.mp member with mark | inside
    · exact absurd mark (by decide)
    · exact absurd (run.2 _ inside) (by decide)

/-- A host error is mentioned within one line. -/
theorem newline_not_mem_of_find {text : Text} {error : HostError}
    (isFound : find text = .ok (some error)) : '\n' ∉ error.type ∧ '\n' ∉ error.code := by
  obtain ⟨m, isFirst, sameType, sameCode⟩ := exists_isFirst_of_find isFound
  rw [← sameType, ← sameCode]
  exact ⟨newline_not_mem_type isFirst.spells.type, newline_not_mem_code isFirst.spells.code⟩

end HostError

namespace Command

/-- Lines that are printed one after the other are split again where they end. -/
theorem splitOn_lines {lines : List Text} (whole : ∀ text ∈ lines, '\n' ∉ text) :
    Text.splitOn '\n' (lines.flatMap line) = lines ++ [[]] := by
  induction lines with
  | nil => rfl
  | cons text lines ih =>
      obtain ⟨first, behind⟩ := List.forall_mem_cons.mp whole
      have printed : (text :: lines).flatMap line = text ++ '\n' :: lines.flatMap line := by
        simp [line]
      rw [printed, Text.splitOn_append, Text.splitOn_of_not_mem first, ih behind]
      rfl

section Entries

variable {message : Message}

theorem newline_not_mem_entriesLines (single : '\n' ∉ message.headline)
    (logged : ∀ entry ∈ message.log, entry.IsLogged) :
    ∀ text ∈ entriesLines message, '\n' ∉ text := by
  have found : ∀ count, '\n' ∉ foundText count := by
    intro count
    unfold foundText
    simp only [List.append_assoc, List.mem_append, not_or]
    exact ⟨by decide, newline_not_mem_ofNat _, by decide⟩
  simp only [entriesLines, List.forall_mem_append, List.forall_mem_cons, List.forall_mem_map]
  exact ⟨⟨⟨single, by simp⟩, fun entry member => newline_not_mem_entryText (logged entry member)⟩,
    List.not_mem_nil, found _, by simp⟩

theorem splitOn_printEntries (single : '\n' ∉ message.headline)
    (logged : ∀ entry ∈ message.log, entry.IsLogged) :
    Text.splitOn '\n' (printEntries message) = entriesLines message ++ [[]] :=
  splitOn_lines (newline_not_mem_entriesLines single logged)

end Entries

section Counts

variable {message : Message} {summary : Summary}

theorem length_summaryLines (summary : Summary) :
    (summaryLines summary).length =
      2 + (if summary.hostError.isSome then 1 else 0) +
        summary.kindCounts.countP (·.2 ≠ 0) + (if summary.contracts = [] then 0 else 1) := by
  have error : summary.hostError.toList.length = if summary.hostError.isSome then 1 else 0 := by
    cases summary.hostError <;> rfl
  have contracts : ∀ last : Text, (if summary.contracts = [] then [] else [last]).length =
      if summary.contracts = [] then 0 else 1 := fun last => by split <;> rfl
  simp only [summaryLines, List.length_append, List.length_singleton, List.length_map, error,
    contracts, List.countP_eq_length_filter]
  omega

/-- The contracts stand in the last line. -/
theorem getLast?_summaryLines (present : summary.contracts ≠ []) :
    (summaryLines summary).getLast? = some (contractsText summary.contracts) := by
  rw [summaryLines, if_neg present]
  exact List.getLast?_concat

/-- The contracts of a summary are those of the entries. -/
theorem contract_run (counted : Summary.ofMessage message = .ok summary)
    (wellFormed : ∀ entry ∈ message.log, entry.WellFormed) :
    ∀ contract ∈ summary.contracts, IsRun isContractChar contract := by
  obtain ⟨-, -, rfl⟩ := Summary.ofMessage_eq_ok_iff.mp counted
  intro contract listed
  have lists := (Summary.Tally.counts_ofLog message.log).contracts
  obtain ⟨entry, member, named⟩ := (lists.mem contract).mp listed
  exact (wellFormed entry member).contract contract named

/-- All commas of the last line stand between contracts. -/
theorem splitAround_contracts {contracts : List Text} (present : contracts ≠ [])
    (runs : ∀ contract ∈ contracts, IsRun isContractChar contract) :
    Text.splitAround ", " (Text.join ", " contracts) = contracts := by
  refine Text.splitAround_join present fun contract listed comma => ?_
  exact absurd ((runs contract listed).2 _ comma) (by decide)

theorem newline_not_mem_summaryLines (counted : Summary.ofMessage message = .ok summary)
    (single : '\n' ∉ message.headline) (wellFormed : ∀ entry ∈ message.log, entry.WellFormed) :
    ∀ text ∈ summaryLines summary, '\n' ∉ text := by
  have runs := contract_run counted wellFormed
  obtain ⟨found, isFound, rfl⟩ := Summary.ofMessage_eq_ok_iff.mp counted
  have error : ∀ error ∈ found.toList, '\n' ∉ hostErrorText error := by
    intro error given
    rw [Option.mem_toList.mp given] at isFound
    obtain ⟨type, code⟩ := HostError.newline_not_mem_of_find isFound
    unfold hostErrorText
    simp only [List.append_assoc, List.mem_append, not_or]
    exact ⟨by decide, type, by decide, code⟩
  have counts : ∀ summary, '\n' ∉ countsText summary := by
    intro summary
    unfold countsText
    simp only [List.append_assoc, List.mem_append, not_or]
    exact ⟨by decide, newline_not_mem_ofNat _, by decide, newline_not_mem_ofNat _, by decide,
      newline_not_mem_ofNat _, by decide⟩
  have kinds : ∀ counted, '\n' ∉ kindText counted := by
    intro counted
    unfold kindText
    simp only [List.append_assoc, List.mem_append, not_or]
    exact ⟨by decide, newline_not_mem_label _, by decide, newline_not_mem_ofNat _⟩
  have contracts : '\n' ∉ contractsText (Summary.Tally.ofLog message.log).contracts := by
    unfold contractsText
    rw [List.mem_append, not_or]
    refine ⟨by decide, fun member => ?_⟩
    rcases Text.mem_join member with inSeparator | ⟨contract, listed, inContract⟩
    · exact absurd inSeparator (by decide)
    · exact newline_not_mem_run (runs contract listed) (by decide) inContract
  simp only [summaryLines, List.forall_mem_append, List.forall_mem_singleton, List.forall_mem_map]
  refine ⟨⟨⟨⟨single, error⟩, counts _⟩, fun counted _ => kinds counted⟩, ?_⟩
  split
  · simp
  · exact List.forall_mem_singleton.mpr contracts

theorem splitOn_printSummary (counted : Summary.ofMessage message = .ok summary)
    (single : '\n' ∉ message.headline) (wellFormed : ∀ entry ∈ message.log, entry.WellFormed) :
    Text.splitOn '\n' (printSummary summary) = summaryLines summary ++ [[]] :=
  splitOn_lines (newline_not_mem_summaryLines counted single wellFormed)

end Counts

/-- The run is on a command line that asks for lines, and ends well. -/
structure EndsInText (env : File.Environment) (input : Input) (arguments : List Text)
    (options : Options) (output : Text) : Prop where
  accepted : Request.ofArguments arguments = .ok (.run options)
  asText : options.asJson = false
  ended : ∃ complaints, perform env input arguments = (.exited 0, ⟨output, complaints⟩)

section Output

variable {env : File.Environment} {input : Input} {arguments : List Text} {options : Options}
  {message : Message} {source output : Text}

/-- The output of such a run is what it shows, as lines. -/
theorem EndsInText.exists_shown (ends : EndsInText env input arguments options output) :
    ∃ things, shown env input options = .ok things ∧ output = linesOf things := by
  obtain ⟨accepted, asText, complaints, ended⟩ := ends
  obtain ⟨things, shows, same⟩ := exists_shown_of_perform accepted ended
  rw [asText] at same
  exact ⟨things, shows, same⟩

/-- A message that is loaded has been read: its headline is one line, and its log that of a text. -/
theorem logged_of_load (loaded : load env input source = .ok message) :
    '\n' ∉ message.headline ∧ ∀ entry ∈ message.log, entry.IsLogged := by
  obtain ⟨text, accepted⟩ := exists_read_of_load loaded
  refine ⟨?_, fun entry member => ⟨text, message, accepted, member⟩⟩
  obtain ⟨-, rfl⟩ := Message.read_eq_ok_iff.mp accepted
  intro member
  exact absurd (List.mem_takeWhile_imp member) (by decide)

/-- Output as lines has one line for each thing that is shown. Cut at its line feeds, that of a
message with `n` selected entries has `n + 4` pieces, the last of them empty, and the line of an
entry tells its index, its kind and its contract, or a hyphen if it has none. That of a summary has
two lines, and one more for a host error, for each kind that has entries and for the contracts, if
there are any; cut at its commas, the list of contracts gives them back. -/
theorem output_lines (ends : EndsInText env input arguments options output) :
    (options.summary = false → ∃ message log, load env input options.source = .ok message ∧
      options.select message.log = .ok log ∧
      Text.splitOn '\n' output = message.headline :: (log.map entryText ++
        [[], foundText log.length, []]) ∧
      (Text.splitOn '\n' output).length = log.length + 4 ∧
      ∀ entry ∈ log, readTag? (entryText entry) =
        some ⟨entry.index, entry.kind, entry.contract.getD "-"⟩) ∧
    (options.summary = true → ∃ message summary, load env input options.source = .ok message ∧
      Summary.ofMessage message = .ok summary ∧
      Text.splitOn '\n' output = summaryLines summary ++ [[]] ∧
      (summaryLines summary).length =
        2 + (if summary.hostError.isSome then 1 else 0) +
          summary.kindCounts.countP (·.2 ≠ 0) + (if summary.contracts = [] then 0 else 1) ∧
      (summary.contracts ≠ [] → ∃ list : Text,
        (summaryLines summary).getLast? = some ("contracts: " ++ list) ∧
          Text.splitAround ", " list = summary.contracts)) := by
  obtain ⟨things, shows, rfl⟩ := ends.exists_shown
  constructor
  · intro asked
    obtain ⟨message, log, loaded, chosen, rfl⟩ := exists_selected_of_shown asked shows
    obtain ⟨single, loggedAll⟩ := logged_of_load loaded
    have logged : ∀ entry ∈ log, entry.IsLogged := fun entry member =>
      loggedAll entry (subset_of_select chosen member)
    have pieces : Text.splitOn '\n' (printEntries ⟨message.headline, log⟩) = _ :=
      splitOn_printEntries single logged
    refine ⟨message, log, loaded, chosen, ?_, ?_, fun entry member => ?_⟩
    · rw [linesOf, pieces, entriesLines, List.append_assoc, List.append_assoc]
      rfl
    · rw [linesOf, pieces]
      simp [entriesLines]
    · exact readTag?_entryText (logged entry member).wellFormed
  · intro asked
    obtain ⟨message, summary, loaded, counted, rfl⟩ := exists_summary_of_shown asked shows
    obtain ⟨single, logged⟩ := logged_of_load loaded
    have wellFormed : ∀ entry ∈ message.log, entry.WellFormed := fun entry member =>
      (logged entry member).wellFormed
    refine ⟨message, summary, loaded, counted, splitOn_printSummary counted single wellFormed,
      length_summaryLines summary, fun present => ?_⟩
    exact ⟨_, getLast?_summaryLines present,
      splitAround_contracts present (contract_run counted wellFormed)⟩

end Output

/-- A message with an entry that has a bracket in its contract, a line separator in its topic, and
the beginning of another entry in its data. -/
def forgedMessage : Message :=
  ⟨"Error(A, b)", [⟨1, .contract, some "C]", ["a\u2028b"], "0: ["⟩]⟩

def forged : Input where
  bytes :=
    Text.Utf8.encode "Error(A, b)\n1: [Contract Event] contract:C], topics:[a\u2028b], data:0: ["

/-- What is printed of that message. -/
def forgedOutput : Text :=
  "Error(A, b)\n1: [Contract Event] C] topics=[a\u2028b] data=0: [\n\nFound 1 matching entries.\n"

/-- What is printed of its summary. -/
def forgedSummary : Text :=
  "Error(A, b)\nhost error: A b\nentries: 1 (failed: 0, contract events: 1)\n" ++
  "  Contract Event: 1\ncontracts: C]\n"

/-- The run that lists the entries has five pieces, and the one that counts them lists a contract. -/
theorem output_lines_forged :
    EndsInText (single "none" []) forged [] {} forgedOutput ∧
      (Text.splitOn '\n' forgedOutput).length = 5 ∧
      readTag? "1: [Contract Event] C] topics=[a\u2028b] data=0: [" =
        some ⟨1, .contract, "C]"⟩ ∧
      EndsInText (single "none" []) forged ["--summary"] { summary := true } forgedSummary ∧
      ∃ (lines : List Text) (list : Text), Text.splitOn '\n' forgedSummary = lines ++ [[]] ∧
        lines.getLast? = some ("contracts: " ++ list) ∧
        Text.splitAround ", " list = (["C]"] : List Text) := by
  have loaded : load (single "none" []) forged "-" = .ok forgedMessage := by decide +kernel
  have plain : Request.ofArguments [] = .ok (.run {}) := by decide +kernel
  have counting : Request.ofArguments ["--summary"] = .ok (.run { summary := true }) := by
    decide +kernel
  have ends : EndsInText (single "none" []) forged [] {} forgedOutput :=
    ⟨plain, rfl, [], perform_of_print plain rfl loaded (by decide +kernel)⟩
  have counts : EndsInText (single "none" []) forged ["--summary"] { summary := true }
      forgedSummary := ⟨counting, rfl, [], perform_of_print counting rfl loaded (by decide +kernel)⟩
  obtain ⟨_, log, found, chosen, -, length, tags⟩ := (output_lines ends).1 rfl
  cases loaded.symm.trans found
  cases chosen
  have written : entryText ⟨1, .contract, some "C]", ["a\u2028b"], "0: ["⟩ =
      "1: [Contract Event] C] topics=[a\u2028b] data=0: [" := by decide +kernel
  have tag := tags _ (List.mem_singleton_self _)
  rw [written] at tag
  obtain ⟨_, summary, found, counted, split, -, contracts⟩ := (output_lines counts).2 rfl
  cases loaded.symm.trans found
  cases counted
  obtain ⟨list, last, around⟩ := contracts (by decide)
  exact ⟨ends, length, tag, counts, _, list, split, last, around⟩

end Command

end SimTriage
