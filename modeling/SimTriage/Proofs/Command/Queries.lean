import SimTriage.Proofs.Command.Json
import SimTriage.Proofs.Command.Routes
import SimTriage.Proofs.Query
import SimTriage.Proofs.Summary
import SimTriage.Proofs.Text.Integer
import SimTriage.Proofs.Text.Split

/-!
Queries on the command line. The options that a query is written as select the entries of which the
answer to the query has the first.
-/

set_option autoImplicit false

namespace SimTriage

open Command (Given Options)
open Event (Entry Kind)

namespace Query

/-- The query can be written as options: names can be told apart by commas and one of them is not
blank, and no value is the mark that stands for none. -/
structure IsWritable (query : Query) : Prop where
  apart : ∀ names ∈ query.kindNames, ∀ name ∈ names, ',' ∉ name
  filled : ∀ names ∈ query.kindNames, ∃ name ∈ names, Text.strip name ≠ []
  contract : ∀ contract ∈ query.contract, contract ≠ "--"
  part : ∀ part ∈ query.part, part ≠ "--"

/-- The arguments that put the query to standard input, but for its limit. -/
def arguments (query : Query) : List Text :=
  let source : List Text := ["-", "--json"]
  let kinds := query.kindNames.map fun names => ("--types=" : Text) ++ Text.join "," names
  let contract := query.contract.map fun contract => ("--contract=" : Text) ++ contract
  let part := query.part.map fun part => ("--contains=" : Text) ++ part
  let failedOnly : List Text := if query.failedOnly then ["--failed-only"] else []
  source ++ kinds.toList ++ contract.toList ++ part.toList ++ failedOnly

/-- The options that these arguments are. -/
def settings (query : Query) : List Given :=
  [⟨.json, true, none⟩] ++
    (query.kindNames.map fun names => ⟨.kinds, true, some (Text.join "," names)⟩).toList ++
    (query.contract.map fun contract => ⟨.contract, true, some contract⟩).toList ++
    (query.part.map fun part => ⟨.part, true, some part⟩).toList ++
    if query.failedOnly then [⟨.failedOnly, true, none⟩] else []

/-- What the options come to. -/
def options (query : Query) (limit : Option Int) : Options where
  kinds := (Kind.chosen query.kindNames).map .value
  contract := query.contract.map .value
  part := query.part.map .value
  failedOnly := query.failedOnly
  limit := limit.map .value
  asJson := true

variable {query : Query} {log : List Entry}

theorem arguments_eq (query : Query) :
    query.arguments = ("-" : Text) :: query.settings.map Given.written := by
  have value : ∀ (switch : Command.Switch) (start : Text), start = switch.name ++ ['='] →
      ∀ text, Given.written ⟨switch, true, some text⟩ = start ++ text := by
    rintro switch _ rfl text
    rw [Given.written, List.append_assoc]
    rfl
  have kinds := value .kinds "--types=" (by decide)
  have contract := value .contract "--contract=" (by decide)
  have part := value .part "--contains=" (by decide)
  have failedOnly : (if query.failedOnly then [(⟨.failedOnly, true, none⟩ : Given)] else []).map
      Given.written = if query.failedOnly then [("--failed-only" : Text)] else [] := by
    cases query.failedOnly <;> rfl
  simp only [arguments, settings, List.map_append, ← Option.toList_map, Option.map_map,
    Function.comp_def, kinds, contract, part, failedOnly]
  rfl

/-- Names written between commas are read as the kinds that they mean. -/
theorem readKinds_join (writable : query.IsWritable) (known : query.NamesKinds) {names : List Text}
    (given : query.kindNames = some names) :
    ∃ kinds, Kind.chosen query.kindNames = some kinds ∧
      Command.Request.readKinds (Text.join "," names) = .ok kinds := by
  obtain ⟨name, member, solid⟩ := writable.filled names given
  have cut : Text.splitOn ',' (Text.join "," names) = names :=
    Text.splitOn_join (List.ne_nil_of_mem member) (writable.apart names given)
  have ownKnown : ∀ name ∈ names, ¬ Kind.IsUnknown name := by
    rw [NamesKinds, Query.names, given] at known
    exact known
  obtain ⟨kinds, chosen⟩ := Kind.exists_chosen ownKnown ⟨name, member, solid⟩
  have chose : Kind.choose (some names) = .ok (some kinds) :=
    Kind.choose_eq_ok_iff.mpr ⟨ownKnown, chosen.symm⟩
  refine ⟨kinds, by rw [given, chosen], ?_⟩
  rw [Command.Request.readKinds, cut, chose]

/-- The mark that leaves an option without its value names no kind. -/
theorem join_names_ne_mark (writable : query.IsWritable) (known : query.NamesKinds)
    {names : List Text} (given : query.kindNames = some names) : Text.join "," names ≠ "--" := by
  intro mark
  obtain ⟨kinds, -, read⟩ := readKinds_join writable known given
  rw [mark] at read
  cases read

theorem isSetting_of_mem_settings (writable : query.IsWritable) (known : query.NamesKinds) :
    ∀ given ∈ query.settings, given.IsSetting := by
  simp only [settings, List.forall_mem_append]
  refine ⟨⟨⟨⟨?_, ?_⟩, ?_⟩, ?_⟩, ?_⟩
  · simpa using Given.IsSetting.flag rfl (by decide)
  · cases given : query.kindNames with
    | none => simp
    | some names => simpa using Given.IsSetting.value rfl (join_names_ne_mark writable known given)
  · cases given : query.contract with
    | none => simp
    | some contract =>
        simpa using Given.IsSetting.value rfl (writable.contract contract given)
  · cases given : query.part with
    | none => simp
    | some part =>
        simpa using Given.IsSetting.value rfl (writable.part part given)
  · cases query.failedOnly with
    | false => simp
    | true => simpa using Given.IsSetting.flag rfl (by decide)

section Set

variable {options changed last : Options} {first second : List Given}

theorem foldlM_set_append (now : first.foldlM Options.set options = .ok changed)
    (later : second.foldlM Options.set changed = .ok last) :
    (first ++ second).foldlM Options.set options = .ok last := by
  rw [List.foldlM_append, now]
  exact later

/-- An option that is given or not. -/
theorem foldlM_set_toList {α : Type} (given : Option α) (write : α → Given)
    (put : Option α → Options)
    (present : ∀ a, given = some a → (put none).set (write a) = .ok (put (some a))) :
    (given.map write).toList.foldlM Options.set (put none) = .ok (put given) := by
  cases given with
  | none => rfl
  | some a =>
      change (put none).set (write a) >>= pure = _
      rw [present a rfl]
      rfl

end Set

theorem set_kinds (writable : query.IsWritable) (known : query.NamesKinds) {names : List Text}
    (given : query.kindNames = some names) (options : Options) :
    options.set ⟨.kinds, true, some (Text.join "," names)⟩ =
      .ok { options with kinds := (Kind.chosen (some names)).map .value } := by
  obtain ⟨kinds, chosen, read⟩ := readKinds_join writable known given
  have value : Command.Request.operand .kinds Command.Request.readKinds (Text.join "," names) =
      .ok (.value kinds) := Command.Request.operand_eq_ok_iff.mpr ⟨kinds, read, rfl⟩
  rw [given] at chosen
  simp only [Options.set, Command.Request.setValue, value, chosen]
  rfl

theorem foldlM_settings (writable : query.IsWritable) (known : query.NamesKinds) :
    query.settings.foldlM Options.set {} = .ok (query.options none) := by
  -- each option comes once, on options in which it is not set yet
  let chosen := (Kind.chosen query.kindNames).map Command.Operand.value
  have json : [(⟨.json, true, none⟩ : Given)].foldlM Options.set {} = .ok { asJson := true } := rfl
  have kinds := foldlM_set_toList query.kindNames
    (fun names => ⟨.kinds, true, some (Text.join "," names)⟩)
    (fun names => { asJson := true, kinds := (Kind.chosen names).map .value })
    fun names given => set_kinds writable known given _
  have contract := foldlM_set_toList query.contract
    (fun contract => ⟨.contract, true, some contract⟩)
    (fun contract => { asJson := true, kinds := chosen, contract := contract.map .value })
    fun _ _ => rfl
  have part := foldlM_set_toList query.part
    (fun part => ⟨.part, true, some part⟩)
    (fun part =>
      { asJson := true, kinds := chosen, contract := query.contract.map .value,
        part := part.map .value })
    fun _ _ => rfl
  have failedOnly : ∀ options : Options, options.failedOnly = false →
      (if query.failedOnly then [(⟨.failedOnly, true, none⟩ : Given)] else []).foldlM
        Options.set options = .ok { options with failedOnly := query.failedOnly } := by
    intro options unset
    cases options
    cases unset
    cases query.failedOnly <;> rfl
  have first := foldlM_set_append json kinds
  have second := foldlM_set_append first contract
  have third := foldlM_set_append second part
  exact foldlM_set_append third (failedOnly _ rfl)

/-- The options select as the query does, up to a limit of their own. -/
theorem select_options (query : Query) (limit : Option Int) (log : List Entry) :
    (query.options limit).select log = Filter.apply { query.meant with limit } log := by
  unfold Options.select Options.filter options meant
  cases Kind.chosen query.kindNames <;> cases query.contract <;> cases query.part <;>
    cases limit <;> rfl

theorem selects_limited_iff (known : query.NamesKinds) (limit : Option Int) {entry : Entry} :
    Filter.Selects { query.meant with limit } entry ↔ query.Selects entry := by
  rw [← selects_meant_iff known]
  constructor
  · exact fun selects => ⟨selects.kind, selects.failed, selects.contract, selects.part⟩
  · exact fun selects => ⟨selects.kind, selects.failed, selects.contract, selects.part⟩

theorem select_unlimited (known : query.NamesKinds) (log : List Entry) :
    (query.options none).select log = .ok (log.filter (query.Selects ·)) := by
  rw [select_options, Filter.apply_of_unlimited rfl]
  simp only [selects_limited_iff known]

theorem select_limited (known : query.NamesKinds) {limit : Nat} (positive : 0 < limit)
    (log : List Entry) :
    (query.options (some limit)).select log = .ok ((log.filter (query.Selects ·)).take limit) := by
  rw [select_options, Filter.apply_of_limit rfl (Int.natCast_pos.mpr positive), Int.toNat_natCast]
  simp only [selects_limited_iff known]

section Run

variable {text : Text} {arguments : List Text} {limit : Option Int} {selected : List Entry}

/-- The run ends well, and its output reads as an object with this headline and the entries of this
log. -/
def Prints (outcome : Command.Outcome) (headline : Text) (log : List Entry) : Prop :=
  ∃ output members, outcome = .finished ⟨0, output, []⟩ ∧
    Json.read? output = some (.object members) ∧
    (Json.object members).member? "main_error" = some (.string headline) ∧
    (Json.object members).member? "event_log" = some (.array (log.map Entry.toJson))

/-- Options that select entries of the message on standard input print them. -/
theorem prints_options (env : File.Environment) (lineEnds : Command.LineEnds)
    (noReturn : '\r' ∉ text)
    (asked : Command.Request.ofArguments arguments = .ok (.run (query.options limit)))
    {message : Message} (accepted : Message.read text = .ok message)
    (selects : (query.options limit).select message.log = .ok selected) :
    Prints (Command.run env ⟨Text.Utf8.encode text, lineEnds⟩ arguments) message.headline
      selected := by
  let route : Command.Route := ⟨env, ⟨Text.Utf8.encode text, lineEnds⟩, "-"⟩
  have supplies : route.Supplies (Text.Utf8.encode text) := rfl
  have unifies : route.Unifies text := fun _ => Or.inr noReturn
  have received : route.received text = text :=
    unifies.received_eq.trans (Text.unifyNewlines_of_not_mem noReturn)
  have loaded : Command.load env ⟨Text.Utf8.encode text, lineEnds⟩ "-" = .ok message := by
    have same := supplies.load_eq (Text.decode_encode .refuse text)
    rw [received, accepted] at same
    exact same
  have printed : Command.print (query.options limit) message =
      .ok (Command.printJson (Message.toJson ⟨message.headline, selected⟩)) := by
    rw [Command.print, selects]
    rfl
  have ran : (Command.load env ⟨Text.Utf8.encode text, lineEnds⟩ (query.options limit).source >>=
      Command.print (query.options limit)) =
      .ok (Command.printJson (Message.toJson ⟨message.headline, selected⟩)) :=
    bind_eq_ok_iff.mpr ⟨message, loaded, printed⟩
  rw [Command.run_eq env _ asked rfl, ran]
  exact ⟨_, _, rfl, Command.read?_printJson _, rfl, rfl⟩

/-- The arguments of a query come to its options. -/
theorem ofArguments_arguments (writable : query.IsWritable) (known : query.NamesKinds) :
    Command.Request.ofArguments query.arguments = .ok (.run (query.options none)) := by
  have filled : query.settings ≠ [] := by simp [settings]
  have set := foldlM_settings writable known
  rw [arguments_eq,
    Command.Request.ofArguments_written filled (isSetting_of_mem_settings writable known), set]
  rfl

/-- One more argument sets a limit. -/
theorem ofArguments_limited (writable : query.IsWritable) (known : query.NamesKinds) {k : Nat}
    (positive : 1 ≤ k) (short : k < 10 ^ Text.maxDigits) :
    Command.Request.ofArguments (query.arguments ++ [("--limit=" : Text) ++ Text.ofNat k]) =
      .ok (.run (query.options (some k))) := by
  have length : (Text.ofNat k).length ≤ Text.maxDigits := Text.ofNat_length_le (by decide) short
  have read := Command.Request.readLimit_ofNat positive length
  have value : Command.Request.operand .limit Command.Request.readLimit (Text.ofNat k) =
      .ok (.value (k : Int)) := Command.Request.operand_eq_ok_iff.mpr ⟨_, read, rfl⟩
  have present : Text.ofNat k ≠ "--" := fun mark => by
    rw [mark] at read
    cases read
  have limit : Given.IsSetting ⟨.limit, true, some (Text.ofNat k)⟩ := .value rfl present
  have settings : ∀ given ∈ query.settings ++ [⟨.limit, true, some (Text.ofNat k)⟩],
      given.IsSetting :=
    List.forall_mem_append.mpr
      ⟨isSetting_of_mem_settings writable known, List.forall_mem_singleton.mpr limit⟩
  have last : [(⟨.limit, true, some (Text.ofNat k)⟩ : Given)].foldlM Options.set
      (query.options none) = .ok (query.options (some k)) := by
    simp only [List.foldlM_cons, Options.set, Command.Request.setValue, value]
    rfl
  have set := foldlM_set_append (foldlM_settings writable known) last
  have written : query.arguments ++ [("--limit=" : Text) ++ Text.ofNat k] = ("-" : Text) ::
      (query.settings ++ [(⟨.limit, true, some (Text.ofNat k)⟩ : Given)]).map Given.written := by
    rw [arguments_eq, List.map_append]
    rfl
  rw [written, Command.Request.ofArguments_written (by simp) settings, set]
  rfl

end Run

end Query

/-- A query that is answered can be put on the command line. There it prints JSON with a log of which
the answer has the first entries, as many as its limit allows; a limit on the command line prints as
many of that log. -/
theorem run_arguments {validator : Schema.Validator} {text : Text} {query : Query} {answer : Json}
    (noReturn : '\r' ∉ text) (writable : query.IsWritable)
    (answered : parseText validator text query = .ok answer) :
    ∃ (headline : Text) (log : List Entry),
      answer.member? "main_error" = some (.string headline) ∧
      answer.member? "event_log" = some (.array ((log.take query.bound).map Entry.toJson)) ∧
      ∀ env lineEnds,
        Query.Prints (Command.run env ⟨Text.Utf8.encode text, lineEnds⟩ query.arguments)
          headline log ∧
        ∀ k : Nat, 1 ≤ k → k < 10 ^ Text.maxDigits →
          Query.Prints (Command.run env ⟨Text.Utf8.encode text, lineEnds⟩
              (query.arguments ++ [("--limit=" : Text) ++ Text.ofNat k]))
            headline (log.take k) := by
  obtain ⟨message, answer, accepted, answers, rfl⟩ := parseText_eq_ok_iff.mp answered
  obtain ⟨known, -, -, same⟩ := Query.answer_eq_ok_iff.mp answers
  refine ⟨message.headline, message.log.filter (query.Selects ·), ?_, ?_, fun env lineEnds =>
    ⟨?_, fun k positive short => ?_⟩⟩
  · rw [same]
    rfl
  · rw [same]
    rfl
  · exact Query.prints_options env lineEnds noReturn
      (Query.ofArguments_arguments writable known) accepted
      (Query.select_unlimited known message.log)
  · exact Query.prints_options env lineEnds noReturn
      (Query.ofArguments_limited writable known positive short) accepted
      (Query.select_limited known positive message.log)

/-- Two entries of the same kind. -/
def twiceText : Text :=
  "boom\n1: [Contract Event] topics:[a], data:1\n0: [Contract Event] topics:[b], data:2"

/-- The first entry of a kind, next to a name that is blank. -/
def firstQuery : Query := { kindNames := some [" ", "contract-event"], limit := some 1 }

/-- The answer has one of the entries. The command line prints a log that begins with it, and up to a
limit of one it prints that entry alone. -/
theorem run_arguments_first :
    '\r' ∉ twiceText ∧ firstQuery.IsWritable ∧
      parseText .lax twiceText firstQuery =
        .ok (Answer.toJson ⟨"boom", none, 2, [⟨1, .contract, none, ["a"], "1"⟩]⟩) ∧
      ∀ env lineEnds, ∃ log : List Entry,
        (log.take 1).map Entry.toJson = [Entry.toJson ⟨1, .contract, none, ["a"], "1"⟩] ∧
        Query.Prints (Command.run env ⟨Text.Utf8.encode twiceText, lineEnds⟩
          ["-", "--json", "--types= ,contract-event"]) "boom" log ∧
        Query.Prints (Command.run env ⟨Text.Utf8.encode twiceText, lineEnds⟩
          ["-", "--json", "--types= ,contract-event", "--limit=1"]) "boom" (log.take 1) := by
  have noReturn : '\r' ∉ twiceText := by decide
  have writable : firstQuery.IsWritable := by
    refine ⟨?_, ?_, ?_, ?_⟩
    · simp [firstQuery]
    · simp [firstQuery]
      decide
    · simp [firstQuery]
    · simp [firstQuery]
  have answered : parseText .lax twiceText firstQuery =
      .ok (Answer.toJson ⟨"boom", none, 2, [⟨1, .contract, none, ["a"], "1"⟩]⟩) := by
    let one : Entry := ⟨1, .contract, none, ["a"], "1"⟩
    let two : Entry := ⟨0, .contract, none, ["b"], "2"⟩
    have accepted : Message.read twiceText = .ok ⟨"boom", [one, two]⟩ := by decide +kernel
    have answers : firstQuery.answer ⟨"boom", [one, two]⟩ = .ok ⟨"boom", none, 2, [one]⟩ := by
      decide +kernel
    exact parseText_eq_ok_iff.mpr ⟨_, _, accepted, answers, rfl⟩
  refine ⟨noReturn, writable, answered, fun env lineEnds => ?_⟩
  obtain ⟨headline, log, heads, first, prints⟩ := run_arguments noReturn writable answered
  obtain ⟨whole, limited⟩ := prints env lineEnds
  cases heads
  exact ⟨log, (Json.array.inj (Option.some.inj first)).symm, whole,
    limited 1 Nat.le.refl (Nat.one_lt_pow (by decide) (by decide))⟩

end SimTriage
