import SimTriage.Proofs.Command.Shown
import SimTriage.Proofs.Form
import SimTriage.Proofs.Json.Written

/-!
Output as JSON. It is ASCII, and it loses nothing of what a run shows: the selected entries of a
message, or its summary, are rebuilt from it.
-/

set_option autoImplicit false

namespace SimTriage.Command

/-- The run is on a command line that asks for JSON, and ends well. -/
structure EndsInJson (env : File.Environment) (input : Input) (arguments : List Text)
    (options : Options) (output : Text) : Prop where
  accepted : Request.ofArguments arguments = .ok (.run options)
  asJson : options.asJson = true
  ended : ∃ complaints, perform env input arguments = (.exited 0, ⟨output, complaints⟩)

/-- What a JSON form shows. -/
def shownBy? (json : Json) : Option (Message ⊕ Summary) :=
  match Message.ofJson? json with
  | some selected => some (.inl selected)
  | none => (Summary.ofJson? json).map .inr

theorem shownBy?_formOf (things : Message ⊕ Summary) : shownBy? (formOf things) = some things := by
  cases things with
  | inl selected => rw [shownBy?, formOf, Message.ofJson?_toJson]
  | inr summary =>
      -- a summary has no log
      have other : Message.ofJson? summary.toJson = none := by
        simp [Message.ofJson?, Summary.toJson, Json.field?, Json.member?, List.lookup_cons]
      rw [shownBy?, formOf, other, Summary.ofJson?_toJson]
      rfl

section Output

variable {env : File.Environment} {input : Input} {arguments : List Text} {options : Options}
  {message : Message} {output : Text}

/-- The output of such a run is the JSON form of what it shows. -/
theorem EndsInJson.exists_shown (ends : EndsInJson env input arguments options output) :
    ∃ things, shown env input options = .ok things ∧ output = printJson (formOf things) := by
  obtain ⟨accepted, asJson, complaints, ended⟩ := ends
  obtain ⟨things, shows, same⟩ := exists_shown_of_perform accepted ended
  rw [if_pos asJson] at same
  exact ⟨things, shows, same⟩

theorem read?_printJson (value : Json) : Json.read? (printJson value) = some value :=
  Json.read?_write value

theorem isAscii_printJson (value : Json) : Text.IsAscii (printJson value) := by
  simp [printJson, line, Json.write, Json.isAscii_writeAt]

/-- Output as JSON is ASCII and an object, and what the run shows is rebuilt from it: the headline
with the selected entries, or the summary. So runs that show different things never print the same
text. -/
theorem json_rebuilds (ends : EndsInJson env input arguments options output) :
    Text.IsAscii output ∧
    (∃ members, Json.read? output = some (.object members)) ∧
    (options.summary = false → ∃ message log, load env input options.source = .ok message ∧
      options.select message.log = .ok log ∧
      (Json.read? output).bind Message.ofJson? = some ⟨message.headline, log⟩) ∧
    (options.summary = true → ∃ message summary, load env input options.source = .ok message ∧
      Summary.ofMessage message = .ok summary ∧
      (Json.read? output).bind Summary.ofJson? = some summary) ∧
    ∀ (env' : File.Environment) (input' : Input) (arguments' : List Text) (options' : Options),
      EndsInJson env' input' arguments' options' output →
        shown env' input' options' = shown env input options := by
  obtain ⟨things, shows, rfl⟩ := ends.exists_shown
  refine ⟨isAscii_printJson _, ?_, fun asked => ?_, fun asked => ?_, ?_⟩
  · rw [read?_printJson]
    cases things <;> exact ⟨_, rfl⟩
  · rw [shown_selected asked] at shows
    obtain ⟨message, loaded, shows⟩ := bind_eq_ok_iff.mp shows
    obtain ⟨log, chosen, same⟩ := bind_eq_ok_iff.mp shows
    cases same
    refine ⟨message, log, loaded, chosen, ?_⟩
    rw [read?_printJson]
    exact Message.ofJson?_toJson _
  · rw [shown_summary asked] at shows
    obtain ⟨message, loaded, shows⟩ := bind_eq_ok_iff.mp shows
    obtain ⟨summary, counted, same⟩ := bind_eq_ok_iff.mp shows
    cases same
    refine ⟨message, summary, loaded, liftM_eq_ok_iff.mp counted, ?_⟩
    rw [read?_printJson]
    exact Summary.ofJson?_toJson _
  · intro env' input' arguments' options' other
    obtain ⟨others, showsOther, same⟩ := other.exists_shown
    have read := read?_printJson (formOf things)
    rw [same, read?_printJson] at read
    have forms := congrArg shownBy? (Option.some.inj read)
    rw [shownBy?_formOf, shownBy?_formOf] at forms
    rw [shows, showsOther, Option.some.inj forms]

end Output

/-- A message with quotes, a backslash and a clef above U+FFFF. -/
def cleffed : Input where
  bytes := Text.Utf8.encode "\"𝄞\\\n1: [Contract Event] topics:[a, b], data:é"

/-- What is printed of that message. -/
def cleffedOutput : Text :=
  "\x7b\n  \"main_error\": \"\\\"\\ud834\\udd1e\\\\\",\n  \"event_log\": [\n    \x7b\n" ++
  "      \"index\": 1,\n      \"type\": \"Contract Event\",\n      \"contract\": null,\n" ++
  "      \"topics\": [\n        \"a\",\n        \"b\"\n      ],\n" ++
  "      \"data\": \"\\u00e9\"\n    \x7d\n  ]\n\x7d\n"

theorem json_rebuilds_clef :
    EndsInJson (single "none" []) cleffed ["--json"] { asJson := true } cleffedOutput ∧
      Text.IsAscii cleffedOutput ∧
      (Json.read? cleffedOutput).bind Message.ofJson? =
        some ⟨"\"𝄞\\", [⟨1, .contract, none, ["a", "b"], "é"⟩]⟩ := by
  have ends : EndsInJson (single "none" []) cleffed ["--json"] { asJson := true } cleffedOutput :=
    ⟨by decide +kernel, rfl, [], by decide +kernel⟩
  have loaded : load (single "none" []) cleffed "-" =
      .ok ⟨"\"𝄞\\", [⟨1, .contract, none, ["a", "b"], "é"⟩]⟩ := by decide +kernel
  obtain ⟨ascii, -, rebuilt, -⟩ := json_rebuilds ends
  obtain ⟨message, log, found, chosen, read⟩ := rebuilt rfl
  cases loaded.symm.trans found
  cases chosen
  exact ⟨ends, ascii, read⟩

end SimTriage.Command
