import SimTriage.Proofs.Command.Writing

/-!
What a run shows of the message that it reads, however it is printed. A run that ends well prints
this and nothing else.
-/

set_option autoImplicit false

namespace SimTriage.Command

/-- What a run shows, however it is printed: a message with the entries that the options select, or
its summary. -/
def shown (env : File.Environment) (input : Input) (options : Options) :
    Except Failure (Message ⊕ Summary) := do
  let message ← load env input options.source
  if options.summary then
    let summary ← Summary.ofMessage message
    return .inr summary
  else
    let log ← options.select message.log
    return .inl ⟨message.headline, log⟩

/-- The JSON form of what is shown. -/
def formOf : Message ⊕ Summary → Json
  | .inl selected => selected.toJson
  | .inr summary => summary.toJson

/-- What is shown, as lines. -/
def linesOf : Message ⊕ Summary → Text
  | .inl selected => printEntries selected
  | .inr summary => printSummary summary

variable {env : File.Environment} {input : Input} {arguments : List Text} {options : Options}
  {message : Message} {things : Message ⊕ Summary} {output complaints : Text}

theorem shown_summary (asked : options.summary = true) :
    shown env input options = (do
      let message ← load env input options.source
      return .inr (← Summary.ofMessage message)) := by
  simp only [shown, asked, ↓reduceIte]

theorem shown_selected (asked : options.summary = false) :
    shown env input options = (do
      let message ← load env input options.source
      return .inl ⟨message.headline, ← options.select message.log⟩) := by
  simp only [shown, asked, Bool.false_eq_true, ↓reduceIte]

theorem exists_summary_of_shown (asked : options.summary = true)
    (shows : shown env input options = .ok things) :
    ∃ message summary, load env input options.source = .ok message ∧
      Summary.ofMessage message = .ok summary ∧ things = .inr summary := by
  rw [shown_summary asked] at shows
  obtain ⟨message, loaded, shows⟩ := bind_eq_ok_iff.mp shows
  obtain ⟨summary, counted, same⟩ := bind_eq_ok_iff.mp shows
  cases same
  exact ⟨message, summary, loaded, liftM_eq_ok_iff.mp counted, rfl⟩

theorem exists_selected_of_shown (asked : options.summary = false)
    (shows : shown env input options = .ok things) :
    ∃ message log, load env input options.source = .ok message ∧
      options.select message.log = .ok log ∧ things = .inl ⟨message.headline, log⟩ := by
  rw [shown_selected asked] at shows
  obtain ⟨message, loaded, shows⟩ := bind_eq_ok_iff.mp shows
  obtain ⟨log, chosen, same⟩ := bind_eq_ok_iff.mp shows
  cases same
  exact ⟨message, log, loaded, chosen, rfl⟩

/-- What is printed of a message is what is shown, in the form that the options ask for. -/
theorem exists_shown_of_print (loaded : load env input options.source = .ok message)
    (printed : print options message = .ok output) :
    ∃ things, shown env input options = .ok things ∧
      output = if options.asJson then printJson (formOf things) else linesOf things := by
  cases asked : options.summary with
  | true =>
      simp only [print, asked, ↓reduceIte] at printed
      obtain ⟨summary, counted, same⟩ := bind_eq_ok_iff.mp printed
      cases same
      refine ⟨.inr summary, ?_, rfl⟩
      rw [shown_summary asked]
      exact bind_eq_ok_iff.mpr ⟨message, loaded, bind_eq_ok_iff.mpr ⟨summary, counted, rfl⟩⟩
  | false =>
      simp only [print, asked, Bool.false_eq_true, ↓reduceIte] at printed
      obtain ⟨log, chosen, same⟩ := bind_eq_ok_iff.mp printed
      cases same
      refine ⟨.inl ⟨message.headline, log⟩, ?_, rfl⟩
      rw [shown_selected asked]
      exact bind_eq_ok_iff.mpr ⟨message, loaded, bind_eq_ok_iff.mpr ⟨log, chosen, rfl⟩⟩

/-- A run that ends well has printed what it shows. -/
theorem exists_shown_of_perform (accepted : Request.ofArguments arguments = .ok (.run options))
    (ended : perform env input arguments = (.exited 0, ⟨output, complaints⟩)) :
    ∃ things, shown env input options = .ok things ∧
      output = if options.asJson then printJson (formOf things) else linesOf things := by
  rcases perform_cases env input arguments with
    ⟨help, -⟩ | ⟨_, message, _, asked, loaded, printed, written⟩ | ⟨broken, -, -⟩
  · cases accepted.symm.trans help
  · cases accepted.symm.trans asked
    cases ended.symm.trans written
    exact exists_shown_of_print loaded printed
  · rw [ended] at broken
    exact absurd rfl broken

/-- A run that has read a message ends well if it has something to print of it. -/
theorem perform_of_print (accepted : Request.ofArguments arguments = .ok (.run options))
    (alone : options.serve = false) (loaded : load env input options.source = .ok message)
    (printed : print options message = .ok output) :
    perform env input arguments = (.exited 0, ⟨output, []⟩) := by
  have done : load env input options.source >>= print options = .ok output := by
    rw [loaded]
    exact printed
  have ran : runOptions env input options = success output := by
    unfold runOptions
    rw [if_neg (by simp [alone])]
    rw [done]
  rw [perform_eq, run, accepted]
  exact congrArg Outcome.written ran

end SimTriage.Command
