import SimTriage.Command.Options
import SimTriage.Proofs.Failure

/-!
What an accepted command line has made sure of. Every argument keeps the options usable, apart from
one that leaves an option without its value.
-/

set_option autoImplicit false

namespace SimTriage.Command

/-- The argument leaves an option without the value that belongs to it. -/
def Argument.IsVoid : Argument → Prop
  | .option given => given.switch.takesValue = true ∧ given.attached = some "--"
  | .word _ | .mark | .unknown _ => False

instance : DecidablePred Argument.IsVoid
  | .option given => inferInstanceAs (Decidable (given.switch.takesValue = true ∧ _))
  | .word _ | .mark | .unknown _ => inferInstanceAs (Decidable False)

/-- Some argument of the command line leaves an option without its value. -/
def HasVoid (texts : List Text) : Prop :=
  ∃ arguments, Argument.classifyAll texts = .ok arguments ∧ ∃ a ∈ arguments, a.IsVoid

instance : DecidablePred HasVoid := fun texts =>
  match classified : Argument.classifyAll texts with
  | .ok arguments => decidable_of_iff (∃ a ∈ arguments, a.IsVoid) (by simp [HasVoid, classified])
  | .error _ => isFalse (by simp [HasVoid, classified])

/-- A part to look for can be looked for, and a limit can be reached. -/
structure Options.Usable (options : Options) : Prop where
  part : options.part ≠ some .void
  limit : ∀ limit ∈ options.limit, ∃ n, limit = .value n ∧ 0 < n

theorem Options.Usable.exists_limit {options : Options} (usable : options.Usable) :
    ∃ limit : Option Int, options.limit = limit.map .value ∧ ∀ n ∈ limit, 0 < n := by
  cases given : options.limit with
  | none => exact ⟨none, rfl, by simp⟩
  | some limit =>
      obtain ⟨n, rfl, positive⟩ := usable.limit limit given
      exact ⟨some n, rfl, by simpa using positive⟩

namespace Request

variable {options changed : Options} {switch : Switch} {text : Text} {P : Options → Prop}

/-- What the source, values and flags leave as it is. -/
structure IsKept (P : Options → Prop) : Prop where
  source : ∀ {options} source, P options → P { options with source }
  value : ∀ {options changed switch text}, P options →
    setValue options switch text = .ok changed → P changed
  flag : ∀ {options} switch, P options → P (setFlag options switch)

/-- Behind all options only the source is still open. -/
theorem finish_eq_run {reading : Reading} {arguments : List Argument}
    (finished : finish reading arguments = .ok (.run options)) :
    ∃ source, options = { reading.options with source } := by
  unfold finish at finished
  split at finished
  rename_i read rest split
  split at finished
  · cases finished
    split at split
    · cases split
      exact ⟨_, rfl⟩
    · split at split <;> cases split <;> exact ⟨_, rfl⟩
  · cases finished

namespace IsKept

theorem finish (kept : IsKept P) {reading : Reading} {arguments : List Argument}
    (start : P reading.options) (finished : Request.finish reading arguments = .ok (.run options)) :
    P options := by
  obtain ⟨source, rfl⟩ := finish_eq_run finished
  exact kept.source source start

/-- What every argument leaves as it is holds of the options in the end, as it did in the
beginning. Only an argument that leaves an option without its value could change it. -/
theorem follow (kept : IsKept P) {reading : Reading} {arguments : List Argument}
    (start : P reading.options) (filled : ∀ a ∈ arguments, ¬ a.IsVoid)
    (followed : Request.follow reading arguments = .ok (.run options)) : P options := by
  fun_induction Request.follow reading arguments with
  | case1 reading => exact kept.finish start followed
  | case2 reading arguments => exact kept.finish start followed
  | case3 reading text arguments ih =>
      exact ih start (List.forall_mem_cons.mp filled).2 followed
  | case4 reading text arguments last => exact kept.finish start followed
  | case5 reading text arguments more hasSource ih =>
      exact ih start (List.forall_mem_cons.mp filled).2 followed
  | case6 reading text arguments more noSource ih =>
      exact ih (kept.source text start) (List.forall_mem_cons.mp filled).2 followed
  | case7 reading given takes arguments attached ih =>
      exact absurd ⟨takes, attached⟩ (filled _ List.mem_cons_self)
  | case8 reading given takes text arguments attached present ih =>
      obtain ⟨changed, set, followed⟩ := bind_eq_ok_iff.mp followed
      exact ih changed (kept.value start set) (List.forall_mem_cons.mp filled).2 followed
  | case9 reading given takes text arguments attached ih =>
      obtain ⟨changed, set, followed⟩ := bind_eq_ok_iff.mp followed
      have behind := (List.forall_mem_cons.mp filled).2
      exact ih changed (kept.value start set) (List.forall_mem_cons.mp behind).2 followed
  | case10 reading given arguments takes attached ends => cases followed
  | case11 reading given arguments takes attached isHelp => cases followed
  | case12 reading given arguments takes attached notHelp ih =>
      exact ih (kept.flag _ start) (List.forall_mem_cons.mp filled).2 followed
  | case13 reading given arguments takes text attached long => cases followed
  | case14 reading given arguments takes text attached short =>
      obtain ⟨_, -, ended⟩ := bind_eq_ok_iff.mp followed
      cases ended

/-- Of an accepted command line that leaves no option without its value, the options are as each
argument leaves them. -/
theorem ofArguments (kept : IsKept P) {texts : List Text} (start : P {})
    (filled : ¬ HasVoid texts) (accepted : Request.ofArguments texts = .ok (.run options)) :
    P options := by
  obtain ⟨arguments, classified, followed⟩ := bind_eq_ok_iff.mp accepted
  refine kept.follow start (fun a member void => ?_) followed
  exact filled ⟨arguments, classified, a, member, void⟩

end IsKept

theorem readLimit_pos {limit : Int} (accepted : readLimit text = .ok limit) : 0 < limit := by
  unfold readLimit at accepted
  split at accepted
  · cases accepted
  · split at accepted
    · cases accepted
    · cases accepted
      omega

theorem operand_eq_ok_iff {α : Type} {read : Text → Except Text α} {result : Operand α} :
    operand switch read text = .ok result ↔
      ∃ value, read text = .ok value ∧ result = .value value := by
  unfold operand
  cases read text <;> simp [eq_comm]

theorem usable_setValue (usable : options.Usable)
    (set : setValue options switch text = .ok changed) : changed.Usable := by
  cases switch with
  | kinds =>
      obtain ⟨kinds, -, same⟩ := bind_eq_ok_iff.mp set
      cases same
      exact ⟨usable.part, usable.limit⟩
  | contract =>
      cases set
      exact ⟨usable.part, usable.limit⟩
  | part =>
      cases set
      exact ⟨by simp, usable.limit⟩
  | limit =>
      obtain ⟨limit, accepted, same⟩ := bind_eq_ok_iff.mp set
      obtain ⟨n, isLimit, rfl⟩ := operand_eq_ok_iff.mp accepted
      cases same
      refine ⟨usable.part, fun limit given => ?_⟩
      cases given
      exact ⟨n, rfl, readLimit_pos isLimit⟩
  | help | failedOnly | json | summary | serve => cases set

theorem isKept_usable : IsKept Options.Usable where
  source _ usable := ⟨usable.part, usable.limit⟩
  value := usable_setValue
  flag switch usable := by cases switch <;> exact ⟨usable.part, usable.limit⟩

theorem usable_default : ({} : Options).Usable := ⟨by simp, by simp⟩

theorem usable_of_ofArguments {texts : List Text} (filled : ¬ HasVoid texts)
    (accepted : ofArguments texts = .ok (.run options)) : options.Usable :=
  isKept_usable.ofArguments usable_default filled accepted

end Request

end SimTriage.Command
