import SimTriage.Failure

/-!
Steps that may fail, one after the other. A list of steps fails with the first of them that does.
-/

set_option autoImplicit false

namespace SimTriage

variable {ε α β γ : Type}

/-- The first of a list that has the property. -/
def IsFirst (p : α → Prop) (list : List α) (a : α) : Prop :=
  ∃ front back, list = front ++ a :: back ∧ p a ∧ ∀ b ∈ front, ¬ p b

@[simp]
theorem ok_bind (a : α) (next : α → Except ε β) : (Except.ok a >>= next) = next a := rfl

@[simp]
theorem error_bind (fault : ε) (next : α → Except ε β) :
    (Except.error fault >>= next) = .error fault := rfl

theorem throw_eq_error (fault : ε) : (throw fault : Except ε α) = .error fault := rfl

theorem pure_eq_ok (a : α) : (pure a : Except ε α) = .ok a := rfl

theorem bind_eq_ok_iff {first : Except ε α} {next : α → Except ε β} {b : β} :
    (first >>= next) = .ok b ↔ ∃ a, first = .ok a ∧ next a = .ok b := by
  cases first <;> simp

theorem bind_eq_error_iff {first : Except ε α} {next : α → Except ε β} {fault : ε} :
    (first >>= next) = .error fault ↔
      first = .error fault ∨ ∃ a, first = .ok a ∧ next a = .error fault := by
  cases first <;> simp

/-- Two steps, neither of which needs the other, fail if either does. -/
theorem exists_bind_eq_error_iff {first : Except ε α} {second : Except ε β} {combine : α → β → γ} :
    (∃ fault, (first >>= fun a => second >>= fun b => pure (combine a b)) = .error fault) ↔
      (∃ fault, first = .error fault) ∨ ∃ fault, second = .error fault := by
  cases first <;> cases second <;> simp [pure_eq_ok]

theorem map_eq_ok_iff {first : Except ε α} {f : α → β} {b : β} :
    f <$> first = .ok b ↔ ∃ a, first = .ok a ∧ f a = b := by
  cases first <;> simp [Functor.map, Except.map]

theorem map_eq_error_iff {first : Except ε α} {f : α → β} {fault : ε} :
    f <$> first = .error fault ↔ first = .error fault := by
  cases first <;> simp [Functor.map, Except.map]

/-- A numeral that is too long is a failure of the whole, and what is read stays as it is. -/
theorem liftM_eq_ok_iff {first : Except Text.OverlongNumeral α} {a : α} :
    (liftM first : Except Failure α) = .ok a ↔ first = .ok a := by
  cases first <;> simp [liftM, monadLift, MonadLift.monadLift]

theorem liftM_eq_error_iff {first : Except Text.OverlongNumeral α} {failure : Failure} :
    (liftM first : Except Failure α) = .error failure ↔
      ∃ fault, first = .error fault ∧ failure = .overlongNumeral fault := by
  cases first <;> simp [liftM, monadLift, MonadLift.monadLift, eq_comm]

theorem liftM_bind_numeral {first : Except Text.OverlongNumeral α}
    {next : α → Except Text.OverlongNumeral β} :
    (liftM (first >>= next) : Except Failure β) = liftM first >>= fun a => liftM (next a) := by
  cases first <;> rfl

theorem liftM_undecodable_eq_error_iff {first : Except Text.Undecodable α} {failure : Failure} :
    (liftM first : Except Failure α) = .error failure ↔
      ∃ fault, first = .error fault ∧ failure = .undecodable fault := by
  cases first <;> simp [liftM, monadLift, MonadLift.monadLift, eq_comm]

theorem liftM_gzip_eq_ok_iff {first : Except Gzip.Fault α} {a : α} :
    (liftM first : Except Failure α) = .ok a ↔ first = .ok a := by
  cases first <;> simp [liftM, monadLift, MonadLift.monadLift]

theorem liftM_gzip_eq_error_iff {first : Except Gzip.Fault α} {failure : Failure} :
    (liftM first : Except Failure α) = .error failure ↔
      ∃ fault, first = .error fault ∧ failure = .gzip fault := by
  cases first <;> simp [liftM, monadLift, MonadLift.monadLift, eq_comm]

namespace IsFirst

variable {p : α → Prop} {list : List α} {a b : α}

theorem holds (first : IsFirst p list a) : p a := by
  obtain ⟨_, _, -, holds, -⟩ := first
  exact holds

theorem mem (first : IsFirst p list a) : a ∈ list := by
  obtain ⟨front, back, rfl, -, -⟩ := first
  simp

theorem cons_self (holds : p a) : IsFirst p (a :: list) a :=
  ⟨[], list, rfl, holds, fun _ member => absurd member List.not_mem_nil⟩

theorem cons_of_not (fails : ¬ p b) (first : IsFirst p list a) : IsFirst p (b :: list) a := by
  obtain ⟨front, back, rfl, holds, before⟩ := first
  refine ⟨b :: front, back, rfl, holds, fun c member => ?_⟩
  rcases List.mem_cons.mp member with rfl | member
  · exact fails
  · exact before c member

/-- The first of a list is its head, or it comes behind a head without the property. -/
theorem cons_iff :
    IsFirst p (b :: list) a ↔ (p b ∧ a = b) ∨ (¬ p b ∧ IsFirst p list a) := by
  constructor
  · intro first
    obtain ⟨front, back, split, holds, before⟩ := first
    cases front with
    | nil =>
        cases split
        exact Or.inl ⟨holds, rfl⟩
    | cons c front =>
        cases split
        refine Or.inr ⟨before b List.mem_cons_self, front, back, rfl, holds, ?_⟩
        exact fun c member => before c (List.mem_cons_of_mem _ member)
  · intro cases
    rcases cases with ⟨holds, rfl⟩ | ⟨fails, first⟩
    · exact cons_self holds
    · exact cons_of_not fails first

/-- What lacks the property can be left out. -/
theorem filter_iff {keep : α → Bool} (kept : ∀ b, p b → keep b = true) :
    IsFirst p (list.filter keep) a ↔ IsFirst p list a := by
  induction list with
  | nil => rfl
  | cons b list ih =>
      cases keeps : keep b with
      | true =>
          rw [List.filter_cons_of_pos keeps, cons_iff, cons_iff, ih]
      | false =>
          have fails : ¬ p b := fun holds => by simp [kept b holds] at keeps
          rw [List.filter_cons_of_neg (by simp [keeps]), ih, cons_iff]
          simp [fails]

theorem not_nil : ¬ IsFirst p [] a := fun first => absurd first.mem List.not_mem_nil

end IsFirst

theorem exists_isFirst {p : α → Prop} {list : List α} (present : ∃ a ∈ list, p a) :
    ∃ a, IsFirst p list a := by
  induction list with
  | nil =>
      obtain ⟨a, member, -⟩ := present
      cases member
  | cons b list ih =>
      by_cases holds : p b
      · exact ⟨b, IsFirst.cons_self holds⟩
      · obtain ⟨a, member, later⟩ := present
        rcases List.mem_cons.mp member with rfl | member
        · exact absurd later holds
        · obtain ⟨c, first⟩ := ih ⟨a, member, later⟩
          exact ⟨c, first.cons_of_not holds⟩

section Steps

variable {step : α → Except ε β} {list : List α}

theorem mapM_eq_ok_iff {results : List β} :
    list.mapM step = .ok results ↔ list.map step = results.map .ok := by
  induction list generalizing results with
  | nil => cases results <;> simp [pure, Except.pure]
  | cons a list ih =>
      rw [List.mapM_cons, bind_eq_ok_iff]
      constructor
      · intro steps
        obtain ⟨b, now, steps⟩ := steps
        obtain ⟨later, rest, same⟩ := bind_eq_ok_iff.mp steps
        cases same
        rw [List.map_cons, List.map_cons, now, ih.mp rest]
      · intro same
        cases results with
        | nil => cases same
        | cons b results =>
            rw [List.map_cons, List.map_cons, List.cons.injEq] at same
            exact ⟨b, same.1, bind_eq_ok_iff.mpr ⟨results, ih.mpr same.2, rfl⟩⟩

/-- Steps fail as the first of them does that fails. -/
theorem mapM_eq_error_iff {fault : ε} :
    list.mapM step = .error fault ↔
      ∃ a, IsFirst (fun a => ∃ fault, step a = .error fault) list a ∧ step a = .error fault := by
  induction list with
  | nil => simp [pure, Except.pure, IsFirst.not_nil]
  | cons b list ih =>
      rw [List.mapM_cons, bind_eq_error_iff]
      constructor
      · intro steps
        rcases steps with failed | ⟨result, done, steps⟩
        · exact ⟨b, .cons_self ⟨fault, failed⟩, failed⟩
        · rcases bind_eq_error_iff.mp steps with failed | ⟨_, _, ended⟩
          · obtain ⟨a, first, failed⟩ := ih.mp failed
            exact ⟨a, first.cons_of_not (by simp [done]), failed⟩
          · cases ended
      · intro steps
        obtain ⟨a, first, failed⟩ := steps
        rcases IsFirst.cons_iff.mp first with ⟨-, rfl⟩ | ⟨passes, first⟩
        · exact Or.inl failed
        · cases done : step b with
          | error other => exact absurd ⟨other, done⟩ passes
          | ok result =>
              right
              exact ⟨result, rfl, bind_eq_error_iff.mpr (Or.inl (ih.mpr ⟨a, first, failed⟩))⟩

end Steps

end SimTriage
