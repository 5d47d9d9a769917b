import Mathlib.Data.List.Forall2
import SimTriage.Proofs.Failure
import SimTriage.Schema.Validator

/-!
Outcomes that are put together from outcomes for parts. Lists, counts and records do so in one way:
the whole is there if every part is.
-/

set_option autoImplicit false

namespace SimTriage.Schema

variable {α β γ : Type}

theorem both_eq_ok_iff {combine : α → β → γ} {front : Outcome α} {back : Outcome β} {c : γ} :
    both combine front back = .ok c ↔
      ∃ a b, front = .ok a ∧ back = .ok b ∧ combine a b = c := by
  cases front <;> cases back <;> simp [both]

theorem under_eq_ok_iff {step : Step} {outcome : Outcome α} {a : α} :
    under step outcome = .ok a ↔ outcome = .ok a := by
  cases outcome <;> simp [under]

theorem collect_eq_ok_iff {outcomes : List (Outcome α)} {values : List α} :
    collect outcomes = .ok values ↔
      List.Forall₂ (fun outcome value => outcome = .ok value) outcomes values := by
  induction outcomes generalizing values with
  | nil => rw [collect, List.forall₂_nil_left_iff, Except.ok.injEq, eq_comm]
  | cons outcome outcomes ih =>
      rw [collect, both_eq_ok_iff, List.forall₂_cons_left_iff]
      constructor
      · rintro ⟨value, later, first, rest, rfl⟩
        exact ⟨value, later, first, ih.mp rest, rfl⟩
      · rintro ⟨value, later, first, rest, rfl⟩
        exact ⟨value, later, first, ih.mpr rest, rfl⟩

theorem asMember_eq_ok_iff {name : Text} {outcome : Outcome Json} {member : Text × Json} :
    asMember name outcome = .ok member ↔ name = member.1 ∧ outcome = .ok member.2 := by
  obtain ⟨other, value⟩ := member
  cases outcome <;> simp [asMember, under, Functor.map, Except.map]

namespace Validator

variable {validator : Validator} {result : Json} {members : List (Text × Json)}

theorem list_eq_ok_iff {item : Shape} {values : List Json} :
    validator.check (.list item) (.array values) = .ok result ↔
      ∃ results, List.Forall₂ (fun value result => validator.check item value = .ok result)
        values results ∧ .array results = result := by
  have paired : ∀ results,
      List.Forall₂ (fun part result => validator.check item part.1 = .ok result)
        values.zipIdx results ↔
      List.Forall₂ (fun value result => validator.check item value = .ok result)
        values results := by
    intro results
    conv_rhs => rw [← List.zipIdx_map_fst 0 values, List.forall₂_map_left_iff]
  simp only [validator.items, map_eq_ok_iff, collect_eq_ok_iff, List.forall₂_map_left_iff,
    under_eq_ok_iff, paired]

theorem counts_eq_ok_iff :
    validator.check .counts (.object members) = .ok result ↔
      ∃ results, List.Forall₂ (fun member result => member.1 = result.1 ∧
        validator.check (.integer false) member.2 = .ok result.2) members results ∧
          .object results = result := by
  simp only [validator.counts, map_eq_ok_iff, collect_eq_ok_iff, List.forall₂_map_left_iff,
    asMember_eq_ok_iff]

theorem record_eq_ok_iff {name : Text} {fields : List (Field Shape)} :
    validator.check (.record name fields) (.object members) = .ok result ↔
      ∃ results, List.Forall₂ (fun field result => field.name = result.1 ∧
        field.outcome validator.check members = .ok result.2) fields results ∧
          .object results = result := by
  simp only [validator.fields, map_eq_ok_iff, collect_eq_ok_iff, List.forall₂_map_left_iff,
    asMember_eq_ok_iff]

end Validator

end SimTriage.Schema
