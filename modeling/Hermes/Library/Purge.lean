import Mathlib.Data.List.Basic

/-!
# Runs without the steps of others

Each step of a run concerns an observer or does not.  Where a step which does not concern the
observer leaves the observer's part of the state alone, and one which does acts on that part as on
the whole state, the observer's part is what the run would have made of it without the others.
-/

namespace Hermes

universe u v

variable {σ : Type u} {α : Type v}

/-- An observer's part of the states of a system, and the steps which concern the observer. -/
structure Observer (step : σ → α → σ) where
  restrict : σ → σ
  concerns : α → Bool
  /-- What holds of the states, as long as the steps are allowed. -/
  holds : σ → Prop
  allowed : α → Prop
  kept : ∀ state action, holds state → allowed action → holds (step state action)
  own : ∀ state action, holds state → allowed action → concerns action = true →
    restrict (step state action) = step (restrict state) action
  foreign : ∀ state action, holds state → concerns action = false → allowed action →
    restrict (step state action) = restrict state

/-- The observer's part of a run is the run of the steps which concern the observer. -/
theorem Observer.restrict_foldl {step : σ → α → σ} (observer : Observer step)
    (actions : List α) {state : σ} (holds : observer.holds state)
    (allowed : ∀ action ∈ actions, observer.allowed action) :
    observer.restrict (actions.foldl step state) =
      (actions.filter observer.concerns).foldl step (observer.restrict state) := by
  induction actions generalizing state with
  | nil => rfl
  | cons action later induction =>
      have permitted := allowed action (List.mem_cons_self ..)
      rw [List.foldl_cons, induction (observer.kept state action holds permitted)
        fun other listed => allowed other (List.mem_cons_of_mem _ listed)]
      cases concerned : observer.concerns action with
      | true =>
          rw [List.filter_cons_of_pos concerned, List.foldl_cons,
            observer.own state action holds permitted concerned]
      | false =>
          rw [List.filter_cons_of_neg (by simp [concerned]),
            observer.foreign state action holds concerned permitted]

/-! ## Parts of lists -/

section Parts

variable {α : Type} {keeps test : α → Bool} {rows : List α}

theorem find_filter (kept : ∀ row ∈ rows, test row = true → keeps row = true) :
    (rows.filter keeps).find? test = rows.find? test := by
  induction rows with
  | nil => rfl
  | cons row later induction =>
      have rest := induction fun other listed => kept other (List.mem_cons_of_mem _ listed)
      cases passes : test row with
      | true =>
          rw [List.filter_cons_of_pos (kept row (List.mem_cons_self ..) passes),
            List.find?_cons_of_pos passes, List.find?_cons_of_pos passes]
      | false =>
          rw [List.find?_cons_of_neg (by simp [passes]), List.filter_cons, ← rest]
          split
          · rw [List.find?_cons_of_neg (by simp [passes])]
          · rfl

theorem any_filter (kept : ∀ row ∈ rows, test row = true → keeps row = true) :
    (rows.filter keeps).any test = rows.any test := by
  rw [Bool.eq_iff_iff, List.any_eq_true, List.any_eq_true]
  constructor
  · rintro ⟨row, listed, passes⟩
    exact ⟨row, List.mem_of_mem_filter listed, passes⟩
  · rintro ⟨row, listed, passes⟩
    exact ⟨row, List.mem_filter.mpr ⟨listed, kept row listed passes⟩, passes⟩

theorem filter_concat_of_pos {row : α} (kept : keeps row = true) :
    (rows ++ [row]).filter keeps = rows.filter keeps ++ [row] := by
  rw [List.filter_append, List.filter_cons_of_pos kept, List.filter_nil]

theorem filter_concat_of_neg {row : α} (dropped : ¬ keeps row = true) :
    (rows ++ [row]).filter keeps = rows.filter keeps := by
  rw [List.filter_append, List.filter_cons_of_neg dropped, List.filter_nil, List.append_nil]

theorem filter_map_comm {change : α → α} (same : ∀ row, keeps (change row) = keeps row)
    (rows : List α) : (rows.map change).filter keeps = (rows.filter keeps).map change := by
  rw [List.filter_map, show keeps ∘ change = keeps from funext same]

end Parts

end Hermes
