import Mathlib.Logic.Basic

/-!
# Transition systems driven by actions

A partial step function and a condition on the steps taken.  Everything about whole executions
rests on the one induction rule below.
-/

namespace Hermes

universe u v

variable {σ : Type u} {α : Type v}

/-- The states an execution reaches when every step is allowed where it is taken. -/
inductive Reachable (step : σ → α → Option σ) (allowed : σ → α → Prop) (start : σ) : σ → Prop
  | start : Reachable step allowed start start
  | next {state after : σ} {action : α} (reached : Reachable step allowed start state)
      (permitted : allowed state action) (stepped : step state action = some after) :
      Reachable step allowed start after

namespace Reachable

variable {step : σ → α → Option σ} {allowed : σ → α → Prop} {start state : σ}

theorem invariant (holds : σ → Prop) (initially : holds start)
    (kept : ∀ before action after, holds before → allowed before action →
      step before action = some after → holds after)
    (reached : Reachable step allowed start state) : holds state := by
  induction reached with
  | start => exact initially
  | next reached permitted stepped induction => exact kept _ _ _ induction permitted stepped

theorem mono {weaker : σ → α → Prop} (implied : ∀ state action, allowed state action →
    weaker state action) (reached : Reachable step allowed start state) :
    Reachable step weaker start state :=
  reached.invariant (Reachable step weaker start) .start
    fun _ _ _ before permitted stepped => before.next (implied _ _ permitted) stepped

theorem trans {after : σ} (reached : Reachable step allowed start state)
    (continued : Reachable step allowed state after) : Reachable step allowed start after :=
  continued.invariant (Reachable step allowed start) reached
    fun _ _ _ grown permitted stepped => grown.next permitted stepped

end Reachable

/-- Take a list of actions, stopping where one is not allowed or not possible. -/
def runActions (step : σ → α → Option σ) (allowed : σ → α → Prop)
    [∀ state action, Decidable (allowed state action)] : List α → σ → Option σ
  | [], state => some state
  | action :: later, state =>
      if allowed state action then (step state action).bind (runActions step allowed later)
      else none

theorem reachable_of_runActions {step : σ → α → Option σ} {allowed : σ → α → Prop}
    [∀ state action, Decidable (allowed state action)] {start before after : σ}
    (actions : List α) (reached : Reachable step allowed start before)
    (ran : runActions step allowed actions before = some after) :
    Reachable step allowed start after := by
  induction actions generalizing before with
  | nil =>
      cases ran
      exact reached
  | cons action later induction =>
      rw [runActions] at ran
      split at ran
      next permitted =>
        obtain ⟨next, stepped, rest_ran⟩ := Option.bind_eq_some_iff.mp ran
        exact induction (reached.next permitted stepped) rest_ran
      · cases ran

/-- A list of actions which runs through to a state with some property reaches such a state. -/
theorem reachable_of_any (step : σ → α → Option σ) (allowed : σ → α → Prop)
    [∀ state action, Decidable (allowed state action)] (start : σ) (test : σ → Bool)
    (actions : List α) (ran : (runActions step allowed actions start).any test = true) :
    ∃ state, Reachable step allowed start state ∧ test state = true := by
  obtain ⟨state, ran, tested⟩ := (Option.any_eq_true _ _).mp ran
  exact ⟨state, reachable_of_runActions actions .start ran, tested⟩

end Hermes
