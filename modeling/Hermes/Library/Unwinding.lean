import Mathlib.Data.List.Basic

/-!
# Computations which raise groups of exceptions

A computation changes a state and ends with a value or with a group of exceptions, and what it did
to the state stays done when it raises.  A single exception is a group of one.  The clauses of
`except*` take their members out of a group, and `finally` runs however the body ends.
-/

namespace Hermes

/-- A computation over a state which may raise. -/
structure Unwinding (ε σ α : Type) where
  run : σ → Except (List ε) α × σ

namespace Unwinding

variable {ε σ α β : Type}

/-- Continue with the value, unless the first computation raises. -/
def bind (first : Unwinding ε σ α) (rest : α → Unwinding ε σ β) : Unwinding ε σ β where
  run state :=
    match first.run state with
    | (.ok value, after) => (rest value).run after
    | (.error group, after) => (.error group, after)

instance : Monad (Unwinding ε σ) where
  pure value := ⟨fun state => (.ok value, state)⟩
  bind := bind

def modify (change : σ → σ) : Unwinding ε σ Unit where
  run state := (.ok (), change state)

def read : Unwinding ε σ σ where
  run state := (.ok state, state)

/-- Raise a group, if there is anything in it. -/
def raise (group : List ε) : Unwinding ε σ Unit where
  run state :=
    match group with
    | [] => (.ok (), state)
    | head :: later => (.error (head :: later), state)

/-- A call which raises, or returns and has an effect. -/
def perform (raised : Option ε) (effect : σ → σ) : Unwinding ε σ Unit where
  run state :=
    match raised with
    | none => (.ok (), effect state)
    | some exception => (.error [exception], state)

/-- A clause of `except*`, whose body raises nothing. -/
structure Clause (ε σ : Type) where
  catches : ε → Bool
  handle : σ → σ

def uncaught (clauses : List (Clause ε σ)) (group : List ε) : List ε :=
  group.filter fun exception => !clauses.any (·.catches exception)

/-- The state after every clause which takes something, in order. -/
def handleAll : List (Clause ε σ) → List ε → σ → σ
  | [], _, state => state
  | clause :: later, group, state =>
      handleAll later (group.filter fun exception => !clause.catches exception)
        (if group.any clause.catches then clause.handle state else state)

/-- `try … except* …`: what no clause takes is raised again. -/
def exceptStar (clauses : List (Clause ε σ)) (body : Unwinding ε σ Unit) :
    Unwinding ε σ Unit where
  run state :=
    match body.run state with
    | (.ok (), after) => (.ok (), after)
    | (.error group, after) =>
        (raise (uncaught clauses group)).run (handleAll clauses group after)

/-- `try … except …: …; raise`: a group whose members are all of the class is noted and goes on. -/
def noting (catches : ε → Bool) (handle : σ → σ) (body : Unwinding ε σ Unit) :
    Unwinding ε σ Unit where
  run state :=
    match body.run state with
    | (.ok (), after) => (.ok (), after)
    | (.error group, after) => (.error group, if group.all catches then handle after else after)

/-- `try … except …: pass`. -/
def suppressing (catches : ε → Bool) (body : Unwinding ε σ Unit) : Unwinding ε σ Unit where
  run state :=
    match body.run state with
    | (.ok (), after) => (.ok (), after)
    | (.error group, after) => (if group.all catches then .ok () else .error group, after)

/-- `try … finally …`: what the last block raises replaces what the body raised. -/
def finallyDo (body last : Unwinding ε σ Unit) : Unwinding ε σ Unit where
  run state :=
    match last.run (body.run state).2 with
    | (.ok (), after) => ((body.run state).1, after)
    | (.error group, after) => (.error group, after)

section Run

variable {state after : σ}

@[simp] theorem run_pure (value : α) (state : σ) :
    (pure value : Unwinding ε σ α).run state = (.ok value, state) := rfl

theorem run_bind (first : Unwinding ε σ α) (rest : α → Unwinding ε σ β) (state : σ) :
    (first >>= rest).run state =
      match first.run state with
      | (.ok value, after) => (rest value).run after
      | (.error group, after) => (.error group, after) := rfl

theorem finallyDo_snd (body last : Unwinding ε σ Unit) (state : σ) :
    ((finallyDo body last).run state).2 = (last.run (body.run state).2).2 := by
  simp only [finallyDo]
  split
  next ended => rw [ended]
  next ended => rw [ended]

/-- It returns exactly if the body and the block both do. -/
theorem finallyDo_returns (body last : Unwinding ε σ Unit) (state : σ) :
    ((finallyDo body last).run state).1 = .ok () ↔
      (body.run state).1 = .ok () ∧ (last.run (body.run state).2).1 = .ok () := by
  simp only [finallyDo]
  split
  next ended => simp [ended]
  next ended => simp [ended]

end Run

end Unwinding

end Hermes
