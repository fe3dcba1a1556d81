import Mathlib.Logic.Basic

/-!
# Programs over a statement signature

A program issues statements from a signature `Stmt` and continues with each answer.  The same
program text is run alone, against one state, or statement by statement among other programs, so
every execution discipline below speaks about one source of control flow.
-/

namespace Hermes

/-- A composition of fallible computations succeeds only through a success of the first. -/
theorem except_bind_eq_ok {ε α β : Type} {first : Except ε α} {rest : α → Except ε β} {result : β}
    (succeeded : first >>= rest = .ok result) :
    ∃ value, first = .ok value ∧ rest value = .ok result := by
  cases first with
  | error failure => cases succeeded
  | ok value => exact ⟨value, rfl, succeeded⟩

/-- A composition fails where its first computation does, or else the second. -/
theorem except_bind_eq_error {ε α β : Type} {first : Except ε α} {rest : α → Except ε β}
    {failure : ε} (failed : first >>= rest = .error failure) :
    first = .error failure ∨ ∃ value, first = .ok value ∧ rest value = .error failure := by
  cases first with
  | error other => exact .inl (congrArg Except.error (Except.error.inj failed))
  | ok value => exact .inr ⟨value, rfl, failed⟩

theorem no_ok_of_error {ε α : Type} {failure : ε} :
    ¬ ∃ value, (Except.error failure : Except ε α) = .ok value := by
  rintro ⟨value, same⟩
  cases same

/-- A program which issues statements from `Stmt` and finally returns a value. -/
inductive Program (Stmt : Type → Type) (α : Type) : Type 1
  | done (value : α) : Program Stmt α
  | issue {β : Type} (stmt : Stmt β) (next : β → Program Stmt α) : Program Stmt α

namespace Program

variable {Stmt : Type → Type} {α β γ ε σ : Type}

/-- Sequential composition: continue a program with its returned value. -/
def bind : Program Stmt α → (α → Program Stmt γ) → Program Stmt γ
  | .done value, rest => rest value
  | .issue stmt next, rest => .issue stmt fun answer => (next answer).bind rest

instance : Monad (Program Stmt) where
  pure := .done
  bind := .bind

/-- Issue one statement and return its answer. -/
def call (stmt : Stmt α) : Program Stmt α :=
  .issue stmt .done

@[simp] theorem pure_eq (value : α) : (pure value : Program Stmt α) = .done value := rfl

@[simp] theorem done_bind (value : α) (rest : α → Program Stmt γ) :
    (Program.done value >>= rest) = rest value := rfl

@[simp] theorem issue_bind (stmt : Stmt β) (next : β → Program Stmt α)
    (rest : α → Program Stmt γ) :
    (Program.issue stmt next >>= rest) = .issue stmt fun answer => next answer >>= rest := rfl

@[simp] theorem call_bind (stmt : Stmt α) (rest : α → Program Stmt γ) :
    (call stmt >>= rest) = .issue stmt rest := rfl

/-- How a single statement acts on a state: it fails, or answers and leaves a new state. -/
abbrev Semantics (Stmt : Type → Type) (ε σ : Type) :=
  ∀ β : Type, Stmt β → σ → Except ε (β × σ)

/-- Run a whole program alone, stopping at the first failing statement. -/
def run (exec : Semantics Stmt ε σ) : Program Stmt α → σ → Except ε (α × σ)
  | .done value, state => .ok (value, state)
  | .issue stmt next, state =>
      exec _ stmt state >>= fun step => (next step.1).run exec step.2

@[simp] theorem run_done (exec : Semantics Stmt ε σ) (value : α) (state : σ) :
    (done value : Program Stmt α).run exec state = .ok (value, state) := rfl

theorem run_issue (exec : Semantics Stmt ε σ) (stmt : Stmt β) (next : β → Program Stmt α)
    (state : σ) :
    (issue stmt next).run exec state =
      exec _ stmt state >>= fun step => (next step.1).run exec step.2 := rfl

/-- A statement which answers lets the rest of the program run from the state it leaves. -/
theorem run_issue_ok {exec : Semantics Stmt ε σ} {stmt : Stmt β} {next : β → Program Stmt α}
    {state after : σ} {answer : β} (answered : exec _ stmt state = .ok (answer, after)) :
    (issue stmt next).run exec state = (next answer).run exec after := by
  rw [run_issue, answered]
  rfl

theorem run_issue_error {exec : Semantics Stmt ε σ} {stmt : Stmt β}
    {next : β → Program Stmt α} {state : σ} {failure : ε}
    (failed : exec _ stmt state = .error failure) :
    (issue stmt next).run exec state = .error failure := by
  rw [run_issue, failed]
  rfl

theorem run_issue_eq_ok {exec : Semantics Stmt ε σ} {stmt : Stmt β} {next : β → Program Stmt α}
    {state : σ} {result : α × σ} (ran : (issue stmt next).run exec state = .ok result) :
    ∃ answer after, exec _ stmt state = .ok (answer, after) ∧
      (next answer).run exec after = .ok result := by
  obtain ⟨⟨answer, after⟩, answered, rest_ran⟩ := except_bind_eq_ok ran
  exact ⟨answer, after, answered, rest_ran⟩

theorem run_bind (exec : Semantics Stmt ε σ) (program : Program Stmt α)
    (rest : α → Program Stmt γ) (state : σ) :
    (program >>= rest).run exec state =
      program.run exec state >>= fun step => (rest step.1).run exec step.2 := by
  induction program generalizing state with
  | done value => rfl
  | issue stmt next induction =>
      rw [issue_bind]
      cases answered : exec _ stmt state with
      | error failure =>
          rw [run_issue_error answered, run_issue_error answered]
          rfl
      | ok step =>
          rw [run_issue_ok answered, run_issue_ok answered]
          exact induction step.1 step.2

/-- A program which answers lets what is composed behind it run from the state it leaves. -/
theorem run_bind_ok {exec : Semantics Stmt ε σ} {program : Program Stmt α}
    {rest : α → Program Stmt γ} {state left : σ} {value : α}
    (ran : program.run exec state = .ok (value, left)) :
    (program >>= rest).run exec state = (rest value).run exec left := by
  rw [run_bind, ran]
  rfl

theorem run_invariant {exec : Semantics Stmt ε σ} (holds : σ → Prop)
    (kept : ∀ (β : Type) (stmt : Stmt β) (state : σ) (answer : β) (after : σ), holds state →
      exec β stmt state = .ok (answer, after) → holds after)
    {program : Program Stmt α} {state after : σ} {value : α} (initially : holds state)
    (ran : program.run exec state = .ok (value, after)) : holds after := by
  induction program generalizing state with
  | done result =>
      cases ran
      exact initially
  | issue stmt next induction =>
      obtain ⟨answer, between, answered, rest_ran⟩ := run_issue_eq_ok ran
      exact induction answer (kept _ stmt state answer between initially answered) rest_ran

theorem run_bind_eq_ok {exec : Semantics Stmt ε σ} {program : Program Stmt α}
    {rest : α → Program Stmt γ} {state : σ} {result : γ × σ}
    (ran : (program >>= rest).run exec state = .ok result) :
    ∃ value between, program.run exec state = .ok (value, between) ∧
      (rest value).run exec between = .ok result := by
  rw [run_bind] at ran
  obtain ⟨⟨value, between⟩, first_ran, rest_ran⟩ := except_bind_eq_ok ran
  exact ⟨value, between, first_ran, rest_ran⟩

/-! ## Running amid others -/

section Amid

variable {ω : Type} {exec : ω → Semantics Stmt ε σ} {allowed : ω → Prop}

/-- A run in which each statement meets the world as it is by then. -/
inductive RunsAmid (exec : ω → Semantics Stmt ε σ) (allowed : ω → Prop) :
    Program Stmt α → σ → α → σ → Prop
  | done (value : α) (state : σ) : RunsAmid exec allowed (.done value) state value state
  | issue {β : Type} {stmt : Stmt β} {next : β → Program Stmt α} {world : ω}
      {state between after : σ} {answer : β} {value : α} (permitted : allowed world)
      (executed : exec world _ stmt state = .ok (answer, between))
      (later : RunsAmid exec allowed (next answer) between value after) :
      RunsAmid exec allowed (.issue stmt next) state value after

theorem RunsAmid.of_done {value result : α} {state after : σ}
    (runs : RunsAmid exec allowed (.done value) state result after) :
    result = value ∧ after = state := by
  cases runs
  exact ⟨rfl, rfl⟩

theorem RunsAmid.of_issue {stmt : Stmt β} {next : β → Program Stmt α} {state after : σ}
    {value : α} (runs : RunsAmid exec allowed (.issue stmt next) state value after) :
    ∃ world answer between, allowed world ∧ exec world _ stmt state = .ok (answer, between) ∧
      RunsAmid exec allowed (next answer) between value after := by
  cases runs with
  | issue permitted executed later => exact ⟨_, _, _, permitted, executed, later⟩

theorem RunsAmid.of_bind {program : Program Stmt α} {rest : α → Program Stmt γ}
    {state after : σ} {value : γ}
    (runs : RunsAmid exec allowed (program >>= rest) state value after) :
    ∃ result between, RunsAmid exec allowed program state result between ∧
      RunsAmid exec allowed (rest result) between value after := by
  induction program generalizing state with
  | done result => exact ⟨result, state, .done result state, runs⟩
  | issue stmt next induction =>
      obtain ⟨world, answer, between, permitted, executed, later⟩ := RunsAmid.of_issue runs
      obtain ⟨result, middle, first, second⟩ := induction answer later
      exact ⟨result, middle, .issue permitted executed first, second⟩

/-- Whatever the rest of a program comes to, the whole program comes to it. -/
def RestOf (exec : ω → Semantics Stmt ε σ) (allowed : ω → Prop) (whole : Program Stmt α)
    (start : σ) (program : Program Stmt α) (state : σ) : Prop :=
  ∀ value after, RunsAmid exec allowed program state value after →
    RunsAmid exec allowed whole start value after

theorem RestOf.refl (program : Program Stmt α) (state : σ) :
    RestOf exec allowed program state program state :=
  fun _ _ => id

theorem RestOf.issue {whole : Program Stmt α} {start : σ} {stmt : Stmt β}
    {next : β → Program Stmt α} {state between : σ} {world : ω} {answer : β}
    (rest : RestOf exec allowed whole start (.issue stmt next) state) (permitted : allowed world)
    (executed : exec world _ stmt state = .ok (answer, between)) :
    RestOf exec allowed whole start (next answer) between :=
  fun value after later => rest value after (.issue permitted executed later)

theorem RestOf.done {whole : Program Stmt α} {start state : σ} {value : α}
    (rest : RestOf exec allowed whole start (.done value) state) :
    RunsAmid exec allowed whole start value state :=
  rest value state (.done value state)

end Amid

/-! ## Programs of a part -/

section Translate

variable {Stmt' : Type → Type} {σ' : Type}

def translate (embed : ∀ β, Stmt β → Stmt' β) : Program Stmt α → Program Stmt' α
  | .done value => .done value
  | .issue stmt next => .issue (embed _ stmt) fun answer => (next answer).translate embed

structure Part (σ' σ : Type) where
  get : σ' → σ
  put : σ → σ' → σ'
  get_put : ∀ part state, get (put part state) = part
  put_put : ∀ second first state, put second (put first state) = put second state
  put_get : ∀ state, put (get state) state = state

variable {ω ε' : Type} {exec : ω → Semantics Stmt ε σ} {exec' : ω → Semantics Stmt' ε' σ'}
  {allowed : ω → Prop}

/-- A program over the statements of a part runs as it does on the part alone, as long as its
statements are accepted. -/
theorem RunsAmid.of_translate (part : Part σ' σ) (embed : ∀ β, Stmt β → Stmt' β)
    (local_exec : ∀ world β (stmt : Stmt β) state answer after,
      exec' world β (embed β stmt) state = .ok (answer, after) →
        ∃ kept, exec world β stmt (part.get state) = .ok (answer, kept) ∧
          after = part.put kept state)
    {program : Program Stmt α} {state after : σ'} {value : α}
    (runs : RunsAmid exec' allowed (program.translate embed) state value after) :
    RunsAmid exec allowed program (part.get state) value (part.get after) ∧
      after = part.put (part.get after) state := by
  induction program generalizing state with
  | done result =>
      obtain ⟨rfl, rfl⟩ := runs.of_done
      exact ⟨.done _ _, (part.put_get _).symm⟩
  | issue stmt next induction =>
      obtain ⟨world, answer, between, permitted, executed, later⟩ := runs.of_issue
      obtain ⟨kept, ran, rfl⟩ := local_exec world _ stmt state answer between executed
      obtain ⟨rest, framed⟩ := induction answer later
      rw [part.get_put] at rest
      rw [part.put_put] at framed
      exact ⟨.issue permitted ran rest, framed⟩

end Translate

end Program
end Hermes
