import Hermes.Wallet.Isolation

/-!
# Following a call run alone

A transaction in the middle of its program is compared with the same call run alone on the data
committed right now.  It is in step with that run when finishing alone from here would end the
same way.  A transaction which holds the wallet row stays in step whatever the others do; one
which has only read must be shown to be in step again on the data committed later.
-/

namespace Hermes.Wallet

variable {β : Type} {invocation : Call} {snapshot committed : Account} {tx after : Tx}

/-- Finishing alone from here ends like the whole call run alone. -/
def Call.InStep (invocation : Call) (program : Program Sql Outcome) (tx : Tx)
    (committed : Account) : Prop :=
  invocation.conclude committed (program.run (Sql.exec committed committed) tx) =
    invocation.run committed

theorem Call.inStep_start (invocation : Call) (committed : Account) :
    invocation.InStep invocation.program {} committed := rfl

theorem Call.InStep.issue {stmt : Sql β} {next : β → Program Sql Outcome} {answer : β}
    (inStep : invocation.InStep (.issue stmt next) tx committed)
    (executed : Sql.exec committed committed _ stmt tx = .ok (answer, after)) :
    invocation.InStep (next answer) after committed := by
  unfold Call.InStep at inStep ⊢
  rwa [Program.run_issue_ok executed] at inStep

/-- A statement which fails as it would alone ends the call like the call run alone. -/
theorem Call.InStep.failed {stmt : Sql β} {next : β → Program Sql Outcome} {failure : DbError}
    (inStep : invocation.InStep (.issue stmt next) tx committed)
    (executed : Sql.exec committed committed _ stmt tx = .error failure) :
    invocation.run committed = (.failed failure, committed) := by
  unfold Call.InStep at inStep
  rw [Program.run_issue_error executed] at inStep
  exact inStep.symm

/-- Nothing committed later can change how the transaction ends: it closes savepoints, keeps no
work and answers `outcome`, or its next statement fails whatever it sees. -/
inductive Idle : Option Account → Program Sql Outcome → Tx → Outcome → Prop
  | done {snapshot : Option Account} {tx : Tx} (outcome : Outcome) (clean : tx.work = {}) :
      Idle snapshot (.done outcome) tx outcome
  | release {snapshot : Option Account} {tx : Tx} {next : Unit → Program Sql Outcome}
      {outcome : Outcome} (later : Idle none (next ()) { tx with saved := tx.saved.tail } outcome) :
      Idle snapshot (.issue .releaseSavepoint next) tx outcome
  | rollback {snapshot : Option Account} {tx : Tx} {next : Unit → Program Sql Outcome}
      {outcome : Outcome} (unlocked : tx.work.wallet = none)
      (later : Idle none (next ())
        { work := tx.saved.headD tx.work, saved := tx.saved.tail } outcome) :
      Idle snapshot (.issue .rollbackToSavepoint next) tx outcome
  | fails {β : Type} {snapshot : Option Account} {tx : Tx} {stmt : Sql β}
      {next : β → Program Sql Outcome} {failure : DbError}
      (unlocked : tx.work.wallet = none)
      (fails : ∀ snapshot committed, Sql.exec snapshot committed _ stmt tx = .error failure) :
      Idle snapshot (.issue stmt next) tx (.failed failure)
  /-- The snapshot of a conditional debit already lacks the balance. -/
  | stale {snapshot : Account} {tx : Tx} {amount : Int} {next : Option Int → Program Sql Outcome}
      {outcome : Outcome} (unlocked : tx.work.wallet = none)
      (short : snapshot.balance < amount) (later : Idle none (next none) tx outcome) :
      Idle (some snapshot) (.issue (.debitBalance amount) next) tx outcome

theorem Work.empty_onto (account : Account) : ({} : Work).onto account = account :=
  view_empty account

theorem Call.conclude_empty (outcome : Outcome) (clean : tx.work = {}) :
    invocation.conclude committed (.ok (outcome, tx)) = (outcome, committed) := by
  cases ending : invocation.ending <;> simp [Call.conclude, ending, clean, Work.empty_onto]

theorem debitBalance_short {amount : Int} (unlocked : tx.work.wallet = none)
    (short : snapshot.balance < amount) :
    Sql.exec snapshot committed _ (.debitBalance amount) tx = .ok (none, tx) := by
  simp only [Sql.exec, Work.onto, unlocked, Option.none_or]
  split
  next old row began seen =>
    rw [Account.balance, began] at short
    rw [if_neg]
    intro covered
    exact absurd covered.1 (by simpa using short)
  · rfl

theorem Idle.conclude {view : Option Account} {program : Program Sql Outcome} {outcome : Outcome}
    (idle : Idle view program tx outcome)
    (current : ∀ snapshot, view = some snapshot → snapshot = committed) :
    invocation.conclude committed (program.run (Sql.exec committed committed) tx) =
      (outcome, committed) := by
  induction idle with
  | done outcome clean => exact Call.conclude_empty outcome clean
  | release later induction => exact induction (by simp)
  | rollback unlocked later induction => exact induction (by simp)
  | fails unlocked fails =>
      rw [Program.run_issue_error (fails committed committed)]
      rfl
  | @stale snapshot tx amount next outcome unlocked short later induction =>
      obtain rfl := current snapshot rfl
      rw [Program.run_issue_ok (debitBalance_short unlocked short)]
      exact induction (by simp)

/-- A transaction in step with nothing left to decide answers what the call alone answers. -/
theorem Call.InStep.idle {view : Option Account} {program : Program Sql Outcome}
    {outcome : Outcome} (inStep : invocation.InStep program tx committed)
    (idle : Idle view program tx outcome)
    (current : ∀ snapshot, view = some snapshot → snapshot = committed) :
    invocation.run committed = (outcome, committed) := by
  unfold Call.InStep at inStep
  rw [idle.conclude current] at inStep
  exact inStep.symm

/-- The program never returns to a savepoint. -/
inductive Forward : Program Sql Outcome → Prop
  | done (outcome : Outcome) : Forward (.done outcome)
  | issue {β : Type} {stmt : Sql β} {next : β → Program Sql Outcome}
      (onward : stmt.returns = false) (later : ∀ answer, Forward (next answer)) :
      Forward (.issue stmt next)

/-- The transaction holds the wallet row until it ends. -/
def Holds (program : Program Sql Outcome) (tx : Tx) : Prop :=
  tx.work.wallet.isSome ∧ (tx.AllLocked ∨ Forward program)

theorem exec_locked (stmt : Sql β) (locked : tx.work.wallet.isSome) :
    Sql.exec snapshot committed _ stmt tx = Sql.exec committed committed _ stmt tx := by
  obtain ⟨row, own⟩ := Option.isSome_iff_exists.mp locked
  cases stmt <;> simp [Sql.exec, Work.onto, own]

theorem Holds.issue {stmt : Sql β} {next : β → Program Sql Outcome} {answer : β}
    (holds : Holds (.issue stmt next) tx) (nested : tx.Nested)
    (ran : Sql.exec snapshot committed _ stmt tx = .ok (answer, after)) :
    Holds (next answer) after := by
  have executed := exec_ok nested ran
  obtain ⟨own, locked | forward⟩ := holds
  · have locked_after := executed.moves.allLocked locked
    exact ⟨locked_after _ (by simp), .inl locked_after⟩
  · cases forward with
    | issue onward later => exact ⟨(executed.onward onward).wallet own, .inr (later answer)⟩

end Hermes.Wallet
