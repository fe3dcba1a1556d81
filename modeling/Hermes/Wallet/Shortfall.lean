import Hermes.Wallet.Covered

/-!
# Debits which the balance does not cover

What a debit outside the incremental mode does when its amount exceeds the balance: it is refused,
or the agent path takes the balance and books the rest as debt.  An amount, or a debt, beyond the
column type is a statement the database rejects.
-/

namespace Hermes.Wallet

section Programs

variable {context : Context} {request : ConsumeRequest} {account : Account} {tx : Tx}
  {wallet : WalletRow}

theorem consume_in_full (context : Context) (unbound : request.sessionId = none)
    (positive : 0 < request.amount) (plain : request.metadata.incremental = false)
    (deferred : agentReconcileApplies context request.metadata = false ∨
      account.existing request.idempotencyKey = none ∧
        (request.amount ≤ account.balance ∨ account.balance ≤ 0)) :
    ∃ ensured : Tx, ensured.view account = account.provisioned ∧
      (consume context request).run (Sql.exec account account) {} =
        (consumeInFull request).run (Sql.exec account account) ensured := by
  obtain ⟨ensured, seen, ran⟩ := run_ensureWallet account
  refine ⟨ensured, seen, ?_⟩
  simp only [consume, not_le.mpr positive, unbound, if_false, consumeChecked, Program.call_bind,
    plain, Bool.false_eq_true]
  rw [ran]
  rcases deferred with legacy | ⟨fresh, deferred⟩
  · rw [if_neg (by simp [legacy])]
  · split
    · have vacant : (ensured.view account).existing request.idempotencyKey = none := by
        rw [seen]
        exact fresh
      have balance_eq : (ensured.view account).balance = account.balance := by
        rw [seen, Account.balance_provisioned]
      have passed : (consumeAgentWithDebt request).run (Sql.exec account account) ensured =
          .ok (.ok none, ensured) := by
        simp only [consumeAgentWithDebt, Program.call_bind]
        rw [run_selectLedger, vacant]
        simp only
        rw [run_currentBalance, balance_eq]
        by_cases enough : request.amount ≤ account.balance
        · rw [if_pos enough, Program.pure_eq, Program.run_done]
        · rw [if_neg enough, if_pos (deferred.resolve_left enough), Program.pure_eq,
            Program.run_done]
      rw [Program.run_bind, passed]
      rfl
    · rfl

/-- The full debit of an amount beyond the column type fails at its insert. -/
theorem consumeInFull_unfit (unfit : fitsBigint request.amount = false) :
    (consumeInFull request).run (Sql.exec account account) tx = .error .outOfRange := by
  have rejected (saved : List Work) : Sql.exec account account _
      (.insertLedger (request.row request.amount)) { tx with saved := saved } =
        .error .outOfRange := by
    simp [Sql.exec, ConsumeRequest.row, unfit]
  simp only [consumeInFull, debitInSavepoint, Program.call_bind, Program.issue_bind]
  rw [run_savepoint, Program.run_issue_error (rejected _)]

theorem consumeInFull_short (present : (tx.view account).wallet = some wallet)
    (positive : 0 < request.amount) (fits : fitsBigint request.amount = true)
    (fresh : (tx.view account).existing request.idempotencyKey = none)
    (short : wallet.balance < request.amount) :
    ∃ after : Tx, after.view account = tx.view account ∧
      (consumeInFull request).run (Sql.exec account account) tx =
        .ok (.error .insufficientCredits, after) := by
  have inserted (saved : List Work) : Sql.exec account account _
      (.insertLedger (request.row request.amount)) { tx with saved := saved } =
      .ok (some request.newId,
        Tx.addRow { tx with saved := saved } (request.row request.amount)) := by
    have free : (tx.work.onto account).existing request.idempotencyKey = none := fresh
    simp [Sql.exec, ConsumeRequest.row, fits, free, not_le.mpr positive]
  have refused (saved : List Work) : Sql.exec account account _ (.debitBalance request.amount)
      (Tx.addRow { tx with saved := saved } (request.row request.amount)) =
      .ok (none, Tx.addRow { tx with saved := saved } (request.row request.amount)) := by
    have seen : ((Tx.addRow { tx with saved := saved }
        (request.row request.amount)).work.onto account).wallet = some wallet := present
    simp [Sql.exec, seen, not_le.mpr short]
  refine ⟨{ work := tx.work, saved := tx.saved }, rfl, ?_⟩
  simp only [consumeInFull, debitInSavepoint, Program.call_bind, Program.issue_bind]
  rw [run_savepoint, Program.run_issue_ok (inserted _)]
  simp only [Program.issue_bind]
  rw [Program.run_issue_ok (refused _)]
  rfl

/-- A debit of more than the balance holds is refused and leaves the account as it was, unless the
agent path takes what there is. -/
theorem Call.run_insufficient (context : Context) (request : ConsumeRequest)
    (unbound : request.sessionId = none) (positive : 0 < request.amount)
    (plain : request.metadata.incremental = false) (fits : fitsBigint request.amount = true)
    (fresh : account.existing request.idempotencyKey = none)
    (short : account.balance < request.amount)
    (refused : agentReconcileApplies context request.metadata = false ∨ account.balance ≤ 0) :
    Call.run ⟨context, .consume request, .commit⟩ account =
      (.raised .insufficientCredits, account.provisioned) := by
  obtain ⟨ensured, seen, ran⟩ := consume_in_full context unbound positive plain
    (refused.imp_right fun empty => ⟨fresh, .inr empty⟩)
  have present : (ensured.view account).wallet = some account.row := by
    rw [seen]
    rfl
  have vacant : (ensured.view account).existing request.idempotencyKey = none := by
    rw [seen]
    exact fresh
  rw [Account.balance_eq] at short
  obtain ⟨after, same, refused⟩ := consumeInFull_short present positive fits vacant short
  rw [Call.run_of_consume (ran.trans refused), same, seen]
  rfl

theorem Call.run_of_failed {failure : DbError}
    (failed : (consume context request).run (Sql.exec account account) {} = .error failure) :
    Call.run ⟨context, .consume request, .commit⟩ account = (.failed failure, account) := by
  have program_failed : (Operation.program context (.consume request)).run
      (Sql.exec account account) {} = .error failure := by
    simp only [Operation.program]
    rw [Program.run_bind, failed]
    rfl
  simp [Call.run, Call.program, Call.conclude, program_failed]

theorem Call.run_unfit (context : Context) (request : ConsumeRequest)
    (unbound : request.sessionId = none) (positive : 0 < request.amount)
    (plain : request.metadata.incremental = false) (unfit : fitsBigint request.amount = false)
    (deferred : agentReconcileApplies context request.metadata = false ∨
      account.existing request.idempotencyKey = none ∧
        (request.amount ≤ account.balance ∨ account.balance ≤ 0)) :
    Call.run ⟨context, .consume request, .commit⟩ account = (.failed .outOfRange, account) := by
  obtain ⟨ensured, -, ran⟩ := consume_in_full context unbound positive plain deferred
  exact Call.run_of_failed (ran.trans (consumeInFull_unfit unfit))

theorem exec_insertLedger_free {added : LedgerTransaction} (fits : fitsBigint added.amount = true)
    (positive : 0 < added.amount)
    (fresh : (tx.view account).existing added.idempotencyKey = none) :
    Sql.exec account account _ (.insertLedger added) tx = .ok (some added.id, tx.addRow added) := by
  rw [Tx.view] at fresh
  simp [Sql.exec, fits, fresh, not_le.mpr positive]

theorem consumeAgentWithDebt_partial (present : (tx.view account).wallet = some wallet)
    (stored : wallet.Stored) (positive : 0 < wallet.balance)
    (fresh : (tx.view account).existing request.idempotencyKey = none)
    (short : wallet.balance < request.amount)
    (fits : fitsBigint (wallet.debt + (request.amount - wallet.balance)) = true) :
    ∃ result after, (consumeAgentWithDebt request).run (Sql.exec account account) tx =
      .ok (.ok (some result), after) := by
  have balance_eq := view_balance present
  have inserted : Sql.exec account account _ (.insertLedger (request.row wallet.balance))
      { tx with saved := tx.work :: tx.saved } = .ok (some request.newId, _) :=
    exec_insertLedger_free stored.balance_fits positive fresh
  have debt_nonneg := stored.debt_nonneg
  have solvent : 0 ≤ wallet.debt + (request.amount - wallet.balance) := by omega
  have fits_delta : fitsBigint (request.amount - wallet.balance) = true := by
    simp only [fitsBigint, decide_eq_true_eq] at fits ⊢
    omega
  have accrued : ∃ after, Sql.exec account account _
      (.debitAccruingDebt wallet.balance (request.amount - wallet.balance))
      (Tx.addRow { tx with saved := tx.work :: tx.saved } (request.row wallet.balance)) =
      .ok (some (wallet.debt + (request.amount - wallet.balance)), after) := by
    have seen : ((Tx.addRow { tx with saved := tx.work :: tx.saved }
        (request.row wallet.balance)).work.onto account).wallet = some wallet := present
    have store : storeWallet ⟨wallet.balance - wallet.balance,
        wallet.debt + (request.amount - wallet.balance)⟩ = .ok _ :=
      storeWallet_of_stored ⟨by simp, solvent, by simp [fitsBigint], fits⟩
    simp only [Sql.exec, fits_delta, seen, le_refl, and_self, if_true, store, bind, Except.bind,
      Bool.not_true, Bool.false_eq_true, if_false]
    exact ⟨_, rfl⟩
  obtain ⟨after, accrued⟩ := accrued
  simp only [consumeAgentWithDebt, Program.call_bind]
  rw [run_selectLedger, fresh]
  simp only
  rw [run_currentBalance, balance_eq, if_neg (not_le.mpr short), if_neg (not_le.mpr positive),
    run_savepoint, Program.run_issue_ok inserted]
  simp only
  rw [Program.run_issue_ok accrued]
  exact ⟨_, _, rfl⟩

theorem consumeAgentWithDebt_overflow (present : (tx.view account).wallet = some wallet)
    (stored : wallet.Stored) (positive : 0 < wallet.balance)
    (fresh : (tx.view account).existing request.idempotencyKey = none)
    (short : wallet.balance < request.amount)
    (unfit : fitsBigint (wallet.debt + (request.amount - wallet.balance)) = false) :
    (consumeAgentWithDebt request).run (Sql.exec account account) tx = .error .outOfRange := by
  have balance_eq := view_balance present
  have inserted : Sql.exec account account _ (.insertLedger (request.row wallet.balance))
      { tx with saved := tx.work :: tx.saved } = .ok (some request.newId, _) :=
    exec_insertLedger_free stored.balance_fits positive fresh
  have rejected : Sql.exec account account _
      (.debitAccruingDebt wallet.balance (request.amount - wallet.balance))
      (Tx.addRow { tx with saved := tx.work :: tx.saved } (request.row wallet.balance)) =
      .error .outOfRange := by
    have seen : ((Tx.addRow { tx with saved := tx.work :: tx.saved }
        (request.row wallet.balance)).work.onto account).wallet = some wallet := present
    cases fits_delta : fitsBigint (request.amount - wallet.balance) with
    | false => simp [Sql.exec, fits_delta]
    | true => simp [Sql.exec, fits_delta, seen, storeWallet, unfit, bind, Except.bind]
  simp only [consumeAgentWithDebt, Program.call_bind]
  rw [run_selectLedger, fresh]
  simp only
  rw [run_currentBalance, balance_eq, if_neg (not_le.mpr short), if_neg (not_le.mpr positive),
    run_savepoint, Program.run_issue_ok inserted]
  simp only
  rw [Program.run_issue_error rejected]

theorem consume_agent (account : Account) (unbound : request.sessionId = none)
    (positive : 0 < request.amount) (plain : request.metadata.incremental = false)
    (reconciles : agentReconcileApplies context request.metadata = true) :
    ∃ ensured : Tx, (ensured.view account).wallet = some account.row ∧
      (∀ key, (ensured.view account).existing key = account.existing key) ∧
      (∀ result after, (consumeAgentWithDebt request).run (Sql.exec account account) ensured =
          .ok (.ok (some result), after) →
        (consume context request).run (Sql.exec account account) {} = .ok (.ok result, after)) ∧
      ∀ failure, (consumeAgentWithDebt request).run (Sql.exec account account) ensured =
          .error failure →
        (consume context request).run (Sql.exec account account) {} = .error failure := by
  obtain ⟨ensured, seen, ran⟩ := run_ensureWallet account
  have checked : consume context request = consumeChecked context request := by
    simp only [consume, not_le.mpr positive, unbound, if_false]
  refine ⟨ensured, ?_, ?_, ?_, ?_⟩
  · rw [seen]
    rfl
  · intro key
    rw [seen, Account.existing_provisioned]
  · intro result after answered
    rw [checked, consumeChecked, Program.call_bind, ran]
    simp only [plain, Bool.false_eq_true, if_false, if_pos reconciles]
    rw [Program.run_bind, answered]
    rfl
  · intro failure failed
    rw [checked, consumeChecked, Program.call_bind, ran]
    simp only [plain, Bool.false_eq_true, if_false, if_pos reconciles]
    rw [Program.run_bind, failed]
    rfl

/-- A debit of the agent path which the balance covers in part takes the balance and books the
rest as debt. -/
theorem Call.run_short (context : Context) (request : ConsumeRequest)
    (unbound : request.sessionId = none) (plain : request.metadata.incremental = false)
    (reconciles : agentReconcileApplies context request.metadata = true)
    (stored : account.row.Stored) (positive : 0 < account.balance)
    (fresh : account.existing request.idempotencyKey = none)
    (short : account.balance < request.amount)
    (fits : fitsBigint (account.debt + (request.amount - account.balance)) = true) :
    ∃ event : AuditEvent,
      Call.run ⟨context, .consume request, .commit⟩ account =
        (.consumed ⟨0, request.newId, false, account.balance⟩,
          account.provisioned.record ⟨0, account.debt + (request.amount - account.balance)⟩
            (request.row account.balance) [event]) := by
  have amount_positive : 0 < request.amount := positive.trans short
  obtain ⟨ensured, present, holds, answers, -⟩ :=
    consume_agent account unbound amount_positive plain reconciles
  have vacant := (holds request.idempotencyKey).trans fresh
  rw [Account.debt_eq, Account.balance_eq] at fits
  have positive_row := positive
  have short_row := short
  rw [Account.balance_eq] at positive_row short_row
  obtain ⟨result, after, answered⟩ :=
    consumeAgentWithDebt_partial present stored positive_row vacant short_row fits
  have ran := answers result after answered
  rw [Call.run_of_consume ran]
  obtain ⟨raised, raises, -⟩ | ⟨-, debit⟩ := consume_ok ran
  · cases raises
  generalize viewed : after.view account = view at debit
  cases debit with
  | replayed holder taken =>
      rw [Account.existing_provisioned, fresh] at taken
      cases taken
  | drained incremental =>
      rw [plain] at incremental
      cases incremental
  | charged charged event fresh positive covered solvent due =>
      rw [Account.balance_provisioned] at covered
      rcases due with whole | ⟨incremental, -⟩
      · omega
      · rw [plain] at incremental
        cases incremental
  | accrued =>
      simp only [Outcome.ofConsume, Account.balance_provisioned, Account.debt_provisioned]
      exact ⟨_, rfl⟩

theorem Call.run_overflow (context : Context) (request : ConsumeRequest)
    (unbound : request.sessionId = none) (plain : request.metadata.incremental = false)
    (reconciles : agentReconcileApplies context request.metadata = true)
    (stored : account.row.Stored) (positive : 0 < account.balance)
    (fresh : account.existing request.idempotencyKey = none)
    (short : account.balance < request.amount)
    (unfit : fitsBigint (account.debt + (request.amount - account.balance)) = false) :
    Call.run ⟨context, .consume request, .commit⟩ account = (.failed .outOfRange, account) := by
  have amount_positive : 0 < request.amount := positive.trans short
  obtain ⟨ensured, present, holds, -, fails⟩ :=
    consume_agent account unbound amount_positive plain reconciles
  have vacant := (holds request.idempotencyKey).trans fresh
  rw [Account.balance_eq] at positive short
  rw [Account.debt_eq, Account.balance_eq] at unfit
  exact Call.run_of_failed
    (fails _ (consumeAgentWithDebt_overflow present stored positive vacant short unfit))

end Programs

end Hermes.Wallet
