import Hermes.Wallet.Conservation

/-!
# Debits the balance covers

A debit under a free key which the balance covers goes through in every mode and takes exactly its
amount; a debit under a key which is taken leaves the account as it is.
-/

namespace Hermes.Wallet

theorem WalletRow.Stored.pay {row : WalletRow} {amount : Int} (stored : row.Stored)
    (nonneg : 0 ≤ amount) (covered : amount ≤ row.balance) :
    WalletRow.Stored ⟨row.balance - amount, row.debt⟩ := by
  have fits := stored.balance_fits
  have balance_nonneg := stored.balance_nonneg
  simp only [fitsBigint, decide_eq_true_eq] at fits
  refine ⟨by simpa using covered, stored.debt_nonneg, ?_, stored.debt_fits⟩
  simp only [fitsBigint, decide_eq_true_eq]
  omega

theorem WalletRow.Stored.fits_amount {row : WalletRow} {amount : Int} (stored : row.Stored)
    (positive : 0 < amount) (covered : amount ≤ row.balance) : fitsBigint amount = true := by
  have fits := stored.balance_fits
  simp only [fitsBigint, decide_eq_true_eq] at fits ⊢
  omega

section Programs

variable {context : Context} {request : ConsumeRequest} {account : Account} {tx : Tx}
  {wallet : WalletRow}

/-- Provisioning the wallet goes through and shows the provisioned account. -/
theorem run_ensureWallet (account : Account) :
    ∃ ensured : Tx, ensured.view account = account.provisioned ∧
      ∀ {γ : Type} (rest : Unit → Program Sql γ),
        (Program.issue .ensureWallet rest).run (Sql.exec account account) {} =
          (rest ()).run (Sql.exec account account) ensured := by
  obtain ⟨ensured, answered, seen⟩ := exec_ensureWallet account
  exact ⟨ensured, seen, fun _ => Program.run_issue_ok answered⟩

theorem consumeIncrementalClamp_runs (present : (tx.view account).wallet = some wallet)
    (stored : wallet.Stored) (positive : 0 < request.amount)
    (covered : request.amount ≤ wallet.balance)
    (fresh : (tx.view account).existing request.idempotencyKey = none) :
    ∃ result after, (consumeIncrementalClamp request).run (Sql.exec account account) tx =
      .ok (.ok result, after) := by
  have clamped : ∃ after, Sql.exec account account _ (.clampDebit (request.row request.amount)) tx =
      .ok (⟨some request.newId, some request.amount, some (wallet.balance - request.amount)⟩,
        after) := by
    have store := storeWallet_of_stored (stored.pay positive.le covered)
    have solvent : ¬wallet.balance ≤ 0 := by omega
    have seen : (tx.work.onto account).wallet = some wallet := present
    have free : (tx.work.onto account).existing request.idempotencyKey = none := fresh
    simp [Sql.exec, ConsumeRequest.row, stored.fits_amount positive covered, seen, free, solvent,
      min_eq_left covered, store, bind, Except.bind]
  obtain ⟨after, clamped⟩ := clamped
  simp only [consumeIncrementalClamp, Program.call_bind]
  rw [run_selectLedger, fresh, Program.run_issue_ok clamped]
  exact ⟨_, _, rfl⟩

theorem debitInSavepoint_runs (present : (tx.view account).wallet = some wallet)
    (stored : wallet.Stored) (positive : 0 < request.amount)
    (covered : request.amount ≤ wallet.balance)
    (fresh : (tx.view account).existing request.idempotencyKey = none) :
    ∃ after, (debitInSavepoint request).run (Sql.exec account account) tx =
      .ok (.ok (some (request.newId, wallet.balance - request.amount)), after) := by
  have fits := stored.fits_amount positive covered
  have inserted (saved : List Work) : Sql.exec account account _
      (.insertLedger (request.row request.amount)) { tx with saved := saved } =
      .ok (some request.newId,
        Tx.addRow { tx with saved := saved } (request.row request.amount)) := by
    have free : (tx.work.onto account).existing request.idempotencyKey = none := fresh
    simp [Sql.exec, ConsumeRequest.row, fits, free, not_le.mpr positive]
  have debited (saved : List Work) : ∃ after, Sql.exec account account _
      (.debitBalance request.amount)
      (Tx.addRow { tx with saved := saved } (request.row request.amount)) =
      .ok (some (wallet.balance - request.amount), after) := by
    have store := storeWallet_of_stored (stored.pay positive.le covered)
    have seen : ((Tx.addRow { tx with saved := saved }
        (request.row request.amount)).work.onto account).wallet = some wallet := present
    simp [Sql.exec, seen, covered, store, bind, Except.bind]
  obtain ⟨after, debited⟩ := debited (tx.work :: tx.saved)
  simp only [debitInSavepoint, Program.call_bind]
  rw [run_savepoint, Program.run_issue_ok (inserted _), Program.run_issue_ok debited]
  exact ⟨_, rfl⟩

theorem consumeInFull_runs (present : (tx.view account).wallet = some wallet)
    (stored : wallet.Stored) (positive : 0 < request.amount)
    (covered : request.amount ≤ wallet.balance)
    (fresh : (tx.view account).existing request.idempotencyKey = none) :
    ∃ result after, (consumeInFull request).run (Sql.exec account account) tx =
      .ok (.ok result, after) := by
  obtain ⟨after, debited⟩ := debitInSavepoint_runs present stored positive covered fresh
  unfold consumeInFull
  rw [Program.run_bind, debited]
  exact ⟨_, _, rfl⟩

theorem consumeAgentWithDebt_defers (present : (tx.view account).wallet = some wallet)
    (covered : request.amount ≤ wallet.balance)
    (fresh : (tx.view account).existing request.idempotencyKey = none) :
    (consumeAgentWithDebt request).run (Sql.exec account account) tx = .ok (.ok none, tx) := by
  have balance_eq := view_balance present
  simp only [consumeAgentWithDebt, Program.call_bind]
  rw [run_selectLedger, fresh]
  simp only
  rw [run_currentBalance, balance_eq, if_pos covered]
  rfl

theorem consume_runs (context : Context) (unbound : request.sessionId = none)
    (stored : account.row.Stored) (positive : 0 < request.amount)
    (covered : request.amount ≤ account.balance)
    (fresh : account.existing request.idempotencyKey = none) :
    ∃ result after, (consume context request).run (Sql.exec account account) {} =
      .ok (.ok result, after) := by
  rw [Account.balance_eq] at covered
  obtain ⟨ensured, seen, ran⟩ := run_ensureWallet account
  have present : (ensured.view account).wallet = some account.row := by
    rw [seen]
    rfl
  have fresh : (ensured.view account).existing request.idempotencyKey = none := by
    rw [seen]
    exact fresh
  simp only [consume, not_le.mpr positive, unbound, if_false, consumeChecked, Program.call_bind]
  rw [ran]
  split
  · exact consumeIncrementalClamp_runs present stored positive covered fresh
  · split
    · rw [Program.run_bind, consumeAgentWithDebt_defers present covered fresh]
      exact consumeInFull_runs present stored positive covered fresh
    · exact consumeInFull_runs present stored positive covered fresh

theorem Call.run_of_consume {result : Except WalletError ConsumeResult} {after : Tx}
    (ran : (consume context request).run (Sql.exec account account) {} = .ok (result, after)) :
    Call.run ⟨context, .consume request, .commit⟩ account =
      (.ofConsume result, after.view account) := by
  have program_ran : (Operation.program context (.consume request)).run
      (Sql.exec account account) {} = .ok (.ofConsume result, after) := by
    simp only [Operation.program]
    rw [Program.run_bind, ran]
    rfl
  simp [Call.run, Call.program, Call.conclude, program_ran, Tx.view]

theorem Call.run_covered (context : Context) (request : ConsumeRequest)
    (unbound : request.sessionId = none)
    (stored : account.row.Stored) (positive : 0 < request.amount)
    (covered : request.amount ≤ account.balance)
    (fresh : account.existing request.idempotencyKey = none) :
    ∃ event : AuditEvent, event.debtAdded = 0 ∧
      Call.run ⟨context, .consume request, .commit⟩ account =
        (.consumed ⟨account.balance - request.amount, request.newId, false, request.amount⟩,
          account.provisioned.record ⟨account.balance - request.amount, account.debt⟩
            (request.row request.amount) [event]) := by
  obtain ⟨result, after, ran⟩ := consume_runs context unbound stored positive covered fresh
  rw [Call.run_of_consume ran]
  obtain ⟨raised, raises, -⟩ | ⟨-, debit⟩ := consume_ok ran
  · cases raises
  have solvent : 0 < account.provisioned.balance := by simpa using positive.trans_le covered
  generalize viewed : after.view account = view at debit
  cases debit with
  | replayed holder taken =>
      rw [Account.existing_provisioned, fresh] at taken
      cases taken
  | drained incremental fresh empty => omega
  | charged charged event fresh positive affordable solvent due no_debt =>
      have charged_eq : charged = request.amount := by
        rcases due with exact_amount | ⟨-, clamped⟩
        · exact exact_amount
        · rw [clamped, Account.balance_provisioned, min_eq_left covered]
      subst charged_eq
      exact ⟨event, no_debt, by simp [Outcome.ofConsume]⟩
  | accrued plain reconciles fresh positive short =>
      rw [Account.balance_provisioned] at short
      omega

/-- An incremental debit under a key which is taken changes nothing. -/
theorem Call.run_taken_incremental (context : Context) (request : ConsumeRequest)
    {holder : LedgerTransaction}
    (unbound : request.sessionId = none) (incremental : request.metadata.incremental = true)
    (positive : 0 < request.amount)
    (taken : account.existing request.idempotencyKey = some holder) :
    (Call.run ⟨context, .consume request, .commit⟩ account).1 =
      .consumed ⟨account.balance, holder.id, true, 0⟩ := by
  obtain ⟨ensured, seen, ensure_ran⟩ := run_ensureWallet account
  have taken : (ensured.view account).existing request.idempotencyKey = some holder := by
    rw [seen]
    exact taken
  have balance_eq : (ensured.view account).balance = account.balance := by
    rw [seen, Account.balance_provisioned]
  have ran : (consume context request).run (Sql.exec account account) {} =
      .ok (.ok ⟨account.balance, holder.id, true, 0⟩, ensured) := by
    simp only [consume, not_le.mpr positive, unbound, if_false, consumeChecked,
      Program.call_bind]
    rw [ensure_ran, if_pos incremental]
    simp only [consumeIncrementalClamp, Program.call_bind]
    rw [run_selectLedger, taken]
    simp only
    rw [run_currentBalance, balance_eq]
    rfl
  rw [Call.run_of_consume ran]
  rfl

end Programs

end Hermes.Wallet
