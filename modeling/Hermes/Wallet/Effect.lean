import Hermes.Wallet.Service

/-!
# What one wallet operation does

A wallet operation which runs alone does one of a few things to its account.  The inversions below
list them once, with every guard the service checks, so that no later argument has to execute the
programs again.
-/

namespace Hermes.Wallet

namespace Account

/-- The wallet row, as `_ensure_wallet` provisions it. -/
def row (account : Account) : WalletRow := account.wallet.getD ⟨0, 0⟩

def provisioned (account : Account) : Account :=
  { account with wallet := some account.row }

/-- Replace the wallet, add one ledger row and some audit rows. -/
def record (account : Account) (wallet : WalletRow) (added : LedgerTransaction)
    (events : List AuditEvent) : Account where
  wallet := some wallet
  ledger := account.ledger ++ [added]
  audit := account.audit ++ events

theorem balance_eq (account : Account) : account.balance = account.row.balance := by
  cases wallet : account.wallet <;> simp [balance, row, wallet]

theorem debt_eq (account : Account) : account.debt = account.row.debt := by
  cases wallet : account.wallet <;> simp [debt, row, wallet]

@[simp] theorem row_provisioned (account : Account) :
    account.provisioned.row = account.row := rfl

@[simp] theorem provisioned_provisioned (account : Account) :
    account.provisioned.provisioned = account.provisioned := rfl

@[simp] theorem ledger_provisioned (account : Account) :
    account.provisioned.ledger = account.ledger := rfl

@[simp] theorem audit_provisioned (account : Account) :
    account.provisioned.audit = account.audit := rfl

@[simp] theorem existing_provisioned (account : Account) (key : String) :
    account.provisioned.existing key = account.existing key := rfl

@[simp] theorem row_record (account : Account) (wallet : WalletRow) (added : LedgerTransaction)
    (events : List AuditEvent) : (account.record wallet added events).row = wallet := rfl

@[simp] theorem ledger_record (account : Account) (wallet : WalletRow) (added : LedgerTransaction)
    (events : List AuditEvent) :
    (account.record wallet added events).ledger = account.ledger ++ [added] := rfl

@[simp] theorem audit_record (account : Account) (wallet : WalletRow) (added : LedgerTransaction)
    (events : List AuditEvent) :
    (account.record wallet added events).audit = account.audit ++ events := rfl

end Account

/-- What a transaction sees once it has run its own work alone over `account`. -/
def Tx.view (tx : Tx) (account : Account) : Account := tx.work.onto account

section View

variable (tx : Tx) (account : Account)

@[simp] theorem view_empty : ({} : Tx).view account = account := by
  cases account
  simp [Tx.view, Work.onto]

@[simp] theorem view_putWallet (wallet : WalletRow) :
    (tx.putWallet wallet).view account = { tx.view account with wallet := some wallet } := rfl

@[simp] theorem view_addRow (added : LedgerTransaction) :
    (tx.addRow added).view account =
      { tx.view account with ledger := (tx.view account).ledger ++ [added] } := by
  simp [Tx.view, Tx.addRow, Work.onto]

@[simp] theorem view_addAudit (event : AuditEvent) :
    (tx.addAudit event).view account =
      { tx.view account with audit := (tx.view account).audit ++ [event] } := by
  simp [Tx.view, Tx.addAudit, Work.onto]

@[simp] theorem view_saved (saved : List Work) :
    Tx.view { tx with saved := saved } account = tx.view account := rfl

end View

/-- The row satisfies the column type and the `CHECK` constraints of the table. -/
structure WalletRow.Stored (row : WalletRow) : Prop where
  balance_nonneg : 0 ≤ row.balance
  debt_nonneg : 0 ≤ row.debt
  balance_fits : fitsBigint row.balance = true
  debt_fits : fitsBigint row.debt = true

/-- Only a row the table admits is stored, and it is stored as it is. -/
theorem storeWallet_ok {row stored : WalletRow} (written : storeWallet row = .ok stored) :
    stored = row ∧ row.Stored := by
  unfold storeWallet at written
  split at written
  next fits =>
    rw [Bool.and_eq_true] at fits
    split at written
    · cases written
    · split at written
      · cases written
      · cases written
        exact ⟨rfl, by omega, by omega, fits.1, fits.2⟩
  · cases written

theorem storeWallet_of_stored {row : WalletRow} (stored : row.Stored) :
    storeWallet row = .ok row := by
  rw [storeWallet, stored.balance_fits, stored.debt_fits, Bool.true_and, if_pos rfl,
    if_neg (Int.not_lt.mpr stored.balance_nonneg), if_neg (Int.not_lt.mpr stored.debt_nonneg)]

section Statements

variable {account : Account} {tx after : Tx}

theorem insertLedger_ok {added : LedgerTransaction} {answer : Option TxId}
    (ran : Sql.exec account account _ (.insertLedger added) tx = .ok (answer, after)) :
    (∃ holder, (tx.view account).existing added.idempotencyKey = some holder ∧
      answer = none ∧ after = tx) ∨
    ((tx.view account).existing added.idempotencyKey = none ∧ 0 < added.amount ∧
      answer = some added.id ∧ after = tx.addRow added) := by
  simp only [Sql.exec] at ran
  split at ran
  · cases ran
  · split at ran
    next taken =>
      cases ran
      obtain ⟨holder, found⟩ := Option.isSome_iff_exists.mp taken
      exact .inl ⟨holder, found, rfl, rfl⟩
    next fresh =>
      split at ran
      · cases ran
      next positive =>
        cases ran
        exact .inr ⟨by simpa [Tx.view] using fresh, by omega, rfl, rfl⟩

/-- A conditional debit either lacks the balance or takes exactly the amount. -/
theorem debitBalance_ok {amount : Int} {answer : Option Int} {wallet : WalletRow}
    (present : (tx.view account).wallet = some wallet)
    (ran : Sql.exec account account _ (.debitBalance amount) tx = .ok (answer, after)) :
    (wallet.balance < amount ∧ answer = none ∧ after = tx) ∨
    (amount ≤ wallet.balance ∧ 0 ≤ wallet.debt ∧ answer = some (wallet.balance - amount) ∧
      after = tx.putWallet ⟨wallet.balance - amount, wallet.debt⟩) := by
  simp only [Tx.view] at present
  simp only [Sql.exec, present, and_self] at ran
  split at ran
  next covered =>
    cases written : storeWallet ⟨wallet.balance - amount, wallet.debt⟩ with
    | error failure =>
        rw [written] at ran
        cases ran
    | ok stored =>
        rw [written] at ran
        cases ran
        obtain ⟨rfl, admitted⟩ := storeWallet_ok written
        exact .inr ⟨covered, admitted.debt_nonneg, rfl, rfl⟩
  next short =>
    cases ran
    exact .inl ⟨by omega, rfl, rfl⟩

/-- The debit which accrues debt, once the balance it read is still there. -/
theorem debitAccruingDebt_ok {part delta : Int} {answer : Option Int} {wallet : WalletRow}
    (present : (tx.view account).wallet = some wallet) (covered : part ≤ wallet.balance)
    (ran : Sql.exec account account _ (.debitAccruingDebt part delta) tx = .ok (answer, after)) :
    0 ≤ wallet.debt + delta ∧ answer = some (wallet.debt + delta) ∧
      after = tx.putWallet ⟨wallet.balance - part, wallet.debt + delta⟩ := by
  simp only [Tx.view] at present
  simp only [Sql.exec, present, and_self, covered, if_true] at ran
  split at ran
  · cases ran
  · cases written : storeWallet ⟨wallet.balance - part, wallet.debt + delta⟩ with
    | error failure =>
        rw [written] at ran
        cases ran
    | ok stored =>
        rw [written] at ran
        cases ran
        obtain ⟨rfl, admitted⟩ := storeWallet_ok written
        exact ⟨admitted.debt_nonneg, rfl, rfl⟩

/-- The clamped debit takes nothing from a drained balance or under a taken key, and otherwise as
much of the amount as the balance holds. -/
theorem clampDebit_ok {added : LedgerTransaction} {answer : ClampRow} {wallet : WalletRow}
    (present : (tx.view account).wallet = some wallet)
    (ran : Sql.exec account account _ (.clampDebit added) tx = .ok (answer, after)) :
    ((wallet.balance ≤ 0 ∨ ((tx.view account).existing added.idempotencyKey).isSome) ∧
      answer = ⟨none, none, some wallet.balance⟩ ∧ after = tx.putWallet wallet) ∨
    (0 < wallet.balance ∧ 0 ≤ wallet.debt ∧
      (tx.view account).existing added.idempotencyKey = none ∧
      answer = ⟨some added.id, some (min added.amount wallet.balance),
        some (wallet.balance - min added.amount wallet.balance)⟩ ∧
      after = (tx.addRow { added with amount := min added.amount wallet.balance }).putWallet
        ⟨wallet.balance - min added.amount wallet.balance, wallet.debt⟩) := by
  simp only [Tx.view] at present
  simp only [Sql.exec, present] at ran
  split at ran
  · cases ran
  · split at ran
    next idle =>
      cases ran
      exact .inl ⟨idle, rfl, rfl⟩
    next due =>
      cases written :
          storeWallet ⟨wallet.balance - min added.amount wallet.balance, wallet.debt⟩ with
      | error failure =>
          rw [written] at ran
          cases ran
      | ok stored =>
          rw [written] at ran
          cases ran
          obtain ⟨rfl, admitted⟩ := storeWallet_ok written
          rw [not_or] at due
          exact .inr ⟨by omega, admitted.debt_nonneg, by simpa [Tx.view] using due.2, rfl, rfl⟩

theorem creditSettlingDebt_ok {amount : Int} {answer : Option SettledRow} {wallet : WalletRow}
    (present : (tx.view account).wallet = some wallet)
    (ran : Sql.exec account account _ (.creditSettlingDebt amount) tx = .ok (answer, after)) :
    0 ≤ wallet.balance + (amount - min amount wallet.debt) ∧
      0 ≤ wallet.debt - min amount wallet.debt ∧
      answer = some ⟨wallet.balance + (amount - min amount wallet.debt),
        wallet.debt - min amount wallet.debt, min amount wallet.debt⟩ ∧
      after = tx.putWallet ⟨wallet.balance + (amount - min amount wallet.debt),
        wallet.debt - min amount wallet.debt⟩ := by
  simp only [Tx.view] at present
  simp only [Sql.exec, present] at ran
  cases written : storeWallet ⟨wallet.balance + (amount - min amount wallet.debt),
      wallet.debt - min amount wallet.debt⟩ with
  | error failure =>
      rw [written] at ran
      cases ran
  | ok stored =>
      rw [written] at ran
      cases ran
      obtain ⟨rfl, admitted⟩ := storeWallet_ok written
      exact ⟨admitted.balance_nonneg, admitted.debt_nonneg, rfl, rfl⟩

theorem creditBalance_ok {amount : Int} {answer : Option Int} {wallet : WalletRow}
    (present : (tx.view account).wallet = some wallet)
    (ran : Sql.exec account account _ (.creditBalance amount) tx = .ok (answer, after)) :
    0 ≤ wallet.balance + amount ∧ 0 ≤ wallet.debt ∧ answer = some (wallet.balance + amount) ∧
      after = tx.putWallet ⟨wallet.balance + amount, wallet.debt⟩ := by
  simp only [Tx.view] at present
  simp only [Sql.exec, present] at ran
  cases written : storeWallet ⟨wallet.balance + amount, wallet.debt⟩ with
  | error failure =>
      rw [written] at ran
      cases ran
  | ok stored =>
      rw [written] at ran
      cases ran
      obtain ⟨rfl, admitted⟩ := storeWallet_ok written
      exact ⟨admitted.balance_nonneg, admitted.debt_nonneg, rfl, rfl⟩

end Statements

/-- The debt an audit row reports as newly accrued. -/
def AuditEvent.debtAdded : AuditEvent → Int
  | .billingDebitAccrued _ _ _ _ _ debtAdded _ => debtAdded
  | _ => 0

/-- What `consume` does to a provisioned account, with the answer it gives. -/
inductive Debit (context : Context) (request : ConsumeRequest) (seen : Account) :
    Except WalletError ConsumeResult → Account → Prop
  | insufficient (plain : request.metadata.incremental = false)
      (fresh : seen.existing request.idempotencyKey = none)
      (short : seen.balance < request.amount)
      (refused : agentReconcileApplies context request.metadata = false ∨ seen.balance ≤ 0) :
      Debit context request seen (.error .insufficientCredits) seen
  | mismatched (holder : LedgerTransaction) (message : String)
      (plain : request.metadata.incremental = false)
      (legacy : agentReconcileApplies context request.metadata = false)
      (taken : seen.existing request.idempotencyKey = some holder) :
      Debit context request seen (.error (.conflict message)) seen
  | replayed (holder : LedgerTransaction)
      (taken : seen.existing request.idempotencyKey = some holder) :
      Debit context request seen (.ok ⟨seen.balance, holder.id, true, 0⟩) seen
  | drained (incremental : request.metadata.incremental = true)
      (fresh : seen.existing request.idempotencyKey = none) (empty : seen.balance ≤ 0) :
      Debit context request seen (.ok ⟨seen.balance, nilTxId, false, 0⟩) seen
  | charged (charged : Int) (event : AuditEvent)
      (fresh : seen.existing request.idempotencyKey = none)
      (positive : 0 < charged) (covered : charged ≤ seen.balance) (solvent : 0 ≤ seen.debt)
      (due : charged = request.amount ∨
        request.metadata.incremental = true ∧ charged = min request.amount seen.balance)
      (no_debt : event.debtAdded = 0) :
      Debit context request seen (.ok ⟨seen.balance - charged, request.newId, false, charged⟩)
        (seen.record ⟨seen.balance - charged, seen.debt⟩ (request.row charged) [event])
  | accrued (plain : request.metadata.incremental = false)
      (reconciles : agentReconcileApplies context request.metadata = true)
      (fresh : seen.existing request.idempotencyKey = none)
      (positive : 0 < seen.balance) (short : seen.balance < request.amount)
      (solvent : 0 ≤ seen.debt + (request.amount - seen.balance)) :
      Debit context request seen (.ok ⟨0, request.newId, false, seen.balance⟩)
        (seen.record ⟨0, seen.debt + (request.amount - seen.balance)⟩ (request.row seen.balance)
          [.billingDebitAccrued request.metadata.runId request.metadata.usage
            request.metadata.model request.amount seen.balance (request.amount - seen.balance)
            (seen.debt + (request.amount - seen.balance))])

section Programs

variable {context : Context} {request : ConsumeRequest} {account : Account} {tx after : Tx}
  {wallet : WalletRow}

theorem run_savepoint {γ : Type} (rest : Unit → Program Sql γ) :
    (Program.issue .savepoint rest).run (Sql.exec account account) tx =
      (rest ()).run (Sql.exec account account) { tx with saved := tx.work :: tx.saved } := rfl

theorem run_releaseSavepoint {γ : Type} (rest : Unit → Program Sql γ) :
    (Program.issue .releaseSavepoint rest).run (Sql.exec account account) tx =
      (rest ()).run (Sql.exec account account) { tx with saved := tx.saved.tail } := rfl

theorem run_selectLedger {γ : Type} (key : String)
    (rest : Option LedgerTransaction → Program Sql γ) :
    (Program.issue (.selectLedger key) rest).run (Sql.exec account account) tx =
      (rest ((tx.view account).existing key)).run (Sql.exec account account) tx := rfl

theorem run_insertAudit {γ : Type} (event : AuditEvent) (rest : Unit → Program Sql γ) :
    (Program.issue (.insertAudit event) rest).run (Sql.exec account account) tx =
      (rest ()).run (Sql.exec account account) (tx.addAudit event) := rfl

theorem run_currentBalance {γ : Type} (rest : Int → Program Sql γ) :
    (currentBalance >>= rest).run (Sql.exec account account) tx =
      (rest (tx.view account).balance).run (Sql.exec account account) tx := rfl

theorem view_balance (present : (tx.view account).wallet = some wallet) :
    (tx.view account).balance = wallet.balance := by
  simp [Account.balance, present]

theorem view_debt (present : (tx.view account).wallet = some wallet) :
    (tx.view account).debt = wallet.debt := by
  simp [Account.debt, present]

theorem debitInSavepoint_ok {answer : Except WalletError (Option (TxId × Int))}
    (present : (tx.view account).wallet = some wallet)
    (ran : (debitInSavepoint request).run (Sql.exec account account) tx = .ok (answer, after)) :
    (∃ holder, (tx.view account).existing request.idempotencyKey = some holder ∧
      answer = .ok none ∧ after.view account = tx.view account) ∨
    ((tx.view account).existing request.idempotencyKey = none ∧
      wallet.balance < request.amount ∧ answer = .error .insufficientCredits ∧
      after.view account = tx.view account) ∨
    ((tx.view account).existing request.idempotencyKey = none ∧
      request.amount ≤ wallet.balance ∧ 0 ≤ wallet.debt ∧
      answer = .ok (some (request.newId, wallet.balance - request.amount)) ∧
      after.view account = (tx.view account).record
        ⟨wallet.balance - request.amount, wallet.debt⟩ (request.row request.amount) []) := by
  simp only [debitInSavepoint, Program.call_bind, run_savepoint] at ran
  obtain ⟨inserted, filled, insert_ran, ran⟩ := Program.run_issue_eq_ok ran
  obtain ⟨holder, taken, rfl, rfl⟩ | ⟨fresh, positive, rfl, rfl⟩ := insertLedger_ok insert_ran
  · cases ran
    exact .inl ⟨holder, taken, rfl, rfl⟩
  · obtain ⟨updated, debited, debit_ran, ran⟩ := Program.run_issue_eq_ok ran
    have present' : (Tx.view (Tx.addRow { tx with saved := tx.work :: tx.saved }
        (request.row request.amount)) account).wallet = some wallet := by
      rw [view_addRow]
      exact present
    obtain ⟨short, rfl, rfl⟩ | ⟨covered, solvent, rfl, rfl⟩ := debitBalance_ok present' debit_ran
    · cases ran
      exact .inr (.inl ⟨fresh, short, rfl, rfl⟩)
    · cases ran
      refine .inr (.inr ⟨fresh, covered, solvent, rfl, ?_⟩)
      simp [Account.record]

theorem consumeInFull_ok {result : Except WalletError ConsumeResult}
    (present : (tx.view account).wallet = some wallet) (positive : 0 < request.amount)
    (plain : request.metadata.incremental = false)
    (unreconciled : agentReconcileApplies context request.metadata = false ∨
      (tx.view account).existing request.idempotencyKey = none ∧
        (request.amount ≤ wallet.balance ∨ wallet.balance ≤ 0))
    (ran : (consumeInFull request).run (Sql.exec account account) tx = .ok (result, after)) :
    Debit context request (tx.view account) result (after.view account) := by
  have balance_eq := view_balance present
  have debt_eq := view_debt present
  obtain ⟨answer, between, debit_ran, ran⟩ := Program.run_bind_eq_ok ran
  obtain ⟨holder, taken, rfl, same⟩ | ⟨fresh, short, rfl, same⟩ |
    ⟨fresh, covered, solvent, rfl, charged⟩ := debitInSavepoint_ok present debit_ran
  · have legacy : agentReconcileApplies context request.metadata = false := by
      rcases unreconciled with legacy | ⟨fresh, -⟩
      · exact legacy
      · rw [fresh] at taken
        cases taken
    simp only [Program.call_bind, run_selectLedger, same, taken] at ran
    split at ran
    · cases ran
      rw [same]
      exact .mismatched holder _ plain legacy taken
    · rw [run_currentBalance, same] at ran
      cases ran
      rw [same]
      exact .replayed holder taken
  · cases ran
    rw [same]
    refine .insufficient plain fresh (by omega) ?_
    rcases unreconciled with legacy | ⟨-, enough | empty⟩
    · exact .inl legacy
    · omega
    · exact .inr (by omega)
  · simp only [Program.call_bind, run_insertAudit] at ran
    cases ran
    have charge : Debit context request (tx.view account) _ _ :=
      .charged request.amount (.billingDebit request.newId request.amount
        (wallet.balance - request.amount) request.sessionId request.metadata.model)
      fresh positive (by omega) (by omega) (.inl rfl) rfl
    simpa [charged, Account.record, balance_eq, debt_eq] using charge

/-- The agent path: an answer of its own, or nothing done and the full debit to come. -/
theorem consumeAgentWithDebt_ok {answer : Except WalletError (Option ConsumeResult)}
    (present : (tx.view account).wallet = some wallet)
    (plain : request.metadata.incremental = false)
    (reconciles : agentReconcileApplies context request.metadata = true)
    (ran : (consumeAgentWithDebt request).run (Sql.exec account account) tx =
      .ok (answer, after)) :
    (answer = .ok none ∧ after.view account = tx.view account ∧
      (tx.view account).existing request.idempotencyKey = none ∧
      (request.amount ≤ wallet.balance ∨ wallet.balance ≤ 0)) ∨
    ∃ result, answer = .ok (some result) ∧
      Debit context request (tx.view account) (.ok result) (after.view account) := by
  have balance_eq := view_balance present
  have debt_eq := view_debt present
  simp only [consumeAgentWithDebt, Program.call_bind, run_selectLedger] at ran
  cases found : (tx.view account).existing request.idempotencyKey with
  | some holder =>
      simp only [found, run_currentBalance] at ran
      cases ran
      exact .inr ⟨_, rfl, .replayed holder found⟩
  | none =>
      simp only [found, run_currentBalance] at ran
      split at ran
      next enough =>
        cases ran
        exact .inl ⟨rfl, rfl, rfl, .inl (by omega)⟩
      next short =>
        split at ran
        next empty =>
          cases ran
          exact .inl ⟨rfl, rfl, rfl, .inr (by omega)⟩
        next positive =>
          rw [run_savepoint] at ran
          obtain ⟨inserted, filled, insert_ran, ran⟩ := Program.run_issue_eq_ok ran
          obtain ⟨holder, taken, rfl, rfl⟩ | ⟨fresh, -, rfl, rfl⟩ := insertLedger_ok insert_ran
          · have taken' : (tx.view account).existing request.idempotencyKey = some holder := taken
            rw [found] at taken'
            cases taken'
          · obtain ⟨updated, debited, debit_ran, ran⟩ := Program.run_issue_eq_ok ran
            have present' : (Tx.view (Tx.addRow { tx with saved := tx.work :: tx.saved }
                (request.row (tx.view account).balance)) account).wallet = some wallet := by
              rw [view_addRow]
              exact present
            obtain ⟨solvent, rfl, rfl⟩ :=
              debitAccruingDebt_ok present' (Int.le_of_eq balance_eq) debit_ran
            simp only [run_releaseSavepoint, run_insertAudit] at ran
            cases ran
            refine .inr ⟨_, rfl, ?_⟩
            have accrual : Debit context request (tx.view account) _ _ :=
              .accrued plain reconciles found (by omega) (by omega) (by omega)
            simpa [Account.record, balance_eq, debt_eq, ConsumeRequest.row] using accrual

theorem consumeIncrementalClamp_ok {result : Except WalletError ConsumeResult}
    (present : (tx.view account).wallet = some wallet) (positive : 0 < request.amount)
    (incremental : request.metadata.incremental = true)
    (ran : (consumeIncrementalClamp request).run (Sql.exec account account) tx =
      .ok (result, after)) :
    Debit context request (tx.view account) result (after.view account) := by
  have balance_eq := view_balance present
  have debt_eq := view_debt present
  simp only [consumeIncrementalClamp, Program.call_bind, run_selectLedger] at ran
  cases found : (tx.view account).existing request.idempotencyKey with
  | some holder =>
      simp only [found, run_currentBalance] at ran
      cases ran
      exact .replayed holder found
  | none =>
      simp only [found] at ran
      obtain ⟨answer, clamped, clamp_ran, ran⟩ := Program.run_issue_eq_ok ran
      obtain ⟨idle, rfl, rfl⟩ | ⟨funded, solvent, -, rfl, rfl⟩ := clampDebit_ok present clamp_ran
      · have empty : wallet.balance ≤ 0 := by
          rcases idle with empty | taken
          · exact empty
          · have taken' : ((tx.view account).existing request.idempotencyKey).isSome := taken
            simp [found] at taken'
        have same : (tx.putWallet wallet).view account = tx.view account := by
          rw [view_putWallet, ← present]
        simp only [run_selectLedger, same, found] at ran
        cases ran
        rw [same]
        have nothing : Debit context request (tx.view account) _ _ :=
          .drained incremental found (by omega)
        simpa [balance_eq] using nothing
      · simp only [run_insertAudit] at ran
        cases ran
        have charge : Debit context request (tx.view account) _ _ :=
          .charged (min request.amount wallet.balance)
            (.billingDebitStep request.newId (min request.amount wallet.balance)
              (wallet.balance - min request.amount wallet.balance) request.metadata.runId
              request.metadata.stepIndex request.metadata.model)
            found (by omega) (by omega) (by omega) (.inr ⟨incremental, by rw [balance_eq]⟩) rfl
        simpa [Account.record, balance_eq, debt_eq, ConsumeRequest.row] using charge

/-- After `_ensure_wallet` the transaction sees the provisioned account. -/
theorem ensureWallet_ok {answer : Unit}
    (ran : Sql.exec account account _ .ensureWallet {} = .ok (answer, after)) :
    after.view account = account.provisioned := by
  cases found : account.wallet with
  | some wallet =>
      simp [Sql.exec, Work.onto, found] at ran
      subst ran
      cases account
      simp_all [Account.provisioned, Account.row]
  | none =>
      simp [Sql.exec, Work.onto, found] at ran
      subst ran
      simp [Account.provisioned, Account.row, found]

theorem exec_ensureWallet (account : Account) :
    ∃ ensured : Tx, Sql.exec account account _ .ensureWallet {} = .ok ((), ensured) ∧
      ensured.view account = account.provisioned := by
  have answered : ∃ ensured, Sql.exec account account _ .ensureWallet {} = .ok ((), ensured) := by
    simp only [Sql.exec]
    split <;> exact ⟨_, rfl⟩
  obtain ⟨ensured, answered⟩ := answered
  exact ⟨ensured, answered, ensureWallet_ok answered⟩

theorem consumeChecked_ok {result : Except WalletError ConsumeResult}
    (positive : 0 < request.amount)
    (ran : (consumeChecked context request).run (Sql.exec account account) {} =
      .ok (result, after)) :
    Debit context request account.provisioned result (after.view account) := by
  simp only [consumeChecked, Program.call_bind] at ran
  obtain ⟨_, ensured, ensure_ran, ran⟩ := Program.run_issue_eq_ok ran
  have seen := ensureWallet_ok ensure_ran
  have present : (ensured.view account).wallet = some account.row := by
    rw [seen]
    rfl
  rw [← seen]
  split at ran
  next incremental => exact consumeIncrementalClamp_ok present positive incremental ran
  next plain =>
    have plain : request.metadata.incremental = false := by simpa using plain
    split at ran
    next reconciles =>
      obtain ⟨answer, between, agent_ran, ran⟩ := Program.run_bind_eq_ok ran
      obtain ⟨rfl, same, fresh, deferred⟩ | ⟨reconciled, rfl, debit⟩ :=
        consumeAgentWithDebt_ok present plain reconciles agent_ran
      · have present' : (between.view account).wallet = some account.row := by
          rw [same]
          exact present
        rw [← same]
        exact consumeInFull_ok present' positive plain
          (.inr ⟨by rw [same]; exact fresh, deferred⟩) ran
      · cases ran
        exact debit
    next legacy =>
      exact consumeInFull_ok present positive plain (.inl (by simpa using legacy)) ran

/-- A debit which runs alone raises before its first statement or does a single `Debit`. -/
theorem consume_ok {result : Except WalletError ConsumeResult}
    (ran : (consume context request).run (Sql.exec account account) {} = .ok (result, after)) :
    (∃ raised, result = .error raised ∧ after.view account = account) ∨
    (0 < request.amount ∧
      Debit context request account.provisioned result (after.view account)) := by
  unfold consume at ran
  split at ran
  · cases ran
    exact .inl ⟨_, rfl, view_empty account⟩
  next positive =>
    have positive : 0 < request.amount := by omega
    split at ran
    · exact .inr ⟨positive, consumeChecked_ok positive ran⟩
    · split at ran
      · cases ran
        exact .inl ⟨_, rfl, view_empty account⟩
      · exact .inr ⟨positive, consumeChecked_ok positive ran⟩

end Programs

/-- What `grant` does to a provisioned account, with the answer it gives. -/
inductive Credit (context : Context) (request : GrantRequest) (seen : Account) :
    Except WalletError GrantResult → Account → Prop
  | mismatched (holder : LedgerTransaction) (message : String)
      (taken : seen.existing request.idempotencyKey = some holder) :
      Credit context request seen (.error (.conflict message)) seen
  | replayed (holder : LedgerTransaction)
      (taken : seen.existing request.idempotencyKey = some holder) :
      Credit context request seen (.ok ⟨seen.balance, holder.id, true⟩) seen
  | credited (repaid : Int) (events : List AuditEvent)
      (fresh : seen.existing request.idempotencyKey = none)
      (settled : repaid =
        if context.agentDebtReconcileEnabled then min request.amount seen.debt else 0)
      (balance_nonneg : 0 ≤ seen.balance + (request.amount - repaid))
      (debt_nonneg : 0 ≤ seen.debt - repaid)
      (no_debt : ∀ event ∈ events, event.debtAdded = 0) :
      Credit context request seen
        (.ok ⟨seen.balance + (request.amount - repaid), request.newId, false⟩)
        (seen.record ⟨seen.balance + (request.amount - repaid), seen.debt - repaid⟩ request.row
          events)

section Grant

variable {context : Context} {request : GrantRequest} {account : Account} {tx after : Tx}
  {wallet : WalletRow}

theorem creditWallet_ok {amount : Int} {answer : Int × Int × Int}
    (present : (tx.view account).wallet = some wallet)
    (ran : (creditWallet context amount).run (Sql.exec account account) tx = .ok (answer, after)) :
    ∃ repaid remaining,
      repaid = (if context.agentDebtReconcileEnabled then min amount wallet.debt else 0) ∧
      0 ≤ wallet.balance + (amount - repaid) ∧ 0 ≤ wallet.debt - repaid ∧
      answer = (wallet.balance + (amount - repaid), remaining, repaid) ∧
      after = tx.putWallet ⟨wallet.balance + (amount - repaid), wallet.debt - repaid⟩ := by
  unfold creditWallet at ran
  split at ran
  next enabled =>
    obtain ⟨updated, settled, update_ran, ran⟩ := Program.run_issue_eq_ok ran
    obtain ⟨balance_nonneg, debt_nonneg, rfl, rfl⟩ := creditSettlingDebt_ok present update_ran
    cases ran
    exact ⟨_, _, by rw [if_pos enabled], balance_nonneg, debt_nonneg, rfl, rfl⟩
  next disabled =>
    obtain ⟨updated, settled, update_ran, ran⟩ := Program.run_issue_eq_ok ran
    obtain ⟨balance_nonneg, debt_nonneg, rfl, rfl⟩ := creditBalance_ok present update_ran
    cases ran
    exact ⟨0, 0, by rw [if_neg disabled], by omega, by omega, by simp, by simp⟩

theorem grant_positive_ok {result : Except WalletError GrantResult}
    (positive : 0 < request.amount)
    (ran : (grant context request).run (Sql.exec account account) {} = .ok (result, after)) :
    Credit context request account.provisioned result (after.view account) := by
  rw [grant, if_neg (Int.not_le.mpr positive)] at ran
  simp only [Program.call_bind] at ran
  obtain ⟨_, ensured, ensure_ran, ran⟩ := Program.run_issue_eq_ok ran
  have seen := ensureWallet_ok ensure_ran
  have present : (ensured.view account).wallet = some account.row := by
    rw [seen]
    rfl
  have balance_eq := view_balance present
  have debt_eq := view_debt present
  rw [← seen]
  obtain ⟨inserted, filled, insert_ran, rest_ran⟩ := Program.run_issue_eq_ok ran
  obtain ⟨holder, taken, rfl, rfl⟩ | ⟨fresh, -, rfl, rfl⟩ := insertLedger_ok insert_ran
  · have taken' : (filled.view account).existing request.idempotencyKey = some holder := taken
    simp only [run_selectLedger, taken'] at rest_ran
    split at rest_ran
    · cases rest_ran
      exact .mismatched holder _ taken'
    · cases rest_ran
      exact .replayed holder taken'
  · obtain ⟨answer, credited, credit_ran, rest_ran⟩ := Program.run_bind_eq_ok rest_ran
    have present' : ((ensured.addRow request.row).view account).wallet = some account.row := by
      rw [view_addRow]
      exact present
    obtain ⟨repaid, remaining, settled, balance_nonneg, debt_nonneg, rfl, rfl⟩ :=
      creditWallet_ok present' credit_ran
    rw [← debt_eq] at settled debt_nonneg
    rw [← balance_eq] at balance_nonneg
    have credit (events : List AuditEvent)
        (no_debt : ∀ event ∈ events, AuditEvent.debtAdded event = 0) :
        Credit context request (ensured.view account) _ _ :=
      .credited repaid events fresh settled balance_nonneg debt_nonneg no_debt
    simp only [run_insertAudit] at rest_ran
    split at rest_ran
    · cases rest_ran
      simpa [Account.record, balance_eq, debt_eq, GrantRequest.row] using credit
        [.billingCredit request.newId request.amount
          (account.row.balance + (request.amount - repaid)) request.reason,
         .billingDebtRepaid context.userId repaid remaining request.newId]
        (by simp [AuditEvent.debtAdded])
    · cases rest_ran
      simpa [Account.record, balance_eq, debt_eq, GrantRequest.row] using credit
        [.billingCredit request.newId request.amount
          (account.row.balance + (request.amount - repaid)) request.reason]
        (by simp [AuditEvent.debtAdded])

/-- A grant which runs alone raises before its first statement or does a single `Credit`. -/
theorem grant_ok {result : Except WalletError GrantResult}
    (ran : (grant context request).run (Sql.exec account account) {} = .ok (result, after)) :
    (∃ raised, result = .error raised ∧ after.view account = account) ∨
    (0 < request.amount ∧
      Credit context request account.provisioned result (after.view account)) := by
  by_cases positive : 0 < request.amount
  · exact .inr ⟨positive, grant_positive_ok positive ran⟩
  · rw [grant, if_pos (Int.not_lt.mp positive)] at ran
    cases ran
    exact .inl ⟨_, rfl, view_empty account⟩

/-- A committed grant which answers has done the `Credit` of its answer. -/
theorem Call.credit_of_granted {result : GrantResult} {account after : Account}
    (granted : Call.run ⟨context, .grant request, .commit⟩ account = (.granted result, after)) :
    0 < request.amount ∧ Credit context request account.provisioned (.ok result) after := by
  simp only [Call.run, Call.program] at granted
  cases ran : (Operation.program context (.grant request)).run (Sql.exec account account) {} with
  | error failure =>
      rw [ran] at granted
      cases granted
  | ok step =>
      obtain ⟨outcome, tx⟩ := step
      rw [ran] at granted
      obtain ⟨answer, between, grant_ran, answered⟩ := Program.run_bind_eq_ok ran
      cases answered
      obtain ⟨same, rfl⟩ := Prod.mk.inj granted
      cases answer with
      | error raised => cases same
      | ok answer =>
          cases same
          obtain ⟨raised, unanswered, -⟩ | credited := grant_ok grant_ran
          · cases unanswered
          · exact credited

theorem Call.grant_of_free {result : GrantResult} {account after : Account}
    (granted : Call.run ⟨context, .grant request, .commit⟩ account = (.granted result, after))
    (free : account.existing request.idempotencyKey = none) :
    after.ledger = account.ledger ++ [request.row] ∧
      after.balance - after.debt = account.balance - account.debt + request.amount := by
  obtain ⟨-, credit⟩ := Call.credit_of_granted granted
  cases credit with
  | replayed holder taken => exact absurd (taken.symm.trans free) (by simp)
  | credited repaid events fresh settled balance_nonneg debt_nonneg no_debt =>
      refine ⟨rfl, ?_⟩
      simp only [Account.balance_eq, Account.debt_eq, Account.record, Account.row,
        Account.provisioned, Option.getD_some]
      omega

end Grant

end Hermes.Wallet
