import Mathlib.Algebra.Ring.Int.Defs
import Hermes.Json
import Hermes.Library.Program

/-!
# Wallet tables and the statements issued against them

One user owns one `wallets` row and the `ledger_transactions` rows under that user id, so the two
tables split into independent accounts.  A statement reads through the uncommitted work of its own
transaction; `UPDATE` statements additionally see the snapshot taken when the statement began,
which differs from the committed row only when another transaction got in between.
-/

namespace Hermes.Wallet

/-- `users.id`. -/
structure UserId where
  value : Nat
  deriving DecidableEq, Repr

/-- `chat_sessions.id`. -/
structure SessionId where
  value : Nat
  deriving DecidableEq, Repr

/-- `ledger_transactions.id`. -/
structure TxId where
  value : Nat
  deriving DecidableEq, Repr

/-- `_NIL_TX_ID`: reported by the incremental path when no ledger row was written. -/
def nilTxId : TxId := ⟨0⟩

/-- The `ledger_tx_type` enumeration. -/
inductive LedgerTxType
  | debit
  | credit
  deriving DecidableEq, Repr

/-- The entries of a `meta` dictionary which the wallet or its callers read. -/
structure Meta where
  source : Option String := none
  incremental : Bool := false
  orphan : Bool := false
  runId : Option String := none
  stepIndex : Option Int := none
  usage : Option Json := none
  model : Option String := none

/-- `meta.source` of an agent-run debit, `_AGENT_RUN_SOURCE`. -/
def agentRunSource : String := "agent_run"

/-- A `ledger_transactions` row of one user. -/
structure LedgerTransaction where
  id : TxId
  type : LedgerTxType
  amount : Int
  metadata : Meta
  idempotencyKey : String

/-- The `wallets` row of one user. -/
structure WalletRow where
  balance : Int
  debt : Int
  deriving DecidableEq, Repr

/-- Audit rows written in the transaction of a billing action. -/
inductive AuditEvent
  /-- `billing_debit` of a full debit. -/
  | billingDebit (ledgerTxId : TxId) (amount newBalance : Int) (sessionId : Option SessionId)
      (model : Option String)
  /-- `billing_debit` of one incremental step. -/
  | billingDebitStep (ledgerTxId : TxId) (amount newBalance : Int) (runId : Option String)
      (stepIndex : Option Int) (model : Option String)
  /-- `billing_debit_insufficient` of a debit which drained the balance and accrued debt. -/
  | billingDebitAccrued (runId : Option String) (usage : Option Json) (model : Option String)
      (requiredAmount partialDebited debtAdded debt : Int)
  /-- `billing_debit_insufficient` of a debit which was refused altogether. -/
  | billingDebitRefused (runId : String) (usage : Option Json) (model : Option String)
      (amount balance : Int)
  /-- `billing_credit`. -/
  | billingCredit (ledgerTxId : TxId) (amount newBalance : Int) (reason : String)
  /-- `billing_debt_repaid`. -/
  | billingDebtRepaid (userId : UserId) (repaid debtRemaining : Int) (grantLedgerTxId : TxId)

structure Account where
  wallet : Option WalletRow := none
  ledger : List LedgerTransaction := []
  audit : List AuditEvent := []

namespace Account

/-- `_current_balance`: zero while the wallet row is missing. -/
def balance (account : Account) : Int := (account.wallet.map (·.balance)).getD 0

/-- `_current_debt`: zero while the wallet row is missing. -/
def debt (account : Account) : Int := (account.wallet.map (·.debt)).getD 0

/-- The row holding an idempotency key, if any. -/
def existing (account : Account) (key : String) : Option LedgerTransaction :=
  account.ledger.find? fun row => row.idempotencyKey == key

/-- `charged_for_run`: debits under the bare run key or under any of its step keys. -/
def chargedForRun (account : Account) (runId : String) : Int :=
  ((account.ledger.filter fun row =>
    row.type == .debit &&
      (row.idempotencyKey == runId ||
        (runId ++ ":").toList.isPrefixOf row.idempotencyKey.toList)).map (·.amount)).sum

end Account

/-- A statement the database rejects; the whole transaction is then rolled back. -/
inductive DbError
  | outOfRange
  | checkViolation (constraint : String)
  deriving DecidableEq, Repr

/-- The value fits a `BIGINT` column or parameter. -/
def fitsBigint (value : Int) : Bool :=
  decide (-9223372036854775808 ≤ value ∧ value ≤ 9223372036854775807)

/-- Store a wallet row, enforcing the column type and the two `CHECK` constraints. -/
def storeWallet (row : WalletRow) : Except DbError WalletRow :=
  if fitsBigint row.balance && fitsBigint row.debt then
    if row.balance < 0 then .error (.checkViolation "ck_wallets_balance_nonneg")
    else if row.debt < 0 then .error (.checkViolation "ck_wallets_debt_nonneg")
    else .ok row
  else .error .outOfRange

/-- Uncommitted work of one transaction.  A present `wallet` also means the row is locked. -/
structure Work where
  wallet : Option WalletRow := none
  rows : List LedgerTransaction := []
  audit : List AuditEvent := []

/-- What a transaction sees: committed data below its own work. -/
def Work.onto (work : Work) (committed : Account) : Account where
  wallet := work.wallet.or committed.wallet
  ledger := committed.ledger ++ work.rows
  audit := committed.audit ++ work.audit

/-- A transaction in progress, with the work saved at each open savepoint. -/
structure Tx where
  work : Work := {}
  saved : List Work := []

/-- The single row answered by the incremental clamp statement. -/
structure ClampRow where
  txId : Option TxId
  charged : Option Int
  newBalance : Option Int

/-- The single row answered by a credit which settles debt first. -/
structure SettledRow where
  balance : Int
  debt : Int
  repaid : Int

/-- The statements of `WalletService`, all scoped to one user. -/
inductive Sql : Type → Type
  /-- `INSERT INTO wallets … ON CONFLICT DO NOTHING`. -/
  | ensureWallet : Sql Unit
  /-- `SELECT … FROM ledger_transactions WHERE idempotency_key = :key`. -/
  | selectLedger (key : String) : Sql (Option LedgerTransaction)
  /-- `SELECT … FROM wallets`. -/
  | selectWallet : Sql (Option WalletRow)
  | savepoint : Sql Unit
  | releaseSavepoint : Sql Unit
  | rollbackToSavepoint : Sql Unit
  /-- `INSERT INTO ledger_transactions … ON CONFLICT DO NOTHING RETURNING id`. -/
  | insertLedger (row : LedgerTransaction) : Sql (Option TxId)
  /-- `UPDATE wallets SET balance = balance - :amount WHERE balance >= :amount`. -/
  | debitBalance (amount : Int) : Sql (Option Int)
  /-- `UPDATE wallets SET balance = balance - :part, debt = debt + :delta
  WHERE balance >= :part RETURNING debt`. -/
  | debitAccruingDebt (part delta : Int) : Sql (Option Int)
  /-- The `WITH locked, ins, upd` statement of the incremental path. -/
  | clampDebit (row : LedgerTransaction) : Sql ClampRow
  /-- `UPDATE wallets … FROM (SELECT debt …) AS prev`: the credit which settles debt first. -/
  | creditSettlingDebt (amount : Int) : Sql (Option SettledRow)
  /-- `UPDATE wallets SET balance = balance + :amount`. -/
  | creditBalance (amount : Int) : Sql (Option Int)
  /-- `INSERT INTO audit_logs`. -/
  | insertAudit (event : AuditEvent) : Sql Unit

/-- Replace the wallet row inside a transaction. -/
def Tx.putWallet (tx : Tx) (row : WalletRow) : Tx :=
  { tx with work := { tx.work with wallet := some row } }

def Tx.addRow (tx : Tx) (row : LedgerTransaction) : Tx :=
  { tx with work := { tx.work with rows := tx.work.rows ++ [row] } }

def Tx.addAudit (tx : Tx) (event : AuditEvent) : Tx :=
  { tx with work := { tx.work with audit := tx.work.audit ++ [event] } }

/-- Run one statement of a transaction.  `snapshot` is the committed data when the statement
began, `committed` the data when it gets hold of the row. -/
def Sql.exec (snapshot committed : Account) (β : Type) (stmt : Sql β) (tx : Tx) :
    Except DbError (β × Tx) :=
  let seen := tx.work.onto committed
  let began := tx.work.onto snapshot
  match stmt with
  | .ensureWallet =>
      match seen.wallet with
      | some _ => .ok ((), tx)
      | none => .ok ((), tx.putWallet ⟨0, 0⟩)
  | .selectLedger key => .ok (seen.existing key, tx)
  | .selectWallet => .ok (seen.wallet, tx)
  | .savepoint => .ok ((), { tx with saved := tx.work :: tx.saved })
  | .releaseSavepoint => .ok ((), { tx with saved := tx.saved.tail })
  | .rollbackToSavepoint =>
      .ok ((), { work := tx.saved.headD tx.work, saved := tx.saved.tail })
  | .insertLedger row =>
      if !fitsBigint row.amount then .error .outOfRange
      else if (seen.existing row.idempotencyKey).isSome then .ok (none, tx)
      else if row.amount ≤ 0 then .error (.checkViolation "ck_ledger_amount_positive")
      else .ok (some row.id, tx.addRow row)
  | .debitBalance amount =>
      match began.wallet, seen.wallet with
      | some old, some row =>
          -- A row which fails the predicate in the snapshot is skipped without waiting for it.
          if amount ≤ old.balance ∧ amount ≤ row.balance then do
            let stored ← storeWallet ⟨row.balance - amount, row.debt⟩
            .ok (some stored.balance, tx.putWallet stored)
          else .ok (none, tx)
      | _, _ => .ok (none, tx)
  | .debitAccruingDebt part delta =>
      if !fitsBigint delta then .error .outOfRange
      else
        match began.wallet, seen.wallet with
        | some old, some row =>
            if part ≤ old.balance ∧ part ≤ row.balance then do
              let stored ← storeWallet ⟨row.balance - part, row.debt + delta⟩
              .ok (some stored.debt, tx.putWallet stored)
            else .ok (none, tx)
        | _, _ => .ok (none, tx)
  | .clampDebit row =>
      if !fitsBigint row.amount then .error .outOfRange
      else
        match seen.wallet with
        | none => .ok (⟨none, none, none⟩, tx)
        | some locked =>
            if locked.balance ≤ 0 ∨ (seen.existing row.idempotencyKey).isSome then
              -- Nothing is inserted, but `FOR UPDATE` has locked the row all the same.
              .ok (⟨none, none, some locked.balance⟩, tx.putWallet locked)
            else do
              let charged := min row.amount locked.balance
              let stored ← storeWallet ⟨locked.balance - charged, locked.debt⟩
              .ok (⟨some row.id, some charged, some stored.balance⟩,
                (tx.addRow { row with amount := charged }).putWallet stored)
  | .creditSettlingDebt amount =>
      match began.wallet, seen.wallet with
      | some prev, some row => do
          -- `prev` is the row of the subquery: it is not read again after a wait.
          let repaid := min amount prev.debt
          let stored ← storeWallet ⟨row.balance + (amount - repaid), row.debt - repaid⟩
          .ok (some ⟨stored.balance, stored.debt, repaid⟩, tx.putWallet stored)
      | _, _ => .ok (none, tx)
  | .creditBalance amount =>
      match seen.wallet with
      | some row => do
          let stored ← storeWallet ⟨row.balance + amount, row.debt⟩
          .ok (some stored.balance, tx.putWallet stored)
      | none => .ok (none, tx)
  | .insertAudit event => .ok ((), tx.addAudit event)

end Hermes.Wallet
