import Hermes.Wallet.Model

/-!
# The wallet service

`consume` in its three modes and `grant`, as programs over the wallet statements.  An exception of
the service is an ordinary answer here: the caller decides whether the surrounding transaction is
committed or rolled back, and both endings occur in the callers.
-/

namespace Hermes.Wallet

/-- Exceptions raised by `WalletService`. -/
inductive WalletError
  | conflict (message : String)
  | insufficientCredits
  | sessionNotFound
  | forbidden
  deriving DecidableEq, Repr

structure ConsumeResult where
  newBalance : Int
  ledgerTxId : TxId
  idempotentReplay : Bool
  chargedAmount : Int := 0
  deriving DecidableEq, Repr

structure GrantResult where
  newBalance : Int
  ledgerTxId : TxId
  idempotentReplay : Bool
  deriving DecidableEq, Repr

/-- What an operation reads besides its own arguments and the wallet tables. -/
structure Context where
  userId : UserId
  /-- `SELECT user_id FROM chat_sessions WHERE id = :sid`. -/
  chatSessions : SessionId → Option UserId
  /-- `AGENT_DEBT_RECONCILE_ENABLED`. -/
  agentDebtReconcileEnabled : Bool

/-- Arguments of `consume`; `newId` is the id the database generates for an inserted row. -/
structure ConsumeRequest where
  amount : Int
  idempotencyKey : String
  metadata : Meta
  sessionId : Option SessionId := none
  newId : TxId

/-- Arguments of `grant`. -/
structure GrantRequest where
  amount : Int
  idempotencyKey : String
  metadata : Meta
  reason : String
  newId : TxId

/-- The debit row a request asks for, with the amount to record. -/
def ConsumeRequest.row (request : ConsumeRequest) (amount : Int) : LedgerTransaction :=
  ⟨request.newId, .debit, amount, request.metadata, request.idempotencyKey⟩

def GrantRequest.row (request : GrantRequest) : LedgerTransaction :=
  ⟨request.newId, .credit, request.amount, request.metadata, request.idempotencyKey⟩

open Program (call)

/-- `_current_balance`. -/
def currentBalance : Program Sql Int := do
  let wallet ← call .selectWallet
  return (wallet.map (·.balance)).getD 0

/-- `_validate_session`. -/
def validateSession (context : Context) (sessionId : SessionId) : Except WalletError Unit :=
  match context.chatSessions sessionId with
  | none => .error .sessionNotFound
  | some owner => if owner ≠ context.userId then .error .forbidden else .ok ()

/-- `_debit_in_savepoint`: no row means the key was taken already. -/
def debitInSavepoint (request : ConsumeRequest) :
    Program Sql (Except WalletError (Option (TxId × Int))) := do
  call .savepoint
  match ← call (.insertLedger (request.row request.amount)) with
  | none =>
      call .releaseSavepoint
      return .ok none
  | some insertedId =>
      match ← call (.debitBalance request.amount) with
      | none =>
          call .rollbackToSavepoint
          return .error .insufficientCredits
      | some updated =>
          call .releaseSavepoint
          return .ok (some (insertedId, updated))

/-- The tail of `consume`: the full debit and the check of a replayed payload. -/
def consumeInFull (request : ConsumeRequest) : Program Sql (Except WalletError ConsumeResult) := do
  match ← debitInSavepoint request with
  | .error raised => return .error raised
  | .ok none =>
      match ← call (.selectLedger request.idempotencyKey) with
      | none => return .error (.conflict "idempotency conflict")
      | some existing =>
          if existing.type ≠ .debit ∨ existing.amount ≠ request.amount then
            return .error (.conflict "idempotency key reused with different payload")
          else
            let balance ← currentBalance
            return .ok ⟨balance, existing.id, true, 0⟩
  | .ok (some (insertedId, newBalance)) =>
      call (.insertAudit (.billingDebit insertedId request.amount newBalance request.sessionId
        request.metadata.model))
      return .ok ⟨newBalance, insertedId, false, request.amount⟩

/-- `_agent_reconcile_applies`. -/
def agentReconcileApplies (context : Context) (metadata : Meta) : Bool :=
  metadata.source == some agentRunSource && context.agentDebtReconcileEnabled

/-- `_consume_agent_with_debt`: `none` defers to the full debit. -/
def consumeAgentWithDebt (request : ConsumeRequest) :
    Program Sql (Except WalletError (Option ConsumeResult)) := do
  match ← call (.selectLedger request.idempotencyKey) with
  | some existing =>
      let current ← currentBalance
      return .ok (some ⟨current, existing.id, true, 0⟩)
  | none =>
      let balance ← currentBalance
      if request.amount ≤ balance then
        return .ok none
      else if balance ≤ 0 then
        return .ok none
      else
        let delta := request.amount - balance
        call .savepoint
        match ← call (.insertLedger (request.row balance)) with
        | none =>
            match ← call (.selectLedger request.idempotencyKey) with
            | none =>
                call .rollbackToSavepoint
                return .error (.conflict "idempotency conflict")
            | some existing =>
                let current ← currentBalance
                call .releaseSavepoint
                return .ok (some ⟨current, existing.id, true, 0⟩)
        | some insertedId =>
            match ← call (.debitAccruingDebt balance delta) with
            | none =>
                -- `_RetryNormalPath`: a concurrent debit got in between.
                call .rollbackToSavepoint
                return .ok none
            | some newDebt =>
                call .releaseSavepoint
                call (.insertAudit (.billingDebitAccrued request.metadata.runId
                  request.metadata.usage request.metadata.model request.amount balance delta
                  newDebt))
                return .ok (some ⟨0, insertedId, false, balance⟩)

/-- `_consume_incremental_clamp`. -/
def consumeIncrementalClamp (request : ConsumeRequest) :
    Program Sql (Except WalletError ConsumeResult) := do
  match ← call (.selectLedger request.idempotencyKey) with
  | some existing =>
      let balance ← currentBalance
      return .ok ⟨balance, existing.id, true, 0⟩
  | none =>
      let answer ← call (.clampDebit (request.row request.amount))
      let newBalance := answer.newBalance.getD 0
      match answer.txId, answer.charged with
      | some txId, some charged =>
          call (.insertAudit (.billingDebitStep txId charged newBalance request.metadata.runId
            request.metadata.stepIndex request.metadata.model))
          return .ok ⟨newBalance, txId, false, charged⟩
      | _, _ =>
          let replay ← call (.selectLedger request.idempotencyKey)
          return .ok ⟨newBalance, (replay.map (·.id)).getD nilTxId, replay.isSome, 0⟩

/-- `consume` past the argument checks. -/
def consumeChecked (context : Context) (request : ConsumeRequest) :
    Program Sql (Except WalletError ConsumeResult) := do
  call .ensureWallet
  if request.metadata.incremental then
    consumeIncrementalClamp request
  else if agentReconcileApplies context request.metadata then
    match ← consumeAgentWithDebt request with
    | .error raised => return .error raised
    | .ok (some reconciled) => return .ok reconciled
    | .ok none => consumeInFull request
  else
    consumeInFull request

/-- `consume`. -/
def consume (context : Context) (request : ConsumeRequest) :
    Program Sql (Except WalletError ConsumeResult) :=
  if request.amount ≤ 0 then
    return .error (.conflict "amount must be positive")
  else
    match request.sessionId with
    | none => consumeChecked context request
    | some sessionId =>
        match validateSession context sessionId with
        | .error raised => return .error raised
        | .ok () => consumeChecked context request

/-- The wallet update of a grant: new balance, remaining debt and the part repaid. -/
def creditWallet (context : Context) (amount : Int) : Program Sql (Int × Int × Int) := do
  if context.agentDebtReconcileEnabled then
    match ← call (.creditSettlingDebt amount) with
    | some updated => return (updated.balance, updated.debt, updated.repaid)
    | none => return (amount, 0, 0)
  else
    match ← call (.creditBalance amount) with
    | some balance => return (balance, 0, 0)
    | none => return (amount, 0, 0)

/-- `grant`. -/
def grant (context : Context) (request : GrantRequest) :
    Program Sql (Except WalletError GrantResult) := do
  if request.amount ≤ 0 then
    return .error (.conflict "amount must be positive")
  else
    call .ensureWallet
    match ← call (.insertLedger request.row) with
    | none =>
        match ← call (.selectLedger request.idempotencyKey) with
        | none => return .error (.conflict "idempotency conflict")
        | some existing =>
            if existing.type ≠ .credit ∨ existing.amount ≠ request.amount then
              return .error (.conflict "idempotency key reused with different payload")
            else
              let balance ← currentBalance
              return .ok ⟨balance, existing.id, true⟩
    | some insertedId =>
        let (newBalance, debtRemaining, repaid) ← creditWallet context request.amount
        call (.insertAudit (.billingCredit insertedId request.amount newBalance request.reason))
        if 0 < repaid then
          call (.insertAudit (.billingDebtRepaid context.userId repaid debtRemaining insertedId))
        return .ok ⟨newBalance, insertedId, false⟩

inductive Operation
  | consume (request : ConsumeRequest)
  | grant (request : GrantRequest)

inductive Outcome
  | consumed (result : ConsumeResult)
  | granted (result : GrantResult)
  | raised (error : WalletError)
  | failed (error : DbError)
  deriving DecidableEq, Repr

namespace Outcome

def ofConsume : Except WalletError ConsumeResult → Outcome
  | .ok result => .consumed result
  | .error error => .raised error

def ofGrant : Except WalletError GrantResult → Outcome
  | .ok result => .granted result
  | .error error => .raised error

end Outcome

def Operation.program (context : Context) : Operation → Program Sql Outcome
  | .consume request => do return .ofConsume (← Wallet.consume context request)
  | .grant request => do return .ofGrant (← Wallet.grant context request)

/-- How the caller ends the transaction of an operation. -/
inductive Ending
  | commit
  | rollback
  deriving DecidableEq, Repr

/-- One operation of one user, with the ending its caller chooses. -/
structure Call where
  context : Context
  operation : Operation
  ending : Ending

namespace Call

def program (invocation : Call) : Program Sql Outcome :=
  invocation.operation.program invocation.context

/-- End the transaction of a call.  A statement the database rejects aborts it. -/
def conclude (invocation : Call) (account : Account) :
    Except DbError (Outcome × Tx) → Outcome × Account
  | .error failure => (.failed failure, account)
  | .ok (outcome, tx) =>
      (outcome, match invocation.ending with
        | .commit => tx.work.onto account
        | .rollback => account)

def run (invocation : Call) (account : Account) : Outcome × Account :=
  invocation.conclude account (invocation.program.run (Sql.exec account account) {})

end Call

end Hermes.Wallet
