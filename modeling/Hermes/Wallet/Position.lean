import Hermes.Wallet.Follow

/-!
# Positions inside the wallet programs

The continuations of `consume` and `grant`, statement by statement.  A transaction between two
statements stands at one of them, with the rows it has inserted and the row it has found under its
idempotency key.
-/

namespace Hermes.Wallet

section Consume

variable (context : Context) (request : ConsumeRequest)

/-- The answer of a replay: the balance is read last. -/
def replayAnswer (holder : LedgerTransaction) (wallet : Option WalletRow) : ConsumeResult :=
  ⟨(wallet.map (·.balance)).getD 0, holder.id, true, 0⟩

/-- After the `UPDATE` of the full debit. -/
def fullUpdated (insertedId : TxId) :
    Option Int → Program Sql (Except WalletError ConsumeResult)
  | none => .issue .rollbackToSavepoint fun _ => .done (.error .insufficientCredits)
  | some newBalance =>
      .issue .releaseSavepoint fun _ =>
        .issue (.insertAudit (.billingDebit insertedId request.amount newBalance
          request.sessionId request.metadata.model)) fun _ =>
          .done (.ok ⟨newBalance, insertedId, false, request.amount⟩)

/-- After the row which holds the key was looked up. -/
def fullFound : Option LedgerTransaction → Program Sql (Except WalletError ConsumeResult)
  | none => .done (.error (.conflict "idempotency conflict"))
  | some holder =>
      if holder.type ≠ .debit ∨ holder.amount ≠ request.amount then
        .done (.error (.conflict "idempotency key reused with different payload"))
      else
        .issue .selectWallet fun wallet => .done (.ok (replayAnswer holder wallet))

/-- After the `INSERT` of the full debit. -/
def fullInserted : Option TxId → Program Sql (Except WalletError ConsumeResult)
  | none =>
      .issue .releaseSavepoint fun _ =>
        .issue (.selectLedger request.idempotencyKey) (fullFound request)
  | some insertedId => .issue (.debitBalance request.amount) (fullUpdated request insertedId)

theorem consumeInFull_eq :
    consumeInFull request =
      .issue .savepoint fun _ =>
        .issue (.insertLedger (request.row request.amount)) (fullInserted request) := by
  simp only [consumeInFull, debitInSavepoint, Program.call_bind, Program.issue_bind]
  congr 1
  funext _
  congr 1
  funext inserted
  cases inserted with
  | none =>
      refine congrArg (Program.issue Sql.releaseSavepoint) (funext fun _ => ?_)
      refine congrArg (Program.issue (Sql.selectLedger _)) (funext fun found => ?_)
      cases found with
      | none => rfl
      | some holder =>
          simp only [fullFound]
          split <;> rfl
  | some insertedId =>
      refine congrArg (Program.issue (Sql.debitBalance _)) (funext fun updated => ?_)
      cases updated <;> rfl

/-- After the `UPDATE` of the partial debit. -/
def partUpdated (balance : Int) (insertedId : TxId) :
    Option Int → Program Sql (Except WalletError ConsumeResult)
  | none => .issue .rollbackToSavepoint fun _ => consumeInFull request
  | some newDebt =>
      .issue .releaseSavepoint fun _ =>
        .issue (.insertAudit (.billingDebitAccrued request.metadata.runId request.metadata.usage
          request.metadata.model request.amount balance (request.amount - balance) newDebt))
          fun _ => .done (.ok ⟨0, insertedId, false, balance⟩)

/-- After the partial debit found its key taken and looked the row up. -/
def partFound : Option LedgerTransaction → Program Sql (Except WalletError ConsumeResult)
  | none =>
      .issue .rollbackToSavepoint fun _ => .done (.error (.conflict "idempotency conflict"))
  | some holder =>
      .issue .selectWallet fun wallet =>
        .issue .releaseSavepoint fun _ => .done (.ok (replayAnswer holder wallet))

/-- After the `INSERT` of the partial debit. -/
def partInserted (balance : Int) :
    Option TxId → Program Sql (Except WalletError ConsumeResult)
  | none => .issue (.selectLedger request.idempotencyKey) partFound
  | some insertedId =>
      .issue (.debitAccruingDebt balance (request.amount - balance))
        (partUpdated request balance insertedId)

/-- The partial debit of the balance that was read. -/
def partDebit (balance : Int) : Program Sql (Except WalletError ConsumeResult) :=
  .issue .savepoint fun _ =>
    .issue (.insertLedger (request.row balance)) (partInserted request balance)

def agentRead (balance : Int) : Program Sql (Except WalletError ConsumeResult) :=
  if request.amount ≤ balance then consumeInFull request
  else if balance ≤ 0 then consumeInFull request
  else partDebit request balance

def agentFound : Option LedgerTransaction → Program Sql (Except WalletError ConsumeResult)
  | some holder => .issue .selectWallet fun wallet => .done (.ok (replayAnswer holder wallet))
  | none =>
      .issue .selectWallet fun wallet => agentRead request ((wallet.map (·.balance)).getD 0)

/-- The agent path with the full debit it defers to. -/
def agentBody : Program Sql (Except WalletError ConsumeResult) := do
  match ← consumeAgentWithDebt request with
  | .error raised => return .error raised
  | .ok (some reconciled) => return .ok reconciled
  | .ok none => consumeInFull request

theorem agentBody_eq :
    agentBody request = .issue (.selectLedger request.idempotencyKey) (agentFound request) := by
  simp only [agentBody, consumeAgentWithDebt, Program.call_bind, Program.issue_bind]
  refine congrArg (Program.issue (Sql.selectLedger _)) (funext fun found => ?_)
  cases found with
  | some holder => rfl
  | none =>
      refine congrArg (Program.issue Sql.selectWallet) (funext fun wallet => ?_)
      simp only [Program.pure_eq, Program.bind, agentRead]
      by_cases enough : request.amount ≤ (wallet.map (·.balance)).getD 0
      · simp only [enough, if_true]
        rfl
      · by_cases empty : (wallet.map (·.balance)).getD 0 ≤ 0
        · simp only [enough, empty, if_true, if_false]
          rfl
        · simp only [enough, empty, if_false]
          refine congrArg (Program.issue Sql.savepoint) (funext fun _ => ?_)
          refine congrArg (Program.issue (Sql.insertLedger _)) (funext fun inserted => ?_)
          cases inserted with
          | none =>
              refine congrArg (Program.issue (Sql.selectLedger _)) (funext fun found => ?_)
              cases found <;> rfl
          | some insertedId =>
              refine congrArg (Program.issue (Sql.debitAccruingDebt _ _))
                (funext fun updated => ?_)
              cases updated <;> rfl

def clampAnswered (answer : ClampRow) : Program Sql (Except WalletError ConsumeResult) :=
  match answer.txId, answer.charged with
  | some txId, some charged =>
      .issue (.insertAudit (.billingDebitStep txId charged (answer.newBalance.getD 0)
        request.metadata.runId request.metadata.stepIndex request.metadata.model)) fun _ =>
        .done (.ok ⟨answer.newBalance.getD 0, txId, false, charged⟩)
  | _, _ =>
      .issue (.selectLedger request.idempotencyKey) fun replay =>
        .done (.ok ⟨answer.newBalance.getD 0, (replay.map (·.id)).getD nilTxId, replay.isSome, 0⟩)

/-- After the incremental path looked its key up. -/
def clampFound : Option LedgerTransaction → Program Sql (Except WalletError ConsumeResult)
  | some holder => .issue .selectWallet fun wallet => .done (.ok (replayAnswer holder wallet))
  | none => .issue (.clampDebit (request.row request.amount)) (clampAnswered request)

theorem consumeIncrementalClamp_eq :
    consumeIncrementalClamp request =
      .issue (.selectLedger request.idempotencyKey) (clampFound request) := by
  simp only [consumeIncrementalClamp, Program.call_bind]
  refine congrArg (Program.issue (Sql.selectLedger _)) (funext fun found => ?_)
  cases found with
  | some holder => rfl
  | none =>
      refine congrArg (Program.issue (Sql.clampDebit _)) (funext fun answer => ?_)
      obtain ⟨txId, charged, newBalance⟩ := answer
      cases txId with
      | none => rfl
      | some txId => cases charged <;> rfl

/-- `consume` past `_ensure_wallet`. -/
def consumeBody : Program Sql (Except WalletError ConsumeResult) :=
  if request.metadata.incremental then consumeIncrementalClamp request
  else if agentReconcileApplies context request.metadata then agentBody request
  else consumeInFull request

theorem consumeChecked_eq :
    consumeChecked context request = .issue .ensureWallet fun _ => consumeBody context request :=
  rfl

end Consume

section Grant

variable (context : Context) (request : GrantRequest)

def grantCredited (insertedId : TxId) (credited : Int × Int × Int) :
    Program Sql (Except WalletError GrantResult) :=
  .issue (.insertAudit (.billingCredit insertedId request.amount credited.1 request.reason))
    fun _ =>
      if 0 < credited.2.2 then
        .issue (.insertAudit (.billingDebtRepaid context.userId credited.2.2 credited.2.1
          insertedId)) fun _ => .done (.ok ⟨credited.1, insertedId, false⟩)
      else .done (.ok ⟨credited.1, insertedId, false⟩)

/-- The wallet update of a grant with all that follows it. -/
def grantCredit (insertedId : TxId) : Program Sql (Except WalletError GrantResult) :=
  if context.agentDebtReconcileEnabled then
    .issue (.creditSettlingDebt request.amount) fun updated =>
      grantCredited context request insertedId
        (match updated with
          | some updated => (updated.balance, updated.debt, updated.repaid)
          | none => (request.amount, 0, 0))
  else
    .issue (.creditBalance request.amount) fun updated =>
      grantCredited context request insertedId
        (match updated with
          | some balance => (balance, 0, 0)
          | none => (request.amount, 0, 0))

/-- After the row which holds the key was looked up. -/
def grantFound : Option LedgerTransaction → Program Sql (Except WalletError GrantResult)
  | none => .done (.error (.conflict "idempotency conflict"))
  | some holder =>
      if holder.type ≠ .credit ∨ holder.amount ≠ request.amount then
        .done (.error (.conflict "idempotency key reused with different payload"))
      else
        .issue .selectWallet fun wallet =>
          .done (.ok ⟨(wallet.map (·.balance)).getD 0, holder.id, true⟩)

/-- After the `INSERT` of a grant. -/
def grantInserted : Option TxId → Program Sql (Except WalletError GrantResult)
  | none => .issue (.selectLedger request.idempotencyKey) (grantFound request)
  | some insertedId => grantCredit context request insertedId

theorem grant_eq (positive : 0 < request.amount) :
    grant context request =
      .issue .ensureWallet fun _ =>
        .issue (.insertLedger request.row) (grantInserted context request) := by
  simp only [grant, if_neg (Int.not_le.mpr positive), Program.call_bind]
  refine congrArg (Program.issue Sql.ensureWallet) (funext fun _ => ?_)
  refine congrArg (Program.issue (Sql.insertLedger _)) (funext fun inserted => ?_)
  cases inserted with
  | none =>
      refine congrArg (Program.issue (Sql.selectLedger _)) (funext fun found => ?_)
      cases found with
      | none => rfl
      | some holder =>
          simp only [grantFound]
          split <;> rfl
  | some insertedId =>
      simp only [grantInserted, grantCredit, creditWallet]
      split
      · refine congrArg (Program.issue (Sql.creditSettlingDebt _)) (funext fun updated => ?_)
        cases updated <;> rfl
      · refine congrArg (Program.issue (Sql.creditBalance _)) (funext fun updated => ?_)
        cases updated <;> rfl

end Grant

end Hermes.Wallet
