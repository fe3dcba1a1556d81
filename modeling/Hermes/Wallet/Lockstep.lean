import Hermes.Wallet.Position
import Mathlib.Tactic.Linarith

/-!
# Staying in step

Each position of a wallet program comes with what the transaction relies on: the row found under
its key, the rows it has inserted, and, on the agent path, a condition on the committed balance
under which finishing from here is still what the call run alone would do.  Executing one
statement leads to another such position, to a transaction which holds the wallet row and is in
step, or to an idle one which has answered what the call run alone answers.
-/

namespace Hermes.Wallet

namespace Call

def reconciles (invocation : Call) : Bool :=
  match invocation.operation with
  | .consume request =>
      !request.metadata.incremental && agentReconcileApplies invocation.context request.metadata
  | .grant _ => false

def key (invocation : Call) : String :=
  match invocation.operation with
  | .consume request => request.idempotencyKey
  | .grant request => request.idempotencyKey

def amount (invocation : Call) : Int :=
  match invocation.operation with
  | .consume request => request.amount
  | .grant request => request.amount

/-- No concurrent commit has overtaken what the statement relies on.
* A credit which settles debt repays the same out of its snapshot as out of the latest row.
* The agent-mode debit of the balance read earlier finds exactly that balance, if it matches.
* The agent-mode debit of the full amount, where it does not match, finds nothing to take.
* The agent-mode insert of the full amount finds its key free, or held by a debit of that amount;
  an amount beyond the column type meets an empty balance. -/
def Undisturbed {β : Type} (invocation : Call) (snapshot committed : Account) (tx : Tx) :
    Sql β → Prop
  | .creditSettlingDebt amount =>
      min amount (tx.work.onto snapshot).debt = min amount (tx.work.onto committed).debt
  | .debitAccruingDebt part delta =>
      (fitsBigint delta = false →
        (tx.work.onto committed).balance = part ∨ (tx.work.onto committed).balance ≤ 0) ∧
      (part ≤ (tx.work.onto snapshot).balance → part ≤ (tx.work.onto committed).balance →
        (tx.work.onto committed).balance = part)
  | .debitBalance amount =>
      invocation.reconciles = true →
        if amount ≤ (tx.work.onto snapshot).balance then
          amount ≤ (tx.work.onto committed).balance ∨ (tx.work.onto committed).balance ≤ 0
        else (tx.work.onto snapshot).balance ≤ 0
  | .insertLedger row =>
      invocation.reconciles = true → row.amount = invocation.amount →
        (∀ holder ∈ (tx.work.onto committed).existing row.idempotencyKey,
          holder.type = .debit ∧ holder.amount = row.amount ∧ fitsBigint row.amount = true) ∧
        (fitsBigint row.amount = false → (tx.work.onto committed).balance ≤ 0)
  | _ => True

instance {β : Type} (invocation : Call) (snapshot committed : Account) (tx : Tx) (stmt : Sql β) :
    Decidable (invocation.Undisturbed snapshot committed tx stmt) :=
  match stmt with
  | .creditSettlingDebt amount =>
      inferInstanceAs (Decidable
        (min amount (tx.work.onto snapshot).debt = min amount (tx.work.onto committed).debt))
  | .debitAccruingDebt part delta =>
      inferInstanceAs (Decidable ((fitsBigint delta = false →
          (tx.work.onto committed).balance = part ∨ (tx.work.onto committed).balance ≤ 0) ∧
        (part ≤ (tx.work.onto snapshot).balance → part ≤ (tx.work.onto committed).balance →
          (tx.work.onto committed).balance = part)))
  | .debitBalance amount =>
      inferInstanceAs (Decidable (invocation.reconciles = true →
        if amount ≤ (tx.work.onto snapshot).balance then
          amount ≤ (tx.work.onto committed).balance ∨ (tx.work.onto committed).balance ≤ 0
        else (tx.work.onto snapshot).balance ≤ 0))
  | .insertLedger row =>
      inferInstanceAs (Decidable (invocation.reconciles = true → row.amount = invocation.amount →
        (∀ holder ∈ (tx.work.onto committed).existing row.idempotencyKey,
          holder.type = .debit ∧ holder.amount = row.amount ∧ fitsBigint row.amount = true) ∧
        (fitsBigint row.amount = false → (tx.work.onto committed).balance ≤ 0)))
  | .ensureWallet | .selectLedger _ | .selectWallet | .savepoint | .releaseSavepoint
  | .rollbackToSavepoint | .clampDebit _ | .creditBalance _ | .insertAudit _ => .isTrue trivial

end Call

/-- What a transaction without the wallet row can rely on from now on. -/
structure Relies (key : String) (mark : Option LedgerTransaction) (tx : Tx) (account : Account) :
    Prop where
  present : account.wallet.isSome
  taken : ∀ holder, mark = some holder → account.existing key = some holder
  fresh : ∀ row ∈ tx.work.rows, account.existing row.idempotencyKey = none

def reportConsume (program : Program Sql (Except WalletError ConsumeResult)) :
    Program Sql Outcome := do
  return .ofConsume (← program)

def reportGrant (program : Program Sql (Except WalletError GrantResult)) :
    Program Sql Outcome := do
  return .ofGrant (← program)

@[simp] theorem reportConsume_done (result : Except WalletError ConsumeResult) :
    reportConsume (.done result) = .done (.ofConsume result) := rfl

@[simp] theorem reportConsume_issue {β : Type} (stmt : Sql β)
    (next : β → Program Sql (Except WalletError ConsumeResult)) :
    reportConsume (.issue stmt next) = .issue stmt fun answer => reportConsume (next answer) := rfl

@[simp] theorem reportGrant_done (result : Except WalletError GrantResult) :
    reportGrant (.done result) = .done (.ofGrant result) := rfl

@[simp] theorem reportGrant_issue {β : Type} (stmt : Sql β)
    (next : β → Program Sql (Except WalletError GrantResult)) :
    reportGrant (.issue stmt next) = .issue stmt fun answer => reportGrant (next answer) := rfl

/-- A transaction with one open savepoint and no work. -/
def Tx.opened : Tx := ⟨{}, [{}]⟩

/-- A transaction which has inserted one row since its savepoint. -/
def Tx.pending (row : LedgerTransaction) : Tx := ⟨{ rows := [row] }, [{}]⟩

/-- The row is the debit which the request asks for. -/
def ConsumeRequest.Matches (request : ConsumeRequest) (holder : LedgerTransaction) : Prop :=
  holder.type = .debit ∧ holder.amount = request.amount ∧ fitsBigint request.amount = true

/-- The account on which the agent path goes for the full debit, or replays an equal one. -/
def CalmFull (context : Context) (request : ConsumeRequest) (account : Account) : Prop :=
  agentReconcileApplies context request.metadata = true →
    (account.existing request.idempotencyKey = none →
      request.amount ≤ account.balance ∨ account.balance ≤ 0) ∧
    ∀ holder, account.existing request.idempotencyKey = some holder → request.Matches holder

/-- The account on which the agent path goes for a partial debit of `balance`. -/
def CalmPart (request : ConsumeRequest) (balance : Int) (account : Account) : Prop :=
  account.existing request.idempotencyKey = none →
    account.balance = balance ∨
      account.balance ≤ 0 ∧ fitsBigint (request.amount - balance) = false

/-- The balance a partial debit was planned for. -/
structure ConsumeRequest.Part (request : ConsumeRequest) (balance : Int) : Prop where
  positive : 0 < balance
  short : balance < request.amount
  fits : fitsBigint balance = true

/-- The request passes the argument checks of `consume`. -/
structure Admitted (context : Context) (request : ConsumeRequest) : Prop where
  positive : 0 < request.amount
  checked : consume context request = consumeChecked context request

structure AgentMode (context : Context) (request : ConsumeRequest) : Prop where
  plain : request.metadata.incremental = false
  reconciles : agentReconcileApplies context request.metadata = true

/-- Where a debit stands between two statements before it holds the wallet row: its snapshot, the
rest of its program, its work, the row found under its key, and the accounts on which it is in
step. -/
inductive Debiting (context : Context) (request : ConsumeRequest) :
    Option Account → Program Sql (Except WalletError ConsumeResult) → Tx →
      Option LedgerTransaction → (Account → Prop) → Prop
  | clampLook {snapshot : Option Account} (incremental : request.metadata.incremental = true) :
      Debiting context request snapshot
        (.issue (.selectLedger request.idempotencyKey) (clampFound request)) {} none
        fun _ => True
  | clamp {snapshot : Option Account} (fits : fitsBigint request.amount = true) :
      Debiting context request snapshot
        (.issue (.clampDebit (request.row request.amount)) (clampAnswered request)) {} none
        fun _ => True
  | fullOpen {snapshot : Option Account} (plain : request.metadata.incremental = false) :
      Debiting context request snapshot
        (.issue .savepoint fun _ =>
          .issue (.insertLedger (request.row request.amount)) (fullInserted request)) {} none
        (CalmFull context request)
  | fullInsert {snapshot : Option Account} (plain : request.metadata.incremental = false) :
      Debiting context request snapshot
        (.issue (.insertLedger (request.row request.amount)) (fullInserted request))
        .opened none (CalmFull context request)
  | fullDebit {snapshot : Option Account} (plain : request.metadata.incremental = false)
      (enough : ∀ view, snapshot = some view → request.amount ≤ view.balance ∨
        agentReconcileApplies context request.metadata = true ∧ 0 < view.balance) :
      Debiting context request snapshot
        (.issue (.debitBalance request.amount) (fullUpdated request request.newId))
        (.pending (request.row request.amount)) none (CalmFull context request)
  | fullRelease {snapshot : Option Account} {holder : LedgerTransaction}
      (same : agentReconcileApplies context request.metadata = true → request.Matches holder) :
      Debiting context request snapshot
        (.issue .releaseSavepoint fun _ =>
          .issue (.selectLedger request.idempotencyKey) (fullFound request))
        .opened (some holder) fun _ => True
  | fullLook {snapshot : Option Account} {holder : LedgerTransaction} :
      Debiting context request snapshot
        (.issue (.selectLedger request.idempotencyKey) (fullFound request)) {} (some holder)
        fun _ => True
  | agentLook {snapshot : Option Account} (agent : AgentMode context request) :
      Debiting context request snapshot
        (.issue (.selectLedger request.idempotencyKey) (agentFound request)) {} none
        fun _ => True
  | agentBalance {snapshot : Option Account} (agent : AgentMode context request) :
      Debiting context request snapshot
        (.issue .selectWallet fun wallet =>
          agentRead request ((wallet.map (·.balance)).getD 0)) {} none fun _ => False
  | partOpen {snapshot : Option Account} {balance : Int} (agent : AgentMode context request)
      (part : request.Part balance) :
      Debiting context request snapshot (partDebit request balance) {} none
        (CalmPart request balance)
  | partInsert {snapshot : Option Account} {balance : Int} (agent : AgentMode context request)
      (part : request.Part balance) :
      Debiting context request snapshot
        (.issue (.insertLedger (request.row balance)) (partInserted request balance))
        .opened none (CalmPart request balance)
  | partUpdate {snapshot : Option Account} {balance : Int} (agent : AgentMode context request)
      (part : request.Part balance) :
      Debiting context request snapshot
        (.issue (.debitAccruingDebt balance (request.amount - balance))
          (partUpdated request balance request.newId))
        (.pending (request.row balance)) none (CalmPart request balance)
  | partReturn {snapshot : Option Account} {balance : Int} (agent : AgentMode context request) :
      Debiting context request snapshot
        (.issue .rollbackToSavepoint fun _ => consumeInFull request)
        (.pending (request.row balance)) none fun _ => False
  | partLook {snapshot : Option Account} {holder : LedgerTransaction} :
      Debiting context request snapshot
        (.issue (.selectLedger request.idempotencyKey) partFound) .opened (some holder)
        fun _ => True

/-- Where a grant stands between two statements before it holds the wallet row. -/
inductive Granting (context : Context) (request : GrantRequest) :
    Option Account → Program Sql (Except WalletError GrantResult) → Tx →
      Option LedgerTransaction → Prop
  | insert {snapshot : Option Account} :
      Granting context request snapshot
        (.issue (.insertLedger request.row) (grantInserted context request)) {} none
  | look {snapshot : Option Account} {holder : LedgerTransaction} :
      Granting context request snapshot
        (.issue (.selectLedger request.idempotencyKey) (grantFound request)) {} (some holder)
  | credit {snapshot : Option Account}
      (present : ∀ view, snapshot = some view → view.wallet.isSome) :
      Granting context request snapshot (grantCredit context request request.newId)
        ⟨{ rows := [request.row] }, []⟩ none

/-- Where a running transaction stands while how it ends is still open. -/
inductive Standing (invocation : Call) (committed : Account) :
    Option Account → Program Sql Outcome → Tx → Prop
  | start {snapshot : Option Account} :
      Standing invocation committed snapshot invocation.program {}
  /-- Only the balance of a replay is still to be read. -/
  | reading {snapshot : Option Account} {tx : Tx} {next : Option WalletRow → Program Sql Outcome}
      {holder : LedgerTransaction} (answer : Int → Outcome)
      (relies : Relies invocation.key (some holder) tx committed)
      (clean : tx.work = {})
      (closes : ∀ wallet : Option WalletRow,
        Idle none (next wallet) tx (answer ((wallet.map (·.balance)).getD 0)))
      (replays : ∀ account, Relies invocation.key (some holder) tx account →
        invocation.run account = (answer account.balance, account)) :
      Standing invocation committed snapshot (.issue .selectWallet next) tx
  | debiting {snapshot : Option Account} {context : Context} {request : ConsumeRequest}
      {ending : Ending} {program : Program Sql (Except WalletError ConsumeResult)} {tx : Tx}
      {mark : Option LedgerTransaction} {calm : Account → Prop}
      (called : invocation = ⟨context, .consume request, ending⟩)
      (admitted : Admitted context request)
      (position : Debiting context request snapshot program tx mark calm)
      (relies : Relies request.idempotencyKey mark tx committed)
      (follows : ∀ account, Relies request.idempotencyKey mark tx account → calm account →
        invocation.InStep (reportConsume program) tx account) :
      Standing invocation committed snapshot (reportConsume program) tx
  | granting {snapshot : Option Account} {context : Context} {request : GrantRequest}
      {ending : Ending} {program : Program Sql (Except WalletError GrantResult)} {tx : Tx}
      {mark : Option LedgerTransaction}
      (called : invocation = ⟨context, .grant request, ending⟩)
      (positive : 0 < request.amount)
      (position : Granting context request snapshot program tx mark)
      (relies : Relies request.idempotencyKey mark tx committed)
      (follows : ∀ account, Relies request.idempotencyKey mark tx account →
        invocation.InStep (reportGrant program) tx account) :
      Standing invocation committed snapshot (reportGrant program) tx
  | holding {snapshot : Option Account} {program : Program Sql Outcome} {tx : Tx}
      (holds : Holds program tx) (inStep : invocation.InStep program tx committed) :
      Standing invocation committed snapshot program tx

/-- The transaction still stands somewhere, or is idle and has answered like the call alone. -/
def Settles (invocation : Call) (committed : Account) (program : Program Sql Outcome) (tx : Tx) :
    Prop :=
  Standing invocation committed none program tx ∨
    ∃ outcome, Idle none program tx outcome ∧ invocation.run committed = (outcome, committed)

variable {β : Type} {invocation : Call} {committed : Account} {tx after : Tx}
  {context : Context} {request : ConsumeRequest} {ending : Ending}

theorem run_admitted (admitted : Admitted context request) {account : Account}
    (present : account.wallet.isSome) :
    Call.run ⟨context, .consume request, ending⟩ account =
      Call.conclude ⟨context, .consume request, ending⟩ account
        ((reportConsume (consumeBody context request)).run (Sql.exec account account) {}) := by
  obtain ⟨wallet, found⟩ := Option.isSome_iff_exists.mp present
  have ensured : Sql.exec account account _ .ensureWallet {} = .ok ((), {}) := by
    simp [Sql.exec, Work.onto, found]
  have program_eq : Call.program ⟨context, .consume request, ending⟩ =
      .issue .ensureWallet fun _ => reportConsume (consumeBody context request) := by
    simp only [Call.program, Operation.program, admitted.checked, consumeChecked_eq]
    rfl
  rw [Call.run, program_eq, Program.run_issue_ok ensured]

theorem run_selectWallet {γ : Type} {account : Account}
    (rest : Option WalletRow → Program Sql γ) :
    (Program.issue .selectWallet rest).run (Sql.exec account account) tx =
      (rest (tx.view account).wallet).run (Sql.exec account account) tx := rfl

theorem Call.conclude_over (outcome : Outcome) (unchanged : tx.view committed = committed) :
    invocation.conclude committed (.ok (outcome, tx)) = (outcome, committed) := by
  rw [Tx.view] at unchanged
  cases ending : invocation.ending <;> simp [Call.conclude, ending, unchanged]

/-- Finishing with the incremental statement is in step whether or not the key is taken. -/
theorem follows_clamp (admitted : Admitted context request)
    (incremental : request.metadata.incremental = true)
    (fits : fitsBigint request.amount = true) (account : Account)
    (present : account.wallet.isSome) :
    Call.InStep ⟨context, .consume request, ending⟩
      (reportConsume (.issue (.clampDebit (request.row request.amount)) (clampAnswered request)))
      {} account := by
  obtain ⟨wallet, found⟩ := Option.isSome_iff_exists.mp present
  rw [Call.InStep, run_admitted admitted present]
  simp only [consumeBody, incremental, if_true, consumeIncrementalClamp_eq, reportConsume_issue]
  rw [run_selectLedger, view_empty]
  cases taken : account.existing request.idempotencyKey with
  | none => rfl
  | some holder =>
      have clamped : Sql.exec account account _ (.clampDebit (request.row request.amount)) {} =
          .ok (⟨none, none, some wallet.balance⟩, Tx.putWallet {} wallet) := by
        simp [Sql.exec, Work.empty_onto, found, ConsumeRequest.row, fits, taken]
      have unchanged : (Tx.putWallet {} wallet).view account = account := by
        rw [view_putWallet, view_empty, ← found]
      rw [Program.run_issue_ok clamped]
      simp only [clampAnswered, clampFound, reportConsume_issue, reportConsume_done]
      rw [run_selectLedger, unchanged, taken, run_selectWallet, view_empty, found]
      simp only [Program.run_done]
      rw [Call.conclude_over _ unchanged, Call.conclude_over _ (view_empty account)]
      rfl

/-- The full debit is in step where the agent path would choose it or replay an equal row. -/
theorem follows_full (admitted : Admitted context request)
    (plain : request.metadata.incremental = false) (account : Account)
    (present : account.wallet.isSome) (calm : CalmFull context request account) :
    Call.InStep ⟨context, .consume request, ending⟩ (reportConsume (consumeInFull request)) {}
      account := by
  obtain ⟨wallet, found⟩ := Option.isSome_iff_exists.mp present
  have balance_eq : account.balance = wallet.balance := by simp [Account.balance, found]
  rw [Call.InStep, run_admitted admitted present]
  simp only [consumeBody, plain, Bool.false_eq_true, if_false]
  by_cases reconciles : agentReconcileApplies context request.metadata = true
  · obtain ⟨calm_fresh, calm_taken⟩ := calm reconciles
    simp only [reconciles, if_true, agentBody_eq, reportConsume_issue]
    rw [run_selectLedger, view_empty]
    cases taken : account.existing request.idempotencyKey with
    | none =>
        simp only [agentFound, reportConsume_issue]
        rw [run_selectWallet, view_empty, found]
        simp only [Option.map_some, Option.getD_some, agentRead, ← balance_eq]
        rcases calm_fresh taken with enough | empty
        · rw [if_pos enough]
        · by_cases enough : request.amount ≤ account.balance
          · rw [if_pos enough]
          · rw [if_neg enough, if_pos empty]
    | some holder =>
        obtain ⟨debit, amount_eq, fits⟩ := calm_taken holder taken
        have inserted : Sql.exec account account _
            (.insertLedger (request.row request.amount)) Tx.opened = .ok (none, Tx.opened) := by
          simp [Sql.exec, Tx.opened, Work.empty_onto, ConsumeRequest.row, fits, taken]
        have opened_view : Tx.opened.view account = account := Work.empty_onto account
        simp only [consumeInFull_eq, reportConsume_issue]
        rw [run_savepoint]
        change Call.conclude _ account ((Program.issue _ _).run _ Tx.opened) = _
        rw [Program.run_issue_ok inserted]
        simp only [fullInserted, fullFound, agentFound, reportConsume_issue]
        rw [run_releaseSavepoint, run_selectLedger]
        change Call.conclude _ account ((reportConsume (fullFound request
          (Tx.view {} account |>.existing _))).run _ {}) = _
        rw [view_empty, taken]
        simp [fullFound, debit, amount_eq]
  · simp only [reconciles, Bool.false_eq_true, if_false]

theorem fitsBigint_of_le {small large : Int} (nonneg : 0 ≤ small) (le : small ≤ large)
    (fits : fitsBigint large = true) : fitsBigint small = true := by
  simp only [fitsBigint, decide_eq_true_eq] at fits ⊢
  omega

theorem exec_selectLedger (view account : Account) (key : String) (clean : tx.work = {}) :
    Sql.exec view account _ (.selectLedger key) tx = .ok (account.existing key, tx) := by
  simp [Sql.exec, clean, Work.empty_onto]

theorem exec_select_taken {view account : Account} {key : String} {holder : LedgerTransaction}
    (clean : tx.work = {}) (taken : account.existing key = some holder) :
    Sql.exec view account _ (.selectLedger key) tx = .ok (some holder, tx) := by
  rw [exec_selectLedger view account key clean, taken]

theorem exec_insert_taken {view account : Account} {row holder : LedgerTransaction}
    (clean : tx.work = {}) (fits : fitsBigint row.amount = true)
    (taken : account.existing row.idempotencyKey = some holder) :
    Sql.exec view account _ (.insertLedger row) tx = .ok (none, tx) := by
  simp [Sql.exec, clean, Work.empty_onto, fits, taken]

theorem exec_insert_fresh {view account : Account} {row : LedgerTransaction}
    (clean : tx.work = {}) (fits : fitsBigint row.amount = true) (positive : 0 < row.amount)
    (fresh : account.existing row.idempotencyKey = none) :
    Sql.exec view account _ (.insertLedger row) tx = .ok (some row.id, tx.addRow row) := by
  simp [Sql.exec, clean, Work.empty_onto, fits, fresh, Int.not_le.mpr positive]

/-- The partial debit is in step where the balance is still the one it was planned for, or where
both ways fail on an amount beyond the column type. -/
theorem follows_part {balance : Int} (admitted : Admitted context request)
    (agent : AgentMode context request) (part : request.Part balance) (account : Account)
    (present : account.wallet.isSome) (calm : CalmPart request balance account) :
    Call.InStep ⟨context, .consume request, ending⟩ (reportConsume (partDebit request balance))
      {} account := by
  obtain ⟨wallet, found⟩ := Option.isSome_iff_exists.mp present
  have balance_eq : account.balance = wallet.balance := by simp [Account.balance, found]
  have not_enough : ¬request.amount ≤ balance := Int.not_le.mpr part.short
  have opened_view : Tx.opened.view account = account := Work.empty_onto account
  rw [Call.InStep, run_admitted admitted present]
  simp only [consumeBody, agent.plain, Bool.false_eq_true, if_false, agent.reconciles, if_true,
    agentBody_eq, reportConsume_issue]
  rw [run_selectLedger, view_empty]
  cases taken : account.existing request.idempotencyKey with
  | none =>
      simp only [agentFound, reportConsume_issue]
      rw [run_selectWallet, view_empty, found]
      simp only [Option.map_some, Option.getD_some, agentRead, ← balance_eq]
      rcases calm taken with same | ⟨empty, overflows⟩
      · rw [same, if_neg not_enough, if_neg (Int.not_le.mpr part.positive)]
      · have beyond : fitsBigint request.amount = false := by
          by_contra fits
          rw [Bool.not_eq_false] at fits
          have fits_delta : fitsBigint (request.amount - balance) = true :=
            fitsBigint_of_le (by linarith [part.short]) (by linarith [part.positive]) fits
          rw [overflows] at fits_delta
          cases fits_delta
        have refused : Sql.exec account account _
            (.insertLedger (request.row request.amount)) Tx.opened = .error .outOfRange := by
          simp [Sql.exec, ConsumeRequest.row, beyond]
        have inserted : Sql.exec account account _ (.insertLedger (request.row balance))
            Tx.opened = .ok (some request.newId, Tx.opened.addRow (request.row balance)) :=
          exec_insert_fresh rfl part.fits part.positive taken
        have overflow : Sql.exec account account _
            (.debitAccruingDebt balance (request.amount - balance))
            (Tx.opened.addRow (request.row balance)) = .error .outOfRange := by
          simp [Sql.exec, overflows]
        have full : (if request.amount ≤ account.balance then consumeInFull request
            else if account.balance ≤ 0 then consumeInFull request
            else partDebit request account.balance) = consumeInFull request := by
          rw [if_pos empty, ite_self]
        rw [full, consumeInFull_eq]
        simp only [partDebit, reportConsume_issue]
        rw [run_savepoint, run_savepoint]
        change Call.conclude _ account ((Program.issue _ _).run _ Tx.opened) =
          Call.conclude _ account ((Program.issue _ _).run _ Tx.opened)
        rw [Program.run_issue_ok inserted, Program.run_issue_error refused]
        simp only [partInserted, reportConsume_issue]
        rw [Program.run_issue_error overflow]
  | some holder =>
      have inserted : Sql.exec account account _ (.insertLedger (request.row balance))
          Tx.opened = .ok (none, Tx.opened) := exec_insert_taken rfl part.fits taken
      simp only [partDebit, reportConsume_issue]
      rw [run_savepoint]
      change Call.conclude _ account ((Program.issue _ _).run _ Tx.opened) = _
      rw [Program.run_issue_ok inserted]
      simp only [partInserted, agentFound, reportConsume_issue]
      rw [run_selectLedger, opened_view, taken]
      simp only [partFound, reportConsume_issue]
      rw [run_selectWallet, opened_view, run_releaseSavepoint, run_selectWallet, view_empty]
      rfl

end Hermes.Wallet
