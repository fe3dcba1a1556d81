import Hermes.Wallet.Conservation
import Hermes.Wallet.Isolation

/-!
# Repeating a wallet operation

A key which holds a ledger row answers every later request without moving anything: the plain debit
and the grant compare the row with the payload, the agent and the incremental debit do not.  Keys
never lose their rows, so whatever happens between an operation and its repetition, the repetition
meets the row the operation wrote.
-/

namespace Hermes.Wallet

/-- Balance, debt and ledger are as they were. -/
structure Account.Unmoved (before after : Account) : Prop where
  balance : after.balance = before.balance
  debt : after.debt = before.debt
  ledger : after.ledger = before.ledger

namespace Account.Unmoved

variable {before after : Account}

theorem refl (account : Account) : account.Unmoved account := ⟨rfl, rfl, rfl⟩

theorem provisioned (account : Account) : account.Unmoved account.provisioned where
  balance := account.balance_provisioned
  debt := account.debt_provisioned
  ledger := rfl

end Account.Unmoved

/-- How an operation treats a key which is taken. -/
inductive Mode
  | incremental
  | agentDebt
  | plain
  deriving DecidableEq, Repr

/-- The path `consume` takes for a request. -/
def ConsumeRequest.mode (request : ConsumeRequest) (context : Context) : Mode :=
  if request.metadata.incremental then .incremental
  else if agentReconcileApplies context request.metadata then .agentDebt
  else .plain

section Mode

variable {context : Context} {request : ConsumeRequest}

theorem mode_eq_incremental :
    request.mode context = .incremental ↔ request.metadata.incremental = true := by
  cases incremental : request.metadata.incremental <;>
    cases reconciles : agentReconcileApplies context request.metadata <;>
      simp [ConsumeRequest.mode, incremental, reconciles]

theorem mode_eq_agentDebt :
    request.mode context = .agentDebt ↔ request.metadata.incremental = false ∧
      agentReconcileApplies context request.metadata = true := by
  cases incremental : request.metadata.incremental <;>
    cases reconciles : agentReconcileApplies context request.metadata <;>
      simp [ConsumeRequest.mode, incremental, reconciles]

theorem mode_eq_plain :
    request.mode context = .plain ↔ request.metadata.incremental = false ∧
      agentReconcileApplies context request.metadata = false := by
  cases incremental : request.metadata.incremental <;>
    cases reconciles : agentReconcileApplies context request.metadata <;>
      simp [ConsumeRequest.mode, incremental, reconciles]

end Mode

/-- What the session check of `consume` raises. -/
def ConsumeRequest.sessionRefusal (request : ConsumeRequest) (context : Context) :
    Option WalletError :=
  match request.sessionId with
  | none => none
  | some sessionId =>
      match validateSession context sessionId with
      | .error raised => some raised
      | .ok () => none

/-- What the argument checks of `consume` raise, before the wallet is looked at. -/
def ConsumeRequest.refusal (request : ConsumeRequest) (context : Context) : Option WalletError :=
  if request.amount ≤ 0 then some (.conflict "amount must be positive")
  else request.sessionRefusal context

/-- What `consume` answers when its key holds a row. -/
def ConsumeRequest.answerTaken (request : ConsumeRequest) (context : Context)
    (holder : LedgerTransaction) (balance : Int) : Except WalletError ConsumeResult :=
  if request.mode context = .plain ∧ ¬(holder.type = .debit ∧ holder.amount = request.amount) then
    .error (.conflict "idempotency key reused with different payload")
  else .ok ⟨balance, holder.id, true, 0⟩

/-- What `grant` answers when its key holds a row. -/
def GrantRequest.answerTaken (request : GrantRequest) (holder : LedgerTransaction)
    (balance : Int) : Except WalletError GrantResult :=
  if holder.type = .credit ∧ holder.amount = request.amount then .ok ⟨balance, holder.id, true⟩
  else .error (.conflict "idempotency key reused with different payload")

section Taken

variable {context : Context} {request : ConsumeRequest} {account : Account} {tx : Tx}
  {holder : LedgerTransaction}

theorem exec_insertLedger_taken {added : LedgerTransaction}
    (fits : fitsBigint added.amount = true)
    (taken : (tx.view account).existing added.idempotencyKey = some holder) :
    Sql.exec account account _ (.insertLedger added) tx = .ok (none, tx) := by
  rw [Tx.view] at taken
  simp [Sql.exec, fits, taken]

theorem consumeInFull_taken (plain : request.mode context = .plain)
    (fits : fitsBigint request.amount = true)
    (taken : (tx.view account).existing request.idempotencyKey = some holder) :
    (consumeInFull request).run (Sql.exec account account) tx =
      .ok (request.answerTaken context holder (tx.view account).balance, tx) := by
  have inserted : Sql.exec account account _ (.insertLedger (request.row request.amount))
      { tx with saved := tx.work :: tx.saved } =
        .ok (none, { tx with saved := tx.work :: tx.saved }) :=
    exec_insertLedger_taken fits taken
  simp only [consumeInFull, debitInSavepoint, Program.call_bind, Program.issue_bind]
  rw [run_savepoint, Program.run_issue_ok inserted]
  simp only [Program.issue_bind, Program.pure_eq, Program.done_bind]
  rw [run_releaseSavepoint, run_selectLedger]
  simp only [view_saved, taken]
  by_cases equal : holder.type = .debit ∧ holder.amount = request.amount
  · obtain ⟨debit, same⟩ := equal
    simp only [debit, same, ne_eq, not_true_eq_false, or_self, if_false]
    rw [run_currentBalance]
    simp [ConsumeRequest.answerTaken, debit, same]
  · have differs : holder.type ≠ .debit ∨ holder.amount ≠ request.amount := by
      rwa [not_and_or] at equal
    simp [ConsumeRequest.answerTaken, plain, equal, differs]

theorem consume_refused {raised : WalletError} (refused : request.refusal context = some raised) :
    consume context request = return .error raised := by
  unfold ConsumeRequest.refusal ConsumeRequest.sessionRefusal at refused
  unfold consume
  split at refused
  · cases refused
    simp [*]
  · split at refused
    · cases refused
    · split at refused
      · cases refused
        simp [*]
      · cases refused

theorem consume_admitted (admitted : request.refusal context = none) :
    0 < request.amount ∧ consume context request = consumeChecked context request := by
  unfold ConsumeRequest.refusal ConsumeRequest.sessionRefusal at admitted
  unfold consume
  split at admitted
  · cases admitted
  · refine ⟨by omega, ?_⟩
    split at admitted
    · simp [*]
    · split at admitted
      · cases admitted
      · simp [*]

theorem consume_taken (admitted : request.refusal context = none)
    (fits : request.mode context = .plain → fitsBigint request.amount = true)
    (taken : account.existing request.idempotencyKey = some holder) :
    ∃ tx : Tx, tx.view account = account.provisioned ∧
      (consume context request).run (Sql.exec account account) {} =
        .ok (request.answerTaken context holder account.balance, tx) := by
  obtain ⟨-, checked⟩ := consume_admitted admitted
  obtain ⟨tx, ensured, seen⟩ := exec_ensureWallet account
  have held : (tx.view account).existing request.idempotencyKey = some holder := by
    rw [seen]
    exact taken
  have balance_eq : (tx.view account).balance = account.balance := by
    rw [seen, Account.balance_provisioned]
  refine ⟨tx, seen, ?_⟩
  rw [checked, consumeChecked, Program.call_bind, Program.run_issue_ok ensured, ← balance_eq]
  cases mode : request.mode context with
  | incremental =>
      simp only [mode_eq_incremental.mp mode, if_true, consumeIncrementalClamp, Program.call_bind]
      rw [run_selectLedger]
      simp only [held]
      rw [run_currentBalance]
      simp [ConsumeRequest.answerTaken, mode]
  | agentDebt =>
      obtain ⟨plain, reconciles⟩ := mode_eq_agentDebt.mp mode
      simp only [plain, reconciles, Bool.false_eq_true, if_false, if_true, consumeAgentWithDebt,
        Program.call_bind, Program.issue_bind]
      rw [run_selectLedger]
      simp only [held]
      have answered : request.answerTaken context holder (tx.view account).balance =
          .ok ⟨(tx.view account).balance, holder.id, true, 0⟩ := by
        simp [ConsumeRequest.answerTaken, mode]
      exact congrArg (fun answer => Except.ok (answer, tx)) answered.symm
  | plain =>
      obtain ⟨plain, legacy⟩ := mode_eq_plain.mp mode
      simp only [plain, legacy, Bool.false_eq_true, if_false]
      exact consumeInFull_taken mode (fits mode) held

theorem grant_taken (context : Context) {request : GrantRequest} (positive : 0 < request.amount)
    (fits : fitsBigint request.amount = true)
    (taken : account.existing request.idempotencyKey = some holder) :
    ∃ tx : Tx, tx.view account = account.provisioned ∧
      (grant context request).run (Sql.exec account account) {} =
        .ok (request.answerTaken holder account.balance, tx) := by
  obtain ⟨tx, ensured, seen⟩ := exec_ensureWallet account
  have held : (tx.view account).existing request.idempotencyKey = some holder := by
    rw [seen]
    exact taken
  have balance_eq : (tx.view account).balance = account.balance := by
    rw [seen, Account.balance_provisioned]
  have inserted : Sql.exec account account _ (.insertLedger request.row) tx = .ok (none, tx) :=
    exec_insertLedger_taken fits held
  refine ⟨tx, seen, ?_⟩
  rw [grant, if_neg (Int.not_le.mpr positive), Program.call_bind, Program.run_issue_ok ensured,
    Program.call_bind, Program.run_issue_ok inserted, ← balance_eq]
  simp only [Program.call_bind]
  rw [run_selectLedger]
  simp only [held]
  by_cases equal : holder.type = .credit ∧ holder.amount = request.amount
  · obtain ⟨credit, same⟩ := equal
    simp only [credit, same, ne_eq, not_true_eq_false, or_self, if_false]
    rw [run_currentBalance]
    simp [GrantRequest.answerTaken, credit, same]
  · have differs : holder.type ≠ .credit ∨ holder.amount ≠ request.amount := by
      rwa [not_and_or] at equal
    simp [GrantRequest.answerTaken, equal, differs]

end Taken

theorem consume_fits {context : Context} {request : ConsumeRequest} {account : Account}
    {tx : Tx} {result : Except WalletError ConsumeResult}
    (plain : request.mode context = .plain)
    (ran : (consumeChecked context request).run (Sql.exec account account) {} =
      .ok (result, tx)) : fitsBigint request.amount = true := by
  obtain ⟨plain, legacy⟩ := mode_eq_plain.mp plain
  by_contra unfit
  obtain ⟨opened, ensured, -⟩ := exec_ensureWallet account
  rw [consumeChecked, Program.call_bind, Program.run_issue_ok ensured] at ran
  simp only [plain, legacy, Bool.false_eq_true, if_false, consumeInFull, debitInSavepoint,
    Program.call_bind, Program.issue_bind] at ran
  rw [run_savepoint] at ran
  obtain ⟨answer, between, inserted, -⟩ := Program.run_issue_eq_ok ran
  simp [Sql.exec, ConsumeRequest.row, unfit] at inserted

theorem grant_fits {context : Context} {request : GrantRequest} {account : Account} {tx : Tx}
    {result : Except WalletError GrantResult} (positive : 0 < request.amount)
    (ran : (grant context request).run (Sql.exec account account) {} = .ok (result, tx)) :
    fitsBigint request.amount = true := by
  by_contra unfit
  obtain ⟨opened, ensured, -⟩ := exec_ensureWallet account
  rw [grant, if_neg (Int.not_le.mpr positive), Program.call_bind,
    Program.run_issue_ok ensured] at ran
  obtain ⟨answer, between, inserted, -⟩ := Program.run_issue_eq_ok ran
  simp [Sql.exec, GrantRequest.row, unfit] at inserted

/-- What the caller's ending keeps of the work of a call. -/
def Ending.keep (ending : Ending) (before after : Account) : Account :=
  match ending with
  | .commit => after
  | .rollback => before

section Calls

variable {context : Context} {ending : Ending} {account : Account} {holder : LedgerTransaction}

/-- A call of `consume` fails on a statement, is refused by its checks, or answers with a single
`Debit`. -/
theorem Call.consume_cases (context : Context) (request : ConsumeRequest) (ending : Ending)
    (account : Account) :
    let ran := Call.run ⟨context, .consume request, ending⟩ account
    (∃ failure, ran = (.failed failure, account)) ∨
    (∃ raised, request.refusal context = some raised ∧ ran = (.raised raised, account)) ∨
    ∃ result after, request.refusal context = none ∧
      (request.mode context = .plain → fitsBigint request.amount = true) ∧
      Debit context request account.provisioned result after ∧
      ran = (.ofConsume result, ending.keep account after) := by
  intro ran
  cases executed : (Operation.program context (.consume request)).run (Sql.exec account account)
      {} with
  | error failure =>
      refine .inl ⟨failure, ?_⟩
      simp [ran, Call.run, Call.program, Call.conclude, executed]
  | ok step =>
      obtain ⟨outcome, tx⟩ := step
      obtain ⟨result, between, consume_ran, answered⟩ := Program.run_bind_eq_ok executed
      cases answered
      have ran_eq : ran = (.ofConsume result, ending.keep account (tx.view account)) := by
        cases ending <;>
          simp [ran, Call.run, Call.program, Call.conclude, executed, Ending.keep, Tx.view]
      cases refused : request.refusal context with
      | some raised =>
          rw [consume_refused refused] at consume_ran
          cases consume_ran
          refine .inr (.inl ⟨raised, rfl, ?_⟩)
          rw [ran_eq, view_empty]
          cases ending <;> rfl
      | none =>
          obtain ⟨positive, checked⟩ := consume_admitted refused
          rw [checked] at consume_ran
          exact .inr (.inr ⟨result, _, rfl, fun plain => consume_fits plain consume_ran,
            consumeChecked_ok positive consume_ran, ran_eq⟩)

/-- A call of `grant` fails on a statement, is refused for its amount, or answers with a single
`Credit`. -/
theorem Call.grant_cases (context : Context) (request : GrantRequest) (ending : Ending)
    (account : Account) :
    let ran := Call.run ⟨context, .grant request, ending⟩ account
    (∃ failure, ran = (.failed failure, account)) ∨
    (request.amount ≤ 0 ∧ ran = (.raised (.conflict "amount must be positive"), account)) ∨
    ∃ result after, 0 < request.amount ∧ fitsBigint request.amount = true ∧
      Credit context request account.provisioned result after ∧
      ran = (.ofGrant result, ending.keep account after) := by
  intro ran
  cases executed : (Operation.program context (.grant request)).run (Sql.exec account account)
      {} with
  | error failure =>
      refine .inl ⟨failure, ?_⟩
      simp [ran, Call.run, Call.program, Call.conclude, executed]
  | ok step =>
      obtain ⟨outcome, tx⟩ := step
      obtain ⟨result, between, grant_ran, answered⟩ := Program.run_bind_eq_ok executed
      cases answered
      have ran_eq : ran = (.ofGrant result, ending.keep account (tx.view account)) := by
        cases ending <;>
          simp [ran, Call.run, Call.program, Call.conclude, executed, Ending.keep, Tx.view]
      by_cases positive : 0 < request.amount
      · exact .inr (.inr ⟨result, _, positive, grant_fits positive grant_ran,
          grant_positive_ok positive grant_ran, ran_eq⟩)
      · rw [grant, if_pos (Int.not_lt.mp positive)] at grant_ran
        cases grant_ran
        refine .inr (.inl ⟨Int.not_lt.mp positive, ?_⟩)
        rw [ran_eq, view_empty]
        cases ending <;> rfl

/-- A call of `consume` past its checks answers a taken key without moving anything. -/
theorem Call.run_consume_taken (ending : Ending) {request : ConsumeRequest}
    (admitted : request.refusal context = none)
    (fits : request.mode context = .plain → fitsBigint request.amount = true)
    (taken : account.existing request.idempotencyKey = some holder) :
    Call.run ⟨context, .consume request, ending⟩ account =
      (.ofConsume (request.answerTaken context holder account.balance),
        ending.keep account account.provisioned) := by
  obtain ⟨tx, seen, ran⟩ := consume_taken admitted fits taken
  have executed : (Operation.program context (.consume request)).run (Sql.exec account account)
      {} = .ok (.ofConsume (request.answerTaken context holder account.balance), tx) := by
    rw [Operation.program, Program.run_bind, ran]
    exact congrArg Except.ok (by simp)
  rw [Call.run, Call.program, executed, ← seen]
  cases ending <;> simp [Call.conclude, Ending.keep, Tx.view]

theorem Call.run_grant_taken (context : Context) (ending : Ending) {request : GrantRequest}
    (positive : 0 < request.amount)
    (fits : fitsBigint request.amount = true)
    (taken : account.existing request.idempotencyKey = some holder) :
    Call.run ⟨context, .grant request, ending⟩ account =
      (.ofGrant (request.answerTaken holder account.balance),
        ending.keep account account.provisioned) := by
  obtain ⟨tx, seen, ran⟩ := grant_taken context positive fits taken
  have executed : (Operation.program context (.grant request)).run (Sql.exec account account)
      {} = .ok (.ofGrant (request.answerTaken holder account.balance), tx) := by
    rw [Operation.program, Program.run_bind, ran]
    exact congrArg Except.ok (by simp)
  rw [Call.run, Call.program, executed, ← seen]
  cases ending <;> simp [Call.conclude, Ending.keep, Tx.view]

theorem Ending.unmoved_keep (ending : Ending) (account : Account) :
    account.Unmoved (ending.keep account account.provisioned) := by
  cases ending with
  | commit => exact Account.Unmoved.provisioned account
  | rollback => exact Account.Unmoved.refl account

end Calls

def Operation.key : Operation → String
  | .consume request => request.idempotencyKey
  | .grant request => request.idempotencyKey

theorem Call.ledger_cases (invocation : Call) (account : Account) :
    (invocation.run account).2.ledger = account.ledger ∨
      ∃ row, (invocation.run account).2.ledger = account.ledger ++ [row] ∧
        row.idempotencyKey = invocation.operation.key := by
  obtain ⟨context, operation, ending⟩ := invocation
  cases operation with
  | consume request =>
      obtain same | ⟨result, debit⟩ := Call.run_consume context request ending account
      · exact .inl (congrArg Account.ledger same)
      · exact debit.ledger_cases
  | grant request =>
      obtain same | ⟨-, result, credit⟩ := Call.run_grant context request ending account
      · exact .inl (congrArg Account.ledger same)
      · exact credit.ledger_cases

/-- The same operation, asking the database for another row id. -/
def Operation.withId (id : TxId) : Operation → Operation
  | .consume request => .consume { request with newId := id }
  | .grant request => .grant { request with newId := id }

/-- The operation compares the row its key holds with its payload, and the two differ. -/
def Operation.Mismatches (context : Context) (holder : LedgerTransaction) : Operation → Prop
  | .consume request =>
      request.mode context = .plain ∧ ¬(holder.type = .debit ∧ holder.amount = request.amount)
  | .grant request => ¬(holder.type = .credit ∧ holder.amount = request.amount)

/-- The argument checks pass, and an amount which is inserted first fits its column. -/
def Operation.admitted (context : Context) : Operation → Bool
  | .consume request =>
      (request.refusal context).isNone &&
        (request.mode context != .plain || fitsBigint request.amount)
  | .grant request => decide (0 < request.amount) && fitsBigint request.amount

/-- What the session check of an operation raises. -/
def Operation.sessionRefusal (context : Context) : Operation → Option WalletError
  | .consume request => request.sessionRefusal context
  | .grant _ => none

def Outcome.ledgerTxId : Outcome → Option TxId
  | .consumed result => some result.ledgerTxId
  | .granted result => some result.ledgerTxId
  | .raised _ | .failed _ => none

/-- The answer names a row which was there before, and reports that nothing was charged. -/
def Outcome.Replays (row : LedgerTransaction) : Outcome → Prop
  | .consumed result =>
      result.ledgerTxId = row.id ∧ result.idempotentReplay = true ∧ result.chargedAmount = 0
  | .granted result => result.ledgerTxId = row.id ∧ result.idempotentReplay = true
  | .raised _ | .failed _ => False

def Call.Writes (invocation : Call) (account : Account) (row : LedgerTransaction) : Prop :=
  (invocation.run account).2.ledger = account.ledger ++ [row]

/-- A later call repeats an earlier one: the same user, flag and arguments.  The chat sessions of
the moment and the id the database would generate are not arguments. -/
structure Call.Repeats (again first : Call) : Prop where
  userId : again.context.userId = first.context.userId
  flag : again.context.agentDebtReconcileEnabled = first.context.agentDebtReconcileEnabled
  operation : ∃ id, again.operation = first.operation.withId id

section Keys

variable {account : Account} {key : String} {holder : LedgerTransaction}

theorem existing_written {after : Account} {row : LedgerTransaction}
    (fresh : account.existing row.idempotencyKey = none)
    (written : after.ledger = account.ledger ++ [row]) :
    after.existing row.idempotencyKey = some row := by
  rw [Account.existing] at fresh ⊢
  rw [written, List.find?_append, fresh]
  simp

theorem Call.existing_run (invocation : Call) (taken : account.existing key = some holder) :
    (invocation.run account).2.existing key = some holder := by
  cases executed : invocation.program.run (Sql.exec account account) {} with
  | error failure => simpa [Call.run, Call.conclude, executed] using taken
  | ok step =>
      have kept := (Account.grows_onto step.2.work account).existing key holder taken
      cases ending : invocation.ending with
      | commit => simpa [Call.run, Call.conclude, executed, ending] using kept
      | rollback => simpa [Call.run, Call.conclude, executed, ending] using taken

theorem existing_foldl {user : UserId} (history : List Call) (accounts : Accounts)
    (taken : (accounts user).existing key = some holder) :
    (history.foldl Accounts.step accounts user).existing key = some holder := by
  induction history generalizing accounts with
  | nil => exact taken
  | cons invocation later induction =>
      apply induction
      by_cases mine : invocation.context.userId = user
      · subst mine
        simpa [Accounts.step] using invocation.existing_run taken
      · rwa [Accounts.step, Function.update_of_ne (Ne.symm mine)]

end Keys

/-- A row which a call of one operation wrote, and what the operation answered with it. -/
structure Call.Wrote (invocation : Call) (account : Account) (row : LedgerTransaction) : Prop where
  admitted : invocation.operation.admitted invocation.context = true
  key : row.idempotencyKey = invocation.operation.key
  fresh : account.existing row.idempotencyKey = none
  matching : ¬invocation.operation.Mismatches invocation.context row
  named : (invocation.run account).1.ledgerTxId = some row.id

section Written

variable {context : Context} {ending : Ending} {account : Account} {row : LedgerTransaction}

theorem Call.wrote_of_consume {request : ConsumeRequest}
    (writes : Call.Writes ⟨context, .consume request, ending⟩ account row) :
    Call.Wrote ⟨context, .consume request, ending⟩ account row := by
  unfold Call.Writes at writes
  have fits_of (fits : request.mode context = .plain → fitsBigint request.amount = true)
      (admitted : request.refusal context = none) :
      Operation.admitted context (.consume request) = true := by
    by_cases plain : request.mode context = .plain <;>
      simp [Operation.admitted, admitted, plain, fits]
  obtain ⟨failure, ran⟩ | ⟨raised, refused, ran⟩ | ⟨result, after, admitted, fits, debit, ran⟩ :=
    Call.consume_cases context request ending account
  · simp [ran] at writes
  · simp [ran] at writes
  · rw [ran] at writes
    cases ending with
    | rollback => simp [Ending.keep] at writes
    | commit =>
        change after.ledger = _ at writes
        cases debit with
        | insufficient | mismatched | replayed | drained => simp at writes
        | charged charged event fresh positive covered solvent due no_debt =>
            rw [Account.ledger_record, Account.ledger_provisioned] at writes
            obtain rfl : request.row charged = row := by simpa using writes
            refine ⟨fits_of fits admitted, rfl, fresh, ?_, ?_⟩
            · by_cases plain : request.mode context = .plain
              · have whole : charged = request.amount := by
                  rcases due with whole | ⟨incremental, -⟩
                  · exact whole
                  · rw [(mode_eq_plain.mp plain).1] at incremental
                    cases incremental
                simp [Operation.Mismatches, ConsumeRequest.row, whole]
              · simp [Operation.Mismatches, plain]
            · rw [ran]
              rfl
        | accrued plain reconciles fresh positive short =>
            rw [Account.ledger_record, Account.ledger_provisioned] at writes
            obtain rfl : request.row account.provisioned.balance = row := by simpa using writes
            refine ⟨fits_of fits admitted, rfl, fresh, ?_, ?_⟩
            · have agent : request.mode context = .agentDebt :=
                mode_eq_agentDebt.mpr ⟨plain, reconciles⟩
              simp [Operation.Mismatches, agent]
            · rw [ran]
              rfl

theorem Call.wrote_of_grant {request : GrantRequest}
    (writes : Call.Writes ⟨context, .grant request, ending⟩ account row) :
    Call.Wrote ⟨context, .grant request, ending⟩ account row := by
  unfold Call.Writes at writes
  obtain ⟨failure, ran⟩ | ⟨refused, ran⟩ | ⟨result, after, positive, fits, credit, ran⟩ :=
    Call.grant_cases context request ending account
  · simp [ran] at writes
  · simp [ran] at writes
  · rw [ran] at writes
    cases ending with
    | rollback => simp [Ending.keep] at writes
    | commit =>
        change after.ledger = _ at writes
        cases credit with
        | mismatched | replayed => simp at writes
        | credited repaid events fresh =>
            rw [Account.ledger_record, Account.ledger_provisioned] at writes
            obtain rfl : request.row = row := by simpa using writes
            refine ⟨?_, rfl, fresh, ?_, ?_⟩
            · simp [Operation.admitted, positive, fits]
            · simp [Operation.Mismatches, GrantRequest.row]
            · rw [ran]
              rfl

theorem Call.Writes.wrote {invocation : Call} (writes : invocation.Writes account row) :
    invocation.Wrote account row := by
  obtain ⟨context, operation, ending⟩ := invocation
  cases operation with
  | consume request => exact Call.wrote_of_consume writes
  | grant request => exact Call.wrote_of_grant writes

end Written

section Answers

variable {context : Context} {ending : Ending} {account : Account} {holder : LedgerTransaction}

theorem ConsumeRequest.answerTaken_mismatched {request : ConsumeRequest} {balance : Int}
    (differs : Operation.Mismatches context holder (.consume request)) :
    request.answerTaken context holder balance =
      .error (.conflict "idempotency key reused with different payload") :=
  if_pos differs

theorem ConsumeRequest.answerTaken_matching {request : ConsumeRequest} {balance : Int}
    (equal : ¬Operation.Mismatches context holder (.consume request)) :
    request.answerTaken context holder balance = .ok ⟨balance, holder.id, true, 0⟩ :=
  if_neg equal

theorem GrantRequest.answerTaken_mismatched {request : GrantRequest} {balance : Int}
    (differs : Operation.Mismatches context holder (.grant request)) :
    request.answerTaken holder balance =
      .error (.conflict "idempotency key reused with different payload") :=
  if_neg differs

theorem GrantRequest.answerTaken_matching {request : GrantRequest} {balance : Int}
    (equal : ¬Operation.Mismatches context holder (.grant request)) :
    request.answerTaken holder balance = .ok ⟨balance, holder.id, true⟩ :=
  if_pos (not_not.mp equal)

/-- A call past its checks answers the row its key holds, unless it compares the row with its
payload and they differ. -/
theorem Call.run_taken (invocation : Call)
    (admitted : invocation.operation.admitted invocation.context = true)
    (taken : account.existing invocation.operation.key = some holder) :
    account.Unmoved (invocation.run account).2 ∧
      (invocation.operation.Mismatches invocation.context holder →
        (invocation.run account).1 =
          .raised (.conflict "idempotency key reused with different payload")) ∧
      (¬invocation.operation.Mismatches invocation.context holder →
        (invocation.run account).1.Replays holder) := by
  obtain ⟨context, operation, ending⟩ := invocation
  cases operation with
  | consume request =>
      simp only [Operation.admitted, Bool.and_eq_true, Bool.or_eq_true, Option.isNone_iff_eq_none,
        bne_iff_ne] at admitted
      obtain ⟨admitted, fits⟩ := admitted
      have ran := Call.run_consume_taken ending admitted
        (fun plain => fits.resolve_left (absurd plain)) taken
      rw [ran]
      refine ⟨ending.unmoved_keep account, fun differs => ?_, fun equal => ?_⟩
      · exact congrArg Outcome.ofConsume (ConsumeRequest.answerTaken_mismatched differs)
      · rw [ConsumeRequest.answerTaken_matching equal]
        exact ⟨rfl, rfl, rfl⟩
  | grant request =>
      simp only [Operation.admitted, Bool.and_eq_true, decide_eq_true_eq] at admitted
      obtain ⟨positive, fits⟩ := admitted
      have ran := Call.run_grant_taken context ending positive fits taken
      rw [ran]
      refine ⟨ending.unmoved_keep account, fun differs => ?_, fun equal => ?_⟩
      · exact congrArg Outcome.ofGrant (GrantRequest.answerTaken_mismatched differs)
      · rw [GrantRequest.answerTaken_matching equal]
        exact ⟨rfl, rfl⟩

theorem Call.run_refused (ending : Ending) (account : Account) {request : ConsumeRequest}
    {raised : WalletError}
    (refused : request.refusal context = some raised) :
    Call.run ⟨context, .consume request, ending⟩ account = (.raised raised, account) := by
  have executed : (Operation.program context (.consume request)).run (Sql.exec account account)
      {} = .ok (.raised raised, {}) := by
    rw [Operation.program, consume_refused refused]
    exact congrArg Except.ok rfl
  have unchanged := view_empty account
  rw [Tx.view] at unchanged
  rw [Call.run, Call.program, executed]
  cases ending <;> simp [Call.conclude, unchanged]

theorem ConsumeRequest.mode_congr {first again : Context} {request : ConsumeRequest}
    (flag : again.agentDebtReconcileEnabled = first.agentDebtReconcileEnabled) :
    request.mode again = request.mode first := by
  simp [ConsumeRequest.mode, agentReconcileApplies, flag]

theorem Call.Repeats.run_again {first again : Call} {before later : Account}
    {row : LedgerTransaction} (repeats : again.Repeats first) (wrote : first.Wrote before row)
    (taken : later.existing row.idempotencyKey = some row) :
    later.Unmoved (again.run later).2 ∧
      (∀ raised, again.operation.sessionRefusal again.context = some raised →
        (again.run later).1 = .raised raised) ∧
      (again.operation.sessionRefusal again.context = none →
        (again.run later).1.Replays row) := by
  obtain ⟨first_context, first_operation, first_ending⟩ := first
  obtain ⟨context, operation, ending⟩ := again
  obtain ⟨-, flag, id, same⟩ := repeats
  obtain ⟨admitted, key, -, matching, -⟩ := wrote
  simp only at flag same admitted key matching
  subst same
  rw [key] at taken
  cases first_operation with
  | grant request =>
      have still : Operation.admitted context (.grant { request with newId := id }) = true :=
        admitted
      obtain ⟨unmoved, -, replays⟩ :=
        Call.run_taken ⟨context, .grant { request with newId := id }, ending⟩ still taken
      refine ⟨unmoved, ?_, fun _ => replays matching⟩
      rintro raised ⟨⟩
  | consume request =>
      simp only [Operation.admitted, Bool.and_eq_true, Bool.or_eq_true, Option.isNone_iff_eq_none,
        bne_iff_ne] at admitted
      obtain ⟨admitted, fits⟩ := admitted
      have positive := (consume_admitted admitted).1
      have refusal_eq : ConsumeRequest.refusal { request with newId := id } context =
          ConsumeRequest.sessionRefusal { request with newId := id } context :=
        if_neg (Int.not_le.mpr positive)
      have mode_eq : ConsumeRequest.mode { request with newId := id } context =
          request.mode first_context := request.mode_congr flag
      cases checked : ConsumeRequest.sessionRefusal { request with newId := id } context with
      | some raised =>
          have ran := Call.run_refused ending later (refusal_eq.trans checked)
          rw [Operation.withId, ran]
          refine ⟨Account.Unmoved.refl later, ?_, ?_⟩
          · intro other refused
            rw [Operation.sessionRefusal, checked] at refused
            cases refused
            rfl
          · intro passed
            rw [Operation.sessionRefusal, checked] at passed
            cases passed
      | none =>
          have still : Operation.admitted context (.consume { request with newId := id }) =
              true := by
            simpa [Operation.admitted, refusal_eq, checked, mode_eq] using fits
          have equal :
              ¬Operation.Mismatches context row (.consume { request with newId := id }) := by
            rw [Operation.Mismatches, mode_eq]
            exact matching
          obtain ⟨unmoved, -, replays⟩ :=
            Call.run_taken ⟨context, .consume { request with newId := id }, ending⟩ still taken
          refine ⟨unmoved, ?_, fun _ => replays equal⟩
          intro raised refused
          rw [Operation.withId, Operation.sessionRefusal, checked] at refused
          cases refused

theorem Call.unmoved_of_raised {invocation : Call} {raised : WalletError}
    (refused : (invocation.run account).1 = .raised raised) :
    account.Unmoved (invocation.run account).2 := by
  obtain ⟨context, operation, ending⟩ := invocation
  cases operation with
  | consume request =>
      obtain ⟨failure, ran⟩ | ⟨error, -, ran⟩ | ⟨result, after, -, -, debit, ran⟩ :=
        Call.consume_cases context request ending account
      · rw [ran]
        exact Account.Unmoved.refl account
      · rw [ran]
        exact Account.Unmoved.refl account
      · rw [ran] at refused ⊢
        cases debit with
        | insufficient | mismatched => exact ending.unmoved_keep account
        | replayed | drained | charged | accrued => cases refused
  | grant request =>
      obtain ⟨failure, ran⟩ | ⟨-, ran⟩ | ⟨result, after, -, -, credit, ran⟩ :=
        Call.grant_cases context request ending account
      · rw [ran]
        exact Account.Unmoved.refl account
      · rw [ran]
        exact Account.Unmoved.refl account
      · rw [ran] at refused ⊢
        cases credit with
        | mismatched => exact ending.unmoved_keep account
        | replayed | credited => cases refused

/-- A fresh success of `consume` charges what it takes off the balance.  It records exactly that
in one ledger row, or finds the balance empty and takes nothing. -/
theorem Call.charged_of_consumed {invocation : Call} {result : ConsumeResult}
    (committed : invocation.ending = .commit)
    (consumed : (invocation.run account).1 = .consumed result)
    (fresh : result.idempotentReplay = false) :
    let after := (invocation.run account).2
    account.balance - after.balance = result.chargedAmount ∧
      ((∃ row, invocation.Writes account row ∧ row.type = .debit ∧
          row.id = result.ledgerTxId ∧ row.amount = result.chargedAmount) ∨
        account.balance ≤ 0 ∧ result.ledgerTxId = nilTxId ∧ result.chargedAmount = 0 ∧
          account.Unmoved after) := by
  obtain ⟨context, operation, ending⟩ := invocation
  obtain rfl : ending = .commit := committed
  intro after
  cases operation with
  | grant request =>
      obtain ⟨failure, ran⟩ | ⟨-, ran⟩ | ⟨answer, final, -, -, -, ran⟩ :=
        Call.grant_cases context request .commit account
      · rw [ran] at consumed
        cases consumed
      · rw [ran] at consumed
        cases consumed
      · rw [ran] at consumed
        cases answer <;> cases consumed
  | consume request =>
      obtain ⟨failure, ran⟩ | ⟨error, -, ran⟩ | ⟨answer, final, -, -, debit, ran⟩ :=
        Call.consume_cases context request .commit account
      · rw [ran] at consumed
        cases consumed
      · rw [ran] at consumed
        cases consumed
      · have after_eq : after = final := congrArg Prod.snd ran
        have writes_eq (row : LedgerTransaction) :
            Call.Writes ⟨context, .consume request, .commit⟩ account row ↔
              final.ledger = account.ledger ++ [row] := by
          rw [Call.Writes, ran]
          rfl
        rw [after_eq]
        rw [ran] at consumed
        cases debit with
        | insufficient | mismatched => cases consumed
        | replayed =>
            cases consumed
            cases fresh
        | drained incremental vacant empty =>
            cases consumed
            rw [Account.balance_provisioned] at empty ⊢
            exact ⟨Int.sub_self _, .inr ⟨empty, rfl, rfl, Account.Unmoved.provisioned account⟩⟩
        | charged charged event vacant positive covered =>
            cases consumed
            refine ⟨?_, .inl ⟨request.row charged, (writes_eq _).mpr rfl, rfl, rfl, rfl⟩⟩
            simp
        | accrued plain reconciles vacant positive short =>
            cases consumed
            refine ⟨?_, .inl ⟨_, (writes_eq _).mpr rfl, rfl, rfl, rfl⟩⟩
            simp

end Answers

/-- Idempotency and atomic failure, whatever the accounts hold.
* Once a call has written its ledger row, a later call of the same user with the same arguments
  under the same flag moves nothing, after any other calls; it names the row the first one named
  and charges nothing, unless the session it names is meanwhile gone or another user's, which it
  then raises.
* A call which raises `InsufficientCreditsError` moves nothing.
* A call past its argument checks whose key is taken moves nothing: a plain debit or a grant raises
  `ConflictError` on a row of another type or amount, every other call names that row and charges
  nothing.
* A fresh success of a debit charges exactly what it takes off the balance and records that amount
  in its ledger row; an incremental debit which finds nothing to take writes no row. -/
theorem wallet_idempotency (accounts : Accounts) (invocation : Call) :
    let before := accounts invocation.context.userId
    let outcome := (invocation.run before).1
    let after := (invocation.run before).2
    (∀ row, invocation.Writes before row →
      outcome.ledgerTxId = some row.id ∧
      ∀ (between : List Call) (again : Call), again.Repeats invocation →
        let later :=
          between.foldl Accounts.step (accounts.step invocation) invocation.context.userId
        later.Unmoved (again.run later).2 ∧
          (∀ raised, again.operation.sessionRefusal again.context = some raised →
            (again.run later).1 = .raised raised) ∧
          (again.operation.sessionRefusal again.context = none →
            (again.run later).1.Replays row)) ∧
    (outcome = .raised .insufficientCredits → before.Unmoved after) ∧
    (∀ holder, before.existing invocation.operation.key = some holder →
      invocation.operation.admitted invocation.context = true →
        before.Unmoved after ∧
          (invocation.operation.Mismatches invocation.context holder →
            outcome = .raised (.conflict "idempotency key reused with different payload")) ∧
          (¬invocation.operation.Mismatches invocation.context holder →
            outcome.Replays holder)) ∧
    ∀ result, invocation.ending = .commit → outcome = .consumed result →
      result.idempotentReplay = false →
        before.balance - after.balance = result.chargedAmount ∧
          ((∃ row, invocation.Writes before row ∧ row.type = .debit ∧
              row.id = result.ledgerTxId ∧ row.amount = result.chargedAmount) ∨
            before.balance ≤ 0 ∧ result.ledgerTxId = nilTxId ∧ result.chargedAmount = 0 ∧
              before.Unmoved after) := by
  intro before outcome after
  refine ⟨?_, Call.unmoved_of_raised,
    fun holder taken admitted => Call.run_taken invocation admitted taken,
    fun result committed consumed fresh =>
      Call.charged_of_consumed committed consumed fresh⟩
  intro row writes
  have wrote := Call.Writes.wrote writes
  refine ⟨wrote.named, ?_⟩
  intro between again repeats later
  have held : (accounts.step invocation invocation.context.userId).existing
      row.idempotencyKey = some row := by
    rw [Accounts.step, Function.update_self]
    exact existing_written wrote.fresh writes
  exact repeats.run_again wrote (existing_foldl between (accounts.step invocation) held)

namespace Repetition

/-- The owner of the session, while it exists. -/
def context (sessionExists : Bool) : Context :=
  ⟨⟨1⟩, fun _ => if sessionExists then some ⟨1⟩ else none, true⟩

def topUp : Call := ⟨context true, .grant ⟨10, "topup", {}, "purchase", ⟨1⟩⟩, .commit⟩

def spend (newId : TxId) (sessionExists : Bool) : Call :=
  ⟨context sessionExists, .consume ⟨4, "spend", {}, some ⟨7⟩, newId⟩, .commit⟩

def stepDebit : Call :=
  ⟨context true, .consume ⟨4, "step", { incremental := true }, none, ⟨3⟩⟩, .commit⟩

def spent : LedgerTransaction := ⟨⟨2⟩, .debit, 4, {}, "spend"⟩

theorem spend_writes : (spend ⟨2⟩ true).Writes (Accounts.after [topUp] ⟨1⟩) spent := rfl

theorem spend_repeats (sessionExists : Bool) (newId : TxId) :
    (spend newId sessionExists).Repeats (spend ⟨2⟩ true) :=
  ⟨rfl, rfl, newId, rfl⟩

end Repetition

open Repetition in
/-- A repetition whose session was deleted meanwhile does not name the row again, and a debit of an
empty balance succeeds without one. -/
theorem wallet_idempotency_fails :
    ¬(∀ (history between : List Call) (first again : Call) (row : LedgerTransaction),
        first.Writes (Accounts.after history first.context.userId) row → again.Repeats first →
          (again.run (Accounts.after (history ++ [first] ++ between)
            first.context.userId)).1.Replays row) ∧
      ¬(∀ (history : List Call) (invocation : Call) (result : ConsumeResult),
        let before := Accounts.after history invocation.context.userId
        (invocation.run before).1 = .consumed result → result.idempotentReplay = false →
          invocation.ending = .commit →
            ∃ row, invocation.Writes before row ∧ row.amount = result.chargedAmount) := by
  constructor
  · intro claimed
    exact claimed [topUp] [] (spend ⟨2⟩ true) (spend ⟨5⟩ false) spent spend_writes
      (spend_repeats false ⟨5⟩)
  · intro claimed
    obtain ⟨row, written, -⟩ := claimed [] stepDebit ⟨0, nilTxId, false, 0⟩ rfl rfl rfl
    cases written

open Repetition in
/-- A second debit under the same key names the row of the first and takes nothing. -/
theorem spend_repeated :
    let later := Accounts.after [topUp, spend ⟨2⟩ true, topUp] ⟨1⟩
    later.balance = 6 ∧ later.Unmoved ((spend ⟨5⟩ true).run later).2 ∧
      ((spend ⟨5⟩ true).run later).1.Replays spent := by
  obtain ⟨unmoved, -, replays⟩ :=
    ((wallet_idempotency (Accounts.after [topUp]) (spend ⟨2⟩ true)).1 spent
      spend_writes).2 [topUp] (spend ⟨5⟩ true) (spend_repeats true ⟨5⟩)
  exact ⟨rfl, unmoved, replays rfl⟩

end Hermes.Wallet
