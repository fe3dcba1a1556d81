import Hermes.Wallet.Effect

/-!
# When a credit is granted

A grant which runs alone is granted under conditions on its request and on the account it finds,
and only under these.  What it leaves is then a function of the two.
-/

namespace Hermes.Wallet

def WalletRow.repaid (row : WalletRow) (reconciles : Bool) (amount : Int) : Int :=
  if reconciles then min amount row.debt else 0

def WalletRow.credited (row : WalletRow) (reconciles : Bool) (amount : Int) : WalletRow :=
  ⟨row.balance + (amount - row.repaid reconciles amount), row.debt - row.repaid reconciles amount⟩

def GrantRequest.events (request : GrantRequest) (context : Context) (row : WalletRow) :
    List AuditEvent :=
  let credited := row.credited context.agentDebtReconcileEnabled request.amount
  let repaid := row.repaid context.agentDebtReconcileEnabled request.amount
  .billingCredit request.newId request.amount credited.balance request.reason ::
    if 0 < repaid then
      [.billingDebtRepaid context.userId repaid credited.debt request.newId]
    else []

def Account.granted (account : Account) (context : Context) (request : GrantRequest) : Account :=
  if (account.existing request.idempotencyKey).isSome then account.provisioned
  else
    account.record (account.row.credited context.agentDebtReconcileEnabled request.amount)
      request.row (request.events context account.row)

/-- The amount is positive, the key is free or holds the same credit, and the wallet has room. -/
structure CreditAdmitted (context : Context) (request : GrantRequest) (account : Account) :
    Prop where
  positive : 0 < request.amount
  fits : fitsBigint request.amount = true
  replays : ∀ holder, account.existing request.idempotencyKey = some holder →
    holder.type = .credit ∧ holder.amount = request.amount
  stored : account.existing request.idempotencyKey = none →
    (account.row.credited context.agentDebtReconcileEnabled request.amount).Stored

section Grants

variable {context : Context} {request : GrantRequest} {account after : Account} {tx done : Tx}
  {wallet : WalletRow} {result : GrantResult}

theorem run_creditWallet {amount : Int} (present : (tx.view account).wallet = some wallet)
    (stored : (wallet.credited context.agentDebtReconcileEnabled amount).Stored) :
    ∃ remaining, (0 < wallet.repaid context.agentDebtReconcileEnabled amount →
        remaining = (wallet.credited context.agentDebtReconcileEnabled amount).debt) ∧
      (creditWallet context amount).run (Sql.exec account account) tx =
        .ok (((wallet.credited context.agentDebtReconcileEnabled amount).balance, remaining,
            wallet.repaid context.agentDebtReconcileEnabled amount),
          tx.putWallet (wallet.credited context.agentDebtReconcileEnabled amount)) := by
  have written := storeWallet_of_stored stored
  simp only [Tx.view] at present
  cases reconciles : context.agentDebtReconcileEnabled with
  | true =>
      refine ⟨(wallet.credited true amount).debt, fun _ => rfl, ?_⟩
      rw [reconciles] at written
      simp only [WalletRow.credited, WalletRow.repaid, if_true] at written
      have ran : Sql.exec account account _ (.creditSettlingDebt amount) tx =
          .ok (some ⟨(wallet.credited true amount).balance, (wallet.credited true amount).debt,
            wallet.repaid true amount⟩, tx.putWallet (wallet.credited true amount)) := by
        simp only [Sql.exec, present, written]
        rfl
      rw [creditWallet, if_pos reconciles, Program.call_bind, Program.run_issue_ok ran]
      rfl
  | false =>
      refine ⟨0, fun repays => absurd repays (Int.lt_irrefl 0), ?_⟩
      rw [reconciles] at written
      simp only [WalletRow.credited, WalletRow.repaid, Bool.false_eq_true, if_false, Int.sub_zero]
        at written
      have ran : Sql.exec account account _ (.creditBalance amount) tx =
          .ok (some (wallet.balance + amount),
            tx.putWallet ⟨wallet.balance + amount, wallet.debt⟩) := by
        simp only [Sql.exec, present, written]
        rfl
      rw [creditWallet, if_neg (by simp [reconciles]), Program.call_bind, Program.run_issue_ok ran]
      simp [WalletRow.credited, WalletRow.repaid]

theorem stored_of_creditWallet {amount : Int} {answer : Int × Int × Int}
    (present : (tx.view account).wallet = some wallet)
    (ran : (creditWallet context amount).run (Sql.exec account account) tx = .ok (answer, done)) :
    (wallet.credited context.agentDebtReconcileEnabled amount).Stored := by
  simp only [Tx.view] at present
  cases reconciles : context.agentDebtReconcileEnabled with
  | true =>
      rw [creditWallet, if_pos reconciles, Program.call_bind] at ran
      obtain ⟨updated, settled, update_ran, -⟩ := Program.run_issue_eq_ok ran
      simp only [Sql.exec, present] at update_ran
      obtain ⟨row, written, -⟩ := except_bind_eq_ok update_ran
      simpa [WalletRow.credited, WalletRow.repaid] using (storeWallet_ok written).2
  | false =>
      rw [creditWallet, if_neg (by simp [reconciles]), Program.call_bind] at ran
      obtain ⟨updated, settled, update_ran, -⟩ := Program.run_issue_eq_ok ran
      simp only [Sql.exec, present] at update_ran
      obtain ⟨row, written, -⟩ := except_bind_eq_ok update_ran
      simpa [WalletRow.credited, WalletRow.repaid] using (storeWallet_ok written).2

theorem fits_of_insertLedger {added : LedgerTransaction} {answer : Option TxId}
    (ran : Sql.exec account account _ (.insertLedger added) tx = .ok (answer, done)) :
    fitsBigint added.amount = true := by
  simp only [Sql.exec] at ran
  split at ran
  · cases ran
  next fits => simpa using fits

theorem exec_insertLedger {added : LedgerTransaction} (fits : fitsBigint added.amount = true)
    (positive : 0 < added.amount) :
    Sql.exec account account _ (.insertLedger added) tx =
      match (tx.view account).existing added.idempotencyKey with
      | some _ => .ok (none, tx)
      | none => .ok (some added.id, tx.addRow added) := by
  simp only [Sql.exec, fits, Bool.not_true, Bool.false_eq_true, if_false]
  cases found : (tx.view account).existing added.idempotencyKey with
  | some holder =>
      simp only [Tx.view] at found
      rw [found, Option.isSome_some, if_pos rfl]
  | none =>
      simp only [Tx.view] at found
      rw [found, Option.isSome_none, if_neg (by simp), if_neg (Int.not_le.mpr positive)]

theorem run_grant_of_admitted (admitted : CreditAdmitted context request account) :
    ∃ result tx, (grant context request).run (Sql.exec account account) {} = .ok (.ok result, tx) ∧
      tx.view account = account.granted context request := by
  obtain ⟨ensured, ensure_ran, seen⟩ := exec_ensureWallet account
  have present : (ensured.view account).wallet = some account.row := by
    rw [seen]
    rfl
  have inserts := @exec_insertLedger account ensured request.row
    admitted.fits admitted.positive
  have looked : (ensured.view account).existing request.row.idempotencyKey =
      account.existing request.idempotencyKey := by
    rw [seen]
    rfl
  rw [looked] at inserts
  rw [grant, if_neg (Int.not_le.mpr admitted.positive), Program.call_bind,
    Program.run_issue_ok ensure_ran, Program.call_bind]
  cases found : account.existing request.idempotencyKey with
  | some holder =>
      rw [found] at inserts looked
      obtain ⟨type, amount⟩ := admitted.replays holder found
      rw [Program.run_issue_ok inserts, Program.call_bind, run_selectLedger]
      simp only [show (ensured.view account).existing request.idempotencyKey = some holder from
        looked, type, amount, ne_eq, not_true_eq_false, or_self, if_false]
      refine ⟨_, ensured, rfl, ?_⟩
      rw [seen, Account.granted, found, Option.isSome_some, if_pos rfl]
  | none =>
      rw [found] at inserts
      have present' : ((ensured.addRow request.row).view account).wallet = some account.row := by
        rw [view_addRow]
        exact present
      obtain ⟨remaining, remains, credit_ran⟩ :=
        run_creditWallet present' (admitted.stored found)
      rw [Program.run_issue_ok inserts]
      simp only [Program.run_bind_ok credit_ran, Program.call_bind, run_insertAudit,
        Account.granted, found, Option.isSome_none, Bool.false_eq_true, if_false,
        GrantRequest.events]
      rcases Decidable.em
        (0 < account.row.repaid context.agentDebtReconcileEnabled request.amount) with
        repays | plain
      · simp only [repays, if_true]
        refine ⟨_, _, rfl, ?_⟩
        rw [remains repays]
        simp [seen, Account.record, GrantRequest.row]
      · simp only [plain, if_false]
        refine ⟨_, _, rfl, ?_⟩
        simp [seen, Account.record, GrantRequest.row]

theorem admitted_of_run_grant
    (ran : (grant context request).run (Sql.exec account account) {} = .ok (.ok result, done)) :
    CreditAdmitted context request account := by
  have positive : 0 < request.amount := by
    by_contra nonpositive
    rw [grant, if_pos (Int.not_lt.mp nonpositive)] at ran
    cases ran
  obtain ⟨ensured, ensure_ran, seen⟩ := exec_ensureWallet account
  have present : (ensured.view account).wallet = some account.row := by
    rw [seen]
    rfl
  have looked : (ensured.view account).existing request.row.idempotencyKey =
      account.existing request.idempotencyKey := by
    rw [seen]
    rfl
  rw [grant, if_neg (Int.not_le.mpr positive), Program.call_bind, Program.run_issue_ok ensure_ran,
    Program.call_bind] at ran
  have fits : fitsBigint request.amount = true := by
    obtain ⟨inserted, filled, insert_ran, -⟩ := Program.run_issue_eq_ok ran
    exact fits_of_insertLedger insert_ran
  have inserts := @exec_insertLedger account ensured request.row
    fits positive
  rw [looked] at inserts
  cases found : account.existing request.idempotencyKey with
  | some holder =>
      rw [found] at inserts looked
      rw [Program.run_issue_ok inserts, Program.call_bind, run_selectLedger] at ran
      simp only [show (ensured.view account).existing request.idempotencyKey = some holder from
        looked] at ran
      split at ran
      · cases ran
      next same =>
        simp only [not_or, ne_eq, not_not] at same
        refine ⟨positive, fits, ?_, fun free => absurd (found.symm.trans free) (by simp)⟩
        intro other taken
        cases found.symm.trans taken
        exact same
  | none =>
      rw [found] at inserts
      rw [Program.run_issue_ok inserts] at ran
      obtain ⟨answer, credited, credit_ran, -⟩ := Program.run_bind_eq_ok ran
      have present' : ((ensured.addRow request.row).view account).wallet = some account.row := by
        rw [view_addRow]
        exact present
      refine ⟨positive, fits, fun holder taken => absurd (found.symm.trans taken) (by simp), ?_⟩
      exact fun _ => stored_of_creditWallet present' credit_ran

/-- A grant alone is granted where it is admitted, and nowhere else. -/
theorem Call.run_grant_iff (context : Context) (request : GrantRequest) (account : Account) :
    (CreditAdmitted context request account →
      ∃ result, Call.run ⟨context, .grant request, .commit⟩ account =
        (.granted result, account.granted context request)) ∧
    (∀ result after, Call.run ⟨context, .grant request, .commit⟩ account =
      (.granted result, after) → CreditAdmitted context request account) := by
  constructor
  · intro admitted
    obtain ⟨result, tx, ran, left⟩ := run_grant_of_admitted admitted
    refine ⟨result, ?_⟩
    simp only [Call.run, Call.program, Operation.program, Program.run_bind_ok ran]
    exact Prod.ext rfl left
  · intro result after granted
    simp only [Call.run, Call.program, Operation.program] at granted
    cases ran : (grant context request).run (Sql.exec account account) {} with
    | error failure =>
        rw [Program.run_bind, ran] at granted
        cases granted
    | ok step =>
        obtain ⟨answer, tx⟩ := step
        rw [Program.run_bind_ok ran] at granted
        cases answer with
        | error raised => cases granted
        | ok answer => exact admitted_of_run_grant ran

end Grants

end Hermes.Wallet
