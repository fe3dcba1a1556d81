import Hermes.Wallet.Effect
import Mathlib.Algebra.BigOperators.Group.List.Basic
import Mathlib.Tactic.Ring
import Mathlib.Tactic.Linarith

/-!
# Conservation of credits over whole histories

Operations of any users run one after another, each in a transaction of its own which its caller
commits or rolls back.  Whatever the operations, keys, replays and failures, an account balances:
what it holds minus what it owes is what was credited, minus what was debited, minus the debt its
agent runs have accrued.
-/

namespace Hermes.Wallet

abbrev Accounts := UserId → Account

namespace Accounts

def empty : Accounts := fun _ => {}

/-- Run one call against the account of its user. -/
def step (accounts : Accounts) (invocation : Call) : Accounts :=
  Function.update accounts invocation.context.userId
    (invocation.run (accounts invocation.context.userId)).2

/-- Run a history of calls one after another from empty accounts. -/
def after (history : List Call) : Accounts :=
  history.foldl step empty

end Accounts

namespace Account

/-- `Σ(credit)`. -/
def credits (account : Account) : Int :=
  ((account.ledger.filter fun row => row.type == .credit).map (·.amount)).sum

/-- `Σ(debit)`. -/
def debits (account : Account) : Int :=
  ((account.ledger.filter fun row => row.type == .debit).map (·.amount)).sum

/-- The debt which the audit rows report as accrued. -/
def debtAudited (account : Account) : Int :=
  (account.audit.map (·.debtAdded)).sum

end Account

/-- The debt one call added to its account as an agent-debt `consume`. -/
def Call.debtAdded (invocation : Call) (before after : Account) : Int :=
  match invocation.operation with
  | .consume request =>
      if !request.metadata.incremental &&
          agentReconcileApplies invocation.context request.metadata then
        after.debt - before.debt
      else 0
  | .grant _ => 0

/-- The debt which the agent-debt calls of a history added to one account. -/
def debtAdded (user : UserId) (accounts : Accounts) : List Call → Int
  | [] => 0
  | invocation :: later =>
      (if invocation.context.userId = user then
        invocation.debtAdded (accounts user) (accounts.step invocation user)
      else 0) + debtAdded user (accounts.step invocation) later

/-- The part of the invariant which speaks about one state alone. -/
structure Account.Sound (account : Account) : Prop where
  balance_nonneg : 0 ≤ account.balance
  debt_nonneg : 0 ≤ account.debt
  keys_nodup : (account.ledger.map (·.idempotencyKey)).Nodup

/-- How much more an account holds than its rows and its accrued debt account for. -/
def Account.excess (account : Account) : Int :=
  account.balance - account.debt - (account.credits - account.debits)

theorem Account.existing_eq_none {account : Account} {key : String} :
    account.existing key = none ↔ key ∉ account.ledger.map (·.idempotencyKey) := by
  rw [Account.existing, List.find?_eq_none]
  simp

namespace Account

variable (account : Account) (wallet : WalletRow) (added : LedgerTransaction)
  (events : List AuditEvent)

@[simp] theorem balance_provisioned : account.provisioned.balance = account.balance := by
  simp [balance_eq]

@[simp] theorem debt_provisioned : account.provisioned.debt = account.debt := by
  simp [debt_eq]

@[simp] theorem credits_provisioned : account.provisioned.credits = account.credits := rfl

@[simp] theorem debits_provisioned : account.provisioned.debits = account.debits := rfl

@[simp] theorem debtAudited_provisioned :
    account.provisioned.debtAudited = account.debtAudited := rfl

@[simp] theorem balance_record : (account.record wallet added events).balance = wallet.balance :=
  rfl

@[simp] theorem debt_record : (account.record wallet added events).debt = wallet.debt := rfl

theorem credits_record :
    (account.record wallet added events).credits =
      account.credits + if added.type = .credit then added.amount else 0 := by
  by_cases credit : added.type = .credit <;> simp [credits, record, credit]

theorem debits_record :
    (account.record wallet added events).debits =
      account.debits + if added.type = .debit then added.amount else 0 := by
  by_cases debit : added.type = .debit <;> simp [debits, record, debit]

theorem debtAudited_record :
    (account.record wallet added events).debtAudited =
      account.debtAudited + (events.map (·.debtAdded)).sum := by
  simp [debtAudited, record]

variable {account}

theorem Sound.provisioned (sound : account.Sound) : account.provisioned.Sound where
  balance_nonneg := by simpa using sound.balance_nonneg
  debt_nonneg := by simpa using sound.debt_nonneg
  keys_nodup := sound.keys_nodup

theorem Sound.record {wallet : WalletRow} {added : LedgerTransaction} {events : List AuditEvent}
    (sound : account.Sound) (fresh : account.existing added.idempotencyKey = none)
    (balance_nonneg : 0 ≤ wallet.balance) (debt_nonneg : 0 ≤ wallet.debt) :
    (account.record wallet added events).Sound where
  balance_nonneg := balance_nonneg
  debt_nonneg := debt_nonneg
  keys_nodup := by
    rw [existing_eq_none] at fresh
    rw [ledger_record, List.map_append, List.nodup_append]
    refine ⟨sound.keys_nodup, by simp, ?_⟩
    intro key present other single
    rw [List.map_singleton, List.mem_singleton] at single
    rintro rfl
    exact fresh (single ▸ present)

end Account

section Debit

variable {context : Context} {request : ConsumeRequest} {seen after : Account}
  {result : Except WalletError ConsumeResult}

theorem Debit.sound (debit : Debit context request seen result after) (sound : seen.Sound) :
    after.Sound := by
  have balance_nonneg := sound.balance_nonneg
  have debt_nonneg := sound.debt_nonneg
  cases debit with
  | insufficient | mismatched | replayed | drained => exact sound
  | charged charged event fresh positive covered solvent =>
      exact sound.record fresh (by simpa using covered) debt_nonneg
  | accrued plain reconciles fresh positive short =>
      refine sound.record fresh le_rfl ?_
      change 0 ≤ seen.debt + (request.amount - seen.balance)
      omega

/-- A debit takes from the balance what it records, and the debt it accrues is the debt it
audits. -/
theorem Debit.balances (debit : Debit context request seen result after) :
    after.excess + (after.debt - seen.debt) = seen.excess ∧
      after.debtAudited - seen.debtAudited = after.debt - seen.debt := by
  cases debit with
  | insufficient | mismatched | replayed | drained => simp
  | charged charged event fresh positive covered solvent due no_debt =>
      simp [Account.excess, Account.credits_record, Account.debits_record,
        Account.debtAudited_record, ConsumeRequest.row, no_debt]
      ring
  | accrued plain reconciles fresh positive short =>
      simp [Account.excess, Account.credits_record, Account.debits_record,
        Account.debtAudited_record, ConsumeRequest.row, AuditEvent.debtAdded]
      ring

theorem Debit.debt_eq (debit : Debit context request seen result after)
    (other : request.metadata.incremental = true ∨
      agentReconcileApplies context request.metadata = false) : after.debt = seen.debt := by
  cases debit with
  | insufficient | mismatched | replayed | drained => rfl
  | charged => rfl
  | accrued plain reconciles =>
      rcases other with incremental | legacy
      · rw [plain] at incremental
        cases incremental
      · rw [reconciles] at legacy
        cases legacy

end Debit

section Credit

variable {context : Context} {request : GrantRequest} {seen after : Account}
  {result : Except WalletError GrantResult}

theorem Credit.sound (credit : Credit context request seen result after) (sound : seen.Sound) :
    after.Sound := by
  cases credit with
  | mismatched | replayed => exact sound
  | credited repaid events fresh settled balance_nonneg debt_nonneg =>
      exact sound.record fresh balance_nonneg debt_nonneg

/-- What a grant repays is what its credit row records beyond the balance it adds. -/
theorem Credit.balances (credit : Credit context request seen result after) :
    after.excess = seen.excess ∧ after.debtAudited = seen.debtAudited ∧
      seen.debt - after.debt =
        (after.credits - seen.credits) - (after.balance - seen.balance) := by
  cases credit with
  | mismatched | replayed => simp
  | credited repaid events fresh settled balance_nonneg debt_nonneg no_debt =>
      have audited : (events.map (·.debtAdded)).sum = 0 :=
        List.sum_eq_zero (by simpa using no_debt)
      simp [Account.excess, Account.credits_record, Account.debits_record,
        Account.debtAudited_record, GrantRequest.row, audited]
      ring

theorem Credit.debt_le (credit : Credit context request seen result after)
    (positive : 0 < request.amount) (solvent : 0 ≤ seen.debt) : after.debt ≤ seen.debt := by
  cases credit with
  | mismatched | replayed => exact le_rfl
  | credited repaid events fresh settled =>
      simp only [Account.debt_record]
      split at settled <;> omega

end Credit

/-- A call leaves its account alone, or commits what the operation has made of it. -/
theorem Call.run_cases {α : Type} (invocation : Call) {body : Program Sql α} {report : α → Outcome}
    (reports : invocation.operation.program invocation.context = do return report (← body))
    (account : Account) :
    (invocation.run account).2 = account ∨
      ∃ result after, body.run (Sql.exec account account) {} = .ok (result, after) ∧
        (invocation.run account).2 = after.view account := by
  cases ran : (invocation.operation.program invocation.context).run (Sql.exec account account)
      {} with
  | error failure => simp [Call.run, Call.program, Call.conclude, ran]
  | ok step =>
      obtain ⟨outcome, tx⟩ := step
      have body_ran := ran
      rw [reports] at body_ran
      obtain ⟨result, after, body_ran, answered⟩ := Program.run_bind_eq_ok body_ran
      cases answered
      cases ending : invocation.ending with
      | rollback => simp [Call.run, Call.program, Call.conclude, ending, ran]
      | commit =>
          refine .inr ⟨result, tx, body_ran, ?_⟩
          simp [Call.run, Call.program, Call.conclude, ending, ran, Tx.view]

/-- A call of `consume` leaves its account alone or does a single `Debit` to it. -/
theorem Call.run_consume (context : Context) (request : ConsumeRequest) (ending : Ending)
    (account : Account) :
    let invocation : Call := ⟨context, .consume request, ending⟩
    (invocation.run account).2 = account ∨
      ∃ result, Debit context request account.provisioned result (invocation.run account).2 := by
  intro invocation
  obtain same | ⟨result, after, ran, committed⟩ := invocation.run_cases rfl account
  · exact .inl same
  · rw [committed]
    obtain ⟨raised, -, same⟩ | ⟨-, debit⟩ := consume_ok ran
    · exact .inl same
    · exact .inr ⟨result, debit⟩

/-- A call of `grant` leaves its account alone or does a single `Credit` to it. -/
theorem Call.run_grant (context : Context) (request : GrantRequest) (ending : Ending)
    (account : Account) :
    let invocation : Call := ⟨context, .grant request, ending⟩
    (invocation.run account).2 = account ∨
      0 < request.amount ∧ ∃ result,
        Credit context request account.provisioned result (invocation.run account).2 := by
  intro invocation
  obtain same | ⟨result, after, ran, committed⟩ := invocation.run_cases rfl account
  · exact .inl same
  · rw [committed]
    obtain ⟨raised, -, same⟩ | ⟨positive, credit⟩ := grant_ok ran
    · exact .inl same
    · exact .inr ⟨positive, result, credit⟩

theorem Debit.ledger_cases {context : Context} {request : ConsumeRequest} {seen after : Account}
    {result : Except WalletError ConsumeResult}
    (debit : Debit context request seen result after) :
    after.ledger = seen.ledger ∨
      ∃ row, after.ledger = seen.ledger ++ [row] ∧ row.idempotencyKey = request.idempotencyKey := by
  cases debit with
  | insufficient | mismatched | replayed | drained => exact .inl rfl
  | charged | accrued => exact .inr ⟨_, Account.ledger_record .., rfl⟩

theorem Credit.ledger_cases {context : Context} {request : GrantRequest} {seen after : Account}
    {result : Except WalletError GrantResult}
    (credit : Credit context request seen result after) :
    after.ledger = seen.ledger ∨
      ∃ row, after.ledger = seen.ledger ++ [row] ∧ row.idempotencyKey = request.idempotencyKey := by
  cases credit with
  | mismatched | replayed => exact .inl rfl
  | credited => exact .inr ⟨_, Account.ledger_record .., rfl⟩

/-- One call keeps an account sound and accounts for every credit it moves. -/
theorem Call.step_balances (invocation : Call) (account : Account) (sound : account.Sound) :
    let after := (invocation.run account).2
    after.Sound ∧ after.excess + invocation.debtAdded account after = account.excess ∧
      after.debtAudited = account.debtAudited + invocation.debtAdded account after := by
  obtain ⟨context, operation, ending⟩ := invocation
  cases operation with
  | consume request =>
      intro after
      rcases Call.run_consume context request ending account with same | ⟨result, debit⟩
      · have same : after = account := same
        rw [same]
        simp [Call.debtAdded, sound]
      · change Debit context request account.provisioned result after at debit
        have balances := debit.balances
        have excess_provisioned : account.provisioned.excess = account.excess := by
          simp [Account.excess]
        rw [Account.debt_provisioned, Account.debtAudited_provisioned,
          excess_provisioned] at balances
        refine ⟨debit.sound sound.provisioned, ?_⟩
        by_cases agent : !request.metadata.incremental &&
            agentReconcileApplies context request.metadata
        · simp only [Call.debtAdded, agent, if_true]
          exact ⟨balances.1, by omega⟩
        · have debt_eq : after.debt = account.debt := by
            have debt_eq := debit.debt_eq (by
              rw [Bool.and_eq_true, not_and_or] at agent
              simpa using agent)
            simpa using debt_eq
          simp only [Call.debtAdded, agent]
          omega
  | grant request =>
      intro after
      rcases Call.run_grant context request ending account with same | ⟨-, result, credit⟩
      · have same : after = account := same
        rw [same]
        simp [Call.debtAdded, sound]
      · obtain ⟨excess_eq, audited_eq, -⟩ := credit.balances
        refine ⟨credit.sound sound.provisioned, ?_, ?_⟩
        · simpa [Call.debtAdded, Account.excess] using excess_eq
        · simpa [Call.debtAdded] using audited_eq

theorem history_balances (user : UserId) (history : List Call) (accounts : Accounts)
    (sound : (accounts user).Sound) :
    let account := history.foldl Accounts.step accounts user
    account.Sound ∧ account.excess + debtAdded user accounts history = (accounts user).excess ∧
      account.debtAudited = (accounts user).debtAudited + debtAdded user accounts history := by
  induction history generalizing accounts with
  | nil => simpa [debtAdded] using sound
  | cons invocation later induction =>
      intro account
      by_cases mine : invocation.context.userId = user
      · subst mine
        obtain ⟨kept, excess_eq, audited_eq⟩ :=
          Call.step_balances invocation (accounts invocation.context.userId) sound
        have stepped : accounts.step invocation invocation.context.userId =
            (invocation.run (accounts invocation.context.userId)).2 := by
          simp [Accounts.step]
        rw [← stepped] at kept excess_eq audited_eq
        obtain ⟨last_sound, last_excess, last_audited⟩ :=
          induction (accounts.step invocation) kept
        have account_eq : account =
          later.foldl Accounts.step (accounts.step invocation) invocation.context.userId := rfl
        rw [← account_eq] at last_sound last_excess last_audited
        simp only [debtAdded, if_true]
        exact ⟨last_sound, by omega, by omega⟩
      · have untouched : accounts.step invocation user = accounts user := by
          simp [Accounts.step, Function.update_of_ne (Ne.symm mine)]
        have kept := induction (accounts.step invocation) (by rw [untouched]; exact sound)
        rw [untouched] at kept
        simp only [debtAdded, mine, if_false, zero_add]
        exact kept

theorem Account.sound_empty : Account.Sound {} where
  balance_nonneg := le_rfl
  debt_nonneg := le_rfl
  keys_nodup := List.nodup_nil

/-- Conservation: after any history from empty accounts no wallet is negative, no key was used
twice, and balance minus debt is what was credited minus what was debited minus the debt accrued
by agent-debt calls, which the audit rows report exactly.  A further grant removes from the debt
exactly the part of its credit that does not reach the balance. -/
theorem wallet_conservation (history : List Call) (user : UserId) :
    let account := Accounts.after history user
    0 ≤ account.balance ∧ 0 ≤ account.debt ∧
      (account.ledger.map (·.idempotencyKey)).Nodup ∧
      account.balance - account.debt =
        account.credits - account.debits - debtAdded user Accounts.empty history ∧
      account.debtAudited = debtAdded user Accounts.empty history ∧
      ∀ (context : Context) (request : GrantRequest) (ending : Ending),
        let next := Accounts.after (history ++ [⟨context, .grant request, ending⟩]) user
        next.debt ≤ account.debt ∧
          account.debt - next.debt =
            (next.credits - account.credits) - (next.balance - account.balance) := by
  intro account
  obtain ⟨sound, excess_eq, audited_eq⟩ :=
    history_balances user history Accounts.empty Account.sound_empty
  change account.Sound at sound
  change account.excess + _ = 0 at excess_eq
  change account.debtAudited = 0 + _ at audited_eq
  refine ⟨sound.balance_nonneg, sound.debt_nonneg, sound.keys_nodup, ?_, ?_, ?_⟩
  · unfold Account.excess at excess_eq
    omega
  · omega
  · intro context request ending next
    by_cases mine : context.userId = user
    swap
    · have next_eq : next = account := by
        simp [next, account, Accounts.after, Accounts.step,
          Function.update_of_ne (Ne.symm mine)]
      rw [next_eq]
      simp
    subst mine
    have next_eq : next = (Call.run ⟨context, .grant request, ending⟩ account).2 := by
      simp [next, account, Accounts.after, Accounts.step]
    rcases Call.run_grant context request ending account with same | ⟨positive, result, credit⟩
    · rw [next_eq, same]
      simp
    · rw [← next_eq] at credit
      obtain ⟨-, -, repaid_eq⟩ := credit.balances
      refine ⟨?_, by simpa using repaid_eq⟩
      simpa using credit.debt_le positive (by simpa using sound.debt_nonneg)

end Hermes.Wallet
