import Hermes.AgentProxy.Ledgers
import Hermes.Wallet.Idempotency
import Hermes.Wallet.Shortfall

/-!
# Finalizing an abandoned run

The sweep debits what the last snapshot of a run owes beyond its ledger, under the run's own key,
and ends the run.  A completion may hold that key already: then the debit replays it, or, where
debts are not kept and the amounts differ, raises a conflict which nobody catches.
-/

namespace Hermes.AgentProxy

open Wallet

/-- What the sweep's debit takes off the balance. -/
def orphanTake (settings : Settings) (runId : String) (owed : Int) (account : Account) : Int :=
  if owed ≤ 0 ∨ (account.existing runId).isSome then 0
  else if owed ≤ account.balance then owed
  else if settings.agentDebtReconcileEnabled ∧ 0 < account.balance then account.balance
  else 0

def orphanAccrual (settings : Settings) (runId : String) (owed : Int) (account : Account) : Int :=
  if owed ≤ 0 ∨ (account.existing runId).isSome then 0
  else if owed ≤ account.balance then 0
  else if settings.agentDebtReconcileEnabled ∧ 0 < account.balance then owed - account.balance
  else 0

/-- The run's own key does not stand in the way of the remainder, and nothing that is written is
beyond its column. -/
def Payable (settings : Settings) (runId : String) (owed : Int) (account : Account) : Prop :=
  0 < owed →
    match account.existing runId with
    | some holder =>
        settings.agentDebtReconcileEnabled = true ∨
          holder.type = .debit ∧ holder.amount = owed ∧ fitsBigint owed = true
    | none =>
        owed ≤ account.balance ∨
          if settings.agentDebtReconcileEnabled = true ∧ 0 < account.balance then
            fitsBigint (account.debt + (owed - account.balance)) = true
          else fitsBigint owed = true

/-- What a debit of one run leaves of its account, besides audit rows. -/
structure Leaves (before after : Account) (runId : String) (take accrual : Int) : Prop where
  balance : after.balance = before.balance - take
  debt : after.debt = before.debt + accrual
  debits : debitsOf after runId = debitsOf before runId + take

section Debit

variable {settings : Settings} {conditions : Conditions} {candidate : OrphanCandidate}
  {owed : Int} {db : AgentDb}

theorem orphanRequest_refusal (context : Context) (runId : String) (newId : TxId)
    (positive : 0 < owed) : (orphanRequest runId owed newId).refusal context = none := by
  rw [ConsumeRequest.refusal, if_neg (show ¬(orphanRequest runId owed newId).amount ≤ 0 from
    not_le.mpr positive)]
  rfl

theorem orphanRequest_reconciles (settings : Settings) (owed : Int) (userId : UserId)
    (runId : String) (newId : TxId) :
    agentReconcileApplies (settings.context userId) (orphanRequest runId owed newId).metadata =
      settings.agentDebtReconcileEnabled := by
  simp [agentReconcileApplies, orphanRequest, Settings.context]

theorem orphanRequest_mode (userId : UserId) (runId : String) (newId : TxId) :
    (orphanRequest runId owed newId).mode (settings.context userId) =
      if settings.agentDebtReconcileEnabled then .agentDebt else .plain := by
  rw [ConsumeRequest.mode, orphanRequest_reconciles, if_neg (by simp [orphanRequest])]

theorem debit_orphan_taken (settings : Settings) (conditions : Conditions)
    {holder : LedgerTransaction}
    (positive : 0 < owed)
    (taken : (db.accounts candidate.userId).existing candidate.runId = some holder)
    (compared : settings.agentDebtReconcileEnabled = false → fitsBigint owed = true) :
    debit settings candidate.userId (orphanRequest candidate.runId owed conditions.newId) db =
      (.ofConsume ((orphanRequest candidate.runId owed conditions.newId).answerTaken
          (settings.context candidate.userId) holder (db.accounts candidate.userId).balance),
        (db.accounts candidate.userId).provisioned) := by
  refine Call.run_consume_taken _
    (orphanRequest_refusal _ candidate.runId conditions.newId positive) ?_ taken
  intro plain
  apply compared
  rw [orphanRequest_mode] at plain
  by_contra enabled
  rw [if_pos (by simpa using enabled)] at plain
  cases plain

theorem chargeOrphan_consumed {result : ConsumeResult} {account : Account} (positive : 0 < owed)
    (debited : debit settings candidate.userId
      (orphanRequest candidate.runId owed conditions.newId) db = (.consumed result, account)) :
    chargeOrphan settings conditions candidate owed db =
      (.ok result.chargedAmount, db.putAccount candidate.userId account) := by
  simp only [chargeOrphan, if_neg (not_le.mpr positive), debited]

theorem chargeOrphan_replayed {holder : LedgerTransaction} (positive : 0 < owed)
    (taken : (db.accounts candidate.userId).existing candidate.runId = some holder)
    (payable : settings.agentDebtReconcileEnabled = true ∨
      holder.type = .debit ∧ holder.amount = owed ∧ fitsBigint owed = true) :
    ∃ left, chargeOrphan settings conditions candidate owed db =
        (.ok 0, db.putAccount candidate.userId left) ∧
      Leaves (db.accounts candidate.userId) left candidate.runId 0 0 := by
  have replayed : (orphanRequest candidate.runId owed conditions.newId).answerTaken
      (settings.context candidate.userId) holder (db.accounts candidate.userId).balance =
        .ok ⟨(db.accounts candidate.userId).balance, holder.id, true, 0⟩ := by
    apply ConsumeRequest.answerTaken_matching
    rintro ⟨plain, differs⟩
    rcases payable with enabled | ⟨debit, equal, -⟩
    · rw [orphanRequest_mode, if_pos enabled] at plain
      cases plain
    · exact differs ⟨debit, equal⟩
  have compared : settings.agentDebtReconcileEnabled = false → fitsBigint owed = true := by
    intro disabled
    rcases payable with enabled | ⟨-, -, fits⟩
    · rw [disabled] at enabled
      cases enabled
    · exact fits
  have debited := debit_orphan_taken settings conditions positive taken compared
  rw [replayed] at debited
  exact ⟨_, chargeOrphan_consumed positive debited, by simp, by simp, by simp [debitsOf]⟩

theorem leaves_record {account : Account} {wallet : WalletRow} {event : AuditEvent}
    {runId : String} {newId : TxId} {amount accrual : Int}
    (balance : wallet.balance = account.balance - amount)
    (debt : wallet.debt = account.debt + accrual) :
    Leaves account (account.provisioned.record wallet ((orphanRequest runId owed newId).row amount)
      [event]) runId amount accrual where
  balance := balance
  debt := debt
  debits := by
    rw [debitsOf_record, if_pos ⟨rfl, rfl⟩]
    rfl

theorem chargeOrphan_covered (stored : (db.accounts candidate.userId).Stored) (positive : 0 < owed)
    (free : (db.accounts candidate.userId).existing candidate.runId = none)
    (covered : owed ≤ (db.accounts candidate.userId).balance) :
    ∃ left, chargeOrphan settings conditions candidate owed db =
        (.ok owed, db.putAccount candidate.userId left) ∧
      Leaves (db.accounts candidate.userId) left candidate.runId owed 0 := by
  obtain ⟨event, -, ran⟩ := Call.run_covered (settings.context candidate.userId)
    (orphanRequest candidate.runId owed conditions.newId) rfl stored.row positive covered free
  exact ⟨_, chargeOrphan_consumed positive ran, leaves_record rfl (by simp)⟩

/-- A free key and a balance which does not cover the remainder, where debts are kept: the balance
is taken and the rest is owed. -/
theorem chargeOrphan_short (stored : (db.accounts candidate.userId).Stored) (positive : 0 < owed)
    (free : (db.accounts candidate.userId).existing candidate.runId = none)
    (short : (db.accounts candidate.userId).balance < owed)
    (enabled : settings.agentDebtReconcileEnabled = true)
    (solvent : 0 < (db.accounts candidate.userId).balance)
    (fits : fitsBigint ((db.accounts candidate.userId).debt +
      (owed - (db.accounts candidate.userId).balance)) = true) :
    ∃ left, chargeOrphan settings conditions candidate owed db =
        (.ok (db.accounts candidate.userId).balance, db.putAccount candidate.userId left) ∧
      Leaves (db.accounts candidate.userId) left candidate.runId
        (db.accounts candidate.userId).balance
        (owed - (db.accounts candidate.userId).balance) := by
  have reconciles := (orphanRequest_reconciles settings owed
    candidate.userId candidate.runId conditions.newId).trans enabled
  obtain ⟨event, ran⟩ := Call.run_short (settings.context candidate.userId)
    (orphanRequest candidate.runId owed conditions.newId) rfl rfl reconciles stored.row solvent
    free short fits
  exact ⟨_, chargeOrphan_consumed positive ran, leaves_record (by simp) rfl⟩

/-- A free key and a balance which does not cover the remainder, where nothing can be owed: the
shortfall is audited. -/
theorem chargeOrphan_refused (positive : 0 < owed)
    (free : (db.accounts candidate.userId).existing candidate.runId = none)
    (short : (db.accounts candidate.userId).balance < owed)
    (refused : ¬(settings.agentDebtReconcileEnabled = true ∧
      0 < (db.accounts candidate.userId).balance))
    (fits : fitsBigint owed = true) :
    ∃ left, chargeOrphan settings conditions candidate owed db =
        (.ok 0, db.putAccount candidate.userId left) ∧
      Leaves (db.accounts candidate.userId) left candidate.runId 0 0 := by
  have legacy : agentReconcileApplies (settings.context candidate.userId)
      (orphanRequest candidate.runId owed conditions.newId).metadata = false ∨
        (db.accounts candidate.userId).balance ≤ 0 := by
    rw [orphanRequest_reconciles]
    rw [not_and_or, Bool.not_eq_true, not_lt] at refused
    exact refused
  have ran := Call.run_insufficient (settings.context candidate.userId)
    (orphanRequest candidate.runId owed conditions.newId) rfl positive rfl fits free short legacy
  have debited : debit settings candidate.userId
      (orphanRequest candidate.runId owed conditions.newId) db =
        (.raised .insufficientCredits, (db.accounts candidate.userId).provisioned) := ran
  have charged : chargeOrphan settings conditions candidate owed db =
      (.ok 0, db.putAccount candidate.userId (recordInsufficient candidate.runId owed none
        ⟨candidate.inputTokens, candidate.outputTokens,
          candidate.inputTokens + candidate.outputTokens, true, false, [], false, false⟩
        (db.accounts candidate.userId).provisioned)) := by
    simp only [chargeOrphan, if_neg (not_le.mpr positive), debited]
  refine ⟨_, charged, ?_⟩
  constructor
  · rw [sub_zero]
    exact Account.balance_provisioned _
  · rw [add_zero]
    exact Account.debt_provisioned _
  · rw [add_zero]
    rfl

/-- What the sweep's debit leaves of the database. -/
structure OrphanCharged (settings : Settings) (candidate : OrphanCandidate) (owed : Int)
    (before after : AgentDb) : Prop where
  leaves : Leaves (before.accounts candidate.userId) (after.accounts candidate.userId)
    candidate.runId
    (orphanTake settings candidate.runId owed (before.accounts candidate.userId))
    (orphanAccrual settings candidate.runId owed (before.accounts candidate.userId))
  runs : after.runs = before.runs
  finalized : after.finalized = before.finalized

/-- A payable remainder is charged without an exception, as far as the balance and the debt flag
allow. -/
theorem chargeOrphan_payable (conditions : Conditions)
    (stored : (db.accounts candidate.userId).Stored)
    (payable : Payable settings candidate.runId owed (db.accounts candidate.userId)) :
    ∃ charged, chargeOrphan settings conditions candidate owed db =
        (.ok (orphanTake settings candidate.runId owed (db.accounts candidate.userId)), charged) ∧
      OrphanCharged settings candidate owed db charged := by
  have putAccount {take accrual : Int}
      (take_eq : orphanTake settings candidate.runId owed (db.accounts candidate.userId) = take)
      (accrual_eq :
        orphanAccrual settings candidate.runId owed (db.accounts candidate.userId) = accrual)
      (charged : ∃ left, chargeOrphan settings conditions candidate owed db =
          (.ok take, db.putAccount candidate.userId left) ∧
        Leaves (db.accounts candidate.userId) left candidate.runId take accrual) :
      ∃ charged, chargeOrphan settings conditions candidate owed db =
          (.ok (orphanTake settings candidate.runId owed (db.accounts candidate.userId)),
            charged) ∧ OrphanCharged settings candidate owed db charged := by
    obtain ⟨left, ran, leaves⟩ := charged
    subst take_eq accrual_eq
    exact ⟨_, ran, by simpa [AgentDb.putAccount] using leaves, rfl, rfl⟩
  by_cases positive : 0 < owed
  swap
  · have idle : owed ≤ 0 := not_lt.mp positive
    refine ⟨db, ?_, ?_, rfl, rfl⟩
    · simp only [chargeOrphan, orphanTake, if_pos idle, if_pos (Or.inl idle)]
    · rw [orphanTake, orphanAccrual, if_pos (.inl idle), if_pos (.inl idle)]
      constructor <;> simp
  have payable := payable positive
  cases found : (db.accounts candidate.userId).existing candidate.runId with
  | some holder =>
      rw [found] at payable
      have taken : owed ≤ 0 ∨
          ((db.accounts candidate.userId).existing candidate.runId).isSome := by simp [found]
      exact putAccount (if_pos taken) (if_pos taken) (chargeOrphan_replayed positive found payable)
  | none =>
      rw [found] at payable
      have free : ¬(owed ≤ 0 ∨
          ((db.accounts candidate.userId).existing candidate.runId).isSome) := by
        simp [found, positive]
      by_cases covered : owed ≤ (db.accounts candidate.userId).balance
      · exact putAccount (by rw [orphanTake, if_neg free, if_pos covered])
          (by rw [orphanAccrual, if_neg free, if_pos covered])
          (chargeOrphan_covered stored positive found covered)
      · have fits := payable.resolve_left covered
        have short := not_le.mp covered
        by_cases owing : settings.agentDebtReconcileEnabled = true ∧
            0 < (db.accounts candidate.userId).balance
        · rw [if_pos owing] at fits
          exact putAccount (by rw [orphanTake, if_neg free, if_neg covered, if_pos owing])
            (by rw [orphanAccrual, if_neg free, if_neg covered, if_pos owing])
            (chargeOrphan_short stored positive found short owing.1 owing.2 fits)
        · rw [if_neg owing] at fits
          exact putAccount (by rw [orphanTake, if_neg free, if_neg covered, if_neg owing])
            (by rw [orphanAccrual, if_neg free, if_neg covered, if_neg owing])
            (chargeOrphan_refused positive found short owing fits)

theorem chargeOrphan_unpayable (conditions : Conditions)
    (stored : (db.accounts candidate.userId).Stored)
    (unpayable : ¬Payable settings candidate.runId owed (db.accounts candidate.userId)) :
    ∃ raised, chargeOrphan settings conditions candidate owed db = (.error raised, db) := by
  rw [Payable, Classical.not_imp] at unpayable
  obtain ⟨positive, unpayable⟩ := unpayable
  have failed (ran : Call.run ⟨settings.context candidate.userId, .consume
        (orphanRequest candidate.runId owed conditions.newId), .commit⟩
      (db.accounts candidate.userId) = (.failed .outOfRange, db.accounts candidate.userId)) :
      ∃ raised, chargeOrphan settings conditions candidate owed db = (.error raised, db) := by
    have debited : debit settings candidate.userId
        (orphanRequest candidate.runId owed conditions.newId) db =
          (.failed .outOfRange, db.accounts candidate.userId) := ran
    exact ⟨.database, by simp only [chargeOrphan, if_neg (not_le.mpr positive), debited]⟩
  have reconciles := orphanRequest_reconciles settings owed candidate.userId candidate.runId
    conditions.newId
  cases found : (db.accounts candidate.userId).existing candidate.runId with
  | some holder =>
      rw [found] at unpayable
      rw [not_or, Bool.not_eq_true] at unpayable
      obtain ⟨disabled, differs⟩ := unpayable
      cases fits : fitsBigint owed with
      | false =>
          exact failed (Call.run_unfit _ _ rfl positive rfl fits (.inl (reconciles.trans disabled)))
      | true =>
          have debited := debit_orphan_taken settings conditions positive found fun _ => fits
          have mismatched : (orphanRequest candidate.runId owed conditions.newId).answerTaken
              (settings.context candidate.userId) holder
                (db.accounts candidate.userId).balance = .error (.conflict
                  "idempotency key reused with different payload") := by
            apply ConsumeRequest.answerTaken_mismatched
            refine ⟨by rw [orphanRequest_mode, disabled]; rfl, ?_⟩
            rintro ⟨debit, equal⟩
            exact differs ⟨debit, equal, fits⟩
          rw [mismatched] at debited
          exact ⟨.wallet (.conflict "idempotency key reused with different payload"),
            by simp only [chargeOrphan, if_neg (not_le.mpr positive), debited, Outcome.ofConsume]⟩
  | none =>
      rw [found] at unpayable
      rw [not_or] at unpayable
      obtain ⟨short, unfit⟩ := unpayable
      split at unfit
      next owing =>
        exact failed (Call.run_overflow _ _ rfl rfl (reconciles.trans owing.1) stored.row owing.2
          found (not_le.mp short) (Bool.eq_false_iff.mpr unfit))
      next refused =>
        have legacy : settings.agentDebtReconcileEnabled = false ∨
            (db.accounts candidate.userId).balance ≤ 0 := by
          rw [not_and_or, Bool.not_eq_true, not_lt] at refused
          exact refused
        exact failed (Call.run_unfit _ _ rfl positive rfl (Bool.eq_false_iff.mpr unfit)
          (legacy.imp reconciles.trans fun empty => ⟨found, .inr empty⟩))

end Debit

/-- The debit the sweep is to make: the key it uses is free. -/
def OrphanFree (candidate : OrphanCandidate) (db : AgentDb) : Prop :=
  (db.accounts candidate.userId).existing candidate.runId = none

def Ended (runId : String) (runs : Runs) : Prop :=
  ∀ run ∈ runs, run.runId = runId → run.status.active = false

/-- What a finalization is to do.
* It completes, and the run has ended.
* Under a free key it debits exactly the remainder where the balance covers it.
* Where the balance covers a part, it debits nothing, or, where debts are kept, the balance, and
  the debt takes the rest.
* The audit row reports what was taken off the balance. -/
structure OrphanFinalization (settings : Settings) (conditions : Conditions)
    (candidate : OrphanCandidate) (db : AgentDb) : Prop where
  completes : (finalizeOrphanRun settings conditions candidate db).1 = .ok ()
  ends : Ended candidate.runId (finalizeOrphanRun settings conditions candidate db).2.runs
  covered : OrphanFree candidate db →
    orphanOwed settings candidate db ≤ (db.accounts candidate.userId).balance →
      Leaves (db.accounts candidate.userId)
        ((finalizeOrphanRun settings conditions candidate db).2.accounts candidate.userId)
        candidate.runId (orphanOwed settings candidate db) 0
  short : OrphanFree candidate db → 0 < (db.accounts candidate.userId).balance →
    (db.accounts candidate.userId).balance < orphanOwed settings candidate db →
      if settings.agentDebtReconcileEnabled then
        Leaves (db.accounts candidate.userId)
          ((finalizeOrphanRun settings conditions candidate db).2.accounts candidate.userId)
          candidate.runId (db.accounts candidate.userId).balance
          (orphanOwed settings candidate db - (db.accounts candidate.userId).balance)
      else
        Leaves (db.accounts candidate.userId)
          ((finalizeOrphanRun settings conditions candidate db).2.accounts candidate.userId)
          candidate.runId 0 0
  audited : ∃ row, (finalizeOrphanRun settings conditions candidate db).2.finalized =
      db.finalized ++ [row] ∧
    row.billed = (db.accounts candidate.userId).balance -
      ((finalizeOrphanRun settings conditions candidate db).2.accounts candidate.userId).balance

/-- When a finalization does what it is to do: the audit row is committed, the counts have a price,
the remainder is payable, and if the status write is lost, there was nothing to take and nothing to
end. -/
structure Finalizable (settings : Settings) (conditions : Conditions)
    (candidate : OrphanCandidate) (db : AgentDb) : Prop where
  committed : conditions.billingLost = none
  priced : ∃ observed,
    usageToCredits settings.rates candidate.inputTokens candidate.outputTokens = .ok observed
  payable : Payable settings candidate.runId (orphanOwed settings candidate db)
    (db.accounts candidate.userId)
  lost : conditions.statusLost = true →
    orphanTake settings candidate.runId (orphanOwed settings candidate db)
      (db.accounts candidate.userId) = 0 ∧ Ended candidate.runId db.runs

section Finalize

variable {settings : Settings} {conditions : Conditions} {candidate : OrphanCandidate}
  {db : AgentDb}

theorem ended_markStatus (runs : Runs) (runId : String) :
    Ended runId (Runs.markStatus runs runId .failed) := by
  intro run listed mine
  obtain ⟨row, present, rfl⟩ := List.mem_map.mp listed
  by_cases active : row.runId = runId ∧ row.status.active = true
  · simp only [if_pos active]
    rfl
  · rw [if_neg active] at mine ⊢
    rw [not_and, Bool.not_eq_true] at active
    exact active mine

theorem orphanOwed_nonneg : 0 ≤ orphanOwed settings candidate db := le_max_right _ _

theorem orphanAccrual_of_take_zero {runId : String} {owed : Int} {account : Account}
    (nothing : orphanTake settings runId owed account = 0) :
    orphanAccrual settings runId owed account = 0 := by
  unfold orphanTake at nothing
  unfold orphanAccrual
  split at nothing
  next idle => rw [if_pos idle]
  next due =>
    rw [if_neg due]
    split at nothing
    next covered => rw [if_pos covered]
    next short =>
      rw [if_neg short]
      split at nothing
      · omega
      next refused => rw [if_neg refused]

theorem finalizeOrphanRun_payable (conditions : Conditions)
    (stored : (db.accounts candidate.userId).Stored)
    (committed : conditions.billingLost = none)
    (priced : ∃ observed,
      usageToCredits settings.rates candidate.inputTokens candidate.outputTokens = .ok observed)
    (payable : Payable settings candidate.runId (orphanOwed settings candidate db)
      (db.accounts candidate.userId)) :
    ∃ charged, OrphanCharged settings candidate (orphanOwed settings candidate db) db charged ∧
      finalizeOrphanRun settings conditions candidate db =
        (.ok (), { markOrphan conditions candidate db charged with
          finalized := (markOrphan conditions candidate db charged).finalized ++
            [orphanFinalized settings candidate
              (orphanTake settings candidate.runId (orphanOwed settings candidate db)
                (db.accounts candidate.userId)) db] }) := by
  obtain ⟨observed, computed⟩ := priced
  obtain ⟨charged, ran, left⟩ := chargeOrphan_payable conditions stored payable
  exact ⟨charged, left, by simp only [finalizeOrphanRun, computed, ran, committed]⟩

theorem finalizable_of_completes (stored : (db.accounts candidate.userId).Stored)
    (completes : (finalizeOrphanRun settings conditions candidate db).1 = .ok ()) :
    conditions.billingLost = none ∧
      (∃ observed, usageToCredits settings.rates candidate.inputTokens candidate.outputTokens =
        .ok observed) ∧
      Payable settings candidate.runId (orphanOwed settings candidate db)
        (db.accounts candidate.userId) := by
  cases computed : usageToCredits settings.rates candidate.inputTokens
      candidate.outputTokens with
  | error error =>
      simp only [finalizeOrphanRun, computed] at completes
      cases completes
  | ok observed =>
      by_cases payable : Payable settings candidate.runId (orphanOwed settings candidate db)
          (db.accounts candidate.userId)
      · refine ⟨?_, ⟨observed, rfl⟩, payable⟩
        obtain ⟨charged, ran, -⟩ := chargeOrphan_payable conditions stored payable
        cases lost : conditions.billingLost with
        | none => rfl
        | some loss =>
            simp only [finalizeOrphanRun, computed, ran, lost] at completes
            cases completes
      · obtain ⟨raised, ran⟩ := chargeOrphan_unpayable conditions stored payable
        simp only [finalizeOrphanRun, computed, ran] at completes
        cases completes

theorem OrphanFinalization.of_leaves {settings : Settings} {conditions : Conditions}
    {candidate : OrphanCandidate} {db : AgentDb}
    (completes : (finalizeOrphanRun settings conditions candidate db).1 = .ok ())
    (ends : Ended candidate.runId (finalizeOrphanRun settings conditions candidate db).2.runs)
    (leaves : Leaves (db.accounts candidate.userId)
      ((finalizeOrphanRun settings conditions candidate db).2.accounts candidate.userId)
      candidate.runId
      (orphanTake settings candidate.runId (orphanOwed settings candidate db)
        (db.accounts candidate.userId))
      (orphanAccrual settings candidate.runId (orphanOwed settings candidate db)
        (db.accounts candidate.userId)))
    (audited : (finalizeOrphanRun settings conditions candidate db).2.finalized =
      db.finalized ++ [orphanFinalized settings candidate
        (orphanTake settings candidate.runId (orphanOwed settings candidate db)
          (db.accounts candidate.userId)) db]) :
    OrphanFinalization settings conditions candidate db where
  completes := completes
  ends := ends
  covered free enough := by
    by_cases positive : 0 < orphanOwed settings candidate db
    · have due : ¬(orphanOwed settings candidate db ≤ 0 ∨
          ((db.accounts candidate.userId).existing candidate.runId).isSome) := by
        rw [OrphanFree] at free
        simp [free, positive]
      rw [orphanTake, orphanAccrual, if_neg due, if_neg due, if_pos enough, if_pos enough]
        at leaves
      exact leaves
    · have idle : orphanOwed settings candidate db = 0 :=
        le_antisymm (not_lt.mp positive) orphanOwed_nonneg
      rw [orphanTake, orphanAccrual, if_pos (.inl idle.le), if_pos (.inl idle.le)] at leaves
      rw [idle]
      exact leaves
  short free solvent less := by
    have due : ¬(orphanOwed settings candidate db ≤ 0 ∨
        ((db.accounts candidate.userId).existing candidate.runId).isSome) := by
      rw [OrphanFree] at free
      simp [free, solvent.trans less]
    rw [orphanTake, orphanAccrual, if_neg due, if_neg due, if_neg (not_le.mpr less),
      if_neg (not_le.mpr less)] at leaves
    split
    next enabled => rwa [if_pos ⟨enabled, solvent⟩, if_pos ⟨enabled, solvent⟩] at leaves
    next disabled =>
      have refused : ¬(settings.agentDebtReconcileEnabled = true ∧
          0 < (db.accounts candidate.userId).balance) := fun owing => disabled owing.1
      rwa [if_neg refused, if_neg refused] at leaves
  audited := by
    refine ⟨_, audited, ?_⟩
    have balance := leaves.balance
    change orphanTake settings candidate.runId (orphanOwed settings candidate db)
      (db.accounts candidate.userId) = _
    omega

theorem orphanFinalization_iff (stored : (db.accounts candidate.userId).Stored) :
    OrphanFinalization settings conditions candidate db ↔
      Finalizable settings conditions candidate db := by
  constructor
  · intro done
    obtain ⟨committed, priced, payable⟩ := finalizable_of_completes stored done.completes
    refine ⟨committed, priced, payable, ?_⟩
    intro lost
    obtain ⟨charged, left, ran⟩ :=
      finalizeOrphanRun_payable conditions stored committed priced payable
    have ends := done.ends
    obtain ⟨row, audited, billed⟩ := done.audited
    rw [ran] at ends audited billed
    simp only [markOrphan, lost, if_true] at ends audited billed
    refine ⟨?_, ends⟩
    obtain rfl : orphanFinalized settings candidate (orphanTake settings candidate.runId
        (orphanOwed settings candidate db) (db.accounts candidate.userId)) db = row := by
      simpa using audited
    rw [sub_self] at billed
    exact billed
  · intro finalizable
    obtain ⟨charged, left, ran⟩ := finalizeOrphanRun_payable conditions stored
      finalizable.committed finalizable.priced finalizable.payable
    cases lost : conditions.statusLost with
    | false =>
        apply OrphanFinalization.of_leaves
        · rw [ran]
        · rw [ran]
          simp only [markOrphan, lost, Bool.false_eq_true, if_false]
          exact ended_markStatus charged.runs candidate.runId
        · rw [ran]
          simp only [markOrphan, lost, Bool.false_eq_true, if_false]
          exact left.leaves
        · rw [ran]
          simp only [markOrphan, lost, Bool.false_eq_true, if_false, left.finalized]
    | true =>
        obtain ⟨nothing, ended⟩ := finalizable.lost lost
        apply OrphanFinalization.of_leaves
        · rw [ran]
        · rw [ran]
          simp only [markOrphan, lost, if_true]
          exact ended
        · rw [ran, nothing, orphanAccrual_of_take_zero nothing]
          simp only [markOrphan, lost, if_true]
          constructor <;> simp
        · rw [ran]
          simp only [markOrphan, lost, if_true]

end Finalize

/-- What a finalization in progress has read. -/
structure PendingOrphan where
  settings : Settings
  candidate : OrphanCandidate
  read : AgentDb

/-- The database and the finalizations in progress. -/
structure Sweeps where
  db : AgentDb
  pending : List PendingOrphan := []

inductive SweepAction
  /-- `finalize_orphan_run` reads what the run was charged. -/
  | read (settings : Settings) (candidate : OrphanCandidate)
  /-- The same call goes on to its debit. -/
  | finish (index : Nat) (conditions : Conditions)
  /-- Anything else that writes. -/
  | other (action : LedgerAction)

namespace Sweeps

def step (state : Sweeps) : SweepAction → Option Sweeps
  | .read settings candidate =>
      some { state with pending := state.pending ++ [⟨settings, candidate, state.db⟩] }
  | .finish index conditions =>
      match state.pending[index]? with
      | none => none
      | some call =>
          some
            { db := (finishOrphanRun call.settings conditions call.candidate call.read state.db).2
              pending := state.pending.eraseIdx index }
  | .other action =>
      match action.step state.db with
      | none => none
      | some db => some { state with db := db }

/-- The run is repeatedly finalized, with snapshots worth at most `bound`, and nobody else bills
it; balances move as they like. -/
def Repeats (user : UserId) (runId : String) (bound : Int) (state : Sweeps) : SweepAction → Prop
  | .read settings candidate =>
      candidate.userId = user → candidate.runId = runId →
        settings.rates.price candidate.inputTokens candidate.outputTokens ≤ bound
  | .finish _ _ => True
  | .other action => action.Unowned state.db ∧
      match action with
      | .process _ _ run _ => ¬(run.userId = user ∧ run.runId = runId)
      | .finalize _ _ candidate => ¬(candidate.userId = user ∧ candidate.runId = runId)
      | .wallet _ | .lifecycle _ => True

/-- While the run's own key is free, what any call in progress is about to debit still fits. -/
structure Capped (user : UserId) (runId : String) (limit : Int) (state : Sweeps) : Prop where
  kept : Kept (state.db.accounts user)
  total : totalOf (state.db.accounts user) runId ≤ limit
  pending : ∀ call ∈ state.pending, call.candidate.userId = user →
    call.candidate.runId = runId → (state.db.accounts user).existing runId = none →
      totalOf (state.db.accounts user) runId +
        orphanOwed call.settings call.candidate call.read ≤ limit

variable {user : UserId} {runId : String} {bound limit : Int} {before after : Sweeps}

theorem Capped.untouched {db : AgentDb} {pending : List PendingOrphan}
    (capped : Capped user runId limit before) (kept : Kept (db.accounts user))
    (same : totalOf (db.accounts user) runId = totalOf (before.db.accounts user) runId)
    (grows : (db.accounts user).existing runId = none →
      (before.db.accounts user).existing runId = none)
    (fewer : ∀ call ∈ pending, call ∈ before.pending) :
    Capped user runId limit ⟨db, pending⟩ where
  kept := kept
  total := same.trans_le capped.total
  pending call listed mine run_eq free := by
    rw [same]
    exact capped.pending call (fewer call listed) mine run_eq (grows free)

theorem Capped.charges {db : AgentDb} {userId : UserId} {other key : String} {amount : Int}
    (capped : Capped user runId limit before)
    (charges : Charges before.db db userId other key amount)
    (elsewhere : ¬(userId = user ∧ other = runId)) :
    Capped user runId limit ⟨db, before.pending⟩ := by
  by_cases mine : userId = user
  · subst mine
    have differs : other ≠ runId := fun same => elsewhere ⟨rfl, same⟩
    apply capped.untouched (charges.kept capped.kept) _ (charges.grows runId) fun _ => id
    rcases charges.total runId with same | ⟨run_eq, -, -⟩
    · exact same
    · exact absurd run_eq differs
  · have account_eq := charges.others user (Ne.symm mine)
    apply capped.untouched (charges.kept capped.kept) _ _ fun _ => id
    · rw [account_eq]
    · rw [account_eq]
      exact id

theorem Capped.finish {index : Nat} {conditions : Conditions}
    (capped : Capped user runId limit before)
    (stepped : before.step (.finish index conditions) = some after) :
    Capped user runId limit after := by
  simp only [step] at stepped
  split at stepped
  · cases stepped
  next call found =>
    cases stepped
    have listed := List.mem_of_getElem? found
    have fewer : ∀ other ∈ before.pending.eraseIdx index, other ∈ before.pending :=
      fun _ => List.mem_of_mem_eraseIdx
    rcases finishOrphanRun_charges call.settings conditions call.candidate before.db call.read with
      same | charges
    · have account_eq := congrFun same user
      refine capped.untouched ?_ ?_ ?_ fewer
      · exact account_eq ▸ capped.kept
      · rw [account_eq]
      · rw [account_eq]
        exact id
    · by_cases mine : call.candidate.userId = user ∧ call.candidate.runId = runId
      · obtain ⟨user_eq, run_eq⟩ := mine
        rw [user_eq, run_eq] at charges
        constructor
        · exact charges.kept capped.kept
        · rcases charges.total runId with same | ⟨-, free, more⟩
          · exact same.trans_le capped.total
          · exact more.trans (capped.pending call listed user_eq run_eq free)
        · intro other present mine others free
          rw [charges.vacant free runId]
          exact capped.pending other (fewer other present) mine others (charges.grows runId free)
      · have others := capped.charges charges mine
        exact others.untouched others.kept rfl id fewer

theorem Capped.read {settings : Settings} {candidate : OrphanCandidate}
    (capped : Capped user runId limit before)
    (priced : candidate.userId = user → candidate.runId = runId →
      settings.rates.price candidate.inputTokens candidate.outputTokens ≤ limit) :
    Capped user runId limit ⟨before.db, before.pending ++ [⟨settings, candidate, before.db⟩]⟩ where
  kept := capped.kept
  total := capped.total
  pending call listed mine run_eq free := by
    rcases List.mem_append.mp listed with present | new
    · exact capped.pending call present mine run_eq free
    · rw [List.mem_singleton.mp new] at mine run_eq ⊢
      have price := priced mine run_eq
      have known := totalOf_le_chargedForRun capped.kept.attributed free
      have total := capped.total
      change totalOf (before.db.accounts user) runId +
        max (settings.rates.price candidate.inputTokens candidate.outputTokens -
          (before.db.accounts candidate.userId).chargedForRun candidate.runId) 0 ≤ limit
      rw [mine, run_eq]
      omega

theorem Capped.step {action : SweepAction} (capped : Capped user runId limit before)
    (within : bound ≤ limit) (repeats : Repeats user runId bound before action)
    (stepped : before.step action = some after) : Capped user runId limit after := by
  cases action with
  | read settings candidate =>
      cases stepped
      exact capped.read fun mine run_eq => (repeats mine run_eq).trans within
  | finish index conditions => exact capped.finish stepped
  | other action =>
      obtain ⟨unowned, elsewhere⟩ := repeats
      simp only [Sweeps.step] at stepped
      split at stepped
      · cases stepped
      next db acted =>
        cases stepped
        rcases LedgerAction.step_cases acted with same | ⟨invocation, rfl, called⟩ |
          ⟨settings, conditions, run, event, bill, rfl, item, charges⟩ |
          ⟨settings, conditions, candidate, rfl, charges⟩
        · have account_eq := congrFun same user
          refine capped.untouched ?_ ?_ ?_ fun _ => id
          · exact account_eq ▸ capped.kept
          · rw [account_eq]
          · rw [account_eq]
            exact id
        · have kept := LedgerAction.kept_step capped.kept unowned acted
          apply capped.untouched kept _ _ fun _ => id
          all_goals
            rw [called]
            rcases LedgerAction.accounts_wallet before.db.accounts invocation user with
              same | ⟨-, ran⟩
          · rw [same]
          · rw [ran]
            exact (BillingSystem.call_charges_none unowned capped.kept.attributed).2 runId
          · rw [same]
            exact id
          · rw [ran]
            intro free
            by_contra taken
            obtain ⟨holder, taken⟩ := Option.ne_none_iff_exists'.mp taken
            rw [invocation.existing_run taken] at free
            cases free
        · exact capped.charges charges elsewhere
        · exact capped.charges charges elsewhere

end Sweeps

namespace LedgerAction

instance (db : AgentDb) (action : LedgerAction) : Decidable (action.Unowned db) := by
  cases action <;> unfold Unowned <;> infer_instance

end LedgerAction

namespace Sample

/-- A completion worth one credit. -/
def completed : SseEvent where
  name := some "run.completed"
  data := [("usage", .obj [("input_tokens", .int 1000), ("output_tokens", .int 0)])]

/-- A running run of a user with a hundred credits, billed at its completion, whose terminal
status was lost. -/
def completedOnce (settings : Settings) : List LedgerAction :=
  [.wallet (BillingSystem.purchase ⟨1⟩),
    .lifecycle [{ runId := "run", userId := ⟨1⟩, sessionId := "", status := .running,
                  createdAt := 0 }],
    .process settings { newId := ⟨1⟩, statusLost := true } ⟨⟨1⟩, "run", false, 0, false, {}⟩
      completed]

/-- The sweep has seen three thousand tokens of the run. -/
def observed : OrphanCandidate := ⟨"run", ⟨1⟩, true, 600, 3000, 0⟩

end Sample

end Hermes.AgentProxy
