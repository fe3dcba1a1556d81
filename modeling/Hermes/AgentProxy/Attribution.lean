import Hermes.AgentProxy.Relay

/-!
# What the wallet records for one run

A debit belongs to the run its metadata names, and so does the debt it accrues.  Every debit of a
run sits under the run's own key or under one of its step keys, and debt is only ever accrued under
the run's own key.
-/

namespace Hermes.AgentProxy

open Wallet

/-- The debt an audit row reports as accrued for one run. -/
def debtAddedFor (runId : String) : AuditEvent → Int
  | .billingDebitAccrued (some owner) _ _ _ _ debtAdded _ =>
      if owner = runId then debtAdded else 0
  | _ => 0

def debitsOf (account : Account) (runId : String) : Int :=
  ((account.ledger.filter fun row =>
    row.type == .debit && row.metadata.runId == some runId).map (·.amount)).sum

def debtOf (account : Account) (runId : String) : Int :=
  (account.audit.map (debtAddedFor runId)).sum

/-- All a run has been charged, in credits taken and in debt. -/
def totalOf (account : Account) (runId : String) : Int :=
  debitsOf account runId + debtOf account runId

/-- The keys which bill a run: its own id and the ids of its steps. -/
def billsUnder (runId key : String) : Bool :=
  key == runId || (runId ++ ":").toList.isPrefixOf key.toList

/-- Rows and audit rows of a run are where `charged_for_run` and the idempotency key find them. -/
structure Attributed (account : Account) : Prop where
  positive : ∀ row ∈ account.ledger, 0 < row.amount
  keyed : ∀ row ∈ account.ledger, ∀ runId, row.metadata.runId = some runId →
    billsUnder runId row.idempotencyKey = true
  indebted : ∀ runId, account.existing runId = none → debtOf account runId = 0

/-- The request bills the run it names under one of the run's keys, and under a step key only in
the mode which accrues no debt. -/
structure Attributable (request : ConsumeRequest) : Prop where
  keyed : ∀ runId, request.metadata.runId = some runId →
    billsUnder runId request.idempotencyKey = true
  settled : ∀ runId, request.metadata.runId = some runId →
    request.metadata.incremental = false → request.idempotencyKey = runId

theorem attributed_empty : Attributed {} where
  positive := by simp
  keyed := by simp
  indebted := by simp [debtOf]

theorem debtAddedFor_eq_zero {event : AuditEvent} (no_debt : event.debtAdded = 0)
    (runId : String) : debtAddedFor runId event = 0 := by
  cases event with
  | billingDebitAccrued owner usage model required taken added debt =>
      have added_zero : added = 0 := no_debt
      cases owner <;> simp [debtAddedFor, added_zero]
  | _ => rfl

section Record

variable (account : Account) (wallet : WalletRow) (added : LedgerTransaction)
  (events : List AuditEvent) (runId : String)

@[simp] theorem totalOf_provisioned : totalOf account.provisioned runId = totalOf account runId :=
  rfl

theorem debitsOf_record :
    debitsOf (account.record wallet added events) runId =
      debitsOf account runId +
        if added.type = .debit ∧ added.metadata.runId = some runId then added.amount else 0 := by
  by_cases belongs : added.type = .debit ∧ added.metadata.runId = some runId <;>
    simp_all [debitsOf, List.filter_append]

theorem debtOf_record :
    debtOf (account.record wallet added events) runId =
      debtOf account runId + (events.map (debtAddedFor runId)).sum := by
  simp [debtOf]

theorem debtOf_record_of_no_debt (no_debt : ∀ event ∈ events, event.debtAdded = 0) :
    debtOf (account.record wallet added events) runId = debtOf account runId := by
  have silent : (events.map (debtAddedFor runId)).sum = 0 := by
    apply List.sum_eq_zero
    intro value listed
    obtain ⟨event, present, rfl⟩ := List.mem_map.mp listed
    exact debtAddedFor_eq_zero (no_debt event present) runId
  rw [debtOf_record, silent, add_zero]

end Record

namespace Attributed

variable {account : Account}

theorem provisioned (attributed : Attributed account) : Attributed account.provisioned where
  positive := attributed.positive
  keyed := attributed.keyed
  indebted := attributed.indebted

/-- Recording a row keeps the attribution when the row is where its run is billed. -/
theorem record {wallet : WalletRow} {added : LedgerTransaction} {events : List AuditEvent}
    (attributed : Attributed account) (positive : 0 < added.amount)
    (keyed : ∀ runId, added.metadata.runId = some runId →
      billsUnder runId added.idempotencyKey = true)
    (accrued : ∀ runId, added.idempotencyKey ≠ runId →
      (events.map (debtAddedFor runId)).sum = 0) :
    Attributed (account.record wallet added events) where
  positive row listed := by
    rcases List.mem_append.mp listed with present | new
    · exact attributed.positive row present
    · rw [List.mem_singleton.mp new]
      exact positive
  keyed row listed := by
    rcases List.mem_append.mp listed with present | new
    · exact attributed.keyed row present
    · rw [List.mem_singleton.mp new]
      exact keyed
  indebted runId free := by
    rw [Account.existing_eq_none] at free
    simp only [Account.ledger_record, List.map_append, List.mem_append, List.map_cons,
      List.map_nil, List.mem_singleton, not_or] at free
    rw [debtOf_record, accrued runId (Ne.symm free.2), add_zero]
    exact attributed.indebted runId (Account.existing_eq_none.mpr free.1)

end Attributed

section Debit

variable {context : Context} {request : ConsumeRequest} {seen after : Account}
  {result : Except WalletError ConsumeResult}

/-- A debit takes at most its amount, for the run it names and only under a free key. -/
theorem debit_total (debit : Debit context request seen result after) (runId : String) :
    totalOf after runId = totalOf seen runId ∨
      request.metadata.runId = some runId ∧ seen.existing request.idempotencyKey = none ∧
        totalOf after runId ≤ totalOf seen runId + request.amount := by
  cases debit with
  | insufficient | mismatched | replayed | drained => exact .inl rfl
  | charged charged event fresh positive covered solvent due no_debt =>
      have debt_eq := debtOf_record_of_no_debt seen ⟨seen.balance - charged, seen.debt⟩
        (request.row charged) [event] runId (by simpa using no_debt)
      by_cases mine : request.metadata.runId = some runId
      · refine .inr ⟨mine, fresh, ?_⟩
        rw [totalOf, debt_eq, debitsOf_record, totalOf]
        simp only [ConsumeRequest.row, mine, and_self, if_true]
        omega
      · refine .inl ?_
        rw [totalOf, debt_eq, debitsOf_record, totalOf]
        simp [ConsumeRequest.row, mine]
  | accrued plain reconciles fresh positive short =>
      by_cases mine : request.metadata.runId = some runId
      · refine .inr ⟨mine, fresh, ?_⟩
        rw [totalOf, debtOf_record, debitsOf_record, totalOf]
        simp only [ConsumeRequest.row, mine, and_self, if_true, List.map_cons, List.map_nil,
          List.sum_cons, List.sum_nil, debtAddedFor]
        omega
      · refine .inl ?_
        rw [totalOf, debtOf_record, debitsOf_record, totalOf]
        cases owner : request.metadata.runId with
        | none => simp [ConsumeRequest.row, owner, debtAddedFor]
        | some other =>
            have differs : other ≠ runId := fun same => mine (by rw [owner, same])
            simp [ConsumeRequest.row, owner, debtAddedFor, differs]

/-- A debit adds at most one row, a debit of the run it names under the key it names. -/
theorem debit_posted {runId : String} (debit : Debit context request seen result after)
    (named : request.metadata.runId = some runId) :
    ∀ row ∈ after.ledger, row ∈ seen.ledger ∨
      row.type = .debit ∧ row.metadata.runId = some runId ∧
        row.idempotencyKey = request.idempotencyKey := by
  intro row listed
  cases debit with
  | insufficient | mismatched | replayed | drained => exact .inl listed
  | charged | accrued =>
      rw [Account.ledger_record] at listed
      rcases List.mem_append.mp listed with present | new
      · exact .inl present
      · rw [List.mem_singleton.mp new]
        exact .inr ⟨rfl, named, rfl⟩

theorem debit_grows {key : String} (debit : Debit context request seen result after)
    (free : after.existing key = none) : seen.existing key = none := by
  rw [Account.existing_eq_none] at free ⊢
  cases debit with
  | insufficient | mismatched | replayed | drained => exact free
  | charged | accrued =>
      intro listed
      apply free
      rw [Account.ledger_record, List.map_append]
      exact List.mem_append_left _ listed

theorem debit_vacant (debit : Debit context request seen result after)
    (free : after.existing request.idempotencyKey = none) (runId : String) :
    totalOf after runId = totalOf seen runId := by
  rw [Account.existing_eq_none] at free
  cases debit with
  | insufficient | mismatched | replayed | drained => rfl
  | charged | accrued => exact absurd (by simp [ConsumeRequest.row]) free

theorem debit_attributed (debit : Debit context request seen result after)
    (attributable : Attributable request) (attributed : Attributed seen) : Attributed after := by
  cases debit with
  | insufficient | mismatched | replayed | drained => exact attributed
  | charged charged event fresh positive covered solvent due no_debt =>
      apply attributed.record positive attributable.keyed
      intro runId _
      simpa using debtAddedFor_eq_zero no_debt runId
  | accrued plain reconciles fresh positive =>
      apply attributed.record positive attributable.keyed
      intro runId differs
      cases owner : request.metadata.runId with
      | none => simp [debtAddedFor]
      | some other =>
          have other_ne : other ≠ runId := by
            intro same
            exact differs (same ▸ attributable.settled other owner plain)
          simp [debtAddedFor, other_ne]

end Debit

section Credit

variable {context : Context} {request : GrantRequest} {seen after : Account}
  {result : Except WalletError GrantResult}

theorem credit_total (credit : Credit context request seen result after) (runId : String) :
    totalOf after runId = totalOf seen runId := by
  cases credit with
  | mismatched | replayed => rfl
  | credited repaid events fresh settled balance_nonneg debt_nonneg no_debt =>
      rw [totalOf, debtOf_record_of_no_debt _ _ _ _ _ no_debt, debitsOf_record, totalOf]
      simp [GrantRequest.row]

theorem credit_attributed (credit : Credit context request seen result after)
    (positive : 0 < request.amount) (unowned : request.metadata.runId = none)
    (attributed : Attributed seen) : Attributed after := by
  cases credit with
  | mismatched | replayed => exact attributed
  | credited repaid events fresh settled balance_nonneg debt_nonneg no_debt =>
      apply attributed.record positive
      · intro runId named
        change request.metadata.runId = some runId at named
        rw [unowned] at named
        cases named
      · intro runId _
        apply List.sum_eq_zero
        intro value listed
        obtain ⟨event, present, rfl⟩ := List.mem_map.mp listed
        exact debtAddedFor_eq_zero (no_debt event present) runId

end Credit

@[simp] theorem totalOf_recordInsufficient (runId : String) (amount : Int) (model : Option String)
    (usage : UsageCounts) (account : Account) (other : String) :
    totalOf (recordInsufficient runId amount model usage account) other =
      totalOf account other := by
  simp [totalOf, debitsOf, debtOf, recordInsufficient, debtAddedFor]

theorem Attributed.recordInsufficient {account : Account} (attributed : Attributed account)
    (runId : String) (amount : Int) (model : Option String) (usage : UsageCounts) :
    Attributed (AgentProxy.recordInsufficient runId amount model usage account) where
  positive := attributed.positive
  keyed := attributed.keyed
  indebted other free := by
    have debt_eq := attributed.indebted other free
    simpa [debtOf, AgentProxy.recordInsufficient, debtAddedFor] using debt_eq

theorem debitsOf_le_chargedForRun {account : Account} (attributed : Attributed account)
    (runId : String) : debitsOf account runId ≤ account.chargedForRun runId := by
  have positive := attributed.positive
  have keyed := attributed.keyed
  unfold debitsOf Account.chargedForRun
  generalize account.ledger = rows at positive keyed
  induction rows with
  | nil => simp
  | cons row rows induction =>
      have rest := induction (fun other present => positive other (.tail _ present))
        (fun other present => keyed other (.tail _ present))
      have row_positive := positive row (.head _)
      have row_keyed := keyed row (.head _) runId
      unfold billsUnder at row_keyed
      simp only [List.filter_cons]
      split <;> split <;> simp_all
      omega

/-- While a run's own key is free, all it was charged is what `charged_for_run` finds. -/
theorem totalOf_le_chargedForRun {account : Account} (attributed : Attributed account)
    {runId : String} (free : account.existing runId = none) :
    totalOf account runId ≤ account.chargedForRun runId := by
  rw [totalOf, attributed.indebted runId free, add_zero]
  exact debitsOf_le_chargedForRun attributed runId

end Hermes.AgentProxy
