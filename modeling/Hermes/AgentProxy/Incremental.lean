import Hermes.AgentProxy.Charge
import Hermes.Wallet.Covered

/-!
# Billing by steps comes to the price of the final usage

One relay follows a run from its first event past `run.completed`.  Each step debits what is owed
beyond the relay's count, and the count moves exactly with the ledger: a step which is dropped or
meets a key already used moves neither.  So the final debit always closes the gap, whatever the
step indices were.
-/

namespace Hermes.AgentProxy

open Wallet

/-- What happens to a run while one relay follows it. -/
inductive StreamStep
  /-- The relay processes an event. -/
  | event (event : SseEvent) (conditions : Conditions)
  /-- Other services have changed the database meanwhile. -/
  | elsewhere (db : AgentDb)

/-- The loop of `stream_events`: an exception or a pause ends it. -/
def relay (settings : Settings) : List StreamStep → RunProcessing → AgentDb →
    Except Raised (Option PausedBlock) × RunProcessing × AgentDb
  | [], run, db => (.ok none, run, db)
  | .elsewhere db :: later, run, _ => relay settings later run db
  | .event event conditions :: later, run, db =>
      match processEvent settings conditions run event db with
      | (.ok none, run, db) => relay settings later run db
      | ended => ended

def rowsUnder (account : Account) (runId : String) : List LedgerTransaction :=
  account.ledger.filter fun row => billsUnder runId row.idempotencyKey

/-- Other services keep off the keys of the run, and the wallet row is one the table admits. -/
structure KeepsOff (run : RunProcessing) (before after : AgentDb) : Prop where
  rows : rowsUnder (after.accounts run.userId) run.runId =
    rowsUnder (before.accounts run.userId) run.runId
  stored : (after.accounts run.userId).row.Stored

/-- The balance covers what an event bills, and its transaction is not lost. -/
structure Affords (settings : Settings) (run : RunProcessing) (event : SseEvent)
    (conditions : Conditions) (db : AgentDb) : Prop where
  covered : ∀ bill, billItem settings run event = some bill →
    bill.amount ≤ (db.accounts run.userId).balance
  kept : conditions.billingLost = none

/-- Every event of a stream can be paid for when it is processed, and nobody else bills the
run. -/
def Steady (settings : Settings) : List StreamStep → RunProcessing → AgentDb → Prop
  | [], _, _ => True
  | .elsewhere other :: later, run, db => KeepsOff run db other ∧ Steady settings later run other
  | .event event conditions :: later, run, db =>
      Affords settings run event conditions db ∧
        match processEvent settings conditions run event db with
        | (.ok none, run, db) => Steady settings later run db
        | _ => True

/-- Each event of a stream which the relay processes has some property. -/
def EachEvent (property : SseEvent → Prop) (stream : List StreamStep) : Prop :=
  ∀ event conditions, StreamStep.event event conditions ∈ stream → property event

theorem chargedForRun_eq (account : Account) (runId : String) :
    account.chargedForRun runId =
      (((rowsUnder account runId).filter fun row => row.type == .debit).map (·.amount)).sum := by
  simp only [Account.chargedForRun, rowsUnder, List.filter_filter, billsUnder]

theorem existing_eq_none_of_rowsUnder {account : Account} {runId key : String}
    (keyed : billsUnder runId key = true) :
    account.existing key = none ↔ ∀ row ∈ rowsUnder account runId, row.idempotencyKey ≠ key := by
  rw [Account.existing_eq_none]
  constructor
  · intro absent row listed same
    exact absent (List.mem_map.mpr ⟨row, List.mem_of_mem_filter listed, same⟩)
  · intro absent listed
    obtain ⟨row, present, rfl⟩ := List.mem_map.mp listed
    exact absent row (List.mem_filter.mpr ⟨present, keyed⟩) rfl

theorem rowsUnder_record {account : Account} {wallet : WalletRow} {added : LedgerTransaction}
    {events : List AuditEvent} {runId : String}
    (keyed : billsUnder runId added.idempotencyKey = true) :
    rowsUnder (account.record wallet added events) runId =
      rowsUnder account runId ++ [added] := by
  simp [rowsUnder, List.filter_append, keyed]

theorem chargedForRun_record {account : Account} {wallet : WalletRow}
    {added : LedgerTransaction} {events : List AuditEvent} {runId : String}
    (keyed : billsUnder runId added.idempotencyKey = true) (debit : added.type = .debit) :
    (account.record wallet added events).chargedForRun runId =
      account.chargedForRun runId + added.amount := by
  simp [chargedForRun_eq, rowsUnder_record keyed, List.filter_append, debit]

theorem stepKey_ne (runId : String) (stepIndex : Int) : stepKey runId stepIndex ≠ runId := by
  intro same
  have lengths := congrArg String.length same
  simp only [stepKey, String.length_append] at lengths
  have colon : (":" : String).length = 1 := rfl
  omega

/-- The relay's count is what the ledger holds for the run, and the run is not finished. -/
structure Telescoped (price : Int) (run : RunProcessing) (db : AgentDb) : Prop where
  charged_eq : (db.accounts run.userId).chargedForRun run.runId = run.charged
  charged_le : run.charged ≤ price
  free : (db.accounts run.userId).existing run.runId = none
  stored : (db.accounts run.userId).row.Stored
  unbilled : run.billed = false

namespace Telescoped

variable {price : Int} {run : RunProcessing} {db : AgentDb}

theorem congr {later : RunProcessing} {after : AgentDb} (telescoped : Telescoped price run db)
    (accounts_eq : after.accounts = db.accounts) (user_eq : later.userId = run.userId)
    (run_eq : later.runId = run.runId) (charged_eq : later.charged = run.charged)
    (billed_eq : later.billed = run.billed) : Telescoped price later after where
  charged_eq := by rw [accounts_eq, user_eq, run_eq, charged_eq]; exact telescoped.charged_eq
  charged_le := by rw [charged_eq]; exact telescoped.charged_le
  free := by rw [accounts_eq, user_eq, run_eq]; exact telescoped.free
  stored := by rw [accounts_eq, user_eq]; exact telescoped.stored
  unbilled := by rw [billed_eq]; exact telescoped.unbilled

theorem elsewhere {other : AgentDb} (telescoped : Telescoped price run db)
    (keeps : KeepsOff run db other) : Telescoped price run other where
  charged_eq := by
    rw [chargedForRun_eq, keeps.rows, ← chargedForRun_eq]
    exact telescoped.charged_eq
  charged_le := telescoped.charged_le
  free := by
    have keyed := billsUnder_self run.runId
    rw [existing_eq_none_of_rowsUnder keyed, keeps.rows, ← existing_eq_none_of_rowsUnder keyed]
    exact telescoped.free
  stored := keeps.stored
  unbilled := telescoped.unbilled

theorem record {key : String} {amount : Int} {metadata : Meta} {newId : TxId}
    {event : AuditEvent} {after : AgentDb} (telescoped : Telescoped price run db)
    (accounts_eq : after.accounts = Function.update db.accounts run.userId
      ((db.accounts run.userId).provisioned.record
        ⟨(db.accounts run.userId).balance - amount, (db.accounts run.userId).debt⟩
        ⟨newId, .debit, amount, metadata, key⟩ [event]))
    (keyed : billsUnder run.runId key = true) (differs : key ≠ run.runId)
    (nonneg : 0 ≤ amount) (covered : amount ≤ (db.accounts run.userId).balance)
    (within : run.charged + amount ≤ price) :
    Telescoped price { run with charged := run.charged + amount } after := by
  have account_eq := congrFun accounts_eq run.userId
  rw [Function.update_self] at account_eq
  constructor
  · simp only [account_eq]
    rw [chargedForRun_record keyed rfl, ← telescoped.charged_eq]
    rfl
  · exact within
  · have free := telescoped.free
    simp only [account_eq]
    rw [Account.existing_eq_none] at free ⊢
    simpa using ⟨by simpa using free, Ne.symm differs⟩
  · have stored := telescoped.stored
    simp only [account_eq, Account.row_record]
    rw [Account.balance_eq] at covered
    rw [Account.balance_eq, Account.debt_eq]
    exact stored.pay nonneg covered
  · exact telescoped.unbilled

end Telescoped

section Steps

variable {settings : Settings} {conditions : Conditions} {price : Int} {run : RunProcessing}
  {event : SseEvent} {db : AgentDb}

theorem chargeStep_taken {stepIndex want amount : Int} {record : Json} {model : Option String}
    {newId : TxId} {holder : LedgerTransaction} (positive : 0 < amount)
    (taken : (db.accounts run.userId).existing (stepKey run.runId stepIndex) = some holder) :
    chargeStep settings conditions run stepIndex want
      (stepRequest run.runId stepIndex amount record model newId) db =
        (.ok (run.charged, false), db) := by
  have replayed := Call.run_taken_incremental (settings.context run.userId)
    (stepRequest run.runId stepIndex amount record model newId) rfl rfl positive taken
  obtain ⟨account, debited⟩ : ∃ account, debit settings run.userId
      (stepRequest run.runId stepIndex amount record model newId) db =
        (.consumed ⟨(db.accounts run.userId).balance, holder.id, true, 0⟩, account) :=
    ⟨_, Prod.ext replayed rfl⟩
  simp [chargeStep, debited]

theorem chargeStep_fresh {stepIndex amount charged : Int} {depleted : Bool} {record : Json}
    {model : Option String} {newId : TxId} {after : AgentDb} (positive : 0 < amount)
    (covered : amount ≤ (db.accounts run.userId).balance)
    (stored : (db.accounts run.userId).row.Stored)
    (fresh : (db.accounts run.userId).existing (stepKey run.runId stepIndex) = none)
    (billed : chargeStep settings conditions run stepIndex amount
      (stepRequest run.runId stepIndex amount record model newId) db =
        (.ok (charged, depleted), after)) :
    depleted = false ∧ charged = run.charged + amount ∧ ∃ event, after.accounts =
      Function.update db.accounts run.userId
        ((db.accounts run.userId).provisioned.record
          ⟨(db.accounts run.userId).balance - amount, (db.accounts run.userId).debt⟩
          ((stepRequest run.runId stepIndex amount record model newId).row amount) [event]) := by
  obtain ⟨event, -, debited⟩ := Call.run_covered (settings.context run.userId)
    (stepRequest run.runId stepIndex amount record model newId) rfl stored positive covered fresh
  change debit settings run.userId _ db = _ at debited
  simp only [chargeStep, debited] at billed
  split at billed
  next replayed => cases replayed
  · split at billed
    next runs mirrored kept =>
      cases billed
      exact ⟨decide_eq_false (lt_irrefl amount), rfl, event, rfl⟩
    · cases billed

/-- Billing a step which the balance covers keeps the count in step with the ledger. -/
theorem billStep_telescoped {usage : UsageCounts} {charged : Int} {depleted : Bool}
    {after : AgentDb} (telescoped : Telescoped price run db)
    (read : extractUsageCounts event = .ok usage)
    (priced : settings.rates.price usage.inputTokens usage.outputTokens ≤ price)
    (covered : ∀ stepIndex, asInt (Json.get? event.data "step_index") = .ok stepIndex →
      settings.rates.price usage.inputTokens usage.outputTokens - run.charged ≤
        (db.accounts run.userId).balance)
    (billed : billStep settings conditions run event db = (.ok (charged, depleted), after)) :
    depleted = false ∧ Telescoped price { run with charged := charged } after := by
  simp only [billStep, read] at billed
  split at billed
  next stepIndex counts index read_eq indexed =>
    cases read_eq
    have covered := covered index indexed
    split at billed
    · cases billed
    next owed computed =>
      rw [price_of_ok computed] at covered priced
      rw [min_eq_left covered] at billed
      split at billed
      · cases billed
        exact ⟨rfl, telescoped⟩
      next owing =>
        have positive := lt_of_not_ge owing
        rw [if_pos positive] at billed
        split at billed
        · cases billed
        next record recorded =>
          cases existing : (db.accounts run.userId).existing (stepKey run.runId index) with
          | some holder =>
              rw [chargeStep_taken positive existing] at billed
              cases billed
              exact ⟨rfl, telescoped⟩
          | none =>
              obtain ⟨paid, rfl, event, accounts_eq⟩ :=
                chargeStep_fresh positive covered telescoped.stored existing billed
              refine ⟨paid, ?_⟩
              exact telescoped.record accounts_eq (billsUnder_stepKey run.runId index)
                (stepKey_ne run.runId index) positive.le covered (by omega)
  · cases billed
  · cases billed

end Steps

/-- A relay which differs from another only in what it has seen. -/
structure SameCount (run later : RunProcessing) : Prop where
  userId : later.userId = run.userId
  runId : later.runId = run.runId
  charged : later.charged = run.charged
  billed : later.billed = run.billed

section Count

variable (settings : Settings) (conditions : Conditions) (run : RunProcessing) (event : SseEvent)
  (db : AgentDb)

theorem flushSnapshot_sameCount (immediate assertApproval : Bool) (state : RelayState) :
    SameCount run (flushSnapshot settings conditions { run with state := state } immediate
      assertApproval db).1 := by
  constructor <;> simp

theorem noteAnchors_sameCount (anchors : UsageCounts) :
    SameCount run (noteAnchors settings conditions run anchors db).1 := by
  unfold noteAnchors
  simp only
  split
  · exact flushSnapshot_sameCount settings conditions run db true false _
  · exact ⟨rfl, rfl, rfl, rfl⟩

theorem noteCompleted_sameCount (usage : UsageCounts) :
    SameCount run (noteCompleted settings conditions run usage db).1 :=
  flushSnapshot_sameCount settings conditions run db true true _

theorem processEvent_unpriced (not_delta : eventKind event ≠ .usageDelta)
    (not_completed : eventKind event ≠ .runCompleted) :
    let processed := processEvent settings conditions run event db
    SameCount run processed.2.1 ∧ processed.2.2.accounts = db.accounts := by
  have flushed (immediate assertApproval : Bool) (state : RelayState) :=
    flushSnapshot_sameCount settings conditions run db immediate assertApproval state
  unfold processEvent
  split
  · simp only [onMessageDelta]
    split
    · exact ⟨flushed false false _, by simp⟩
    · exact ⟨⟨rfl, rfl, rfl, rfl⟩, rfl⟩
  · exact ⟨flushed true true _, by simp [onTool]⟩
  · exact ⟨flushed true true _, by simp⟩
  next kind => exact absurd kind not_delta
  · exact ⟨flushed true true _, by simp [onRunFailed]⟩
  next kind => exact absurd kind not_completed
  · exact ⟨⟨rfl, rfl, rfl, rfl⟩, rfl⟩

end Count

section Stream

variable {settings : Settings} {conditions : Conditions} {price : Int} {run later : RunProcessing}
  {event : SseEvent} {db after : AgentDb}

/-- The stream goes on with a relay which is in step with the ledger. -/
def GoesOn (price : Int) (run : RunProcessing)
    (outcome : Except Raised (Option PausedBlock) × RunProcessing × AgentDb) : Prop :=
  ∃ later after, outcome = (.ok none, later, after) ∧ Telescoped price later after ∧
    later.userId = run.userId ∧ later.runId = run.runId

/-- A step which raises nothing keeps the count in step with the ledger, and never pauses. -/
theorem billDelta_goesOn {usage : UsageCounts} (telescoped : Telescoped price run db)
    (read : extractUsageCounts event = .ok usage)
    (priced : settings.rates.price usage.inputTokens usage.outputTokens ≤ price)
    (covered : ∀ stepIndex, asInt (Json.get? event.data "step_index") = .ok stepIndex →
      settings.rates.price usage.inputTokens usage.outputTokens - run.charged ≤
        (db.accounts run.userId).balance)
    (unraised : ∀ raised, (billDelta settings conditions run event db).1 ≠ .error raised) :
    GoesOn price run (billDelta settings conditions run event db) := by
  unfold billDelta at unraised ⊢
  split at unraised
  next raised between stepped => exact absurd rfl (unraised raised)
  next charged depleted between stepped =>
    obtain ⟨rfl, kept⟩ := billStep_telescoped telescoped read priced covered stepped
    exact ⟨_, between, rfl, kept, rfl, rfl⟩

/-- Before `run.completed` every event which raises nothing keeps the stream going. -/
theorem processEvent_goesOn (telescoped : Telescoped price run db)
    (affords : Affords settings run event conditions db)
    (not_completed : eventKind event ≠ .runCompleted)
    (priced : eventKind event = .usageDelta → ∀ usage, extractUsageCounts event = .ok usage →
      settings.rates.price usage.inputTokens usage.outputTokens ≤ price)
    (unraised : ∀ raised, (processEvent settings conditions run event db).1 ≠ .error raised) :
    GoesOn price run (processEvent settings conditions run event db) := by
  by_cases kind : eventKind event = .usageDelta
  · simp only [processEvent, kind, onUsageDelta] at unraised ⊢
    split at unraised
    next raised unread => exact absurd rfl (unraised _)
    next anchors read =>
      have same := noteAnchors_sameCount settings conditions run db anchors
      have accounts_eq := noteAnchors_accounts settings conditions run db anchors
      have incremental_eq := (noteAnchors_run settings conditions run db anchors).2.2.1
      have noted := telescoped.congr accounts_eq same.userId same.runId same.charged same.billed
      split at unraised
      next incremental =>
        obtain ⟨later, after, billed, kept, user_eq, run_eq⟩ :=
          billDelta_goesOn noted read (priced kind anchors read)
            (fun stepIndex indexed => by
              rw [same.charged, same.userId, accounts_eq]
              exact affords.covered ⟨stepKey run.runId stepIndex, _⟩
                (by simp [billItem, kind, read, incremental_eq ▸ incremental, indexed]))
            unraised
        rw [if_pos incremental]
        exact ⟨later, after, billed, kept, user_eq.trans same.userId, run_eq.trans same.runId⟩
      next posthoc =>
        rw [if_neg posthoc]
        exact ⟨_, _, rfl, noted, same.userId, same.runId⟩
  · have idle := processEvent_unpriced settings conditions run event db kind not_completed
    have result_eq : (processEvent settings conditions run event db).1 = .ok none := by
      unfold processEvent
      split
      · rfl
      · rfl
      · rfl
      next delta => exact absurd delta kind
      · rfl
      next completed => exact absurd completed not_completed
      · rfl
    obtain ⟨same, accounts_eq⟩ := idle
    exact ⟨_, _, Prod.ext result_eq rfl,
      telescoped.congr accounts_eq same.userId same.runId same.charged same.billed,
      same.userId, same.runId⟩

/-- The run is billed in full, and this relay knows it. -/
structure Settled (price : Int) (run : RunProcessing) (db : AgentDb) : Prop where
  charged_eq : (db.accounts run.userId).chargedForRun run.runId = price
  billed : run.billed = true

theorem billCompleted_settles {usage : UsageCounts} (event : SseEvent)
    (telescoped : Telescoped price run db)
    (price_eq : usageToCredits settings.rates usage.inputTokens usage.outputTokens = .ok price)
    (covered : price - run.charged ≤ (db.accounts run.userId).balance)
    (kept : conditions.billingLost = none) :
    ∃ after, billCompleted settings conditions run event usage db = (.ok true, after) ∧
      (after.accounts run.userId).chargedForRun run.runId = price := by
  simp only [billCompleted, price_eq]
  have charged_le := telescoped.charged_le
  have charged_eq := telescoped.charged_eq
  split
  · exact ⟨db, rfl, by omega⟩
  next owing =>
    obtain ⟨audit, -, debited⟩ := Call.run_covered (settings.context run.userId)
      (completedRequest run.runId (price - run.charged) usage (extractModel event)
        conditions.newId) rfl telescoped.stored (lt_of_not_ge owing) covered telescoped.free
    change debit settings run.userId _ db = _ at debited
    rw [debited, kept]
    refine ⟨_, rfl, ?_⟩
    simp only [AgentDb.putAccount, Function.update_self]
    rw [chargedForRun_record (billsUnder_self run.runId) rfl]
    change (db.accounts run.userId).chargedForRun run.runId + (price - run.charged) = price
    omega

theorem processEvent_settles {usage : UsageCounts} (telescoped : Telescoped price run db)
    (affords : Affords settings run event conditions db)
    (kind : eventKind event = .runCompleted) (read : extractUsageCounts event = .ok usage)
    (price_eq : usageToCredits settings.rates usage.inputTokens usage.outputTokens = .ok price) :
    ∃ later after, processEvent settings conditions run event db = (.ok none, later, after) ∧
      Settled price later after ∧ later.userId = run.userId ∧ later.runId = run.runId := by
  have same := noteCompleted_sameCount settings conditions run db usage
  have accounts_eq := noteCompleted_accounts settings conditions run db usage
  have noted := telescoped.congr accounts_eq same.userId same.runId same.charged same.billed
  have covered : price - run.charged ≤ (db.accounts run.userId).balance :=
    affords.covered ⟨run.runId, price - run.charged⟩
      (by simp [billItem, kind, read, telescoped.unbilled, price_of_ok price_eq])
  obtain ⟨after, billed, charged_eq⟩ := billCompleted_settles event noted price_eq
    (by rw [same.charged, same.userId, accounts_eq]; exact covered) affords.kept
  refine ⟨{ (noteCompleted settings conditions run usage db).1 with billed := true }, after, ?_,
    ⟨charged_eq, rfl⟩, same.userId, same.runId⟩
  simp [processEvent, kind, onRunCompleted, read, noted.unbilled, billed]

theorem processEvent_settled (settings : Settings) (conditions : Conditions)
    (settled : Settled price run db) (not_delta : eventKind event ≠ .usageDelta) :
    let processed := processEvent settings conditions run event db
    Settled price processed.2.1 processed.2.2 ∧ processed.2.1.userId = run.userId ∧
      processed.2.1.runId = run.runId := by
  have accounts_eq : (processEvent settings conditions run event db).2.2.accounts =
      db.accounts := by
    rcases processEvent_charges settings conditions run event db with same | ⟨bill, billed, -⟩
    · exact same
    · unfold billItem at billed
      split at billed
      next kind read => exact absurd kind not_delta
      next kind read =>
        rw [settled.billed, if_pos rfl] at billed
        cases billed
      · cases billed
  have same : SameCount run (processEvent settings conditions run event db).2.1 := by
    by_cases kind : eventKind event = .runCompleted
    · simp only [processEvent, kind, onRunCompleted]
      split
      · exact ⟨rfl, rfl, rfl, rfl⟩
      next usage read =>
        have noted := noteCompleted_sameCount settings conditions run db usage
        rw [noted.billed, settled.billed, if_pos rfl]
        exact noted
    · exact (processEvent_unpriced settings conditions run event db not_delta kind).1
  refine ⟨⟨?_, ?_⟩, same.userId, same.runId⟩
  · rw [accounts_eq, same.userId, same.runId]
    exact settled.charged_eq
  · rw [same.billed]
    exact settled.billed

/-- A stream before `run.completed` which raises nothing runs through, in step with the
ledger. -/
theorem relay_goesOn (stream : List StreamStep) (telescoped : Telescoped price run db)
    (steady : Steady settings stream run db)
    (running : EachEvent (fun event => eventKind event ≠ .runCompleted) stream)
    (priced : EachEvent (fun event => eventKind event = .usageDelta →
      ∀ usage, extractUsageCounts event = .ok usage →
        settings.rates.price usage.inputTokens usage.outputTokens ≤ price) stream)
    (unraised : ∀ raised, (relay settings stream run db).1 ≠ .error raised) :
    GoesOn price run (relay settings stream run db) := by
  induction stream generalizing run db with
  | nil => exact ⟨run, db, rfl, telescoped, rfl, rfl⟩
  | cons step later induction =>
      have running_later : EachEvent _ later := fun event conditions listed =>
        running event conditions (.tail _ listed)
      have priced_later : EachEvent _ later := fun event conditions listed =>
        priced event conditions (.tail _ listed)
      cases step with
      | elsewhere other =>
          exact induction (telescoped.elsewhere steady.1) steady.2 running_later priced_later
            unraised
      | event event conditions =>
          obtain ⟨affords, steady_later⟩ := steady
          have unraised_event (raised : Raised) :
              (processEvent settings conditions run event db).1 ≠ .error raised := by
            intro raises
            apply unraised raised
            unfold relay
            split
            next processed =>
              rw [processed] at raises
              cases raises
            · exact raises
          obtain ⟨between, after, processed, kept, user_eq, run_eq⟩ :=
            processEvent_goesOn telescoped affords (running event conditions (.head _))
              (priced event conditions (.head _)) unraised_event
          simp only [relay, processed] at unraised steady_later ⊢
          obtain ⟨last, final, ran, settled, last_user, last_run⟩ :=
            induction kept steady_later running_later priced_later unraised
          exact ⟨last, final, ran, settled, last_user.trans user_eq, last_run.trans run_eq⟩

/-- After `run.completed` the ledger of a run stands, whatever else its stream brings. -/
theorem relay_settled (stream : List StreamStep) (settled : Settled price run db)
    (steady : Steady settings stream run db)
    (ended : EachEvent (fun event => eventKind event ≠ .usageDelta) stream) :
    ((relay settings stream run db).2.2.accounts run.userId).chargedForRun run.runId = price := by
  induction stream generalizing run db with
  | nil => exact settled.charged_eq
  | cons step later induction =>
      have ended_later : EachEvent _ later := fun event conditions listed =>
        ended event conditions (.tail _ listed)
      cases step with
      | elsewhere other =>
          have charged_eq : (other.accounts run.userId).chargedForRun run.runId = price := by
            rw [chargedForRun_eq, steady.1.rows, ← chargedForRun_eq]
            exact settled.charged_eq
          exact induction ⟨charged_eq, settled.billed⟩ steady.2 ended_later
      | event event conditions =>
          have kept := processEvent_settled settings conditions settled
            (ended event conditions (.head _))
          obtain ⟨-, steady_later⟩ := steady
          unfold relay
          split
          next between after processed =>
            simp only [processed] at kept steady_later
            obtain ⟨kept, user_eq, run_eq⟩ := kept
            rw [← user_eq, ← run_eq]
            exact induction kept steady_later ended_later
          · obtain ⟨kept, user_eq, run_eq⟩ := kept
            rw [← user_eq, ← run_eq]
            exact kept.charged_eq

theorem relay_append (before rest : List StreamStep)
    (ran : relay settings before run db = (.ok none, later, after)) :
    relay settings (before ++ rest) run db = relay settings rest later after := by
  induction before generalizing run db with
  | nil =>
      cases ran
      rfl
  | cons step before induction =>
      cases step with
      | elsewhere other => exact induction ran
      | event event conditions =>
          simp only [relay, List.cons_append] at ran ⊢
          split at ran
          next processed => exact induction ran
          next unfinished =>
            rw [ran] at unfinished
            exact absurd rfl (unfinished later after)

theorem Steady.append_left {before rest : List StreamStep}
    (steady : Steady settings (before ++ rest) run db) : Steady settings before run db := by
  induction before generalizing run db with
  | nil => trivial
  | cons step before induction =>
      cases step with
      | elsewhere other => exact ⟨steady.1, induction steady.2⟩
      | event event conditions =>
          refine ⟨steady.1, ?_⟩
          have steady_later := steady.2
          split at steady_later
          next processed => exact induction steady_later
          · trivial

theorem Steady.append_right {before rest : List StreamStep}
    (steady : Steady settings (before ++ rest) run db)
    (ran : relay settings before run db = (.ok none, later, after)) :
    Steady settings rest later after := by
  induction before generalizing run db with
  | nil =>
      cases ran
      exact steady
  | cons step before induction =>
      cases step with
      | elsewhere other => exact induction steady.2 ran
      | event event conditions =>
          have steady_later := steady.2
          simp only [relay] at ran
          split at ran
          next processed =>
            simp only [processed] at steady_later
            exact induction steady_later ran
          next unfinished =>
            rw [ran] at unfinished
            exact absurd rfl (unfinished later after)

end Stream

theorem newRunProcessing_telescoped (settings : Settings) {userId : UserId} {runId : String}
    {db : AgentDb} {price : Int} (nonneg : 0 ≤ price)
    (unbilled : rowsUnder (db.accounts userId) runId = [])
    (stored : (db.accounts userId).row.Stored) :
    Telescoped price (newRunProcessing settings userId runId db) db := by
  have nothing : (db.accounts userId).chargedForRun runId = 0 := by
    rw [chargedForRun_eq, unbilled]
    rfl
  have charged_eq : (newRunProcessing settings userId runId db).charged = 0 := by
    simp only [newRunProcessing, nothing, ite_self]
  constructor
  · exact nothing.trans charged_eq.symm
  · rw [charged_eq]
    exact nonneg
  · change (db.accounts userId).existing runId = none
    rw [existing_eq_none_of_rowsUnder (billsUnder_self runId), unbilled]
    simp
  · exact stored
  · rfl

/-- A stream nobody interferes with can be paid for, event by event. -/
def paid (settings : Settings) : List (SseEvent × Conditions) → RunProcessing → AgentDb → Bool
  | [], _, _ => true
  | (event, conditions) :: later, run, db =>
      (billItem settings run event).all
          (fun bill => decide (bill.amount ≤ (db.accounts run.userId).balance)) &&
        conditions.billingLost.isNone &&
        match processEvent settings conditions run event db with
        | (.ok none, run, db) => paid settings later run db
        | _ => true

theorem steady_of_paid {settings : Settings} {run : RunProcessing} {db : AgentDb}
    (events : List (SseEvent × Conditions)) (covered : paid settings events run db = true) :
    Steady settings (events.map fun entry => .event entry.1 entry.2) run db := by
  induction events generalizing run db with
  | nil => trivial
  | cons entry later induction =>
      obtain ⟨event, conditions⟩ := entry
      simp only [paid, Bool.and_eq_true] at covered
      obtain ⟨⟨affordable, kept⟩, rest⟩ := covered
      refine ⟨⟨?_, by simpa using kept⟩, ?_⟩
      · intro bill billed
        simpa [billed] using affordable
      · split at rest
        next processed =>
          simp only [processed]
          exact induction rest
        · trivial

/-- Steps and remainder come to the price of the final usage: one relay follows a run nobody has
billed, by steps or not, with rates which are not negative, a balance which covers every bill, and
a final usage which no step exceeds.  Whatever the step indices, once `run.completed` has been
processed the debits of the run are the price of its final usage.  Exact rates give every usage a
price, floats do as long as nothing overflows. -/
theorem relay_total_eq_price {settings : Settings} (nonneg : settings.rates.Nonneg)
    {userId : UserId} {runId : String} {db : AgentDb}
    (unbilled : rowsUnder (db.accounts userId) runId = [])
    (stored : (db.accounts userId).row.Stored)
    (before after : List StreamStep) (completed : SseEvent) (conditions : Conditions)
    (final : UsageCounts)
    (steady : Steady settings (before ++ .event completed conditions :: after)
      (newRunProcessing settings userId runId db) db)
    (running : EachEvent (fun event => eventKind event ≠ .runCompleted) before)
    (dominated : EachEvent (fun event => eventKind event = .usageDelta →
      ∀ usage, extractUsageCounts event = .ok usage →
        usage.inputTokens ≤ final.inputTokens ∧ usage.outputTokens ≤ final.outputTokens) before)
    (is_completed : eventKind completed = .runCompleted)
    (read : extractUsageCounts completed = .ok final)
    (ended : EachEvent (fun event => eventKind event ≠ .usageDelta) after)
    (unraised : ∀ raised,
      (relay settings before (newRunProcessing settings userId runId db) db).1 ≠ .error raised) :
    let outcome := relay settings (before ++ .event completed conditions :: after)
      (newRunProcessing settings userId runId db) db
    ∀ price, usageToCredits settings.rates final.inputTokens final.outputTokens = .ok price →
      (outcome.2.2.accounts userId).chargedForRun runId = price := by
  intro outcome price price_eq
  have telescoped := newRunProcessing_telescoped settings (usageToCredits_nonneg price_eq)
    unbilled stored
  have priced : EachEvent (fun event => eventKind event = .usageDelta →
      ∀ usage, extractUsageCounts event = .ok usage →
        settings.rates.price usage.inputTokens usage.outputTokens ≤ price) before := by
    intro event conditions listed kind usage counted
    obtain ⟨input_le, output_le⟩ := dominated event conditions listed kind usage counted
    obtain ⟨less, computed, less_le⟩ := usageToCredits_mono nonneg input_le output_le price_eq
    rw [price_of_ok computed]
    exact less_le
  obtain ⟨run, between, ran, kept, user_eq, run_eq⟩ :=
    relay_goesOn before telescoped steady.append_left running priced unraised
  obtain ⟨affords, steady_later⟩ := steady.append_right ran
  obtain ⟨settledRun, settledDb, processed, settled, settled_user, settled_run⟩ :=
    processEvent_settles kept affords is_completed read price_eq
  simp only [processed] at steady_later
  have total_eq := relay_settled after settled steady_later ended
  rw [settled_user, settled_run, user_eq, run_eq] at total_eq
  simp only [outcome, relay_append before _ ran, relay, processed]
  exact total_eq

/-- An event which carries cumulative counts, with or without a step index. -/
def usageEvent (name : String) (stepIndex : Option Int) (inputTokens outputTokens : Int) :
    SseEvent where
  name := some name
  data := (stepIndex.map fun index => ("step_index", Json.int index)).toList ++
    [("cumulative_input_tokens", .int inputTokens),
      ("cumulative_output_tokens", .int outputTokens)]

/-- A user with a hundred credits and nothing else. -/
def fundedDb : AgentDb where
  accounts := fun _ => { wallet := some ⟨100, 0⟩ }

def steppedSettings (rates : Rates) : Settings where
  rates := rates
  agentIncrementalBillingEnabled := true
  agentDebtReconcileEnabled := true
  agentStateFlushIntervalSeconds := 2
  agentStateResultTextMaxChars := 100

theorem fundedDb_stored : (fundedDb.accounts ⟨1⟩).row.Stored :=
  ⟨by decide, by decide, by decide, by decide⟩

/-- A step whose index repeats with a larger count, and one without an index. -/
def repeatedSteps : List (SseEvent × Conditions) :=
  [(usageEvent "usage.delta" (some 1) 1000 0, { newId := ⟨1⟩ }),
    (usageEvent "usage.delta" (some 1) 3000 0, { newId := ⟨2⟩ }),
    (usageEvent "usage.delta" none 4000 100, { newId := ⟨3⟩ })]

theorem repeated_steps_total :
    let db := fundedDb
    let settings := steppedSettings (.exact 1 5)
    let stream := repeatedSteps.map fun entry => StreamStep.event entry.1 entry.2
    let outcome := relay settings
      (stream ++ [.event (usageEvent "run.completed" none 5000 200) { newId := ⟨4⟩ }])
      (newRunProcessing settings ⟨1⟩ "run" db) db
    (outcome.2.2.accounts ⟨1⟩).chargedForRun "run" = 6 := by
  intro db settings stream outcome
  have nonneg : (Rates.exact 1 5).Nonneg := ⟨by norm_num, by norm_num⟩
  refine @relay_total_eq_price settings nonneg ⟨1⟩ "run" db rfl fundedDb_stored stream
    [] (usageEvent "run.completed" none 5000 200) { newId := ⟨4⟩ }
    ⟨5000, 200, 0, true, false, ["top.cumulative"], false, false⟩ ?_ ?_ ?_ rfl rfl ?_ ?_ 6
    (by decide +kernel)
  · have covered : paid settings
        (repeatedSteps ++ [(usageEvent "run.completed" none 5000 200, { newId := ⟨4⟩ })])
        (newRunProcessing settings ⟨1⟩ "run" db) db = true := by decide +kernel
    exact steady_of_paid _ covered
  · intro event conditions listed
    simp only [stream, repeatedSteps, List.map_cons, List.map_nil, List.mem_cons,
      StreamStep.event.injEq, List.not_mem_nil, or_false] at listed
    rcases listed with ⟨rfl, -⟩ | ⟨rfl, -⟩ | ⟨rfl, -⟩ <;> decide
  · intro event conditions listed _ usage read
    simp only [stream, repeatedSteps, List.map_cons, List.map_nil, List.mem_cons,
      StreamStep.event.injEq, List.not_mem_nil, or_false] at listed
    rcases listed with ⟨rfl, -⟩ | ⟨rfl, -⟩ | ⟨rfl, -⟩ <;> cases read <;> decide
  · intro event conditions listed
    cases listed
  · have unraised : ((relay settings stream (newRunProcessing settings ⟨1⟩ "run" db) db).1).isOk =
        true := by decide +kernel
    intro raised raises
    rw [raises] at unraised
    cases unraised

/-- One step and the completion of a run whose later usage is input only. -/
def cheaperLater : List (SseEvent × Conditions) :=
  [(usageEvent "usage.delta" (some 1) 0 1000, { newId := ⟨1⟩ }),
    (usageEvent "run.completed" none 4000 1000, { newId := ⟨2⟩ })]

/-- With a negative input rate more usage costs less, and steps exceed the final price. -/
theorem negative_rate_exceeds_price :
    let settings := steppedSettings (.exact (-1) 5)
    let stream := cheaperLater.map fun entry => StreamStep.event entry.1 entry.2
    let run := newRunProcessing settings ⟨1⟩ "run" fundedDb
    let final : UsageCounts := ⟨4000, 1000, 0, true, false, ["top.cumulative"], false, false⟩
    rowsUnder (fundedDb.accounts ⟨1⟩) "run" = [] ∧ Steady settings stream run fundedDb ∧
      extractUsageCounts (usageEvent "run.completed" none 4000 1000) = .ok final ∧
      EachEvent (fun event => ∀ usage, extractUsageCounts event = .ok usage →
        usage.inputTokens ≤ final.inputTokens ∧ usage.outputTokens ≤ final.outputTokens) stream ∧
      ((relay settings stream run fundedDb).2.2.accounts ⟨1⟩).chargedForRun "run" = 5 ∧
      usageToCredits settings.rates final.inputTokens final.outputTokens = .ok 1 := by
  intro settings stream run final
  have covered : paid settings cheaperLater run fundedDb = true := by decide +kernel
  refine ⟨rfl, steady_of_paid cheaperLater covered, rfl, ?_, by decide +kernel, by decide +kernel⟩
  intro event conditions listed usage read
  simp only [stream, cheaperLater, List.map_cons, List.map_nil, List.mem_cons,
    StreamStep.event.injEq, List.not_mem_nil, or_false] at listed
  rcases listed with ⟨rfl, -⟩ | ⟨rfl, -⟩ <;> cases read <;> decide

end Hermes.AgentProxy
