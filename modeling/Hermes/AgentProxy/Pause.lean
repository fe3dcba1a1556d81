import Hermes.AgentProxy.Incremental
import Hermes.AgentProxy.Lifecycle
import Hermes.AgentProxy.Overcharge
import Hermes.Wallet.Idempotency

/-!
# Pausing a run whose wallet is empty

A step which the wallet cannot cover takes what is left and pauses the run.  The pause first stops
the run upstream, and what that call raises leaves `process_event` before the row is written: the
run stays active then.
-/

namespace Hermes.AgentProxy

open Wallet

inductive StopCall
  /-- `ensure_running` raises. -/
  | unavailable
  /-- The budget of the request elapses. -/
  | timedOut
  /-- `httpx.HTTPError`. -/
  | networkError
  | answered (status : Int)
  deriving DecidableEq, Repr

/-- `_passthrough_post`, of which `_interrupt_run` ignores the body. -/
def passthroughPost : StopCall → Except Raised Unit
  | .answered status => if 200 ≤ status ∧ status < 300 then .ok () else .error .upstream
  | .unavailable | .timedOut | .networkError => .error .upstream

/-- `_interrupt_run` raises. -/
def StopCall.raises (stop : StopCall) : Bool :=
  match passthroughPost stop with
  | .ok () => false
  | .error _ => true

/-- What a relay or a consumer meets, with the outcome of the stop call it may make. -/
inductive Delivery
  | event (event : SseEvent) (conditions : Conditions) (stop : StopCall)
  | elsewhere (db : AgentDb)

/-- The outcome of the stop call is one of the conditions. -/
def Delivery.step : Delivery → StreamStep
  | .event block conditions stop =>
      .event block { conditions with interruptFails := stop.raises }
  | .elsewhere db => .elsewhere db

/-- An event, and where its processing starts. -/
structure Handling where
  run : RunProcessing
  event : SseEvent
  conditions : Conditions
  db : AgentDb

def Handling.outcome (settings : Settings) (handling : Handling) :
    Except Raised (Option PausedBlock) × RunProcessing × AgentDb :=
  processEvent settings handling.conditions handling.run handling.event handling.db

/-- The events which the loop gets to, each with its start. -/
def handlings (settings : Settings) : List StreamStep → RunProcessing → AgentDb → List Handling
  | [], _, _ => []
  | .elsewhere db :: later, run, _ => handlings settings later run db
  | .event event conditions :: later, run, db =>
      ⟨run, event, conditions, db⟩ ::
        match processEvent settings conditions run event db with
        | (.ok none, run, db) => handlings settings later run db
        | _ => []

def statusOf (runs : Runs) (runId : String) : Option RunStatus :=
  (runs.get runId).map (·.status)

/-- The billing step which the event leads to. -/
def Handling.billing (settings : Settings) (handling : Handling) :
    Option (Except Raised (Int × Bool) × AgentDb) :=
  match eventKind handling.event, extractUsageCounts handling.event with
  | .usageDelta, .ok anchors =>
      let noted := noteAnchors settings handling.conditions handling.run anchors handling.db
      if noted.1.incremental then
        some (billStep settings handling.conditions noted.1 handling.event noted.2)
      else none
  | _, _ => none

/-- What the relay has not charged of the price which the event reports. -/
def Handling.due (settings : Settings) (handling : Handling) : Int :=
  match extractUsageCounts handling.event with
  | .ok usage =>
      settings.rates.price usage.inputTokens usage.outputTokens - handling.run.charged
  | .error _ => 0

/-- The billing step leaves nothing in the wallet, having taken the last of it or found none. -/
def Handling.Empties (settings : Settings) (handling : Handling) : Prop :=
  ∃ charged depleted billed,
    handling.billing settings = some (.ok (charged, depleted), billed) ∧
      (billed.accounts handling.run.userId).balance ≤ 0 ∧
      (handling.run.charged < charged ∨ depleted = true)

/-- The row of the run ends paused, or has ended before. -/
def Handling.Pauses (settings : Settings) (handling : Handling) : Prop :=
  statusOf (handling.outcome settings).2.2.runs handling.run.runId =
    (statusOf handling.db.runs handling.run.runId).map fun status =>
      if status.active then .paused else status

/-- When an empty wallet pauses the run: it has ended before, or the wallet does not cover the
step, the stop call succeeds and the row is written. -/
def Handling.Pausable (settings : Settings) (handling : Handling) : Prop :=
  (∀ status, statusOf handling.db.runs handling.run.runId = some status →
    status.active = false) ∨
  (handling.db.accounts handling.run.userId).balance < handling.due settings ∧
    handling.conditions.interruptFails = false ∧ handling.conditions.statusLost = false

section Status

variable {settings : Settings} {conditions : Conditions} {run : RunProcessing} {db : AgentDb}

theorem statusOf_update (runs : Runs) (runId : String) (guard : AgentRun → Bool)
    {change : AgentRun → AgentRun} (keeps : KeepsIdentity change) :
    statusOf (runs.update runId guard change) runId =
      (runs.get runId).map fun row => if guard row then (change row).status else row.status := by
  rw [statusOf, get_update keeps, Option.map_map]
  cases found : runs.get runId with
  | none => rfl
  | some row =>
      have mine : row.runId = runId := by simpa using List.find?_some found
      simp only [Option.map_some, Function.comp_apply, mine, true_and]
      split <;> rfl

theorem statusOf_markPaused (runs : Runs) (runId reason : String) :
    statusOf (runs.markPaused runId reason) runId =
      (statusOf runs runId).map fun status => if status.active then .paused else status := by
  refine Eq.trans (statusOf_update runs runId _ ?_) ?_
  · exact ⟨fun _ => rfl, fun _ => rfl⟩
  rw [statusOf, Option.map_map]
  rfl

theorem statusOf_recordStep {runs after : Runs} {runId : String} {stepIndex credits : Int}
    (recorded : runs.recordStep runId stepIndex credits = .ok after) :
    statusOf after runId = statusOf runs runId := by
  rw [Lifecycle.recordStep_eq recorded]
  refine Eq.trans (statusOf_update runs runId _ ?_) ?_
  · exact ⟨fun _ => rfl, fun _ => rfl⟩
  simp [statusOf]

@[simp] theorem writeSnapshot_runs (incoming : RunSnapshot) (assertApproval : Bool) :
    (writeSnapshot conditions incoming assertApproval db).runs = db.runs := by
  unfold writeSnapshot
  repeat' split
  all_goals rfl

@[simp] theorem flushSnapshot_runs (immediate assertApproval : Bool) :
    (flushSnapshot settings conditions run immediate assertApproval db).2.runs = db.runs := by
  unfold flushSnapshot
  split
  · rfl
  · simp

@[simp] theorem noteAnchors_runs (anchors : UsageCounts) :
    (noteAnchors settings conditions run anchors db).2.runs = db.runs := by
  unfold noteAnchors
  simp only
  split <;> simp

theorem statusOf_pauseRun :
    statusOf (pauseRun settings conditions run db).2.2.runs run.runId =
      if conditions.interruptFails = false ∧ conditions.statusLost = false then
        (statusOf db.runs run.runId).map fun status => if status.active then .paused else status
      else statusOf db.runs run.runId := by
  unfold pauseRun
  split
  next fails => rw [if_neg (by simp [fails])]
  next stopped =>
    simp only
    split
    next lost => rw [if_neg (by simp [lost]), flushSnapshot_runs]
    next written =>
      rw [if_pos ⟨by simpa using stopped, by simpa using written⟩, statusOf_markPaused,
        flushSnapshot_runs]

end Status

section Step

variable {settings : Settings} {conditions : Conditions} {run : RunProcessing}
  {event : SseEvent} {db billed : AgentDb} {charged : Int} {depleted : Bool}

theorem debit_step {stepIndex charge : Int} {usage : Json} {model : Option String} {newId : TxId}
    {result : ConsumeResult} {account : Account}
    (debited : debit settings run.userId (stepRequest run.runId stepIndex charge usage model newId)
      db = (.consumed result, account)) (fresh : result.idempotentReplay = false)
    (covered : charge ≤ (db.accounts run.userId).balance)
    (positive : 0 < charge) :
    result.chargedAmount = charge ∧
      account.balance = (db.accounts run.userId).balance - charge := by
  rcases Call.consume_cases (settings.context run.userId)
      (stepRequest run.runId stepIndex charge usage model newId) .commit
      (db.accounts run.userId) with ⟨failure, ran⟩ | ⟨raised, -, ran⟩ |
    ⟨answer, after, -, -, effect, ran⟩
  · cases debited.symm.trans ran
  · cases debited.symm.trans ran
  · have same := debited.symm.trans ran
    cases effect with
    | insufficient plain => cases plain
    | mismatched holder message plain => cases plain
    | accrued plain => cases plain
    | replayed holder taken =>
        cases same
        cases fresh
    | drained incremental vacant empty =>
        rw [Account.balance_provisioned] at empty
        omega
    | charged amount posted vacant some_taken within solvent due =>
        cases same
        rw [Account.balance_provisioned] at within due ⊢
        have whole : amount = charge := by
          rcases due with whole | ⟨-, clamped⟩
          · exact whole
          · exact clamped.trans (min_eq_left covered)
        subst whole
        exact ⟨rfl, rfl⟩

/-- A step whose debit leaves nothing was depleted exactly if the balance did not cover it, and
the status of the run is as before. -/
theorem chargeStep_emptied {stepIndex want : Int} {usage : Json} {model : Option String}
    {newId : TxId}
    (ran : chargeStep settings conditions run stepIndex want (stepRequest run.runId stepIndex
      (min want (db.accounts run.userId).balance) usage model newId) db =
        (.ok (charged, depleted), billed))
    (positive : 0 < min want (db.accounts run.userId).balance)
    (empty : (billed.accounts run.userId).balance ≤ 0)
    (moved : run.charged < charged ∨ depleted = true) :
    statusOf billed.runs run.runId = statusOf db.runs run.runId ∧
      (depleted = true ↔ (db.accounts run.userId).balance < want) := by
  unfold chargeStep at ran
  split at ran
  next result account debited =>
    split at ran
    · cases ran
      rcases moved with more | wrong
      · exact absurd more (lt_irrefl _)
      · cases wrong
    next fresh =>
      obtain ⟨taken, left⟩ := debit_step debited (by simpa using fresh) (min_le_right _ _) positive
      simp only at ran
      split at ran
      next runs mirrored committed =>
        cases ran
        constructor
        · split at mirrored
          · exact statusOf_recordStep mirrored
          · cases mirrored
            rfl
        · simp only [AgentDb.putAccount, Function.update_self] at empty
          rw [decide_eq_true_eq, taken]
          omega
      · cases ran
  · cases ran
  · cases ran

theorem billStep_emptied {usage : UsageCounts} (read : extractUsageCounts event = .ok usage)
    (ran : billStep settings conditions run event db = (.ok (charged, depleted), billed))
    (empty : (billed.accounts run.userId).balance ≤ 0)
    (moved : run.charged < charged ∨ depleted = true) :
    statusOf billed.runs run.runId = statusOf db.runs run.runId ∧
      (depleted = true ↔ (db.accounts run.userId).balance <
        settings.rates.price usage.inputTokens usage.outputTokens - run.charged) := by
  unfold billStep at ran
  rw [read] at ran
  split at ran
  next counted stepIndex same indexed =>
    cases same
    split at ran
    · cases ran
    next owed priced =>
      rw [price_of_ok priced]
      simp only at ran
      split at ran
      · cases ran
        rcases moved with more | wrong
        · exact absurd more (lt_irrefl _)
        · cases wrong
      next owing =>
        split at ran
        next positive =>
          split at ran
          · cases ran
          · exact chargeStep_emptied ran positive empty moved
        next nothing =>
          cases ran
          exact ⟨rfl, iff_of_true rfl (by omega)⟩
  · cases ran
  · cases ran

end Step

section Handling

variable {settings : Settings} {handling : Handling}

/-- What becomes of a run whose wallet a billing step has emptied. -/
structure Handling.Emptied (settings : Settings) (handling : Handling) (depleted : Bool) :
    Prop where
  short : depleted = true ↔
    (handling.db.accounts handling.run.userId).balance < handling.due settings
  status : statusOf (handling.outcome settings).2.2.runs handling.run.runId =
    if depleted = true ∧ handling.conditions.interruptFails = false ∧
        handling.conditions.statusLost = false then
      (statusOf handling.db.runs handling.run.runId).map fun status =>
        if status.active then .paused else status
    else statusOf handling.db.runs handling.run.runId
  ends : depleted = true → ∀ run db, handling.outcome settings ≠ (.ok none, run, db)

theorem pauseRun_ends {conditions : Conditions} {run : RunProcessing} {db : AgentDb} :
    ∀ later after, pauseRun settings conditions run db ≠ (.ok none, later, after) := by
  intro later after ended
  unfold pauseRun at ended
  split at ended
  · cases ended
  · simp only at ended
    split at ended
    · cases ended
    · cases ended

theorem Handling.Empties.emptied (empties : handling.Empties settings) :
    ∃ depleted, handling.Emptied settings depleted := by
  obtain ⟨run, event, conditions, db⟩ := handling
  obtain ⟨charged, depleted, billed, billing, empty, moved⟩ := empties
  unfold Handling.billing at billing
  split at billing
  swap
  · cases billing
  next anchors kind read =>
    simp only at kind read billing empty moved
    split at billing
    swap
    · cases billing
    next incremental =>
      rw [Option.some_inj] at billing
      obtain ⟨user_eq, run_eq, -, charged_eq⟩ :=
        noteAnchors_run settings conditions run db anchors
      rw [← user_eq] at empty
      rw [← charged_eq] at moved
      obtain ⟨kept, short⟩ := billStep_emptied read billing empty moved
      rw [user_eq, noteAnchors_accounts, charged_eq] at short
      rw [run_eq, noteAnchors_runs] at kept
      have outcome_eq : Handling.outcome settings ⟨run, event, conditions, db⟩ =
          if depleted then
            pauseRun settings conditions
              { (noteAnchors settings conditions run anchors db).1 with charged := charged } billed
          else
            (.ok none, { (noteAnchors settings conditions run anchors db).1 with
              charged := charged }, billed) := by
        simp only [Handling.outcome, processEvent, kind, onUsageDelta, read, incremental, if_true,
          billDelta, billing]
      refine ⟨depleted, ?_, ?_, ?_⟩
      · rw [short]
        simp only [Handling.due, read]
      · rw [outcome_eq]
        cases depleted with
        | true =>
            rw [if_pos rfl]
            simp only [true_and, ← kept]
            rw [← run_eq]
            exact statusOf_pauseRun
        | false => exact kept
      · rw [outcome_eq]
        intro pausing
        rw [if_pos pausing]
        exact pauseRun_ends

theorem Handling.Empties.pauses_iff (empties : handling.Empties settings) :
    handling.Pauses settings ↔ handling.Pausable settings := by
  obtain ⟨depleted, short, status_eq, -⟩ := empties.emptied
  unfold Handling.Pauses Handling.Pausable
  rw [← short, status_eq]
  split
  next pausing => exact iff_of_true rfl (.inr pausing)
  next going =>
    rw [or_iff_left going]
    cases found : statusOf handling.db.runs handling.run.runId with
    | none => simp
    | some status => cases status <;> simp [RunStatus.active]

end Handling

theorem relay_of_ends {settings : Settings} {stream : List StreamStep} {run : RunProcessing}
    {db : AgentDb} {handling : Handling} (handled : handling ∈ handlings settings stream run db)
    (ends : ∀ later after, handling.outcome settings ≠ (.ok none, later, after)) :
    relay settings stream run db = handling.outcome settings := by
  induction stream generalizing run db with
  | nil => cases handled
  | cons head later induction =>
      cases head with
      | elsewhere other => exact induction handled
      | event block conditions =>
          have continues (next_run : RunProcessing) (next_db : AgentDb)
              (went : processEvent settings conditions run block db =
                (.ok none, next_run, next_db)) :
              relay settings (.event block conditions :: later) run db =
                relay settings later next_run next_db := by
            rw [relay, went]
          rw [handlings] at handled
          rcases List.mem_cons.mp handled with rfl | beyond
          · change _ = processEvent settings conditions run block db
            rw [relay]
            split
            next next_run next_db went => exact absurd went (ends next_run next_db)
            next ended => rfl
          · split at beyond
            next next_run next_db went =>
              rw [continues next_run next_db went]
              exact induction beyond
            next ended => cases beyond

/-- For every run, event sequence and outcome of the stop calls, whatever happens in between: each
billing step which empties the wallet leaves the run paused or ended if and only if each such step
finds the run ended, or an uncovered price, a stop call which succeeds and a row which is written.
A step which the wallet does not cover is the last of its relay, which ends as that step does. -/
theorem depletion_pauses_iff (settings : Settings) (deliveries : List Delivery)
    (run : RunProcessing) (db : AgentDb) :
    ((∀ handling ∈ handlings settings (deliveries.map Delivery.step) run db,
        handling.Empties settings → handling.Pauses settings) ↔
      ∀ handling ∈ handlings settings (deliveries.map Delivery.step) run db,
        handling.Empties settings → handling.Pausable settings) ∧
    ∀ handling ∈ handlings settings (deliveries.map Delivery.step) run db,
      handling.Empties settings →
        (handling.db.accounts handling.run.userId).balance < handling.due settings →
          relay settings (deliveries.map Delivery.step) run db = handling.outcome settings := by
  constructor
  · constructor
    · intro pauses handling handled empties
      exact empties.pauses_iff.mp (pauses handling handled empties)
    · intro pausable handling handled empties
      exact empties.pauses_iff.mpr (pausable handling handled empties)
  · intro handling handled empties uncovered
    obtain ⟨depleted, emptied⟩ := empties.emptied
    exact relay_of_ends handled (emptied.ends (emptied.short.mpr uncovered))

instance (settings : Settings) (handling : Handling) : Decidable (handling.Empties settings) :=
  match billing : handling.billing settings with
  | some (.ok (charged, depleted), billed) =>
      decidable_of_iff ((billed.accounts handling.run.userId).balance ≤ 0 ∧
        (handling.run.charged < charged ∨ depleted = true))
        ⟨fun empty => ⟨charged, depleted, billed, billing, empty⟩, by
          rintro ⟨_, _, _, same, empty⟩
          rw [billing] at same
          cases same
          exact empty⟩
  | some (.error _, _) => isFalse (by
      rintro ⟨_, _, _, same, -⟩
      rw [billing] at same
      cases same)
  | none => isFalse (by
      rintro ⟨_, _, _, same, -⟩
      rw [billing] at same
      cases same)

instance (settings : Settings) (handling : Handling) : Decidable (handling.Pauses settings) :=
  inferInstanceAs (Decidable (_ = _))

namespace Sample

/-- A running run of a user with a hundred credits. -/
def hundredCredits : AgentDb :=
  { accounts := Accounts.empty.step (BillingSystem.purchase ⟨1⟩)
    runs := [{ runId := "run", userId := ⟨1⟩, sessionId := "", status := .running,
               createdAt := 0 }] }

/-- Its first step costs two hundred. -/
def costlyStep (stop : StopCall) : List StreamStep :=
  [(Delivery.event (BillingSystem.usageDelta 1 200000) { newId := ⟨1⟩ } stop).step]

end Sample

/-- The step takes the hundred credits, the stop call fails on the network, and the run stays
running. -/
theorem failed_stop_leaves_running :
    ∃ handling ∈ handlings BillingSystem.ordinarySettings (Sample.costlyStep .networkError)
        ⟨⟨1⟩, "run", true, 0, false, {}⟩ Sample.hundredCredits,
      handling.Empties BillingSystem.ordinarySettings ∧
        ¬handling.Pauses BillingSystem.ordinarySettings ∧
        statusOf (handling.outcome BillingSystem.ordinarySettings).2.2.runs "run" =
          some .running := by
  decide +kernel

end Hermes.AgentProxy
