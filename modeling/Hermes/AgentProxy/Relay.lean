import Hermes.AgentProxy.Billing
import Hermes.AgentProxy.Events
import Hermes.AgentProxy.Tables

/-!
# Processing the events of a run

`process_event` applies the rules of one upstream event: the snapshot, the status, the per-step and
the final debit, and the pause at an empty wallet.  Every database write below is committed where
the service commits it, so a call which raises keeps what it had committed before.
-/

namespace Hermes.AgentProxy

open Wallet (UserId Account Accounts TxId Meta Context ConsumeRequest Call Outcome)

structure Settings where
  rates : Rates
  agentIncrementalBillingEnabled : Bool
  agentDebtReconcileEnabled : Bool
  agentStateFlushIntervalSeconds : ℚ
  agentStateResultTextMaxChars : Nat

inductive Loss
  | statement
  | commit
  deriving DecidableEq, Repr

/-- What the surroundings decide during one call. -/
structure Conditions where
  /-- `time.monotonic()`. -/
  clock : ℚ := 0
  /-- The id the database generates for an inserted ledger row. -/
  newId : TxId
  snapshotLost : Bool := false
  statusLost : Bool := false
  billingLost : Option Loss := none
  /-- The instance refuses or fails to stop the run. -/
  interruptFails : Bool := false

inductive Raised
  | python (error : PyError)
  | wallet (error : Wallet.WalletError)
  | database
  | upstream
  deriving DecidableEq, Repr

/-- `_RelayState`, without its logging latches. -/
structure RelayState where
  partialText : List String := []
  steps : List Fields := []
  lastTool : Option String := none
  pendingApproval : Option PendingApproval := none
  inputTokens : Int := 0
  outputTokens : Int := 0
  lastFlushAt : ℚ := 0

/-- `_RunProcessing`. -/
structure RunProcessing where
  userId : UserId
  runId : String
  incremental : Bool
  charged : Int
  billed : Bool := false
  state : RelayState := {}

/-- The synthetic `run.paused` block. -/
structure PausedBlock where
  runId : String
  output : String
  steps : List Fields
  billed : Int
  inputTokens : Int
  outputTokens : Int

/-- `new_run_processing`: seeded from the ledger when billing is incremental. -/
def newRunProcessing (settings : Settings) (userId : UserId) (runId : String) (db : AgentDb) :
    RunProcessing where
  userId := userId
  runId := runId
  incremental := settings.agentIncrementalBillingEnabled
  charged :=
    if settings.agentIncrementalBillingEnabled then (db.accounts userId).chargedForRun runId else 0

def cutHead (maxChars : Nat) (text : String) : String :=
  String.ofList (text.toList.take maxChars)

/-- The write of `_flush_snapshot`; a failure is rolled back and swallowed. -/
def writeSnapshot (conditions : Conditions) (incoming : RunSnapshot) (assertApproval : Bool)
    (db : AgentDb) : AgentDb :=
  if conditions.snapshotLost then db
  else
    match Snapshots.upsert db.snapshots db.runs incoming assertApproval with
    | .error _ => db
    | .ok snapshots => { db with snapshots := snapshots }

/-- `_flush_snapshot`. -/
def flushSnapshot (settings : Settings) (conditions : Conditions) (run : RunProcessing)
    (immediate assertApproval : Bool) (db : AgentDb) : RunProcessing × AgentDb :=
  if !immediate &&
      decide (conditions.clock - run.state.lastFlushAt < settings.agentStateFlushIntervalSeconds)
  then (run, db)
  else
    let resultText :=
      cutHead settings.agentStateResultTextMaxChars (String.join run.state.partialText)
    let incoming : RunSnapshot :=
      { runId := run.runId
        userId := run.userId
        resultText := resultText
        lastTool := run.state.lastTool
        pendingApproval := run.state.pendingApproval
        inputTokens := run.state.inputTokens
        outputTokens := run.state.outputTokens }
    ({ run with
        state := { run.state with partialText := [resultText], lastFlushAt := conditions.clock } },
      writeSnapshot conditions incoming assertApproval db)

/-- `_mark_terminal`; a failure is rolled back and swallowed. -/
def markTerminal (conditions : Conditions) (runId : String) (status : RunStatus) (db : AgentDb) :
    AgentDb :=
  if conditions.statusLost then db else { db with runs := Runs.markStatus db.runs runId status }

/-- `_build_pending_approval`. -/
def buildPendingApproval (settings : Settings) (event : SseEvent) : PendingApproval where
  tool := extractToolName event
  preview :=
    (extractApprovalPreview event).map (cutHead settings.agentStateResultTextMaxChars)

def Settings.context (settings : Settings) (userId : UserId) : Context where
  userId := userId
  chatSessions := fun _ => none
  agentDebtReconcileEnabled := settings.agentDebtReconcileEnabled

/-- Run a debit in a transaction of its own and leave the account as a commit would. -/
def debit (settings : Settings) (userId : UserId) (request : ConsumeRequest) (db : AgentDb) :
    Outcome × Account :=
  Call.run ⟨settings.context userId, .consume request, .commit⟩ (db.accounts userId)

def AgentDb.putAccount (db : AgentDb) (userId : UserId) (account : Account) : AgentDb :=
  { db with accounts := Function.update db.accounts userId account }

/-- The integers of the raw usage record of a step. -/
def rawUsage (event : SseEvent) (usage : UsageCounts) : Except PyError Json := do
  let inputTokens ← asInt (Json.get? event.data "input_tokens")
  let outputTokens ← asInt (Json.get? event.data "output_tokens")
  let cumulativeInput ← asInt (Json.get? event.data "cumulative_input_tokens")
  let cumulativeOutput ← asInt (Json.get? event.data "cumulative_output_tokens")
  return .obj
    [("input_tokens", .int inputTokens), ("output_tokens", .int outputTokens),
      ("cumulative_input_tokens", .int cumulativeInput),
      ("cumulative_output_tokens", .int cumulativeOutput),
      ("billed_input", .int usage.inputTokens), ("billed_output", .int usage.outputTokens),
      ("billed_from", .arr (usage.sources.map .str))]

def stepKey (runId : String) (stepIndex : Int) : String :=
  runId ++ ":" ++ toString stepIndex

def stepRequest (runId : String) (stepIndex charge : Int) (usage : Json) (model : Option String)
    (newId : TxId) : ConsumeRequest where
  amount := charge
  idempotencyKey := stepKey runId stepIndex
  metadata :=
    { source := some Wallet.agentRunSource
      incremental := true
      runId := some runId
      stepIndex := some stepIndex
      usage := some usage
      model := model }
  newId := newId

/-- The debit of `_bill_step`, together with the mirror in `agent_runs`. -/
def chargeStep (settings : Settings) (conditions : Conditions) (run : RunProcessing)
    (stepIndex want : Int) (request : ConsumeRequest) (db : AgentDb) :
    Except Raised (Int × Bool) × AgentDb :=
  match debit settings run.userId request db with
  | (.consumed result, account) =>
      if result.idempotentReplay then
        -- The step was billed before; nothing is committed because nothing was written.
        (.ok (run.charged, false), db)
      else
        let mirrored :=
          if 0 < result.chargedAmount then
            Runs.recordStep db.runs run.runId stepIndex result.chargedAmount
          else .ok db.runs
        match mirrored, conditions.billingLost with
        | .ok runs, none =>
            (.ok (run.charged + result.chargedAmount, decide (result.chargedAmount < want)),
              { db.putAccount run.userId account with runs := runs })
        | _, _ => (.error .database, db)
  | (.raised error, _) => (.error (.wallet error), db)
  | (_, _) => (.error .database, db)

/-- `_bill_step`: the new `charged`, and whether the wallet could not cover the step. -/
def billStep (settings : Settings) (conditions : Conditions) (run : RunProcessing)
    (event : SseEvent) (db : AgentDb) : Except Raised (Int × Bool) × AgentDb :=
  match extractUsageCounts event, asInt (Json.get? event.data "step_index") with
  | .ok usage, .ok stepIndex =>
      match usageToCredits settings.rates usage.inputTokens usage.outputTokens with
      | .error error => (.error (.python error), db)
      | .ok owed =>
          let want := owed - run.charged
          if want ≤ 0 then (.ok (run.charged, false), db)
          else
            let charge := min want (db.accounts run.userId).balance
            if 0 < charge then
              match rawUsage event usage with
              | .error error => (.error (.python error), db)
              | .ok record =>
                  chargeStep settings conditions run stepIndex want
                    (stepRequest run.runId stepIndex charge record (extractModel event)
                      conditions.newId) db
            else (.ok (run.charged, true), db)
  | .error error, _ => (.error (.python error), db)
  | _, .error error => (.error (.python error), db)

/-- `_pause_run`. -/
def pauseRun (settings : Settings) (conditions : Conditions) (run : RunProcessing)
    (db : AgentDb) : Except Raised (Option PausedBlock) × RunProcessing × AgentDb :=
  if conditions.interruptFails then (.error .upstream, run, db)
  else
    let cleared := { run with state := { run.state with pendingApproval := none } }
    let flushed := flushSnapshot settings conditions cleared true true db
    if conditions.statusLost then (.error .database, flushed)
    else
      (.ok (some
        { runId := run.runId
          output := String.join flushed.1.state.partialText
          steps := run.state.steps
          billed := run.charged
          inputTokens := run.state.inputTokens
          outputTokens := run.state.outputTokens }),
        flushed.1,
        { flushed.2 with
          runs := Runs.markPaused flushed.2.runs run.runId "credits_exhausted" })

def finalUsage (usage : UsageCounts) : Json :=
  .obj [("input_tokens", .int usage.inputTokens), ("output_tokens", .int usage.outputTokens),
    ("total_tokens", .int usage.totalTokens)]

/-- The debit `run.completed` asks for. -/
def completedRequest (runId : String) (amount : Int) (usage : UsageCounts)
    (model : Option String) (newId : TxId) : ConsumeRequest where
  amount := amount
  idempotencyKey := runId
  metadata :=
    { source := some Wallet.agentRunSource
      runId := some runId
      usage := some (finalUsage usage)
      model := model }
  newId := newId

/-- `_record_insufficient`: the refused amount is audited, not debited. -/
def recordInsufficient (runId : String) (amount : Int) (model : Option String)
    (usage : UsageCounts) (account : Account) : Account :=
  { account with
    audit := account.audit ++
      [.billingDebitRefused runId (some (finalUsage usage)) model amount account.balance] }

/-- `_bill_completed`: billing never breaks the relay, except where the usage has no price or a
commit is lost. -/
def billCompleted (settings : Settings) (conditions : Conditions) (run : RunProcessing)
    (event : SseEvent) (usage : UsageCounts) (db : AgentDb) : Except Raised Bool × AgentDb :=
  match usageToCredits settings.rates usage.inputTokens usage.outputTokens with
  | .error error => (.error (.python error), db)
  | .ok owed =>
      let amount := owed - run.charged
      if amount ≤ 0 then (.ok true, db)
      else
        let request :=
          completedRequest run.runId amount usage (extractModel event) conditions.newId
        match debit settings run.userId request db, conditions.billingLost with
        | (.consumed _, account), none => (.ok true, db.putAccount run.userId account)
        | (.raised .insufficientCredits, account), none =>
            (.ok true, db.putAccount run.userId
              (recordInsufficient run.runId amount (extractModel event) usage account))
        | (.consumed _, _), some .commit => (.error .database, db)
        | (.raised .insufficientCredits, _), some .commit => (.error .database, db)
        | _, _ => (.ok true, db)

/-- Fold the counts of an event into the running maxima of the relay. -/
def RunProcessing.observe (run : RunProcessing) (usage : UsageCounts) : RunProcessing :=
  { run with
    state :=
      { run.state with
        inputTokens := max run.state.inputTokens usage.inputTokens
        outputTokens := max run.state.outputTokens usage.outputTokens } }

/-- The `message.delta` branch of `process_event`. -/
def onMessageDelta (settings : Settings) (conditions : Conditions) (run : RunProcessing)
    (event : SseEvent) (db : AgentDb) : RunProcessing × AgentDb :=
  let piece := extractDeltaText event
  if piece ≠ "" then
    let run :=
      { run with state := { run.state with partialText := run.state.partialText ++ [piece] } }
    flushSnapshot settings conditions run false false db
  else (run, db)

/-- The `tool.*` branch of `process_event`. -/
def onTool (settings : Settings) (conditions : Conditions) (run : RunProcessing)
    (event : SseEvent) (db : AgentDb) : RunProcessing × AgentDb :=
  let run :=
    { run with
      state :=
        { run.state with
          steps := run.state.steps ++ [event.data]
          lastTool := (extractToolName event).or run.state.lastTool
          pendingApproval := none } }
  flushSnapshot settings conditions run true true db

/-- The cumulative anchors of a `usage.delta`, persisted at once if they moved. -/
def noteAnchors (settings : Settings) (conditions : Conditions) (run : RunProcessing)
    (anchors : UsageCounts) (db : AgentDb) : RunProcessing × AgentDb :=
  let observed := run.observe anchors
  if observed.state.inputTokens ≠ run.state.inputTokens ∨
      observed.state.outputTokens ≠ run.state.outputTokens then
    flushSnapshot settings conditions observed true false db
  else (observed, db)

/-- The incremental part of the `usage.delta` branch: bill the step, and pause on depletion. -/
def billDelta (settings : Settings) (conditions : Conditions) (run : RunProcessing)
    (event : SseEvent) (db : AgentDb) :
    Except Raised (Option PausedBlock) × RunProcessing × AgentDb :=
  match billStep settings conditions run event db with
  | (.error raised, db) => (.error raised, run, db)
  | (.ok (charged, depleted), db) =>
      let run := { run with charged := charged }
      if depleted then pauseRun settings conditions run db else (.ok none, run, db)

/-- The `usage.delta` branch of `process_event`. -/
def onUsageDelta (settings : Settings) (conditions : Conditions) (run : RunProcessing)
    (event : SseEvent) (db : AgentDb) :
    Except Raised (Option PausedBlock) × RunProcessing × AgentDb :=
  match extractUsageCounts event with
  | .error error => (.error (.python error), run, db)
  | .ok anchors =>
      let noted := noteAnchors settings conditions run anchors db
      if noted.1.incremental then billDelta settings conditions noted.1 event noted.2
      else (.ok none, noted)

/-- The `run.failed` branch of `process_event`. -/
def onRunFailed (settings : Settings) (conditions : Conditions) (run : RunProcessing)
    (db : AgentDb) : RunProcessing × AgentDb :=
  let cleared := { run with state := { run.state with pendingApproval := none } }
  let flushed := flushSnapshot settings conditions cleared true true db
  (flushed.1, markTerminal conditions run.runId .failed flushed.2)

/-- The final counts of a run, its snapshot and its terminal status. -/
def noteCompleted (settings : Settings) (conditions : Conditions) (run : RunProcessing)
    (usage : UsageCounts) (db : AgentDb) : RunProcessing × AgentDb :=
  let observed := run.observe usage
  let cleared := { observed with state := { observed.state with pendingApproval := none } }
  let flushed := flushSnapshot settings conditions cleared true true db
  (flushed.1, markTerminal conditions run.runId .completed flushed.2)

/-- The `run.completed` branch of `process_event`. -/
def onRunCompleted (settings : Settings) (conditions : Conditions) (run : RunProcessing)
    (event : SseEvent) (db : AgentDb) :
    Except Raised (Option PausedBlock) × RunProcessing × AgentDb :=
  match extractUsageCounts event with
  | .error error => (.error (.python error), run, db)
  | .ok usage =>
      let noted := noteCompleted settings conditions run usage db
      if noted.1.billed then (.ok none, noted)
      else
        match billCompleted settings conditions noted.1 event usage noted.2 with
        | (.error raised, db) => (.error raised, noted.1, db)
        | (.ok billed, db) => (.ok none, { noted.1 with billed := billed }, db)

/-- `process_event`: a returned block ends the run. -/
def processEvent (settings : Settings) (conditions : Conditions) (run : RunProcessing)
    (event : SseEvent) (db : AgentDb) :
    Except Raised (Option PausedBlock) × RunProcessing × AgentDb :=
  match eventKind event with
  | .messageDelta => (.ok none, onMessageDelta settings conditions run event db)
  | .tool => (.ok none, onTool settings conditions run event db)
  | .approvalRequest =>
      let pending := some (buildPendingApproval settings event)
      let run := { run with state := { run.state with pendingApproval := pending } }
      (.ok none, flushSnapshot settings conditions run true true db)
  | .usageDelta => onUsageDelta settings conditions run event db
  | .runFailed => (.ok none, onRunFailed settings conditions run db)
  | .runCompleted => onRunCompleted settings conditions run event db
  | .other => (.ok none, run, db)

/-- `_orphan_billing_basis`. -/
def orphanBillingBasis (snapshotPresent : Bool) (inputTokens outputTokens : Int) : BillingBasis :=
  if !snapshotPresent then .noSnapshot
  else if inputTokens = 0 ∧ outputTokens = 0 then .zeroUsage
  else .snapshot

/-- `round(value, 1)`: to the nearest tenth, a tie to the even one. -/
def roundTenth (value : ℚ) : ℚ :=
  let below := ⌊value * 10⌋
  let rest := value * 10 - below
  (if rest < 1 / 2 ∨ rest = 1 / 2 ∧ below % 2 = 0 then below else below + 1 : Int) / 10

def orphanRequest (runId : String) (owed : Int) (newId : TxId) : ConsumeRequest where
  amount := owed
  idempotencyKey := runId
  metadata := { source := some Wallet.agentRunSource, orphan := true, runId := some runId }
  newId := newId

/-- The debit of `finalize_orphan_run`: what was taken, or what it raised. -/
def chargeOrphan (settings : Settings) (conditions : Conditions) (candidate : OrphanCandidate)
    (owed : Int) (db : AgentDb) : Except Raised Int × AgentDb :=
  if owed ≤ 0 then (.ok 0, db)
  else
    let request := orphanRequest candidate.runId owed conditions.newId
    match debit settings candidate.userId request db with
    | (.consumed result, account) =>
        (.ok result.chargedAmount, db.putAccount candidate.userId account)
    | (.raised .insufficientCredits, account) =>
        (.ok 0, db.putAccount candidate.userId
          (recordInsufficient candidate.runId owed none
            ⟨candidate.inputTokens, candidate.outputTokens,
              candidate.inputTokens + candidate.outputTokens, true, false, [], false, false⟩
            account))
    | (.raised error, _) => (.error (.wallet error), db)
    | (_, _) => (.error .database, db)

/-- What a run still owes for the usage its snapshot has seen. -/
def orphanOwed (settings : Settings) (candidate : OrphanCandidate) (db : AgentDb) : Int :=
  max (settings.rates.price candidate.inputTokens candidate.outputTokens -
    (db.accounts candidate.userId).chargedForRun candidate.runId) 0

/-- `_mark_terminal` at the end of the sweep's transaction: a lost commit takes the debit with
it. -/
def markOrphan (conditions : Conditions) (candidate : OrphanCandidate) (db charged : AgentDb) :
    AgentDb :=
  if conditions.statusLost then db
  else { charged with runs := Runs.markStatus charged.runs candidate.runId .failed }

def orphanFinalized (settings : Settings) (candidate : OrphanCandidate) (billed : Int)
    (db : AgentDb) : OrphanFinalized where
  userId := candidate.userId
  runId := candidate.runId
  inputTokens := candidate.inputTokens
  outputTokens := candidate.outputTokens
  observed := settings.rates.price candidate.inputTokens candidate.outputTokens
  alreadyCharged := (db.accounts candidate.userId).chargedForRun candidate.runId
  billed := billed
  billingBasis := orphanBillingBasis candidate.snapshotPresent candidate.inputTokens
    candidate.outputTokens
  heartbeatAgeSeconds := roundTenth candidate.heartbeatAgeSeconds

/-- `finalize_orphan_run`: the remainder is charged, the status recorded and the outcome
audited. -/
def finalizeOrphanRun (settings : Settings) (conditions : Conditions)
    (candidate : OrphanCandidate) (db : AgentDb) : Except Raised Unit × AgentDb :=
  match usageToCredits settings.rates candidate.inputTokens candidate.outputTokens with
  | .error error => (.error (.python error), db)
  | .ok _ =>
      match chargeOrphan settings conditions candidate (orphanOwed settings candidate db) db with
      | (.error raised, _) => (.error raised, db)
      | (.ok billed, charged) =>
          let marked := markOrphan conditions candidate db charged
          match conditions.billingLost with
          | some _ => (.error .database, marked)
          | none => (.ok (), { marked with
              finalized := marked.finalized ++ [orphanFinalized settings candidate billed db] })

end Hermes.AgentProxy
