import Hermes.AgentProxy.Awaits
import Hermes.Library.Transition

/-!
# No run is charged beyond its usage

Any number of relays process the events of any runs, each with its own count of what was charged,
while sweeps finalize orphans and other services use the same wallets; a call which waits lets
everybody else go on.  A count goes stale when another party bills the run; as long as no debit
takes effect on a stale count, no run is ever charged more than the price of the largest usage seen
for it.
-/

namespace Hermes.AgentProxy

open Wallet

/-- Token counts which some event of a run reported. -/
structure Observation where
  runId : String
  inputTokens : Int
  outputTokens : Int
  deriving DecidableEq, Repr

/-- What an event reports about the run of a relay. -/
def observation (run : RunProcessing) (event : SseEvent) : Option Observation :=
  match eventKind event, extractUsageCounts event with
  | .usageDelta, .ok usage => some ⟨run.runId, usage.inputTokens, usage.outputTokens⟩
  | .runCompleted, .ok usage => some ⟨run.runId, usage.inputTokens, usage.outputTokens⟩
  | _, _ => none

/-- The largest input count observed for a run. -/
def maxInput (observed : List Observation) (runId : String) : Int :=
  ((observed.filter (·.runId == runId)).map (·.inputTokens)).foldl max 0

/-- The largest output count observed for a run. -/
def maxOutput (observed : List Observation) (runId : String) : Int :=
  ((observed.filter (·.runId == runId)).map (·.outputTokens)).foldl max 0

/-- A relay, and what its call of `process_event` waits for. -/
structure RelayCall where
  run : RunProcessing
  stage : Option Stage := none

/-- A call of `finalize_orphan_run` which has read what the run was charged. -/
structure OrphanCall where
  candidate : OrphanCandidate
  read : AgentDb

/-- The database, the live relays, the rows sweeps have read, the finalizations on their way to
their debit, and all that was observed. -/
structure BillingSystem where
  db : AgentDb := {}
  relays : List RelayCall := []
  candidates : List OrphanCandidate := []
  orphans : List OrphanCall := []
  observed : List Observation := []

/-- What the parties do.  A debit is a transaction of its own, which holds the wallet's row from its
`UPDATE` to its commit. -/
inductive BillingAction
  /-- `new_run_processing` of a relay or a consumer. -/
  | subscribe (userId : UserId) (runId : String) (incremental : Bool)
  /-- `process_event` of one relay begins. -/
  | process (relay : Nat) (event : SseEvent) (conditions : Conditions)
  /-- It goes on. -/
  | resume (relay : Nat) (conditions : Conditions)
  /-- `list_orphan_candidates`. -/
  | sweep (now timeout : Time) (limit : Nat)
  /-- `finalize_orphan_run` of a row read earlier reads what the run was charged. -/
  | readCharged (candidate : Nat)
  /-- It goes on to its debit. -/
  | finalize (orphan : Nat) (conditions : Conditions)
  /-- A wallet call of another service, which names no run. -/
  | wallet (invocation : Call)
  /-- `prepare_consumer_snapshot`. -/
  | prepare (userId : UserId) (runId : String)
  /-- `consumer_heartbeat`. -/
  | heartbeat (runId : String) (now : Time)
  /-- Any other statements on `agent_runs`. -/
  | lifecycle (runs : Runs)

def operationMeta : Operation → Meta
  | .consume request => request.metadata
  | .grant request => request.metadata

namespace BillingSystem

/-- The relays after one of them went on: an exception or a pause ends its stream. -/
def relaysAfter (relays : List RelayCall) (relay : Nat) (run : RunProcessing) :
    Continuation → List RelayCall
  | .waits stage => relays.set relay ⟨run, some stage⟩
  | .ended (.ok none) => relays.set relay ⟨run, none⟩
  | .ended _ => relays.eraseIdx relay

def step (settings : Settings) (state : BillingSystem) : BillingAction → Option BillingSystem
  | .subscribe userId runId incremental =>
      let settings := { settings with agentIncrementalBillingEnabled := incremental }
      some { state with
        relays := state.relays ++ [⟨newRunProcessing settings userId runId state.db, none⟩] }
  | .process relay event conditions =>
      match state.relays[relay]? with
      | some ⟨run, none⟩ =>
          let started := startEvent settings conditions run event state.db
          some { state with
            db := started.2.2
            relays := relaysAfter state.relays relay started.2.1 started.1
            observed := state.observed ++ (observation run event).toList }
      | _ => none
  | .resume relay conditions =>
      match state.relays[relay]? with
      | some ⟨run, some stage⟩ =>
          let resumed := resumeEvent settings conditions run stage state.db
          some { state with
            db := resumed.2.2
            relays := relaysAfter state.relays relay resumed.2.1 resumed.1 }
      | _ => none
  | .sweep now timeout limit =>
      some { state with
        candidates := state.candidates ++ state.db.listOrphanCandidates now timeout limit }
  | .readCharged candidate =>
      match state.candidates[candidate]? with
      | none => none
      | some row => some { state with orphans := state.orphans ++ [⟨row, state.db⟩] }
  | .finalize orphan conditions =>
      match state.orphans[orphan]? with
      | none => none
      | some call =>
          some { state with
            db := (finishOrphanRun settings conditions call.candidate call.read state.db).2
            orphans := state.orphans.eraseIdx orphan }
  | .wallet invocation =>
      if (operationMeta invocation.operation).runId = none then
        some { state with
          db := { state.db with accounts := state.db.accounts.step invocation } }
      else none
  | .prepare userId runId =>
      some { state with
        db := { state.db with snapshots := Snapshots.ensureRow state.db.snapshots runId userId } }
  | .heartbeat runId now =>
      some { state with
        db := { state.db with
          snapshots := Snapshots.touchConsumerHeartbeat state.db.snapshots runId now } }
  | .lifecycle runs => some { state with db := { state.db with runs := runs } }

/-- A debit finds its key taken, or was computed knowing of all the run is charged. -/
def upToDate (db : AgentDb) (userId : UserId) (runId key : String) (known : Int) : Bool :=
  ((db.accounts userId).existing key).isSome ||
    decide (totalOf (db.accounts userId) runId ≤ known)

/-- A call which now debits its run knows of all the run was charged. -/
def resumesCurrent (settings : Settings) (db : AgentDb) (run : RunProcessing) : Stage → Bool
  | .step _ _ request => upToDate db run.userId run.runId request.idempotencyKey run.charged
  | .completed _ usage =>
      decide (settings.rates.price usage.inputTokens usage.outputTokens ≤ run.charged) ||
        upToDate db run.userId run.runId run.runId run.charged
  | .balance _ | .pause => true

def billsCurrent (settings : Settings) (state : BillingSystem) : BillingAction → Bool
  | .resume relay _ =>
      state.relays[relay]?.all fun call =>
        call.stage.all fun stage => resumesCurrent settings state.db call.run stage
  | .finalize orphan _ =>
      state.orphans[orphan]?.all fun call =>
        decide (orphanOwed settings call.candidate call.read = 0) ||
          upToDate state.db call.candidate.userId call.candidate.runId call.candidate.runId
            ((call.read.accounts call.candidate.userId).chargedForRun call.candidate.runId)
  | _ => true

/-- What the parties reach from an empty database when no debit takes effect on a stale count. -/
def ReachedCurrent (settings : Settings) (state : BillingSystem) : Prop :=
  Reachable (step settings) (fun before action => billsCurrent settings before action = true) {}
    state

end BillingSystem

section Observed

variable {observed : List Observation} {runId : String}

theorem foldl_max_append (values others : List Int) :
    (values ++ others).foldl max 0 = others.foldl max (values.foldl max 0) := by
  rw [List.foldl_append]

theorem le_foldl_max (start : Int) (values : List Int) : start ≤ values.foldl max start := by
  induction values generalizing start with
  | nil => exact le_rfl
  | cons value later induction => exact (le_max_left start value).trans (induction _)

theorem maxInput_append_le (added : List Observation) :
    maxInput observed runId ≤ maxInput (observed ++ added) runId := by
  simp only [maxInput, List.filter_append, List.map_append, foldl_max_append]
  exact le_foldl_max _ _

theorem maxOutput_append_le (added : List Observation) :
    maxOutput observed runId ≤ maxOutput (observed ++ added) runId := by
  simp only [maxOutput, List.filter_append, List.map_append, foldl_max_append]
  exact le_foldl_max _ _

theorem le_maxInput_append (entry : Observation) :
    entry.inputTokens ≤ maxInput (observed ++ [entry]) entry.runId := by
  simp [maxInput, List.filter_append]

theorem le_maxOutput_append (entry : Observation) :
    entry.outputTokens ≤ maxOutput (observed ++ [entry]) entry.runId := by
  simp [maxOutput, List.filter_append]

theorem maxInput_nonneg : 0 ≤ maxInput observed runId := le_foldl_max _ _

theorem maxOutput_nonneg : 0 ≤ maxOutput observed runId := le_foldl_max _ _

end Observed

/-- The counts are no larger than what was observed for the run. -/
structure Seen (observed : List Observation) (runId : String) (inputTokens outputTokens : Int) :
    Prop where
  input : inputTokens ≤ maxInput observed runId
  output : outputTokens ≤ maxOutput observed runId

namespace Seen

variable {observed : List Observation} {runId : String} {inputTokens outputTokens : Int}

theorem append (seen : Seen observed runId inputTokens outputTokens) (added : List Observation) :
    Seen (observed ++ added) runId inputTokens outputTokens where
  input := seen.input.trans (maxInput_append_le added)
  output := seen.output.trans (maxOutput_append_le added)

theorem zero : Seen observed runId 0 0 := ⟨maxInput_nonneg, maxOutput_nonneg⟩

theorem max {otherInput otherOutput : Int} (seen : Seen observed runId inputTokens outputTokens)
    (other : Seen observed runId otherInput otherOutput) :
    Seen observed runId (max inputTokens otherInput) (max outputTokens otherOutput) :=
  ⟨max_le seen.input other.input, max_le seen.output other.output⟩

end Seen

/-- A total is within the price of the largest counts observed for a run, where they have one. -/
def WithinPrice (rates : Rates) (observed : List Observation) (runId : String) (total : Int) :
    Prop :=
  ∀ price, usageToCredits rates (maxInput observed runId) (maxOutput observed runId) = .ok price →
    total ≤ price

section WithinPrice

variable {rates : Rates} {observed : List Observation} {runId : String} {total more : Int}

theorem WithinPrice.mono (within : WithinPrice rates observed runId more) (le : total ≤ more) :
    WithinPrice rates observed runId total :=
  fun price priced => le.trans (within price priced)

theorem WithinPrice.append (within : WithinPrice rates observed runId total)
    (nonneg : rates.Nonneg) (added : List Observation) :
    WithinPrice rates (observed ++ added) runId total := by
  intro price priced
  obtain ⟨less, computed, less_le⟩ :=
    usageToCredits_mono nonneg (maxInput_append_le added) (maxOutput_append_le added) priced
  exact (within less computed).trans less_le

/-- What was seen costs no more than all that was observed. -/
theorem Seen.withinPrice {inputTokens outputTokens : Int}
    (seen : Seen observed runId inputTokens outputTokens) (nonneg : rates.Nonneg)
    (computed : usageToCredits rates inputTokens outputTokens = .ok total) :
    WithinPrice rates observed runId total := by
  intro price priced
  obtain ⟨less, same, less_le⟩ := usageToCredits_mono nonneg seen.input seen.output priced
  cases computed.symm.trans same
  exact less_le

end WithinPrice

/-- Every snapshot holds counts which were observed. -/
def SnapshotsSeen (observed : List Observation) (snapshots : Snapshots) : Prop :=
  ∀ row ∈ snapshots, Seen observed row.runId row.inputTokens row.outputTokens

namespace SnapshotsSeen

variable {observed : List Observation} {snapshots : Snapshots}

theorem append (seen : SnapshotsSeen observed snapshots) (added : List Observation) :
    SnapshotsSeen (observed ++ added) snapshots :=
  fun row present => (seen row present).append added

theorem upsert {runs : Runs} {incoming : RunSnapshot} {assertApproval : Bool}
    {after : Snapshots} (seen : SnapshotsSeen observed snapshots)
    (reported : Seen observed incoming.runId incoming.inputTokens incoming.outputTokens)
    (written : Snapshots.upsert snapshots runs incoming assertApproval = .ok after) :
    SnapshotsSeen observed after := by
  unfold Snapshots.upsert at written
  split at written
  · cases written
  · split at written
    · split at written
      · cases written
      · cases written
        intro row listed
        rcases List.mem_append.mp listed with present | new
        · exact seen row present
        · rw [List.mem_singleton.mp new]
          exact reported
    · cases written
      intro row listed
      obtain ⟨stored, present, rfl⟩ := List.mem_map.mp listed
      split
      next same =>
        rw [← same.1] at reported
        exact (seen stored present).max reported
      · exact seen stored present

theorem ensureRow (seen : SnapshotsSeen observed snapshots) (runId : String) (userId : UserId) :
    SnapshotsSeen observed (Snapshots.ensureRow snapshots runId userId) := by
  unfold Snapshots.ensureRow
  split
  · exact seen
  · intro row listed
    rcases List.mem_append.mp listed with present | new
    · exact seen row present
    · rw [List.mem_singleton.mp new]
      exact .zero

theorem touchConsumerHeartbeat (seen : SnapshotsSeen observed snapshots) (runId : String)
    (now : Time) :
    SnapshotsSeen observed (Snapshots.touchConsumerHeartbeat snapshots runId now) := by
  intro row listed
  obtain ⟨stored, present, rfl⟩ := List.mem_map.mp listed
  split <;> exact seen stored present

end SnapshotsSeen

/-- A relay holds counts which were observed. -/
def RelaySeen (observed : List Observation) (run : RunProcessing) : Prop :=
  Seen observed run.runId run.state.inputTokens run.state.outputTokens

section Flush

variable (settings : Settings) (conditions : Conditions) {observed : List Observation}
  {run : RunProcessing} {event : SseEvent} {db : AgentDb}

theorem writeSnapshot_seen {incoming : RunSnapshot} {assertApproval : Bool}
    (seen : SnapshotsSeen observed db.snapshots)
    (reported : Seen observed incoming.runId incoming.inputTokens incoming.outputTokens) :
    SnapshotsSeen observed (writeSnapshot conditions incoming assertApproval db).snapshots := by
  unfold writeSnapshot
  split
  · exact seen
  · split
    · exact seen
    next written => exact seen.upsert reported written

theorem flushSnapshot_seen (immediate assertApproval : Bool)
    (seen : SnapshotsSeen observed db.snapshots) (relay_seen : RelaySeen observed run) :
    let flushed := flushSnapshot settings conditions run immediate assertApproval db
    RelaySeen observed flushed.1 ∧ SnapshotsSeen observed flushed.2.snapshots := by
  constructor
  · simpa [RelaySeen] using relay_seen
  · unfold flushSnapshot
    split
    · exact seen
    · exact writeSnapshot_seen conditions seen relay_seen

theorem markTerminal_seen (runId : String) (status : RunStatus)
    (seen : SnapshotsSeen observed db.snapshots) :
    SnapshotsSeen observed (markTerminal conditions runId status db).snapshots := by
  unfold markTerminal
  split <;> exact seen

theorem pauseRun_seen (seen : SnapshotsSeen observed db.snapshots)
    (relay_seen : RelaySeen observed run) :
    let paused := pauseRun settings conditions run db
    RelaySeen observed paused.2.1 ∧ SnapshotsSeen observed paused.2.2.snapshots := by
  unfold pauseRun
  split
  · exact ⟨relay_seen, seen⟩
  · have cleared_seen : RelaySeen observed
        { run with state := { run.state with pendingApproval := none } } := relay_seen
    have flushed := flushSnapshot_seen settings conditions true true seen cleared_seen
    simp only
    split <;> exact flushed

@[simp] theorem chargeStep_snapshots (run : RunProcessing) (db : AgentDb) (stepIndex want : Int)
    (request : ConsumeRequest) :
    (chargeStep settings conditions run stepIndex want request db).2.snapshots = db.snapshots := by
  unfold chargeStep
  split
  · split
    · rfl
    · simp only
      split <;> rfl
  · rfl
  · rfl

@[simp] theorem billStep_snapshots (run : RunProcessing) (event : SseEvent) (db : AgentDb) :
    (billStep settings conditions run event db).2.snapshots = db.snapshots := by
  have charged := chargeStep_snapshots settings conditions run db
  rw [billStep_eq]
  split
  · rfl
  · rfl
  · rfl
  · exact charged _ _ _

theorem observe_seen {usage : UsageCounts} (relay_seen : RelaySeen observed run)
    (reported : Seen observed run.runId usage.inputTokens usage.outputTokens) :
    RelaySeen observed (run.observe usage) :=
  relay_seen.max reported

theorem noteAnchors_seen {anchors : UsageCounts} (seen : SnapshotsSeen observed db.snapshots)
    (relay_seen : RelaySeen observed run)
    (reported : Seen observed run.runId anchors.inputTokens anchors.outputTokens) :
    let noted := noteAnchors settings conditions run anchors db
    RelaySeen observed noted.1 ∧ SnapshotsSeen observed noted.2.snapshots := by
  have observe_seen := observe_seen relay_seen reported
  unfold noteAnchors
  simp only
  split
  · exact flushSnapshot_seen settings conditions true false seen observe_seen
  · exact ⟨observe_seen, seen⟩

theorem billCompleted_snapshots (run : RunProcessing) (event : SseEvent) (usage : UsageCounts)
    (db : AgentDb) :
    (billCompleted settings conditions run event usage db).2.snapshots = db.snapshots := by
  unfold billCompleted
  split
  · rfl
  · simp only
    split
    · rfl
    · split <;> rfl

theorem noteCompleted_seen {usage : UsageCounts} (seen : SnapshotsSeen observed db.snapshots)
    (relay_seen : RelaySeen observed run)
    (reported : Seen observed run.runId usage.inputTokens usage.outputTokens) :
    let noted := noteCompleted settings conditions run usage db
    RelaySeen observed noted.1 ∧ SnapshotsSeen observed noted.2.snapshots := by
  have observe_seen := observe_seen relay_seen reported
  have flushed := flushSnapshot_seen settings conditions true true seen
    (show RelaySeen observed
      { run.observe usage with
        state := { (run.observe usage).state with pendingApproval := none } }
      from observe_seen)
  exact ⟨flushed.1, markTerminal_seen conditions run.runId .completed flushed.2⟩

/-- An event without usage keeps the counts of the relay and of the snapshots observed. -/
theorem processEvent_seen (not_delta : eventKind event ≠ .usageDelta)
    (not_completed : eventKind event ≠ .runCompleted) (seen : SnapshotsSeen observed db.snapshots)
    (relay_seen : RelaySeen observed run) :
    let processed := processEvent settings conditions run event db
    RelaySeen observed processed.2.1 ∧ SnapshotsSeen observed processed.2.2.snapshots := by
  unfold processEvent
  split
  · simp only [onMessageDelta]
    split
    · exact flushSnapshot_seen settings conditions false false seen relay_seen
    · exact ⟨relay_seen, seen⟩
  · exact flushSnapshot_seen settings conditions true true seen relay_seen
  · exact flushSnapshot_seen settings conditions true true seen relay_seen
  next kind => exact absurd kind not_delta
  · have flushed := flushSnapshot_seen settings conditions true true seen
      (show RelaySeen observed { run with state := { run.state with pendingApproval := none } }
        from relay_seen)
    exact ⟨flushed.1, markTerminal_seen conditions run.runId .failed flushed.2⟩
  next kind => exact absurd kind not_completed
  · exact ⟨relay_seen, seen⟩

end Flush

namespace BillingSystem

/-- What a call waits for was computed from counts which were observed. -/
def StageSeen (rates : Rates) (observed : List Observation) (run : RunProcessing) : Stage → Prop
  | .balance event => ∀ usage, extractUsageCounts event = .ok usage →
      Seen observed run.runId usage.inputTokens usage.outputTokens
  | .step _ _ request => request.metadata.runId = some run.runId ∧ Attributable request ∧
      ∃ inputTokens outputTokens owed, Seen observed run.runId inputTokens outputTokens ∧
        usageToCredits rates inputTokens outputTokens = .ok owed ∧
        request.amount ≤ owed - run.charged
  | .completed _ usage => Seen observed run.runId usage.inputTokens usage.outputTokens
  | .pause => True

/-- What a relay holds and waits for was observed. -/
structure CallSeen (rates : Rates) (observed : List Observation) (call : RelayCall) : Prop where
  run : RelaySeen observed call.run
  stage : ∀ stage, call.stage = some stage → StageSeen rates observed call.run stage

structure Bounded (settings : Settings) (state : BillingSystem) : Prop where
  attributed : ∀ user, Attributed (state.db.accounts user)
  within : ∀ user runId,
    WithinPrice settings.rates state.observed runId (totalOf (state.db.accounts user) runId)
  snapshots : SnapshotsSeen state.observed state.db.snapshots
  relays : ∀ call ∈ state.relays, CallSeen settings.rates state.observed call
  candidates : ∀ row ∈ state.candidates,
    Seen state.observed row.runId row.inputTokens row.outputTokens
  orphans : ∀ call ∈ state.orphans, Seen state.observed call.candidate.runId
    call.candidate.inputTokens call.candidate.outputTokens

variable {settings : Settings} {state after : BillingSystem}

theorem bounded_empty : Bounded settings {} where
  attributed _ := attributed_empty
  within user runId _ priced := usageToCredits_nonneg priced
  snapshots row present := by cases present
  relays call present := by cases present
  candidates row present := by cases present
  orphans call present := by cases present

theorem StageSeen.append {rates : Rates} {observed : List Observation} {run : RunProcessing}
    {stage : Stage} (seen : StageSeen rates observed run stage) (added : List Observation) :
    StageSeen rates (observed ++ added) run stage := by
  cases stage with
  | balance event => exact fun usage read => (seen usage read).append added
  | step stepIndex want request =>
      obtain ⟨named, attributable, inputTokens, outputTokens, owed, seen, priced⟩ := seen
      exact ⟨named, attributable, inputTokens, outputTokens, owed, seen.append added, priced⟩
  | completed event usage => exact Seen.append seen added
  | pause => trivial

theorem CallSeen.append {rates : Rates} {observed : List Observation} {call : RelayCall}
    (seen : CallSeen rates observed call) (added : List Observation) :
    CallSeen rates (observed ++ added) call :=
  ⟨seen.run.append added, fun stage waits => (seen.stage stage waits).append added⟩

/-- The sweep reads counts which the snapshots hold. -/
theorem listOrphanCandidates_seen {observed : List Observation} {db : AgentDb}
    (seen : SnapshotsSeen observed db.snapshots) (now timeout : Time) (limit : Nat) :
    ∀ row ∈ db.listOrphanCandidates now timeout limit,
      Seen observed row.runId row.inputTokens row.outputTokens := by
  intro row listed
  obtain ⟨run, -, rfl⟩ := List.mem_map.mp listed
  simp only [AgentDb.candidate]
  cases found : Snapshots.get db.snapshots run.runId with
  | none => exact .zero
  | some snapshot =>
      have present := List.mem_of_find?_eq_some found
      have same : snapshot.runId = run.runId := by
        simpa using List.find?_some found
      rw [← same]
      exact seen snapshot present

/-- A debit which its run's price covers keeps every run within its price. -/
theorem charges_within {rates : Rates} {observed : List Observation} {before after : AgentDb}
    {userId : UserId} {runId key : String} {amount : Int}
    (charges : Charges before after userId runId key amount)
    (within : ∀ user other, WithinPrice rates observed other (totalOf (before.accounts user) other))
    (covered : (before.accounts userId).existing key = none →
      WithinPrice rates observed runId (totalOf (before.accounts userId) runId + amount))
    (user : UserId) (other : String) :
    WithinPrice rates observed other (totalOf (after.accounts user) other) := by
  by_cases mine : user = userId
  · subst mine
    rcases charges.total other with same | ⟨rfl, fresh, more⟩
    · rw [same]
      exact within user other
    · exact (covered fresh).mono more
  · rw [charges.others user mine]
    exact within user other

theorem charges_attributed {before after : AgentDb} {userId : UserId} {runId key : String}
    {amount : Int} (charges : Charges before after userId runId key amount)
    (attributed : ∀ user, Attributed (before.accounts user)) (user : UserId) :
    Attributed (after.accounts user) := by
  by_cases mine : user = userId
  · subst mine
    exact charges.attributed (attributed user)
  · rw [charges.others user mine]
    exact attributed user

/-- What an event reports is observed once it is recorded. -/
theorem observation_seen {observed : List Observation} {run : RunProcessing} {event : SseEvent}
    {entry : Observation} (reported : observation run event = some entry) :
    Seen (observed ++ (observation run event).toList) entry.runId entry.inputTokens
      entry.outputTokens := by
  rw [reported]
  exact ⟨le_maxInput_append entry, le_maxOutput_append entry⟩

theorem relaysAfter_mem {relays : List RelayCall} {relay : Nat} {run : RunProcessing}
    {continuation : Continuation} {other : RelayCall}
    (present : other ∈ relaysAfter relays relay run continuation) :
    other ∈ relays ∨
      other.run = run ∧ ∀ stage, other.stage = some stage → continuation = .waits stage := by
  unfold relaysAfter at present
  split at present
  next stage =>
    rcases List.mem_or_eq_of_mem_set present with old | rfl
    · exact .inl old
    · exact .inr ⟨rfl, fun stage waits => by cases waits; rfl⟩
  · rcases List.mem_or_eq_of_mem_set present with old | rfl
    · exact .inl old
    · exact .inr ⟨rfl, fun stage waits => by cases waits⟩
  · exact .inl (List.mem_of_mem_eraseIdx present)

/-- What a call leaves was observed, and so was what it waits for. -/
structure Progressed (rates : Rates) (observed : List Observation)
    (outcome : Continuation × RunProcessing × AgentDb) : Prop where
  run : RelaySeen observed outcome.2.1
  snapshots : SnapshotsSeen observed outcome.2.2.snapshots
  stage : ∀ stage, outcome.1 = .waits stage → StageSeen rates observed outcome.2.1 stage

theorem startEvent_progressed {observed : List Observation} {conditions : Conditions}
    {run : RunProcessing} {event : SseEvent} {db : AgentDb}
    (seen : SnapshotsSeen observed db.snapshots) (relay_seen : RelaySeen observed run)
    (reported : ∀ entry, observation run event = some entry →
      Seen observed entry.runId entry.inputTokens entry.outputTokens) :
    Progressed settings.rates observed (startEvent settings conditions run event db) := by
  unfold startEvent
  split
  · exact ⟨relay_seen, seen, fun stage waits => by cases waits⟩
  next anchors kind read =>
    have counted : Seen observed run.runId anchors.inputTokens anchors.outputTokens :=
      reported ⟨run.runId, anchors.inputTokens, anchors.outputTokens⟩
        (by simp [observation, kind, read])
    have noted := noteAnchors_seen settings conditions seen relay_seen counted
    obtain ⟨-, run_eq, -, -⟩ := noteAnchors_run settings conditions run db anchors
    refine ⟨noted.1, noted.2, fun stage waits => ?_⟩
    simp only at waits
    split at waits
    · cases waits
      intro usage other_read
      cases read.symm.trans other_read
      rw [run_eq]
      exact counted
    · cases waits
  · exact ⟨relay_seen, seen, fun stage waits => by cases waits⟩
  next usage kind read =>
    have counted : Seen observed run.runId usage.inputTokens usage.outputTokens :=
      reported ⟨run.runId, usage.inputTokens, usage.outputTokens⟩
        (by simp [observation, kind, read])
    have noted := noteCompleted_seen settings conditions seen relay_seen counted
    refine ⟨noted.1, noted.2, fun stage waits => ?_⟩
    simp only at waits
    split at waits
    · cases waits
    · cases waits
      simpa [StageSeen, noteCompleted, RunProcessing.observe] using counted
  next delta_raised delta_read completed_raised completed_read =>
    have not_delta : eventKind event ≠ .usageDelta := by
      intro kind
      cases read : extractUsageCounts event with
      | error error => exact delta_raised error kind read
      | ok usage => exact delta_read usage kind read
    have not_completed : eventKind event ≠ .runCompleted := by
      intro kind
      cases read : extractUsageCounts event with
      | error error => exact completed_raised error kind read
      | ok usage => exact completed_read usage kind read
    have kept := processEvent_seen settings conditions not_delta not_completed seen relay_seen
    exact ⟨kept.1, kept.2, fun stage waits => by cases waits⟩

theorem startEvent_accounts (conditions : Conditions) (run : RunProcessing) (event : SseEvent)
    (db : AgentDb) :
    (startEvent settings conditions run event db).2.2.accounts = db.accounts := by
  unfold startEvent
  split
  · rfl
  · exact noteAnchors_accounts ..
  · rfl
  · exact noteCompleted_accounts ..
  next delta_raised delta_read completed_raised completed_read =>
    rcases processEvent_charges settings conditions run event db with same | ⟨bill, billed, -⟩
    · exact same
    · unfold billItem at billed
      split at billed
      next usage kind read => exact (delta_read usage kind read).elim
      next usage kind read => exact (completed_read usage kind read).elim
      · cases billed

/-- A step asks for no more than its price beyond what the relay counts as charged. -/
theorem stepBill_debit {newId : TxId} {run : RunProcessing} {event : SseEvent}
    {balance stepIndex want : Int} {request : ConsumeRequest}
    (billed : stepBill settings newId run event balance = .ok (.debit stepIndex want request)) :
    request.metadata.runId = some run.runId ∧ Attributable request ∧
      ∃ usage owed, extractUsageCounts event = .ok usage ∧
        usageToCredits settings.rates usage.inputTokens usage.outputTokens = .ok owed ∧
        request.amount ≤ owed - run.charged := by
  unfold stepBill at billed
  split at billed
  next usage index read indexed =>
    split at billed
    · cases billed
    next owed priced =>
      simp only at billed
      split at billed
      · cases billed
      · split at billed
        · split at billed
          · cases billed
          · cases billed
            exact ⟨rfl, stepRequest_attributable .., usage, owed, read, priced, min_le_left _ _⟩
        · cases billed
  · cases billed
  · cases billed

theorem resumeEvent_progressed {observed : List Observation} {conditions : Conditions}
    {run : RunProcessing} {stage : Stage} {db : AgentDb}
    (seen : SnapshotsSeen observed db.snapshots) (relay_seen : RelaySeen observed run)
    (stage_seen : StageSeen settings.rates observed run stage) :
    Progressed settings.rates observed (resumeEvent settings conditions run stage db) := by
  cases stage with
  | balance event =>
      simp only [resumeEvent]
      split
      · exact ⟨relay_seen, seen, fun stage waits => by cases waits⟩
      · exact ⟨relay_seen, seen, fun stage waits => by cases waits⟩
      · exact ⟨relay_seen, seen, fun stage waits => by cases waits; trivial⟩
      next stepIndex want request billed =>
        obtain ⟨named, attributable, usage, owed, read, priced, le⟩ := stepBill_debit billed
        refine ⟨relay_seen, seen, fun stage waits => ?_⟩
        cases waits
        exact ⟨named, attributable, usage.inputTokens, usage.outputTokens, owed,
          stage_seen usage read, priced, le⟩
  | step stepIndex want request =>
      have snapshots_eq :=
        chargeStep_snapshots settings conditions run db stepIndex want request
      simp only [resumeEvent]
      split
      next raised left charged =>
        rw [charged] at snapshots_eq
        exact ⟨relay_seen, snapshots_eq ▸ seen, fun stage waits => by cases waits⟩
      next credits depleted left charged =>
        rw [charged] at snapshots_eq
        refine ⟨relay_seen, snapshots_eq ▸ seen, fun stage waits => ?_⟩
        cases depleted with
        | false => cases waits
        | true =>
            cases waits
            trivial
  | completed event usage =>
      have snapshots_eq := billCompleted_snapshots settings conditions run event usage db
      simp only [resumeEvent]
      split
      next raised left charged =>
        rw [charged] at snapshots_eq
        exact ⟨relay_seen, snapshots_eq ▸ seen, fun stage waits => by cases waits⟩
      next billed left charged =>
        rw [charged] at snapshots_eq
        exact ⟨relay_seen, snapshots_eq ▸ seen, fun stage waits => by cases waits⟩
  | pause =>
      have paused := pauseRun_seen settings conditions seen relay_seen
      exact ⟨paused.1, paused.2, fun stage waits => by cases waits⟩

/-- A call which goes on leaves the accounts alone or makes one debit, which its run's price
covers unless it was computed from a stale count. -/
theorem resumeEvent_charges (nonneg : settings.rates.Nonneg) {observed : List Observation}
    {conditions : Conditions} {run : RunProcessing} {stage : Stage} {db : AgentDb}
    (stage_seen : StageSeen settings.rates observed run stage)
    (current : resumesCurrent settings db run stage = true) :
    (resumeEvent settings conditions run stage db).2.2.accounts = db.accounts ∨
      ∃ key amount,
        Charges db (resumeEvent settings conditions run stage db).2.2 run.userId run.runId key
          amount ∧
        ((db.accounts run.userId).existing key = none → WithinPrice settings.rates observed
          run.runId (totalOf (db.accounts run.userId) run.runId + amount)) := by
  cases stage with
  | balance event =>
      simp only [resumeEvent]
      split <;> exact .inl rfl
  | step stepIndex want request =>
      obtain ⟨named, attributable, inputTokens, outputTokens, owed, seen, priced, le⟩ := stage_seen
      have charges := chargeStep_charges settings conditions run db stepIndex want named
        attributable
      have left_eq : (resumeEvent settings conditions run (.step stepIndex want request)
          db).2.2 = (chargeStep settings conditions run stepIndex want request db).2 := by
        simp only [resumeEvent]
        split <;> simp only [*]
      rw [left_eq]
      refine charges.imp_right fun charges => ⟨_, _, charges, fun fresh => ?_⟩
      simp only [resumesCurrent, upToDate, fresh, Option.isSome_none, Bool.false_or,
        decide_eq_true_eq] at current
      exact (seen.withinPrice nonneg priced).mono (by omega)
  | completed event usage =>
      cases computed : usageToCredits settings.rates usage.inputTokens usage.outputTokens with
      | error error => exact .inl (by simp only [resumeEvent, billCompleted, computed])
      | ok owed =>
          have charges := billCompleted_charges settings conditions run event db usage
          have left_eq : (resumeEvent settings conditions run (.completed event usage) db).2.2 =
              (billCompleted settings conditions run event usage db).2 := by
            simp only [resumeEvent]
            split <;> simp only [*]
          rw [left_eq]
          rw [price_of_ok computed] at charges
          rcases charges with same | ⟨bill, is_bill, positive, charges⟩
          · exact .inl same
          · cases is_bill
            refine .inr ⟨run.runId, owed - run.charged, charges, fun fresh => ?_⟩
            have owing : 0 < owed - run.charged := positive
            simp only [resumesCurrent, upToDate, fresh, Option.isSome_none, Bool.false_or,
              Bool.or_eq_true, decide_eq_true_eq, price_of_ok computed] at current
            exact (stage_seen.withinPrice nonneg computed).mono (by omega)
  | pause => exact .inl (pauseRun_accounts ..)

/-- A wallet call which names no run charges none. -/
theorem call_charges_none {invocation : Call} {account : Account}
    (unowned : (operationMeta invocation.operation).runId = none)
    (attributed : Attributed account) :
    Attributed (invocation.run account).2 ∧
      ∀ runId, totalOf (invocation.run account).2 runId = totalOf account runId := by
  obtain ⟨context, operation, ending⟩ := invocation
  cases operation with
  | consume request =>
      change request.metadata.runId = none at unowned
      rcases Call.run_consume context request ending account with same | ⟨result, debited⟩
      · rw [same]
        exact ⟨attributed, fun _ => rfl⟩
      · constructor
        · apply debit_attributed debited _ attributed.provisioned
          constructor <;> simp [unowned]
        · intro runId
          rcases debit_total debited runId with same | ⟨mine, -⟩
          · exact same
          · rw [unowned] at mine
            cases mine
  | grant request =>
      change request.metadata.runId = none at unowned
      rcases Call.run_grant context request ending account with same | ⟨positive, result, credited⟩
      · rw [same]
        exact ⟨attributed, fun _ => rfl⟩
      · exact ⟨credit_attributed credited positive unowned attributed.provisioned,
          fun runId => credit_total credited runId⟩

theorem process_bounded (nonneg : settings.rates.Nonneg) {relay : Nat} {event : SseEvent}
    {conditions : Conditions} (bounded : Bounded settings state)
    (stepped : step settings state (.process relay event conditions) = some after) :
    Bounded settings after := by
  simp only [step] at stepped
  split at stepped
  next run found =>
    cases stepped
    have relay_seen := (bounded.relays _ (List.mem_of_getElem? found)).run.append
      (observation run event).toList
    have progressed := @startEvent_progressed settings _ conditions run event state.db
      (bounded.snapshots.append (observation run event).toList) relay_seen
      fun _ => observation_seen
    have accounts_eq := @startEvent_accounts settings conditions run event state.db
    constructor
    · simpa only [accounts_eq] using bounded.attributed
    · intro user runId
      simpa only [accounts_eq] using (bounded.within user runId).append nonneg _
    · exact progressed.snapshots
    · intro other present
      rcases relaysAfter_mem present with old | ⟨run_eq, waits⟩
      · exact (bounded.relays other old).append _
      · refine ⟨run_eq ▸ progressed.run, fun stage waiting => ?_⟩
        rw [run_eq]
        exact progressed.stage stage (waits stage waiting)
    · exact fun row present => (bounded.candidates row present).append _
    · exact fun call present => (bounded.orphans call present).append _
  · cases stepped

theorem resume_bounded (nonneg : settings.rates.Nonneg) {relay : Nat} {conditions : Conditions}
    (bounded : Bounded settings state)
    (current : billsCurrent settings state (.resume relay conditions) = true)
    (stepped : step settings state (.resume relay conditions) = some after) :
    Bounded settings after := by
  simp only [step] at stepped
  split at stepped
  next run stage found =>
    cases stepped
    have current : resumesCurrent settings state.db run stage = true := by
      simpa [billsCurrent, found] using current
    have call_seen := bounded.relays _ (List.mem_of_getElem? found)
    have stage_seen := call_seen.stage stage rfl
    have progressed := @resumeEvent_progressed settings _ conditions run stage state.db
      bounded.snapshots call_seen.run stage_seen
    have charges := @resumeEvent_charges settings nonneg _ conditions run stage state.db stage_seen
      current
    constructor
    · rcases charges with same | ⟨key, amount, charges, -⟩
      · simpa only [same] using bounded.attributed
      · exact charges_attributed charges bounded.attributed
    · rcases charges with same | ⟨key, amount, charges, covered⟩
      · simpa only [same] using bounded.within
      · exact charges_within charges bounded.within covered
    · exact progressed.snapshots
    · intro other present
      rcases relaysAfter_mem present with old | ⟨run_eq, waits⟩
      · exact bounded.relays other old
      · refine ⟨run_eq ▸ progressed.run, fun stage waiting => ?_⟩
        rw [run_eq]
        exact progressed.stage stage (waits stage waiting)
    · exact bounded.candidates
    · exact bounded.orphans
  · cases stepped

theorem finishOrphanRun_snapshots (settings : Settings) (conditions : Conditions)
    (candidate : OrphanCandidate) (read db : AgentDb) :
    (finishOrphanRun settings conditions candidate read db).2.snapshots = db.snapshots := by
  have charged (owed : Int) :
      (chargeOrphan settings conditions candidate owed db).2.snapshots = db.snapshots := by
    unfold chargeOrphan
    split
    · rfl
    · simp only
      split <;> rfl
  have marked (left : AgentDb) (left_eq : left.snapshots = db.snapshots) :
      (markOrphan conditions candidate db left).snapshots = db.snapshots := by
    unfold markOrphan
    split
    · rfl
    · exact left_eq
  have left_eq := charged (orphanOwed settings candidate read)
  unfold finishOrphanRun
  split
  · rfl
  · split
    · rfl
    next billed left outcome =>
      rw [outcome] at left_eq
      simp only
      split <;> exact marked left left_eq

theorem finalize_bounded (nonneg : settings.rates.Nonneg) {orphan : Nat}
    {conditions : Conditions} (bounded : Bounded settings state)
    (current : billsCurrent settings state (.finalize orphan conditions) = true)
    (stepped : step settings state (.finalize orphan conditions) = some after) :
    Bounded settings after := by
  simp only [step] at stepped
  split at stepped
  · cases stepped
  next call found =>
    obtain ⟨candidate, read⟩ := call
    cases stepped
    have seen := bounded.orphans _ (List.mem_of_getElem? found)
    have charges : (finishOrphanRun settings conditions candidate read state.db).2.accounts =
          state.db.accounts ∨
        ∃ observed, usageToCredits settings.rates candidate.inputTokens candidate.outputTokens =
            .ok observed ∧
          Charges state.db (finishOrphanRun settings conditions candidate read state.db).2
            candidate.userId candidate.runId candidate.runId
            (orphanOwed settings candidate read) := by
      cases computed : usageToCredits settings.rates candidate.inputTokens
          candidate.outputTokens with
      | error error => exact .inl (by simp only [finishOrphanRun, computed])
      | ok observed =>
          exact (finishOrphanRun_charges settings conditions candidate state.db read).imp_right
            fun charges => ⟨observed, rfl, charges⟩
    have snapshots_eq := finishOrphanRun_snapshots settings conditions candidate read state.db
    have fewer : ∀ call ∈ state.orphans.eraseIdx orphan, call ∈ state.orphans :=
      fun _ => List.mem_of_mem_eraseIdx
    have covered {observed : Int}
        (computed : usageToCredits settings.rates candidate.inputTokens candidate.outputTokens =
          .ok observed)
        (fresh : (state.db.accounts candidate.userId).existing candidate.runId = none) :
        WithinPrice settings.rates state.observed candidate.runId
          (totalOf (state.db.accounts candidate.userId) candidate.runId +
            orphanOwed settings candidate read) := by
      have kept := bounded.within candidate.userId candidate.runId
      simp only [billsCurrent, found, Option.all_some, upToDate, fresh, Option.isSome_none,
        Bool.false_or, Bool.or_eq_true, decide_eq_true_eq] at current
      rcases current with nothing | known
      · exact kept.mono (by omega)
      · rw [orphanOwed, price_of_ok computed]
        have priced := seen.withinPrice nonneg computed
        rcases le_total (observed - (read.accounts candidate.userId).chargedForRun
          candidate.runId) 0 with nothing | owing
        · rw [max_eq_right nothing]
          exact kept.mono (by omega)
        · rw [max_eq_left owing]
          exact priced.mono (by omega)
    constructor
    · rcases charges with same | ⟨observed, -, charges⟩
      · simpa only [same] using bounded.attributed
      · exact charges_attributed charges bounded.attributed
    · rcases charges with same | ⟨observed, computed, charges⟩
      · simpa only [same] using bounded.within
      · exact charges_within charges bounded.within (covered computed)
    · exact snapshots_eq ▸ bounded.snapshots
    · exact bounded.relays
    · exact bounded.candidates
    · exact fun call present => bounded.orphans call (fewer call present)

theorem wallet_bounded {invocation : Call} (bounded : Bounded settings state)
    (stepped : step settings state (.wallet invocation) = some after) :
    Bounded settings after := by
  simp only [step] at stepped
  split at stepped
  swap
  · cases stepped
  next unowned =>
    cases stepped
    have kept := call_charges_none unowned (bounded.attributed invocation.context.userId)
    constructor
    · intro user
      by_cases mine : user = invocation.context.userId
      · subst mine
        simpa [Accounts.step] using kept.1
      · simpa [Accounts.step, Function.update_of_ne mine] using bounded.attributed user
    · intro user runId
      by_cases mine : user = invocation.context.userId
      · subst mine
        simpa [Accounts.step, kept.2 runId] using bounded.within _ runId
      · simpa [Accounts.step, Function.update_of_ne mine] using bounded.within user runId
    · exact bounded.snapshots
    · exact bounded.relays
    · exact bounded.candidates
    · exact bounded.orphans

/-- Every step keeps the bounds when no debit takes effect on a stale count. -/
theorem step_bounded (nonneg : settings.rates.Nonneg) (action : BillingAction)
    (bounded : Bounded settings state) (current : billsCurrent settings state action = true)
    (stepped : step settings state action = some after) : Bounded settings after := by
  cases action with
  | process relay event conditions => exact process_bounded nonneg bounded stepped
  | resume relay conditions => exact resume_bounded nonneg bounded current stepped
  | finalize orphan conditions => exact finalize_bounded nonneg bounded current stepped
  | wallet invocation => exact wallet_bounded bounded stepped
  | subscribe userId runId incremental =>
      cases stepped
      refine ⟨bounded.attributed, bounded.within, bounded.snapshots, ?_, bounded.candidates,
        bounded.orphans⟩
      intro call present
      rcases List.mem_append.mp present with old | new
      · exact bounded.relays call old
      · rw [List.mem_singleton.mp new]
        exact ⟨.zero, fun stage waits => by cases waits⟩
  | sweep now timeout limit =>
      cases stepped
      refine ⟨bounded.attributed, bounded.within, bounded.snapshots, bounded.relays, ?_,
        bounded.orphans⟩
      intro row present
      rcases List.mem_append.mp present with old | new
      · exact bounded.candidates row old
      · exact listOrphanCandidates_seen bounded.snapshots now timeout limit row new
  | readCharged candidate =>
      simp only [step] at stepped
      split at stepped
      · cases stepped
      next row found =>
        cases stepped
        refine ⟨bounded.attributed, bounded.within, bounded.snapshots, bounded.relays,
          bounded.candidates, ?_⟩
        intro call present
        rcases List.mem_append.mp present with old | new
        · exact bounded.orphans call old
        · rw [List.mem_singleton.mp new]
          exact bounded.candidates row (List.mem_of_getElem? found)
  | prepare userId runId =>
      cases stepped
      exact ⟨bounded.attributed, bounded.within, bounded.snapshots.ensureRow runId userId,
        bounded.relays, bounded.candidates, bounded.orphans⟩
  | heartbeat runId now =>
      cases stepped
      exact ⟨bounded.attributed, bounded.within, bounded.snapshots.touchConsumerHeartbeat runId now,
        bounded.relays, bounded.candidates, bounded.orphans⟩
  | lifecycle runs =>
      cases stepped
      exact ⟨bounded.attributed, bounded.within, bounded.snapshots, bounded.relays,
        bounded.candidates, bounded.orphans⟩

theorem reached_bounded (nonneg : settings.rates.Nonneg)
    (reached : ReachedCurrent settings state) : Bounded settings state :=
  Reachable.invariant (Bounded settings) bounded_empty
    (fun _ action _ bounded current stepped => step_bounded nonneg action bounded current stepped)
    reached

/-- Whatever the relays, sweeps and other services do, and however their calls overlap, as long as
no debit takes effect on a stale count, the debits and the debt of a run stay within the price of
the largest counts its events have reported. -/
theorem run_total_le_price (nonneg : settings.rates.Nonneg)
    (reached : ReachedCurrent settings state) (user : UserId) (runId : String) {price : Int}
    (priced : usageToCredits settings.rates (maxInput state.observed runId)
      (maxOutput state.observed runId) = .ok price) :
    totalOf (state.db.accounts user) runId ≤ price :=
  (reached_bounded nonneg reached).within user runId price priced

/-- Rates of one and five credits, per-step billing, and debt off. -/
def ordinarySettings : Settings where
  rates := .floats (.finite 1) (.finite 5)
  agentIncrementalBillingEnabled := true
  agentDebtReconcileEnabled := false
  agentStateFlushIntervalSeconds := 2
  agentStateResultTextMaxChars := 100

/-- The `usage.delta` of a step with a cumulative input count. -/
def usageDelta (stepIndex inputTokens : Int) : SseEvent where
  name := some "usage.delta"
  data := [("step_index", .int stepIndex), ("cumulative_input_tokens", .int inputTokens),
    ("cumulative_output_tokens", .int 0)]

def purchase (userId : UserId) : Call where
  context := ⟨userId, fun _ => none, false⟩
  operation := .grant ⟨100, "purchase", {}, "purchase", ⟨100⟩⟩
  ending := .commit

/-- One relay processes a step from its event to its debit. -/
def stepBy (relay : Nat) (stepIndex inputTokens : Int) (newId : TxId) : List BillingAction :=
  [.process relay (usageDelta stepIndex inputTokens) { newId := newId },
    .resume relay { newId := newId }, .resume relay { newId := newId }]

/-- Two relays of one run: the second one replays the first step, which leaves its count at zero,
and then bills the second step in full. -/
def staleRelay : List BillingAction :=
  [.wallet (purchase ⟨1⟩), .subscribe ⟨1⟩ "run" true, .subscribe ⟨1⟩ "run" true] ++
    stepBy 0 1 1000 ⟨1⟩ ++ stepBy 1 1 1000 ⟨2⟩ ++ stepBy 1 2 2000 ⟨3⟩

theorem stale_relay_overcharges :
    ∃ state, Reachable (step ordinarySettings) (fun _ _ => True) {} state ∧
      usageToCredits ordinarySettings.rates (maxInput state.observed "run")
        (maxOutput state.observed "run") = .ok 2 ∧
      totalOf (state.db.accounts ⟨1⟩) "run" = 3 := by
  obtain ⟨state, reached, overcharged⟩ := reachable_of_any (step ordinarySettings)
    (fun _ _ => True) {} (fun state => decide
      (usageToCredits ordinarySettings.rates (maxInput state.observed "run")
        (maxOutput state.observed "run") = .ok 2 ∧
          totalOf (state.db.accounts ⟨1⟩) "run" = 3))
    staleRelay (by decide +kernel)
  exact ⟨state, reached, of_decide_eq_true overcharged⟩

/-- The same two relays, where the one which billed the first step bills the second one too. -/
def currentRelay : List BillingAction :=
  [.wallet (purchase ⟨1⟩), .subscribe ⟨1⟩ "run" true, .subscribe ⟨1⟩ "run" true] ++
    stepBy 0 1 1000 ⟨1⟩ ++ stepBy 1 1 1000 ⟨2⟩ ++ stepBy 0 2 2000 ⟨3⟩

theorem current_relay_within_price :
    ∃ state, ReachedCurrent ordinarySettings state ∧
      totalOf (state.db.accounts ⟨1⟩) "run" = 2 ∧
      totalOf (state.db.accounts ⟨1⟩) "run" ≤ 2 := by
  obtain ⟨state, reached, charged⟩ := reachable_of_any (step ordinarySettings)
    (fun before action => billsCurrent ordinarySettings before action = true) {}
    (fun state => decide
      (usageToCredits ordinarySettings.rates (maxInput state.observed "run")
        (maxOutput state.observed "run") = .ok 2 ∧
          totalOf (state.db.accounts ⟨1⟩) "run" = 2)) currentRelay (by decide +kernel)
  obtain ⟨priced, charged⟩ := of_decide_eq_true charged
  have nonneg : ordinarySettings.rates.Nonneg := ⟨⟨1, rfl, by norm_num⟩, 5, rfl, by norm_num⟩
  exact ⟨state, reached, charged, run_total_le_price nonneg reached ⟨1⟩ "run" priced⟩

end BillingSystem

end Hermes.AgentProxy
