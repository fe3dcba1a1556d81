import Hermes.AgentProxy.Approval
import Hermes.AgentProxy.Broker.Cursor
import Hermes.AgentProxy.Resume

/-!
# What clients ask of their runs

A client reads the state of a run, follows its events, answers its approvals, stops and resumes it.
Every route begins with the owner of the row in `agent_runs`; behind it some of them wait for the
instance, while relays, the reaper and other clients go on.
-/

namespace Hermes.AgentProxy

open Wallet (UserId)
open Policy (PolicyState BlockReason)
open Broker (Cursor CursorError parseCursor)

/-! ## Statuses and states -/

/-- `ClientRunStatus`. -/
inductive ClientRunStatus
  | queued
  | running
  | waitingApproval
  | paused
  | completed
  | failed
  | stopped
  deriving DecidableEq, Repr

/-- `map_client_status`. -/
def mapClientStatus (status : RunStatus) (hasPendingApproval : Bool) : ClientRunStatus :=
  match status with
  | .running | .resumed => if hasPendingApproval then .waitingApproval else .running
  | .paused => .paused
  | .completed => .completed
  | .failed => .failed
  | .cancelled => .stopped

/-- `RunStateView`. -/
structure RunStateView where
  runId : String
  sessionId : String
  status : ClientRunStatus
  resultText : String
  lastTool : Option String
  pendingApproval : Option PendingApproval
  blockReason : Option String
  inputTokens : Int
  outputTokens : Int
  updatedAt : Time
  continuedFrom : Option String
  deriving DecidableEq, Repr

/-- The row of a run, for its owner alone: the check of `assert_run_owner`, `get_state` and
`resume`. -/
def Runs.visible (runs : Runs) (userId : UserId) (runId : String) : Option AgentRun :=
  (runs.get runId).filter (·.userId == userId)

/-- `AgentRunSnapshotsRepository.get`. -/
def Snapshots.visible (snapshots : Snapshots) (userId : UserId) (runId : String) :
    Option RunSnapshot :=
  snapshots.find? fun row => row.runId == runId && row.userId == userId

/-! ## Requests -/

inductive Choice
  | once
  | session
  | always
  | deny
  deriving DecidableEq, Repr

def Choice.text : Choice → String
  | once => "once"
  | session => "session"
  | always => "always"
  | deny => "deny"

inductive ClientRequest
  | state
  | events (lastEventId afterSeq : Option String)
  | approval (choice : Choice)
  | stop
  /-- The policy state and the debt are those which `resume` reads. -/
  | resume (settings : Settings) (policy : PolicyState) (debt : Int) (message : Option String)

/-- What the service asks of the instance of a user. -/
inductive Contact
  | ensureRunning
  /-- `GET /api/sessions/{session_id}/messages`. -/
  | transcript (sessionId : String)
  | post (path : String) (body : Option Json)

/-- Why an instance gave no answer, or none of use. -/
inductive CallFailure
  | upstreamTimeout
  | upstreamError (message : String)
  | sessionExpired (message : String)
  | attributeError
  deriving DecidableEq, Repr

/-- What becomes of a request to the instance. -/
inductive Upstream (α : Type)
  /-- `ensure_running` raises. -/
  | asleep (failure : CallFailure)
  /-- The request is sent in vain. -/
  | silent (failure : CallFailure)
  | answered (value : α)

inductive ClientAnswer
  | notFound
  | notResumable
  | resumeInProgress
  | cursor (error : CursorError)
  | blocked (reason : BlockReason)
  | launched (runId status : String)
  | resumed (runId continuedFrom : String)
  | state (view : RunStateView)
  | streaming (runId : String) (cursor : Cursor)
  | passed (body : Fields)
  | failed (failure : CallFailure)

/-- How far a request has come which waits for something. -/
inductive CallStage
  | approving (choice : Choice)
  | stopping
  /-- Past the policy gate, before `cas_resume`. -/
  | resuming (message : Option String)
  /-- `cas_resume` went to another call. -/
  | lost
  /-- `cas_resume` is won and committed. -/
  | won (message : Option String) (sessionId : String) (model : Option String)
  deriving DecidableEq, Repr

structure ClientCall where
  userId : UserId
  runId : String
  stage : CallStage
  deriving DecidableEq, Repr

/-- The rows of runs and snapshots with their `updated_at`, the requests under way, and what
instances and clients have been told. -/
structure Portal where
  runs : Runs := []
  snapshots : Snapshots := []
  runUpdatedAt : String → Time := fun _ => 0
  snapshotUpdatedAt : String → Time := fun _ => 0
  calls : List ClientCall := []
  contacts : List (UserId × Contact) := []
  answers : List (UserId × ClientAnswer) := []

inductive PortalAction
  /-- `run`, with what its gates read and what comes of its launch. -/
  | launch (userId : UserId) (settings : Settings) (policy : PolicyState) (debt : Int)
      (message sessionId : String) (model : Option String)
      (launched : Upstream (String × String)) (now : Time)
  /-- `prepare_consumer_snapshot`. -/
  | prepare (runId : String) (userId : UserId) (now : Time)
  /-- `_flush_snapshot` of a relay. -/
  | flush (incoming : RunSnapshot) (assertApproval : Bool) (now : Time)
  /-- The stamp of `consumer_heartbeat`. -/
  | heartbeat (runId : String) (now : Time)
  /-- A relay pauses its run. -/
  | pause (runId reason : String) (now : Time)
  /-- A relay or the sweep ends a run. -/
  | finish (runId : String) (status : RunStatus) (now : Time)
  /-- A relay mirrors a billed step. -/
  | record (runId : String) (stepIndex credits : Int) (now : Time)
  /-- `sweep_expired`. -/
  | retention (now ttl : Time)
  | ask (userId : UserId) (runId : String) (request : ClientRequest)
  /-- The instance answers an approval or a stop. -/
  | passed (call : ClientCall) (outcome : Upstream (Int × Option Json)) (now : Time)
  | compareAndSet (call : ClientCall) (now : Time)
  /-- `active_child`, behind a lost `cas_resume`. -/
  | findChild (call : ClientCall)
  /-- The transcript and the launch behind a won `cas_resume`. -/
  | continueRun (call : ClientCall) (history : Upstream (List Json))
      (launched : Except CallFailure (String × String)) (now : Time)
  /-- The process of a request dies. -/
  | abandon (call : ClientCall)

namespace Portal

def answer (portal : Portal) (userId : UserId) (answered : ClientAnswer) : Portal :=
  { portal with answers := portal.answers ++ [(userId, answered)] }

def tell (portal : Portal) (userId : UserId) (contacts : List Contact) : Portal :=
  { portal with contacts := portal.contacts ++ contacts.map fun contact => (userId, contact) }

def hold (portal : Portal) (call : ClientCall) : Portal :=
  { portal with calls := portal.calls ++ [call] }

def drop (portal : Portal) (call : ClientCall) : Portal :=
  { portal with calls := portal.calls.erase call }

/-- Replace the rows of runs, and stamp one of them if it was written. -/
def writeRuns (portal : Portal) (runs : Runs) (runId : String) (written : Bool) (now : Time) :
    Portal :=
  { portal with
    runs := runs
    runUpdatedAt :=
      if written then Function.update portal.runUpdatedAt runId now else portal.runUpdatedAt }

/-- `create_running`. -/
def insertRun (portal : Portal) (run : AgentRun) : Portal :=
  portal.writeRuns (portal.runs.createRunning run) run.runId (portal.runs.get run.runId).isNone
    run.createdAt

/-- Replace the snapshots, and stamp one of them if it was written. -/
def writeSnapshots (portal : Portal) (snapshots : Snapshots) (runId : String) (written : Bool)
    (now : Time) : Portal :=
  { portal with
    snapshots := snapshots
    snapshotUpdatedAt :=
      if written then Function.update portal.snapshotUpdatedAt runId now
      else portal.snapshotUpdatedAt }

/-- `get_state`. -/
def getState (portal : Portal) (userId : UserId) (runId : String) : Option RunStateView :=
  (portal.runs.visible userId runId).map fun run =>
    let snapshot := portal.snapshots.visible userId runId
    let pendingApproval := snapshot.bind (·.pendingApproval)
    let status := mapClientStatus run.status pendingApproval.isSome
    { runId := run.runId
      sessionId := run.sessionId
      status := status
      resultText := (snapshot.map (·.resultText)).getD ""
      lastTool := snapshot.bind (·.lastTool)
      pendingApproval := pendingApproval
      blockReason := if status = .paused then run.pausedReason else none
      inputTokens := (snapshot.map (·.inputTokens)).getD 0
      outputTokens := (snapshot.map (·.outputTokens)).getD 0
      updatedAt :=
        if snapshot.isSome then portal.snapshotUpdatedAt runId else portal.runUpdatedAt runId
      continuedFrom := run.continuedFromRunId }

/-- The body which `run` posts to `/v1/runs`. -/
def launchBody (message sessionId : String) (model : Option String) : Json :=
  .obj ([("input", .str message), ("session_id", .str sessionId)] ++
    model.toList.map fun name => ("model", .str name))

/-- The body which `resume` posts there. -/
def continuationBody (message : Option String) (sessionId : String) (model : Option String)
    (history : List Json) : Json :=
  .obj ([("session_id", .str sessionId)] ++
    (message.toList.map fun input => ("input", .str input)) ++
    (model.toList.map fun name => ("model", .str name)) ++
    if history = [] then [] else [("conversation_history", .arr history)])

/-- What `_passthrough_post` reads from a response. -/
def readPassthrough (status : Int) (body : Option Json) : Except CallFailure Fields :=
  if 200 ≤ status ∧ status < 300 then
    match body with
    | some (.obj fields) => .ok fields
    | _ => .ok []
  else .error (.upstreamError "hermes request failed")

/-- A route which needs no instance, or begins to wait for one. -/
def ask (portal : Portal) (userId : UserId) (runId : String) : ClientRequest → Portal
  | .state =>
      portal.answer userId
        (match portal.getState userId runId with
        | some view => .state view
        | none => .notFound)
  | .events lastEventId afterSeq =>
      -- The cursor is parsed before the owner is looked up.
      match parseCursor lastEventId afterSeq with
      | .error error => portal.answer userId (.cursor error)
      | .ok cursor =>
          portal.answer userId
            (if (portal.runs.visible userId runId).isSome then .streaming runId cursor
            else .notFound)
  | .approval choice =>
      if (portal.runs.visible userId runId).isSome then
        portal.hold ⟨userId, runId, .approving choice⟩
      else portal.answer userId .notFound
  | .stop =>
      if (portal.runs.visible userId runId).isSome then portal.hold ⟨userId, runId, .stopping⟩
      else portal.answer userId .notFound
  | .resume settings policy debt message =>
      match portal.runs.visible userId runId with
      | none => portal.answer userId .notFound
      | some run =>
          if run.status ≠ .paused ∧ run.status ≠ .resumed then portal.answer userId .notResumable
          else
            match resumePolicyBlock settings policy debt with
            | some reason => portal.answer userId (.blocked reason)
            | none => portal.hold ⟨userId, runId, .resuming message⟩

/-- `run`. -/
def launch (portal : Portal) (userId : UserId) (settings : Settings) (policy : PolicyState)
    (debt : Int) (message sessionId : String) (model : Option String)
    (launched : Upstream (String × String)) (now : Time) : Portal :=
  match resumePolicyBlock settings policy debt with
  | some reason => portal.answer userId (.blocked reason)
  | none =>
      let posted := .post "/v1/runs" (some (launchBody message sessionId model))
      match launched with
      | .asleep failure => (portal.tell userId [.ensureRunning]).answer userId (.failed failure)
      | .silent failure =>
          (portal.tell userId [.ensureRunning, posted]).answer userId (.failed failure)
      | .answered (runId, status) =>
          ((portal.tell userId [.ensureRunning, posted]).insertRun
            { runId := runId, userId := userId, sessionId := sessionId, status := .running,
              model := model, createdAt := now }).answer userId (.launched runId status)

/-- `_passthrough_post` and what follows a 2xx. -/
def pass (portal : Portal) (call : ClientCall) (path : String) (body : Option Json)
    (outcome : Upstream (Int × Option Json)) (effect : Portal → Portal) : Portal :=
  match outcome with
  | .asleep failure =>
      (portal.tell call.userId [.ensureRunning]).answer call.userId (.failed failure)
  | .silent failure =>
      (portal.tell call.userId [.ensureRunning, .post path body]).answer call.userId
        (.failed failure)
  | .answered (status, response) =>
      let told := portal.tell call.userId [.ensureRunning, .post path body]
      match readPassthrough status response with
      | .error failure => told.answer call.userId (.failed failure)
      | .ok fields => (effect told).answer call.userId (.passed fields)

/-- `clear_pending_approval`. -/
def clearPendingApproval (portal : Portal) (call : ClientCall) (now : Time) : Portal :=
  portal.writeSnapshots
    (Snapshots.clearPendingApproval portal.snapshots call.runId call.userId) call.runId
    ((portal.snapshots.visible call.userId call.runId).any (·.pendingApproval.isSome)) now

/-- `mark_stopped`. -/
def markStopped (portal : Portal) (call : ClientCall) (now : Time) : Portal :=
  portal.writeRuns (Runs.markStopped portal.runs call.runId call.userId) call.runId
    (portal.runs.affects call.runId fun row => row.userId == call.userId && row.status.active) now

/-- `revert_cas`. -/
def revertCas (portal : Portal) (runId : String) (now : Time) : Portal :=
  portal.writeRuns (Runs.revertCas portal.runs runId) runId
    (portal.runs.affects runId fun row =>
      row.status == .resumed && (portal.runs.activeChild runId).isNone) now

/-- `resume` behind a `cas_resume` which is won. -/
def continueRun (portal : Portal) (call : ClientCall) (message : Option String)
    (sessionId : String) (model : Option String) (history : Upstream (List Json))
    (launched : Except CallFailure (String × String)) (now : Time) : Portal :=
  match history with
  | .asleep failure =>
      ((portal.tell call.userId [.ensureRunning]).revertCas call.runId now).answer call.userId
        (.failed failure)
  | .silent failure =>
      ((portal.tell call.userId [.ensureRunning, .transcript sessionId]).revertCas call.runId
        now).answer call.userId (.failed failure)
  | .answered messages =>
      let told := portal.tell call.userId [.ensureRunning, .transcript sessionId,
        .post "/v1/runs" (some (continuationBody message sessionId model messages))]
      match launched with
      | .error failure => (told.revertCas call.runId now).answer call.userId (.failed failure)
      | .ok (newRunId, _) =>
          (told.insertRun
            (Lifecycle.childRow ⟨call.runId, call.userId, sessionId, model⟩ newRunId now)).answer
              call.userId (.resumed newRunId call.runId)

def proceed (portal : Portal) (call : ClientCall) : PortalAction → Portal
  | .passed _ outcome now =>
      match call.stage with
      | .approving choice =>
          (portal.drop call).pass call s!"/v1/runs/{call.runId}/approval"
            (some (.obj [("choice", .str choice.text)])) outcome
            fun told => told.clearPendingApproval call now
      | .stopping =>
          (portal.drop call).pass call s!"/v1/runs/{call.runId}/stop" none outcome
            fun told => told.markStopped call now
      | _ => portal
  | .compareAndSet _ now =>
      match call.stage with
      | .resuming message =>
          match Runs.casResume portal.runs call.runId with
          | (none, _) => (portal.drop call).hold { call with stage := .lost }
          | (some (sessionId, model), runs) =>
              ((portal.drop call).writeRuns runs call.runId true now).hold
                { call with stage := .won message sessionId model }
      | _ => portal
  | .findChild _ =>
      match call.stage with
      | .lost =>
          (portal.drop call).answer call.userId
            (match portal.runs.activeChild call.runId with
            | some child => .resumed child.runId call.runId
            | none => .resumeInProgress)
      | _ => portal
  | .continueRun _ history launched now =>
      match call.stage with
      | .won message sessionId model =>
          (portal.drop call).continueRun call message sessionId model history launched now
      | _ => portal
  | .abandon _ => portal.drop call
  | _ => portal

/-- The rows whose content the retention sweep clears. -/
def expired (portal : Portal) (now ttl : Time) (row : RunSnapshot) : Bool :=
  decide (portal.snapshotUpdatedAt row.runId < now - ttl) &&
    portal.runs.any fun run => run.runId == row.runId && !run.status.active

/-- `_flush_snapshot`; a refused write is rolled back. -/
def flush (portal : Portal) (incoming : RunSnapshot) (assertApproval : Bool) (now : Time) :
    Portal :=
  match Snapshots.upsert portal.snapshots portal.runs incoming assertApproval with
  | .error _ => portal
  | .ok snapshots =>
      portal.writeSnapshots snapshots incoming.runId
        ((Snapshots.get portal.snapshots incoming.runId).all (·.userId == incoming.userId)) now

/-- `record_step`; a refused write is rolled back. -/
def record (portal : Portal) (runId : String) (stepIndex credits : Int) (now : Time) : Portal :=
  match Runs.recordStep portal.runs runId stepIndex credits with
  | .error _ => portal
  | .ok runs =>
      portal.writeRuns runs runId (portal.runs.affects runId fun _ => true) now

def perform (portal : Portal) (action : PortalAction) : Portal :=
  match action with
  | .launch userId settings policy debt message sessionId model launched now =>
      portal.launch userId settings policy debt message sessionId model launched now
  | .prepare runId userId now =>
      -- The row refers to its run.
      if (portal.runs.get runId).isSome then
        portal.writeSnapshots (Snapshots.ensureRow portal.snapshots runId userId) runId
          (Snapshots.get portal.snapshots runId).isNone now
      else portal
  | .flush incoming assertApproval now => portal.flush incoming assertApproval now
  | .heartbeat runId now =>
      { portal with snapshots := Snapshots.touchConsumerHeartbeat portal.snapshots runId now }
  | .pause runId reason now =>
      portal.writeRuns (Runs.markPaused portal.runs runId reason) runId
        (portal.runs.affects runId (·.status.active)) now
  | .finish runId status now =>
      if status.terminal then
        portal.writeRuns (Runs.markStatus portal.runs runId status) runId
          (portal.runs.affects runId (·.status.active)) now
      else portal
  | .record runId stepIndex credits now => portal.record runId stepIndex credits now
  | .retention now ttl =>
      { portal with
        snapshots := Snapshots.sweepExpired portal.snapshots (portal.expired now ttl) }
  | .ask userId runId request => portal.ask userId runId request
  | .passed call _ _ | .compareAndSet call _ | .findChild call | .continueRun call _ _ _
  | .abandon call => if call ∈ portal.calls then portal.proceed call action else portal

def run (actions : List PortalAction) : Portal := actions.foldl perform {}

end Portal

end Hermes.AgentProxy
