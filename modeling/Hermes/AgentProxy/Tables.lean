import Hermes.Wallet.Conservation
import Mathlib.Data.List.Sort

/-!
# The tables of the agent proxy

`agent_runs` holds the lifecycle of a run and the chain of its continuations,
`agent_run_snapshots` what was last seen of it.  Every status transition is one guarded `UPDATE`.
-/

namespace Hermes.AgentProxy

open Wallet (UserId Account Accounts DbError fitsBigint)

/-- Seconds since some epoch, as the database clock counts them. -/
abbrev Time := ℚ

/-- The `agent_run_status` enumeration. -/
inductive RunStatus
  | running
  | paused
  | resumed
  | completed
  | failed
  | cancelled
  deriving DecidableEq, Repr

/-- `status IN ('running', 'resumed')`. -/
def RunStatus.active (status : RunStatus) : Bool :=
  status == .running || status == .resumed

/-- An `agent_runs` row. -/
structure AgentRun where
  runId : String
  userId : UserId
  sessionId : String
  status : RunStatus
  cumulativeCreditsSpent : Int := 0
  lastBilledStep : Int := 0
  pausedReason : Option String := none
  continuedFromRunId : Option String := none
  model : Option String := none
  createdAt : Time
  deriving DecidableEq, Repr

/-- The `{tool, preview}` payload of a pending approval. -/
structure PendingApproval where
  tool : Option String
  preview : Option String
  deriving DecidableEq, Repr

/-- An `agent_run_snapshots` row. -/
structure RunSnapshot where
  runId : String
  userId : UserId
  resultText : String := ""
  lastTool : Option String := none
  pendingApproval : Option PendingApproval := none
  inputTokens : Int := 0
  outputTokens : Int := 0
  consumerHeartbeatAt : Option Time := none
  deriving DecidableEq, Repr

/-- The ground on which the sweep charged a run or did not. -/
inductive BillingBasis
  | snapshot
  | zeroUsage
  | noSnapshot
  deriving DecidableEq, Repr

/-- The `agent_run_orphan_finalized` audit row. -/
structure OrphanFinalized where
  userId : UserId
  runId : String
  inputTokens : Int
  outputTokens : Int
  observed : Int
  alreadyCharged : Int
  billed : Int
  billingBasis : BillingBasis
  heartbeatAgeSeconds : ℚ
  deriving DecidableEq, Repr

/-- What the database holds for the agent proxy. -/
structure AgentDb where
  accounts : Accounts := Accounts.empty
  runs : List AgentRun := []
  snapshots : List RunSnapshot := []
  finalized : List OrphanFinalized := []

/-- The rows of `agent_runs`. -/
abbrev Runs := List AgentRun

namespace Runs

/-- `SELECT … WHERE run_id = :run_id`. -/
def get (runs : Runs) (runId : String) : Option AgentRun :=
  runs.find? fun row => row.runId == runId

/-- `UPDATE … WHERE run_id = :run_id AND …`. -/
def update (runs : Runs) (runId : String) (guard : AgentRun → Bool)
    (change : AgentRun → AgentRun) : Runs :=
  runs.map fun row => if row.runId = runId ∧ guard row then change row else row

/-- Some row satisfies the `WHERE` clause of an update. -/
def affects (runs : Runs) (runId : String) (guard : AgentRun → Bool) : Bool :=
  runs.any fun row => row.runId == runId && guard row

/-- `create_running`: `INSERT … ON CONFLICT (run_id) DO NOTHING`. -/
def createRunning (runs : Runs) (run : AgentRun) : Runs :=
  if (runs.get run.runId).isSome then runs else runs ++ [run]

/-- The value fits an `INTEGER` column. -/
def fitsInteger (value : Int) : Bool :=
  decide (-2147483648 ≤ value ∧ value ≤ 2147483647)

/-- `record_step`. -/
def recordStep (runs : Runs) (runId : String) (stepIndex credits : Int) : Except DbError Runs :=
  if !fitsInteger stepIndex then .error .outOfRange
  else if runs.any fun row =>
      row.runId == runId && !fitsBigint (row.cumulativeCreditsSpent + credits) then
    .error .outOfRange
  else .ok (runs.update runId (fun _ => true) fun row =>
    { row with
      lastBilledStep := max row.lastBilledStep stepIndex
      cumulativeCreditsSpent := row.cumulativeCreditsSpent + credits })

/-- `mark_paused`. -/
def markPaused (runs : Runs) (runId reason : String) : Runs :=
  runs.update runId (·.status.active) fun row =>
    { row with status := .paused, pausedReason := some reason }

/-- `mark_status`. -/
def markStatus (runs : Runs) (runId : String) (status : RunStatus) : Runs :=
  runs.update runId (·.status.active) fun row => { row with status := status }

/-- `mark_stopped`. -/
def markStopped (runs : Runs) (runId : String) (userId : UserId) : Runs :=
  runs.update runId (fun row => row.userId == userId && row.status.active) fun row =>
    { row with status := .cancelled }

/-- `active_child`: some continuation of a run; the table keeps its rows in insertion order. -/
def activeChild (runs : Runs) (parentRunId : String) : Option AgentRun :=
  runs.find? fun row => row.continuedFromRunId == some parentRunId

/-- `cas_resume`: the rows afterwards, and the session and model of the row it flipped. -/
def casResume (runs : Runs) (runId : String) : Option (String × Option String) × Runs :=
  ((runs.find? fun row => row.runId == runId && row.status == .paused).map
      fun row => (row.sessionId, row.model),
    runs.update runId (·.status == .paused) fun row => { row with status := .resumed })

/-- `revert_cas`. -/
def revertCas (runs : Runs) (runId : String) : Runs :=
  runs.update runId (fun row => row.status == .resumed && (runs.activeChild runId).isNone)
    fun row => { row with status := .paused }

end Runs

/-- The rows of `agent_run_snapshots`. -/
abbrev Snapshots := List RunSnapshot

namespace Snapshots

/-- `SELECT … WHERE run_id = :run_id`. -/
def get (snapshots : Snapshots) (runId : String) : Option RunSnapshot :=
  snapshots.find? fun row => row.runId == runId

/-- Neither a `TEXT` nor a string in a `JSONB` holds a NUL. -/
def storable (text : String) : Bool :=
  !text.toList.contains (Char.ofNat 0)

/-- The row satisfies the column types and the `CHECK` constraints of the table. -/
def admitted (row : RunSnapshot) : Bool :=
  fitsBigint row.inputTokens && fitsBigint row.outputTokens &&
    decide (0 ≤ row.inputTokens) && decide (0 ≤ row.outputTokens) &&
    storable row.resultText && row.lastTool.all storable &&
    row.pendingApproval.all fun approval =>
      approval.tool.all storable && approval.preview.all storable

/-- The row an upsert leaves when one is there already: the text only if it continues the stored
one, the larger counts, the approval only if the caller speaks for it. -/
def merge (stored incoming : RunSnapshot) (assertApproval : Bool) : RunSnapshot :=
  { stored with
    resultText :=
      if stored.resultText.toList.isPrefixOf incoming.resultText.toList then incoming.resultText
      else stored.resultText
    inputTokens := max stored.inputTokens incoming.inputTokens
    outputTokens := max stored.outputTokens incoming.outputTokens
    lastTool := incoming.lastTool
    pendingApproval :=
      if assertApproval then incoming.pendingApproval else stored.pendingApproval }

/-- `upsert`: refused without a parent run, and a no-op on the row of another user. -/
def upsert (snapshots : Snapshots) (runs : Runs) (incoming : RunSnapshot)
    (assertApproval : Bool) : Except DbError Snapshots :=
  if !admitted incoming then .error .outOfRange
  else
    match snapshots.get incoming.runId with
    | none =>
        if (runs.get incoming.runId).isNone then
          .error (.checkViolation "agent_run_snapshots_run_id_fkey")
        else .ok (snapshots ++ [incoming])
    | some _ => .ok (snapshots.map fun stored =>
        if stored.runId = incoming.runId ∧ stored.userId = incoming.userId then
          merge stored incoming assertApproval
        else stored)

/-- `ensure_row`. -/
def ensureRow (snapshots : Snapshots) (runId : String) (userId : UserId) : Snapshots :=
  if (snapshots.get runId).isSome then snapshots
  else snapshots ++ [{ runId := runId, userId := userId }]

/-- `touch_consumer_heartbeat`. -/
def touchConsumerHeartbeat (snapshots : Snapshots) (runId : String) (now : Time) : Snapshots :=
  snapshots.map fun row =>
    if row.runId = runId then { row with consumerHeartbeatAt := some now } else row

/-- `clear_pending_approval`. -/
def clearPendingApproval (snapshots : Snapshots) (runId : String) (userId : UserId) : Snapshots :=
  snapshots.map fun row =>
    if row.runId = runId ∧ row.userId = userId then { row with pendingApproval := none } else row

end Snapshots

structure OrphanCandidate where
  runId : String
  userId : UserId
  snapshotPresent : Bool
  heartbeatAgeSeconds : ℚ
  inputTokens : Int
  outputTokens : Int
  deriving DecidableEq, Repr

namespace AgentDb

/-- `COALESCE(s.consumer_heartbeat_at, r.created_at)`. -/
def lastSign (db : AgentDb) (run : AgentRun) : Time :=
  ((Snapshots.get db.snapshots run.runId).bind (·.consumerHeartbeatAt)).getD run.createdAt

def candidate (db : AgentDb) (now : Time) (run : AgentRun) : OrphanCandidate :=
  let seen := Snapshots.get db.snapshots run.runId
  { runId := run.runId
    userId := run.userId
    snapshotPresent := seen.isSome
    heartbeatAgeSeconds := now - db.lastSign run
    inputTokens := (seen.map (·.inputTokens)).getD 0
    outputTokens := (seen.map (·.outputTokens)).getD 0 }

/-- `list_orphan_candidates`, oldest first. -/
def listOrphanCandidates (db : AgentDb) (now timeout : Time) (limit : Nat) :
    List OrphanCandidate :=
  (((db.runs.filter fun run =>
      run.status.active && decide (db.lastSign run < now - timeout)).insertionSort
        fun run other => run.createdAt ≤ other.createdAt).take limit).map
    (db.candidate now)

end AgentDb
end Hermes.AgentProxy
