import Hermes.AgentProxy.Charge

/-!
# Where the processing of an event waits

A call of `process_event` notes what its event reports, and then awaits the balance, the debit and
the stop call one after the other.  Whatever others do meanwhile, it goes on with what it has read.
-/

namespace Hermes.AgentProxy

open Wallet (TxId ConsumeRequest)

/-- What `_bill_step` makes of a balance. -/
inductive StepBill
  | covered
  | depleted
  | debit (stepIndex want : Int) (request : ConsumeRequest)

/-- `_bill_step` up to its debit. -/
def stepBill (settings : Settings) (newId : TxId) (run : RunProcessing) (event : SseEvent)
    (balance : Int) : Except Raised StepBill :=
  match extractUsageCounts event, asInt (Json.get? event.data "step_index") with
  | .ok usage, .ok stepIndex =>
      match usageToCredits settings.rates usage.inputTokens usage.outputTokens with
      | .error error => .error (.python error)
      | .ok owed =>
          let want := owed - run.charged
          if want ≤ 0 then .ok .covered
          else
            let charge := min want balance
            if 0 < charge then
              match rawUsage event usage with
              | .error error => .error (.python error)
              | .ok record =>
                  .ok (.debit stepIndex want
                    (stepRequest run.runId stepIndex charge record (extractModel event) newId))
            else .ok .depleted
  | .error error, _ => .error (.python error)
  | _, .error error => .error (.python error)

/-- What a call of `process_event` is waiting for, with all it goes on with. -/
inductive Stage
  /-- `_bill_step` awaits the balance. -/
  | balance (event : SseEvent)
  /-- `_bill_step` awaits its debit. -/
  | step (stepIndex want : Int) (request : ConsumeRequest)
  /-- `_bill_completed` awaits its debit. -/
  | completed (event : SseEvent) (usage : UsageCounts)
  /-- `_pause_run` awaits the stop call. -/
  | pause

/-- A call has returned or raised, or it waits. -/
inductive Continuation
  | ended (result : Except Raised (Option PausedBlock))
  | waits (stage : Stage)

section Call

variable (settings : Settings) (conditions : Conditions) (run : RunProcessing)

/-- `process_event` until it first waits for something that concerns the wallet. -/
def startEvent (event : SseEvent) (db : AgentDb) : Continuation × RunProcessing × AgentDb :=
  match eventKind event, extractUsageCounts event with
  | .usageDelta, .error error => (.ended (.error (.python error)), run, db)
  | .usageDelta, .ok anchors =>
      let noted := noteAnchors settings conditions run anchors db
      (if noted.1.incremental then .waits (.balance event) else .ended (.ok none), noted)
  | .runCompleted, .error error => (.ended (.error (.python error)), run, db)
  | .runCompleted, .ok usage =>
      let noted := noteCompleted settings conditions run usage db
      (if noted.1.billed then .ended (.ok none) else .waits (.completed event usage), noted)
  | _, _ =>
      let processed := processEvent settings conditions run event db
      (.ended processed.1, processed.2)

/-- The call goes on once what it waits for is there. -/
def resumeEvent (stage : Stage) (db : AgentDb) : Continuation × RunProcessing × AgentDb :=
  match stage with
  | .balance event =>
      match stepBill settings conditions.newId run event (db.accounts run.userId).balance with
      | .error raised => (.ended (.error raised), run, db)
      | .ok .covered => (.ended (.ok none), run, db)
      | .ok .depleted => (.waits .pause, run, db)
      | .ok (.debit stepIndex want request) => (.waits (.step stepIndex want request), run, db)
  | .step stepIndex want request =>
      match chargeStep settings conditions run stepIndex want request db with
      | (.error raised, db) => (.ended (.error raised), run, db)
      | (.ok (charged, depleted), db) =>
          (if depleted then .waits .pause else .ended (.ok none), { run with charged := charged },
            db)
  | .completed event usage =>
      match billCompleted settings conditions run event usage db with
      | (.error raised, db) => (.ended (.error raised), run, db)
      | (.ok billed, db) => (.ended (.ok none), { run with billed := billed }, db)
  | .pause =>
      let paused := pauseRun settings conditions run db
      (.ended paused.1, paused.2)

/-- A call which nobody interrupts, going on at most so many times. -/
def settle (settings : Settings) (conditions : Conditions) :
    Nat → Continuation × RunProcessing × AgentDb →
      Option (Except Raised (Option PausedBlock) × RunProcessing × AgentDb)
  | _, (.ended result, run, db) => some (result, run, db)
  | 0, (.waits _, _) => none
  | times + 1, (.waits stage, run, db) =>
      settle settings conditions times (resumeEvent settings conditions run stage db)

variable (event : SseEvent) (db : AgentDb)

theorem billStep_eq :
    billStep settings conditions run event db =
      match stepBill settings conditions.newId run event (db.accounts run.userId).balance with
      | .error raised => (.error raised, db)
      | .ok .covered => (.ok (run.charged, false), db)
      | .ok .depleted => (.ok (run.charged, true), db)
      | .ok (.debit stepIndex want request) =>
          chargeStep settings conditions run stepIndex want request db := by
  unfold billStep stepBill
  cases extractUsageCounts event with
  | error error => rfl
  | ok usage =>
      cases asInt (Json.get? event.data "step_index") with
      | error error => rfl
      | ok stepIndex =>
          simp only
          cases usageToCredits settings.rates usage.inputTokens usage.outputTokens with
          | error error => rfl
          | ok owed =>
              simp only
              split
              · rfl
              · split
                · cases rawUsage event usage <;> rfl
                · rfl

theorem settle_billDelta (run : RunProcessing) (db : AgentDb) :
    settle settings conditions 3 (.waits (.balance event), run, db) =
      some (billDelta settings conditions run event db) := by
  rw [billDelta, billStep_eq, settle, resumeEvent]
  cases stepBill settings conditions.newId run event (db.accounts run.userId).balance with
  | error raised => rfl
  | ok bill =>
      cases bill with
      | covered => rfl
      | depleted => rfl
      | debit stepIndex want request =>
          simp only [settle, resumeEvent]
          cases chargeStep settings conditions run stepIndex want request db with
          | mk result after =>
              cases result with
              | error raised => rfl
              | ok billed =>
                  obtain ⟨charged, depleted⟩ := billed
                  cases depleted <;> rfl

/-- A call which nobody interrupts is the processing of its event. -/
theorem settle_startEvent :
    settle settings conditions 3 (startEvent settings conditions run event db) =
      some (processEvent settings conditions run event db) := by
  rw [startEvent, processEvent]
  cases eventKind event with
  | usageDelta =>
      simp only [onUsageDelta]
      cases extractUsageCounts event with
      | error error => rfl
      | ok anchors =>
          simp only
          split
          · exact settle_billDelta settings conditions event _ _
          · rfl
  | runCompleted =>
      simp only [onRunCompleted]
      cases extractUsageCounts event with
      | error error => rfl
      | ok usage =>
          simp only
          split
          · rfl
          · simp only [settle, resumeEvent]
            cases billCompleted settings conditions
              (noteCompleted settings conditions run usage db).1 event usage
              (noteCompleted settings conditions run usage db).2 with
            | mk result after => cases result <;> rfl
  | messageDelta => cases extractUsageCounts event <;> rfl
  | tool => cases extractUsageCounts event <;> rfl
  | approvalRequest => cases extractUsageCounts event <;> rfl
  | runFailed => cases extractUsageCounts event <;> rfl
  | other => cases extractUsageCounts event <;> rfl

end Call

end Hermes.AgentProxy
