import Hermes.AgentProxy.Portal

/-!
# What a step of the portal can do

A step rewrites rows of runs in place or inserts one, does the same to the snapshots, answers at
most one client, and lets a request wait only behind the check of its owner.
-/

namespace Hermes.AgentProxy

open Wallet (UserId)

def PortalAction.client : PortalAction → Option UserId
  | .launch userId .. | .ask userId .. => some userId
  | .passed call .. | .compareAndSet call .. | .findChild call | .continueRun call ..
  | .abandon call => some call.userId
  | .prepare .. | .flush .. | .heartbeat .. | .pause .. | .finish .. | .record ..
  | .retention .. => none

def PortalAction.Inserts (action : PortalAction) (run : AgentRun) : Prop :=
  (∃ settings policy debt message sessionId model status now,
    action = .launch run.userId settings policy debt message sessionId model
      (.answered (run.runId, status)) now) ∨
    ∃ call history status now, call.userId = run.userId ∧
      action = .continueRun call history (.ok (run.runId, status)) now

theorem PortalAction.Inserts.client {action : PortalAction} {run : AgentRun}
    (inserts : action.Inserts run) : action.client = some run.userId := by
  obtain ⟨_, _, _, _, _, _, _, _, rfl⟩ | ⟨call, _, _, _, same, rfl⟩ := inserts
  · rfl
  · exact congrArg some same

namespace Portal

variable {portal : Portal} {action : PortalAction} {userId : UserId} {runId : String}

section Fields

@[simp] theorem answer_runs (answered : ClientAnswer) :
    (portal.answer userId answered).runs = portal.runs := rfl

@[simp] theorem answer_snapshots (answered : ClientAnswer) :
    (portal.answer userId answered).snapshots = portal.snapshots := rfl

@[simp] theorem tell_runs (contacts : List Contact) :
    (portal.tell userId contacts).runs = portal.runs := rfl

@[simp] theorem tell_snapshots (contacts : List Contact) :
    (portal.tell userId contacts).snapshots = portal.snapshots := rfl

@[simp] theorem hold_runs (call : ClientCall) : (portal.hold call).runs = portal.runs := rfl

@[simp] theorem hold_snapshots (call : ClientCall) :
    (portal.hold call).snapshots = portal.snapshots := rfl

@[simp] theorem drop_runs (call : ClientCall) : (portal.drop call).runs = portal.runs := rfl

@[simp] theorem drop_snapshots (call : ClientCall) :
    (portal.drop call).snapshots = portal.snapshots := rfl

@[simp] theorem writeRuns_runs (runs : Runs) (written : Bool) (now : Time) :
    (portal.writeRuns runs runId written now).runs = runs := rfl

@[simp] theorem writeRuns_snapshots (runs : Runs) (written : Bool) (now : Time) :
    (portal.writeRuns runs runId written now).snapshots = portal.snapshots := rfl

@[simp] theorem writeSnapshots_runs (snapshots : Snapshots) (written : Bool) (now : Time) :
    (portal.writeSnapshots snapshots runId written now).runs = portal.runs := rfl

@[simp] theorem writeSnapshots_snapshots (snapshots : Snapshots) (written : Bool) (now : Time) :
    (portal.writeSnapshots snapshots runId written now).snapshots = snapshots := rfl

end Fields

/-! ## The rows of runs -/

inductive RunsStep (portal : Portal) (action : PortalAction) : Runs → Prop
  | same : RunsStep portal action portal.runs
  /-- A continuation follows the run of a request which waits. -/
  | insert (run : AgentRun) (inserts : action.Inserts run)
      (follows : ∀ parent, run.continuedFromRunId = some parent →
        ∃ call ∈ portal.calls, call.userId = run.userId ∧ call.runId = parent) :
      RunsStep portal action (portal.runs.createRunning run)
  /-- A client writes the run of a request which waits, or rows of its own. -/
  | update (runId : String) (guard : AgentRun → Bool) (change : AgentRun → AgentRun)
      (evolves : ∀ row, guard row = true → Lifecycle.Evolves row (change row))
      (own : ∀ userId, action.client = some userId →
        (∃ call ∈ portal.calls, call.userId = userId ∧ call.runId = runId) ∨
          ∀ row, guard row = true → row.userId = userId) :
      RunsStep portal action (portal.runs.update runId guard change)

theorem evolves_of_active {row kept : AgentRun} (active : row.status.active = true)
    (runId : kept.runId = row.runId) (userId : kept.userId = row.userId)
    (parent : kept.continuedFromRunId = row.continuedFromRunId) : Lifecycle.Evolves row kept :=
  Lifecycle.evolves_status kept (Lifecycle.terminal_of_active active) runId userId parent

theorem launch_runs (userId : UserId) (settings : Settings) (policy : Policy.PolicyState)
    (debt : Int) (message sessionId : String) (model : Option String)
    (launched : Upstream (String × String)) (now : Time) :
    RunsStep portal (.launch userId settings policy debt message sessionId model launched now)
      (portal.launch userId settings policy debt message sessionId model launched now).runs := by
  unfold launch
  split
  · exact .same
  · cases launched with
    | asleep failure => exact .same
    | silent failure => exact .same
    | answered value =>
        refine .insert _ (.inl ⟨_, _, _, _, _, _, value.2, _, rfl⟩) fun parent follows => ?_
        cases follows

theorem ask_runs (request : ClientRequest) :
    (portal.ask userId runId request).runs = portal.runs := by
  cases request with
  | state => rfl
  | events lastEventId afterSeq =>
      rw [ask]
      split <;> rfl
  | approval choice =>
      rw [ask]
      split <;> rfl
  | stop =>
      rw [ask]
      split <;> rfl
  | resume settings policy debt message =>
      rw [ask]
      split
      · rfl
      · split
        · rfl
        · split <;> rfl

def Plain (answered : ClientAnswer) : Prop := ∀ view, answered ≠ .state view

/-- A passed request changes what its effect changes. -/
theorem pass_cases (holds : Portal → Prop) {call : ClientCall} {path : String} {body : Option Json}
    {outcome : Upstream (Int × Option Json)} {effect : Portal → Portal}
    (refused : ∀ contacts answered, Plain answered →
      holds ((portal.tell call.userId contacts).answer call.userId answered))
    (done : ∀ contacts answered, Plain answered →
      holds ((effect (portal.tell call.userId contacts)).answer call.userId answered)) :
    holds (portal.pass call path body outcome effect) := by
  unfold pass
  split
  · exact refused _ _ fun _ same => by cases same
  · exact refused _ _ fun _ same => by cases same
  · dsimp only
    split
    · exact refused _ _ fun _ same => by cases same
    · exact done _ _ fun _ same => by cases same

theorem continueRun_cases (holds : Portal → Prop) {call : ClientCall} {message : Option String}
    {sessionId : String} {model : Option String} {history : Upstream (List Json)}
    {launched : Except CallFailure (String × String)} {now : Time}
    (reverted : ∀ contacts answered, Plain answered → holds
      (((portal.tell call.userId contacts).revertCas call.runId now).answer call.userId answered))
    (chained : ∀ contacts newRunId status answered, launched = .ok (newRunId, status) →
      Plain answered → holds (((portal.tell call.userId contacts).insertRun (Lifecycle.childRow
        ⟨call.runId, call.userId, sessionId, model⟩ newRunId now)).answer call.userId answered)) :
    holds (portal.continueRun call message sessionId model history launched now) := by
  unfold continueRun
  split
  · exact reverted _ _ fun _ same => by cases same
  · exact reverted _ _ fun _ same => by cases same
  · dsimp only
    split
    · exact reverted _ _ fun _ same => by cases same
    · exact chained _ _ _ _ rfl fun _ same => by cases same

theorem casResume_runs (runs : Runs) (runId : String) :
    (Runs.casResume runs runId).2 = runs.update runId (·.status == .paused)
      fun row => { row with status := .resumed } := rfl

/-- A waiting request writes the row of its own run or inserts one of its own user. -/
theorem proceed_runs {call : ClientCall} (waits : call ∈ portal.calls)
    (client : action.client = some call.userId) :
    RunsStep portal action (portal.proceed call action).runs := by
  have own (guard : AgentRun → Bool) : ∀ userId, action.client = some userId →
      (∃ other ∈ portal.calls, other.userId = userId ∧ other.runId = call.runId) ∨
        ∀ row, guard row = true → row.userId = userId := by
    intro userId same
    rw [client, Option.some.injEq] at same
    exact .inl ⟨call, waits, same, rfl⟩
  let holds (after : Portal) : Prop := RunsStep portal action after.runs
  have quiet : RunsStep portal action portal.runs := .same
  cases action with
  | passed _ outcome now =>
      rw [proceed]
      split
      · exact pass_cases holds (fun _ _ _ => quiet) fun _ _ _ => quiet
      · exact pass_cases holds (fun _ _ _ => quiet) fun _ _ _ =>
          .update call.runId _ _ (fun row stops => evolves_of_active
            (Bool.and_eq_true_iff.mp stops).2 rfl rfl rfl) (own _)
      · exact quiet
  | compareAndSet _ now =>
      rw [proceed]
      split
      · split
        · exact quiet
        next sessionId model resumed won =>
          obtain rfl : _ = resumed := congrArg Prod.snd won
          rw [hold_runs, writeRuns_runs, casResume_runs]
          refine .update call.runId _ _ (fun row paused => ?_) (own _)
          refine Lifecycle.evolves_status _ ?_ rfl rfl rfl
          rw [beq_iff_eq.mp paused]
          rfl
      · exact quiet
  | findChild _ =>
      rw [proceed]
      split <;> exact quiet
  | continueRun other history launched now =>
      rw [proceed]
      split
      · refine continueRun_cases holds (fun _ _ _ => ?_) fun _ newRunId status _ launches _ => ?_
        · refine .update call.runId _ _ (fun row resumed => ?_) (own _)
          refine Lifecycle.evolves_status _ ?_ rfl rfl rfl
          rw [beq_iff_eq.mp (Bool.and_eq_true_iff.mp resumed).1]
          rfl
        · subst launches
          refine .insert _ (.inr ⟨other, history, status, now, ?_, rfl⟩) fun parent follows => ?_
          · exact Option.some.inj client
          · exact ⟨call, waits, rfl, Option.some.inj follows⟩
      · exact quiet
  | abandon _ => exact quiet
  | launch | prepare | flush | heartbeat | pause | finish | record | retention | ask =>
      exact quiet

theorem perform_runs (portal : Portal) (action : PortalAction) :
    RunsStep portal action (portal.perform action).runs := by
  have waiting (call : ClientCall) (client : action.client = some call.userId) :
      RunsStep portal action
        (if call ∈ portal.calls then portal.proceed call action else portal).runs := by
    split
    next waits => exact proceed_runs waits client
    next => exact .same
  cases action with
  | launch userId settings policy debt message sessionId model launched now =>
      exact launch_runs userId settings policy debt message sessionId model launched now
  | prepare runId userId now =>
      rw [perform]
      split <;> exact .same
  | flush incoming assertApproval now =>
      rw [perform, flush]
      split <;> exact .same
  | heartbeat runId now => exact .same
  | pause runId reason now =>
      exact .update runId _ _ (fun row active => evolves_of_active active rfl rfl rfl)
        fun _ same => by cases same
  | finish runId status now =>
      rw [perform]
      split
      · exact .update runId _ _ (fun row active => evolves_of_active active rfl rfl rfl)
          fun _ same => by cases same
      · exact .same
  | record runId stepIndex credits now =>
      rw [perform, record]
      split
      · exact .same
      next recorded =>
        rw [writeRuns_runs]
        unfold Runs.recordStep at recorded
        split at recorded
        · cases recorded
        · split at recorded
          · cases recorded
          · cases recorded
            exact .update runId _ _ (fun _ _ => ⟨rfl, rfl, rfl, fun _ => rfl⟩)
              fun _ same => by cases same
  | retention now ttl => exact .same
  | ask userId runId request =>
      rw [perform, ask_runs]
      exact .same
  | passed call outcome now => exact waiting call rfl
  | compareAndSet call now => exact waiting call rfl
  | findChild call => exact waiting call rfl
  | continueRun call history launched now => exact waiting call rfl
  | abandon call => exact waiting call rfl

/-! ## Snapshots -/

inductive SnapshotWrite (action : PortalAction) : RunSnapshot → RunSnapshot → Prop
  | kept (row : RunSnapshot) : SnapshotWrite action row row
  | merged (stored incoming : RunSnapshot) (assertApproval : Bool) (now : Time)
      (flushed : action = .flush incoming assertApproval now)
      (same : stored.runId = incoming.runId ∧ stored.userId = incoming.userId) :
      SnapshotWrite action stored (Snapshots.merge stored incoming assertApproval)
  | stamped (row : RunSnapshot) (now : Time) (relay : action.client = none) :
      SnapshotWrite action row { row with consumerHeartbeatAt := some now }
  | cleared (row : RunSnapshot) (own : action.client = some row.userId) :
      SnapshotWrite action row { row with pendingApproval := none }
  | swept (row : RunSnapshot) (now ttl : Time) (retention : action = .retention now ttl) :
      SnapshotWrite action row { row with resultText := "", pendingApproval := none }

/-- A row which a step inserts: a blank one, or the first flush. -/
inductive SnapshotInsert (action : PortalAction) : RunSnapshot → Prop
  | blank (runId : String) (userId : UserId) (now : Time)
      (prepared : action = .prepare runId userId now) :
      SnapshotInsert action { runId := runId, userId := userId }
  | flushed (incoming : RunSnapshot) (assertApproval : Bool) (now : Time)
      (flushed : action = .flush incoming assertApproval now)
      (counts : 0 ≤ incoming.inputTokens ∧ 0 ≤ incoming.outputTokens) :
      SnapshotInsert action incoming

inductive SnapshotsStep (portal : Portal) (action : PortalAction) : Snapshots → Prop
  | map (change : RunSnapshot → RunSnapshot)
      (writes : ∀ row, SnapshotWrite action row (change row)) :
      SnapshotsStep portal action (portal.snapshots.map change)
  | insert (row : RunSnapshot) (inserts : SnapshotInsert action row) :
      SnapshotsStep portal action (portal.snapshots ++ [row])

theorem SnapshotsStep.same : SnapshotsStep portal action portal.snapshots := by
  have kept := @SnapshotsStep.map portal action id .kept
  rwa [List.map_id] at kept

theorem ask_snapshots (request : ClientRequest) :
    (portal.ask userId runId request).snapshots = portal.snapshots := by
  cases request with
  | state => rfl
  | events lastEventId afterSeq =>
      rw [ask]
      split <;> rfl
  | approval choice =>
      rw [ask]
      split <;> rfl
  | stop =>
      rw [ask]
      split <;> rfl
  | resume settings policy debt message =>
      rw [ask]
      split
      · rfl
      · split
        · rfl
        · split <;> rfl

theorem proceed_snapshots {call : ClientCall} (client : action.client = some call.userId) :
    SnapshotsStep portal action (portal.proceed call action).snapshots := by
  let holds (after : Portal) : Prop := SnapshotsStep portal action after.snapshots
  have quiet : SnapshotsStep portal action portal.snapshots := .same
  cases action with
  | passed _ outcome now =>
      rw [proceed]
      split
      · refine pass_cases holds (fun _ _ _ => quiet) fun _ _ _ => .map _ fun row => ?_
        split
        next own => exact .cleared row (own.2 ▸ client)
        next => exact .kept row
      · exact pass_cases holds (fun _ _ _ => quiet) fun _ _ _ => quiet
      · exact quiet
  | compareAndSet _ now =>
      rw [proceed]
      split
      · split <;> exact quiet
      · exact quiet
  | findChild _ =>
      rw [proceed]
      split <;> exact quiet
  | continueRun _ history launched now =>
      rw [proceed]
      split
      · exact continueRun_cases holds (fun _ _ _ => quiet) fun _ _ _ _ _ _ => quiet
      · exact quiet
  | abandon _ => exact quiet
  | launch | prepare | flush | heartbeat | pause | finish | record | retention | ask =>
      exact quiet

theorem flush_snapshots (incoming : RunSnapshot) (assertApproval : Bool) (now : Time) :
    SnapshotsStep portal (.flush incoming assertApproval now)
      (portal.flush incoming assertApproval now).snapshots := by
  rw [flush]
  split
  · exact .same
  next snapshots written =>
    rw [writeSnapshots_snapshots]
    rw [Snapshots.upsert] at written
    split at written
    · cases written
    next admitted =>
      split at written
      · split at written
        · cases written
        · cases written
          simp only [Snapshots.admitted, Bool.not_eq_true', Bool.not_eq_false, Bool.and_eq_true,
            decide_eq_true_eq] at admitted
          exact .insert incoming (.flushed incoming assertApproval now rfl
            ⟨admitted.1.1.1.1.2, admitted.1.1.1.2⟩)
      · cases written
        refine .map _ fun stored => ?_
        split
        next same => exact .merged stored incoming assertApproval now rfl same
        next => exact .kept stored

theorem perform_snapshots (portal : Portal) (action : PortalAction) :
    SnapshotsStep portal action (portal.perform action).snapshots := by
  have waiting (call : ClientCall) (client : action.client = some call.userId) :
      SnapshotsStep portal action
        (if call ∈ portal.calls then portal.proceed call action else portal).snapshots := by
    split
    · exact proceed_snapshots client
    · exact .same
  cases action with
  | launch userId settings policy debt message sessionId model launched now =>
      rw [perform, launch]
      split
      · exact .same
      · cases launched <;> exact .same
  | prepare runId userId now =>
      rw [perform]
      split
      · rw [writeSnapshots_snapshots, Snapshots.ensureRow]
        split
        · exact .same
        · exact .insert _ (.blank runId userId now rfl)
      · exact .same
  | flush incoming assertApproval now => exact flush_snapshots incoming assertApproval now
  | heartbeat runId now =>
      refine .map _ fun row => ?_
      split
      · exact .stamped row now rfl
      · exact .kept row
  | pause runId reason now => exact .same
  | finish runId status now =>
      rw [perform]
      split <;> exact .same
  | record runId stepIndex credits now =>
      rw [perform, record]
      split <;> exact .same
  | retention now ttl =>
      refine .map _ fun row => ?_
      split
      · exact .swept row now ttl rfl
      · exact .kept row
  | ask userId runId request =>
      rw [perform, ask_snapshots]
      exact .same
  | passed call outcome now => exact waiting call rfl
  | compareAndSet call now => exact waiting call rfl
  | findChild call => exact waiting call rfl
  | continueRun call history launched now => exact waiting call rfl
  | abandon call => exact waiting call rfl

/-! ## Answers and requests -/

/-- A step answers nobody or one client, and where it answers with a state, with the present one. -/
inductive AnswersStep (portal after : Portal) : Prop
  | silent (same : after.answers = portal.answers) : AnswersStep portal after
  | answered (userId : UserId) (answer : ClientAnswer)
      (appended : after.answers = portal.answers ++ [(userId, answer)])
      (present : ∀ view, answer = .state view → after.getState userId view.runId = some view) :
      AnswersStep portal after

theorem getState_runId {view : RunStateView} (shown : portal.getState userId runId = some view) :
    view.runId = runId := by
  obtain ⟨run, visible, rfl⟩ := Option.map_eq_some_iff.mp shown
  have found := (Option.filter_eq_some_iff.mp visible).1
  simpa using List.find?_some found

theorem ask_answers (request : ClientRequest) :
    AnswersStep portal (portal.ask userId runId request) := by
  cases request with
  | state =>
      refine .answered userId _ rfl fun view same => ?_
      split at same
      next shown =>
        cases same
        rw [getState_runId shown]
        exact shown
      next => cases same
  | events lastEventId afterSeq =>
      rw [ask]
      split
      · exact .answered userId _ rfl fun _ same => by cases same
      · refine .answered userId _ rfl fun _ same => ?_
        split at same <;> cases same
  | approval choice =>
      rw [ask]
      split
      · exact .silent rfl
      · exact .answered userId _ rfl fun _ same => by cases same
  | stop =>
      rw [ask]
      split
      · exact .silent rfl
      · exact .answered userId _ rfl fun _ same => by cases same
  | resume settings policy debt message =>
      rw [ask]
      split
      · exact .answered userId _ rfl fun _ same => by cases same
      · split
        · exact .answered userId _ rfl fun _ same => by cases same
        · split
          · exact .answered userId _ rfl fun _ same => by cases same
          · exact .silent rfl

theorem Plain.answersStep {answered : ClientAnswer} {before after : Portal} (plain : Plain answered)
    (same : after.answers = before.answers) :
    AnswersStep before (after.answer userId answered) :=
  .answered userId answered (congrArg (· ++ [(userId, answered)]) same)
    fun view state => absurd state (plain view)

theorem proceed_answers (call : ClientCall) :
    AnswersStep portal (portal.proceed call action) := by
  let holds (after : Portal) : Prop := AnswersStep portal after
  have quiet : AnswersStep portal portal := .silent rfl
  cases action with
  | passed _ outcome now =>
      rw [proceed]
      split
      · exact pass_cases holds (fun _ _ plain => plain.answersStep rfl)
          fun _ _ plain => plain.answersStep rfl
      · exact pass_cases holds (fun _ _ plain => plain.answersStep rfl)
          fun _ _ plain => plain.answersStep rfl
      · exact quiet
  | compareAndSet _ now =>
      rw [proceed]
      split
      · split <;> exact .silent rfl
      · exact quiet
  | findChild _ =>
      rw [proceed]
      split
      · refine Plain.answersStep (fun _ same => ?_) rfl
        split at same <;> cases same
      · exact quiet
  | continueRun _ history launched now =>
      rw [proceed]
      split
      · exact continueRun_cases holds (fun _ _ plain => plain.answersStep rfl)
          fun _ _ _ _ _ plain => plain.answersStep rfl
      · exact quiet
  | abandon _ => exact .silent rfl
  | launch | prepare | flush | heartbeat | pause | finish | record | retention | ask =>
      exact quiet

theorem perform_answers (portal : Portal) (action : PortalAction) :
    AnswersStep portal (portal.perform action) := by
  have waiting (call : ClientCall) : AnswersStep portal
      (if call ∈ portal.calls then portal.proceed call action else portal) := by
    split
    · exact proceed_answers call
    · exact .silent rfl
  cases action with
  | launch userId settings policy debt message sessionId model launched now =>
      rw [perform, launch]
      split
      · exact Plain.answersStep (fun _ same => by cases same) rfl
      · cases launched <;> exact Plain.answersStep (fun _ same => by cases same) rfl
  | prepare runId userId now =>
      rw [perform]
      split <;> exact .silent rfl
  | flush incoming assertApproval now =>
      rw [perform, flush]
      split <;> exact .silent rfl
  | heartbeat runId now => exact .silent rfl
  | pause runId reason now => exact .silent rfl
  | finish runId status now =>
      rw [perform]
      split <;> exact .silent rfl
  | record runId stepIndex credits now =>
      rw [perform, record]
      split <;> exact .silent rfl
  | retention now ttl => exact .silent rfl
  | ask userId runId request => exact ask_answers request
  | passed call outcome now => exact waiting call
  | compareAndSet call now => exact waiting call
  | findChild call => exact waiting call
  | continueRun call history launched now => exact waiting call
  | abandon call => exact waiting call

theorem ask_calls (request : ClientRequest) {call : ClientCall}
    (waits : call ∈ (portal.ask userId runId request).calls) :
    call ∈ portal.calls ∨ (portal.runs.visible call.userId call.runId).isSome := by
  have held {stage : CallStage} (waits : call ∈ (portal.hold ⟨userId, runId, stage⟩).calls)
      (visible : (portal.runs.visible userId runId).isSome) :
      call ∈ portal.calls ∨ (portal.runs.visible call.userId call.runId).isSome := by
    obtain earlier | rfl := List.mem_append.mp waits |>.imp_right List.mem_singleton.mp
    · exact .inl earlier
    · exact .inr visible
  cases request with
  | state => exact .inl waits
  | events lastEventId afterSeq =>
      rw [ask] at waits
      split at waits <;> exact .inl waits
  | approval choice =>
      rw [ask] at waits
      split at waits
      next visible => exact held waits visible
      next => exact .inl waits
  | stop =>
      rw [ask] at waits
      split at waits
      next visible => exact held waits visible
      next => exact .inl waits
  | resume settings policy debt message =>
      rw [ask] at waits
      split at waits
      · exact .inl waits
      next run visible =>
        split at waits
        · exact .inl waits
        · split at waits
          · exact .inl waits
          · exact held waits (visible ▸ rfl)

/-- A request which goes on stays with its user and run. -/
theorem proceed_calls {call other : ClientCall} (present : call ∈ portal.calls)
    (waits : other ∈ (portal.proceed call action).calls) :
    ∃ earlier ∈ portal.calls, earlier.userId = other.userId ∧ earlier.runId = other.runId := by
  let holds (after : Portal) : Prop := other ∈ after.calls →
    ∃ earlier ∈ portal.calls, earlier.userId = other.userId ∧ earlier.runId = other.runId
  have quiet : holds portal := fun waits => ⟨other, waits, rfl, rfl⟩
  have dropped : holds (portal.drop call) := fun waits =>
    ⟨other, List.mem_of_mem_erase waits, rfl, rfl⟩
  have moved (stage : CallStage) :
      holds ((portal.drop call).hold { call with stage := stage }) := by
    intro waits
    obtain kept | rfl := List.mem_append.mp waits |>.imp_right List.mem_singleton.mp
    · exact dropped kept
    · exact ⟨call, present, rfl, rfl⟩
  revert waits
  change holds (portal.proceed call action)
  cases action with
  | passed _ outcome now =>
      rw [proceed]
      split
      · exact pass_cases holds (fun _ _ _ => dropped) fun _ _ _ => dropped
      · exact pass_cases holds (fun _ _ _ => dropped) fun _ _ _ => dropped
      · exact quiet
  | compareAndSet _ now =>
      rw [proceed]
      split
      · split
        · exact moved .lost
        · exact moved (.won ..)
      · exact quiet
  | findChild _ =>
      rw [proceed]
      split
      · exact dropped
      · exact quiet
  | continueRun _ history launched now =>
      rw [proceed]
      split
      · exact continueRun_cases holds (fun _ _ _ => dropped) fun _ _ _ _ _ _ => dropped
      · exact quiet
  | abandon _ => exact dropped
  | launch | prepare | flush | heartbeat | pause | finish | record | retention | ask =>
      exact quiet

theorem perform_calls {call : ClientCall} (waits : call ∈ (portal.perform action).calls) :
    (∃ earlier ∈ portal.calls, earlier.userId = call.userId ∧ earlier.runId = call.runId) ∨
      (portal.runs.visible call.userId call.runId).isSome := by
  have kept (same : call ∈ portal.calls) :
      (∃ earlier ∈ portal.calls, earlier.userId = call.userId ∧ earlier.runId = call.runId) ∨
        (portal.runs.visible call.userId call.runId).isSome :=
    .inl ⟨call, same, rfl, rfl⟩
  have going (other : ClientCall)
      (waits : call ∈
        (if other ∈ portal.calls then portal.proceed other action else portal).calls) :
      (∃ earlier ∈ portal.calls, earlier.userId = call.userId ∧ earlier.runId = call.runId) ∨
        (portal.runs.visible call.userId call.runId).isSome := by
    split at waits
    next present => exact .inl (proceed_calls present waits)
    next => exact kept waits
  cases action with
  | launch userId settings policy debt message sessionId model launched now =>
      rw [perform, launch] at waits
      split at waits
      · exact kept waits
      · cases launched <;> exact kept waits
  | prepare runId userId now =>
      rw [perform] at waits
      split at waits <;> exact kept waits
  | flush incoming assertApproval now =>
      rw [perform, flush] at waits
      split at waits <;> exact kept waits
  | heartbeat runId now => exact kept waits
  | pause runId reason now => exact kept waits
  | finish runId status now =>
      rw [perform] at waits
      split at waits <;> exact kept waits
  | record runId stepIndex credits now =>
      rw [perform, record] at waits
      split at waits <;> exact kept waits
  | retention now ttl => exact kept waits
  | ask userId runId request =>
      obtain same | visible := ask_calls request waits
      · exact kept same
      · exact .inr visible
  | passed other outcome now => exact going other waits
  | compareAndSet other now => exact going other waits
  | findChild other => exact going other waits
  | continueRun other history launched now => exact going other waits
  | abandon other => exact going other waits

end Portal

end Hermes.AgentProxy
