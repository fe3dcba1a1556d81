import Hermes.AgentProxy.Overcharge

/-!
# A pending approval and the client's answer

A consumer keeps its own belief about the pending approval and writes it at some of its flushes,
while the client's answer clears the column from another request.  An answer stands until a request
which was emitted behind it is processed; the column stays clear while an answer stands, as long as
no request from before the answer is processed late and no consumer ends with such a request still
in its memory: the final flush speaks for the approval.
-/

namespace Hermes.AgentProxy

open Wallet (UserId)

/-- `flush_run_snapshot`: an immediate flush, which asserts the approval by default. -/
def flushRunSnapshot (settings : Settings) (conditions : Conditions) (run : RunProcessing)
    (db : AgentDb) : RunProcessing × AgentDb :=
  flushSnapshot settings conditions run true true db

/-- `sweep_expired`: the user content of the rows the sweep selects. -/
def Snapshots.sweepExpired (snapshots : Snapshots) (expired : RunSnapshot → Bool) : Snapshots :=
  snapshots.map fun row =>
    if expired row then { row with resultText := "", pendingApproval := none } else row

/-- `assert_run_owner`. -/
def ownsRun (db : AgentDb) (userId : UserId) (runId : String) : Bool :=
  match Runs.get db.runs runId with
  | some run => run.userId == userId
  | none => false

/-- One run: the database, the relays and consumers which follow it, what the instance has emitted,
and the answers of the client, each with the number of events emitted before it. -/
structure ApprovalSystem where
  db : AgentDb
  relays : List RunProcessing := []
  emitted : List SseEvent := []
  /-- Answers which the instance has accepted and which are yet to clear the column. -/
  posted : List Nat := []
  /-- Answers which have cleared the column. -/
  answers : List Nat := []
  /-- The approval requests processed so far, by their place among the emitted events. -/
  requested : List Nat := []

inductive ApprovalAction
  /-- `new_run_processing`. -/
  | subscribe
  /-- The instance emits an event. -/
  | emit (event : SseEvent)
  /-- `process_event` of an emitted event. -/
  | process (relay place : Nat) (conditions : Conditions)
  /-- The final flush of `_finalize`, behind which the consumer is gone. -/
  | finalize (relay : Nat) (conditions : Conditions)
  /-- A relay or a consumer stops without one. -/
  | leave (relay : Nat)
  /-- `approval` up to the 2xx of the instance. -/
  | post
  /-- `clear_pending_approval` of an accepted answer. -/
  | clear (answer : Nat)
  /-- `prepare_consumer_snapshot`. -/
  | prepare
  /-- `consumer_heartbeat`. -/
  | heartbeat (now : Time)
  /-- The retention sweep. -/
  | sweep (expired : RunSnapshot → Bool)
  /-- Everything else the database holds. -/
  | elsewhere (db : AgentDb)

namespace ApprovalSystem

section System

variable (settings : Settings) (userId : UserId) (runId : String)

/-- The snapshot of the run is there for the client. -/
def hasSnapshot (snapshots : Snapshots) : Bool :=
  snapshots.any fun row => row.runId == runId && row.userId == userId

def rowsOf (snapshots : Snapshots) : Snapshots := snapshots.filter (·.runId == runId)

def step (state : ApprovalSystem) : ApprovalAction → Option ApprovalSystem
  | .subscribe =>
      some { state with
        relays := state.relays ++ [newRunProcessing settings userId runId state.db] }
  | .emit event => some { state with emitted := state.emitted ++ [event] }
  | .process relay place conditions =>
      match state.relays[relay]?, state.emitted[place]? with
      | some run, some event =>
          let processed := processEvent settings conditions run event state.db
          some { state with
            db := processed.2.2
            relays := state.relays.set relay processed.2.1
            requested :=
              if eventKind event = .approvalRequest then state.requested ++ [place]
              else state.requested }
      | _, _ => none
  | .finalize relay conditions =>
      state.relays[relay]?.map fun run =>
        { state with
          db := (flushRunSnapshot settings conditions run state.db).2
          relays := state.relays.eraseIdx relay }
  | .leave relay => some { state with relays := state.relays.eraseIdx relay }
  | .post =>
      if ownsRun state.db userId runId then
        some { state with posted := state.posted ++ [state.emitted.length] }
      else none
  | .clear answer =>
      if answer ∈ state.posted then
        some { state with
          db := { state.db with
            snapshots := Snapshots.clearPendingApproval state.db.snapshots runId userId }
          posted := state.posted.erase answer
          answers :=
            if hasSnapshot userId runId state.db.snapshots then state.answers ++ [answer]
            else state.answers }
      else none
  | .prepare =>
      some { state with
        db := { state.db with
          snapshots := Snapshots.ensureRow state.db.snapshots runId userId } }
  | .heartbeat now =>
      some { state with
        db := { state.db with
          snapshots := Snapshots.touchConsumerHeartbeat state.db.snapshots runId now } }
  | .sweep expired =>
      some { state with
        db := { state.db with snapshots := Snapshots.sweepExpired state.db.snapshots expired } }
  | .elsewhere db =>
      if rowsOf runId db.snapshots = rowsOf runId state.db.snapshots then
        some { state with db := db }
      else none

/-- The answers which have cleared the column and behind which no request emitted later has been
processed. -/
def standing (state : ApprovalSystem) : List Nat :=
  state.answers.filter fun answer => state.requested.all (· < answer)

/-- A request is processed only if it was emitted behind every standing answer, and a consumer ends
with a request in its memory only while no answer stands. -/
def timely (state : ApprovalSystem) : ApprovalAction → Bool
  | .process _ place _ =>
      !(state.emitted[place]?.any fun event => eventKind event == .approvalRequest) ||
        state.standing.all (· ≤ place)
  | .finalize relay _ =>
      state.standing.isEmpty ||
        !(state.relays[relay]?.any fun run => run.state.pendingApproval.isSome)
  | _ => true

end System

def Cleared (userId : UserId) (runId : String) (snapshots : Snapshots) : Prop :=
  ∀ row ∈ snapshots, row.runId = runId → row.userId = userId → row.pendingApproval = none

/-- What a write which does not speak for a pending approval does to the rows of a run: a snapshot
stays, and stays clear. -/
structure Quiet (userId : UserId) (runId : String) (before after : Snapshots) : Prop where
  present : hasSnapshot userId runId before = true → hasSnapshot userId runId after = true
  cleared : hasSnapshot userId runId before = true → Cleared userId runId before →
    Cleared userId runId after

namespace Quiet

variable {userId : UserId} {runId : String} {before middle after : Snapshots}

theorem refl (snapshots : Snapshots) : Quiet userId runId snapshots snapshots :=
  ⟨id, fun _ => id⟩

theorem trans (first : Quiet userId runId before middle)
    (second : Quiet userId runId middle after) :
    Quiet userId runId before after where
  present there := second.present (first.present there)
  cleared there clear := second.cleared (first.present there) (first.cleared there clear)

/-- Rows rewritten one by one under their own names, none of which begins to wait. -/
theorem map {rewrite : RunSnapshot → RunSnapshot}
    (names : ∀ row, (rewrite row).runId = row.runId ∧ (rewrite row).userId = row.userId)
    (silent : ∀ row ∈ before, row.pendingApproval = none → (rewrite row).pendingApproval = none) :
    Quiet userId runId before (before.map rewrite) where
  present there := by
    obtain ⟨row, listed, named⟩ := List.any_eq_true.mp there
    refine List.any_eq_true.mpr ⟨rewrite row, List.mem_map_of_mem listed, ?_⟩
    rw [(names row).1, (names row).2]
    exact named
  cleared _ clear row listed of_run of_user := by
    obtain ⟨stored, present, rfl⟩ := List.mem_map.mp listed
    refine silent stored present (clear stored present ?_ ?_)
    · rw [← (names stored).1, of_run]
    · rw [← (names stored).2, of_user]

end Quiet

section Writes

variable {settings : Settings} {conditions : Conditions} {userId : UserId} {runId : String}
  {run : RunProcessing} {event : SseEvent} {db : AgentDb}

theorem present_upsert {snapshots after : Snapshots} {runs : Runs} {incoming : RunSnapshot}
    {assertApproval : Bool}
    (written : Snapshots.upsert snapshots runs incoming assertApproval = .ok after)
    (there : hasSnapshot userId runId snapshots = true) :
    after = snapshots.map (fun stored =>
        if stored.runId = incoming.runId ∧ stored.userId = incoming.userId then
          Snapshots.merge stored incoming assertApproval
        else stored) ∨
      after = snapshots ++ [incoming] ∧ incoming.runId ≠ runId := by
  unfold Snapshots.upsert at written
  split at written
  · cases written
  · split at written
    next absent =>
      split at written
      · cases written
      · cases written
        refine .inr ⟨rfl, fun same => ?_⟩
        obtain ⟨row, listed, named⟩ := List.any_eq_true.mp there
        rw [Snapshots.get, List.find?_eq_none] at absent
        refine absent row listed ?_
        rw [same]
        exact (Bool.and_eq_true_iff.mp named).1
    · cases written
      exact .inl rfl

theorem present_writeSnapshot (incoming : RunSnapshot) (assertApproval : Bool)
    (there : hasSnapshot userId runId db.snapshots = true) :
    hasSnapshot userId runId (writeSnapshot conditions incoming assertApproval db).snapshots =
      true := by
  rw [writeSnapshot]
  split
  · exact there
  · split
    · exact there
    next after written =>
      change hasSnapshot userId runId after = true
      obtain merged | ⟨inserted, -⟩ := present_upsert written there
      · obtain ⟨row, listed, named⟩ := List.any_eq_true.mp there
        rw [merged]
        refine List.any_eq_true.mpr ⟨_, List.mem_map_of_mem listed, ?_⟩
        split <;> exact named
      · rw [inserted, hasSnapshot, List.any_append]
        exact Bool.or_eq_true_iff.mpr (.inl there)

/-- A write which asserts no approval, or asserts that there is none. -/
theorem quiet_writeSnapshot {incoming : RunSnapshot} {assertApproval : Bool}
    (silent : assertApproval = true → incoming.pendingApproval = none) :
    Quiet userId runId db.snapshots
      (writeSnapshot conditions incoming assertApproval db).snapshots := by
  refine ⟨present_writeSnapshot incoming assertApproval, fun there clear => ?_⟩
  rw [writeSnapshot]
  split
  · exact clear
  · split
    · exact clear
    next after written =>
      change Cleared userId runId after
      intro row listed of_run of_user
      obtain rfl | ⟨rfl, other⟩ := present_upsert written there
      · obtain ⟨stored, present, rfl⟩ := List.mem_map.mp listed
        by_cases same : stored.runId = incoming.runId ∧ stored.userId = incoming.userId
        · rw [if_pos same] at of_run of_user ⊢
          rw [Snapshots.merge]
          cases assertApproval with
          | true => exact silent rfl
          | false => exact clear stored present of_run of_user
        · rw [if_neg same] at of_run of_user ⊢
          exact clear stored present of_run of_user
      · obtain present | new := List.mem_append.mp listed
        · exact clear row present of_run of_user
        · rw [List.mem_singleton.mp new] at of_run
          exact absurd of_run other

theorem present_flushSnapshot (immediate assertApproval : Bool)
    (there : hasSnapshot userId runId db.snapshots = true) :
    hasSnapshot userId runId
      (flushSnapshot settings conditions run immediate assertApproval db).2.snapshots = true := by
  rw [flushSnapshot]
  split
  · exact there
  · exact present_writeSnapshot _ _ there

theorem quiet_flushSnapshot (immediate : Bool) {assertApproval : Bool}
    (silent : assertApproval = true → run.state.pendingApproval = none) :
    Quiet userId runId db.snapshots
      (flushSnapshot settings conditions run immediate assertApproval db).2.snapshots := by
  rw [flushSnapshot]
  split
  · exact .refl _
  · exact quiet_writeSnapshot silent

theorem markTerminal_snapshots (status : RunStatus) :
    (markTerminal conditions runId status db).snapshots = db.snapshots := by
  rw [markTerminal]
  split <;> rfl

theorem quiet_pauseRun :
    Quiet userId runId db.snapshots (pauseRun settings conditions run db).2.2.snapshots := by
  rw [pauseRun]
  split
  · exact .refl _
  · simp only
    split <;> exact quiet_flushSnapshot true fun _ => rfl

theorem quiet_billDelta :
    Quiet userId runId db.snapshots (billDelta settings conditions run event db).2.2.snapshots := by
  have snapshots_eq := billStep_snapshots settings conditions run event db
  rw [billDelta]
  split
  next raised after outcome =>
    rw [outcome] at snapshots_eq
    rw [← snapshots_eq]
    exact .refl _
  next charged depleted after outcome =>
    rw [outcome] at snapshots_eq
    rw [← snapshots_eq]
    simp only
    split
    · exact quiet_pauseRun
    · exact .refl _

theorem quiet_onUsageDelta :
    Quiet userId runId db.snapshots
      (onUsageDelta settings conditions run event db).2.2.snapshots := by
  rw [onUsageDelta]
  split
  · exact .refl _
  next anchors read =>
    have noted : Quiet userId runId db.snapshots
        (noteAnchors settings conditions run anchors db).2.snapshots := by
      rw [noteAnchors]
      split
      · exact quiet_flushSnapshot true fun asserted => absurd asserted Bool.false_ne_true
      · exact .refl _
    simp only
    split
    · exact noted.trans quiet_billDelta
    · exact noted

theorem quiet_onRunCompleted :
    Quiet userId runId db.snapshots
      (onRunCompleted settings conditions run event db).2.2.snapshots := by
  rw [onRunCompleted]
  split
  · exact .refl _
  next usage read =>
    have noted : Quiet userId runId db.snapshots
        (noteCompleted settings conditions run usage db).2.snapshots := by
      rw [noteCompleted, markTerminal_snapshots]
      exact quiet_flushSnapshot true fun _ => rfl
    have billed_eq := billCompleted_snapshots settings conditions
      (noteCompleted settings conditions run usage db).1 event usage
      (noteCompleted settings conditions run usage db).2
    simp only
    split
    · exact noted
    · split
      next raised after outcome =>
        rw [outcome] at billed_eq
        exact billed_eq ▸ noted
      next billed after outcome =>
        rw [outcome] at billed_eq
        exact billed_eq ▸ noted

theorem quiet_processEvent (other : eventKind event ≠ .approvalRequest) :
    Quiet userId runId db.snapshots
      (processEvent settings conditions run event db).2.2.snapshots := by
  rw [processEvent]
  split
  · rw [onMessageDelta]
    split
    · exact quiet_flushSnapshot false fun asserted => absurd asserted Bool.false_ne_true
    · exact .refl _
  · exact quiet_flushSnapshot true fun _ => rfl
  next request => exact absurd request other
  · exact quiet_onUsageDelta
  · rw [onRunFailed, markTerminal_snapshots]
    exact quiet_flushSnapshot true fun _ => rfl
  · exact quiet_onRunCompleted
  · exact .refl _

theorem present_processEvent (there : hasSnapshot userId runId db.snapshots = true) :
    hasSnapshot userId runId (processEvent settings conditions run event db).2.2.snapshots =
      true := by
  by_cases request : eventKind event = .approvalRequest
  · rw [processEvent, request]
    exact present_flushSnapshot true true there
  · exact (quiet_processEvent request).present there

end Writes

/-- While an answer stands the column is clear. -/
structure Settled (userId : UserId) (runId : String) (state : ApprovalSystem) : Prop where
  present : state.answers ≠ [] → hasSnapshot userId runId state.db.snapshots = true
  cleared : state.standing ≠ [] → Cleared userId runId state.db.snapshots

section Invariant

variable {settings : Settings} {userId : UserId} {runId : String} {state after : ApprovalSystem}
  {action : ApprovalAction}

theorem answers_ne_nil (standing : state.standing ≠ []) : state.answers ≠ [] := by
  intro none
  rw [ApprovalSystem.standing, none] at standing
  exact standing rfl

theorem Settled.quiet (settled : state.Settled userId runId)
    (answers : after.answers = state.answers)
    (standing : after.standing ≠ [] → state.standing ≠ [])
    (quiet : Quiet userId runId state.db.snapshots after.db.snapshots) :
    after.Settled userId runId where
  present given := quiet.present (settled.present (answers ▸ given))
  cleared stands := quiet.cleared (settled.present (answers_ne_nil (standing stands)))
    (settled.cleared (standing stands))

/-- No answer stands behind a request which was emitted behind all that stood. -/
theorem standing_of_request {place : Nat} (behind : state.standing.all (· ≤ place) = true)
    (answers : after.answers = state.answers)
    (requested : after.requested = state.requested ++ [place]) : after.standing = [] := by
  rw [standing, List.filter_eq_nil_iff, answers, requested]
  intro answer given earlier
  rw [List.all_append, Bool.and_eq_true_iff] at earlier
  have stood : answer ∈ state.standing := List.mem_filter.mpr ⟨given, earlier.1⟩
  have at_most := List.all_eq_true.mp behind answer stood
  have above := earlier.2
  simp only [List.all_cons, List.all_nil, Bool.and_true, decide_eq_true_eq] at above at_most
  omega

theorem quiet_ensureRow (snapshots : Snapshots) :
    Quiet userId runId snapshots (Snapshots.ensureRow snapshots runId userId) := by
  rw [Snapshots.ensureRow]
  split
  · exact .refl _
  · refine ⟨fun there => ?_, fun _ clear row listed of_run of_user => ?_⟩
    · rw [hasSnapshot, List.any_append]
      exact Bool.or_eq_true_iff.mpr (.inl there)
    · obtain present | new := List.mem_append.mp listed
      · exact clear row present of_run of_user
      · rw [List.mem_singleton.mp new]

theorem quiet_elsewhere {before later : Snapshots}
    (same : rowsOf runId later = rowsOf runId before) : Quiet userId runId before later where
  present there := by
    obtain ⟨row, listed, named⟩ := List.any_eq_true.mp there
    have kept : row ∈ rowsOf runId later :=
      same ▸ List.mem_filter.mpr ⟨listed, (Bool.and_eq_true_iff.mp named).1⟩
    exact List.any_eq_true.mpr ⟨row, (List.mem_filter.mp kept).1, named⟩
  cleared _ clear row listed of_run of_user := by
    have kept : row ∈ rowsOf runId before :=
      same ▸ List.mem_filter.mpr ⟨listed, beq_iff_eq.mpr of_run⟩
    exact clear row (List.mem_filter.mp kept).1 of_run of_user

theorem settled_process {relay place : Nat} {conditions : Conditions}
    (settled : state.Settled userId runId)
    (timely : state.timely (.process relay place conditions) = true)
    (stepped : step settings userId runId state (.process relay place conditions) = some after) :
    after.Settled userId runId := by
  rw [step] at stepped
  split at stepped
  case h_2 => cases stepped
  case h_1 run event _ found =>
      cases stepped
      by_cases request : eventKind event = .approvalRequest
      · rw [ApprovalSystem.timely, found] at timely
        simp only [Option.any_some, request, beq_self_eq_true, Bool.not_true, Bool.false_or]
          at timely
        refine ⟨fun given => present_processEvent (settled.present given), fun stands => ?_⟩
        refine absurd ?_ stands
        exact standing_of_request timely rfl (if_pos request)
      · refine settled.quiet rfl (fun stands => ?_) (quiet_processEvent request)
        rw [standing] at stands ⊢
        simpa only [if_neg request] using stands

theorem settled_finalize {relay : Nat} {conditions : Conditions}
    (settled : state.Settled userId runId)
    (timely : state.timely (.finalize relay conditions) = true)
    (stepped : step settings userId runId state (.finalize relay conditions) = some after) :
    after.Settled userId runId := by
  obtain ⟨run, found, rfl⟩ := Option.map_eq_some_iff.mp stepped
  rw [ApprovalSystem.timely, found, Bool.or_eq_true_iff] at timely
  obtain none_stands | forgotten := timely
  · refine ⟨fun given => present_flushSnapshot true true (settled.present given), fun stands => ?_⟩
    exact absurd (List.isEmpty_iff.mp none_stands) stands
  · refine settled.quiet rfl id (quiet_flushSnapshot true fun _ => ?_)
    simpa using forgotten

theorem settled_clear {answer : Nat} (settled : state.Settled userId runId)
    (stepped : step settings userId runId state (.clear answer) = some after) :
    after.Settled userId runId := by
  rw [step] at stepped
  split at stepped
  case isFalse => cases stepped
  case isTrue =>
      cases stepped
      have quiet : Quiet userId runId state.db.snapshots
          (Snapshots.clearPendingApproval state.db.snapshots runId userId) := by
        refine .map (fun row => ?_) fun row _ clear => ?_
        · split <;> exact ⟨rfl, rfl⟩
        · split
          · rfl
          · exact clear
      refine ⟨fun given => ?_, fun _ row listed of_run of_user => ?_⟩
      · refine quiet.present ?_
        by_cases there : hasSnapshot userId runId state.db.snapshots = true
        · exact there
        · rw [if_neg there] at given
          exact settled.present given
      · obtain ⟨stored, -, rfl⟩ := List.mem_map.mp listed
        by_cases own : stored.runId = runId ∧ stored.userId = userId
        · rw [if_pos own]
        · rw [if_neg own] at of_run of_user
          exact absurd ⟨of_run, of_user⟩ own

theorem settled_step (settled : state.Settled userId runId) (timely : state.timely action = true)
    (stepped : step settings userId runId state action = some after) :
    after.Settled userId runId := by
  cases action with
  | process relay place conditions => exact settled_process settled timely stepped
  | finalize relay conditions => exact settled_finalize settled timely stepped
  | clear answer => exact settled_clear settled stepped
  | subscribe | emit event | leave relay =>
      cases stepped
      exact settled.quiet rfl id (.refl _)
  | post =>
      rw [step] at stepped
      split at stepped
      · cases stepped
        exact settled.quiet rfl id (.refl _)
      · cases stepped
  | prepare =>
      cases stepped
      exact settled.quiet rfl id (quiet_ensureRow _)
  | heartbeat now =>
      cases stepped
      refine settled.quiet rfl id (.map (fun row => ?_) fun row _ clear => ?_)
      · split <;> exact ⟨rfl, rfl⟩
      · split <;> exact clear
  | sweep expired =>
      cases stepped
      refine settled.quiet rfl id (.map (fun row => ?_) fun row _ clear => ?_)
      · split <;> exact ⟨rfl, rfl⟩
      · split
        · rfl
        · exact clear
  | elsewhere db =>
      rw [step] at stepped
      split at stepped
      next same =>
        cases stepped
        exact settled.quiet rfl id (quiet_elsewhere same)
      · cases stepped

end Invariant

/-- An approval which was answered does not come back: the column is clear until a request which was
emitted behind the answer is processed. -/
theorem approval_stays_cleared (settings : Settings) (userId : UserId) (runId : String)
    (db : AgentDb) (state : ApprovalSystem)
    (reached : Reachable (step settings userId runId)
      (fun state action => state.timely action = true) { db } state)
    (answer : Nat) (given : answer ∈ state.answers)
    (unasked : ∀ request ∈ state.requested, request < answer) :
    Cleared userId runId state.db.snapshots := by
  have settled : state.Settled userId runId :=
    reached.invariant (Settled userId runId) ⟨fun given => absurd rfl given,
        fun stands => absurd rfl stands⟩
      fun _ _ _ before_settled timely stepped => settled_step before_settled timely stepped
  refine settled.cleared (List.ne_nil_of_mem (a := answer) (List.mem_filter.mpr ⟨given, ?_⟩))
  exact List.all_eq_true.mpr fun request listed => decide_eq_true (unasked request listed)

namespace Sample

/-- A request of the instance, and the tool it goes on with. -/
def request : SseEvent := ⟨none, [("event", .str "approval.request"), ("tool", .str "shell")]⟩

def tool : SseEvent := ⟨none, [("event", .str "tool.started"), ("tool", .str "shell")]⟩

/-- A run of user one. -/
def begun : AgentDb :=
  { runs := [⟨"run", ⟨1⟩, "session", .running, 0, 0, none, none, none, 0⟩] }

/-- The consumer processes a request and the client answers it. -/
def answered : List ApprovalAction :=
  [.prepare, .subscribe, .emit request, .process 0 0 { newId := ⟨1⟩ }, .post, .clear 1]

/-- The consumer ends behind the tool the instance went on with. -/
theorem cleared_behind_tool :
    ∃ state, Reachable (step BillingSystem.ordinarySettings ⟨1⟩ "run")
        (fun state action => state.timely action = true) { db := begun } state ∧
      state.relays = [] ∧ 1 ∈ state.answers ∧ Cleared ⟨1⟩ "run" state.db.snapshots := by
  obtain ⟨state, reached, tested⟩ := reachable_of_any
    (step BillingSystem.ordinarySettings ⟨1⟩ "run")
    (fun state action => state.timely action = true) { db := begun }
    (fun state => state.relays.isEmpty && (state.answers == [1] && state.requested == [0]))
    (answered ++ [.emit tool, .process 0 1 { newId := ⟨1⟩ }, .finalize 0 { newId := ⟨1⟩ }])
    (by decide)
  simp only [Bool.and_eq_true, List.isEmpty_iff, beq_iff_eq] at tested
  obtain ⟨gone, answers, requested⟩ := tested
  refine ⟨state, reached, gone, by simp [answers], ?_⟩
  exact approval_stays_cleared _ _ _ _ _ reached 1 (by simp [answers]) (by simp [requested])

/-- A consumer which is shut down right behind the answer writes the request back. -/
theorem resurrected_by_final_flush :
    ¬ ∀ (settings : Settings) (userId : UserId) (runId : String) (db : AgentDb)
        (state : ApprovalSystem),
      Reachable (step settings userId runId) (fun _ _ => True) { db } state →
      ∀ answer ∈ state.answers, (∀ request ∈ state.requested, request < answer) →
        Cleared userId runId state.db.snapshots := by
  intro stays
  obtain ⟨state, reached, tested⟩ := reachable_of_any
    (step BillingSystem.ordinarySettings ⟨1⟩ "run") (fun _ _ => True) { db := begun }
    (fun state => state.answers == [1] && state.requested == [0] && state.db.snapshots.any
      fun row => row.runId == "run" && (row.userId == ⟨1⟩ && row.pendingApproval.isSome))
    (answered ++ [.finalize 0 { newId := ⟨1⟩ }]) (by decide)
  simp only [Bool.and_eq_true, beq_iff_eq, List.any_eq_true, Option.isSome_iff_ne_none] at tested
  obtain ⟨⟨answers, requested⟩, row, listed, of_run, of_user, waits⟩ := tested
  exact waits (stays _ _ _ _ state reached 1 (by simp [answers]) (by simp [requested]) row listed
    of_run of_user)

end Sample

end ApprovalSystem

end Hermes.AgentProxy
