import Hermes.AgentProxy.Relay
import Hermes.Library.Transition
import Mathlib.Data.List.Nodup
import Mathlib.Data.List.Perm.Basic

/-!
# The lifecycle of runs

Relays, clients, resume calls and the orphan sweep change the status of a run independently, each
by a guarded statement of its own.  A resume call which won the compare-and-set is on its way to
insert the continuation; until then nothing but the status of the parent stands for it.
-/

namespace Hermes.AgentProxy

open Wallet

/-- `completed`, `failed` and `cancelled`. -/
def RunStatus.terminal (status : RunStatus) : Bool :=
  status == .completed || status == .failed || status == .cancelled

/-- A resume call which won `cas_resume` and has not inserted its child. -/
structure Winner where
  runId : String
  userId : UserId
  sessionId : String
  model : Option String
  deriving DecidableEq, Repr

/-- The database, the resume calls under way, and the rows sweeps have read. -/
structure Lifecycle where
  db : AgentDb := {}
  launching : List Winner := []
  candidates : List OrphanCandidate := []

/-- What the parties do to the lifecycle of runs. -/
inductive LifecycleAction
  /-- `run`: insert the row of a root run. -/
  | launch (runId : String) (userId : UserId) (sessionId : String) (model : Option String)
      (now : Time)
  /-- A relay pauses its run. -/
  | pause (runId reason : String)
  /-- A relay records how its run ended. -/
  | finish (runId : String) (status : RunStatus)
  /-- The client stops a run. -/
  | stop (runId : String) (userId : UserId)
  /-- The sweep reads its candidates. -/
  | list (now timeout : Time) (limit : Nat)
  /-- The sweep comes to a candidate and probes its lease. -/
  | finalize (candidate : Nat) (leaseAlive : Option Bool) (settings : Settings)
      (conditions : Conditions)
  /-- A resume call issues `cas_resume` and commits. -/
  | compareAndSet (runId : String) (userId : UserId)
  /-- A winner launched the new run and inserts its row. -/
  | chain (winner : Nat) (newRunId : String) (now : Time)
  /-- A winner failed before it inserted a row. -/
  | revert (winner : Nat)
  /-- The process of a winner died. -/
  | abandon (winner : Nat)
  /-- A relay mirrors a billed step. -/
  | record (runId : String) (stepIndex credits : Int)
  /-- Anything else that happens to wallets and snapshots. -/
  | elsewhere (accounts : Accounts) (snapshots : Snapshots)

namespace Lifecycle

/-- Replace the rows of `agent_runs`. -/
def withRuns (state : Lifecycle) (runs : Runs) : Lifecycle :=
  { state with db := { state.db with runs := runs } }

/-- Forget one of the resume calls under way. -/
def dropWinner (state : Lifecycle) (winner : Nat) : Lifecycle :=
  { state with launching := state.launching.eraseIdx winner }

def childRow (winner : Winner) (newRunId : String) (now : Time) : AgentRun where
  runId := newRunId
  userId := winner.userId
  sessionId := winner.sessionId
  status := .running
  continuedFromRunId := some winner.runId
  model := winner.model
  createdAt := now

def step (state : Lifecycle) : LifecycleAction → Option Lifecycle
  | .launch runId userId sessionId model now =>
      some (state.withRuns (Runs.createRunning state.db.runs
        { runId := runId, userId := userId, sessionId := sessionId, status := .running,
          model := model, createdAt := now }))
  | .pause runId reason => some (state.withRuns (Runs.markPaused state.db.runs runId reason))
  | .finish runId status =>
      if status.terminal then some (state.withRuns (Runs.markStatus state.db.runs runId status))
      else none
  | .stop runId userId => some (state.withRuns (Runs.markStopped state.db.runs runId userId))
  | .list now timeout limit =>
      some { state with
        candidates := state.candidates ++ state.db.listOrphanCandidates now timeout limit }
  | .finalize candidate leaseAlive settings conditions =>
      match state.candidates[candidate]? with
      | none => none
      | some row =>
          -- An unknown lease is read as alive.
          if leaseAlive = some false then
            some { state with db := (finalizeOrphanRun settings conditions row state.db).2 }
          else some state
  | .compareAndSet runId userId =>
      match Runs.casResume state.db.runs runId with
      | (none, _) => some state
      | (some (sessionId, model), runs) =>
          some { state.withRuns runs with
            launching := state.launching ++ [⟨runId, userId, sessionId, model⟩] }
  | .chain winner newRunId now =>
      match state.launching[winner]? with
      | none => none
      | some won =>
          some ((state.withRuns
            (Runs.createRunning state.db.runs (childRow won newRunId now))).dropWinner winner)
  | .revert winner =>
      match state.launching[winner]? with
      | none => none
      | some won =>
          some ((state.withRuns (Runs.revertCas state.db.runs won.runId)).dropWinner winner)
  | .abandon winner => some (state.dropWinner winner)
  | .record runId stepIndex credits =>
      match Runs.recordStep state.db.runs runId stepIndex credits with
      | .error _ => none
      | .ok runs => some (state.withRuns runs)
  | .elsewhere accounts snapshots =>
      some { state with db := { state.db with accounts := accounts, snapshots := snapshots } }

/-- The children of a run, inserted or on their way. -/
def successors (state : Lifecycle) (runId : String) : Nat :=
  state.launching.countP (·.runId == runId) +
    state.db.runs.countP (·.continuedFromRunId == some runId)

/-- The run a relay, a client or the sweep is about to give a status, and that status. -/
def outcome (state : Lifecycle) : LifecycleAction → Option (String × RunStatus)
  | .pause runId _ => some (runId, .paused)
  | .finish runId status => some (runId, status)
  | .stop runId _ => some (runId, .cancelled)
  | .finalize candidate leaseAlive _ _ =>
      if leaseAlive = some false then
        state.candidates[candidate]?.map fun row => (row.runId, .failed)
      else none
  | _ => none

def statusOf (state : Lifecycle) (runId : String) : Option RunStatus :=
  (Runs.get state.db.runs runId).map (·.status)

def childrenOf (state : Lifecycle) (runId : String) : List AgentRun :=
  state.db.runs.filter (·.continuedFromRunId == some runId)

/-- No relay pauses a run which has been resumed. -/
def PausesRunning (state : Lifecycle) (action : LifecycleAction) : Prop :=
  ∀ target ∈ state.outcome action, target.2 = .paused → state.statusOf target.1 ≠ some .resumed

instance (state : Lifecycle) (action : LifecycleAction) : Decidable (PausesRunning state action) :=
  inferInstanceAs (Decidable (∀ target ∈ state.outcome action,
    target.2 = .paused → state.statusOf target.1 ≠ some .resumed))

end Lifecycle

section Update

variable {runs : Runs} {runId : String} {guard : AgentRun → Bool} {change : AgentRun → AgentRun}

/-- A change which touches neither the key nor the parent of a row. -/
structure KeepsIdentity (change : AgentRun → AgentRun) : Prop where
  runId : ∀ row, (change row).runId = row.runId
  parent : ∀ row, (change row).continuedFromRunId = row.continuedFromRunId

theorem update_runIds (keeps : KeepsIdentity change) :
    (runs.update runId guard change).map (·.runId) = runs.map (·.runId) := by
  simp only [Runs.update, List.map_map]
  apply List.map_congr_left
  intro row _
  simp only [Function.comp_apply]
  split
  · exact keeps.runId row
  · rfl

theorem update_children (keeps : KeepsIdentity change) (parent : String) :
    (runs.update runId guard change).countP (·.continuedFromRunId == some parent) =
      runs.countP (·.continuedFromRunId == some parent) := by
  rw [Runs.update, List.countP_map]
  apply List.countP_congr
  intro row _
  simp only [Function.comp_apply]
  split
  · rw [keeps.parent]
  · rfl

theorem get_update (keeps : KeepsIdentity change) (other : String) :
    (runs.update runId guard change).get other =
      (runs.get other).map fun row =>
        if row.runId = runId ∧ guard row = true then change row else row := by
  rw [Runs.get, Runs.get, Runs.update, List.find?_map]
  congr 2
  funext row
  simp only [Function.comp_apply]
  split
  · rw [keeps.runId]
  · rfl

theorem mem_update {row : AgentRun} (listed : row ∈ runs.update runId guard change) :
    ∃ before ∈ runs, (row = before ∧ ¬(before.runId = runId ∧ guard before = true)) ∨
      (row = change before ∧ before.runId = runId ∧ guard before = true) := by
  obtain ⟨before, present, rfl⟩ := List.mem_map.mp listed
  refine ⟨before, present, ?_⟩
  split
  next hit => exact .inr ⟨rfl, hit⟩
  next miss => exact .inl ⟨rfl, miss⟩

end Update

theorem chargeOrphan_runs (settings : Settings) (conditions : Conditions)
    (candidate : OrphanCandidate) (owed : Int) (db : AgentDb) :
    (chargeOrphan settings conditions candidate owed db).2.runs = db.runs := by
  unfold chargeOrphan
  split
  · rfl
  · simp only
    split <;> rfl

theorem finalizeOrphanRun_runs (settings : Settings) (conditions : Conditions)
    (candidate : OrphanCandidate) (db : AgentDb) :
    (finalizeOrphanRun settings conditions candidate db).2.runs = db.runs ∨
      (finalizeOrphanRun settings conditions candidate db).2.runs =
        Runs.markStatus db.runs candidate.runId .failed := by
  have charged_eq := chargeOrphan_runs settings conditions candidate
    (orphanOwed settings candidate db) db
  have marked (charged : AgentDb) (charged_eq : charged.runs = db.runs) :
      (markOrphan conditions candidate db charged).runs = db.runs ∨
        (markOrphan conditions candidate db charged).runs =
          Runs.markStatus db.runs candidate.runId .failed := by
    unfold markOrphan
    split
    · exact .inl rfl
    · exact .inr (by rw [← charged_eq])
  unfold finalizeOrphanRun
  split
  · exact .inl rfl
  · split
    · exact .inl rfl
    next billed charged outcome =>
      rw [outcome] at charged_eq
      simp only
      split <;> exact marked charged charged_eq

namespace Lifecycle

/-- A run has at most one continuation, inserted or under way, and its status is then one which
`claimed` admits. -/
structure Linear (claimed : RunStatus → Prop) (state : Lifecycle) : Prop where
  distinct : (state.db.runs.map (·.runId)).Nodup
  single : ∀ runId, state.successors runId ≤ 1
  present : ∀ runId, 0 < state.successors runId → runId ∈ state.db.runs.map (·.runId)
  spent : ∀ row ∈ state.db.runs, 0 < state.successors row.runId → claimed row.status

variable {claimed : RunStatus → Prop} {state after : Lifecycle}

theorem linear_empty : Linear claimed {} where
  distinct := List.nodup_nil
  single runId := Nat.zero_le 1
  present runId positive := absurd positive (lt_irrefl 0)
  spent row listed := by cases listed

namespace Linear

theorem congr (linear : Linear claimed state) (runs_eq : after.db.runs = state.db.runs)
    (launching_eq : after.launching = state.launching) : Linear claimed after := by
  have successors_eq : after.successors = state.successors := by
    funext runId
    rw [successors, successors, runs_eq, launching_eq]
  constructor
  · rw [runs_eq]
    exact linear.distinct
  · rw [successors_eq]
    exact linear.single
  · rw [successors_eq, runs_eq]
    exact linear.present
  · rw [successors_eq, runs_eq]
    exact linear.spent

theorem row_eq (linear : Linear claimed state) {row other : AgentRun}
    (listed : row ∈ state.db.runs) (present : other ∈ state.db.runs)
    (same : row.runId = other.runId) : row = other :=
  List.inj_on_of_nodup_map linear.distinct listed present same

theorem statusOf_eq (linear : Linear claimed state) {row : AgentRun}
    (listed : row ∈ state.db.runs) : state.statusOf row.runId = some row.status := by
  have found : (Runs.get state.db.runs row.runId).isSome := by
    rw [Runs.get, List.find?_isSome]
    exact ⟨row, listed, by simp⟩
  obtain ⟨hit, hit_eq⟩ := Option.isSome_iff_exists.mp found
  have same : hit.runId = row.runId := by simpa using List.find?_some hit_eq
  rw [statusOf, hit_eq, linear.row_eq (List.mem_of_find?_eq_some hit_eq) listed same]
  rfl

/-- A status which is not admitted shows that nothing continues the run. -/
theorem unclaimed (linear : Linear claimed state) {row : AgentRun}
    (listed : row ∈ state.db.runs) (free : ¬claimed row.status) :
    state.successors row.runId = 0 := by
  by_contra claims
  exact free (linear.spent row listed (by omega))

/-- A status may change to an admitted one, or to any one while the run has no successor. -/
theorem update (linear : Linear claimed state) (runId : String) (guard : AgentRun → Bool)
    (change : AgentRun → AgentRun) (keeps : KeepsIdentity change)
    (allowed : ∀ row ∈ state.db.runs, row.runId = runId → guard row = true →
      state.successors runId = 0 ∨ claimed (change row).status) :
    Linear claimed (state.withRuns (Runs.update state.db.runs runId guard change)) := by
  have successors_eq (other : String) :
      (state.withRuns (Runs.update state.db.runs runId guard change)).successors other =
        state.successors other := by
    simp only [successors, withRuns]
    rw [update_children keeps]
  constructor
  · simp only [withRuns]
    rw [update_runIds keeps]
    exact linear.distinct
  · intro other
    rw [successors_eq]
    exact linear.single other
  · intro other positive
    rw [successors_eq] at positive
    simp only [withRuns]
    rw [update_runIds keeps]
    exact linear.present other positive
  · intro row listed positive
    rw [successors_eq] at positive
    obtain ⟨before, present, ⟨rfl, -⟩ | ⟨rfl, same, guarded⟩⟩ := mem_update listed
    · exact linear.spent row present positive
    · rw [keeps.runId, same] at positive
      rcases allowed before present same guarded with none | spent
      · omega
      · exact spent

/-- Rows may be kept, or one added under a new key, while no run gains a successor. -/
theorem fewer (linear : Linear claimed state)
    (rows : after.db.runs = state.db.runs ∨ ∃ added,
      added.runId ∉ state.db.runs.map (·.runId) ∧ after.db.runs = state.db.runs ++ [added])
    (fewer : ∀ runId, after.successors runId ≤ state.successors runId) :
    Linear claimed after := by
  have positive {runId : String} (more : 0 < after.successors runId) :
      0 < state.successors runId := more.trans_le (fewer runId)
  constructor
  · rcases rows with rows_eq | ⟨added, fresh, rows_eq⟩
    · rw [rows_eq]
      exact linear.distinct
    · rw [rows_eq, List.map_append, List.nodup_append]
      refine ⟨linear.distinct, by simp, ?_⟩
      intro key listed other single
      rw [List.map_singleton, List.mem_singleton] at single
      rintro rfl
      exact fresh (single ▸ listed)
  · exact fun runId => (fewer runId).trans (linear.single runId)
  · intro runId more
    have present := linear.present runId (positive more)
    rcases rows with rows_eq | ⟨added, fresh, rows_eq⟩
    · rw [rows_eq]
      exact present
    · rw [rows_eq, List.map_append]
      exact List.mem_append_left _ present
  · intro row listed more
    rcases rows with rows_eq | ⟨added, fresh, rows_eq⟩
    · rw [rows_eq] at listed
      exact linear.spent row listed (positive more)
    · rw [rows_eq] at listed
      rcases List.mem_append.mp listed with old | new
      · exact linear.spent row old (positive more)
      · rw [List.mem_singleton.mp new] at more
        exact absurd (linear.present added.runId (positive more)) fresh

/-- A resume call may take up a run which nothing continues yet, once its status is admitted. -/
theorem join (linear : Linear claimed state) (winner : Winner)
    (free : state.successors winner.runId = 0)
    (present : winner.runId ∈ state.db.runs.map (·.runId))
    (spent : ∀ row ∈ state.db.runs, row.runId = winner.runId → claimed row.status) :
    Linear claimed { state with launching := state.launching ++ [winner] } := by
  have successors_eq (runId : String) :
      Lifecycle.successors { state with launching := state.launching ++ [winner] } runId =
        state.successors runId + if winner.runId = runId then 1 else 0 := by
    simp only [successors, List.countP_append, List.countP_singleton, beq_iff_eq]
    omega
  constructor
  · exact linear.distinct
  · intro runId
    rw [successors_eq]
    split
    next mine =>
      subst mine
      omega
    · exact linear.single runId
  · intro runId positive
    rw [successors_eq] at positive
    split at positive
    next mine => exact mine ▸ present
    · exact linear.present runId positive
  · intro row listed positive
    rw [successors_eq] at positive
    split at positive
    next mine => exact spent row listed mine.symm
    · exact linear.spent row listed positive

end Linear

theorem createRunning_rows (runs : Runs) (run : AgentRun) :
    Runs.createRunning runs run = runs ∨
      run.runId ∉ runs.map (·.runId) ∧ Runs.createRunning runs run = runs ++ [run] := by
  unfold Runs.createRunning
  split
  · exact .inl rfl
  next fresh =>
    refine .inr ⟨?_, rfl⟩
    intro listed
    obtain ⟨row, present, same⟩ := List.mem_map.mp listed
    apply fresh
    simp only [Runs.get, List.find?_isSome]
    exact ⟨row, present, by simpa using same⟩

theorem createRunning_children (runs : Runs) (run : AgentRun) (parent : String) :
    (Runs.createRunning runs run).countP (·.continuedFromRunId == some parent) ≤
      runs.countP (·.continuedFromRunId == some parent) +
        if run.continuedFromRunId = some parent then 1 else 0 := by
  rcases createRunning_rows runs run with same | ⟨-, grown⟩
  · rw [same]
    exact Nat.le_add_right _ _
  · rw [grown, List.countP_append, List.countP_singleton]
    simp

theorem dropWinner_count {winner : Nat} {won : Winner}
    (found : state.launching[winner]? = some won) (runId : String) :
    (state.launching.eraseIdx winner).countP (·.runId == runId) +
        (if won.runId = runId then 1 else 0) =
      state.launching.countP (·.runId == runId) := by
  obtain ⟨inside, rfl⟩ := List.getElem?_eq_some_iff.mp found
  have perm := List.getElem_cons_eraseIdx_perm inside
  rw [← perm.countP_eq, List.countP_cons]
  simp

theorem launch_linear {runId : String} {userId : UserId} {sessionId : String}
    {model : Option String} {now : Time} (linear : Linear claimed state)
    (stepped : step state (.launch runId userId sessionId model now) = some after) :
    Linear claimed after := by
  cases stepped
  apply linear.fewer
  · rcases createRunning_rows state.db.runs _ with same | ⟨fresh, grown⟩
    · exact .inl same
    · exact .inr ⟨_, fresh, grown⟩
  · intro other
    have children := createRunning_children state.db.runs
      { runId := runId, userId := userId, sessionId := sessionId, status := .running,
        model := model, createdAt := now } other
    simp only [successors, withRuns]
    simpa using children

theorem chain_linear {winner : Nat} {newRunId : String} {now : Time}
    (linear : Linear claimed state)
    (stepped : step state (.chain winner newRunId now) = some after) : Linear claimed after := by
  simp only [step] at stepped
  split at stepped
  · cases stepped
  next won found =>
    cases stepped
    apply linear.fewer
    · rcases createRunning_rows state.db.runs (childRow won newRunId now) with
        same | ⟨fresh, grown⟩
      · exact .inl same
      · exact .inr ⟨_, fresh, grown⟩
    · intro other
      have children := createRunning_children state.db.runs (childRow won newRunId now) other
      have dropped := dropWinner_count found other
      simp only [childRow, Option.some.injEq] at children
      simp only [successors, withRuns, dropWinner]
      simp only [childRow]
      omega

theorem abandon_linear (winner : Nat) (linear : Linear claimed state) :
    Linear claimed (state.dropWinner winner) := by
  refine linear.fewer (.inl rfl) fun runId => ?_
  have fewer : (state.launching.eraseIdx winner).countP (·.runId == runId) ≤
      state.launching.countP (·.runId == runId) :=
    (List.eraseIdx_sublist state.launching winner).countP_le
  exact Nat.add_le_add_right fewer _

theorem compareAndSet_linear {runId : String} {userId : UserId} (linear : Linear claimed state)
    (resumed : claimed .resumed) (paused : ¬claimed .paused)
    (stepped : step state (.compareAndSet runId userId) = some after) : Linear claimed after := by
  simp only [step, Runs.casResume] at stepped
  cases found : state.db.runs.find? fun row => row.runId == runId && row.status == .paused with
  | none =>
      rw [found] at stepped
      cases stepped
      exact linear
  | some hit =>
      rw [found] at stepped
      cases stepped
      have listed := List.mem_of_find?_eq_some found
      obtain ⟨same, hit_paused⟩ : hit.runId = runId ∧ hit.status = .paused := by
        simpa using List.find?_some found
      have free : state.successors runId = 0 :=
        same ▸ linear.unclaimed listed (hit_paused ▸ paused)
      have keeps : KeepsIdentity fun row : AgentRun => { row with status := .resumed } :=
        ⟨fun _ => rfl, fun _ => rfl⟩
      have updated := linear.update runId (·.status == .paused) _ keeps fun _ _ _ _ => .inl free
      apply updated.join
      · simp only [successors, withRuns]
        rw [update_children keeps]
        exact free
      · simp only [withRuns]
        rw [update_runIds keeps]
        exact same ▸ List.mem_map_of_mem listed
      · intro row after_listed mine
        obtain ⟨before, present, ⟨rfl, miss⟩ | ⟨rfl, -, -⟩⟩ := mem_update after_listed
        · have is_hit := linear.row_eq present listed (mine.trans same.symm)
          subst is_hit
          exact absurd ⟨same, by simpa using hit_paused⟩ miss
        · exact resumed

theorem revert_linear {winner : Nat} (linear : Linear claimed state)
    (stepped : step state (.revert winner) = some after) : Linear claimed after := by
  simp only [step] at stepped
  split at stepped
  · cases stepped
  next won found =>
    cases stepped
    have dropped := dropWinner_count found won.runId
    have single := linear.single won.runId
    have free : (state.dropWinner winner).successors won.runId = 0 := by
      simp only [successors, dropWinner, if_true] at dropped single ⊢
      omega
    exact (abandon_linear winner linear).update won.runId _ _ ⟨fun _ => rfl, fun _ => rfl⟩
      fun _ _ _ _ => .inl free

theorem recordStep_eq {runs recorded : Runs} {runId : String} {stepIndex credits : Int}
    (wrote : Runs.recordStep runs runId stepIndex credits = .ok recorded) :
    recorded = runs.update runId (fun _ => true) fun row =>
      { row with
        lastBilledStep := max row.lastBilledStep stepIndex
        cumulativeCreditsSpent := row.cumulativeCreditsSpent + credits } := by
  rw [Runs.recordStep] at wrote
  split at wrote
  · cases wrote
  · split at wrote
    · cases wrote
    · cases wrote
      rfl

theorem step_record {runId : String} {stepIndex credits : Int}
    (stepped : step state (.record runId stepIndex credits) = some after) :
    ∃ runs, Runs.recordStep state.db.runs runId stepIndex credits = .ok runs ∧
      after = state.withRuns runs := by
  simp only [step] at stepped
  split at stepped
  · cases stepped
  next runs recorded =>
    cases stepped
    exact ⟨runs, recorded, rfl⟩

/-- The outcome a step brings about is one the run may take: it is admitted, or nothing continues
the run. -/
def Spares (claimed : RunStatus → Prop) (state : Lifecycle) (action : LifecycleAction) : Prop :=
  ∀ target ∈ state.outcome action, claimed target.2 ∨
    ∀ row ∈ state.db.runs, row.runId = target.1 → row.status.active = true → ¬claimed row.status

/-- A relay outcome, a stop or a sweep which spares the resumed runs. -/
theorem Linear.outcome {runId : String} {status : RunStatus} (linear : Linear claimed state)
    (guard : AgentRun → Bool) (change : AgentRun → AgentRun) (keeps : KeepsIdentity change)
    (active : ∀ row, guard row = true → row.status.active = true)
    (changed : ∀ row, (change row).status = status)
    (spares : claimed status ∨ ∀ row ∈ state.db.runs, row.runId = runId →
      row.status.active = true → ¬claimed row.status) :
    Linear claimed (state.withRuns (Runs.update state.db.runs runId guard change)) := by
  apply linear.update runId guard change keeps
  intro row listed same guarded
  rcases spares with admitted | spared
  · rw [changed]
    exact .inr admitted
  · exact .inl (same ▸ linear.unclaimed listed (spared row listed same (active row guarded)))

/-- Every step keeps the lifecycle linear when no outcome takes a run from its continuation. -/
theorem step_linear (action : LifecycleAction) (resumed : claimed .resumed)
    (paused : ¬claimed .paused) (linear : Linear claimed state)
    (spares : Spares claimed state action) (stepped : step state action = some after) :
    Linear claimed after := by
  cases action with
  | launch => exact launch_linear linear stepped
  | pause runId reason =>
      cases stepped
      exact linear.outcome _ _ ⟨fun _ => rfl, fun _ => rfl⟩ (fun _ => id) (fun _ => rfl)
        (spares _ rfl)
  | finish runId status =>
      simp only [step] at stepped
      split at stepped
      · cases stepped
        exact linear.outcome _ _ ⟨fun _ => rfl, fun _ => rfl⟩ (fun _ => id) (fun _ => rfl)
          (spares _ rfl)
      · cases stepped
  | stop runId userId =>
      cases stepped
      refine linear.outcome _ _ ⟨fun _ => rfl, fun _ => rfl⟩ (fun _ guarded => ?_) (fun _ => rfl)
        (spares _ rfl)
      exact (Bool.and_eq_true_iff.mp guarded).2
  | list now timeout limit =>
      cases stepped
      exact linear.congr rfl rfl
  | finalize candidate leaseAlive settings conditions =>
      simp only [step] at stepped
      split at stepped
      · cases stepped
      next row found =>
        split at stepped
        next gone =>
          cases stepped
          have spared := spares (row.runId, .failed) (by simp [Lifecycle.outcome, gone, found])
          rcases finalizeOrphanRun_runs settings conditions row state.db with same | marked
          · exact linear.congr same rfl
          · have failed := linear.outcome (·.status.active)
              (fun run => { run with status := .failed })
              ⟨fun _ => rfl, fun _ => rfl⟩ (fun _ => id) (fun _ => rfl) spared
            exact failed.congr marked rfl
        · cases stepped
          exact linear
  | compareAndSet runId userId => exact compareAndSet_linear linear resumed paused stepped
  | chain winner newRunId now => exact chain_linear linear stepped
  | revert winner => exact revert_linear linear stepped
  | abandon winner =>
      cases stepped
      exact abandon_linear winner linear
  | record runId stepIndex credits =>
      obtain ⟨runs, recorded, rfl⟩ := step_record stepped
      rw [recordStep_eq recorded]
      refine linear.update runId _ _ ?_ fun row listed same _ => ?_
      · exact ⟨fun _ => rfl, fun _ => rfl⟩
      by_cases claims : 0 < state.successors row.runId
      · exact .inr (linear.spent row listed claims)
      · rw [← same]
        exact .inl (by omega)
  | elsewhere accounts snapshots =>
      cases stepped
      exact linear.congr rfl rfl

/-- What no statement changes in a row, and that a terminal status stays. -/
structure Evolves (row kept : AgentRun) : Prop where
  runId : kept.runId = row.runId
  userId : kept.userId = row.userId
  parent : kept.continuedFromRunId = row.continuedFromRunId
  terminal : row.status.terminal = true → kept.status = row.status

theorem Evolves.refl (row : AgentRun) : Evolves row row := ⟨rfl, rfl, rfl, fun _ => rfl⟩

theorem Evolves.trans {row kept last : AgentRun} (first : Evolves row kept)
    (second : Evolves kept last) : Evolves row last where
  runId := second.runId.trans first.runId
  userId := second.userId.trans first.userId
  parent := second.parent.trans first.parent
  terminal ended := by
    have same := first.terminal ended
    exact (second.terminal (same.symm ▸ ended)).trans same

/-- Rows evolve in place and new ones are added behind them. -/
def Grows (before after : Runs) : Prop :=
  ∃ change added, after = before.map change ++ added ∧ ∀ row, Evolves row (change row)

namespace Grows

variable {before middle last : Runs}

theorem refl (before : Runs) : Grows before before :=
  ⟨id, [], by simp, Evolves.refl⟩

theorem trans (first : Grows before middle) (second : Grows middle last) : Grows before last := by
  obtain ⟨change, added, rfl, evolves⟩ := first
  obtain ⟨again, more, rfl, evolves_again⟩ := second
  refine ⟨again ∘ change, added.map again ++ more, by simp, ?_⟩
  exact fun row => (evolves row).trans (evolves_again _)

theorem update (runs : Runs) (runId : String) (guard : AgentRun → Bool)
    (change : AgentRun → AgentRun) (evolves : ∀ row, guard row = true → Evolves row (change row)) :
    Grows runs (runs.update runId guard change) := by
  refine ⟨_, [], (List.append_nil _).symm, ?_⟩
  intro row
  split
  next hit => exact evolves row hit.2
  · exact Evolves.refl row

theorem createRunning (runs : Runs) (run : AgentRun) :
    Grows runs (Runs.createRunning runs run) := by
  rcases createRunning_rows runs run with same | ⟨-, grown⟩
  · rw [same]
    exact refl runs
  · exact ⟨id, [run], by simpa using grown, Evolves.refl⟩

theorem find (grows : Grows before last) (test : AgentRun → Bool)
    (same : ∀ row kept, Evolves row kept → test kept = test row) {row : AgentRun}
    (found : before.find? test = some row) :
    ∃ kept, last.find? test = some kept ∧ Evolves row kept := by
  obtain ⟨change, added, rfl, evolves⟩ := grows
  have test_eq : test ∘ change = test := by
    funext other
    exact same other (change other) (evolves other)
  refine ⟨change row, ?_, evolves row⟩
  rw [List.find?_append, List.find?_map, test_eq, found]
  rfl

end Grows

theorem evolves_status {row : AgentRun} (kept : AgentRun)
    (open_status : row.status.terminal = false)
    (runId : kept.runId = row.runId) (userId : kept.userId = row.userId)
    (parent : kept.continuedFromRunId = row.continuedFromRunId) : Evolves row kept where
  runId := runId
  userId := userId
  parent := parent
  terminal ended := by
    rw [open_status] at ended
    cases ended

theorem terminal_of_active {status : RunStatus} (active : status.active = true) :
    status.terminal = false := by
  revert active
  cases status <;> decide

theorem markStatus_grows (runs : Runs) (runId : String) (status : RunStatus) :
    Grows runs (Runs.markStatus runs runId status) :=
  Grows.update _ _ _ _ fun _ active => evolves_status _ (terminal_of_active active) rfl rfl rfl

theorem step_grows {action : LifecycleAction} (stepped : step state action = some after) :
    Grows state.db.runs after.db.runs := by
  cases action with
  | launch =>
      cases stepped
      exact Grows.createRunning _ _
  | pause =>
      cases stepped
      exact Grows.update _ _ _ _ fun _ active =>
        evolves_status _ (terminal_of_active active) rfl rfl rfl
  | finish runId status =>
      simp only [step] at stepped
      split at stepped
      · cases stepped
        exact markStatus_grows _ _ _
      · cases stepped
  | stop =>
      cases stepped
      refine Grows.update _ _ _ _ fun row guarded => evolves_status _ ?_ rfl rfl rfl
      exact terminal_of_active (Bool.and_eq_true_iff.mp guarded).2
  | list =>
      cases stepped
      exact Grows.refl _
  | finalize candidate leaseAlive settings conditions =>
      simp only [step] at stepped
      split at stepped
      · cases stepped
      next row _ =>
        split at stepped
        · cases stepped
          rcases finalizeOrphanRun_runs settings conditions row state.db with same | marked
          · rw [same]
            exact Grows.refl _
          · rw [marked]
            exact markStatus_grows _ _ _
        · cases stepped
          exact Grows.refl _
  | compareAndSet =>
      simp only [step] at stepped
      split at stepped
      · cases stepped
        exact Grows.refl _
      next won runs flipped =>
        cases stepped
        have flipped_eq := congrArg Prod.snd flipped
        simp only [Runs.casResume] at flipped_eq
        subst flipped_eq
        refine Grows.update _ _ _ _ fun row paused => evolves_status _ ?_ rfl rfl rfl
        rw [beq_iff_eq.mp paused]
        rfl
  | chain =>
      simp only [step] at stepped
      split at stepped
      · cases stepped
      · cases stepped
        exact Grows.createRunning _ _
  | revert =>
      simp only [step] at stepped
      split at stepped
      · cases stepped
      · cases stepped
        refine Grows.update _ _ _ _ fun row guarded => evolves_status _ ?_ rfl rfl rfl
        rw [beq_iff_eq.mp (Bool.and_eq_true_iff.mp guarded).1]
        rfl
  | abandon =>
      cases stepped
      exact Grows.refl _
  | record =>
      obtain ⟨runs, recorded, rfl⟩ := step_record stepped
      simp only [withRuns]
      rw [recordStep_eq recorded]
      exact Grows.update _ _ _ _ fun row _ => ⟨rfl, rfl, rfl, fun _ => rfl⟩
  | elsewhere =>
      cases stepped
      exact Grows.refl _

theorem run_grows {allowed : Lifecycle → LifecycleAction → Prop}
    (continued : Reachable step allowed state after) : Grows state.db.runs after.db.runs :=
  continued.invariant (fun later => Grows state.db.runs later.db.runs) (Grows.refl _)
    fun _ _ _ grown _ stepped => grown.trans (step_grows stepped)

theorem terminal_kept {allowed : Lifecycle → LifecycleAction → Prop}
    (continued : Reachable step allowed state after) {runId : String} {status : RunStatus}
    (ended : status.terminal = true) (has : state.statusOf runId = some status) :
    after.statusOf runId = some status := by
  obtain ⟨row, found, rfl⟩ := Option.map_eq_some_iff.mp has
  obtain ⟨kept, found_later, evolves⟩ := (run_grows continued).find _
    (fun row kept evolves => by rw [evolves.runId]) found
  rw [statusOf, Runs.get, found_later, Option.map_some, evolves.terminal ended]

/-- A status under which nothing can be resumed or is running. -/
def Spent (status : RunStatus) : Prop := status ≠ .running ∧ status ≠ .paused

theorem spares_of_pausesRunning {action : LifecycleAction} (linear : Linear Spent state)
    (pauses : PausesRunning state action) (stepped : step state action = some after) :
    Spares Spent state action := by
  rintro ⟨runId, status⟩ targeted
  cases status with
  | paused =>
      refine .inr fun row listed same active spent => ?_
      have resumed : row.status = .resumed := by
        revert active spent
        cases row.status <;> simp [RunStatus.active, Spent]
      apply pauses _ targeted rfl
      rw [← same, linear.statusOf_eq listed, resumed]
  | running =>
      cases action with
      | finish runId status =>
          cases targeted
          cases stepped
      | finalize =>
          simp only [outcome] at targeted
          split at targeted <;> simp at targeted
      | _ => cases targeted
  | _ => exact .inl ⟨by simp, by simp⟩

/-- Every state reached while no relay pauses a resumed run is linear. -/
theorem reachable_linear (reached : Reachable step PausesRunning {} state) : Linear Spent state :=
  reached.invariant (Linear Spent) linear_empty fun _ action _ linear pauses stepped =>
    step_linear action ⟨by simp, by simp⟩ (by simp [Spent]) linear
      (spares_of_pausesRunning linear pauses stepped) stepped

theorem childrenOf_length (runId : String) :
    (state.childrenOf runId).length = state.db.runs.countP (·.continuedFromRunId == some runId) :=
  List.countP_eq_length_filter.symm

theorem childrenOf_kept {allowed : Lifecycle → LifecycleAction → Prop} {runId : String}
    (continued : Reachable step allowed state after) (has : state.childrenOf runId ≠ []) :
    after.childrenOf runId ≠ [] := by
  obtain ⟨child, listed⟩ := List.exists_mem_of_ne_nil _ has
  have found : (state.db.runs.find? (·.continuedFromRunId == some runId)).isSome := by
    rw [List.find?_isSome]
    exact ⟨child, List.mem_filter.mp listed⟩
  obtain ⟨first, first_eq⟩ := Option.isSome_iff_exists.mp found
  obtain ⟨kept, kept_eq, -⟩ := (run_grows continued).find _
    (fun row kept evolves => by rw [evolves.parent]) first_eq
  have kept_listed : kept ∈ after.childrenOf runId := by
    rw [childrenOf, List.mem_filter]
    exact ⟨List.mem_of_find?_eq_some kept_eq, by simpa using List.find?_some kept_eq⟩
  exact List.ne_nil_of_mem kept_listed

theorem Linear.claimed_of_child (linear : Linear claimed state) {row : AgentRun}
    (listed : row ∈ state.db.runs) (has : state.childrenOf row.runId ≠ []) :
    claimed row.status := by
  apply linear.spent row listed
  have some_child := List.length_pos_of_ne_nil has
  rw [childrenOf_length] at some_child
  exact some_child.trans_le (Nat.le_add_left _ _)

theorem casResume_lost (linear : Linear claimed state) (paused : ¬claimed .paused)
    {runId : String} (has : state.childrenOf runId ≠ []) :
    (Runs.casResume state.db.runs runId).1 = none := by
  rw [Runs.casResume, Option.map_eq_none_iff, List.find?_eq_none]
  intro row listed hit
  obtain ⟨same, is_paused⟩ : row.runId = runId ∧ row.status = .paused := by simpa using hit
  subst same
  exact paused (is_paused ▸ linear.claimed_of_child listed has)

theorem statusOf_of_child (linear : Linear claimed state) {runId : String} {status : RunStatus}
    (has : state.childrenOf runId ≠ []) (found : state.statusOf runId = some status) :
    claimed status := by
  obtain ⟨row, row_eq, rfl⟩ := Option.map_eq_some_iff.mp found
  obtain rfl : row.runId = runId := by simpa using List.find?_some row_eq
  exact linear.claimed_of_child (List.mem_of_find?_eq_some row_eq) has

/-- Terminal statuses are absorbing in every execution.  When no relay pauses a resumed run, a run
has at most one child, and one which has a child is never paused or resumed again. -/
theorem lifecycle_linear (state later : Lifecycle) (runId : String) :
    (∀ status, Reachable step (fun _ _ => True) state later →
      status.terminal = true → state.statusOf runId = some status →
        later.statusOf runId = some status) ∧
    (Reachable step PausesRunning {} state → Reachable step PausesRunning state later →
      (state.childrenOf runId).length ≤ 1 ∧
      (state.childrenOf runId ≠ [] →
        later.statusOf runId ≠ some .paused ∧
          (Runs.casResume later.db.runs runId).1 = none)) := by
  refine ⟨fun status continued ended has => terminal_kept continued ended has, ?_⟩
  intro reached continued
  have linear := reachable_linear reached
  have linear_later := reachable_linear (reached.trans continued)
  constructor
  · have single := linear.single runId
    rw [childrenOf_length]
    exact (Nat.le_add_left _ _).trans single
  · intro has
    have has_later := childrenOf_kept continued has
    constructor
    · intro is_paused
      exact (statusOf_of_child linear_later has_later is_paused).2 rfl
    · exact casResume_lost linear_later (fun spent => spent.2 rfl) has_later

def resumeOnce (child : String) : List LifecycleAction :=
  [.pause "run" "credits_exhausted", .compareAndSet "run" ⟨1⟩, .chain 0 child 10]

/-- The continuation of a run whose relay has stopped stands alone. -/
theorem resumed_once_linear : ∃ state, Reachable step PausesRunning {} state ∧
    state.childrenOf "run" ≠ [] ∧ state.statusOf "run" ≠ some .paused ∧
      (Runs.casResume state.db.runs "run").1 = none := by
  obtain ⟨state, reached, has⟩ := reachable_of_any step PausesRunning {}
    (fun state => !(state.childrenOf "run").isEmpty)
    (.launch "run" ⟨1⟩ "session" none 0 :: resumeOnce "child") (by decide)
  have has_child : state.childrenOf "run" ≠ [] := by simpa using has
  have single := (lifecycle_linear state state "run").2 reached .start
  exact ⟨state, reached, has_child, single.2 has_child⟩

/-- A relay which pauses its run once more after it was continued makes it resumable again, and
the next resume call gives it a second child. -/
theorem late_pause_two_children :
    (∃ state, Reachable step (fun _ _ => True) {} state ∧
      state.childrenOf "run" ≠ [] ∧ state.statusOf "run" = some .paused) ∧
    ∃ state, Reachable step (fun _ _ => True) {} state ∧
      (state.childrenOf "run").length = 2 := by
  constructor
  · obtain ⟨state, reached, tested⟩ := reachable_of_any step (fun _ _ => True) {}
      (fun state => !(state.childrenOf "run").isEmpty && state.statusOf "run" == some .paused)
      (.launch "run" ⟨1⟩ "session" none 0 ::
        (resumeOnce "child" ++ [.pause "run" "credits_exhausted"])) (by decide)
    exact ⟨state, reached, by simpa using tested⟩
  · obtain ⟨state, reached, tested⟩ := reachable_of_any step (fun _ _ => True) {}
      (fun state => (state.childrenOf "run").length == 2)
      (.launch "run" ⟨1⟩ "session" none 0 :: (resumeOnce "child" ++ resumeOnce "second"))
      (by decide)
    exact ⟨state, reached, beq_iff_eq.mp tested⟩

end Lifecycle

end Hermes.AgentProxy
