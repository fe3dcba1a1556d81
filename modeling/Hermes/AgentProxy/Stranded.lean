import Hermes.AgentProxy.Resume

/-!
# What a resume call leaves behind

The compare-and-set is committed before the upstream calls, so whatever fails after it has to be
made good.  The `except Exception` around the upstream calls does so for exceptions; a
cancellation, and a failure behind the block, leave the run resumed without a continuation.
-/

namespace Hermes.AgentProxy

open Wallet

inductive Awaited
  | returned
  /-- With an `Exception`. -/
  | raised
  /-- With a `CancelledError`, or anything else which is no `Exception`. -/
  | cancelled
  deriving DecidableEq, Repr

/-- How a `COMMIT` ends. -/
inductive Commit
  | answered
  /-- It is done, but the caller is cancelled or loses the connection before it hears of it. -/
  | unanswered
  /-- Nothing of the transaction is kept. -/
  | lost
  deriving DecidableEq, Repr

/-- What a call of `resume` meets once its compare-and-set is committed. -/
structure ResumeCourse where
  /-- `ensure_running`. -/
  wake : Awaited := .returned
  /-- `_fetch_session_transcript`. -/
  hydrate : Awaited := .returned
  /-- `_launch_run`, and the id it returns. -/
  launch : Awaited := .returned
  newRunId : String
  /-- `revert_cas` and its commit. -/
  revert : Awaited := .returned
  revertCommit : Commit := .answered
  /-- `create_running`, the audit row, and their commit. -/
  insert : Awaited := .returned
  audit : Awaited := .returned
  chainCommit : Commit := .answered
  deriving DecidableEq, Repr

namespace ResumeCourse

/-- How the `try` block ends. -/
def upstream (course : ResumeCourse) : Awaited :=
  match course.wake, course.hydrate with
  | .returned, .returned => course.launch
  | .returned, hydrate => hydrate
  | wake, _ => wake

/-- How the block of `except Exception` ends before it raises the error again, and the rows it
leaves. -/
def compensate (course : ResumeCourse) (runId : String) (runs : Runs) : Awaited × Runs :=
  match course.revert, course.revertCommit with
  | .returned, .answered => (.raised, Runs.revertCas runs runId)
  | .returned, .unanswered => (.cancelled, Runs.revertCas runs runId)
  | .returned, .lost => (.raised, runs)
  | ended, _ => (ended, runs)

def chain (course : ResumeCourse) (won : Winner) (now : Time) (runs : Runs) : Awaited × Runs :=
  let inserted := Runs.createRunning runs (Lifecycle.childRow won course.newRunId now)
  match course.insert, course.audit, course.chainCommit with
  | .returned, .returned, .answered => (.returned, inserted)
  | .returned, .returned, .unanswered => (.cancelled, inserted)
  | .returned, .returned, .lost => (.raised, runs)
  | .returned, ended, _ => (ended, runs)
  | ended, _, _ => (ended, runs)

/-- `resume` from its committed compare-and-set on: how it ends, and the rows it leaves. -/
def conclude (course : ResumeCourse) (won : Winner) (now : Time) (runs : Runs) : Awaited × Runs :=
  match course.upstream with
  | .returned => course.chain won now runs
  | .raised => course.compensate won.runId runs
  | .cancelled => (.cancelled, runs)

/-- Nothing is left behind: the upstream calls return, the child's id is free and its transaction
is kept; or they raise an `Exception`, and the transaction of the reversal is kept. -/
def Compensates (course : ResumeCourse) (runs : Runs) : Prop :=
  match course.upstream with
  | .returned => course.insert = .returned ∧ course.audit = .returned ∧
      course.chainCommit ≠ .lost ∧ runs.get course.newRunId = none
  | .raised => course.revert = .returned ∧ course.revertCommit ≠ .lost
  | .cancelled => False

instance (course : ResumeCourse) (runs : Runs) : Decidable (course.Compensates runs) := by
  unfold Compensates
  split <;> infer_instance

end ResumeCourse

/-- What happens to runs while resume calls are under way. -/
inductive ResumptionAction
  /-- A resume call issues `cas_resume` and its commit. -/
  | compareAndSet (runId : String) (userId : UserId) (commit : Commit)
  /-- A winner goes through the rest of its call. -/
  | conclude (winner : Nat) (course : ResumeCourse) (now : Time)
  /-- Relays, clients and sweeps. -/
  | other (action : LifecycleAction)

def LifecycleAction.foreign : LifecycleAction → Bool
  | .compareAndSet _ _ | .chain _ _ _ | .revert _ | .abandon _ => false
  | _ => true

namespace Resumptions

open Lifecycle

def step (state : Lifecycle) : ResumptionAction → Option Lifecycle
  | .compareAndSet runId userId commit =>
      match Runs.casResume state.db.runs runId, commit with
      | (some (sessionId, model), runs), .answered =>
          some { state.withRuns runs with
            launching := state.launching ++ [⟨runId, userId, sessionId, model⟩] }
      -- The exception leaves the call before the block which could make it good.
      | (some _, runs), .unanswered => some (state.withRuns runs)
      | _, _ => some state
  | .conclude winner course now =>
      match state.launching[winner]? with
      | none => none
      | some won =>
          some ((state.withRuns (course.conclude won now state.db.runs).2).dropWinner winner)
  | .other action => if action.foreign then Lifecycle.step state action else none

/-- Each call that ends makes good what it leaves. -/
def Compensated (state : Lifecycle) : ResumptionAction → Prop
  | .compareAndSet runId _ commit =>
      commit = .unanswered → (Runs.casResume state.db.runs runId).1 = none
  | .conclude winner course _ => ∀ won ∈ state.launching[winner]?,
      state.statusOf won.runId = some .resumed → state.childrenOf won.runId = [] →
        course.Compensates state.db.runs
  | .other _ => True

instance (state : Lifecycle) (action : ResumptionAction) :
    Decidable (Compensated state action) := by
  cases action <;> unfold Compensated <;> infer_instance

/-- The run is resumed, nothing continues it, and no resume call is on its way to. -/
def Stranded (state : Lifecycle) (runId : String) : Prop :=
  state.statusOf runId = some .resumed ∧ state.childrenOf runId = [] ∧
    ∀ won ∈ state.launching, won.runId ≠ runId

section Rows

variable {before after : Runs} {state next : Lifecycle} {runId : String}

theorem childrenOf_grows (grows : Grows state.db.runs next.db.runs)
    (has : state.childrenOf runId ≠ []) : next.childrenOf runId ≠ [] := by
  obtain ⟨child, listed⟩ := List.exists_mem_of_ne_nil _ has
  obtain ⟨present, named⟩ := List.mem_filter.mp listed
  obtain ⟨change, added, rows_eq, evolves⟩ := grows
  have kept : change child ∈ next.childrenOf runId := by
    rw [childrenOf, rows_eq, List.mem_filter, (evolves child).parent]
    exact ⟨List.mem_append_left _ (List.mem_map_of_mem present), named⟩
  exact List.ne_nil_of_mem kept

theorem resumed_of_update {guard : AgentRun → Bool} {change : AgentRun → AgentRun} {other : String}
    (keeps : KeepsIdentity change)
    (spares : ∀ row, (change row).status = .resumed → row.status = .resumed)
    (resumed : ((before.update runId guard change).get other).map (·.status) = some .resumed) :
    (before.get other).map (·.status) = some .resumed := by
  rw [get_update keeps, Option.map_map] at resumed
  obtain ⟨row, found, status_eq⟩ := Option.map_eq_some_iff.mp resumed
  rw [found, Option.map_some, Option.some_inj]
  rw [Function.comp_apply] at status_eq
  split at status_eq
  · exact spares row status_eq
  · exact status_eq

theorem resumed_of_createRunning {run : AgentRun} {other : String} (fresh : run.status = .running)
    (resumed : ((before.createRunning run).get other).map (·.status) = some .resumed) :
    (before.get other).map (·.status) = some .resumed := by
  rcases createRunning_rows before run with same | ⟨-, grown⟩
  · rwa [same] at resumed
  · rw [grown, Runs.get, List.find?_append] at resumed
    cases found : before.find? fun row => row.runId == other with
    | some row =>
        rw [Runs.get, found]
        rwa [found] at resumed
    | none =>
        rw [found, Option.none_or, List.find?_singleton] at resumed
        split at resumed
        · rw [Option.map_some, fresh] at resumed
          cases resumed
        · cases resumed

end Rows

section Foreign

variable {state next : Lifecycle} {runId : String}

theorem foreign_step {action : LifecycleAction} (foreign : action.foreign = true)
    (stepped : Lifecycle.step state action = some next) :
    next.launching = state.launching ∧
      (next.statusOf runId = some .resumed → state.statusOf runId = some .resumed) := by
  have updated (target : String) {guard : AgentRun → Bool} {change : AgentRun → AgentRun}
      (runs_eq : next.db.runs = Runs.update state.db.runs target guard change)
      (keeps : KeepsIdentity change)
      (spares : ∀ row, (change row).status = .resumed → row.status = .resumed) :
      next.statusOf runId = some .resumed → state.statusOf runId = some .resumed := by
    intro resumed
    rw [Lifecycle.statusOf, runs_eq] at resumed
    exact resumed_of_update keeps spares resumed
  cases action with
  | compareAndSet | chain | revert | abandon => cases foreign
  | launch newRunId userId sessionId model now =>
      cases stepped
      exact ⟨rfl, resumed_of_createRunning rfl⟩
  | pause target reason =>
      cases stepped
      refine ⟨rfl, updated target rfl ⟨fun _ => rfl, fun _ => rfl⟩ ?_⟩
      intro row paused
      cases paused
  | finish target status =>
      simp only [Lifecycle.step] at stepped
      split at stepped
      next ended =>
        cases stepped
        refine ⟨rfl, updated target rfl ⟨fun _ => rfl, fun _ => rfl⟩ ?_⟩
        intro row resumed
        change status = .resumed at resumed
        subst resumed
        cases ended
      · cases stepped
  | stop target userId =>
      cases stepped
      refine ⟨rfl, updated target rfl ⟨fun _ => rfl, fun _ => rfl⟩ ?_⟩
      intro row cancelled
      cases cancelled
  | list now timeout limit =>
      cases stepped
      exact ⟨rfl, id⟩
  | finalize candidate leaseAlive settings conditions =>
      simp only [Lifecycle.step] at stepped
      split at stepped
      · cases stepped
      next row found =>
        split at stepped
        · cases stepped
          refine ⟨rfl, ?_⟩
          rcases finalizeOrphanRun_runs settings conditions row state.db with same | marked
          · rw [Lifecycle.statusOf, same]
            exact id
          · refine updated row.runId marked ⟨fun _ => rfl, fun _ => rfl⟩ ?_
            intro run failed
            cases failed
        · cases stepped
          exact ⟨rfl, id⟩
  | record target stepIndex credits =>
      obtain ⟨runs, recorded, rfl⟩ := step_record stepped
      refine ⟨rfl, updated target (recordStep_eq recorded) ⟨fun _ => rfl, fun _ => rfl⟩ ?_⟩
      intro row resumed
      exact resumed
  | elsewhere accounts snapshots =>
      cases stepped
      exact ⟨rfl, id⟩

end Foreign

section Conclude

variable {state next : Lifecycle} {won : Winner} {winner : Nat} {course : ResumeCourse}
  {now : Time} {runId : String}

theorem conclude_rows (course : ResumeCourse) (won : Winner) (now : Time) (runs : Runs) :
    (course.conclude won now runs).2 = runs ∨
      (course.conclude won now runs).2 = Runs.revertCas runs won.runId ∨
      (course.conclude won now runs).2 =
        Runs.createRunning runs (childRow won course.newRunId now) := by
  unfold ResumeCourse.conclude
  split
  · unfold ResumeCourse.chain
    simp only
    split
    · exact .inr (.inr rfl)
    · exact .inr (.inr rfl)
    · exact .inl rfl
    · exact .inl rfl
    · exact .inl rfl
  · unfold ResumeCourse.compensate
    split
    · exact .inr (.inl rfl)
    · exact .inr (.inl rfl)
    · exact .inl rfl
    · exact .inl rfl
  · exact .inl rfl

theorem conclude_of_compensates {runs : Runs} (compensates : course.Compensates runs) :
    (course.conclude won now runs).2 = Runs.revertCas runs won.runId ∨
      runs.get course.newRunId = none ∧
        (course.conclude won now runs).2 =
          Runs.createRunning runs (childRow won course.newRunId now) := by
  unfold ResumeCourse.Compensates at compensates
  unfold ResumeCourse.conclude
  split at compensates
  next returned =>
    obtain ⟨inserted, audited, kept, free⟩ := compensates
    refine .inr ⟨free, ?_⟩
    simp only [ResumeCourse.chain, inserted, audited]
    cases ended : course.chainCommit with
    | answered | unanswered => rfl
    | lost => exact absurd ended kept
  next raised =>
    obtain ⟨reverted, kept⟩ := compensates
    refine .inl ?_
    simp only [ResumeCourse.compensate, reverted]
    cases ended : course.revertCommit with
    | answered | unanswered => rfl
    | lost => exact absurd ended kept
  next cancelled => cases compensates

theorem conclude_of_not_compensates {runs : Runs} (leaves : ¬course.Compensates runs) :
    (course.conclude won now runs).2 = runs := by
  unfold ResumeCourse.Compensates at leaves
  unfold ResumeCourse.conclude
  split at leaves
  next returned =>
    simp only [ResumeCourse.chain]
    cases inserted : course.insert with
    | raised | cancelled => rfl
    | returned =>
        cases audited : course.audit with
        | raised | cancelled => rfl
        | returned =>
            cases ended : course.chainCommit with
            | lost => rfl
            | answered | unanswered =>
                cases taken : runs.get course.newRunId with
                | none => exact absurd ⟨inserted, audited, by simp [ended], taken⟩ leaves
                | some row => simp [Runs.createRunning, childRow, taken]
  next raised =>
    simp only [ResumeCourse.compensate]
    cases reverted : course.revert with
    | raised | cancelled => rfl
    | returned =>
        cases ended : course.revertCommit with
        | lost => rfl
        | answered | unanswered => exact absurd ⟨reverted, by simp [ended]⟩ leaves
  next cancelled => rfl

theorem keepsIdentity_paused :
    KeepsIdentity fun row : AgentRun => { row with status := .paused } where
  runId _ := rfl
  parent _ := rfl

theorem statusOf_revertCas (resumed : state.statusOf runId = some .resumed)
    (childless : state.childrenOf runId = []) :
    ((Runs.revertCas state.db.runs runId).get runId).map (·.status) = some .paused := by
  have none_found : Runs.activeChild state.db.runs runId = none := by
    rw [Runs.activeChild, List.find?_eq_none]
    exact List.filter_eq_nil_iff.mp childless
  obtain ⟨row, found, status_eq⟩ := Option.map_eq_some_iff.mp resumed
  have mine : row.runId = runId := by simpa using List.find?_some found
  rw [Runs.revertCas, get_update keepsIdentity_paused, found]
  simp [mine, status_eq, none_found]

theorem childrenOf_createRunning {runs : Runs} (free : runs.get course.newRunId = none) :
    (Runs.createRunning runs (childRow won course.newRunId now)).filter
      (·.continuedFromRunId == some won.runId) ≠ [] := by
  rw [Runs.createRunning, if_neg (by simp [childRow, free])]
  simp [childRow]

theorem step_conclude (stepped : step state (.conclude winner course now) = some next) :
    ∃ won, state.launching[winner]? = some won ∧
      next.db.runs = (course.conclude won now state.db.runs).2 ∧
      next.launching = state.launching.eraseIdx winner := by
  simp only [step] at stepped
  split at stepped
  · cases stepped
  next won found =>
    cases stepped
    exact ⟨won, found, rfl, rfl⟩

/-- A childless resumed run is paused or continued by a call exactly if the call makes good what it
leaves. -/
theorem conclude_iff (resumed : state.statusOf won.runId = some .resumed)
    (childless : state.childrenOf won.runId = [])
    (rows : next.db.runs = (course.conclude won now state.db.runs).2) :
    (next.statusOf won.runId = some .paused ∨ next.childrenOf won.runId ≠ []) ↔
      course.Compensates state.db.runs := by
  constructor
  · intro settled
    by_contra leaves
    rw [conclude_of_not_compensates leaves] at rows
    rw [Lifecycle.statusOf, childrenOf, rows] at settled
    rcases settled with paused | has
    · cases resumed.symm.trans paused
    · exact has childless
  · intro compensates
    rcases conclude_of_compensates compensates with reverted | ⟨free, inserted⟩
    · left
      rw [Lifecycle.statusOf, rows, reverted]
      exact statusOf_revertCas resumed childless
    · right
      rw [childrenOf, rows, inserted]
      exact childrenOf_createRunning free

theorem conclude_resumed (stepped : step state (.conclude winner course now) = some next)
    (resumed : next.statusOf runId = some .resumed) : state.statusOf runId = some .resumed := by
  obtain ⟨won, -, rows, -⟩ := step_conclude stepped
  rw [Lifecycle.statusOf, rows] at resumed
  rcases conclude_rows course won now state.db.runs with same | reverted | inserted
  · rwa [same] at resumed
  · rw [reverted] at resumed
    refine resumed_of_update keepsIdentity_paused ?_ resumed
    intro row paused
    cases paused
  · rw [inserted] at resumed
    exact resumed_of_createRunning rfl resumed

theorem conclude_grows (stepped : step state (.conclude winner course now) = some next) :
    Grows state.db.runs next.db.runs := by
  obtain ⟨won, -, rows, -⟩ := step_conclude stepped
  rw [rows]
  rcases conclude_rows course won now state.db.runs with same | reverted | inserted
  · rw [same]
    exact Grows.refl _
  · rw [reverted]
    refine Grows.update _ _ _ _ fun row guarded => evolves_status _ ?_ rfl rfl rfl
    have resumed : row.status = .resumed := by simpa using (Bool.and_eq_true_iff.mp guarded).1
    rw [resumed]
    rfl
  · rw [inserted]
    exact Grows.createRunning _ _

end Conclude

section Held

variable {state next : Lifecycle} {winner : Nat} {runId : String}

theorem mem_eraseIdx_of_ne {won other : Winner} (found : state.launching[winner]? = some won)
    (listed : other ∈ state.launching) (differs : won.runId ≠ other.runId) :
    ∃ kept ∈ state.launching.eraseIdx winner, kept.runId = other.runId := by
  have counted := dropWinner_count found other.runId
  rw [if_neg differs, add_zero] at counted
  have positive : 0 < state.launching.countP (·.runId == other.runId) :=
    List.countP_pos_iff.mpr ⟨other, listed, by simp⟩
  rw [← counted] at positive
  obtain ⟨kept, present, same⟩ := List.countP_pos_iff.mp positive
  exact ⟨kept, present, by simpa using same⟩

theorem casResume_elsewhere {runs : Runs} {target : String} (elsewhere : target ≠ runId) :
    (Runs.casResume runs target).2.get runId = runs.get runId := by
  have keeps : KeepsIdentity fun row : AgentRun => { row with status := .resumed } :=
    ⟨fun _ => rfl, fun _ => rfl⟩
  rw [Runs.casResume, get_update keeps]
  cases found : runs.get runId with
  | none => rfl
  | some row =>
      have mine : row.runId = runId := by simpa using List.find?_some found
      rw [Option.map_some, if_neg fun hit => elsewhere (hit.1.symm.trans mine)]

theorem casResume_grows (runs : Runs) (target : String) :
    Grows runs (Runs.casResume runs target).2 := by
  refine Grows.update _ _ _ _ fun row guarded => evolves_status _ ?_ rfl rfl rfl
  rw [beq_iff_eq.mp guarded]
  rfl

theorem step_held {action : ResumptionAction} (held : ¬Stranded state runId)
    (compensated : Compensated state action) (stepped : step state action = some next) :
    ¬Stranded next runId := by
  rintro ⟨resumed, childless, unheld⟩
  apply held
  cases action with
  | other action =>
      simp only [step] at stepped
      split at stepped
      next foreign =>
        obtain ⟨launching_eq, kept⟩ := foreign_step foreign stepped
        refine ⟨kept resumed, ?_, launching_eq ▸ unheld⟩
        by_contra has
        exact childrenOf_grows (step_grows stepped) has childless
      · cases stepped
  | conclude winner course now =>
      obtain ⟨won, found, rows, launching_eq⟩ := step_conclude stepped
      have was_resumed := conclude_resumed stepped resumed
      have was_childless : state.childrenOf runId = [] := by
        by_contra has
        exact childrenOf_grows (conclude_grows stepped) has childless
      refine ⟨was_resumed, was_childless, ?_⟩
      intro other listed same
      rw [launching_eq] at unheld
      by_cases mine : won.runId = runId
      · subst mine
        have settled := (conclude_iff was_resumed was_childless rows).mpr
          (compensated won found was_resumed was_childless)
        rcases settled with paused | has
        · cases resumed.symm.trans paused
        · exact has childless
      · subst same
        obtain ⟨kept, present, kept_eq⟩ := mem_eraseIdx_of_ne found listed mine
        exact unheld kept present kept_eq
  | compareAndSet target userId commit =>
      simp only [step] at stepped
      split at stepped
      next sessionId model runs won =>
        cases stepped
        have runs_eq : runs = (Runs.casResume state.db.runs target).2 := by rw [won]
        have elsewhere : target ≠ runId :=
          unheld ⟨target, userId, sessionId, model⟩ (List.mem_append_right _ (by simp))
        refine ⟨?_, ?_, fun other listed => unheld other (List.mem_append_left _ listed)⟩
        · change (runs.get runId).map (·.status) = some .resumed at resumed
          rwa [runs_eq, casResume_elsewhere elsewhere] at resumed
        · by_contra has
          refine childrenOf_grows ?_ has childless
          change Grows state.db.runs runs
          rw [runs_eq]
          exact casResume_grows state.db.runs target
      next answer runs won =>
        have lost := compensated rfl
        rw [won] at lost
        cases lost
      · cases stepped
        exact ⟨resumed, childless, unheld⟩

end Held

/-- However often runs are resumed, and wherever those calls fail or are cancelled, no run is left
resumed without a continuation while each call that ends makes good what it leaves.  In any state,
a call which ends on a run that is resumed and has no child pauses or continues it if and only if it
makes that good. -/
theorem resume_strands_no_run {state : Lifecycle} (reached : Reachable step Compensated {} state) :
    (∀ runId, ¬Stranded state runId) ∧
    ∀ (before next : Lifecycle) (winner : Nat) (course : ResumeCourse) (now : Time) (won : Winner),
      before.launching[winner]? = some won → before.statusOf won.runId = some .resumed →
      before.childrenOf won.runId = [] →
      step before (.conclude winner course now) = some next →
        ((next.statusOf won.runId = some .paused ∨ next.childrenOf won.runId ≠ []) ↔
          course.Compensates before.db.runs) := by
  constructor
  · intro runId
    apply reached.invariant fun state => ¬Stranded state runId
    · rintro ⟨resumed, -, -⟩
      cases resumed
    · intro before action after held compensated stepped
      exact step_held held compensated stepped
  · intro before next winner course now won found resumed childless stepped
    obtain ⟨other, listed, rows, -⟩ := step_conclude stepped
    obtain rfl : won = other := Option.some.inj (found.symm.trans listed)
    exact conclude_iff resumed childless rows

/-- A run is launched and paused, and a resume call on it goes one way. -/
def resumeOnceMore (course : ResumeCourse) : List ResumptionAction :=
  [.other (.launch "run" ⟨1⟩ "session" none 0), .other (.pause "run" "credits_exhausted"),
    .compareAndSet "run" ⟨1⟩ .answered, .conclude 0 course 10]

/-- A launch which fails after the hydration gives the run back, and a second call continues it. -/
theorem failed_launch_resumable : ∃ state, Reachable step Compensated {} state ∧
    ¬Stranded state "run" ∧ state.childrenOf "run" ≠ [] := by
  obtain ⟨state, reached, has⟩ := reachable_of_any step Compensated {}
    (fun state => !(state.childrenOf "run").isEmpty)
    (resumeOnceMore { newRunId := "lost", launch := .raised } ++
      [.compareAndSet "run" ⟨1⟩ .answered, .conclude 0 { newRunId := "child" } 20])
    (by decide)
  exact ⟨state, reached, (resume_strands_no_run reached).1 "run", by simpa using has⟩

/-- The request is cancelled while the instance wakes up: the run stays resumed without a child, and
the next resume call is refused. -/
theorem interrupted_resume_strands :
    ∃ state, Reachable step (fun _ _ => True) {} state ∧ Stranded state "run" ∧
      resume BillingSystem.ordinarySettings ⟨1⟩ "run" subscriber 0 state.db.runs state.db.runs
        state.db.runs = .inProgress := by
  obtain ⟨state, reached, tested⟩ := reachable_of_any step (fun _ _ => True) {}
    (fun state => state.statusOf "run" == some .resumed && ((state.childrenOf "run").isEmpty &&
      (state.launching.isEmpty &&
        resume BillingSystem.ordinarySettings ⟨1⟩ "run" subscriber 0 state.db.runs state.db.runs
          state.db.runs == .inProgress)))
    (resumeOnceMore { newRunId := "child", wake := .cancelled }) (by decide)
  simp only [Bool.and_eq_true, beq_iff_eq, List.isEmpty_iff] at tested
  obtain ⟨resumed, childless, idle, refused⟩ := tested
  refine ⟨state, reached, ⟨resumed, childless, ?_⟩, refused⟩
  intro won present
  rw [idle] at present
  cases present

end Resumptions

end Hermes.AgentProxy
