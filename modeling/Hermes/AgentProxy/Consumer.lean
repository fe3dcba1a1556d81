import Hermes.Library.Unwinding

/-!
# How a consumer lets go of its run

`run_consumer` holds a lease, and whoever waits for its subscription, until `_finalize` has run.
The `finally` covers everything but the call between the lease and the `try`; within it a step
which raises keeps the later ones from running.
-/

namespace Hermes.AgentProxy

open Unwinding

/-- The exceptions which the clauses of `run_consumer` tell apart. -/
inductive Thrown
  /-- `ConsumerSubscriptionError`. -/
  | subscription
  /-- `SQLAlchemyError`. -/
  | database
  /-- `TimeoutError`. -/
  | timeout
  /-- Any other `Exception`. -/
  | other
  /-- `asyncio.CancelledError`. -/
  | cancelled
  /-- `KeyboardInterrupt` or `SystemExit`. -/
  | exit
  deriving DecidableEq, Repr

/-- `isinstance(…, Exception)`. -/
def Thrown.isException : Thrown → Bool
  | .cancelled | .exit => false
  | _ => true

/-- Why a consumer stopped, as it is audited. -/
inductive ConsumerEvent
  | failed
  | disconnected
  | shutdown
  | maxDuration
  | stalled
  deriving DecidableEq, Repr

/-- How a task ends: with an event to audit, if any, or with an exception. -/
abbrev TaskEnd := Except Thrown (Option ConsumerEvent)

/-- What becomes of the command which releases the lease. -/
inductive LeaseRelease
  | answered
  /-- `RedisError`, which `release_lease` logs. -/
  | redisError
  /-- Anything else, before or after Redis has deleted the key. -/
  | threw (thrown : Thrown) (applied : Bool)
  deriving DecidableEq, Repr

/-- What a consumer which has taken its lease meets.  `none` is a call which returns. -/
structure ConsumerCourse where
  ensureEpoch : Option Thrown := none
  prepareSnapshot : Option Thrown := none
  worker : TaskEnd := .ok none
  supervisor : TaskEnd := .ok none
  /-- The coroutine is cancelled while it waits for its tasks. -/
  cancelled : Bool := false
  /-- The worker has got as far as `ctx.processing`. -/
  processing : Bool := true
  flush : Option Thrown := none
  release : LeaseRelease := .answered
  audit : Option Thrown := none
  deriving DecidableEq

/-- What is left of a consumer: its lease, its waiters, and what it has to say. -/
structure ConsumerState where
  leaseHeld : Bool := true
  waitersReleased : Bool := false
  auditEvent : Option ConsumerEvent := none
  recorded : Option ConsumerEvent := none
  deriving DecidableEq, Repr

abbrev ConsumerStep := Unwinding Thrown ConsumerState Unit

def TaskEnd.thrown : TaskEnd → Option Thrown
  | .ok _ => none
  | .error thrown => some thrown

/-- What `asyncio.TaskGroup` raises.  Cancelled children are no errors, `KeyboardInterrupt` and
`SystemExit` come alone, and a cancellation from outside counts if there is no error. -/
def taskGroup (cancelled : Bool) (children : List TaskEnd) : List Thrown :=
  let errors := (children.filterMap TaskEnd.thrown).filter (· ≠ .cancelled)
  if .exit ∈ errors then [.exit]
  else if errors = [] ∧ cancelled = true then [.cancelled]
  else errors

/-- `task.result()`, of which `keep` takes the event. -/
def takeResult (task : TaskEnd)
    (keep : Option ConsumerEvent → Option ConsumerEvent → Option ConsumerEvent) : ConsumerStep :=
  match task with
  | .ok event => modify fun state => { state with auditEvent := keep state.auditEvent event }
  | .error thrown => raise [thrown]

/-- The body of the inner `try`. -/
def superviseRun (course : ConsumerCourse) : ConsumerStep := do
  perform course.prepareSnapshot id
  raise (taskGroup course.cancelled [course.worker, course.supervisor])
  takeResult course.supervisor fun _ event => event
  takeResult course.worker fun verdict event => verdict.or event

/-- The three `except*` clauses. -/
def consumerClauses : List (Clause Thrown ConsumerState) :=
  [⟨(· == .subscription), fun state => { state with auditEvent := some .failed }⟩,
    ⟨(· == .database), fun state => { state with auditEvent := some .failed }⟩,
    ⟨(· == .cancelled), fun state =>
      { state with auditEvent := state.auditEvent.or (some .shutdown) }⟩]

/-- The `try` with its clauses: what stays unnamed is noted as a failure, if it is an
`Exception`. -/
def guardedRun (course : ConsumerCourse) : ConsumerStep :=
  noting Thrown.isException
    (fun state => { state with auditEvent := state.auditEvent.or (some .failed) })
    (exceptStar consumerClauses (superviseRun course))

/-- `release_lease`. -/
def releaseLease : LeaseRelease → ConsumerStep
  | .answered => modify fun state => { state with leaseHeld := false }
  | .redisError => pure ()
  | .threw thrown applied => do
      modify fun state => { state with leaseHeld := state.leaseHeld && !applied }
      raise [thrown]

/-- `record_consumer_event`. -/
def recordEvent (course : ConsumerCourse) : Option ConsumerEvent → ConsumerStep
  | none => pure ()
  | some event =>
      suppressing (· == .database)
        (perform course.audit fun state => { state with recorded := some event })

/-- The last flush, which is made once the worker has some state to flush. -/
def finalFlush (course : ConsumerCourse) : ConsumerStep :=
  if course.processing then
    suppressing (fun thrown => thrown == .timeout || thrown == .database)
      (perform course.flush id)
  else pure ()

/-- `_finalize`. -/
def finalize (course : ConsumerCourse) : ConsumerStep := do
  modify fun state => { state with waitersReleased := true }
  finalFlush course
  releaseLease course.release
  let state ← read
  recordEvent course state.auditEvent

/-- `run_consumer`, once its lease is acquired. -/
def runConsumer (course : ConsumerCourse) : ConsumerStep := do
  perform course.ensureEpoch id
  finallyDo (guardedRun course) (finalize course)

/-- What a consumer leaves when its coroutine has ended. -/
def ConsumerCourse.left (course : ConsumerCourse) : ConsumerState :=
  ((runConsumer course).run {}).2

/-- The snapshot was prepared, and both tasks ended with nothing to report. -/
def ConsumerCourse.Quiet (course : ConsumerCourse) : Prop :=
  course.prepareSnapshot = none ∧ course.worker = .ok none ∧ course.supervisor = .ok none ∧
    course.cancelled = false

/-- The run ended normally, and the coroutine returned. -/
def ConsumerCourse.EndsNormally (course : ConsumerCourse) : Prop :=
  course.Quiet ∧ ((runConsumer course).run {}).1 = .ok ()

/-- A consumer lets go: the lease is released if Redis answers, nobody waits any longer, and an
ending which was not normal is recorded if the database answers. -/
structure ConsumerCourse.LetsGo (course : ConsumerCourse) : Prop where
  lease : course.release ≠ .redisError → course.left.leaseHeld = false
  waiters : course.left.waitersReleased = true
  recorded : ¬course.EndsNormally → course.audit ≠ some .database → course.left.recorded ≠ none

/-- Neither the snapshot nor a task is left with `KeyboardInterrupt` or `SystemExit`. -/
def ConsumerCourse.Unexited (course : ConsumerCourse) : Prop :=
  course.prepareSnapshot ≠ some .exit ∧
    (course.prepareSnapshot = none →
      course.worker ≠ .error .exit ∧ course.supervisor ≠ .error .exit)

/-- The last flush is skipped, returns, or ends in a way which is logged. -/
def ConsumerCourse.Flushes (course : ConsumerCourse) : Prop :=
  course.processing = true →
    course.flush = none ∨ course.flush = some .timeout ∨ course.flush = some .database

/-- When a consumer lets go.
* The generation is created, and the last flush does not raise, unless neither Redis nor the
  database answers afterwards.
* The command which releases the lease does not fail before Redis has deleted the key.
* If the database answers, that command returns, and the run was quiet, or it was left without an
  exit and the audit row is written. -/
structure ConsumerCourse.Orderly (course : ConsumerCourse) : Prop where
  started : course.ensureEpoch = none
  flushed : course.Flushes ∨ course.release = .redisError ∧ course.audit = some .database
  released : ∀ thrown, course.release ≠ .threw thrown false
  audited : course.audit ≠ some .database → (∀ thrown, course.release ≠ .threw thrown true) ∧
    (course.Quiet ∨ course.Unexited ∧ course.audit = none)

section Runs

variable {course : ConsumerCourse} {state : ConsumerState}

theorem taskGroup_exit (cancelled : Bool) (children : List TaskEnd) :
    .exit ∉ taskGroup cancelled children ∧ (.error .exit : TaskEnd) ∉ children ∨
      taskGroup cancelled children = [.exit] ∧ (.error .exit : TaskEnd) ∈ children := by
  have thrown_iff : .exit ∈ (children.filterMap TaskEnd.thrown).filter (· ≠ .cancelled) ↔
      (.error .exit : TaskEnd) ∈ children := by
    simp only [List.mem_filter, List.mem_filterMap, ne_eq, reduceCtorEq, not_false_eq_true,
      decide_true, and_true]
    constructor
    · rintro ⟨child, listed, thrown⟩
      cases child with
      | ok event => cases thrown
      | error exception =>
          cases thrown
          exact listed
    · intro listed
      exact ⟨_, listed, rfl⟩
  unfold taskGroup
  simp only
  split
  next exits => exact .inr ⟨rfl, thrown_iff.mp exits⟩
  next stays =>
    left
    refine ⟨?_, fun listed => stays (thrown_iff.mpr listed)⟩
    split
    · simp
    · exact stays

structure Guarded (course : ConsumerCourse) (ended : Except (List Thrown) Unit)
    (after : ConsumerState) : Prop where
  kept : after.leaseHeld = true ∧ after.recorded = none
  quiet : course.Quiet → ended = .ok () ∧ after.auditEvent = none
  unexited : ¬course.Quiet → course.Unexited → after.auditEvent ≠ none
  exited : ¬course.Unexited → ended ≠ .ok () ∧ after.auditEvent = none

theorem handleAll_keeps (group : List Thrown) (state : ConsumerState) :
    (handleAll consumerClauses group state).leaseHeld = state.leaseHeld ∧
      (handleAll consumerClauses group state).recorded = state.recorded := by
  simp only [consumerClauses, handleAll]
  constructor
  all_goals
    split
    all_goals
      split
      all_goals split <;> rfl

theorem handleAll_event {group : List Thrown}
    (caught : .subscription ∈ group ∨ .database ∈ group ∨ .cancelled ∈ group) :
    (handleAll consumerClauses group state).auditEvent ≠ none := by
  simp only [consumerClauses, handleAll, List.any_filter, List.any_eq_true]
  split
  next cancelled => simp
  next uncancelled =>
    split
    next database => simp
    next undatabased =>
      split
      next subscribed => simp
      next unsubscribed =>
        exfalso
        rcases caught with listed | listed | listed
        · exact unsubscribed ⟨_, listed, rfl⟩
        · exact undatabased ⟨_, listed, rfl⟩
        · exact uncancelled ⟨.cancelled, listed, rfl⟩

theorem mem_uncaught {group : List Thrown} {thrown : Thrown} :
    thrown ∈ uncaught consumerClauses group ↔
      thrown ∈ group ∧ thrown ≠ .subscription ∧ thrown ≠ .database ∧ thrown ≠ .cancelled := by
  cases thrown <;> simp [uncaught, consumerClauses]

theorem clauses_event {group : List Thrown} {body : ConsumerStep} {after : ConsumerState}
    (raised : body.run state = (.error group, after)) (some_thrown : group ≠ [])
    (stays : .exit ∉ group) :
    let guarded := (noting Thrown.isException
      (fun state => { state with auditEvent := state.auditEvent.or (some .failed) })
      (exceptStar consumerClauses body)).run state
    guarded.2.auditEvent ≠ none ∧ guarded.2.leaseHeld = after.leaseHeld ∧
      guarded.2.recorded = after.recorded := by
  intro guarded
  have kept := handleAll_keeps group after
  have starred : (exceptStar consumerClauses body).run state =
      (raise (uncaught consumerClauses group)).run (handleAll consumerClauses group after) := by
    simp only [exceptStar, raised]
  cases rest : uncaught consumerClauses group with
  | nil =>
      have guarded_eq : guarded = (.ok (), handleAll consumerClauses group after) := by
        simp only [guarded, noting, starred, rest, raise]
      rw [guarded_eq]
      refine ⟨handleAll_event ?_, kept⟩
      obtain ⟨thrown, listed⟩ := List.exists_mem_of_ne_nil _ some_thrown
      by_contra missed
      have left : thrown ∈ uncaught consumerClauses group := by
        refine mem_uncaught.mpr ⟨listed, ?_, ?_, ?_⟩
        all_goals
          rintro rfl
          simp [listed] at missed
      rw [rest] at left
      cases left
  | cons head later =>
      have named : (head :: later).all Thrown.isException = true := by
        rw [List.all_eq_true]
        intro thrown listed
        rw [← rest] at listed
        obtain ⟨present, -, -, uncancelled⟩ := mem_uncaught.mp listed
        cases thrown with
        | exit => exact absurd present stays
        | cancelled => exact absurd rfl uncancelled
        | subscription | database | timeout | other => rfl
      have guarded_eq : guarded = (.error (head :: later),
          { handleAll consumerClauses group after with
            auditEvent := (handleAll consumerClauses group after).auditEvent.or
              (some .failed) }) := by
        simp only [guarded, noting, starred, rest, raise, named, if_true]
      rw [guarded_eq]
      refine ⟨?_, kept⟩
      cases (handleAll consumerClauses group after).auditEvent <;> simp

theorem clauses_exit {body : ConsumerStep} {after : ConsumerState}
    (raised : body.run state = (.error [.exit], after)) :
    (noting Thrown.isException
      (fun state => { state with auditEvent := state.auditEvent.or (some .failed) })
      (exceptStar consumerClauses body)).run state = (.error [.exit], after) := by
  simp only [noting, exceptStar, raised]
  rfl

theorem guarded_of_raised {group : List Thrown} {after : ConsumerState}
    (raised : (superviseRun course).run {} = (.error group, after)) (some_thrown : group ≠ [])
    (stays : .exit ∉ group) (kept : after.leaseHeld = true ∧ after.recorded = none)
    (loud : ¬course.Quiet) (unexited : course.Unexited) :
    Guarded course ((guardedRun course).run {}).1 ((guardedRun course).run {}).2 := by
  obtain ⟨event, lease, record⟩ := clauses_event raised some_thrown stays
  exact ⟨⟨lease.trans kept.1, record.trans kept.2⟩, fun quiet => absurd quiet loud,
    fun _ _ => event, fun exited => absurd unexited exited⟩

theorem guarded_of_exit (raised : (superviseRun course).run {} = (.error [.exit], {}))
    (loud : ¬course.Quiet) (exited : ¬course.Unexited) :
    Guarded course ((guardedRun course).run {}).1 ((guardedRun course).run {}).2 := by
  have guarded_eq : (guardedRun course).run {} = (.error [.exit], {}) := clauses_exit raised
  rw [guarded_eq]
  refine ⟨⟨rfl, rfl⟩, fun quiet => absurd quiet loud, fun _ unexited => absurd unexited exited, ?_⟩
  intro _
  refine ⟨?_, rfl⟩
  intro returned
  cases returned

theorem guarded_of_results (prepared : course.prepareSnapshot = none)
    (quiet_group : taskGroup course.cancelled [course.worker, course.supervisor] = [])
    (stays : course.worker ≠ .error .exit ∧ course.supervisor ≠ .error .exit) :
    Guarded course ((guardedRun course).run {}).1 ((guardedRun course).run {}).2 := by
  have unexited : course.Unexited := ⟨by simp [prepared], fun _ => stays⟩
  have supervised : (superviseRun course).run {} =
      (do
        takeResult course.supervisor fun _ event => event
        takeResult course.worker fun verdict event => verdict.or event : ConsumerStep).run {} := by
    rw [superviseRun, prepared, quiet_group]
    rfl
  cases verdict : course.supervisor with
  | error thrown =>
      have raised : (superviseRun course).run {} = (.error [thrown], {}) := by
        rw [supervised, verdict]
        rfl
      refine guarded_of_raised raised (by simp) ?_ ⟨rfl, rfl⟩ ?_ unexited
      · rw [List.mem_singleton]
        rintro rfl
        exact stays.2 verdict
      · rintro ⟨-, -, returned, -⟩
        cases verdict.symm.trans returned
  | ok event =>
      cases outcome : course.worker with
      | error thrown =>
          have raised : (superviseRun course).run {} =
              (.error [thrown], { auditEvent := event }) := by
            rw [supervised, verdict, outcome]
            rfl
          refine guarded_of_raised raised (by simp) ?_ ⟨rfl, rfl⟩ ?_ unexited
          · rw [List.mem_singleton]
            rintro rfl
            exact stays.1 outcome
          · rintro ⟨-, returned, -, -⟩
            cases outcome.symm.trans returned
      | ok report =>
          have returned : (superviseRun course).run {} =
              (.ok (), { auditEvent := event.or report }) := by
            rw [supervised, verdict, outcome]
            rfl
          have guarded_eq : (guardedRun course).run {} =
              (.ok (), { auditEvent := event.or report }) := by
            simp only [guardedRun, noting, exceptStar, returned]
          rw [guarded_eq]
          refine ⟨⟨rfl, rfl⟩, ?_, ?_, fun exited => absurd unexited exited⟩
          · rintro ⟨-, worker, supervisor, -⟩
            obtain rfl : event = none := Except.ok.inj (verdict.symm.trans supervisor)
            obtain rfl : report = none := Except.ok.inj (outcome.symm.trans worker)
            exact ⟨rfl, rfl⟩
          · intro loud _ silent
            rw [Option.or_eq_none_iff] at silent
            obtain ⟨rfl, rfl⟩ := silent
            apply loud
            refine ⟨prepared, outcome, verdict, ?_⟩
            rw [verdict, outcome] at quiet_group
            by_contra cancelled
            rw [Bool.not_eq_false] at cancelled
            rw [cancelled] at quiet_group
            cases quiet_group

/-- The guarded part ends as its body does, and with an event unless it was quiet or exited. -/
theorem guardedRun_guarded (course : ConsumerCourse) :
    Guarded course ((guardedRun course).run {}).1 ((guardedRun course).run {}).2 := by
  cases prepared : course.prepareSnapshot with
  | some thrown =>
      have raised : (superviseRun course).run {} = (.error [thrown], {}) := by
        rw [superviseRun, prepared]
        rfl
      have loud : ¬course.Quiet := by
        rintro ⟨nothing, -⟩
        cases prepared.symm.trans nothing
      by_cases exits : thrown = .exit
      · subst exits
        exact guarded_of_exit raised loud fun unexited => unexited.1 prepared
      · refine guarded_of_raised raised (by simp) (by simpa using Ne.symm exits) ⟨rfl, rfl⟩ loud ?_
        constructor
        · simpa [prepared] using exits
        · intro nothing
          cases prepared.symm.trans nothing
  | none =>
      have raised (some_thrown : taskGroup course.cancelled
          [course.worker, course.supervisor] ≠ []) : (superviseRun course).run {} =
            (.error (taskGroup course.cancelled [course.worker, course.supervisor]), {}) := by
        rw [superviseRun, prepared]
        cases group : taskGroup course.cancelled [course.worker, course.supervisor] with
        | nil => exact absurd group some_thrown
        | cons head later => rfl
      have quiet_group : course.Quiet →
          taskGroup course.cancelled [course.worker, course.supervisor] = [] := by
        rintro ⟨-, worker, supervisor, uncancelled⟩
        rw [worker, supervisor, uncancelled]
        rfl
      rcases taskGroup_exit course.cancelled [course.worker, course.supervisor] with
        ⟨stays, others⟩ | ⟨group_eq, exits⟩
      · have unexited : course.worker ≠ .error .exit ∧ course.supervisor ≠ .error .exit := by
          constructor
          · intro exits
            exact others (by simp [exits])
          · intro exits
            exact others (by simp [exits])
        by_cases silent : taskGroup course.cancelled [course.worker, course.supervisor] = []
        · exact guarded_of_results prepared silent unexited
        · exact guarded_of_raised (raised silent) silent stays ⟨rfl, rfl⟩
            (fun quiet => silent (quiet_group quiet)) ⟨by simp [prepared], fun _ => unexited⟩
      · have some_thrown : taskGroup course.cancelled [course.worker, course.supervisor] ≠ [] := by
          rw [group_eq]
          simp
        refine guarded_of_exit ((raised some_thrown).trans (by rw [group_eq])) ?_ ?_
        · intro quiet
          exact some_thrown (quiet_group quiet)
        · intro unexited
          obtain ⟨worker, supervisor⟩ := unexited.2 prepared
          rcases List.mem_pair.mp exits with same | same
          · exact worker same.symm
          · exact supervisor same.symm

theorem finalize_unflushed (raises : ¬course.Flushes) :
    ∃ group, (finalize course).run state =
      (.error group, { state with waitersReleased := true }) := by
  rw [ConsumerCourse.Flushes, Classical.not_imp] at raises
  obtain ⟨processing, raises⟩ := raises
  cases flush : course.flush with
  | none => exact absurd (.inl flush) raises
  | some thrown =>
      refine ⟨[thrown], ?_⟩
      rw [finalize, finalFlush, if_pos processing, flush]
      cases thrown with
      | timeout => exact absurd (.inr (.inl flush)) raises
      | database => exact absurd (.inr (.inr flush)) raises
      | subscription | other | cancelled | exit => rfl

theorem finalize_flushed (flushes : course.Flushes) :
    (finalize course).run state =
      (do
        releaseLease course.release
        let state ← read
        recordEvent course state.auditEvent : ConsumerStep).run
          { state with waitersReleased := true } := by
  have flushed : (finalFlush course).run { state with waitersReleased := true } =
      (.ok (), { state with waitersReleased := true }) := by
    unfold finalFlush
    cases processing : course.processing with
    | false => rfl
    | true =>
        rw [if_pos rfl]
        rcases flushes processing with flush | flush | flush
        all_goals
          rw [flush]
          rfl
  change (finalFlush course >>= _ : ConsumerStep).run { state with waitersReleased := true } = _
  rw [run_bind, flushed]

theorem finalize_released (flushes : course.Flushes)
    (released : ∀ thrown applied, course.release ≠ .threw thrown applied) :
    (finalize course).run state =
      (recordEvent course state.auditEvent).run
        { state with
          waitersReleased := true
          leaseHeld := if course.release = .redisError then state.leaseHeld else false } := by
  rw [finalize_flushed flushes]
  cases release : course.release with
  | answered => rfl
  | redisError => rfl
  | threw thrown applied => exact absurd release (released thrown applied)

theorem finalize_threw {thrown : Thrown} {applied : Bool} (flushes : course.Flushes)
    (threw : course.release = .threw thrown applied) :
    (finalize course).run state = (.error [thrown],
      { state with
        waitersReleased := true
        leaseHeld := state.leaseHeld && !applied }) := by
  rw [finalize_flushed flushes, threw]
  rfl

theorem left_unstarted {thrown : Thrown} (raised : course.ensureEpoch = some thrown) :
    course.left = {} := by
  rw [ConsumerCourse.left, runConsumer, raised]
  rfl

theorem runConsumer_started (started : course.ensureEpoch = none) :
    (runConsumer course).run {} =
      (finallyDo (guardedRun course) (finalize course)).run {} := by
  rw [runConsumer, started]
  rfl

theorem left_started (started : course.ensureEpoch = none) :
    course.left = ((finalize course).run ((guardedRun course).run {}).2).2 := by
  rw [ConsumerCourse.left, runConsumer_started started, finallyDo_snd]

theorem recordEvent_left (event : Option ConsumerEvent) :
    ((recordEvent course event).run state).2 =
      if course.audit = none then { state with recorded := event.or state.recorded }
      else state := by
  cases event with
  | none =>
      cases course.audit <;> rfl
  | some event =>
      cases audit : course.audit with
      | none => simp [recordEvent, suppressing, perform, audit]
      | some thrown => simp [recordEvent, suppressing, perform, audit]

end Runs

section LetsGo

variable {course : ConsumerCourse}

theorem ConsumerCourse.LetsGo.started (letsGo : course.LetsGo) : course.ensureEpoch = none := by
  by_contra raised
  obtain ⟨thrown, raised⟩ := Option.ne_none_iff_exists'.mp raised
  have waiters := letsGo.waiters
  rw [left_unstarted raised] at waiters
  cases waiters

theorem runConsumer_returns (started : course.ensureEpoch = none) :
    ((runConsumer course).run {}).1 = .ok () ↔
      ((guardedRun course).run {}).1 = .ok () ∧
        ((finalize course).run ((guardedRun course).run {}).2).1 = .ok () := by
  rw [runConsumer_started started]
  exact finallyDo_returns _ _ _

/-- Where `_finalize` raises without a record, the lease is gone or Redis does not answer, and the
database does not. -/
theorem ConsumerCourse.LetsGo.of_raised (letsGo : course.LetsGo) {group : List Thrown}
    {after : ConsumerState} (unrecorded : after.recorded = none)
    (ended : (finalize course).run ((guardedRun course).run {}).2 = (.error group, after)) :
    (course.release ≠ .redisError → after.leaseHeld = false) ∧
      course.audit = some .database := by
  have left_eq : course.left = after := by rw [left_started letsGo.started, ended]
  constructor
  · rw [← left_eq]
    exact letsGo.lease
  · by_contra answers
    refine letsGo.recorded ?_ answers (left_eq ▸ unrecorded)
    intro normal
    have returned := ((runConsumer_returns letsGo.started).mp normal.2).2
    rw [ended] at returned
    cases returned

theorem orderly_of_letsGo (letsGo : course.LetsGo) : course.Orderly := by
  have guarded := guardedRun_guarded course
  have flushed : course.Flushes ∨
      course.release = .redisError ∧ course.audit = some .database := by
    by_contra unflushed
    rw [not_or] at unflushed
    obtain ⟨raises, answers⟩ := unflushed
    obtain ⟨group, ended⟩ : ∃ group, (finalize course).run ((guardedRun course).run {}).2 =
        (.error group, { ((guardedRun course).run {}).2 with waitersReleased := true }) :=
      finalize_unflushed raises
    obtain ⟨released, silent⟩ := letsGo.of_raised (by exact guarded.kept.2) ended
    have held := released fun down => answers ⟨down, silent⟩
    cases guarded.kept.1.symm.trans held
  have threw {thrown : Thrown} {applied : Bool} (threw : course.release = .threw thrown applied) :
      applied = true ∧ course.audit = some .database := by
    have flushes := flushed.resolve_right fun down => by
      rw [threw] at down
      cases down.1
    obtain ⟨released, silent⟩ := letsGo.of_raised (by simpa using guarded.kept.2)
      (finalize_threw flushes threw)
    have gone := released (by simp [threw])
    simp only [guarded.kept.1, Bool.true_and, Bool.not_eq_false'] at gone
    exact ⟨gone, silent⟩
  refine ⟨letsGo.started, flushed, ?_, ?_⟩
  · intro thrown released
    cases (threw released).1
  · intro answers
    refine ⟨fun thrown released => answers (threw released).2, ?_⟩
    by_cases quiet : course.Quiet
    · exact .inl quiet
    · have recorded := letsGo.recorded (fun normal => quiet normal.1) answers
      have flushes := flushed.resolve_right fun down => answers down.2
      rw [left_started letsGo.started, finalize_released flushes
        fun thrown applied released => answers (threw released).2, recordEvent_left] at recorded
      right
      by_cases written : course.audit = none
      · refine ⟨?_, written⟩
        by_contra exited
        rw [if_pos written] at recorded
        simp [(guarded.exited exited).2, guarded.kept.2] at recorded
      · rw [if_neg written] at recorded
        exact absurd guarded.kept.2 recorded

/-- Where the command which releases the lease returns, an ending which was not normal is
recorded. -/
theorem recorded_of_released (orderly : course.Orderly) (flushes : course.Flushes)
    (released : ∀ thrown applied, course.release ≠ .threw thrown applied)
    (abnormal : ¬course.EndsNormally) (answers : course.audit ≠ some .database) :
    course.left.recorded ≠ none := by
  have guarded := guardedRun_guarded course
  by_cases quiet : course.Quiet
  · exfalso
    obtain ⟨ended, silent⟩ := guarded.quiet quiet
    apply abnormal
    refine ⟨quiet, (runConsumer_returns orderly.started).mpr ⟨ended, ?_⟩⟩
    rw [finalize_released flushes released, silent]
    rfl
  · obtain ⟨unexited, written⟩ := (orderly.audited answers).2.resolve_left quiet
    have loud := guarded.unexited quiet unexited
    rw [left_started orderly.started, finalize_released flushes released, recordEvent_left,
      if_pos written]
    simp [guarded.kept.2, loud]

theorem letsGo_of_orderly (orderly : course.Orderly) : course.LetsGo := by
  have left_eq := left_started orderly.started
  by_cases flushes : course.Flushes
  swap
  · obtain ⟨down, silent⟩ := orderly.flushed.resolve_left flushes
    obtain ⟨group, ended⟩ := finalize_unflushed flushes
    rw [ended] at left_eq
    refine ⟨fun answers => absurd down answers, ?_, fun _ answers => absurd silent answers⟩
    rw [left_eq]
  by_cases threw : ∃ thrown applied, course.release = .threw thrown applied
  · obtain ⟨thrown, applied, release⟩ := threw
    have applied_eq : applied = true := by
      cases applied with
      | false => exact absurd release (orderly.released thrown)
      | true => rfl
    subst applied_eq
    rw [finalize_threw flushes release] at left_eq
    constructor
    · intro _
      simp [left_eq]
    · rw [left_eq]
    · intro _ answers
      exact absurd release ((orderly.audited answers).1 thrown)
  · have released : ∀ thrown applied, course.release ≠ .threw thrown applied := by
      intro thrown applied release
      exact threw ⟨thrown, applied, release⟩
    rw [finalize_released flushes released, recordEvent_left] at left_eq
    constructor
    · intro answers
      rw [left_eq, if_neg answers]
      split
      all_goals rfl
    · rw [left_eq]
      split
      all_goals rfl
    · exact recorded_of_released orderly flushes released

/-- For every point at which a consumer can raise or be cancelled, once or repeatedly: it lets go of
its run if and only if its course is orderly. -/
theorem consumer_lets_go_iff (course : ConsumerCourse) : course.LetsGo ↔ course.Orderly :=
  ⟨orderly_of_letsGo, letsGo_of_orderly⟩

/-- A consumer which is cancelled between its lease and the `try` keeps the lease, leaves its
waiters waiting and records nothing, whatever answers. -/
theorem cancelled_consumer_keeps_lease :
    ∃ course : ConsumerCourse, course.ensureEpoch = some .cancelled ∧ course.release = .answered ∧
      course.audit = none ∧ course.left.leaseHeld = true ∧
        course.left.waitersReleased = false ∧ ¬course.LetsGo := by
  refine ⟨{ ensureEpoch := some .cancelled }, rfl, rfl, rfl, rfl, rfl, ?_⟩
  intro letsGo
  have waiters := letsGo.waiters
  cases waiters

end LetsGo

end Hermes.AgentProxy
