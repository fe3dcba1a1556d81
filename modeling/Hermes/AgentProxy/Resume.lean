import Hermes.AgentProxy.Lifecycle
import Hermes.AgentProxy.Overcharge
import Hermes.Policy

/-!
# Resuming a run and the orphan sweep

A resumed parent keeps the status `resumed` for good, which is what a later resume call needs to
find the child.  The orphan query selects that status too, so a parent whose lease is gone is taken
for an orphan.
-/

namespace Hermes.AgentProxy

open Wallet Policy

/-- How `resume` answers a caller. -/
inductive ResumeAnswer
  /-- `NotFoundError`. -/
  | notFound
  /-- `RunNotResumableError`. -/
  | notResumable
  | blocked (reason : BlockReason)
  /-- The continuation which was there already. -/
  | continued (runId : String)
  /-- `ResumeInProgressError`. -/
  | inProgress
  /-- The call won the compare-and-set and goes on to launch a run. -/
  | won (sessionId : String) (model : Option String)
  deriving DecidableEq, Repr

/-- `_resume_policy_block`. -/
def resumePolicyBlock (settings : Settings) (policy : PolicyState) (debt : Int) :
    Option BlockReason :=
  match evaluate policy .credits with
  | .blocked reason => some reason
  | .allowed =>
      if settings.agentDebtReconcileEnabled ∧ 0 < debt then some .debtOutstanding else none

/-- `resume` up to its compare-and-set.  The three statements on `agent_runs` run one after the
other, each against the rows of its own moment. -/
def resume (settings : Settings) (userId : UserId) (runId : String) (policy : PolicyState)
    (debt : Int) (atRead atCas atChild : Runs) : ResumeAnswer :=
  match Runs.get atRead runId with
  | none => .notFound
  | some run =>
      if run.userId ≠ userId then .notFound
      else if run.status ≠ .paused ∧ run.status ≠ .resumed then .notResumable
      else
        match resumePolicyBlock settings policy debt with
        | some reason => .blocked reason
        | none =>
            match (Runs.casResume atCas runId).1 with
            | some (sessionId, model) => .won sessionId model
            | none =>
                match Runs.activeChild atChild runId with
                | some child => .continued child.runId
                | none => .inProgress

namespace Lifecycle

/-- No relay outcome, stop or sweep reaches a run which is resumed; for the sweep this says that no
lease it probes for such a run is gone. -/
def LeavesResumed (state : Lifecycle) (action : LifecycleAction) : Prop :=
  ∀ target ∈ state.outcome action, state.statusOf target.1 ≠ some .resumed

instance (state : Lifecycle) (action : LifecycleAction) : Decidable (LeavesResumed state action) :=
  inferInstanceAs (Decidable (∀ target ∈ state.outcome action,
    state.statusOf target.1 ≠ some .resumed))

variable {state later : Lifecycle} {runId : String} {child : AgentRun}

theorem spares_of_leavesResumed {action : LifecycleAction} (linear : Linear (· = .resumed) state)
    (leaves : LeavesResumed state action) : Spares (· = .resumed) state action := by
  rintro ⟨target, status⟩ targeted
  refine .inr fun row listed same _ resumed => leaves _ targeted ?_
  rw [← same, linear.statusOf_eq listed, resumed]

theorem reachable_resumed (reached : Reachable step LeavesResumed {} state) :
    Linear (· = .resumed) state :=
  reached.invariant (Linear (· = .resumed)) linear_empty
    fun _ action _ linear leaves stepped =>
      step_linear action rfl (by simp) linear (spares_of_leavesResumed linear leaves) stepped

theorem childrenOf_of_activeChild (has : Runs.activeChild state.db.runs runId = some child) :
    state.childrenOf runId ≠ [] := by
  have listed : child ∈ state.childrenOf runId := by
    rw [childrenOf, List.mem_filter]
    exact ⟨List.mem_of_find?_eq_some has, by simpa using List.find?_some has⟩
  exact List.ne_nil_of_mem listed

theorem Linear.statusOf_resumed (linear : Linear (· = .resumed) state)
    (has : state.childrenOf runId ≠ []) : state.statusOf runId = some .resumed := by
  have claims : 0 < state.successors runId := by
    have some_child := List.length_pos_of_ne_nil has
    rw [childrenOf_length] at some_child
    exact some_child.trans_le (Nat.le_add_left _ _)
  obtain ⟨row, listed, same⟩ := List.mem_map.mp (linear.present runId claims)
  subst same
  rw [linear.statusOf_eq listed, linear.spent row listed claims]

theorem activeChild_kept {allowed : Lifecycle → LifecycleAction → Prop}
    (continued : Reachable step allowed state later)
    (has : Runs.activeChild state.db.runs runId = some child) :
    ∃ kept, Runs.activeChild later.db.runs runId = some kept ∧ kept.runId = child.runId := by
  obtain ⟨kept, kept_eq, evolves⟩ := (run_grows continued).find _
    (fun row kept evolves => by rw [evolves.parent]) has
  exact ⟨kept, kept_eq, evolves.runId⟩

theorem finalize_spared {candidate : Nat} {leaseAlive : Option Bool} {settings : Settings}
    {conditions : Conditions} {row : OrphanCandidate} {after : Lifecycle}
    (listed : state.candidates[candidate]? = some row)
    (resumed : state.statusOf row.runId = some .resumed)
    (leaves : LeavesResumed state (.finalize candidate leaseAlive settings conditions))
    (stepped : step state (.finalize candidate leaseAlive settings conditions) = some after) :
    after = state := by
  by_cases gone : leaseAlive = some false
  · have targeted : (row.runId, RunStatus.failed) ∈
        state.outcome (.finalize candidate leaseAlive settings conditions) := by
      simp [outcome, gone, listed]
    exact absurd resumed (leaves _ targeted)
  · simp only [step, listed, gone, if_false] at stepped
    exact (Option.some.inj stepped).symm

/-- While nothing reaches the resumed runs, a run which has a child stays resumed, every sweep
which comes to it leaves wallets and statuses alone, and every resume call of its owner which
passes the policy gate answers with that child. -/
theorem resumed_parent_kept (reached : Reachable step LeavesResumed {} state)
    (has : Runs.activeChild state.db.runs runId = some child)
    (continued : Reachable step LeavesResumed state later) :
    later.statusOf runId = some .resumed ∧
    (∀ candidate leaseAlive settings conditions row after,
      later.candidates[candidate]? = some row → row.runId = runId →
      LeavesResumed later (.finalize candidate leaseAlive settings conditions) →
      step later (.finalize candidate leaseAlive settings conditions) = some after →
        after.statusOf runId = some .resumed ∧ after.db.accounts = later.db.accounts) ∧
    ∀ settings userId policy debt atCas atChild,
      (Runs.get later.db.runs runId).map (·.userId) = some userId →
      resumePolicyBlock settings policy debt = none →
      Reachable step LeavesResumed later atCas → Reachable step LeavesResumed atCas atChild →
        resume settings userId runId policy debt later.db.runs atCas.db.runs atChild.db.runs =
          .continued child.runId := by
  have reached_later := reached.trans continued
  have has_child := childrenOf_of_activeChild has
  have is_resumed := (reachable_resumed reached_later).statusOf_resumed
    (childrenOf_kept continued has_child)
  refine ⟨is_resumed, ?_, ?_⟩
  · rintro candidate leaseAlive settings conditions row after listed rfl leaves stepped
    rw [finalize_spared listed is_resumed leaves stepped]
    exact ⟨is_resumed, rfl⟩
  · intro settings userId policy debt atCas atChild owner passes to_cas to_child
    obtain ⟨run, run_eq, run_resumed⟩ := Option.map_eq_some_iff.mp is_resumed
    have owned : run.userId = userId := by simpa [run_eq] using owner
    have to_cas_start := continued.trans to_cas
    have lost := casResume_lost (reachable_resumed (reached.trans to_cas_start)) (by simp)
      (childrenOf_kept to_cas_start has_child)
    obtain ⟨kept, kept_eq, same⟩ := activeChild_kept (to_cas_start.trans to_child) has
    simp [resume, run_eq, owned, run_resumed, passes, lost, kept_eq, same]

/-- A user with a hundred credits starts a run, which is seen to use tokens, is paused, and is then
resumed and continued. -/
def resumedRun : List LifecycleAction :=
  [.launch "run" ⟨1⟩ "session" none 0,
    .elsewhere (AgentDb.putAccount {} ⟨1⟩ ((BillingSystem.purchase ⟨1⟩).run {}).2).accounts
      [{ runId := "run", userId := ⟨1⟩, inputTokens := 5000, consumerHeartbeatAt := some 5 }]] ++
    resumeOnce "child"

def subscriber : PolicyState where
  subscriptionStatus := .active
  trialUsed := true
  creditsBalance := 100
  byokEnabled := false
  byokStatus := .missing

/-- A sweep lists the parent, finds its lease in place, and the parent still answers. -/
theorem resumed_run_answers : ∃ state, Reachable step LeavesResumed {} state ∧
    state.statusOf "run" = some .resumed ∧
      resume BillingSystem.ordinarySettings ⟨1⟩ "run" subscriber 0 state.db.runs state.db.runs
        state.db.runs = .continued "child" := by
  obtain ⟨state, reached, tested⟩ := reachable_of_any step LeavesResumed {}
    (fun state => ((Runs.activeChild state.db.runs "run").any (·.runId == "child")) &&
      (Runs.get state.db.runs "run").map (·.userId) == some ⟨1⟩)
    (resumedRun ++ [.list 1000 300 10,
      .finalize 0 (some true) BillingSystem.ordinarySettings { newId := ⟨7⟩ }])
    (by decide +kernel)
  obtain ⟨has, owner⟩ := Bool.and_eq_true_iff.mp tested
  obtain ⟨child, child_eq, named⟩ := (Option.any_eq_true _ _).mp has
  obtain ⟨resumed, -, answers⟩ := resumed_parent_kept reached child_eq .start
  refine ⟨state, reached, resumed, ?_⟩
  rw [← beq_iff_eq.mp named]
  exact answers _ _ _ _ _ _ (beq_iff_eq.mp owner) (by decide) .start .start

/-- A sweep which lists the parent and finds its lease gone takes the parent's remainder from the
wallet and fails it; the next resume call is refused. -/
theorem swept_parent_refused : ∃ state, Reachable step (fun _ _ => True) {} state ∧
    (Runs.activeChild state.db.runs "run").map (·.runId) = some "child" ∧
    state.statusOf "run" = some .failed ∧ totalOf (state.db.accounts ⟨1⟩) "run" = 5 ∧
      resume BillingSystem.ordinarySettings ⟨1⟩ "run" subscriber 0 state.db.runs state.db.runs
        state.db.runs = .notResumable := by
  obtain ⟨state, reached, tested⟩ := reachable_of_any step (fun _ _ => True) {}
    (fun state => (Runs.activeChild state.db.runs "run").map (·.runId) == some "child" &&
      (state.statusOf "run" == some .failed && (totalOf (state.db.accounts ⟨1⟩) "run" == 5 &&
      resume BillingSystem.ordinarySettings ⟨1⟩ "run" subscriber 0 state.db.runs state.db.runs
        state.db.runs == .notResumable)))
    (resumedRun ++ [.list 1000 300 10,
      .finalize 0 (some false) BillingSystem.ordinarySettings { newId := ⟨7⟩ }])
    (by decide +kernel)
  exact ⟨state, reached, by simpa using tested⟩

end Lifecycle

end Hermes.AgentProxy
