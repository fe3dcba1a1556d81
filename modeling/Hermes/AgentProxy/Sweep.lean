import Hermes.AgentProxy.Lease

/-!
# Sweeps beside consumers

A run which somebody drives is finalized only where two things fail together: the heartbeats stop
for the whole timeout, and Redis restarts within one tick of a sweep.
-/

namespace Hermes.AgentProxy.LeaseSystem

open TimedLock

variable {settings : LeaseSettings} {period span : Nat} {state after : LeaseSystem}
  {action : LeaseAction} {owner : Owner} {key : LeaseKey}

/-- Consumers begin with an answer from Redis, and each gets a renewal through within a period of
the last one, of its start or of a restart. -/
def OnTime (period : Nat) (state : LeaseSystem) : LeaseAction → Prop
  | .pass time => ∀ owner ∈ state.driving, state.now + time ≤ state.due owner + period
  | .start _ fate => fate = .answered
  | _ => True

/-- The heartbeat of a run which is driven is never older than a span. -/
def Stamped (span : Nat) (state : LeaseSystem) : LeaseAction → Prop
  | .pass time => state.driving ≠ [] → state.now + time ≤ state.heartbeat + span
  | .start _ _ => state.now ≤ state.heartbeat + span
  | _ => True

instance (period : Nat) (state : LeaseSystem) (action : LeaseAction) :
    Decidable (OnTime period state action) :=
  match action with
  | .pass time =>
      inferInstanceAs
        (Decidable (∀ owner ∈ state.driving, state.now + time ≤ state.due owner + period))
  | .start _ fate => inferInstanceAs (Decidable (fate = .answered))
  | .restartRedis | .renew _ _ | .stamp _ | .stop _ _ | .crash _ | .readUptime _ _
  | .listCandidates _ | .probe _ _ => inferInstanceAs (Decidable True)

/-- When a sweep read the uptime, Redis had been up for the grace, or it has restarted since. -/
def Settled (settings : LeaseSettings) (now started readAt : Nat) : Prop :=
  readAt ≤ now ∧ (readAt ≤ started ∨ started + settings.orphanRedisGrace ≤ readAt)

/-- What a sweep knows of Redis and of the run. -/
def Watched (settings : LeaseSettings) (now started : Nat) : SweepPhase → Prop
  | .idle => True
  | .permitted readAt => Settled settings now started readAt
  | .listed readAt listedAt heartbeat =>
      Settled settings now started readAt ∧ heartbeat + settings.orphanTimeout < listedAt

/-- Consumers hold the lease or have it back soon after Redis came up. -/
structure Timely (settings : LeaseSettings) (period : Nat) (state : LeaseSystem) : Prop where
  sound : Sound settings state
  awaited : ∀ owner ∈ state.driving, state.now ≤ state.due owner + period
  known : ∀ owner ∈ state.driving, state.since owner = some (state.due owner) ∨
    state.since owner = none ∧ state.due owner = state.started
  up : state.started ≤ state.now
  watched : ∀ worker, Watched settings state.now state.started (state.sweeps worker)

theorem Watched.pass {now later started : Nat} {phase : SweepPhase}
    (watched : Watched settings now started phase) (passed : now ≤ later) :
    Watched settings later started phase := by
  cases phase with
  | idle => exact trivial
  | permitted readAt => exact ⟨Nat.le_trans watched.1 passed, watched.2⟩
  | listed readAt listedAt heartbeat =>
      exact ⟨⟨Nat.le_trans watched.1.1 passed, watched.1.2⟩, watched.2⟩

theorem Watched.restart {now started : Nat} {phase : SweepPhase}
    (watched : Watched settings now started phase) : Watched settings now now phase := by
  cases phase with
  | idle => exact trivial
  | permitted readAt => exact ⟨watched.1, .inl watched.1⟩
  | listed readAt listedAt heartbeat => exact ⟨⟨watched.1.1, .inl watched.1.1⟩, watched.2⟩

theorem settled_of_uptime {now started : Nat} (up : started ≤ now)
    (long : settings.orphanRedisGraceSeconds ≤ ((now - started) / 1000 : Nat)) :
    Settled settings now started now := by
  refine ⟨Nat.le_refl _, .inr ?_⟩
  rw [LeaseSettings.orphanRedisGrace, LeaseSettings.milliseconds]
  omega

namespace Timely

variable (timely : Timely settings period state)
include timely

theorem given (granted : Granted settings state owner key) :
    Timely settings period (state.given settings owner key) := by
  have sound := timely.sound.given granted
  rcases given_cases granted with ⟨same, -⟩ | ⟨-, changed⟩
  · rw [same]
    exact timely
  · rw [changed] at sound ⊢
    refine ⟨sound, fun other drives => ?_, fun other drives => ?_, timely.up, timely.watched⟩
    · by_cases same : other = owner
      · subst same
        simp
      · simpa [Function.update_of_ne same] using timely.awaited other drives
    · by_cases same : other = owner
      · subst same
        simp
      · simpa [Function.update_of_ne same] using timely.known other drives

/-- A consumer which begins with the lease is as one which drove the run and got it. -/
theorem begin (granted : Granted settings state owner key)
    (named : key = some ⟨owner, state.now + settings.leaseTtl⟩) :
    Timely settings period
      { state.given settings owner key with
        driving := owner :: state.driving
        due := Function.update state.due owner state.now } := by
  have given := timely.given granted
  rw [LeaseSystem.given, if_pos named] at given ⊢
  refine ⟨given.sound, fun other drives => ?_, fun other drives => ?_, timely.up, timely.watched⟩
  · rcases List.mem_cons.mp drives with rfl | drives
    · simp
    · exact given.awaited other drives
  · rcases List.mem_cons.mp drives with rfl | drives
    · simp
    · exact given.known other drives

theorem withdraw (owner : Owner) : Timely settings period (state.withdraw owner) :=
  ⟨timely.sound, fun other drives => timely.awaited other (List.mem_filter.mp drives).1,
    fun other drives => timely.known other (List.mem_filter.mp drives).1, timely.up,
    timely.watched⟩

theorem sweepTo {worker : Nat} {phase : SweepPhase}
    (watched : Watched settings state.now state.started phase) :
    Timely settings period (state.sweepTo worker phase) := by
  refine ⟨timely.sound, timely.awaited, timely.known, timely.up, fun other => ?_⟩
  by_cases same : other = worker
  · subst same
    rw [sweepTo_self]
    exact watched
  · rw [sweepTo_of_ne _ _ same]
    exact timely.watched other

theorem restart (stepped : state.step settings .restartRedis = some after) :
    Timely settings period after := by
  have sound := timely.sound.step stepped
  cases stepped
  exact ⟨sound, fun _ _ => Nat.le_add_right _ _, fun _ _ => .inr ⟨rfl, rfl⟩, Nat.le_refl _,
    fun worker => (timely.watched worker).restart⟩

theorem stop {fate : Fate} (stepped : state.step settings (.stop owner fate) = some after) :
    Timely settings period after := by
  have sound := timely.sound.step stepped
  cases stepped
  refine ⟨sound, fun other drives => timely.awaited other (List.mem_filter.mp drives).1,
    fun other drives => ?_, timely.up, timely.watched⟩
  obtain ⟨drives, different⟩ := List.mem_filter.mp drives
  rw [decide_eq_true_eq] at different
  simpa [LeaseSystem.withdraw, Function.update_of_ne different] using timely.known other drives

theorem step (permitted : OnTime period state action)
    (stepped : state.step settings action = some after) : Timely settings period after := by
  cases action with
  | pass time =>
      have sound := timely.sound.step stepped
      cases stepped
      exact ⟨sound, permitted, timely.known, Nat.le_trans timely.up (Nat.le_add_right _ _),
        fun worker => (timely.watched worker).pass (Nat.le_add_right _ _)⟩
  | restartRedis => exact timely.restart stepped
  | start owner fate =>
      obtain ⟨-, key, granted, rfl | ⟨rfl, named⟩⟩ := start_cases stepped
      · exact timely.given granted
      · exact timely.begin granted (named permitted)
  | renew owner fate =>
      obtain ⟨-, key, granted, rfl | ⟨rfl, -⟩⟩ := renew_cases stepped
      · exact (timely.given granted).withdraw owner
      · exact timely.given granted
  | stamp owner =>
      obtain ⟨-, rfl⟩ := stamp_cases stepped
      exact ⟨timely.sound, timely.awaited, timely.known, timely.up, timely.watched⟩
  | stop owner fate => exact timely.stop stepped
  | crash owner =>
      cases stepped
      exact timely.withdraw owner
  | readUptime worker answered =>
      obtain rfl | ⟨rfl, long⟩ := readUptime_cases stepped
      · exact timely
      · exact timely.sweepTo (settled_of_uptime timely.up long)
  | listCandidates worker =>
      obtain ⟨readAt, phase, rfl | ⟨rfl, stale⟩⟩ := listCandidates_cases stepped
      · exact timely.sweepTo trivial
      · have watched := timely.watched worker
        rw [phase] at watched
        exact timely.sweepTo ⟨watched, stale⟩
  | probe worker answered =>
      obtain ⟨-, -, -, -, rfl | ⟨rfl, -⟩⟩ := probe_cases stepped
      · exact timely.sweepTo trivial
      · have swept : Timely settings period (state.sweepTo worker .idle) :=
          timely.sweepTo trivial
        exact ⟨swept.sound, swept.awaited, swept.known, swept.up, swept.watched⟩

end Timely

theorem Timely.of_reachable
    (reached : Reachable (LeaseSystem.step settings) (OnTime period) {} state) :
    Timely settings period state := by
  have initially : Timely settings period {} :=
    ⟨.none, fun _ drives => (by cases drives), fun _ drives => (by cases drives), Nat.le_refl _,
      fun _ => trivial⟩
  exact reached.invariant (Timely settings period) initially
    fun _ _ _ timely permitted stepped => timely.step permitted stepped

theorem Timely.restarted (timely : Timely settings period state)
    (short : period ≤ settings.leaseTtl) (drives : owner ∈ state.driving)
    (gone : get state.now state.lease = none) :
    state.now ≤ state.started + period := by
  have awaited := timely.awaited owner drives
  rcases timely.known owner drives with held | ⟨-, due⟩
  · have named := timely.sound.get_of_holds
      ⟨state.due owner, held, Nat.le_trans awaited (Nat.add_le_add_left short _)⟩
    rw [gone] at named
    cases named
  · rwa [due] at awaited

/-- Where the settings are accepted and every consumer gets its renewals through, a sweep finalizes
a run which is driven only if Redis restarted after the sweep had asked for its uptime, and if the
heartbeat was older than the timeout when the sweep listed the run. -/
theorem finalized_by_restart (settings : LeaseSettings) (period : Nat) (state after : LeaseSystem)
    (worker : Nat) (answered : Bool) (owner : Owner) (valid : settings.validate = .ok ())
    (short : period < LeaseSettings.milliseconds (settings.consumerLeaseRenewSeconds + 1))
    (reached : Reachable (LeaseSystem.step settings) (OnTime period) {} state)
    (drives : owner ∈ state.driving) (running : state.finalized = false)
    (stepped : state.step settings (.probe worker answered) = some after)
    (ended : after.finalized = true) :
    ∃ readAt listedAt heartbeat, state.sweeps worker = .listed readAt listedAt heartbeat ∧
      readAt ≤ state.started ∧ state.now ≤ state.started + period ∧
      heartbeat + settings.orphanTimeout < listedAt := by
  have timely := Timely.of_reachable reached
  obtain ⟨positive, -, ttl, -, grace⟩ := settings.validate_ok valid
  rw [LeaseSettings.milliseconds] at short
  have short_lease : period ≤ settings.leaseTtl := by
    rw [LeaseSettings.leaseTtl, LeaseSettings.milliseconds]
    omega
  have short_grace : period < settings.orphanRedisGrace := by
    rw [LeaseSettings.orphanRedisGrace, LeaseSettings.milliseconds]
    omega
  obtain ⟨readAt, listedAt, heartbeat, phase, rfl | ⟨rfl, gone⟩⟩ := probe_cases stepped
  · rw [sweepTo, running] at ended
    cases ended
  · have recent := timely.restarted short_lease drives gone
    have watched := timely.watched worker
    rw [phase] at watched
    obtain ⟨⟨before, settled⟩, stale⟩ := watched
    refine ⟨readAt, listedAt, heartbeat, phase, ?_, recent, stale⟩
    rcases settled with settled | settled
    · exact settled
    · omega

/-- Quick settings, where Redis restarts between the list of a sweep and its probe. -/
theorem restart_finalizes : ∃ state,
    Reachable (LeaseSystem.step ⟨3, 1, 1, 2, 2⟩) (OnTime 1999) {} state ∧
      "consumer" ∈ state.driving ∧ ∃ readAt listedAt heartbeat,
        state.sweeps 0 = .listed readAt listedAt heartbeat ∧ readAt ≤ state.started ∧
          state.now ≤ state.started + 1999 ∧ heartbeat + 2000 < listedAt := by
  obtain ⟨state, reached, tested⟩ := reachable_of_any (LeaseSystem.step ⟨3, 1, 1, 2, 2⟩)
    (OnTime 1999) {}
    (fun state => state.driving.contains "consumer" && !state.finalized &&
      (state.step ⟨3, 1, 1, 2, 2⟩ (.probe 0 true)).any (·.finalized))
    [.start "consumer" .answered, .pass 1900, .renew "consumer" .answered, .pass 1900,
      .readUptime 0 true, .listCandidates 0, .restartRedis] (by decide)
  rw [Bool.and_eq_true, Bool.and_eq_true, List.contains_iff_mem, Bool.not_eq_true'] at tested
  obtain ⟨⟨drives, running⟩, ends⟩ := tested
  obtain ⟨after, stepped, ended⟩ := (Option.any_eq_true _ _).mp ends
  exact ⟨state, reached, drives, finalized_by_restart ⟨3, 1, 1, 2, 2⟩ 1999 state after 0 true
    "consumer" rfl (by decide) reached drives running stepped ended⟩

/-- A sweep has finalized the run, or is about to ask for its lease. -/
def Condemned (state : LeaseSystem) : Prop :=
  state.finalized = true ∨ ∃ worker readAt listedAt heartbeat,
    state.sweeps worker = .listed readAt listedAt heartbeat

/-- Nobody drives a run on which a sweep has set its eyes. -/
structure Fresh (settings : LeaseSettings) (span : Nat) (state : LeaseSystem) : Prop where
  beats : state.driving ≠ [] → state.now ≤ state.heartbeat + span
  abandoned : Condemned state →
    state.driving = [] ∧ state.heartbeat + settings.orphanTimeout < state.now

theorem given_frame (state : LeaseSystem) (owner : Owner) (key : LeaseKey) :
    (state.given settings owner key).now = state.now ∧
      (state.given settings owner key).heartbeat = state.heartbeat ∧
      (state.given settings owner key).driving = state.driving ∧
      (Condemned (state.given settings owner key) ↔ Condemned state) := by
  rw [given]
  split <;> exact ⟨rfl, rfl, rfl, .rfl⟩

theorem condemned_sweepTo {worker : Nat} {phase : SweepPhase}
    (condemned : Condemned (state.sweepTo worker phase)) :
    Condemned state ∨ ∃ readAt listedAt heartbeat, phase = .listed readAt listedAt heartbeat := by
  obtain ended | ⟨other, readAt, listedAt, heartbeat, listed⟩ := condemned
  · exact .inl (.inl ended)
  · by_cases same : other = worker
    · subst same
      rw [sweepTo_self] at listed
      exact .inr ⟨readAt, listedAt, heartbeat, listed⟩
    · rw [sweepTo_of_ne _ _ same] at listed
      exact .inl (.inr ⟨other, readAt, listedAt, heartbeat, listed⟩)

namespace Fresh

variable (fresh : Fresh settings span state)
include fresh

theorem same (clock : after.now = state.now) (heartbeat : after.heartbeat = state.heartbeat)
    (condemned : Condemned after → Condemned state) (fewer : after.driving ⊆ state.driving) :
    Fresh settings span after := by
  refine ⟨fun driven => ?_, fun after_condemned => ?_⟩
  · rw [clock, heartbeat]
    refine fresh.beats fun none => driven ?_
    rw [none] at fewer
    exact List.subset_nil.mp fewer
  · obtain ⟨none, stale⟩ := fresh.abandoned (condemned after_condemned)
    rw [none] at fewer
    rw [clock, heartbeat]
    exact ⟨List.subset_nil.mp fewer, stale⟩

theorem given (owner : Owner) (key : LeaseKey) :
    Fresh settings span (state.given settings owner key) := by
  obtain ⟨clock, heartbeat, driving, condemned⟩ :=
    @given_frame settings state owner key
  exact fresh.same clock heartbeat condemned.mp (driving ▸ List.Subset.refl _)

theorem withdraw (owner : Owner) : Fresh settings span (state.withdraw owner) :=
  fresh.same rfl rfl id List.filter_sublist.subset

theorem sweepTo {worker : Nat} {phase : SweepPhase}
    (unlisted : ∀ readAt listedAt heartbeat, phase ≠ .listed readAt listedAt heartbeat) :
    Fresh settings span (state.sweepTo worker phase) := by
  refine fresh.same rfl rfl (fun condemned => ?_) (List.Subset.refl _)
  obtain condemned | ⟨readAt, listedAt, heartbeat, listed⟩ := condemned_sweepTo condemned
  · exact condemned
  · exact absurd listed (unlisted readAt listedAt heartbeat)

theorem begin (below : span ≤ settings.orphanTimeout) (owner : Owner) (key : LeaseKey)
    (due : Owner → Nat) (permitted : state.now ≤ state.heartbeat + span) :
    Fresh settings span
      { state.given settings owner key with driving := owner :: state.driving, due := due } := by
  obtain ⟨clock, heartbeat, -, condemned⟩ := @given_frame settings state owner key
  refine ⟨fun _ => ?_, fun after_condemned => ?_⟩
  · dsimp only
    rw [clock, heartbeat]
    exact permitted
  · have stale := (fresh.abandoned (condemned.mp after_condemned)).2
    omega

theorem step (below : span ≤ settings.orphanTimeout) (permitted : Stamped span state action)
    (stepped : state.step settings action = some after) : Fresh settings span after := by
  cases action with
  | pass time =>
      cases stepped
      refine ⟨permitted, fun condemned => ?_⟩
      obtain ⟨none, stale⟩ := fresh.abandoned condemned
      exact ⟨none, Nat.lt_of_lt_of_le stale (Nat.le_add_right _ _)⟩
  | restartRedis =>
      cases stepped
      exact fresh.same rfl rfl id (List.Subset.refl _)
  | start owner fate =>
      obtain ⟨-, key, -, rfl | ⟨rfl, -⟩⟩ := start_cases stepped
      · exact fresh.given owner key
      · exact fresh.begin below owner key _ permitted
  | renew owner fate =>
      obtain ⟨-, key, -, rfl | ⟨rfl, -⟩⟩ := renew_cases stepped
      · exact (fresh.given owner key).withdraw owner
      · exact fresh.given owner key
  | stamp owner =>
      obtain ⟨drives, rfl⟩ := stamp_cases stepped
      refine ⟨fun _ => Nat.le_add_right _ _, fun condemned => ?_⟩
      have none := (fresh.abandoned condemned).1
      rw [none] at drives
      cases drives
  | stop owner fate =>
      cases stepped
      exact fresh.same rfl rfl id List.filter_sublist.subset
  | crash owner =>
      cases stepped
      exact fresh.withdraw owner
  | readUptime worker answered =>
      obtain rfl | ⟨rfl, -⟩ := readUptime_cases stepped
      · exact fresh
      · exact fresh.sweepTo fun _ _ _ listed => (by cases listed)
  | listCandidates worker =>
      obtain ⟨readAt, -, rfl | ⟨rfl, stale⟩⟩ := listCandidates_cases stepped
      · exact fresh.sweepTo fun _ _ _ listed => (by cases listed)
      · refine ⟨fresh.beats, fun _ => ⟨?_, stale⟩⟩
        by_contra driven
        have beat := fresh.beats driven
        omega
  | probe worker answered =>
      obtain ⟨readAt, listedAt, heartbeat, phase, rfl | ⟨rfl, -⟩⟩ := probe_cases stepped
      · exact fresh.sweepTo fun _ _ _ listed => (by cases listed)
      · exact fresh.same rfl rfl (fun _ => .inr ⟨worker, readAt, listedAt, heartbeat, phase⟩)
          (List.Subset.refl _)

end Fresh

/-- As long as the heartbeats of a driven run are stamped within the timeout, nobody drives a run
which a sweep finalizes, whatever becomes of Redis and of the commands sent to it; nor does anybody
begin to drive it afterwards. -/
theorem stamped_not_finalized (settings : LeaseSettings) (span : Nat) (state : LeaseSystem)
    (below : span ≤ settings.orphanTimeout)
    (reached : Reachable (LeaseSystem.step settings) (Stamped span) {} state)
    (condemned : Condemned state) :
    state.driving = [] ∧ state.heartbeat + settings.orphanTimeout < state.now := by
  have initially : Fresh settings span {} := by
    refine ⟨fun driven => absurd rfl driven, ?_⟩
    rintro (ended | ⟨worker, readAt, listedAt, heartbeat, listed⟩)
    · cases ended
    · cases listed
  have fresh := reached.invariant (Fresh settings span) initially
    fun _ _ _ fresh permitted stepped => fresh.step below permitted stepped
  exact fresh.abandoned condemned

instance (span : Nat) (state : LeaseSystem) (action : LeaseAction) :
    Decidable (Stamped span state action) :=
  match action with
  | .pass time =>
      inferInstanceAs (Decidable (state.driving ≠ [] → state.now + time ≤ state.heartbeat + span))
  | .start _ _ => inferInstanceAs (Decidable (state.now ≤ state.heartbeat + span))
  | .restartRedis | .renew _ _ | .stamp _ | .stop _ _ | .crash _ | .readUptime _ _
  | .listCandidates _ | .probe _ _ => inferInstanceAs (Decidable True)

/-- The consumer crashes and the sweep finalizes its run. -/
theorem crashed_finalized : ∃ state,
    Reachable (LeaseSystem.step ⟨3, 1, 1, 2, 2⟩) (Stamped 1000) {} state ∧
      state.finalized = true ∧ state.driving = [] ∧ state.heartbeat + 2000 < state.now := by
  obtain ⟨state, reached, ended⟩ := reachable_of_any (LeaseSystem.step ⟨3, 1, 1, 2, 2⟩)
    (Stamped 1000) {} (·.finalized)
    [.start "consumer" .answered, .pass 900, .stamp "consumer", .crash "consumer", .pass 4000,
      .readUptime 0 true, .listCandidates 0, .probe 0 true] (by decide)
  exact ⟨state, reached, ended, stamped_not_finalized ⟨3, 1, 1, 2, 2⟩ 1000 state (by decide)
    reached (.inl ended)⟩

end Hermes.AgentProxy.LeaseSystem
