import Hermes.Library.TimedLock
import Hermes.Library.Transition

/-!
# The lease of a run and the sweep which asks for it

Consumers take, renew and release the lease of a run over a Redis which restarts, loses commands
and loses answers; the sweeps of the workers read the uptime of Redis, list the runs with an old
heartbeat and ask for the lease.  Two consumers never hold the lease at once.
-/

namespace Hermes.AgentProxy

open TimedLock

/-! ## The commands -/

/-- What becomes of a command: an answer, or a `RedisError` before or after its effect. -/
inductive Fate
  | answered
  | failed (applied : Bool)
  deriving DecidableEq, Repr

inductive LeaseAcquisition
  | acquired
  | heldElsewhere
  | unknown
  deriving DecidableEq, Repr

inductive LeaseRenewal
  | renewed
  | reacquired
  | lost
  | unknown
  deriving DecidableEq, Repr

abbrev Owner := String

abbrev LeaseKey := Option (Held Owner)

/-- `acquire_lease`. -/
def acquireLease (now ttl : Nat) (owner : Owner) (fate : Fate) (key : LeaseKey) :
    LeaseAcquisition × LeaseKey :=
  match fate with
  | .answered =>
      (if (setNx now ttl owner key).1 then .acquired else .heldElsewhere,
        (setNx now ttl owner key).2)
  | .failed applied => (.unknown, if applied then (setNx now ttl owner key).2 else key)

/-- `_RENEW_LEASE_LUA`. -/
def renewLeaseLua (now ttl : Nat) (owner : Owner) (key : LeaseKey) : Nat × LeaseKey :=
  match get now key with
  | some current => if current = owner then (1, pexpire now ttl key) else (0, key)
  | none => (2, some ⟨owner, now + ttl⟩)

/-- `_RENEWAL_BY_CODE`. -/
def renewalByCode : Nat → LeaseRenewal
  | 1 => .renewed
  | 2 => .reacquired
  | _ => .lost

/-- `renew_lease`. -/
def renewLease (now ttl : Nat) (owner : Owner) (fate : Fate) (key : LeaseKey) :
    LeaseRenewal × LeaseKey :=
  match fate with
  | .answered =>
      (renewalByCode (renewLeaseLua now ttl owner key).1, (renewLeaseLua now ttl owner key).2)
  | .failed applied => (.unknown, if applied then (renewLeaseLua now ttl owner key).2 else key)

/-- `_RELEASE_LEASE_LUA`. -/
def releaseLeaseLua (now : Nat) (owner : Owner) (key : LeaseKey) : LeaseKey :=
  if get now key = some owner then none else key

/-- `release_lease`, which logs an error. -/
def Transport.releaseLease (now : Nat) (owner : Owner) (fate : Fate) (key : LeaseKey) : LeaseKey :=
  match fate with
  | .answered | .failed true => releaseLeaseLua now owner key
  | .failed false => key

/-- `lease_alive`. -/
def leaseAlive (now : Nat) (answered : Bool) (key : LeaseKey) : Option Bool :=
  if answered then some (get now key).isSome else none

/-- `uptime_seconds`. -/
def uptimeSeconds (now started : Nat) (answered : Bool) : Option Nat :=
  if answered then some ((now - started) / 1000) else none

section Commands

variable {now ttl : Nat} {owner : Owner} {fate : Fate} {key : LeaseKey}

theorem setNx_cases (now ttl : Nat) (owner : Owner) (key : LeaseKey) :
    (get now key = none ∧ setNx now ttl owner key = (true, some ⟨owner, now + ttl⟩)) ∨
      get now key ≠ none ∧ setNx now ttl owner key = (false, key) := by
  rw [setNx]
  cases get now key with
  | none => exact .inl ⟨rfl, rfl⟩
  | some current => exact .inr ⟨fun gone => (by cases gone), rfl⟩

theorem acquireLease_key (now ttl : Nat) (owner : Owner) (fate : Fate) (key : LeaseKey) :
    (acquireLease now ttl owner fate key).2 = key ∨
      get now key = none ∧ (acquireLease now ttl owner fate key).2 = some ⟨owner, now + ttl⟩ := by
  have ran : (setNx now ttl owner key).2 = key ∨
      get now key = none ∧ (setNx now ttl owner key).2 = some ⟨owner, now + ttl⟩ := by
    rcases setNx_cases now ttl owner key with ⟨free, set⟩ | ⟨-, set⟩
    · exact .inr ⟨free, by rw [set]⟩
    · exact .inl (by rw [set])
  cases fate with
  | answered => exact ran
  | failed applied =>
      cases applied with
      | false => exact .inl rfl
      | true => exact ran

theorem renewLeaseLua_cases (now ttl : Nat) (owner : Owner) (key : LeaseKey) :
    (get now key = some owner ∧ renewLeaseLua now ttl owner key = (1, some ⟨owner, now + ttl⟩)) ∨
    (get now key = none ∧ renewLeaseLua now ttl owner key = (2, some ⟨owner, now + ttl⟩)) ∨
      ∃ other, get now key = some other ∧ other ≠ owner ∧
        renewLeaseLua now ttl owner key = (0, key) := by
  rw [renewLeaseLua, pexpire]
  cases named : get now key with
  | none => exact .inr (.inl ⟨rfl, rfl⟩)
  | some current =>
      by_cases own : current = owner
      · subst own
        exact .inl ⟨rfl, by simp⟩
      · exact .inr (.inr ⟨current, rfl, own, by simp [own]⟩)

/-- A renewal leaves the key, or names its owner where nobody else was named. -/
theorem renewLease_key (now ttl : Nat) (owner : Owner) (fate : Fate) (key : LeaseKey) :
    (renewLease now ttl owner fate key).2 = key ∨
      (∀ other, get now key = some other → other = owner) ∧
        (renewLease now ttl owner fate key).2 = some ⟨owner, now + ttl⟩ := by
  have ran : (renewLeaseLua now ttl owner key).2 = key ∨
      (∀ other, get now key = some other → other = owner) ∧
        (renewLeaseLua now ttl owner key).2 = some ⟨owner, now + ttl⟩ := by
    rcases renewLeaseLua_cases now ttl owner key with
      ⟨named, ran⟩ | ⟨named, ran⟩ | ⟨other, -, -, ran⟩
    · refine .inr ⟨fun other also => ?_, by rw [ran]⟩
      rw [named, Option.some.injEq] at also
      exact also.symm
    · refine .inr ⟨fun other also => ?_, by rw [ran]⟩
      rw [named] at also
      cases also
    · exact .inl (by rw [ran])
  cases fate with
  | answered => exact ran
  | failed applied =>
      cases applied with
      | false => exact .inl rfl
      | true => exact ran

theorem releaseLease_key (now : Nat) (owner : Owner) (fate : Fate) (key : LeaseKey) :
    Transport.releaseLease now owner fate key = key ∨ get now key = some owner := by
  have ran : releaseLeaseLua now owner key = key ∨ get now key = some owner := by
    rw [releaseLeaseLua]
    split
    next named => exact .inr named
    next => exact .inl rfl
  cases fate with
  | answered => exact ran
  | failed applied =>
      cases applied with
      | false => exact .inl rfl
      | true => exact ran

end Commands

/-! ## The settings -/

/-- The settings of consumers and sweeps which are checked against each other, in seconds. -/
structure LeaseSettings where
  consumerLeaseTtlSeconds : Int := 30
  consumerLeaseRenewSeconds : Int := 10
  consumerHeartbeatSeconds : Int := 30
  orphanTimeoutSeconds : Int := 900
  orphanRedisGraceSeconds : Int := 120
  deriving DecidableEq, Repr

inductive LeaseSettingsFault
  | notPositive (name : String) (value : Int)
  | renewedTooLate
  | heartbeatTooLate
  | graceTooShort
  deriving DecidableEq, Repr

namespace LeaseSettings

variable (settings : LeaseSettings)

/-- The entries of `positive` which concern consumers and sweeps. -/
def positive : List (String × Int) :=
  [("AGENT_RUN_CONSUMER_LEASE_TTL_SECONDS", settings.consumerLeaseTtlSeconds),
    ("AGENT_RUN_CONSUMER_LEASE_RENEW_SECONDS", settings.consumerLeaseRenewSeconds),
    ("AGENT_RUN_CONSUMER_HEARTBEAT_SECONDS", settings.consumerHeartbeatSeconds),
    ("AGENT_RUN_ORPHAN_TIMEOUT_SECONDS", settings.orphanTimeoutSeconds),
    ("AGENT_RUN_ORPHAN_REDIS_GRACE_SECONDS", settings.orphanRedisGraceSeconds)]

/-- `_validate_agent_run_consumer_invariants`, as far as consumers and sweeps go. -/
def validate : Except LeaseSettingsFault Unit :=
  match settings.positive.find? fun entry => decide (entry.2 ≤ 0) with
  | some (name, value) => .error (.notPositive name value)
  | none =>
      if settings.consumerLeaseRenewSeconds ≥ settings.consumerLeaseTtlSeconds then
        .error .renewedTooLate
      else if settings.consumerHeartbeatSeconds ≥ settings.orphanTimeoutSeconds then
        .error .heartbeatTooLate
      else if settings.orphanRedisGraceSeconds ≤ settings.consumerLeaseRenewSeconds then
        .error .graceTooShort
      else .ok ()

def milliseconds (seconds : Int) : Nat := 1000 * seconds.toNat

def leaseTtl : Nat := milliseconds settings.consumerLeaseTtlSeconds

def orphanTimeout : Nat := milliseconds settings.orphanTimeoutSeconds

def orphanRedisGrace : Nat := milliseconds settings.orphanRedisGraceSeconds

/-- Settings which are accepted leave room between the renewals and what waits for them. -/
theorem validate_ok (valid : settings.validate = .ok ()) :
    0 < settings.consumerLeaseRenewSeconds ∧ 0 < settings.orphanTimeoutSeconds ∧
      settings.consumerLeaseRenewSeconds < settings.consumerLeaseTtlSeconds ∧
      settings.consumerHeartbeatSeconds < settings.orphanTimeoutSeconds ∧
      settings.consumerLeaseRenewSeconds < settings.orphanRedisGraceSeconds := by
  rw [validate] at valid
  split at valid
  · cases valid
  next all =>
    have positive := List.find?_eq_none.mp all
    simp only [LeaseSettings.positive, List.mem_cons, List.not_mem_nil, or_false,
      decide_eq_true_eq, forall_eq_or_imp, forall_eq] at positive
    split at valid
    · cases valid
    · split at valid
      · cases valid
      · split at valid
        · cases valid
        · omega

/-- The heartbeats are stamped with the renewals, and nothing keeps the renewals from being rarer
than the timeout of the sweep. -/
example : validate ⟨101, 100, 30, 31, 102⟩ = .ok () := rfl

end LeaseSettings

/-! ## Consumers, sweeps and Redis -/

/-- Where a sweep stands: it has read the uptime, then also listed the run with its heartbeat. -/
inductive SweepPhase
  | idle
  | permitted (readAt : Nat)
  | listed (readAt listedAt heartbeat : Nat)
  deriving DecidableEq, Repr

/-- A run, the consumers which drive it, and the sweeps of the workers.  Times are milliseconds;
`since` and `due` say for each consumer when it was last given the lease, and from when on its next
renewal is awaited. -/
structure LeaseSystem where
  now : Nat := 0
  /-- When Redis came up. -/
  started : Nat := 0
  lease : LeaseKey := none
  /-- `COALESCE(consumer_heartbeat_at, created_at)`. -/
  heartbeat : Nat := 0
  driving : List Owner := []
  since : Owner → Option Nat := fun _ => none
  due : Owner → Nat := fun _ => 0
  sweeps : Nat → SweepPhase := fun _ => .idle
  finalized : Bool := false

inductive LeaseAction
  | pass (time : Nat)
  | restartRedis
  /-- `run_consumer` asks for the lease. -/
  | start (owner : Owner) (fate : Fate)
  /-- A tick of the supervisor. -/
  | renew (owner : Owner) (fate : Fate)
  /-- The heartbeat of a tick is committed. -/
  | stamp (owner : Owner)
  /-- `_finalize` releases the lease. -/
  | stop (owner : Owner) (fate : Fate)
  | crash (owner : Owner)
  | readUptime (worker : Nat) (answered : Bool)
  | listCandidates (worker : Nat)
  | probe (worker : Nat) (answered : Bool)
  deriving DecidableEq, Repr

namespace LeaseSystem

variable (settings : LeaseSettings)

def given (state : LeaseSystem) (owner : Owner) (key : LeaseKey) : LeaseSystem :=
  if key = some ⟨owner, state.now + settings.leaseTtl⟩ then
    { state with
      lease := key
      since := Function.update state.since owner (some state.now)
      due := Function.update state.due owner state.now }
  else { state with lease := key }

def withdraw (state : LeaseSystem) (owner : Owner) : LeaseSystem :=
  { state with driving := state.driving.filter (· ≠ owner) }

def sweepTo (state : LeaseSystem) (worker : Nat) (phase : SweepPhase) : LeaseSystem :=
  { state with sweeps := Function.update state.sweeps worker phase }

@[simp]
theorem sweepTo_self (state : LeaseSystem) (worker : Nat) (phase : SweepPhase) :
    (state.sweepTo worker phase).sweeps worker = phase :=
  Function.update_self ..

theorem sweepTo_of_ne (state : LeaseSystem) {worker other : Nat} (phase : SweepPhase)
    (different : other ≠ worker) : (state.sweepTo worker phase).sweeps other = state.sweeps other :=
  Function.update_of_ne different ..

/-- The consumers follow `run_consumer` and `run_supervisor`, the sweeps `sweep_orphan_runs`. -/
def step (state : LeaseSystem) : LeaseAction → Option LeaseSystem
  | .pass time => some { state with now := state.now + time }
  | .restartRedis =>
      some
        { state with
          started := state.now
          lease := none
          since := fun _ => none
          due := fun _ => state.now }
  | .start owner fate =>
      if owner ∈ state.driving then none
      else
        let result := acquireLease state.now settings.leaseTtl owner fate state.lease
        let after := state.given settings owner result.2
        match result.1 with
        | .heldElsewhere => some after
        | .acquired | .unknown =>
            some
              { after with
                driving := owner :: state.driving
                due := Function.update state.due owner state.now }
  | .renew owner fate =>
      if owner ∉ state.driving then none
      else
        let result := renewLease state.now settings.leaseTtl owner fate state.lease
        let after := state.given settings owner result.2
        match result.1 with
        | .lost => some (after.withdraw owner)
        | .renewed | .reacquired | .unknown => some after
  | .stamp owner =>
      if owner ∉ state.driving then none else some { state with heartbeat := state.now }
  | .stop owner fate =>
      some
        { state.withdraw owner with
          lease := Transport.releaseLease state.now owner fate state.lease
          since := Function.update state.since owner none }
  | .crash owner => some (state.withdraw owner)
  | .readUptime worker answered =>
      match state.sweeps worker, uptimeSeconds state.now state.started answered with
      | .idle, some uptime =>
          if (uptime : Int) < settings.orphanRedisGraceSeconds then some state
          else some (state.sweepTo worker (.permitted state.now))
      | .idle, none => some state
      | _, _ => none
  | .listCandidates worker =>
      match state.sweeps worker with
      | .permitted readAt =>
          if !state.finalized && decide (state.heartbeat + settings.orphanTimeout < state.now) then
            some (state.sweepTo worker (.listed readAt state.now state.heartbeat))
          else some (state.sweepTo worker .idle)
      | _ => none
  | .probe worker answered =>
      match state.sweeps worker with
      | .listed _ _ _ =>
          if leaseAlive state.now answered state.lease = some false then
            some { state.sweepTo worker .idle with finalized := true }
          else some (state.sweepTo worker .idle)
      | _ => none

/-! ## Two holders -/

section Holders

variable {settings} {state after : LeaseSystem} {action : LeaseAction} {owner : Owner}
  {key : LeaseKey}

/-- A consumer has been given the lease and its time has not passed. -/
def Holding (settings : LeaseSettings) (state : LeaseSystem) (owner : Owner) : Prop :=
  Holds state.now settings.leaseTtl state.since owner

def Sound (settings : LeaseSettings) (state : LeaseSystem) : Prop :=
  Tenures state.now settings.leaseTtl state.since state.lease

/-- The key was left, or given to an owner where nobody else was named. -/
def Granted (settings : LeaseSettings) (state : LeaseSystem) (owner : Owner) (key : LeaseKey) :
    Prop :=
  key = state.lease ∨ (∀ other, get state.now state.lease = some other → other = owner) ∧
    key = some ⟨owner, state.now + settings.leaseTtl⟩

theorem granted_acquire (state : LeaseSystem) (owner : Owner) (fate : Fate) :
    Granted settings state owner
      (acquireLease state.now settings.leaseTtl owner fate state.lease).2 := by
  refine (acquireLease_key ..).imp_right fun ⟨free, set⟩ => ⟨fun other named => ?_, set⟩
  rw [free] at named
  cases named

theorem granted_renew (state : LeaseSystem) (owner : Owner) (fate : Fate) :
    Granted settings state owner
      (renewLease state.now settings.leaseTtl owner fate state.lease).2 :=
  renewLease_key ..

theorem given_cases (granted : Granted settings state owner key) :
    (state.given settings owner key = state ∧ key = state.lease) ∨
      (∀ other, get state.now state.lease = some other → other = owner) ∧
        state.given settings owner key =
          { state with
            lease := some ⟨owner, state.now + settings.leaseTtl⟩
            since := Function.update state.since owner (some state.now)
            due := Function.update state.due owner state.now } := by
  rw [given]
  split
  next named =>
    subst named
    refine .inr ⟨?_, rfl⟩
    obtain same | ⟨free, -⟩ := granted
    · intro other also
      rw [← same, get_some] at also
      exact also.2.symm
    · exact free
  next unnamed =>
    obtain same | ⟨-, named⟩ := granted
    · exact .inl ⟨by rw [same], same⟩
    · exact absurd named unnamed

theorem Sound.given (sound : Sound settings state) (granted : Granted settings state owner key) :
    Sound settings (state.given settings owner key) := by
  rcases given_cases granted with ⟨same, -⟩ | ⟨free, changed⟩
  · rw [same]
    exact sound
  · rw [changed]
    exact sound.enter free

/-! What each step can do. -/

theorem start_cases {fate : Fate} (stepped : state.step settings (.start owner fate) = some after) :
    owner ∉ state.driving ∧ ∃ key, Granted settings state owner key ∧
      (after = state.given settings owner key ∨
        after =
          { state.given settings owner key with
            driving := owner :: state.driving
            due := Function.update state.due owner state.now } ∧
        (fate = .answered → key = some ⟨owner, state.now + settings.leaseTtl⟩)) := by
  rw [step] at stepped
  split at stepped
  · cases stepped
  next fresh =>
    refine ⟨fresh, _, granted_acquire state owner fate, ?_⟩
    dsimp only at stepped
    split at stepped
    next =>
      cases stepped
      exact .inl rfl
    all_goals
      next outcome =>
        cases stepped
        refine .inr ⟨rfl, ?_⟩
        rintro rfl
        rcases setNx_cases state.now settings.leaseTtl owner state.lease with
          ⟨-, set⟩ | ⟨-, set⟩
        · simp only [acquireLease, set]
        · simp [acquireLease, set] at outcome

theorem renew_cases {fate : Fate} (stepped : state.step settings (.renew owner fate) = some after) :
    owner ∈ state.driving ∧ ∃ key, Granted settings state owner key ∧
      (after = (state.given settings owner key).withdraw owner ∨
        after = state.given settings owner key ∧
        (fate = .answered → key = some ⟨owner, state.now + settings.leaseTtl⟩)) := by
  rw [step] at stepped
  split at stepped
  · cases stepped
  next drives =>
    refine ⟨not_not.mp drives, _, granted_renew state owner fate, ?_⟩
    dsimp only at stepped
    split at stepped
    next =>
      cases stepped
      exact .inl rfl
    all_goals
      next outcome =>
        cases stepped
        refine .inr ⟨rfl, ?_⟩
        rintro rfl
        rcases renewLeaseLua_cases state.now settings.leaseTtl owner state.lease with
          ⟨-, ran⟩ | ⟨-, ran⟩ | ⟨other, -, -, ran⟩
        · simp only [renewLease, ran]
        · simp only [renewLease, ran]
        · simp [renewLease, ran, renewalByCode] at outcome

theorem stamp_cases (stepped : state.step settings (.stamp owner) = some after) :
    owner ∈ state.driving ∧ after = { state with heartbeat := state.now } := by
  rw [step] at stepped
  split at stepped
  · cases stepped
  next drives =>
    cases stepped
    exact ⟨not_not.mp drives, rfl⟩

theorem readUptime_cases {worker : Nat} {answered : Bool}
    (stepped : state.step settings (.readUptime worker answered) = some after) :
    after = state ∨ after = state.sweepTo worker (.permitted state.now) ∧
      settings.orphanRedisGraceSeconds ≤ ((state.now - state.started) / 1000 : Nat) := by
  rw [step] at stepped
  split at stepped
  next uptime _ read =>
    split at stepped
    · cases stepped
      exact .inl rfl
    next long =>
      cases stepped
      rw [uptimeSeconds] at read
      split at read
      · cases read
        exact .inr ⟨rfl, Int.not_lt.mp long⟩
      · cases read
  · cases stepped
    exact .inl rfl
  · cases stepped

theorem listCandidates_cases {worker : Nat}
    (stepped : state.step settings (.listCandidates worker) = some after) :
    ∃ readAt, state.sweeps worker = .permitted readAt ∧
      (after = state.sweepTo worker .idle ∨
        after = state.sweepTo worker (.listed readAt state.now state.heartbeat) ∧
        state.heartbeat + settings.orphanTimeout < state.now) := by
  rw [step] at stepped
  split at stepped
  next readAt phase =>
    refine ⟨readAt, phase, ?_⟩
    split at stepped
    next stale =>
      cases stepped
      rw [Bool.and_eq_true, decide_eq_true_eq] at stale
      exact .inr ⟨rfl, stale.2⟩
    next =>
      cases stepped
      exact .inl rfl
  · cases stepped

theorem probe_cases {worker : Nat} {answered : Bool}
    (stepped : state.step settings (.probe worker answered) = some after) :
    ∃ readAt listedAt heartbeat, state.sweeps worker = .listed readAt listedAt heartbeat ∧
      (after = state.sweepTo worker .idle ∨
        after = { state.sweepTo worker .idle with finalized := true } ∧
        get state.now state.lease = none) := by
  rw [step] at stepped
  split at stepped
  next readAt listedAt heartbeat phase =>
    refine ⟨readAt, listedAt, heartbeat, phase, ?_⟩
    split at stepped
    next dead =>
      cases stepped
      refine .inr ⟨rfl, ?_⟩
      rw [leaseAlive] at dead
      split at dead
      · simpa using dead
      · cases dead
    next =>
      cases stepped
      exact .inl rfl
  · cases stepped

/-- No step makes the lease name somebody else than its holder. -/
theorem Sound.step (sound : Sound settings state)
    (stepped : state.step settings action = some after) : Sound settings after := by
  cases action with
  | pass time =>
      cases stepped
      exact Tenures.pass sound (Nat.le_add_right _ _)
  | restartRedis =>
      cases stepped
      exact .none
  | start owner fate =>
      obtain ⟨-, key, granted, rfl | ⟨rfl, -⟩⟩ := start_cases stepped
      · exact sound.given granted
      · exact sound.given granted
  | renew owner fate =>
      obtain ⟨-, key, granted, rfl | ⟨rfl, -⟩⟩ := renew_cases stepped
      · exact sound.given granted
      · exact sound.given granted
  | stamp owner =>
      obtain ⟨-, rfl⟩ := stamp_cases stepped
      exact sound
  | stop owner fate =>
      cases stepped
      exact Tenures.leave sound (releaseLease_key state.now owner fate state.lease)
  | crash owner =>
      cases stepped
      exact sound
  | readUptime worker answered =>
      obtain rfl | ⟨rfl, -⟩ := readUptime_cases stepped
      · exact sound
      · exact sound
  | listCandidates worker =>
      obtain ⟨-, -, rfl | ⟨rfl, -⟩⟩ := listCandidates_cases stepped
      · exact sound
      · exact sound
  | probe worker answered =>
      obtain ⟨-, -, -, -, rfl | ⟨rfl, -⟩⟩ := probe_cases stepped
      · exact sound
      · exact sound

theorem Sound.of_reachable {allowed : LeaseSystem → LeaseAction → Prop}
    (reached : Reachable (LeaseSystem.step settings) allowed {} state) : Sound settings state := by
  have initially : Sound settings {} := Tenures.none
  exact reached.invariant (Sound settings) initially fun _ _ _ sound _ stepped =>
    sound.step stepped

theorem holding_given (granted : key = some ⟨owner, state.now + settings.leaseTtl⟩) :
    Holding settings (state.given settings owner key) owner := by
  rw [given, if_pos granted]
  exact ⟨state.now, Function.update_self .., Nat.le_add_right _ _⟩

/-- Redis gives the lease to whom it says so, until the time has passed, Redis restarts or the
consumer releases it, and never to two consumers at once; whatever fails, whoever crashes and in
whatever order the commands arrive. -/
theorem lease_exclusive (settings : LeaseSettings) (state : LeaseSystem)
    (reached : Reachable (LeaseSystem.step settings) (fun _ _ => True) {} state) :
    (∀ owner after, (state.step settings (.start owner .answered) = some after ∨
        state.step settings (.renew owner .answered) = some after) →
      owner ∈ after.driving → Holding settings after owner) ∧
    ∀ first second, Holding settings state first → Holding settings state second →
      first = second ∧ get state.now state.lease = some first := by
  refine ⟨fun owner after stepped drives => ?_, fun first second holds also => ?_⟩
  · rcases stepped with stepped | stepped
    · obtain ⟨fresh, key, -, rfl | ⟨rfl, named⟩⟩ := start_cases stepped
      · rw [given] at drives
        split at drives <;> exact absurd drives fresh
      · exact holding_given (named rfl)
    · obtain ⟨-, key, -, rfl | ⟨rfl, named⟩⟩ := renew_cases stepped
      · simp [withdraw] at drives
      · exact holding_given (named rfl)
  · have sound := Sound.of_reachable reached
    exact ⟨sound.exclusive holds also, sound.get_of_holds holds⟩

/-- The second consumer takes the lease when that of the first has expired, and is its only
holder. -/
theorem lease_changes_hands : ∃ state,
    Reachable (LeaseSystem.step {}) (fun _ _ => True) {} state ∧ "first" ∈ state.driving ∧
      Holding {} state "second" ∧ ∀ owner, Holding {} state owner → owner = "second" := by
  obtain ⟨state, reached, tested⟩ := reachable_of_any (LeaseSystem.step {}) (fun _ _ => True) {}
    (fun state => state.now == 31001 && state.driving.contains "first" &&
      state.since "second" == some 31001)
    [.start "first" .answered, .pass 1000, .renew "first" (.failed true), .pass 30001,
      .start "second" .answered] (by decide)
  simp only [Bool.and_eq_true, beq_iff_eq, List.contains_iff_mem] at tested
  obtain ⟨⟨time, drives⟩, taken⟩ := tested
  have holds : Holding {} state "second" := ⟨31001, taken, time.symm ▸ Nat.le_add_right _ _⟩
  have exclusive := (lease_exclusive {} state reached).2
  exact ⟨state, reached, drives, holds, fun owner also => (exclusive owner "second" also holds).1⟩

end Holders

end LeaseSystem

end Hermes.AgentProxy
