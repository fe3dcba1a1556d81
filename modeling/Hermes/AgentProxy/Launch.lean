import Hermes.Json
import Mathlib.Algebra.GroupWithZero.Nat

/-!
# The launch of a run

`POST /v1/runs` is not idempotent, so a launch is repeated only where the request cannot have
reached the instance.  Whatever the instance does, at most one attempt gets through to it, and the
waiting ends with the budget which the launch shares with the start of the instance.
-/

namespace Hermes.AgentProxy.Launch

/-! ## Times and settings -/

/-- The settings of the launch path, in milliseconds. -/
structure LaunchSettings where
  hermesConnectTimeout : Nat := 10000
  hermesProxyTimeout : Nat := 30000
  hermesLaunchBudget : Nat := 150000
  hermesProvisionReadyTimeout : Nat := 90000
  hermesLaunchRetryAttempts : Int := 3
  hermesLaunchRetryBackoff : Nat := 2000
  deriving DecidableEq, Repr

namespace LaunchSettings

/-- `_validate_hermes_launch_budget_invariant`. -/
def budgetCovers (settings : LaunchSettings) : Bool :=
  settings.hermesProvisionReadyTimeout + 2 * settings.hermesProxyTimeout ≤
    settings.hermesLaunchBudget

def attempts (settings : LaunchSettings) : Nat := (max settings.hermesLaunchRetryAttempts 1).toNat

/-- `_budget_deadline`. -/
def budgetDeadline (settings : LaunchSettings) (now : Int) : Int :=
  now + settings.hermesLaunchBudget

end LaunchSettings

/-- `_MIN_ATTEMPT_SECONDS`. -/
def minAttempt : Int := 1000

/-- The 502 errors of the launch path, and an exception nothing maps. -/
inductive LaunchFailure
  /-- `UpstreamTimeoutError`. -/
  | upstreamTimeout
  /-- `UpstreamError`. -/
  | upstreamError (message : String)
  /-- `payload.get` on a body which is not an object. -/
  | attributeError
  deriving DecidableEq, Repr

/-- `_remaining`. -/
def remaining (deadline now : Int) : Except LaunchFailure Int :=
  if deadline - now < minAttempt then .error .upstreamTimeout else .ok (deadline - now)

/-! ## One attempt -/

inductive Connecting
  | established (after : Nat)
  | refused (after : Nat)
  | silent
  deriving DecidableEq, Repr

/-- What becomes of a request which has been sent. -/
inductive Answer
  /-- A response, with its body where it is JSON. -/
  | response (status : Int) (body : Option Json)
  /-- The connection breaks. -/
  | broken

/-- What an attempt meets: a connection, then writes and reads which each take a while. -/
structure Encounter where
  connecting : Connecting
  gaps : List Nat := []
  answer : Answer := .broken

inductive Outcome
  | answered (status : Int) (body : Option Json)
  /-- `ConnectError`. -/
  | refused
  /-- `ConnectTimeout`. -/
  | connectTimeout
  /-- `ReadTimeout` or `WriteTimeout`. -/
  | exchangeTimeout
  /-- A `ReadError`, `WriteError` or protocol error. -/
  | broken
  /-- `asyncio.timeout`, before or after the connection was established. -/
  | overBudget (connected : Bool)

namespace Outcome

/-- `connect_errors`: the request cannot have been sent. -/
def retryable : Outcome → Bool
  | refused | connectTimeout => true
  | _ => false

/-- The request may have reached the instance. -/
def connected : Outcome → Bool
  | refused | connectTimeout | overBudget false => false
  | _ => true

def silent : Outcome → Bool
  | connectTimeout | exchangeTimeout | overBudget _ => true
  | _ => false

end Outcome

/-- The writes and reads of a request under `httpx.Timeout`, up to the ceiling of the budget. -/
def exchange (readWrite : Nat) (left : Int) (answer : Answer) : Nat → List Nat → Nat × Outcome
  | elapsed, [] =>
      match answer with
      | .response status body => (elapsed, .answered status body)
      | .broken => (elapsed, .broken)
  | elapsed, gap :: later =>
      if left ≤ elapsed + min gap readWrite then (left.toNat, .overBudget true)
      else if readWrite ≤ gap then (elapsed + readWrite, .exchangeTimeout)
      else exchange readWrite left answer (elapsed + gap) later

/-- A connection which takes longer than `_attempt_timeout` allows. -/
def connectSilent (settings : LaunchSettings) (left : Int) : Nat × Outcome :=
  if settings.hermesConnectTimeout < left then (settings.hermesConnectTimeout, .connectTimeout)
  else (left.toNat, .overBudget false)

/-- One attempt within what is left of the budget: how long it takes, and how it ends. -/
def attempt (settings : LaunchSettings) (left : Int) (encounter : Encounter) : Nat × Outcome :=
  match encounter.connecting with
  | .silent => connectSilent settings left
  | .refused after =>
      if after < settings.hermesConnectTimeout ∧ after < left then (after, .refused)
      else connectSilent settings left
  | .established after =>
      if after < settings.hermesConnectTimeout ∧ after < left then
        exchange settings.hermesProxyTimeout left encounter.answer after encounter.gaps
      else connectSilent settings left

/-! ## The launch -/

/-- `_transport_error`. -/
def transportError (outcome : Outcome) : LaunchFailure :=
  if outcome.silent then .upstreamTimeout else .upstreamError "hermes instance unreachable"

/-- What `_launch_run` reads from a response. -/
def readLaunch (status : Int) (body : Option Json) : Except LaunchFailure (String × String) :=
  if 200 ≤ status ∧ status < 300 then
    match body with
    | none => .error (.upstreamError "hermes run launch returned invalid body")
    | some (.obj fields) =>
        match Json.get? fields "run_id" with
        | some (.str runId) =>
            if runId.isEmpty then
              .error (.upstreamError "hermes run launch returned no run_id")
            else
              match Json.get? fields "status" with
              | some (.str "running") => .ok (runId, "running")
              | _ => .ok (runId, "queued")
        | _ => .error (.upstreamError "hermes run launch returned no run_id")
    | some _ => .error .attributeError
  else .error (.upstreamError "hermes run launch failed")

/-- What `_launch_run` comes to when an attempt is the last one. -/
def conclude : Outcome → Except LaunchFailure (String × String)
  | .answered status body => readLaunch status body
  | .overBudget _ => .error .upstreamTimeout
  | outcome => .error (transportError outcome)

/-- How much later than it asked for the task is woken, after an attempt and after the sleep behind
it. -/
structure Lateness where
  attempt : Nat := 0
  sleep : Nat := 0

/-- What came of a launch: when it ended, its attempts, whether `_remaining` refused another one,
and its result. -/
structure Launched where
  ended : Int
  outcomes : List Outcome
  refused : Bool := false
  result : Except LaunchFailure (String × String)

section Launching

variable (settings : LaunchSettings) (deadline : Int) (encounters : Nat → Encounter)
  (lateness : Nat → Lateness)

/-- The loop of `_launch_run`, with the attempts left and the attempts made. -/
def launchFrom : Nat → Nat → Int → Launched
  | 0, _, now => ⟨now, [], false, .error (.upstreamError "hermes instance unreachable")⟩
  | left + 1, made, now =>
      match remaining deadline now with
      | .error failure => ⟨now, [], true, .error failure⟩
      | .ok budget =>
          let (elapsed, outcome) := attempt settings budget (encounters made)
          let ended := now + elapsed + (lateness made).attempt
          let budgetLeft := deadline - ended
          if outcome.retryable ∧ left ≠ 0 ∧
              minAttempt ≤ budgetLeft - settings.hermesLaunchRetryBackoff then
            let awake := ended + settings.hermesLaunchRetryBackoff + (lateness made).sleep
            let rest := launchFrom left (made + 1) awake
            { rest with outcomes := outcome :: rest.outcomes }
          else ⟨ended, [outcome], false, conclude outcome⟩

/-- `_launch_run`. -/
def launchRun (now : Int) : Launched :=
  launchFrom settings deadline encounters lateness settings.attempts 0 now

end Launching

/-! ## What an attempt takes -/

section Attempts

variable {settings : LaunchSettings} {deadline left : Int} {encounters : Nat → Encounter}
  {encounter : Encounter}

/-- How long an attempt takes which ended in some way. -/
structure Took (settings : LaunchSettings) (left : Int) (elapsed : Nat) (outcome : Outcome) :
    Prop where
  within : (elapsed : Int) ≤ left
  connecting : outcome.retryable = true → elapsed ≤ settings.hermesConnectTimeout

theorem exchange_took {readWrite elapsed : Nat} (answer : Answer) (gaps : List Nat)
    (before : (elapsed : Int) < left) :
    Took settings left (exchange readWrite left answer elapsed gaps).1
      (exchange readWrite left answer elapsed gaps).2 := by
  induction gaps generalizing elapsed with
  | nil =>
      cases answer with
      | response status body => exact ⟨Int.le_of_lt before, fun retried => (by cases retried)⟩
      | broken => exact ⟨Int.le_of_lt before, fun retried => (by cases retried)⟩
  | cons gap later induction =>
      rw [exchange]
      split
      · exact ⟨by omega, fun retried => (by cases retried)⟩
      · split
        · exact ⟨by omega, fun retried => (by cases retried)⟩
        · exact induction (by omega)

theorem connectSilent_took (usable : minAttempt ≤ left) :
    Took settings left (connectSilent settings left).1 (connectSilent settings left).2 := by
  rw [minAttempt] at usable
  rw [connectSilent]
  split
  · exact ⟨by omega, fun _ => Nat.le_refl _⟩
  · exact ⟨by omega, fun retried => (by cases retried)⟩

theorem attempt_took (usable : minAttempt ≤ left) (encounter : Encounter) :
    Took settings left (attempt settings left encounter).1
      (attempt settings left encounter).2 := by
  rw [attempt]
  split
  · exact connectSilent_took usable
  · split
    next quick => exact ⟨Int.le_of_lt quick.2, fun _ => Nat.le_of_lt quick.1⟩
    · exact connectSilent_took usable
  · split
    next quick => exact exchange_took _ _ quick.2
    · exact connectSilent_took usable

theorem exchange_answers {readWrite elapsed : Nat} {answer : Answer} {gaps : List Nat}
    (quick : ∀ gap ∈ gaps, gap < readWrite) (fits : (elapsed + gaps.sum : Nat) < left) :
    exchange readWrite left answer elapsed gaps =
      exchange readWrite left answer (elapsed + gaps.sum) [] := by
  induction gaps generalizing elapsed with
  | nil => rfl
  | cons gap later induction =>
      rw [List.sum_cons] at fits ⊢
      have short := quick gap (List.mem_cons_self ..)
      rw [exchange, if_neg (by omega), if_neg (by omega),
        induction (fun other member => quick other (List.mem_cons_of_mem _ member)) (by omega),
        Nat.add_assoc]

end Attempts

/-! ## Whole launches -/

section Launches

variable {settings : LaunchSettings} {deadline now : Int} {encounters : Nat → Encounter}
  {lateness : Nat → Lateness} {left made : Nat}

theorem launchFrom_cases (settings : LaunchSettings) (deadline : Int)
    (encounters : Nat → Encounter) (lateness : Nat → Lateness) (left made : Nat) (now : Int) :
    (deadline - now < minAttempt ∧
      launchFrom settings deadline encounters lateness (left + 1) made now =
        ⟨now, [], true, .error .upstreamTimeout⟩) ∨
    minAttempt ≤ deadline - now ∧ ∃ elapsed outcome,
      Took settings (deadline - now) elapsed outcome ∧
        (launchFrom settings deadline encounters lateness (left + 1) made now =
            ⟨now + elapsed + (lateness made).attempt, [outcome], false, conclude outcome⟩ ∨
          outcome.retryable = true ∧ left ≠ 0 ∧ ∃ woken rest,
            woken = now + elapsed + (lateness made).attempt + settings.hermesLaunchRetryBackoff +
              (lateness made).sleep ∧
            minAttempt ≤ deadline - (woken - (lateness made).sleep) ∧
            rest = launchFrom settings deadline encounters lateness left (made + 1) woken ∧
            launchFrom settings deadline encounters lateness (left + 1) made now =
              { rest with outcomes := outcome :: rest.outcomes }) := by
  rw [launchFrom, remaining]
  by_cases short : deadline - now < minAttempt
  · rw [if_pos short]
    exact .inl ⟨short, rfl⟩
  · rw [if_neg short]
    have usable := Int.not_lt.mp short
    refine .inr ⟨usable, _, _, attempt_took usable (encounters made), ?_⟩
    dsimp only
    split
    next again =>
      refine .inr ⟨again.1, again.2.1, _, _, rfl, ?_, rfl, rfl⟩
      have fits := again.2.2
      omega
    · exact .inl rfl

/-- By how much the last of some attempts, the first of which has a number, was late at most. -/
def lastLateness (lateness : Nat → Lateness) (made count : Nat) : Nat :=
  match count with
  | 0 => 0
  | count + 1 => (lateness (made + count)).attempt + (lateness (made + count)).sleep

structure Sound (settings : LaunchSettings) (deadline : Int) (lateness : Nat → Lateness)
    (left made : Nat) (now : Int) (launched : Launched) : Prop where
  once : ∀ outcome ∈ launched.outcomes.dropLast, outcome.retryable = true
  few : launched.outcomes.length ≤ left
  ends : launched.ended ≤
    max now deadline + lastLateness lateness made launched.outcomes.length
  /-- Another attempt was refused, and some sleep before it took too long if there were others. -/
  refusal : launched.refused = true →
    (∀ outcome ∈ launched.outcomes, outcome.retryable = true) ∧
      launched.result = .error .upstreamTimeout ∧ deadline - launched.ended < minAttempt ∧
      (launched.outcomes = [] ∧ launched.ended = now ∨
        launched.outcomes ≠ [] ∧
          0 < (lateness (made + launched.outcomes.length - 1)).sleep)
  begun : launched.outcomes ≠ [] → minAttempt ≤ deadline - now
  concluded : launched.refused = false →
    ∃ last, launched.outcomes.getLast? = some last ∧ launched.result = conclude last

theorem Sound.refused (short : deadline - now < minAttempt) :
    Sound settings deadline lateness left made now
      ⟨now, [], true, .error .upstreamTimeout⟩ where
  once := fun _ member => by cases member
  few := Nat.zero_le _
  ends := Int.le_trans (Int.le_max_left ..) (Int.le_add_of_nonneg_right (Int.natCast_nonneg _))
  refusal := fun _ => ⟨fun _ member => (by cases member), rfl, short, .inl ⟨rfl, rfl⟩⟩
  begun := fun some_made => absurd rfl some_made
  concluded := fun continued => by cases continued

theorem Sound.single {elapsed : Nat} {outcome : Outcome} (usable : minAttempt ≤ deadline - now)
    (took : Took settings (deadline - now) elapsed outcome) :
    Sound settings deadline lateness (left + 1) made now
      ⟨now + elapsed + (lateness made).attempt, [outcome], false, conclude outcome⟩ where
  once := fun _ member => by cases member
  few := Nat.le_add_left ..
  ends := by
    have within := took.within
    rw [List.length_singleton, lastLateness, Nat.add_zero]
    dsimp only
    omega
  refusal := fun refused => by cases refused
  begun := fun _ => usable
  concluded := fun _ => ⟨outcome, rfl, rfl⟩

theorem Sound.again {elapsed : Nat} {outcome : Outcome} {woken : Int} {rest : Launched}
    (usable : minAttempt ≤ deadline - now)
    (took : Took settings (deadline - now) elapsed outcome) (retried : outcome.retryable = true)
    (fits : minAttempt ≤ deadline - (woken - (lateness made).sleep))
    (sound : Sound settings deadline lateness left (made + 1) woken rest) :
    Sound settings deadline lateness (left + 1) made now
      { rest with outcomes := outcome :: rest.outcomes } := by
  rw [minAttempt] at fits
  cases shape : rest.outcomes with
  | nil =>
      -- The sleep took so long that the next attempt did not begin.
      have refused : rest.refused = true := by
        by_contra continued
        obtain ⟨last, ends_in, -⟩ := sound.concluded (eq_false_of_ne_true continued)
        rw [shape] at ends_in
        cases ends_in
      obtain ⟨-, result, short, ⟨-, ended⟩ | ⟨some_made, -⟩⟩ := sound.refusal refused
      · refine ⟨fun _ member => (by cases member), Nat.le_add_left .., ?_,
          fun _ => ⟨?_, result, short, ?_⟩, fun _ => usable, fun continued => ?_⟩
        · dsimp only
          rw [ended, List.length_singleton, lastLateness, Nat.add_zero]
          omega
        · intro other member
          rw [List.mem_singleton.mp member]
          exact retried
        · refine .inr ⟨List.cons_ne_nil _ _, ?_⟩
          rw [ended, minAttempt] at short
          rw [List.length_singleton, Nat.add_sub_cancel]
          omega
        · rw [refused] at continued
          cases continued
      · exact absurd shape some_made
  | cons first later =>
      have begun := sound.begun (by rw [shape]; exact List.cons_ne_nil _ _)
      rw [minAttempt] at begun
      refine ⟨?_, ?_, ?_, fun refused => ?_, fun _ => usable, fun continued => ?_⟩
      · intro other member
        rw [List.dropLast_cons_of_ne_nil (List.cons_ne_nil _ _), ← shape] at member
        rcases List.mem_cons.mp member with rfl | member
        · exact retried
        · exact sound.once other member
      · have few := sound.few
        rw [shape] at few
        exact Nat.succ_le_succ few
      · have ended := sound.ends
        rw [shape, List.length_cons, lastLateness] at ended
        rw [List.length_cons, List.length_cons, lastLateness,
          show made + (later.length + 1) = made + 1 + later.length by omega]
        dsimp only
        omega
      · obtain ⟨all, result, short, none_made | ⟨-, late⟩⟩ := sound.refusal refused
        · rw [shape] at none_made
          exact absurd none_made.1 (List.cons_ne_nil _ _)
        · refine ⟨?_, result, short, .inr ⟨List.cons_ne_nil _ _, ?_⟩⟩
          · rw [← shape]
            intro other member
            rcases List.mem_cons.mp member with rfl | member
            · exact retried
            · exact all other member
          · rw [shape, List.length_cons,
              show made + 1 + (later.length + 1) - 1 = made + (later.length + 1 + 1) - 1 by omega]
              at late
            exact late
      · obtain ⟨last, ends_in, result⟩ := sound.concluded continued
        rw [shape] at ends_in
        exact ⟨last, by rw [List.getLast?_cons_cons, ends_in], result⟩

theorem launchFrom_sound (settings : LaunchSettings) (deadline : Int)
    (encounters : Nat → Encounter) (lateness : Nat → Lateness) (left made : Nat) (now : Int) :
    Sound settings deadline lateness (left + 1) made now
      (launchFrom settings deadline encounters lateness (left + 1) made now) := by
  induction left generalizing made now with
  | zero =>
      obtain ⟨short, refuses⟩ | ⟨usable, elapsed, outcome, took, ends | ⟨-, none_left, -⟩⟩ :=
        launchFrom_cases settings deadline encounters lateness 0 made now
      · rw [refuses]
        exact .refused short
      · rw [ends]
        exact .single usable took
      · exact absurd rfl none_left
  | succ left induction =>
      obtain ⟨short, refuses⟩ | ⟨usable, elapsed, outcome, took,
          ends | ⟨retried, -, woken, rest, -, fits, rfl, again⟩⟩ :=
        launchFrom_cases settings deadline encounters lateness (left + 1) made now
      · rw [refuses]
        exact .refused short
      · rw [ends]
        exact .single usable took
      · rw [again]
        exact .again usable took retried fits (induction ..)

/-- The posts of a launch which the instance may have seen. -/
def Launched.sent (launched : Launched) : List Outcome := launched.outcomes.filter (·.connected)

theorem connected_of_retryable {outcome : Outcome} (retried : outcome.retryable = true) :
    outcome.connected = false := by
  cases outcome <;> first | rfl | cases retried

theorem Sound.sent_length {launched : Launched}
    (sound : Sound settings deadline lateness left made now launched) :
    launched.sent.length ≤ 1 := by
  have none_before : launched.outcomes.dropLast.filter (·.connected) = [] := by
    rw [List.filter_eq_nil_iff]
    intro outcome member
    rw [connected_of_retryable (sound.once outcome member)]
    exact Bool.false_ne_true
  rcases List.eq_nil_or_concat launched.outcomes with nothing | ⟨earlier, last, shape⟩
  · rw [Launched.sent, nothing]
    exact Nat.zero_le _
  · rw [shape, List.concat_eq_append, List.dropLast_concat] at none_before
    rw [Launched.sent, shape, List.concat_eq_append, List.filter_append, none_before,
      List.nil_append]
    exact List.length_filter_le ..

theorem readLaunch_ne_timeout (status : Int) (body : Option Json) :
    readLaunch status body ≠ .error .upstreamTimeout := by
  unfold readLaunch
  split
  · split
    · exact fun same => by cases same
    · split
      · split
        · exact fun same => by cases same
        · split <;> exact fun same => by cases same
      · exact fun same => by cases same
    · exact fun same => by cases same
  · exact fun same => by cases same

theorem conclude_timeout (outcome : Outcome) :
    conclude outcome = .error .upstreamTimeout ↔ outcome.silent = true := by
  cases outcome with
  | answered status body =>
      exact ⟨fun same => absurd same (readLaunch_ne_timeout status body),
        fun silent => by cases silent⟩
  | refused => exact ⟨fun same => (by cases same), fun silent => by cases silent⟩
  | broken => exact ⟨fun same => (by cases same), fun silent => by cases silent⟩
  | connectTimeout => exact ⟨fun _ => rfl, fun _ => rfl⟩
  | exchangeTimeout => exact ⟨fun _ => rfl, fun _ => rfl⟩
  | overBudget connected => exact ⟨fun _ => rfl, fun _ => rfl⟩

end Launches

end Hermes.AgentProxy.Launch
