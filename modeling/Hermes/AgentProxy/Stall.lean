import Hermes.AgentProxy.Tables
import Hermes.Library.Transition
import Mathlib.Tactic.Linarith

/-!
# When the supervisor takes a consumer for dead

The worker publishes its state and two progress counters, and the supervisor judges them at ticks of
its own.  Work that takes too long is always found.  A quiet stream is taken for a spinning loop
when the last window was taken while a chunk was being handled and the blocks behind it turned the
state without publishing anything.
-/

namespace Hermes.AgentProxy

structure StallSettings where
  agentRunFirstByteStallSeconds : Int
  agentRunProcessingStallSeconds : Int
  deriving DecidableEq, Repr

inductive BeaconState
  | connecting
  | awaitingUpstream
  | processing
  deriving DecidableEq, Repr

/-- `ConsumerBeacon`. -/
structure ConsumerBeacon where
  state : BeaconState := .connecting
  since : Time
  bytesRead : Nat := 0
  lastPublishedSeq : Int := 0
  transitions : Nat := 0
  deriving DecidableEq, Repr

namespace ConsumerBeacon

/-- `set_state`. -/
def setState (beacon : ConsumerBeacon) (state : BeaconState) (now : Time) : ConsumerBeacon :=
  if beacon.state = state then beacon
  else { beacon with state := state, since := now, transitions := beacon.transitions + 1 }

/-- `note_bytes`. -/
def noteBytes (beacon : ConsumerBeacon) (count : Nat) (now : Time) : ConsumerBeacon :=
  let beacon :=
    if 0 < count ∧ beacon.bytesRead = 0 then beacon.setState .awaitingUpstream now else beacon
  { beacon with bytesRead := beacon.bytesRead + count }

/-- `saw_first_byte`. -/
def sawFirstByte (beacon : ConsumerBeacon) : Bool :=
  decide (0 < beacon.bytesRead)

/-- The worker takes over what `publish` returns. -/
def published (beacon : ConsumerBeacon) : Option Int → ConsumerBeacon
  | some seq => { beacon with lastPublishedSeq := seq }
  | none => beacon

end ConsumerBeacon

/-- `_ProgressWindow`. -/
structure ProgressWindow where
  bytesRead : Nat
  publishedSeq : Int
  transitions : Nat
  takenAt : Time
  deriving DecidableEq, Repr

/-- `_ProgressWindow.of`. -/
def ProgressWindow.of (beacon : ConsumerBeacon) (now : Time) : ProgressWindow where
  bytesRead := beacon.bytesRead
  publishedSeq := beacon.lastPublishedSeq
  transitions := beacon.transitions
  takenAt := now

/-- `_ProgressWindow.advanced`. -/
def ProgressWindow.advanced (window : ProgressWindow) (beacon : ConsumerBeacon) : Bool :=
  decide (window.bytesRead < beacon.bytesRead) ||
    decide (window.publishedSeq < beacon.lastPublishedSeq)

/-- `_SPIN_TRANSITIONS`. -/
def spinTransitions : Nat := 4

/-- `is_stalled`. -/
def isStalled (beacon : ConsumerBeacon) (window : ProgressWindow) (settings : StallSettings)
    (now : Time) : Bool :=
  if beacon.state = .processing ∨ beacon.state = .connecting then
    let threshold :=
      if beacon.state = .connecting ∧ beacon.sawFirstByte = false then
        settings.agentRunFirstByteStallSeconds
      else settings.agentRunProcessingStallSeconds
    decide ((threshold : ℚ) ≤ now - beacon.since)
  else
    !window.advanced beacon &&
      (decide (window.transitions + spinTransitions ≤ beacon.transitions) &&
        decide ((settings.agentRunProcessingStallSeconds : ℚ) ≤ now - window.takenAt))

/-- Where the loop of `run_worker` is. -/
inductive WorkerPhase
  /-- No byte has arrived. -/
  | connecting (entered : Time)
  /-- Waiting for more bytes. -/
  | waiting
  /-- Handling a block, with more blocks of the same chunk behind it. -/
  | handling (entered : Time) (further : Nat)
  /-- Handling the rest of a stream which has closed. -/
  | finishing (entered : Time)
  | ended
  deriving DecidableEq, Repr

/-- The worker and what its supervisor has seen of it. -/
structure Supervised where
  clock : Time
  beacon : ConsumerBeacon
  window : ProgressWindow
  phase : WorkerPhase
  deriving DecidableEq, Repr

inductive SupervisionAction
  | pass (duration : ℚ)
  /-- A chunk arrives and completes some blocks. -/
  | chunk (bytes blocks : Nat)
  /-- A `publish` of the worker returns. -/
  | published (seq : Option Int)
  /-- `process_event` of the block in hand returns. -/
  | handled
  /-- The stream closes, with or without a block which no blank line ends. -/
  | close (trailing : Bool)
  /-- The worker raises or returns. -/
  | leave
  /-- The supervisor wakes up. -/
  | tick

namespace Supervised

/-- A consumer whose beacon and window have just been created. -/
def start (created started : Time) : Supervised where
  clock := started
  beacon := { since := created }
  window := .of { since := created } started
  phase := .connecting created

/-- A chunk arrives while the worker waits for one. -/
def arrive (state : Supervised) (bytes blocks : Nat) : Supervised :=
  let beacon := state.beacon.noteBytes bytes state.clock
  match blocks with
  | 0 =>
      { state with
        beacon := beacon
        phase := if 0 < bytes then .waiting else state.phase }
  | further + 1 =>
      { state with
        beacon := beacon.setState .processing state.clock
        phase := .handling state.clock further }

/-- The worker has handled a block: the next one of the chunk follows at once. -/
def next (state : Supervised) : Nat → Supervised
  | 0 =>
      { state with
        beacon := state.beacon.setState .awaitingUpstream state.clock
        phase := .waiting }
  | further + 1 =>
      { state with
        beacon := (state.beacon.setState .awaitingUpstream state.clock).setState .processing
          state.clock
        phase := .handling state.clock further }

/-- The supervisor judges, and takes a new window if the stream has moved. -/
def judge (settings : StallSettings) (state : Supervised) : Supervised :=
  if isStalled state.beacon state.window settings state.clock then { state with phase := .ended }
  else if state.window.advanced state.beacon then
    { state with window := .of state.beacon state.clock }
  else state

def step (settings : StallSettings) (state : Supervised) : SupervisionAction → Option Supervised
  | .pass duration =>
      if 0 ≤ duration then some { state with clock := state.clock + duration } else none
  | .chunk bytes blocks =>
      -- Every completed block ends with a byte of the chunk.
      if bytes < blocks then none
      else
        match state.phase with
        | .connecting _ | .waiting => some (state.arrive bytes blocks)
        | _ => none
  | .published seq =>
      match state.phase with
      | .handling _ _ | .finishing _ => some { state with beacon := state.beacon.published seq }
      | _ => none
  | .handled =>
      match state.phase with
      | .handling _ further => some (state.next further)
      | .finishing _ => some { state.next 0 with phase := .ended }
      | _ => none
  | .close trailing =>
      match state.phase with
      | .waiting =>
          if trailing then
            some { state with
              beacon := state.beacon.setState .processing state.clock
              phase := .finishing state.clock }
          else some { state with phase := .ended }
      | _ => none
  | .leave => some { state with phase := .ended }
  | .tick =>
      match state.phase with
      | .ended => some state
      | _ => some (state.judge settings)

/-- Since when the worker has been in one processing or connecting state, and the threshold which
matches it. -/
def busy (settings : StallSettings) (state : Supervised) : Option (Time × Int) :=
  match state.phase with
  | .connecting entered => some (entered, settings.agentRunFirstByteStallSeconds)
  | .handling entered _ | .finishing entered =>
      some (entered, settings.agentRunProcessingStallSeconds)
  | .waiting | .ended => none

/-- Since the window was taken, the stream has moved or the state has changed few times. -/
def Calm (state : Supervised) : Prop :=
  state.window.advanced state.beacon = true ∨
    state.beacon.transitions < state.window.transitions + spinTransitions

/-- The worker comes to wait for bytes in a calm state: when it has handled the last block of a
chunk, a byte has arrived or a higher sequence number was published since the window was taken, or
the state has changed less than three times. -/
def ComesCalm (state : Supervised) : SupervisionAction → Prop
  | .handled =>
      ∀ entered, state.phase = .handling entered 0 →
        state.window.advanced state.beacon = true ∨
          state.beacon.transitions + 1 < state.window.transitions + spinTransitions
  | _ => True

/-- What the beacon says is where the worker is. -/
def Beaconed (beacon : ConsumerBeacon) : WorkerPhase → Prop
  | .connecting entered =>
      beacon.state = .connecting ∧ beacon.since = entered ∧ beacon.bytesRead = 0
  | .waiting => beacon.state = .awaitingUpstream ∧ 0 < beacon.bytesRead
  | .handling entered _ | .finishing entered =>
      beacon.state = .processing ∧ beacon.since = entered ∧ 0 < beacon.bytesRead
  | .ended => True

/-- The beacon follows the worker, and the window never runs ahead of the beacon. -/
structure Tracks (state : Supervised) : Prop where
  beaconed : Beaconed state.beacon state.phase
  bytes : state.window.bytesRead ≤ state.beacon.bytesRead

section Beacon

variable {beacon : ConsumerBeacon} {now : Time} {count : Nat}

@[simp] theorem setState_bytesRead (state : BeaconState) :
    (beacon.setState state now).bytesRead = beacon.bytesRead := by
  unfold ConsumerBeacon.setState
  split <;> rfl

@[simp] theorem setState_lastPublishedSeq (state : BeaconState) :
    (beacon.setState state now).lastPublishedSeq = beacon.lastPublishedSeq := by
  unfold ConsumerBeacon.setState
  split <;> rfl

@[simp] theorem setState_state (state : BeaconState) :
    (beacon.setState state now).state = state := by
  unfold ConsumerBeacon.setState
  split
  next same => exact same
  · rfl

theorem setState_of_ne {state : BeaconState} (differs : beacon.state ≠ state) :
    (beacon.setState state now).since = now ∧
      (beacon.setState state now).transitions = beacon.transitions + 1 := by
  rw [ConsumerBeacon.setState, if_neg differs]
  exact ⟨rfl, rfl⟩

@[simp] theorem noteBytes_bytesRead :
    (beacon.noteBytes count now).bytesRead = beacon.bytesRead + count := by
  unfold ConsumerBeacon.noteBytes
  simp only
  split
  · rw [setState_bytesRead]
  · rfl

theorem noteBytes_state (read : 0 < beacon.bytesRead) :
    (beacon.noteBytes count now).state = beacon.state := by
  unfold ConsumerBeacon.noteBytes
  rw [if_neg (by omega)]

theorem noteBytes_first (positive : 0 < count) (unread : beacon.bytesRead = 0) :
    (beacon.noteBytes count now).state = .awaitingUpstream := by
  unfold ConsumerBeacon.noteBytes
  rw [if_pos ⟨positive, unread⟩]
  exact setState_state _

theorem noteBytes_zero : beacon.noteBytes 0 now = beacon := by
  simp [ConsumerBeacon.noteBytes]

end Beacon

section Steps

variable {settings : StallSettings} {state after : Supervised}

/-- A chunk leaves the worker waiting or handling, and its bytes are counted. -/
theorem arrive_tracks {bytes blocks : Nat} (tracks : Tracks state)
    (blocks_le : blocks ≤ bytes)
    (ready : state.phase = .waiting ∨ ∃ entered, state.phase = .connecting entered) :
    Tracks (state.arrive bytes blocks) := by
  have noted : 0 < bytes →
      (state.beacon.noteBytes bytes state.clock).state = .awaitingUpstream := by
    intro positive
    have beaconed := tracks.beaconed
    rcases ready with waits | ⟨entered, connects⟩
    · rw [waits] at beaconed
      rw [noteBytes_state beaconed.2]
      exact beaconed.1
    · rw [connects] at beaconed
      exact noteBytes_first positive beaconed.2.2
  have counted := tracks.bytes
  cases blocks with
  | zero =>
      constructor
      · by_cases positive : 0 < bytes
        · simp only [arrive, if_pos positive]
          refine ⟨noted positive, ?_⟩
          rw [noteBytes_bytesRead]
          omega
        · obtain rfl : bytes = 0 := by omega
          simp only [arrive, noteBytes_zero, lt_irrefl, if_false]
          exact tracks.beaconed
      · simp only [arrive, noteBytes_bytesRead]
        omega
  | succ further =>
      have differs : (state.beacon.noteBytes bytes state.clock).state ≠ .processing := by
        rw [noted (by omega)]
        decide
      constructor
      · refine ⟨setState_state _, (setState_of_ne differs).1, ?_⟩
        simp only [arrive, setState_bytesRead, noteBytes_bytesRead]
        omega
      · simp only [arrive, setState_bytesRead, noteBytes_bytesRead]
        omega

theorem next_tracks {entered : Time} {further : Nat} (tracks : Tracks state)
    (handles : Beaconed state.beacon (.handling entered further)) :
    Tracks (state.next further) := by
  obtain ⟨-, -, read⟩ := handles
  have counted := tracks.bytes
  cases further with
  | zero =>
      refine ⟨⟨setState_state _, ?_⟩, ?_⟩
      · simp only [next, setState_bytesRead]
        exact read
      · simp only [next, setState_bytesRead]
        exact counted
  | succ further =>
      have differs : (state.beacon.setState .awaitingUpstream state.clock).state ≠
          .processing := by
        rw [setState_state]
        decide
      refine ⟨⟨setState_state _, (setState_of_ne differs).1, ?_⟩, ?_⟩
      · simp only [next, setState_bytesRead]
        exact read
      · simp only [next, setState_bytesRead]
        exact counted

theorem beaconed_published {phase : WorkerPhase} {seq : Option Int}
    (beaconed : Beaconed state.beacon phase) : Beaconed (state.beacon.published seq) phase := by
  cases seq with
  | none => exact beaconed
  | some seq => cases phase <;> exact beaconed

theorem published_bytesRead (seq : Option Int) :
    (state.beacon.published seq).bytesRead = state.beacon.bytesRead := by
  cases seq <;> rfl

/-- A tick ends the worker, takes a new window, or changes nothing. -/
theorem judge_cases (settings : StallSettings) (state : Supervised) :
    state.judge settings = { state with phase := .ended } ∨
      state.judge settings = { state with window := .of state.beacon state.clock } ∨
      state.judge settings = state := by
  unfold judge
  split
  · exact .inl rfl
  · split
    · exact .inr (.inl rfl)
    · exact .inr (.inr rfl)

theorem step_tracks {action : SupervisionAction} (tracks : Tracks state)
    (stepped : step settings state action = some after) : Tracks after := by
  have beaconed := tracks.beaconed
  have counted := tracks.bytes
  cases action with
  | pass duration =>
      simp only [step] at stepped
      split at stepped
      · cases stepped
        exact ⟨beaconed, counted⟩
      · cases stepped
  | chunk bytes blocks =>
      simp only [step] at stepped
      split at stepped
      · cases stepped
      next enough =>
        split at stepped
        next entered connects =>
          cases stepped
          exact arrive_tracks tracks (not_lt.mp enough) (.inr ⟨entered, connects⟩)
        next waits =>
          cases stepped
          exact arrive_tracks tracks (not_lt.mp enough) (.inl waits)
        · cases stepped
  | published seq =>
      simp only [step] at stepped
      split at stepped
      · cases stepped
        exact ⟨beaconed_published beaconed, by rwa [published_bytesRead]⟩
      · cases stepped
        exact ⟨beaconed_published beaconed, by rwa [published_bytesRead]⟩
      · cases stepped
  | handled =>
      simp only [step] at stepped
      split at stepped
      next entered further handles =>
        cases stepped
        rw [handles] at beaconed
        exact next_tracks tracks beaconed
      next entered finishes =>
        cases stepped
        refine ⟨trivial, ?_⟩
        simp only [next, setState_bytesRead]
        exact counted
      · cases stepped
  | close trailing =>
      simp only [step] at stepped
      split at stepped
      next waits =>
        rw [waits] at beaconed
        split at stepped
        · cases stepped
          have differs : state.beacon.state ≠ .processing := by
            rw [beaconed.1]
            decide
          refine ⟨⟨setState_state _, (setState_of_ne differs).1, ?_⟩, ?_⟩
          · rw [setState_bytesRead]
            exact beaconed.2
          · rwa [setState_bytesRead]
        · cases stepped
          exact ⟨trivial, counted⟩
      · cases stepped
  | leave =>
      cases stepped
      exact ⟨trivial, counted⟩
  | tick =>
      simp only [step] at stepped
      split at stepped
      · cases stepped
        exact tracks
      · cases stepped
        rcases judge_cases settings state with stopped | taken | same
        · rw [stopped]
          exact ⟨trivial, counted⟩
        · rw [taken]
          exact ⟨beaconed, le_rfl⟩
        · rw [same]
          exact tracks

theorem Tracks.stalled_of_busy {entered : Time} {threshold : Int} (tracks : Tracks state)
    (busy_eq : state.busy settings = some (entered, threshold))
    (long : (threshold : ℚ) ≤ state.clock - entered) :
    isStalled state.beacon state.window settings state.clock = true := by
  have beaconed := tracks.beaconed
  unfold busy at busy_eq
  split at busy_eq
  next since connects =>
    cases busy_eq
    rw [connects] at beaconed
    obtain ⟨connecting, since_eq, unread⟩ := beaconed
    simpa [isStalled, connecting, ConsumerBeacon.sawFirstByte, unread, since_eq] using long
  next since further handles =>
    cases busy_eq
    rw [handles] at beaconed
    obtain ⟨processing, since_eq, -⟩ := beaconed
    simpa [isStalled, processing, since_eq] using long
  next since finishes =>
    cases busy_eq
    rw [finishes] at beaconed
    obtain ⟨processing, since_eq, -⟩ := beaconed
    simpa [isStalled, processing, since_eq] using long
  · cases busy_eq
  · cases busy_eq

theorem Tracks.stalled_waiting (tracks : Tracks state) (waits : state.phase = .waiting)
    (now : Time) :
    isStalled state.beacon state.window settings now = true ↔
      ¬state.Calm ∧ (settings.agentRunProcessingStallSeconds : ℚ) ≤ now - state.window.takenAt := by
  have beaconed := tracks.beaconed
  rw [waits] at beaconed
  have awaiting : ¬(state.beacon.state = .processing ∨ state.beacon.state = .connecting) := by
    rw [beaconed.1]
    decide
  rw [isStalled, if_neg awaiting, Calm, not_or, not_lt]
  simp [and_assoc]

/-- A waiting worker is never taken for dead, however long it waits, exactly in a calm state. -/
theorem Tracks.never_stalled_iff (tracks : Tracks state) (waits : state.phase = .waiting) :
    (∀ duration : ℚ, 0 ≤ duration →
      isStalled state.beacon state.window settings (state.clock + duration) = false) ↔
      state.Calm := by
  constructor
  · intro alive
    by_contra restless
    -- Wait until the window is as old as the threshold.
    have enough : (settings.agentRunProcessingStallSeconds : ℚ) ≤ state.clock +
        max 0 (settings.agentRunProcessingStallSeconds + state.window.takenAt - state.clock) -
          state.window.takenAt := by
      have reached := le_max_right (0 : ℚ)
        (settings.agentRunProcessingStallSeconds + state.window.takenAt - state.clock)
      linarith
    have stalled := (tracks.stalled_waiting waits _).mpr ⟨restless, enough⟩
    rw [alive _ (le_max_left _ _)] at stalled
    cases stalled
  · intro calm duration _
    rw [Bool.eq_false_iff]
    intro stalled
    exact ((tracks.stalled_waiting waits _).mp stalled).1 calm

/-- What a worker which comes to wait in calm states keeps. -/
structure Waits (state : Supervised) : Prop where
  tracks : Tracks state
  calm : state.phase = .waiting → state.Calm

theorem arrive_waits {bytes blocks : Nat} (waits : Waits state) (blocks_le : blocks ≤ bytes)
    (ready : state.phase = .waiting ∨ ∃ entered, state.phase = .connecting entered) :
    Waits (state.arrive bytes blocks) where
  tracks := arrive_tracks waits.tracks blocks_le ready
  calm rests := by
    have counted := waits.tracks.bytes
    cases blocks with
    | zero =>
        by_cases positive : 0 < bytes
        · left
          rw [ProgressWindow.advanced, Bool.or_eq_true, decide_eq_true_eq]
          left
          simp only [arrive, noteBytes_bytesRead]
          omega
        · obtain rfl : bytes = 0 := by omega
          simp only [arrive, noteBytes_zero, lt_irrefl, if_false] at rests ⊢
          exact waits.calm rests
    | succ further => cases rests

theorem step_waits {action : SupervisionAction} (waits : Waits state)
    (comes : ComesCalm state action) (stepped : step settings state action = some after) :
    Waits after := by
  refine ⟨step_tracks waits.tracks stepped, ?_⟩
  intro rests
  cases action with
  | pass duration =>
      simp only [step] at stepped
      split at stepped
      · cases stepped
        exact waits.calm rests
      · cases stepped
  | chunk bytes blocks =>
      simp only [step] at stepped
      split at stepped
      · cases stepped
      next enough =>
        split at stepped
        next entered connects =>
          cases stepped
          exact (arrive_waits waits (not_lt.mp enough) (.inr ⟨entered, connects⟩)).calm rests
        next ready =>
          cases stepped
          exact (arrive_waits waits (not_lt.mp enough) (.inl ready)).calm rests
        · cases stepped
  | published seq =>
      simp only [step] at stepped
      split at stepped
      next entered further handles =>
        cases stepped
        cases handles.symm.trans rests
      next entered finishes =>
        cases stepped
        cases finishes.symm.trans rests
      · cases stepped
  | handled =>
      simp only [step] at stepped
      split at stepped
      next entered further handles =>
        cases stepped
        cases further with
        | zero =>
            have beaconed := waits.tracks.beaconed
            rw [handles] at beaconed
            have differs : state.beacon.state ≠ .awaitingUpstream := by
              rw [beaconed.1]
              decide
            have counted : (state.beacon.setState .awaitingUpstream state.clock).transitions =
                state.beacon.transitions + 1 := (setState_of_ne differs).2
            rw [Calm, ProgressWindow.advanced]
            simp only [next, setState_bytesRead, setState_lastPublishedSeq, counted]
            exact comes entered handles
        | succ further => cases rests
      · cases stepped
        cases rests
      · cases stepped
  | close trailing =>
      simp only [step] at stepped
      split at stepped
      · split at stepped
        · cases stepped
          cases rests
        · cases stepped
          cases rests
      · cases stepped
  | leave =>
      cases stepped
      cases rests
  | tick =>
      simp only [step] at stepped
      split at stepped
      next ended =>
        cases stepped
        exact waits.calm rests
      next runs =>
        cases stepped
        rcases judge_cases settings state with stopped | taken | same
        · rw [stopped] at rests
          cases rests
        · rw [taken]
          exact .inr (Nat.lt_add_of_pos_right (by decide))
        · rw [same] at rests ⊢
          exact waits.calm rests

end Steps

theorem start_waits (created started : Time) : Waits (start created started) where
  tracks := ⟨⟨rfl, rfl, rfl⟩, le_rfl⟩
  calm rests := by cases rests

/-- For every sequence of chunks, publish outcomes, handlers and ticks: a worker which has been in
one processing or connecting state for as long as its threshold is found at every tick, and one
which waits is never taken for dead, however long it waits, if and only if its state is calm.  While
the worker only comes to wait in calm states, it is never taken for dead where it waits. -/
theorem stall_rule_iff (settings : StallSettings) (created started : Time) :
    (∀ state, Reachable (step settings) (fun _ _ => True) (start created started) state →
      (∀ entered threshold, state.busy settings = some (entered, threshold) →
        (threshold : ℚ) ≤ state.clock - entered →
          isStalled state.beacon state.window settings state.clock = true) ∧
      (state.phase = .waiting →
        ((∀ duration : ℚ, 0 ≤ duration →
          isStalled state.beacon state.window settings (state.clock + duration) = false) ↔
          state.Calm))) ∧
    ∀ state, Reachable (step settings) ComesCalm (start created started) state →
      state.phase = .waiting →
        isStalled state.beacon state.window settings state.clock = false := by
  constructor
  · intro state reached
    have tracks : Tracks state := by
      apply reached.invariant Tracks (start_waits created started).tracks
      intro before action after tracks _ stepped
      exact step_tracks tracks stepped
    refine ⟨?_, tracks.never_stalled_iff⟩
    intro entered threshold busy_eq long
    exact tracks.stalled_of_busy busy_eq long
  · intro state reached rests
    have waits : Waits state := by
      apply reached.invariant Waits (start_waits created started)
      intro before action after waits comes stepped
      exact step_waits waits comes stepped
    have alive : isStalled state.beacon state.window settings (state.clock + 0) = false :=
      (waits.tracks.never_stalled_iff rests).mpr (waits.calm rests) 0 le_rfl
    rwa [add_zero] at alive

def defaultStallSettings : StallSettings := ⟨180, 120⟩

/-- A chunk of three blocks, each handled within three seconds while Redis is down; a tick falls
into the handling of the first one, and nothing arrives for two minutes. -/
def quietAfterThreeBlocks : List SupervisionAction :=
  [.pass 1, .chunk 300 3, .published none, .pass 3, .tick, .handled, .published none, .pass 3,
    .handled, .published none, .pass 3, .handled, .pass 120]

/-- The worker waits for more bytes and is taken for dead. -/
theorem quiet_stream_stalled :
    ∃ state, Reachable (step defaultStallSettings) (fun _ _ => True) (start 0 0) state ∧
      state.phase = .waiting ∧ state.beacon.sawFirstByte = true ∧
        isStalled state.beacon state.window defaultStallSettings state.clock = true := by
  obtain ⟨state, reached, tested⟩ := reachable_of_any (step defaultStallSettings)
    (fun _ _ => True) (start 0 0)
    (fun state => decide (state.phase = .waiting) && (state.beacon.sawFirstByte &&
      isStalled state.beacon state.window defaultStallSettings state.clock))
    quietAfterThreeBlocks (by decide +kernel)
  simp only [Bool.and_eq_true, decide_eq_true_eq] at tested
  exact ⟨state, reached, tested⟩

end Supervised

end Hermes.AgentProxy
