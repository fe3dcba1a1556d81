import Hermes.AgentProxy.Broker.Classify
import Hermes.Library.Transition
import Mathlib.Data.List.Infix

/-!
# The queue between the reader and the client

The reader of a stream puts blocks into a bounded queue and the writer hands them to the client,
while a supervisor may close the stream.  One place of the queue is kept for the item which ends
it.  Every step below runs from one suspension of its task to the next, or less; a clock may run
out at any moment.
-/

namespace Hermes.AgentProxy.Broker

inductive QueueItem
  | block (block : Block)
  /-- `_END_OF_STREAM`. -/
  | endOfStream
  deriving DecidableEq, Repr

/-- `put_nowait` of a queue of the given size, which is no bound unless it is positive; `none` is
`QueueFull`. -/
def putNowait (maxsize : Int) (queue : List QueueItem) (item : QueueItem) :
    Option (List QueueItem) :=
  if 0 < maxsize ∧ maxsize ≤ queue.length then none else some (queue ++ [item])

/-- Where the task of `_read_channel` is suspended, or how it ended. -/
inductive Reader
  | opening
  /-- The blocks of the replay which are still due, and whether the run is over behind them. -/
  | replaying (due : List Block) (ends : Bool) (live : LiveState)
  /-- `_await_live_phase`. -/
  | awaiting (live : LiveState)
  | live (state : LiveState)
  /-- The blocks of one round which are still to be offered, and what comes behind them. -/
  | offering (due : List Block) (after : Progress)
  | returned (normal : Bool)
  | raised (queueFull : Bool)

def Reader.done : Reader → Bool
  | .returned _ | .raised _ => true
  | _ => false

/-- The task of `_supervise`. -/
inductive Supervisor
  | running
  | returned
  | failed
  deriving DecidableEq, Repr

/-- How the generator of `stream` ends. -/
inductive EndReason
  /-- The writer took the end of the stream from the queue. -/
  | endOfStream
  | abnormal
  /-- The drain budget ran out. -/
  | drainTimeout
  /-- The client went away. -/
  | disconnected
  deriving DecidableEq, Repr

inductive Writer
  /-- At the head of its loop. -/
  | running
  /-- Suspended at a `yield`. -/
  | handing (block : Block)
  /-- Suspended in `asyncio.wait`, with what its getter has taken. -/
  | waiting (getter : Option QueueItem)
  | ended (reason : EndReason)
  deriving DecidableEq, Repr

def Writer.finished : Writer → Bool
  | .ended _ => true
  | _ => false

/-- One call of `stream`.  `opened` and `rounds` are what the reader has read, `queued` the blocks
it has put, and `received` those the client has taken. -/
structure Stream where
  queue : List QueueItem := []
  reader : Reader := .opening
  writer : Writer := .running
  supervisor : Supervisor := .running
  normalEnd : Bool := false
  closing : Bool := false
  /-- The drain deadline is set. -/
  draining : Bool := false
  opened : Option Opening := none
  rounds : List Round := []
  queued : List Block := []
  received : List Block := []

/-- The steps of the three tasks; `expired` tells whether the deadline in question has passed. -/
inductive StreamAction
  /-- The opening phase fails or times out. -/
  | openFails
  | opens (opening : Opening) (lease : Option Bool) (terminalAtOpen : Bool)
  | putDueReplay (expired : Bool)
  | awaitLivePhase (expired : Bool)
  | round (round : Round)
  | offerLive
  | readerRaises
  /-- A verdict of the supervisor, and whether a portion has gone out within the budget. -/
  | supervise (moving : Bool)
  | supervisorRaises
  | write (expired : Bool)
  /-- The pending getter takes an item. -/
  | get
  | wake
  /-- The client takes the block and asks for the next one. -/
  | take
  | disconnect

namespace Stream

variable (ceiling : Int) (terminal : Block → Bool)

/-- `queue.qsize()`. -/
def qsize (state : Stream) : Int := state.queue.length

/-- Put one block; a `QueueFull` would end the reader. -/
def putBlock (state : Stream) (block : Block) (next : Reader) : Stream :=
  match putNowait (ceiling + 1) state.queue (.block block) with
  | some queue =>
      { state with queue := queue, queued := state.queued ++ [block], reader := next }
  | none => { state with reader := .raised true }

/-- The end of `_read_channel`. -/
def endReading (state : Stream) (normal : Bool) : Stream :=
  if normal then
    match putNowait (ceiling + 1) state.queue .endOfStream with
    | some queue => { state with normalEnd := true, queue := queue, reader := .returned true }
    | none => { state with normalEnd := true, reader := .raised true }
  else { state with closing := true, reader := .returned false }

/-- The writer passes through its loop to the next suspension. -/
def write (state : Stream) (expired : Bool) : Stream :=
  let draining := state.draining || state.normalEnd
  if !draining && (state.closing || state.reader.done || state.supervisor == .failed) then
    { state with writer := .ended .abnormal }
  else
    match state.queue with
    | .endOfStream :: queue =>
        { state with draining := draining, queue := queue, writer := .ended .endOfStream }
    | .block block :: queue =>
        { state with draining := draining, queue := queue, writer := .handing block }
    | [] =>
        { state with
          draining := draining
          writer := if draining && expired then .ended .drainTimeout else .waiting none }

def read (state : Stream) : StreamAction → Option Stream
  | .openFails =>
      match state.reader with
      | .opening => some (state.endReading ceiling false)
      | _ => none
  | .opens opening lease terminalAtOpen =>
      match state.reader with
      | .opening =>
          if opening.ring.isEmpty && lease == some false && !terminalAtOpen then
            some (state.endReading ceiling true)
          else
            some { state with
              opened := some opening
              reader := .replaying opening.blocks
                (terminalAtOpen || opening.replay.blocks.any terminal) opening.live }
      | _ => none
  | .putDueReplay expired =>
      match state.reader with
      | .replaying (block :: due) ends live =>
          if ceiling ≤ state.qsize then
            some (if expired then state.endReading ceiling false else state)
          else some (state.putBlock ceiling block (.replaying due ends live))
      | .replaying [] ends live =>
          some (if ends then state.endReading ceiling true
            else { state with reader := .awaiting live })
      | _ => none
  | .awaitLivePhase expired =>
      match state.reader with
      | .awaiting live =>
          if ceiling / 2 < state.qsize then
            some (if expired then state.endReading ceiling false else state)
          else some { state with reader := .live live }
      | _ => none
  | .round round =>
      match state.reader with
      | .live live =>
          some { state with
            rounds := state.rounds ++ [round]
            reader := .offering (liveRound terminal live round).1
              (liveRound terminal live round).2 }
      | _ => none
  | .offerLive =>
      match state.reader with
      | .offering (block :: due) after =>
          some (if ceiling ≤ state.qsize then state.endReading ceiling false
            else state.putBlock ceiling block (.offering due after))
      | .offering [] (.running live) => some { state with reader := .live live }
      | .offering [] (.returned normal) => some (state.endReading ceiling normal)
      | _ => none
  | .readerRaises => if state.reader.done then none else some { state with reader := .raised false }
  | _ => none

def deliver (state : Stream) : StreamAction → Option Stream
  | .write expired =>
      match state.writer with
      | .running => some (state.write expired)
      | _ => none
  | .get =>
      match state.writer, state.queue with
      | .waiting none, item :: queue =>
          some { state with queue := queue, writer := .waiting (some item) }
      | _, _ => none
  | .wake =>
      match state.writer with
      | .waiting (some .endOfStream) => some { state with writer := .ended .endOfStream }
      | .waiting (some (.block block)) => some { state with writer := .handing block }
      | .waiting none =>
          -- The getter is cancelled, and a cancelled getter takes nothing.
          if state.reader.done || state.supervisor != .running || state.closing ||
              state.normalEnd || state.draining then
            some { state with writer := .running }
          else none
      | _ => none
  | .take =>
      match state.writer with
      | .handing block =>
          some { state with received := state.received ++ [block], writer := .running }
      | _ => none
  | .disconnect =>
      match state.writer with
      | .handing _ | .waiting _ => some { state with writer := .ended .disconnected }
      | _ => none
  | _ => none

/-- One step; when the writer is over it has cancelled the other tasks. -/
def step (state : Stream) (action : StreamAction) : Option Stream :=
  if state.writer.finished then none
  else
    match action with
    | .supervise moving =>
        if state.supervisor != .running || (!state.queue.isEmpty && moving) then none
        else some { state with closing := true, supervisor := .returned }
    | .supervisorRaises =>
        if state.supervisor != .running then none
        else some { state with supervisor := .failed }
    | .write _ | .get | .wake | .take | .disconnect => state.deliver action
    | .openFails | .opens _ _ _ | .putDueReplay _ | .awaitLivePhase _ | .round _ | .offerLive
    | .readerRaises => state.read ceiling terminal action

/-- The item the writer holds and has not handed over. -/
def hand (state : Stream) : List QueueItem :=
  match state.writer with
  | .handing block => [.block block]
  | .waiting (some item) => [item]
  | _ => []

/-- The item which ends the stream is behind all blocks. -/
def sentinel (state : Stream) : List QueueItem :=
  if state.normalEnd then [.endOfStream] else []

structure Kept (state : Stream) : Prop where
  flow : state.writer.finished = false →
    state.received.map .block ++ (state.hand ++ state.queue) =
      state.queued.map .block ++ state.sentinel
  beginning : state.received <+: state.queued
  whole : state.writer = .ended .endOfStream → state.received = state.queued
  room : state.normalEnd = false → state.qsize ≤ max ceiling 0
  flag : state.normalEnd = true ↔ state.reader = .returned true
  admitted : state.reader ≠ .raised true
  drain : state.draining = true → state.normalEnd = true
  reason : ∀ reason, state.writer = .ended reason →
    reason = .endOfStream ∨ reason = .disconnected ∨ reason = .abnormal ∧ state.normalEnd = false

variable {ceiling terminal} {state after : Stream}

theorem sentinel_cases (state : Stream) : ∀ item ∈ state.sentinel, item = .endOfStream := by
  intro item listed
  rw [sentinel] at listed
  split at listed
  · exact List.mem_singleton.mp listed
  · cases listed

/-- Blocks at the head of a queue of blocks are its first ones. -/
theorem beginning_of_items {taken put : List Block} {rest ending : List QueueItem}
    (ends : ∀ item ∈ ending, item = .endOfStream)
    (same : taken.map .block ++ rest = put.map .block ++ ending) : taken <+: put := by
  induction taken generalizing put with
  | nil => exact List.nil_prefix
  | cons block taken induction =>
      cases put with
      | nil =>
          have listed : .block block ∈ ending := by
            rw [List.map_nil, List.nil_append] at same
            rw [← same]
            exact List.mem_cons_self
          cases ends _ listed
      | cons first put =>
          rw [List.map_cons, List.map_cons, List.cons_append, List.cons_append, List.cons.injEq,
            QueueItem.block.injEq] at same
          obtain ⟨rfl, same⟩ := same
          exact List.cons_prefix_cons.mpr ⟨rfl, induction same⟩

/-- The end of the stream is behind every block which was put. -/
theorem whole_of_items {taken put : List Block} {rest ending : List QueueItem}
    (ends : ∀ item ∈ ending, item = .endOfStream)
    (same : taken.map .block ++ .endOfStream :: rest = put.map .block ++ ending) : taken = put := by
  obtain ⟨more, rfl⟩ := beginning_of_items ends same
  rw [List.map_append, List.append_assoc, List.append_cancel_left_eq] at same
  cases more with
  | nil => exact (List.append_nil taken).symm
  | cons block more => cases same

theorem kept_empty : Kept ceiling {} := by
  refine ⟨fun _ => rfl, List.prefix_rfl, by simp, fun _ => ?_, by simp, by simp, by simp, by simp⟩
  exact Int.le_max_right ceiling 0

/-- A block is put below the ceiling, so there is room for it. -/
theorem putNowait_block {queue : List QueueItem} (item : QueueItem)
    (below : (queue.length : Int) < ceiling) :
    putNowait (ceiling + 1) queue item = some (queue ++ [item]) := by
  rw [putNowait, if_neg]
  omega

/-- The last place is free unless the end of the stream has been put already. -/
theorem putNowait_endOfStream {queue : List QueueItem}
    (room : (queue.length : Int) ≤ max ceiling 0) :
    putNowait (ceiling + 1) queue .endOfStream = some (queue ++ [.endOfStream]) := by
  rw [putNowait, if_neg]
  omega

theorem Kept.unflagged (kept : Kept ceiling state) (busy : state.reader.done = false) :
    state.normalEnd = false := by
  refine Bool.eq_false_iff.mpr fun set => ?_
  rw [kept.flag.mp set] at busy
  cases busy

/-- Steps of the reader and of the supervisor which put nothing. -/
theorem Kept.stay (kept : Kept ceiling state) {reader : Reader} {supervisor : Supervisor}
    {closing : Bool} {opened : Option Opening} {rounds : List Round}
    (moves : reader = state.reader ∨
      state.reader.done = false ∧ reader ≠ .returned true ∧ reader ≠ .raised true) :
    Kept ceiling { state with
      reader := reader, supervisor := supervisor, closing := closing, opened := opened
      rounds := rounds } where
  flow := kept.flow
  beginning := kept.beginning
  whole := kept.whole
  room := kept.room
  flag := by
    rcases moves with rfl | ⟨busy, proceeds, -⟩
    · exact kept.flag
    · have unset := kept.unflagged busy
      simp [unset, proceeds]
  admitted := by
    rcases moves with rfl | ⟨-, -, fits⟩
    · exact kept.admitted
    · exact fits
  drain := kept.drain
  reason := kept.reason

theorem Kept.putBlock (kept : Kept ceiling state) {block : Block} {next : Reader}
    (active : state.writer.finished = false) (busy : state.reader.done = false)
    (below : state.qsize < ceiling) (proceeds : next.done = false) :
    Kept ceiling (state.putBlock ceiling block next) := by
  have unset := kept.unflagged busy
  have flow := kept.flow active
  rw [Stream.putBlock, putNowait_block _ below]
  simp only [sentinel, unset, Bool.false_eq_true, if_false, List.append_nil] at flow
  refine ⟨fun _ => ?_, ?_, ?_, fun _ => ?_, ?_, ?_, kept.drain, kept.reason⟩
  · simp only [sentinel, unset, Bool.false_eq_true, if_false, List.append_nil, List.map_append,
      List.map_singleton, ← flow, List.append_assoc]
    rfl
  · exact kept.beginning.trans (List.prefix_append _ _)
  · intro is_over
    have is_over : state.writer = .ended .endOfStream := is_over
    rw [is_over] at active
    cases active
  · simp only [qsize, List.length_append, List.length_singleton] at below ⊢
    omega
  · simp only [unset, Bool.false_eq_true, false_iff]
    rintro rfl
    cases proceeds
  · rintro rfl
    cases proceeds

theorem Kept.endReading (kept : Kept ceiling state) (active : state.writer.finished = false)
    (busy : state.reader.done = false) (normal : Bool) :
    Kept ceiling (state.endReading ceiling normal) := by
  cases normal with
  | false => exact kept.stay (.inr ⟨busy, by simp, by simp⟩)
  | true =>
      have unset := kept.unflagged busy
      have flow := kept.flow active
      rw [Stream.endReading, if_pos rfl, putNowait_endOfStream (kept.room unset)]
      simp only [sentinel, unset, Bool.false_eq_true, if_false, List.append_nil] at flow
      refine ⟨fun _ => ?_, kept.beginning, kept.whole, by simp, by simp, by simp, by simp, ?_⟩
      · simp only [sentinel, if_true, ← flow, List.append_assoc]
        rfl
      · intro reason is_over
        have is_over : state.writer = .ended reason := is_over
        rw [is_over] at active
        cases active

theorem Kept.write (kept : Kept ceiling state) (is_running : state.writer = .running)
    (expired : Bool) : Kept ceiling (state.write expired) := by
  have flow := kept.flow (by rw [is_running]; rfl)
  rw [hand, is_running, List.nil_append] at flow
  have draining (set : (state.draining || state.normalEnd) = true) : state.normalEnd = true := by
    rcases (Bool.or_eq_true _ _).mp set with before | now
    · exact kept.drain before
    · exact now
  rw [Stream.write]
  split
  next gives_up =>
    refine ⟨by simp [Writer.finished], kept.beginning, by simp, kept.room, kept.flag, kept.admitted,
      kept.drain, ?_⟩
    rintro reason ⟨⟩
    simp only [Bool.and_eq_true, Bool.not_eq_true', Bool.or_eq_false_iff] at gives_up
    exact .inr (.inr ⟨rfl, gives_up.1.2⟩)
  · split
    next queue items =>
      rw [items] at flow
      have all := whole_of_items state.sentinel_cases flow
      refine ⟨by simp [Writer.finished], kept.beginning, fun _ => all, fun unset => ?_, kept.flag,
        kept.admitted, draining, by simp⟩
      have room := kept.room unset
      simp only [qsize, items, List.length_cons] at room ⊢
      omega
    next block queue items =>
      rw [items] at flow
      refine ⟨fun _ => flow, kept.beginning, by simp, fun unset => ?_, kept.flag, kept.admitted,
        draining, by simp⟩
      have room := kept.room unset
      simp only [qsize, items, List.length_cons] at room ⊢
      omega
    next items =>
      rw [items, List.append_nil] at flow
      have waits : (if (state.draining || state.normalEnd) && expired then
          Writer.ended .drainTimeout else .waiting none) = .waiting none := by
        refine if_neg fun timed_out => ?_
        -- The end of the stream was put with the flag and cannot be gone.
        have set := draining ((Bool.and_eq_true _ _).mp timed_out).1
        rw [sentinel, if_pos set] at flow
        have listed : QueueItem.endOfStream ∈ state.received.map .block := by
          rw [flow]
          simp
        simp at listed
      simp only [waits]
      refine ⟨fun _ => ?_, kept.beginning, by simp, kept.room, kept.flag, kept.admitted,
        draining, by simp⟩
      simp only [hand, items, List.append_nil]
      exact flow

theorem Kept.pass (kept : Kept ceiling state) {writer : Writer} {queue : List QueueItem}
    (active : state.writer.finished = false) (proceeds : writer.finished = false)
    (shorter : queue.length ≤ state.queue.length)
    (same : hand { state with writer := writer, queue := queue } ++ queue =
      state.hand ++ state.queue) :
    Kept ceiling { state with writer := writer, queue := queue } := by
  have ends {reason : EndReason} (is_over : writer = .ended reason) : False := by
    rw [is_over] at proceeds
    cases proceeds
  refine ⟨fun _ => ?_, kept.beginning, fun is_over => (ends is_over).elim, fun unset => ?_,
    kept.flag, kept.admitted, kept.drain, fun reason is_over => (ends is_over).elim⟩
  · rw [same]
    exact kept.flow active
  · have room := kept.room unset
    simp only [qsize] at room ⊢
    omega

theorem Kept.endOfStream (kept : Kept ceiling state)
    (is_waiting : state.writer = .waiting (some .endOfStream)) :
    Kept ceiling { state with writer := .ended .endOfStream } := by
  have flow := kept.flow (by rw [is_waiting]; rfl)
  rw [hand, is_waiting] at flow
  have all := whole_of_items state.sentinel_cases flow
  exact ⟨by simp [Writer.finished], kept.beginning, fun _ => all, kept.room, kept.flag,
    kept.admitted, kept.drain, by simp⟩

theorem Kept.take (kept : Kept ceiling state) {block : Block}
    (is_handing : state.writer = .handing block) :
    Kept ceiling { state with received := state.received ++ [block], writer := .running } := by
  have flow := kept.flow (by rw [is_handing]; rfl)
  rw [hand, is_handing] at flow
  have grown : (state.received ++ [block]).map .block ++ state.queue =
      state.queued.map .block ++ state.sentinel := by
    rw [List.map_append, List.append_assoc]
    exact flow
  exact ⟨fun _ => grown, beginning_of_items state.sentinel_cases grown, by simp, kept.room,
    kept.flag, kept.admitted, kept.drain, by simp⟩

theorem Kept.disconnect (kept : Kept ceiling state) :
    Kept ceiling { state with writer := .ended .disconnected } :=
  ⟨by simp [Writer.finished], kept.beginning, by simp, kept.room, kept.flag, kept.admitted,
    kept.drain, by simp⟩

theorem Kept.read (kept : Kept ceiling state) (active : state.writer.finished = false)
    {action : StreamAction} (stepped : state.read ceiling terminal action = some after) :
    Kept ceiling after := by
  cases action with
  | openFails =>
      rw [Stream.read] at stepped
      split at stepped
      next is_opening =>
        cases stepped
        exact kept.endReading active (by rw [is_opening]; rfl) false
      · cases stepped
  | opens opening lease terminalAtOpen =>
      rw [Stream.read] at stepped
      split at stepped
      next is_opening =>
        have busy : state.reader.done = false := by
          rw [is_opening]
          rfl
        split at stepped
        · cases stepped
          exact kept.endReading active busy true
        · cases stepped
          exact kept.stay (.inr ⟨busy, by simp, by simp⟩)
      · cases stepped
  | putDueReplay expired =>
      rw [Stream.read] at stepped
      split at stepped
      next block due ends live is_replaying =>
        have busy : state.reader.done = false := by
          rw [is_replaying]
          rfl
        split at stepped
        · cases stepped
          split
          · exact kept.endReading active busy false
          · exact kept
        next below =>
          cases stepped
          exact kept.putBlock active busy (Int.not_le.mp below) rfl
      next ends live is_replaying =>
        have busy : state.reader.done = false := by
          rw [is_replaying]
          rfl
        cases stepped
        split
        · exact kept.endReading active busy true
        · exact kept.stay (.inr ⟨busy, by simp, by simp⟩)
      · cases stepped
  | awaitLivePhase expired =>
      rw [Stream.read] at stepped
      split at stepped
      next live is_awaiting =>
        have busy : state.reader.done = false := by
          rw [is_awaiting]
          rfl
        split at stepped
        · cases stepped
          split
          · exact kept.endReading active busy false
          · exact kept
        · cases stepped
          exact kept.stay (.inr ⟨busy, by simp, by simp⟩)
      · cases stepped
  | round round =>
      rw [Stream.read] at stepped
      split at stepped
      next live is_live =>
        cases stepped
        exact kept.stay (.inr ⟨by rw [is_live]; rfl, by simp, by simp⟩)
      · cases stepped
  | offerLive =>
      rw [Stream.read] at stepped
      split at stepped
      next block due after is_offering =>
        have busy : state.reader.done = false := by
          rw [is_offering]
          rfl
        cases stepped
        split
        · exact kept.endReading active busy false
        next below => exact kept.putBlock active busy (Int.not_le.mp below) rfl
      next live is_offering =>
        cases stepped
        exact kept.stay (.inr ⟨by rw [is_offering]; rfl, by simp, by simp⟩)
      next normal is_offering =>
        cases stepped
        exact kept.endReading active (by rw [is_offering]; rfl) normal
      · cases stepped
  | readerRaises =>
      rw [Stream.read] at stepped
      split at stepped
      · cases stepped
      next busy =>
        cases stepped
        exact kept.stay (.inr ⟨Bool.eq_false_iff.mpr busy, by simp, by simp⟩)
  | _ => cases stepped

theorem Kept.deliver (kept : Kept ceiling state) {action : StreamAction}
    (stepped : state.deliver action = some after) : Kept ceiling after := by
  cases action with
  | write expired =>
      rw [Stream.deliver] at stepped
      split at stepped
      next is_running =>
        cases stepped
        exact kept.write is_running expired
      · cases stepped
  | get =>
      rw [Stream.deliver] at stepped
      split at stepped
      next item queue is_waiting items =>
        cases stepped
        refine kept.pass (by rw [is_waiting]; rfl) rfl ?_ ?_
        · rw [items]
          exact Nat.le_succ _
        · simp only [hand, is_waiting, items]
          rfl
      · cases stepped
  | wake =>
      rw [Stream.deliver] at stepped
      split at stepped
      next is_waiting =>
        cases stepped
        exact kept.endOfStream is_waiting
      next block is_waiting =>
        cases stepped
        refine kept.pass (by rw [is_waiting]; rfl) rfl le_rfl ?_
        simp only [hand, is_waiting]
      next is_waiting =>
        split at stepped
        · cases stepped
          refine kept.pass (by rw [is_waiting]; rfl) rfl le_rfl ?_
          simp only [hand, is_waiting]
        · cases stepped
      · cases stepped
  | take =>
      rw [Stream.deliver] at stepped
      split at stepped
      next block is_handing =>
        cases stepped
        exact kept.take is_handing
      · cases stepped
  | disconnect =>
      rw [Stream.deliver] at stepped
      split at stepped
      · cases stepped
        exact kept.disconnect
      · cases stepped
        exact kept.disconnect
      · cases stepped
  | _ => cases stepped

theorem Kept.step (kept : Kept ceiling state) {action : StreamAction}
    (stepped : Stream.step ceiling terminal state action = some after) : Kept ceiling after := by
  unfold Stream.step at stepped
  split at stepped
  · cases stepped
  next goes_on =>
    have active : state.writer.finished = false := Bool.eq_false_iff.mpr goes_on
    cases action with
    | supervise moving =>
        simp only at stepped
        split at stepped
        · cases stepped
        · cases stepped
          exact kept.stay (.inl rfl)
    | supervisorRaises =>
        simp only at stepped
        split at stepped
        · cases stepped
        · cases stepped
          exact kept.stay (.inl rfl)
    | write expired => exact kept.deliver stepped
    | get => exact kept.deliver stepped
    | wake => exact kept.deliver stepped
    | take => exact kept.deliver stepped
    | disconnect => exact kept.deliver stepped
    | _ => exact kept.read active stepped

/-- Every step is taken where it is possible. -/
def Anything (_ : Stream) (_ : StreamAction) : Prop := True

instance : ∀ state action, Decidable (Anything state action) := fun _ _ => .isTrue trivial

theorem kept_of_reachable (reached : Reachable (step ceiling terminal) Anything {} state) :
    Kept ceiling state :=
  reached.invariant (Kept ceiling) kept_empty fun _ _ _ kept _ stepped => kept.step stepped

theorem step_write (ceiling : Int) (terminal : Block → Bool)
    (is_running : state.writer = .running) (expired : Bool) :
    step ceiling terminal state (.write expired) = some (state.write expired) := by
  have active : ¬state.writer.finished = true := by simp [is_running, Writer.finished]
  simp only [step, deliver, if_neg active]
  rw [is_running]

theorem step_take {block : Block} (is_handing : state.writer = .handing block) :
    step ceiling terminal state .take =
      some { state with received := state.received ++ [block], writer := .running } := by
  have active : ¬state.writer.finished = true := by simp [is_handing, Writer.finished]
  simp only [step, deliver, if_neg active]
  rw [is_handing]

theorem Kept.empties (kept : Kept ceiling state) (set : state.normalEnd = true)
    (is_running : state.writer = .running) :
    ∃ after, Reachable (Stream.step ceiling terminal) Anything state after ∧
      after.writer = .ended .endOfStream ∧ after.queued = state.queued := by
  induction items : state.queue generalizing state with
  | nil =>
      -- The end of the stream would be missing.
      have flow := kept.flow (by rw [is_running]; rfl)
      rw [hand, is_running, items, sentinel, if_pos set] at flow
      have listed : QueueItem.endOfStream ∈ state.received.map .block ++ ([] ++ []) := by
        rw [flow]
        simp
      simp at listed
  | cons item queue induction =>
      have stepped := step_write ceiling terminal is_running false
      have written := kept.write is_running false
      cases item with
      | endOfStream =>
          refine ⟨_, .next .start trivial stepped, ?_⟩
          simp [Stream.write, set, items]
      | block block =>
          have handing : state.write false =
              { state with draining := true, queue := queue, writer := .handing block } := by
            simp [Stream.write, set, items]
          rw [handing] at stepped written
          obtain ⟨after, reached, ended, queued⟩ :=
            induction (written.take rfl) set rfl rfl
          refine ⟨after, ?_, ended, queued⟩
          exact ((Reachable.start.next trivial stepped).next trivial (step_take rfl)).trans reached

/-- Behind a normal end the client may take all which was queued. -/
theorem Kept.drains (kept : Kept ceiling state) (set : state.normalEnd = true)
    (active : state.writer.finished = false) :
    ∃ after, Reachable (Stream.step ceiling terminal) Anything state after ∧
      after.writer = .ended .endOfStream ∧ after.queued = state.queued := by
  cases is_writer : state.writer with
  | running => exact kept.empties set is_writer
  | handing block =>
      obtain ⟨after, reached, ended⟩ := (kept.take is_writer).empties set rfl
      exact ⟨after, (Reachable.start.next trivial (step_take is_writer)).trans reached, ended⟩
  | ended reason =>
      rw [is_writer] at active
      cases active
  | waiting getter =>
      have wakes (next : Stream) (woken : state.deliver .wake = some next) :
          state.step ceiling terminal .wake = some next := by
        simp only [Stream.step, active]
        exact woken
      cases getter with
      | none =>
          have stepped := wakes { state with writer := .running } (by
            simp [Stream.deliver, is_writer, set])
          obtain ⟨after, reached, ended⟩ := (kept.step stepped).empties set rfl
          exact ⟨after, (Reachable.start.next trivial stepped).trans reached, ended⟩
      | some item =>
          cases item with
          | endOfStream =>
              have stepped := wakes { state with writer := .ended .endOfStream } (by
                simp [Stream.deliver, is_writer])
              exact ⟨_, .next .start trivial stepped, rfl, rfl⟩
          | block block =>
              have stepped := wakes { state with writer := .handing block } (by
                simp [Stream.deliver, is_writer])
              obtain ⟨after, reached, ended⟩ := ((kept.step stepped).take rfl).empties set rfl
              exact ⟨after, ((Reachable.start.next trivial stepped).next trivial
                (step_take rfl)).trans reached, ended⟩

/-- The queue under any interleaving, any ceiling and any client: what the client has taken is the
beginning of what the reader has queued, and all of it when the writer meets the end of the stream.
Behind a normal end of the reader nothing else ends the stream but the client, which may take all
of it.  The end of the stream always finds a place. -/
theorem queue_protocol (ceiling : Int) (terminal : Block → Bool)
    (reached : Reachable (step ceiling terminal) Anything {} state) :
    state.received <+: state.queued ∧
      (state.writer = .ended .endOfStream → state.received = state.queued) ∧
      (state.reader = .returned true →
        (∀ reason, state.writer = .ended reason →
          reason = .endOfStream ∨ reason = .disconnected) ∧
        (state.writer.finished = false →
          ∃ after, Reachable (step ceiling terminal) Anything state after ∧
            after.writer = .ended .endOfStream ∧ after.received = state.queued)) ∧
      state.reader ≠ .raised true ∧
      (state.reader.done = false →
        putNowait (ceiling + 1) state.queue .endOfStream ≠ none) := by
  have kept := kept_of_reachable reached
  refine ⟨kept.beginning, kept.whole, fun is_returned => ⟨?_, ?_⟩, kept.admitted, ?_⟩
  · intro reason is_over
    have set := kept.flag.mpr is_returned
    rcases kept.reason reason is_over with ends | leaves | ⟨-, unset⟩
    · exact .inl ends
    · exact .inr leaves
    · rw [set] at unset
      cases unset
  · intro active
    obtain ⟨after, continued, ended, queued⟩ := kept.drains (kept.flag.mpr is_returned) active
    have all := (kept_of_reachable (reached.trans continued)).whole ended
    exact ⟨after, continued, ended, all.trans queued⟩
  · intro busy
    rw [putNowait_endOfStream (kept.room (kept.unflagged busy))]
    exact Option.some_ne_none _

/-- A replay of two blocks through a queue of one place, and a terminal event at its end. -/
def slowReplay : List StreamAction :=
  [.opens ⟨{}, some "e", 2, [⟨"e", 1, []⟩, ⟨"e", 2, []⟩]⟩ (some true) true, .write false,
    .putDueReplay false, .putDueReplay false, .get, .putDueReplay false, .wake, .putDueReplay false,
    .take, .write false, .take, .write false]

theorem slowReplay_protocol :
    ∃ state, Reachable (step 1 fun _ => false) Anything {} state ∧
      state.writer = .ended .endOfStream ∧ state.received.length = 2 ∧
      state.received = state.queued := by
  obtain ⟨state, reached, tested⟩ := reachable_of_any (step 1 fun _ => false) Anything {}
    (fun state => decide (state.writer = .ended .endOfStream ∧ state.received.length = 2))
    slowReplay (by decide)
  obtain ⟨ended, two⟩ := of_decide_eq_true tested
  exact ⟨state, reached, ended, two, (queue_protocol 1 (fun _ => false) reached).2.1 ended⟩

end Stream

theorem classifyLive_concat (terminal : Block → Bool) (round : Round) {rounds : List Round}
    {start live : LiveState} (running : (classifyLive terminal start rounds).2 = .running live) :
    classifyLive terminal start (rounds ++ [round]) =
      ((classifyLive terminal start rounds).1 ++ (liveRound terminal live round).1,
        (liveRound terminal live round).2) := by
  induction rounds generalizing start with
  | nil =>
      cases running
      rw [List.nil_append, classifyLive]
      cases result : liveRound terminal live round with
      | mk blocks progress => cases progress <;> simp [classifyLive, result]
  | cons first rounds induction =>
      rw [List.cons_append, classifyLive]
      rw [classifyLive] at running ⊢
      cases result : liveRound terminal start first with
      | mk blocks progress =>
          rw [result] at running
          cases progress with
          | returned normal => cases running
          | running after =>
              simp only at running ⊢
              rw [induction running, List.append_assoc]

/-- The classified blocks the reader has not put yet. -/
def Reader.due : Reader → List Block
  | .replaying due _ _ | .offering due _ => due
  | _ => []

/-- How the live phase stands, or will begin. -/
def Reader.progress : Reader → Option Progress
  | .replaying _ _ state | .awaiting state | .live state => some (.running state)
  | .offering _ after => some after
  | _ => none

namespace Stream

variable (terminal : Block → Bool) {ceiling : Int} {state after : Stream}

/-- All the reader owes the client after what it has read. -/
def owed (state : Stream) : List Block :=
  match state.opened with
  | none => []
  | some opening => opening.emission terminal state.rounds

/-- The reader puts what it owes, in order, unless it gives up. -/
structure Emits (state : Stream) : Prop where
  beginning : state.queued <+: state.owed terminal
  exact : state.reader.done = false ∨ state.reader = .returned true →
    state.queued ++ state.reader.due = state.owed terminal
  unopened : state.reader = .opening → state.opened = none ∧ state.rounds = []
  progress : ∀ progress, state.reader.progress = some progress →
    ∃ opening, state.opened = some opening ∧
      (classifyLive terminal opening.live state.rounds).2 = progress

variable {terminal}

theorem emits_empty : Emits terminal {} :=
  ⟨List.prefix_rfl, fun _ => rfl, fun _ => ⟨rfl, rfl⟩, by simp [Reader.progress]⟩

theorem Emits.other (emits : Emits terminal state) {queue : List QueueItem} {writer : Writer}
    {supervisor : Supervisor} {closing draining : Bool} {received : List Block} :
    Emits terminal { state with
      queue := queue, writer := writer, supervisor := supervisor, closing := closing
      draining := draining, received := received } :=
  ⟨emits.beginning, emits.exact, emits.unopened, emits.progress⟩

theorem Emits.finish (emits : Emits terminal state) {reader : Reader} {queue : List QueueItem}
    {normalEnd closing : Bool} (silent : reader.progress = none) (done : reader.done = true)
    (nothing : reader = .returned true → state.reader.done = false ∧ state.reader.due = []) :
    Emits terminal { state with
      reader := reader, queue := queue, normalEnd := normalEnd, closing := closing } where
  beginning := emits.beginning
  exact ends := by
    rcases ends with busy | normal
    · rw [done] at busy
      cases busy
    · obtain ⟨busy, empty⟩ := nothing normal
      have exact := emits.exact (.inl busy)
      rw [empty] at exact
      rw [show reader = .returned true from normal]
      exact exact
  unopened is_opening := by
    rw [show reader = .opening from is_opening] at done
    cases done
  progress progress is_progress := by
    rw [show reader.progress = some progress from is_progress] at silent
    cases silent

theorem Emits.endReading (emits : Emits terminal state) {normal : Bool}
    (nothing : normal = true → state.reader.done = false ∧ state.reader.due = []) :
    Emits terminal (state.endReading ceiling normal) := by
  rw [Stream.endReading]
  split
  next is_normal =>
    split
    · exact emits.finish rfl rfl fun _ => nothing is_normal
    · exact emits.finish rfl rfl (by simp)
  · exact emits.finish rfl rfl (by simp)

theorem Emits.putBlock (emits : Emits terminal state) {block : Block} {next : Reader}
    (busy : state.reader.done = false) (due : state.reader.due = block :: next.due)
    (same : next.progress = state.reader.progress) (opens : next ≠ .opening) :
    Emits terminal (state.putBlock ceiling block next) := by
  have exact := emits.exact (.inl busy)
  rw [due] at exact
  rw [Stream.putBlock]
  split
  · refine ⟨⟨next.due, ?_⟩, fun _ => ?_, fun is_opening => (opens is_opening).elim, ?_⟩
    · rw [List.append_assoc]
      exact exact
    · rw [List.append_assoc]
      exact exact
    · intro progress is_progress
      exact emits.progress progress (same ▸ is_progress)
  · exact emits.finish rfl rfl (by simp)

theorem Emits.proceed (emits : Emits terminal state) {reader : Reader}
    (busy : state.reader.done = false) (due : reader.due = state.reader.due)
    (opens : reader ≠ .opening) (same : reader.progress = state.reader.progress) :
    Emits terminal { state with reader := reader } where
  beginning := emits.beginning
  exact _ := by
    rw [due]
    exact emits.exact (.inl busy)
  unopened is_opening := (opens is_opening).elim
  progress progress is_progress := emits.progress progress (same ▸ is_progress)

theorem Emits.open (emits : Emits terminal state) (is_opening : state.reader = .opening)
    (opening : Opening) (ends : Bool) :
    Emits terminal { state with
      opened := some opening, reader := .replaying opening.blocks ends opening.live } := by
  obtain ⟨opened, rounds⟩ := emits.unopened is_opening
  have exact := emits.exact (.inl (by rw [is_opening]; rfl))
  rw [is_opening, owed, opened] at exact
  have nothing : state.queued = [] := (List.append_eq_nil_iff.mp exact).1
  have owes : opening.emission terminal state.rounds = opening.blocks := by
    rw [rounds, Opening.emission, classifyLive, List.append_nil]
  refine ⟨?_, fun _ => ?_, by simp, ?_⟩
  · rw [nothing]
    exact List.nil_prefix
  · simp only [Reader.due, owed, nothing, owes, List.nil_append]
  · rintro progress ⟨⟩
    exact ⟨opening, rfl, by rw [rounds]; rfl⟩

theorem Emits.round (emits : Emits terminal state) {live : LiveState}
    (is_live : state.reader = .live live) (round : Round) :
    Emits terminal { state with
      rounds := state.rounds ++ [round]
      reader :=
        .offering (liveRound terminal live round).1 (liveRound terminal live round).2 } := by
  obtain ⟨opening, opened, running⟩ := emits.progress (.running live) (by rw [is_live]; rfl)
  have exact := emits.exact (.inl (by rw [is_live]; rfl))
  have concat := classifyLive_concat terminal round running
  have nothing : state.reader.due = [] := by
    rw [is_live]
    rfl
  rw [nothing, List.append_nil, owed, opened] at exact
  have owes : opening.emission terminal (state.rounds ++ [round]) =
      state.queued ++ (liveRound terminal live round).1 := by
    rw [exact]
    simp only [Opening.emission, concat, List.append_assoc]
  refine ⟨?_, fun _ => ?_, by simp, ?_⟩
  · simp only [owed, opened, owes]
    exact List.prefix_append _ _
  · simp only [Reader.due, owed, opened, owes]
  · rintro progress ⟨⟩
    exact ⟨opening, opened, by rw [concat]⟩

theorem Emits.read (emits : Emits terminal state) {action : StreamAction}
    (stepped : state.read ceiling terminal action = some after) : Emits terminal after := by
  cases action with
  | openFails =>
      rw [Stream.read] at stepped
      split at stepped
      · cases stepped
        exact emits.endReading (by simp)
      · cases stepped
  | opens opening lease terminalAtOpen =>
      rw [Stream.read] at stepped
      split at stepped
      next is_opening =>
        split at stepped
        · cases stepped
          exact emits.endReading fun _ => by rw [is_opening]; exact ⟨rfl, rfl⟩
        · cases stepped
          exact emits.open is_opening opening _
      · cases stepped
  | putDueReplay expired =>
      rw [Stream.read] at stepped
      split at stepped
      next block due ends live is_replaying =>
        split at stepped
        · cases stepped
          split
          · exact emits.endReading (by simp)
          · exact emits
        · cases stepped
          exact emits.putBlock (by rw [is_replaying]; rfl) (by rw [is_replaying]; rfl)
            (by rw [is_replaying]; rfl) (by simp)
      next ends live is_replaying =>
        cases stepped
        split
        · exact emits.endReading fun _ => by rw [is_replaying]; exact ⟨rfl, rfl⟩
        · exact emits.proceed (by rw [is_replaying]; rfl) (by rw [is_replaying]; rfl) (by simp)
            (by rw [is_replaying]; rfl)
      · cases stepped
  | awaitLivePhase expired =>
      rw [Stream.read] at stepped
      split at stepped
      next live is_awaiting =>
        split at stepped
        · cases stepped
          split
          · exact emits.endReading (by simp)
          · exact emits
        · cases stepped
          exact emits.proceed (by rw [is_awaiting]; rfl) (by rw [is_awaiting]; rfl) (by simp)
            (by rw [is_awaiting]; rfl)
      · cases stepped
  | round round =>
      rw [Stream.read] at stepped
      split at stepped
      next live is_live =>
        cases stepped
        exact emits.round is_live round
      · cases stepped
  | offerLive =>
      rw [Stream.read] at stepped
      split at stepped
      next block due after is_offering =>
        cases stepped
        split
        · exact emits.endReading (by simp)
        · exact emits.putBlock (by rw [is_offering]; rfl) (by rw [is_offering]; rfl)
            (by rw [is_offering]; rfl) (by simp)
      next live is_offering =>
        cases stepped
        exact emits.proceed (by rw [is_offering]; rfl) (by rw [is_offering]; rfl) (by simp)
          (by rw [is_offering]; rfl)
      next normal is_offering =>
        cases stepped
        exact emits.endReading fun _ => by rw [is_offering]; exact ⟨rfl, rfl⟩
      · cases stepped
  | readerRaises =>
      rw [Stream.read] at stepped
      split at stepped
      · cases stepped
      · cases stepped
        exact emits.finish rfl rfl (by simp)
  | _ => cases stepped

theorem Emits.write (emits : Emits terminal state) (expired : Bool) :
    Emits terminal (state.write expired) := by
  rw [Stream.write]
  split
  · exact emits.other
  · split <;> exact emits.other

theorem Emits.deliver (emits : Emits terminal state) {action : StreamAction}
    (stepped : state.deliver action = some after) : Emits terminal after := by
  cases action with
  | write expired =>
      rw [Stream.deliver] at stepped
      split at stepped
      · cases stepped
        exact emits.write expired
      · cases stepped
  | get =>
      rw [Stream.deliver] at stepped
      split at stepped
      · cases stepped
        exact emits.other
      · cases stepped
  | wake =>
      rw [Stream.deliver] at stepped
      split at stepped
      · cases stepped
        exact emits.other
      · cases stepped
        exact emits.other
      · split at stepped
        · cases stepped
          exact emits.other
        · cases stepped
      · cases stepped
  | take =>
      rw [Stream.deliver] at stepped
      split at stepped
      · cases stepped
        exact emits.other
      · cases stepped
  | disconnect =>
      rw [Stream.deliver] at stepped
      split at stepped
      · cases stepped
        exact emits.other
      · cases stepped
        exact emits.other
      · cases stepped
  | _ => cases stepped

theorem Emits.step (emits : Emits terminal state) {action : StreamAction}
    (stepped : Stream.step ceiling terminal state action = some after) : Emits terminal after := by
  unfold Stream.step at stepped
  split at stepped
  · cases stepped
  · cases action with
    | supervise moving =>
        simp only at stepped
        split at stepped
        · cases stepped
        · cases stepped
          exact emits.other
    | supervisorRaises =>
        simp only at stepped
        split at stepped
        · cases stepped
        · cases stepped
          exact emits.other
    | write expired => exact emits.deliver stepped
    | get => exact emits.deliver stepped
    | wake => exact emits.deliver stepped
    | take => exact emits.deliver stepped
    | disconnect => exact emits.deliver stepped
    | _ => exact emits.read stepped

/-- The client takes the beginning of what the reader makes of the ring and the channel, and all of
it when the stream ends normally. -/
theorem received_owed (reached : Reachable (step ceiling terminal) Anything {} state) :
    state.received <+: state.owed terminal ∧
      (state.reader = .returned true → state.writer = .ended .endOfStream →
        state.received = state.owed terminal) := by
  have kept := kept_of_reachable reached
  have emits : Emits terminal state := reached.invariant (Emits terminal) emits_empty
    fun _ _ _ emits _ stepped => emits.step stepped
  refine ⟨kept.beginning.trans emits.beginning, fun is_returned ended => ?_⟩
  have nothing : state.reader.due = [] := by
    rw [is_returned]
    rfl
  have exact := emits.exact (.inr is_returned)
  rw [nothing, List.append_nil] at exact
  rw [kept.whole ended]
  exact exact

end Stream

end Hermes.AgentProxy.Broker
