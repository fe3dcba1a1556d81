import Hermes.AgentProxy.Broker.Cursor

/-!
# What a client stream sends

The reader of a stream judges the client's cursor, replays the ring above it and then classifies
the messages of the live channel, one branch for each message.  A `run.truncated` marker tells the
client that its transcript has a gap.
-/

namespace Hermes.AgentProxy.Broker

abbrev Bytes := List UInt8

/-- One element of the ring, and one message of the channel. -/
structure RingEvent where
  epoch : String
  seq : Int
  data : Bytes
  deriving DecidableEq, Repr

inductive Block
  /-- `sse_block`. -/
  | event (epoch : String) (seq : Int) (data : Bytes)
  /-- `truncation_marker`. -/
  | marker (epoch : String) (seq fromSeq : Int)
  deriving DecidableEq, Repr

/-- The block is a `run.truncated` marker. -/
def Block.isMarker : Block → Bool
  | .event .. => false
  | .marker .. => true

def Block.epoch : Block → String
  | .event epoch _ _ => epoch
  | .marker epoch _ _ => epoch

def Block.seq : Block → Int
  | .event _ seq _ => seq
  | .marker _ seq _ => seq

def Block.id (block : Block) : String := eventId block.epoch block.seq

def RingEvent.block (event : RingEvent) : Block := .event event.epoch event.seq event.data

structure CursorVerdict where
  filterSeq : Int
  announceGap : Bool
  deriving DecidableEq, Repr

/-- `_cursor_verdict`, with the counter it reads unless the cursor is empty. -/
def cursorVerdict (cursor : Cursor) (epoch : Option String) (current : Int) : CursorVerdict :=
  if cursor.empty then ⟨0, false⟩
  else if current < cursor.seq then ⟨0, true⟩
  else
    match epoch with
    | none => ⟨0, true⟩
    | some generation =>
        match cursor.epoch with
        | none => ⟨cursor.seq, true⟩
        | some claimed => if claimed ≠ generation then ⟨0, true⟩ else ⟨cursor.seq, false⟩

/-- `_Replay`. -/
structure Replay where
  blocks : List Block := []
  firstSeq : Int := 0
  minSeq : Int := 0
  maxSeq : Int := 0
  deriving Repr

/-- `epoch or generation`. -/
def epochOr (epoch generation : String) : String := if epoch = "" then generation else epoch

/-- `_replay_blocks`. -/
def replayBlocks (ring : List RingEvent) (filterSeq : Int) (generation : String)
    (gapAnnounced : Bool) : Replay :=
  match ring.filter fun event => decide (filterSeq < event.seq) with
  | [] => {}
  | first :: later =>
      { blocks :=
          (if filterSeq + 1 < first.seq ∧ gapAnnounced = false then
            [.marker (epochOr first.epoch generation) (max filterSeq 0) first.seq]
          else []) ++
          (first :: later).map fun event =>
            .event (epochOr event.epoch generation) event.seq event.data
        firstSeq := first.seq
        minSeq := later.foldl (fun least event => min least event.seq) first.seq
        maxSeq := later.foldl (fun most event => max most event.seq) first.seq }

/-- `epoch or (ring[-1].epoch if ring else "")`. -/
def openGeneration (epoch : Option String) (ring : List RingEvent) : String :=
  epochOr (epoch.getD "") ((ring.getLast?.map (·.epoch)).getD "")

/-- What `_classify_live` keeps between messages. -/
structure LiveState where
  generation : String
  delivered : Int
  arrived : Int := 0
  replayMinSeq : Int
  filterSeq : Int
  pendingGap : Bool
  holeAnnounced : Bool := false
  deriving DecidableEq, Repr

/-- The marker of the branch a message takes, if it gives one, whether the message is delivered,
and the state in which it is. -/
structure Branch where
  marker : Option Block := none
  deliver : Bool := true
  state : LiveState

/-- The numbering starts over: under a new generation, or with a counter which went back. -/
def restart (state : LiveState) (event : RingEvent) : Branch where
  marker := some (.marker event.epoch 0 event.seq)
  state := { state with generation := event.epoch, delivered := 0, replayMinSeq := 0 }

/-- The branch of a message of the current numbering which arrives in order. -/
def inOrder (state : LiveState) (event : RingEvent) : Branch :=
  if state.delivered < event.seq then
    { marker :=
        if 0 < state.delivered ∧ state.delivered + 1 < event.seq then
          some (.marker event.epoch 0 event.seq)
        else none
      state := state }
  else if event.seq < state.replayMinSeq then
    -- A hole below the replay, announced once.
    { marker := if state.holeAnnounced then none else some (.marker event.epoch 0 event.seq)
      state := { state with holeAnnounced := true } }
  else { deliver := false, state := state }

def classify (state : LiveState) (event : RingEvent) : Branch :=
  if state.generation = "" then
    -- The session adopts the first generation it sees.
    { marker := if state.pendingGap then some (.marker event.epoch 0 0) else none
      state := { state with generation := event.epoch, pendingGap := false } }
  else if event.epoch ≠ state.generation then restart state event
  else if event.seq ≤ state.arrived then restart state event
  else inOrder state event

/-- Classify a message: the blocks to offer, and the state afterwards. -/
def classifyEvent (state : LiveState) (event : RingEvent) : List Block × LiveState :=
  let branch := classify state event
  let arrived := { branch.state with arrived := event.seq }
  if branch.deliver then
    -- The first delivery past the beginning is announced unless the branch has done so.
    let late :=
      if branch.state.delivered = 0 ∧ branch.marker = none ∧ state.filterSeq + 1 < event.seq then
        [.marker event.epoch 0 event.seq]
      else []
    (branch.marker.toList ++ late ++ [event.block],
      { arrived with delivered := max branch.state.delivered event.seq })
  else ([], arrived)

def rereadEpoch (state : LiveState) : Option String → List Block × LiveState
  | none => ([], state)
  | some fresh =>
      if state.generation = "" then
        (if state.pendingGap then [.marker fresh 0 0] else [],
          { state with generation := fresh, pendingGap := false })
      else if fresh ≠ state.generation then
        ([.marker fresh 0 0],
          { state with generation := fresh, delivered := 0, arrived := 0, replayMinSeq := 0 })
      else ([], state)

inductive Message
  /-- The poll timed out. -/
  | poll
  | malformed
  | event (event : RingEvent)
  /-- The subscription failed. -/
  | ended
  deriving Repr

/-- Whether the generation is due to be read again, and what the read gives. -/
inductive Reread
  | notDue
  | timedOut
  | read (epoch : Option String)
  deriving Repr

/-- One round of the loop of `_classify_live`. -/
structure Round where
  message : Message
  reread : Reread := .notDue
  deriving Repr

inductive Progress
  | running (state : LiveState)
  /-- The loop returned; `true` is a normal end. -/
  | returned (normal : Bool)

/-- The end of a round which delivered nothing. -/
def finishRound (state : LiveState) : Reread → List Block × Progress
  | .notDue => ([], .running state)
  | .timedOut => ([], .returned false)
  | .read epoch => ((rereadEpoch state epoch).1, .running (rereadEpoch state epoch).2)

variable (terminal : Block → Bool)

def liveRound (state : LiveState) (round : Round) : List Block × Progress :=
  match round.message with
  | .ended => ([], .returned true)
  | .poll | .malformed => finishRound state round.reread
  | .event event =>
      let (blocks, after) := classifyEvent state event
      if (classify state event).deliver then
        (blocks, if terminal event.block then .returned true else .running after)
      else finishRound after round.reread

/-- `_classify_live`, when no block is refused: all it queues, and how it stands afterwards. -/
def classifyLive (state : LiveState) : List Round → List Block × Progress
  | [] => ([], .running state)
  | round :: rounds =>
      match liveRound terminal state round with
      | (blocks, .running after) =>
          (blocks ++ (classifyLive after rounds).1, (classifyLive after rounds).2)
      | (blocks, .returned normal) => (blocks, .returned normal)

structure Opening where
  cursor : Cursor
  epoch : Option String
  current : Int
  ring : List RingEvent

namespace Opening

def verdict (opening : Opening) : CursorVerdict :=
  cursorVerdict opening.cursor opening.epoch opening.current

def generation (opening : Opening) : String := openGeneration opening.epoch opening.ring

def replay (opening : Opening) : Replay :=
  replayBlocks opening.ring opening.verdict.filterSeq opening.generation
    opening.verdict.announceGap

/-- The marker for a cursor which was not honoured, once the generation is known. -/
def gapMark (opening : Opening) : List Block :=
  if opening.verdict.announceGap ∧ opening.generation ≠ "" then
    [.marker opening.generation 0 opening.replay.firstSeq]
  else []

def blocks (opening : Opening) : List Block := opening.gapMark ++ opening.replay.blocks

/-- The state in which the live phase begins. -/
def live (opening : Opening) : LiveState where
  generation := opening.generation
  delivered := opening.replay.maxSeq
  replayMinSeq := opening.replay.minSeq
  filterSeq := opening.verdict.filterSeq
  pendingGap := opening.verdict.announceGap && opening.generation == ""

/-- All a session queues: the replay and then the live phase. -/
def emission (opening : Opening) (rounds : List Round) : List Block :=
  opening.blocks ++ (classifyLive terminal opening.live rounds).1

end Opening

def Announces (marks : List Block) : Prop :=
  marks = [] ∨ ∃ epoch seq fromSeq, marks = [.marker epoch seq fromSeq]

def settle (state : LiveState) (event : RingEvent) : LiveState :=
  { state with
    generation := event.epoch
    delivered := max state.delivered event.seq
    arrived := event.seq }

/-- What becomes of a message, with the grounds on which it goes out unmarked. -/
inductive Classified (state : LiveState) (event : RingEvent) : List Block → LiveState → Prop
  | duplicate (armed : state.generation = event.epoch) (named : state.generation ≠ "")
      (ordered : state.arrived < event.seq) (within : state.replayMinSeq ≤ event.seq)
      (below : event.seq ≤ state.delivered) :
      Classified state event [] { state with arrived := event.seq }
  | adopted (marks : List Block) (announces : Announces marks) (unarmed : state.generation = "")
      (quiet : marks = [] →
        state.pendingGap = false ∧ (state.delivered = 0 → event.seq ≤ state.filterSeq + 1)) :
      Classified state event (marks ++ [event.block])
        (settle { state with pendingGap := false } event)
  | restarted (epoch : String) (seq fromSeq : Int) :
      Classified state event ([.marker epoch seq fromSeq] ++ [event.block])
        (settle { state with delivered := 0, replayMinSeq := 0 } event)
  | advanced (marks : List Block) (announces : Announces marks)
      (armed : state.generation = event.epoch) (named : state.generation ≠ "")
      (ordered : state.arrived < event.seq) (above : state.delivered < event.seq)
      (quiet : marks = [] → (0 < state.delivered → event.seq ≤ state.delivered + 1) ∧
        (state.delivered = 0 → event.seq ≤ state.filterSeq + 1)) :
      Classified state event (marks ++ [event.block]) (settle state event)
  | filled (marks : List Block) (announces : Announces marks)
      (armed : state.generation = event.epoch) (named : state.generation ≠ "")
      (ordered : state.arrived < event.seq) (below : event.seq ≤ state.delivered)
      (under : event.seq < state.replayMinSeq) (quiet : marks = [] → state.holeAnnounced = true) :
      Classified state event (marks ++ [event.block])
        (settle { state with holeAnnounced := true } event)

/-- A delivered message goes out behind at most one marker, and behind none only if its branch
gave none and it is not a first delivery past the beginning. -/
theorem classifyEvent_delivered {state : LiveState} {event : RingEvent} {marker : Option Block}
    {base : LiveState} (branched : classify state event = ⟨marker, true, base⟩)
    (marks : ∀ block ∈ marker, ∃ epoch seq fromSeq, block = .marker epoch seq fromSeq) :
    ∃ announced, Announces announced ∧
      (announced = [] → marker = none ∧
        (base.delivered = 0 → event.seq ≤ state.filterSeq + 1)) ∧
      classifyEvent state event = (announced ++ [event.block],
        { base with arrived := event.seq, delivered := max base.delivered event.seq }) := by
  rw [classifyEvent, branched]
  cases marker with
  | some block =>
      obtain ⟨epoch, seq, fromSeq, rfl⟩ := marks block rfl
      exact ⟨_, .inr ⟨epoch, seq, fromSeq, rfl⟩, by simp, by simp⟩
  | none =>
      by_cases late : base.delivered = 0 ∧ state.filterSeq + 1 < event.seq
      · refine ⟨_, .inr ⟨event.epoch, 0, event.seq, rfl⟩, by simp, ?_⟩
        simp [late]
      · refine ⟨[], .inl rfl, fun _ => ⟨rfl, fun first => ?_⟩, ?_⟩
        · by_contra past
          exact late ⟨first, by omega⟩
        · simp only [Option.toList_none, true_and, if_true, if_neg late]
          rfl

theorem settle_armed (state : LiveState) {event : RingEvent}
    (armed : state.generation = event.epoch) :
    { state with arrived := event.seq, delivered := max state.delivered event.seq } =
      settle state event := by
  rw [settle, ← armed]

theorem classifyEvent_restarted {state : LiveState} {event : RingEvent}
    (branched : classify state event = restart state event) :
    Classified state event (classifyEvent state event).1 (classifyEvent state event).2 := by
  have result : classifyEvent state event = ([.marker event.epoch 0 event.seq] ++ [event.block],
      settle { state with delivered := 0, replayMinSeq := 0 } event) := by
    rw [classifyEvent, branched]
    simp [restart, settle]
  rw [result]
  exact .restarted event.epoch 0 event.seq

theorem classifyEvent_classified (state : LiveState) (event : RingEvent) :
    Classified state event (classifyEvent state event).1 (classifyEvent state event).2 := by
  by_cases unarmed : state.generation = ""
  · have branched : classify state event =
        ⟨if state.pendingGap then some (.marker event.epoch 0 0) else none, true,
          { state with generation := event.epoch, pendingGap := false }⟩ := by
      rw [classify, if_pos unarmed]
    obtain ⟨marks, announces, quiet, result⟩ := classifyEvent_delivered branched (by
      intro block listed
      split at listed
      · exact ⟨_, _, _, (Option.mem_some_iff.mp listed).symm⟩
      · cases listed)
    rw [result]
    refine .adopted marks announces unarmed fun silent => ?_
    obtain ⟨unmarked, early⟩ := quiet silent
    refine ⟨?_, early⟩
    by_contra pending
    simp [pending] at unmarked
  by_cases armed : event.epoch = state.generation
  swap
  · exact classifyEvent_restarted (by rw [classify, if_neg unarmed, if_pos armed])
  by_cases ordered : state.arrived < event.seq
  swap
  · refine classifyEvent_restarted ?_
    rw [classify, if_neg unarmed, if_neg (not_not.mpr armed), if_pos (by omega)]
  have branched : classify state event = inOrder state event := by
    rw [classify, if_neg unarmed, if_neg (not_not.mpr armed), if_neg (by omega)]
  rw [inOrder] at branched
  by_cases above : state.delivered < event.seq
  · rw [if_pos above] at branched
    obtain ⟨marks, announces, quiet, result⟩ := classifyEvent_delivered branched (by
      intro block listed
      split at listed
      · exact ⟨_, _, _, (Option.mem_some_iff.mp listed).symm⟩
      · cases listed)
    rw [result, settle_armed state armed.symm]
    refine .advanced marks announces armed.symm unarmed ordered above fun silent => ?_
    obtain ⟨unmarked, early⟩ := quiet silent
    refine ⟨fun positive => ?_, early⟩
    by_contra jumps
    simp [positive, show state.delivered + 1 < event.seq by omega] at unmarked
  rw [if_neg above] at branched
  by_cases under : event.seq < state.replayMinSeq
  · rw [if_pos under] at branched
    obtain ⟨marks, announces, quiet, result⟩ := classifyEvent_delivered branched (by
      intro block listed
      split at listed
      · cases listed
      · exact ⟨_, _, _, (Option.mem_some_iff.mp listed).symm⟩)
    rw [result]
    have settled := settle_armed { state with holeAnnounced := true } armed.symm
    simp only at settled ⊢
    rw [settled]
    refine .filled marks announces armed.symm unarmed ordered (by omega) under fun silent => ?_
    by_contra unannounced
    simp [unannounced] at quiet
    exact quiet silent
  · rw [if_neg under] at branched
    have result : classifyEvent state event = ([], { state with arrived := event.seq }) := by
      rw [classifyEvent, branched]
      rfl
    rw [result]
    exact .duplicate armed.symm unarmed ordered (by omega) (by omega)

theorem classifyEvent_next {state : LiveState} {event : RingEvent}
    (armed : state.generation = event.epoch) (named : state.generation ≠ "")
    (ordered : state.arrived < event.seq) (above : state.delivered < event.seq)
    (adjacent : 0 < state.delivered → event.seq ≤ state.delivered + 1)
    (early : state.delivered = 0 → event.seq ≤ state.filterSeq + 1) :
    (classify state event).deliver = true ∧
      classifyEvent state event = ([event.block], settle state event) := by
  have branched : classify state event = ⟨none, true, state⟩ := by
    rw [classify, if_neg named, if_neg (not_not.mpr armed.symm), if_neg (by omega), inOrder,
      if_pos above, if_neg (by omega)]
  refine ⟨by rw [branched], ?_⟩
  rw [classifyEvent, branched]
  simp only [Option.toList_none, true_and, if_true]
  rw [if_neg (by omega), settle_armed state armed]
  rfl

/-- A number of the replay which comes over the channel too is dropped. -/
theorem classifyEvent_copy {state : LiveState} {event : RingEvent}
    (armed : state.generation = event.epoch) (named : state.generation ≠ "")
    (ordered : state.arrived < event.seq) (within : state.replayMinSeq ≤ event.seq)
    (below : event.seq ≤ state.delivered) :
    (classify state event).deliver = false ∧
      classifyEvent state event = ([], { state with arrived := event.seq }) := by
  have branched : classify state event = ⟨none, false, state⟩ := by
    rw [classify, if_neg named, if_neg (not_not.mpr armed.symm), if_neg (by omega), inOrder,
      if_neg (by omega), if_neg (by omega)]
  refine ⟨by rw [branched], ?_⟩
  rw [classifyEvent, branched]
  rfl

theorem classifyEvent_first {state : LiveState} {event : RingEvent}
    (unarmed : state.generation = "") (quiet : state.pendingGap = false)
    (early : state.delivered = 0 → event.seq ≤ state.filterSeq + 1) :
    (classify state event).deliver = true ∧
      classifyEvent state event = ([event.block], settle state event) := by
  have branched : classify state event =
      ⟨none, true, { state with generation := event.epoch, pendingGap := false }⟩ := by
    rw [classify, if_pos unarmed, quiet]
    rfl
  refine ⟨by rw [branched], ?_⟩
  rw [classifyEvent, branched]
  simp only [Option.toList_none, true_and, if_true]
  rw [if_neg (by omega), settle, quiet]
  rfl

theorem classify_dropped {state : LiveState} {event : RingEvent}
    (dropped : (classify state event).deliver = false) :
    (classifyEvent state event).1 = [] := by
  rw [classifyEvent]
  simp only [dropped]
  rfl

theorem classify_delivered {state : LiveState} {event : RingEvent}
    (delivered : (classify state event).deliver = true) :
    ∃ marks, (classifyEvent state event).1 = marks ++ [event.block] := by
  rw [classifyEvent]
  simp only [delivered]
  exact ⟨_, rfl⟩

section Rounds

variable {holds : List Block → LiveState → Prop} {admits : RingEvent → Prop}

theorem liveRound_keeps
    (classified : ∀ sent state event blocks after, admits event → holds sent state →
      Classified state event blocks after → holds (sent ++ blocks) after)
    (reread : ∀ sent state epoch, holds sent state →
      holds (sent ++ (rereadEpoch state epoch).1) (rereadEpoch state epoch).2)
    {sent : List Block} {state : LiveState} (round : Round)
    (admitted : ∀ event, round.message = .event event → admits event) (held : holds sent state) :
    ∃ after, holds (sent ++ (liveRound terminal state round).1) after ∧
      ∀ running, (liveRound terminal state round).2 = .running running → running = after := by
  have finished (state : LiveState) (held : holds sent state) :
      ∃ after, holds (sent ++ (finishRound state round.reread).1) after ∧
        ∀ running, (finishRound state round.reread).2 = .running running → running = after := by
    cases round.reread with
    | notDue => exact ⟨state, by simpa [finishRound] using held, by simp [finishRound]⟩
    | timedOut => exact ⟨state, by simpa [finishRound] using held, by simp [finishRound]⟩
    | read epoch => exact ⟨_, reread sent state epoch held, by simp [finishRound]⟩
  rw [liveRound]
  cases message_eq : round.message with
  | poll => exact finished state held
  | malformed => exact finished state held
  | ended => exact ⟨state, by simpa using held, by simp⟩
  | event event =>
      have after_held := classified sent state event _ _ (admitted event message_eq) held
        (classifyEvent_classified state event)
      simp only
      split
      · refine ⟨_, after_held, ?_⟩
        intro running
        split
        · simp
        · intro is_running
          exact (Progress.running.inj is_running).symm
      next dropped =>
        rw [classify_dropped (by simpa using dropped), List.append_nil] at after_held
        exact finished _ after_held

theorem classifyLive_keeps
    (classified : ∀ sent state event blocks after, admits event → holds sent state →
      Classified state event blocks after → holds (sent ++ blocks) after)
    (reread : ∀ sent state epoch, holds sent state →
      holds (sent ++ (rereadEpoch state epoch).1) (rereadEpoch state epoch).2)
    (rounds : List Round) {sent : List Block} {state : LiveState}
    (admitted : ∀ round ∈ rounds, ∀ event, round.message = .event event → admits event)
    (held : holds sent state) :
    ∃ after, holds (sent ++ (classifyLive terminal state rounds).1) after := by
  induction rounds generalizing sent state with
  | nil => exact ⟨state, by simpa [classifyLive] using held⟩
  | cons round rounds induction =>
      obtain ⟨after, after_held, same⟩ := liveRound_keeps terminal classified reread
        round (admitted round List.mem_cons_self) held
      rw [classifyLive]
      split
      next blocks running result =>
        rw [result] at after_held same
        obtain rfl := same running rfl
        simp only
        rw [← List.append_assoc]
        exact induction (fun other listed => admitted other (List.mem_cons_of_mem _ listed))
          after_held
      next blocks normal result =>
        rw [result] at after_held
        exact ⟨after, after_held⟩

end Rounds

end Hermes.AgentProxy.Broker
