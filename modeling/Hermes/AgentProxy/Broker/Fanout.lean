import Hermes.AgentProxy.Broker.Ring
import Hermes.Library.Transition

/-!
# The writer, the ring and a client session

The consumer publishes under the epoch it has adopted and looks after the epoch key on every tick.
A session subscribes, reads the epoch key, the counter and the ring, and then takes the messages
published since it subscribed, one after the other.  Keys may expire between any two steps.
-/

namespace Hermes.AgentProxy.Broker

inductive Phase
  | closed
  | subscribed
  /-- `current_epoch` has answered. -/
  | epochRead (epoch : Option String)
  /-- The cursor has been judged against the counter. -/
  | judged (epoch : Option String) (current : Int)
  | live (state : LiveState)

/-- The session waits for something it reads. -/
def Phase.waiting : Phase → Bool
  | .subscribed | .epochRead _ | .judged _ _ => true
  | _ => false

/-- A client session.  Each event sent to the client is noted with the place it has among all
published events. -/
structure Session where
  cursor : Cursor := {}
  phase : Phase := .closed
  /-- How many events had been published at the `SUBSCRIBE`. -/
  subscribedAt : Nat := 0
  /-- The place of the next message on the channel. -/
  next : Nat := 0
  sent : List Block := []
  received : List (RingEvent × Nat) := []

/-- How far the two commands of `ensure_epoch` come. -/
inductive Ensured
  | answered
  /-- The `SET` failed. -/
  | failed
  /-- The `SET` was done and the `GET` failed. -/
  | unanswered
  deriving DecidableEq, Repr

/-- The system.  `drawn` are the identifiers generated so far. -/
structure Fanout where
  keys : RunKeys := {}
  writer : Option String := none
  published : List RingEvent := []
  drawn : List String := []
  session : Session := {}

inductive FanoutAction
  /-- A consumer starts: `ensure_epoch`, or an epoch of its own. -/
  | start (fresh own : String) (ensured : Ensured)
  /-- A tick of the consumer's supervisor. -/
  | tick (fresh : String) (ensured : Ensured)
  | publish (data : Bytes)
  | expire (expired : RunKeys.Expired)
  | subscribe (cursor : Cursor)
  | readEpoch (answered : Bool)
  | readCounter (answered : Bool)
  | readRing (answered terminalAtOpen : Bool)
  | receive
  | rereadEpoch (answered : Bool)
  /-- The session ends, or the queue refuses what comes after some of the next blocks. -/
  | close (kept : Nat)

namespace Fanout

variable (limits : RingLimits) (terminal : Block → Bool)

/-- The keys after `ensure_epoch`, and its answer. -/
def ensureEpoch (keys : RunKeys) (fresh : String) : Ensured → Option String × RunKeys
  | .failed => (none, keys)
  | .unanswered => (none, keys.setEpoch fresh)
  | .answered => ((keys.setEpoch fresh).epoch, keys.setEpoch fresh)

/-- The counter is written with all its digits up to this number. -/
def counterLimit : Nat := 10 ^ 14

/-- The opening of a session which reads the ring now. -/
def opening (state : Fanout) (epoch : Option String) (current : Int) (answered : Bool) :
    Opening where
  cursor := state.session.cursor
  epoch := epoch
  current := current
  ring := if answered then state.keys.events else []

/-- The elements of the ring a session replays, with their places. -/
def replayed (state : Fanout) (opening : Opening) : List (RingEvent × Nat) :=
  (opening.ring.zipIdx (state.published.length - opening.ring.length)).filter
    fun place => decide (opening.verdict.filterSeq < place.1.seq)

def openSession (state : Fanout) (opening : Opening) (terminalAtOpen : Bool) : Session :=
  { state.session with
    sent := opening.blocks
    received := state.replayed opening
    phase :=
      if terminalAtOpen || opening.replay.blocks.any terminal then .closed else .live opening.live }

def receiveMessage (session : Session) (live : LiveState) (event : RingEvent) : Session :=
  let (blocks, after) := classifyEvent live event
  if (classify live event).deliver then
    { session with
      next := session.next + 1
      sent := session.sent ++ blocks
      received := session.received ++ [(event, session.next)]
      phase := if terminal event.block then .closed else .live after }
  else { session with next := session.next + 1, phase := .live after }

def pendingBlocks (state : Fanout) : List Block :=
  match state.session.phase, state.published[state.session.next]? with
  | .live live, some event => (classifyEvent live event).1
  | _, _ => []

def step (state : Fanout) : FanoutAction → Option Fanout
  | .start fresh own ensured =>
      let (answer, keys) := ensureEpoch state.keys fresh ensured
      some { state with
        keys := keys
        writer := some (answer.getD own)
        drawn := fresh :: own :: state.drawn }
  | .tick fresh ensured =>
      match state.writer with
      | none => none
      | some epoch =>
          let (answer, keys) := ensureEpoch state.keys fresh ensured
          some { state with
            keys := keys
            writer := some (answer.getD epoch)
            drawn := fresh :: state.drawn }
  | .publish data =>
      match state.writer with
      | none => none
      | some epoch =>
          if state.keys.seq.getD 0 + 1 < counterLimit then
            some { state with
              keys := (state.keys.publish limits epoch data).2
              published := state.published ++ [(state.keys.publish limits epoch data).1] }
          else none
  | .expire expired => some { state with keys := state.keys.expire expired }
  | .subscribe cursor =>
      some { state with session :=
        { cursor := cursor
          phase := .subscribed
          subscribedAt := state.published.length
          next := state.published.length } }
  | .readEpoch answered =>
      match state.session.phase with
      | .subscribed =>
          let epoch := if answered then state.keys.epoch else none
          some { state with session := { state.session with phase := .epochRead epoch } }
      | _ => none
  | .readCounter answered =>
      match state.session.phase with
      | .epochRead epoch =>
          let current := if answered then state.keys.seq.getD 0 else 0
          some { state with session := { state.session with phase := .judged epoch current } }
      | _ => none
  | .readRing answered terminalAtOpen =>
      match state.session.phase with
      | .judged epoch current =>
          some { state with session :=
            state.openSession terminal (state.opening epoch current answered) terminalAtOpen }
      | _ => none
  | .receive =>
      match state.session.phase, state.published[state.session.next]? with
      | .live live, some event =>
          some { state with session := receiveMessage terminal state.session live event }
      | _, _ => none
  | .rereadEpoch answered =>
      match state.session.phase with
      | .live live =>
          let epoch := if answered then state.keys.epoch else none
          let (blocks, after) := Broker.rereadEpoch live epoch
          some { state with session :=
            { state.session with sent := state.session.sent ++ blocks, phase := .live after } }
      | _ => none
  | .close kept =>
      some { state with session :=
        { state.session with
          sent := state.session.sent ++ (state.pendingBlocks.take kept).filter Block.isMarker
          phase := .closed } }

/-- Identifiers drawn by `uuid4` are not empty and have not been drawn before. -/
def DrawsNew (state : Fanout) : FanoutAction → Prop
  | .start fresh own _ =>
      fresh ≠ "" ∧ own ≠ "" ∧ fresh ≠ own ∧ fresh ∉ state.drawn ∧ own ∉ state.drawn
  | .tick fresh _ => fresh ≠ "" ∧ fresh ∉ state.drawn
  | _ => True

instance (state : Fanout) : (action : FanoutAction) → Decidable (DrawsNew state action)
  | .start fresh own _ => inferInstanceAs (Decidable
      (fresh ≠ "" ∧ own ≠ "" ∧ fresh ≠ own ∧ fresh ∉ state.drawn ∧ own ∉ state.drawn))
  | .tick fresh _ => inferInstanceAs (Decidable (fresh ≠ "" ∧ fresh ∉ state.drawn))
  | .publish _ | .expire _ | .subscribe _ | .readEpoch _ | .readCounter _ | .readRing _ _
  | .receive | .rereadEpoch _ | .close _ => .isTrue trivial

end Fanout

end Hermes.AgentProxy.Broker
