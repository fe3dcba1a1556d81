import Hermes.AgentProxy.Broker.Fanout
import Hermes.AgentProxy.Broker.Gaps

/-!
# Reconnecting clients

A client reads session after session, each cut anywhere, and opens the next one with the last id it
has received.  Under one epoch, and with a ring which reaches back to the client, what it has
received is at every moment the beginning of what was published.
-/

namespace Hermes.AgentProxy.Broker

/-- The fan-out, and what the client received in the sessions which are over. -/
structure Reconnect where
  fanout : Fanout := {}
  client : List Block := []

inductive ReconnectAction
  /-- A step of the fan-out; sessions are opened by the client only. -/
  | fan (action : FanoutAction)
  /-- The session is cut behind some of its blocks, and the client opens another one. -/
  | reconnect (taken : Nat)

def FanoutAction.subscribes : FanoutAction → Bool
  | .subscribe _ => true
  | _ => false

/-- What an opening session has read of the epoch key. -/
def Phase.read : Phase → Option (Option String)
  | .epochRead epoch | .judged epoch _ => some epoch
  | _ => none

namespace Reconnect

variable (limits : RingLimits) (terminal : Block → Bool)

def stream (state : Reconnect) : List Block := state.client ++ state.fanout.session.sent

def step (state : Reconnect) : ReconnectAction → Option Reconnect
  | .fan action =>
      if action.subscribes then none
      else (state.fanout.step limits terminal action).map fun fanout =>
        { state with fanout := fanout }
  | .reconnect taken =>
      let client := state.client ++ state.fanout.session.sent.take taken
      match parseCursor (client.getLast?.map (·.id)) none with
      | .error _ => none
      | .ok cursor => (state.fanout.step limits terminal (.subscribe cursor)).map fun fanout =>
          { fanout := fanout, client := client }

/-- The epoch key is set before anything is published, it and the counter do not expire, the reads
of an opening session are answered, and the ring reaches back to the client when it is read. -/
def OneEpoch (state : Reconnect) : ReconnectAction → Prop
  | .fan (.start fresh _ ensured) => fresh ≠ "" ∧ ensured = .answered
  | .fan (.expire expired) => expired.epoch = false ∧ expired.seq = false
  | .fan (.readEpoch answered) => answered = true
  | .fan (.readCounter answered) => answered = true
  | .fan (.readRing answered _) => answered = true ∧
      state.fanout.published.length - state.fanout.keys.events.length ≤ state.client.length
  | _ => True

instance (state : Reconnect) : (action : ReconnectAction) → Decidable (OneEpoch state action)
  | .fan (.start fresh _ ensured) =>
      inferInstanceAs (Decidable (fresh ≠ "" ∧ ensured = .answered))
  | .fan (.expire expired) =>
      inferInstanceAs (Decidable (expired.epoch = false ∧ expired.seq = false))
  | .fan (.readEpoch answered) => inferInstanceAs (Decidable (answered = true))
  | .fan (.readCounter answered) => inferInstanceAs (Decidable (answered = true))
  | .fan (.readRing answered _) => inferInstanceAs (Decidable (answered = true ∧
      state.fanout.published.length - state.fanout.keys.events.length ≤ state.client.length))
  | .fan (.tick _ _) | .fan (.publish _) | .fan (.subscribe _) | .fan .receive
  | .fan (.rereadEpoch _) | .fan (.close _) | .reconnect _ => .isTrue trivial

/-- The store under one epoch: every event has it, and the number of its place. -/
structure Sole (fanout : Fanout) : Prop where
  counter : fanout.keys.seq.getD 0 = fanout.published.length
  numbers : ∀ (place : Nat) event, fanout.published[place]? = some event →
    event.seq = (place : Int) + 1
  ring : fanout.keys.events <:+ fanout.published
  small : fanout.published.length < Fanout.counterLimit
  key : ∀ epoch, fanout.keys.epoch = some epoch →
    epoch ≠ "" ∧ ∀ event ∈ fanout.published, event.epoch = epoch
  writer : ∀ epoch, fanout.writer = some epoch → fanout.keys.epoch = some epoch
  keyed : fanout.published ≠ [] → fanout.keys.epoch ≠ none

/-- How the live phase stands to what the client has been sent. -/
structure Abreast (state : Reconnect) (live : LiveState) : Prop where
  filter : live.filterSeq = state.client.length
  quiet : live.pendingGap = false
  behind : state.client.length ≤ state.fanout.session.next
  ahead : state.fanout.session.next ≤ state.stream.length
  arrived : live.arrived ≤ state.fanout.session.next
  least : live.replayMinSeq ≤ state.client.length + 1
  delivered : live.delivered = if state.fanout.session.sent = [] then 0 else state.stream.length
  generation : live.generation = "" ∧ state.stream.length = 0 ∨
    state.fanout.keys.epoch = some live.generation

structure InOrder (state : Reconnect) : Prop where
  sole : Sole state.fanout
  received : state.stream = (state.fanout.published.take state.stream.length).map (·.block)
  within : state.stream.length ≤ state.fanout.published.length
  waiting : state.fanout.session.phase.waiting = true →
    state.fanout.session.sent = [] ∧ state.client.length ≤ state.fanout.session.next ∧
      state.fanout.session.next ≤ state.fanout.published.length ∧
      state.fanout.session.cursor.seq = state.client.length ∧
      (0 < state.client.length → state.fanout.session.cursor.epoch = state.fanout.keys.epoch)
  read : ∀ epoch, state.fanout.session.phase.read = some epoch →
    (∀ generation, epoch = some generation → state.fanout.keys.epoch = some generation) ∧
      (0 < state.client.length → epoch = state.fanout.keys.epoch)
  judged : ∀ epoch current, state.fanout.session.phase = .judged epoch current →
    (state.client.length : Int) ≤ current
  live : ∀ live, state.fanout.session.phase = .live live → Abreast state live

variable {limits terminal} {state after : Reconnect} {fanout : Fanout}

theorem inOrder_empty : InOrder {} := by
  refine ⟨⟨rfl, by simp, by simp, by decide, by simp, by simp, by simp⟩, ?_, ?_, ?_, ?_, ?_, ?_⟩
  all_goals simp [stream, Phase.waiting, Phase.read]

/-- The blocks sent so far stay the beginning of what is published. -/
theorem received_append {blocks : List Block} {published added : List RingEvent}
    (received : blocks = (published.take blocks.length).map (·.block))
    (within : blocks.length ≤ published.length) :
    blocks = ((published ++ added).take blocks.length).map (·.block) := by
  rw [List.take_append_of_le_length within]
  exact received

theorem InOrder.known (inOrder : InOrder state) (some_received : 0 < state.client.length) :
    ∃ epoch, state.fanout.keys.epoch = some epoch := by
  refine Option.ne_none_iff_exists'.mp (inOrder.sole.keyed fun nothing => ?_)
  have within := inOrder.within
  simp only [stream, nothing, List.length_append, List.length_nil] at within
  omega

theorem InOrder.move (inOrder : InOrder state) (sole : Sole fanout)
    (session_eq : fanout.session = state.fanout.session)
    (published : ∃ added, fanout.published = state.fanout.published ++ added)
    (key : ∀ epoch, state.fanout.keys.epoch = some epoch → fanout.keys.epoch = some epoch) :
    InOrder { state with fanout := fanout } := by
  obtain ⟨added, published⟩ := published
  have stream_eq : stream { state with fanout := fanout } = state.stream := by
    simp only [stream, session_eq]
  have started (some_received : 0 < state.client.length) :
      fanout.keys.epoch = state.fanout.keys.epoch := by
    obtain ⟨epoch, epoch_eq⟩ := inOrder.known some_received
    rw [epoch_eq, key epoch epoch_eq]
  refine ⟨sole, ?_, ?_, ?_, ?_, ?_, ?_⟩
  · rw [stream_eq, published]
    exact received_append inOrder.received inOrder.within
  · rw [stream_eq, published, List.length_append]
    exact inOrder.within.trans (Nat.le_add_right _ _)
  · intro waits
    simp only [session_eq] at waits ⊢
    obtain ⟨nothing, behind, ahead, seq, epoch⟩ := inOrder.waiting waits
    refine ⟨nothing, behind, ?_, seq, fun some_received => ?_⟩
    · rw [published, List.length_append]
      omega
    · rw [started some_received]
      exact epoch some_received
  · intro epoch is_read
    simp only [session_eq] at is_read
    obtain ⟨known, same⟩ := inOrder.read epoch is_read
    refine ⟨fun generation is_some => key _ (known generation is_some), fun some_received => ?_⟩
    rw [started some_received]
    exact same some_received
  · intro epoch current is_judged
    simp only [session_eq] at is_judged
    exact inOrder.judged epoch current is_judged
  · intro live is_live
    simp only [session_eq] at is_live
    obtain ⟨filter, quiet, behind, ahead, arrived, least, delivered, generation⟩ :=
      inOrder.live live is_live
    refine ⟨filter, quiet, ?_, ?_, ?_, least, ?_, ?_⟩
    · simpa only [session_eq] using behind
    · simpa only [session_eq, stream_eq] using ahead
    · simpa only [session_eq] using arrived
    · simpa only [session_eq, stream_eq] using delivered
    · rw [stream_eq]
      exact generation.imp_right (key _)

/-- The epoch key and the writer may be renamed as long as they agree. -/
theorem Sole.rename (sole : Sole fanout) {keys : RunKeys} {writer : Option String}
    {drawn : List String} (seq : keys.seq = fanout.keys.seq)
    (ring : keys.events <:+ fanout.published)
    (key : ∀ epoch, keys.epoch = some epoch →
      epoch ≠ "" ∧ ∀ event ∈ fanout.published, event.epoch = epoch)
    (written : ∀ epoch, writer = some epoch → keys.epoch = some epoch)
    (keyed : fanout.published ≠ [] → keys.epoch ≠ none) :
    Sole { fanout with keys := keys, writer := writer, drawn := drawn } where
  counter := by simpa only [seq] using sole.counter
  numbers := sole.numbers
  ring := ring
  small := sole.small
  key := key
  writer := written
  keyed := keyed

theorem Sole.ensure (sole : Sole fanout) {fresh instead : String} {ensured : Ensured}
    {drawn : List String}
    (sure : (fresh ≠ "" ∧ ensured = .answered) ∨ fanout.writer = some instead) :
    Sole { fanout with
      keys := (Fanout.ensureEpoch fanout.keys fresh ensured).2
      writer := some ((Fanout.ensureEpoch fanout.keys fresh ensured).1.getD instead)
      drawn := drawn } ∧
    ∀ epoch, fanout.keys.epoch = some epoch →
      (Fanout.ensureEpoch fanout.keys fresh ensured).2.epoch = some epoch := by
  cases present : fanout.keys.epoch with
  | some epoch =>
      have unchanged : fanout.keys.setEpoch fresh = fanout.keys := by
        rw [RunKeys.setEpoch, present]
      have keys_eq : (Fanout.ensureEpoch fanout.keys fresh ensured).2 = fanout.keys := by
        cases ensured <;> simp [Fanout.ensureEpoch, unchanged]
      refine ⟨?_, fun other same => by rw [keys_eq, present, same]⟩
      rw [keys_eq]
      refine sole.rename rfl sole.ring sole.key (fun other is_writer => ?_) sole.keyed
      obtain rfl := Option.some.inj is_writer
      cases ensured with
      | answered => simp [Fanout.ensureEpoch, unchanged, present]
      | failed => exact sole.writer _ (sure.resolve_left (by simp))
      | unanswered => exact sole.writer _ (sure.resolve_left (by simp))
  | none =>
      have nothing : fanout.published = [] := by
        by_contra filled
        exact sole.keyed filled present
      have set : fanout.keys.setEpoch fresh = { fanout.keys with epoch := some fresh } := by
        rw [RunKeys.setEpoch, present]
      obtain ⟨named, rfl⟩ : fresh ≠ "" ∧ ensured = .answered := by
        refine sure.resolve_right fun is_writer => ?_
        rw [sole.writer _ is_writer] at present
        cases present
      simp only [Fanout.ensureEpoch, set]
      refine ⟨sole.rename rfl sole.ring ?_ (fun other is_writer => is_writer) (by simp), by simp⟩
      rintro epoch ⟨⟩
      exact ⟨named, by simp [nothing]⟩

theorem Sole.publish (sole : Sole fanout) {epoch : String} {data : Bytes}
    (is_writer : fanout.writer = some epoch)
    (small : fanout.keys.seq.getD 0 + 1 < Fanout.counterLimit) :
    Sole { fanout with
      keys := (fanout.keys.publish limits epoch data).2
      published := fanout.published ++ [(fanout.keys.publish limits epoch data).1] } where
  counter := by
    have counter := sole.counter
    simp only [RunKeys.publish, Option.getD_some, List.length_append, List.length_singleton]
    omega
  numbers place event found := by
    rcases getElem?_snoc found with old | ⟨rfl, rfl⟩
    · exact sole.numbers place event old
    · simp only [RunKeys.publish]
      rw [sole.counter]
      push_cast
      rfl
  ring := by
    obtain ⟨before, same⟩ := sole.ring
    exact (fanout.keys.publish_events limits epoch data).trans
      ⟨before, by rw [← same, List.append_assoc]⟩
  small := by
    have counter := sole.counter
    simp only [List.length_append, List.length_singleton]
    omega
  key other is_key := by
    have same : fanout.keys.epoch = some other := is_key
    refine ⟨(sole.key other same).1, fun event listed => ?_⟩
    rcases List.mem_append.mp listed with old | new
    · exact (sole.key other same).2 event old
    · rw [List.mem_singleton.mp new]
      have written := sole.writer epoch is_writer
      rw [written] at same
      exact Option.some.inj same
  writer := sole.writer
  keyed _ := by
    have written := sole.writer epoch is_writer
    exact fun missing => by simp [RunKeys.publish, written] at missing

theorem Sole.expire (sole : Sole fanout) {expired : RunKeys.Expired}
    (kept : expired.epoch = false ∧ expired.seq = false) :
    Sole { fanout with keys := fanout.keys.expire expired } ∧
      (fanout.keys.expire expired).epoch = fanout.keys.epoch := by
  have epoch : (fanout.keys.expire expired).epoch = fanout.keys.epoch := by
    simp [RunKeys.expire, kept.1]
  refine ⟨sole.rename ?_ ?_ ?_ ?_ ?_, epoch⟩
  · simp [RunKeys.expire, kept.2]
  · simp only [RunKeys.expire]
    split
    · exact List.nil_suffix
    · exact sole.ring
  · rw [epoch]
    exact sole.key
  · rw [epoch]
    exact sole.writer
  · rw [epoch]
    exact sole.keyed

theorem Sole.session (sole : Sole fanout) (session : Session) :
    Sole { fanout with session := session } :=
  ⟨sole.counter, sole.numbers, sole.ring, sole.small, sole.key, sole.writer, sole.keyed⟩

section Sessions

variable {session : Session} {live : LiveState} {event : RingEvent}

theorem Sole.event_eq (sole : Sole fanout) {place : Nat}
    (found : fanout.published[place]? = some event) :
    fanout.keys.epoch = some event.epoch ∧ event.epoch ≠ "" ∧ event.seq = (place : Int) + 1 := by
  have listed := List.mem_of_getElem? found
  obtain ⟨epoch, present⟩ :=
    Option.ne_none_iff_exists'.mp (sole.keyed (List.ne_nil_of_mem listed))
  obtain ⟨named, same⟩ := sole.key epoch present
  rw [same event listed]
  exact ⟨present, named, sole.numbers place event found⟩

theorem received_concat {blocks : List Block} {published : List RingEvent}
    (received : blocks = (published.take blocks.length).map (·.block))
    (found : published[blocks.length]? = some event) :
    blocks ++ [event.block] =
      (published.take (blocks ++ [event.block]).length).map (·.block) := by
  rw [List.length_append, List.length_singleton, List.take_add_one, found, List.map_append,
    ← received]
  rfl

/-- A message is either in the stream already, or the next one of it. -/
theorem Abreast.classify (inOrder : InOrder state) (abreast : Abreast state live)
    (found : state.fanout.published[state.fanout.session.next]? = some event) :
    (state.fanout.session.next < state.stream.length ∧
      (Broker.classify live event).deliver = false ∧
      classifyEvent live event = ([], { live with arrived := event.seq })) ∨
    (state.fanout.session.next = state.stream.length ∧
      (Broker.classify live event).deliver = true ∧
      classifyEvent live event = ([event.block], settle live event)) := by
  obtain ⟨present, named, number⟩ := inOrder.sole.event_eq found
  obtain ⟨filter, quiet, behind, ahead, arrived, least, delivered, generation⟩ := abreast
  have length : state.stream.length = state.client.length + state.fanout.session.sent.length :=
    List.length_append
  rcases Nat.lt_or_ge state.fanout.session.next state.stream.length with inside | outside
  · refine .inl ⟨inside, ?_⟩
    have armed : live.generation = event.epoch := by
      rcases generation with ⟨-, nothing⟩ | same
      · omega
      · rw [present] at same
        exact (Option.some.inj same).symm
    have some_sent : state.fanout.session.sent ≠ [] := by
      intro nothing
      rw [nothing] at length
      simp only [List.length_nil] at length
      omega
    rw [if_neg some_sent] at delivered
    exact classifyEvent_copy armed (armed ▸ named) (by omega) (by omega) (by omega)
  · refine .inr ⟨by omega, ?_⟩
    rcases generation with ⟨unarmed, nothing⟩ | same
    · exact classifyEvent_first unarmed quiet fun _ => by omega
    · rw [present] at same
      have armed : live.generation = event.epoch := (Option.some.inj same).symm
      split at delivered
      next nothing =>
        rw [nothing] at length
        simp only [List.length_nil] at length
        exact classifyEvent_next armed (armed ▸ named) (by omega) (by omega) (by omega) (by omega)
      · exact classifyEvent_next armed (armed ▸ named) (by omega) (by omega) (by omega) (by omega)

theorem InOrder.proceed (inOrder : InOrder state) (session : Session)
    (received : state.client ++ session.sent =
      (state.fanout.published.take (state.client ++ session.sent).length).map (·.block))
    (within : (state.client ++ session.sent).length ≤ state.fanout.published.length)
    (awake : session.phase.waiting = false)
    (abreast : ∀ live, session.phase = .live live →
      Abreast { state with fanout := { state.fanout with session := session } } live) :
    InOrder { state with fanout := { state.fanout with session := session } } := by
  have asleep {P : Prop} (waits : session.phase.waiting = true) : P := by
    rw [awake] at waits
    cases waits
  refine ⟨inOrder.sole.session session, received, within, asleep, ?_, ?_, abreast⟩
  · intro epoch is_read
    apply asleep
    revert is_read
    cases session.phase <;> simp [Phase.read, Phase.waiting]
  · intro epoch current is_judged
    have is_judged : session.phase = .judged epoch current := is_judged
    exact asleep (by rw [is_judged]; rfl)

theorem InOrder.receive (inOrder : InOrder state)
    (is_live : state.fanout.session.phase = .live live)
    (found : state.fanout.published[state.fanout.session.next]? = some event) :
    InOrder { state with fanout := { state.fanout with
      session := Fanout.receiveMessage terminal state.fanout.session live event } } := by
  have abreast := inOrder.live live is_live
  have classified := abreast.classify inOrder found
  have length : state.stream.length = state.client.length + state.fanout.session.sent.length :=
    List.length_append
  obtain ⟨present, named, number⟩ := inOrder.sole.event_eq found
  obtain ⟨filter, quiet, behind, ahead, arrived, least, delivered, generation⟩ := abreast
  rw [Fanout.receiveMessage]
  rcases classified with ⟨inside, dropped, result⟩ | ⟨last, sent, result⟩
  · rw [dropped, result]
    refine inOrder.proceed _ inOrder.received inOrder.within rfl ?_
    rintro after ⟨⟩
    exact ⟨filter, quiet, Nat.le_succ_of_le behind, inside, by simp [number], least, delivered,
      generation⟩
  · rw [sent, result]
    have longer := received_concat inOrder.received (last ▸ found)
    simp only [stream, List.append_assoc] at longer
    have inside := (List.getElem?_eq_some_iff.mp found).1
    refine inOrder.proceed _ longer ?_ ?_ ?_
    · simp only [if_true, List.length_append, List.length_singleton]
      omega
    · simp only [if_true]
      split <;> rfl
    · intro after is_after
      simp only [if_true] at is_after
      split at is_after
      · cases is_after
      · cases is_after
        have grown : (state.client ++ (state.fanout.session.sent ++ [event.block])).length =
            state.stream.length + 1 := by
          simp only [List.length_append, List.length_singleton]
          omega
        refine ⟨filter, quiet, Nat.le_succ_of_le behind, ?_, ?_, least, ?_, .inr present⟩
        · exact (Nat.succ_le_succ last.le).trans_eq grown.symm
        · simp [settle, number]
        · have below : live.delivered ≤ (state.stream.length : Int) := by
            rw [delivered]
            split
            · exact Int.natCast_nonneg _
            · exact le_rfl
          have largest : max live.delivered event.seq = (state.stream.length + 1 : Nat) := by
            rw [max_eq_right (by omega)]
            omega
          refine largest.trans ?_
          rw [if_neg (by simp)]
          exact congrArg Nat.cast grown.symm

/-- A ring which reaches back to the client holds everything behind the client's place. -/
theorem Sole.pending (sole : Sole fanout) {position : Nat}
    (reaches : fanout.published.length - fanout.keys.events.length ≤ position) :
    (fanout.keys.events.filter fun event => decide ((position : Int) < event.seq)) =
      fanout.published.drop position := by
  obtain ⟨before, whole⟩ := sole.ring
  have start : before.length ≤ position := by
    rw [← whole, List.length_append, Nat.add_sub_cancel] at reaches
    exact reaches
  have behind : fanout.keys.events = (fanout.keys.events.take (position - before.length)) ++
      fanout.published.drop position := by
    rw [← whole, List.drop_append, List.drop_eq_nil_of_le start, List.nil_append,
      List.take_append_drop]
  rw [behind, List.filter_append]
  have seen : ((fanout.keys.events.take (position - before.length)).filter
      fun event => decide ((position : Int) < event.seq)) = [] := by
    rw [List.filter_eq_nil_iff]
    intro event listed
    obtain ⟨offset, found⟩ := List.mem_iff_getElem?.mp listed
    rw [List.getElem?_take] at found
    split at found
    case isFalse => cases found
    next inside =>
      have placed : fanout.published[before.length + offset]? = some event := by
        rw [← whole, List.getElem?_append_right (Nat.le_add_right _ _), Nat.add_sub_cancel_left]
        exact found
      have number := sole.numbers _ event placed
      simp only [decide_eq_true_eq, not_lt]
      omega
  have unseen : ((fanout.published.drop position).filter
      fun event => decide ((position : Int) < event.seq)) = fanout.published.drop position := by
    rw [List.filter_eq_self]
    intro event listed
    obtain ⟨offset, found⟩ := List.mem_iff_getElem?.mp listed
    rw [List.getElem?_drop] at found
    have number := sole.numbers _ event found
    exact decide_eq_true (by omega)
  rw [seen, unseen, List.nil_append]

theorem Sole.contiguous (sole : Sole fanout) (position : Nat) :
    Contiguous (fanout.published.drop position) := by
  refine List.isChain_iff_getElem.mpr fun offset inside => ?_
  rw [List.length_drop] at inside
  simp only [List.getElem_drop]
  have here := sole.numbers (position + offset) _ (List.getElem?_eq_getElem (by omega))
  have next := sole.numbers (position + (offset + 1)) _ (List.getElem?_eq_getElem (by omega))
  rw [here, next]
  push_cast
  omega

theorem Sole.replay (sole : Sole fanout) {position : Nat} (generation : String)
    (reaches : fanout.published.length - fanout.keys.events.length ≤ position) :
    (replayBlocks fanout.keys.events position generation false).blocks =
        (fanout.published.drop position).map (·.block) ∧
      (replayBlocks fanout.keys.events position generation false).minSeq ≤ position + 1 ∧
      (replayBlocks fanout.keys.events position generation false).maxSeq =
        if fanout.published.drop position = [] then 0 else fanout.published.length := by
  have contiguous := sole.contiguous position
  rw [replayBlocks, sole.pending reaches]
  cases pending : fanout.published.drop position with
  | nil => exact ⟨rfl, Int.add_nonneg (Int.natCast_nonneg _) Int.one_nonneg, rfl⟩
  | cons first later =>
      rw [pending] at contiguous
      have first_eq : fanout.published[position]? = some first := by
        rw [← Nat.add_zero position, ← List.getElem?_drop, pending]
        rfl
      have first_seq := sole.numbers position first first_eq
      obtain ⟨last, last_eq, most⟩ := contiguous.max_eq
      have last_seq : last.seq = fanout.published.length := by
        have found := last_eq
        rw [← pending, List.getLast?_drop] at found
        split at found
        · cases found
        · rw [List.getLast?_eq_getElem?] at found
          have number := sole.numbers _ last found
          omega
      refine ⟨?_, ?_, ?_⟩
      · simp only
        rw [if_neg (by omega), List.nil_append]
        refine List.map_congr_left fun event listed => ?_
        rw [← pending] at listed
        obtain ⟨place, found⟩ := List.mem_iff_getElem?.mp (List.mem_of_mem_drop listed)
        rw [epochOr, if_neg (sole.event_eq found).2.1]
        rfl
      · exact contiguous.min_eq.trans_le first_seq.le
      · rw [if_neg (by simp)]
        exact most.trans last_seq

variable {epoch : Option String} {current : Int}

theorem InOrder.verdict (inOrder : InOrder state)
    (is_judged : state.fanout.session.phase = .judged epoch current) :
    cursorVerdict state.fanout.session.cursor epoch current = ⟨state.client.length, false⟩ := by
  have waits : state.fanout.session.phase.waiting = true := by
    rw [is_judged]
    rfl
  have is_read : state.fanout.session.phase.read = some epoch := by
    rw [is_judged]
    rfl
  obtain ⟨-, -, -, seq, claimed⟩ := inOrder.waiting waits
  obtain ⟨-, same⟩ := inOrder.read epoch is_read
  have counted := inOrder.judged epoch current is_judged
  unfold cursorVerdict Cursor.empty
  rw [seq]
  rcases Nat.eq_zero_or_pos state.client.length with nothing | some_received
  · rw [nothing, if_pos (by decide)]
    rfl
  · obtain ⟨generation, known⟩ := inOrder.known some_received
    rw [if_neg (by simpa using some_received.ne'), if_neg (by omega), same some_received,
      claimed some_received, known]
    simp

/-- A session knows the epoch unless nothing has been published when it reads the ring. -/
theorem InOrder.generation (inOrder : InOrder state)
    (is_judged : state.fanout.session.phase = .judged epoch current)
    (reaches : state.fanout.published.length - state.fanout.keys.events.length ≤
      state.client.length) :
    openGeneration epoch state.fanout.keys.events = "" ∧ state.fanout.published = [] ∨
      state.fanout.keys.epoch = some (openGeneration epoch state.fanout.keys.events) := by
  have is_read : state.fanout.session.phase.read = some epoch := by
    rw [is_judged]
    rfl
  obtain ⟨known, same⟩ := inOrder.read epoch is_read
  cases epoch with
  | some generation =>
      have present := known generation rfl
      have named := (inOrder.sole.key generation present).1
      rw [openGeneration, epochOr, Option.getD_some, if_neg named]
      exact .inr present
  | none =>
      rcases Nat.eq_zero_or_pos state.client.length with nothing | some_received
      · cases last : state.fanout.keys.events.getLast? with
        | none =>
            rw [List.getLast?_eq_none_iff] at last
            rw [last, nothing] at reaches
            rw [last]
            exact .inl ⟨rfl, List.length_eq_zero_iff.mp (Nat.le_zero.mp reaches)⟩
        | some event =>
            have listed := inOrder.sole.ring.subset (List.mem_of_getLast? last)
            obtain ⟨place, found⟩ := List.mem_iff_getElem?.mp listed
            rw [openGeneration, last]
            exact .inr (inOrder.sole.event_eq found).1
      · obtain ⟨generation, present⟩ := inOrder.known some_received
        rw [← same some_received] at present
        cases present

theorem InOrder.readRing (inOrder : InOrder state)
    (is_judged : state.fanout.session.phase = .judged epoch current)
    (reaches : state.fanout.published.length - state.fanout.keys.events.length ≤
      state.client.length) (terminalAtOpen : Bool) :
    InOrder { state with fanout := { state.fanout with
      session := state.fanout.openSession terminal (state.fanout.opening epoch current true)
        terminalAtOpen } } := by
  have waits : state.fanout.session.phase.waiting = true := by
    rw [is_judged]
    rfl
  obtain ⟨nothing, behind, ahead, -, -⟩ := inOrder.waiting waits
  have verdict : (state.fanout.opening epoch current true).verdict =
      ⟨state.client.length, false⟩ := inOrder.verdict is_judged
  have generation := inOrder.generation is_judged reaches
  obtain ⟨blocks, least, most⟩ :=
    inOrder.sole.replay (openGeneration epoch state.fanout.keys.events) reaches
  have replay : (state.fanout.opening epoch current true).replay =
      replayBlocks state.fanout.keys.events state.client.length
        (openGeneration epoch state.fanout.keys.events) false := by
    rw [Opening.replay, verdict]
    rfl
  have sent : (state.fanout.opening epoch current true).blocks =
      (state.fanout.published.drop state.client.length).map (·.block) := by
    rw [Opening.blocks, Opening.gapMark, verdict, replay, blocks]
    simp
  have client : state.client =
      (state.fanout.published.take state.client.length).map (·.block) := by
    have received := inOrder.received
    rwa [stream, nothing, List.append_nil] at received
  have whole : state.client ++ (state.fanout.opening epoch current true).blocks =
      state.fanout.published.map (·.block) := by
    rw [sent, client, List.length_map, List.length_take, Nat.min_eq_left (by omega),
      ← List.map_append, List.take_append_drop]
  have length : (state.client ++ (state.fanout.opening epoch current true).blocks).length =
      state.fanout.published.length := by
    rw [whole, List.length_map]
  refine inOrder.proceed _ ?_ length.le ?_ ?_
  · simp only [Fanout.openSession]
    rw [length, List.take_length]
    exact whole
  · simp only [Fanout.openSession]
    split <;> rfl
  · intro live is_live
    simp only [Fanout.openSession] at is_live
    split at is_live
    · cases is_live
    · cases is_live
      refine ⟨?_, ?_, behind, ahead.trans_eq length.symm, ?_, ?_, ?_, ?_⟩
      · simp only [Opening.live, verdict]
      · simp only [Opening.live, verdict, Bool.false_and]
      · exact Int.natCast_nonneg _
      · simp only [Opening.live, replay]
        exact least
      · rw [sent] at length
        simp only [Opening.live, Fanout.openSession, stream, replay, most, sent,
          List.map_eq_nil_iff, length]
      · refine generation.imp_left fun unknown => ⟨unknown.1, ?_⟩
        exact length.trans (List.length_eq_zero_iff.mpr unknown.2)

theorem InOrder.wait (inOrder : InOrder state) (phase : Phase)
    (waits : state.fanout.session.phase.waiting = true) (still : phase.waiting = true)
    (read : ∀ epoch, phase.read = some epoch →
      (∀ generation, epoch = some generation → state.fanout.keys.epoch = some generation) ∧
        (0 < state.client.length → epoch = state.fanout.keys.epoch))
    (judged : ∀ epoch current, phase = .judged epoch current →
      (state.client.length : Int) ≤ current) :
    InOrder { state with fanout := { state.fanout with
      session := { state.fanout.session with phase := phase } } } := by
  refine ⟨inOrder.sole.session _, inOrder.received, inOrder.within, fun _ => inOrder.waiting waits,
    read, judged, ?_⟩
  rintro live ⟨⟩
  cases still

theorem InOrder.readEpoch (inOrder : InOrder state)
    (is_subscribed : state.fanout.session.phase = .subscribed) :
    InOrder { state with fanout := { state.fanout with session :=
      { state.fanout.session with phase := .epochRead state.fanout.keys.epoch } } } := by
  refine inOrder.wait _ (by rw [is_subscribed]; rfl) rfl ?_ (by simp)
  rintro epoch ⟨⟩
  exact ⟨fun _ same => same, fun _ => rfl⟩

theorem InOrder.readCounter (inOrder : InOrder state)
    (is_read : state.fanout.session.phase = .epochRead epoch) :
    InOrder { state with fanout := { state.fanout with session :=
      { state.fanout.session with
        phase := .judged epoch (state.fanout.keys.seq.getD 0 : Nat) } } } := by
  have read := inOrder.read epoch (by rw [is_read]; rfl)
  refine inOrder.wait _ (by rw [is_read]; rfl) rfl ?_ ?_
  · rintro other ⟨⟩
    exact read
  · rintro other current ⟨⟩
    have within := inOrder.within
    rw [stream, List.length_append] at within
    rw [inOrder.sole.counter]
    omega

theorem InOrder.rereadEpoch (inOrder : InOrder state)
    (is_live : state.fanout.session.phase = .live live) (answered : Bool) :
    InOrder { state with fanout := { state.fanout with session :=
      { state.fanout.session with
        sent := state.fanout.session.sent ++ (Broker.rereadEpoch live
          (if answered then state.fanout.keys.epoch else none)).1
        phase := .live (Broker.rereadEpoch live
          (if answered then state.fanout.keys.epoch else none)).2 } } } := by
  have abreast := inOrder.live live is_live
  have silent : ∃ after, Broker.rereadEpoch live
      (if answered then state.fanout.keys.epoch else none) = ([], after) ∧
        Abreast state after := by
    cases read : if answered then state.fanout.keys.epoch else none with
    | none => exact ⟨live, rfl, abreast⟩
    | some fresh =>
        have present : state.fanout.keys.epoch = some fresh := by
          split at read
          · exact read
          · cases read
        rw [Broker.rereadEpoch, abreast.quiet]
        rcases abreast.generation with ⟨unarmed, -⟩ | same
        · rw [if_pos unarmed]
          exact ⟨_, rfl, { abreast with quiet := rfl, generation := .inr present }⟩
        · have named := (inOrder.sole.key _ same).1
          rw [present] at same
          rw [if_neg named, if_neg (not_not.mpr (Option.some.inj same))]
          exact ⟨live, rfl, abreast⟩
  obtain ⟨after, result, abreast⟩ := silent
  rw [result]
  simp only [List.append_nil]
  refine inOrder.proceed _ inOrder.received inOrder.within rfl ?_
  rintro other ⟨⟩
  obtain ⟨filter, quiet, behind, ahead, arrived, least, delivered, generation⟩ := abreast
  exact ⟨filter, quiet, behind, ahead, arrived, least, delivered, generation⟩

theorem InOrder.close (inOrder : InOrder state) (kept : Nat) :
    InOrder { state with fanout := { state.fanout with session :=
      { state.fanout.session with
        sent := state.fanout.session.sent ++
          (state.fanout.pendingBlocks.take kept).filter Block.isMarker
        phase := .closed } } } := by
  have silent : (state.fanout.pendingBlocks.take kept).filter Block.isMarker = [] := by
    rw [List.filter_eq_nil_iff]
    intro block listed
    have pending := List.mem_of_mem_take listed
    rw [Fanout.pendingBlocks] at pending
    split at pending
    next live event is_live found =>
      rcases (inOrder.live live is_live).classify inOrder found with
        ⟨-, -, result⟩ | ⟨-, -, result⟩
      · simp [result] at pending
      · rw [result, List.mem_singleton] at pending
        simp [pending]
    · cases pending
  rw [silent]
  simp only [List.append_nil]
  exact inOrder.proceed _ inOrder.received inOrder.within rfl (by simp)

/-- The client gives the id of the last event it has, and it is read back as its place. -/
theorem Sole.cursor (sole : Sole fanout) {position : Nat}
    (within : position ≤ fanout.published.length) :
    parseCursor (((fanout.published.take position).map (·.block)).getLast?.map (·.id)) none =
      .ok ⟨position, if position = 0 then none else fanout.keys.epoch⟩ := by
  cases position with
  | zero => rfl
  | succ place =>
      have found : fanout.published[place]? = some fanout.published[place] :=
        List.getElem?_eq_getElem within
      obtain ⟨present, named, number⟩ := sole.event_eq found
      have id_eq : fanout.published[place].block.id =
          eventId fanout.published[place].epoch (place + 1 : Nat) := by
        rw [Block.id, RingEvent.block, Block.epoch, Block.seq, number]
        rfl
      have small : place + 1 < 10 ^ Text.maxStrDigits :=
        (within.trans_lt sole.small).trans_le (Nat.pow_le_pow_right (by decide) (by decide))
      rw [List.take_add_one, found, List.map_append, Option.toList_some, List.map_singleton,
        List.getLast?_concat, Option.map_some, id_eq, parseCursor_eventId named small, present]
      rfl

theorem InOrder.reconnect (inOrder : InOrder state) (taken : Nat) :
    ∃ after, state.step limits terminal (.reconnect taken) = some after ∧
      after.stream = state.client ++ state.fanout.session.sent.take taken ∧ InOrder after := by
  have kept : state.client ++ state.fanout.session.sent.take taken <+: state.stream :=
    (List.prefix_append_right_inj _).mpr (List.take_prefix _ _)
  have within := kept.length_le.trans inOrder.within
  have received : state.client ++ state.fanout.session.sent.take taken =
      (state.fanout.published.take
        (state.client ++ state.fanout.session.sent.take taken).length).map (·.block) := by
    have shorter := List.prefix_iff_eq_take.mp kept
    rw [inOrder.received, ← List.map_take, List.take_take, Nat.min_eq_left kept.length_le]
      at shorter
    exact shorter
  have parsed := inOrder.sole.cursor within
  rw [← received] at parsed
  simp only [step, parsed, Fanout.step, Option.map_some]
  refine ⟨_, rfl, List.append_nil _, inOrder.sole.session _, ?_, ?_,
    fun _ => ⟨rfl, within, le_rfl, rfl, ?_⟩, ?_, ?_, ?_⟩
  · rw [stream, List.append_nil]
    exact received
  · rw [stream, List.append_nil]
    exact within
  · intro some_received
    exact if_neg some_received.ne'
  · rintro other ⟨⟩
  · rintro other current ⟨⟩
  · rintro live ⟨⟩

end Sessions

theorem InOrder.fan (inOrder : InOrder state) {action : FanoutAction}
    (permitted : OneEpoch state (.fan action)) (opens : action.subscribes = false)
    (stepped : state.fanout.step limits terminal action = some fanout) :
    InOrder { state with fanout := fanout } := by
  cases action with
  | start fresh own ensured =>
      cases stepped
      obtain ⟨sole, key⟩ := inOrder.sole.ensure (.inl permitted)
      exact inOrder.move sole rfl ⟨[], by simp⟩ key
  | tick fresh ensured =>
      rw [Fanout.step] at stepped
      split at stepped
      · cases stepped
      next epoch is_writer =>
        cases stepped
        obtain ⟨sole, key⟩ := inOrder.sole.ensure (.inr is_writer)
        exact inOrder.move sole rfl ⟨[], by simp⟩ key
  | publish data =>
      rw [Fanout.step] at stepped
      split at stepped
      · cases stepped
      next epoch is_writer =>
        split at stepped
        next small =>
          cases stepped
          exact inOrder.move (inOrder.sole.publish is_writer small) rfl ⟨_, rfl⟩
            fun _ same => same
        · cases stepped
  | expire expired =>
      obtain ⟨sole, key⟩ := inOrder.sole.expire permitted
      cases stepped
      refine inOrder.move sole rfl ⟨[], by simp⟩ fun epoch same => ?_
      exact key.trans same
  | subscribe cursor => cases opens
  | readEpoch answered =>
      cases permitted
      cases phase : state.fanout.session.phase with
      | subscribed =>
          simp only [Fanout.step, phase, Option.some.injEq] at stepped
          cases stepped
          exact inOrder.readEpoch phase
      | _ => simp [Fanout.step, phase] at stepped
  | readCounter answered =>
      cases permitted
      cases phase : state.fanout.session.phase with
      | epochRead epoch =>
          simp only [Fanout.step, phase, Option.some.injEq] at stepped
          cases stepped
          exact inOrder.readCounter phase
      | _ => simp [Fanout.step, phase] at stepped
  | readRing answered terminalAtOpen =>
      obtain ⟨rfl, reaches⟩ := permitted
      cases phase : state.fanout.session.phase with
      | judged epoch current =>
          simp only [Fanout.step, phase, Option.some.injEq] at stepped
          cases stepped
          exact inOrder.readRing phase reaches terminalAtOpen
      | _ => simp [Fanout.step, phase] at stepped
  | receive =>
      rw [Fanout.step] at stepped
      split at stepped
      next live event is_live found =>
        cases stepped
        exact inOrder.receive is_live found
      · cases stepped
  | rereadEpoch answered =>
      cases phase : state.fanout.session.phase with
      | live live =>
          simp only [Fanout.step, phase, Option.some.injEq] at stepped
          cases stepped
          exact inOrder.rereadEpoch phase answered
      | _ => simp [Fanout.step, phase] at stepped
  | close kept =>
      cases stepped
      exact inOrder.close kept

theorem InOrder.step (inOrder : InOrder state) {action : ReconnectAction}
    (permitted : OneEpoch state action)
    (stepped : Reconnect.step limits terminal state action = some after) : InOrder after := by
  cases action with
  | fan action =>
      rw [Reconnect.step] at stepped
      split at stepped
      · cases stepped
      next opens =>
        obtain ⟨fanout, fanned, rfl⟩ := Option.map_eq_some_iff.mp stepped
        exact inOrder.fan permitted (Bool.eq_false_of_not_eq_true opens) fanned
  | reconnect taken =>
      obtain ⟨next, same, -, kept⟩ := inOrder.reconnect taken
      rw [same] at stepped
      obtain rfl := Option.some.inj stepped
      exact kept

/-- Two events, a session cut behind the first of them, one more event and the next session. -/
def cutAndResumed : List ReconnectAction :=
  [.fan (.start "e" "own" .answered), .reconnect 0, .fan (.publish [1]), .fan (.readEpoch true),
    .fan (.readCounter true), .fan (.readRing true false), .fan .receive, .fan (.publish [2]),
    .fan .receive, .reconnect 1, .fan (.publish [3]), .fan (.readEpoch true),
    .fan (.readCounter true), .fan (.readRing true false), .fan (.publish [4]), .fan .receive,
    .fan .receive]

end Reconnect

end Hermes.AgentProxy.Broker
