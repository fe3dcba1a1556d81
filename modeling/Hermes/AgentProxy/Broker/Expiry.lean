import Hermes.AgentProxy.Broker.Fanout
import Hermes.AgentProxy.Broker.Gaps

/-!
# Expiry of the ring

The numbers of a run restart when the counter expires.  A session takes a message for the copy of a
replayed event by its epoch and number alone, so nothing is lost as long as a restarted counter
goes with an epoch which no session can have seen together with the old numbers.
-/

namespace Hermes.AgentProxy.Broker

/-- The session has read the epoch key and not yet the ring. -/
def Phase.opening : Phase → Bool
  | .epochRead _ | .judged _ _ => true
  | _ => false

def Phase.epoch : Phase → Option String
  | .epochRead epoch | .judged epoch _ => epoch
  | _ => none

namespace Fanout

variable {limits : RingLimits} {terminal : Block → Bool} {state after : Fanout}

/-- The counter goes only together with the epoch key and the ring, and not while a session is
opening; and the writer which finds it gone has adopted the epoch key of the day, unless nothing
has been published yet. -/
def KeepsNumbering (state : Fanout) : FanoutAction → Prop
  | .expire expired => expired.seq = true → state.keys.seq ≠ none →
      expired.epoch = true ∧ expired.events = true ∧ state.session.phase.opening = false
  | .publish _ => state.keys.seq = none →
      state.published = [] ∨ state.keys.epoch = state.writer
  | _ => True

instance (state : Fanout) : (action : FanoutAction) → Decidable (KeepsNumbering state action)
  | .expire expired => inferInstanceAs (Decidable (expired.seq = true → state.keys.seq ≠ none →
      expired.epoch = true ∧ expired.events = true ∧ state.session.phase.opening = false))
  | .publish _ => inferInstanceAs (Decidable (state.keys.seq = none →
      state.published = [] ∨ state.keys.epoch = state.writer))
  | .start _ _ _ | .tick _ _ | .subscribe _ | .readEpoch _ | .readCounter _ | .readRing _ _
  | .receive | .rereadEpoch _ | .close _ => .isTrue trivial

/-- How many events were published before the counter started last. -/
def base (state : Fanout) : Nat := state.published.length - state.keys.seq.getD 0

/-- Nothing was published under the epoch before the counter started last. -/
def Recent (state : Fanout) (epoch : String) : Prop :=
  ∀ place event, state.published[place]? = some event → place < state.base → event.epoch ≠ epoch

/-- The ring is the end of what was published, numbered from where the counter started, under
epochs which are new since then. -/
structure Numbered (state : Fanout) : Prop where
  counted : state.keys.seq.getD 0 ≤ state.published.length
  numbers : ∀ place event, state.published[place]? = some event → state.base ≤ place →
    event.seq + (state.base : Int) = (place : Int) + 1
  positive : ∀ event ∈ state.published, 1 ≤ event.seq
  ring : state.keys.events <:+ state.published
  short : state.keys.events.length ≤ state.keys.seq.getD 0
  unnamed : "" ∉ state.drawn
  named : ∀ event ∈ state.published, event.epoch ∈ state.drawn
  keyNamed : ∀ epoch, state.keys.epoch = some epoch → epoch ∈ state.drawn
  writerNamed : ∀ epoch, state.writer = some epoch → epoch ∈ state.drawn
  keyRecent : ∀ epoch, state.keys.epoch = some epoch → state.Recent epoch
  writerRecent : state.keys.seq ≠ none → ∀ epoch, state.writer = some epoch → state.Recent epoch
  apart : ∀ place event, state.published[place]? = some event → state.base ≤ place →
    state.Recent event.epoch

theorem numbered_empty : Numbered {} := by
  constructor <;> simp [Recent]

theorem Numbered.congr (numbered : Numbered state) (session : Session) :
    Numbered { state with session := session } := by
  obtain ⟨counted, numbers, positive, ring, short, unnamed, named, keyNamed, writerNamed,
    keyRecent, writerRecent, apart⟩ := numbered
  exact ⟨counted, numbers, positive, ring, short, unnamed, named, keyNamed, writerNamed,
    keyRecent, writerRecent, apart⟩

theorem Numbered.recent_of_new (numbered : Numbered state) {epoch : String}
    (new : epoch ∉ state.drawn) : state.Recent epoch := by
  rintro place event found - rfl
  exact new (numbered.named event (List.mem_of_getElem? found))

/-- The ring may lose its head, and the writer and the epoch key may change to recent epochs. -/
theorem Numbered.rename (numbered : Numbered state) {keys : RunKeys} {writer : Option String}
    {drawn : List String} (seq : keys.seq = state.keys.seq)
    (events : keys.events <:+ state.keys.events) (grown : state.drawn ⊆ drawn)
    (unnamed : "" ∉ drawn)
    (key : ∀ epoch, keys.epoch = some epoch → epoch ∈ drawn ∧ state.Recent epoch)
    (written : ∀ epoch, writer = some epoch → epoch ∈ drawn ∧
      (state.keys.seq ≠ none → state.Recent epoch)) :
    Numbered { state with keys := keys, writer := writer, drawn := drawn } := by
  have base_eq : base { state with keys := keys, writer := writer, drawn := drawn } =
      state.base := by
    simp only [base, seq]
  have recent_iff (epoch : String) :
      Recent { state with keys := keys, writer := writer, drawn := drawn } epoch ↔
        state.Recent epoch := by
    simp only [Recent, base_eq]
  constructor
  · simpa only [seq] using numbered.counted
  · simpa only [base_eq] using numbered.numbers
  · exact numbered.positive
  · exact events.trans numbered.ring
  · have short := events.length_le.trans numbered.short
    simpa only [seq] using short
  · exact unnamed
  · exact fun event listed => grown (numbered.named event listed)
  · exact fun epoch is_key => (key epoch is_key).1
  · exact fun epoch is_writer => (written epoch is_writer).1
  · exact fun epoch is_key => (recent_iff epoch).mpr (key epoch is_key).2
  · intro counting epoch is_writer
    rw [seq] at counting
    exact (recent_iff epoch).mpr ((written epoch is_writer).2 counting)
  · simp only [base_eq, recent_iff]
    exact numbered.apart

/-- What `ensure_epoch` may leave in the key and answer. -/
theorem ensureEpoch_cases (keys : RunKeys) (fresh : String) (ensured : Ensured) :
    (ensureEpoch keys fresh ensured).2.seq = keys.seq ∧
    (ensureEpoch keys fresh ensured).2.events = keys.events ∧
    ((ensureEpoch keys fresh ensured).2.epoch = keys.epoch ∨
      (ensureEpoch keys fresh ensured).2.epoch = some fresh) ∧
    ((ensureEpoch keys fresh ensured).1 = none ∨
      (ensureEpoch keys fresh ensured).1 = (ensureEpoch keys fresh ensured).2.epoch) := by
  have key : (keys.setEpoch fresh).epoch = keys.epoch ∨
      (keys.setEpoch fresh).epoch = some fresh := by
    rw [RunKeys.setEpoch]
    split
    · exact .inl rfl
    · exact .inr rfl
  cases ensured with
  | answered => exact ⟨keys.setEpoch_seq fresh, keys.setEpoch_events fresh, key, .inr rfl⟩
  | failed => exact ⟨rfl, rfl, .inl rfl, .inl rfl⟩
  | unanswered => exact ⟨keys.setEpoch_seq fresh, keys.setEpoch_events fresh, key, .inl rfl⟩

theorem publish_seq (keys : RunKeys) (epoch : String) (data : Bytes) :
    (keys.publish limits epoch data).2.seq = some (keys.seq.getD 0 + 1) := rfl

/-- A publish starts the counter where it is missing and leaves the base where it was. -/
theorem base_publish (numbered : Numbered state) {epoch : String} {data : Bytes} :
    base { state with
      keys := (state.keys.publish limits epoch data).2
      published := state.published ++ [(state.keys.publish limits epoch data).1] } =
      state.base := by
  have counted := numbered.counted
  simp only [base, publish_seq, List.length_append, List.length_singleton, Option.getD_some]
  omega

theorem recent_publish (numbered : Numbered state) {epoch other : String} {data : Bytes} :
    Recent { state with
      keys := (state.keys.publish limits epoch data).2
      published := state.published ++ [(state.keys.publish limits epoch data).1] } other ↔
      state.Recent other := by
  have within : state.base ≤ state.published.length := Nat.sub_le _ _
  simp only [Recent, base_publish numbered]
  refine forall_congr' fun place => forall_congr' fun event => ?_
  constructor
  · intro recent found below
    exact recent (by rw [List.getElem?_append_left (by omega), found]) below
  · intro recent found below
    rw [List.getElem?_append_left (by omega)] at found
    exact recent found below

theorem Numbered.publish (numbered : Numbered state) {epoch : String} {data : Bytes}
    (is_writer : state.writer = some epoch)
    (keeps : state.keys.seq = none → state.published = [] ∨ state.keys.epoch = state.writer) :
    Numbered { state with
      keys := (state.keys.publish limits epoch data).2
      published := state.published ++ [(state.keys.publish limits epoch data).1] } := by
  have recent_writer : state.Recent epoch := by
    cases counting : state.keys.seq with
    | some count => exact numbered.writerRecent (by simp [counting]) epoch is_writer
    | none =>
        rcases keeps counting with nothing | adopted
        · intro place event found
          simp [nothing] at found
        · exact numbered.keyRecent epoch (adopted.trans is_writer)
  have counted := numbered.counted
  have number : (state.keys.publish limits epoch data).1.seq =
      (state.published.length : Int) + 1 - state.base := by
    simp only [RunKeys.publish, base]
    omega
  have fits := state.keys.publish_events limits epoch data
  constructor
  · simp only [publish_seq, Option.getD_some, List.length_append, List.length_singleton]
    omega
  · intro place event found above
    rw [base_publish numbered] at above ⊢
    rcases getElem?_snoc found with old | ⟨rfl, rfl⟩
    · exact numbered.numbers place event old above
    · rw [number]
      omega
  · intro event listed
    rcases List.mem_append.mp listed with old | new
    · exact numbered.positive event old
    · rw [List.mem_singleton.mp new]
      simp only [RunKeys.publish]
      omega
  · obtain ⟨before, same⟩ := numbered.ring
    exact fits.trans ⟨before, by rw [← same, List.append_assoc]⟩
  · have short := numbered.short
    have length := fits.length_le
    simp only [publish_seq, Option.getD_some]
    simp only [List.length_append, List.length_singleton] at length
    omega
  · exact numbered.unnamed
  · intro event listed
    rcases List.mem_append.mp listed with old | new
    · exact numbered.named event old
    · rw [List.mem_singleton.mp new]
      exact numbered.writerNamed epoch is_writer
  · exact numbered.keyNamed
  · exact numbered.writerNamed
  · intro other is_key
    exact (recent_publish numbered).mpr (numbered.keyRecent other is_key)
  · intro _ other also_writer
    rw [recent_publish numbered]
    rw [is_writer] at also_writer
    cases also_writer
    exact recent_writer
  · intro place event found above
    rw [recent_publish numbered]
    rw [base_publish numbered] at above
    rcases getElem?_snoc found with old | ⟨-, rfl⟩
    · exact numbered.apart place event old above
    · exact recent_writer

theorem numbered_lost (numbered : Numbered state) {keys : RunKeys} (seq : keys.seq = none)
    (epoch : keys.epoch = none) (events : keys.events = []) :
    Numbered { state with keys := keys } := by
  have base_eq : base { state with keys := keys } = state.published.length := by
    simp [base, seq]
  have none_above {place : Nat} {event : RingEvent}
      (found : state.published[place]? = some event)
      (above : base { state with keys := keys } ≤ place) : False := by
    have inside := (List.getElem?_eq_some_iff.mp found).1
    omega
  constructor
  · simp [seq]
  · exact fun place event found above => (none_above found above).elim
  · exact numbered.positive
  · rw [events]
    exact List.nil_suffix
  · simp [events]
  · exact numbered.unnamed
  · exact numbered.named
  · simp [epoch]
  · exact numbered.writerNamed
  · simp [epoch]
  · exact fun counting => absurd seq counting
  · exact fun place event found above => (none_above found above).elim

theorem expire_seq {expired : RunKeys.Expired}
    (kept : ¬(expired.seq = true ∧ state.keys.seq ≠ none)) :
    (state.keys.expire expired).seq = state.keys.seq := by
  simp only [RunKeys.expire]
  split
  next gone => exact (not_not.mp fun present => kept ⟨gone, present⟩).symm
  · rfl

theorem Numbered.expire (numbered : Numbered state) {expired : RunKeys.Expired}
    (keeps : expired.seq = true → state.keys.seq ≠ none →
      expired.epoch = true ∧ expired.events = true) :
    Numbered { state with keys := state.keys.expire expired } := by
  by_cases lost : expired.seq = true ∧ state.keys.seq ≠ none
  · obtain ⟨epoch, events⟩ := keeps lost.1 lost.2
    exact numbered_lost numbered (by simp [RunKeys.expire, lost.1])
      (by simp [RunKeys.expire, epoch]) (by simp [RunKeys.expire, events])
  refine numbered.rename (expire_seq lost) ?_ (List.Subset.refl _) numbered.unnamed
    (fun epoch is_key => ?_)
    fun epoch is_writer => ?_
  · simp only [RunKeys.expire]
    split
    · exact List.nil_suffix
    · exact List.suffix_rfl
  · simp only [RunKeys.expire] at is_key
    split at is_key
    · cases is_key
    · exact ⟨numbered.keyNamed epoch is_key, numbered.keyRecent epoch is_key⟩
  · exact ⟨numbered.writerNamed epoch is_writer,
      fun counting => numbered.writerRecent counting epoch is_writer⟩

theorem Numbered.ensure (numbered : Numbered state) {fresh instead : String} {ensured : Ensured}
    {drawn : List String} (new : fresh ∉ state.drawn) (unnamed : "" ∉ drawn)
    (grown : state.drawn ⊆ drawn) (fresh_drawn : fresh ∈ drawn)
    (fallback : instead ∈ drawn ∧ (state.keys.seq ≠ none → state.Recent instead)) :
    Numbered { state with
      keys := (ensureEpoch state.keys fresh ensured).2
      writer := some ((ensureEpoch state.keys fresh ensured).1.getD instead)
      drawn := drawn } := by
  obtain ⟨seq, events, key, answer⟩ := ensureEpoch_cases state.keys fresh ensured
  have key_recent (epoch : String)
      (is_key : (ensureEpoch state.keys fresh ensured).2.epoch = some epoch) :
      epoch ∈ drawn ∧ state.Recent epoch := by
    rcases key with same | replaced
    · rw [same] at is_key
      exact ⟨grown (numbered.keyNamed epoch is_key), numbered.keyRecent epoch is_key⟩
    · rw [replaced] at is_key
      cases is_key
      exact ⟨fresh_drawn, numbered.recent_of_new new⟩
  refine numbered.rename seq (events ▸ List.suffix_rfl) grown unnamed key_recent ?_
  intro epoch is_writer
  cases answered : (ensureEpoch state.keys fresh ensured).1 with
  | none =>
      rw [answered] at is_writer
      cases is_writer
      exact fallback
  | some value =>
      rw [answered] at is_writer
      cases is_writer
      rcases answer with silent | is_key
      · rw [answered] at silent
        cases silent
      · have recent := key_recent value (is_key.symm.trans answered)
        exact ⟨recent.1, fun _ => recent.2⟩

/-- Nothing more will be published under the epoch. -/
def Stale (state : Fanout) (epoch : String) : Prop :=
  epoch ∈ state.drawn ∧ state.keys.epoch ≠ some epoch ∧
    (state.keys.seq ≠ none → state.writer ≠ some epoch)

/-- The numbers of the replay are in force: a message among them is one which was replayed, now and
later. -/
structure Window (state : Fanout) (live : LiveState) : Prop where
  armed : live.generation ≠ ""
  filled : state.published ≠ []
  covers : ∀ place event, state.session.next ≤ place → state.published[place]? = some event →
    event.epoch = live.generation → live.replayMinSeq ≤ event.seq →
      event.seq ≤ live.delivered → (event, place) ∈ state.session.received
  bounded : live.delivered ≤ (state.keys.seq.getD 0 : Int) ∨ state.Stale live.generation

/-- What the live phase knows: nothing it has not seen on the channel, or a window. -/
structure Following (state : Fanout) (live : LiveState) : Prop where
  known : live.generation ≠ "" → live.generation ∈ state.drawn
  unarmed : live.generation = "" → live.delivered = 0 ∧ live.arrived = 0
  caught : live.delivered ≤ live.arrived ∨ Window state live

/-- Everything the session took from the channel was sent, in the replay or live. -/
structure Tracked (state : Fanout) : Prop where
  places : ∀ event place, (event, place) ∈ state.session.received →
    state.published[place]? = some event
  blocks : (state.session.sent.filter fun block => !block.isMarker) =
    state.session.received.map (·.1.block)
  complete : ∀ place, state.session.subscribedAt ≤ place → place < state.session.next →
    ∃ event, (event, place) ∈ state.session.received
  waiting : state.session.phase.waiting = true → state.session.next = state.session.subscribedAt
  recent : ∀ epoch, state.session.phase.epoch = some epoch →
    epoch ∈ state.drawn ∧ state.Recent epoch
  following : ∀ live, state.session.phase = .live live → Following state live

theorem tracked_empty : Tracked {} := by
  constructor <;> simp [Phase.epoch]

theorem Tracked.move (tracked : Tracked state) (session_eq : after.session = state.session)
    (grown : state.drawn ⊆ after.drawn)
    (published : ∀ (place : Nat) event, state.published[place]? = some event →
      after.published[place]? = some event)
    (recent : state.session.phase.opening = true → ∀ epoch, state.Recent epoch →
      after.Recent epoch)
    (window : ∀ live, live.generation ∈ state.drawn → Window state live → Window after live) :
    Tracked after := by
  constructor
  · rw [session_eq]
    exact fun event place listed => published place event (tracked.places event place listed)
  · rw [session_eq]
    exact tracked.blocks
  · rw [session_eq]
    exact tracked.complete
  · rw [session_eq]
    exact tracked.waiting
  · rw [session_eq]
    intro epoch read
    obtain ⟨drawn, is_recent⟩ := tracked.recent epoch read
    refine ⟨grown drawn, recent ?_ epoch is_recent⟩
    revert read
    cases state.session.phase <;> simp [Phase.epoch, Phase.opening]
  · rw [session_eq]
    intro live is_live
    obtain ⟨known, unarmed, caught⟩ := tracked.following live is_live
    refine ⟨fun armed => grown (known armed), unarmed, caught.imp_right fun is_window => ?_⟩
    exact window live (known is_window.armed) is_window

theorem Tracked.ensure (tracked : Tracked state) {fresh instead : String} {ensured : Ensured}
    {drawn : List String} (new : fresh ∉ state.drawn) (grown : state.drawn ⊆ drawn)
    (fallback : state.writer = some instead ∨ instead ∉ state.drawn) :
    Tracked { state with
      keys := (ensureEpoch state.keys fresh ensured).2
      writer := some ((ensureEpoch state.keys fresh ensured).1.getD instead)
      drawn := drawn } := by
  obtain ⟨seq, -, key, answer⟩ := ensureEpoch_cases state.keys fresh ensured
  refine tracked.move rfl grown (fun _ _ found => found) (fun _ epoch recent => ?_) ?_
  · intro place event found below
    refine recent place event found ?_
    simpa only [base, seq] using below
  · intro live drawn_before window
    refine ⟨window.armed, window.filled, window.covers, ?_⟩
    simp only [seq]
    refine window.bounded.imp_right fun ⟨_, not_key, not_writer⟩ => ?_
    have still_not_key :
        (ensureEpoch state.keys fresh ensured).2.epoch ≠ some live.generation := by
      rcases key with same | replaced
      · rw [same]
        exact not_key
      · rw [replaced]
        rintro ⟨⟩
        exact new drawn_before
    refine ⟨grown drawn_before, still_not_key, fun counting is_writer => ?_⟩
    rw [seq] at counting
    cases answered : (ensureEpoch state.keys fresh ensured).1 with
    | none =>
        rw [answered] at is_writer
        obtain rfl : instead = live.generation := Option.some.inj is_writer
        rcases fallback with same | undrawn
        · exact not_writer counting same
        · exact undrawn drawn_before
    | some value =>
        rw [answered] at is_writer
        rcases answer with silent | is_key
        · rw [answered] at silent
          cases silent
        · rw [← is_key, answered] at still_not_key
          exact still_not_key is_writer

theorem Tracked.publish (numbered : Numbered state) (tracked : Tracked state) {epoch : String}
    {data : Bytes} (is_writer : state.writer = some epoch)
    (keeps : state.keys.seq = none → state.published = [] ∨ state.keys.epoch = state.writer) :
    Tracked { state with
      keys := (state.keys.publish limits epoch data).2
      published := state.published ++ [(state.keys.publish limits epoch data).1] } := by
  refine tracked.move rfl (List.Subset.refl _) ?_
    (fun _ _ recent => (recent_publish numbered).mpr recent) ?_
  · intro place event found
    exact getElem?_append_of_some _ found
  · intro live _ window
    refine ⟨window.armed, by simp, ?_, ?_⟩
    · intro place event ahead found same least most
      rcases getElem?_snoc found with old | ⟨-, rfl⟩
      · exact window.covers place event ahead old same least most
      -- The new event lies above the window, or under another epoch.
      exfalso
      rcases window.bounded with below | ⟨-, not_key, not_writer⟩
      · have number : (state.keys.publish limits epoch data).1.seq =
            (state.keys.seq.getD 0 : Int) + 1 := rfl
        omega
      · have same : epoch = live.generation := same
        subst same
        cases counting : state.keys.seq with
        | some count => exact not_writer (by simp [counting]) is_writer
        | none =>
            rcases keeps counting with nothing | adopted
            · exact window.filled nothing
            · exact not_key (adopted.trans is_writer)
    · simp only [publish_seq, Option.getD_some]
      rcases window.bounded with below | ⟨drawn, not_key, not_writer⟩
      · exact .inl (by push_cast; omega)
      · refine .inr ⟨drawn, not_key, fun _ also_writer => ?_⟩
        cases counting : state.keys.seq with
        | some count => exact not_writer (by simp [counting]) also_writer
        | none =>
            rcases keeps counting with nothing | adopted
            · exact window.filled nothing
            · exact not_key (adopted.trans also_writer)

theorem Tracked.expire (tracked : Tracked state) {expired : RunKeys.Expired}
    (keeps : expired.seq = true → state.keys.seq ≠ none →
      expired.epoch = true ∧ expired.events = true ∧ state.session.phase.opening = false) :
    Tracked { state with keys := state.keys.expire expired } := by
  have epoch_cases : (state.keys.expire expired).epoch = none ∨
      (state.keys.expire expired).epoch = state.keys.epoch := by
    simp only [RunKeys.expire]
    split
    · exact .inl rfl
    · exact .inr rfl
  by_cases lost : expired.seq = true ∧ state.keys.seq ≠ none
  · obtain ⟨epoch, -, settled⟩ := keeps lost.1 lost.2
    refine tracked.move rfl (List.Subset.refl _) (fun _ _ found => found) ?_ ?_
    · rw [settled]
      intro opening
      cases opening
    · intro live drawn window
      refine ⟨window.armed, window.filled, window.covers, .inr ⟨drawn, ?_, ?_⟩⟩
      · simp [RunKeys.expire, epoch]
      · simp [RunKeys.expire, lost.1]
  have seq : (state.keys.expire expired).seq = state.keys.seq := expire_seq lost
  refine tracked.move rfl (List.Subset.refl _) (fun _ _ found => found)
    (fun _ epoch recent => ?_) ?_
  · intro place event found below
    refine recent place event found ?_
    simpa only [base, seq] using below
  · intro live _ window
    refine ⟨window.armed, window.filled, window.covers, ?_⟩
    simp only [seq]
    refine window.bounded.imp_right fun ⟨drawn, not_key, not_writer⟩ => ⟨drawn, ?_, ?_⟩
    · rcases epoch_cases with gone | same
      · simp [gone]
      · rw [same]
        exact not_key
    · simpa only [seq] using not_writer

section Opening

variable {ring : List RingEvent}

theorem mem_zipIdx_suffix {published : List RingEvent} (is_end : ring <:+ published)
    {event : RingEvent} {place : Nat} :
    (event, place) ∈ ring.zipIdx (published.length - ring.length) ↔
      published.length - ring.length ≤ place ∧ published[place]? = some event := by
  obtain ⟨before, rfl⟩ := is_end
  rw [List.mk_mem_zipIdx_iff_le_and_getElem?_sub, List.length_append, Nat.add_sub_cancel]
  refine and_congr_right fun behind => ?_
  rw [List.getElem?_append_right behind]

theorem Numbered.place (numbered : Numbered state) (is_end : ring <:+ state.keys.events)
    {event : RingEvent} (listed : event ∈ ring) :
    ∃ place, state.published.length - ring.length ≤ place ∧ state.base ≤ place ∧
      state.published[place]? = some event ∧
        event.seq + (state.base : Int) = (place : Int) + 1 := by
  have short := is_end.length_le.trans numbered.short
  obtain ⟨offset, found⟩ := List.mem_iff_getElem?.mp listed
  have placed : (event, state.published.length - ring.length + offset) ∈
      ring.zipIdx (state.published.length - ring.length) := by
    rw [List.mk_mem_zipIdx_iff_le_and_getElem?_sub, Nat.add_sub_cancel_left]
    exact ⟨Nat.le_add_right _ _, found⟩
  obtain ⟨behind, found⟩ := (mem_zipIdx_suffix (is_end.trans numbered.ring)).mp placed
  have above : state.base ≤ state.published.length - ring.length + offset := by
    simp only [base]
    omega
  exact ⟨_, behind, above, found, numbered.numbers _ event found above⟩

theorem Numbered.contiguous (numbered : Numbered state) (is_end : ring <:+ state.keys.events) :
    Contiguous ring := by
  have short := is_end.length_le.trans numbered.short
  have whole := is_end.trans numbered.ring
  have number (offset : Nat) (inside : offset < ring.length) :
      (ring[offset]).seq + (state.base : Int) =
        ((state.published.length - ring.length + offset : Nat) : Int) + 1 := by
    have placed : (ring[offset], state.published.length - ring.length + offset) ∈
        ring.zipIdx (state.published.length - ring.length) := by
      rw [List.mk_mem_zipIdx_iff_le_and_getElem?_sub, Nat.add_sub_cancel_left]
      exact ⟨Nat.le_add_right _ _, List.getElem?_eq_getElem inside⟩
    refine numbered.numbers _ _ ((mem_zipIdx_suffix whole).mp placed).2 ?_
    simp only [base]
    omega
  refine List.isChain_iff_getElem.mpr fun offset inside => ?_
  have here := number offset (by omega)
  have next := number (offset + 1) inside
  push_cast at here next
  omega

theorem Numbered.ring_named (numbered : Numbered state) (is_end : ring <:+ state.keys.events) :
    ∀ event ∈ ring, event.epoch ≠ "" := by
  rintro event listed blank
  have drawn := numbered.named event ((is_end.trans numbered.ring).subset listed)
  rw [blank] at drawn
  exact numbered.unnamed drawn

theorem Numbered.generation_recent (numbered : Numbered state) {opening : Opening}
    (is_end : opening.ring <:+ state.keys.events)
    (read : ∀ epoch, opening.epoch = some epoch → epoch ∈ state.drawn ∧ state.Recent epoch)
    (armed : opening.generation ≠ "") :
    opening.generation ∈ state.drawn ∧ state.Recent opening.generation := by
  rw [Opening.generation, openGeneration, epochOr] at armed ⊢
  split at armed
  · rw [if_pos ‹_›]
    cases last_eq : opening.ring.getLast? with
    | none => simp [last_eq] at armed
    | some last =>
        have listed := List.mem_of_getLast? last_eq
        obtain ⟨place, -, above, found, -⟩ := numbered.place is_end listed
        exact ⟨numbered.named last (List.mem_of_getElem? found),
          numbered.apart place last found above⟩
  · rw [if_neg ‹_›]
    cases epoch_eq : opening.epoch with
    | none => simp [epoch_eq] at armed
    | some epoch => exact read epoch epoch_eq

theorem Numbered.following (numbered : Numbered state) {opening : Opening}
    (is_end : opening.ring <:+ state.keys.events)
    (read : ∀ epoch, opening.epoch = some epoch → epoch ∈ state.drawn ∧ state.Recent epoch)
    (terminalAtOpen : Bool) :
    Following { state with session := state.openSession terminal opening terminalAtOpen }
      opening.live := by
  have contiguous := numbered.contiguous is_end
  have counted := numbered.counted
  refine ⟨fun armed => (numbered.generation_recent is_end read armed).1, ?_, ?_⟩
  · intro unarmed
    rcases Opening.blocks_cases contiguous with ⟨-, nothing⟩ | ⟨marks, events, -, replayed⟩
    · exact ⟨congrArg Replay.maxSeq nothing, rfl⟩
    · exact absurd unarmed (openGeneration_named replayed.ring (numbered.ring_named is_end))
  rcases Opening.blocks_cases contiguous with ⟨-, nothing⟩ | ⟨marks, events, -, replayed⟩
  · have fresh : opening.live.delivered = 0 := congrArg Replay.maxSeq nothing
    exact .inl fresh.le
  have armed : opening.generation ≠ "" :=
    openGeneration_named replayed.ring (numbered.ring_named is_end)
  obtain ⟨-, recent⟩ := numbered.generation_recent is_end read armed
  obtain ⟨first, first_listed, first_eq⟩ := replayed.least
  obtain ⟨last, last_listed, last_eq⟩ := replayed.most
  obtain ⟨start, behind, -, -, start_number⟩ := numbered.place is_end first_listed
  obtain ⟨finish, -, -, finish_found, finish_number⟩ := numbered.place is_end last_listed
  refine .inr ⟨armed, ?_, ?_, .inl ?_⟩
  · exact List.ne_nil_of_mem (List.mem_of_getElem? finish_found)
  · intro place event _ found same least most
    have least : opening.replay.minSeq ≤ event.seq := least
    have above : state.base ≤ place := by
      by_contra below
      exact recent place event found (by omega) same
    have number := numbered.numbers place event found above
    have filter := replayed.above
    have passes : opening.verdict.filterSeq < event.seq := by omega
    refine List.mem_filter.mpr ⟨?_, decide_eq_true passes⟩
    exact (mem_zipIdx_suffix (is_end.trans numbered.ring)).mpr ⟨by omega, found⟩
  · have inside := (List.getElem?_eq_some_iff.mp finish_found).1
    have delivered : opening.live.delivered = last.seq := last_eq.symm
    have whole : state.base + state.keys.seq.getD 0 = state.published.length :=
      Nat.sub_add_cancel counted
    change opening.live.delivered ≤ (state.keys.seq.getD 0 : Int)
    omega

theorem replayed_blocks (state : Fanout) {opening : Opening}
    (named : ∀ event ∈ opening.ring, event.epoch ≠ "") :
    (opening.blocks.filter fun block => !block.isMarker) =
      (state.replayed opening).map (·.1.block) := by
  have places : (state.replayed opening).map (·.1) =
      opening.ring.filter fun event => decide (opening.verdict.filterSeq < event.seq) := by
    have filtered := List.filter_map (f := Prod.fst)
      (p := fun event : RingEvent => decide (opening.verdict.filterSeq < event.seq))
      (l := opening.ring.zipIdx (state.published.length - opening.ring.length))
    rw [List.zipIdx_map_fst] at filtered
    exact filtered.symm
  rw [Opening.blocks, List.filter_append, (Opening.gapMark_announces opening).events_nil,
    List.nil_append, Opening.replay, replayBlocks_events named, ← places, List.map_map]
  rfl

theorem Tracked.openSession (numbered : Numbered state) (tracked : Tracked state)
    {opening : Opening} (is_end : opening.ring <:+ state.keys.events)
    (waits : state.session.phase.waiting = true)
    (read : ∀ epoch, opening.epoch = some epoch → epoch ∈ state.drawn ∧ state.Recent epoch)
    (terminalAtOpen : Bool) :
    Tracked { state with session := state.openSession terminal opening terminalAtOpen } := by
  have next_eq := tracked.waiting waits
  constructor
  · intro event place listed
    have placed := List.mem_of_mem_filter listed
    exact ((mem_zipIdx_suffix (is_end.trans numbered.ring)).mp placed).2
  · exact state.replayed_blocks (numbered.ring_named is_end)
  · intro place from_start before_next
    have from_start : state.session.subscribedAt ≤ place := from_start
    have before_next : place < state.session.next := before_next
    omega
  · intro waits
    simp only [Fanout.openSession] at waits
    split at waits <;> cases waits
  · intro epoch read
    simp only [Fanout.openSession] at read
    split at read <;> cases read
  · intro live is_live
    have live_eq : live = opening.live := by
      simp only [Fanout.openSession] at is_live
      split at is_live
      · cases is_live
      · cases is_live
        rfl
    rw [live_eq]
    exact numbered.following is_end read terminalAtOpen

end Opening

section Receiving

variable {live : LiveState} {event : RingEvent} {session : Session} {blocks : List Block}
  {next : LiveState}

theorem Window.advance (window : Window state live) (session : Session)
    (later : state.session.next ≤ session.next)
    (grown : state.session.received ⊆ session.received)
    (generation : next.generation = live.generation)
    (least : next.replayMinSeq = live.replayMinSeq) (delivered : next.delivered = live.delivered) :
    Window { state with session := session } next := by
  obtain ⟨armed, filled, covers, bounded⟩ := window
  refine ⟨generation ▸ armed, filled, ?_, ?_⟩
  · intro place other ahead found same low high
    rw [generation] at same
    rw [least] at low
    rw [delivered] at high
    exact grown (covers place other (later.trans ahead) found same low high)
  · rw [generation, delivered]
    exact bounded

/-- A message is the copy of a replayed event, or it is delivered; either way the session goes on
following. -/
theorem Following.classified (following : Following state live)
    (classified : Classified live event blocks next) (positive : 1 ≤ event.seq)
    (named : event.epoch ∈ state.drawn) (unnamed : "" ∉ state.drawn) (session : Session)
    (later : state.session.next ≤ session.next)
    (grown : state.session.received ⊆ session.received) :
    Following { state with session := session } next := by
  have is_named : event.epoch ≠ "" := fun blank => unnamed (blank ▸ named)
  obtain ⟨known, unarmed, caught⟩ := following
  cases classified with
  | duplicate armed is_armed ordered within below =>
      refine ⟨known, fun blank => absurd blank is_armed, ?_⟩
      refine caught.imp (fun behind => ?_) fun window =>
        window.advance session later grown rfl rfl rfl
      exact behind.trans ordered.le
  | adopted marks announces blank quiet =>
      obtain ⟨delivered, -⟩ := unarmed blank
      refine ⟨fun _ => named, fun blank => absurd blank is_named, .inl ?_⟩
      simp only [settle, delivered]
      omega
  | restarted epoch seq fromSeq =>
      refine ⟨fun _ => named, fun blank => absurd blank is_named, .inl ?_⟩
      simp only [settle]
      omega
  | advanced marks announces armed is_armed ordered above quiet =>
      refine ⟨fun _ => named, fun blank => absurd blank is_named, .inl ?_⟩
      simp only [settle]
      omega
  | filled marks announces armed is_armed ordered below under quiet =>
      refine ⟨fun _ => named, fun blank => absurd blank is_named, ?_⟩
      rcases caught with behind | window
      · omega
      · refine .inr (window.advance session later grown armed.symm rfl ?_)
        exact max_eq_left below

theorem Following.dropped (following : Following state live)
    (classified : Classified live event blocks next) (nothing : blocks = [])
    (found : state.published[state.session.next]? = some event) :
    (event, state.session.next) ∈ state.session.received := by
  cases classified with
  | duplicate armed is_armed ordered within below =>
      rcases following.caught with behind | window
      · omega
      · exact window.covers _ event le_rfl found armed.symm within below
  | adopted => simp at nothing
  | restarted => simp at nothing
  | advanced => simp at nothing
  | filled => simp at nothing

theorem Tracked.receive (numbered : Numbered state) (tracked : Tracked state)
    (is_live : state.session.phase = .live live)
    (found : state.published[state.session.next]? = some event) :
    Tracked { state with session := receiveMessage terminal state.session live event } := by
  have following := tracked.following live is_live
  have listed := List.mem_of_getElem? found
  have classified := classifyEvent_classified live event
  have goes_on (session : Session) (later : state.session.next ≤ session.next)
      (grown : state.session.received ⊆ session.received) :=
    following.classified classified (numbered.positive event listed) (numbered.named event listed)
      numbered.unnamed session later grown
  rw [receiveMessage]
  simp only
  split
  next delivered =>
    obtain ⟨marks, blocks_eq⟩ := classify_delivered delivered
    have sends := classified.events.resolve_left (by simp [blocks_eq])
    constructor
    · intro other place placed
      rcases List.mem_append.mp placed with old | new
      · exact tracked.places other place old
      · cases List.mem_singleton.mp new
        exact found
    · simp only
      rw [List.filter_append, List.map_append, tracked.blocks, sends]
      rfl
    · intro place from_start before_next
      by_cases last : place = state.session.next
      · exact ⟨event, List.mem_append_right _ (by simp [last])⟩
      · have before_next : place < state.session.next + 1 := before_next
        obtain ⟨other, placed⟩ := tracked.complete place from_start (by omega)
        exact ⟨other, List.mem_append_left _ placed⟩
    · intro waits
      simp only at waits
      split at waits <;> cases waits
    · intro epoch read
      simp only at read
      split at read <;> cases read
    · intro after is_after
      simp only at is_after
      split at is_after
      · cases is_after
      · cases is_after
        exact goes_on _ (Nat.le_succ _) (List.subset_append_left _ _)
  next dropped =>
    have nothing := classify_dropped (by simpa using dropped)
    have replayed := following.dropped classified nothing found
    constructor
    · exact tracked.places
    · exact tracked.blocks
    · intro place from_start before_next
      by_cases last : place = state.session.next
      · exact ⟨event, last ▸ replayed⟩
      · have before_next : place < state.session.next + 1 := before_next
        exact tracked.complete place from_start (by omega)
    · intro waits
      cases waits
    · intro epoch read
      cases read
    · intro after is_after
      cases is_after
      exact goes_on _ (Nat.le_succ _) (List.Subset.refl _)

theorem Following.reread (following : Following state live) (epoch : Option String)
    (named : ∀ fresh, epoch = some fresh → fresh ∈ state.drawn) (session : Session)
    (later : state.session.next ≤ session.next)
    (grown : state.session.received ⊆ session.received) :
    Following { state with session := session } (Broker.rereadEpoch live epoch).2 := by
  obtain ⟨known, unarmed, caught⟩ := following
  have unchanged : Following { state with session := session } live :=
    ⟨known, unarmed, caught.imp_right fun window =>
      window.advance session later grown rfl rfl rfl⟩
  cases epoch with
  | none => exact unchanged
  | some fresh =>
      have drawn := named fresh rfl
      simp only [Broker.rereadEpoch]
      split
      next blank =>
        obtain ⟨delivered, arrived⟩ := unarmed blank
        refine ⟨fun _ => drawn, fun _ => ⟨delivered, arrived⟩, .inl ?_⟩
        exact (delivered.trans arrived.symm).le
      · split
        · exact ⟨fun _ => drawn, fun _ => ⟨rfl, rfl⟩, .inl le_rfl⟩
        · exact unchanged

theorem rereadEpoch_announces (live : LiveState) (epoch : Option String) :
    Announces (Broker.rereadEpoch live epoch).1 := by
  cases epoch with
  | none => exact .inl rfl
  | some fresh =>
      simp only [Broker.rereadEpoch]
      split
      · simp only
        split
        · exact .inr ⟨_, _, _, rfl⟩
        · exact .inl rfl
      · split
        · exact .inr ⟨_, _, _, rfl⟩
        · exact .inl rfl

end Receiving

/-- Nothing changes for the events when the session sends markers and moves to another phase. -/
theorem Tracked.mark (tracked : Tracked state) {marks : List Block} {phase : Phase}
    (marked : (marks.filter fun block => !block.isMarker) = []) (awake : phase.waiting = false)
    (read : phase.epoch = none) (following : ∀ live, phase = .live live →
      Following { state with session :=
        { state.session with sent := state.session.sent ++ marks, phase := phase } } live) :
    Tracked { state with session :=
      { state.session with sent := state.session.sent ++ marks, phase := phase } } := by
  refine ⟨tracked.places, ?_, tracked.complete, ?_, ?_, following⟩
  · simp only
    rw [List.filter_append, marked, List.append_nil]
    exact tracked.blocks
  · intro waits
    rw [awake] at waits
    cases waits
  · intro epoch is_epoch
    rw [read] at is_epoch
    cases is_epoch

theorem Tracked.wait (tracked : Tracked state) {phase : Phase} (waiting : phase.waiting = true)
    (waits : state.session.phase.waiting = true)
    (read : ∀ epoch, phase.epoch = some epoch → epoch ∈ state.drawn ∧ state.Recent epoch) :
    Tracked { state with session := { state.session with phase := phase } } := by
  refine ⟨tracked.places, tracked.blocks, tracked.complete, fun _ => tracked.waiting waits, read,
    ?_⟩
  rintro live rfl
  cases waiting

theorem ensure_kept {fresh instead : String} {ensured : Ensured} {drawn : List String}
    (numbered : Numbered state) (tracked : Tracked state) (new : fresh ∉ state.drawn)
    (unnamed : "" ∉ drawn) (grown : state.drawn ⊆ drawn) (fresh_drawn : fresh ∈ drawn)
    (fallback : state.writer = some instead ∨ instead ∉ state.drawn ∧ instead ∈ drawn) :
    Numbered { state with
      keys := (ensureEpoch state.keys fresh ensured).2
      writer := some ((ensureEpoch state.keys fresh ensured).1.getD instead)
      drawn := drawn } ∧
    Tracked { state with
      keys := (ensureEpoch state.keys fresh ensured).2
      writer := some ((ensureEpoch state.keys fresh ensured).1.getD instead)
      drawn := drawn } := by
  constructor
  · apply numbered.ensure new unnamed grown fresh_drawn
    rcases fallback with is_writer | ⟨undrawn, now_drawn⟩
    · exact ⟨grown (numbered.writerNamed instead is_writer),
        fun counting => numbered.writerRecent counting instead is_writer⟩
    · exact ⟨now_drawn, fun _ => numbered.recent_of_new undrawn⟩
  · exact tracked.ensure new grown (fallback.imp_right (·.1))

theorem step_kept {action : FanoutAction} (numbered : Numbered state) (tracked : Tracked state)
    (draws : DrawsNew state action) (keeps : KeepsNumbering state action)
    (stepped : step limits terminal state action = some after) :
    Numbered after ∧ Tracked after := by
  cases action with
  | start fresh own ensured =>
      obtain ⟨fresh_named, own_named, -, fresh_new, own_new⟩ := draws
      cases stepped
      refine ensure_kept numbered tracked fresh_new ?_ ?_ (by simp) (.inr ⟨own_new, by simp⟩)
      · simp [fresh_named.symm, own_named.symm, numbered.unnamed]
      · intro epoch drawn
        simp [drawn]
  | tick fresh ensured =>
      obtain ⟨fresh_named, fresh_new⟩ := draws
      simp only [step] at stepped
      split at stepped
      · cases stepped
      next epoch is_writer =>
        cases stepped
        refine ensure_kept numbered tracked fresh_new ?_ ?_ (by simp) (.inl is_writer)
        · simp [fresh_named.symm, numbered.unnamed]
        · intro other drawn
          simp [drawn]
  | publish data =>
      simp only [step] at stepped
      split at stepped
      · cases stepped
      next epoch is_writer =>
        split at stepped
        · cases stepped
          exact ⟨numbered.publish is_writer keeps, tracked.publish numbered is_writer keeps⟩
        · cases stepped
  | expire expired =>
      cases stepped
      refine ⟨numbered.expire fun gone present => ?_, tracked.expire keeps⟩
      obtain ⟨epoch, events, -⟩ := keeps gone present
      exact ⟨epoch, events⟩
  | subscribe cursor =>
      cases stepped
      refine ⟨numbered.congr _, ?_, ?_, ?_, ?_, ?_, ?_⟩
      · simp
      · simp
      · intro place from_start before_next
        exact absurd from_start (Nat.not_le.mpr before_next)
      · exact fun _ => rfl
      · intro epoch read
        cases read
      · intro live is_live
        cases is_live
  | readEpoch answered =>
      simp only [step] at stepped
      split at stepped
      next is_subscribed =>
        cases stepped
        refine ⟨numbered.congr _, tracked.wait rfl (by rw [is_subscribed]; rfl) ?_⟩
        intro epoch read
        simp only [Phase.epoch] at read
        split at read
        · exact ⟨numbered.keyNamed epoch read, numbered.keyRecent epoch read⟩
        · cases read
      · cases stepped
  | readCounter answered =>
      simp only [step] at stepped
      split at stepped
      next epoch is_read =>
        cases stepped
        refine ⟨numbered.congr _, tracked.wait rfl (by rw [is_read]; rfl) fun other read => ?_⟩
        exact tracked.recent other (by rw [is_read]; exact read)
      · cases stepped
  | readRing answered terminalAtOpen =>
      simp only [step] at stepped
      split at stepped
      next epoch current is_judged =>
        cases stepped
        refine ⟨numbered.congr _, tracked.openSession numbered ?_ (by rw [is_judged]; rfl) ?_ _⟩
        · simp only [opening]
          split
          · exact List.suffix_rfl
          · exact List.nil_suffix
        · intro other read
          exact tracked.recent other (by rw [is_judged]; exact read)
      · cases stepped
  | receive =>
      simp only [step] at stepped
      split at stepped
      next live event is_live found =>
        cases stepped
        exact ⟨numbered.congr _, tracked.receive numbered is_live found⟩
      · cases stepped
  | rereadEpoch answered =>
      simp only [step] at stepped
      split at stepped
      next live is_live =>
        cases stepped
        refine ⟨numbered.congr _, tracked.mark (rereadEpoch_announces live _).events_nil rfl rfl ?_⟩
        rintro after ⟨⟩
        refine (tracked.following live is_live).reread _ ?_ _ le_rfl (List.Subset.refl _)
        intro fresh read
        split at read
        · exact numbered.keyNamed fresh read
        · cases read
      · cases stepped
  | close kept =>
      cases stepped
      refine ⟨numbered.congr _, tracked.mark ?_ rfl rfl fun live is_live => by cases is_live⟩
      simp only [List.filter_filter, List.filter_eq_nil_iff]
      intro block _
      simp

/-- In every execution in which the counter goes only together with the epoch key and the ring, no
session is opening then, and the writer has adopted a new epoch before it publishes again, every
event a session took from the channel was sent to its client under its own place. -/
theorem nothing_lost (limits : RingLimits) (terminal : Block → Bool)
    (reached : Reachable (step limits terminal)
      (fun before action => DrawsNew before action ∧ KeepsNumbering before action) {} state) :
    (state.session.sent.filter fun block => !block.isMarker) =
        state.session.received.map (·.1.block) ∧
    (∀ event place, (event, place) ∈ state.session.received →
      state.published[place]? = some event) ∧
    ∀ place, state.session.subscribedAt ≤ place → place < state.session.next →
      ∃ event, (event, place) ∈ state.session.received := by
  have kept := reached.invariant (fun state => Numbered state ∧ Tracked state)
    ⟨numbered_empty, tracked_empty⟩ fun _ _ _ held permitted stepped =>
      step_kept held.1 held.2 permitted.1 permitted.2 stepped
  exact ⟨kept.2.blocks, kept.2.places, kept.2.complete⟩

def fiveEvents : RingLimits where
  maxEvents := 5
  maxBytes := 1000
  elementSize event := event.data.length

/-- Three events are published, a session replays them, and then all keys expire. -/
def expiredRun : List FanoutAction :=
  [.start "e" "own" .answered, .publish [1], .publish [2], .publish [3], .subscribe {},
    .readEpoch true, .readCounter true, .readRing true false, .expire ⟨true, true, true, true⟩]

/-- The consumer's tick comes before the next event, and the session delivers it. -/
theorem adopted_epoch_delivered : ∃ state,
    Reachable (step fiveEvents fun _ => false)
      (fun before action => DrawsNew before action ∧ KeepsNumbering before action) {} state ∧
    state.session.subscribedAt = 3 ∧ state.session.next = 4 ∧
      ∃ event, (event, 3) ∈ state.session.received := by
  obtain ⟨state, reached, tested⟩ := reachable_of_any (step fiveEvents fun _ => false)
    (fun before action => DrawsNew before action ∧ KeepsNumbering before action) {}
    (fun state => state.session.subscribedAt == 3 && state.session.next == 4)
    (expiredRun ++ [.tick "f" .answered, .publish [4], .receive]) (by decide)
  obtain ⟨from_three, to_four⟩ : state.session.subscribedAt = 3 ∧ state.session.next = 4 := by
    simpa using tested
  refine ⟨state, reached, from_three, to_four, ?_⟩
  exact (nothing_lost fiveEvents (fun _ => false) reached).2.2 3 (by omega) (by omega)

/-- The event comes before the tick: it has the epoch and the number of a replayed one, and the
session drops it without a marker. -/
theorem restarted_counter_lost : ∃ state,
    Reachable (step fiveEvents fun _ => false) DrawsNew {} state ∧
    state.session.subscribedAt ≤ 3 ∧ 3 < state.session.next ∧
    state.published[3]? = some (⟨"e", 1, [4]⟩ : RingEvent) ∧ Unmarked state.session.sent ∧
      (∀ event, (event, 3) ∉ state.session.received) ∧
        Block.event "e" 1 [4] ∉ state.session.sent := by
  obtain ⟨state, reached, tested⟩ := reachable_of_any (step fiveEvents fun _ => false) DrawsNew {}
    (fun state => decide (state.session.subscribedAt ≤ 3 ∧ 3 < state.session.next ∧
      state.published[3]? = some (⟨"e", 1, [4]⟩ : RingEvent) ∧ Unmarked state.session.sent ∧
      (∀ placed ∈ state.session.received, placed.2 ≠ 3) ∧
        Block.event "e" 1 [4] ∉ state.session.sent))
    (expiredRun ++ [.publish [4], .receive]) (by decide)
  obtain ⟨from_three, behind, found, unmarked, absent, unsent⟩ := of_decide_eq_true tested
  exact ⟨state, reached, from_three, behind, found, unmarked,
    fun event listed => absent _ listed rfl, unsent⟩

end Fanout

end Hermes.AgentProxy.Broker
