import Hermes.AgentProxy.Broker.Classify
import Mathlib.Algebra.Order.Group.Int
import Mathlib.Data.List.Chain

/-!
# No gap without a marker

Between two markers the sequence numbers a session sends rise, and a session which sends no marker
sends consecutive numbers from the cursor on.  Both follow from what the counters of the live phase
say about the last block sent.
-/

namespace Hermes.AgentProxy.Broker

/-- Two neighbouring events stand in a relation; markers stand apart. -/
def Follows (relation : Int → Int → Prop) (block next : Block) : Prop :=
  block.isMarker = false → next.isMarker = false → relation block.seq next.seq

/-- The numbers of the events sent under an epoch. -/
def seqsOf (epoch : String) (blocks : List Block) : List Int :=
  (blocks.filter fun block => !block.isMarker && block.epoch == epoch).map (·.seq)

def deliveredSeqs (blocks : List Block) : List Int :=
  (blocks.filter fun block => !block.isMarker).map (·.seq)

def Unmarked (blocks : List Block) : Prop := ∀ block ∈ blocks, block.isMarker = false

instance : DecidablePred Unmarked := fun blocks =>
  inferInstanceAs (Decidable (∀ block ∈ blocks, block.isMarker = false))

/-- Each element of the ring has the number behind the one before it. -/
def Contiguous (ring : List RingEvent) : Prop :=
  ring.IsChain fun event next => next.seq = event.seq + 1

section Ring

variable {ring : List RingEvent} {first : RingEvent} {later : List RingEvent}

theorem Contiguous.rising (contiguous : Contiguous ring) :
    ring.Pairwise fun event next => event.seq < next.seq := by
  have chain : (ring.map (·.seq)).IsChain (· < ·) := by
    rw [List.isChain_map]
    exact contiguous.imp fun event next step => by omega
  exact List.pairwise_map.mp chain.pairwise

theorem Contiguous.filter (contiguous : Contiguous ring) (number : Int) :
    Contiguous (ring.filter fun event => decide (number < event.seq)) := by
  induction ring with
  | nil => exact contiguous
  | cons event ring induction =>
      by_cases above : number < event.seq
      · have all_above : ∀ other ∈ event :: ring, decide (number < other.seq) = true := by
          intro other listed
          rcases List.mem_cons.mp listed with rfl | behind
          · exact decide_eq_true above
          · have larger := List.rel_of_pairwise_cons contiguous.rising behind
            exact decide_eq_true (by omega)
        rw [List.filter_eq_self.mpr all_above]
        exact contiguous
      · rw [List.filter_cons_of_neg (by simpa using above)]
        exact induction contiguous.tail

theorem Contiguous.max_eq (contiguous : Contiguous (first :: later)) :
    ∃ last, (first :: later).getLast? = some last ∧
      later.foldl (fun most event => max most event.seq) first.seq = last.seq := by
  induction later generalizing first with
  | nil => exact ⟨first, rfl, rfl⟩
  | cons second later induction =>
      obtain ⟨last, last_eq, most⟩ := induction contiguous.tail
      have step : second.seq = first.seq + 1 := contiguous.rel_head? rfl
      refine ⟨last, by simpa using last_eq, ?_⟩
      rw [List.foldl_cons, max_eq_right (by omega), most]

theorem Contiguous.min_eq (contiguous : Contiguous (first :: later)) :
    later.foldl (fun least event => min least event.seq) first.seq = first.seq := by
  have general (start : Int) (above : ∀ event ∈ later, start ≤ event.seq) :
      later.foldl (fun least event => min least event.seq) start = start := by
    clear contiguous
    induction later generalizing start with
    | nil => rfl
    | cons second later induction =>
        rw [List.foldl_cons, min_eq_left (above second List.mem_cons_self)]
        exact induction start fun event listed => above event (List.mem_cons_of_mem _ listed)
  exact general _ fun event listed => (List.rel_of_pairwise_cons contiguous.rising listed).le

end Ring

@[simp] theorem block_isMarker (event : RingEvent) : event.block.isMarker = false := rfl

@[simp] theorem block_seq (event : RingEvent) : event.block.seq = event.seq := rfl

/-- What the counters say about the last block sent, as far as the order of numbers goes. -/
structure Ordered (sent : List Block) (state : LiveState) : Prop where
  rising : sent.IsChain (Follows (· < ·))
  last : ∀ block ∈ sent.getLast?, block.isMarker = false →
    block.seq ≤ state.delivered ∧ state.generation ≠ "" ∧
      (state.holeAnnounced = true → block.seq ≤ state.arrived)

section Order

variable {sent : List Block} {state after : LiveState} {event : RingEvent} {blocks : List Block}

/-- A marker may follow anything, and resets what is known about the last block. -/
theorem Ordered.mark (ordered : Ordered sent state) (epoch : String) (seq fromSeq : Int)
    (after : LiveState) : Ordered (sent ++ [.marker epoch seq fromSeq]) after where
  rising := ordered.rising.append (List.isChain_singleton _) fun _ _ next is_next _ unmarked => by
    cases Option.mem_some_iff.mp is_next
    cases unmarked
  last block is_last unmarked := by
    rw [List.getLast?_concat] at is_last
    cases Option.mem_some_iff.mp is_last
    cases unmarked

theorem Ordered.deliver (ordered : Ordered sent state) (named : event.epoch ≠ "")
    (larger : ∀ block ∈ sent.getLast?, block.isMarker = false → block.seq < event.seq)
    (base : LiveState) : Ordered (sent ++ [event.block]) (settle base event) where
  rising := ordered.rising.append (List.isChain_singleton _)
    fun block is_last next is_next unmarked _ => by
      cases Option.mem_some_iff.mp is_next
      exact larger block is_last unmarked
  last block is_last _ := by
    rw [List.getLast?_concat] at is_last
    cases Option.mem_some_iff.mp is_last
    exact ⟨le_max_right _ _, named, fun _ => le_refl _⟩

/-- Behind marks, or where the numbers allow it, an event may follow. -/
theorem Ordered.announce {marks : List Block} (ordered : Ordered sent state)
    (announces : Announces marks) (named : event.epoch ≠ "")
    (larger : marks = [] →
      ∀ block ∈ sent.getLast?, block.isMarker = false → block.seq < event.seq)
    (base : LiveState) : Ordered (sent ++ (marks ++ [event.block])) (settle base event) := by
  rcases announces with rfl | ⟨epoch, seq, fromSeq, rfl⟩
  · exact ordered.deliver named (larger rfl) base
  · rw [← List.append_assoc]
    refine (ordered.mark epoch seq fromSeq state).deliver named ?_ base
    intro block is_last unmarked
    rw [List.getLast?_concat] at is_last
    cases Option.mem_some_iff.mp is_last
    cases unmarked

theorem Ordered.classified (named : event.epoch ≠ "") (ordered : Ordered sent state)
    (classified : Classified state event blocks after) : Ordered (sent ++ blocks) after := by
  cases classified with
  | duplicate armed _ later _ _ =>
      rw [List.append_nil]
      refine ⟨ordered.rising, fun block is_last unmarked => ?_⟩
      obtain ⟨below, armed, announced⟩ := ordered.last block is_last unmarked
      exact ⟨below, armed, fun hole => (announced hole).trans later.le⟩
  | adopted marks announces unarmed _ =>
      refine ordered.announce announces named (fun _ block is_last unmarked => ?_) _
      exact absurd unarmed (ordered.last block is_last unmarked).2.1
  | restarted epoch seq fromSeq =>
      exact ordered.announce (.inr ⟨epoch, seq, fromSeq, rfl⟩) named (by simp) _
  | advanced marks announces _ _ _ above _ =>
      refine ordered.announce announces named (fun _ block is_last unmarked => ?_) _
      exact (ordered.last block is_last unmarked).1.trans_lt above
  | filled marks announces _ _ later _ _ quiet =>
      refine ordered.announce announces named (fun silent block is_last unmarked => ?_) _
      exact ((ordered.last block is_last unmarked).2.2 (quiet silent)).trans_lt later

theorem Ordered.reread (ordered : Ordered sent state) (epoch : Option String) :
    Ordered (sent ++ (rereadEpoch state epoch).1) (rereadEpoch state epoch).2 := by
  cases epoch with
  | none =>
      rw [rereadEpoch, List.append_nil]
      exact ordered
  | some fresh =>
      simp only [rereadEpoch]
      split
      next unarmed =>
        split
        · exact ordered.mark _ _ _ _
        · rw [List.append_nil]
          refine ⟨ordered.rising, fun block is_last unmarked => ?_⟩
          exact absurd unarmed (ordered.last block is_last unmarked).2.1
      · split
        · exact ordered.mark _ _ _ _
        · rw [List.append_nil]
          exact ordered

end Order

/-- What the replay of a contiguous ring is, when something lies above the filter. -/
structure Replayed (ring : List RingEvent) (filterSeq : Int) (announced : Bool) (replay : Replay)
    (marks events : List Block) : Prop where
  blocks : replay.blocks = marks ++ events
  announces : Announces marks
  nonempty : events ≠ []
  unmarked : Unmarked events
  consecutive : events.IsChain (Follows fun seq next => next = seq + 1)
  first : ∀ block ∈ events.head?, block.seq = replay.minSeq
  last : ∀ block ∈ events.getLast?, block.seq = replay.maxSeq
  above : filterSeq < replay.minSeq
  upward : replay.minSeq ≤ replay.maxSeq
  quiet : marks = [] → announced = false → replay.minSeq ≤ filterSeq + 1
  least : ∃ event ∈ ring, event.seq = replay.minSeq
  most : ∃ event ∈ ring, event.seq = replay.maxSeq

theorem replayBlocks_cases {ring : List RingEvent} (contiguous : Contiguous ring)
    (filterSeq : Int) (generation : String) (announced : Bool) :
    replayBlocks ring filterSeq generation announced = {} ∨
      ∃ marks events, Replayed ring filterSeq announced
        (replayBlocks ring filterSeq generation announced) marks events := by
  have filtered := contiguous.filter filterSeq
  rw [replayBlocks]
  cases pending : ring.filter fun event => decide (filterSeq < event.seq) with
  | nil => exact .inl rfl
  | cons first later =>
      rw [pending] at filtered
      obtain ⟨last, last_eq, most⟩ := filtered.max_eq
      have first_listed : first ∈ ring.filter fun event => decide (filterSeq < event.seq) := by
        rw [pending]
        exact List.mem_cons_self
      obtain ⟨in_ring, above⟩ := List.mem_filter.mp first_listed
      have above : filterSeq < first.seq := of_decide_eq_true above
      refine .inr ⟨_, _, ⟨rfl, ?_, by simp, ?_, ?_, ?_, ?_, ?_, ?_, ?_, ?_, ?_⟩⟩
      · split
        · exact .inr ⟨_, _, _, rfl⟩
        · exact .inl rfl
      · intro block listed
        obtain ⟨event, -, rfl⟩ := List.mem_map.mp listed
        rfl
      · rw [List.isChain_map]
        exact filtered.imp fun event next step _ _ => step
      · intro block is_first
        cases Option.mem_some_iff.mp is_first
        exact filtered.min_eq.symm
      · intro block is_last
        rw [List.getLast?_map, last_eq] at is_last
        cases Option.mem_some_iff.mp is_last
        exact most.symm
      · exact above.trans_eq filtered.min_eq.symm
      · have least := filtered.min_eq
        have ordered : first.seq ≤ last.seq := by
          rcases List.mem_cons.mp (List.mem_of_getLast? last_eq) with same | behind
          · rw [same]
          · exact (List.rel_of_pairwise_cons filtered.rising behind).le
        simp only
        rw [least, most]
        exact ordered
      · intro silent unannounced
        simp only
        rw [filtered.min_eq]
        by_contra past
        rw [if_pos ⟨by omega, unannounced⟩] at silent
        cases silent
      · exact ⟨first, in_ring, filtered.min_eq.symm⟩
      · have last_listed : last ∈ ring.filter fun event => decide (filterSeq < event.seq) := by
          rw [pending]
          exact List.mem_of_getLast? last_eq
        exact ⟨last, List.mem_of_mem_filter last_listed, most.symm⟩

theorem Replayed.ring {ring : List RingEvent} {filterSeq : Int} {announced : Bool}
    {replay : Replay} {marks events : List Block}
    (replayed : Replayed ring filterSeq announced replay marks events) : ring ≠ [] := by
  obtain ⟨event, listed, -⟩ := replayed.least
  exact List.ne_nil_of_mem listed

theorem Announces.isMarker {marks : List Block} (announces : Announces marks) :
    ∀ block ∈ marks, block.isMarker = true := by
  rcases announces with rfl | ⟨epoch, seq, fromSeq, rfl⟩
  · simp
  · simp [Block.isMarker]

theorem Announces.events_nil {marks : List Block} (announces : Announces marks) :
    (marks.filter fun block => !block.isMarker) = [] := by
  rw [List.filter_eq_nil_iff]
  intro block listed
  simp [announces.isMarker block listed]

theorem Classified.events {state after : LiveState} {event : RingEvent} {blocks : List Block}
    (classified : Classified state event blocks after) :
    blocks = [] ∨ (blocks.filter fun block => !block.isMarker) = [event.block] := by
  have behind {marks : List Block} (announces : Announces marks) :
      ((marks ++ [event.block]).filter fun block => !block.isMarker) = [event.block] := by
    rw [List.filter_append, announces.events_nil]
    rfl
  cases classified with
  | duplicate => exact .inl rfl
  | adopted marks announces => exact .inr (behind announces)
  | restarted epoch seq fromSeq => exact .inr rfl
  | advanced marks announces => exact .inr (behind announces)
  | filled marks announces => exact .inr (behind announces)

theorem replayBlocks_events {ring : List RingEvent} (named : ∀ event ∈ ring, event.epoch ≠ "")
    (filterSeq : Int) (generation : String) (announced : Bool) :
    ((replayBlocks ring filterSeq generation announced).blocks.filter
        fun block => !block.isMarker) =
      (ring.filter fun event => decide (filterSeq < event.seq)).map (·.block) := by
  rw [replayBlocks]
  cases pending : ring.filter fun event => decide (filterSeq < event.seq) with
  | nil => rfl
  | cons first later =>
      have marks : Announces (if filterSeq + 1 < first.seq ∧ announced = false then
          [Block.marker (epochOr first.epoch generation) (max filterSeq 0) first.seq] else []) := by
        split
        · exact .inr ⟨_, _, _, rfl⟩
        · exact .inl rfl
      have blocks : ((first :: later).map fun event =>
          Block.event (epochOr event.epoch generation) event.seq event.data) =
          (first :: later).map (·.block) := by
        refine List.map_congr_left fun event listed => ?_
        rw [← pending] at listed
        rw [epochOr, if_neg (named event (List.mem_of_mem_filter listed))]
        rfl
      rw [List.filter_append, marks.events_nil, List.nil_append, blocks, List.filter_eq_self]
      intro block listed
      obtain ⟨event, -, rfl⟩ := List.mem_map.mp listed
      rfl

/-- A generation is missing only when the epoch key is and the ring is empty. -/
theorem openGeneration_named {epoch : Option String} {ring : List RingEvent} (filled : ring ≠ [])
    (named : ∀ event ∈ ring, event.epoch ≠ "") : openGeneration epoch ring ≠ "" := by
  rw [openGeneration, epochOr]
  split
  · rw [List.getLast?_eq_some_getLast filled]
    exact named _ (List.getLast_mem filled)
  · assumption

theorem cursorVerdict_filterSeq (cursor : Cursor) (epoch : Option String) (current : Int) :
    0 ≤ (cursorVerdict cursor epoch current).filterSeq ∧
      (cursorVerdict cursor epoch current).filterSeq ≤ cursor.seq := by
  have whole : (0 : Int) ≤ cursor.seq := Int.natCast_nonneg _
  unfold cursorVerdict
  split
  · exact ⟨le_rfl, whole⟩
  split
  · exact ⟨le_rfl, whole⟩
  split
  · exact ⟨le_rfl, whole⟩
  split
  · exact ⟨whole, le_rfl⟩
  split
  · exact ⟨le_rfl, whole⟩
  · exact ⟨whole, le_rfl⟩

namespace Opening

variable {opening : Opening}

theorem gapMark_announces (opening : Opening) : Announces opening.gapMark := by
  rw [gapMark]
  split
  · exact .inr ⟨_, _, _, rfl⟩
  · exact .inl rfl

/-- The replay of a contiguous ring, behind the markers which announce it. -/
theorem blocks_cases (contiguous : Contiguous opening.ring) :
    (opening.blocks = opening.gapMark ∧ opening.replay = {}) ∨
      ∃ marks events, opening.blocks = opening.gapMark ++ marks ++ events ∧
        Replayed opening.ring opening.verdict.filterSeq opening.verdict.announceGap
          opening.replay marks events := by
  rcases replayBlocks_cases contiguous opening.verdict.filterSeq opening.generation
    opening.verdict.announceGap with nothing | ⟨marks, events, replayed⟩
  · have silent : opening.replay = {} := nothing
    refine .inl ⟨?_, silent⟩
    rw [blocks, show opening.replay.blocks = [] from congrArg Replay.blocks silent,
      List.append_nil]
  · refine .inr ⟨marks, events, ?_, replayed⟩
    rw [blocks, show opening.replay.blocks = marks ++ events from replayed.blocks,
      ← List.append_assoc]

end Opening

/-- Markers at the head of a stream say nothing about what follows. -/
theorem isChain_marks_append {relation : Int → Int → Prop} {marks events : List Block}
    (all : ∀ block ∈ marks, block.isMarker = true) (chain : events.IsChain (Follows relation)) :
    (marks ++ events).IsChain (Follows relation) := by
  induction marks with
  | nil => exact chain
  | cons mark marks induction =>
      refine (induction fun block listed => all block (List.mem_cons_of_mem _ listed)).cons ?_
      intro next _ unmarked
      rw [all mark List.mem_cons_self] at unmarked
      cases unmarked

namespace Opening

variable {opening : Opening}

theorem ordered (contiguous : Contiguous opening.ring)
    (named : ∀ event ∈ opening.ring, event.epoch ≠ "") : Ordered opening.blocks opening.live := by
  rcases blocks_cases contiguous with ⟨same, -⟩ | ⟨marks, events, same, replayed⟩
  · have all := (gapMark_announces opening).isMarker
    rw [same]
    refine ⟨by simpa using isChain_marks_append all List.isChain_nil, ?_⟩
    intro block is_last unmarked
    rw [all block (List.mem_of_getLast? is_last)] at unmarked
    cases unmarked
  · have all : ∀ block ∈ opening.gapMark ++ marks, block.isMarker = true := by
      intro block listed
      rcases List.mem_append.mp listed with gap | mark
      · exact (gapMark_announces opening).isMarker block gap
      · exact replayed.announces.isMarker block mark
    rw [same]
    refine ⟨isChain_marks_append all ?_, ?_⟩
    · exact replayed.consecutive.imp fun block next step unmarked next_unmarked => by
        have := step unmarked next_unmarked
        omega
    · intro block is_last _
      rw [List.getLast?_append_of_ne_nil _ replayed.nonempty] at is_last
      refine ⟨(replayed.last block is_last).le, ?_, by simp [live]⟩
      exact openGeneration_named replayed.ring named

end Opening

/-- Consecutive numbers which begin no later than behind the cursor. -/
structure Seamless (cursorSeq : Int) (sent : List Block) : Prop where
  consecutive : sent.IsChain (Follows fun seq next => next = seq + 1)
  begins : ∀ block ∈ sent.head?, block.seq ≤ cursorSeq + 1

/-- What the counters say about a stream which has no marker yet. -/
structure Unbroken (cursorSeq : Int) (sent : List Block) (state : LiveState) : Prop where
  seamless : ∀ shorter, shorter <+: sent → Unmarked shorter → Seamless cursorSeq shorter
  filter : state.filterSeq ≤ cursorSeq
  counters : Unmarked sent → state.holeAnnounced = false ∧
    (sent = [] ∧ state.delivered = 0 ∨
      0 < state.delivered ∧ state.generation ≠ "" ∧
        ∃ block ∈ sent.getLast?, block.seq = state.delivered)

section Unbroken

variable {cursorSeq : Int} {sent : List Block} {state after : LiveState} {event : RingEvent}
  {blocks : List Block}

theorem not_unmarked_append_marker (epoch : String) (seq fromSeq : Int) :
    ¬Unmarked (sent ++ [.marker epoch seq fromSeq]) := by
  intro unmarked
  have := unmarked (.marker epoch seq fromSeq) (by simp)
  cases this

theorem Unbroken.mark (unbroken : Unbroken cursorSeq sent state) (epoch : String)
    (seq fromSeq : Int) (filter : after.filterSeq ≤ cursorSeq) :
    Unbroken cursorSeq (sent ++ [.marker epoch seq fromSeq]) after where
  seamless shorter is_shorter unmarked := by
    rcases List.prefix_concat_iff.mp is_shorter with rfl | is_shorter
    · exact absurd unmarked (not_unmarked_append_marker epoch seq fromSeq)
    · exact unbroken.seamless shorter is_shorter unmarked
  filter := filter
  counters unmarked := absurd unmarked (not_unmarked_append_marker epoch seq fromSeq)

theorem Unbroken.deliver_marked (unbroken : Unbroken cursorSeq sent state)
    (marked : ¬Unmarked sent) (filter : after.filterSeq ≤ cursorSeq) (block : Block) :
    Unbroken cursorSeq (sent ++ [block]) after := by
  have still : ¬Unmarked (sent ++ [block]) := fun unmarked =>
    marked fun other listed => unmarked other (List.mem_append_left _ listed)
  refine ⟨fun shorter is_shorter unmarked => ?_, filter, fun unmarked => absurd unmarked still⟩
  rcases List.prefix_concat_iff.mp is_shorter with rfl | is_shorter
  · exact absurd unmarked still
  · exact unbroken.seamless shorter is_shorter unmarked

theorem Unbroken.deliver (unbroken : Unbroken cursorSeq sent state) (base : LiveState)
    (named : event.epoch ≠ "") (positive : 1 ≤ event.seq)
    (kept : base.filterSeq ≤ cursorSeq) (unannounced : Unmarked sent → base.holeAnnounced = false)
    (largest : Unmarked sent → max base.delivered event.seq = event.seq)
    (next : Unmarked sent → (sent = [] → event.seq ≤ cursorSeq + 1) ∧
      ∀ block ∈ sent.getLast?, event.seq = block.seq + 1) :
    Unbroken cursorSeq (sent ++ [event.block]) (settle base event) := by
  have shrink (unmarked : Unmarked (sent ++ [event.block])) : Unmarked sent :=
    fun other listed => unmarked other (List.mem_append_left _ listed)
  refine ⟨fun shorter is_shorter unmarked => ?_, kept, fun unmarked => ?_⟩
  · rcases List.prefix_concat_iff.mp is_shorter with rfl | is_shorter
    swap
    · exact unbroken.seamless shorter is_shorter unmarked
    have whole := unbroken.seamless sent List.prefix_rfl (shrink unmarked)
    obtain ⟨starts, follows⟩ := next (shrink unmarked)
    constructor
    · refine whole.consecutive.append (List.isChain_singleton _) ?_
      intro block is_last other is_other _ _
      cases Option.mem_some_iff.mp is_other
      exact follows block is_last
    · intro block is_first
      cases sent with
      | nil =>
          cases Option.mem_some_iff.mp is_first
          exact starts rfl
      | cons head tail => exact whole.begins block is_first
  · have largest := largest (shrink unmarked)
    refine ⟨unannounced (shrink unmarked), .inr ⟨?_, named, event.block, by simp, ?_⟩⟩
    · exact (show 0 < event.seq by omega).trans_eq largest.symm
    · exact largest.symm

/-- Behind marks, or where the numbers allow it, an event may follow. -/
theorem Unbroken.announce {marks : List Block} (unbroken : Unbroken cursorSeq sent state)
    (base : LiveState) (announces : Announces marks) (named : event.epoch ≠ "")
    (positive : 1 ≤ event.seq) (kept : base.filterSeq ≤ cursorSeq)
    (quiet : marks = [] → Unmarked sent → base.holeAnnounced = false ∧
      max base.delivered event.seq = event.seq ∧ (sent = [] → event.seq ≤ cursorSeq + 1) ∧
        ∀ block ∈ sent.getLast?, event.seq = block.seq + 1) :
    Unbroken cursorSeq (sent ++ (marks ++ [event.block])) (settle base event) := by
  rcases announces with rfl | ⟨epoch, seq, fromSeq, rfl⟩
  · exact unbroken.deliver base named positive kept (fun unmarked => (quiet rfl unmarked).1)
      (fun unmarked => (quiet rfl unmarked).2.1) fun unmarked => (quiet rfl unmarked).2.2
  · rw [← List.append_assoc]
    have kept : (settle base event).filterSeq ≤ cursorSeq := kept
    refine (unbroken.mark epoch seq fromSeq unbroken.filter).deliver_marked ?_ kept _
    exact not_unmarked_append_marker epoch seq fromSeq

theorem Unbroken.classified (named : event.epoch ≠ "") (positive : 1 ≤ event.seq)
    (unbroken : Unbroken cursorSeq sent state)
    (classified : Classified state event blocks after) :
    Unbroken cursorSeq (sent ++ blocks) after := by
  have within := unbroken.filter
  cases classified with
  | duplicate =>
      rw [List.append_nil]
      exact ⟨unbroken.seamless, unbroken.filter, unbroken.counters⟩
  | adopted marks announces unarmed quiet =>
      refine unbroken.announce _ announces named positive within fun silent unmarked => ?_
      obtain ⟨unannounced, ⟨rfl, fresh⟩ | ⟨-, armed, -⟩⟩ := unbroken.counters unmarked
      · have early := (quiet silent).2 fresh
        have largest : max state.delivered event.seq = event.seq := max_eq_right (by omega)
        exact ⟨unannounced, largest, fun _ => by omega, by simp⟩
      · exact absurd unarmed armed
  | restarted epoch seq fromSeq =>
      exact unbroken.announce _ (.inr ⟨epoch, seq, fromSeq, rfl⟩) named positive within (by simp)
  | advanced marks announces _ _ _ above quiet =>
      refine unbroken.announce _ announces named positive within fun silent unmarked => ?_
      obtain ⟨jumps, early⟩ := quiet silent
      obtain ⟨unannounced, ⟨rfl, fresh⟩ | ⟨some_sent, -, last, is_last, last_eq⟩⟩ :=
        unbroken.counters unmarked
      · exact ⟨unannounced, max_eq_right above.le, fun _ => by have := early fresh; omega, by simp⟩
      · refine ⟨unannounced, max_eq_right above.le, ?_, ?_⟩
        · rintro rfl
          cases is_last
        · intro block also_last
          obtain rfl := Option.mem_unique is_last also_last
          have := jumps some_sent
          omega
  | filled marks announces _ _ _ _ _ quiet =>
      refine unbroken.announce _ announces named positive within fun silent unmarked => ?_
      have unannounced := (unbroken.counters unmarked).1
      rw [quiet silent] at unannounced
      cases unannounced

theorem Unbroken.reread (unbroken : Unbroken cursorSeq sent state) (epoch : Option String) :
    Unbroken cursorSeq (sent ++ (rereadEpoch state epoch).1) (rereadEpoch state epoch).2 := by
  cases epoch with
  | none =>
      rw [rereadEpoch, List.append_nil]
      exact unbroken
  | some fresh =>
      simp only [rereadEpoch]
      split
      next unarmed =>
        split
        · exact unbroken.mark _ _ _ unbroken.filter
        · rw [List.append_nil]
          refine ⟨unbroken.seamless, unbroken.filter, fun unmarked => ?_⟩
          obtain ⟨unannounced, still | ⟨-, armed, -⟩⟩ := unbroken.counters unmarked
          · exact ⟨unannounced, .inl still⟩
          · exact absurd unarmed armed
      · split
        · exact unbroken.mark _ _ _ unbroken.filter
        · rw [List.append_nil]
          exact unbroken

end Unbroken

namespace Opening

variable {opening : Opening}

theorem unbroken_of_marked {cursorSeq : Int} {marks events : List Block} {state : LiveState}
    (all : ∀ block ∈ marks, block.isMarker = true) (some_mark : marks ≠ [])
    (filter : state.filterSeq ≤ cursorSeq) : Unbroken cursorSeq (marks ++ events) state := by
  obtain ⟨mark, marks, rfl⟩ := List.exists_cons_of_ne_nil some_mark
  have is_mark := all mark List.mem_cons_self
  refine ⟨fun shorter is_shorter unmarked => ?_, filter, fun unmarked => ?_⟩
  · cases shorter with
    | nil => exact ⟨List.isChain_nil, by simp⟩
    | cons block later =>
        obtain rfl := (List.cons_prefix_cons.mp is_shorter).1
        rw [unmarked block List.mem_cons_self] at is_mark
        cases is_mark
  · rw [unmarked mark (by simp)] at is_mark
    cases is_mark

theorem unbroken (contiguous : Contiguous opening.ring)
    (named : ∀ event ∈ opening.ring, event.epoch ≠ "") :
    Unbroken opening.cursor.seq opening.blocks opening.live := by
  obtain ⟨whole, within⟩ := cursorVerdict_filterSeq opening.cursor opening.epoch opening.current
  have filter : opening.live.filterSeq ≤ opening.cursor.seq := within
  rcases blocks_cases contiguous with ⟨same, nothing⟩ | ⟨marks, events, same, replayed⟩
  · rw [same]
    by_cases silent : opening.gapMark = []
    · rw [silent]
      refine ⟨fun shorter is_shorter _ => ?_, filter, fun _ => ⟨rfl, .inl ⟨rfl, ?_⟩⟩⟩
      · rw [List.prefix_nil.mp is_shorter]
        exact ⟨List.isChain_nil, by simp⟩
      · exact congrArg Replay.maxSeq nothing
    · rw [← List.append_nil opening.gapMark]
      exact unbroken_of_marked (gapMark_announces opening).isMarker silent filter
  · rw [same]
    have all : ∀ block ∈ opening.gapMark ++ marks, block.isMarker = true := by
      intro block listed
      rcases List.mem_append.mp listed with gap | mark
      · exact (gapMark_announces opening).isMarker block gap
      · exact replayed.announces.isMarker block mark
    by_cases silent : opening.gapMark ++ marks = []
    swap
    · exact unbroken_of_marked all silent filter
    obtain ⟨no_gap, no_marks⟩ := List.append_eq_nil_iff.mp silent
    have armed : opening.generation ≠ "" := openGeneration_named replayed.ring named
    have honoured : opening.verdict.announceGap = false := by
      by_contra announced
      rw [gapMark, if_pos ⟨by simpa using announced, armed⟩] at no_gap
      cases no_gap
    have early := replayed.quiet no_marks honoured
    have above : opening.verdict.filterSeq < opening.replay.minSeq := replayed.above
    have upward := replayed.upward
    have whole : 0 ≤ opening.verdict.filterSeq := whole
    have within : opening.verdict.filterSeq ≤ opening.cursor.seq := within
    rw [silent, List.nil_append]
    refine ⟨fun shorter is_shorter _ => ⟨?_, ?_⟩, filter, fun _ => ⟨rfl, .inr ⟨?_, armed, ?_⟩⟩⟩
    · obtain ⟨rest, rfl⟩ := is_shorter
      exact replayed.consecutive.left_of_append
    · intro block is_first
      have also_first : block ∈ events.head? := by
        obtain ⟨rest, rfl⟩ := is_shorter
        rw [List.head?_append_of_ne_nil _ fun blank => by simp [blank] at is_first]
        exact is_first
      rw [replayed.first block also_first]
      omega
    · exact show 0 < opening.replay.maxSeq by omega
    · refine ⟨events.getLast replayed.nonempty, List.getLast?_eq_some_getLast _, ?_⟩
      exact replayed.last _ (List.getLast?_eq_some_getLast _)

end Opening

variable (terminal : Block → Bool)

theorem seqsOf_rising {middle : List Block} (rising : middle.IsChain (Follows (· < ·)))
    (unmarked : Unmarked middle) (epoch : String) :
    (seqsOf epoch middle).Pairwise (· < ·) := by
  have chain : (middle.map (·.seq)).IsChain (· < ·) := by
    rw [List.isChain_map]
    exact rising.imp_of_mem_imp fun block next listed next_listed step =>
      step (unmarked block listed) (unmarked next next_listed)
  have sub : (seqsOf epoch middle).Sublist (middle.map (·.seq)) :=
    List.filter_sublist.map _
  exact chain.pairwise.sublist sub

/-- Where every epoch has a name, the numbers sent between two markers rise under each epoch; and
where the numbers on the channel are positive too, a session which sends no marker sends
consecutive numbers from the cursor on. -/
theorem no_unmarked_gap (opening : Opening) (rounds : List Round) {sent : List Block}
    (contiguous : Contiguous opening.ring) (named : ∀ event ∈ opening.ring, event.epoch ≠ "")
    (named_live : ∀ round ∈ rounds, ∀ event, round.message = .event event → event.epoch ≠ "")
    (cut : sent <+: opening.emission terminal rounds) :
    (∀ before middle after epoch, sent = before ++ middle ++ after → Unmarked middle →
      (seqsOf epoch middle).Pairwise (· < ·)) ∧
    ((∀ round ∈ rounds, ∀ event, round.message = .event event → 1 ≤ event.seq) →
      Unmarked sent → (deliveredSeqs sent).IsChain (fun seq next => next = seq + 1) ∧
        ∀ first ∈ (deliveredSeqs sent).head?, first ≤ opening.cursor.seq + 1) := by
  constructor
  · intro before middle after epoch split unmarked
    obtain ⟨final, ordered⟩ := classifyLive_keeps terminal
      (fun sent state event blocks after named ordered classified =>
        Ordered.classified named ordered classified)
      (fun sent state epoch ordered => ordered.reread epoch) rounds named_live
      (Opening.ordered contiguous named)
    obtain ⟨rest, whole⟩ := cut
    have rising := ordered.rising
    rw [show opening.blocks ++ (classifyLive terminal opening.live rounds).1 = sent ++ rest from
      whole.symm, split] at rising
    exact seqsOf_rising rising.left_of_append.left_of_append.right_of_append unmarked epoch
  · intro positive unmarked
    obtain ⟨final, unbroken⟩ := classifyLive_keeps terminal
      (fun sent state event blocks after (admitted : event.epoch ≠ "" ∧ 1 ≤ event.seq) unbroken
          classified => Unbroken.classified admitted.1 admitted.2 unbroken classified)
      (fun sent state epoch unbroken => unbroken.reread epoch) rounds
      (fun round listed event is_event =>
        ⟨named_live round listed event is_event, positive round listed event is_event⟩)
      (Opening.unbroken contiguous named)
    have seamless := unbroken.seamless sent cut unmarked
    have all : deliveredSeqs sent = sent.map (·.seq) := by
      rw [deliveredSeqs, List.filter_eq_self.mpr fun block listed => by
        rw [unmarked block listed]
        rfl]
    rw [all, List.isChain_map, List.head?_map]
    constructor
    · exact seamless.consecutive.imp_of_mem_imp fun block next listed next_listed step =>
        step (unmarked block listed) (unmarked next next_listed)
    · intro first is_first
      obtain ⟨block, is_block, rfl⟩ := Option.map_eq_some_iff.mp is_first
      exact seamless.begins block is_block

/-- A session which opens on two events of the ring. -/
def twoReplayed : Opening where
  cursor := {}
  epoch := some "e"
  current := 2
  ring := [⟨"e", 1, []⟩, ⟨"e", 2, []⟩]

/-- The second event comes over the channel too, and then a third one. -/
def overlapping : List Round := [⟨.event ⟨"e", 2, []⟩, .notDue⟩, ⟨.event ⟨"e", 3, []⟩, .notDue⟩]

theorem overlapping_seamless :
    deliveredSeqs (twoReplayed.emission (fun _ => false) overlapping) = [1, 2, 3] ∧
      (deliveredSeqs (twoReplayed.emission (fun _ => false) overlapping)).IsChain
        fun seq next => next = seq + 1 := by
  refine ⟨by decide, ?_⟩
  refine ((no_unmarked_gap (fun _ => false) twoReplayed overlapping ?_ ?_ ?_
    List.prefix_rfl).2 ?_ ?_).1
  · simp [Contiguous, twoReplayed]
  · simp [twoReplayed]
  · simp [overlapping]
  · simp [overlapping]
  · decide

/-- A session which opens before anything is known of the run. -/
def nothingKnown : Opening where
  cursor := {}
  epoch := none
  current := 0
  ring := []

/-- Without a name an epoch is adopted again and again, and the numbers under it may fall; and a
negative number is followed by the number one without a marker. -/
theorem unnamed_epoch_falls :
    (∃ rounds middle, Unmarked middle ∧
      nothingKnown.emission (fun _ => false) rounds = [.marker "" 0 5] ++ middle ∧
        ¬(seqsOf "" middle).Pairwise (· < ·)) ∧
    ∃ rounds, Unmarked (nothingKnown.emission (fun _ => false) rounds) ∧
      ¬(deliveredSeqs (nothingKnown.emission (fun _ => false) rounds)).IsChain
        fun seq next => next = seq + 1 := by
  constructor
  · exact ⟨[⟨.event ⟨"", 5, []⟩, .notDue⟩, ⟨.event ⟨"", 3, []⟩, .notDue⟩],
      [.event "" 5 [], .event "" 3 []], by decide, by decide, by decide⟩
  · exact ⟨[⟨.event ⟨"e", -5, []⟩, .notDue⟩, ⟨.event ⟨"e", 1, []⟩, .notDue⟩], by decide, by decide⟩

end Hermes.AgentProxy.Broker
