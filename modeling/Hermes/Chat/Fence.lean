import Hermes.Chat.Drafts
import Hermes.Library.Positions

/-!
# Requests among others

What a request relies on while others commit between its own commits.  A request which generates for
a turn relies on the calls of the turn being answered and on no assistant step coming up; one which
has found the barrier closed relies on the same until a step is saved behind its results.  All of
this survives what the other requests commit, as long as no two of them generate for one turn.
-/

namespace Hermes.Chat

/-- The turn a request generates for, from its user step or its replay test on. -/
def Phase.busyWith : Phase → Option Nat
  | .admitting turn _ | .claiming turn _ _ | .opening turn _ _ _ _ | .asking turn _ _ _ _ _ _
  | .gating turn _ _ => some turn
  | _ => none

/-- The round of a turn a request goes on from, until its first step is saved. -/
def Phase.goesOnFrom : Phase → Option (Nat × Nat)
  | .gating turn round _ | .opening turn _ _ _ (some round)
  | .asking turn _ _ (some round) _ _ _ => some (turn, round)
  | _ => none

/-- The rounds, with their chats and turns, from which a continuation has saved a step. -/
def continuations (history : List Event) : List (Nat × Nat × Nat) :=
  history.filterMap fun event =>
    match event with
    | .continued chat turn round => some (chat, turn, round)
    | _ => none

/-! ## One request -/

/-- The calls a tool-result request speaks of, with their turn. -/
def Phase.resolves : Phase → Option (Nat × List (ToolResultIn × ToolCall))
  | .applying turn resolved todo _ => some (turn, resolved ++ todo)
  | .closed turn resolved _ => some (turn, resolved)
  | _ => none

/-- What holds of a request against the chat as it is committed. -/
structure Phase.Apt (chat : Session) (phase : Phase) : Prop where
  proper : ∀ write ∈ phase.draft, write.Proper chat
  known : ∀ turn, phase.busyWith = some turn → turn < chat.next
  covered : ∀ turn, phase.busyWith = some turn → phase.draft.Covers chat turn
  at_round : ∀ turn round, phase.goesOnFrom = some (turn, round) →
    (chat.assistantSteps turn).length = round
  resolved : ∀ turn entries, phase.resolves = some (turn, entries) → ∀ entry ∈ entries,
    ∃ row ∈ chat.toolCalls, row.id = entry.2.id ∧ row.messageStepId = turn
  closed : ∀ turn resolved draft, phase = .closed turn resolved draft →
    draft.Covers chat turn ∨
      ∃ step ∈ chat.assistantSteps turn, ∀ entry ∈ resolved, entry.2.id < step.seq

theorem Phase.busyWith_of_goesOnFrom {phase : Phase} {turn round : Nat}
    (goes : phase.goesOnFrom = some (turn, round)) : phase.busyWith = some turn := by
  unfold Phase.goesOnFrom at goes
  split at goes
  · cases goes
    rfl
  · cases goes
    rfl
  · cases goes
    rfl
  · cases goes

/-- What other requests commit does not matter to a request, unless they generate for its turn; then
its results have been superseded. -/
theorem Phase.Apt.carry {before after : Session} {phase : Phase} {own : Option Nat}
    (apt : phase.Apt before) (passed : Passed own before after) (numbered : before.Numbered)
    (other : ∀ turn, phase.busyWith = some turn → own ≠ some turn) : phase.Apt after where
  proper := fun write member => (apt.proper write member).carry passed.kept
  known := fun turn busy => Nat.lt_of_lt_of_le (apt.known turn busy) passed.next
  covered := fun turn busy => (apt.covered turn busy).carry passed (other turn busy)
  at_round := by
    intro turn round goes
    rw [passed.same turn (other turn (busyWith_of_goesOnFrom goes))]
    exact apt.at_round turn round goes
  resolved := by
    intro turn entries resolves entry member
    obtain ⟨row, row_member, same, in_turn⟩ := apt.resolved turn entries resolves entry member
    obtain ⟨later, later_member, grown⟩ := passed.kept row row_member
    exact ⟨later, later_member, grown.id.trans same, grown.turn.trans in_turn⟩
  closed := by
    rintro turn resolved draft rfl
    obtain covers | ⟨step, listed, behind⟩ := apt.closed turn resolved draft rfl
    · by_cases mine : own = some turn
      · obtain ⟨step, listed, new⟩ := passed.saved turn mine
        refine .inr ⟨step, listed, fun entry member => ?_⟩
        obtain ⟨row, row_member, same, -⟩ := apt.resolved turn resolved rfl entry member
        rw [← same]
        exact Nat.lt_of_lt_of_le (numbered.calls_below row row_member) new
      · exact .inl (covers.carry passed mine)
    · exact .inr ⟨step, (passed.grows turn).subset listed, behind⟩

section Apt

variable {chat : Session} {phase new : Phase}

theorem Phase.Apt.recede (apt : phase.Apt chat)
    (draft : new.draft = phase.draft ∨ new.draft = [] ∧ new.busyWith = none)
    (busy : ∀ turn, new.busyWith = some turn → phase.busyWith = some turn)
    (goes : ∀ entry, new.goesOnFrom = some entry → phase.goesOnFrom = some entry)
    (idle : new.resolves = none) : new.Apt chat where
  proper := by
    obtain same | ⟨empty, -⟩ := draft
    · rw [same]
      exact apt.proper
    · rw [empty]
      exact List.forall_mem_nil _
  known := fun turn new_busy => apt.known turn (busy turn new_busy)
  covered := by
    intro turn new_busy
    obtain same | ⟨-, free⟩ := draft
    · rw [same]
      exact apt.covered turn (busy turn new_busy)
    · rw [free] at new_busy
      cases new_busy
  at_round := fun turn round new_goes => apt.at_round turn round (goes _ new_goes)
  resolved := by
    intro turn entries resolves
    rw [idle] at resolves
    cases resolves
  closed := by
    rintro turn resolved draft rfl
    cases idle

theorem Phase.Apt.commit (apt : phase.Apt chat) (empty : new.draft = [])
    (busy : ∀ turn, new.busyWith = some turn → phase.busyWith = some turn)
    (goes : ∀ entry, new.goesOnFrom = some entry → phase.goesOnFrom = some entry)
    (idle : new.resolves = none) : new.Apt (phase.draft.view chat) where
  proper := by
    rw [empty]
    exact List.forall_mem_nil _
  known := by
    intro turn new_busy
    rw [Draft.view_next]
    exact apt.known turn (busy turn new_busy)
  covered := by
    intro turn new_busy
    rw [empty]
    exact (apt.covered turn (busy turn new_busy)).commit apt.proper
  at_round := by
    intro turn round new_goes
    rw [(Draft.view_passed apt.proper).same turn nofun]
    exact apt.at_round turn round (goes _ new_goes)
  resolved := by
    intro turn entries resolves
    rw [idle] at resolves
    cases resolves
  closed := by
    rintro turn resolved draft rfl
    cases idle

end Apt

/-! ## Behind the replay test -/

section Replayed

variable {chat : Session} {turn : Nat} {resolved : List (ToolResultIn × ToolCall)}
  {first : ToolResultIn × ToolCall}

/-- Where the calls of a batch are done and an assistant step is not before the first of them, there
is a step to replay. -/
theorem Session.Settled.replayed (settled : chat.Settled)
    (rows : ∀ entry ∈ resolved, ∃ row ∈ chat.toolCalls, row.id = entry.2.id ∧
      row.messageStepId = turn ∧ row.status ≠ .pending)
    (member : first ∈ resolved) {step : Step} (assistant : step ∈ chat.assistantSteps turn)
    (late : ¬ step.seq < first.2.id) :
    (replayedStep chat turn first.2.id resolved).isSome = true := by
  have all_done : allAlreadyDoneBefore chat resolved = true := by
    rw [allAlreadyDoneBefore, List.all_eq_true]
    intro entry listed
    obtain ⟨row, row_member, same, -, done⟩ := rows entry listed
    rw [← same, settled.sound.numbered.getToolCall_eq row_member]
    simpa using done
  obtain ⟨row, row_member, same, rfl, done⟩ := rows first member
  rw [← same] at late ⊢
  obtain before | ⟨-, behind⟩ := settled.placed row row_member step assistant
  · exact absurd before late
  · rw [replayedStep, all_done, Session.nextStepAfter_eq]
    split
    next anchor found =>
      have answers := @List.find?_some Step (·.answers row.id) _ _ found
      have anchored : anchor.seq < step.seq :=
        behind anchor (List.mem_of_find?_eq_some found) answers
      cases saved : (chat.assistantSteps row.messageStepId).find? fun step =>
          anchor.seq < step.seq with
      | some next => rfl
      | none =>
          have absent := List.find?_eq_none.mp saved step assistant
          exact absurd (decide_eq_true anchored) absent
    next unanswered =>
      obtain ⟨result, in_turn, answers⟩ := settled.sound.recorded row row_member done
      exact absurd answers (List.find?_eq_none.mp unanswered result in_turn)

/-- A request which finds no step to replay has the last round of the turn before it. -/
theorem Phase.Apt.unreplayed {draft : Draft} (apt : (Phase.closed turn resolved draft).Apt chat)
    (settled : (draft.view chat).Settled) (member : first ∈ resolved)
    (unsaved : (replayedStep (draft.view chat) turn first.2.id resolved).isSome = false) :
    draft.Covers chat turn ∧
      (chat.assistantSteps turn).length = (draft.view chat).round turn first.2.id := by
  have passed : Passed none chat (draft.view chat) := Draft.view_passed apt.proper
  have same_steps := passed.same turn nofun
  have done : ∀ entry ∈ resolved, ∃ row ∈ (draft.view chat).toolCalls, row.id = entry.2.id ∧
      row.messageStepId = turn ∧ row.status ≠ .pending := by
    intro entry listed
    obtain ⟨row, row_member, same, own⟩ := apt.resolved turn resolved rfl entry listed
    obtain ⟨later, later_member, grown⟩ := passed.kept row row_member
    refine ⟨later, later_member, grown.id.trans same, grown.turn.trans own, fun pending => ?_⟩
    obtain covers | ⟨step, assistant, behind⟩ := apt.closed turn resolved draft rfl
    · cases covers.commit apt.proper later later_member (grown.turn.trans own) pending
    · rw [← same_steps, ← own, ← grown.turn] at assistant
      have before := settled.placed.before_pending later_member pending assistant
      rw [grown.id, same] at before
      exact Nat.lt_asymm before (behind entry listed)
  have before : ∀ step ∈ chat.assistantSteps turn, step.seq < first.2.id := by
    intro step assistant
    by_contra late
    rw [← same_steps] at assistant
    rw [settled.replayed done member assistant late] at unsaved
    cases unsaved
  constructor
  · obtain covers | ⟨step, assistant, behind⟩ := apt.closed turn resolved draft rfl
    · exact covers
    · exact absurd (before step assistant) (Nat.lt_asymm (behind first member))
  · rw [Session.round, same_steps, eq_comm, List.countP_eq_length]
    exact fun step assistant => decide_eq_true (before step assistant)

end Replayed

/-! ## All requests -/

structure Fenced (state : ChatSystem) : Prop where
  settled : ∀ chat, (state.world chat).chat.Settled
  apt : ∀ (id : Nat) (request : Request), state.requests[id]? = some request →
    request.phase.Apt (state.world request.chat).chat
  alone : ∀ (first second : Nat) (one other : Request) (turn : Nat),
    state.requests[first]? = some one → state.requests[second]? = some other →
    one.chat = other.chat →
    one.phase.busyWith = some turn → other.phase.busyWith = some turn → first = second
  numbered_once : ∀ (id : Nat) (request : Request), state.requests[id]? = some request →
    request.phase.draft.seqs.Nodup
  fresh : ∀ (id : Nat) (request : Request), state.requests[id]? = some request →
    ∀ seq ∈ request.phase.draft.seqs,
      seq < state.next ∧ ∀ step ∈ (state.chats request.chat).steps, step.seq ≠ seq
  apart : ∀ (first second : Nat) (one other : Request), state.requests[first]? = some one →
    state.requests[second]? = some other → ∀ seq ∈ one.phase.draft.seqs,
    seq ∈ other.phase.draft.seqs → first = second
  logged : ∀ entry ∈ continuations state.history,
    entry.2.2 < ((state.chats entry.1).assistantSteps entry.2.1).length
  once : (continuations state.history).Nodup
  account : state.account.Sound

/-- One request goes on from a phase to a new one; `own` is the turn it has saved a step of. -/
structure Passage (state after : ChatSystem) (id chat : Nat) (phase new : Phase) (own : Option Nat)
    (events : List Event) : Prop where
  there : state.requests[id]? = some ⟨chat, phase⟩
  requests : after.requests = state.requests.set id ⟨chat, new⟩
  others : ∀ other, other ≠ chat →
    (after.world other).chat = { (state.world other).chat with next := after.next }
  passed : Passed own (state.world chat).chat (after.world chat).chat
  busy : ∀ turn, own = some turn → phase.busyWith = some turn
  settled : (after.world chat).chat.Settled
  apt : new.Apt (after.world chat).chat
  alone : ∀ turn, new.busyWith = some turn → phase.busyWith = some turn ∨
    ∀ (place : Nat) (request : Request), state.requests[place]? = some request →
      request.chat = chat → request.phase.busyWith = some turn → place = id
  steps : ∀ step ∈ (after.chats chat).steps,
    step ∈ (state.chats chat).steps ∨ step.seq ∈ phase.draft.seqs ∨ state.next ≤ step.seq
  numbered_once : new.draft.seqs.Nodup
  fresh : ∀ seq ∈ new.draft.seqs, (seq ∈ phase.draft.seqs ∨ state.next ≤ seq) ∧
    seq < after.next ∧ ∀ step ∈ (after.chats chat).steps, step.seq ≠ seq
  history : after.history = state.history ++ events
  noted : ∀ entry ∈ continuations events, entry.1 = chat ∧
    entry.2.2 = ((state.chats chat).assistantSteps entry.2.1).length ∧
    entry.2.2 < ((after.chats chat).assistantSteps entry.2.1).length
  noted_once : (continuations events).Nodup
  account : after.account.Sound

namespace Fenced

variable {state after : ChatSystem} {id chat : Nat} {phase new : Phase} {own : Option Nat}
  {events : List Event}

theorem other_steps (passage : Passage state after id chat phase new own events) {other : Nat}
    (apart : other ≠ chat) : (after.chats other).steps = (state.chats other).steps := by
  have same := congrArg Session.steps (passage.others other apart)
  exact same

theorem grows (passage : Passage state after id chat phase new own events) (other turn : Nat) :
    (state.chats other).assistantSteps turn <+: (after.chats other).assistantSteps turn := by
  by_cases same : other = chat
  · rw [same]
    exact passage.passed.grows turn
  · have unchanged : (after.chats other).assistantSteps turn =
        (state.chats other).assistantSteps turn := by
      rw [Session.assistantSteps, Session.assistantSteps, other_steps passage same]
    exact unchanged ▸ List.prefix_refl _

theorem pass (fenced : Fenced state)
    (passage : Passage state after id chat phase new own events) : Fenced after := by
  have later : state.next ≤ after.next := passage.passed.next
  have cases_set {place : Nat} {request : Request} (found : after.requests[place]? = some request) :
      place = id ∧ request = ⟨chat, new⟩ ∨ place ≠ id ∧ state.requests[place]? = some request := by
    rw [passage.requests] at found
    exact getElem?_set_cases found
  constructor
  case settled =>
      intro other
      by_cases same : other = chat
      · rw [same]
        exact passage.settled
      · rw [passage.others other same]
        exact (fenced.settled other).raise later
  case apt =>
      intro place request found
      obtain ⟨-, rfl⟩ | ⟨elsewhere, stayed⟩ := cases_set found
      · exact passage.apt
      · have apt := fenced.apt place request stayed
        by_cases same : request.chat = chat
        · rw [same] at apt ⊢
          have numbered := (fenced.settled chat).sound.numbered
          refine apt.carry passage.passed numbered fun turn busy mine => ?_
          exact elsewhere (fenced.alone place id request _ turn stayed passage.there same busy
            (passage.busy turn mine))
        · rw [passage.others _ same]
          exact apt.carry (.raise _ later) (fenced.settled _).sound.numbered nofun
  case alone =>
      intro first second one other turn one_found other_found same one_busy other_busy
      have moved {place : Nat} {request : Request} (stayed : state.requests[place]? = some request)
          (here : request.chat = chat) (busy : request.phase.busyWith = some turn)
          (new_busy : new.busyWith = some turn) : place = id := by
        obtain before | nobody := passage.alone turn new_busy
        · exact fenced.alone place id request _ turn stayed passage.there here busy before
        · exact nobody place request stayed here busy
      obtain ⟨rfl, rfl⟩ | ⟨one_elsewhere, one_stayed⟩ := cases_set one_found
      · obtain ⟨rfl, -⟩ | ⟨-, other_stayed⟩ := cases_set other_found
        · rfl
        · exact (moved other_stayed same.symm other_busy one_busy).symm
      · obtain ⟨rfl, rfl⟩ | ⟨-, other_stayed⟩ := cases_set other_found
        · exact moved one_stayed same one_busy other_busy
        · exact fenced.alone first second one other turn one_stayed other_stayed same one_busy
            other_busy
  case numbered_once =>
      intro place request found
      obtain ⟨-, rfl⟩ | ⟨-, stayed⟩ := cases_set found
      · exact passage.numbered_once
      · exact fenced.numbered_once place request stayed
  case fresh =>
      intro place request found seq drafted
      obtain ⟨-, rfl⟩ | ⟨elsewhere, stayed⟩ := cases_set found
      · exact (passage.fresh seq drafted).2
      · obtain ⟨below, new_number⟩ := fenced.fresh place request stayed seq drafted
        refine ⟨Nat.lt_of_lt_of_le below later, fun step member => ?_⟩
        by_cases same : request.chat = chat
        · rw [same] at member new_number
          obtain earlier | committed | behind := passage.steps step member
          · exact new_number step earlier
          · rintro rfl
            exact elsewhere (fenced.apart place id request _ stayed passage.there _ drafted
              committed)
          · exact Nat.ne_of_gt (Nat.lt_of_lt_of_le below behind)
        · rw [other_steps passage same] at member
          exact new_number step member
  case apart =>
      intro first second one other one_found other_found seq one_drafted other_drafted
      have moved {place : Nat} {request : Request} (stayed : state.requests[place]? = some request)
          (drafted : seq ∈ request.phase.draft.seqs) (new_drafted : seq ∈ new.draft.seqs) :
          place = id := by
        obtain ⟨before | behind, -⟩ := passage.fresh seq new_drafted
        · exact fenced.apart place id request _ stayed passage.there seq drafted before
        · have below := (fenced.fresh place request stayed seq drafted).1
          exact absurd behind (Nat.not_le_of_gt below)
      obtain ⟨rfl, rfl⟩ | ⟨-, one_stayed⟩ := cases_set one_found
      · obtain ⟨rfl, -⟩ | ⟨-, other_stayed⟩ := cases_set other_found
        · rfl
        · exact (moved other_stayed other_drafted one_drafted).symm
      · obtain ⟨rfl, rfl⟩ | ⟨-, other_stayed⟩ := cases_set other_found
        · exact moved one_stayed one_drafted other_drafted
        · exact fenced.apart first second one other one_stayed other_stayed seq one_drafted
            other_drafted
  case logged =>
      intro entry listed
      rw [passage.history, continuations, List.filterMap_append, List.mem_append] at listed
      obtain earlier | now := listed
      · exact Nat.lt_of_lt_of_le (fenced.logged entry earlier)
          (grows passage entry.1 entry.2.1).length_le
      · obtain ⟨here, -, below⟩ := passage.noted entry now
        rw [here]
        exact below
  case once =>
      rw [passage.history, continuations, List.filterMap_append]
      refine List.nodup_append.mpr ⟨fenced.once, passage.noted_once, ?_⟩
      rintro entry earlier _ now rfl
      obtain ⟨here, round, -⟩ := passage.noted entry now
      have below := fenced.logged entry earlier
      rw [here, round] at below
      exact absurd below (Nat.lt_irrefl _)
  case account => exact passage.account

theorem silent (fenced : Fenced state) (there : state.requests[id]? = some ⟨chat, phase⟩)
    (requests : after.requests = state.requests.set id ⟨chat, new⟩)
    (chats : ∀ other,
      (after.world other).chat = { (state.world other).chat with next := after.next })
    (later : state.next ≤ after.next)
    (history : after.history = state.history ++ events) (unnoted : continuations events = [])
    (account : after.account = state.account) (apt : new.Apt (after.world chat).chat)
    (alone : ∀ turn, new.busyWith = some turn → phase.busyWith = some turn ∨
      ∀ (place : Nat) (request : Request), state.requests[place]? = some request →
        request.chat = chat → request.phase.busyWith = some turn → place = id)
    (numbered_once : new.draft.seqs.Nodup)
    (drafted : ∀ seq ∈ new.draft.seqs,
      seq ∈ phase.draft.seqs ∨ state.next ≤ seq ∧ seq < after.next) : Fenced after := by
  have steps : (after.chats chat).steps = (state.chats chat).steps := by
    have same := congrArg Session.steps (chats chat)
    exact same
  have passage : Passage state after id chat phase new none events :=
    { there := there
      requests := requests
      others := fun other _ => chats other
      passed := chats chat ▸ .raise _ later
      busy := nofun
      settled := chats chat ▸ (fenced.settled chat).raise later
      apt := apt
      alone := alone
      steps := fun step member => .inl (steps ▸ member)
      numbered_once := numbered_once
      fresh := by
        intro seq member
        rw [steps]
        obtain before | ⟨behind, below⟩ := drafted seq member
        · obtain ⟨below, new_number⟩ := fenced.fresh id _ there seq before
          exact ⟨.inl before, Nat.lt_of_lt_of_le below later, new_number⟩
        · refine ⟨.inr behind, below, fun step stored => ?_⟩
          have step_below : step.seq < state.next :=
            (fenced.settled chat).sound.numbered.below step stored
          exact Nat.ne_of_lt (Nat.lt_of_lt_of_le step_below behind)
      history := history
      noted := by
        rw [unnoted]
        exact fun _ listed => absurd listed List.not_mem_nil
      noted_once := unnoted ▸ List.nodup_nil
      account := account ▸ fenced.account }
  exact fenced.pass passage

theorem committed (fenced : Fenced state) (there : state.requests[id]? = some ⟨chat, phase⟩)
    (requests : after.requests = state.requests.set id ⟨chat, new⟩)
    (chats : after.chats =
      Function.update state.chats chat (phase.draft.view (state.chats chat)))
    (next : after.next = state.next) (history : after.history = state.history ++ events)
    (unnoted : continuations events = []) (account : after.account = state.account)
    (empty : new.draft = [])
    (busy : ∀ turn, new.busyWith = some turn → phase.busyWith = some turn)
    (goes : ∀ entry, new.goesOnFrom = some entry → phase.goesOnFrom = some entry)
    (idle : new.resolves = none) : Fenced after := by
  have here : after.chats chat = phase.draft.view (state.chats chat) := by
    rw [chats, Function.update_self]
  have viewed : (after.world chat).chat = phase.draft.view (state.world chat).chat := by
    change { after.chats chat with next := after.next } = _
    rw [here, next]
    exact (Draft.view_raise ..).symm
  have apt : phase.Apt (state.world chat).chat := fenced.apt id _ there
  have passage : Passage state after id chat phase new none events :=
    { there := there
      requests := requests
      others := by
        intro other apart
        change { after.chats other with next := after.next } = _
        rw [chats, Function.update_of_ne apart]
        rfl
      passed := viewed ▸ Draft.view_passed apt.proper
      busy := nofun
      settled := by
        rw [viewed]
        exact Draft.view_settled (fenced.settled chat) apt.proper
          (fenced.numbered_once id _ there) (fenced.fresh id _ there)
      apt := viewed ▸ apt.commit empty busy goes idle
      alone := fun turn new_busy => .inl (busy turn new_busy)
      steps := by
        intro step member
        have stored : step ∈ (after.world chat).chat.steps := member
        rw [viewed] at stored
        exact (Draft.view_steps apt.proper stored).imp_right .inl
      numbered_once := by
        rw [empty]
        exact List.nodup_nil
      fresh := by
        rw [empty]
        exact fun _ drafted => absurd drafted List.not_mem_nil
      history := history
      noted := by
        rw [unnoted]
        exact fun _ listed => absurd listed List.not_mem_nil
      noted_once := unnoted ▸ List.nodup_nil
      account := account ▸ fenced.account }
  exact fenced.pass passage

theorem arrive (fenced : Fenced state) (chat : Nat) :
    Fenced { state with requests := state.requests ++ [⟨chat, .done⟩] } := by
  have cases_append {place : Nat} {request : Request}
      (found : (state.requests ++ [⟨chat, .done⟩])[place]? = some request) :
      request = ⟨chat, .done⟩ ∨ state.requests[place]? = some request := by
    exact (getElem?_snoc found).symm.imp_left And.right
  refine ⟨fenced.settled, ?_, ?_, ?_, ?_, ?_, fenced.logged, fenced.once, fenced.account⟩
  · intro place request found
    obtain rfl | stayed := cases_append found
    · exact ⟨List.forall_mem_nil _, nofun, nofun, nofun, nofun, nofun⟩
    · exact fenced.apt place request stayed
  · intro first second one other turn one_found other_found same one_busy other_busy
    obtain rfl | one_stayed := cases_append one_found
    · cases one_busy
    · obtain rfl | other_stayed := cases_append other_found
      · cases other_busy
      · exact fenced.alone first second one other turn one_stayed other_stayed same one_busy
          other_busy
  · intro place request found
    obtain rfl | stayed := cases_append found
    · exact List.nodup_nil
    · exact fenced.numbered_once place request stayed
  · intro place request found
    obtain rfl | stayed := cases_append found
    · exact fun _ drafted => absurd drafted List.not_mem_nil
    · exact fenced.fresh place request stayed
  · intro first second one other one_found other_found seq one_drafted other_drafted
    obtain rfl | one_stayed := cases_append one_found
    · cases one_drafted
    · obtain rfl | other_stayed := cases_append other_found
      · cases other_drafted
      · exact fenced.apart first second one other one_stayed other_stayed seq one_drafted
          other_drafted

theorem enter (fenced : Fenced state) (requests : after.requests = state.requests ++ [⟨chat, new⟩])
    (chats : ∀ other,
      (after.world other).chat = { (state.world other).chat with next := after.next })
    (later : state.next ≤ after.next)
    (history : after.history = state.history) (account : after.account = state.account)
    (apt : new.Apt (after.world chat).chat)
    (newcomer : ∀ turn, new.busyWith = some turn → state.next ≤ turn)
    (numbered_once : new.draft.seqs.Nodup)
    (drafted : ∀ seq ∈ new.draft.seqs, state.next ≤ seq ∧ seq < after.next) : Fenced after := by
  have entered : after.requests =
      (state.requests ++ [Request.mk chat .done]).set state.requests.length ⟨chat, new⟩ := by
    rw [requests, List.set_append_right _ _ (Nat.le_refl _), Nat.sub_self]
    rfl
  refine (fenced.arrive chat).silent List.getElem?_concat_length entered chats later
    (history.trans (List.append_nil _).symm) rfl account apt (fun turn busy => .inr ?_)
    numbered_once fun seq member => .inr (drafted seq member)
  intro place request found same other_busy
  -- A turn which is not numbered yet has no request.
  have known := ((fenced.arrive chat).apt place request found).known turn other_busy
  exact absurd (newcomer turn busy) (Nat.not_le_of_gt known)

theorem stop (fenced : Fenced state) (there : state.requests[id]? = some ⟨chat, phase⟩)
    (requests : after.requests = state.requests.set id ⟨chat, new⟩)
    (chats : ∀ other, (after.world other).chat = (state.world other).chat)
    (history : after.history = state.history ++ events) (unnoted : continuations events = [])
    (account : after.account = state.account) (empty : new.draft = [])
    (free : new.busyWith = none) (idle : new.resolves = none) : Fenced after := by
  have next : after.next = state.next := congrArg Session.next (chats chat)
  have apt : new.Apt (state.world chat).chat := by
    refine (fenced.apt id _ there).recede (.inr ⟨empty, free⟩) ?_ ?_ idle
    · intro turn busy
      rw [free] at busy
      cases busy
    · intro entry goes
      have busy := Phase.busyWith_of_goesOnFrom goes
      rw [free] at busy
      cases busy
  refine fenced.silent there requests (fun other => ?_) (Nat.le_of_eq next.symm) history unnoted
    account (chats chat ▸ apt) ?_ ?_ ?_
  · rw [next]
    exact chats other
  · intro turn busy
    rw [free] at busy
    cases busy
  · rw [empty]
    exact List.nodup_nil
  · rw [empty]
    exact fun _ drafted => absurd drafted List.not_mem_nil

theorem goOn (fenced : Fenced state) (there : state.requests[id]? = some ⟨chat, phase⟩)
    (draft : new.draft = phase.draft)
    (busy : ∀ turn, new.busyWith = some turn → phase.busyWith = some turn)
    (goes : ∀ entry, new.goesOnFrom = some entry → phase.goesOnFrom = some entry)
    (idle : new.resolves = none) : Fenced (state.move id chat new) := by
  refine fenced.silent there rfl (fun _ => rfl) (Nat.le_refl _) (List.append_nil _).symm rfl rfl
    ((fenced.apt id _ there).recede (.inl draft) busy goes idle)
    (fun turn new_busy => .inl (busy turn new_busy)) ?_ ?_
  · rw [draft]
    exact fenced.numbered_once id _ there
  · rw [draft]
    exact fun _ drafted => .inl drafted

theorem saved (fenced : Fenced state) {turn : Nat} {plan : BillingPlan} {claimed : Bool}
    {round : Option Nat} {left calls : Nat} {serverTools : List ServerToolExecutionOut}
    (there : state.requests[id]? =
      some ⟨chat, .asking turn plan claimed round left calls serverTools⟩) {world : World}
    (written : Written turn (state.world chat).chat world.chat) (settled : world.chat.Settled)
    (stored : ∃ saved, (state.world chat).chat.next ≤ saved.seq ∧
      world.chat.assistantSteps turn = (state.world chat).chat.assistantSteps turn ++ [saved])
    (account : world.account.Sound)
    (noted : continuations events = [] ∨
      continuations events = (round.map fun round => (chat, turn, round)).toList)
    (empty : new.draft = [])
    (busy : ∀ other, new.busyWith = some other →
      other = turn ∧ Draft.Covers [] world.chat turn)
    (first : new.goesOnFrom = none) (idle : new.resolves = none) :
    Fenced (((state.put chat world).record events).move id chat new) := by
  have numbered := (fenced.settled chat).sound.numbered
  have apt := fenced.apt id _ there
  obtain ⟨saved, behind, steps⟩ := stored
  have passed : Passed (some turn) (state.world chat).chat world.chat := by
    refine written.passed numbered ⟨saved, ?_, behind⟩
    rw [steps]
    exact List.mem_append_right _ (List.mem_singleton.mpr rfl)
  have here : (((state.put chat world).record events).move id chat new).chats chat = world.chat :=
    Function.update_self ..
  have viewed : ((((state.put chat world).record events).move id chat new).world chat).chat =
      world.chat := by
    change { Function.update state.chats chat world.chat chat with next := world.chat.next } = _
    rw [Function.update_self]
  have new_apt : new.Apt world.chat := by
    refine ⟨?_, ?_, ?_, ?_, ?_, ?_⟩
    · rw [empty]
      exact List.forall_mem_nil _
    · intro other new_busy
      rw [(busy other new_busy).1]
      exact Nat.lt_of_lt_of_le (apt.known turn rfl) passed.next
    · intro other new_busy
      rw [(busy other new_busy).1, empty]
      exact (busy other new_busy).2
    · intro other round goes
      rw [first] at goes
      cases goes
    · intro other entries resolves
      rw [idle] at resolves
      cases resolves
    · rintro other resolved draft rfl
      cases idle
  have passage : Passage state (((state.put chat world).record events).move id chat new) id chat
      (.asking turn plan claimed round left calls serverTools) new (some turn) events :=
    { there := there
      requests := rfl
      others := by
        intro other apart
        change { Function.update state.chats chat world.chat other with
          next := world.chat.next } = _
        rw [Function.update_of_ne apart]
        rfl
      passed := viewed ▸ passed
      busy := fun other own => own
      settled := viewed ▸ settled
      apt := viewed ▸ new_apt
      alone := fun other new_busy => .inl (by rw [(busy other new_busy).1]; rfl)
      steps := by
        rw [here]
        exact fun step member => (written.steps numbered member).imp_right .inr
      numbered_once := by
        rw [empty]
        exact List.nodup_nil
      fresh := by
        rw [empty]
        exact fun _ drafted => absurd drafted List.not_mem_nil
      history := rfl
      noted := by
        intro entry listed
        obtain nothing | from_round := noted
        · rw [nothing] at listed
          cases listed
        · rw [from_round, Option.mem_toList] at listed
          obtain ⟨number, rfl, rfl⟩ := Option.map_eq_some_iff.mp listed
          have length := apt.at_round turn number rfl
          refine ⟨rfl, length.symm, ?_⟩
          rw [here, steps, List.length_append, length]
          exact Nat.lt_succ_self _
      noted_once := by
        obtain nothing | from_round := noted
        · rw [nothing]
          exact List.nodup_nil
        · rw [from_round]
          cases round with
          | none => exact List.nodup_nil
          | some number => exact List.nodup_singleton _
      account := account }
  exact fenced.pass passage

end Fenced

end Hermes.Chat
