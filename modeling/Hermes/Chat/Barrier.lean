import Hermes.Chat.Fence
import Hermes.Library.Transition

/-!
# One continuation for a barrier

Once all calls of a round are answered, a tool-result request goes on generating unless a step has
been saved since.  Its results are committed before the provider is asked, and the step is saved
when the reply is there; a second request which comes in between finds the barrier closed and
nothing saved.  As long as no request passes the replay test while another one generates for the
turn, each round is continued once.
-/

namespace Hermes.Chat

/-- At most one request generates for a turn at a time, and only from a round from which no step has
been saved; each round is continued at most once, and each turn is debited at most once. -/
structure OneContinuation (state : ChatSystem) : Prop where
  alone : ∀ (first second : Nat) (one other : Request) (turn : Nat),
    state.requests[first]? = some one → state.requests[second]? = some other →
    one.chat = other.chat →
    one.phase.busyWith = some turn → other.phase.busyWith = some turn → first = second
  unsaved : ∀ request ∈ state.requests, ∀ turn round,
    request.phase.goesOnFrom = some (turn, round) →
    (request.chat, turn, round) ∉ continuations state.history
  once : (continuations state.history).Nodup
  debited : ∀ turn : Nat,
    state.account.ledger.countP (fun row => row.idempotencyKey == toString turn) ≤ 1

/-- A request which finds the barrier closed and no step saved is the only one for its turn. -/
def Phase.unrivalled (state : ChatSystem) (id chat : Nat) : Phase → Bool
  | .closed turn resolved draft =>
      (resolved.head?.all fun first =>
          (replayedStep (draft.view (state.chats chat)) turn first.2.id resolved).isSome) ||
        state.requests.zipIdx.all fun entry =>
          entry.2 == id || entry.1.chat != chat || entry.1.phase.busyWith != some turn
  | _ => true

/-- Every request which passes the replay test is the only one for its turn. -/
def RequestAction.unrivalled (state : ChatSystem) : RequestAction → Bool
  | .advance id _ =>
      state.requests[id]?.all fun request => request.phase.unrivalled state id request.chat
  | _ => true

def RequestAction.unedited : RequestAction → Bool
  | .run _ request => request.editMessageStepId.isNone
  | _ => true

/-! ## Every step keeps the fence -/

section Step

variable {settings : Nat → Settings} {near : Surroundings} {state after : ChatSystem}
  {id chat turn : Nat} {phase : Phase}

theorem continuations_append (earlier later : List Event) :
    continuations (earlier ++ later) = continuations earlier ++ continuations later :=
  List.filterMap_append

theorem continuations_continuedFrom (chat turn : Nat) (round : Option Nat) :
    continuations (ChatSystem.continuedFrom chat turn round) =
      (round.map fun round => (chat, turn, round)).toList := by
  cases round with
  | none => rfl
  | some round => rfl

theorem continuations_answered (chat turn : Nat) (round : Option Nat) (out : ChatRunOut) :
    let events := (if out.stepId.isSome then ChatSystem.continuedFrom chat turn round else []) ++
      if out.status = .assistantMessage then [.ended turn] else []
    continuations events = [] ∨
      continuations events = (round.map fun round => (chat, turn, round)).toList := by
  intro events
  have ended :
      continuations (if out.status = .assistantMessage then [.ended turn] else []) = [] := by
    split <;> rfl
  rw [continuations_append, ended, List.append_nil]
  split
  · exact .inr (continuations_continuedFrom chat turn round)
  · exact .inl rfl

theorem failed_idle (claimed : Bool) (turn : Nat) :
    (ChatSystem.failed claimed turn).draft = [] ∧
      (ChatSystem.failed claimed turn).busyWith = none ∧
      (ChatSystem.failed claimed turn).resolves = none ∧
      (ChatSystem.failed claimed turn).goesOnFrom = none := by
  cases claimed with
  | true => exact ⟨rfl, rfl, rfl, rfl⟩
  | false => exact ⟨rfl, rfl, rfl, rfl⟩

theorem fenced_reply (fenced : Fenced state) {plan : BillingPlan} {claimed : Bool}
    {round : Option Nat} {left calls : Nat} {serverTools : List ServerToolExecutionOut}
    (there : state.requests[id]? =
      some ⟨chat, .asking turn plan claimed round left calls serverTools⟩) :
    Fenced (state.reply settings near id chat turn plan claimed round left calls serverTools) := by
  obtain ⟨empty, free, idle, first⟩ := failed_idle claimed turn
  have fails : Fenced (state.move id chat (ChatSystem.failed claimed turn)) :=
    fenced.stop there rfl (fun _ => rfl) (List.append_nil _).symm rfl rfl empty free idle
  rw [ChatSystem.reply]
  split
  · exact fails
  next result _ =>
    have apt := fenced.apt id _ there
    have account := absorb_account (settings chat) near plan turn result serverTools
      (show (state.world chat).account.Sound from fenced.account)
    obtain ⟨failure, raised⟩ | blocked | ⟨world, written, settled, stored,
        ⟨executed, continues, covers⟩ | ⟨out, answered⟩⟩ :=
      absorb_settled (settings chat) near plan result serverTools (fenced.settled chat)
        (apt.known turn rfl) (apt.covered turn rfl)
    · rw [raised]
      exact fails
    · -- The message could not be paid for: nothing of it is saved.
      rw [blocked]
      refine fenced.stop there rfl (fun other => ?_) rfl rfl rfl empty free idle
      change { Function.update state.chats chat (state.world chat).chat other with
        next := state.next } = _
      by_cases same : other = chat
      · rw [same, Function.update_self]
        rfl
      · rw [Function.update_of_ne same]
        rfl
    · rw [continues] at account ⊢
      have noted := continuations_continuedFrom chat turn round
      cases left with
      | zero =>
          exact fenced.saved there written settled stored account (.inr noted) empty
            (fun other busy => by rw [free] at busy; cases busy) first idle
      | succ left =>
          exact fenced.saved there written settled stored account (.inr noted) rfl
            (fun other busy => ⟨(Option.some.inj busy).symm, covers⟩) rfl rfl
    · rw [answered] at account ⊢
      have noted := continuations_answered chat turn round out
      dsimp only
      by_cases kept : keepsClaim (.ok out) = true
      · rw [if_pos kept]
        exact fenced.saved there written settled stored account noted rfl nofun rfl rfl
      · rw [if_neg kept]
        exact fenced.saved there written settled stored account noted empty
          (fun other busy => by rw [free] at busy; cases busy) first idle

theorem fenced_applyItem (fenced : Fenced state) {resolved todo : List (ToolResultIn × ToolCall)}
    {item : ToolResultIn} {row : ToolCall} {draft : Draft}
    (there : state.requests[id]? = some ⟨chat, .applying turn resolved ((item, row) :: todo) draft⟩)
    (applied : state.applyItem id chat turn resolved todo item row draft = some after) :
    Fenced after := by
  have apt := fenced.apt id _ there
  have entries {entry : ToolResultIn × ToolCall} (member : entry ∈ resolved ++ todo) :
      ∃ row ∈ (state.world chat).chat.toolCalls,
        row.id = entry.2.id ∧ row.messageStepId = turn := by
    refine apt.resolved turn _ rfl entry ?_
    rw [List.mem_append] at member ⊢
    exact member.imp_right (List.mem_cons_of_mem _)
  have skipped : Fenced (state.move id chat (.applying turn resolved todo draft)) := by
    refine fenced.silent there rfl (fun _ => rfl) (Nat.le_refl _) (List.append_nil _).symm rfl rfl
      ⟨apt.proper, nofun, nofun, nofun, ?_, nofun⟩ nofun (fenced.numbered_once id _ there)
      fun _ drafted => .inl drafted
    rintro other _ ⟨⟩
    exact fun entry member => entries member
  rw [ChatSystem.applyItem] at applied
  split at applied
  · cases applied
    exact skipped
  split at applied
  · cases applied
  split at applied
  · cases applied
    obtain ⟨stored, member, same, own⟩ :=
      apt.resolved turn _ rfl (item, row) (List.mem_append_right _ (List.mem_cons_self ..))
    have later : state.next ≤ state.next + 1 := Nat.le_succ _
    have numbered := (fenced.settled chat).sound.numbered
    have seqs : ∀ write : Write, Draft.seqs (draft ++ [write]) = draft.seqs ++ write.seqs := by
      intro write
      rw [Draft.seqs, List.flatMap_append, List.flatMap_singleton]
      rfl
    refine fenced.silent there rfl (fun _ => rfl) later (List.append_nil _).symm rfl rfl
      ⟨?_, nofun, nofun, nofun, ?_, nofun⟩ nofun ?_ ?_
    · intro write drafted
      obtain earlier | last := List.mem_append.mp drafted
      · exact (apt.proper write earlier).carry fun row member => ⟨row, member, .refl row⟩
      · have proper := Write.Proper.answer (item.result.or item.error)
          (resultStatus_ne_pending item) state.next member
          ⟨row.id, row.providerToolUseId, row.toolName, item.result, item.error⟩ same.symm
        rw [same, own] at proper
        rw [List.mem_singleton.mp last]
        exact proper.carry fun row member => ⟨row, member, .refl row⟩
    · rintro other _ ⟨⟩
      exact fun entry member => entries member
    · rw [Phase.draft, seqs]
      refine List.nodup_append.mpr ⟨fenced.numbered_once id _ there, List.nodup_singleton _,
        fun seq drafted number fresh => ?_⟩
      rw [List.mem_singleton.mp fresh]
      exact Nat.ne_of_lt (fenced.fresh id _ there seq drafted).1
    · rw [Phase.draft, seqs]
      intro seq drafted
      obtain earlier | fresh := List.mem_append.mp drafted
      · exact .inl earlier
      · rw [List.mem_singleton.mp fresh]
        exact .inr ⟨Nat.le_refl _, Nat.lt_succ_self _⟩
  · cases applied
    exact skipped

theorem fenced_applied (fenced : Fenced state) {resolved : List (ToolResultIn × ToolCall)}
    {draft : Draft} (there : state.requests[id]? = some ⟨chat, .applying turn resolved [] draft⟩)
    (closed : ((draft.view (state.chats chat)).pendingCalls turn).isEmpty = true) :
    Fenced (state.move id chat (.closed turn resolved draft)) := by
  have apt := fenced.apt id _ there
  have covers : draft.Covers (state.world chat).chat turn := by
    refine (Draft.covers_iff (fenced.settled chat) apt.proper turn).mpr ?_
    change ((draft.view (state.world chat).chat).pendingCalls turn).isEmpty = true
    rw [ChatSystem.world, Draft.view_raise]
    exact closed
  refine fenced.silent there rfl (fun _ => rfl) (Nat.le_refl _) (List.append_nil _).symm rfl rfl
    ⟨apt.proper, nofun, nofun, nofun, ?_, ?_⟩ nofun (fenced.numbered_once id _ there)
    fun _ drafted => .inl drafted
  · rintro _ _ ⟨⟩ entry member
    exact apt.resolved turn _ rfl entry (List.mem_append_left _ member)
  · rintro _ _ _ ⟨⟩
    exact .inl covers

/-- A request which finds the barrier closed and no step saved goes on from the last round. -/
theorem fenced_closed (fenced : Fenced state) {resolved : List (ToolResultIn × ToolCall)}
    {draft : Draft} (there : state.requests[id]? = some ⟨chat, .closed turn resolved draft⟩)
    (unrivalled : (Phase.closed turn resolved draft).unrivalled state id chat = true)
    {first : ToolResultIn × ToolCall} (head : resolved.head? = some first)
    (unsaved : (replayedStep (draft.view (state.chats chat)) turn first.2.id resolved).isSome =
      false) :
    Fenced (state.move id chat
      (.gating turn ((draft.view (state.chats chat)).round turn first.2.id) draft)) := by
  have apt : (Phase.closed turn resolved draft).Apt (state.world chat).chat :=
    fenced.apt id _ there
  have raised : draft.view (state.world chat).chat =
      { draft.view (state.chats chat) with next := state.next } := Draft.view_raise ..
  have settled : (draft.view (state.world chat).chat).Settled :=
    Draft.view_settled (fenced.settled chat) apt.proper (fenced.numbered_once id _ there)
      (fenced.fresh id _ there)
  have member : first ∈ resolved := List.mem_of_head? head
  have known : turn < state.next := by
    obtain ⟨row, row_member, -, own⟩ := apt.resolved turn resolved rfl first member
    rw [← own]
    exact (fenced.settled chat).sound.turns row row_member
  have still_unsaved :
      (replayedStep (draft.view (state.world chat).chat) turn first.2.id resolved).isSome =
        false := by
    rw [raised]
    exact unsaved
  obtain ⟨covers, length⟩ := apt.unreplayed settled member still_unsaved
  have round : (draft.view (state.world chat).chat).round turn first.2.id =
      (draft.view (state.chats chat)).round turn first.2.id := by
    rw [raised]
    rfl
  rw [Phase.unrivalled, head, Option.all_some, unsaved, Bool.false_or, List.all_eq_true]
    at unrivalled
  refine fenced.silent there rfl (fun _ => rfl) (Nat.le_refl _) (List.append_nil _).symm rfl rfl
    ⟨apt.proper, ?_, ?_, ?_, nofun, nofun⟩ ?_ (fenced.numbered_once id _ there)
    fun _ drafted => .inl drafted
  · rintro _ ⟨⟩
    exact known
  · rintro _ ⟨⟩
    exact covers
  · rintro _ _ ⟨⟩
    exact length.trans round
  · rintro _ ⟨⟩
    refine .inr fun place request found same busy => ?_
    have apart := unrivalled (request, place) (List.mem_zipIdx_iff_getElem?.mpr found)
    simpa [same, busy] using apart

theorem fenced_advance (fenced : Fenced state)
    (there : state.requests[id]? = some ⟨chat, phase⟩)
    (unrivalled : phase.unrivalled state id chat = true)
    (advanced : state.advance settings near id chat phase = some after) : Fenced after := by
  cases phase with
  | admitting turn draft =>
      simp only [ChatSystem.advance] at advanced
      split at advanced
      · cases advanced
        exact fenced.goOn there rfl nofun nofun rfl
      · cases advanced
        split
        · exact fenced.goOn there rfl (fun _ busy => busy) nofun rfl
        · exact fenced.goOn there rfl (fun _ busy => busy) nofun rfl
  | claiming turn draft plan =>
      rw [ChatSystem.advance] at advanced
      split at advanced
      · cases advanced
        exact fenced.committed there rfl rfl rfl (List.append_nil _).symm rfl rfl rfl nofun nofun
          rfl
      · cases advanced
        exact fenced.committed there rfl rfl rfl rfl rfl rfl rfl (fun _ busy => busy) nofun rfl
  | opening turn draft plan claimed round =>
      rw [ChatSystem.advance] at advanced
      split at advanced
      · cases advanced
        exact fenced.stop there rfl (fun _ => rfl) (List.append_nil _).symm rfl rfl rfl rfl rfl
      · cases advanced
        refine fenced.committed there rfl rfl rfl (List.append_nil _).symm rfl rfl rfl
          (fun _ busy => busy) ?_ rfl
        cases round with
        | none => exact nofun
        | some round => exact fun _ goes => goes
  | asking turn plan claimed round left calls serverTools =>
      cases advanced
      exact fenced_reply fenced there
  | reconciling turn =>
      rw [ChatSystem.advance] at advanced
      split at advanced
      · cases advanced
        exact fenced.stop there rfl (fun _ => rfl) rfl rfl rfl rfl rfl rfl
      · cases advanced
        exact fenced.stop there rfl (fun _ => rfl) (List.append_nil _).symm rfl rfl rfl rfl rfl
  | applying turn resolved todo draft =>
      cases todo with
      | nil =>
          cases advanced
          split
          next closed => exact fenced_applied fenced there closed
          · exact fenced.goOn there rfl nofun nofun rfl
      | cons entry todo => exact fenced_applyItem fenced there advanced
  | closed turn resolved draft =>
      obtain ⟨first, head, rfl⟩ := Option.map_eq_some_iff.mp advanced
      split
      · exact fenced.goOn there rfl nofun nofun rfl
      next unsaved =>
        exact fenced_closed fenced there unrivalled head (Bool.eq_false_iff.mpr unsaved)
  | gating turn round draft =>
      cases advanced
      split
      · exact fenced.goOn there rfl nofun nofun rfl
      · exact fenced.goOn there rfl (fun _ busy => busy) (fun _ goes => goes) rfl
  | leaving draft =>
      cases advanced
      exact fenced.committed there rfl rfl rfl (List.append_nil _).symm rfl rfl rfl nofun nofun rfl
  | done => cases advanced

theorem deletions_of_unedited {request : RunRequest} {stored : Session}
    {deleted : List Nat × List Nat}
    (unedited : request.editMessageStepId.isNone = true)
    (deletes : request.deletions stored = some deleted) : deleted = ([], []) := by
  rw [Option.isNone_iff_eq_none] at unedited
  rw [RunRequest.deletions, RunRequest.truncated, unedited] at deletes
  cases deletes
  have steps : (stored.steps.filter fun step => !stored.steps.any (·.seq == step.seq)) = [] := by
    simp only [List.filter_eq_nil_iff, Bool.not_eq_true', Bool.not_eq_false, List.any_eq_true]
    exact fun step member => ⟨step, member, beq_self_eq_true _⟩
  have rows : (stored.toolCalls.filter fun row => !stored.toolCalls.any (·.id == row.id)) = [] := by
    simp only [List.filter_eq_nil_iff, Bool.not_eq_true', Bool.not_eq_false, List.any_eq_true]
    exact fun row member => ⟨row, member, beq_self_eq_true _⟩
  dsimp only
  rw [steps, rows]
  rfl

theorem fenced_run (fenced : Fenced state) {request : RunRequest}
    (unedited : request.editMessageStepId.isNone = true)
    (stepped : state.step settings (.run chat request) = some after) : Fenced after := by
  obtain ⟨deleted, deletes, rfl⟩ := Option.map_eq_some_iff.mp stepped
  obtain rfl := deletions_of_unedited unedited deletes
  have later : state.next ≤ state.next + 2 := Nat.le_add_right ..
  refine fenced.enter rfl (fun _ => rfl) later rfl rfl ⟨?_, ?_, ?_, nofun, nofun, nofun⟩ ?_ ?_ ?_
  · intro write drafted
    obtain rfl | last := List.mem_cons.mp drafted
    · exact .delete
    · rw [List.mem_singleton.mp last]
      exact .insert ..
  · rintro _ ⟨⟩
    exact Nat.lt_add_of_pos_right Nat.two_pos
  · rintro _ ⟨⟩ row member own
    have below := (fenced.settled chat).sound.turns row member
    exact absurd own (Nat.ne_of_lt below)
  · rintro _ ⟨⟩
    exact Nat.le_refl _
  · exact List.nodup_singleton _
  · intro seq drafted
    rw [List.mem_singleton.mp drafted]
    exact ⟨Nat.le_succ _, Nat.lt_succ_self _⟩

theorem fenced_step {action : RequestAction} (fenced : Fenced state)
    (unedited : action.unedited = true) (unrivalled : action.unrivalled state = true)
    (stepped : state.step settings action = some after) : Fenced after := by
  cases action with
  | run chat request => exact fenced_run fenced unedited stepped
  | results chat results =>
      simp only [ChatSystem.step] at stepped
      split at stepped
      next item row later resolves =>
        cases stepped
        refine fenced.enter rfl (fun _ => rfl) (Nat.le_refl _) rfl rfl
          ⟨List.forall_mem_nil _, nofun, nofun, nofun, ?_, nofun⟩ nofun List.nodup_nil
          fun _ drafted => absurd drafted List.not_mem_nil
        rintro _ _ ⟨⟩ entry member
        have listed : entry ∈ (item, row) :: later := by
          rw [List.mem_append, or_self] at member
          exact member
        obtain ⟨stored, -, own⟩ := resolved_rows resolves entry listed
        exact ⟨entry.2, stored, rfl, own⟩
      · cases stepped
        exact fenced
  | advance id near =>
      obtain ⟨request, there, advanced⟩ := Option.bind_eq_some_iff.mp stepped
      rw [RequestAction.unrivalled, there, Option.all_some] at unrivalled
      exact fenced_advance fenced there unrivalled advanced
  | lose id =>
      obtain ⟨request, there, rfl⟩ := Option.map_eq_some_iff.mp stepped
      exact fenced.stop there rfl (fun _ => rfl) (List.append_nil _).symm rfl rfl rfl rfl rfl
  | wallet invocation =>
      cases stepped
      exact
        { settled := fenced.settled
          apt := fenced.apt
          alone := fenced.alone
          numbered_once := fenced.numbered_once
          fresh := fenced.fresh
          apart := fenced.apart
          logged := fenced.logged
          once := fenced.once
          account := (Wallet.Call.step_balances invocation state.account fenced.account).1 }

end Step

theorem Session.Settled.empty {chat : Session} (no_steps : chat.steps = [])
    (no_calls : chat.toolCalls = []) : chat.Settled := by
  obtain ⟨mode, hasProject, steps, toolCalls, next⟩ := chat
  cases no_steps
  cases no_calls
  refine ⟨⟨⟨.nil, ?_, .nil, ?_⟩, ?_, ?_, ?_⟩, ?_⟩ <;> exact List.forall_mem_nil _

theorem Fenced.oneContinuation {state : ChatSystem} (fenced : Fenced state) :
    OneContinuation state where
  alone := fenced.alone
  unsaved := by
    intro request member turn round goes listed
    obtain ⟨id, found⟩ := List.getElem?_of_mem member
    have below := fenced.logged _ listed
    have length : ((state.chats request.chat).assistantSteps turn).length = round :=
      (fenced.apt id request found).at_round turn round goes
    exact absurd below (Nat.not_lt_of_le (Nat.le_of_eq length))
  once := fenced.once
  debited := by
    intro turn
    have count := List.nodup_iff_count_le_one.mp fenced.account.keys_nodup (toString turn)
    rw [List.count, List.countP_map] at count
    exact count

/-- One continuation for a barrier: whatever the requests of a user do side by side, at most one
request generates for a turn at a time, and from a round which has not been continued; at most one
continuation of a round saves a step, and no turn is debited twice. -/
theorem barrier_continued_once (settings : Nat → Settings) (start state : ChatSystem)
    (empty : ∀ chat, (start.chats chat).steps = [] ∧ (start.chats chat).toolCalls = [])
    (quiet : start.requests = []) (unwritten : start.history = []) (sound : start.account.Sound)
    (reached : Reachable (ChatSystem.step settings)
      (fun state action => action.unedited = true ∧ action.unrivalled state = true) start state) :
    OneContinuation state := by
  have initially : Fenced start := by
    have nobody {id : Nat} {request : Request} : start.requests[id]? ≠ some request := by
      rw [quiet]
      exact nofun
    have nothing : continuations start.history = [] := by
      rw [unwritten]
      rfl
    exact
      { settled := fun chat => .empty (empty chat).1 (empty chat).2
        apt := fun _ _ found => absurd found nobody
        alone := fun _ _ _ _ _ found => absurd found nobody
        numbered_once := fun _ _ found => absurd found nobody
        fresh := fun _ _ found => absurd found nobody
        apart := fun _ _ _ _ found => absurd found nobody
        logged := by
          rw [nothing]
          exact List.forall_mem_nil _
        once := nothing ▸ List.nodup_nil
        account := sound }
  have fenced := reached.invariant Fenced initially fun _ _ _ before_fenced allowed stepped =>
    fenced_step before_fenced allowed.1 allowed.2 stepped
  exact fenced.oneContinuation

namespace Sample

/-- A subscriber with three credits, whose chats are all project-less credits chats. -/
def subscriber : ChatSystem where
  chats := fun _ => { mode := .credits, hasProject := false }
  account := { wallet := some ⟨3, 0⟩, ledger := [⟨⟨7⟩, .credit, 3, {}, "grant"⟩] }

/-- Two calls for the client, of identifiers 3 and 4. -/
def twoCalls : Reply :=
  .anthropic (some "tool_use")
    [.toolUse "toolu_1" "files_read" (.obj []), .toolUse "toolu_2" "files_list" (.obj [])] usage

/-- The client's result for one of the calls. -/
def resultFor (call : Nat) : RequestAction := .results 0 [⟨call, some (.obj []), none⟩]

/-- A request goes on some number of times. -/
def goes (id count : Nat) (reply : Reply) : List RequestAction :=
  List.replicate count (.advance id (near reply))

/-- A turn which hands out two calls. -/
def asksForTwo : List RequestAction := .run 0 (message "read them") :: goes 0 3 twoCalls

theorem subscriber_sound : subscriber.account.Sound := ⟨by decide, by decide, by decide⟩

/-- Complementary results which follow each other are continued once, to one debit. -/
theorem complementary_results_continued_once :
    ∃ state, OneContinuation state ∧ continuations state.history = [(0, 0, 1)] ∧
      state.account.balance = 2 := by
  obtain ⟨state, reached, tested⟩ := reachable_of_any (ChatSystem.step fun _ => settings)
    (fun state action => action.unedited = true ∧ action.unrivalled state = true) subscriber
    (fun state => continuations state.history == [(0, 0, 1)] && state.account.balance == 2)
    (asksForTwo ++ resultFor 3 :: goes 1 3 finalText ++ resultFor 4 :: goes 2 6 finalText)
    (by decide)
  rw [Bool.and_eq_true, beq_iff_eq, beq_iff_eq] at tested
  have once := barrier_continued_once (fun _ => settings) subscriber state (fun _ => ⟨rfl, rfl⟩) rfl
    rfl subscriber_sound reached
  exact ⟨state, once, tested⟩

/-- The last result sent twice: the second request finds the barrier closed behind the commit of the
first, while the first still waits for the provider, and both save a step. -/
theorem repeated_result_continued_twice :
    ¬ ∀ (settings : Nat → Settings) (start state : ChatSystem),
      (∀ chat, (start.chats chat).steps = [] ∧ (start.chats chat).toolCalls = []) →
      start.requests = [] → start.history = [] → start.account.Sound →
      Reachable (ChatSystem.step settings) (fun _ action => action.unedited = true) start state →
      OneContinuation state := by
  intro continued_once
  obtain ⟨state, reached, tested⟩ := reachable_of_any (ChatSystem.step fun _ => settings)
    (fun _ action => action.unedited = true) subscriber
    (fun state => continuations state.history == [(0, 0, 1), (0, 0, 1)])
    (asksForTwo ++ resultFor 3 :: goes 1 3 finalText ++ resultFor 4 :: resultFor 4 ::
      goes 2 5 finalText ++ goes 3 5 finalText ++ goes 2 1 finalText ++ goes 3 1 finalText)
    (by decide)
  have once := (continued_once _ subscriber state (fun _ => ⟨rfl, rfl⟩) rfl rfl subscriber_sound
    reached).once
  rw [beq_iff_eq.mp tested] at once
  simp at once

end Sample

end Hermes.Chat
