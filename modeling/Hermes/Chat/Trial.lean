import Hermes.Chat.Requests
import Hermes.Library.Positions
import Hermes.Library.Transition

/-!
# The free trial

A user without a subscription has one free turn.  `run` claims it before it generates, a turn which
fails gives it back, and a turn which hands out tool calls goes on in later requests.  The claim
carries no name, so a later request takes it for its own turn's.  The trial is spent once as long as
every request which goes on generating belongs to the turn which holds the claim, and is the only
one which does.
-/

namespace Hermes.Chat

/-- The turn a request generates for, up to the commit which gives a claim back, and whether it will
give the trial back if the generation fails. -/
def Phase.generates : Phase → Option (Nat × Bool)
  | .opening turn _ _ claimed _ | .asking turn _ claimed _ _ _ _ => some (turn, claimed)
  | .reconciling turn => some (turn, true)
  | _ => none

/-- What the request at some place generates for. -/
def generator (requests : List Request) (id : Nat) : Option (Nat × Bool) :=
  requests[id]?.bind (·.phase.generates)

/-- The turn whose claim has not been given back. -/
def holder (history : List Event) : Option Nat :=
  history.foldl (fun held event =>
    match event with
    | .claimed turn => some turn
    | .returned _ => none
    | _ => held) none

/-- The turns which have ended in an assistant message. -/
def endedTurns (history : List Event) : List Nat :=
  history.filterMap fun event =>
    match event with
    | .ended turn => some turn
    | _ => none

/-- No turn has given back what another one had claimed. -/
def OwnReturns (history : List Event) : Prop :=
  ∀ earlier turn later, history = earlier ++ .returned turn :: later → holder earlier = some turn

/-- At most one turn has ended in a message, the trial is used up behind it, and no turn has given
back what another one had claimed. -/
structure SpentOnce (state : ChatSystem) : Prop where
  one_turn : ∀ first ∈ endedTurns state.history, ∀ second ∈ endedTurns state.history, first = second
  used : endedTurns state.history ≠ [] → state.trialUsed = true
  own : OwnReturns state.history

/-- A tool-result request which goes on generating belongs to the turn which holds the claim; that
turn has not ended, and no other request generates for it. -/
def Phase.entitled (state : ChatSystem) (near : Surroundings) (id chat : Nat) : Phase → Bool
  | .gating turn _ draft =>
      (continuationGate (policyState near (state.world chat)) (draft.view (state.chats chat))
          turn).isSome ||
        (holder state.history == some turn && !(endedTurns state.history).contains turn &&
          state.requests.zipIdx.all fun entry =>
            entry.2 == id || entry.1.phase.generates.all (·.1 != turn))
  | _ => true

/-- The user has no subscription whenever the policy is read. -/
def RequestAction.unsubscribed : RequestAction → Bool
  | .advance _ near => near.subscriptionStatus == .none
  | _ => true

/-- Every request which goes on generating is entitled to. -/
def RequestAction.entitled (state : ChatSystem) : RequestAction → Bool
  | .advance id near =>
      state.requests[id]?.all fun request => request.phase.entitled state near id request.chat
  | _ => true

/-! ## The claim is held -/

section History

variable (history : List Event) (chat turn round : Nat)

@[simp] theorem holder_claimed : holder (history ++ [.claimed turn]) = some turn := by
  simp [holder]

@[simp] theorem holder_returned : holder (history ++ [.returned turn]) = none := by
  simp [holder]

@[simp] theorem holder_ended : holder (history ++ [.ended turn]) = holder history := by
  simp [holder]

@[simp] theorem holder_continued :
    holder (history ++ [.continued chat turn round]) = holder history := by
  simp [holder]

@[simp] theorem endedTurns_append (later : List Event) :
    endedTurns (history ++ later) = endedTurns history ++ endedTurns later :=
  List.filterMap_append

end History

theorem OwnReturns.concat {history : List Event} (own : OwnReturns history) {event : Event}
    (fair : ∀ turn, event = .returned turn → holder history = some turn) :
    OwnReturns (history ++ [event]) := by
  intro earlier turn later split
  obtain rfl | ⟨before, last, rfl⟩ := List.eq_nil_or_concat later
  · obtain ⟨rfl, same⟩ := List.append_inj' split rfl
    exact fair turn (List.cons.inj same).1
  · rw [List.concat_eq_append, ← List.cons_append, ← List.append_assoc] at split
    exact own earlier turn before (List.append_inj' split rfl).1

/-- Whoever generates holds the claim alone, and a turn which has ended keeps it. -/
structure Held (requests : List Request) (trialUsed : Bool) (history : List Event) : Prop where
  used : ∀ turn, holder history = some turn → trialUsed = true
  generating : ∀ id turn claimed, generator requests id = some (turn, claimed) →
    claimed = true ∧ holder history = some turn ∧ turn ∉ endedTurns history
  alone : ∀ first second one other, generator requests first = some one →
    generator requests second = some other → first = second
  ended : ∀ turn ∈ endedTurns history, holder history = some turn
  own : OwnReturns history

section Generator

variable {requests : List Request} {id chat place : Nat} {phase : Phase} {owner : Nat × Bool}

theorem generator_append (idle : phase.generates = none) :
    generator (requests ++ [⟨chat, phase⟩]) = generator requests := by
  funext place
  rw [generator, generator, List.getElem?_append]
  split
  · rfl
  next beyond =>
    rw [List.getElem?_eq_none (Nat.not_lt.mp beyond)]
    cases place - requests.length with
    | zero => exact idle
    | succ further => rfl

theorem generator_set (found : generator (requests.set id ⟨chat, phase⟩) place = some owner) :
    place = id ∧ phase.generates = some owner ∨
      place ≠ id ∧ generator requests place = some owner := by
  obtain ⟨request, at_place, generates⟩ := Option.bind_eq_some_iff.mp found
  obtain ⟨same, rfl⟩ | ⟨other, before⟩ := getElem?_set_cases at_place
  · exact .inl ⟨same, generates⟩
  · exact .inr ⟨other, Option.bind_eq_some_iff.mpr ⟨request, before, generates⟩⟩

end Generator

namespace Held

variable {requests : List Request} {trialUsed : Bool} {history : List Event} {id chat turn : Nat}
  {phase : Phase}

theorem arrive (held : Held requests trialUsed history) (idle : phase.generates = none) :
    Held (requests ++ [⟨chat, phase⟩]) trialUsed history := by
  refine ⟨held.used, ?_, ?_, held.ended, held.own⟩
  · rw [generator_append idle]
    exact held.generating
  · rw [generator_append idle]
    exact held.alone

theorem idle (held : Held requests trialUsed history) (idle : phase.generates = none) :
    Held (requests.set id ⟨chat, phase⟩) trialUsed history := by
  refine ⟨held.used, fun place turn claimed found => ?_,
    fun first second one other found also => ?_,
    held.ended, held.own⟩
  · obtain ⟨-, generates⟩ | ⟨-, earlier⟩ := generator_set found
    · rw [idle] at generates
      cases generates
    · exact held.generating place turn claimed earlier
  · obtain ⟨-, generates⟩ | ⟨-, earlier⟩ := generator_set found
    · rw [idle] at generates
      cases generates
    · obtain ⟨-, generates⟩ | ⟨-, also_earlier⟩ := generator_set also
      · rw [idle] at generates
        cases generates
      · exact held.alone first second one other earlier also_earlier

/-- The only request which generates may be the one which moves on. -/
theorem generate (held : Held requests trialUsed history) (chat : Nat)
    (lonely : ∀ place owner, generator requests place = some owner → place = id)
    (claims : holder history = some turn) (going : turn ∉ endedTurns history)
    (generates : phase.generates = some (turn, true)) :
    Held (requests.set id ⟨chat, phase⟩) trialUsed history := by
  have only {place : Nat} {owner : Nat × Bool}
      (found : generator (requests.set id ⟨chat, phase⟩) place = some owner) :
      place = id ∧ phase.generates = some owner := by
    obtain here | ⟨elsewhere, earlier⟩ := generator_set found
    · exact here
    · exact absurd (lonely place owner earlier) elsewhere
  refine ⟨held.used, fun place owner claimed found => ?_,
    fun first second one other found also => ?_,
    held.ended, held.own⟩
  · have same := (only found).2
    rw [generates] at same
    cases same
    exact ⟨rfl, claims, going⟩
  · rw [(only found).1, (only also).1]

theorem goOn (held : Held requests trialUsed history) (chat : Nat) {claimed : Bool}
    (found : generator requests id = some (turn, claimed))
    (generates : phase.generates = some (turn, claimed)) :
    Held (requests.set id ⟨chat, phase⟩) trialUsed history := by
  obtain ⟨rfl, claims, going⟩ := held.generating id turn claimed found
  exact held.generate chat (fun place owner there => held.alone place id owner _ there found) claims
    going generates

theorem fail (held : Held requests trialUsed history) (chat : Nat) {claimed : Bool}
    (found : generator requests id = some (turn, claimed)) :
    Held (requests.set id ⟨chat, ChatSystem.failed claimed turn⟩) trialUsed history := by
  obtain ⟨rfl, -⟩ := held.generating id turn claimed found
  exact held.goOn chat found rfl

theorem continued (held : Held requests trialUsed history) (chat turn : Nat)
    (round : Option Nat) :
    Held requests trialUsed (history ++ ChatSystem.continuedFrom chat turn round) := by
  cases round with
  | none =>
      rw [ChatSystem.continuedFrom, List.append_nil]
      exact held
  | some round =>
      have same : endedTurns (history ++ [.continued chat turn round]) = endedTurns history := by
        simp [endedTurns]
      rw [ChatSystem.continuedFrom]
      refine ⟨?_, ?_, held.alone, ?_, held.own.concat nofun⟩
      · rw [holder_continued]
        exact held.used
      · rw [holder_continued, same]
        exact held.generating
      · rw [holder_continued, same]
        exact held.ended

/-- A claim is won only where nobody generates and no turn has ended. -/
theorem claim (held : Held requests false history) (chat : Nat)
    (generates : phase.generates = some (turn, true)) :
    Held (requests.set id ⟨chat, phase⟩) true (history ++ [.claimed turn]) := by
  have free (other : Nat) : holder history ≠ some other := fun claims => by
    cases held.used other claims
  have unended : endedTurns history = [] :=
    List.eq_nil_iff_forall_not_mem.mpr fun other listed => free other (held.ended other listed)
  have still : endedTurns (history ++ [.claimed turn]) = [] := by
    rw [endedTurns_append, unended]
    rfl
  have fresh : Held requests true (history ++ [.claimed turn]) := by
    refine ⟨fun _ _ => rfl, fun place owner claimed found => ?_, held.alone, ?_,
      held.own.concat nofun⟩
    · exact absurd (held.generating place owner claimed found).2.1 (free owner)
    · rw [still]
      nofun
  refine fresh.generate chat (fun place owner found => ?_) (holder_claimed ..) ?_ generates
  · exact absurd (held.generating place owner.1 owner.2 found).2.1 (free owner.1)
  · rw [still]
    nofun

theorem none_generates (held : Held requests trialUsed history) {owner : Nat × Bool}
    (found : generator requests id = some owner) (idle : phase.generates = none) (place : Nat) :
    generator (requests.set id ⟨chat, phase⟩) place = none := by
  cases there : generator (requests.set id ⟨chat, phase⟩) place with
  | none => rfl
  | some other =>
      obtain ⟨-, generates⟩ | ⟨elsewhere, earlier⟩ := generator_set there
      · rw [idle] at generates
        cases generates
      · exact absurd (held.alone place id other owner earlier found) elsewhere

theorem finish (held : Held requests trialUsed history) (chat : Nat) {claimed : Bool}
    (found : generator requests id = some (turn, claimed)) (idle : phase.generates = none) :
    Held (requests.set id ⟨chat, phase⟩) trialUsed (history ++ [.ended turn]) := by
  obtain ⟨-, claims, -⟩ := held.generating id turn claimed found
  have quiet := @none_generates _ _ _ id chat phase held _ found idle
  refine ⟨?_, fun place owner claimed there => ?_, fun first second one other there _ => ?_, ?_,
    held.own.concat nofun⟩
  · rw [holder_ended]
    exact held.used
  · rw [quiet place] at there
    cases there
  · rw [quiet first] at there
    cases there
  · intro owner listed
    rw [holder_ended]
    rw [endedTurns_append, List.mem_append] at listed
    obtain earlier | now := listed
    · exact held.ended owner earlier
    · rw [List.mem_singleton.mp now]
      exact claims

theorem giveBack (held : Held requests trialUsed history) (chat : Nat) {claimed : Bool}
    (found : generator requests id = some (turn, claimed)) (idle : phase.generates = none) :
    Held (requests.set id ⟨chat, phase⟩) false (history ++ [.returned turn]) := by
  obtain ⟨-, claims, going⟩ := held.generating id turn claimed found
  have quiet := @none_generates _ _ _ id chat phase held _ found idle
  have unended : endedTurns history = [] := by
    refine List.eq_nil_iff_forall_not_mem.mpr fun other listed => ?_
    have same := held.ended other listed
    rw [claims] at same
    cases same
    exact going listed
  have fair : OwnReturns (history ++ [.returned turn]) :=
    held.own.concat fun other same => by
      cases same
      exact claims
  refine ⟨fun other claims => ?_, fun place owner claimed there => ?_,
    fun first second one other there _ => ?_, ?_, fair⟩
  · rw [holder_returned] at claims
    cases claims
  · rw [quiet place] at there
    cases there
  · rw [quiet first] at there
    cases there
  · rw [endedTurns_append, unended]
    nofun

end Held

/-! ## Every step keeps it -/

section Policy

open Policy (Mode PolicyState evaluate)

variable {state : PolicyState} {mode : Mode}

theorem markTrial_of_allowed (unsubscribed : state.subscriptionStatus = .none)
    (allowed : evaluate state mode = .allowed) : (billingPlan state mode).markTrial = true := by
  cases mode with
  | byok => simp [evaluate, unsubscribed] at allowed
  | credits =>
      simp only [evaluate, unsubscribed] at allowed
      split at allowed
      · cases allowed
      next unused => simp [billingPlan, unsubscribed, unused]

/-- With the trial used up, a continuation passes the gate for its own claim only. -/
theorem inflight_of_gate {chat : Session} {turn : Nat}
    (unsubscribed : state.subscriptionStatus = .none) (used : state.trialUsed = true)
    (passes : (continuationGate state chat turn).isSome = false) :
    isInflightTrialTurn state chat turn = true := by
  rw [continuationGate] at passes
  split at passes
  next allowed =>
    cases mode : chat.mode with
    | byok => simp [evaluate, unsubscribed, mode] at allowed
    | credits => simp [evaluate, unsubscribed, used, mode] at allowed
  next reason _ =>
    split at passes
    next own => exact own.2
    · cases passes

end Policy

section Step

variable {settings : Nat → Settings} {near : Surroundings} {state after : ChatSystem}
  {id chat : Nat} {phase : Phase}

theorem generator_of_phase (there : state.requests[id]? = some ⟨chat, phase⟩) :
    generator state.requests id = phase.generates := by
  rw [generator, there, Option.bind_some]

theorem held_reply (held : Held state.requests state.trialUsed state.history) {turn : Nat}
    {plan : BillingPlan} {claimed : Bool} {round : Option Nat} {left calls : Nat}
    {serverTools : List ServerToolExecutionOut}
    (found : generator state.requests id = some (turn, claimed)) :
    let replied := state.reply settings near id chat turn plan claimed round left calls serverTools
    Held replied.requests replied.trialUsed replied.history := by
  intro replied
  have saved := held.continued chat turn round
  simp only [replied, ChatSystem.reply]
  split
  · exact held.fail chat found
  · split
    · exact held.fail chat found
    next world executed _ =>
      cases left with
      | zero => exact saved.fail chat found
      | succ left => exact saved.goOn chat found rfl
    next world out _ =>
      have noted : Held state.requests state.trialUsed (state.history ++
          if out.stepId.isSome then ChatSystem.continuedFrom chat turn round else []) := by
        split
        · exact saved
        · rw [List.append_nil]
          exact held
      change Held (state.requests.set id ⟨chat, _⟩) state.trialUsed (state.history ++ (_ ++ _))
      rw [← List.append_assoc]
      by_cases message : out.status = .assistantMessage
      · have kept : keepsClaim (.ok out) = true := by simp [keepsClaim, message]
        rw [if_pos message, if_pos kept]
        exact noted.finish chat found rfl
      · rw [if_neg message, List.append_nil]
        split
        · exact noted.idle rfl
        · exact noted.fail chat found

theorem held_gating (held : Held state.requests state.trialUsed state.history) {turn round : Nat}
    {draft : Draft} (unsubscribed : near.subscriptionStatus = .none)
    (passes : (continuationGate (policyState near (state.world chat))
      (draft.view (state.chats chat)) turn).isSome = false)
    (entitled : (Phase.gating turn round draft).entitled state near id chat = true)
    (plan : BillingPlan) :
    Held (state.requests.set id ⟨chat, .opening turn draft plan
        (isInflightTrialTurn (policyState near (state.world chat)) (draft.view (state.chats chat))
          turn) (some round)⟩) state.trialUsed state.history := by
  rw [Phase.entitled, passes, Bool.false_or, Bool.and_eq_true_iff, Bool.and_eq_true_iff,
    beq_iff_eq] at entitled
  obtain ⟨⟨claims, going⟩, others⟩ := entitled
  have status : (policyState near (state.world chat)).subscriptionStatus = .none := unsubscribed
  rw [inflight_of_gate status (held.used turn claims) passes]
  refine held.generate chat (fun place owner found => ?_) claims (by simpa using going) rfl
  obtain ⟨-, same, -⟩ := held.generating place owner.1 owner.2 found
  rw [claims] at same
  obtain ⟨request, there, generates⟩ := Option.bind_eq_some_iff.mp found
  have listed : (request, place) ∈ state.requests.zipIdx := List.mem_zipIdx_iff_getElem?.mpr there
  have apart := List.all_eq_true.mp others _ listed
  simp only [generates, Option.all_some, ← Option.some.inj same, bne_self_eq_false, Bool.or_false,
    beq_iff_eq] at apart
  exact apart

theorem held_advance (held : Held state.requests state.trialUsed state.history)
    (there : state.requests[id]? = some ⟨chat, phase⟩)
    (unsubscribed : near.subscriptionStatus = .none)
    (entitled : phase.entitled state near id chat = true)
    (advanced : state.advance settings near id chat phase = some after) :
    Held after.requests after.trialUsed after.history := by
  have found := generator_of_phase there
  cases phase with
  | admitting turn draft =>
      simp only [ChatSystem.advance] at advanced
      split at advanced
      · cases advanced
        exact held.idle rfl
      next allowed =>
        cases advanced
        have status : (policyState near (state.world chat)).subscriptionStatus = .none :=
          unsubscribed
        rw [if_pos (markTrial_of_allowed status allowed)]
        exact held.idle rfl
  | claiming turn draft plan =>
      rw [ChatSystem.advance] at advanced
      split at advanced
      · cases advanced
        exact held.idle rfl
      next unused =>
        cases advanced
        rw [Bool.not_eq_true] at unused
        rw [unused] at held
        exact held.claim chat rfl
  | opening turn draft plan claimed round =>
      rw [ChatSystem.advance] at advanced
      split at advanced
      · cases advanced
        exact held.idle rfl
      · cases advanced
        exact held.goOn chat found rfl
  | asking turn plan claimed round left calls serverTools =>
      cases advanced
      exact held_reply held found
  | reconciling turn =>
      rw [ChatSystem.advance] at advanced
      split at advanced
      · cases advanced
        exact held.giveBack chat found rfl
      · cases advanced
        exact held.idle rfl
  | applying turn resolved todo draft =>
      cases todo with
      | nil =>
          cases advanced
          refine held.idle ?_
          split <;> rfl
      | cons entry todo =>
          simp only [ChatSystem.advance, ChatSystem.applyItem] at advanced
          split at advanced
          · cases advanced
            exact held.idle rfl
          · split at advanced
            · cases advanced
            · split at advanced
              · cases advanced
                exact held.idle rfl
              · cases advanced
                exact held.idle rfl
  | closed turn resolved draft =>
      obtain ⟨first, -, rfl⟩ := Option.map_eq_some_iff.mp advanced
      refine held.idle ?_
      split <;> rfl
  | gating turn round draft =>
      cases advanced
      cases passes : (continuationGate (policyState near (state.world chat))
          (draft.view (state.chats chat)) turn).isSome with
      | true => exact held.idle rfl
      | false => exact held_gating held unsubscribed passes entitled _
  | leaving draft =>
      cases advanced
      exact held.idle rfl
  | done => cases advanced

theorem held_step {action : RequestAction}
    (held : Held state.requests state.trialUsed state.history)
    (unsubscribed : action.unsubscribed = true) (entitled : action.entitled state = true)
    (stepped : state.step settings action = some after) :
    Held after.requests after.trialUsed after.history := by
  cases action with
  | run chat request =>
      obtain ⟨deleted, -, rfl⟩ := Option.map_eq_some_iff.mp stepped
      exact held.arrive rfl
  | results chat results =>
      simp only [ChatSystem.step] at stepped
      split at stepped
      · cases stepped
        exact held.arrive rfl
      · cases stepped
        exact held
  | advance id near =>
      obtain ⟨request, there, advanced⟩ := Option.bind_eq_some_iff.mp stepped
      rw [RequestAction.entitled, there, Option.all_some] at entitled
      exact held_advance held there (beq_iff_eq.mp unsubscribed) entitled advanced
  | lose id =>
      obtain ⟨request, there, rfl⟩ := Option.map_eq_some_iff.mp stepped
      exact held.idle rfl
  | wallet invocation =>
      cases stepped
      exact held

end Step

/-- The free trial is spent at most once: whatever the requests of a user without a subscription do
side by side, at most one turn ends in an assistant message, the trial is used up behind it, and no
turn gives back what another one has claimed. -/
theorem trial_spent_once (settings : Nat → Settings) (start state : ChatSystem)
    (quiet : start.requests = []) (unwritten : start.history = [])
    (reached : Reachable (ChatSystem.step settings)
      (fun state action => action.unsubscribed = true ∧ action.entitled state = true) start state) :
    SpentOnce state := by
  have initially : Held start.requests start.trialUsed start.history := by
    rw [quiet, unwritten]
    refine ⟨nofun, nofun, nofun, nofun, fun earlier turn later split => ?_⟩
    have lengths := congrArg List.length split
    simp at lengths
  have held : Held state.requests state.trialUsed state.history :=
    reached.invariant (fun state => Held state.requests state.trialUsed state.history) initially
      fun _ _ _ before_held allowed stepped => held_step before_held allowed.1 allowed.2 stepped
  refine ⟨fun first first_listed second second_listed => ?_, fun some_ended => ?_, held.own⟩
  · have same := held.ended first first_listed
    rw [held.ended second second_listed] at same
    exact (Option.some.inj same).symm
  · obtain ⟨turn, listed⟩ := List.exists_mem_of_ne_nil _ some_ended
    exact held.used turn (held.ended turn listed)

namespace Sample

/-- A user without a subscription, whose chats are all project-less credits chats. -/
def newcomer : ChatSystem where
  chats := fun _ => { mode := .credits, hasProject := false }

/-- The policy finds no subscription, and the provider gives one reply. -/
def freely (reply : Reply) : Surroundings := { near reply with subscriptionStatus := .none }

/-- One call for the client. -/
def oneCall : Reply :=
  .anthropic (some "tool_use") [.toolUse "toolu_1" "files_read" (.obj [])] usage

/-- A request goes on some number of times. -/
def advances (id count : Nat) (reply : Reply) : List RequestAction :=
  List.replicate count (.advance id (freely reply))

/-- The client's result for the call of the first turn. -/
def firstResult : RequestAction := .results 0 [⟨3, some (.obj []), none⟩]

/-- The first turn claims the trial and hands out a call. -/
def firstTurn : List RequestAction := .run 0 (message "read it") :: advances 0 4 oneCall

/-- The turn is continued to its message. -/
theorem spent_by_first_turn :
    ∃ state, SpentOnce state ∧ endedTurns state.history = [0] ∧ state.trialUsed = true := by
  obtain ⟨state, reached, tested⟩ := reachable_of_any (ChatSystem.step fun _ => settings)
    (fun state action => action.unsubscribed = true ∧ action.entitled state = true) newcomer
    (fun state => endedTurns state.history == [0])
    (firstTurn ++ firstResult :: advances 1 6 finalText) (by decide)
  have spent := trial_spent_once (fun _ => settings) newcomer state rfl rfl reached
  have ended : endedTurns state.history = [0] := beq_iff_eq.mp tested
  exact ⟨state, spent, ended, spent.used (by simp [ended])⟩

/-- A continuation which failed has given the trial back; the re-sent one generates without a claim,
and its message leaves the trial unused. -/
theorem message_leaves_trial :
    ¬ ∀ (settings : Nat → Settings) (start state : ChatSystem), start.requests = [] →
      start.history = [] →
      Reachable (ChatSystem.step settings) (fun _ action => action.unsubscribed = true)
        start state →
      SpentOnce state := by
  intro spent
  obtain ⟨state, reached, tested⟩ := reachable_of_any (ChatSystem.step fun _ => settings)
    (fun _ action => action.unsubscribed = true) newcomer
    (fun state => endedTurns state.history == [0] && !state.trialUsed)
    (firstTurn ++ firstResult :: advances 1 7 (.unavailable "overloaded") ++
      firstResult :: advances 2 6 finalText) (by decide)
  rw [Bool.and_eq_true_iff, beq_iff_eq, Bool.not_eq_true'] at tested
  have used := (spent _ newcomer state rfl rfl reached).used (by simp [tested.1])
  rw [tested.2] at used
  cases used

end Sample

end Hermes.Chat
