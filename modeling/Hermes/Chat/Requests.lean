import Hermes.Chat.Orchestrator
import Mathlib.Logic.Function.Basic

/-!
# Requests side by side

All requests of one user over any number of chats, each of which goes its own way between its
commits.  What a request writes is seen by the others once it commits; a call which one request has
answered is locked for the others until then.  Each advance of a request is one statement or one
transaction of `run`, `tool_result` or the generation loop, and what matters for claims about whole
executions is kept in a history.
-/

namespace Hermes.Chat

open Policy (evaluate)

inductive Write
  | delete (steps calls : List Nat)
  | insert (step : Step)
  | answer (id : Nat) (status : ToolCallStatus) (result : Option Json) (step : Step)

namespace Write

/-- A write on the rows of a chat; a call which does not wait any more is not answered. -/
def perform (chat : Session) : Write → Session
  | .delete steps calls =>
      { chat with
        steps := chat.steps.filter fun step => !steps.contains step.seq
        toolCalls := chat.toolCalls.filter fun row => !calls.contains row.id }
  | .insert step => { chat with steps := Session.insertStep step chat.steps }
  | .answer id status result step =>
      if chat.toolCalls.any fun stored => stored.id == id && stored.status == .pending then
        { chat.completeToolCall id status result with
          steps := Session.insertStep step chat.steps }
      else chat

def holds (id : Nat) : Write → Bool
  | .answer held _ _ _ => held == id
  | _ => false

end Write

/-- What a request has written and not committed. -/
abbrev Draft := List Write

def Draft.view (draft : Draft) (chat : Session) : Session := draft.foldl Write.perform chat

inductive Phase
  /-- `run` has written the user step and reads the policy next. -/
  | admitting (turn : Nat) (draft : Draft)
  /-- `claim_trial` is next. -/
  | claiming (turn : Nat) (draft : Draft) (plan : BillingPlan)
  /-- The commit before the first call of the provider is next. -/
  | opening (turn : Nat) (draft : Draft) (plan : BillingPlan) (claimed : Bool) (round : Option Nat)
  /-- The provider is asked. -/
  | asking (turn : Nat) (plan : BillingPlan) (claimed : Bool) (round : Option Nat)
      (left calls : Nat) (serverTools : List ServerToolExecutionOut)
  /-- `reconcile_trial` is next. -/
  | reconciling (turn : Nat)
  /-- `tool_result` applies its items. -/
  | applying (turn : Nat) (resolved todo : List (ToolResultIn × ToolCall)) (draft : Draft)
  /-- The barrier was found closed; the saved step is looked up next. -/
  | closed (turn : Nat) (resolved : List (ToolResultIn × ToolCall)) (draft : Draft)
  /-- No step was saved; the policy is read next. -/
  | gating (turn round : Nat) (draft : Draft)
  /-- The last commit and the response are next. -/
  | leaving (draft : Draft)
  | done

/-- What a request in some phase has written and not committed. -/
def Phase.draft : Phase → Draft
  | .admitting _ draft | .claiming _ draft _ | .opening _ draft _ _ _ | .applying _ _ _ draft
  | .closed _ _ draft | .gating _ _ draft | .leaving draft => draft
  | .asking .. | .reconciling _ | .done => []

/-- What the claims about executions speak of. -/
inductive Event
  /-- A turn has claimed the trial. -/
  | claimed (turn : Nat)
  /-- A turn has given the trial back. -/
  | returned (turn : Nat)
  /-- A turn has ended in an assistant message. -/
  | ended (turn : Nat)
  /-- The generation continued from a round of a turn has saved its first step. -/
  | continued (chat turn round : Nat)
  deriving DecidableEq, Repr

structure Request where
  chat : Nat
  phase : Phase

/-- The chats, the trial and the wallet of a user, and the requests on their way.  One counter hands
out the identifiers of all chats. -/
structure ChatSystem where
  chats : Nat → Session
  next : Nat := 0
  trialUsed : Bool := false
  account : Wallet.Account := {}
  requests : List Request := []
  history : List Event := []

inductive RequestAction
  /-- `run` arrives. -/
  | run (chat : Nat) (request : RunRequest)
  /-- `tool_result` arrives. -/
  | results (chat : Nat) (results : List ToolResultIn)
  /-- A request goes on. -/
  | advance (id : Nat) (near : Surroundings)
  /-- A request is lost with what it has not committed. -/
  | lose (id : Nat)
  /-- A wallet call of another service. -/
  | wallet (invocation : Wallet.Call)

/-- The rows `truncate_from_message_step` deletes, which are none without an edit. -/
def RunRequest.deletions (request : RunRequest) (chat : Session) : Option (List Nat × List Nat) :=
  (request.truncated chat).map fun kept =>
    ((chat.steps.filter fun step => !kept.steps.any (·.seq == step.seq)).map (·.seq),
      (chat.toolCalls.filter fun row => !kept.toolCalls.any (·.id == row.id)).map (·.id))

/-- The round of a turn a call was handed out in: the number of assistant steps before it. -/
def Session.round (chat : Session) (turn id : Nat) : Nat :=
  (chat.assistantSteps turn).countP fun step => decide (step.seq < id)

namespace ChatSystem

def world (state : ChatSystem) (chat : Nat) : World :=
  ⟨{ state.chats chat with next := state.next }, state.trialUsed, state.account⟩

/-- Commit what a transaction of the generation loop leaves. -/
def put (state : ChatSystem) (chat : Nat) (after : World) : ChatSystem :=
  { state with
    chats := Function.update state.chats chat after.chat
    next := after.chat.next
    account := after.account }

def commit (state : ChatSystem) (chat : Nat) (draft : Draft) : ChatSystem :=
  { state with chats := Function.update state.chats chat (draft.view (state.chats chat)) }

def move (state : ChatSystem) (id chat : Nat) (phase : Phase) : ChatSystem :=
  { state with requests := state.requests.set id ⟨chat, phase⟩ }

def record (state : ChatSystem) (events : List Event) : ChatSystem :=
  { state with history := state.history ++ events }

/-- Another request holds the lock of a call. -/
def locked (state : ChatSystem) (id call : Nat) : Bool :=
  state.requests.zipIdx.any fun entry =>
    entry.2 != id && entry.1.phase.draft.any (Write.holds call)

/-- Where a generation goes which did not succeed. -/
def failed (claimed : Bool) (turn : Nat) : Phase := if claimed then .reconciling turn else .done

/-- The event of a first step which is saved. -/
def continuedFrom (chat turn : Nat) : Option Nat → List Event
  | some round => [.continued chat turn round]
  | none => []

variable (settings : Nat → Settings) (near : Surroundings)

/-- The provider has replied, and what follows is committed. -/
def reply (state : ChatSystem) (id chat turn : Nat) (plan : BillingPlan) (claimed : Bool)
    (round : Option Nat) (left calls : Nat) (serverTools : List ServerToolExecutionOut) :
    ChatSystem :=
  match createMessage (settings chat).loads (near.reply calls) with
  | .error _ => state.move id chat (failed claimed turn)
  | .ok result =>
      match absorb (settings chat) near plan turn result serverTools (state.world chat) with
      | .raised _ => state.move id chat (failed claimed turn)
      | .again after executed =>
          ((state.put chat after).record (continuedFrom chat turn round)).move id chat
            (match left with
            | 0 => failed claimed turn
            | left + 1 => .asking turn plan claimed none left (calls + 1) executed)
      | .answered after out =>
          ((state.put chat after).record
            ((if out.stepId.isSome then continuedFrom chat turn round else []) ++
              if out.status = .assistantMessage then [.ended turn] else [])).move id chat
            (if keepsClaim (.ok out) then .done else failed claimed turn)

/-- `_apply_tool_result` for one item; the `UPDATE` waits for the lock of the call. -/
def applyItem (state : ChatSystem) (id chat turn : Nat)
    (resolved todo : List (ToolResultIn × ToolCall)) (item : ToolResultIn) (row : ToolCall)
    (draft : Draft) : Option ChatSystem :=
  if row.status ≠ .pending then some (state.move id chat (.applying turn resolved todo draft))
  else if state.locked id row.id then none
  else if (draft.view (state.chats chat)).toolCalls.any
      fun stored => stored.id == row.id && stored.status == .pending then
    some ({ state with next := state.next + 1 }.move id chat (.applying turn resolved todo
      (draft ++ [Write.answer row.id (if item.error.isSome then .errored else .completed)
        (item.result.or item.error) ⟨state.next, turn,
          .tool ⟨row.id, row.providerToolUseId, row.toolName, item.result, item.error⟩, none⟩])))
  else some (state.move id chat (.applying turn resolved todo draft))

/-- The next statement or transaction of a request. -/
def advance (state : ChatSystem) (id chat : Nat) : Phase → Option ChatSystem
  | .admitting turn draft =>
      let policy := policyState near (state.world chat)
      let mode := (state.chats chat).mode
      match evaluate policy mode with
      | .blocked _ => some (state.move id chat (.leaving draft))
      | .allowed =>
          let plan := billingPlan policy mode
          some (state.move id chat
            (if plan.markTrial then .claiming turn draft plan
            else .opening turn draft plan false none))
  | .claiming turn draft plan =>
      if state.trialUsed then some ((state.commit chat draft).move id chat .done)
      else
        some (({ state.commit chat draft with trialUsed := true }.record [.claimed turn]).move id
          chat (.opening turn [] plan true none))
  | .opening turn draft plan claimed round =>
      if (state.chats chat).mode = .byok ∧ !near.keyAvailable then
        some (state.move id chat .done)
      else
        some ((state.commit chat draft).move id chat
          (.asking turn plan claimed round (settings chat).maxServerToolRounds 0 []))
  | .asking turn plan claimed round left calls serverTools =>
      some (state.reply settings near id chat turn plan claimed round left calls serverTools)
  | .reconciling turn =>
      if state.trialUsed then
        some (({ state with trialUsed := false }.record [.returned turn]).move id chat .done)
      else some (state.move id chat .done)
  | .applying turn resolved ((item, row) :: todo) draft =>
      state.applyItem id chat turn resolved todo item row draft
  | .applying turn resolved [] draft =>
      some (state.move id chat
        (if ((draft.view (state.chats chat)).pendingCalls turn).isEmpty then
          .closed turn resolved draft
        else .leaving draft))
  | .closed turn resolved draft =>
      let view := draft.view (state.chats chat)
      resolved.head?.map fun first =>
        state.move id chat
          (if (replayedStep view turn first.2.id resolved).isSome then .leaving draft
          else .gating turn (view.round turn first.2.id) draft)
  | .gating turn round draft =>
      let view := draft.view (state.chats chat)
      let policy := policyState near (state.world chat)
      some (state.move id chat
        (if (continuationGate policy view turn).isSome then .leaving draft
        else .opening turn draft (billingPlan policy view.mode)
          (isInflightTrialTurn policy view turn) (some round)))
  | .leaving draft => some ((state.commit chat draft).move id chat .done)
  | .done => none

def step (state : ChatSystem) : RequestAction → Option ChatSystem
  | .run chat request =>
      (request.deletions (state.chats chat)).map fun deleted =>
        { state with
          next := state.next + 2
          requests := state.requests ++ [⟨chat, .admitting state.next
            [.delete deleted.1 deleted.2,
              .insert ⟨state.next + 1, state.next, .user request.content, none⟩]⟩] }
  | .results chat results =>
      match resolve (state.chats chat) none results with
      | .ok ((item, row) :: later) =>
          some { state with
            requests := state.requests ++ [⟨chat, .applying row.messageStepId
              ((item, row) :: later) ((item, row) :: later) []⟩] }
      | _ => some state
  | .advance id near =>
      state.requests[id]?.bind fun request =>
        state.advance settings near id request.chat request.phase
  | .lose id => state.requests[id]?.map fun request => state.move id request.chat .done
  | .wallet invocation => some { state with account := (invocation.run state.account).2 }

end ChatSystem

end Hermes.Chat
