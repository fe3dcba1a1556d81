import Hermes.Chat.Model
import Hermes.Wallet.Service

/-!
# The chat orchestrator

`run` and `tool_result` with the generation loop between them.  What a request reads outside the
chat, the trial flag and the wallet, the provider's replies among it, is handed to it; what it sends
to the provider is recorded beside its response.
-/

namespace Hermes.Chat

open Policy (BlockReason ByokState Mode PolicyState SubscriptionStatus evaluate)

/-- One chat and what is stored about its user. -/
structure World where
  chat : Session
  trialUsed : Bool
  account : Wallet.Account

/-- `ToolExecution`. -/
structure ToolExecution where
  result : Option Json
  isError : Bool
  errorCode : Option String := none
  errorMessage : Option String := none

structure Settings where
  sessionId : Wallet.SessionId
  wallet : Wallet.Context
  maxServerToolRounds : Nat
  /-- `json.loads`. -/
  loads : String → Option Json
  /-- `validate_tool_args`: an error carries the text of the `ValueError`. -/
  validateToolArgs : Tool → Json → Except String Json

structure Surroundings where
  subscriptionStatus : SubscriptionStatus
  byokEnabled : Bool
  byokStatus : ByokState
  /-- Whether `get_plaintext_key` finds a key. -/
  keyAvailable : Bool
  /-- The provider's reply to each call of the request. -/
  reply : Nat → Reply
  /-- What a server-side tool call comes to. -/
  execute : Nat → Tool → Json → Except Failure ToolExecution
  /-- The id of a ledger row inserted by the request. -/
  newTxId : Wallet.TxId

/-- `load_policy_state`. -/
def policyState (near : Surroundings) (world : World) : PolicyState :=
  ⟨near.subscriptionStatus, world.trialUsed, world.account.balance, near.byokEnabled,
    near.byokStatus⟩

/-- `_BillingPlan`. -/
structure BillingPlan where
  debitCredits : Bool
  markTrial : Bool
  deriving DecidableEq, Repr

/-- `_billing_plan`. -/
def billingPlan (state : PolicyState) : Mode → BillingPlan
  | .byok => ⟨false, false⟩
  | .credits =>
      if state.subscriptionStatus = .active then ⟨true, false⟩
      else if state.subscriptionStatus = .none ∧ !state.trialUsed then ⟨false, true⟩
      else ⟨false, false⟩

/-- `_blocked`. -/
def blocked (reason : BlockReason) : ChatRunOut :=
  { status := .blocked, blockReason := some reason }

/-! ## One reply of the provider -/

/-- `LLMUsage.to_dict`. -/
def Usage.toDict (usage : Usage) : Json :=
  .obj [("inputTokens", .int usage.inputTokens), ("outputTokens", .int usage.outputTokens),
    ("model", .str usage.model), ("cacheReadTokens", .int usage.cacheReadTokens),
    ("cacheWriteTokens", .int usage.cacheWriteTokens)]

/-- `_debit`: one credit under the key of the turn. -/
def debit (settings : Settings) (near : Surroundings) (messageStepId : Nat) (usage : Usage)
    (account : Wallet.Account) : Wallet.Outcome × Wallet.Account :=
  Wallet.Call.run
    ⟨settings.wallet,
      .consume ⟨1, toString messageStepId,
        { usage := some usage.toDict, model := some usage.model }, some settings.sessionId,
        near.newTxId⟩,
      .commit⟩ account

inductive Absorbed
  /-- A purely server-side round is stored and the provider is asked again. -/
  | again (world : World) (serverTools : List ServerToolExecutionOut)
  | answered (world : World) (out : ChatRunOut)
  /-- An exception: nothing since the last commit is kept. -/
  | raised (failure : Failure)

/-- `_finalize_assistant`. -/
def finalizeAssistant (settings : Settings) (near : Surroundings) (plan : BillingPlan)
    (messageStepId : Nat) (result : LLMResult) (serverTools : List ServerToolExecutionOut)
    (world : World) : Absorbed :=
  let saved := world.chat.addStep messageStepId (.assistant result.contentBlocks) result.usage
  let out : ChatRunOut :=
    { status := .assistantMessage, assistantMessage := result.text, usage := result.usage,
      messageStepId, stepId := world.chat.next, serverTools }
  if plan.debitCredits then
    match debit settings near messageStepId result.usage world.account with
    | (.consumed _, account) => .answered { world with chat := saved, account } out
    | (.raised .insufficientCredits, _) => .answered world (blocked .creditsEmpty)
    | _ => .raised .wallet
  else .answered { world with chat := saved } out

/-- `_handle_max_tokens`. -/
def handleMaxTokens (messageStepId : Nat) (result : LLMResult)
    (serverTools : List ServerToolExecutionOut) (world : World) : Absorbed :=
  .answered
    { world with
      chat := world.chat.addStep messageStepId (.assistant result.contentBlocks) result.usage }
    { status := .blocked
      assistantMessage := if result.text.isEmpty then none else result.text
      blockReason := some .maxTokens
      usage := result.usage
      messageStepId
      stepId := world.chat.next
      serverTools }

/-- `_server_tool_summary`. -/
def serverToolSummary (execution : ToolExecution) : String :=
  if execution.isError then
    -- An empty code counts as no code.
    let code := execution.errorCode.getD ""
    String.ofList ((if code.isEmpty then "errored" else code).toList.take 120)
  else "ok"

/-- The error envelope of `to_tool_result_payload`. -/
def ToolExecution.error (execution : ToolExecution) : Option Json :=
  if execution.isError then
    some (.obj [("code", (execution.errorCode.map .str).getD .null),
      ("message", (execution.errorMessage.map .str).getD .null)])
  else none

/-- `to_tool_result_payload`. -/
def ToolExecution.toToolResultPayload (execution : ToolExecution) : Json :=
  match execution.error with
  | some error => .obj [("error", error)]
  | none => .obj [("result", execution.result.getD .null)]

/-- The status of a call which has been executed. -/
def ToolExecution.status (execution : ToolExecution) : ToolCallStatus :=
  if execution.isError then .errored else .completed

/-- `_execute_server_side_tool` and `_execute_global_server_side_tool`, once the tool has run: the
call is completed at once and its result stored as a tool step. -/
def finishServerSide (messageStepId id : Nat) (use : ToolUse) (execution : ToolExecution)
    (chat : Session) : Session :=
  (chat.completeToolCall id execution.status (some execution.toToolResultPayload)).addStep
    messageStepId
    (.tool ⟨id, use.id, use.name, if execution.isError then none else execution.result,
      execution.error⟩)

/-- The loop of `_handle_tool_use` over the tool uses of a reply. -/
def handleToolUses (settings : Settings) (near : Surroundings) (messageStepId : Nat) :
    List ToolUse → Session → List ToolCallOut → List ServerToolExecutionOut →
      Except Failure (Session × List ToolCallOut × List ServerToolExecutionOut)
  | [], chat, clientOuts, serverTools => .ok (chat, clientOuts, serverTools)
  | use :: later, chat, clientOuts, serverTools =>
      if use.name.serverSide && !chat.hasProject then
        .error (.upstream "server-side site.* tool requested for a project-less session")
      else
        match settings.validateToolArgs use.name use.input with
        | .error message => .error (.validationFailed message)
        | .ok args =>
            let id := chat.next
            let created := chat.createToolCall messageStepId use.name use.id args
            if use.name.clientSide then
              handleToolUses settings near messageStepId later created
                (clientOuts ++ [⟨id, use.name, args⟩]) serverTools
            else
              match near.execute id use.name args with
              | .error failure => .error failure
              | .ok execution =>
                  handleToolUses settings near messageStepId later
                    (finishServerSide messageStepId id use execution created) clientOuts
                    (serverTools ++
                      [⟨id, use.name, execution.status, serverToolSummary execution⟩])

/-- `_handle_tool_use`. -/
def handleToolUse (settings : Settings) (near : Surroundings) (messageStepId : Nat)
    (result : LLMResult) (serverTools : List ServerToolExecutionOut) (world : World) : Absorbed :=
  let saved := world.chat.addStep messageStepId (.assistant result.contentBlocks) result.usage
  match handleToolUses settings near messageStepId result.toolUses saved [] serverTools with
  | .error failure => .raised failure
  | .ok (chat, [], serverTools) => .again { world with chat } serverTools
  | .ok (chat, clientOuts, serverTools) =>
      .answered { world with chat }
        { status := .toolCall
          assistantMessage := if result.text.isEmpty then none else result.text
          toolCalls := clientOuts
          usage := result.usage
          messageStepId
          stepId := world.chat.next
          serverTools }

/-- The dispatch of `_generate_loop` on the stop reason, up to the next commit. -/
def absorb (settings : Settings) (near : Surroundings) (plan : BillingPlan) (messageStepId : Nat)
    (result : LLMResult) (serverTools : List ServerToolExecutionOut) (world : World) : Absorbed :=
  if result.stopReason = .maxTokens then
    handleMaxTokens messageStepId result serverTools world
  else if result.stopReason = .toolUse ∧ !result.toolUses.isEmpty then
    handleToolUse settings near messageStepId result serverTools world
  else finalizeAssistant settings near plan messageStepId result serverTools world

/-! ## The generation loop -/

/-- What came of a request: the state it leaves, its response, and the messages it sent. -/
structure Attempt where
  world : World
  response : Except Failure ChatRunOut
  sent : List (List NeutralMessage)

/-- `_generate_loop`, with the iterations left and the calls made so far. -/
def generateLoop (settings : Settings) (near : Surroundings) (plan : BillingPlan)
    (messageStepId : Nat) :
    Nat → Nat → World → List ServerToolExecutionOut → Attempt
  | 0, _, world, _ =>
      ⟨world, .error (.upstream "server-side tool loop exceeded maximum rounds"), []⟩
  | left + 1, calls, world, serverTools =>
      let messages := world.chat.buildMessages
      match createMessage settings.loads (near.reply calls) with
      | .error failure =>
          if failure = .unauthorized ∧ world.chat.mode = .byok then
            ⟨world, .ok (blocked .byokInvalid), [messages]⟩
          else ⟨world, .error failure, [messages]⟩
      | .ok result =>
          match absorb settings near plan messageStepId result serverTools world with
          | .again after executed =>
              let rest :=
                generateLoop settings near plan messageStepId left (calls + 1) after executed
              { rest with sent := messages :: rest.sent }
          | .answered after out => ⟨after, .ok out, [messages]⟩
          | .raised failure => ⟨world, .error failure, [messages]⟩

/-- The outcomes which keep a claimed trial: the message is there, or the turn is still going on. -/
def keepsClaim : Except Failure ChatRunOut → Bool
  | .ok out => out.status == .assistantMessage || out.status == .toolCall
  | .error _ => false

/-- `reconcile_trial` for a turn which claimed the trial and did not succeed. -/
def Attempt.reconcile (claimedTrial : Bool) (attempt : Attempt) : Attempt :=
  if claimedTrial && !keepsClaim attempt.response then
    { attempt with world := { attempt.world with trialUsed := false } }
  else attempt

/-- `_resolve_api_key` and `_generate_with_trial_reconcile`.  `before` is the state last committed
when the key is looked up. -/
def generate (settings : Settings) (near : Surroundings) (claimedTrial : Bool) (plan : BillingPlan)
    (messageStepId : Nat) (before world : World) : Attempt :=
  if world.chat.mode = .byok ∧ !near.keyAvailable then
    ⟨before, .error (.validationFailed "byok key unavailable"), []⟩
  else
    (generateLoop settings near plan messageStepId (settings.maxServerToolRounds + 1) 0 world
      []).reconcile claimedTrial

/-! ## Entry points -/

/-- The arguments of `run` which reach the history. -/
structure RunRequest where
  content : List Block
  editMessageStepId : Option Nat := none

/-- The history a run goes on from: the edited turn and all after it are gone. -/
def RunRequest.truncated (request : RunRequest) (chat : Session) : Option Session :=
  match request.editMessageStepId with
  | none => some chat
  | some anchor => chat.truncateFromMessageStep anchor

def RunRequest.begin (request : RunRequest) (chat : Session) : Session :=
  { chat with next := chat.next + 1 }.addStep chat.next (.user request.content)

/-- `claim_trial`: no world stands for a trial taken already. -/
def claimTrial (world : World) : Option World :=
  if world.trialUsed then none else some { world with trialUsed := true }

/-- `run` on a resumed chat, or on the empty chat it has created. -/
def run (settings : Settings) (near : Surroundings) (world : World) (request : RunRequest) :
    Attempt :=
  match request.truncated world.chat with
  | none => ⟨world, .error .messageNotFound, []⟩
  | some chat =>
      let begun := { world with chat := request.begin chat }
      let state := policyState near begun
      match evaluate state chat.mode with
      | .blocked reason => ⟨begun, .ok (blocked reason), []⟩
      | .allowed =>
          let plan := billingPlan state chat.mode
          if plan.markTrial then
            match claimTrial begun with
            | none => ⟨begun, .ok (blocked .trialUsed), []⟩
            | some claimed => generate settings near true plan chat.next claimed claimed
          else generate settings near false plan chat.next world begun

/-- `ToolResultIn`. -/
structure ToolResultIn where
  toolCallId : Nat
  result : Option Json
  error : Option Json

/-- The first loop of `tool_result`: every item names a call of the chat, all of one turn. -/
def resolve (chat : Session) (turn : Option Nat) :
    List ToolResultIn → Except Failure (List (ToolResultIn × ToolCall))
  | [] => .ok []
  | item :: later =>
      match chat.getToolCall item.toolCallId with
      | none => .error (.notFound "tool call not found for session")
      | some row =>
          if turn.all (· == row.messageStepId) then do
            let resolved ← resolve chat (some row.messageStepId) later
            .ok ((item, row) :: resolved)
          else .error (.validationFailed "all results must belong to the same turn")

/-- `_apply_tool_result`. -/
def applyToolResult (messageStepId : Nat) (item : ToolResultIn) (row : ToolCall) (chat : Session) :
    Session :=
  if chat.toolCalls.any fun stored => stored.id == row.id && stored.status == .pending then
    (chat.completeToolCall row.id (if item.error.isSome then .errored else .completed)
        (item.result.or item.error)).addStep messageStepId
      (.tool ⟨row.id, row.providerToolUseId, row.toolName, item.result, item.error⟩)
  else chat

/-- The second loop of `tool_result`: items whose call is done already are skipped. -/
def applyToolResults (messageStepId : Nat) :
    List (ToolResultIn × ToolCall) → Session → Session
  | [], chat => chat
  | (item, row) :: later, chat =>
      applyToolResults messageStepId later
        (if row.status = .pending then applyToolResult messageStepId item row chat else chat)

/-- `_all_already_done_before`, on the rows as the barrier query has refreshed them. -/
def allAlreadyDoneBefore (chat : Session) (resolved : List (ToolResultIn × ToolCall)) : Bool :=
  resolved.all fun entry =>
    (chat.getToolCall entry.2.id).all fun stored => stored.status != .pending

/-- The text `_render_saved_step` finds: the one of the typed text blocks. -/
def renderedText (content : List Block) : String :=
  String.join <| content.map fun block =>
    match block with
    | .typed block => block.textPart
    | .message _ _ => ""

/-- `_render_saved_step`. -/
def renderSavedStep (messageStepId : Nat) (saved : Step) : ChatRunOut where
  status := .assistantMessage
  assistantMessage := renderedText saved.content
  usage := saved.usage
  messageStepId := some messageStepId
  stepId := some saved.seq

/-- The response while calls of the turn wait for a result. -/
def awaitingResults (chat : Session) (messageStepId : Nat) : ChatRunOut where
  status := .toolCall
  toolCalls := (chat.pendingCalls messageStepId).map (·.out)
  messageStepId := some messageStepId
  stepId := chat.assistantToolStepId messageStepId

/-- `is_inflight_trial_turn`. -/
def isInflightTrialTurn (state : PolicyState) (chat : Session) (messageStepId : Nat) : Bool :=
  chat.mode == .credits && state.subscriptionStatus == .none && state.trialUsed &&
    (chat.assistantToolStepId messageStepId).isSome

/-- The policy gate of a continuation: the reason it is blocked for, if it is. -/
def continuationGate (state : PolicyState) (chat : Session) (messageStepId : Nat) :
    Option BlockReason :=
  match evaluate state chat.mode with
  | .allowed => none
  | .blocked reason =>
      if reason = .trialUsed ∧ isInflightTrialTurn state chat messageStepId then none
      else some reason

/-- The continuation of `tool_result` behind the closed barrier. -/
def continueTurn (settings : Settings) (near : Surroundings) (messageStepId : Nat)
    (before applied : World) : Attempt :=
  let state := policyState near applied
  match continuationGate state applied.chat messageStepId with
  | some reason => ⟨applied, .ok (blocked reason), []⟩
  | none =>
      generate settings near (isInflightTrialTurn state applied.chat messageStepId)
        (billingPlan state applied.chat.mode) messageStepId before applied

/-- The step a closed barrier is answered from without asking the provider. -/
def replayedStep (chat : Session) (messageStepId anchor : Nat)
    (resolved : List (ToolResultIn × ToolCall)) : Option Step :=
  (chat.nextStepAfter messageStepId anchor).filter fun _ => allAlreadyDoneBefore chat resolved

/-- `tool_result`. -/
def toolResult (settings : Settings) (near : Surroundings) (world : World)
    (results : List ToolResultIn) : Attempt :=
  match resolve world.chat none results with
  | .error failure => ⟨world, .error failure, []⟩
  | .ok [] => ⟨world, .error (.validationFailed "results must be non-empty"), []⟩
  | .ok ((item, row) :: later) =>
      let turn := row.messageStepId
      let applied := { world with chat := applyToolResults turn ((item, row) :: later) world.chat }
      if (applied.chat.pendingCalls turn).isEmpty then
        match replayedStep applied.chat turn row.id ((item, row) :: later) with
        | some saved => ⟨applied, .ok (renderSavedStep turn saved), []⟩
        | none => continueTurn settings near turn world applied
      else ⟨applied, .ok (awaitingResults applied.chat turn), []⟩

/-! ## Sequences of requests -/

/-- What can happen to a chat: its requests one after the other, with whatever the user's other
chats do to the trial and the wallet in between. -/
inductive Operation
  | run (near : Surroundings) (request : RunRequest)
  | toolResult (near : Surroundings) (results : List ToolResultIn)
  | elsewhere (trialUsed : Bool) (account : Wallet.Account)

def attempt (settings : Settings) (world : World) : Operation → Attempt
  | .run near request => run settings near world request
  | .toolResult near results => toolResult settings near world results
  | .elsewhere trialUsed account =>
      ⟨{ world with trialUsed, account }, .error .other, []⟩

def perform (settings : Settings) (world : World) (operation : Operation) : Option World :=
  some (attempt settings world operation).world

/-! ## A concrete chat -/

namespace Sample

def usage : Usage := ⟨12, 7, "claude", 0, 0⟩

/-- A project-less chat under a valid key of the user, whose tools accept every argument. -/
def settings : Settings where
  sessionId := ⟨1⟩
  wallet := ⟨⟨1⟩, fun _ => some ⟨1⟩, false⟩
  maxServerToolRounds := 16
  loads := fun _ => none
  validateToolArgs := fun _ args => .ok args

/-- A request whose calls are all answered by one reply. -/
def near (reply : Reply) : Surroundings where
  subscriptionStatus := .active
  byokEnabled := true
  byokStatus := .valid
  keyAvailable := true
  reply := fun _ => reply
  execute := fun _ _ _ => .ok ⟨some (.obj []), false, none, none⟩
  newTxId := ⟨1⟩

def start : World := ⟨{ mode := .byok, hasProject := false }, false, {}⟩

def message (text : String) : RunRequest := ⟨[.typed (.text text)], none⟩

def finalText : Reply := .anthropic (some "end_turn") [.text "done"] usage

end Sample

end Hermes.Chat
