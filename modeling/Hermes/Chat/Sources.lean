import Hermes.Chat.Growth

/-!
# Where tool calls come from

Every `tool_calls` row was created for a block of an assistant step of its turn, and keeps the id
and the name which that block has.  Every call that a response names is such a row.
-/

namespace Hermes.Chat

/-- The block calls a tool under an id of the provider. -/
def Block.Asks (id : String) (tool : Tool) : Block → Prop
  | .typed (.toolUse used name _) => used = id ∧ Tool.toDomain name = some tool
  | .typed _ => False
  | .message _ toolCalls => ∃ call ∈ toolCalls, call.id = id ∧ Tool.toDomain call.name = some tool

def Block.Known : Block → Prop
  | .typed (.toolUse _ name _) => ∃ tool, Tool.toDomain name = some tool
  | _ => True

/-- A request whose content is made of text blocks, as `run` composes it. -/
def Operation.Plain : Operation → Prop
  | .run _ request => ∀ block ∈ request.content, ∃ said, block = .typed (.text said)
  | _ => True

namespace Session

/-- A call of a tool is found in an assistant step of a turn. -/
def Calls (chat : Session) (turn : Nat) (id : String) (tool : Tool) : Prop :=
  ∃ step ∈ chat.steps, step.messageStepId = turn ∧ ∃ content, step.payload = .assistant content ∧
    ∃ block ∈ content, block.Asks id tool

/-- Typed tool uses name tools, and every row has its call. -/
structure Sourced (chat : Session) : Prop where
  known : ∀ step ∈ chat.steps, ∀ block ∈ step.content, block.Known
  called : ∀ row ∈ chat.toolCalls, chat.Calls row.messageStepId row.providerToolUseId row.toolName

variable {chat : Session}

theorem Calls.addStep {turn : Nat} {id : String} {tool : Tool} (calls : chat.Calls turn id tool)
    (own : Nat) (payload : Payload) (usage : Option Usage) :
    (chat.addStep own payload usage).Calls turn id tool := by
  obtain ⟨step, member, found⟩ := calls
  exact ⟨step, mem_insertStep.mpr (.inr member), found⟩

namespace Sourced

theorem addStep (sourced : chat.Sourced) (turn : Nat) (payload : Payload) (usage : Option Usage)
    (known : ∀ block ∈ Step.content ⟨chat.next, turn, payload, usage⟩, block.Known) :
    (chat.addStep turn payload usage).Sourced where
  known := by
    intro step member
    obtain rfl | earlier := mem_insertStep.mp member
    · exact known
    · exact sourced.known step earlier
  called := by
    intro row member
    exact (sourced.called row member).addStep turn payload usage

theorem createToolCall (sourced : chat.Sourced) {turn : Nat} {tool : Tool} {providerId : String}
    (calls : chat.Calls turn providerId tool) (args : Json) :
    (chat.createToolCall turn tool providerId args).Sourced where
  known := sourced.known
  called := by
    intro row member
    obtain earlier | last := List.mem_append.mp member
    · exact sourced.called row earlier
    · obtain rfl := List.mem_singleton.mp last
      exact calls

theorem completeToolCall (sourced : chat.Sourced) (id : Nat) (status : ToolCallStatus)
    (result : Option Json) : (chat.completeToolCall id status result).Sourced where
  known := sourced.known
  called := by
    intro row member
    obtain ⟨stored, earlier, rfl⟩ := List.mem_map.mp member
    have found := sourced.called stored earlier
    rw [markToolCall]
    split <;> exact found

/-- A truncation which spares a row spares its call. -/
theorem truncate (sourced : chat.Sourced) {anchor : Nat} {after : Session}
    (truncated : chat.truncateFromMessageStep anchor = some after) : after.Sourced := by
  unfold truncateFromMessageStep at truncated
  split at truncated
  · cases truncated
  next first found =>
    cases truncated
    constructor
    · intro step member
      exact sourced.known step (List.mem_of_mem_filter member)
    · intro row member
      obtain ⟨stored, spared⟩ := List.mem_filter.mp member
      obtain ⟨step, present, turn, content⟩ := sourced.called row stored
      refine ⟨step, List.mem_filter.mpr ⟨present, ?_⟩, turn, content⟩
      simp only [Bool.not_eq_true', List.any_eq_false, beq_iff_eq, List.mem_filter,
        decide_eq_true_eq] at spared
      rw [decide_eq_true_eq, ← Nat.not_le]
      intro dropped
      exact spared step ⟨present, dropped⟩ turn

end Sourced

end Session

/-! ## Replies -/

/-- The tool uses of typed blocks are calls of these blocks. -/
theorem anthropicToolUses_asks {content : List TypedBlock} {uses : List ToolUse}
    (parsed : anthropicToolUses content = .ok uses) :
    (∀ block ∈ content, (Block.typed block).Known) ∧
      ∀ use ∈ uses, ∃ block ∈ content, (Block.typed block).Asks use.id use.name := by
  induction content generalizing uses with
  | nil =>
      cases parsed
      exact ⟨List.forall_mem_nil _, List.forall_mem_nil _⟩
  | cons block later induction =>
      have passed {first : TypedBlock} (known : (Block.typed first).Known)
          (rest : (∀ block ∈ later, (Block.typed block).Known) ∧
            ∀ use ∈ uses, ∃ block ∈ later, (Block.typed block).Asks use.id use.name) :
          (∀ block ∈ first :: later, (Block.typed block).Known) ∧
            ∀ use ∈ uses, ∃ block ∈ first :: later, (Block.typed block).Asks use.id use.name := by
        refine ⟨List.forall_mem_cons.mpr ⟨known, rest.1⟩, ?_⟩
        intro use member
        obtain ⟨block, present, asks⟩ := rest.2 use member
        exact ⟨block, List.mem_cons_of_mem _ present, asks⟩
      cases block with
      | text said => exact passed trivial (induction parsed)
      | other type => exact passed trivial (induction parsed)
      | toolUse id name input =>
          simp only [anthropicToolUses] at parsed
          split at parsed
          · cases parsed
          next tool known =>
            obtain ⟨rest, rest_parsed, same⟩ := except_bind_eq_ok parsed
            cases same
            obtain ⟨later_known, later_asks⟩ := induction rest_parsed
            refine ⟨List.forall_mem_cons.mpr ⟨⟨tool, known⟩, later_known⟩, ?_⟩
            intro use member
            obtain rfl | member := List.mem_cons.mp member
            · exact ⟨_, List.mem_cons_self .., rfl, known⟩
            · obtain ⟨block, present, asks⟩ := later_asks use member
              exact ⟨block, List.mem_cons_of_mem _ present, asks⟩

/-- The tool uses of an OpenAI message are its function calls. -/
theorem openaiToolUses_asks {loads : String → Option Json} {toolCalls : List FunctionCall}
    {uses : List ToolUse} (parsed : openaiToolUses loads toolCalls = .ok uses) :
    ∀ use ∈ uses, ∃ call ∈ toolCalls, call.id = use.id ∧
      Tool.toDomain call.name = some use.name := by
  induction toolCalls generalizing uses with
  | nil =>
      cases parsed
      exact List.forall_mem_nil _
  | cons call later induction =>
      simp only [openaiToolUses] at parsed
      split at parsed
      · cases parsed
      next tool known =>
        split at parsed
        · cases parsed
        · obtain ⟨rest, rest_parsed, same⟩ := except_bind_eq_ok parsed
          cases same
          intro use member
          obtain rfl | member := List.mem_cons.mp member
          · exact ⟨call, List.mem_cons_self .., rfl, known⟩
          · obtain ⟨found, present, asks⟩ := induction rest_parsed use member
            exact ⟨found, List.mem_cons_of_mem _ present, asks⟩
        · cases parsed

/-- The clients keep a block for every tool use. -/
theorem createMessage_asks {loads : String → Option Json} {reply : Reply} {result : LLMResult}
    (created : createMessage loads reply = .ok result) :
    (∀ block ∈ result.contentBlocks, block.Known) ∧
      ∀ use ∈ result.toolUses, ∃ block ∈ result.contentBlocks, block.Asks use.id use.name := by
  cases reply with
  | anthropic stopReason content usage =>
      obtain ⟨uses, parsed, same⟩ := except_bind_eq_ok created
      cases same
      obtain ⟨known, asks⟩ := anthropicToolUses_asks parsed
      refine ⟨List.forall_mem_map.mpr known, ?_⟩
      intro use member
      obtain ⟨block, present, found⟩ := asks use member
      exact ⟨.typed block, List.mem_map_of_mem present, found⟩
  | openai finishReason content toolCalls usage =>
      obtain ⟨uses, parsed, same⟩ := except_bind_eq_ok created
      cases same
      refine ⟨List.forall_mem_singleton.mpr trivial, ?_⟩
      intro use member
      exact ⟨_, List.mem_singleton.mpr rfl, openaiToolUses_asks parsed use member⟩
  | unauthorized => cases created
  | unavailable message => cases created
  | interrupted => cases created

/-! ## What a response names -/

namespace Session

/-- There is a row with the id, for the tool. -/
def HasRow (chat : Session) (id : Nat) (tool : Tool) : Prop :=
  ∃ row ∈ chat.toolCalls, row.id = id ∧ row.toolName = tool

/-- The calls handed out and those executed have rows. -/
structure Lists (chat : Session) (outs : List ToolCallOut)
    (executed : List ServerToolExecutionOut) : Prop where
  client : ∀ out ∈ outs, chat.HasRow out.id out.name
  server : ∀ out ∈ executed, chat.HasRow out.toolCallId out.toolName

variable {chat : Session}

theorem HasRow.createToolCall {id : Nat} {tool : Tool} (has : chat.HasRow id tool) (turn : Nat)
    (used : Tool) (providerId : String) (args : Json) :
    (chat.createToolCall turn used providerId args).HasRow id tool := by
  obtain ⟨row, member, same⟩ := has
  exact ⟨row, List.mem_append_left _ member, same⟩

theorem HasRow.completeToolCall {id : Nat} {tool : Tool} (has : chat.HasRow id tool) (done : Nat)
    (status : ToolCallStatus) (result : Option Json) :
    (chat.completeToolCall done status result).HasRow id tool := by
  obtain ⟨row, member, same⟩ := has
  refine ⟨_, List.mem_map_of_mem member, ?_⟩
  rw [markToolCall]
  split <;> exact same

theorem hasRow_created (chat : Session) (turn : Nat) (tool : Tool) (providerId : String)
    (args : Json) : (chat.createToolCall turn tool providerId args).HasRow chat.next tool :=
  ⟨_, List.mem_append_right _ (List.mem_singleton.mpr rfl), rfl, rfl⟩

theorem Lists.mono {after : Session} {outs : List ToolCallOut}
    {executed : List ServerToolExecutionOut} (lists : chat.Lists outs executed)
    (kept : ∀ id tool, chat.HasRow id tool → after.HasRow id tool) : after.Lists outs executed where
  client out member := kept _ _ (lists.client out member)
  server out member := kept _ _ (lists.server out member)

theorem Lists.handOut {outs : List ToolCallOut} {executed : List ServerToolExecutionOut}
    {out : ToolCallOut} (lists : chat.Lists outs executed) (has : chat.HasRow out.id out.name) :
    chat.Lists (outs ++ [out]) executed where
  client := by
    intro handed member
    obtain earlier | last := List.mem_append.mp member
    · exact lists.client handed earlier
    · rw [List.mem_singleton.mp last]
      exact has
  server := lists.server

theorem Lists.execute {outs : List ToolCallOut} {executed : List ServerToolExecutionOut}
    {out : ServerToolExecutionOut} (lists : chat.Lists outs executed)
    (has : chat.HasRow out.toolCallId out.toolName) : chat.Lists outs (executed ++ [out]) where
  client := lists.client
  server := by
    intro run member
    obtain earlier | last := List.mem_append.mp member
    · exact lists.server run earlier
    · rw [List.mem_singleton.mp last]
      exact has

theorem Lists.nil (chat : Session) : chat.Lists [] [] :=
  ⟨List.forall_mem_nil _, List.forall_mem_nil _⟩

end Session

section Replies

variable {settings : Settings} (near : Surroundings) (plan : BillingPlan) (turn : Nat)

/-- The tool uses of a reply get rows, which the response names. -/
theorem handleToolUses_sourced {near : Surroundings} {turn : Nat} {uses : List ToolUse}
    {chat after : Session}
    {clientOuts outs : List ToolCallOut} {serverTools executed : List ServerToolExecutionOut}
    (handled : handleToolUses settings near turn uses chat clientOuts serverTools =
      .ok (after, outs, executed))
    (sourced : chat.Sourced) (calls : ∀ use ∈ uses, chat.Calls turn use.id use.name)
    (lists : chat.Lists clientOuts serverTools) : after.Sourced ∧ after.Lists outs executed := by
  induction uses generalizing chat clientOuts serverTools with
  | nil =>
      cases handled
      exact ⟨sourced, lists⟩
  | cons use later induction =>
      simp only [handleToolUses] at handled
      split at handled
      · cases handled
      split at handled
      · cases handled
      next args validated =>
        obtain ⟨called, rest⟩ := List.forall_mem_cons.mp calls
        have created := sourced.createToolCall called args
        have kept := lists.mono fun _ _ has =>
          Session.HasRow.createToolCall has turn use.name use.id args
        have own := Session.hasRow_created chat turn use.name use.id args
        split at handled
        · exact induction handled created rest (kept.handOut own)
        · split at handled
          · cases handled
          next execution ran =>
            have done (id : Nat) (tool : Tool) (has : Session.HasRow
                (chat.createToolCall turn use.name use.id args) id tool) :
                Session.HasRow (finishServerSide turn chat.next use execution
                  (chat.createToolCall turn use.name use.id args)) id tool :=
              Session.HasRow.completeToolCall has chat.next execution.status
                (some execution.toToolResultPayload)
            refine induction handled ?_ ?_ ((kept.mono done).execute (done _ _ own))
            · exact (created.completeToolCall ..).addStep _ _ _
                fun _ listed => absurd listed List.not_mem_nil
            · intro other member
              obtain ⟨step, present, found⟩ := rest other member
              exact ⟨step, Session.mem_insertStep.mpr (.inr present), found⟩

/-- The rows and the calls after a reply is taken in. -/
def Absorbed.Sourced : Absorbed → Prop
  | .again world serverTools => world.chat.Sourced ∧ world.chat.Lists [] serverTools
  | .answered world out => world.chat.Sourced ∧ world.chat.Lists out.toolCalls out.serverTools
  | .raised _ => True

theorem absorb_sourced {reply : Reply} {result : LLMResult}
    {serverTools : List ServerToolExecutionOut} {world : World}
    (created : createMessage settings.loads reply = .ok result) (sourced : world.chat.Sourced)
    (lists : world.chat.Lists [] serverTools) :
    (absorb settings near plan turn result serverTools world).Sourced := by
  obtain ⟨known, asks⟩ := createMessage_asks created
  have saved : (world.chat.addStep turn (.assistant result.contentBlocks) result.usage).Sourced :=
    sourced.addStep _ _ _ known
  have listed : (world.chat.addStep turn (.assistant result.contentBlocks) result.usage).Lists []
      serverTools := lists.mono fun _ _ has => has
  rw [absorb]
  split
  · exact ⟨saved, listed⟩
  split
  · rw [handleToolUse]
    have calls : ∀ use ∈ result.toolUses,
        (world.chat.addStep turn (.assistant result.contentBlocks) result.usage).Calls turn use.id
          use.name := by
      intro use member
      exact ⟨_, Session.mem_insertStep.mpr (.inl rfl), rfl, _, rfl, asks use member⟩
    split
    · trivial
    next chat executed handled => exact handleToolUses_sourced handled saved calls listed
    next chat outs executed handed handled =>
      exact handleToolUses_sourced handled saved calls listed
  · rw [finalizeAssistant]
    split
    · split
      · exact ⟨saved, listed⟩
      · exact ⟨sourced, .nil _⟩
      · trivial
    · exact ⟨saved, listed⟩

/-- What an attempt leaves: rows with their calls, and a response which names rows. -/
structure Attempt.Sourced (attempt : Attempt) : Prop where
  chat : attempt.world.chat.Sourced
  lists : ∀ out, attempt.response = .ok out →
    attempt.world.chat.Lists out.toolCalls out.serverTools

theorem Attempt.sourced_of_error {world : World} (sourced : world.chat.Sourced) (failure : Failure)
    (sent : List (List NeutralMessage)) : Attempt.Sourced ⟨world, .error failure, sent⟩ where
  chat := sourced
  lists := by rintro out ⟨⟩

theorem Attempt.sourced_of_blocked {world : World} (sourced : world.chat.Sourced)
    (reason : Policy.BlockReason) (sent : List (List NeutralMessage)) :
    Attempt.Sourced ⟨world, .ok (blocked reason), sent⟩ where
  chat := sourced
  lists := by
    rintro out ⟨⟩
    exact .nil _

theorem generateLoop_sourced (settings : Settings) (left calls : Nat) (world : World)
    (serverTools : List ServerToolExecutionOut) (sourced : world.chat.Sourced)
    (lists : world.chat.Lists [] serverTools) :
    (generateLoop settings near plan turn left calls world serverTools).Sourced := by
  induction left generalizing calls world serverTools with
  | zero => exact Attempt.sourced_of_error sourced _ _
  | succ left induction =>
      simp only [generateLoop]
      split
      next failure replied =>
        split
        · exact Attempt.sourced_of_blocked sourced _ _
        · exact Attempt.sourced_of_error sourced _ _
      next result replied =>
        have absorbed := absorb_sourced near plan turn replied sourced lists
        split
        next after executed continues =>
          rw [continues] at absorbed
          have rest := induction (calls + 1) after executed absorbed.1 absorbed.2
          exact ⟨rest.chat, rest.lists⟩
        next after out answered =>
          rw [answered] at absorbed
          refine ⟨absorbed.1, ?_⟩
          rintro same ⟨⟩
          exact absorbed.2
        · exact Attempt.sourced_of_error sourced _ _

theorem generate_sourced {claimed : Bool} {before world : World} (earlier : before.chat.Sourced)
    (sourced : world.chat.Sourced) :
    (generate settings near claimed plan turn before world).Sourced := by
  rw [generate]
  split
  · exact Attempt.sourced_of_error earlier _ _
  · have loop := generateLoop_sourced near plan turn settings (settings.maxServerToolRounds + 1) 0
      world [] sourced (.nil _)
    rw [Attempt.reconcile]
    split
    · exact ⟨loop.chat, loop.lists⟩
    · exact loop

end Replies

/-! ## Requests -/

section Requests

variable {settings : Settings} {near : Surroundings} {world : World}

theorem RunRequest.truncated_sourced {request : RunRequest} {before chat : Session}
    (sourced : before.Sourced) (truncated : request.truncated before = some chat) :
    chat.Sourced := by
  rw [RunRequest.truncated] at truncated
  split at truncated
  · cases truncated
    exact sourced
  · exact sourced.truncate truncated

theorem RunRequest.begin_sourced {request : RunRequest} {chat : Session} (sourced : chat.Sourced)
    (plain : (Operation.run near request).Plain) : (request.begin chat).Sourced := by
  have skipped : Session.Sourced { chat with next := chat.next + 1 } :=
    ⟨sourced.known, sourced.called⟩
  apply skipped.addStep
  intro block member
  obtain ⟨said, rfl⟩ := plain block member
  trivial

theorem run_sourced {request : RunRequest} (sourced : world.chat.Sourced)
    (plain : (Operation.run near request).Plain) :
    (run settings near world request).Sourced := by
  rw [run]
  split
  · exact Attempt.sourced_of_error sourced _ _
  next chat truncated =>
    have begun : (request.begin chat).Sourced :=
      RunRequest.begin_sourced (RunRequest.truncated_sourced sourced truncated) plain
    simp only
    split
    · exact Attempt.sourced_of_blocked begun _ _
    split
    · split
      · exact Attempt.sourced_of_blocked begun _ _
      next claimed claims =>
        have same : claimed.chat = request.begin chat := claimTrial_chat claims
        have claimed_sourced : claimed.chat.Sourced := by
          rw [same]
          exact begun
        exact generate_sourced near _ _ claimed_sourced claimed_sourced
    · exact generate_sourced near _ _ sourced begun

theorem applyToolResults_sourced {turn : Nat} {resolved : List (ToolResultIn × ToolCall)}
    {chat : Session} (sourced : chat.Sourced) :
    (applyToolResults turn resolved chat).Sourced := by
  induction resolved generalizing chat with
  | nil => exact sourced
  | cons entry later induction =>
      rw [applyToolResults]
      apply induction
      split
      · rw [applyToolResult]
        split
        · exact (sourced.completeToolCall ..).addStep _ _ _
            fun _ listed => absurd listed List.not_mem_nil
        · exact sourced
      · exact sourced

theorem toolResult_sourced (sourced : world.chat.Sourced) (results : List ToolResultIn) :
    (toolResult settings near world results).Sourced := by
  obtain ⟨failure, rejected⟩ | ⟨item, row, later, -, stage⟩ :=
    toolResult_cases settings near world results
  · rw [rejected]
    exact Attempt.sourced_of_error sourced _ _
  have applied : (world.applied row.messageStepId ((item, row) :: later)).chat.Sourced :=
    applyToolResults_sourced sourced
  obtain ⟨-, waits⟩ | ⟨-, ⟨saved, -, replays⟩ | ⟨-, continues⟩⟩ := stage
  · rw [waits]
    refine ⟨applied, ?_⟩
    rintro out ⟨⟩
    constructor
    · intro call member
      obtain ⟨pending, present, rfl⟩ := List.mem_map.mp member
      exact ⟨pending, List.mem_of_mem_filter (List.mem_of_mem_filter present), rfl, rfl⟩
    · exact List.forall_mem_nil _
  · rw [replays]
    refine ⟨applied, ?_⟩
    rintro out ⟨⟩
    exact .nil _
  · rw [continues, continueTurn]
    split
    · exact Attempt.sourced_of_blocked applied _ _
    · exact generate_sourced near _ _ sourced applied

/-- Whatever happens to a chat leaves its rows with their calls, and every response names rows. -/
theorem attempt_sourced {operation : Operation} (sourced : world.chat.Sourced)
    (plain : operation.Plain) : (attempt settings world operation).Sourced := by
  cases operation with
  | run near request => exact run_sourced sourced plain
  | toolResult near results => exact toolResult_sourced sourced results
  | elsewhere trialUsed account =>
      refine ⟨sourced, ?_⟩
      rintro out ⟨⟩

theorem sourced_of_reachable {mode : Policy.Mode} {hasProject trialUsed : Bool}
    {account : Wallet.Account}
    (reached : Reachable (perform settings) (fun _ operation => operation.Plain)
      ⟨{ mode, hasProject }, trialUsed, account⟩ world) : world.chat.Sourced := by
  apply reached.invariant (fun world => world.chat.Sourced)
  · exact ⟨List.forall_mem_nil _, List.forall_mem_nil _⟩
  · intro before operation after sourced plain performed
    cases performed
    exact (attempt_sourced sourced plain).chat

end Requests

end Hermes.Chat
