import Hermes.Chat.Appending
import Hermes.Chat.Attachments
import Hermes.Chat.Conversation
import Hermes.Chat.Sources

/-!
# Conversations on the wire

The two clients write a conversation in the formats of their providers.  What a provider sees of
tool calls and their results is what the history says, as long as one provider has written the
history; and the attachments of a request go into its own message.
-/

namespace Hermes.Chat

open Answering (Answered)

/-- `json.dumps` and `str`. -/
structure Writers where
  dumps : Json → String
  str : Json → String

/-! ## The Anthropic format -/

/-- An entry of `content`: a stored block, a result, or a block of the request's attachments. -/
inductive WireBlock
  | block (block : Block)
  | toolResult (toolUseId content : String) (isError : Bool)
  | attachment (block : ContentBlock)

inductive WireRole
  | user
  | assistant
  deriving DecidableEq, Repr

structure AnthropicMessage where
  role : WireRole
  content : List WireBlock

/-- `str(msg.error.get("message", "tool error"))`; an error is an object. -/
def errorText (writers : Writers) : Json → String
  | .obj fields => writers.str ((Json.get? fields "message").getD (.str "tool error"))
  | _ => "tool error"

/-- One message of `AnthropicClient._build_provider_messages`. -/
def NeutralMessage.toAnthropic (writers : Writers) : NeutralMessage → AnthropicMessage
  | .user content => ⟨.user, content.map .block⟩
  | .assistant content => ⟨.assistant, content.map .block⟩
  | .tool record =>
      ⟨.user,
        [match record.error with
          | some error => .toolResult record.providerToolUseId (errorText writers error) true
          | none =>
              .toolResult record.providerToolUseId (writers.dumps (record.result.getD .null))
                false]⟩

/-- Change the last element which passes a test. -/
def updateLast {α : Type} (test : α → Bool) (change : α → α) : List α → List α
  | [] => []
  | first :: later =>
      if later.any test then first :: updateLast test change later
      else if test first then change first :: later
      else first :: later

/-- The messages `AnthropicClient.create_message` posts. -/
def anthropicMessages (writers : Writers) (attachments : List ContentBlock)
    (messages : List NeutralMessage) : List AnthropicMessage :=
  let written := messages.map (·.toAnthropic writers)
  if attachments.isEmpty then written
  else
    updateLast (fun message => message.role == .user)
      (fun message => { message with content := message.content ++ attachments.map .attachment })
      written

/-! ## The OpenAI format -/

inductive ContentPart
  | text (text : String)
  | attachment (block : ContentBlock)

/-- `content` of a user message. -/
inductive UserContent
  | text (text : String)
  | parts (parts : List ContentPart)

/-- A message of the OpenAI Chat Completions API. -/
inductive OpenAIMessage
  | system (content : String)
  | user (content : UserContent)
  | assistant (content : Option String) (toolCalls : List FunctionCall)
  | tool (toolCallId content : String)

/-- The texts of the blocks with `type == "text"`. -/
def texts (content : List Block) : List String :=
  content.filterMap fun block =>
    match block with
    | .typed (.text said) => some said
    | _ => none

/-- `_assistant_message_from_blocks`: blocks of another provider lose all but their text. -/
def assistantMessageFromBlocks : List Block → OpenAIMessage
  | [.message content toolCalls] => .assistant content toolCalls
  | content =>
      let text := String.join (texts content)
      .assistant (if text.isEmpty then none else some text) []

/-- One message of `OpenAIClient._build_provider_messages`. -/
def NeutralMessage.toOpenAI (writers : Writers) : NeutralMessage → OpenAIMessage
  | .user content => .user (.text ("\n".intercalate (texts content)))
  | .assistant content => assistantMessageFromBlocks content
  | .tool record =>
      .tool record.providerToolUseId
        (writers.dumps ((record.error.or record.result).getD .null))

/-- What `_inject_attachments` makes of the content of a user message. -/
def UserContent.attach (attachments : List ContentBlock) : UserContent → UserContent
  | .text said =>
      .parts ((if said.isEmpty then [] else [.text said]) ++ attachments.map .attachment)
  | .parts existing => .parts (existing ++ attachments.map .attachment)

def OpenAIMessage.isUser : OpenAIMessage → Bool
  | .user _ => true
  | _ => false

def OpenAIMessage.attach (attachments : List ContentBlock) : OpenAIMessage → OpenAIMessage
  | .user content => .user (content.attach attachments)
  | message => message

/-- The messages `OpenAIClient.create_message` posts. -/
def openaiMessages (writers : Writers) (systemPrompt : String) (attachments : List ContentBlock)
    (messages : List NeutralMessage) : List OpenAIMessage :=
  let written := .system systemPrompt :: messages.map (·.toOpenAI writers)
  if attachments.isEmpty then written
  else updateLast (·.isUser) (·.attach attachments) written

/-! ## What the providers see -/

/-- The calls in an entry of an Anthropic message. -/
def WireBlock.callIds : WireBlock → List String
  | .block (.typed (.toolUse id _ _)) => [id]
  | _ => []

def WireBlock.resultId : WireBlock → Option String
  | .toolResult id _ _ => some id
  | _ => none

/-- The part an Anthropic message plays: results stand in messages of the user. -/
def AnthropicMessage.events (message : AnthropicMessage) : List (Answering.Event String) :=
  match message.role with
  | .assistant => [.calls (message.content.flatMap (·.callIds))]
  | .user =>
      match message.content.filterMap (·.resultId) with
      | [] => [.calls []]
      | results => results.map .result

def OpenAIMessage.event : OpenAIMessage → Answering.Event String
  | .assistant _ toolCalls => .calls (toolCalls.map (·.id))
  | .tool id _ => .result id
  | _ => .calls []

def Payload.For : Provider → Payload → Prop
  | .anthropic, .assistant content => ∀ block ∈ content, ∃ typed, block = .typed typed
  | .openai, .assistant content => ∃ said toolCalls, content = [.message said toolCalls]
  | _, _ => True

def Reply.Of (provider : Provider) : Reply → Prop
  | .anthropic _ _ _ => provider = .anthropic
  | .openai _ _ _ _ => provider = .openai
  | _ => True

/-- Every reply the operation meets comes from a provider. -/
def Operation.Of (provider : Provider) : Operation → Prop
  | .run near _ | .toolResult near _ => ∀ calls, (near.reply calls).Of provider
  | .elsewhere _ _ => True

/-! ## Translation -/

section Translation

variable {α β : Type} {test : α → Bool} {change : α → α} {writers : Writers}
  {attachments : List ContentBlock}

theorem updateLast_concat {last : α} (passes : test last = true) (earlier : List α) :
    updateLast test change (earlier ++ [last]) = earlier ++ [change last] := by
  induction earlier with
  | nil => simp [updateLast, passes]
  | cons first later induction =>
      rw [List.cons_append, updateLast, if_pos (by simp [passes]), induction]
      rfl

theorem map_updateLast {view : α → β} (same : ∀ element, view (change element) = view element)
    (elements : List α) : (updateLast test change elements).map view = elements.map view := by
  induction elements with
  | nil => rfl
  | cons first later induction =>
      rw [updateLast]
      split
      · rw [List.map_cons, induction, List.map_cons]
      · split
        · rw [List.map_cons, same, List.map_cons]
        · rfl

theorem attach_events (attachments : List ContentBlock) (message : AnthropicMessage) :
    AnthropicMessage.events
        { message with content := message.content ++ attachments.map .attachment } =
      message.events := by
  have no_calls : (attachments.map WireBlock.attachment).flatMap (·.callIds) = [] := by
    rw [List.flatMap_map]
    exact List.flatMap_eq_nil_iff.mpr fun _ _ => rfl
  have no_results : (attachments.map WireBlock.attachment).filterMap (·.resultId) = [] := by
    rw [List.filterMap_map]
    exact List.filterMap_eq_nil_iff.mpr fun _ _ => rfl
  rw [AnthropicMessage.events, AnthropicMessage.events, List.flatMap_append, no_calls,
    List.append_nil, List.filterMap_append, no_results, List.append_nil]

theorem toAnthropic_events {step : Step} (written : step.payload.For .anthropic) :
    (step.message.toAnthropic writers).events = [step.message.event] := by
  have no_results (content : List Block) :
      (content.map WireBlock.block).filterMap (·.resultId) = [] := by
    rw [List.filterMap_map]
    exact List.filterMap_eq_nil_iff.mpr fun _ _ => rfl
  rw [Step.message]
  cases payload : step.payload with
  | user content =>
      simp only [NeutralMessage.toAnthropic, AnthropicMessage.events, no_results,
        NeutralMessage.event]
  | assistant content =>
      rw [payload] at written
      have same : (content.map WireBlock.block).flatMap (·.callIds) = callIds content := by
        rw [List.flatMap_map, callIds]
        refine List.flatMap_congr fun block member => ?_
        obtain ⟨typed, rfl⟩ := written block member
        cases typed <;> rfl
      simp only [NeutralMessage.toAnthropic, AnthropicMessage.events, same, NeutralMessage.event]
  | tool record =>
      cases error : record.error <;>
        simp [NeutralMessage.toAnthropic, AnthropicMessage.events, error, WireBlock.resultId,
          NeutralMessage.event]

theorem toOpenAI_event {step : Step} (written : step.payload.For .openai) :
    (step.message.toOpenAI writers).event = step.message.event := by
  rw [Step.message]
  cases payload : step.payload with
  | user content => rfl
  | assistant content =>
      rw [payload] at written
      obtain ⟨said, toolCalls, rfl⟩ := written
      simp [NeutralMessage.toOpenAI, assistantMessageFromBlocks, OpenAIMessage.event,
        NeutralMessage.event, callIds, Block.callIds]
  | tool record => rfl

theorem anthropicMessages_events (chat : Session)
    (written : ∀ step ∈ chat.steps, step.payload.For .anthropic) :
    (anthropicMessages writers attachments chat.buildMessages).flatMap (·.events) =
      chat.buildMessages.map (·.event) := by
  have plain : (chat.buildMessages.map (·.toAnthropic writers)).flatMap (·.events) =
      chat.buildMessages.map (·.event) := by
    rw [Session.buildMessages, List.map_map, List.flatMap_map, List.map_map,
      List.map_eq_flatMap]
    exact List.flatMap_congr fun step member => toAnthropic_events (written step member)
  rw [anthropicMessages]
  split
  · exact plain
  · rw [List.flatMap_def, map_updateLast (attach_events attachments), ← List.flatMap_def]
    exact plain

theorem openaiMessages_event (systemPrompt : String) (chat : Session)
    (written : ∀ step ∈ chat.steps, step.payload.For .openai) :
    (openaiMessages writers systemPrompt attachments chat.buildMessages).map (·.event) =
      .calls [] :: chat.buildMessages.map (·.event) := by
  have plain : (OpenAIMessage.system systemPrompt ::
      chat.buildMessages.map (·.toOpenAI writers)).map (·.event) =
        .calls [] :: chat.buildMessages.map (·.event) := by
    rw [List.map_cons, Session.buildMessages, List.map_map, List.map_map, List.map_map]
    exact congrArg _ (List.map_congr_left fun step member => toOpenAI_event (written step member))
  have attached (message : OpenAIMessage) : (message.attach attachments).event = message.event := by
    cases message <;> rfl
  rw [openaiMessages]
  split
  · exact plain
  · rw [map_updateLast attached]
    exact plain

theorem anthropicMessages_concat (earlier : List NeutralMessage) (content : List Block) :
    anthropicMessages writers attachments (earlier ++ [.user content]) =
      earlier.map (·.toAnthropic writers) ++
        [⟨.user, content.map .block ++ attachments.map .attachment⟩] := by
  rw [anthropicMessages, List.map_append, List.map_singleton]
  split
  next none =>
    rw [List.isEmpty_iff.mp none, List.map_nil, List.append_nil]
    rfl
  · exact updateLast_concat rfl _

theorem openaiMessages_concat (systemPrompt : String) (earlier : List NeutralMessage)
    (content : List Block) (some_attached : attachments ≠ []) :
    openaiMessages writers systemPrompt attachments (earlier ++ [.user content]) =
      .system systemPrompt :: earlier.map (·.toOpenAI writers) ++
        [.user (UserContent.attach attachments (.text ("\n".intercalate (texts content))))] := by
  rw [openaiMessages, List.map_append, List.map_singleton, if_neg (by simpa using some_attached),
    ← List.cons_append]
  exact updateLast_concat rfl _

end Translation

/-! ## Whole histories -/

section Histories

variable {settings : Settings} {provider : Provider} {world : World} {operation : Operation}

theorem createMessage_for {reply : Reply} {result : LLMResult} (of : reply.Of provider)
    (created : createMessage settings.loads reply = .ok result) :
    Payload.For provider (.assistant result.contentBlocks) := by
  cases reply with
  | anthropic stopReason content usage =>
      obtain rfl : provider = .anthropic := of
      obtain ⟨uses, -, same⟩ := except_bind_eq_ok created
      cases same
      intro block member
      obtain ⟨typed, -, rfl⟩ := List.mem_map.mp member
      exact ⟨typed, rfl⟩
  | openai finishReason content toolCalls usage =>
      obtain rfl : provider = .openai := of
      obtain ⟨uses, -, same⟩ := except_bind_eq_ok created
      cases same
      exact ⟨content, toolCalls, rfl⟩
  | unauthorized => cases created
  | unavailable message => cases created
  | interrupted => cases created

theorem Operation.Of.adds (of : operation.Of provider) :
    operation.Adds settings (Payload.For provider) := by
  have near_adds {near : Surroundings} (replies : ∀ calls, (near.reply calls).Of provider) :
      near.Adds settings (Payload.For provider) :=
    ⟨fun calls _ created => createMessage_for (replies calls) created,
      fun _ => by cases provider <;> trivial⟩
  cases operation with
  | run near request => exact ⟨near_adds of, by cases provider <;> trivial⟩
  | toolResult near results => exact near_adds of
  | elsewhere trialUsed account => trivial

theorem for_of_reachable {mode : Policy.Mode} {hasProject trialUsed : Bool}
    {account : Wallet.Account}
    (reached : Reachable (perform settings) (fun _ operation => operation.Of provider)
      ⟨{ mode, hasProject }, trialUsed, account⟩ world) :
    world.chat.Sound ∧ ∀ step ∈ world.chat.steps, step.payload.For provider := by
  refine reached.invariant (fun world => world.chat.Sound ∧
    ∀ step ∈ world.chat.steps, step.payload.For provider) ?_ ?_
  · exact ⟨Session.created_sound mode hasProject, fun _ member => by cases member⟩
  · rintro before operation _ ⟨sound, written⟩ of ⟨⟩
    exact ⟨attempt_sound settings sound operation,
      (attempt_holds of.adds sound.numbered written).1⟩

theorem generateLoop_head (settings : Settings) (near : Surroundings) (plan : BillingPlan)
    (turn left calls : Nat) (world : World) (serverTools : List ServerToolExecutionOut) :
    (generateLoop settings near plan turn (left + 1) calls world serverTools).sent.head? =
      some world.chat.buildMessages := by
  simp only [generateLoop]
  split
  · split <;> rfl
  · split <;> rfl

theorem generate_head {near : Surroundings} {claimed : Bool} {plan : BillingPlan} {turn : Nat}
    {before now : World} {first : List NeutralMessage} {rest : List (List NeutralMessage)}
    (sent : (generate settings near claimed plan turn before now).sent = first :: rest) :
    first = now.chat.buildMessages := by
  rw [generate] at sent
  split at sent
  · cases sent
  · have asked := generateLoop_head settings near plan turn settings.maxServerToolRounds 0 now []
    have same (attempt : Attempt) : (attempt.reconcile claimed).sent = attempt.sent := by
      rw [Attempt.reconcile]
      split <;> rfl
    rw [same] at sent
    rw [sent, List.head?_cons, Option.some.injEq] at asked
    exact asked

theorem run_sent_head {near : Surroundings} {request : RunRequest}
    (numbered : world.chat.Numbered) {first : List NeutralMessage}
    {rest : List (List NeutralMessage)}
    (sent : (run settings near world request).sent = first :: rest) :
    ∃ earlier, first = earlier ++ [.user request.content] := by
  have begun {chat : Session} (kept : chat.Numbered) :
      ∃ earlier, (request.begin chat).buildMessages = earlier ++ [.user request.content] := by
    rw [Session.buildMessages, RunRequest.begin, kept.skip.addStep_steps, List.map_append]
    exact ⟨_, rfl⟩
  rw [run] at sent
  split at sent
  · cases sent
  next chat truncated =>
    have kept : chat.Numbered := by
      rw [RunRequest.truncated] at truncated
      split at truncated
      · cases truncated
        exact numbered
      · exact numbered.truncate truncated
    simp only at sent
    split at sent
    · cases sent
    split at sent
    · split at sent
      · cases sent
      next claimed claims =>
        have same : claimed.chat = request.begin chat := claimTrial_chat claims
        rw [generate_head sent, same]
        exact begun kept
    · rw [generate_head sent]
      exact begun kept

/-- What the provider sees of calls and results is answered. -/
def SeenAnswered (provider : Provider) (writers : Writers) (systemPrompt : String)
    (attachments : List ContentBlock) (messages : List NeutralMessage) : Prop :=
  match provider with
  | .anthropic => Answered ((anthropicMessages writers attachments messages).flatMap (·.events))
  | .openai => Answered ((openaiMessages writers systemPrompt attachments messages).map (·.event))

/-- Whichever provider an instance talks to, in every orderly history each posted conversation
answers every call the provider sees by one result before the next message, whatever attachments
are injected. -/
theorem posted_conversations_answered (settings : Settings) (provider : Provider)
    (mode : Policy.Mode) (hasProject trialUsed : Bool) (account : Wallet.Account) (world : World)
    (operation : Operation) (messages : List NeutralMessage) (writers : Writers)
    (systemPrompt : String) (attachments : List ContentBlock)
    (reached : Reachable (perform settings)
      (fun world operation => operation.Orderly world ∧ operation.Of provider)
      ⟨.created mode hasProject, trialUsed, account⟩ world)
    (orderly : operation.Orderly world) (of : operation.Of provider)
    (sent : messages ∈ (attempt settings world operation).sent) :
    SeenAnswered provider writers systemPrompt attachments messages := by
  have coherent := coherent_of_reachable (Session.created_coherent mode hasProject)
    (reached.mono fun _ _ both => both.1)
  obtain ⟨sound, written⟩ := for_of_reachable (reached.mono fun _ _ both => both.2)
  have answered : WellFormed messages := (attempt_coherent coherent orderly).1 messages sent
  obtain ⟨chat, all, rfl⟩ := (attempt_holds of.adds sound.numbered written).2 messages sent
  unfold SeenAnswered
  cases provider with
  | anthropic =>
      dsimp only
      rw [anthropicMessages_events chat all]
      exact answered
  | openai =>
      dsimp only
      rw [openaiMessages_event systemPrompt chat all]
      exact .round .nil (.refl []) answered

/-- The attachments of a request of the user are posted within its own message, in its first
conversation, whichever the provider. -/
theorem attachments_posted_with_message (settings : Settings) (mode : Policy.Mode)
    (hasProject trialUsed : Bool) (account : Wallet.Account) (world : World)
    (near : Surroundings) (request : RunRequest) (first : List NeutralMessage)
    (rest : List (List NeutralMessage)) (writers : Writers) (systemPrompt : String)
    (attachments : List ContentBlock)
    (reached : Reachable (perform settings) (fun _ _ => True)
      ⟨.created mode hasProject, trialUsed, account⟩ world)
    (sent : (attempt settings world (.run near request)).sent = first :: rest) :
    ∃ earlier, first = earlier ++ [.user request.content] ∧
      anthropicMessages writers attachments first =
        earlier.map (·.toAnthropic writers) ++
          [⟨.user, request.content.map .block ++ attachments.map .attachment⟩] ∧
      (attachments ≠ [] → openaiMessages writers systemPrompt attachments first =
        .system systemPrompt :: earlier.map (·.toOpenAI writers) ++
          [.user (UserContent.attach attachments
            (.text ("\n".intercalate (texts request.content))))]) := by
  obtain ⟨earlier, rfl⟩ := run_sent_head (sound_of_reachable reached).numbered sent
  exact ⟨earlier, rfl, anthropicMessages_concat earlier _,
    openaiMessages_concat systemPrompt earlier _⟩

end Histories

namespace Sample

/-- Encoders which are enough for a look at identifiers. -/
def writers : Writers := ⟨fun _ => "{}", fun _ => "error"⟩

theorem read_of : read.Of .anthropic := fun _ => rfl

theorem answer_of : answer.Of .anthropic := fun _ => rfl

/-- The continuation after a mixed round is posted with an image. -/
theorem posted_after_round :
    ∃ messages ∈ (attempt settings asked answer).sent,
      (anthropicMessages writers [.text []] messages).map (·.role) =
        [.user, .assistant, .user, .user] ∧
      SeenAnswered .anthropic writers "" [.text []] messages :=
  ⟨_, List.mem_cons_self .., rfl,
    posted_conversations_answered settings .anthropic .byok false false {} asked answer _ writers
      "" [.text []]
      (.next .start ⟨read_orderly, read_of⟩
        (show perform settings start read = some asked from rfl))
      answer_orderly answer_of (List.mem_cons_self ..)⟩

/-- The first message of a chat is posted with a note. -/
theorem note_posted :
    anthropicMessages writers [.text []] [.user [.typed (.text "look")]] =
      [⟨.user, [.block (.typed (.text "look")), .attachment (.text [])]⟩] := by
  obtain ⟨earlier, same, posted, -⟩ := attachments_posted_with_message settings .byok false false
    {} start (near finalText) (message "look") _ [] writers "" [.text []] .start rfl
  obtain rfl : earlier = [] := by
    have length := congrArg List.length same
    rw [List.length_append] at length
    exact List.eq_nil_of_length_eq_zero (Nat.succ.inj length).symm
  exact posted

end Sample

end Hermes.Chat
