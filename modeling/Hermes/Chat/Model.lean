import Hermes.Json
import Hermes.Policy

/-!
# Chats, their steps and their tool calls

The rows of one chat session and what the repository does with them, together with what the two
provider clients make of a reply.  The identifiers the database and `uuid4` hand out are drawn from
one counter: they are fresh, and a step inserted later has the greater `seq`.
-/

namespace Hermes.Chat

open Policy (BlockReason Mode)

/-! ## Tools -/

/-- `ALL_TOOL_NAMES`. -/
inductive Tool
  | filesRead
  | filesWrite
  | filesList
  | filesMkdir
  | calendarRead
  | calendarCreateEvents
  | remindersRead
  | remindersCreate
  | siteWriteFile
  | sitePreview
  | siteList
  | siteRead
  | siteDelete
  | timeNow
  deriving DecidableEq, Repr

namespace Tool

/-- `_DOMAIN_TO_ANTHROPIC`. -/
def wireName : Tool → String
  | filesRead => "files_read"
  | filesWrite => "files_write"
  | filesList => "files_list"
  | filesMkdir => "files_mkdir"
  | calendarRead => "calendar_read"
  | calendarCreateEvents => "calendar_create_events"
  | remindersRead => "reminders_read"
  | remindersCreate => "reminders_create"
  | siteWriteFile => "site_write_file"
  | sitePreview => "site_preview"
  | siteList => "site_list"
  | siteRead => "site_read"
  | siteDelete => "site_delete"
  | timeNow => "time_now"

/-- The keys of `_DOMAIN_TO_ANTHROPIC`. -/
def all : List Tool :=
  [filesRead, filesWrite, filesList, filesMkdir, calendarRead, calendarCreateEvents, remindersRead,
    remindersCreate, siteWriteFile, sitePreview, siteList, siteRead, siteDelete, timeNow]

/-- `to_domain_tool_name`: no tool stands for `UnknownToolNameError`. -/
def toDomain (wire : String) : Option Tool := all.find? fun tool => tool.wireName == wire

/-- `SERVER_SIDE_TOOLS`: executed by the backend for a chat with a project. -/
def serverSide : Tool → Bool
  | siteWriteFile | sitePreview | siteList | siteRead | siteDelete => true
  | _ => false

/-- `GLOBAL_SERVER_SIDE_TOOLS`: executed by the backend in every chat. -/
def globalServerSide : Tool → Bool
  | timeNow => true
  | _ => false

/-- The tools whose results the client sends. -/
def clientSide (tool : Tool) : Bool := !tool.serverSide && !tool.globalServerSide

end Tool

/-! ## Provider replies -/

/-- A typed content block of the Anthropic wire format, after `_normalize_block`. -/
inductive TypedBlock
  | text (text : String)
  | toolUse (id name : String) (input : Json)
  /-- A block of any other type, such as `thinking`. -/
  | other (type : String)

/-- A function call of the OpenAI wire format; the arguments are still text. -/
structure FunctionCall where
  id : String
  name : String
  arguments : String
  deriving DecidableEq, Repr

/-- An entry of `payload["content"]`: a typed block, or the one OpenAI assistant message. -/
inductive Block
  | typed (block : TypedBlock)
  | message (content : Option String) (toolCalls : List FunctionCall)

/-- `LLMUsage`. -/
structure Usage where
  inputTokens : Nat
  outputTokens : Nat
  model : String
  cacheReadTokens : Nat
  cacheWriteTokens : Nat
  deriving DecidableEq, Repr

inductive StopReason
  | toolUse
  | maxTokens
  | endTurn
  deriving DecidableEq, Repr

/-- An entry of `LLMResult.tool_uses`. -/
structure ToolUse where
  id : String
  name : Tool
  input : Json

/-- `LLMResult`. -/
structure LLMResult where
  stopReason : StopReason
  contentBlocks : List Block
  usage : Usage
  text : String
  toolUses : List ToolUse

/-- The exceptions which leave an orchestrator entry point. -/
inductive Failure
  | notFound (message : String)
  | messageNotFound
  | validationFailed (message : String)
  | upstream (message : String)
  | unauthorized
  | wallet
  /-- Anything else, cancellation included. -/
  | other
  deriving DecidableEq, Repr

/-- What comes back from the provider for one call. -/
inductive Reply
  | anthropic (stopReason : Option String) (content : List TypedBlock) (usage : Usage)
  | openai (finishReason : Option String) (content : Option String)
      (toolCalls : List FunctionCall) (usage : Usage)
  /-- The key is rejected. -/
  | unauthorized
  /-- A timeout, a broken connection or another error status. -/
  | unavailable (message : String)
  /-- The call ends in some other way, as by cancellation. -/
  | interrupted

/-- `_to_neutral_stop_reason` of the Anthropic client. -/
def anthropicStopReason : Option String → StopReason
  | some "tool_use" => .toolUse
  | some "max_tokens" => .maxTokens
  | _ => .endTurn

/-- `_to_neutral_stop_reason` of the OpenAI client. -/
def openaiStopReason : Option String → StopReason
  | some "tool_calls" => .toolUse
  | some "length" => .maxTokens
  | _ => .endTurn

def TypedBlock.textPart : TypedBlock → String
  | .text said => said
  | _ => ""

/-- The tool uses among typed blocks, under their domain names. -/
def anthropicToolUses : List TypedBlock → Except Failure (List ToolUse)
  | [] => .ok []
  | .toolUse id name input :: later =>
      match Tool.toDomain name with
      | none => .error (.validationFailed s!"unknown anthropic tool name: {name}")
      | some tool => do
          let uses ← anthropicToolUses later
          .ok (⟨id, tool, input⟩ :: uses)
  | _ :: later => anthropicToolUses later

/-- The tool uses of an OpenAI message.  `loads` is `json.loads`. -/
def openaiToolUses (loads : String → Option Json) :
    List FunctionCall → Except Failure (List ToolUse)
  | [] => .ok []
  | call :: later =>
      match Tool.toDomain call.name with
      | none => .error (.validationFailed s!"unknown anthropic tool name: {call.name}")
      | some tool =>
          match if call.arguments.isEmpty then some (.obj []) else loads call.arguments with
          | none =>
              .error (.validationFailed s!"invalid tool_call arguments JSON for {call.name}")
          | some (.obj fields) => do
              let uses ← openaiToolUses loads later
              .ok (⟨call.id, tool, .obj fields⟩ :: uses)
          | some _ =>
              .error (.validationFailed
                s!"tool_call arguments for {call.name} must be a JSON object")

/-- `create_message` of the active client, from the provider's reply on. -/
def createMessage (loads : String → Option Json) : Reply → Except Failure LLMResult
  | .anthropic stopReason content usage => do
      let uses ← anthropicToolUses content
      .ok ⟨anthropicStopReason stopReason, content.map .typed, usage,
        String.join (content.map (·.textPart)), uses⟩
  | .openai finishReason content toolCalls usage => do
      let uses ← openaiToolUses loads toolCalls
      .ok ⟨openaiStopReason finishReason, [.message content toolCalls], usage,
        content.getD "", uses⟩
  | .unauthorized => .error .unauthorized
  | .unavailable message => .error (.upstream message)
  | .interrupted => .error .other

/-! ## Rows -/

/-- `payload` of a tool step. -/
structure ToolRecord where
  toolCallId : Nat
  providerToolUseId : String
  toolName : Tool
  result : Option Json
  error : Option Json

/-- `role` and `payload` of a step. -/
inductive Payload
  | user (content : List Block)
  | assistant (content : List Block)
  | tool (record : ToolRecord)

/-- A `chat_steps` row; its `seq` also stands for its id. -/
structure Step where
  seq : Nat
  messageStepId : Nat
  payload : Payload
  usage : Option Usage := none

namespace Step

/-- `role == "user"`. -/
def isUser (step : Step) : Bool :=
  match step.payload with
  | .user _ => true
  | _ => false

/-- `role == "assistant"`. -/
def isAssistant (step : Step) : Bool :=
  match step.payload with
  | .assistant _ => true
  | _ => false

/-- `role == "tool"` with this `payload["toolCallId"]`. -/
def answers (step : Step) (toolCallId : Nat) : Bool :=
  match step.payload with
  | .tool record => record.toolCallId == toolCallId
  | _ => false

/-- `payload.get("content", [])`. -/
def content (step : Step) : List Block :=
  match step.payload with
  | .user content | .assistant content => content
  | .tool _ => []

end Step

inductive ToolCallStatus
  | pending
  | completed
  | errored
  deriving DecidableEq, Repr

/-- A `tool_calls` row. -/
structure ToolCall where
  id : Nat
  messageStepId : Nat
  toolName : Tool
  providerToolUseId : String
  args : Json
  status : ToolCallStatus
  result : Option Json := none

/-- The rows of one `chat_sessions` row, with the next identifier to hand out. -/
structure Session where
  mode : Mode
  hasProject : Bool
  steps : List Step := []
  toolCalls : List ToolCall := []
  next : Nat := 0

namespace Session

/-- Insert a step where its `seq` belongs. -/
def insertStep (step : Step) : List Step → List Step
  | [] => [step]
  | first :: later =>
      if step.seq < first.seq then step :: first :: later else first :: insertStep step later

/-- `add_step`. -/
def addStep (chat : Session) (messageStepId : Nat) (payload : Payload)
    (usage : Option Usage := none) : Session :=
  { chat with
    steps := insertStep ⟨chat.next, messageStepId, payload, usage⟩ chat.steps
    next := chat.next + 1 }

/-- `create_tool_call`: the row is pending at first. -/
def createToolCall (chat : Session) (messageStepId : Nat) (tool : Tool) (providerToolUseId : String)
    (args : Json) : Session :=
  { chat with
    toolCalls := chat.toolCalls ++
      [⟨chat.next, messageStepId, tool, providerToolUseId, args, .pending, none⟩]
    next := chat.next + 1 }

/-- `get_tool_call`. -/
def getToolCall (chat : Session) (id : Nat) : Option ToolCall :=
  chat.toolCalls.find? fun row => row.id == id

/-- The rows after the `UPDATE … WHERE id = :id AND status = 'pending'`. -/
def markToolCall (id : Nat) (status : ToolCallStatus) (result : Option Json) (row : ToolCall) :
    ToolCall :=
  if row.id = id ∧ row.status = .pending then { row with status, result } else row

/-- `complete_tool_call`. -/
def completeToolCall (chat : Session) (id : Nat) (status : ToolCallStatus) (result : Option Json) :
    Session :=
  { chat with toolCalls := chat.toolCalls.map (markToolCall id status result) }

/-- `list_tool_calls_for_step`, in the order the rows were created. -/
def listToolCallsForStep (chat : Session) (messageStepId : Nat) : List ToolCall :=
  chat.toolCalls.filter fun row => row.messageStepId == messageStepId

/-- The client-side calls of a turn which still wait for a result. -/
def pendingCalls (chat : Session) (messageStepId : Nat) : List ToolCall :=
  (chat.listToolCallsForStep messageStepId).filter fun row =>
    row.toolName.clientSide && row.status == .pending

def assistantSteps (chat : Session) (messageStepId : Nat) : List Step :=
  chat.steps.filter fun step => step.messageStepId == messageStepId && step.isAssistant

/-- `assistant_tool_step_id`: the latest assistant step of a turn. -/
def assistantToolStepId (chat : Session) (messageStepId : Nat) : Option Nat :=
  (chat.assistantSteps messageStepId).getLast?.map (·.seq)

/-- `next_step_after`. -/
def nextStepAfter (chat : Session) (messageStepId toolCallId : Nat) : Option Step :=
  match chat.steps.find? fun step => step.messageStepId == messageStepId && step.answers toolCallId
  with
  | some anchor => (chat.assistantSteps messageStepId).find? fun step => anchor.seq < step.seq
  | none => (chat.assistantSteps messageStepId).getLast?

/-- `truncate_from_message_step`: no chat stands for an anchor which is not there. -/
def truncateFromMessageStep (chat : Session) (messageStepId : Nat) : Option Session :=
  match chat.steps.find? fun step => step.messageStepId == messageStepId && step.isUser with
  | none => none
  | some anchor =>
      let dropped := chat.steps.filter fun step => anchor.seq ≤ step.seq
      some { chat with
        steps := chat.steps.filter fun step => step.seq < anchor.seq
        toolCalls := chat.toolCalls.filter fun row =>
          !dropped.any fun step => step.messageStepId == row.messageStepId }

end Session

/-! ## Messages -/

/-- `NeutralMessage`. -/
inductive NeutralMessage
  | user (content : List Block)
  | assistant (content : List Block)
  | tool (record : ToolRecord)

def Step.message (step : Step) : NeutralMessage :=
  match step.payload with
  | .user content => .user content
  | .assistant content => .assistant content
  | .tool record => .tool record

/-- `_build_messages`. -/
def Session.buildMessages (chat : Session) : List NeutralMessage := chat.steps.map (·.message)

/-! ## Responses -/

/-- `ToolCallOut`. -/
structure ToolCallOut where
  id : Nat
  name : Tool
  args : Json

/-- `ServerToolExecutionOut`. -/
structure ServerToolExecutionOut where
  toolCallId : Nat
  toolName : Tool
  status : ToolCallStatus
  summary : String
  deriving DecidableEq, Repr

inductive Status
  | assistantMessage
  | toolCall
  | blocked
  deriving DecidableEq, Repr

/-- `ChatRunOut` of one session; an empty list of calls stands for no list. -/
structure ChatRunOut where
  status : Status
  assistantMessage : Option String := none
  toolCalls : List ToolCallOut := []
  blockReason : Option BlockReason := none
  usage : Option Usage := none
  messageStepId : Option Nat := none
  stepId : Option Nat := none
  serverTools : List ServerToolExecutionOut := []

def ToolCall.out (row : ToolCall) : ToolCallOut := ⟨row.id, row.toolName, row.args⟩

end Hermes.Chat
