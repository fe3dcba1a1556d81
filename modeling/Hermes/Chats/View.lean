import Hermes.Chats.Steps

/-!
# The history and the steps view

`get_history` shows every step with its payload brought to the names and ids of the domain, and
`steps_view` one turn as a flat list of summaries.  Neither changes what is stored: the history is
made from a copy of the payload.
-/

namespace Hermes.Chats

open Chat

/-- The name of a tool in the domain, with a dot. -/
def domainName : Tool → String
  | .filesRead => "files.read"
  | .filesWrite => "files.write"
  | .filesList => "files.list"
  | .filesMkdir => "files.mkdir"
  | .calendarRead => "calendar.read"
  | .calendarCreateEvents => "calendar.create_events"
  | .remindersRead => "reminders.read"
  | .remindersCreate => "reminders.create"
  | .siteWriteFile => "site.write_file"
  | .sitePreview => "site.preview"
  | .siteList => "site.list"
  | .siteRead => "site.read"
  | .siteDelete => "site.delete"
  | .timeNow => "time.now"

/-! ## The history -/

/-- The id of a tool-use block as it is shown. -/
inductive ShownId
  /-- The id of a `tool_calls` row. -/
  | domain (id : Nat)
  /-- The id of the provider, left as it is. -/
  | provider (id : String)
  deriving DecidableEq, Repr

/-- The name of a tool-use block as it is shown. -/
inductive ShownName
  /-- The dotted name of a tool. -/
  | domain (tool : Tool)
  /-- The name of the transport, left as it is. -/
  | wire (name : String)
  deriving DecidableEq, Repr

/-- An entry of `content` as it is shown. -/
inductive ShownBlock
  | text (text : String)
  | toolUse (id : ShownId) (name : ShownName) (input : Json)
  | other (type : String)
  | message (content : Option String) (toolCalls : List FunctionCall)

/-- `payload` of a `ChatStepView`. -/
inductive ShownPayload
  | user (content : List ShownBlock)
  | assistant (content : List ShownBlock)
  | tool (toolCallId : Nat) (toolName : Tool) (result error : Option Json)

/-- `ChatStepView`. -/
structure ChatStepView where
  id : Nat
  messageStepId : Nat
  payload : ShownPayload
  usage : Option Usage
  createdAt : Int

/-- `provider_id_to_domain_id`, from the rows in the order in which the query returns them: of rows
with the same provider id the last one counts. -/
def providerIdToDomainId (rows : List ToolCall) (providerId : String) : Option Nat :=
  (rows.reverse.find? fun row => row.providerToolUseId == providerId).map (·.id)

/-- `_strip_leading_context_block`. -/
def stripLeadingContextBlock : List Block → List Block
  | [] => []
  | .typed (.text said) :: later =>
      .typed (.text (String.ofList (stripContextBlock said.toList))) :: later
  | block :: later => block :: stripLeadingContextBlock later

/-- A block as it is shown: `_normalize_tool_use_block` for a tool use.  No stored content holds
a `tool_result` block. -/
def normalizeBlock (providerToDomain : String → Option Nat) : Block → ShownBlock
  | .typed (.text said) => .text said
  | .typed (.toolUse id name input) =>
      .toolUse
        (match providerToDomain id with
        | some domainId => .domain domainId
        | none => .provider id)
        (match Tool.toDomain name with
        | some tool => .domain tool
        | none => .wire name)
        input
  | .typed (.other type) => .other type
  | .message content toolCalls => .message content toolCalls

/-- `_normalize_payload`. -/
def normalizePayload (providerToDomain : String → Option Nat) : Payload → ShownPayload
  | .user content =>
      .user ((stripLeadingContextBlock content).map (normalizeBlock providerToDomain))
  | .assistant content => .assistant (content.map (normalizeBlock providerToDomain))
  | .tool record => .tool record.toolCallId record.toolName record.result record.error

/-- `get_history`, from the rows of `tool_calls` in the order in which they are read. -/
def getHistory {chat : Session} (stamps : Stamps chat) (rows : List ToolCall) :
    List ChatStepView :=
  stamps.listSteps.map fun step =>
    { id := stamps.id step.seq
      messageStepId := step.messageStepId
      payload := normalizePayload (providerIdToDomainId rows) step.payload
      usage := step.usage
      createdAt := stamps.createdAt step.seq }

/-! ## The steps view -/

inductive Kind
  | reasoning
  | toolCall
  | toolResult
  | assistantMessage
  deriving DecidableEq, Repr

/-- `StepsViewStep`. -/
structure StepsViewStep where
  kind : Kind
  toolName : Option Tool
  summary : List Char
  createdAt : Int
  deriving DecidableEq, Repr

/-- `_text_summary`. -/
def textSummary (content : List Block) : List Char := truncate 120 (joinedText content)

def typedUses (content : List Block) : List String :=
  content.filterMap fun block =>
    match block with
    | .typed (.toolUse id _ _) => some id
    | _ => none

/-- The entry of the steps view for a tool call. -/
def renderToolUse (byProviderId : String → Option ToolCall) (createdAt : Int) (id : String) :
    StepsViewStep :=
  match byProviderId id with
  | some row =>
      ⟨.toolCall, some row.toolName, "вызов ".toList ++ (domainName row.toolName).toList, createdAt⟩
  | none => ⟨.toolCall, none, "вызов инструмента".toList, createdAt⟩

/-- `_render_step`. -/
def renderStep (byProviderId : String → Option ToolCall) (createdAt : Int) :
    Payload → List StepsViewStep
  | .user _ => []
  | .assistant content =>
      let kind := if (typedUses content).isEmpty then Kind.assistantMessage else .reasoning
      let summary := textSummary content
      (if summary.isEmpty then [] else [⟨kind, none, summary, createdAt⟩]) ++
        (typedUses content).map (renderToolUse byProviderId createdAt)
  | .tool record =>
      [⟨.toolResult, some record.toolName,
        "результат ".toList ++ (domainName record.toolName).toList, createdAt⟩]

/-- `tool_calls_for_message`, by the ids of the provider. -/
def callsByProviderId (rows : List ToolCall) (messageStepId : Nat) (providerId : String) :
    Option ToolCall :=
  (rows.filter fun row => row.messageStepId == messageStepId).reverse.find?
    fun row => row.providerToolUseId == providerId

/-- `steps_view`: the turn and its entries, or the text of a `NotFoundError`. -/
def stepsView {chat : Session} (stamps : Stamps chat) (rows : List ToolCall)
    (messageStepId : Option Nat) : Except String (Nat × List StepsViewStep) :=
  match messageStepId.or stamps.latestMessageStepId with
  | none => .error "no steps for chat"
  | some target =>
      let steps := stamps.stepsForMessage target
      if steps.isEmpty then .error "message step not found"
      else .ok (target, steps.flatMap fun step =>
        renderStep (callsByProviderId rows target) (stamps.createdAt step.seq) step.payload)

end Hermes.Chats
