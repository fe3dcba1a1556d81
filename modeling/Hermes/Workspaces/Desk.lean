import Hermes.Chat.Orchestrator
import Hermes.Workspaces.Context
import Hermes.Workspaces.TextExtract
import Mathlib.Data.List.Sort

/-!
# Chats and their workspaces

A request reads the tables and issues statements, and requests follow one another.  A chat is bound
to a workspace when it is opened or later, and a turn reads the workspace it finds bound.  New rows
get the UUIDs which come with the requests; the steps and the tool calls of a chat are numbered
within it.
-/

namespace Hermes.Workspaces

open Encoding Chat
open Policy (Mode)
open Wallet (UserId)

/-! ## Tables -/

/-- A row of `workspace_projects`; moments are in microseconds. -/
structure WorkspaceProject where
  id : Nat
  userId : UserId
  name : List Nat
  description : Option (List Nat)
  instructions : Option (List Nat)
  createdAt : Int
  updatedAt : Int
  deriving DecidableEq, Repr

/-- A row of `chat_sessions`, with its rows of `chat_steps` and `tool_calls` and the next number. -/
structure ChatSession where
  id : Nat
  userId : UserId
  projectId : Option String
  mode : Mode
  model : Option (List Nat)
  assistantMode : AssistantMode
  workspaceProjectId : Option Nat
  title : Option (List Nat)
  isPinned : Bool := false
  updatedAt : Int
  steps : List Step := []
  toolCalls : List ToolCall := []
  next : Nat := 0

/-- A row of `user_preferences`. -/
structure Preferences where
  defaultAssistantMode : AssistantMode := .chat
  notificationsEnabled : Bool := false
  codeDefaults : Json := .obj []

/-- A UUID which was drawn for a step, a turn or a tool call: its number in its chat. -/
structure Ref where
  chat : Nat
  number : Nat
  deriving DecidableEq, Repr

structure DeskSettings where
  runtime : Runtime
  attachments : AttachmentSettings
  /-- `WORKSPACE_FILE_MAX_COUNT`. -/
  workspaceFileMaxCount : Int := 20
  /-- `WORKSPACE_FILES_TOTAL_BYTES`. -/
  workspaceFilesTotalBytes : Int := 33554432
  /-- `WORKSPACE_CONTEXT_MAX_CHARS`. -/
  workspaceContextMaxChars : Int := 200000
  /-- `SESSION_SOFT_TTL_SECONDS`. -/
  sessionSoftTtlSeconds : Int := 86400
  /-- The keys of `allowed_models`. -/
  allowedModels : List (List Nat)
  /-- What is fixed for a chat of a user. -/
  chat : UserId → Nat → Settings
  /-- `_active_provider`. -/
  provider : Provider

/-! ## What requests are told -/

inductive Refusal
  /-- `ValidationFailedError`. -/
  | validationFailed (message : List Nat)
  /-- `PayloadTooLargeError`, or what else a file raises. -/
  | fault (fault : AttachmentFault)
  /-- `NotFoundError`. -/
  | notFound (message : String)
  /-- `WorkspaceNotFoundError`. -/
  | workspaceNotFound (message : String)
  /-- `MessageNotFoundError`. -/
  | messageNotFound (message : String)
  /-- What leaves a turn. -/
  | failed (failure : Failure)
  /-- The key of a new row is there already. -/
  | duplicate
  deriving DecidableEq, Repr

/-- What a turn hands to the model besides the history. -/
structure Opening where
  systemPrompt : List Nat
  /-- What goes into the first call only. -/
  firstTurnAttachments : Option PreparedAttachments
  model : Option (List Nat)
  mode : Mode
  hasProject : Bool
  deriving DecidableEq, Repr

/-- One `create_message`. -/
structure ModelCall where
  opening : Opening
  messages : List NeutralMessage

def Opening.calls (opening : Opening) : List (List NeutralMessage) → List ModelCall
  | [] => []
  | first :: later =>
      ⟨opening, first⟩ :: later.map (⟨{ opening with firstTurnAttachments := none }, ·⟩)

/-- A `WorkspaceFileView`. -/
structure WorkspaceFileView where
  fileId : Nat
  filename : List Nat
  mediaType : MediaType
  size : Nat
  hasExtractedText : Bool
  createdAt : Int
  deriving DecidableEq, Repr

/-- The answer to a request, and what it has called the model with. -/
inductive Answer
  | refused (refusal : Refusal)
  | done
  | workspace (row : WorkspaceProject) (files : List WorkspaceFileView)
  | file (view : WorkspaceFileView)
  | preferences (row : Preferences)
  /-- `ChatPatchResponse`. -/
  | patched (id : Nat) (title : Option (List Nat)) (isPinned : Bool)
      (workspaceProjectId : Option Nat) (updatedAt : Int)
  | turn (calls : List ModelCall) (response : Except Failure (Nat × ChatRunOut))

/-! ## Statements -/

structure Desk where
  workspaces : List WorkspaceProject
  files : List WorkspaceFile
  sessions : List ChatSession
  preferences : UserId → Option Preferences
  trialUsed : UserId → Bool
  accounts : UserId → Wallet.Account
  answers : List (UserId × Answer)

def Desk.empty : Desk := ⟨[], [], [], fun _ => none, fun _ => false, fun _ => {}, []⟩

/-- The statements of the requests which write. -/
inductive Statement
  | insertWorkspace (row : WorkspaceProject)
  | updateWorkspace (id : Nat) (name : List Nat) (description instructions : Option (List Nat))
      (updatedAt : Int)
  | deleteWorkspace (id : Nat)
  | insertFile (row : WorkspaceFile)
  | deleteFile (workspaceProjectId id : Nat)
  | savePreferences (userId : UserId) (row : Preferences)
  | insertSession (row : ChatSession)
  | updateSession (id : Nat) (title : Option (List Nat)) (isPinned : Bool)
      (workspaceProjectId : Option Nat) (updatedAt : Int)
  | saveChat (id : Nat) (chat : Session)
  | touchSession (id : Nat) (now : Int)
  | deleteSession (id : Nat)
  | saveUser (userId : UserId) (trialUsed : Bool) (account : Wallet.Account)

def ChatSession.chat (session : ChatSession) : Session :=
  ⟨session.mode, session.projectId.isSome, session.steps, session.toolCalls, session.next⟩

def ChatSession.keep (session : ChatSession) (chat : Session) : ChatSession :=
  { session with steps := chat.steps, toolCalls := chat.toolCalls, next := chat.next }

def Desk.exec (desk : Desk) : Statement → Desk
  | .insertWorkspace row => { desk with workspaces := desk.workspaces ++ [row] }
  | .updateWorkspace id name description instructions updatedAt =>
      { desk with
        workspaces := desk.workspaces.map fun row =>
          if row.id = id then { row with name, description, instructions, updatedAt } else row }
  | .deleteWorkspace id =>
      -- The files go with the workspace, and its chats stay without one.
      { desk with
        workspaces := desk.workspaces.filter (·.id != id)
        files := desk.files.filter (·.workspaceProjectId != id)
        sessions := desk.sessions.map fun row =>
          if row.workspaceProjectId = some id then { row with workspaceProjectId := none }
          else row }
  | .insertFile row => { desk with files := desk.files ++ [row] }
  | .deleteFile workspaceProjectId id =>
      { desk with
        files := desk.files.filter fun row =>
          !(row.id == id && row.workspaceProjectId == workspaceProjectId) }
  | .savePreferences userId row =>
      { desk with preferences := Function.update desk.preferences userId (some row) }
  | .insertSession row => { desk with sessions := desk.sessions ++ [row] }
  | .updateSession id title isPinned workspaceProjectId updatedAt =>
      { desk with
        sessions := desk.sessions.map fun row =>
          if row.id = id then { row with title, isPinned, workspaceProjectId, updatedAt }
          else row }
  | .saveChat id chat =>
      { desk with
        sessions := desk.sessions.map fun row => if row.id = id then row.keep chat else row }
  | .touchSession id now =>
      { desk with
        sessions := desk.sessions.map fun row =>
          if row.id = id then { row with updatedAt := now } else row }
  | .deleteSession id => { desk with sessions := desk.sessions.filter (·.id != id) }
  | .saveUser userId trialUsed account =>
      { desk with
        trialUsed := Function.update desk.trialUsed userId trialUsed
        accounts := Function.update desk.accounts userId account }

/-! ## Reads -/

namespace Desk

variable (desk : Desk)

/-- `get_workspace`. -/
def getWorkspace (id : Nat) (userId : UserId) : Option WorkspaceProject :=
  desk.workspaces.find? fun row => row.id == id && row.userId == userId

/-- `get_session`. -/
def getSession (id : Nat) (userId : UserId) : Option ChatSession :=
  desk.sessions.find? fun row => row.id == id && row.userId == userId

/-- `get_tool_call`, with the chat of the call, whosever it is. -/
def getToolCall (ref : Ref) : Option (Nat × ToolCall) :=
  (desk.sessions.find? (·.id == ref.chat)).bind fun session =>
    (session.chat.getToolCall ref.number).map fun row => (session.id, row)

/-- The files of a workspace come in the order of `created_at` and `id`. -/
def listFiles (workspaceProjectId : Nat) : List WorkspaceFile :=
  (desk.files.filter (·.workspaceProjectId == workspaceProjectId)).insertionSort fun first second =>
    first.createdAt < second.createdAt ∨
      first.createdAt = second.createdAt ∧ first.id ≤ second.id

/-- `total_bytes`. -/
def totalBytes (workspaceProjectId : Nat) : Nat :=
  ((desk.listFiles workspaceProjectId).map (·.size)).sum

/-- `instructions_for_session`. -/
def instructionsForSession (workspaceProjectId : Nat) (userId : UserId) : Option (List Nat) :=
  ((desk.getWorkspace workspaceProjectId userId).bind (·.instructions)).filter (· ≠ [])

/-- `get_default_assistant_mode`. -/
def getDefaultAssistantMode (userId : UserId) : AssistantMode :=
  ((desk.preferences userId).getD {}).defaultAssistantMode

end Desk

/-- `_file_view`. -/
def WorkspaceFile.view (file : WorkspaceFile) : WorkspaceFileView :=
  ⟨file.id, file.filename, file.mediaType, file.size, (file.extractedText.getD []) ≠ [],
    file.createdAt⟩

/-- `is_expired`, when the clock shows a moment. -/
def ChatSession.isExpired (settings : DeskSettings) (session : ChatSession) (now : Int) : Bool :=
  decide (settings.sessionSoftTtlSeconds * 1000000 < now - session.updatedAt)

/-- `context_for_session`: the instructions and the files. -/
def contextForSession (settings : DeskSettings) (desk : Desk) (workspaceProjectId : Nat)
    (userId : UserId) : Option (Option (List Nat) × Option PreparedAttachments) :=
  (desk.getWorkspace workspaceProjectId userId).map fun workspace =>
    (workspace.instructions.filter (· ≠ []),
      buildFileAttachments settings.workspaceContextMaxChars settings.provider
        (desk.listFiles workspaceProjectId))

/-! ## Requests -/

abbrev Reply := Answer × List Statement

def refuse (refusal : Refusal) : Reply := (.refused refusal, [])

/-- What `run` is asked for. -/
structure RunRequest where
  projectId : Option String
  sessionId : Option Nat
  mode : Mode
  assistantMode : Option AssistantMode
  model : Option (List Nat)
  workspaceProjectId : Option Nat
  /-- What `derive_title` makes of the message. -/
  title : Option (List Nat)
  /-- What `_compose_turn0_text` makes of the context and the message. -/
  text : List Nat
  attachments : List AttachmentIn
  editMessageStepId : Option Ref
  /-- The UUID and the moment of a new session. -/
  newId : Nat
  createdAt : Int
  /-- The readings of the clock in `_will_create_session` and in `get_or_create_session`, and at the
  end of the turn. -/
  checkedAt : Int
  openedAt : Int
  endedAt : Int
  /-- What the turn meets while it runs, the replies of the provider among it. -/
  near : Surroundings

/-- What `tool_result` is asked for. -/
structure ResultsRequest where
  sessionId : Nat
  /-- The calls, each with its result and its error. -/
  results : List (Ref × Option Json × Option Json)
  endedAt : Int
  near : Surroundings

inductive Ask
  | createWorkspace (id : Nat) (name : List Nat) (description instructions : Option (List Nat))
      (createdAt : Int)
  | update (id : Nat) (name : Option (List Nat)) (setDescription : Bool)
      (description : Option (List Nat)) (setInstructions : Bool) (instructions : Option (List Nat))
      (now : Int)
  | delete (id : Nat)
  | getDetail (id : Nat)
  | uploadFile (workspaceProjectId : Nat) (filename : List Nat) (upload : FileUpload) (id : Nat)
      (createdAt : Int)
  | deleteFile (workspaceProjectId id : Nat)
  | patch (defaultAssistantMode : Option AssistantMode) (notificationsEnabled : Option Bool)
      (codeDefaults : Option Json)
  | renameOrPin (sessionId : Nat) (title : Option (List Nat)) (setTitle : Bool)
      (isPinned : Option Bool) (setWorkspaceProjectId : Bool) (workspaceProjectId : Option Nat)
      (now : Int)
  | deleteChat (sessionId : Nat)
  | run (request : RunRequest)
  | toolResult (request : ResultsRequest)
  /-- What else becomes of the user's trial and wallet. -/
  | elsewhere (trialUsed : Bool) (account : Wallet.Account)

section Requests

variable (settings : DeskSettings) (desk : Desk) (userId : UserId)

/-- `create`. -/
def createWorkspace (id : Nat) (name : List Nat) (description instructions : Option (List Nat))
    (createdAt : Int) : Reply :=
  if desk.workspaces.any (·.id == id) then refuse .duplicate
  else
    let row : WorkspaceProject :=
      ⟨id, userId, strip name, description, instructions, createdAt, createdAt⟩
    (.workspace row [], [.insertWorkspace row])

/-- `update`. -/
def update (id : Nat) (name : Option (List Nat)) (setDescription : Bool)
    (description : Option (List Nat)) (setInstructions : Bool) (instructions : Option (List Nat))
    (now : Int) : Reply :=
  match desk.getWorkspace id userId with
  | none => refuse (.notFound "workspace not found")
  | some row =>
      let name := (name.map strip).getD row.name
      let description := if setDescription then description else row.description
      let instructions := if setInstructions then instructions else row.instructions
      (.workspace { row with name, description, instructions, updatedAt := now }
          ((desk.listFiles id).map (·.view)),
        [.updateWorkspace id name description instructions now])

/-- `delete`. -/
def delete (id : Nat) : Reply :=
  match desk.getWorkspace id userId with
  | none => refuse (.notFound "workspace not found")
  | some _ => (.done, [.deleteWorkspace id])

/-- `get_detail`. -/
def getDetail (id : Nat) : Reply :=
  match desk.getWorkspace id userId with
  | none => refuse (.notFound "workspace not found")
  | some row => (.workspace row ((desk.listFiles id).map (·.view)), [])

/-- `upload_file`. -/
def uploadFile (workspaceProjectId : Nat) (filename : List Nat) (upload : FileUpload) (id : Nat)
    (createdAt : Int) : Reply :=
  match desk.getWorkspace workspaceProjectId userId with
  | none => refuse (.notFound "workspace not found")
  | some _ =>
      if settings.workspaceFileMaxCount ≤ (desk.listFiles workspaceProjectId).length then
        refuse (.validationFailed (codes "workspace file count limit exceeded"))
      else
        match validateAndExtract settings.runtime settings.attachments upload with
        | .error fault => refuse (.fault fault)
        | .ok extracted =>
            if settings.workspaceFilesTotalBytes <
                desk.totalBytes workspaceProjectId + extracted.size then
              refuse (.validationFailed (codes "workspace total size limit exceeded"))
            else if desk.files.any (·.id == id) then refuse .duplicate
            else
              let row : WorkspaceFile :=
                ⟨id, workspaceProjectId, filename, extracted.content, upload.mediaType,
                  extracted.size, extracted.extractedText, createdAt⟩
              (.file row.view, [.insertFile row])

/-- `delete_file`. -/
def deleteFile (workspaceProjectId id : Nat) : Reply :=
  match desk.getWorkspace workspaceProjectId userId with
  | none => refuse (.notFound "workspace not found")
  | some _ =>
      if (desk.listFiles workspaceProjectId).any (·.id == id) then
        (.done, [.deleteFile workspaceProjectId id])
      else refuse (.notFound "file not found")

/-- `patch` of the preferences. -/
def patch (defaultAssistantMode : Option AssistantMode) (notificationsEnabled : Option Bool)
    (codeDefaults : Option Json) : Reply :=
  let before := (desk.preferences userId).getD {}
  let row : Preferences :=
    ⟨defaultAssistantMode.getD before.defaultAssistantMode,
      notificationsEnabled.getD before.notificationsEnabled,
      codeDefaults.getD before.codeDefaults⟩
  (.preferences row, [.savePreferences userId row])

/-- `rename_or_pin`. -/
def renameOrPin (sessionId : Nat) (title : Option (List Nat)) (setTitle : Bool)
    (isPinned : Option Bool) (setWorkspaceProjectId : Bool) (workspaceProjectId : Option Nat)
    (now : Int) : Reply :=
  match desk.getSession sessionId userId with
  | none => refuse (.notFound "chat not found")
  | some session =>
      if setWorkspaceProjectId &&
          !workspaceProjectId.all fun id => (desk.getWorkspace id userId).isSome then
        refuse (.workspaceNotFound "workspace not found")
      else
        let title := if setTitle then title else session.title
        let isPinned := isPinned.getD session.isPinned
        let bound :=
          if setWorkspaceProjectId then workspaceProjectId else session.workspaceProjectId
        (.patched sessionId title isPinned bound now,
          [.updateSession sessionId title isPinned bound now])

/-- `delete_chat`. -/
def deleteChat (sessionId : Nat) : Reply :=
  match desk.getSession sessionId userId with
  | none => refuse (.notFound "chat not found")
  | some _ => (.done, [.deleteSession sessionId])

/-- `get_or_create_session`, without the new session. -/
def resumed (sessionId : Option Nat) (now : Int) : Option ChatSession :=
  (sessionId.bind fun id => desk.getSession id userId).filter fun session =>
    !session.isExpired settings now

/-- `_will_create_session`. -/
def willCreateSession (sessionId : Option Nat) (now : Int) : Bool :=
  (resumed settings desk userId sessionId now).isNone

/-- What the calls of a session's turn have in common. -/
def ChatSession.opening (session : ChatSession) (systemPrompt : List Nat)
    (attachments : Option PreparedAttachments) : Opening where
  systemPrompt := systemPrompt
  firstTurnAttachments := attachments
  model := session.model.filter (· ≠ [])
  mode := session.mode
  hasProject := session.projectId.isSome

/-- The prompt of a turn which finds its session. -/
def continuedPrompt (session : ChatSession) : List Nat :=
  match session.workspaceProjectId with
  | none => systemPromptFor session.assistantMode
  | some workspaceProjectId =>
      systemPromptWithWorkspace session.assistantMode
        (desk.instructionsForSession workspaceProjectId userId)

/-- The first turn of a session, with the files of its workspace before its own. -/
def opened (session : ChatSession) (prepared : Option PreparedAttachments) : Opening :=
  match session.workspaceProjectId.bind fun workspaceProjectId =>
      contextForSession settings desk workspaceProjectId userId with
  | none => session.opening (systemPromptFor session.assistantMode) (mergeAttachments prepared none)
  | some (instructions, files) =>
      session.opening (systemPromptWithWorkspace session.assistantMode instructions)
        (mergeAttachments prepared files)

def RunRequest.session (request : RunRequest) (userId : UserId) (assistantMode : AssistantMode)
    (willCreate : Bool) : ChatSession where
  id := request.newId
  userId := userId
  projectId := request.projectId
  mode := request.mode
  model := request.model.map strip
  assistantMode := request.assistantMode.getD assistantMode
  workspaceProjectId := if willCreate then request.workspaceProjectId else none
  title := request.title
  updatedAt := request.createdAt

/-- The attachments of a request, prepared if there are any. -/
def RunRequest.prepare (request : RunRequest) :
    Except AttachmentFault (Option PreparedAttachments) :=
  if request.attachments.isEmpty then .ok none
  else some <$> prepareAttachments settings.runtime settings.attachments request.attachments
    settings.provider

def RunRequest.content (request : RunRequest) (prepared : Option PreparedAttachments) :
    List Block :=
  let placeholders := (prepared.map (·.placeholders)).getD []
  let texts := if request.text = [] then placeholders else request.text :: placeholders
  texts.map fun text => .typed (.text (ofCodes text))

/-- What a turn finds of its user and its chat. -/
def world (session : ChatSession) : World :=
  ⟨session.chat, desk.trialUsed userId, desk.accounts userId⟩

/-- The turn has ended in a new message, and the chat moves up. -/
def finished (attempt : Attempt) : Bool :=
  match attempt.response with
  | .ok out => out.status == .assistantMessage && !attempt.sent.isEmpty
  | .error _ => false

/-- The answer of a turn, and what it leaves of the user's trial and wallet. -/
def answerTurn (sessionId : Nat) (opening : Opening) (attempt : Attempt) (endedAt : Int)
    (saved : List Statement) : Reply :=
  (.turn (opening.calls attempt.sent) (attempt.response.map fun out => (sessionId, out)),
    saved ++ [.saveUser userId attempt.world.trialUsed attempt.world.account] ++
      if finished attempt then [.touchSession sessionId endedAt] else [])

/-- `run`. -/
def run (request : RunRequest) : Reply :=
  let willCreate := willCreateSession settings desk userId request.sessionId request.checkedAt
  let model := request.model.map strip
  if willCreate && !model.all fun name => settings.allowedModels.contains name then
    refuse (.validationFailed (codes "model '" ++ model.getD [] ++
      codes "' is not available on this instance"))
  else if willCreate && !request.workspaceProjectId.all fun id =>
      (desk.getWorkspace id userId).isSome then
    refuse (.workspaceNotFound "workspace not found")
  else
    match resumed settings desk userId request.sessionId request.openedAt with
    | some session =>
        if request.editMessageStepId.any fun ref =>
            ref.chat != session.id || (session.chat.truncateFromMessageStep ref.number).isNone then
          refuse (.messageNotFound "message_not_found")
        else
          match request.prepare settings with
          | .error fault => refuse (.fault fault)
          | .ok prepared =>
              let attempt := Chat.run (settings.chat userId session.id) request.near
                (world desk userId session)
                ⟨request.content prepared, request.editMessageStepId.map (·.number)⟩
              answerTurn userId session.id
                (session.opening (continuedPrompt desk userId session)
                  (mergeAttachments prepared none))
                attempt request.endedAt [.saveChat session.id attempt.world.chat]
    | none =>
        if desk.sessions.any (·.id == request.newId) then refuse .duplicate
        else if request.editMessageStepId.isSome then refuse (.messageNotFound "message_not_found")
        else
          match request.prepare settings with
          | .error fault => refuse (.fault fault)
          | .ok prepared =>
              let session :=
                request.session userId (desk.getDefaultAssistantMode userId) willCreate
              let attempt := Chat.run (settings.chat userId session.id) request.near
                (world desk userId session) ⟨request.content prepared, none⟩
              answerTurn userId session.id (opened settings desk userId session prepared) attempt
                request.endedAt
                -- The session is committed with its first step, or not at all.
                (if attempt.world.chat.steps.isEmpty then []
                  else [.insertSession (session.keep attempt.world.chat)])

/-- The results up to the first one which names no call of the chat. -/
def ResultsRequest.known (request : ResultsRequest) : List (Ref × Option Json × Option Json) :=
  request.results.takeWhile fun item =>
    (desk.getToolCall item.1).any fun found => found.1 == request.sessionId

/-- `tool_result`. -/
def toolResult (request : ResultsRequest) : Reply :=
  if request.results.isEmpty then refuse (.failed (.validationFailed "results must be non-empty"))
  else
    match desk.getSession request.sessionId userId with
    | none => refuse (.notFound "session not found")
    | some session =>
        let known := request.known desk
        let items := known.map fun item => ⟨item.1.number, item.2.1, item.2.2⟩
        if known.length < request.results.length then
          match resolve session.chat none items with
          | .error failure => refuse (.failed failure)
          | .ok _ => refuse (.failed (.notFound "tool call not found for session"))
        else
          let attempt := Chat.toolResult (settings.chat userId session.id) request.near
            (world desk userId session) items
          answerTurn userId session.id
            (session.opening (continuedPrompt desk userId session) none) attempt request.endedAt
            [.saveChat session.id attempt.world.chat]

def reply : Ask → Reply
  | .createWorkspace id name description instructions createdAt =>
      createWorkspace desk userId id name description instructions createdAt
  | .update id name setDescription description setInstructions instructions now =>
      update desk userId id name setDescription description setInstructions instructions now
  | .delete id => delete desk userId id
  | .getDetail id => getDetail desk userId id
  | .uploadFile workspaceProjectId filename upload id createdAt =>
      uploadFile settings desk userId workspaceProjectId filename upload id createdAt
  | .deleteFile workspaceProjectId id => deleteFile desk userId workspaceProjectId id
  | .patch defaultAssistantMode notificationsEnabled codeDefaults =>
      patch desk userId defaultAssistantMode notificationsEnabled codeDefaults
  | .renameOrPin sessionId title setTitle isPinned setWorkspaceProjectId workspaceProjectId now =>
      renameOrPin desk userId sessionId title setTitle isPinned setWorkspaceProjectId
        workspaceProjectId now
  | .deleteChat sessionId => deleteChat desk userId sessionId
  | .run request => run settings desk userId request
  | .toolResult request => toolResult settings desk userId request
  | .elsewhere trialUsed account => (.done, [.saveUser userId trialUsed account])

/-- A request is answered and its statements are committed. -/
def Desk.serve (request : UserId × Ask) : Desk :=
  let (answer, statements) := reply settings desk request.1 request.2
  let after := statements.foldl Desk.exec desk
  { after with answers := after.answers ++ [(request.1, answer)] }

end Requests

def serveAll (settings : DeskSettings) (desk : Desk) (requests : List (UserId × Ask)) : Desk :=
  requests.foldl (Desk.serve settings) desk

end Hermes.Workspaces
