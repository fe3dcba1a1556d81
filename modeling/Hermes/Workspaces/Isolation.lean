import Hermes.Library.Purge
import Hermes.Workspaces.Desk

/-!
# What one user's chats owe to others

Every row belongs to one user, and a request reads and writes rows of the user who makes it.  So
what a user is told, and what a user's turns hand to the model, is what it would be if nobody else
had ever asked for anything.
-/

namespace Hermes.Workspaces

open Wallet (UserId)

/-! ## Whose rows are whose -/

/-- The user whose rows a statement is about. -/
def Statement.owner (owner : Nat → UserId) : Statement → UserId
  | .insertWorkspace row => row.userId
  | .updateWorkspace id _ _ _ _ | .deleteWorkspace id | .updateSession id _ _ _ _ | .saveChat id _
  | .touchSession id _ | .deleteSession id => owner id
  | .insertFile row => owner row.workspaceProjectId
  | .deleteFile workspaceProjectId _ => owner workspaceProjectId
  | .savePreferences userId _ | .saveUser userId _ _ => userId
  | .insertSession row => row.userId

/-- What a statement writes belongs to one user. -/
def Statement.Coherent (owner : Nat → UserId) : Statement → Prop
  | .insertWorkspace row => owner row.id = row.userId
  | .insertFile row => owner row.id = owner row.workspaceProjectId
  | .insertSession row =>
      owner row.id = row.userId ∧ ∀ id, row.workspaceProjectId = some id → owner id = row.userId
  | .updateSession id _ _ workspaceProjectId _ =>
      ∀ bound, workspaceProjectId = some bound → owner bound = owner id
  | _ => True

/-- The new UUIDs of a request are drawn for its user. -/
def Ask.Within (owner : Nat → UserId) (userId : UserId) : Ask → Prop
  | .createWorkspace id _ _ _ _ | .uploadFile _ _ _ id _ => owner id = userId
  | .run request => owner request.newId = userId
  | _ => True

namespace Desk

section Restrict

variable (owner : Nat → UserId) (userId : UserId)

def restrict (desk : Desk) : Desk where
  workspaces := desk.workspaces.filter (·.userId == userId)
  files := desk.files.filter (owner ·.workspaceProjectId == userId)
  sessions := desk.sessions.filter (·.userId == userId)
  preferences other := if other = userId then desk.preferences other else none
  trialUsed other := if other = userId then desk.trialUsed other else false
  accounts other := if other = userId then desk.accounts other else {}
  answers := desk.answers.filter (·.1 == userId)

/-- Every UUID is one of its owner's rows, and chats are bound to workspaces of their users. -/
structure Separated (desk : Desk) : Prop where
  workspaces : ∀ row ∈ desk.workspaces, owner row.id = row.userId
  files : ∀ row ∈ desk.files, owner row.id = owner row.workspaceProjectId
  sessions : ∀ row ∈ desk.sessions, owner row.id = row.userId
  bound : ∀ row ∈ desk.sessions, ∀ id, row.workspaceProjectId = some id → owner id = row.userId

end Restrict

variable {owner : Nat → UserId} {userId : UserId} {desk : Desk} {statement : Statement}

/-- A table with one entry for each user, as a user finds it behind a write of the user's own. -/
theorem update_restrict_own {α : Type} (table : UserId → α) (absent value : α) :
    (fun other => if other = userId then Function.update table userId value other else absent) =
      Function.update (fun other => if other = userId then table other else absent)
        userId value := by
  funext other
  by_cases same : other = userId
  · rw [same, Function.update_self, Function.update_self, if_pos rfl]
  · rw [if_neg same, Function.update_of_ne same, if_neg same]

theorem update_restrict_foreign {α : Type} {saver : UserId} (foreign : saver ≠ userId)
    (table : UserId → α) (absent value : α) :
    (fun other => if other = userId then Function.update table saver value other else absent) =
      fun other => if other = userId then table other else absent := by
  funext other
  by_cases same : other = userId
  · rw [if_pos same, if_pos same, Function.update_of_ne (same.trans_ne foreign.symm)]
  · rw [if_neg same, if_neg same]

/-! ## Statements -/

theorem map_if_of_none {α : Type} {test : α → Prop} [DecidablePred test] {change : α → α}
    {rows : List α} (none : ∀ row ∈ rows, ¬ test row) :
    (rows.map fun row => if test row then change row else row) = rows :=
  (List.map_congr_left fun row listed => if_neg (none row listed)).trans (List.map_id _)

/-- An update keeps what holds of all rows and of what it changes. -/
theorem forall_mem_map_if {α : Type} {test : α → Prop} [DecidablePred test] {change : α → α}
    {rows : List α} {holds : α → Prop} (before : ∀ row ∈ rows, holds row)
    (changed : ∀ row ∈ rows, test row → holds (change row)) :
    ∀ row ∈ rows.map fun row => if test row then change row else row, holds row := by
  intro row listed
  obtain ⟨earlier, present, rfl⟩ := List.mem_map.mp listed
  split
  · exact changed earlier present ‹_›
  · exact before earlier present

theorem Separated.exec (separated : Separated owner desk) (coherent : statement.Coherent owner) :
    Separated owner (desk.exec statement) := by
  obtain ⟨workspaces, files, sessions, bound⟩ := separated
  cases statement with
  | insertWorkspace row =>
      refine ⟨?_, files, sessions, bound⟩
      exact List.forall_mem_append.mpr ⟨workspaces, List.forall_mem_singleton.mpr coherent⟩
  | updateWorkspace id name description instructions updatedAt =>
      exact ⟨forall_mem_map_if workspaces fun row listed _ => workspaces row listed, files,
        sessions, bound⟩
  | deleteWorkspace id =>
      refine ⟨fun row listed => workspaces row (List.mem_of_mem_filter listed),
        fun row listed => files row (List.mem_of_mem_filter listed), ?_, ?_⟩
      · exact forall_mem_map_if sessions fun row listed _ => sessions row listed
      · exact forall_mem_map_if bound fun row _ _ other absent => absurd absent nofun
  | insertFile row =>
      refine ⟨workspaces, ?_, sessions, bound⟩
      exact List.forall_mem_append.mpr ⟨files, List.forall_mem_singleton.mpr coherent⟩
  | deleteFile workspaceProjectId id =>
      exact ⟨workspaces, fun row listed => files row (List.mem_of_mem_filter listed), sessions,
        bound⟩
  | savePreferences userId row => exact ⟨workspaces, files, sessions, bound⟩
  | saveUser userId trialUsed account => exact ⟨workspaces, files, sessions, bound⟩
  | insertSession row =>
      refine ⟨workspaces, files, ?_, ?_⟩
      · exact List.forall_mem_append.mpr ⟨sessions, List.forall_mem_singleton.mpr coherent.1⟩
      · exact List.forall_mem_append.mpr ⟨bound, List.forall_mem_singleton.mpr coherent.2⟩
  | updateSession id title isPinned workspaceProjectId updatedAt =>
      refine ⟨workspaces, files, ?_, ?_⟩
      · exact forall_mem_map_if sessions fun row listed _ => sessions row listed
      · refine forall_mem_map_if bound fun row listed same other binds => ?_
        rw [coherent other binds, ← same]
        exact sessions row listed
  | saveChat id chat =>
      refine ⟨workspaces, files, ?_, ?_⟩
      · exact forall_mem_map_if sessions fun row listed _ => sessions row listed
      · exact forall_mem_map_if bound fun row listed _ => bound row listed
  | touchSession id now =>
      refine ⟨workspaces, files, ?_, ?_⟩
      · exact forall_mem_map_if sessions fun row listed _ => sessions row listed
      · exact forall_mem_map_if bound fun row listed _ => bound row listed
  | deleteSession id =>
      exact ⟨workspaces, files, fun row listed => sessions row (List.mem_of_mem_filter listed),
        fun row listed => bound row (List.mem_of_mem_filter listed)⟩

/-- A statement about a user's own rows does to them what it does among all rows. -/
theorem restrict_exec_own (own : statement.owner owner = userId) :
    (desk.exec statement).restrict owner userId = (desk.restrict owner userId).exec statement := by
  cases statement with
  | insertWorkspace row =>
      simp only [exec, restrict, Desk.mk.injEq, and_self, and_true]
      exact filter_concat_of_pos (beq_iff_eq.mpr own)
  | updateWorkspace id name description instructions updatedAt =>
      simp only [exec, restrict, Desk.mk.injEq, and_self, and_true]
      exact filter_map_comm (fun row => by split <;> rfl) _
  | deleteWorkspace id =>
      simp only [exec, restrict, Desk.mk.injEq, and_self, and_true]
      refine ⟨List.filter_comm .., List.filter_comm .., ?_⟩
      exact filter_map_comm (fun row => by split <;> rfl) _
  | insertFile row =>
      simp only [exec, restrict, Desk.mk.injEq, and_self, and_true, true_and]
      exact filter_concat_of_pos (beq_iff_eq.mpr own)
  | deleteFile workspaceProjectId id =>
      simp only [exec, restrict, Desk.mk.injEq, and_self, and_true, true_and]
      exact List.filter_comm ..
  | savePreferences saver row =>
      obtain rfl : saver = userId := own
      simp only [exec, restrict, Desk.mk.injEq, and_self, and_true, true_and]
      exact update_restrict_own ..
  | saveUser saver trialUsed account =>
      obtain rfl : saver = userId := own
      simp only [exec, restrict, Desk.mk.injEq, and_true, true_and]
      exact ⟨update_restrict_own .., update_restrict_own ..⟩
  | insertSession row =>
      simp only [exec, restrict, Desk.mk.injEq, and_self, and_true, true_and]
      exact filter_concat_of_pos (beq_iff_eq.mpr own)
  | updateSession id title isPinned workspaceProjectId updatedAt =>
      simp only [exec, restrict, Desk.mk.injEq, and_self, and_true, true_and]
      exact filter_map_comm (fun row => by split <;> rfl) _
  | saveChat id chat =>
      simp only [exec, restrict, Desk.mk.injEq, and_self, and_true, true_and]
      exact filter_map_comm (fun row => by split <;> rfl) _
  | touchSession id now =>
      simp only [exec, restrict, Desk.mk.injEq, and_self, and_true, true_and]
      exact filter_map_comm (fun row => by split <;> rfl) _
  | deleteSession id =>
      simp only [exec, restrict, Desk.mk.injEq, and_self, and_true, true_and]
      exact List.filter_comm ..

theorem ne_of_foreign {id other : Nat} {holder : UserId} (foreign : owner id ≠ userId)
    (named : owner other = holder) (own : (holder == userId) = true) : other ≠ id := by
  rintro rfl
  exact foreign (named.trans (beq_iff_eq.mp own))

/-- A statement about rows of others leaves a user's rows alone. -/
theorem Separated.restrict_exec_foreign (separated : Separated owner desk)
    (foreign : statement.owner owner ≠ userId) :
    (desk.exec statement).restrict owner userId = desk.restrict owner userId := by
  have sessions_kept {test : ChatSession → Prop} [DecidablePred test]
      {change : ChatSession → ChatSession} (same : ∀ row, (change row).userId = row.userId)
      (none : ∀ row ∈ desk.sessions.filter (·.userId == userId), ¬ test row) :
      (desk.sessions.map fun row => if test row then change row else row).filter
        (·.userId == userId) = desk.sessions.filter (·.userId == userId) := by
    rw [filter_map_comm (fun row => by split <;> simp [same]), map_if_of_none none]
  have session_apart {id : Nat} (apart : owner id ≠ userId) :
      ∀ row ∈ desk.sessions.filter (·.userId == userId), row.id ≠ id := by
    intro row listed
    obtain ⟨present, own⟩ := List.mem_filter.mp listed
    exact ne_of_foreign apart (separated.sessions row present) own
  cases statement with
  | insertWorkspace row =>
      simp only [Desk.exec, restrict, Desk.mk.injEq, and_self, and_true]
      exact filter_concat_of_neg fun own => foreign (beq_iff_eq.mp own)
  | updateWorkspace id name description instructions updatedAt =>
      simp only [Desk.exec, restrict, Desk.mk.injEq, and_self, and_true]
      rw [filter_map_comm (fun row => by split <;> rfl), map_if_of_none]
      intro row listed
      obtain ⟨present, own⟩ := List.mem_filter.mp listed
      exact ne_of_foreign foreign (separated.workspaces row present) own
  | deleteWorkspace id =>
      simp only [Desk.exec, restrict, Desk.mk.injEq, and_self, and_true]
      refine ⟨?_, ?_, sessions_kept (fun _ => rfl) fun row listed binds => ?_⟩
      · rw [List.filter_comm, List.filter_eq_self]
        intro row listed
        obtain ⟨present, own⟩ := List.mem_filter.mp listed
        exact bne_iff_ne.mpr (ne_of_foreign foreign (separated.workspaces row present) own)
      · rw [List.filter_comm, List.filter_eq_self]
        intro row listed
        exact bne_iff_ne.mpr (ne_of_foreign foreign rfl (List.mem_filter.mp listed).2)
      · obtain ⟨present, own⟩ := List.mem_filter.mp listed
        exact ne_of_foreign foreign (separated.bound row present id binds) own rfl
  | insertFile row =>
      simp only [Desk.exec, restrict, Desk.mk.injEq, and_self, and_true, true_and]
      exact filter_concat_of_neg fun own => foreign (beq_iff_eq.mp own)
  | deleteFile workspaceProjectId id =>
      simp only [Desk.exec, restrict, Desk.mk.injEq, and_self, and_true, true_and]
      rw [List.filter_comm, List.filter_eq_self]
      intro row listed
      have apart : row.workspaceProjectId ≠ workspaceProjectId :=
        ne_of_foreign foreign rfl (List.mem_filter.mp listed).2
      simp [apart]
  | savePreferences saver row =>
      simp only [Desk.exec, restrict, Desk.mk.injEq, and_self, and_true, true_and]
      exact update_restrict_foreign foreign ..
  | saveUser saver trialUsed account =>
      simp only [Desk.exec, restrict, Desk.mk.injEq, and_true, true_and]
      exact ⟨update_restrict_foreign foreign .., update_restrict_foreign foreign ..⟩
  | insertSession row =>
      simp only [Desk.exec, restrict, Desk.mk.injEq, and_self, and_true, true_and]
      exact filter_concat_of_neg fun own => foreign (beq_iff_eq.mp own)
  | updateSession id title isPinned workspaceProjectId updatedAt =>
      simp only [Desk.exec, restrict, Desk.mk.injEq, and_self, and_true, true_and]
      exact sessions_kept (fun _ => rfl) (session_apart foreign)
  | saveChat id chat =>
      simp only [Desk.exec, restrict, Desk.mk.injEq, and_self, and_true, true_and]
      exact sessions_kept (fun _ => rfl) (session_apart foreign)
  | touchSession id now =>
      simp only [Desk.exec, restrict, Desk.mk.injEq, and_self, and_true, true_and]
      exact sessions_kept (fun _ => rfl) (session_apart foreign)
  | deleteSession id =>
      simp only [Desk.exec, restrict, Desk.mk.injEq, and_self, and_true, true_and]
      rw [List.filter_comm, List.filter_eq_self]
      exact fun row listed => bne_iff_ne.mpr (session_apart foreign row listed)

/-! ## Reads -/

theorem getWorkspace_restrict (id : Nat) :
    (desk.restrict owner userId).getWorkspace id userId = desk.getWorkspace id userId :=
  find_filter fun _ _ passes => (Bool.and_eq_true_iff.mp passes).2

theorem getSession_restrict (id : Nat) :
    (desk.restrict owner userId).getSession id userId = desk.getSession id userId :=
  find_filter fun _ _ passes => (Bool.and_eq_true_iff.mp passes).2

theorem listFiles_restrict {id : Nat} (own : owner id = userId) :
    (desk.restrict owner userId).listFiles id = desk.listFiles id := by
  rw [listFiles, listFiles, restrict, List.filter_filter]
  congr 1
  apply List.filter_congr
  intro row _
  by_cases same : row.workspaceProjectId = id
  · simp [same, own]
  · simp [same]

theorem Separated.owner_of_getWorkspace (separated : Separated owner desk) {id : Nat}
    {row : WorkspaceProject} (found : desk.getWorkspace id userId = some row) :
    owner id = userId := by
  have named := List.find?_some found
  rw [Bool.and_eq_true, beq_iff_eq, beq_iff_eq] at named
  rw [← named.1, separated.workspaces row (List.mem_of_find?_eq_some found), named.2]

theorem Separated.owner_of_getSession (separated : Separated owner desk) {id : Nat}
    {row : ChatSession} (found : desk.getSession id userId = some row) : owner id = userId := by
  have named := List.find?_some found
  rw [Bool.and_eq_true, beq_iff_eq, beq_iff_eq] at named
  rw [← named.1, separated.sessions row (List.mem_of_find?_eq_some found), named.2]

theorem totalBytes_restrict {id : Nat} (own : owner id = userId) :
    (desk.restrict owner userId).totalBytes id = desk.totalBytes id := by
  rw [totalBytes, totalBytes, listFiles_restrict own]

theorem preferences_restrict :
    (desk.restrict owner userId).preferences userId = desk.preferences userId :=
  if_pos rfl

theorem getDefaultAssistantMode_restrict :
    (desk.restrict owner userId).getDefaultAssistantMode userId =
      desk.getDefaultAssistantMode userId := by
  rw [getDefaultAssistantMode, getDefaultAssistantMode, preferences_restrict]

theorem world_restrict (session : ChatSession) :
    world (desk.restrict owner userId) userId session = world desk userId session := by
  simp only [world, restrict, if_true]

/-- A user finds the calls of the user's own chats, and those of others are not there. -/
theorem Separated.any_getToolCall_restrict (separated : Separated owner desk) {sessionId : Nat}
    (own : owner sessionId = userId) (ref : Ref) :
    ((desk.restrict owner userId).getToolCall ref).any (fun found => found.1 == sessionId) =
      (desk.getToolCall ref).any fun found => found.1 == sessionId := by
  have elsewhere (place : Desk) (other : ref.chat ≠ sessionId) :
      (place.getToolCall ref).any (fun found => found.1 == sessionId) = false := by
    rw [getToolCall]
    cases holder : place.sessions.find? (·.id == ref.chat) with
    | none => rfl
    | some session =>
        have named := List.find?_some holder
        rw [beq_iff_eq] at named
        rw [Option.bind_some, named]
        cases session.chat.getToolCall ref.number with
        | none => rfl
        | some row => exact beq_eq_false_iff_ne.mpr other
  by_cases here : ref.chat = sessionId
  · have same : (desk.restrict owner userId).sessions.find? (·.id == ref.chat) =
        desk.sessions.find? (·.id == ref.chat) :=
      find_filter fun row listed named => by
        rw [← separated.sessions row listed, beq_iff_eq.mp named, here, own, beq_self_eq_true]
    rw [getToolCall, getToolCall, same]
  · rw [elsewhere _ here, elsewhere _ here]

theorem instructionsForSession_restrict (id : Nat) :
    (desk.restrict owner userId).instructionsForSession id userId =
      desk.instructionsForSession id userId := by
  rw [instructionsForSession, instructionsForSession, getWorkspace_restrict]

theorem Separated.contextForSession_restrict (separated : Separated owner desk)
    (settings : DeskSettings) (id : Nat) :
    contextForSession settings (desk.restrict owner userId) id userId =
      contextForSession settings desk id userId := by
  rw [contextForSession, contextForSession, getWorkspace_restrict]
  cases found : desk.getWorkspace id userId with
  | none => rfl
  | some row => rw [listFiles_restrict (separated.owner_of_getWorkspace found)]

theorem resumed_restrict (settings : DeskSettings) (sessionId : Option Nat) (now : Int) :
    resumed settings (desk.restrict owner userId) userId sessionId now =
      resumed settings desk userId sessionId now := by
  cases sessionId with
  | none => rfl
  | some id => rw [resumed, resumed, Option.bind_some, Option.bind_some, getSession_restrict]

theorem continuedPrompt_restrict (session : ChatSession) :
    continuedPrompt (desk.restrict owner userId) userId session =
      continuedPrompt desk userId session := by
  rw [continuedPrompt, continuedPrompt]
  split
  · rfl
  · rw [instructionsForSession_restrict]

theorem Separated.opened_restrict (separated : Separated owner desk) (settings : DeskSettings)
    (session : ChatSession) (prepared : Option Chat.PreparedAttachments) :
    opened settings (desk.restrict owner userId) userId session prepared =
      opened settings desk userId session prepared := by
  rw [opened, opened]
  simp only [separated.contextForSession_restrict]

/-! ## Requests -/

/-- A reply reads the user's own rows, and its statements are about these. -/
structure Replies (owner : Nat → UserId) (userId : UserId) (own whole : Reply) : Prop where
  same : own = whole
  owned : ∀ statement ∈ whole.2, statement.owner owner = userId
  coherent : ∀ statement ∈ whole.2, statement.Coherent owner

theorem Replies.refuse (owner : Nat → UserId) (userId : UserId) (refusal : Refusal) :
    Replies owner userId (refuse refusal) (refuse refusal) :=
  ⟨rfl, List.forall_mem_nil _, List.forall_mem_nil _⟩

theorem Replies.read (owner : Nat → UserId) (userId : UserId) (answer : Answer) :
    Replies owner userId (answer, []) (answer, []) :=
  ⟨rfl, List.forall_mem_nil _, List.forall_mem_nil _⟩

theorem Replies.write (answer : Answer) (owned : statement.owner owner = userId)
    (coherent : statement.Coherent owner) :
    Replies owner userId (answer, [statement]) (answer, [statement]) :=
  ⟨rfl, List.forall_mem_singleton.mpr owned, List.forall_mem_singleton.mpr coherent⟩

section Requests

variable {settings : DeskSettings}

theorem Separated.createWorkspace (separated : Separated owner desk) {id : Nat}
    (drawn : owner id = userId) (name : List Nat) (description instructions : Option (List Nat))
    (createdAt : Int) :
    Replies owner userId
      (createWorkspace (desk.restrict owner userId) userId id name description instructions
        createdAt)
      (createWorkspace desk userId id name description instructions createdAt) := by
  have fresh : (desk.restrict owner userId).workspaces.any (·.id == id) =
      desk.workspaces.any (·.id == id) :=
    any_filter fun row listed named => by
      rw [← separated.workspaces row listed, beq_iff_eq.mp named, drawn, beq_self_eq_true]
  rw [Workspaces.createWorkspace, Workspaces.createWorkspace, fresh]
  split
  · exact .refuse owner userId .duplicate
  · exact .write _ rfl drawn

theorem Separated.update (separated : Separated owner desk) (id : Nat) (name : Option (List Nat))
    (setDescription : Bool) (description : Option (List Nat)) (setInstructions : Bool)
    (instructions : Option (List Nat)) (now : Int) :
    Replies owner userId
      (update (desk.restrict owner userId) userId id name setDescription description
        setInstructions instructions now)
      (update desk userId id name setDescription description setInstructions instructions now) := by
  rw [Workspaces.update, Workspaces.update, getWorkspace_restrict]
  cases found : desk.getWorkspace id userId with
  | none => exact .refuse ..
  | some row =>
      have own := separated.owner_of_getWorkspace found
      dsimp only
      rw [listFiles_restrict own]
      exact .write _ own trivial

theorem Separated.delete (separated : Separated owner desk) (id : Nat) :
    Replies owner userId (delete (desk.restrict owner userId) userId id)
      (delete desk userId id) := by
  rw [Workspaces.delete, Workspaces.delete, getWorkspace_restrict]
  cases found : desk.getWorkspace id userId with
  | none => exact .refuse ..
  | some row => exact .write _ (separated.owner_of_getWorkspace found) trivial

theorem Separated.getDetail (separated : Separated owner desk) (id : Nat) :
    Replies owner userId (getDetail (desk.restrict owner userId) userId id)
      (getDetail desk userId id) := by
  rw [Workspaces.getDetail, Workspaces.getDetail, getWorkspace_restrict]
  cases found : desk.getWorkspace id userId with
  | none => exact .refuse ..
  | some row =>
      dsimp only
      rw [listFiles_restrict (separated.owner_of_getWorkspace found)]
      exact .read ..

theorem Separated.uploadFile (separated : Separated owner desk) (workspaceProjectId : Nat)
    (filename : List Nat) (upload : FileUpload) {id : Nat} (drawn : owner id = userId)
    (createdAt : Int) :
    Replies owner userId
      (uploadFile settings (desk.restrict owner userId) userId workspaceProjectId filename upload
        id createdAt)
      (uploadFile settings desk userId workspaceProjectId filename upload id createdAt) := by
  have fresh : (desk.restrict owner userId).files.any (·.id == id) =
      desk.files.any (·.id == id) :=
    any_filter fun row listed named => by
      rw [← separated.files row listed, beq_iff_eq.mp named, drawn, beq_self_eq_true]
  rw [Workspaces.uploadFile, Workspaces.uploadFile, getWorkspace_restrict]
  cases found : desk.getWorkspace workspaceProjectId userId with
  | none => exact .refuse ..
  | some row =>
      have own := separated.owner_of_getWorkspace found
      dsimp only
      rw [listFiles_restrict own, totalBytes_restrict own, fresh]
      split
      · exact .refuse ..
      · split
        · exact .refuse ..
        · split
          · exact .refuse ..
          · split
            · exact .refuse ..
            · exact .write _ own (drawn.trans own.symm)

theorem Separated.deleteFile (separated : Separated owner desk) (workspaceProjectId id : Nat) :
    Replies owner userId (deleteFile (desk.restrict owner userId) userId workspaceProjectId id)
      (deleteFile desk userId workspaceProjectId id) := by
  rw [Workspaces.deleteFile, Workspaces.deleteFile, getWorkspace_restrict]
  cases found : desk.getWorkspace workspaceProjectId userId with
  | none => exact .refuse ..
  | some row =>
      have own := separated.owner_of_getWorkspace found
      dsimp only
      rw [listFiles_restrict own]
      split
      · exact .write _ own trivial
      · exact .refuse ..

theorem patch_replies (defaultAssistantMode : Option AssistantMode)
    (notificationsEnabled : Option Bool) (codeDefaults : Option Json) :
    Replies owner userId
      (patch (desk.restrict owner userId) userId defaultAssistantMode notificationsEnabled
        codeDefaults)
      (patch desk userId defaultAssistantMode notificationsEnabled codeDefaults) := by
  rw [patch, patch, preferences_restrict]
  exact .write _ rfl trivial

theorem Separated.renameOrPin (separated : Separated owner desk) (sessionId : Nat)
    (title : Option (List Nat)) (setTitle : Bool) (isPinned : Option Bool)
    (setWorkspaceProjectId : Bool) (workspaceProjectId : Option Nat) (now : Int) :
    Replies owner userId
      (renameOrPin (desk.restrict owner userId) userId sessionId title setTitle isPinned
        setWorkspaceProjectId workspaceProjectId now)
      (renameOrPin desk userId sessionId title setTitle isPinned setWorkspaceProjectId
        workspaceProjectId now) := by
  rw [Workspaces.renameOrPin, Workspaces.renameOrPin, getSession_restrict]
  cases found : desk.getSession sessionId userId with
  | none => exact .refuse ..
  | some session =>
      have own := separated.owner_of_getSession found
      simp only [getWorkspace_restrict]
      split
      next => exact .refuse ..
      next known =>
        refine .write _ own fun bound binds => ?_
        rw [own]
        split at binds
        next sets =>
          rw [sets, Bool.true_and, Bool.not_eq_true', Bool.not_eq_false, binds,
            Option.all_some] at known
          obtain ⟨workspace, there⟩ := Option.isSome_iff_exists.mp known
          exact separated.owner_of_getWorkspace there
        next =>
          have named := List.find?_some found
          rw [Bool.and_eq_true, beq_iff_eq, beq_iff_eq] at named
          rw [separated.bound session (List.mem_of_find?_eq_some found) bound binds, named.2]

theorem Separated.deleteChat (separated : Separated owner desk) (sessionId : Nat) :
    Replies owner userId (deleteChat (desk.restrict owner userId) userId sessionId)
      (deleteChat desk userId sessionId) := by
  rw [Workspaces.deleteChat, Workspaces.deleteChat, getSession_restrict]
  cases found : desk.getSession sessionId userId with
  | none => exact .refuse ..
  | some row => exact .write _ (separated.owner_of_getSession found) trivial

theorem Separated.owner_of_resumed (separated : Separated owner desk) {sessionId : Option Nat}
    {now : Int} {session : ChatSession}
    (found : resumed settings desk userId sessionId now = some session) :
    owner session.id = userId := by
  obtain ⟨found, -⟩ := Option.filter_eq_some_iff.mp found
  obtain ⟨id, -, found⟩ := Option.bind_eq_some_iff.mp found
  have named := List.find?_some found
  rw [Bool.and_eq_true, beq_iff_eq, beq_iff_eq] at named
  rw [separated.sessions session (List.mem_of_find?_eq_some found), named.2]

/-- A turn writes what it saves of its chat, and what it leaves of its user. -/
theorem Replies.turn {sessionId : Nat} {attempt : Chat.Attempt} {saved : List Statement}
    (opening : Opening) (endedAt : Int) (own : owner sessionId = userId)
    (owned : ∀ statement ∈ saved, statement.owner owner = userId)
    (coherent : ∀ statement ∈ saved, statement.Coherent owner) :
    Replies owner userId (answerTurn userId sessionId opening attempt endedAt saved)
      (answerTurn userId sessionId opening attempt endedAt saved) := by
  refine ⟨rfl, fun statement listed => ?_, fun statement listed => ?_⟩
  · obtain listed | touches := List.mem_append.mp listed
    · obtain listed | saves := List.mem_append.mp listed
      · exact owned statement listed
      · rw [List.mem_singleton.mp saves]
        rfl
    · split at touches
      · rw [List.mem_singleton.mp touches]
        exact own
      · exact absurd touches List.not_mem_nil
  · obtain listed | touches := List.mem_append.mp listed
    · obtain listed | saves := List.mem_append.mp listed
      · exact coherent statement listed
      · rw [List.mem_singleton.mp saves]
        trivial
    · split at touches
      · rw [List.mem_singleton.mp touches]
        trivial
      · exact absurd touches List.not_mem_nil

theorem Separated.run (separated : Separated owner desk) {request : RunRequest}
    (drawn : owner request.newId = userId) :
    Replies owner userId (run settings (desk.restrict owner userId) userId request)
      (run settings desk userId request) := by
  have fresh : (desk.restrict owner userId).sessions.any (·.id == request.newId) =
      desk.sessions.any (·.id == request.newId) :=
    any_filter fun row listed named => by
      rw [← separated.sessions row listed, beq_iff_eq.mp named, drawn, beq_self_eq_true]
  have same : Workspaces.run settings (desk.restrict owner userId) userId request =
      Workspaces.run settings desk userId request := by
    rw [Workspaces.run, Workspaces.run]
    simp only [willCreateSession, resumed_restrict, getWorkspace_restrict, fresh,
      getDefaultAssistantMode_restrict, continuedPrompt_restrict, separated.opened_restrict,
      world_restrict]
    rfl
  rw [same, Workspaces.run]
  dsimp only
  split
  · exact .refuse ..
  split
  · exact .refuse ..
  next known =>
    split
    next session found =>
      split
      · exact .refuse ..
      split
      · exact .refuse ..
      · have own := separated.owner_of_resumed found
        exact .turn _ _ own (List.forall_mem_singleton.mpr own)
          (List.forall_mem_singleton.mpr trivial)
    next =>
      split
      · exact .refuse ..
      split
      · exact .refuse ..
      split
      · exact .refuse ..
      · refine .turn _ _ drawn ?_ ?_
        · split
          · exact List.forall_mem_nil _
          · exact List.forall_mem_singleton.mpr rfl
        · split
          · exact List.forall_mem_nil _
          · refine List.forall_mem_singleton.mpr ⟨drawn, fun id binds => ?_⟩
            simp only [ChatSession.keep, RunRequest.session] at binds
            split at binds
            next creates =>
              rw [creates, Bool.true_and, Bool.not_eq_true', Bool.not_eq_false, binds,
                Option.all_some] at known
              obtain ⟨workspace, there⟩ := Option.isSome_iff_exists.mp known
              exact separated.owner_of_getWorkspace there
            next => cases binds

theorem Separated.toolResult (separated : Separated owner desk) (request : ResultsRequest) :
    Replies owner userId (toolResult settings (desk.restrict owner userId) userId request)
      (toolResult settings desk userId request) := by
  rw [Workspaces.toolResult, Workspaces.toolResult, getSession_restrict]
  split
  · exact .refuse ..
  cases found : desk.getSession request.sessionId userId with
  | none => exact .refuse ..
  | some session =>
      have own := separated.owner_of_getSession found
      have known : request.known (desk.restrict owner userId) = request.known desk := by
        rw [ResultsRequest.known, ResultsRequest.known]
        congr 1
        funext item
        exact separated.any_getToolCall_restrict own item.1
      simp only [known, world_restrict, continuedPrompt_restrict]
      split
      · split <;> exact .refuse ..
      · have named := List.find?_some found
        rw [Bool.and_eq_true, beq_iff_eq, beq_iff_eq] at named
        rw [← named.1] at own
        exact .turn _ _ own (List.forall_mem_singleton.mpr own)
          (List.forall_mem_singleton.mpr trivial)

/-- What a request answers and writes is decided by its user's rows. -/
theorem Separated.reply (separated : Separated owner desk) {ask : Ask}
    (within : ask.Within owner userId) :
    Replies owner userId (reply settings (desk.restrict owner userId) userId ask)
      (reply settings desk userId ask) := by
  cases ask with
  | createWorkspace id name description instructions createdAt =>
      exact separated.createWorkspace within name description instructions createdAt
  | update id name setDescription description setInstructions instructions now =>
      exact separated.update id name setDescription description setInstructions instructions now
  | delete id => exact separated.delete id
  | getDetail id => exact separated.getDetail id
  | uploadFile workspaceProjectId filename upload id createdAt =>
      exact separated.uploadFile workspaceProjectId filename upload within createdAt
  | deleteFile workspaceProjectId id => exact separated.deleteFile workspaceProjectId id
  | patch defaultAssistantMode notificationsEnabled codeDefaults =>
      exact patch_replies defaultAssistantMode notificationsEnabled codeDefaults
  | renameOrPin sessionId title setTitle isPinned setWorkspaceProjectId workspaceProjectId now =>
      exact separated.renameOrPin sessionId title setTitle isPinned setWorkspaceProjectId
        workspaceProjectId now
  | deleteChat sessionId => exact separated.deleteChat sessionId
  | run request => exact separated.run within
  | toolResult request => exact separated.toolResult request
  | elsewhere trialUsed account => exact .write _ rfl trivial

end Requests

/-! ## Runs -/

section Serve

variable {settings : DeskSettings} {statements : List Statement}

theorem Separated.foldl_exec (separated : Separated owner desk)
    (coherent : ∀ statement ∈ statements, statement.Coherent owner) :
    Separated owner (statements.foldl Desk.exec desk) := by
  induction statements generalizing desk with
  | nil => exact separated
  | cons statement later induction =>
      obtain ⟨first, rest⟩ := List.forall_mem_cons.mp coherent
      exact induction (separated.exec first) rest

theorem restrict_foldl_own (owned : ∀ statement ∈ statements, statement.owner owner = userId) :
    (statements.foldl Desk.exec desk).restrict owner userId =
      statements.foldl Desk.exec (desk.restrict owner userId) := by
  induction statements generalizing desk with
  | nil => rfl
  | cons statement later induction =>
      obtain ⟨first, rest⟩ := List.forall_mem_cons.mp owned
      rw [List.foldl_cons, induction rest, restrict_exec_own first, List.foldl_cons]

theorem Separated.restrict_foldl_foreign {other : UserId} (separated : Separated owner desk)
    (owned : ∀ statement ∈ statements, statement.owner owner = other)
    (coherent : ∀ statement ∈ statements, statement.Coherent owner) (apart : other ≠ userId) :
    (statements.foldl Desk.exec desk).restrict owner userId = desk.restrict owner userId := by
  induction statements generalizing desk with
  | nil => rfl
  | cons statement later induction =>
      obtain ⟨first, rest⟩ := List.forall_mem_cons.mp owned
      obtain ⟨first_coherent, rest_coherent⟩ := List.forall_mem_cons.mp coherent
      rw [List.foldl_cons, induction (separated.exec first_coherent) rest rest_coherent,
        separated.restrict_exec_foreign (first ▸ apart)]

theorem Separated.serve (separated : Separated owner desk) {client : UserId} {ask : Ask}
    (within : ask.Within owner client) : Separated owner (desk.serve settings (client, ask)) := by
  obtain ⟨workspaces, files, sessions, bound⟩ :=
    separated.foldl_exec (separated.reply within).coherent
  exact ⟨workspaces, files, sessions, bound⟩

/-- A user's own request finds the user's own part of the desk. -/
theorem Separated.restrict_serve_own (separated : Separated owner desk) {ask : Ask}
    (within : ask.Within owner userId) :
    (desk.serve settings (userId, ask)).restrict owner userId =
      (desk.restrict owner userId).serve settings (userId, ask) := by
  have replies := @Separated.reply owner userId desk settings separated ask within
  have part := @restrict_foldl_own owner userId desk _ replies.owned
  rw [Desk.serve, Desk.serve, replies.same]
  dsimp only
  rw [← part]
  simp only [restrict, Desk.mk.injEq, true_and]
  exact filter_concat_of_pos (beq_self_eq_true userId)

/-- A request of somebody else leaves a user's part of the desk alone. -/
theorem Separated.restrict_serve_foreign (separated : Separated owner desk) {client : UserId}
    {ask : Ask} (within : ask.Within owner client) (apart : client ≠ userId) :
    (desk.serve settings (client, ask)).restrict owner userId = desk.restrict owner userId := by
  have replies := @Separated.reply owner client desk settings separated ask within
  have part := separated.restrict_foldl_foreign replies.owned replies.coherent apart
  rw [← part, Desk.serve]
  simp only [restrict, Desk.mk.injEq, true_and]
  exact filter_concat_of_neg fun own => apart (beq_iff_eq.mp own)

/-- A user's part of the desk, and the requests of the user. -/
def observer (settings : DeskSettings) (owner : Nat → UserId) (userId : UserId) :
    Observer (Desk.serve settings) where
  restrict := restrict owner userId
  concerns request := request.1 == userId
  holds := Separated owner
  allowed request := request.2.Within owner request.1
  kept desk request separated within := separated.serve within
  own desk request separated within concerned := by
    obtain ⟨client, ask⟩ := request
    obtain rfl := beq_iff_eq.mp concerned
    exact separated.restrict_serve_own within
  foreign desk request separated unconcerned within :=
    separated.restrict_serve_foreign within (beq_eq_false_iff_ne.mp unconcerned)

theorem restrict_empty (owner : Nat → UserId) (userId : UserId) :
    Desk.empty.restrict owner userId = .empty := by
  simp only [restrict, empty, List.filter_nil, ite_self]

theorem separated_empty (owner : Nat → UserId) : Separated owner .empty :=
  ⟨List.forall_mem_nil _, List.forall_mem_nil _, List.forall_mem_nil _, List.forall_mem_nil _⟩

end Serve

end Desk

/-- As long as no UUID is drawn for two users, each user's workspaces, files and chats, and all that
the user is told and the user's turns hand to the model, are what they would be if nobody else had
ever asked for anything. -/
theorem users_keep_apart (settings : DeskSettings) (owner : Nat → UserId)
    (requests : List (UserId × Ask))
    (within : ∀ request ∈ requests, request.2.Within owner request.1) (userId : UserId) :
    (serveAll settings .empty requests).restrict owner userId =
      serveAll settings .empty (requests.filter (·.1 == userId)) := by
  have restricted := (Desk.observer settings owner userId).restrict_foldl requests
    (Desk.separated_empty owner) within
  rw [show (Desk.observer settings owner userId).restrict .empty = .empty from
    Desk.restrict_empty owner userId] at restricted
  exact restricted

namespace Sample

/-- No PDF can be read, and no model can be chosen. -/
def settings : DeskSettings where
  runtime :=
    { depth := 1000
      excess := false
      pypdf := ⟨fun _ => .ok false, fun _ => .ok 0, fun _ => .ok []⟩ }
  attachments := {}
  allowedModels := []
  chat _ _ := Chat.Sample.settings
  provider := .anthropic

/-- A turn of a session, or the first one of a new session, which is answered at once. -/
def turn (sessionId : Option Nat) (workspaceProjectId : Option Nat) (newId : Nat) : RunRequest where
  projectId := none
  sessionId := sessionId
  mode := .byok
  assistantMode := none
  model := none
  workspaceProjectId := workspaceProjectId
  title := none
  text := Encoding.codes "hello"
  attachments := []
  editMessageStepId := none
  newId := newId
  createdAt := 0
  checkedAt := 1
  openedAt := 2
  endedAt := 3
  near := Chat.Sample.near Chat.Sample.finalText

/-- The first ten UUIDs are drawn for the first user. -/
def drawnFor (id : Nat) : UserId := if id < 10 then ⟨1⟩ else ⟨2⟩

/-- The first user chats in a workspace, and another user tries to read it, to chat in it, to edit
its chat, to answer for its tools, to take it away and to delete the workspace. -/
def requests : List (UserId × Ask) :=
  [(⟨1⟩, .createWorkspace 1 (Encoding.codes "notes") none (some (Encoding.codes "be brief")) 0),
    (⟨1⟩, .run (turn none (some 1) 2)),
    (⟨2⟩, .getDetail 1),
    (⟨2⟩, .run (turn none (some 1) 12)),
    (⟨2⟩, .run { turn (some 2) none 13 with editMessageStepId := some ⟨2, 0⟩ }),
    (⟨2⟩, .run (turn none none 14)),
    (⟨2⟩, .toolResult ⟨14, [(⟨2, 2⟩, some (.obj []), none)], 4, (turn none none 14).near⟩),
    (⟨2⟩, .renameOrPin 2 none true none true none 4),
    (⟨2⟩, .delete 1),
    (⟨1⟩, .run (turn (some 2) none 4))]

/-- The turns of the first user are the same without the other one, and so are their answers. -/
theorem first_alone :
    (serveAll settings .empty requests).restrict drawnFor ⟨1⟩ =
        serveAll settings .empty
          [(⟨1⟩, .createWorkspace 1 (Encoding.codes "notes") none
              (some (Encoding.codes "be brief")) 0),
            (⟨1⟩, .run (turn none (some 1) 2)),
            (⟨1⟩, .run (turn (some 2) none 4))] := by
  refine (users_keep_apart settings drawnFor requests ?_ ⟨1⟩).trans rfl
  intro request listed
  simp only [requests, List.mem_cons, List.not_mem_nil, or_false] at listed
  rcases listed with rfl | rfl | rfl | rfl | rfl | rfl | rfl | rfl | rfl | rfl <;>
    first | rfl | trivial

end Sample

end Hermes.Workspaces
