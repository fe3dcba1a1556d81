import Hermes.Chats.Paging

/-!
# The list of workspaces, page by page

Workspaces are listed by their last change and their id, in the way chats are.  Each comes with the
numbers of its files and chats, which are counted for the whole page at once.
-/

namespace Hermes.Workspaces

open Chats (RowId Moment sealText openText readTail)

/-- `WorkspaceCursor`. -/
structure WorkspaceCursor where
  updatedAt : Int
  id : Nat
  deriving DecidableEq, Repr

namespace WorkspaceCursor

def raw (cursor : WorkspaceCursor) : List Char :=
  Calendar.isoformat cursor.updatedAt ++ '|' :: Uuid.toText cursor.id

/-- `WorkspaceCursor.encode`. -/
def encode (cursor : WorkspaceCursor) : List Nat := sealText cursor.raw

/-- `WorkspaceCursor.decode`; `none` is an `InvalidCursorError`. -/
def decode (value : List Nat) : Option WorkspaceCursor := do
  let raw ← openText value
  let (updated, id) ← Splitting.splitOnce ['|'] raw
  let (updatedAt, number) ← readTail updated id
  return ⟨updatedAt, number⟩

theorem decode_encode {moment : Int} (fits : Calendar.Representable moment) (id : RowId) :
    decode (encode ⟨moment, id.val⟩) = some ⟨moment, id.val⟩ := by
  have ascii : ∀ char ∈ raw ⟨moment, id.val⟩, char.toNat < 0x80 := by
    intro char listed
    simp only [raw, List.mem_cons, List.mem_append] at listed
    rcases listed with written | rfl | digits
    · exact Calendar.isoformat_ascii char written
    · decide
    · exact Chats.toText_ascii char digits
  rw [decode, encode, Chats.openText_sealText ascii]
  simp only [Option.bind_eq_bind, Option.bind_some, raw,
    Chats.splitOnce_bar (Chats.bar_notMem_isoformat moment), Chats.readTail_written fits id]
  rfl

end WorkspaceCursor

/-- A `workspace_projects` row. -/
structure WorkspaceRow where
  id : RowId
  userId : RowId
  name : String
  description : Option String
  instructions : Option String
  updatedAt : Moment
  deriving DecidableEq

/-- The workspaces at some time, each under its own id. -/
structure WorkspaceTable where
  rows : List WorkspaceRow
  keyed : (rows.map (·.id)).Nodup
  /-- `workspace_project_id` of each row of `workspace_files`. -/
  files : List RowId
  /-- `workspace_project_id` of each row of `chat_sessions`. -/
  chats : List (Option RowId)

/-- `WorkspaceListItem`. -/
structure WorkspaceListItem where
  workspace : WorkspaceRow
  fileCount : Nat
  chatCount : Nat
  deriving DecidableEq

/-- The row with what `_file_counts` and `_chat_counts` say about it. -/
def WorkspaceTable.item (table : WorkspaceTable) (row : WorkspaceRow) : WorkspaceListItem :=
  ⟨row, table.files.count row.id, table.chats.count (some row.id)⟩

def WorkspaceCursor.after (cursor : WorkspaceCursor) (row : WorkspaceRow) : Bool :=
  decide (row.updatedAt.val < cursor.updatedAt) ||
    (row.updatedAt.val == cursor.updatedAt && decide (row.id.val < cursor.id))

/-- The columns of `ORDER BY`. -/
abbrev WorkspaceKey := Moment ×ₗ RowId

def WorkspaceRow.order (row : WorkspaceRow) : WorkspaceKey := toLex (row.updatedAt, row.id)

def WorkspaceRow.cursor (row : WorkspaceRow) : WorkspaceCursor := ⟨row.updatedAt.val, row.id.val⟩

/-- The arguments of `list_workspaces` which stay the same from page to page. -/
structure WorkspaceRequest where
  userId : RowId
  limit : Nat

variable (request : WorkspaceRequest)

def WorkspaceRequest.admits (row : WorkspaceRow) : Bool := row.userId == request.userId

/-- `WorkspacesRepository.list_workspaces`. -/
def listWorkspaces (cursor : Option WorkspaceCursor) (table : WorkspaceTable) :
    Keyset.Page WorkspaceListItem (List Nat) :=
  let rows := (Offset.byKey WorkspaceRow.order (table.rows.filter fun row =>
    request.admits row && cursor.all fun cursor => cursor.after row)).take (request.limit + 1)
  let pageRows := rows.take request.limit
  { items := pageRows.map table.item
    next := if request.limit < rows.length then
      pageRows.getLast?.map fun last => last.cursor.encode else none }

/-- `WorkspacesService.list_workspaces`; `none` is a `ValidationFailedError`. -/
def readWorkspaces (cursor : Option (List Nat)) (table : WorkspaceTable) :
    Option (Keyset.Page WorkspaceListItem (List Nat)) :=
  match cursor with
  | none => some (listWorkspaces request none table)
  | some [] => some (listWorkspaces request none table)
  | some value =>
      (WorkspaceCursor.decode value).map fun cursor => listWorkspaces request (some cursor) table

def WorkspaceTable.selected (table : WorkspaceTable) : List WorkspaceRow :=
  table.rows.filter request.admits

section Order

variable {request : WorkspaceRequest}

def keyCursor (key : WorkspaceKey) : WorkspaceCursor := ⟨(ofLex key).1.val, (ofLex key).2.val⟩

def keyText (key : WorkspaceKey) : List Nat := (keyCursor key).encode

theorem keyCursor_order (row : WorkspaceRow) : keyCursor row.order = row.cursor := rfl

theorem after_keyCursor (key : WorkspaceKey) (row : WorkspaceRow) :
    (keyCursor key).after row = Keyset.behind WorkspaceRow.order (some key) row := by
  apply Bool.eq_iff_iff.mpr
  simp only [WorkspaceCursor.after, Keyset.behind, Bool.or_eq_true, Bool.and_eq_true,
    decide_eq_true_eq, beq_iff_eq, Option.all_some]
  simp only [keyCursor, WorkspaceRow.order, Prod.Lex.lt_iff, ofLex_toLex, Subtype.ext_iff,
    Fin.lt_def]
  rw [Subtype.coe_lt_coe]

theorem order_id {first second : WorkspaceRow} (same : first.order = second.order) :
    first.id = second.id :=
  congrArg (fun key : WorkspaceKey => (ofLex key).2) same

theorem selected_distinct (table : WorkspaceTable) :
    ((table.selected request).map WorkspaceRow.order).Nodup := by
  have ids : ((table.selected request).map (·.id)).Nodup :=
    table.keyed.sublist (List.filter_sublist.map _)
  rw [List.Nodup, List.pairwise_map] at ids ⊢
  exact ids.imp fun apart same => apart (order_id same)

/-- A page holds the rows of the page by keys, and the text of its key. -/
theorem listWorkspaces_eq {cursor : Option WorkspaceCursor} {key : Option WorkspaceKey}
    {table : WorkspaceTable} (same : ∀ row, (cursor.all fun cursor => cursor.after row) =
      Keyset.behind WorkspaceRow.order key row) :
    (listWorkspaces request cursor table).map WorkspaceListItem.workspace id =
      (Keyset.page WorkspaceRow.order request.limit key (table.selected request)).map id
        keyText := by
  have rows : (table.rows.filter fun row =>
      request.admits row && cursor.all fun cursor => cursor.after row) =
        (table.selected request).filter (Keyset.behind WorkspaceRow.order key) := by
    rw [WorkspaceTable.selected, List.filter_filter]
    apply List.filter_congr
    intro row _
    rw [same, Bool.and_comm]
  have forget : WorkspaceListItem.workspace ∘ table.item = id := rfl
  have texts : keyText ∘ WorkspaceRow.order = fun row => row.cursor.encode := by
    funext row
    rw [Function.comp_apply, keyText, keyCursor_order]
  rw [listWorkspaces, rows, Keyset.page, Keyset.Page.map, Keyset.Page.map, List.map_map, forget,
    List.map_id, Option.map_id]
  congr 1
  · simp only [id_eq]
    split
    · rw [Option.map_map, texts]
    · rfl

theorem decode_keyText (key : WorkspaceKey) :
    WorkspaceCursor.decode (keyText key) = some (keyCursor key) :=
  WorkspaceCursor.decode_encode (ofLex key).1.property (ofLex key).2

theorem keyText_ne_nil (key : WorkspaceKey) : keyText key ≠ [] := by
  intro empty
  have read := decode_keyText key
  have refused : WorkspaceCursor.decode [] = none := rfl
  rw [empty, refused] at read
  cases read

theorem readWorkspaces_samePages :
    Keyset.SamePages (readWorkspaces request) (Keyset.reader WorkspaceRow.order request.limit)
      WorkspaceListItem.workspace (WorkspaceTable.selected request) keyText := by
  intro cursor table
  cases cursor with
  | none =>
      have page := @listWorkspaces_eq request none none table fun _ => rfl
      exact congrArg some page
  | some key =>
      have page :=
        @listWorkspaces_eq request (some (keyCursor key)) (some key) table (after_keyCursor key)
      obtain ⟨code, later, shape⟩ := List.exists_cons_of_ne_nil (keyText_ne_nil key)
      have read : readWorkspaces request (some (keyText key)) table =
          some (listWorkspaces request (some (keyCursor key)) table) := by
        rw [shape]
        change (WorkspaceCursor.decode (code :: later)).map _ = _
        rw [← shape, decode_keyText, Option.map_some]
      rw [Option.map_some, read]
      exact congrArg some page

end Order

theorem readWorkspaces_listsOnce (request : WorkspaceRequest) (positive : 1 ≤ request.limit) :
    Keyset.ListsOnce (readWorkspaces request) WorkspaceListItem.workspace
      (WorkspaceTable.selected request) WorkspaceRow.order :=
  readWorkspaces_samePages.listsOnce positive selected_distinct

/-- Both lists give every row which stays once and in order, the walk over rows which do not change
ends, and every cursor is read as it was written. -/
theorem paging_lists_once (chats : Chats.ChatRequest) (workspaces : WorkspaceRequest)
    (chatsPositive : 1 ≤ chats.limit) (workspacesPositive : 1 ≤ workspaces.limit) :
    Keyset.ListsOnce (Chats.readChats chats) Chats.ChatListItem.session
        (Chats.ChatTable.selected chats) Chats.ChatRow.order ∧
      (∀ isPinned, ∀ moment : Moment, ∀ id : RowId,
        Chats.ChatCursor.decode (Chats.ChatCursor.encode ⟨isPinned, moment.val, id.val⟩) =
          some ⟨isPinned, moment.val, id.val⟩) ∧
      Keyset.ListsOnce (readWorkspaces workspaces) WorkspaceListItem.workspace
        (WorkspaceTable.selected workspaces) WorkspaceRow.order ∧
      ∀ moment : Moment, ∀ id : RowId,
        WorkspaceCursor.decode (WorkspaceCursor.encode ⟨moment.val, id.val⟩) =
          some ⟨moment.val, id.val⟩ :=
  ⟨Chats.readChats_listsOnce chats chatsPositive,
    fun isPinned moment id => Chats.ChatCursor.decode_encode isPinned moment.property id,
    readWorkspaces_listsOnce workspaces workspacesPositive,
    fun moment id => WorkspaceCursor.decode_encode moment.property id⟩

namespace Sample

/-- The beginning of 1970. -/
def epoch : Moment := ⟨0, by decide⟩

local instance rowIds : NeZero (2 ^ 128) := ⟨by decide⟩

theorem nodup_ids : ([1, 2, 3] : List RowId).Nodup := by decide

/-- Two chats of one moment, and one of another user. -/
def tiedChats : Chats.ChatTable where
  rows := [⟨1, 7, none, false, epoch, none, []⟩, ⟨2, 7, none, false, epoch, none, []⟩,
    ⟨3, 8, none, false, epoch, none, []⟩]
  keyed := nodup_ids
  preview := fun _ => none

/-- Two workspaces of one moment, and one of another user. -/
def tiedWorkspaces : WorkspaceTable where
  rows := [⟨1, 7, "notes", none, none, epoch⟩, ⟨2, 7, "drafts", none, none, epoch⟩,
    ⟨3, 8, "plans", none, none, epoch⟩]
  keyed := nodup_ids
  files := []
  chats := []

/-- Page by page, with one row on each, rows which tie are listed once each. -/
theorem tied_rows_listed_once :
    (∃ count items, Keyset.Walk (Chats.readChats ⟨7, none, none, 1, id⟩) none
        (List.replicate count tiedChats) items ∧
      ∀ row ∈ tiedChats.selected ⟨7, none, none, 1, id⟩,
        (items.map Chats.ChatListItem.session).count row = 1) ∧
      ∃ count items, Keyset.Walk (readWorkspaces ⟨7, 1⟩) none
          (List.replicate count tiedWorkspaces) items ∧
        ∀ row ∈ tiedWorkspaces.selected ⟨7, 1⟩,
          (items.map WorkspaceListItem.workspace).count row = 1 := by
  obtain ⟨chats, -, workspaces, -⟩ :=
    paging_lists_once ⟨7, none, none, 1, id⟩ ⟨7, 1⟩ (by decide) (by decide)
  constructor
  · obtain ⟨count, items, walk⟩ := chats.ends tiedChats
    refine ⟨count, items, walk, fun row listed => chats.once _ _ walk row fun table tableIn => ?_⟩
    rwa [List.eq_of_mem_replicate tableIn]
  · obtain ⟨count, items, walk⟩ := workspaces.ends tiedWorkspaces
    refine ⟨count, items, walk,
      fun row listed => workspaces.once _ _ walk row fun table tableIn => ?_⟩
    rwa [List.eq_of_mem_replicate tableIn]

end Sample

end Hermes.Workspaces
