import Hermes.Library.Base64
import Hermes.Library.Integer
import Hermes.Library.IsoFormat
import Hermes.Library.Keyset
import Hermes.Library.Like
import Hermes.Library.Splitting
import Hermes.Library.Uuid

/-!
# The list of chats, page by page

Chats are listed pinned ones first, then by their last change and their id.  The cursor of a page is
the key of its last row as a text; the condition for the rows behind it is the order of the list
spelled out.
-/

namespace Hermes.Chats

open Encoding (codes)

abbrev RowId := Fin (2 ^ 128)

/-- A moment `datetime` has, in microseconds since 1970. -/
abbrev Moment := { moment : Int // Calendar.Representable moment }

/-! ## Cursors -/

/-- `base64.urlsafe_b64encode` of an ASCII text. -/
def sealText (raw : List Char) : List Nat :=
  Base64.urlsafeEncode (Encoding.encode (String.ofList raw))

/-- `base64.urlsafe_b64decode`, and the text in UTF-8; `none` is one of the exceptions caught. -/
def openText (value : List Nat) : Option (List Char) := do
  if value.all (fun code => decide (code < 0x80)) then
    let bytes ← Base64.urlsafeDecode value
    let text ← Encoding.utf8 false bytes
    return text.map Char.ofNat
  else none

/-- `datetime.fromisoformat` of one part and `uuid.UUID` of the other. -/
def readTail (updated id : List Char) : Option (Int × Nat) := do
  let moment ← Calendar.readMoment updated
  let number ← Uuid.ofText id
  return (moment, number)

/-- `ChatCursor`. -/
structure ChatCursor where
  isPinned : Bool
  updatedAt : Int
  id : Nat
  deriving DecidableEq, Repr

namespace ChatCursor

def raw (cursor : ChatCursor) : List Char :=
  (if cursor.isPinned then '1' else '0') :: '|' ::
    (Calendar.isoformat cursor.updatedAt ++ '|' :: Uuid.toText cursor.id)

/-- `ChatCursor.encode`. -/
def encode (cursor : ChatCursor) : List Nat := sealText cursor.raw

/-- `ChatCursor.decode`; `none` is an `InvalidCursorError`. -/
def decode (value : List Nat) : Option ChatCursor := do
  let raw ← openText value
  let (pinned, rest) ← Splitting.splitOnce ['|'] raw
  let (updated, id) ← Splitting.splitOnce ['|'] rest
  let (updatedAt, number) ← readTail updated id
  let flag ← Integer.ofCodes (pinned.map Char.toNat)
  return ⟨decide (flag ≠ 0), updatedAt, number⟩

end ChatCursor

/-! ## The list -/

/-- A `chat_sessions` row, with the texts of its user steps. -/
structure ChatRow where
  id : RowId
  userId : RowId
  title : Option String
  isPinned : Bool
  updatedAt : Moment
  workspaceProjectId : Option RowId
  /-- `payload['content'][0]['text']` of each user step. -/
  userTexts : List String
  deriving DecidableEq

/-- The chats at some time, each under its own id. -/
structure ChatTable where
  rows : List ChatRow
  keyed : (rows.map (·.id)).Nodup
  /-- `_preview`. -/
  preview : RowId → Option String

/-- The arguments of `list_chats` which stay the same from page to page. -/
structure ChatRequest where
  userId : RowId
  query : Option String
  workspaceProjectId : Option RowId
  limit : Nat
  /-- Lower case in the collation of the database, for `ILIKE`. -/
  lower : List Char → List Char

variable (request : ChatRequest)

/-- `ILIKE '%query%'`. -/
def ChatRequest.ilike (query text : String) : Bool :=
  Like.like '\\' (request.lower ('%' :: query.toList ++ ['%'])) (request.lower text.toList)

/-- The clauses of the statement before the one for the cursor. -/
def ChatRequest.admits (row : ChatRow) : Bool :=
  row.userId == request.userId &&
    (request.workspaceProjectId.all fun project => row.workspaceProjectId == some project) &&
    match request.query with
    | none => true
    | some query =>
        query == "" || row.title.any (request.ilike query) ||
          row.userTexts.any (request.ilike query)

def ChatCursor.after (cursor : ChatCursor) (row : ChatRow) : Bool :=
  decide (row.isPinned.toNat < cursor.isPinned.toNat) ||
    (row.isPinned.toNat == cursor.isPinned.toNat &&
      decide (row.updatedAt.val < cursor.updatedAt)) ||
    (row.isPinned.toNat == cursor.isPinned.toNat && row.updatedAt.val == cursor.updatedAt &&
      decide (row.id.val < cursor.id))

/-- The columns of `ORDER BY`. -/
abbrev ChatKey := Bool ×ₗ Moment ×ₗ RowId

def ChatRow.order (row : ChatRow) : ChatKey := toLex (row.isPinned, toLex (row.updatedAt, row.id))

/-- `ChatListItem`. -/
structure ChatListItem where
  session : ChatRow
  preview : Option String
  deriving DecidableEq

def ChatTable.item (table : ChatTable) (row : ChatRow) : ChatListItem := ⟨row, table.preview row.id⟩

def ChatRow.cursor (row : ChatRow) : ChatCursor := ⟨row.isPinned, row.updatedAt.val, row.id.val⟩

/-- `ChatsRepository.list_chats`. -/
def listChats (cursor : Option ChatCursor) (table : ChatTable) :
    Keyset.Page ChatListItem (List Nat) :=
  let rows := (Offset.byKey ChatRow.order (table.rows.filter fun row =>
    request.admits row && cursor.all fun cursor => cursor.after row)).take (request.limit + 1)
  let pageRows := rows.take request.limit
  { items := pageRows.map table.item
    next := if request.limit < rows.length then
      pageRows.getLast?.map fun last => last.cursor.encode else none }

/-- `ChatsService.list_chats`; `none` is a `ValidationFailedError`. -/
def readChats (cursor : Option (List Nat)) (table : ChatTable) :
    Option (Keyset.Page ChatListItem (List Nat)) :=
  match cursor with
  | none => some (listChats request none table)
  | some [] => some (listChats request none table)
  | some value => (ChatCursor.decode value).map fun cursor => listChats request (some cursor) table

def ChatTable.selected (table : ChatTable) : List ChatRow := table.rows.filter request.admits

/-! ## Decoding what was encoded -/

section Sealed

theorem sealText_ascii (raw : List Char) : ∀ code ∈ sealText raw, code < 0x80 := by
  intro code listed
  obtain ⟨letter, letterIn, rfl⟩ := List.mem_map.mp listed
  have small := Base64.encode_lt letterIn
  unfold Base64.toUrl
  split
  · decide
  · split
    · decide
    · exact small

theorem openText_sealText {raw : List Char} (ascii : ∀ char ∈ raw, char.toNat < 0x80) :
    openText (sealText raw) = some raw := by
  have codes_eq : codes (String.ofList raw) = raw.map Char.toNat := by
    rw [codes, String.toList_ofList]
  have small : ∀ code ∈ codes (String.ofList raw), code < 0x80 := by
    rw [codes_eq]
    intro code listed
    obtain ⟨char, charIn, rfl⟩ := List.mem_map.mp listed
    exact ascii char charIn
  have letters : (sealText raw).all (fun code => decide (code < 0x80)) = true := by
    simpa using sealText_ascii raw
  have chars : (raw.map Char.toNat).map Char.ofNat = raw := by
    rw [List.map_map]
    exact (List.map_congr_left fun char _ => Char.ofNat_toNat char).trans (List.map_id raw)
  rw [openText, if_pos letters, sealText, Base64.urlsafeDecode_urlsafeEncode, Option.bind_eq_bind,
    Option.bind_some, Encoding.utf8_encode_ascii small, codes_eq]
  exact congrArg some chars

/-- The first bar divides what stands before it from the rest. -/
theorem splitOnce_bar {front : List Char} (absent : '|' ∉ front) (rest : List Char) :
    Splitting.splitOnce ['|'] (front ++ '|' :: rest) = some (front, rest) := by
  induction front with
  | nil => rfl
  | cons char front induction =>
      rw [List.mem_cons, not_or] at absent
      have elsewhere : ¬ List.isPrefixOf ['|'] (char :: (front ++ '|' :: rest)) = true := by
        simp [List.isPrefixOf, absent.1]
      rw [List.cons_append, Splitting.splitOnce, if_neg elsewhere, induction absent.2]
      rfl

theorem bar_notMem_isoformat (moment : Int) : '|' ∉ Calendar.isoformat moment :=
  Calendar.notMem_isoformat (by decide) (by decide) moment

theorem toText_ascii {number : Nat} : ∀ char ∈ Uuid.toText number, char.toNat < 0x80 := by
  intro char listed
  rcases Uuid.mem_toText listed with rfl | ⟨value, small, rfl⟩
  · decide
  · have table : ∀ value < 16, (Nat.digitChar value).toNat < 0x80 := by decide
    exact table value small

theorem readTail_written {moment : Int} (fits : Calendar.Representable moment) (id : RowId) :
    readTail (Calendar.isoformat moment) (Uuid.toText id.val) = some (moment, id.val) := by
  rw [readTail, Calendar.readMoment_isoformat fits,
    Uuid.ofText_toText id.isLt (Uuid.lower_toText id.val)]
  rfl

theorem readFlag (isPinned : Bool) :
    Integer.ofCodes ([if isPinned then '1' else '0'].map Char.toNat) =
      some (if isPinned then 1 else 0) := by
  cases isPinned <;> rfl

theorem ChatCursor.decode_encode (isPinned : Bool) {moment : Int}
    (fits : Calendar.Representable moment) (id : RowId) :
    decode (encode ⟨isPinned, moment, id.val⟩) = some ⟨isPinned, moment, id.val⟩ := by
  have ascii : ∀ char ∈ raw ⟨isPinned, moment, id.val⟩, char.toNat < 0x80 := by
    intro char listed
    simp only [raw, List.mem_cons, List.mem_append] at listed
    rcases listed with flag | rfl | written | rfl | digits
    · subst flag
      split <;> decide
    · decide
    · exact Calendar.isoformat_ascii char written
    · decide
    · exact toText_ascii char digits
  have flag : Splitting.splitOnce ['|'] (raw ⟨isPinned, moment, id.val⟩) =
      some ([if isPinned then '1' else '0'],
        Calendar.isoformat moment ++ '|' :: Uuid.toText id.val) := by
    apply @splitOnce_bar [if isPinned then '1' else '0']
    cases isPinned <;> decide
  rw [decode, encode, openText_sealText ascii]
  simp only [Option.bind_eq_bind, Option.bind_some, flag,
    splitOnce_bar (bar_notMem_isoformat moment), readTail_written fits id, readFlag]
  cases isPinned <;> rfl

end Sealed

/-! ## The order of the list -/

section Order

variable {request : ChatRequest}

def keyCursor (key : ChatKey) : ChatCursor :=
  ⟨(ofLex key).1, (ofLex (ofLex key).2).1.val, (ofLex (ofLex key).2).2.val⟩

def keyText (key : ChatKey) : List Nat := (keyCursor key).encode

theorem keyCursor_order (row : ChatRow) : keyCursor row.order = row.cursor := rfl

/-- The condition of the statement is the order of the list. -/
theorem after_keyCursor (key : ChatKey) (row : ChatRow) :
    (keyCursor key).after row = Keyset.behind ChatRow.order (some key) row := by
  apply Bool.eq_iff_iff.mpr
  simp only [ChatCursor.after, Keyset.behind, Bool.or_eq_true, Bool.and_eq_true,
    decide_eq_true_eq, beq_iff_eq, Option.all_some]
  simp only [keyCursor, ChatRow.order, Prod.Lex.lt_iff, ofLex_toLex, Subtype.ext_iff, Fin.lt_def]
  have pinned_lt : row.isPinned.toNat < (ofLex key).1.toNat ↔ row.isPinned < (ofLex key).1 := by
    cases row.isPinned <;> cases (ofLex key).1 <;> decide
  have pinned_eq : row.isPinned.toNat = (ofLex key).1.toNat ↔ row.isPinned = (ofLex key).1 := by
    cases row.isPinned <;> cases (ofLex key).1 <;> decide
  rw [pinned_lt, pinned_eq, Subtype.coe_lt_coe]
  tauto

theorem order_id {first second : ChatRow} (same : first.order = second.order) :
    first.id = second.id :=
  congrArg (fun key : ChatKey => (ofLex (ofLex key).2).2) same

theorem selected_distinct (table : ChatTable) :
    ((table.selected request).map ChatRow.order).Nodup := by
  have ids : ((table.selected request).map (·.id)).Nodup :=
    table.keyed.sublist (List.filter_sublist.map _)
  rw [List.Nodup, List.pairwise_map] at ids ⊢
  exact ids.imp fun apart same => apart (order_id same)

/-- A page holds the rows of the page by keys, and the text of its key. -/
theorem listChats_eq {cursor : Option ChatCursor} {key : Option ChatKey} {table : ChatTable}
    (same : ∀ row, (cursor.all fun cursor => cursor.after row) =
      Keyset.behind ChatRow.order key row) :
    (listChats request cursor table).map ChatListItem.session id =
      (Keyset.page ChatRow.order request.limit key (table.selected request)).map id keyText := by
  have rows : (table.rows.filter fun row =>
      request.admits row && cursor.all fun cursor => cursor.after row) =
        (table.selected request).filter (Keyset.behind ChatRow.order key) := by
    rw [ChatTable.selected, List.filter_filter]
    apply List.filter_congr
    intro row _
    rw [same, Bool.and_comm]
  have forget : ChatListItem.session ∘ table.item = id := rfl
  have texts : keyText ∘ ChatRow.order = fun row => row.cursor.encode := by
    funext row
    rw [Function.comp_apply, keyText, keyCursor_order]
  rw [listChats, rows, Keyset.page, Keyset.Page.map, Keyset.Page.map, List.map_map, forget,
    List.map_id, Option.map_id]
  congr 1
  · simp only [id_eq]
    split
    · rw [Option.map_map, texts]
    · rfl

theorem decode_keyText (key : ChatKey) : ChatCursor.decode (keyText key) = some (keyCursor key) :=
  ChatCursor.decode_encode (ofLex key).1 (ofLex (ofLex key).2).1.property (ofLex (ofLex key).2).2

theorem keyText_ne_nil (key : ChatKey) : keyText key ≠ [] := by
  intro empty
  have read := decode_keyText key
  have refused : ChatCursor.decode [] = none := rfl
  rw [empty, refused] at read
  cases read

theorem readChats_samePages :
    Keyset.SamePages (readChats request) (Keyset.reader ChatRow.order request.limit)
      ChatListItem.session (ChatTable.selected request) keyText := by
  intro cursor table
  cases cursor with
  | none =>
      have page := @listChats_eq request none none table fun _ => rfl
      exact congrArg some page
  | some key =>
      have page :=
        @listChats_eq request (some (keyCursor key)) (some key) table (after_keyCursor key)
      obtain ⟨code, later, shape⟩ := List.exists_cons_of_ne_nil (keyText_ne_nil key)
      have read : readChats request (some (keyText key)) table =
          some (listChats request (some (keyCursor key)) table) := by
        rw [shape]
        change (ChatCursor.decode (code :: later)).map _ = _
        rw [← shape, decode_keyText, Option.map_some]
      rw [Option.map_some, read]
      exact congrArg some page

end Order

/-- Paging through the chats lists every chat once. -/
theorem readChats_listsOnce (request : ChatRequest) (positive : 1 ≤ request.limit) :
    Keyset.ListsOnce (readChats request) ChatListItem.session (ChatTable.selected request)
      ChatRow.order :=
  readChats_samePages.listsOnce positive selected_distinct

end Hermes.Chats
