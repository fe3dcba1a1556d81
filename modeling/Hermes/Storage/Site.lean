import Mathlib
import Hermes.Library.Transition

/-!
# The files of a website

`write_file` and `delete_file` work on the rows of one project, several calls in a transaction and
one statement at a time under `READ COMMITTED`.  The limits are checked against counts and sizes
which were read before the row is written, and nothing checks them again.
-/

namespace Hermes.Storage

/-- A row of `site_files`. -/
structure SiteFile where
  id : Nat
  path : String
  content : List UInt8
  contentType : String
  size : Nat
  deriving DecidableEq, Repr

/-- `SiteFileError`. -/
structure SiteFileError where
  code : String
  message : String
  deriving DecidableEq, Repr

structure FileWrite where
  path : String
  content : List UInt8
  contentType : String
  deriving DecidableEq, Repr

/-- `ProjectStats`. -/
structure ProjectStats where
  fileCount : Nat
  projectBytes : Nat
  deriving DecidableEq, Repr

structure PreviewSettings where
  maxFileBytes : ℤ := 1048576
  maxProjectBytes : ℤ := 10485760
  maxFiles : ℤ := 200
  deriving DecidableEq, Repr

/-- `PREVIEW_CONTENT_TYPE_ALLOWLIST`. -/
def contentTypeAllowlist : List String :=
  ["text/html", "text/css", "text/javascript", "application/json", "image/png", "image/jpeg",
    "image/svg+xml", "image/gif", "image/webp", "font/woff2", "text/plain"]

/-- `normalize_site_path`; an error is the text of its `InvalidPathError`. -/
def normalizeSitePath (raw : String) : Except String String :=
  let text := raw.toList
  if text = [] then .error "path must not be empty"
  else if '\x00' ∈ text then .error "path must not contain NUL"
  else if '\\' ∈ text then .error "path must not contain backslash"
  else if text.head? = some '/' then .error "path must be relative, not absolute"
  else
    let segments := (text.splitOn '/').filter fun segment => segment ≠ [] ∧ segment ≠ ['.']
    if ['.', '.'] ∈ segments then .error "path must not contain '..' traversal"
    else if segments = [] then .error "path resolves to empty"
    else .ok (String.ofList (List.intercalate ['/'] segments))

/-- The checks of `write_file` before its first statement. -/
def validateWrite (settings : PreviewSettings) (path : String) (content : List UInt8)
    (contentType : String) : Except SiteFileError FileWrite :=
  if contentType ∉ contentTypeAllowlist then
    .error ⟨"invalid_content_type", "content_type not allowed: " ++ contentType⟩
  else
    match normalizeSitePath path with
    | .error message => .error ⟨"invalid_path", message⟩
    | .ok normalized =>
        if settings.maxFileBytes < content.length then
          .error ⟨"file_too_large", "file exceeds the per-file size limit"⟩
        else .ok ⟨normalized, content, contentType⟩

/-- `_project_stats`. -/
def projectStats (rows : List SiteFile) : ProjectStats :=
  ⟨rows.length, (rows.map SiteFile.size).sum⟩

/-- The checks of `write_file` against the aggregates. -/
def checkLimits (settings : PreviewSettings) (stats : ProjectStats) (existing : Option SiteFile)
    (size : Nat) : Option SiteFileError :=
  let priorSize : ℤ := (existing.map SiteFile.size).getD 0
  let projectedBytes : ℤ := stats.projectBytes - priorSize + size
  let projectedCount : ℤ := stats.fileCount + if existing.isNone then 1 else 0
  if settings.maxProjectBytes < projectedBytes then
    some ⟨"project_too_large", "project exceeds the total size limit"⟩
  else if settings.maxFiles < projectedCount then
    some ⟨"too_many_files", "project exceeds the maximum number of files"⟩
  else none

/-- What a transaction has done to the rows.  An `UPDATE` sets the columns which differ from the
row as it was loaded. -/
inductive Change
  | insert (row : SiteFile)
  | update (id : Nat) (content : Option (List UInt8)) (contentType : Option String)
      (size : Option Nat)
  | delete (id : Nat)
  deriving DecidableEq, Repr

namespace Change

def apply (rows : List SiteFile) : Change → List SiteFile
  | .insert row => rows ++ [row]
  | .update id content contentType size =>
      rows.map fun row =>
        if row.id = id then
          { row with
            content := content.getD row.content
            contentType := contentType.getD row.contentType
            size := size.getD row.size }
        else row
  | .delete id => rows.filter fun row => row.id ≠ id

/-- A column which is assigned: it is written if its value differs. -/
def column {α : Type} [DecidableEq α] (loaded assigned : α) : Option α :=
  if assigned = loaded then none else some assigned

/-- The assignments to a loaded row, as they are flushed. -/
def replace (loaded : SiteFile) (write : FileWrite) : Change :=
  .update loaded.id (column loaded.content write.content)
    (column loaded.contentType write.contentType) (column loaded.size write.content.length)

/-- The change locks the row until the transaction ends. -/
def locks (id : Nat) : Change → Bool
  | .insert _ => false
  | .update other _ _ _ | .delete other => other == id

def writes : Change → Bool
  | .delete _ => false
  | _ => true

/-- The row which the change inserts or replaces. -/
def concerns (id : Nat) : Change → Bool
  | .insert row => row.id == id
  | .update other _ _ _ => other == id
  | .delete _ => false

end Change

inductive SiteStage
  | idle
  /-- `write_file`: select the row at the path. -/
  | searching (write : FileWrite)
  /-- Count the files and add up their sizes. -/
  | measuring (write : FileWrite) (existing : Option SiteFile)
  /-- The limits are kept: flush the row. -/
  | writing (write : FileWrite) (existing : Option SiteFile)
  /-- Read the statistics for the result. -/
  | reporting (write : FileWrite)
  /-- `delete_file`: select the row at the path. -/
  | locating (path : String)
  /-- Flush the deletion. -/
  | deleting (row : SiteFile)
  /-- Read the statistics for the result. -/
  | counting (deleted : Bool)
  /-- The session is closed. -/
  | ended
  deriving DecidableEq, Repr

inductive SiteOutcome
  | refused (error : SiteFileError)
  | written (path : String) (bytesWritten : Nat) (stats : ProjectStats)
  | deleted (found : Bool) (stats : ProjectStats)
  /-- `IntegrityError` or `StaleDataError`: a server error. -/
  | failed
  deriving DecidableEq, Repr

/-- A session, with what its transaction has done and not committed. -/
structure SiteSession where
  stage : SiteStage := .idle
  work : List Change := []
  outcomes : List SiteOutcome := []
  deriving DecidableEq, Repr

/-- The committed rows of the project, its sessions, the next free id, and what was ever to be
written. -/
structure Site where
  committed : List SiteFile
  sessions : List SiteSession := []
  ids : Nat
  requested : List FileWrite := []
  deriving DecidableEq, Repr

inductive SiteEvent
  | connect
  | write (index : Nat) (path : String) (content : List UInt8) (contentType : String)
  | delete (index : Nat) (path : String)
  /-- A call issues its next statement. -/
  | advance (index : Nat)
  | commit (index : Nat)
  /-- A session is rolled back, as where the database refuses a statement: the `INSERT` of a path
  which the unique index has no room for ends so. -/
  | die (index : Nat)
  deriving DecidableEq, Repr

namespace SiteSession

def view (session : SiteSession) (committed : List SiteFile) : List SiteFile :=
  session.work.foldl Change.apply committed

def finish (session : SiteSession) (outcome : SiteOutcome) : SiteSession :=
  { session with stage := .idle, outcomes := session.outcomes ++ [outcome] }

/-- The call has failed, and its transaction is rolled back. -/
def fail (session : SiteSession) : SiteSession :=
  ⟨.ended, [], session.outcomes ++ [.failed]⟩

def loaded (session : SiteSession) : Option SiteFile :=
  match session.stage with
  | .measuring _ existing | .writing _ existing => existing
  | _ => none

/-- The session has read for a write, or written, and not committed. -/
def amidWrite (session : SiteSession) : Bool :=
  match session.stage with
  | .measuring .. | .writing .. => true
  | _ => session.work.any Change.writes

def concerns (session : SiteSession) (id : Nat) : Bool :=
  session.loaded.any (·.id == id) || session.work.any (Change.concerns id)

end SiteSession

namespace Site

/-- A session as it stands after a statement. -/
def become (site : Site) (index : Nat) (session : SiteSession) : Site :=
  { site with sessions := site.sessions.set index session }

def otherWork (site : Site) (index : Nat) : List Change :=
  site.sessions.zipIdx.flatMap fun (session, position) =>
    if position = index then [] else session.work

def rowLocked (site : Site) (index id : Nat) : Bool :=
  (site.otherWork index).any (Change.locks id)

/-- Another transaction has inserted the path, or deleted it. -/
def pathLocked (site : Site) (index : Nat) (path : String) : Bool :=
  (site.otherWork index).any fun change =>
    match change with
    | .insert row => row.path == path
    | .update .. => false
    | .delete id => site.committed.any fun row => row.id == id && row.path == path

def advance (settings : PreviewSettings) (site : Site) (index : Nat) (session : SiteSession) :
    Option Site :=
  let rows := session.view site.committed
  match session.stage with
  | .idle | .ended => none
  | .searching write =>
      some (site.become index
        { session with stage := .measuring write (rows.find? (·.path == write.path)) })
  | .measuring write existing =>
      match checkLimits settings (projectStats rows) existing write.content.length with
      | some error => some (site.become index (session.finish (.refused error)))
      | none => some (site.become index { session with stage := .writing write existing })
  | .writing write none =>
      if site.pathLocked index write.path then none
      else if rows.any (·.path == write.path) then some (site.become index session.fail)
      else
        some { site.become index
            { session with
              stage := .reporting write
              work := session.work ++
                [.insert ⟨site.ids, write.path, write.content, write.contentType,
                  write.content.length⟩] } with
          ids := site.ids + 1 }
  | .writing write (some row) =>
      if site.rowLocked index row.id then none
      else if rows.any (·.id == row.id) then
        some (site.become index
          { session with
            stage := .reporting write
            work := session.work ++ [.replace row write] })
      else some (site.become index session.fail)
  | .reporting write =>
      some (site.become index
        (session.finish (.written write.path write.content.length (projectStats rows))))
  | .locating path =>
      match rows.find? (·.path == path) with
      | none => some (site.become index { session with stage := .counting false })
      | some row => some (site.become index { session with stage := .deleting row })
  | .deleting row =>
      if site.rowLocked index row.id then none
      else
        some (site.become index
          { session with stage := .counting true, work := session.work ++ [.delete row.id] })
  | .counting deleted =>
      some (site.become index (session.finish (.deleted deleted (projectStats rows))))

def step (settings : PreviewSettings) (site : Site) : SiteEvent → Option Site
  | .connect => some { site with sessions := site.sessions ++ [{}] }
  | .write index path content contentType =>
      (site.sessions[index]?).bind fun session =>
        match session.stage with
        | .idle =>
            match validateWrite settings path content contentType with
            | .error error => some (site.become index (session.finish (.refused error)))
            | .ok write =>
                some { site.become index { session with stage := .searching write } with
                  requested := site.requested ++ [write] }
        | _ => none
  | .delete index path =>
      (site.sessions[index]?).bind fun session =>
        match session.stage with
        | .idle =>
            match normalizeSitePath path with
            | .error message =>
                some (site.become index (session.finish (.refused ⟨"invalid_path", message⟩)))
            | .ok normalized =>
                some (site.become index { session with stage := .locating normalized })
        | _ => none
  | .advance index => (site.sessions[index]?).bind (site.advance settings index)
  | .commit index =>
      (site.sessions[index]?).bind fun session =>
        match session.stage with
        | .idle =>
            some { site.become index { session with work := [] } with
              committed := session.view site.committed }
        | _ => none
  | .die index =>
      (site.sessions[index]?).bind fun session =>
        match session.stage with
        | .ended => none
        | _ => some (site.become index { session with stage := .ended, work := [] })

/-- A commit is orderly unless another session is amid a write.  Deletions are orderly all the same,
if no such write is about a row they delete. -/
def orderly (site : Site) : SiteEvent → Bool
  | .commit index =>
      (site.sessions[index]?).all fun session =>
        site.sessions.zipIdx.all fun (other, position) =>
          position == index || !other.amidWrite ||
            session.work.all fun change =>
              match change with
              | .delete id => !other.concerns id
              | _ => false
  | _ => true

end Site

end Hermes.Storage
