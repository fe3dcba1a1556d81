import Mathlib
import Hermes.Library.Transition

/-!
# The files of a workspace

`upload_file` counts the files, validates the upload, adds up the sizes and inserts a row, each
request in a session of its own.  Nothing counts again when the row is committed.
-/

namespace Hermes.Storage

/-- `ExtractedFile`; `size` is the length of the content. -/
structure ExtractedFile where
  content : List UInt8
  extractedText : Option String
  deriving DecidableEq, Repr

/-- `size`. -/
def ExtractedFile.size (extracted : ExtractedFile) : Nat := extracted.content.length

inductive FileClass
  | image
  | document
  | text
  deriving DecidableEq, Repr

/-- A `WorkspaceFileUploadRequest`. -/
structure WorkspaceFileUploadRequest where
  type : FileClass
  filename : String
  mediaType : String
  data : String
  deriving DecidableEq, Repr

/-- A row of `workspace_files`. -/
structure WorkspaceFile where
  id : Nat
  filename : String
  content : List UInt8
  mediaType : String
  size : Nat
  extractedText : Option String
  deriving DecidableEq, Repr

/-- The limits of a workspace, and how an upload is validated: `validate_and_extract`, or the text
of its `ValidationFailedError` or `PayloadTooLargeError`. -/
structure WorkspaceSettings where
  fileMaxCount : ℤ := 20
  filesTotalBytes : ℤ
  validateAndExtract : WorkspaceFileUploadRequest → Except String ExtractedFile

inductive WorkspaceStage
  /-- `upload_file`: count the files. -/
  | counting (request : WorkspaceFileUploadRequest)
  /-- The upload is valid: add up the sizes. -/
  | totaling (request : WorkspaceFileUploadRequest) (extracted : ExtractedFile)
  /-- The limits are kept: flush the row. -/
  | inserting (request : WorkspaceFileUploadRequest) (extracted : ExtractedFile)
  /-- Commit the row. -/
  | inserted (row : WorkspaceFile)
  /-- `delete_file`: delete the row. -/
  | deleting (id : Nat)
  /-- Commit the deletion. -/
  | deleted (id : Nat) (found : Bool)
  /-- The request was refused, with this text, or has failed. -/
  | refused (message : String)
  | died
  /-- The upload has returned. -/
  | uploaded (row : WorkspaceFile)
  /-- The deletion has returned. -/
  | removed
  deriving DecidableEq, Repr

/-- The committed rows of the workspace, its requests and the next free id. -/
structure Workspace where
  committed : List WorkspaceFile
  requests : List WorkspaceStage := []
  ids : Nat
  deriving DecidableEq, Repr

inductive WorkspaceEvent
  | upload (request : WorkspaceFileUploadRequest)
  | delete (id : Nat)
  /-- A request issues its next statement. -/
  | advance (index : Nat)
  /-- A request is rolled back. -/
  | die (index : Nat)
  deriving DecidableEq, Repr

/-- `total_bytes`. -/
def totalBytes (rows : List WorkspaceFile) : Nat := (rows.map WorkspaceFile.size).sum

/-- The request has counted for an upload and not committed it. -/
def WorkspaceStage.amidUpload : WorkspaceStage → Bool
  | .totaling .. | .inserting .. | .inserted .. => true
  | _ => false

namespace Workspace

/-- A request as it stands after a statement. -/
def become (workspace : Workspace) (index : Nat) (stage : WorkspaceStage) : Workspace :=
  { workspace with requests := workspace.requests.set index stage }

def rowLocked (workspace : Workspace) (id : Nat) : Bool :=
  workspace.requests.any fun stage =>
    match stage with
    | .deleted other true => other == id
    | _ => false

def advance (settings : WorkspaceSettings) (workspace : Workspace) (index : Nat) :
    WorkspaceStage → Option Workspace
  | .counting request =>
      if settings.fileMaxCount ≤ workspace.committed.length then
        some (workspace.become index (.refused "workspace file count limit exceeded"))
      else
        match settings.validateAndExtract request with
        | .error message => some (workspace.become index (.refused message))
        | .ok extracted => some (workspace.become index (.totaling request extracted))
  | .totaling request extracted =>
      if settings.filesTotalBytes < totalBytes workspace.committed + extracted.size then
        some (workspace.become index (.refused "workspace total size limit exceeded"))
      else some (workspace.become index (.inserting request extracted))
  | .inserting request extracted =>
      some { workspace.become index
          (.inserted ⟨workspace.ids, request.filename, extracted.content, request.mediaType,
            extracted.size, extracted.extractedText⟩) with
        ids := workspace.ids + 1 }
  | .inserted row =>
      some { workspace.become index (.uploaded row) with
        committed := workspace.committed ++ [row] }
  | .deleting id =>
      if workspace.rowLocked id then none
      else some (workspace.become index (.deleted id (workspace.committed.any (·.id == id))))
  | .deleted id found =>
      some { workspace.become index (if found then .removed else .refused "file not found") with
        committed := workspace.committed.filter (·.id ≠ id) }
  | _ => none

def step (settings : WorkspaceSettings) (workspace : Workspace) :
    WorkspaceEvent → Option Workspace
  | .upload request =>
      some { workspace with requests := workspace.requests ++ [.counting request] }
  | .delete id => some { workspace with requests := workspace.requests ++ [.deleting id] }
  | .advance index => (workspace.requests[index]?).bind (workspace.advance settings index)
  | .die index =>
      match workspace.requests[index]? with
      | some (.refused _) | some .died | some (.uploaded _) | some .removed | none => none
      | some _ => some (workspace.become index .died)

/-- The commit of an upload is orderly unless another request is amid one. -/
def orderly (workspace : Workspace) : WorkspaceEvent → Bool
  | .advance index =>
      match workspace.requests[index]? with
      | some (.inserted _) =>
          workspace.requests.zipIdx.all fun (other, position) =>
            position == index || !other.amidUpload
      | _ => true
  | _ => true

end Workspace

/-- What is known of rows: they keep the limits, and sizes are those of the contents. -/
structure WorkspaceSettings.Keeps (settings : WorkspaceSettings) (rows : List WorkspaceFile) :
    Prop where
  files : (rows.length : ℤ) ≤ settings.fileMaxCount
  bytes : (totalBytes rows : ℤ) ≤ settings.filesTotalBytes
  sizes : ∀ row ∈ rows, row.size = row.content.length

/-- What is known of an upload: it fits beside the rows, as far as it was checked. -/
def WorkspaceStage.Fits (settings : WorkspaceSettings) (rows : List WorkspaceFile) :
    WorkspaceStage → Prop
  | .totaling _ _ => (rows.length : ℤ) < settings.fileMaxCount
  | .inserting _ extracted =>
      (rows.length : ℤ) < settings.fileMaxCount ∧
        (totalBytes rows : ℤ) + extracted.size ≤ settings.filesTotalBytes
  | .inserted row =>
      ((rows.length : ℤ) < settings.fileMaxCount ∧
        (totalBytes rows : ℤ) + row.size ≤ settings.filesTotalBytes) ∧
          row.size = row.content.length
  | _ => True

structure Workspace.Good (settings : WorkspaceSettings) (workspace : Workspace) : Prop where
  rows : settings.Keeps workspace.committed
  requests : ∀ stage ∈ workspace.requests, stage.Fits settings workspace.committed

section Requests

variable {settings : WorkspaceSettings} {rows : List WorkspaceFile} {stage : WorkspaceStage}
  {workspace after : Workspace} {index : Nat}

theorem totalBytes_sublist {fewer : List WorkspaceFile} (within : fewer.Sublist rows) :
    totalBytes fewer ≤ totalBytes rows := (within.map WorkspaceFile.size).sum_le_sum (by simp)

theorem WorkspaceSettings.Keeps.sublist {fewer : List WorkspaceFile} (keeps : settings.Keeps rows)
    (within : fewer.Sublist rows) : settings.Keeps fewer where
  files := by
    have shorter := within.length_le
    have files := keeps.files
    omega
  bytes := by
    have smaller := totalBytes_sublist within
    have bytes := keeps.bytes
    omega
  sizes row listed := keeps.sizes row (within.subset listed)

theorem WorkspaceStage.Fits.sublist {fewer : List WorkspaceFile} (fits : stage.Fits settings rows)
    (within : fewer.Sublist rows) : stage.Fits settings fewer := by
  have shorter := within.length_le
  have smaller := totalBytes_sublist within
  cases stage with
  | totaling request extracted =>
      simp only [WorkspaceStage.Fits] at fits ⊢
      omega
  | inserting request extracted =>
      simp only [WorkspaceStage.Fits] at fits ⊢
      omega
  | inserted row =>
      simp only [WorkspaceStage.Fits] at fits ⊢
      refine ⟨?_, fits.2⟩
      omega
  | counting | deleting | deleted | refused | died | uploaded | removed => trivial

/-- Nothing is known of a request which is not amid an upload. -/
theorem WorkspaceStage.fits_of_calm (calm : stage.amidUpload = false) :
    stage.Fits settings rows := by
  cases stage with
  | totaling | inserting | inserted => cases calm
  | counting | deleting | deleted | refused | died | uploaded | removed => trivial

theorem Workspace.Good.become (good : workspace.Good settings)
    (fits : stage.Fits settings workspace.committed) :
    (workspace.become index stage).Good settings where
  rows := good.rows
  requests other listed := by
    rcases List.mem_or_eq_of_mem_set listed with old | rfl
    · exact good.requests other old
    · exact fits

/-- The commit of an upload keeps what is known, if no other request is amid one. -/
theorem commit_upload_good {row : WorkspaceFile} (good : workspace.Good settings)
    (present : workspace.requests[index]? = some (.inserted row))
    (orderly : workspace.orderly (.advance index) = true) :
    { workspace.become index (.uploaded row) with
      committed := workspace.committed ++ [row] }.Good settings := by
  obtain ⟨⟨files, bytes⟩, size_eq⟩ := good.requests _ (List.mem_of_getElem? present)
  constructor
  · constructor
    · rw [List.length_append, List.length_singleton]
      omega
    · rw [totalBytes, List.map_append, List.sum_append]
      simp only [List.map_singleton, List.sum_singleton]
      rw [totalBytes] at bytes
      omega
    · intro other listed
      rcases List.mem_append.mp listed with old | fresh
      · exact good.rows.sizes other old
      · rw [List.mem_singleton.mp fresh]
        exact size_eq
  · intro other listed
    apply WorkspaceStage.fits_of_calm
    obtain ⟨position, found⟩ := List.mem_iff_getElem?.mp listed
    by_cases same : position = index
    · subst same
      have bounded := (List.getElem?_eq_some_iff.mp present).1
      simp only [Workspace.become, List.getElem?_set_self bounded] at found
      cases found
      rfl
    · simp only [Workspace.become, List.getElem?_set_ne (Ne.symm same)] at found
      simp only [Workspace.orderly, present, List.all_eq_true] at orderly
      have allowed := orderly (other, position) (List.mem_zipIdx_iff_getElem?.mpr found)
      simpa [same] using allowed

theorem advance_workspace_good (good : workspace.Good settings)
    (present : workspace.requests[index]? = some stage)
    (orderly : workspace.orderly (.advance index) = true)
    (advanced : workspace.advance settings index stage = some after) : after.Good settings := by
  have fits := good.requests stage (List.mem_of_getElem? present)
  cases stage with
  | counting request =>
      rw [Workspace.advance] at advanced
      split at advanced
      · cases advanced
        exact good.become trivial
      next below =>
        split at advanced
        next message refused =>
          cases advanced
          exact good.become trivial
        next extracted valid =>
          cases advanced
          exact good.become (not_le.mp below)
  | totaling request extracted =>
      rw [Workspace.advance] at advanced
      split at advanced
      · cases advanced
        exact good.become trivial
      next below =>
        cases advanced
        exact good.become ⟨fits, not_lt.mp below⟩
  | inserting request extracted =>
      cases advanced
      have inserted : (workspace.become index (.inserted ⟨workspace.ids, request.filename,
          extracted.content, request.mediaType, extracted.size,
          extracted.extractedText⟩)).Good settings := good.become ⟨fits, rfl⟩
      exact ⟨inserted.rows, inserted.requests⟩
  | inserted row =>
      cases advanced
      exact commit_upload_good good present orderly
  | deleting id =>
      rw [Workspace.advance] at advanced
      split at advanced
      · cases advanced
      · cases advanced
        exact good.become trivial
  | deleted id found =>
      cases advanced
      have answered : (workspace.become index
          (if found then .removed else .refused "file not found")).Good settings := by
        apply good.become
        cases found with
        | false => trivial
        | true => trivial
      refine ⟨good.rows.sublist List.filter_sublist, ?_⟩
      intro other listed
      exact (answered.requests other listed).sublist List.filter_sublist
  | refused | died | uploaded | removed => cases advanced

theorem step_workspace_good {event : WorkspaceEvent} (good : workspace.Good settings)
    (orderly : workspace.orderly event = true)
    (stepped : workspace.step settings event = some after) : after.Good settings := by
  have appended {stage : WorkspaceStage} (fits : stage.Fits settings workspace.committed) :
      { workspace with requests := workspace.requests ++ [stage] }.Good settings := by
    refine ⟨good.rows, ?_⟩
    intro other listed
    rcases List.mem_append.mp listed with old | fresh
    · exact good.requests other old
    · rw [List.mem_singleton.mp fresh]
      exact fits
  cases event with
  | upload request =>
      cases stepped
      exact appended trivial
  | delete id =>
      cases stepped
      exact appended trivial
  | advance index =>
      obtain ⟨stage, present, stepped⟩ := Option.bind_eq_some_iff.mp stepped
      exact advance_workspace_good good present orderly stepped
  | die index =>
      rw [Workspace.step] at stepped
      split at stepped
      all_goals cases stepped
      exact good.become trivial

end Requests

/-- Rows within the limits, as the table and the code before leave them. -/
structure StoredWorkspace (settings : WorkspaceSettings) where
  rows : List WorkspaceFile
  keeps : settings.Keeps rows
  ids : Nat

namespace StoredWorkspace

variable {settings : WorkspaceSettings}

def workspace (stored : StoredWorkspace settings) : Workspace where
  committed := stored.rows
  ids := stored.ids

/-- The states which steps lead to, each of which is allowed. -/
abbrev Reaches (stored : StoredWorkspace settings) (allowed : Workspace → WorkspaceEvent → Prop)
    (workspace : Workspace) : Prop :=
  Reachable (Workspace.step settings) allowed stored.workspace workspace

theorem good_of_reaches (stored : StoredWorkspace settings) {workspace : Workspace}
    (reached : stored.Reaches (fun workspace event => workspace.orderly event = true) workspace) :
    workspace.Good settings := by
  refine reached.invariant (fun workspace => workspace.Good settings) ⟨stored.keeps, ?_⟩
    fun _ _ _ good orderly stepped => step_workspace_good good orderly stepped
  intro stage listed
  cases listed

end StoredWorkspace

end Hermes.Storage
