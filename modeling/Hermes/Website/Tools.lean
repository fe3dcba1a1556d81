import Hermes.Library.JsonDecoder
import Hermes.Website.Preview

/-!
# The tools of a website

A model writes, reads and deletes the files of a project by calls whose arguments were validated.
Whatever was written is read back, under any spelling of its path, and no other file is touched.
But the validation lets a text pass which has no UTF-8 encoding, and the tool then fails.
-/

namespace Hermes.Website

open Encoding JsonDecoder Storage

/-! ## Arguments -/

inductive FileEncoding
  | utf8
  | base64
  deriving DecidableEq, Repr

/-- A call of a `site.*` tool, once its arguments are validated. -/
inductive SiteCall
  | writeFile (path : String) (content contentType : List Nat) (encoding : FileEncoding)
  | preview (entry : Option (List Nat))
  | list
  | read (path : String)
  | delete (path : String)
  deriving DecidableEq, Repr

/-- A lone surrogate, which has no UTF-8 encoding. -/
def isSurrogate (code : Nat) : Bool := isHighSurrogate code || isLowSurrogate code

/-- `extra="forbid"`. -/
def onlyFields (args : List (List Nat × Parsed)) (names : List String) : Bool :=
  args.all fun field => names.any fun name => codes name == field.1

/-- A field of type `str`. -/
def textField (args : List (List Nat × Parsed)) (name : String) : Option (List Nat) :=
  match Parsed.get? args name with
  | some (.str text) => some text
  | _ => none

/-- `_validate_safe_path`. -/
def validateSafePath (value : List Nat) : Bool :=
  let slashes := value.map fun code => if code = '\\'.toNat then '/'.toNat else code
  !(slashes.splitOn '/'.toNat).contains (codes "..")

/-- `SafePath`: a constrained text is also refused for a lone surrogate. -/
def pathField (args : List (List Nat × Parsed)) : Option String :=
  (textField args "path").bind fun text =>
    if text ≠ [] ∧ ¬ text.any isSurrogate ∧ validateSafePath text then some (ofCodes text) else none

/-- A field of type `Literal["utf8", "base64"]`. -/
def encodingField (args : List (List Nat × Parsed)) : Option FileEncoding :=
  (textField args "encoding").bind fun text =>
    if text = codes "utf8" then some .utf8
    else if text = codes "base64" then some .base64
    else none

/-- `validate_tool_args` for the `site.*` tools; none is a `ValueError`. -/
def validateToolArgs (toolName : String) (args : List (List Nat × Parsed)) : Option SiteCall :=
  if toolName = "site.write_file" then
    if onlyFields args ["path", "content", "contentType", "encoding"] then do
      let path ← pathField args
      let content ← textField args "content"
      let contentType ← textField args "contentType"
      let encoding ← encodingField args
      return .writeFile path content contentType encoding
    else none
  else if toolName = "site.preview" then
    if onlyFields args ["entry"] then
      match Parsed.get? args "entry" with
      | none | some .null => some (.preview none)
      | some (.str entry) => some (.preview (some entry))
      | some _ => none
    else none
  else if toolName = "site.list" then
    if onlyFields args [] then some .list else none
  else if toolName = "site.read" then
    if onlyFields args ["path"] then (pathField args).map .read else none
  else if toolName = "site.delete" then
    if onlyFields args ["path"] then (pathField args).map .delete else none
  else none

/-! ## Contents -/

/-- `str.encode("utf-8")`; none is a `UnicodeEncodeError`. -/
def encodeUtf8 (text : List Nat) : Option (List UInt8) :=
  if text.any isSurrogate then none else some (encode (ofCodes text))

/-- `bytes.decode("utf-8")`; none is a `UnicodeDecodeError`. -/
def decodeUtf8 (bytes : List UInt8) : Option (List Nat) :=
  (String.fromUTF8? ⟨bytes.toArray⟩).map codes

/-- `_decode_content`; an error is a `UnicodeEncodeError`, and none is text which is not base64. -/
def decodeContent (excess : Bool) (content : List Nat) :
    FileEncoding → Except Unit (Option (List UInt8))
  | .utf8 =>
      match encodeUtf8 content with
      | none => .error ()
      | some bytes => .ok (some bytes)
  | .base64 => .ok (Base64.decode (.strict excess) content)

/-- The choice of an encoding in `_read`. -/
def encodeContent (contentType : String) (content : List UInt8) : List Nat × FileEncoding :=
  if "text/".toList.isPrefixOf contentType.toList ∨ contentType = "application/json" then
    match decodeUtf8 content with
    | some text => (text, .utf8)
    | none => (Base64.encode content, .base64)
  else (Base64.encode content, .base64)

/-! ## Tables -/

structure StoredFile where
  content : List UInt8
  contentType : String
  size : Nat
  deriving DecidableEq, Repr

def StoredFile.row (file : StoredFile) (path : String) : SiteFile :=
  ⟨0, path, file.content, file.contentType, file.size⟩

/-- An event of type `tool_mutation`. -/
inductive ToolMutation
  | written (project : Id) (path : String) (bytesWritten : Nat)
  | deleted (project : Id) (path : String) (deleted : Bool)
  deriving DecidableEq, Repr

/-- The ids of projects by owner and external id, the files by project and path, and the audit. -/
structure SiteTables where
  projects : AList fun _ : Id × String => Id
  files : AList fun _ : Id × String => StoredFile
  audit : List ToolMutation

namespace SiteTables

variable (tables : SiteTables)

def database : Database where
  projects := tables.projects.entries.map fun entry => ⟨entry.2, entry.1.1, entry.1.2⟩
  files := tables.files.entries.map fun entry => (entry.1.1, entry.2.row entry.1.2)

def filesOf (project : Id) : List (String × StoredFile) :=
  (tables.files.entries.filter (·.1.1 == project)).map fun entry => (entry.1.2, entry.2)

/-- `_project_stats`. -/
def stats (project : Id) : ProjectStats :=
  projectStats ((tables.filesOf project).map fun file => file.2.row file.1)

/-- The row at a path is inserted or replaced. -/
def put (project : Id) (path : String) (file : StoredFile) : SiteTables :=
  { tables with files := tables.files.insert (project, path) file }

/-- The row at a path is deleted, if there is one. -/
def remove (project : Id) (path : String) : SiteTables :=
  { tables with files := tables.files.erase (project, path) }

def record (event : ToolMutation) : SiteTables := { tables with audit := tables.audit ++ [event] }

end SiteTables

structure SiteEnvironment where
  links : PreviewLinks
  settings : PreviewSettings
  /-- `time.time()`. -/
  now : Int
  /-- Whether a strict base64 decoding takes padding behind a complete group. -/
  excess : Bool
  /-- Whether PostgreSQL has room for a text behind an id in a unique index: a path behind its
  project, an external id behind its user. -/
  indexable : String → Bool
  /-- The order of the database. -/
  collation : String → String → Bool

/-! ## Tools -/

inductive SiteResult
  | written (path : String) (bytesWritten : Nat) (stats : ProjectStats)
  | previewed (url expiresAt : List Char)
  | listed (files : List (String × String × Nat)) (stats : ProjectStats)
  | content (path : String) (content : List Nat) (encoding : FileEncoding) (contentType : String)
      (size : Nat)
  | deleted (path : String) (deleted : Bool) (stats : ProjectStats)
  deriving DecidableEq, Repr

inductive ToolExecution
  | ok (result : SiteResult)
  | error (code message : String)
  deriving DecidableEq, Repr

/-- How a call ends: it returns, or an exception leaves it. -/
inductive SiteEnd
  | returned (tables : SiteTables) (execution : ToolExecution)
  | raised

/-- Who calls: the session's user and project, and the id a new project would get. -/
structure SiteCaller where
  user : Id
  externalProjectId : String
  spare : Id
  deriving DecidableEq, Repr

namespace SiteEnvironment

variable (environment : SiteEnvironment) (tables : SiteTables) (caller : SiteCaller)

/-- `resolve_project`: a new row gets a new id; none is an error of the database. -/
def resolveProject : Option (SiteTables × Id) :=
  match tables.projects.lookup (caller.user, caller.externalProjectId) with
  | some project => some (tables, project)
  | none =>
      if environment.indexable caller.externalProjectId then
        let key := (caller.user, caller.externalProjectId)
        some ({ tables with projects := tables.projects.insert key caller.spare }, caller.spare)
      else none

/-- `write_file`; the error is a `SiteFileError`, and none an error of the database. -/
def store (project : Id) (path : String) (content : List UInt8) (contentType : String) :
    Option (Except SiteFileError (SiteTables × String)) :=
  match validateWrite environment.settings path content contentType with
  | .error error => some (.error error)
  | .ok write =>
      let existing := tables.files.lookup (project, write.path)
      match checkLimits environment.settings (tables.stats project)
          (existing.map (·.row write.path)) content.length with
      | some error => some (.error error)
      | none =>
          if existing.isNone ∧ ¬ environment.indexable write.path then none
          else
            some (.ok
              (tables.put project write.path ⟨content, contentType, content.length⟩, write.path))

/-- `_write_file`. -/
def writeFile (path : String) (content contentType : List Nat) (encoding : FileEncoding) :
    SiteEnd :=
  match decodeContent environment.excess content encoding with
  | .error () => .raised
  | .ok none => .returned tables (.error "invalid_encoding" "content is not valid base64")
  | .ok (some bytes) =>
      match environment.resolveProject tables caller with
      | none => .raised
      | some (tables, project) =>
          match environment.store tables project path bytes (ofCodes contentType) with
          | none => .raised
          | some (.error error) => .returned tables (.error error.code error.message)
          | some (.ok (tables, normalized)) =>
              .returned (tables.record (.written project normalized bytes.length))
                (.ok (.written normalized bytes.length (tables.stats project)))

/-- `_preview`. -/
def previewEntry (entry : Option (List Nat)) : SiteEnd :=
  match preview environment.links tables.database environment.now caller.user
      caller.externalProjectId (entry.map ofCodes) with
  | .error code message => .returned tables (.error code message)
  | .ok url expiresAt => .returned tables (.ok (.previewed url expiresAt))
  | .raised => .raised

/-- `_list`. -/
def listFiles : SiteEnd :=
  match tables.projects.lookup (caller.user, caller.externalProjectId) with
  | none => .returned tables (.ok (.listed [] ⟨0, 0⟩))
  | some project =>
      let metas := (tables.filesOf project).map fun file =>
        (file.1, file.2.contentType, file.2.size)
      .returned tables (.ok (.listed
        (metas.mergeSort fun first second => environment.collation first.1 second.1)
        (tables.stats project)))

/-- `_read`. -/
def readFile (path : String) : SiteEnd :=
  match tables.projects.lookup (caller.user, caller.externalProjectId) with
  | none => .returned tables (.error "file_not_found" "file not found")
  | some project =>
      match normalizeSitePath path with
      | .error _ => .returned tables (.error "file_not_found" "file not found")
      | .ok normalized =>
          match tables.files.lookup (project, normalized) with
          | none => .returned tables (.error "file_not_found" "file not found")
          | some file =>
              let (content, encoding) := encodeContent file.contentType file.content
              .returned tables
                (.ok (.content normalized content encoding file.contentType file.size))

/-- `_delete`. -/
def deleteFile (path : String) : SiteEnd :=
  match tables.projects.lookup (caller.user, caller.externalProjectId) with
  | none => .returned tables (.ok (.deleted path false ⟨0, 0⟩))
  | some project =>
      match normalizeSitePath path with
      | .error message => .returned tables (.error "invalid_path" message)
      | .ok normalized =>
          let deleted := (tables.files.lookup (project, normalized)).isSome
          let tables := tables.remove project normalized
          .returned (tables.record (.deleted project path deleted))
            (.ok (.deleted path deleted (tables.stats project)))

/-- `SiteToolHandlers.execute`. -/
def execute : SiteCall → SiteEnd
  | .writeFile path content contentType encoding =>
      environment.writeFile tables caller path content contentType encoding
  | .preview entry => environment.previewEntry tables caller entry
  | .list => environment.listFiles tables caller
  | .read path => readFile tables caller path
  | .delete path => deleteFile tables caller path

/-- Calls one after another, as long as none raises. -/
def run (tables : SiteTables) : List (SiteCaller × SiteCall) → Option SiteTables
  | [] => some tables
  | (caller, call) :: requests =>
      match environment.execute tables caller call with
      | .returned tables _ => run tables requests
      | .raised => none

end SiteEnvironment

/-! ## Contents come back -/

section Contents

theorem isSurrogate_codes {text : String} {code : Nat} (listed : code ∈ codes text) :
    isSurrogate code = false := by
  obtain ⟨char, -, rfl⟩ := List.mem_map.mp listed
  have valid := char.valid
  simp only [UInt32.isValidChar, Nat.isValidChar] at valid
  simp only [isSurrogate, isHighSurrogate, isLowSurrogate, Bool.or_eq_false_iff,
    decide_eq_false_iff_not, Char.toNat]
  omega

theorem encodeUtf8_of_decodeUtf8 {bytes : List UInt8} {text : List Nat}
    (decoded : decodeUtf8 bytes = some text) : encodeUtf8 text = some bytes := by
  obtain ⟨characters, read, rfl⟩ := Option.map_eq_some_iff.mp decoded
  have plain : (codes characters).any isSurrogate = false :=
    List.any_eq_false.mpr fun code listed => by simp [isSurrogate_codes listed]
  have written : encode characters = bytes := by
    rw [String.fromUTF8?] at read
    split at read
    case isTrue valid =>
        cases read
        rfl
    case isFalse => cases read
  rw [encodeUtf8, plain, ofCodes_codes, written]
  rfl

theorem decodeContent_encodeContent (excess : Bool) (contentType : String) (content : List UInt8) :
    decodeContent excess (encodeContent contentType content).1
        (encodeContent contentType content).2 = .ok (some content) := by
  have binary : decodeContent excess (Base64.encode content) .base64 = .ok (some content) := by
    rw [decodeContent, Base64.decode_encode]
  rw [encodeContent]
  split
  case isFalse => exact binary
  case isTrue =>
      cases decoded : decodeUtf8 content with
      | none => exact binary
      | some text =>
          simp only [decodeContent, encodeUtf8_of_decodeUtf8 decoded]

end Contents

/-! ## The law -/

/-- The call writes or deletes the file at a path. -/
def SiteCall.Touches (path : String) : SiteCall → Prop
  | .writeFile raw _ _ _ => normalizeSitePath raw = .ok path
  | .delete raw => normalizeSitePath raw = .ok path
  | _ => False

section Law

variable (environment : SiteEnvironment) (tables : SiteTables) (caller : SiteCaller)

/-- The file at a path has these bytes: it is read, and deleted, under any spelling. -/
def Holds (path : String) (bytes : List UInt8) : Prop :=
  ∀ spelling, normalizeSitePath spelling = .ok path →
    (∃ content encoding contentType size,
      environment.execute tables caller (.read spelling) =
        .returned tables (.ok (.content path content encoding contentType size)) ∧
      decodeContent environment.excess content encoding = .ok (some bytes)) ∧
    ∃ emptied stats,
      environment.execute tables caller (.delete spelling) =
        .returned emptied (.ok (.deleted spelling true stats)) ∧
      environment.execute emptied caller (.read spelling) =
        .returned emptied (.error "file_not_found" "file not found")

structure SiteLaw (call : SiteCall) : Prop where
  returns : ∃ after execution, environment.execute tables caller call = .returned after execution
  /-- What is written is there, after any calls for other paths. -/
  written : ∀ path content contentType encoding after result,
    call = .writeFile path content contentType encoding →
    environment.execute tables caller call = .returned after (.ok result) →
      ∃ bytes normalized, decodeContent environment.excess content encoding = .ok (some bytes) ∧
        normalizeSitePath path = .ok normalized ∧
        ∀ requests later, environment.run after requests = some later →
          (∀ request ∈ requests, ¬ request.2.Touches normalized) →
            Holds environment later caller normalized bytes
  /-- No other file is touched. -/
  apart : ∀ after execution, environment.execute tables caller call = .returned after execution →
    ∀ project path, ¬ call.Touches path →
      after.files.lookup (project, path) = tables.files.lookup (project, path)
  normal : ∀ raw path, normalizeSitePath raw = .ok path →
    normalizeSitePath path = .ok path ∧ ∀ segment ∈ segments path, Plain segment

/-- The call raises: a text without a UTF-8 encoding, a new project or a new path too long for its
index, or a link which expires when there are no dates any more. -/
def Disturbs : SiteCall → Prop
  | .writeFile path content contentType encoding =>
      encoding = .utf8 ∧ content.any isSurrogate = true ∨
        ∃ bytes, decodeContent environment.excess content encoding = .ok (some bytes) ∧
          (tables.projects.lookup (caller.user, caller.externalProjectId) = none ∧
              environment.indexable caller.externalProjectId = false ∨
            ∃ resolved write, environment.resolveProject tables caller = some resolved ∧
              validateWrite environment.settings path bytes (ofCodes contentType) = .ok write ∧
              resolved.1.files.lookup (resolved.2, write.path) = none ∧
              checkLimits environment.settings (resolved.1.stats resolved.2) none bytes.length =
                none ∧
              environment.indexable write.path = false)
  | .preview _ =>
      (tables.projects.lookup (caller.user, caller.externalProjectId)).isSome ∧
        environment.links.signer.secret ≠ "" ∧
        ¬ Calendar.Representable ((environment.now + environment.links.signer.ttl) * 1000000)
  | _ => False

end Law

section Steps

variable {environment : SiteEnvironment} {tables after : SiteTables} {caller : SiteCaller}
  {call : SiteCall} {execution : ToolExecution} {path : String}

/-- What a resolved project comes to: it is found from then on, and nothing else changes. -/
theorem resolveProject_spec {resolved : SiteTables × Id}
    (found : environment.resolveProject tables caller = some resolved) :
    resolved.1.files = tables.files ∧
      resolved.1.projects.lookup (caller.user, caller.externalProjectId) = some resolved.2 ∧
      ∀ user external project, tables.projects.lookup (user, external) = some project →
        resolved.1.projects.lookup (user, external) = some project := by
  rw [SiteEnvironment.resolveProject] at found
  split at found
  next project known =>
    cases found
    exact ⟨rfl, known, fun _ _ _ => id⟩
  next absent =>
    split at found
    case isFalse => cases found
    case isTrue =>
      cases found
      refine ⟨rfl, AList.lookup_insert _, fun user external project known => ?_⟩
      have apart : (user, external) ≠ (caller.user, caller.externalProjectId) := by
        rintro same
        rw [same, absent] at known
        cases known
      rw [AList.lookup_insert_ne apart, known]

theorem resolveProject_eq_none_iff :
    environment.resolveProject tables caller = none ↔
      tables.projects.lookup (caller.user, caller.externalProjectId) = none ∧
        environment.indexable caller.externalProjectId = false := by
  rw [SiteEnvironment.resolveProject]
  cases tables.projects.lookup (caller.user, caller.externalProjectId) with
  | some project => simp
  | none => cases environment.indexable caller.externalProjectId <;> simp

theorem path_of_validateWrite {bytes : List UInt8} {contentType : String} {write : FileWrite}
    (checked : validateWrite environment.settings path bytes contentType = .ok write) :
    normalizeSitePath path = .ok write.path := by
  rw [validateWrite] at checked
  split at checked
  · cases checked
  split at checked
  · cases checked
  next normalized accepted =>
    split at checked
    · cases checked
    · cases checked
      exact accepted

theorem store_eq_none_iff (project : Id) (bytes : List UInt8) (contentType : String) :
    environment.store tables project path bytes contentType = none ↔
      ∃ write, validateWrite environment.settings path bytes contentType = .ok write ∧
        tables.files.lookup (project, write.path) = none ∧
        checkLimits environment.settings (tables.stats project) none bytes.length = none ∧
        environment.indexable write.path = false := by
  rw [SiteEnvironment.store]
  cases checked : validateWrite environment.settings path bytes contentType with
  | error error => simp
  | ok write =>
      simp only [Except.ok.injEq, exists_eq_left']
      cases existing : tables.files.lookup (project, write.path) with
      | some file => cases checkLimits environment.settings (tables.stats project) _ _ <;> simp
      | none =>
          simp only [Option.map_none]
          cases checkLimits environment.settings (tables.stats project) none bytes.length with
          | some error => simp
          | none => cases environment.indexable write.path <;> simp

theorem store_eq_ok {project : Id} {bytes : List UInt8} {contentType normalized : String}
    (stored : environment.store tables project path bytes contentType =
      some (.ok (after, normalized))) :
    normalizeSitePath path = .ok normalized ∧
      after = tables.put project normalized ⟨bytes, contentType, bytes.length⟩ := by
  rw [SiteEnvironment.store] at stored
  split at stored
  · cases stored
  next write checked =>
    dsimp only at stored
    split at stored
    · cases stored
    split at stored
    · cases stored
    · cases stored
      exact ⟨path_of_validateWrite checked, rfl⟩

theorem decodeContent_eq_error {excess : Bool} {content : List Nat} {encoding : FileEncoding} :
    decodeContent excess content encoding = .error () ↔
      encoding = .utf8 ∧ content.any isSurrogate = true := by
  cases encoding with
  | base64 => simp [decodeContent]
  | utf8 =>
      rw [decodeContent, encodeUtf8]
      cases content.any isSurrogate <;> simp

theorem writeFile_cases (content contentType : List Nat) (encoding : FileEncoding) :
    (environment.execute tables caller (.writeFile path content contentType encoding) = .raised ∧
        Disturbs environment tables caller (.writeFile path content contentType encoding)) ∨
      (¬ Disturbs environment tables caller (.writeFile path content contentType encoding) ∧
        ((∃ after code message,
            environment.execute tables caller (.writeFile path content contentType encoding) =
              .returned after (.error code message) ∧
            (after = tables ∨
              ∃ project, environment.resolveProject tables caller = some (after, project))) ∨
          ∃ bytes normalized result resolved,
            decodeContent environment.excess content encoding = .ok (some bytes) ∧
            normalizeSitePath path = .ok normalized ∧
            environment.resolveProject tables caller = some resolved ∧
            environment.execute tables caller (.writeFile path content contentType encoding) =
              .returned ((resolved.1.put resolved.2 normalized
                ⟨bytes, ofCodes contentType, bytes.length⟩).record
                  (.written resolved.2 normalized bytes.length)) (.ok result))) := by
  simp only [SiteEnvironment.execute, SiteEnvironment.writeFile, Disturbs]
  rcases decoded : decodeContent environment.excess content encoding with _ | _ | bytes
  · exact .inl ⟨rfl, .inl (decodeContent_eq_error.mp decoded)⟩
  · refine .inr ⟨?_, .inl ⟨tables, _, _, rfl, .inl rfl⟩⟩
    rintro (text | ⟨bytes, impossible, -⟩)
    · rw [decodeContent_eq_error.mpr text] at decoded
      cases decoded
    · cases impossible
  · have encodable : ¬ (encoding = .utf8 ∧ content.any isSurrogate = true) := by
      intro text
      rw [decodeContent_eq_error.mpr text] at decoded
      cases decoded
    rcases found : environment.resolveProject tables caller with _ | resolved
    · exact .inl ⟨rfl, .inr ⟨bytes, rfl, .inl (resolveProject_eq_none_iff.mp found)⟩⟩
    have room : ¬ (tables.projects.lookup (caller.user, caller.externalProjectId) = none ∧
        environment.indexable caller.externalProjectId = false) := by
      intro full
      rw [resolveProject_eq_none_iff.mpr full] at found
      cases found
    rcases stored : environment.store resolved.1 resolved.2 path bytes (ofCodes contentType) with
      _ | error | ⟨after, normalized⟩
    · obtain ⟨write, checked, rest⟩ := (store_eq_none_iff _ _ _).mp stored
      exact .inl ⟨by simp only [stored],
        .inr ⟨bytes, rfl, .inr ⟨resolved, write, rfl, checked, rest⟩⟩⟩
    all_goals
      refine .inr ⟨?_, ?_⟩
      · rintro (text | ⟨other, same, full | ⟨place, write, placed, checked, rest⟩⟩)
        · exact encodable text
        · exact room full
        · cases same
          cases placed
          rw [(store_eq_none_iff _ _ _).mpr ⟨write, checked, rest⟩] at stored
          cases stored
    · exact .inl ⟨resolved.1, error.code, error.message, by simp only [stored],
        .inr ⟨resolved.2, rfl⟩⟩
    · obtain ⟨normal, rfl⟩ := store_eq_ok stored
      refine .inr ⟨bytes, normalized, .written normalized bytes.length ((resolved.1.put resolved.2
        normalized ⟨bytes, ofCodes contentType, bytes.length⟩).stats resolved.2), resolved, rfl,
        normal, rfl, ?_⟩
      simp only [stored]

theorem deleteFile_cases (raw : String) :
    (∃ execution, environment.execute tables caller (.delete raw) = .returned tables execution) ∨
      ∃ project normalized, normalizeSitePath raw = .ok normalized ∧
        tables.projects.lookup (caller.user, caller.externalProjectId) = some project ∧
        ∃ event execution, environment.execute tables caller (.delete raw) =
          .returned ((tables.remove project normalized).record event) execution := by
  simp only [SiteEnvironment.execute, SiteEnvironment.deleteFile]
  cases tables.projects.lookup (caller.user, caller.externalProjectId) with
  | none => exact .inl ⟨_, rfl⟩
  | some project =>
      cases accepted : normalizeSitePath raw with
      | error message => exact .inl ⟨_, rfl⟩
      | ok normalized => exact .inr ⟨project, normalized, rfl, rfl, _, _, rfl⟩

theorem eq_of_read_only
    (reads : (∃ entry, call = .preview entry) ∨ call = .list ∨ ∃ raw, call = .read raw)
    (executed : environment.execute tables caller call = .returned after execution) :
    after = tables := by
  rcases reads with ⟨entry, rfl⟩ | rfl | ⟨raw, rfl⟩
  · simp only [SiteEnvironment.execute, SiteEnvironment.previewEntry] at executed
    split at executed
    · cases executed
      rfl
    · cases executed
      rfl
    · cases executed
  · simp only [SiteEnvironment.execute, SiteEnvironment.listFiles] at executed
    split at executed <;> cases executed <;> rfl
  · simp only [SiteEnvironment.execute, SiteEnvironment.readFile] at executed
    split at executed
    · cases executed
      rfl
    split at executed
    · cases executed
      rfl
    split at executed <;> cases executed <;> rfl

/-- What one call does to the tables: projects stay, and so do the files it does not touch. -/
theorem execute_frame
    (executed : environment.execute tables caller call = .returned after execution) :
    (∀ user external project, tables.projects.lookup (user, external) = some project →
        after.projects.lookup (user, external) = some project) ∧
      ∀ project path, ¬ call.Touches path →
        after.files.lookup (project, path) = tables.files.lookup (project, path) := by
  cases call with
  | writeFile raw content contentType encoding =>
      rcases @writeFile_cases environment tables caller raw content contentType encoding with
        ⟨raised, -⟩ | ⟨-, ⟨after, code, message, refused, same⟩ |
          ⟨bytes, normalized, result, resolved, -, normal, found, written⟩⟩
      · rw [raised] at executed
        cases executed
      · rw [refused] at executed
        cases executed
        rcases same with rfl | ⟨project, found⟩
        · exact ⟨fun _ _ _ found => found, fun _ _ _ => rfl⟩
        · obtain ⟨files, -, projects⟩ := resolveProject_spec found
          exact ⟨projects, fun _ _ _ => by rw [files]⟩
      · rw [written] at executed
        cases executed
        obtain ⟨files, -, projects⟩ := resolveProject_spec found
        refine ⟨projects, fun project path untouched => ?_⟩
        have apart : (project, path) ≠ (resolved.2, normalized) := by
          rintro same
          exact untouched (by rw [(Prod.mk.inj same).2]; exact normal)
        simp only [SiteTables.record, SiteTables.put]
        rw [AList.lookup_insert_ne apart, files]
  | delete raw =>
      rcases @deleteFile_cases environment tables caller raw
        with ⟨result, unchanged⟩ | ⟨project, normalized, normal, -, event, result, erased⟩
      · rw [unchanged] at executed
        cases executed
        exact ⟨fun _ _ _ found => found, fun _ _ _ => rfl⟩
      · rw [erased] at executed
        cases executed
        refine ⟨fun _ _ _ found => found, fun other path untouched => ?_⟩
        have apart : (other, path) ≠ (project, normalized) := by
          rintro same
          exact untouched (by rw [(Prod.mk.inj same).2]; exact normal)
        exact AList.lookup_erase_ne apart
  | preview entry =>
      cases eq_of_read_only (.inl ⟨entry, rfl⟩) executed
      exact ⟨fun _ _ _ found => found, fun _ _ _ => rfl⟩
  | list =>
      cases eq_of_read_only (.inr (.inl rfl)) executed
      exact ⟨fun _ _ _ found => found, fun _ _ _ => rfl⟩
  | read raw =>
      cases eq_of_read_only (.inr (.inr ⟨raw, rfl⟩)) executed
      exact ⟨fun _ _ _ found => found, fun _ _ _ => rfl⟩

theorem run_frame {requests : List (SiteCaller × SiteCall)}
    (ran : environment.run tables requests = some after)
    (elsewhere : ∀ request ∈ requests, ¬ request.2.Touches path) :
    (∀ user external project, tables.projects.lookup (user, external) = some project →
        after.projects.lookup (user, external) = some project) ∧
      ∀ project, after.files.lookup (project, path) = tables.files.lookup (project, path) := by
  induction requests generalizing tables with
  | nil =>
      cases ran
      exact ⟨fun _ _ _ found => found, fun _ => rfl⟩
  | cons request requests induction =>
      obtain ⟨caller, call⟩ := request
      rw [SiteEnvironment.run] at ran
      split at ran
      case h_2 => cases ran
      case h_1 middle execution executed =>
          obtain ⟨projects, files⟩ := execute_frame executed
          obtain ⟨later_projects, later_files⟩ := induction ran
            fun request listed => elsewhere request (List.mem_cons_of_mem _ listed)
          refine ⟨fun user external project found => ?_, fun project => ?_⟩
          · exact later_projects _ _ _ (projects _ _ _ found)
          · rw [later_files, files project path (elsewhere _ List.mem_cons_self)]

theorem holds_of_lookup {project : Id} {file : StoredFile}
    (resolved : tables.projects.lookup (caller.user, caller.externalProjectId) = some project)
    (stored : tables.files.lookup (project, path) = some file) :
    Holds environment tables caller path file.content := by
  intro spelling normal
  constructor
  · refine ⟨(encodeContent file.contentType file.content).1,
      (encodeContent file.contentType file.content).2, file.contentType, file.size, ?_,
      decodeContent_encodeContent _ _ _⟩
    simp only [SiteEnvironment.execute, SiteEnvironment.readFile, resolved, normal, stored]
  · refine ⟨(tables.remove project path).record (.deleted project spelling true),
      (tables.remove project path).stats project, ?_, ?_⟩
    · simp only [SiteEnvironment.execute, SiteEnvironment.deleteFile, resolved, normal, stored,
        Option.isSome_some]
    · simp only [SiteEnvironment.execute, SiteEnvironment.readFile, SiteTables.record,
        SiteTables.remove, resolved, normal, AList.lookup_erase]

theorem existingProject_database (user : Id) (externalProjectId : String) :
    tables.database.existingProject user externalProjectId =
      (tables.projects.lookup (user, externalProjectId)).map (⟨·, user, externalProjectId⟩) := by
  obtain ⟨⟨entries, keys⟩, files, audit⟩ := tables
  simp only [SiteTables.database, Database.existingProject, AList.lookup]
  clear keys
  induction entries with
  | nil => rfl
  | cons entry entries induction =>
      obtain ⟨⟨owner, external⟩, id⟩ := entry
      rw [List.map_cons, List.find?_cons]
      by_cases same : (user, externalProjectId) = (owner, external)
      · cases same
        simp
      · rw [List.dlookup_cons_ne _ _ same, ← induction]
        have other : (owner == user && external == externalProjectId) = false := by
          rw [Bool.and_eq_false_iff, beq_eq_false_iff_ne, beq_eq_false_iff_ne]
          by_contra both
          simp only [not_or, not_not] at both
          exact same (by rw [both.1, both.2])
        simp only [other]

/-- A preview raises only where its link expires when there are no dates any more. -/
theorem preview_raised_iff (entry : Option (List Nat)) :
    environment.execute tables caller (.preview entry) = .raised ↔
      Disturbs environment tables caller (.preview entry) := by
  simp only [SiteEnvironment.execute, SiteEnvironment.previewEntry, Disturbs, preview,
    existingProject_database]
  cases tables.projects.lookup (caller.user, caller.externalProjectId) with
  | none => simp
  | some project =>
      simp only [Option.map_some, Option.isSome_some, true_and]
      by_cases configured : environment.links.signer.secret = ""
      · simp [Signer.buildToken, Signer.sign, configured, Except.map]
      by_cases dated :
          Calendar.Representable ((environment.now + environment.links.signer.ttl) * 1000000)
      · have small : (environment.now + environment.links.signer.ttl).natAbs <
            10 ^ Text.maxStrDigits := by
          refine lt_of_lt_of_le (b := 10 ^ 18) ?_ (Nat.pow_le_pow_right (by decide) (by decide))
          simp only [Calendar.Representable, Calendar.epoch, Calendar.lastOrdinal,
            Calendar.dayLength] at dated
          omega
        obtain ⟨signed, built, expires⟩ :=
          @exists_buildToken _ project caller.user _ configured small
        simp [built, expires, dated]
      · simp only [dated, not_false_eq_true, and_true, ne_eq, configured, iff_true]
        cases built : environment.links.signer.buildToken project caller.user environment.now with
        | error error =>
            cases error with
            | secretMissing =>
                simp only [Signer.buildToken, Signer.sign, if_neg configured] at built
                split at built <;> cases built
            | value => rfl
        | ok signed =>
            simp only [(buildToken_eq_ok built).2.2.1, if_neg dated]

theorem execute_raised_iff :
    environment.execute tables caller call = .raised ↔ Disturbs environment tables caller call := by
  cases call with
  | writeFile path content contentType encoding =>
      rcases @writeFile_cases environment tables caller path content contentType encoding with
        ⟨raised, disturbs⟩ | ⟨calm, ⟨after, code, message, refused, -⟩ |
          ⟨bytes, normalized, result, resolved, -, -, -, written⟩⟩
      · exact iff_of_true raised disturbs
      · exact iff_of_false (by simp [refused]) calm
      · exact iff_of_false (by simp [written]) calm
  | preview entry => exact preview_raised_iff entry
  | list =>
      refine iff_of_false ?_ id
      simp only [SiteEnvironment.execute, SiteEnvironment.listFiles]
      split <;> simp
  | read raw =>
      refine iff_of_false ?_ id
      simp only [SiteEnvironment.execute, SiteEnvironment.readFile]
      split
      · simp
      split
      · simp
      split <;> simp
  | delete raw =>
      refine iff_of_false ?_ id
      rcases @deleteFile_cases environment tables caller raw
        with ⟨execution, unchanged⟩ | ⟨project, normalized, -, -, event, execution, erased⟩
      · simp [unchanged]
      · simp [erased]

theorem holds_after_write {content contentType : List Nat} {encoding : FileEncoding}
    {result : SiteResult}
    (executed : environment.execute tables caller (.writeFile path content contentType encoding) =
      .returned after (.ok result)) :
    ∃ bytes normalized, decodeContent environment.excess content encoding = .ok (some bytes) ∧
      normalizeSitePath path = .ok normalized ∧
      ∀ requests later, environment.run after requests = some later →
        (∀ request ∈ requests, ¬ request.2.Touches normalized) →
          Holds environment later caller normalized bytes := by
  rcases @writeFile_cases environment tables caller path content contentType encoding with
    ⟨raised, -⟩ | ⟨-, ⟨after, code, message, refused, -⟩ |
      ⟨bytes, normalized, result, resolved, decoded, normal, found, written⟩⟩
  · rw [raised] at executed
    cases executed
  · rw [refused] at executed
    cases executed
  · rw [written] at executed
    cases executed
    refine ⟨bytes, normalized, decoded, normal, fun requests later ran elsewhere => ?_⟩
    obtain ⟨projects, files⟩ := run_frame ran elsewhere
    have listed := projects _ _ _ (resolveProject_spec found).2.1
    have stored := files resolved.2
    rw [SiteTables.record, SiteTables.put, AList.lookup_insert] at stored
    exact holds_of_lookup listed stored

theorem siteLaw_iff :
    SiteLaw environment tables caller call ↔ ¬ Disturbs environment tables caller call := by
  constructor
  · rintro law disturbs
    obtain ⟨after, execution, returned⟩ := law.returns
    rw [execute_raised_iff.mpr disturbs] at returned
    cases returned
  · intro calm
    constructor
    · cases ended : environment.execute tables caller call with
      | returned after execution => exact ⟨after, execution, rfl⟩
      | raised => exact absurd (execute_raised_iff.mp ended) calm
    · rintro path content contentType encoding after result rfl executed
      exact holds_after_write executed
    · intro after execution executed
      exact (execute_frame executed).2
    · intro raw path accepted
      exact ⟨normalize_idempotent accepted, (canonical_of_normalize accepted).plain⟩

end Steps

/-- A call with accepted arguments does what it is to do exactly where nothing disturbs it. -/
theorem site_lawful_iff (environment : SiteEnvironment) (tables : SiteTables) (caller : SiteCaller)
    (toolName : String) (args : List (List Nat × Parsed)) :
    (∀ call, validateToolArgs toolName args = some call →
        SiteLaw environment tables caller call) ↔
      ∀ call, validateToolArgs toolName args = some call →
        ¬ Disturbs environment tables caller call :=
  forall₂_congr fun _ _ => siteLaw_iff

/-! ## A text without an encoding -/

/-- The arguments of a call which writes a lone surrogate. -/
def surrogateArgs : List (List Nat × Parsed) :=
  [(codes "path", .str (codes "index.html")), (codes "content", .str [0xd800]),
    (codes "contentType", .str (codes "text/html")), (codes "encoding", .str (codes "utf8"))]

theorem validateToolArgs_surrogateArgs : validateToolArgs "site.write_file" surrogateArgs =
    some (.writeFile "index.html" [0xd800] (codes "text/html") .utf8) := by
  decide

/-- The arguments are accepted, and the tool raises. -/
theorem surrogate_content_raises :
    ¬ ∀ (environment : SiteEnvironment) (tables : SiteTables) (caller : SiteCaller)
        (toolName : String) (args : List (List Nat × Parsed)) (call : SiteCall),
      validateToolArgs toolName args = some call → SiteLaw environment tables caller call := by
  intro law
  let environment : SiteEnvironment :=
    { links := plainLinks, settings := {}, now := 0, excess := false, indexable := fun _ => true,
      collation := fun first second => decide (first ≤ second) }
  have lawful := law environment ⟨∅, ∅, []⟩ ⟨2, "shop", 1⟩ _ _ _ validateToolArgs_surrogateArgs
  exact siteLaw_iff.mp lawful (.inl ⟨rfl, rfl⟩)

end Hermes.Website
