import Hermes.Library.Calendar
import Hermes.Library.Url
import Hermes.Website.Paths
import Hermes.Website.SignedUrl

/-!
# Preview links

`site.preview` writes the path of a file into a URL as it is.  What is requested is what a reader of
URLs takes for the path, so a path with a question mark, a number sign, a tab, a line break or an
escape is requested as another one.
-/

namespace Hermes.Website

open Encoding Storage

/-! ## Projects and files -/

structure Project where
  id : Id
  userId : Id
  externalProjectId : String
  deriving DecidableEq, Repr

/-- The rows of `projects`, and those of `site_files` with their projects. -/
structure Database where
  projects : List Project
  files : List (Id × SiteFile)
  deriving DecidableEq, Repr

namespace Database

variable (database : Database)

/-- `get_existing_project`. -/
def existingProject (user : Id) (externalProjectId : String) : Option Project :=
  database.projects.find? fun project =>
    project.userId == user && project.externalProjectId == externalProjectId

/-- `get_project_by_id`. -/
def projectById (project : Id) : Option Project := database.projects.find? (·.id == project)

def file (project : Id) (path : String) : Option SiteFile :=
  (database.files.find? fun row => row.1 == project && row.2.path == path).map Prod.snd

/-- `read_file`. -/
def readFile (project : Id) (path : String) : Option SiteFile :=
  match normalizeSitePath path with
  | .error _ => none
  | .ok normalized => database.file project normalized

end Database

/-! ## The link -/

structure ServiceDomain where
  host : List Char
  lawful : ∀ char ∈ host, Url.isHostChar char = true

structure PreviewLinks where
  signer : Signer
  domain : ServiceDomain

/-- What `site.preview` comes to. -/
inductive PreviewResult
  | error (code message : String)
  | ok (url expiresAt : List Char)
  /-- An exception: the moment has no date, or too many digits. -/
  | raised
  deriving DecidableEq, Repr

def previewPath (project : Id) (token : List Nat) (entry : String) : List Char :=
  "/v1/preview/".toList ++ (project.text ++ '/' :: (token.map Char.ofNat ++ '/' :: entry.toList))

/-- The link, on the domain of the service if there is one. -/
def previewUrl (domain : ServiceDomain) (project : Id) (token : List Nat) (entry : String) :
    List Char :=
  if domain.host = [] then previewPath project token entry
  else "https://".toList ++ domain.host ++ previewPath project token entry

/-- `SiteToolHandlers._preview`. -/
def preview (links : PreviewLinks) (database : Database) (now : Int) (user : Id)
    (externalProjectId : String) (entry : Option String) : PreviewResult :=
  match database.existingProject user externalProjectId with
  | none => .error "project_not_found" "no project to preview"
  | some project =>
      let entry := if entry.getD "" = "" then "index.html" else entry.getD ""
      match links.signer.buildToken project.id user now with
      | .error .secretMissing => .error "preview_unavailable" "PREVIEW_URL_SECRET is not configured"
      | .error .value => .raised
      | .ok signed =>
          if Calendar.Representable (signed.expiresAt * 1000000) then
            .ok (previewUrl links.domain project.id signed.token entry)
              (Calendar.isoformat (signed.expiresAt * 1000000))
          else .raised

/-! ## The request -/

/-- What `get_preview` answers. -/
inductive Response
  | ok (content : List UInt8) (contentType : String)
  | forbidden
  | notFound
  /-- The project is no UUID. -/
  | unprocessable
  | failed
  deriving DecidableEq, Repr

def Response.Serves : Response → Prop
  | .ok _ _ => True
  | _ => False

/-- `get_preview`. -/
def getPreview (links : PreviewLinks) (database : Database) (now : Int) (projectId : Id)
    (token : List Nat) (path : String) : Response :=
  match database.projectById projectId with
  | none => .notFound
  | some project =>
      match links.signer.verifyToken projectId project.userId token now with
      | .error .secretMissing => .forbidden
      | .error .value => .failed
      | .ok false => .forbidden
      | .ok true =>
          match database.readFile projectId path with
          | none => .notFound
          | some file => .ok file.content file.contentType

/-- `[^/]+` and the slash behind it. -/
def pathSegment (text : List Char) : Option (List Char × List Char) :=
  let segment := text.takeWhile (· ≠ '/')
  match text.drop segment.length with
  | '/' :: rest => if segment = [] then none else some (segment, rest)
  | _ => none

/-- `.*` up to the end: a line, which a line break may end. -/
def lastLine (text : List Char) : Option (List Char) :=
  if '\n' ∉ text then some text
  else if text.getLast? = some '\n' ∧ '\n' ∉ text.dropLast then some text.dropLast
  else none

/-- `/v1/preview/{projectId}/{token}/{path:path}`. -/
def routePreview (path : List Char) : Option (List Char × List Char × List Char) :=
  if "/v1/preview/".toList.isPrefixOf path then do
    let (projectId, rest) ← pathSegment (path.drop 12)
    let (token, rest) ← pathSegment rest
    let path ← lastLine rest
    return (projectId, token, path)
  else none

def readId (text : List Char) : Option Id :=
  (Uuid.ofText text).bind fun number =>
    if small : number < 2 ^ 128 then some ⟨number, small⟩ else none

def serve (links : PreviewLinks) (database : Database) (now : Int) (url : List Char) : Response :=
  match routePreview (Url.unquote (Url.splitPath url)) with
  | none => .notFound
  | some (projectId, token, path) =>
      match readId projectId with
      | none => .unprocessable
      | some projectId =>
          getPreview links database now projectId (token.map Char.toNat) (String.ofList path)

/-! ## The law -/

/-- What a link to a file is to do.  The database at the time of the request is any at all. -/
structure LinkLaw (links : PreviewLinks) (project : Project) (issued : Int) (path : String)
    (url : List Char) : Prop where
  /-- Before it expires it serves the file, as long as the project is its owner's. -/
  opens : ∀ database now file,
    (database.projectById project.id).map Project.userId = some project.userId →
    database.file project.id path = some file → now ≤ issued + links.signer.ttl →
      serve links database now url = .ok file.content file.contentType
  /-- Nothing is served with its token after it has expired. -/
  expires : ∀ signed database now other path,
    links.signer.buildToken project.id project.userId issued = .ok signed →
    issued + links.signer.ttl < now →
      ¬ (getPreview links database now other signed.token path).Serves
  /-- Nothing is served with its token for another project or owner. -/
  bound : ∀ signed database now other path,
    links.signer.buildToken project.id project.userId issued = .ok signed →
    (other ≠ project.id ∨ (database.projectById other).map Project.userId ≠ some project.userId) →
      ¬ (getPreview links database now other signed.token path).Serves
  /-- The verification of any token answers. -/
  total : ∀ token other owner now,
    ∃ valid, links.signer.verifyToken other owner token now = .ok valid

/-- A path which is requested as it is written. -/
structure Verbatim (path : List Char) : Prop where
  plain : ∀ char ∈ path, Url.isRemoved char = false ∧ Url.endsPath char = false
  unescaped : ¬ Url.HasEscape path

def received (path : List Char) : List Char :=
  Url.unquote ((path.filter (¬ Url.isRemoved ·)).takeWhile (¬ Url.endsPath ·))

section Received

variable {path : List Char}

theorem received_of_verbatim (verbatim : Verbatim path) : received path = path := by
  have kept : path.filter (¬ Url.isRemoved ·) = path :=
    List.filter_eq_self.mpr fun char listed => by simp [(verbatim.plain char listed).1]
  have whole : path.takeWhile (¬ Url.endsPath ·) = path :=
    List.takeWhile_eq_self_iff.mpr fun char listed => by simp [(verbatim.plain char listed).2]
  rw [received, kept, whole, Url.unquote_of_plain verbatim.unescaped]

theorem lastLine_of_verbatim (verbatim : Verbatim path) : lastLine path = some path := by
  refine if_pos fun listed => ?_
  have plain := (verbatim.plain '\n' listed).1
  exact absurd plain (by decide)

theorem length_received_lt (disturbed : ¬ Verbatim path) :
    (received path).length < path.length := by
  have cut := (List.takeWhile_prefix (l := path.filter (¬ Url.isRemoved ·))
    (fun char => ¬ Url.endsPath char)).length_le
  have filtered :=
    (List.filter_sublist (p := fun char => ¬ Url.isRemoved char) (l := path)).length_le
  have unquoted := Url.length_unquote_le
    ((path.filter (¬ Url.isRemoved ·)).takeWhile (¬ Url.endsPath ·))
  rw [received]
  by_cases kept : ∀ char ∈ path, Url.isRemoved char = false
  swap
  · obtain ⟨char, listed, removed⟩ : ∃ char ∈ path, Url.isRemoved char = true := by simpa using kept
    have fewer := List.length_filter_lt_length_iff_exists
      (p := fun char => ¬ Url.isRemoved char) (l := path) |>.mpr ⟨char, listed, by simp [removed]⟩
    omega
  have same : path.filter (¬ Url.isRemoved ·) = path :=
    List.filter_eq_self.mpr fun char listed => by simp [kept char listed]
  rw [same] at cut unquoted ⊢
  by_cases open_ended : ∀ char ∈ path, Url.endsPath char = false
  swap
  · have fewer : (path.takeWhile (¬ Url.endsPath ·)).length ≠ path.length := by
      intro long
      have whole := (List.takeWhile_prefix (l := path)
        (fun char => ¬ Url.endsPath char)).eq_of_length long
      refine open_ended fun char listed => ?_
      have passed := List.takeWhile_eq_self_iff.mp whole char listed
      simpa using passed
    omega
  have whole : path.takeWhile (¬ Url.endsPath ·) = path :=
    List.takeWhile_eq_self_iff.mpr fun char listed => by simp [open_ended char listed]
  rw [whole]
  refine Url.length_unquote_lt ?_
  by_contra unescaped
  exact disturbed ⟨fun char listed => ⟨kept char listed, open_ended char listed⟩, unescaped⟩

end Received

section Request

variable {links : PreviewLinks} {project : Id} {token : List Nat}

def isFront (char : Char) : Bool := char.isAlphanum || ['/', '-', '_', '.', '='].contains char

theorem isFront_plain {char : Char} (front : isFront char = true) :
    Url.isRemoved char = false ∧ Url.endsPath char = false ∧ char ≠ '%' := by
  refine ⟨?_, ?_, ?_⟩
  · by_contra removed
    simp only [Url.isRemoved, Bool.not_eq_false, Bool.or_eq_true, beq_iff_eq] at removed
    rcases removed with (rfl | rfl) | rfl <;> exact absurd front (by decide)
  · by_contra ends
    simp only [Url.endsPath, Bool.not_eq_false, Bool.or_eq_true, beq_iff_eq] at ends
    rcases ends with rfl | rfl <;> exact absurd front (by decide)
  · rintro rfl
    exact absurd front (by decide)

def front (project : Id) (token : List Nat) : List Char :=
  "v1/preview/".toList ++ (project.text ++ '/' :: (token.map Char.ofNat ++ ['/']))

theorem route_eq : "/v1/preview/".toList = '/' :: "v1/preview/".toList := by decide

theorem previewPath_eq (project : Id) (token : List Nat) (entry : String) :
    previewPath project token entry = '/' :: (front project token ++ entry.toList) := by
  unfold previewPath front
  simp only [route_eq, List.append_assoc, List.cons_append, List.nil_append]

theorem isTokenCode_cases {code : Nat} (lawful : isTokenCode code = true) :
    isFront (Char.ofNat code) = true ∧ Char.ofNat code ≠ '/' ∧ (Char.ofNat code).toNat = code := by
  have small : code < 0x80 := by
    rw [isTokenCode, Bool.and_eq_true, decide_eq_true_eq] at lawful
    exact lawful.1
  have checked : ∀ code < 0x80, isTokenCode code = true →
      isFront (Char.ofNat code) = true ∧ Char.ofNat code ≠ '/' ∧
        (Char.ofNat code).toNat = code := by
    decide
  exact checked code small lawful

theorem front_lawful (lawful : ∀ code ∈ token, isTokenCode code = true) {char : Char}
    (listed : char ∈ front project token) : isFront char = true := by
  unfold front at listed
  rw [List.mem_append, List.mem_append, List.mem_cons, List.mem_append,
    List.mem_singleton] at listed
  rcases listed with literal | written | rfl | code | rfl
  · have checked : ("v1/preview/".toList.all isFront) = true := by decide
    exact List.all_eq_true.mp checked char literal
  · rcases mem_idText written with letter | rfl
    · rw [isFront, letter, Bool.true_or]
    · rfl
  · rfl
  · obtain ⟨number, within, rfl⟩ := List.mem_map.mp code
    exact (isTokenCode_cases (lawful number within)).1
  · rfl

theorem path_previewUrl (lawful : ∀ code ∈ token, isTokenCode code = true) (entry : String) :
    Url.unquote (Url.splitPath (previewUrl links.domain project token entry)) =
      '/' :: (front project token ++ received entry.toList) := by
  have plain {char : Char} (listed : char ∈ front project token) :=
    isFront_plain (front_lawful lawful listed)
  have kept : (front project token ++ entry.toList).filter (¬ Url.isRemoved ·) =
      front project token ++ entry.toList.filter (¬ Url.isRemoved ·) := by
    rw [List.filter_append, List.filter_eq_self.mpr fun char listed => by simp [(plain listed).1]]
  have cut : ((front project token ++ entry.toList).filter (¬ Url.isRemoved ·)).takeWhile
      (¬ Url.endsPath ·) = front project token ++
        (entry.toList.filter (¬ Url.isRemoved ·)).takeWhile (¬ Url.endsPath ·) := by
    rw [kept, List.takeWhile_append_of_pos fun char listed => by simp [(plain listed).2.1]]
  have split : Url.splitPath (previewUrl links.domain project token entry) =
      '/' :: (front project token ++
        (entry.toList.filter (¬ Url.isRemoved ·)).takeWhile (¬ Url.endsPath ·)) := by
    rw [previewUrl, previewPath_eq]
    split
    · have spelled : front project token ++ entry.toList =
          'v' :: (front project token ++ entry.toList).tail := rfl
      rw [spelled, Url.splitPath_relative (by decide) rfl, ← spelled, cut]
    · rw [Url.splitPath_absolute links.domain.lawful, cut]
  have unescaped : '%' ∉ '/' :: front project token := by
    rw [List.mem_cons, not_or]
    exact ⟨by decide, fun listed => (plain listed).2.2 rfl⟩
  rw [split, ← List.cons_append, Url.unquote_append unescaped, List.cons_append, received]

theorem pathSegment_append {segment rest : List Char} (nonempty : segment ≠ [])
    (single : '/' ∉ segment) : pathSegment (segment ++ '/' :: rest) = some (segment, rest) := by
  have taken : (segment ++ '/' :: rest).takeWhile (· ≠ '/') = segment := by
    rw [List.takeWhile_append_of_pos, List.takeWhile_cons_of_neg (by decide), List.append_nil]
    intro char listed
    simp only [decide_eq_true_eq, ne_eq]
    rintro rfl
    exact single listed
  rw [pathSegment, taken]
  simp [nonempty]

theorem readId_text (id : Id) : readId id.text = some id := by
  rw [readId, Id.text, Uuid.ofText_toText id.isLt (Uuid.lower_toText id.val), Option.bind_some,
    dif_pos id.isLt]

theorem serve_previewUrl (nonempty : token ≠ [])
    (lawful : ∀ code ∈ token, isTokenCode code = true) (database : Database) (now : Int)
    (entry : String) :
    serve links database now (previewUrl links.domain project token entry) =
      match lastLine (received entry.toList) with
      | none => .notFound
      | some path => getPreview links database now project token (String.ofList path) := by
  have unslashed : '/' ∉ project.text := by
    intro listed
    rcases mem_idText listed with letter | dash
    · exact absurd letter (by decide)
    · exact absurd dash (by decide)
  have unslashed_token : '/' ∉ token.map Char.ofNat := by
    intro listed
    obtain ⟨code, within, same⟩ := List.mem_map.mp listed
    exact (isTokenCode_cases (lawful code within)).2.1 same
  have written : project.text ≠ [] := by
    refine List.ne_nil_of_length_pos ?_
    simp [Id.text, Uuid.toText]
  have back : (token.map Char.ofNat).map Char.toNat = token := by
    rw [List.map_map]
    refine (List.map_congr_left fun code within => ?_).trans (List.map_id _)
    exact (isTokenCode_cases (lawful code within)).2.2
  have routed : routePreview ('/' :: (front project token ++ received entry.toList)) =
      (lastLine (received entry.toList)).map (project.text, token.map Char.ofNat, ·) := by
    have shape : '/' :: (front project token ++ received entry.toList) =
        "/v1/preview/".toList ++ (project.text ++ '/' ::
          (token.map Char.ofNat ++ '/' :: received entry.toList)) := by
      unfold front
      simp only [route_eq, List.append_assoc, List.cons_append, List.nil_append]
    rw [routePreview, shape, if_pos (by simp), List.drop_left' (by decide)]
    simp only [pathSegment_append written unslashed, Option.bind_eq_bind, Option.bind_some,
      pathSegment_append (by simpa using nonempty) unslashed_token]
    cases lastLine (received entry.toList) <;> rfl
  rw [serve, path_previewUrl lawful, routed]
  cases lastLine (received entry.toList) with
  | none => rfl
  | some path =>
      simp only [Option.map_some, readId_text, back]

end Request

section Law

variable {links : PreviewLinks} {project : Project} {issued : Int} {signed : SignedPreview}
  {path : String}

theorem getPreview_buildToken
    (built : links.signer.buildToken project.id project.userId issued = .ok signed)
    (database : Database) (now : Int) (other : Id) (path : String) :
    getPreview links database now other signed.token path =
      match database.projectById other with
      | none => .notFound
      | some found =>
          if other = project.id ∧ found.userId = project.userId ∧
              now ≤ issued + links.signer.ttl then
            match database.readFile other path with
            | none => .notFound
            | some file => .ok file.content file.contentType
          else .forbidden := by
  rw [getPreview]
  cases database.projectById other with
  | none => rfl
  | some found =>
      simp only [verifyToken_buildToken built]
      by_cases valid : other = project.id ∧ found.userId = project.userId ∧
          now ≤ issued + links.signer.ttl
      · rw [if_pos valid, decide_eq_true valid]
      · rw [if_neg valid, decide_eq_false valid]

/-- The token of a link serves nothing to others, and nothing later. -/
theorem not_serves_of_invalid
    (built : links.signer.buildToken project.id project.userId issued = .ok signed)
    {database : Database} {now : Int} {other : Id} {path : String}
    (invalid : ¬ (other = project.id ∧
      (database.projectById other).map Project.userId = some project.userId ∧
        now ≤ issued + links.signer.ttl)) :
    ¬ (getPreview links database now other signed.token path).Serves := by
  rw [getPreview_buildToken built]
  cases found : database.projectById other with
  | none => exact id
  | some owned =>
      dsimp only
      rw [if_neg]
      · exact id
      · rintro ⟨same, owner, fresh⟩
        exact invalid ⟨same, by rw [found, Option.map_some, owner], fresh⟩

theorem preview_eq_ok {database : Database} {user : Id} {externalProjectId : String}
    {url expiresAt : List Char} (written : path ≠ "")
    (answered : preview links database issued user externalProjectId (some path) =
      .ok url expiresAt) :
    ∃ project signed, database.existingProject user externalProjectId = some project ∧
      project.userId = user ∧
      links.signer.buildToken project.id user issued = .ok signed ∧
      url = previewUrl links.domain project.id signed.token path := by
  rw [preview] at answered
  split at answered
  case h_1 => cases answered
  case h_2 project found =>
      dsimp only at answered
      rw [Option.getD_some, if_neg written] at answered
      split at answered
      case h_1 => cases answered
      case h_2 => cases answered
      case h_3 signed built =>
          split at answered
          case isFalse => cases answered
          case isTrue =>
              cases answered
              have owner := List.find?_some found
              simp only [Bool.and_eq_true, beq_iff_eq] at owner
              exact ⟨project, signed, found, owner.1, built, rfl⟩

theorem token_ne_nil {user : Id}
    (built : links.signer.buildToken project.id user issued = .ok signed) :
    signed.token ≠ [] := by
  rw [(buildToken_eq_ok built).2.2.2]
  simp

/-- A link to a path which is requested as it is written does what it is to do. -/
theorem Verbatim.linkLaw (verbatim : Verbatim path.toList)
    (stored : normalizeSitePath path = .ok path)
    (built : links.signer.buildToken project.id project.userId issued = .ok signed) :
    LinkLaw links project issued path (previewUrl links.domain project.id signed.token path) where
  opens database now file owned kept fresh := by
    rw [serve_previewUrl (token_ne_nil built) fun _ => token_codes built,
      received_of_verbatim verbatim, lastLine_of_verbatim verbatim]
    dsimp only
    rw [String.ofList_toList, getPreview_buildToken built]
    obtain ⟨owner, present, same⟩ := Option.map_eq_some_iff.mp owned
    have read : database.readFile project.id path = some file := by
      rw [Database.readFile, stored]
      exact kept
    rw [present]
    dsimp only
    rw [if_pos ⟨rfl, same, fresh⟩, read]
  expires token database now other path built late := by
    refine not_serves_of_invalid built ?_
    omega
  bound token database now other path built moved := by
    refine not_serves_of_invalid built ?_
    rintro ⟨same, owned, -⟩
    rcases moved with apart | apart
    · exact apart same
    · exact apart owned
  total token other owner now := verifyToken_total (buildToken_eq_ok built).1 other owner token now

/-- In a project which has one file only, a link to any other path does not open it. -/
theorem LinkLaw.verbatim
    (built : links.signer.buildToken project.id project.userId issued = .ok signed)
    (law : LinkLaw links project issued path
      (previewUrl links.domain project.id signed.token path)) : Verbatim path.toList := by
  by_contra disturbed
  let row : SiteFile := ⟨0, path, [], "text/html", 0⟩
  let alone : Database := ⟨[project], [(project.id, row)]⟩
  have opened := law.opens alone (issued + links.signer.ttl) row
    (by simp [alone, Database.projectById]) (by simp [alone, Database.file, row]) (Int.le_refl _)
  rw [serve_previewUrl (token_ne_nil built) fun _ => token_codes built] at opened
  split at opened
  case h_1 => cases opened
  case h_2 line read =>
      have shorter : line.length < path.toList.length := by
        have bound := length_received_lt disturbed
        rw [lastLine] at read
        split at read
        · cases read
          exact bound
        split at read
        · cases read
          rw [List.length_dropLast]
          omega
        · cases read
      have missed : alone.readFile project.id (String.ofList line) = none := by
        rw [Database.readFile]
        split
        · rfl
        next normalized accepted =>
          have bound := length_normalize_le accepted
          rw [String.toList_ofList] at bound
          have other : path ≠ normalized := by
            rintro rfl
            omega
          simp [alone, Database.file, row, other]
      rw [getPreview_buildToken built, missed] at opened
      split at opened
      · cases opened
      · split at opened <;> cases opened

/-- A link does what it is to do exactly where its path is requested as it is written. -/
theorem link_lawful_iff (database : Database) (user : Id) (externalProjectId : String)
    (url expiresAt : List Char) (stored : normalizeSitePath path = .ok path)
    (found : database.existingProject user externalProjectId = some project)
    (answered : preview links database issued user externalProjectId (some path) =
      .ok url expiresAt) :
    LinkLaw links project issued path url ↔ Verbatim path.toList := by
  have nonempty : path ≠ "" := by
    rintro rfl
    cases stored
  obtain ⟨other, signed, again, rfl, built, rfl⟩ := preview_eq_ok nonempty answered
  obtain rfl : project = other := Option.some.inj (found.symm.trans again)
  exact ⟨LinkLaw.verbatim built, fun verbatim => verbatim.linkLaw stored built⟩

end Law

/-! ## A link which opens, and one which does not -/

section Samples

def shop : Project := ⟨1, 2, "shop"⟩

def shopFiles : Database where
  projects := [shop]
  files := [(1, ⟨1, "index.html", [0x68, 0x69], "text/html", 2⟩),
    (1, ⟨2, "faq?.html", [0x3f], "text/html", 1⟩)]

/-- Links without a host, where the code over a message is the message. -/
def plainLinks : PreviewLinks where
  signer :=
    { hmac := ⟨fun _ message => message, fun _ => Function.injective_id⟩, secret := "secret" }
  domain := ⟨[], by simp⟩

theorem shop_issued {entry : String} (written : entry ≠ "") :
    ∃ signed expiresAt, plainLinks.signer.buildToken shop.id shop.userId 0 = .ok signed ∧
      preview plainLinks shopFiles 0 2 "shop" (some entry) =
        .ok (previewUrl plainLinks.domain shop.id signed.token entry) expiresAt := by
  have small : (900 : Int).natAbs < 10 ^ Text.maxStrDigits :=
    (show 900 < 10 ^ 3 by decide).trans (Nat.pow_lt_pow_right (by decide) (by decide))
  obtain ⟨signed, built, expires⟩ :=
    @exists_buildToken plainLinks.signer shop.id shop.userId 0 (by decide) small
  refine ⟨signed, Calendar.isoformat 900000000, built, ?_⟩
  have found : shopFiles.existingProject 2 "shop" = some shop := by decide
  have built' : plainLinks.signer.buildToken shop.id 2 0 = .ok signed := built
  rw [preview, found]
  dsimp only
  rw [built', Option.getD_some, if_neg written]
  dsimp only
  rw [expires, if_pos (by decide)]
  rfl

theorem index_link_opens : ∃ url expiresAt,
    preview plainLinks shopFiles 0 2 "shop" (some "index.html") = .ok url expiresAt ∧
      LinkLaw plainLinks shop 0 "index.html" url := by
  obtain ⟨signed, expiresAt, built, answered⟩ := @shop_issued "index.html" (by decide)
  refine ⟨_, expiresAt, answered, ?_⟩
  have plain : ("index.html".toList.all fun char =>
      !Url.isRemoved char && !Url.endsPath char && char != '%') = true := by decide
  have verbatim : Verbatim "index.html".toList := by
    refine ⟨fun char listed => ?_, Url.not_hasEscape fun listed => ?_⟩
    · have checked := List.all_eq_true.mp plain char listed
      simp only [Bool.and_eq_true, Bool.not_eq_true'] at checked
      exact checked.1
    · exact absurd (List.all_eq_true.mp plain '%' listed) (by decide)
  exact (link_lawful_iff shopFiles 2 "shop" _ expiresAt (by decide) (by decide) answered).mpr
    verbatim

/-- A link to a file with a question mark in its name does not open it. -/
theorem question_mark_link_lost : ∃ url expiresAt,
    preview plainLinks shopFiles 0 2 "shop" (some "faq?.html") = .ok url expiresAt ∧
      ¬ LinkLaw plainLinks shop 0 "faq?.html" url := by
  obtain ⟨signed, expiresAt, built, answered⟩ := @shop_issued "faq?.html" (by decide)
  refine ⟨_, expiresAt, answered, fun law => ?_⟩
  have marked : '?' ∈ "faq?.html".toList := by decide
  have plain := ((law.verbatim built).plain '?' marked).2
  exact absurd plain (by decide)

end Samples

end Hermes.Website
