import Hermes.Storage.Quota
import Hermes.Storage.Workspace

/-!
# Storage limits under concurrency

The limits hold in every run whose commits are orderly.  They do not hold in every run: two sessions
may check the same numbers before either commits, insert the same path, or replace the same row,
each writing the columns it found to differ.
-/

namespace Hermes.Storage

/-- The committed files of a project keep the limits, sizes are those of the contents, every content
was there at the start or was to be written at its path, and no call has ended with a server
error. -/
structure Site.Kept (settings : PreviewSettings) (start : List SiteFile) (site : Site) : Prop where
  files : (site.committed.length : ℤ) ≤ settings.maxFiles
  bytes : ((site.committed.map SiteFile.size).sum : ℤ) ≤ settings.maxProjectBytes
  sizes : ∀ row ∈ site.committed, row.size = row.content.length
  contents : ∀ row ∈ site.committed,
    (∃ old ∈ start, old.path = row.path ∧ old.content = row.content) ∨
      ∃ write ∈ site.requested, write.path = row.path ∧ write.content = row.content
  served : ∀ session ∈ site.sessions, .failed ∉ session.outcomes

theorem Site.Good.kept {settings : PreviewSettings} {start : List SiteFile} {site : Site}
    (good : site.Good settings start) : site.Kept settings start where
  files := good.sound.files
  bytes := good.sound.bytes
  sizes := good.sound.sizes
  contents := good.sound.authored
  served session listed := (good.sessions session listed).unfailed

/-- For all settings, all files at the start and every interleaving of statements in which commits
are orderly: the files of a project and those of a workspace keep their limits in every state. -/
theorem storage_limits_kept {previews : PreviewSettings} {workspaces : WorkspaceSettings}
    (project : StoredSite previews) (stored : StoredWorkspace workspaces) {site : Site}
    {workspace : Workspace}
    (site_reached : project.Reaches (fun site event => site.orderly event = true) site)
    (workspace_reached :
      stored.Reaches (fun workspace event => workspace.orderly event = true) workspace) :
    site.Kept previews project.rows ∧ workspaces.Keeps workspace.committed :=
  ⟨(project.good_of_reaches site_reached).kept, (stored.good_of_reaches workspace_reached).rows⟩

namespace Sample

/-- A project may have one file. -/
def previews : PreviewSettings := { maxFiles := 1 }

def empty : StoredSite previews where
  rows := []
  files := by decide
  bytes := by decide
  sizes := by simp
  distinct := by simp
  ids := 0
  known := by simp

/-- A project with a file of two bytes. -/
def single : StoredSite previews where
  rows := [⟨0, "index.html", [1, 2], "text/html", 2⟩]
  files := by decide
  bytes := by decide
  sizes := by decide
  distinct := by decide
  ids := 1
  known := by decide

/-- A workspace may have one file. -/
def workspaces : WorkspaceSettings where
  fileMaxCount := 1
  filesTotalBytes := 100
  validateAndExtract request := .ok ⟨request.data.toUTF8.toList, some request.data⟩

def bare : StoredWorkspace workspaces where
  rows := []
  keeps := ⟨by decide, by decide, by simp⟩
  ids := 0

/-- A write from its request to its result. -/
def wholeWrite (index : Nat) (path : String) (content : List UInt8) : List SiteEvent :=
  [.write index path content "text/html", .advance index, .advance index, .advance index,
    .advance index]

/-- Two sessions write, and then both commit. -/
def together (first second : String) (one other : List UInt8) : List SiteEvent :=
  [.connect, .connect] ++ wholeWrite 0 first one ++ wholeWrite 1 second other ++
    [.commit 0, .commit 1]

/-- The second session commits before the first one flushes. -/
def between (path : String) (one other : List UInt8) : List SiteEvent :=
  [.connect, .connect, .write 0 path one "text/html", .advance 0, .advance 0] ++
    wholeWrite 1 path other ++ [.commit 1, .advance 0]

def request (data : String) : WorkspaceFileUploadRequest := ⟨.text, "notes", "text/plain", data⟩

/-- One request uploads after the other. -/
def inTurn : List WorkspaceEvent :=
  [.upload (request "a"), .advance 0, .advance 0, .advance 0, .advance 0, .upload (request "b"),
    .advance 1]

/-- Both requests count before either inserts. -/
def atOnce : List WorkspaceEvent :=
  [.upload (request "a"), .upload (request "b"), .advance 0, .advance 1, .advance 0, .advance 1,
    .advance 0, .advance 1, .advance 0, .advance 1]

/-- Two writes of one path, one after the other. -/
def serial : List SiteEvent :=
  [.connect, .connect] ++ wholeWrite 0 "a" [1] ++ [.commit 0] ++ wholeWrite 1 "./a" [2, 3] ++
    [.commit 1]

end Sample

open Sample in
/-- Two writes of a new path one after the other, and a second upload which is refused. -/
theorem serial_limits_kept :
    ∃ (site : Site) (workspace : Workspace), site.committed.map SiteFile.content = [[2, 3]] ∧
      site.Kept previews empty.rows ∧ workspace.requests.length = 2 ∧
        workspaces.Keeps workspace.committed := by
  obtain ⟨site, site_reached, written⟩ := reachable_of_any (Site.step previews)
    (fun site event => site.orderly event = true) empty.site
    (fun site => site.committed.map SiteFile.content == [[2, 3]]) serial (by decide)
  obtain ⟨workspace, workspace_reached, asked⟩ := reachable_of_any (Workspace.step workspaces)
    (fun workspace event => workspace.orderly event = true) bare.workspace
    (fun workspace => workspace.requests.length == 2) inTurn (by decide +kernel)
  obtain ⟨site_kept, workspace_kept⟩ :=
    storage_limits_kept empty bare site_reached workspace_reached
  exact ⟨site, workspace, by simpa using written, site_kept, by simpa using asked, workspace_kept⟩

open Sample in
/-- Two sessions together exceed the number of files; of two writes of one new path one ends with a
server error; two replacements of one file leave a size which is not that of the content; and two
uploads together exceed the number of files of a workspace. -/
theorem concurrent_writes_exceed_limits :
    (∃ site, empty.Reaches (fun _ _ => True) site ∧ ¬site.Kept previews empty.rows ∧
      site.committed.length = 2) ∧
    (∃ site, empty.Reaches (fun _ _ => True) site ∧
      ∃ session ∈ site.sessions, .failed ∈ session.outcomes) ∧
    (∃ site, single.Reaches (fun _ _ => True) site ∧
      ∃ row ∈ site.committed, row.size ≠ row.content.length) ∧
    ∃ workspace, bare.Reaches (fun _ _ => True) workspace ∧
      ¬workspaces.Keeps workspace.committed := by
  refine ⟨?_, ?_, ?_, ?_⟩
  · obtain ⟨site, reached, exceeded⟩ := reachable_of_any (Site.step previews) (fun _ _ => True)
      empty.site (fun site => site.committed.length == 2) (together "a" "b" [1] [2])
      (by decide)
    rw [beq_iff_eq] at exceeded
    refine ⟨site, reached, ?_, exceeded⟩
    intro kept
    have files := kept.files
    rw [exceeded] at files
    exact absurd files (by decide)
  · obtain ⟨site, reached, failed⟩ := reachable_of_any (Site.step previews) (fun _ _ => True)
      empty.site (fun site => site.sessions.any fun session =>
        session.outcomes.any (· == .failed)) (between "a" [1] [2]) (by decide)
    refine ⟨site, reached, ?_⟩
    obtain ⟨session, listed, failed⟩ := List.any_eq_true.mp failed
    obtain ⟨outcome, present, same⟩ := List.any_eq_true.mp failed
    rw [beq_iff_eq] at same
    exact ⟨session, listed, same ▸ present⟩
  · obtain ⟨site, reached, differs⟩ := reachable_of_any (Site.step previews) (fun _ _ => True)
      single.site (fun site => site.committed.any fun row => row.size != row.content.length)
      (between "index.html" [3, 4] [1, 2, 3] ++ [.advance 0, .commit 0]) (by decide)
    refine ⟨site, reached, ?_⟩
    obtain ⟨row, listed, differs⟩ := List.any_eq_true.mp differs
    exact ⟨row, listed, by simpa using differs⟩
  · obtain ⟨workspace, reached, exceeded⟩ := reachable_of_any (Workspace.step workspaces)
      (fun _ _ => True) bare.workspace (fun workspace => workspace.committed.length == 2) atOnce
      (by decide +kernel)
    rw [beq_iff_eq] at exceeded
    refine ⟨workspace, reached, ?_⟩
    intro keeps
    have files := keeps.files
    rw [exceeded] at files
    exact absurd files (by decide)

end Hermes.Storage
