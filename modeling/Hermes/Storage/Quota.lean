import Mathlib
import Hermes.Storage.Site

/-!
# The limits of a website

Every session sees rows which keep the limits, and a write which has passed its checks would keep
them still.  A commit which is not orderly takes that away from the writes which are under way.
-/

namespace Hermes.Storage

/-- What is known of the rows a session sees: they keep the limits, sizes are those of the contents,
and every content is one of the first rows or one which was to be written at this path. -/
structure Sound (settings : PreviewSettings) (start : List SiteFile) (ids : Nat)
    (requested : List FileWrite) (rows : List SiteFile) : Prop where
  files : (rows.length : ℤ) ≤ settings.maxFiles
  bytes : ((rows.map SiteFile.size).sum : ℤ) ≤ settings.maxProjectBytes
  sizes : ∀ row ∈ rows, row.size = row.content.length
  distinct : (rows.map SiteFile.id).Nodup
  known : ∀ row ∈ rows, row.id < ids
  authored : ∀ row ∈ rows, (∃ old ∈ start, old.path = row.path ∧ old.content = row.content) ∨
    ∃ write ∈ requested, write.path = row.path ∧ write.content = row.content

section Rows

variable {settings : PreviewSettings} {start rows : List SiteFile} {ids : Nat}
  {requested : List FileWrite} {write : FileWrite} {row : SiteFile}

theorem Sound.sublist {fewer : List SiteFile} (sound : Sound settings start ids requested rows)
    (within : fewer.Sublist rows) : Sound settings start ids requested fewer where
  files := by
    have shorter := within.length_le
    have files := sound.files
    omega
  bytes := by
    have smaller : (fewer.map SiteFile.size).sum ≤ (rows.map SiteFile.size).sum :=
      (within.map SiteFile.size).sum_le_sum (by simp)
    have bytes := sound.bytes
    omega
  sizes row listed := sound.sizes row (within.subset listed)
  distinct := sound.distinct.sublist (within.map SiteFile.id)
  known row listed := sound.known row (within.subset listed)
  authored row listed := sound.authored row (within.subset listed)

theorem Sound.grow {more : Nat} {later : List FileWrite}
    (sound : Sound settings start ids requested rows) (grown : ids ≤ more)
    (extended : requested ⊆ later) : Sound settings start more later rows where
  files := sound.files
  bytes := sound.bytes
  sizes := sound.sizes
  distinct := sound.distinct
  known row listed := lt_of_lt_of_le (sound.known row listed) grown
  authored row listed := by
    rcases sound.authored row listed with old | ⟨write, asked, same⟩
    · exact .inl old
    · exact .inr ⟨write, extended asked, same⟩

theorem checkLimits_eq_none {stats : ProjectStats} {existing : Option SiteFile} {size : Nat} :
    checkLimits settings stats existing size = none ↔
      (stats.projectBytes : ℤ) - ((existing.map SiteFile.size).getD 0 : ℕ) + size ≤
          settings.maxProjectBytes ∧
        (stats.fileCount : ℤ) + (if existing.isNone then 1 else 0) ≤ settings.maxFiles := by
  unfold checkLimits
  by_cases bytes : settings.maxProjectBytes <
      (stats.projectBytes : ℤ) - ((existing.map SiteFile.size).getD 0 : ℕ) + size
  · simp only [if_pos bytes, reduceCtorEq, false_iff]
    intro kept
    omega
  · simp only [if_neg bytes, not_lt.mp bytes, true_and]
    by_cases files : settings.maxFiles < (stats.fileCount : ℤ) + if existing.isNone then 1 else 0
    · simp only [if_pos files, reduceCtorEq, false_iff, not_le]
      exact files
    · simp only [if_neg files, true_iff]
      exact not_lt.mp files

theorem Sound.insert (sound : Sound settings start ids requested rows) (asked : write ∈ requested)
    (checked : checkLimits settings (projectStats rows) none write.content.length = none) :
    Sound settings start (ids + 1) requested
      ((Change.insert ⟨ids, write.path, write.content, write.contentType,
        write.content.length⟩).apply rows) := by
  obtain ⟨bytes, files⟩ := checkLimits_eq_none.mp checked
  have grown : Sound settings start (ids + 1) requested rows := sound.grow (by omega) (fun _ => id)
  simp only [projectStats, Option.map_none, Option.getD_none, Option.isNone_none, if_true]
    at bytes files
  constructor
  · rw [Change.apply, List.length_append, List.length_singleton]
    omega
  · rw [Change.apply, List.map_append, List.sum_append]
    simp only [List.map_singleton, List.sum_singleton]
    omega
  · intro row listed
    rcases List.mem_append.mp listed with old | fresh
    · exact sound.sizes row old
    · rw [List.mem_singleton.mp fresh]
  · rw [Change.apply, List.map_append, List.map_singleton, List.nodup_append]
    refine ⟨sound.distinct, List.nodup_singleton _, ?_⟩
    intro first listed second fresh same
    obtain ⟨row, old, rfl⟩ := List.mem_map.mp listed
    have below := sound.known row old
    have fresh_eq : second = ids := List.mem_singleton.mp fresh
    omega
  · intro row listed
    rcases List.mem_append.mp listed with old | fresh
    · exact grown.known row old
    · rw [List.mem_singleton.mp fresh]
      exact Nat.lt_succ_self ids
  · intro row listed
    rcases List.mem_append.mp listed with old | fresh
    · exact sound.authored row old
    · rw [List.mem_singleton.mp fresh]
      exact .inr ⟨write, asked, rfl, rfl⟩

/-- A loaded row with what it is replaced by. -/
def replaced (row : SiteFile) (write : FileWrite) : SiteFile :=
  { row with
    content := write.content
    contentType := write.contentType
    size := write.content.length }

theorem column_getD {α : Type} [DecidableEq α] (loaded assigned : α) :
    (Change.column loaded assigned).getD loaded = assigned := by
  unfold Change.column
  split
  next same => exact same.symm
  next => rfl

/-- The rows after a row is replaced which is still as it was loaded. -/
theorem apply_replace (distinct : (rows.map SiteFile.id).Nodup) (listed : row ∈ rows) :
    (Change.replace row write).apply rows = rows.map fun other =>
      if other.id = row.id then replaced row write else other := by
  apply List.map_congr_left
  intro other present
  by_cases same : other.id = row.id
  · obtain rfl : other = row := List.inj_on_of_nodup_map distinct present listed same
    rw [if_pos rfl, if_pos rfl, column_getD, column_getD, column_getD]
    rfl
  · rw [if_neg same, if_neg same]

theorem sum_replaced (write : FileWrite) (distinct : (rows.map SiteFile.id).Nodup)
    (listed : row ∈ rows) :
    ((rows.map fun other => if other.id = row.id then replaced row write else other).map
        SiteFile.size).sum + row.size = (rows.map SiteFile.size).sum + write.content.length := by
  induction rows with
  | nil => cases listed
  | cons head later induction =>
      rw [List.map_cons, List.nodup_cons] at distinct
      rcases List.mem_cons.mp listed with rfl | listed_later
      · have others : (later.map fun other =>
            if other.id = row.id then replaced row write else other) = later := by
          refine (List.map_congr_left ?_).trans (List.map_id _)
          intro other present
          have differs : other.id ≠ row.id := fun same =>
            distinct.1 (same ▸ List.mem_map_of_mem present)
          rw [if_neg differs]
          rfl
        have size_eq : (replaced row write).size = write.content.length := rfl
        rw [List.map_cons, if_pos rfl, others]
        simp only [List.map_cons, List.sum_cons]
        omega
      · have differs : head.id ≠ row.id := fun same =>
          distinct.1 (same ▸ List.mem_map_of_mem listed_later)
        have rest := induction distinct.2 listed_later
        simp only [List.map_cons, List.sum_cons, if_neg differs] at rest ⊢
        omega

theorem Sound.replace (sound : Sound settings start ids requested rows) (asked : write ∈ requested)
    (listed : row ∈ rows) (path_eq : row.path = write.path)
    (checked : checkLimits settings (projectStats rows) (some row) write.content.length = none) :
    Sound settings start ids requested ((Change.replace row write).apply rows) := by
  obtain ⟨bytes, files⟩ := checkLimits_eq_none.mp checked
  have sum_eq := sum_replaced write sound.distinct listed
  rw [apply_replace sound.distinct listed]
  have cases_of {other : SiteFile} (present : other ∈ rows.map fun other =>
      if other.id = row.id then replaced row write else other) :
      other = replaced row write ∨ other ∈ rows := by
    obtain ⟨old, old_listed, rfl⟩ := List.mem_map.mp present
    split
    · exact .inl rfl
    · exact .inr old_listed
  have ids_eq : (rows.map fun other => if other.id = row.id then replaced row write else other).map
      SiteFile.id = rows.map SiteFile.id := by
    rw [List.map_map]
    apply List.map_congr_left
    intro other _
    by_cases same : other.id = row.id
    · simp [same, replaced]
    · simp [same]
  constructor
  · rw [List.length_map]
    exact sound.files
  · simp only [projectStats, Option.map_some, Option.getD_some] at bytes
    omega
  · intro other present
    rcases cases_of present with rfl | old
    · rfl
    · exact sound.sizes other old
  · rw [ids_eq]
    exact sound.distinct
  · intro other present
    rcases cases_of present with rfl | old
    · exact sound.known row listed
    · exact sound.known other old
  · intro other present
    rcases cases_of present with rfl | old
    · exact .inr ⟨write, asked, path_eq.symm, rfl⟩
    · exact sound.authored other old

/-- A change is made alike when rows which it does not insert are left out. -/
theorem apply_filter (change : Change) (keep : Nat → Bool)
    (kept : ∀ id, change.concerns id = true → keep id = true) :
    change.apply (rows.filter fun row => keep row.id) =
      (change.apply rows).filter fun row => keep row.id := by
  cases change with
  | insert row =>
      have stays : keep row.id = true := kept row.id (by simp [Change.concerns])
      simp [Change.apply, stays]
  | update id content contentType size =>
      rw [Change.apply, Change.apply, List.filter_map]
      congr 1
      apply List.filter_congr
      intro row _
      by_cases same : row.id = id
      · simp [same]
      · simp [same]
  | delete id => simp [Change.apply, List.filter_filter, Bool.and_comm]

/-- The work of a session is done alike when rows which it does not write are left out. -/
theorem foldl_apply_filter (work : List Change) (keep : Nat → Bool)
    (kept : ∀ change ∈ work, ∀ id, change.concerns id = true → keep id = true)
    (rows : List SiteFile) :
    work.foldl Change.apply (rows.filter fun row => keep row.id) =
      (work.foldl Change.apply rows).filter fun row => keep row.id := by
  induction work generalizing rows with
  | nil => rfl
  | cons change later induction =>
      rw [List.foldl_cons, List.foldl_cons,
        apply_filter change keep (kept change List.mem_cons_self)]
      exact induction (fun other listed => kept other (List.mem_cons_of_mem _ listed)) _

theorem foldl_apply_deletions (work : List Change)
    (deletes : ∀ change ∈ work, ¬change.writes = true) (rows : List SiteFile) :
    work.foldl Change.apply rows = rows.filter fun row => decide (Change.delete row.id ∉ work) := by
  induction work generalizing rows with
  | nil => simp
  | cons change later induction =>
      cases change with
      | insert row => exact absurd rfl (deletes _ List.mem_cons_self)
      | update id content contentType size => exact absurd rfl (deletes _ List.mem_cons_self)
      | delete id =>
          rw [List.foldl_cons, induction fun other listed =>
            deletes other (List.mem_cons_of_mem _ listed), Change.apply, List.filter_filter]
          apply List.filter_congr
          intro row _
          simp [Bool.and_comm]

theorem find_filter {path : String} (keep : Nat → Bool)
    (kept : ∀ row, rows.find? (·.path == path) = some row → keep row.id = true) :
    (rows.filter fun row => keep row.id).find? (·.path == path) =
      rows.find? (·.path == path) := by
  rw [List.find?_filter]
  induction rows with
  | nil => rfl
  | cons head later induction =>
      by_cases there : head.path = path
      · have stays : keep head.id = true := kept head (by simp [there])
        simp [there, stays]
      · rw [List.find?_cons_of_neg (by simp [there])] at kept ⊢
        rw [List.find?_cons_of_neg (by simp [there])]
        exact induction kept

end Rows

def SiteStage.pending : SiteStage → Option FileWrite
  | .searching write | .measuring write _ | .writing write _ => some write
  | _ => none

/-- The row a write has found, if it has looked for one. -/
def SiteStage.found : SiteStage → Option (Option SiteFile)
  | .measuring _ existing | .writing _ existing => some existing
  | _ => none

/-- What is known of a session: what it sees is sound, the row a write has found is still the one at
its path, and what has passed the checks would pass them still. -/
structure SiteSession.Good (settings : PreviewSettings) (start committed : List SiteFile)
    (ids : Nat) (requested : List FileWrite) (session : SiteSession) : Prop where
  sound : Sound settings start ids requested (session.view committed)
  asked : ∀ write, session.stage.pending = some write → write ∈ requested
  found : ∀ write existing, session.stage.pending = some write →
    session.stage.found = some existing →
      existing = (session.view committed).find? (·.path == write.path)
  checked : ∀ write existing, session.stage = .writing write existing →
    checkLimits settings (projectStats (session.view committed)) existing
      write.content.length = none
  unfailed : .failed ∉ session.outcomes

structure Site.Good (settings : PreviewSettings) (start : List SiteFile) (site : Site) : Prop where
  sound : Sound settings start site.ids site.requested site.committed
  sessions : ∀ session ∈ site.sessions,
    session.Good settings start site.committed site.ids site.requested

section Sessions

variable {settings : PreviewSettings} {start committed : List SiteFile} {ids : Nat}
  {requested : List FileWrite} {session : SiteSession} {site after : Site} {index : Nat}

namespace SiteSession.Good

theorem of_calm (sound : Sound settings start ids requested (session.view committed))
    (calm : session.stage.pending = none) (unfailed : .failed ∉ session.outcomes) :
    session.Good settings start committed ids requested where
  sound := sound
  asked write pending := by cases calm.symm.trans pending
  found write _ pending := by cases calm.symm.trans pending
  checked write existing stage_eq := by
    rw [stage_eq] at calm
    cases calm
  unfailed := unfailed

theorem finish {outcome : SiteOutcome} (good : session.Good settings start committed ids requested)
    (other : .failed ≠ outcome) :
    (session.finish outcome).Good settings start committed ids requested := by
  refine of_calm good.sound rfl ?_
  rw [SiteSession.finish, List.mem_append, List.mem_singleton, not_or]
  exact ⟨good.unfailed, other⟩

theorem grow {more : Nat} {later : List FileWrite}
    (good : session.Good settings start committed ids requested) (grown : ids ≤ more)
    (extended : requested ⊆ later) : session.Good settings start committed more later where
  sound := good.sound.grow grown extended
  asked write pending := extended (good.asked write pending)
  found := good.found
  checked := good.checked
  unfailed := good.unfailed

theorem search {write : FileWrite} (good : session.Good settings start committed ids requested)
    (stage_eq : session.stage = .searching write) :
    { session with
      stage := .measuring write ((session.view committed).find? (·.path == write.path)) }.Good
        settings start committed ids requested where
  sound := good.sound
  asked := by
    rintro _ ⟨⟩
    exact good.asked write (by rw [stage_eq]; rfl)
  found := by
    rintro _ _ ⟨⟩ ⟨⟩
    rfl
  checked := nofun
  unfailed := good.unfailed

theorem measure {write : FileWrite} {existing : Option SiteFile}
    (good : session.Good settings start committed ids requested)
    (stage_eq : session.stage = .measuring write existing)
    (checked : checkLimits settings (projectStats (session.view committed)) existing
      write.content.length = none) :
    { session with stage := .writing write existing }.Good settings start committed ids
      requested where
  sound := good.sound
  asked := by
    rintro _ ⟨⟩
    exact good.asked write (by rw [stage_eq]; rfl)
  found := by
    rintro _ _ ⟨⟩ ⟨⟩
    exact good.found write existing (by rw [stage_eq]; rfl) (by rw [stage_eq]; rfl)
  checked := by
    rintro _ _ ⟨⟩
    exact checked
  unfailed := good.unfailed

theorem insert {write : FileWrite} (good : session.Good settings start committed ids requested)
    (stage_eq : session.stage = .writing write none) :
    { session with
      stage := .reporting write
      work := session.work ++
        [.insert ⟨ids, write.path, write.content, write.contentType,
          write.content.length⟩] : SiteSession }.Good settings start committed (ids + 1)
            requested := by
  have asked := good.asked write (by rw [stage_eq]; rfl)
  refine .of_calm ?_ rfl good.unfailed
  rw [SiteSession.view, List.foldl_append]
  exact good.sound.insert asked (good.checked write none stage_eq)

theorem replace {write : FileWrite} {row : SiteFile}
    (good : session.Good settings start committed ids requested)
    (stage_eq : session.stage = .writing write (some row)) :
    { session with
      stage := .reporting write
      work := session.work ++ [.replace row write] : SiteSession }.Good settings start committed ids
        requested := by
  have asked := good.asked write (by rw [stage_eq]; rfl)
  have found := good.found write (some row) (by rw [stage_eq]; rfl) (by rw [stage_eq]; rfl)
  have at_path : row.path = write.path := by simpa using List.find?_some found.symm
  refine .of_calm ?_ rfl good.unfailed
  rw [SiteSession.view, List.foldl_append]
  exact good.sound.replace asked (List.mem_of_find?_eq_some found.symm) at_path
    (good.checked write (some row) stage_eq)

end SiteSession.Good

namespace Site.Good

theorem become (good : site.Good settings start)
    (changed : session.Good settings start site.committed site.ids site.requested) :
    (site.become index session).Good settings start where
  sound := good.sound
  sessions other listed := by
    rcases List.mem_or_eq_of_mem_set listed with old | rfl
    · exact good.sessions other old
    · exact changed

theorem grow {more : Nat} {later : List FileWrite} (good : site.Good settings start)
    (grown : site.ids ≤ more) (extended : site.requested ⊆ later) :
    { site with ids := more, requested := later }.Good settings start where
  sound := good.sound.grow grown extended
  sessions other listed := (good.sessions other listed).grow grown extended

end Site.Good

theorem advance_good (good : site.Good settings start)
    (known : session.Good settings start site.committed site.ids site.requested)
    (advanced : site.advance settings index session = some after) : after.Good settings start := by
  unfold Site.advance at advanced
  cases stage_eq : session.stage with
  | idle | ended =>
      rw [stage_eq] at advanced
      cases advanced
  | searching write =>
      rw [stage_eq] at advanced
      cases advanced
      exact good.become (known.search stage_eq)
  | measuring write existing =>
      simp only [stage_eq] at advanced
      split at advanced
      next error refused =>
        cases advanced
        exact good.become (known.finish (by simp))
      next checked =>
        cases advanced
        exact good.become (known.measure stage_eq checked)
  | writing write existing =>
      have found := known.found write existing (by rw [stage_eq]; rfl) (by rw [stage_eq]; rfl)
      cases existing with
      | none =>
          simp only [stage_eq] at advanced
          split at advanced
          · cases advanced
          split at advanced
          next taken =>
            rw [List.any_eq_true] at taken
            obtain ⟨row, listed, at_path⟩ := taken
            exact absurd at_path (List.find?_eq_none.mp found.symm row listed)
          next free =>
            cases advanced
            have more := good.grow (Nat.le_succ site.ids) (List.Subset.refl site.requested)
            exact more.become (known.insert stage_eq)
      | some row =>
          simp only [stage_eq] at advanced
          split at advanced
          · cases advanced
          split at advanced
          next present =>
            cases advanced
            exact good.become (known.replace stage_eq)
          next gone =>
            apply absurd _ gone
            rw [List.any_eq_true]
            exact ⟨row, List.mem_of_find?_eq_some found.symm, by simp⟩
  | reporting write =>
      rw [stage_eq] at advanced
      cases advanced
      exact good.become (known.finish (by simp))
  | locating path =>
      simp only [stage_eq] at advanced
      split at advanced
      next =>
        cases advanced
        exact good.become (.of_calm known.sound rfl known.unfailed)
      next row located =>
        cases advanced
        exact good.become (.of_calm known.sound rfl known.unfailed)
  | deleting row =>
      simp only [stage_eq] at advanced
      split at advanced
      · cases advanced
      next =>
        cases advanced
        apply good.become
        refine .of_calm ?_ rfl known.unfailed
        rw [SiteSession.view, List.foldl_append]
        exact known.sound.sublist List.filter_sublist
  | counting deleted =>
      rw [stage_eq] at advanced
      cases advanced
      exact good.become (known.finish (by simp))

/-- What is known of a session when another one has committed deletions which are not about what it
writes. -/
theorem SiteSession.Good.after_deletions {work : List Change}
    (good : session.Good settings start committed ids requested)
    (deletes : ∀ change ∈ work, ∃ id, change = .delete id ∧ session.concerns id = false) :
    session.Good settings start (work.foldl Change.apply committed) ids requested := by
  have only (change : Change) (listed : change ∈ work) : ¬change.writes = true := by
    obtain ⟨id, rfl, -⟩ := deletes change listed
    simp [Change.writes]
  have kept (id : Nat) (concerned : session.concerns id = true) :
      decide (Change.delete id ∉ work) = true := by
    rw [decide_eq_true_eq]
    intro listed
    obtain ⟨other, same, free⟩ := deletes _ listed
    cases same
    rw [concerned] at free
    cases free
  have view_eq : session.view (work.foldl Change.apply committed) =
      (session.view committed).filter fun row => decide (Change.delete row.id ∉ work) := by
    rw [foldl_apply_deletions work only]
    refine foldl_apply_filter session.work (fun id => decide (Change.delete id ∉ work)) ?_ committed
    intro change listed id concerned
    apply kept
    rw [SiteSession.concerns, Bool.or_eq_true, List.any_eq_true]
    exact .inr ⟨change, listed, concerned⟩
  have loaded_kept {existing : Option SiteFile} (found : session.stage.found = some existing)
      {row : SiteFile} (loaded : existing = some row) :
      decide (Change.delete row.id ∉ work) = true := by
    apply kept
    rw [SiteSession.concerns, Bool.or_eq_true]
    left
    have loaded_eq : session.loaded = existing := by
      unfold SiteSession.loaded
      cases stage_eq : session.stage with
      | measuring write other | writing write other =>
          rw [stage_eq] at found
          exact Option.some.inj found
      | idle | searching | reporting | locating | deleting | counting | ended =>
          rw [stage_eq] at found
          cases found
    rw [loaded_eq, loaded]
    simp
  constructor
  · rw [view_eq]
    exact good.sound.sublist List.filter_sublist
  · exact good.asked
  · intro write existing pending found
    have found_eq := good.found write existing pending found
    rw [view_eq]
    refine found_eq.trans (Eq.symm ?_)
    exact find_filter (fun id => decide (Change.delete id ∉ work)) fun row located =>
      loaded_kept found (found_eq.trans located)
  · intro write existing stage_eq
    have checked := good.checked write existing stage_eq
    rw [checkLimits_eq_none] at checked ⊢
    rw [view_eq]
    have fewer : ((session.view committed).filter fun row =>
        decide (Change.delete row.id ∉ work)).Sublist (session.view committed) :=
      List.filter_sublist
    have shorter := fewer.length_le
    have smaller := (fewer.map SiteFile.size).sum_le_sum (by simp)
    simp only [projectStats] at checked ⊢
    omega
  · exact good.unfailed

/-- What is known of a session which is not amid a write, over any rows which are sound. -/
theorem SiteSession.Good.of_sound {rows : List SiteFile}
    (good : session.Good settings start committed ids requested)
    (sound : Sound settings start ids requested rows) (calm : session.amidWrite = false) :
    session.Good settings start rows ids requested := by
  have unfound : session.stage.found = none := by
    cases stage_eq : session.stage with
    | measuring write existing | writing write existing =>
        rw [SiteSession.amidWrite, stage_eq] at calm
        cases calm
    | idle | searching | reporting | locating | deleting | counting | ended => rfl
  have only (change : Change) (listed : change ∈ session.work) : ¬change.writes = true := by
    intro writes
    have amid : session.work.any Change.writes = true := List.any_eq_true.mpr ⟨_, listed, writes⟩
    unfold SiteSession.amidWrite at calm
    split at calm
    · cases calm
    · cases calm
    · cases calm.symm.trans amid
  constructor
  · rw [SiteSession.view, foldl_apply_deletions session.work only]
    exact sound.sublist List.filter_sublist
  · exact good.asked
  · intro write existing _ found
    cases unfound.symm.trans found
  · intro write existing stage_eq
    rw [stage_eq] at unfound
    cases unfound
  · exact good.unfailed

theorem commit_good (good : site.Good settings start)
    (present : site.sessions[index]? = some session) (idle : session.stage = .idle)
    (orderly : site.orderly (.commit index) = true) :
    { site.become index { session with work := [] } with
      committed := session.view site.committed }.Good settings start := by
  have known := good.sessions session (List.mem_of_getElem? present)
  refine ⟨known.sound, ?_⟩
  intro other listed
  obtain ⟨position, found⟩ := List.mem_iff_getElem?.mp listed
  by_cases same : position = index
  · subst same
    have bounded := (List.getElem?_eq_some_iff.mp present).1
    simp only [Site.become, List.getElem?_set_self bounded] at found
    cases found
    exact .of_calm known.sound (by simp [idle, SiteStage.pending]) known.unfailed
  · simp only [Site.become, List.getElem?_set_ne (Ne.symm same)] at found
    have other_known := good.sessions other (List.mem_of_getElem? found)
    simp only [Site.orderly, present, Option.all_some, List.all_eq_true] at orderly
    have allowed := orderly (other, position) (List.mem_zipIdx_iff_getElem?.mpr found)
    simp only [Bool.or_eq_true, beq_iff_eq, same, false_or, Bool.not_eq_true',
      List.all_eq_true] at allowed
    rcases allowed with calm | deletes
    · exact other_known.of_sound known.sound calm
    · apply other_known.after_deletions
      intro change change_listed
      have allowed := deletes change change_listed
      cases change with
      | insert row => cases allowed
      | update id content contentType size => cases allowed
      | delete id => exact ⟨id, rfl, by simpa using allowed⟩

theorem step_good {event : SiteEvent} (good : site.Good settings start)
    (orderly : site.orderly event = true) (stepped : site.step settings event = some after) :
    after.Good settings start := by
  cases event with
  | connect =>
      cases stepped
      refine ⟨good.sound, ?_⟩
      intro other listed
      rcases List.mem_append.mp listed with old | fresh
      · exact good.sessions other old
      · rw [List.mem_singleton.mp fresh]
        exact .of_calm good.sound rfl (by simp)
  | write index path content contentType =>
      obtain ⟨session, present, stepped⟩ := Option.bind_eq_some_iff.mp stepped
      have known := good.sessions session (List.mem_of_getElem? present)
      split at stepped
      next idle =>
        split at stepped
        next error refused =>
          cases stepped
          exact good.become (known.finish (by simp))
        next write valid =>
          cases stepped
          have more := good.grow (Nat.le_refl site.ids)
            (List.subset_append_left site.requested [write])
          apply more.become
          exact {
            sound := known.sound.grow (Nat.le_refl _) (List.subset_append_left _ _)
            asked := by
              rintro _ ⟨⟩
              exact List.mem_append_right _ List.mem_cons_self
            found := by
              intro _ _ _ found
              cases found
            checked := by
              intro _ _ same
              cases same
            unfailed := known.unfailed }
      · cases stepped
  | delete index path =>
      obtain ⟨session, present, stepped⟩ := Option.bind_eq_some_iff.mp stepped
      have known := good.sessions session (List.mem_of_getElem? present)
      split at stepped
      next idle =>
        split at stepped
        next message refused =>
          cases stepped
          exact good.become (known.finish (by simp))
        next normalized valid =>
          cases stepped
          exact good.become (.of_calm known.sound rfl known.unfailed)
      · cases stepped
  | advance index =>
      obtain ⟨session, present, stepped⟩ := Option.bind_eq_some_iff.mp stepped
      exact advance_good good (good.sessions session (List.mem_of_getElem? present)) stepped
  | commit index =>
      obtain ⟨session, present, stepped⟩ := Option.bind_eq_some_iff.mp stepped
      split at stepped
      next idle =>
        cases stepped
        exact commit_good good present idle orderly
      · cases stepped
  | die index =>
      obtain ⟨session, present, stepped⟩ := Option.bind_eq_some_iff.mp stepped
      have known := good.sessions session (List.mem_of_getElem? present)
      split at stepped
      · cases stepped
      · cases stepped
        exact good.become (.of_calm good.sound rfl known.unfailed)

end Sessions

/-- Rows within the limits, as the table and the code before leave them. -/
structure StoredSite (settings : PreviewSettings) where
  rows : List SiteFile
  files : (rows.length : ℤ) ≤ settings.maxFiles
  bytes : ((rows.map SiteFile.size).sum : ℤ) ≤ settings.maxProjectBytes
  sizes : ∀ row ∈ rows, row.size = row.content.length
  distinct : (rows.map SiteFile.id).Nodup
  ids : Nat
  known : ∀ row ∈ rows, row.id < ids

namespace StoredSite

variable {settings : PreviewSettings}

/-- The rows before any session is connected. -/
def site (stored : StoredSite settings) : Site where
  committed := stored.rows
  ids := stored.ids

/-- The states which steps lead to, each of which is allowed. -/
abbrev Reaches (stored : StoredSite settings) (allowed : Site → SiteEvent → Prop)
    (site : Site) : Prop :=
  Reachable (Site.step settings) allowed stored.site site

theorem site_good (stored : StoredSite settings) : stored.site.Good settings stored.rows where
  sound := {
    files := stored.files
    bytes := stored.bytes
    sizes := stored.sizes
    distinct := stored.distinct
    known := stored.known
    authored := fun row listed => .inl ⟨row, listed, rfl, rfl⟩ }
  sessions := by
    intro session listed
    cases listed

theorem good_of_reaches (stored : StoredSite settings) {site : Site}
    (reached : stored.Reaches (fun site event => site.orderly event = true) site) :
    site.Good settings stored.rows :=
  reached.invariant (fun site => site.Good settings stored.rows) stored.site_good
    fun _ _ _ good orderly stepped => step_good good orderly stepped

end StoredSite

end Hermes.Storage
