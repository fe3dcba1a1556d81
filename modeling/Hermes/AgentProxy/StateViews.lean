import Hermes.AgentProxy.PortalSteps
import Mathlib.Data.List.Induction

/-!
# What clients are shown of their runs

The states which the owner of a run is shown never go back.  Their content comes from the relays of
the owner alone, and no request touches what belongs to somebody else: both hold even where two
instances hand out the same run id, which nothing rules out.
-/

namespace Hermes.AgentProxy

open Wallet (UserId)

namespace Portal

variable {portal : Portal} {action : PortalAction} {userId : UserId} {runId : String}

/-! ## Later states -/

theorem RunsStep.grows {runs : Runs} (stepped : RunsStep portal action runs) :
    Lifecycle.Grows portal.runs runs := by
  cases stepped with
  | same => exact .refl _
  | insert run inserts follows => exact .createRunning _ _
  | update runId guard change evolves own => exact .update _ _ _ _ evolves

theorem visible_step {row : AgentRun} (visible : portal.runs.visible userId runId = some row) :
    ∃ kept, (portal.perform action).runs.visible userId runId = some kept ∧
      Lifecycle.Evolves row kept := by
  obtain ⟨found, own⟩ := Option.filter_eq_some_iff.mp visible
  obtain ⟨kept, found_later, evolves⟩ := (perform_runs portal action).grows.find _
    (fun row kept evolves => by rw [evolves.runId]) found
  refine ⟨kept, Option.filter_eq_some_iff.mpr ⟨found_later, ?_⟩, evolves⟩
  rw [evolves.userId]
  exact own

section Snapshot

variable {row after : RunSnapshot}

/-- No write moves a snapshot to another run or user. -/
theorem SnapshotWrite.ids (writes : SnapshotWrite action row after) :
    after.runId = row.runId ∧ after.userId = row.userId := by
  cases writes <;> exact ⟨rfl, rfl⟩

theorem SnapshotWrite.counts (writes : SnapshotWrite action row after) :
    row.inputTokens ≤ after.inputTokens ∧ row.outputTokens ≤ after.outputTokens := by
  cases writes with
  | merged => exact ⟨le_max_left _ _, le_max_left _ _⟩
  | kept | stamped | cleared | swept => exact ⟨le_refl _, le_refl _⟩

theorem SnapshotWrite.text (writes : SnapshotWrite action row after)
    (keeps : ∀ now ttl, action ≠ .retention now ttl) :
    row.resultText.toList <+: after.resultText.toList := by
  cases writes with
  | merged incoming assertApproval now flushed same =>
      rw [Snapshots.merge]
      dsimp only
      split
      next continues => exact List.isPrefixOf_iff_prefix.mp continues
      next => exact List.prefix_refl _
  | swept now ttl retention => exact absurd retention (keeps now ttl)
  | kept | stamped | cleared => exact List.prefix_refl _

variable {snapshots : Snapshots}

theorem SnapshotsStep.visible (stepped : SnapshotsStep portal action snapshots)
    (visible : portal.snapshots.visible userId runId = some row) :
    ∃ after, snapshots.visible userId runId = some after ∧ SnapshotWrite action row after := by
  cases stepped with
  | map change writes =>
      have same : (fun row : RunSnapshot => row.runId == runId && row.userId == userId) ∘ change =
          fun row => row.runId == runId && row.userId == userId := by
        funext row
        rw [Function.comp_apply, (writes row).ids.1, (writes row).ids.2]
      refine ⟨change row, ?_, writes row⟩
      rw [Snapshots.visible, List.find?_map, same]
      exact congrArg (Option.map change) visible
  | insert inserted inserts =>
      refine ⟨row, ?_, .kept row⟩
      rw [Snapshots.visible, List.find?_append]
      exact congrArg (Option.or · _) visible

/-- A snapshot which was not there before has been inserted. -/
theorem SnapshotsStep.inserts (stepped : SnapshotsStep portal action snapshots)
    (missing : portal.snapshots.visible userId runId = none)
    (visible : snapshots.visible userId runId = some row) : SnapshotInsert action row := by
  cases stepped with
  | map change writes =>
      obtain ⟨stored, listed, same⟩ := List.mem_map.mp (List.mem_of_find?_eq_some visible)
      have named := List.find?_some visible
      rw [← same, (writes stored).ids.1, (writes stored).ids.2] at named
      exact absurd named (List.find?_eq_none.mp missing stored listed)
  | insert inserted inserts =>
      rw [Snapshots.visible] at missing visible
      rw [List.find?_append, missing, Option.none_or] at visible
      rwa [← List.mem_singleton.mp (List.mem_of_find?_eq_some visible)] at inserts

theorem SnapshotInsert.counts (inserts : SnapshotInsert action row) :
    0 ≤ row.inputTokens ∧ 0 ≤ row.outputTokens := by
  cases inserts with
  | blank => exact ⟨le_refl _, le_refl _⟩
  | flushed incoming assertApproval now flushed counts => exact counts

structure SnapshotFollows (kept : Prop) (earlier later : Option RunSnapshot) : Prop where
  inputTokens : (earlier.map (·.inputTokens)).getD 0 ≤ (later.map (·.inputTokens)).getD 0
  outputTokens : (earlier.map (·.outputTokens)).getD 0 ≤ (later.map (·.outputTokens)).getD 0
  text : kept → ((earlier.map (·.resultText)).getD "").toList <+:
    ((later.map (·.resultText)).getD "").toList

theorem SnapshotsStep.follows {kept : Prop} (keeps : kept → ∀ now ttl, action ≠ .retention now ttl)
    (stepped : SnapshotsStep portal action snapshots) :
    SnapshotFollows kept (portal.snapshots.visible userId runId)
      (snapshots.visible userId runId) := by
  cases found : portal.snapshots.visible userId runId with
  | some row =>
      obtain ⟨after, found_later, writes⟩ := stepped.visible found
      rw [found_later]
      exact ⟨writes.counts.1, writes.counts.2, fun kept => writes.text (keeps kept)⟩
  | none =>
      cases found_later : snapshots.visible userId runId with
      | none => exact ⟨le_refl _, le_refl _, fun _ => List.prefix_refl _⟩
      | some row =>
          have counts := (stepped.inserts found found_later).counts
          exact ⟨counts.1, counts.2, fun _ => List.nil_prefix⟩

end Snapshot

end Portal

/-- `completed`, `failed` and `stopped`. -/
def ClientRunStatus.ended (status : ClientRunStatus) : Bool :=
  status == .completed || status == .failed || status == .stopped

/-- What a later state of a run shows against an earlier one, and of the text where it is kept. -/
structure RunStateView.Follows (kept : Prop) (earlier later : RunStateView) : Prop where
  runId : later.runId = earlier.runId
  continuedFrom : later.continuedFrom = earlier.continuedFrom
  ended : earlier.status.ended = true → later.status = earlier.status
  inputTokens : earlier.inputTokens ≤ later.inputTokens
  outputTokens : earlier.outputTokens ≤ later.outputTokens
  text : kept → earlier.resultText.toList <+: later.resultText.toList

def PortalAction.Keeps (action : PortalAction) : Prop := ∀ now ttl, action ≠ .retention now ttl

theorem RunStateView.Follows.refl (kept : Prop) (view : RunStateView) : Follows kept view view :=
  ⟨rfl, rfl, fun _ => rfl, le_refl _, le_refl _, fun _ => List.prefix_refl _⟩

theorem RunStateView.Follows.trans {kept : Prop} {first second third : RunStateView}
    (follows : Follows kept first second) (again : Follows kept second third) :
    Follows kept first third where
  runId := again.runId.trans follows.runId
  continuedFrom := again.continuedFrom.trans follows.continuedFrom
  ended finished := by
    have same := follows.ended finished
    exact (again.ended (same ▸ finished)).trans same
  inputTokens := follows.inputTokens.trans again.inputTokens
  outputTokens := follows.outputTokens.trans again.outputTokens
  text keeps := (follows.text keeps).trans (again.text keeps)

theorem mapClientStatus_ended (status : RunStatus) (pending : Bool) :
    (mapClientStatus status pending).ended = status.terminal := by
  cases status <;> cases pending <;> rfl

theorem mapClientStatus_of_terminal {status : RunStatus} (terminal : status.terminal = true)
    (first second : Bool) : mapClientStatus status first = mapClientStatus status second := by
  cases status <;> first | rfl | cases terminal

namespace Portal

variable {portal : Portal} {action : PortalAction} {userId : UserId} {runId : String}

/-- A run which is shown to its owner stays shown, and its state never goes back. -/
theorem perform_follows {kept : Prop} {view : RunStateView} (keeps : kept → action.Keeps)
    (shown : portal.getState userId runId = some view) :
    ∃ later, (portal.perform action).getState userId runId = some later ∧
      view.Follows kept later := by
  obtain ⟨row, visible, rfl⟩ := Option.map_eq_some_iff.mp shown
  obtain ⟨after, visible_later, evolves⟩ := @visible_step portal action userId runId row visible
  refine ⟨_, congrArg (Option.map _) visible_later, ?_⟩
  have follows : SnapshotFollows kept _ _ :=
    @SnapshotsStep.follows portal action userId runId _ kept keeps (perform_snapshots portal action)
  exact
    { runId := evolves.runId
      continuedFrom := evolves.parent
      ended := fun finished => by
        dsimp only at finished ⊢
        rw [mapClientStatus_ended] at finished
        rw [evolves.terminal finished]
        exact mapClientStatus_of_terminal finished _ _
      inputTokens := follows.inputTokens
      outputTokens := follows.outputTokens
      text := follows.text }

theorem run_concat (actions : List PortalAction) (action : PortalAction) :
    run (actions ++ [action]) = (run actions).perform action := by
  rw [run, List.foldl_append]
  rfl

/-- One answer with a state and a later one of the same run. -/
def InOrder (kept : Prop) (first second : UserId × ClientAnswer) : Prop :=
  ∀ view later, first.2 = .state view → second = (first.1, .state later) →
    later.runId = view.runId → view.Follows kept later

/-- The states shown so far, in order and followed by the present ones. -/
structure Shown (kept : Prop) (portal : Portal) : Prop where
  present : ∀ userId view, (userId, ClientAnswer.state view) ∈ portal.answers →
    ∃ later, portal.getState userId view.runId = some later ∧ view.Follows kept later
  ordered : portal.answers.Pairwise (InOrder kept)

theorem Shown.step {kept : Prop} (shown : Shown kept portal) (keeps : kept → action.Keeps) :
    Shown kept (portal.perform action) := by
  have earlier (userId : UserId) (view : RunStateView)
      (told : (userId, ClientAnswer.state view) ∈ portal.answers) :
      ∃ later, (portal.perform action).getState userId view.runId = some later ∧
        view.Follows kept later := by
    obtain ⟨later, present, follows⟩ := shown.present userId view told
    obtain ⟨last, present_last, follows_last⟩ := perform_follows keeps present
    exact ⟨last, present_last, follows.trans follows_last⟩
  cases perform_answers portal action with
  | silent same =>
      refine ⟨fun userId view told => earlier userId view (same ▸ told), ?_⟩
      rw [same]
      exact shown.ordered
  | answered client answer appended present =>
      refine ⟨fun userId view told => ?_, ?_⟩
      · rw [appended, List.mem_append, List.mem_singleton] at told
        obtain told | told := told
        · exact earlier userId view told
        · cases told
          exact ⟨view, present view rfl, .refl kept view⟩
      · rw [appended, List.pairwise_append]
        refine ⟨shown.ordered, List.pairwise_singleton _ _, fun first told second last => ?_⟩
        rw [List.mem_singleton] at last
        intro view later is_state is_later same_run
        rw [last] at is_later
        cases is_later
        obtain ⟨shown_now, present_now, follows⟩ := earlier first.1 view (is_state ▸ told)
        rw [← same_run, present later rfl, Option.some.injEq] at present_now
        rw [present_now]
        exact follows

/-- What clients are shown of a run never goes back: of two states shown to its owner the later one
has the same place in the chain of continuations and no fewer tokens, it keeps the status once the
run has ended, and its text continues the earlier one as long as the retention sweep is out. -/
theorem states_follow (actions : List PortalAction) :
    (run actions).answers.Pairwise (InOrder (∀ action ∈ actions, action.Keeps)) := by
  suffices shown : ∀ kept : Prop, (kept → ∀ action ∈ actions, action.Keeps) →
      Shown kept (run actions) from (shown _ id).ordered
  intro kept
  induction actions using List.reverseRecOn with
  | nil => exact fun _ => ⟨fun _ _ told => (by cases told), .nil⟩
  | append_singleton earlier action induction =>
      intro keeps
      rw [run_concat]
      have before := induction fun holds other listed =>
        keeps holds other (List.mem_append_left _ listed)
      exact before.step fun holds =>
        keeps holds action (List.mem_append_right _ (List.mem_singleton_self _))

/-! ## Whose content is shown -/

/-- A relay of the user has flushed such a snapshot of the run. -/
def Flushed (actions : List PortalAction) (userId : UserId) (runId : String)
    (shows : RunSnapshot → Prop) : Prop :=
  ∃ incoming assertApproval now, .flush incoming assertApproval now ∈ actions ∧
    incoming.userId = userId ∧ incoming.runId = runId ∧ shows incoming

/-- A column of the snapshots with what it holds before anything is flushed. -/
structure Column (α : Type) where
  read : RunSnapshot → α
  blank : α
  fresh : ∀ runId userId, read { runId := runId, userId := userId } = blank
  merged : ∀ stored incoming assertApproval,
    read (Snapshots.merge stored incoming assertApproval) = read stored ∨
      read (Snapshots.merge stored incoming assertApproval) = read incoming
  stamped : ∀ row now, read { row with consumerHeartbeatAt := some now } = read row
  cleared : ∀ row, read { row with pendingApproval := none } = read row ∨
    read { row with pendingApproval := none } = blank
  swept : ∀ row, read { row with resultText := "", pendingApproval := none } = read row ∨
    read { row with resultText := "", pendingApproval := none } = blank

namespace Column

theorem ite_or {α : Type} (condition : Prop) [Decidable condition] (first second : α) :
    (if condition then first else second) = second ∨
      (if condition then first else second) = first := by
  split
  · exact .inr rfl
  · exact .inl rfl

def resultText : Column String where
  read := (·.resultText)
  blank := ""
  fresh _ _ := rfl
  merged _ _ _ := ite_or _ _ _
  stamped _ _ := rfl
  cleared _ := .inl rfl
  swept _ := .inr rfl

def lastTool : Column (Option String) where
  read := (·.lastTool)
  blank := none
  fresh _ _ := rfl
  merged _ _ _ := .inr rfl
  stamped _ _ := rfl
  cleared _ := .inl rfl
  swept _ := .inl rfl

def pendingApproval : Column (Option PendingApproval) where
  read := (·.pendingApproval)
  blank := none
  fresh _ _ := rfl
  merged _ _ _ := ite_or _ _ _
  stamped _ _ := rfl
  cleared _ := .inr rfl
  swept _ := .inr rfl

def inputTokens : Column Int where
  read := (·.inputTokens)
  blank := 0
  fresh _ _ := rfl
  merged stored incoming _ := max_choice stored.inputTokens incoming.inputTokens
  stamped _ _ := rfl
  cleared _ := .inl rfl
  swept _ := .inl rfl

def outputTokens : Column Int where
  read := (·.outputTokens)
  blank := 0
  fresh _ _ := rfl
  merged stored incoming _ := max_choice stored.outputTokens incoming.outputTokens
  stamped _ _ := rfl
  cleared _ := .inl rfl
  swept _ := .inl rfl

end Column

/-- What a column holds is blank or comes from a relay of the row's own user. -/
def Drawn {α : Type} (column : Column α) (actions : List PortalAction) (row : RunSnapshot) : Prop :=
  column.read row = column.blank ∨
    Flushed actions row.userId row.runId fun incoming => column.read incoming = column.read row

section Drawn

variable {α : Type} {column : Column α} {actions : List PortalAction} {row after : RunSnapshot}

theorem Flushed.mono {later : List PortalAction} {shows : RunSnapshot → Prop}
    (flushed : Flushed actions userId runId shows) (more : actions ⊆ later) :
    Flushed later userId runId shows := by
  obtain ⟨incoming, assertApproval, now, listed, drawn⟩ := flushed
  exact ⟨incoming, assertApproval, now, more listed, drawn⟩

/-- A write which keeps what a column holds or blanks it. -/
theorem Drawn.of_kept (drawn : Drawn column actions row)
    (ids : after.runId = row.runId ∧ after.userId = row.userId)
    (reads : column.read after = column.read row ∨ column.read after = column.blank) :
    Drawn column (actions ++ [action]) after := by
  obtain same | blank := reads
  · rw [Drawn, same, ids.1, ids.2]
    exact drawn.imp_right fun flushed => flushed.mono (List.subset_append_left _ _)
  · exact .inl blank

theorem Drawn.write (drawn : Drawn column actions row) (writes : SnapshotWrite action row after) :
    Drawn column (actions ++ [action]) after := by
  cases writes with
  | kept => exact drawn.of_kept ⟨rfl, rfl⟩ (.inl rfl)
  | merged incoming assertApproval now flushed same =>
      obtain stored | incomes := column.merged row incoming assertApproval
      · exact drawn.of_kept ⟨rfl, rfl⟩ (.inl stored)
      · refine .inr ⟨incoming, assertApproval, now, ?_, same.2.symm, same.1.symm, incomes.symm⟩
        rw [← flushed]
        exact List.mem_append_right _ (List.mem_singleton_self _)
  | stamped now relay => exact drawn.of_kept ⟨rfl, rfl⟩ (.inl (column.stamped row now))
  | cleared own => exact drawn.of_kept ⟨rfl, rfl⟩ (column.cleared row)
  | swept now ttl retention => exact drawn.of_kept ⟨rfl, rfl⟩ (column.swept row)

theorem SnapshotInsert.drawn (inserts : SnapshotInsert action row) :
    Drawn column (actions ++ [action]) row := by
  cases inserts with
  | blank => exact .inl (column.fresh _ _)
  | flushed incoming assertApproval now flushed counts =>
      refine .inr ⟨row, assertApproval, now, ?_, rfl, rfl, rfl⟩
      rw [← flushed]
      exact List.mem_append_right _ (List.mem_singleton_self _)

theorem SnapshotsStep.drawn {snapshots : Snapshots}
    (stepped : SnapshotsStep portal action snapshots)
    (all : ∀ row ∈ portal.snapshots, Drawn column actions row) :
    ∀ row ∈ snapshots, Drawn column (actions ++ [action]) row := by
  cases stepped with
  | map change writes =>
      intro row listed
      obtain ⟨stored, present, rfl⟩ := List.mem_map.mp listed
      exact (all stored present).write (writes stored)
  | insert inserted inserts =>
      intro row listed
      rw [List.mem_append, List.mem_singleton] at listed
      obtain present | rfl := listed
      · exact (all row present).of_kept ⟨rfl, rfl⟩ (.inl rfl)
      · exact inserts.drawn

theorem drawn_run (column : Column α) (actions : List PortalAction) :
    ∀ row ∈ (run actions).snapshots, Drawn column actions row := by
  induction actions using List.reverseRecOn with
  | nil => exact fun row listed => by cases listed
  | append_singleton earlier action induction =>
      rw [run_concat]
      exact (perform_snapshots _ action).drawn induction

end Drawn

/-- What a state shows is blank or was flushed by a relay of its user for its run. -/
structure OwnContent (actions : List PortalAction) (userId : UserId) (view : RunStateView) :
    Prop where
  resultText : view.resultText = "" ∨
    Flushed actions userId view.runId (·.resultText = view.resultText)
  lastTool : view.lastTool = none ∨ Flushed actions userId view.runId (·.lastTool = view.lastTool)
  pendingApproval : view.pendingApproval = none ∨
    Flushed actions userId view.runId (·.pendingApproval = view.pendingApproval)
  inputTokens : view.inputTokens = 0 ∨
    Flushed actions userId view.runId (·.inputTokens = view.inputTokens)
  outputTokens : view.outputTokens = 0 ∨
    Flushed actions userId view.runId (·.outputTokens = view.outputTokens)

theorem OwnContent.mono {actions later : List PortalAction} {view : RunStateView}
    (own : OwnContent actions userId view) (more : actions ⊆ later) :
    OwnContent later userId view where
  resultText := own.resultText.imp_right (·.mono more)
  lastTool := own.lastTool.imp_right (·.mono more)
  pendingApproval := own.pendingApproval.imp_right (·.mono more)
  inputTokens := own.inputTokens.imp_right (·.mono more)
  outputTokens := own.outputTokens.imp_right (·.mono more)

theorem getState_own {actions : List PortalAction} {view : RunStateView}
    (shown : (run actions).getState userId runId = some view) : OwnContent actions userId view := by
  obtain ⟨row, visible, rfl⟩ := Option.map_eq_some_iff.mp shown
  have named : row.runId = runId := by
    simpa using List.find?_some (Option.filter_eq_some_iff.mp visible).1
  cases found : (run actions).snapshots.visible userId runId with
  | none =>
      exact ⟨.inl rfl, .inl rfl, .inl rfl, .inl rfl, .inl rfl⟩
  | some snapshot =>
      have listed := List.mem_of_find?_eq_some found
      obtain ⟨of_run, of_user⟩ : snapshot.runId = runId ∧ snapshot.userId = userId := by
        simpa using List.find?_some found
      have drawn {α : Type} (column : Column α) : column.read snapshot = column.blank ∨
          Flushed actions userId row.runId
            fun incoming => column.read incoming = column.read snapshot := by
        rw [named, ← of_user, ← of_run]
        exact drawn_run column actions snapshot listed
      exact ⟨drawn .resultText, drawn .lastTool, drawn .pendingApproval, drawn .inputTokens,
        drawn .outputTokens⟩

theorem answers_own (actions : List PortalAction) (userId : UserId) (view : RunStateView)
    (told : (userId, .state view) ∈ (run actions).answers) : OwnContent actions userId view := by
  induction actions using List.reverseRecOn with
  | nil => cases told
  | append_singleton earlier action induction =>
      have more : earlier ⊆ earlier ++ [action] := List.subset_append_left _ _
      rw [run_concat] at told
      cases perform_answers (run earlier) action with
      | silent same => exact (induction (same ▸ told)).mono more
      | answered client answer appended present =>
          rw [appended, List.mem_append, List.mem_singleton] at told
          obtain told | told := told
          · exact (induction told).mono more
          · cases told
            have shown := present view rfl
            rw [← run_concat] at shown
            exact getState_own shown

/-! ## Whose rows a client writes -/

/-- A request waits for a run of its own user. -/
structure Sound (portal : Portal) : Prop where
  distinct : (portal.runs.map (·.runId)).Nodup
  waiting : ∀ call ∈ portal.calls, (portal.runs.visible call.userId call.runId).isSome

theorem RunsStep.distinct {runs : Runs} (stepped : RunsStep portal action runs)
    (distinct : (portal.runs.map (·.runId)).Nodup) : (runs.map (·.runId)).Nodup := by
  cases stepped with
  | same => exact distinct
  | insert run inserts follows =>
      obtain same | ⟨fresh, grown⟩ := Lifecycle.createRunning_rows portal.runs run
      · rw [same]
        exact distinct
      · rw [grown, List.map_append, List.map_singleton]
        refine List.nodup_append.mpr ⟨distinct, List.nodup_singleton _, ?_⟩
        intro id listed other last
        rw [List.mem_singleton.mp last]
        exact fun same => fresh (same ▸ listed)
  | update runId guard change evolves own =>
      rw [Runs.update, List.map_map]
      rw [show (fun row : AgentRun => row.runId) ∘ (fun row =>
          if row.runId = runId ∧ guard row = true then change row else row) =
          fun row => row.runId from funext fun row => ?_]
      · exact distinct
      · rw [Function.comp_apply]
        split
        next written => exact (evolves row written.2).runId
        next => rfl

theorem Sound.step (sound : Sound portal) : Sound (portal.perform action) := by
  refine ⟨(perform_runs portal action).distinct sound.distinct, fun call waits => ?_⟩
  have visible : (portal.runs.visible call.userId call.runId).isSome := by
    obtain ⟨earlier, present, of_user, of_run⟩ | visible := perform_calls waits
    · rw [← of_user, ← of_run]
      exact sound.waiting earlier present
    · exact visible
  obtain ⟨row, found⟩ := Option.isSome_iff_exists.mp visible
  obtain ⟨kept, found_later, -⟩ := @visible_step portal action _ _ row found
  rw [found_later]
  rfl

theorem sound_run (actions : List PortalAction) : Sound (run actions) := by
  induction actions using List.reverseRecOn with
  | nil => exact ⟨List.nodup_nil, fun call waits => by cases waits⟩
  | append_singleton earlier action induction =>
      rw [run_concat]
      exact induction.step

/-- The row of a run which is visible to a user is the only one with its id. -/
theorem Sound.owner (sound : Sound portal) {row : AgentRun} (listed : row ∈ portal.runs)
    (visible : (portal.runs.visible userId row.runId).isSome) : row.userId = userId := by
  obtain ⟨shown, found⟩ := Option.isSome_iff_exists.mp visible
  obtain ⟨found, own⟩ := Option.filter_eq_some_iff.mp found
  have same : shown = row := by
    refine List.inj_on_of_nodup_map sound.distinct (List.mem_of_find?_eq_some found) listed ?_
    simpa using List.find?_some found
  rw [← same]
  exact beq_iff_eq.mp own

theorem filter_map_same {α : Type} {keeps : α → Bool} {change : α → α} {rows : List α}
    (same : ∀ row ∈ rows, keeps (change row) = keeps row)
    (kept : ∀ row ∈ rows, keeps row = true → change row = row) :
    (rows.map change).filter keeps = rows.filter keeps := by
  induction rows with
  | nil => rfl
  | cons row later induction =>
      have rest := induction (fun other listed => same other (List.mem_cons_of_mem _ listed))
        fun other listed => kept other (List.mem_cons_of_mem _ listed)
      rw [List.map_cons, List.filter_cons, List.filter_cons, rest, same row (List.mem_cons_self ..)]
      split
      next keeps => rw [kept row (List.mem_cons_self ..) keeps]
      next => rfl

theorem Sound.runs_others (sound : Sound portal) (client : action.client = some userId) :
    (portal.perform action).runs.filter (·.userId != userId) =
      portal.runs.filter (·.userId != userId) := by
  have stepped := perform_runs portal action
  generalize (portal.perform action).runs = runs at stepped
  cases stepped with
  | same => rfl
  | insert run inserts follows =>
      obtain same | ⟨-, grown⟩ := Lifecycle.createRunning_rows portal.runs run
      · rw [same]
      · have own : run.userId = userId := Option.some.inj (inserts.client.symm.trans client)
        rw [grown, List.filter_append, List.filter_singleton, own]
        simp
  | update runId guard change evolves own =>
      refine filter_map_same (fun row _ => ?_) fun row listed other => ?_
      · split
        next written => rw [(evolves row written.2).userId]
        next => rfl
      · refine if_neg fun written => bne_iff_ne.mp other ?_
        obtain ⟨call, waits, rfl, of_run⟩ | guarded := own userId client
        · refine sound.owner listed ?_
          rw [written.1, ← of_run]
          exact sound.waiting call waits
        · exact guarded row written.2

theorem snapshots_others (client : action.client = some userId) :
    (portal.perform action).snapshots.filter (·.userId != userId) =
      portal.snapshots.filter (·.userId != userId) := by
  have stepped := perform_snapshots portal action
  generalize (portal.perform action).snapshots = snapshots at stepped
  cases stepped with
  | map change writes =>
      refine filter_map_same (fun row _ => by rw [(writes row).ids.2]) fun row _ other => ?_
      have written := writes row
      generalize change row = after at written
      cases written with
      | kept => rfl
      | cleared own => exact absurd (Option.some.inj (own.symm.trans client)) (bne_iff_ne.mp other)
      | stamped now relay =>
          rw [client] at relay
          cases relay
      | merged incoming assertApproval now flushed same =>
          rw [flushed] at client
          cases client
      | swept now ttl retention =>
          rw [retention] at client
          cases client
  | insert row inserts =>
      cases inserts with
      | blank runId userId now prepared =>
          rw [prepared] at client
          cases client
      | flushed incoming assertApproval now flushed counts =>
          rw [flushed] at client
          cases client

/-- What a user is shown was flushed by the user's own relays, and what a user asks for touches no
run or snapshot of anybody else, whatever run ids the instances hand out. -/
theorem contents_own (actions : List PortalAction) :
    (∀ userId view, (userId, ClientAnswer.state view) ∈ (run actions).answers →
      OwnContent actions userId view) ∧
    ∀ action userId, action.client = some userId →
      ((run actions).perform action).runs.filter (·.userId != userId) =
          (run actions).runs.filter (·.userId != userId) ∧
        ((run actions).perform action).snapshots.filter (·.userId != userId) =
          (run actions).snapshots.filter (·.userId != userId) :=
  ⟨fun userId view told => answers_own actions userId view told, fun _ _ client =>
    ⟨(sound_run actions).runs_others client, snapshots_others client⟩⟩

namespace Sample

/-- A user launches a run. -/
def launching (userId : UserId) (runId : String) (now : Time) : PortalAction :=
  .launch userId BillingSystem.ordinarySettings Lifecycle.subscriber 0 "Hello" "session" none
    (.answered (runId, "queued")) now

/-- Two instances hand out the same run id, and the relays of both users follow it. -/
def colliding : List PortalAction :=
  [launching ⟨1⟩ "run_1" 0, launching ⟨2⟩ "run_1" 1,
    .flush { runId := "run_1", userId := ⟨1⟩, resultText := "Hel", inputTokens := 3 } true 2,
    .flush { runId := "run_1", userId := ⟨2⟩, resultText := "Good", inputTokens := 9 } true 3,
    .ask ⟨1⟩ "run_1" .state]

/-- What the first user is told of the run. -/
def shown : RunStateView where
  runId := "run_1"
  sessionId := "session"
  status := .running
  resultText := "Hel"
  lastTool := none
  pendingApproval := none
  blockReason := none
  inputTokens := 3
  outputTokens := 0
  updatedAt := 2
  continuedFrom := none

/-- The first user is told of the own run only, and a stop of the second user leaves it alone. -/
theorem colliding_own : OwnContent colliding ⟨1⟩ shown ∧
    ((run colliding).perform (.ask ⟨2⟩ "run_1" .stop)).runs.filter (·.userId != ⟨2⟩) =
      (run colliding).runs.filter (·.userId != ⟨2⟩) := by
  have told : (run colliding).answers = [(⟨1⟩, .launched "run_1" "queued"),
      (⟨2⟩, .launched "run_1" "queued"), (⟨1⟩, .state shown)] := rfl
  obtain ⟨own, others⟩ := contents_own colliding
  refine ⟨own ⟨1⟩ shown ?_, (others (.ask ⟨2⟩ "run_1" .stop) ⟨2⟩ rfl).1⟩
  rw [told]
  exact List.mem_of_getElem? (i := 2) rfl

end Sample

end Portal

end Hermes.AgentProxy
