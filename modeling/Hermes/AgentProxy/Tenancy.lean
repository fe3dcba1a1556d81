import Hermes.AgentProxy.StateViews
import Hermes.Library.Purge

/-!
# What one user's runs owe to others

As long as no instance hands out the run id of another user's instance, each user has a portal of
one's own: rows, requests under way, what the instance is asked and what the user is told are what
they would be if nobody else had ever asked for anything.
-/

namespace Hermes.AgentProxy

open Wallet (UserId)

/-! ## One user's part -/

/-- The step concerns the runs of a user: the user asks for it, or it is about a run which the
user's instance has named. -/
def PortalAction.concerns (tenant : String → UserId) (userId : UserId) : PortalAction → Bool
  | .launch owner .. | .ask owner .. | .prepare _ owner _ => owner == userId
  | .passed call .. | .compareAndSet call .. | .findChild call | .continueRun call ..
  | .abandon call => call.userId == userId
  | .flush incoming .. => incoming.userId == userId
  | .heartbeat runId _ | .pause runId _ _ | .finish runId _ _ | .record runId _ _ _ =>
      tenant runId == userId
  | .retention .. => true

/-- Runs are named by the instance of the user who launches them, and relays follow such runs. -/
def PortalAction.Within (tenant : String → UserId) : PortalAction → Prop
  | .launch userId _ _ _ _ _ _ (.answered (runId, _)) _ => tenant runId = userId
  | .prepare runId userId _ => tenant runId = userId
  | .flush incoming _ _ => tenant incoming.runId = incoming.userId
  | .continueRun call _ (.ok (newRunId, _)) _ => tenant newRunId = call.userId
  | _ => True

namespace Portal

section Restrict

variable (tenant : String → UserId) (userId : UserId)

def restrict (portal : Portal) : Portal where
  runs := portal.runs.filter (·.userId == userId)
  snapshots := portal.snapshots.filter (·.userId == userId)
  runUpdatedAt runId := if tenant runId = userId then portal.runUpdatedAt runId else 0
  snapshotUpdatedAt runId := if tenant runId = userId then portal.snapshotUpdatedAt runId else 0
  calls := portal.calls.filter (·.userId == userId)
  contacts := portal.contacts.filter (·.1 == userId)
  answers := portal.answers.filter (·.1 == userId)

/-- Rows and requests belong to the user whose instance has named the run. -/
structure Separated (portal : Portal) : Prop where
  runs : ∀ row ∈ portal.runs, tenant row.runId = row.userId
  parents : ∀ row ∈ portal.runs, ∀ parent, row.continuedFromRunId = some parent →
    tenant parent = row.userId
  snapshots : ∀ row ∈ portal.snapshots, tenant row.runId = row.userId
  calls : ∀ call ∈ portal.calls, tenant call.runId = call.userId

end Restrict

variable {tenant : String → UserId} {userId client : UserId} {portal : Portal}
  {action : PortalAction} {runId : String}

/-! ### Who names what -/

theorem named_of_inserts {run : AgentRun} (within : action.Within tenant)
    (inserts : action.Inserts run) : tenant run.runId = run.userId := by
  obtain ⟨_, _, _, _, _, _, _, _, rfl⟩ | ⟨call, _, _, _, same, rfl⟩ := inserts
  · exact within
  · exact within.trans same

theorem Separated.step (separated : Separated tenant portal) (within : action.Within tenant) :
    Separated tenant (portal.perform action) := by
  have runs : ∀ row ∈ (portal.perform action).runs, tenant row.runId = row.userId ∧
      ∀ parent, row.continuedFromRunId = some parent → tenant parent = row.userId := by
    have stepped := perform_runs portal action
    generalize (portal.perform action).runs = runs at stepped ⊢
    have before : ∀ row ∈ portal.runs, tenant row.runId = row.userId ∧
        ∀ parent, row.continuedFromRunId = some parent → tenant parent = row.userId :=
      fun row listed => ⟨separated.runs row listed, separated.parents row listed⟩
    cases stepped with
    | same => exact before
    | insert run inserts follows =>
        obtain same | ⟨-, grown⟩ := Lifecycle.createRunning_rows portal.runs run
        · rw [same]
          exact before
        · rw [grown]
          intro row listed
          obtain earlier | rfl := (List.mem_append.mp listed).imp_right List.mem_singleton.mp
          · exact before row earlier
          · refine ⟨named_of_inserts within inserts, fun parent continued => ?_⟩
            obtain ⟨call, waits, of_user, of_run⟩ := follows parent continued
            rw [← of_run, ← of_user]
            exact separated.calls call waits
    | update runId guard change evolves own =>
        intro row listed
        obtain ⟨earlier, present, ⟨rfl, -⟩ | ⟨rfl, -, guarded⟩⟩ := mem_update listed
        · exact before row present
        · have kept := evolves earlier guarded
          rw [kept.runId, kept.userId, kept.parent]
          exact before earlier present
  refine ⟨fun row listed => (runs row listed).1, fun row listed => (runs row listed).2, ?_, ?_⟩
  · have stepped := perform_snapshots portal action
    generalize (portal.perform action).snapshots = snapshots at stepped ⊢
    cases stepped with
    | map change writes =>
        intro row listed
        obtain ⟨stored, present, rfl⟩ := List.mem_map.mp listed
        rw [(writes stored).ids.1, (writes stored).ids.2]
        exact separated.snapshots stored present
    | insert row inserts =>
        intro other listed
        obtain earlier | rfl := (List.mem_append.mp listed).imp_right List.mem_singleton.mp
        · exact separated.snapshots other earlier
        · cases inserts with
          | blank runId userId now prepared =>
              subst prepared
              exact within
          | flushed incoming assertApproval now flushed counts =>
              subst flushed
              exact within
  · intro call waits
    obtain ⟨earlier, present, of_user, of_run⟩ | visible := perform_calls waits
    · rw [← of_user, ← of_run]
      exact separated.calls earlier present
    · obtain ⟨row, found⟩ := Option.isSome_iff_exists.mp visible
      obtain ⟨found, own⟩ := Option.filter_eq_some_iff.mp found
      have named : row.runId = call.runId := by simpa using List.find?_some found
      rw [← named, ← beq_iff_eq.mp own]
      exact separated.runs row (List.mem_of_find?_eq_some found)

theorem Separated.tell (separated : Separated tenant portal) (owner : UserId)
    (contacts : List Contact) : Separated tenant (portal.tell owner contacts) :=
  ⟨separated.runs, separated.parents, separated.snapshots, separated.calls⟩

theorem Separated.drop (separated : Separated tenant portal) (call : ClientCall) :
    Separated tenant (portal.drop call) :=
  ⟨separated.runs, separated.parents, separated.snapshots,
    fun other waits => separated.calls other (List.mem_of_mem_erase waits)⟩

/-! ### What a user's part shows -/

section Reads

variable (separated : Separated tenant portal)
include separated

theorem restrict_get (own : tenant runId = userId) :
    (restrict tenant userId portal).runs.get runId = portal.runs.get runId :=
  find_filter fun row listed named => by
    rw [← separated.runs row listed, beq_iff_eq.mp named, own, beq_self_eq_true]

theorem restrict_visible (runId : String) :
    (restrict tenant userId portal).runs.visible userId runId =
      portal.runs.visible userId runId := by
  by_cases own : tenant runId = userId
  · rw [Runs.visible, Runs.visible, restrict_get separated own]
  · have absent {row : AgentRun} (listed : row ∈ portal.runs) (named : row.runId = runId) :
        row.userId ≠ userId := fun same => own (by rw [← named, separated.runs row listed, same])
    have hidden (runs : Runs) (among : runs ⊆ portal.runs) : runs.visible userId runId = none := by
      rw [Runs.visible, Option.filter_eq_none_iff]
      intro row found
      have named : row.runId = runId := by simpa using List.find?_some found
      simpa using absent (among (List.mem_of_find?_eq_some found)) named
    exact (hidden _ List.filter_sublist.subset).trans (hidden _ (List.Subset.refl _)).symm

theorem restrict_affects (own : tenant runId = userId) (guard : AgentRun → Bool) :
    (restrict tenant userId portal).runs.affects runId guard = portal.runs.affects runId guard :=
  any_filter fun row listed affected => by
    rw [← separated.runs row listed, beq_iff_eq.mp (Bool.and_eq_true_iff.mp affected).1, own,
      beq_self_eq_true]

theorem restrict_activeChild (own : tenant runId = userId) :
    (restrict tenant userId portal).runs.activeChild runId = portal.runs.activeChild runId :=
  find_filter fun row listed follows => by
    rw [← separated.parents row listed runId (beq_iff_eq.mp follows), own, beq_self_eq_true]

theorem restrict_snapshots_get (own : tenant runId = userId) :
    Snapshots.get (restrict tenant userId portal).snapshots runId =
      Snapshots.get portal.snapshots runId :=
  find_filter fun row listed named => by
    rw [← separated.snapshots row listed, beq_iff_eq.mp named, own, beq_self_eq_true]

omit separated in
theorem restrict_snapshots_visible (runId : String) :
    (restrict tenant userId portal).snapshots.visible userId runId =
      portal.snapshots.visible userId runId :=
  find_filter fun _ _ named => (Bool.and_eq_true_iff.mp named).2

/-- A user's part shows the user what the whole shows. -/
theorem restrict_getState (runId : String) :
    (restrict tenant userId portal).getState userId runId = portal.getState userId runId := by
  rw [getState, getState, restrict_visible separated, restrict_snapshots_visible]
  cases found : portal.runs.visible userId runId with
  | none => rfl
  | some run =>
      obtain ⟨found, own⟩ := Option.filter_eq_some_iff.mp found
      have named : run.runId = runId := by simpa using List.find?_some found
      have owner : tenant runId = userId := by
        rw [← named, separated.runs run (List.mem_of_find?_eq_some found), beq_iff_eq.mp own]
      simp only [restrict, owner, if_true]

end Reads

/-! ### Helpers -/

theorem restrict_answer (answered : ClientAnswer) :
    restrict tenant userId (portal.answer userId answered) =
      (restrict tenant userId portal).answer userId answered := by
  simp [restrict, answer]

theorem restrict_answer_other (other : client ≠ userId) (answered : ClientAnswer) :
    restrict tenant userId (portal.answer client answered) = restrict tenant userId portal := by
  simp [restrict, answer, other]

theorem restrict_tell (contacts : List Contact) :
    restrict tenant userId (portal.tell userId contacts) =
      (restrict tenant userId portal).tell userId contacts := by
  simp [restrict, tell, List.filter_map, Function.comp_def]

theorem restrict_tell_other (other : client ≠ userId) (contacts : List Contact) :
    restrict tenant userId (portal.tell client contacts) = restrict tenant userId portal := by
  simp [restrict, tell, List.filter_map, Function.comp_def, other]

theorem restrict_hold {call : ClientCall} (own : call.userId = userId) :
    restrict tenant userId (portal.hold call) = (restrict tenant userId portal).hold call := by
  simp [restrict, hold, own]

theorem restrict_hold_other {call : ClientCall} (other : call.userId ≠ userId) :
    restrict tenant userId (portal.hold call) = restrict tenant userId portal := by
  simp [restrict, hold, other]

theorem restrict_drop (call : ClientCall) :
    restrict tenant userId (portal.drop call) = (restrict tenant userId portal).drop call := by
  simp [restrict, drop, List.erase_filter]

theorem restrict_drop_other {call : ClientCall} (other : call.userId ≠ userId) :
    restrict tenant userId (portal.drop call) = restrict tenant userId portal := by
  have absent : call ∉ portal.calls.filter (·.userId == userId) := by simp [other]
  simp only [restrict, drop, ← List.erase_filter, List.erase_of_not_mem absent]

/-- A stamp within a user's part. -/
theorem stamp_restrict (own : tenant runId = userId) (stamps : String → Time) (written : Bool)
    (now : Time) :
    (fun id => if tenant id = userId then
      (if written then Function.update stamps runId now else stamps) id else 0) =
    if written then
      Function.update (fun id => if tenant id = userId then stamps id else 0) runId now
    else fun id => if tenant id = userId then stamps id else 0 := by
  cases written with
  | false => rfl
  | true =>
      funext id
      by_cases same : id = runId
      · simp [same, own]
      · simp [same]

theorem stamp_foreign (foreign : tenant runId ≠ userId) (stamps : String → Time) (written : Bool)
    (now : Time) :
    (fun id => if tenant id = userId then
      (if written then Function.update stamps runId now else stamps) id else 0) =
    fun id => if tenant id = userId then stamps id else 0 := by
  cases written with
  | false => rfl
  | true =>
      funext id
      by_cases same : id = runId
      · simp [same, foreign]
      · simp [same]

theorem restrict_writeRuns (own : tenant runId = userId) (runs : Runs) (written : Bool)
    (now : Time) :
    restrict tenant userId (portal.writeRuns runs runId written now) =
      (restrict tenant userId portal).writeRuns (runs.filter (·.userId == userId)) runId written
        now := by
  simp only [restrict, writeRuns, stamp_restrict own]

theorem restrict_writeRuns_other {runs : Runs} (foreign : tenant runId ≠ userId)
    (same : runs.filter (·.userId == userId) = portal.runs.filter (·.userId == userId))
    (written : Bool) (now : Time) :
    restrict tenant userId (portal.writeRuns runs runId written now) =
      restrict tenant userId portal := by
  simp only [restrict, writeRuns, stamp_foreign foreign, same]

theorem restrict_writeSnapshots (own : tenant runId = userId) (snapshots : Snapshots)
    (written : Bool) (now : Time) :
    restrict tenant userId (portal.writeSnapshots snapshots runId written now) =
      (restrict tenant userId portal).writeSnapshots (snapshots.filter (·.userId == userId)) runId
        written now := by
  simp only [restrict, writeSnapshots, stamp_restrict own]

theorem restrict_writeSnapshots_other {snapshots : Snapshots} (foreign : tenant runId ≠ userId)
    (same : snapshots.filter (·.userId == userId) =
      portal.snapshots.filter (·.userId == userId)) (written : Bool) (now : Time) :
    restrict tenant userId (portal.writeSnapshots snapshots runId written now) =
      restrict tenant userId portal := by
  simp only [restrict, writeSnapshots, stamp_foreign foreign, same]

/-! ### One's own steps -/

section Own

/-- An update of one's own run, where a user's part writes the row if the whole does. -/
theorem restrict_update (own : tenant runId = userId) {guard : AgentRun → Bool}
    {change : AgentRun → AgentRun} (users : ∀ row, (change row).userId = row.userId)
    (written : Bool) (now : Time) :
    restrict tenant userId (portal.writeRuns (portal.runs.update runId guard change) runId written
        now) =
      (restrict tenant userId portal).writeRuns
        ((restrict tenant userId portal).runs.update runId guard change) runId written now := by
  have filtered : (portal.runs.update runId guard change).filter (·.userId == userId) =
      (restrict tenant userId portal).runs.update runId guard change := by
    refine filter_map_comm (fun row => ?_) _
    split
    · rw [users]
    · rfl
  rw [restrict_writeRuns own, filtered]

/-- The same for snapshots rewritten one by one. -/
theorem restrict_rewrite (own : tenant runId = userId) {change : RunSnapshot → RunSnapshot}
    (users : ∀ row, (change row).userId = row.userId) (written : Bool) (now : Time) :
    restrict tenant userId (portal.writeSnapshots (portal.snapshots.map change) runId written now) =
      (restrict tenant userId portal).writeSnapshots
        ((restrict tenant userId portal).snapshots.map change) runId written now := by
  have filtered : (portal.snapshots.map change).filter (·.userId == userId) =
      (restrict tenant userId portal).snapshots.map change :=
    filter_map_comm (fun row => by rw [users]) _
  rw [restrict_writeSnapshots own, filtered]

variable (separated : Separated tenant portal)
include separated

theorem restrict_insertRun {run : AgentRun} (named : tenant run.runId = run.userId)
    (own : run.userId = userId) :
    restrict tenant userId (portal.insertRun run) =
      (restrict tenant userId portal).insertRun run := by
  have owner := named.trans own
  have filtered : (portal.runs.createRunning run).filter (·.userId == userId) =
      (restrict tenant userId portal).runs.createRunning run := by
    rw [Runs.createRunning, Runs.createRunning, restrict_get separated owner]
    split
    · rfl
    · rw [List.filter_append, List.filter_singleton, own, beq_self_eq_true]
      rfl
  rw [insertRun, insertRun, restrict_writeRuns owner, filtered, restrict_get separated owner]

theorem restrict_ask (request : ClientRequest) :
    restrict tenant userId (portal.ask userId runId request) =
      (restrict tenant userId portal).ask userId runId request := by
  cases request with
  | state => rw [ask, ask, restrict_answer, restrict_getState separated]
  | events lastEventId afterSeq =>
      rw [ask, ask]
      split
      · exact restrict_answer _
      · rw [restrict_answer, restrict_visible separated]
  | approval choice =>
      rw [ask, ask, restrict_visible separated]
      split
      · exact restrict_hold rfl
      · exact restrict_answer _
  | stop =>
      rw [ask, ask, restrict_visible separated]
      split
      · exact restrict_hold rfl
      · exact restrict_answer _
  | resume settings policy debt message =>
      rw [ask, ask, restrict_visible separated]
      split
      · exact restrict_answer _
      · split
        · exact restrict_answer _
        · split
          · exact restrict_answer _
          · exact restrict_hold rfl

theorem restrict_launch {settings : Settings} {policy : Policy.PolicyState} {debt : Int}
    {message sessionId : String} {model : Option String} {launched : Upstream (String × String)}
    {now : Time} (within : (PortalAction.launch userId settings policy debt message sessionId model
      launched now).Within tenant) :
    restrict tenant userId
        (portal.launch userId settings policy debt message sessionId model launched now) =
      (restrict tenant userId portal).launch userId settings policy debt message sessionId model
        launched now := by
  rw [launch, launch]
  split
  · exact restrict_answer _
  · cases launched with
    | asleep failure => rw [restrict_answer, restrict_tell]
    | silent failure => rw [restrict_answer, restrict_tell]
    | answered value =>
        dsimp only
        rw [restrict_answer, restrict_insertRun (separated.tell _ _), restrict_tell]
        · exact within
        · rfl

omit separated in
theorem restrict_pass {call : ClientCall} (own : call.userId = userId) {path : String}
    {body : Option Json} {outcome : Upstream (Int × Option Json)} {effect effect' : Portal → Portal}
    (commutes : ∀ contacts, restrict tenant userId (effect (portal.tell userId contacts)) =
      effect' ((restrict tenant userId portal).tell userId contacts)) :
    restrict tenant userId (portal.pass call path body outcome effect) =
      (restrict tenant userId portal).pass call path body outcome effect' := by
  subst own
  unfold pass
  split
  · rw [restrict_answer, restrict_tell]
  · rw [restrict_answer, restrict_tell]
  · dsimp only
    split
    · rw [restrict_answer, restrict_tell]
    · rw [restrict_answer, commutes]

theorem restrict_revertCas (own : tenant runId = userId) (now : Time) :
    restrict tenant userId (portal.revertCas runId now) =
      (restrict tenant userId portal).revertCas runId now := by
  rw [revertCas, revertCas, Runs.revertCas, Runs.revertCas, restrict_activeChild separated own,
    restrict_affects separated own]
  refine restrict_update own ?_ _ now
  exact fun _ => rfl

theorem restrict_continueRun {call : ClientCall} (own : call.userId = userId)
    (named : tenant call.runId = call.userId) {message : Option String} {sessionId : String}
    {model : Option String} {history : Upstream (List Json)}
    {launched : Except CallFailure (String × String)} {now : Time}
    (within : (PortalAction.continueRun call history launched now).Within tenant) :
    restrict tenant userId
        (portal.continueRun call message sessionId model history launched now) =
      (restrict tenant userId portal).continueRun call message sessionId model history launched
        now := by
  subst own
  unfold continueRun
  split
  · rw [restrict_answer, restrict_revertCas (separated.tell _ _) named, restrict_tell]
  · rw [restrict_answer, restrict_revertCas (separated.tell _ _) named, restrict_tell]
  · dsimp only
    split
    · rw [restrict_answer, restrict_revertCas (separated.tell _ _) named, restrict_tell]
    · rw [restrict_answer, restrict_insertRun (separated.tell _ _), restrict_tell]
      · exact within
      · rfl

omit separated in
theorem restrict_clearPendingApproval {call : ClientCall} (own : call.userId = userId)
    (owner : tenant call.runId = userId) (now : Time) :
    restrict tenant userId (portal.clearPendingApproval call now) =
      (restrict tenant userId portal).clearPendingApproval call now := by
  subst own
  rw [clearPendingApproval, clearPendingApproval, Snapshots.clearPendingApproval,
    Snapshots.clearPendingApproval, restrict_snapshots_visible]
  refine restrict_rewrite owner (fun row => ?_) _ now
  split <;> rfl

theorem restrict_markStopped {call : ClientCall} (owner : tenant call.runId = userId)
    (now : Time) :
    restrict tenant userId (portal.markStopped call now) =
      (restrict tenant userId portal).markStopped call now := by
  rw [markStopped, markStopped, restrict_affects separated owner]
  refine restrict_update owner ?_ _ now
  exact fun _ => rfl

theorem restrict_casResume (own : tenant runId = userId) :
    (Runs.casResume (restrict tenant userId portal).runs runId).1 =
      (Runs.casResume portal.runs runId).1 := by
  refine congrArg (Option.map _) (find_filter fun row listed found => ?_)
  rw [← separated.runs row listed, beq_iff_eq.mp (Bool.and_eq_true_iff.mp found).1, own,
    beq_self_eq_true]

theorem restrict_compareAndSet {call : ClientCall} (own : call.userId = userId)
    (owner : tenant call.runId = userId) (now : Time) :
    restrict tenant userId (portal.proceed call (.compareAndSet call now)) =
      (restrict tenant userId portal).proceed call (.compareAndSet call now) := by
  rw [proceed, proceed]
  split
  next =>
    have same := restrict_casResume separated owner
    cases won : Runs.casResume portal.runs call.runId with
    | mk winner resumed =>
        cases won_own : Runs.casResume (restrict tenant userId portal).runs call.runId with
        | mk winner_own resumed_own =>
            rw [won, won_own] at same
            obtain rfl : winner_own = winner := same
            obtain rfl : _ = resumed := congrArg Prod.snd won
            obtain rfl : _ = resumed_own := congrArg Prod.snd won_own
            cases winner_own with
            | none =>
                dsimp only
                rw [restrict_hold, restrict_drop]
                exact own
            | some value =>
                dsimp only
                rw [restrict_hold, ← restrict_drop]
                · refine congrArg (fun after => hold after _) (restrict_update owner ?_ true now)
                  exact fun _ => rfl
                · exact own
  next => rfl

/-- One's own waiting requests go on alike. -/
theorem restrict_proceed {call : ClientCall} (own : call.userId = userId)
    (named : tenant call.runId = call.userId) (within : action.Within tenant)
    (about : ∀ other history launched now, action = .continueRun other history launched now →
      other = call) :
    restrict tenant userId (portal.proceed call action) =
      (restrict tenant userId portal).proceed call action := by
  have owner : tenant call.runId = userId := named.trans own
  have dropped := separated.drop call
  cases action with
  | passed _ outcome now =>
      rw [proceed, proceed]
      split
      · rw [← restrict_drop]
        refine restrict_pass own fun contacts => ?_
        rw [restrict_clearPendingApproval own owner, restrict_tell]
      · rw [← restrict_drop]
        refine restrict_pass own fun contacts => ?_
        rw [restrict_markStopped (dropped.tell _ _) owner, restrict_tell]
      · rfl
  | compareAndSet _ now => exact restrict_compareAndSet separated own owner now
  | findChild _ =>
      rw [proceed, proceed]
      split
      · subst own
        rw [restrict_answer, restrict_drop, restrict_activeChild separated owner]
      · rfl
  | continueRun other history launched now =>
      obtain rfl := about other history launched now rfl
      rw [proceed, proceed]
      split
      · rw [restrict_continueRun dropped own named within, restrict_drop]
      · rfl
  | abandon _ => exact restrict_drop call
  | launch | prepare | flush | heartbeat | pause | finish | record | retention | ask => rfl

theorem restrict_upsert {incoming : RunSnapshot} (own : incoming.userId = userId)
    (owner : tenant incoming.runId = userId) (assertApproval : Bool) :
    Snapshots.upsert (restrict tenant userId portal).snapshots (restrict tenant userId portal).runs
        incoming assertApproval =
      (Snapshots.upsert portal.snapshots portal.runs incoming assertApproval).map
        (·.filter (·.userId == userId)) := by
  rw [Snapshots.upsert, Snapshots.upsert, restrict_snapshots_get separated owner,
    restrict_get separated owner]
  split
  · rfl
  · split
    · split
      · rfl
      · rw [Except.map, List.filter_append, List.filter_singleton, own, beq_self_eq_true]
        rfl
    · refine congrArg Except.ok (filter_map_comm (fun row => ?_) _).symm
      split <;> rfl

theorem restrict_flush {incoming : RunSnapshot} (own : incoming.userId = userId)
    (owner : tenant incoming.runId = userId) (assertApproval : Bool) (now : Time) :
    restrict tenant userId (portal.flush incoming assertApproval now) =
      (restrict tenant userId portal).flush incoming assertApproval now := by
  rw [flush, flush, restrict_upsert separated own owner]
  cases Snapshots.upsert portal.snapshots portal.runs incoming assertApproval with
  | error error => rfl
  | ok snapshots =>
      dsimp only [Except.map]
      rw [restrict_writeSnapshots owner, restrict_snapshots_get separated owner]

theorem restrict_prepare (owner : tenant runId = userId) (now : Time) :
    restrict tenant userId (portal.perform (.prepare runId userId now)) =
      (restrict tenant userId portal).perform (.prepare runId userId now) := by
  have filtered : (Snapshots.ensureRow portal.snapshots runId userId).filter (·.userId == userId) =
      Snapshots.ensureRow (restrict tenant userId portal).snapshots runId userId := by
    rw [Snapshots.ensureRow, Snapshots.ensureRow, restrict_snapshots_get separated owner]
    split
    · rfl
    · rw [List.filter_append, List.filter_singleton, beq_self_eq_true]
      rfl
  rw [perform, perform, restrict_get separated owner]
  split
  · rw [restrict_writeSnapshots owner, filtered, restrict_snapshots_get separated owner]
  · rfl

theorem restrict_record (owner : tenant runId = userId) (stepIndex credits : Int) (now : Time) :
    restrict tenant userId (portal.record runId stepIndex credits now) =
      (restrict tenant userId portal).record runId stepIndex credits now := by
  have overflows : (restrict tenant userId portal).runs.any (fun row => row.runId == runId &&
        !Wallet.fitsBigint (row.cumulativeCreditsSpent + credits)) =
      portal.runs.any fun row => row.runId == runId &&
        !Wallet.fitsBigint (row.cumulativeCreditsSpent + credits) :=
    any_filter fun row listed found => by
      rw [← separated.runs row listed, beq_iff_eq.mp (Bool.and_eq_true_iff.mp found).1, owner,
        beq_self_eq_true]
  rw [record, record, Runs.recordStep, Runs.recordStep, overflows, restrict_affects separated owner]
  cases (!Runs.fitsInteger stepIndex) with
  | true => rfl
  | false =>
      cases portal.runs.any fun row => row.runId == runId &&
          !Wallet.fitsBigint (row.cumulativeCreditsSpent + credits) with
      | true => rfl
      | false =>
          refine restrict_update owner ?_ _ now
          exact fun _ => rfl

theorem restrict_retention (now ttl : Time) :
    restrict tenant userId (portal.perform (.retention now ttl)) =
      (restrict tenant userId portal).perform (.retention now ttl) := by
  have same : ∀ row ∈ portal.snapshots.filter (·.userId == userId),
      (restrict tenant userId portal).expired now ttl row = portal.expired now ttl row := by
    intro row listed
    obtain ⟨present, own⟩ := List.mem_filter.mp listed
    have owner : tenant row.runId = userId := by
      rw [separated.snapshots row present, beq_iff_eq.mp own]
    have finished : (restrict tenant userId portal).runs.any (fun run =>
          run.runId == row.runId && !run.status.active) =
        portal.runs.any fun run => run.runId == row.runId && !run.status.active :=
      any_filter fun run there ended => by
        rw [← separated.runs run there, beq_iff_eq.mp (Bool.and_eq_true_iff.mp ended).1, owner,
          beq_self_eq_true]
    rw [expired, expired, finished]
    simp only [restrict, owner, if_true]
  have filtered : (Snapshots.sweepExpired portal.snapshots (portal.expired now ttl)).filter
        (·.userId == userId) =
      Snapshots.sweepExpired (restrict tenant userId portal).snapshots
        ((restrict tenant userId portal).expired now ttl) := by
    rw [Snapshots.sweepExpired, Snapshots.sweepExpired, filter_map_comm]
    · refine List.map_congr_left fun row listed => ?_
      rw [same row listed]
    · intro row
      split <;> rfl
  rw [perform, perform, ← filtered]
  rfl

/-- A user's part takes the user's own steps as the whole does. -/
theorem restrict_own (within : action.Within tenant)
    (concerned : action.concerns tenant userId = true) :
    restrict tenant userId (portal.perform action) =
      (restrict tenant userId portal).perform action := by
  have waiting {call : ClientCall} (own : call.userId = userId)
      (about : ∀ other history launched now, action = .continueRun other history launched now →
        other = call) :
      restrict tenant userId
          (if call ∈ portal.calls then portal.proceed call action else portal) =
        if call ∈ (restrict tenant userId portal).calls then
          (restrict tenant userId portal).proceed call action
        else restrict tenant userId portal := by
    have same : call ∈ (restrict tenant userId portal).calls ↔ call ∈ portal.calls := by
      simp [restrict, own]
    simp only [same]
    split
    next present =>
      exact restrict_proceed separated own (separated.calls call present) within about
    next => rfl
  cases action with
  | launch owner settings policy debt message sessionId model launched now =>
      obtain rfl := beq_iff_eq.mp concerned
      exact restrict_launch separated within
  | prepare runId owner now =>
      obtain rfl := beq_iff_eq.mp concerned
      exact restrict_prepare separated within now
  | flush incoming assertApproval now =>
      have own := beq_iff_eq.mp concerned
      exact restrict_flush separated own (within.trans own) assertApproval now
  | heartbeat runId now =>
      have filtered : (Snapshots.touchConsumerHeartbeat portal.snapshots runId now).filter
            (·.userId == userId) =
          Snapshots.touchConsumerHeartbeat (restrict tenant userId portal).snapshots runId now :=
        filter_map_comm (fun row => by split <;> rfl) _
      rw [perform, perform, ← filtered]
      rfl
  | pause runId reason now =>
      have owner := beq_iff_eq.mp concerned
      rw [perform, perform, restrict_affects separated owner]
      refine restrict_update owner ?_ _ now
      exact fun _ => rfl
  | finish runId status now =>
      have owner := beq_iff_eq.mp concerned
      rw [perform, perform, restrict_affects separated owner]
      split
      · refine restrict_update owner ?_ _ now
        exact fun _ => rfl
      · rfl
  | record runId stepIndex credits now =>
      exact restrict_record separated (beq_iff_eq.mp concerned) stepIndex credits now
  | retention now ttl => exact restrict_retention separated now ttl
  | ask owner runId request =>
      obtain rfl := beq_iff_eq.mp concerned
      exact restrict_ask separated request
  | passed call outcome now =>
      exact waiting (beq_iff_eq.mp concerned) fun _ _ _ _ same => by cases same
  | compareAndSet call now =>
      exact waiting (beq_iff_eq.mp concerned) fun _ _ _ _ same => by cases same
  | findChild call =>
      exact waiting (beq_iff_eq.mp concerned) fun _ _ _ _ same => by cases same
  | continueRun call history launched now =>
      refine waiting (beq_iff_eq.mp concerned) fun _ _ _ _ same => ?_
      cases same
      rfl
  | abandon call =>
      exact waiting (beq_iff_eq.mp concerned) fun _ _ _ _ same => by cases same

end Own

/-! ### The steps of others -/

section Foreign

theorem restrict_insertRun_other {run : AgentRun} (named : tenant run.runId = run.userId)
    (other : run.userId ≠ userId) :
    restrict tenant userId (portal.insertRun run) = restrict tenant userId portal := by
  refine restrict_writeRuns_other (named ▸ other) ?_ _ _
  obtain same | ⟨-, grown⟩ := Lifecycle.createRunning_rows portal.runs run
  · rw [same]
  · rw [grown, List.filter_append, List.filter_singleton, beq_false_of_ne other]
    exact List.append_nil _

theorem restrict_ask_other (other : client ≠ userId) (request : ClientRequest) :
    restrict tenant userId (portal.ask client runId request) = restrict tenant userId portal := by
  have answered (answer : ClientAnswer) : restrict tenant userId (portal.answer client answer) =
      restrict tenant userId portal := restrict_answer_other other answer
  have held (stage : CallStage) : restrict tenant userId (portal.hold ⟨client, runId, stage⟩) =
      restrict tenant userId portal := restrict_hold_other other
  cases request with
  | state => exact answered _
  | events lastEventId afterSeq =>
      rw [ask]
      split <;> exact answered _
  | approval choice =>
      rw [ask]
      split
      · exact held _
      · exact answered _
  | stop =>
      rw [ask]
      split
      · exact held _
      · exact answered _
  | resume settings policy debt message =>
      rw [ask]
      split
      · exact answered _
      · split
        · exact answered _
        · split
          · exact answered _
          · exact held _

variable (separated : Separated tenant portal)
include separated

/-- An update of a run which another user's instance has named. -/
theorem restrict_update_other (foreign : tenant runId ≠ userId) {guard : AgentRun → Bool}
    {change : AgentRun → AgentRun} (users : ∀ row, (change row).userId = row.userId)
    (written : Bool) (now : Time) :
    restrict tenant userId (portal.writeRuns (portal.runs.update runId guard change) runId written
        now) =
      restrict tenant userId portal := by
  refine restrict_writeRuns_other foreign (filter_map_same (fun row _ => ?_) ?_) written now
  · split
    · rw [users]
    · rfl
  · intro row listed own
    refine if_neg fun touched => foreign ?_
    rw [← touched.1, separated.runs row listed, beq_iff_eq.mp own]

/-- Snapshots rewritten for such a run. -/
theorem filter_rewrite_other (foreign : tenant runId ≠ userId) {change : RunSnapshot → RunSnapshot}
    (users : ∀ row, (change row).userId = row.userId)
    (others : ∀ row, row.runId ≠ runId → change row = row) :
    (portal.snapshots.map change).filter (·.userId == userId) =
      portal.snapshots.filter (·.userId == userId) :=
  filter_map_same (fun row _ => by rw [users]) fun row listed own => others row fun named =>
    foreign (by rw [← named, separated.snapshots row listed, beq_iff_eq.mp own])

theorem restrict_flush_other {incoming : RunSnapshot}
    (named : tenant incoming.runId = incoming.userId) (other : incoming.userId ≠ userId)
    (assertApproval : Bool) (now : Time) :
    restrict tenant userId (portal.flush incoming assertApproval now) =
      restrict tenant userId portal := by
  have foreign : tenant incoming.runId ≠ userId := named ▸ other
  rw [flush]
  split
  · rfl
  next snapshots written =>
    refine restrict_writeSnapshots_other foreign ?_ _ now
    rw [Snapshots.upsert] at written
    split at written
    · cases written
    · split at written
      · split at written
        · cases written
        · cases written
          rw [List.filter_append, List.filter_singleton, beq_false_of_ne other]
          exact List.append_nil _
      · cases written
        refine filter_rewrite_other separated foreign (fun row => ?_) fun row elsewhere => ?_
        · split <;> rfl
        · exact if_neg fun same => elsewhere same.1

theorem restrict_proceed_other {call : ClientCall} (waits : call ∈ portal.calls)
    (other : call.userId ≠ userId) (within : action.Within tenant)
    (about : ∀ earlier history launched now,
      action = .continueRun earlier history launched now → earlier = call) :
    restrict tenant userId (portal.proceed call action) = restrict tenant userId portal := by
  have foreign : tenant call.runId ≠ userId := separated.calls call waits ▸ other
  have dropped : restrict tenant userId (portal.drop call) = restrict tenant userId portal :=
    restrict_drop_other other
  let holds (after : Portal) : Prop :=
    restrict tenant userId after = restrict tenant userId portal
  have told (contacts : List Contact) :
      holds ((portal.drop call).tell call.userId contacts) :=
    (restrict_tell_other other contacts).trans dropped
  have answered {after : Portal} (same : holds after) (answer : ClientAnswer) :
      holds (after.answer call.userId answer) :=
    (restrict_answer_other other answer).trans same
  have held {after : Portal} (same : holds after) (stage : CallStage) :
      holds (after.hold { call with stage := stage }) :=
    (@restrict_hold_other tenant userId after { call with stage := stage } other).trans same
  cases action with
  | passed _ outcome now =>
      rw [proceed]
      split
      · refine pass_cases holds (fun contacts answer _ => answered (told contacts) answer)
          fun contacts answer _ => answered ?_ answer
        refine (restrict_writeSnapshots_other foreign ?_ _ now).trans (told contacts)
        refine filter_rewrite_other (separated.drop call) foreign (fun row => ?_)
          fun row elsewhere => ?_
        · split <;> rfl
        · exact if_neg fun same => elsewhere same.1
      · refine pass_cases holds (fun contacts answer _ => answered (told contacts) answer)
          fun contacts answer _ => answered ?_ answer
        refine Eq.trans (restrict_update_other ((separated.drop call).tell _ _) foreign ?_ _ now)
          (told contacts)
        exact fun _ => rfl
      · rfl
  | compareAndSet _ now =>
      rw [proceed]
      split
      next message _ =>
        cases won : Runs.casResume portal.runs call.runId with
        | mk winner resumed =>
            obtain rfl : _ = resumed := congrArg Prod.snd won
            cases winner with
            | none => exact held dropped .lost
            | some value =>
                refine held (Eq.trans ?_ dropped) (.won message value.1 value.2)
                refine restrict_update_other (separated.drop call) foreign ?_ true now
                exact fun _ => rfl
      next => rfl
  | findChild _ =>
      rw [proceed]
      split
      · exact answered dropped _
      · rfl
  | continueRun earlier history launched now =>
      obtain rfl := about earlier history launched now rfl
      rw [proceed]
      split
      · refine continueRun_cases holds (fun contacts answer _ => answered ?_ answer)
          fun contacts newRunId status answer launches _ => answered ?_ answer
        · refine Eq.trans (restrict_update_other ((separated.drop _).tell _ _) foreign ?_ _ now)
            (told contacts)
          exact fun _ => rfl
        · subst launches
          refine (restrict_insertRun_other ?_ other).trans (told contacts)
          exact within
      · rfl
  | abandon _ => exact dropped
  | launch | prepare | flush | heartbeat | pause | finish | record | retention | ask => rfl

/-- A user's part does not see the steps of others. -/
theorem restrict_foreign (within : action.Within tenant)
    (unconcerned : action.concerns tenant userId = false) :
    restrict tenant userId (portal.perform action) = restrict tenant userId portal := by
  have waiting {call : ClientCall} (other : call.userId ≠ userId)
      (about : ∀ earlier history launched now,
        action = .continueRun earlier history launched now → earlier = call) :
      restrict tenant userId
          (if call ∈ portal.calls then portal.proceed call action else portal) =
        restrict tenant userId portal := by
    split
    next present => exact restrict_proceed_other separated present other within about
    next => rfl
  cases action with
  | launch owner settings policy debt message sessionId model launched now =>
      have other := beq_eq_false_iff_ne.mp unconcerned
      rw [perform, launch]
      split
      · exact restrict_answer_other other _
      · cases launched with
        | asleep failure => rw [restrict_answer_other other, restrict_tell_other other]
        | silent failure => rw [restrict_answer_other other, restrict_tell_other other]
        | answered value =>
            dsimp only
            rw [restrict_answer_other other, restrict_insertRun_other, restrict_tell_other other]
            · exact within
            · exact other
  | prepare runId owner now =>
      have other := beq_eq_false_iff_ne.mp unconcerned
      have named : tenant runId = owner := within
      rw [perform]
      split
      · refine restrict_writeSnapshots_other (named ▸ other) ?_ _ now
        rw [Snapshots.ensureRow]
        split
        · rfl
        · rw [List.filter_append, List.filter_singleton, beq_false_of_ne other]
          exact List.append_nil _
      · rfl
  | flush incoming assertApproval now =>
      exact restrict_flush_other separated within (beq_eq_false_iff_ne.mp unconcerned)
        assertApproval now
  | heartbeat runId now =>
      have filtered : (Snapshots.touchConsumerHeartbeat portal.snapshots runId now).filter
            (·.userId == userId) = portal.snapshots.filter (·.userId == userId) :=
        filter_rewrite_other separated (beq_eq_false_iff_ne.mp unconcerned)
          (fun row => by split <;> rfl) fun row elsewhere => if_neg elsewhere
      simp only [perform, restrict, filtered]
  | pause runId reason now =>
      refine restrict_update_other separated (beq_eq_false_iff_ne.mp unconcerned) ?_ _ now
      exact fun _ => rfl
  | finish runId status now =>
      rw [perform]
      split
      · refine restrict_update_other separated (beq_eq_false_iff_ne.mp unconcerned) ?_ _ now
        exact fun _ => rfl
      · rfl
  | record runId stepIndex credits now =>
      rw [perform, record, Runs.recordStep]
      cases (!Runs.fitsInteger stepIndex) with
      | true => rfl
      | false =>
          cases portal.runs.any fun row => row.runId == runId &&
              !Wallet.fitsBigint (row.cumulativeCreditsSpent + credits) with
          | true => rfl
          | false =>
              refine restrict_update_other separated (beq_eq_false_iff_ne.mp unconcerned) ?_ _ now
              exact fun _ => rfl
  | retention now ttl => cases unconcerned
  | ask owner runId request =>
      exact restrict_ask_other (beq_eq_false_iff_ne.mp unconcerned) request
  | passed call outcome now =>
      exact waiting (beq_eq_false_iff_ne.mp unconcerned) fun _ _ _ _ same => by cases same
  | compareAndSet call now =>
      exact waiting (beq_eq_false_iff_ne.mp unconcerned) fun _ _ _ _ same => by cases same
  | findChild call =>
      exact waiting (beq_eq_false_iff_ne.mp unconcerned) fun _ _ _ _ same => by cases same
  | continueRun call history launched now =>
      refine waiting (beq_eq_false_iff_ne.mp unconcerned) fun _ _ _ _ same => ?_
      cases same
      rfl
  | abandon call =>
      exact waiting (beq_eq_false_iff_ne.mp unconcerned) fun _ _ _ _ same => by cases same

end Foreign

def observer (tenant : String → UserId) (userId : UserId) : Observer perform where
  restrict := restrict tenant userId
  concerns := PortalAction.concerns tenant userId
  holds := Separated tenant
  allowed := PortalAction.Within tenant
  kept _ _ separated within := separated.step within
  own _ _ separated within concerned := restrict_own separated within concerned
  foreign _ _ separated unconcerned within := restrict_foreign separated within unconcerned

theorem restrict_empty (tenant : String → UserId) (userId : UserId) :
    restrict tenant userId {} = {} := by
  simp [restrict]

/-- As long as every run id is handed out by the instance of one user only, what belongs to a user,
what the user's instance is asked and what the user is told are what they would be if only this user
and the relays of this user's runs had ever done anything. -/
theorem users_do_not_interfere (tenant : String → UserId) (userId : UserId)
    (actions : List PortalAction) (named : ∀ action ∈ actions, action.Within tenant) :
    restrict tenant userId (run actions) = run (actions.filter (·.concerns tenant userId)) := by
  have initially : Separated tenant {} :=
    ⟨fun _ listed => (by cases listed), fun _ listed => (by cases listed),
      fun _ listed => (by cases listed), fun _ listed => (by cases listed)⟩
  have restricted := (observer tenant userId).restrict_foldl actions initially named
  have nothing : (observer tenant userId).restrict {} = {} := restrict_empty tenant userId
  rw [nothing] at restricted
  exact restricted

namespace Sample

/-- The instance of the second user names its runs after it. -/
def namedBy (runId : String) : UserId := if runId = "run_2" then ⟨2⟩ else ⟨1⟩

/-- What the first user and the relay of the first user's run do. -/
def first : List PortalAction :=
  [launching ⟨1⟩ "run_1" 0,
    .flush { runId := "run_1", userId := ⟨1⟩, resultText := "Hel" } true 2,
    .ask ⟨1⟩ "run_1" .state]

/-- The same, while another user launches a run, looks at the first user's run and stops it. -/
def both : List PortalAction :=
  [launching ⟨1⟩ "run_1" 0, launching ⟨2⟩ "run_2" 1,
    .flush { runId := "run_1", userId := ⟨1⟩, resultText := "Hel" } true 2,
    .ask ⟨2⟩ "run_1" .state, .ask ⟨2⟩ "run_1" .stop, .ask ⟨1⟩ "run_1" .state]

/-- The first user is told what would be told if the other one had done nothing. -/
theorem first_undisturbed : restrict namedBy ⟨1⟩ (run both) = run first := by
  refine (users_do_not_interfere namedBy ⟨1⟩ both ?_).trans rfl
  intro action listed
  simp only [both, List.mem_cons, List.not_mem_nil, or_false] at listed
  rcases listed with rfl | rfl | rfl | rfl | rfl | rfl
  · rfl
  · rfl
  · rfl
  · trivial
  · trivial
  · trivial

end Sample

end Portal

end Hermes.AgentProxy
