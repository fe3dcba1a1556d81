import Hermes.AgentProxy.Incremental

/-!
# The transcript in the snapshot

A relay joins the texts of the deltas and cuts them at a flush, while further deltas arrive; the
cut keeps the head, so it does not matter when it is made.  The upsert lets a text grow only.  Its
tenancy guard stands on the update and not on the insert: a run which has no snapshot yet takes one
from any user.
-/

namespace Hermes.AgentProxy

open Wallet (UserId)

inductive TranscriptStep
  /-- `message.delta` with a text. -/
  | delta (piece : String)
  /-- `_flush_snapshot`. -/
  | flush (conditions : Conditions) (immediate assertApproval : Bool) (db : AgentDb)

def TranscriptStep.apply (settings : Settings) (run : RunProcessing) :
    TranscriptStep → RunProcessing
  | .delta piece =>
      { run with state := { run.state with partialText := run.state.partialText ++ [piece] } }
  | .flush conditions immediate assertApproval db =>
      (flushSnapshot settings conditions run immediate assertApproval db).1

def deltaTexts (steps : List TranscriptStep) : List String :=
  steps.filterMap fun step =>
    match step with
    | .delta piece => some piece
    | .flush .. => none

def FlushDue (settings : Settings) (conditions : Conditions) (run : RunProcessing)
    (immediate : Bool) : Prop :=
  immediate = true ∨
    settings.agentStateFlushIntervalSeconds ≤ conditions.clock - run.state.lastFlushAt

/-- A stored row and what it has become: the text is continued and no count has fallen. -/
structure RunSnapshot.Extends (stored later : RunSnapshot) : Prop where
  runId : later.runId = stored.runId
  userId : later.userId = stored.userId
  text : stored.resultText.toList <+: later.resultText.toList
  input : stored.inputTokens ≤ later.inputTokens
  output : stored.outputTokens ≤ later.outputTokens

inductive SnapshotAction
  /-- `create_running`. -/
  | create (run : AgentRun)
  /-- `upsert` of some relay, in a transaction of its own. -/
  | upsert (incoming : RunSnapshot) (assertApproval : Bool)

def SnapshotAction.apply (db : AgentDb) : SnapshotAction → AgentDb
  | .create run => { db with runs := Runs.createRunning db.runs run }
  | .upsert incoming assertApproval =>
      match Snapshots.upsert db.snapshots db.runs incoming assertApproval with
      | .ok snapshots => { db with snapshots := snapshots }
      | .error _ => db

/-- The run of a write belongs to another user. -/
def ForeignRun (db : AgentDb) (incoming : RunSnapshot) : Prop :=
  ∃ run, Runs.get db.runs incoming.runId = some run ∧ run.userId ≠ incoming.userId

structure UpsertLaw (before after : AgentDb) (incoming : RunSnapshot) : Prop where
  extended : ∀ runId stored, Snapshots.get before.snapshots runId = some stored →
    ∃ later, Snapshots.get after.snapshots runId = some later ∧ stored.Extends later
  foreign : ForeignRun before incoming → after.snapshots = before.snapshots

/-- The run has a snapshot already, or it is the writer's own, or the write is refused. -/
def Tenanted (db : AgentDb) (incoming : RunSnapshot) : Prop :=
  (Snapshots.get db.snapshots incoming.runId).isSome = true ∨ ¬ ForeignRun db incoming ∨
    Snapshots.admitted incoming = false

/-- A property of every write of a sequence, in the state it finds. -/
def EveryUpsert (property : AgentDb → RunSnapshot → Bool → Prop) :
    AgentDb → List SnapshotAction → Prop
  | _, [] => True
  | db, action :: later =>
      (match action with
        | .create _ => True
        | .upsert incoming assertApproval => property db incoming assertApproval) ∧
      EveryUpsert property (action.apply db) later

/-- Every snapshot belongs to the user of its run. -/
def Owned (db : AgentDb) : Prop :=
  ∀ stored ∈ db.snapshots,
    ∃ run, Runs.get db.runs stored.runId = some run ∧ run.userId = stored.userId

section Transcript

variable {settings : Settings} {conditions : Conditions} {run : RunProcessing} {db : AgentDb}

@[simp] theorem toList_cutHead (count : Nat) (text : String) :
    (cutHead count text).toList = text.toList.take count := by
  rw [cutHead, String.toList_ofList]

theorem cutHead_cutHead_append (count : Nat) (head tail : String) :
    cutHead count (cutHead count head ++ tail) = cutHead count (head ++ tail) := by
  apply String.toList_injective
  simp only [toList_cutHead, String.toList_append]
  rw [List.take_append, List.take_append, List.take_take, Nat.min_self, List.length_take]
  congr 2
  omega

@[simp] theorem join_singleton (text : String) : String.join [text] = text := by
  apply String.toList_injective
  simp

def SameHead (settings : Settings) (texts others : List String) : Prop :=
  cutHead settings.agentStateResultTextMaxChars (String.join texts) =
    cutHead settings.agentStateResultTextMaxChars (String.join others)

theorem SameHead.append {texts others : List String} (same : SameHead settings texts others)
    (pieces : List String) : SameHead settings (texts ++ pieces) (others ++ pieces) := by
  have appended : ∀ gathered : List String,
      cutHead settings.agentStateResultTextMaxChars (String.join (gathered ++ pieces)) =
        cutHead settings.agentStateResultTextMaxChars
          (cutHead settings.agentStateResultTextMaxChars (String.join gathered) ++
            String.join pieces) := by
    intro gathered
    rw [String.join_append, cutHead_cutHead_append]
  rw [SameHead, appended texts, appended others, same]

theorem sameHead_collapse (texts : List String) :
    SameHead settings [cutHead settings.agentStateResultTextMaxChars (String.join texts)]
      texts := by
  rw [SameHead, join_singleton]
  apply String.toList_injective
  rw [toList_cutHead, toList_cutHead, List.take_take, Nat.min_self]

theorem flushSnapshot_sameHead (db : AgentDb) (immediate assertApproval : Bool) :
    SameHead settings
      (flushSnapshot settings conditions run immediate assertApproval db).1.state.partialText
      run.state.partialText := by
  rw [flushSnapshot]
  split
  · rfl
  · exact sameHead_collapse run.state.partialText

theorem TranscriptStep.apply_sameHead (settings : Settings) (run : RunProcessing)
    (step : TranscriptStep) :
    SameHead settings (step.apply settings run).state.partialText
      (run.state.partialText ++ deltaTexts [step]) := by
  cases step with
  | delta piece => rfl
  | flush conditions immediate assertApproval db =>
      rw [show deltaTexts [TranscriptStep.flush conditions immediate assertApproval db] = [] from
        rfl, List.append_nil]
      exact flushSnapshot_sameHead db immediate assertApproval

theorem deltaTexts_cons (step : TranscriptStep) (later : List TranscriptStep) :
    deltaTexts (step :: later) = deltaTexts [step] ++ deltaTexts later := by
  rw [deltaTexts, deltaTexts, deltaTexts, ← List.filterMap_append, List.singleton_append]

theorem steps_sameHead (settings : Settings) (steps : List TranscriptStep)
    (run : RunProcessing) :
    SameHead settings (steps.foldl (TranscriptStep.apply settings) run).state.partialText
      (run.state.partialText ++ deltaTexts steps) := by
  induction steps generalizing run with
  | nil =>
      rw [deltaTexts, List.filterMap_nil, List.append_nil]
      rfl
  | cons step later induction =>
      have first := (step.apply_sameHead settings run).append (deltaTexts later)
      rw [List.foldl_cons, deltaTexts_cons, ← List.append_assoc]
      exact (induction (step.apply settings run)).trans first

theorem flushSnapshot_partialText {immediate : Bool}
    (due : FlushDue settings conditions run immediate) (assertApproval : Bool) :
    (flushSnapshot settings conditions run immediate assertApproval db).1.state.partialText =
      [cutHead settings.agentStateResultTextMaxChars (String.join run.state.partialText)] := by
  have open_gate : ¬ ((!immediate && decide (conditions.clock - run.state.lastFlushAt <
      settings.agentStateFlushIntervalSeconds)) = true) := by
    rintro held
    obtain ⟨throttled, early⟩ := Bool.and_eq_true_iff.mp held
    obtain rfl | late := due
    · exact absurd throttled (by decide)
    · exact absurd (of_decide_eq_true early) (not_lt.mpr late)
  rw [flushSnapshot, if_neg open_gate]

def addedTexts (event : SseEvent) : List String :=
  if eventKind event = .messageDelta then [extractDeltaText event] else []

theorem onMessageDelta_sameHead (event : SseEvent) :
    SameHead settings (onMessageDelta settings conditions run event db).1.state.partialText
      (run.state.partialText ++ [extractDeltaText event]) := by
  rw [onMessageDelta]
  split
  · exact flushSnapshot_sameHead db false false
  next empty =>
    rw [SameHead, String.join_append, not_not.mp empty, join_singleton, String.append_empty]

theorem noteAnchors_sameHead (anchors : UsageCounts) :
    SameHead settings (noteAnchors settings conditions run anchors db).1.state.partialText
      run.state.partialText := by
  rw [noteAnchors]
  split
  · exact flushSnapshot_sameHead db true false
  · rfl

theorem pauseRun_sameHead :
    SameHead settings (pauseRun settings conditions run db).2.1.state.partialText
      run.state.partialText := by
  rw [pauseRun]
  split
  · rfl
  · dsimp only
    split <;> exact flushSnapshot_sameHead db true true

theorem billDelta_sameHead (event : SseEvent) :
    SameHead settings (billDelta settings conditions run event db).2.1.state.partialText
      run.state.partialText := by
  rw [billDelta]
  split
  · rfl
  · dsimp only
    split
    · exact pauseRun_sameHead
    · rfl

theorem onUsageDelta_sameHead (event : SseEvent) :
    SameHead settings (onUsageDelta settings conditions run event db).2.1.state.partialText
      run.state.partialText := by
  rw [onUsageDelta]
  split
  · rfl
  next anchors _ =>
    dsimp only
    split
    · exact (billDelta_sameHead event).trans (noteAnchors_sameHead anchors)
    · exact noteAnchors_sameHead anchors

theorem onRunCompleted_sameHead (event : SseEvent) :
    SameHead settings (onRunCompleted settings conditions run event db).2.1.state.partialText
      run.state.partialText := by
  rw [onRunCompleted]
  split
  · rfl
  · dsimp only
    split
    · exact flushSnapshot_sameHead db true true
    · split <;> exact flushSnapshot_sameHead db true true

theorem processEvent_sameHead (event : SseEvent) :
    SameHead settings (processEvent settings conditions run event db).2.1.state.partialText
      (run.state.partialText ++ addedTexts event) := by
  rw [processEvent, addedTexts]
  cases eventKind event with
  | messageDelta => exact onMessageDelta_sameHead event
  | tool =>
      rw [if_neg (by decide), List.append_nil]
      exact flushSnapshot_sameHead db true true
  | approvalRequest =>
      rw [if_neg (by decide), List.append_nil]
      exact flushSnapshot_sameHead db true true
  | usageDelta =>
      rw [if_neg (by decide), List.append_nil]
      exact onUsageDelta_sameHead event
  | runFailed =>
      rw [if_neg (by decide), List.append_nil]
      exact flushSnapshot_sameHead db true true
  | runCompleted =>
      rw [if_neg (by decide), List.append_nil]
      exact onRunCompleted_sameHead event
  | other =>
      rw [if_neg (by decide), List.append_nil]
      rfl

def streamTexts : List StreamStep → List String
  | [] => []
  | .elsewhere _ :: later => streamTexts later
  | .event event _ :: later => addedTexts event ++ streamTexts later

theorem relay_sameHead (stream : List StreamStep) {run : RunProcessing} {db : AgentDb}
    (goes_on : (relay settings stream run db).1 = .ok none) :
    SameHead settings (relay settings stream run db).2.1.state.partialText
      (run.state.partialText ++ streamTexts stream) := by
  induction stream generalizing run db with
  | nil =>
      rw [streamTexts, List.append_nil]
      rfl
  | cons step later induction =>
      cases step with
      | elsewhere other => exact induction goes_on
      | event event conditions =>
          rw [relay] at goes_on ⊢
          have step : SameHead settings
              (processEvent settings conditions run event db).2.1.state.partialText
              (run.state.partialText ++ addedTexts event) := processEvent_sameHead event
          have first := step.append (streamTexts later)
          rw [streamTexts, ← List.append_assoc]
          split at goes_on
          next run' db' processed =>
            rw [processed] at first
            exact (induction goes_on).trans first
          next ends =>
            exact (ends _ _ (Prod.ext goes_on rfl)).elim

end Transcript

section Upserts

variable {db : AgentDb} {incoming : RunSnapshot}

theorem RunSnapshot.Extends.refl (stored : RunSnapshot) : stored.Extends stored :=
  ⟨rfl, rfl, List.prefix_rfl, le_rfl, le_rfl⟩

theorem extends_merge (stored incoming : RunSnapshot) (assertApproval : Bool) :
    stored.Extends (Snapshots.merge stored incoming assertApproval) := by
  refine ⟨rfl, rfl, ?_, le_max_left _ _, le_max_left _ _⟩
  rw [Snapshots.merge]
  dsimp only
  split
  next continued => exact List.isPrefixOf_iff_prefix.mp continued
  · exact List.prefix_rfl

/-- What an upsert leaves in the row of one run. -/
def upsertRow (incoming : RunSnapshot) (assertApproval : Bool) (stored : RunSnapshot) :
    RunSnapshot :=
  if stored.runId = incoming.runId ∧ stored.userId = incoming.userId then
    Snapshots.merge stored incoming assertApproval
  else stored

theorem extends_upsertRow (incoming : RunSnapshot) (assertApproval : Bool)
    (stored : RunSnapshot) : stored.Extends (upsertRow incoming assertApproval stored) := by
  rw [upsertRow]
  split
  · exact extends_merge stored incoming assertApproval
  · exact .refl stored

theorem get_map {change : RunSnapshot → RunSnapshot}
    (named : ∀ row, (change row).runId = row.runId) (snapshots : Snapshots) (runId : String) :
    Snapshots.get (snapshots.map change) runId = (Snapshots.get snapshots runId).map change := by
  rw [Snapshots.get, List.find?_map, Snapshots.get]
  congr 2
  funext row
  rw [Function.comp_apply, named]

/-- An upsert is refused, or inserts the row of the run, or writes over the rows of the run. -/
theorem upsert_cases (db : AgentDb) (incoming : RunSnapshot) (assertApproval : Bool) :
    (SnapshotAction.upsert incoming assertApproval).apply db = db ∧
        (Snapshots.admitted incoming = false ∨ Runs.get db.runs incoming.runId = none) ∨
      (SnapshotAction.upsert incoming assertApproval).apply db =
          { db with snapshots := db.snapshots ++ [incoming] } ∧
        Snapshots.admitted incoming = true ∧ Snapshots.get db.snapshots incoming.runId = none ∧
        (Runs.get db.runs incoming.runId).isSome = true ∨
      (SnapshotAction.upsert incoming assertApproval).apply db =
          { db with snapshots := db.snapshots.map (upsertRow incoming assertApproval) } ∧
        (Snapshots.get db.snapshots incoming.runId).isSome = true := by
  rw [SnapshotAction.apply, Snapshots.upsert]
  cases admitted : Snapshots.admitted incoming with
  | false => exact .inl ⟨rfl, .inl rfl⟩
  | true =>
      cases found : Snapshots.get db.snapshots incoming.runId with
      | some stored => exact .inr (.inr ⟨rfl, rfl⟩)
      | none =>
          cases owner : Runs.get db.runs incoming.runId with
          | none => exact .inl ⟨rfl, .inr rfl⟩
          | some run => exact .inr (.inl ⟨rfl, rfl, rfl, rfl⟩)

theorem upsert_extends (db : AgentDb) (incoming : RunSnapshot) (assertApproval : Bool)
    (runId : String) (stored : RunSnapshot)
    (found : Snapshots.get db.snapshots runId = some stored) :
    ∃ later,
      Snapshots.get ((SnapshotAction.upsert incoming assertApproval).apply db).snapshots runId =
        some later ∧ stored.Extends later := by
  obtain ⟨same, -⟩ | ⟨inserted, -⟩ | ⟨written, -⟩ := upsert_cases db incoming assertApproval
  · rw [same]
    exact ⟨stored, found, .refl stored⟩
  · rw [inserted]
    refine ⟨stored, ?_, .refl stored⟩
    rw [Snapshots.get, List.find?_append, ← Snapshots.get, found, Option.some_or]
  · rw [written]
    refine ⟨upsertRow incoming assertApproval stored, ?_, extends_upsertRow _ _ _⟩
    rw [get_map (fun row => (extends_upsertRow incoming assertApproval row).runId), found,
      Option.map_some]

/-- Another user's write passes every row by where each row belongs to the user of its run. -/
theorem map_upsertRow_of_foreign (owned : Owned db) (foreign : ForeignRun db incoming)
    (assertApproval : Bool) :
    db.snapshots.map (upsertRow incoming assertApproval) = db.snapshots := by
  obtain ⟨run, found, other⟩ := foreign
  have passed : ∀ stored ∈ db.snapshots, upsertRow incoming assertApproval stored = stored := by
    intro stored listed
    obtain ⟨owner, owns, same⟩ := owned stored listed
    refine if_neg ?_
    rintro ⟨of_run, of_user⟩
    rw [of_run, found, Option.some.injEq] at owns
    rw [owns, same] at other
    exact other of_user
  exact (List.map_congr_left passed).trans (List.map_id _)

/-- In a state where each row belongs to the user of its run, a write keeps the law exactly if it
inserts no row for another user's run. -/
theorem upsertLaw_iff (owned : Owned db) (assertApproval : Bool) :
    UpsertLaw db ((SnapshotAction.upsert incoming assertApproval).apply db) incoming ↔
      Tenanted db incoming := by
  constructor
  · intro law
    by_contra broken
    rw [Tenanted, not_or, not_or, not_not, Bool.not_eq_false] at broken
    obtain ⟨absent, foreign, admitted⟩ := broken
    have ⟨run, found, _⟩ := foreign
    obtain ⟨-, refused | missing⟩ | ⟨inserted, -⟩ | ⟨-, present⟩ :=
      upsert_cases db incoming assertApproval
    · rw [refused] at admitted
      exact absurd admitted (by decide)
    · rw [missing] at found
      cases found
    · have unchanged := law.foreign foreign
      rw [inserted] at unchanged
      exact absurd unchanged (by simp)
    · exact absent present
  · intro tenanted
    refine ⟨upsert_extends db incoming assertApproval, fun foreign => ?_⟩
    obtain ⟨same, -⟩ | ⟨-, admitted, absent, -⟩ | ⟨written, -⟩ :=
      upsert_cases db incoming assertApproval
    · rw [same]
    · obtain present | own | refused := tenanted
      · rw [absent] at present
        cases present
      · exact absurd foreign own
      · rw [refused] at admitted
        cases admitted
    · rw [written]
      exact map_upsertRow_of_foreign owned foreign assertApproval

theorem get_createRunning {runs : Runs} {runId : String} {run : AgentRun}
    (found : Runs.get runs runId = some run) (created : AgentRun) :
    Runs.get (Runs.createRunning runs created) runId = some run := by
  rw [Runs.createRunning]
  split
  · exact found
  · rw [Runs.get, List.find?_append, ← Runs.get, found, Option.some_or]

theorem Owned.create (owned : Owned db) (run : AgentRun) :
    Owned ((SnapshotAction.create run).apply db) := by
  intro stored listed
  obtain ⟨owner, owns, same⟩ := owned stored listed
  exact ⟨owner, get_createRunning owns run, same⟩

theorem Owned.upsert (owned : Owned db) (assertApproval : Bool)
    (tenanted : Tenanted db incoming) :
    Owned ((SnapshotAction.upsert incoming assertApproval).apply db) := by
  obtain ⟨same, -⟩ | ⟨inserted, admitted, absent, present⟩ | ⟨written, -⟩ :=
    upsert_cases db incoming assertApproval
  · rw [same]
    exact owned
  · rw [inserted]
    intro stored listed
    obtain earlier | new := List.mem_append.mp listed
    · exact owned stored earlier
    · rw [List.mem_singleton.mp new]
      obtain ⟨run, found⟩ := Option.isSome_iff_exists.mp present
      refine ⟨run, found, ?_⟩
      by_contra other
      obtain there | own | refused := tenanted
      · rw [absent] at there
        cases there
      · exact own ⟨run, found, other⟩
      · rw [refused] at admitted
        cases admitted
  · rw [written]
    intro later listed
    obtain ⟨stored, earlier, rfl⟩ := List.mem_map.mp listed
    obtain ⟨owner, owns, same⟩ := owned stored earlier
    have continued := extends_upsertRow incoming assertApproval stored
    refine ⟨owner, ?_, ?_⟩
    · rw [continued.runId]
      exact owns
    · rw [continued.userId]
      exact same

/-- From a state where each row belongs to the user of its run, the law holds of all writes exactly
if none inserts a row for another user's run. -/
theorem everyUpsert_iff (actions : List SnapshotAction) (owned : Owned db) :
    EveryUpsert (fun db incoming assertApproval =>
        UpsertLaw db ((SnapshotAction.upsert incoming assertApproval).apply db) incoming)
        db actions ↔
      EveryUpsert (fun db incoming _ => Tenanted db incoming) db actions := by
  induction actions generalizing db with
  | nil => exact Iff.rfl
  | cons action later induction =>
      cases action with
      | create run => exact and_congr_right fun _ => induction (owned.create run)
      | upsert incoming assertApproval =>
          refine (and_congr_left' (upsertLaw_iff owned assertApproval)).trans ?_
          exact and_congr_right fun tenanted => induction (owned.upsert assertApproval tenanted)

end Upserts

def ownedRun : AgentRun where
  runId := "run"
  userId := ⟨1⟩
  sessionId := "session"
  status := .running
  createdAt := 0

def snapshotBy (userId : UserId) (text : String) : RunSnapshot where
  runId := "run"
  userId := userId
  resultText := text

end Hermes.AgentProxy
