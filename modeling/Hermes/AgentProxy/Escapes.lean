import Hermes.AgentProxy.Blocks
import Hermes.AgentProxy.Incremental
import Hermes.AgentProxy.Pause
import Hermes.AgentProxy.Usage
import Hermes.Library.Binary64

/-!
# What escapes from the processing of a block

Parsing and processing a block as far as a payload can disturb them: the JSON library goes only so
deep, a count converts to a float only below a bound, the price is a float itself, and a `JSONB`
refuses some texts.  Part of this is caught on the way, the rest ends the consumer.
-/

namespace Hermes.AgentProxy

open Wallet (UserId TxId fitsBigint)
open JsonDecoder Encoding

mutual

/-- How deep the containers of a value are nested. -/
def nesting : Json → Nat
  | .arr items => nestingOfItems items + 1
  | .obj fields => nestingOfFields fields + 1
  | _ => 0

def nestingOfItems : List Json → Nat
  | [] => 0
  | item :: items => max (nesting item) (nestingOfItems items)

def nestingOfFields : List (String × Json) → Nat
  | [] => 0
  | field :: fields => max (nesting field.2) (nestingOfFields fields)

end

/-- What the process brings along: how deep the JSON library goes down either way. -/
structure Host where
  decodeDepth : Nat
  encodeDepth : Nat
  deriving DecidableEq, Repr

inductive Escape
  | recursion
  | raised (error : Raised)
  deriving DecidableEq, Repr

/-- The code point may stand in a `JSONB`.  The decoder has joined the pairs of surrogates, so one
which is left is alone. -/
def storableCode (code : Nat) : Bool :=
  code != 0 && !isHighSurrogate code && !isLowSurrogate code

def ParsedEvent.modelStorable (parsed : ParsedEvent) : Bool :=
  match Parsed.get? parsed.data "model" with
  | some (.str model) => model.all storableCode
  | _ => true

/-- The payload of the synthetic `run.paused` block. -/
def PausedBlock.payload (block : PausedBlock) : Json :=
  .obj
    [("event", .str "run.paused"), ("run_id", .str block.runId),
      ("reason", .str "credits_exhausted"), ("status", .str "paused"),
      ("output", .str block.output), ("steps", .arr (block.steps.map .obj)),
      ("billed", .int block.billed), ("balance", .int 0),
      ("usage", .obj
        [("cumulative_input_tokens", .int block.inputTokens),
          ("cumulative_output_tokens", .int block.outputTokens)])]

section Process

variable (settings : Settings) (host : Host) (conditions : Conditions) (run : RunProcessing)
  (parsed : ParsedEvent) (db : AgentDb)

/-- The debit of `_bill_step`: the metadata of a fresh one has to be storable, and nothing catches
it if it is not. -/
def debitStepWithin (usage : UsageCounts) (stepIndex want : Int) :
    Except Raised (Int × Bool) × AgentDb :=
  let charge := min want (db.accounts run.userId).balance
  if 0 < charge then
    match rawUsage parsed.event usage with
    | .error error => (.error (.python error), db)
    | .ok record =>
        let taken := (db.accounts run.userId).existing (stepKey run.runId stepIndex)
        if taken.isNone && !parsed.modelStorable then (.error .database, db)
        else
          chargeStep settings conditions run stepIndex want
            (stepRequest run.runId stepIndex charge record (extractModel parsed.event)
              conditions.newId) db
  else (.ok (run.charged, true), db)

/-- `_bill_step`. -/
def billStepWithin : Except Raised (Int × Bool) × AgentDb :=
  match extractUsageCounts parsed.event, asInt (Json.get? parsed.event.data "step_index") with
  | .ok usage, .ok stepIndex =>
      match usageToCredits settings.rates usage.inputTokens usage.outputTokens with
      | .error error => (.error (.python error), db)
      | .ok owed =>
          let want := owed - run.charged
          if want ≤ 0 then (.ok (run.charged, false), db)
          else debitStepWithin settings conditions run parsed db usage stepIndex want
  | .error error, _ => (.error (.python error), db)
  | _, .error error => (.error (.python error), db)

/-- `_pause_run`: the block is rendered after the commit. -/
def pauseRunWithin : Except Escape (Option PausedBlock) × RunProcessing × AgentDb :=
  match pauseRun settings conditions run db with
  | (.error raised, after) => (.error (.raised raised), after)
  | (.ok none, after) => (.ok none, after)
  | (.ok (some block), after) =>
      if host.encodeDepth < nesting block.payload then (.error .recursion, after)
      else (.ok (some block), after)

/-- The incremental part of the `usage.delta` branch. -/
def billDeltaWithin : Except Escape (Option PausedBlock) × RunProcessing × AgentDb :=
  match billStepWithin settings conditions run parsed db with
  | (.error raised, db) => (.error (.raised raised), run, db)
  | (.ok (charged, depleted), db) =>
      let run := { run with charged := charged }
      if depleted then pauseRunWithin settings host conditions run db else (.ok none, run, db)

/-- The `usage.delta` branch of `process_event`. -/
def onUsageDeltaWithin : Except Escape (Option PausedBlock) × RunProcessing × AgentDb :=
  match extractUsageCounts parsed.event with
  | .error error => (.error (.raised (.python error)), run, db)
  | .ok anchors =>
      let noted := noteAnchors settings conditions run anchors db
      if noted.1.incremental then billDeltaWithin settings host conditions noted.1 parsed noted.2
      else (.ok none, noted)

/-- `_bill_completed`: what the database refuses is swallowed, what the price raises is not. -/
def billCompletedWithin (usage : UsageCounts) : Except Raised Bool × AgentDb :=
  match usageToCredits settings.rates usage.inputTokens usage.outputTokens with
  | .error error => (.error (.python error), db)
  | .ok owed =>
      let amount := owed - run.charged
      if amount ≤ 0 then (.ok true, db)
      else
        let request :=
          completedRequest run.runId amount usage (extractModel parsed.event) conditions.newId
        -- A replay which the debt reconciliation answers writes no metadata.
        let replayed := settings.agentDebtReconcileEnabled &&
          ((db.accounts run.userId).existing run.runId).isSome
        if !replayed && !parsed.modelStorable then (.ok true, db)
        else
          match debit settings run.userId request db, conditions.billingLost with
          | (.consumed _, account), none => (.ok true, db.putAccount run.userId account)
          | (.raised .insufficientCredits, account), none =>
              (.ok true, db.putAccount run.userId (recordInsufficient run.runId amount
                (extractModel parsed.event) usage account))
          | (.consumed _, _), some .commit => (.error .database, db)
          | (.raised .insufficientCredits, _), some .commit => (.error .database, db)
          | _, _ => (.ok true, db)

/-- The `run.completed` branch of `process_event`. -/
def onRunCompletedWithin : Except Escape (Option PausedBlock) × RunProcessing × AgentDb :=
  match extractUsageCounts parsed.event with
  | .error error => (.error (.raised (.python error)), run, db)
  | .ok usage =>
      let noted := noteCompleted settings conditions run usage db
      if noted.1.billed then (.ok none, noted)
      else
        match billCompletedWithin settings conditions noted.1 parsed noted.2 usage with
        | (.error raised, db) => (.error (.raised raised), noted.1, db)
        | (.ok billed, db) => (.ok none, { noted.1 with billed := billed }, db)

/-- `process_event`. -/
def processParsed : Except Escape (Option PausedBlock) × RunProcessing × AgentDb :=
  match eventKind parsed.event with
  | .messageDelta => (.ok none, onMessageDelta settings conditions run parsed.event db)
  | .tool => (.ok none, onTool settings conditions run parsed.event db)
  | .approvalRequest =>
      let pending := some (buildPendingApproval settings parsed.event)
      let run := { run with state := { run.state with pendingApproval := pending } }
      (.ok none, flushSnapshot settings conditions run true true db)
  | .usageDelta => onUsageDeltaWithin settings host conditions run parsed db
  | .runFailed => (.ok none, onRunFailed settings conditions run db)
  | .runCompleted => onRunCompletedWithin settings conditions run parsed db
  | .other => (.ok none, run, db)

/-- `_parse_sse_block` followed by `process_event`. -/
def processBlock (block : List UInt8) :
    Except Escape (Option PausedBlock) × RunProcessing × AgentDb :=
  match parseSseBlockWithin host.decodeDepth block with
  | none => (.error .recursion, run, db)
  | some parsed => processParsed settings host conditions run parsed db

end Process

structure Conditions.Work (conditions : Conditions) : Prop where
  snapshot : conditions.snapshotLost = false
  status : conditions.statusLost = false
  billing : conditions.billingLost = none
  interrupt : conditions.interruptFails = false

/-- The numbers which the probing loop reads at some places are convertible: both counts of each,
the total of a pair, and that of the first half unless one has been found before. -/
structure ReadablePlaces (found : Bool) (places : List (FieldSet × Carrier)) : Prop where
  counts : ∀ place ∈ places, convertible place.2.source place.1.inputKey = true ∧
    convertible place.2.source place.1.outputKey = true
  pairs : ∀ place ∈ places, (fullAt place).isSome = true →
    convertible place.2.source place.1.totalKey = true
  half : found = false → ∀ place, places.find? (fun place => (halfAt place).isSome) = some place →
    convertible place.2.source place.1.totalKey = true

/-- The numbers which are read off an event are convertible. -/
def Readable (event : SseEvent) : Prop := ReadablePlaces false (usagePlaces event)

/-- The counts have a price: nothing is used, or both are floats and so is the cost. -/
def Priceable (rates : Rates) (usage : UsageCounts) : Prop :=
  usage.inputTokens ≤ 0 ∧ usage.outputTokens ≤ 0 ∨
    match rates with
    | .floats creditsPer1kInput creditsPer1kOutput =>
        usage.inputTokens < PyFloat.overflowBound ∧ usage.outputTokens < PyFloat.overflowBound ∧
          ∃ cost, rawCost creditsPer1kInput creditsPer1kOutput
            (.nearest (max usage.inputTokens 0 : Int))
            (.nearest (max usage.outputTokens 0 : Int)) = .finite cost
    | .exact _ _ => True

section Counts

variable {fields : Fields} {key : String} {probe : UsageProbe} {place : FieldSet × Carrier}
  {found : Bool} {places later : List (FieldSet × Carrier)} {event : SseEvent}

theorem asIntOrNone_ok_iff :
    (∃ count, asIntOrNone (Json.get? fields key) = .ok count) ↔
      convertible fields key = true := by
  constructor
  · rintro ⟨count, read⟩
    unfold convertible
    split
    next stands =>
      rw [stands] at read
      cases read
    next negative stands =>
      rw [stands] at read
      cases read
    · rfl
  · intro sound
    exact ⟨_, asIntOrNone_of_convertible sound⟩

theorem asInt_ok_iff :
    (∃ count, asInt (Json.get? fields key) = .ok count) ↔ convertible fields key = true := by
  rw [← asIntOrNone_ok_iff, asInt]
  cases asIntOrNone (Json.get? fields key) with
  | error raised => exact iff_of_false no_ok_of_error no_ok_of_error
  | ok count => exact iff_of_true ⟨_, rfl⟩ ⟨_, rfl⟩

theorem readable_of_look {after : UsageProbe} (looked : probe.look place.1 place.2 = .ok after) :
    ReadablePlace probe.fallback.isSome place := by
  obtain ⟨full, fallback⟩ := probe
  rw [UsageProbe.look] at looked
  obtain ⟨input, input_read, looked⟩ := except_bind_eq_ok looked
  obtain ⟨output, output_read, looked⟩ := except_bind_eq_ok looked
  have input_sound := asIntOrNone_ok_iff.mp ⟨input, input_read⟩
  have output_sound := asIntOrNone_ok_iff.mp ⟨output, output_read⟩
  rw [asIntOrNone_of_convertible input_sound] at input_read
  rw [asIntOrNone_of_convertible output_sound] at output_read
  cases input_read
  cases output_read
  refine ⟨input_sound, output_sound, fun pair => ?_, fun fresh half => ?_⟩
  · unfold fullAt at pair
    cases left : countUnder place.2.source place.1.inputKey <;>
      cases right : countUnder place.2.source place.1.outputKey <;>
      simp only [left, right] at pair looked
    · cases pair
    · cases pair
    · cases pair
    · obtain ⟨total, read, -⟩ := except_bind_eq_ok looked
      exact asInt_ok_iff.mp ⟨total, read⟩
  · unfold halfAt at half
    cases fallback with
    | some half => cases fresh
    | none =>
        cases left : countUnder place.2.source place.1.inputKey <;>
          cases right : countUnder place.2.source place.1.outputKey <;>
          simp only [left, right] at half looked
        · cases half
        · obtain ⟨total, read, -⟩ := except_bind_eq_ok looked
          exact asInt_ok_iff.mp ⟨total, read⟩
        · obtain ⟨total, read, -⟩ := except_bind_eq_ok looked
          exact asInt_ok_iff.mp ⟨total, read⟩
        · cases half

/-- The first half of some places is that of the first of them, unless it has none. -/
theorem readablePlaces_cons :
    ReadablePlaces found (place :: later) ↔
      ReadablePlace found place ∧ ReadablePlaces (found || (halfAt place).isSome) later := by
  constructor
  · rintro ⟨counts, pairs, half⟩
    obtain ⟨here, there⟩ := List.forall_mem_cons.mp counts
    obtain ⟨pair, later_pairs⟩ := List.forall_mem_cons.mp pairs
    refine ⟨⟨here.1, here.2, pair, fun fresh one => ?_⟩, ⟨there, later_pairs, fun fresh => ?_⟩⟩
    · exact half fresh place (by rw [List.find?_cons, one])
    · obtain ⟨fresh, none_here⟩ := Bool.or_eq_false_iff.mp fresh
      intro other first
      exact half fresh other (by rw [List.find?_cons, none_here, first])
  · rintro ⟨⟨input, output, pair, half⟩, counts, pairs, later_half⟩
    refine ⟨List.forall_mem_cons.mpr ⟨⟨input, output⟩, counts⟩,
      List.forall_mem_cons.mpr ⟨pair, pairs⟩, fun fresh other first => ?_⟩
    rw [List.find?_cons] at first
    split at first
    next one =>
      cases first
      exact half fresh one
    next none_here =>
      refine later_half ?_ other first
      rw [fresh, Bool.false_or]
      exact none_here

theorem look_all_ok_iff :
    (∃ after, places.foldlM (fun probe place => UsageProbe.look probe place.1 place.2) probe =
        .ok after) ↔
      ReadablePlaces probe.fallback.isSome places := by
  induction places generalizing probe with
  | nil => exact iff_of_true ⟨probe, rfl⟩ ⟨by simp, by simp, by simp⟩
  | cons place later induction =>
      rw [List.foldlM_cons, readablePlaces_cons]
      constructor
      · rintro ⟨after, looked⟩
        obtain ⟨between, round, rest⟩ := except_bind_eq_ok looked
        have readable := readable_of_look round
        rw [look_of_readable readable] at round
        cases round
        have later_readable := induction.mp ⟨after, rest⟩
        rw [Option.isSome_or] at later_readable
        exact ⟨readable, later_readable⟩
      · rintro ⟨readable, later_readable⟩
        rw [look_of_readable readable]
        apply induction.mpr
        rw [Option.isSome_or]
        exact later_readable

/-- The counts of an event are read where the numbers are convertible. -/
theorem extractUsageCounts_ok_iff :
    (∃ usage, extractUsageCounts event = .ok usage) ↔ Readable event := by
  refine Iff.trans ?_ (@look_all_ok_iff {} (usagePlaces event))
  rw [extractUsageCounts]
  constructor
  · rintro ⟨usage, read⟩
    obtain ⟨probe, looked, -⟩ := except_bind_eq_ok read
    exact ⟨probe, looked⟩
  · rintro ⟨probe, looked⟩
    rw [usagePlaces] at looked
    rw [looked]
    cases full : probe.full with
    | nil => exact ⟨_, by simp only [bind, Except.bind, full]; rfl⟩
    | cons first others => exact ⟨_, by simp only [bind, Except.bind, full]; rfl⟩

theorem rawUsage_of_readable (readable : Readable event) (usage : UsageCounts) :
    ∃ record, rawUsage event usage = .ok record := by
  have top (fieldSet : FieldSet) (listed : fieldSet ∈ usageFieldSets) :
      (fieldSet, ⟨"top", event.data⟩) ∈ usagePlaces event := by
    refine List.mem_flatMap.mpr ⟨fieldSet, listed, List.mem_map_of_mem ?_⟩
    exact List.mem_append_right _ (List.mem_singleton_self _)
  obtain ⟨cumulative_input, cumulative_output⟩ := readable.counts _ (top _ List.mem_cons_self)
  obtain ⟨input, output⟩ :=
    readable.counts _ (top _ (List.mem_cons_of_mem _ (List.mem_singleton_self _)))
  obtain ⟨inputTokens, input_read⟩ := asInt_ok_iff.mpr input
  obtain ⟨outputTokens, output_read⟩ := asInt_ok_iff.mpr output
  obtain ⟨cumulativeInput, cumulative_input_read⟩ := asInt_ok_iff.mpr cumulative_input
  obtain ⟨cumulativeOutput, cumulative_output_read⟩ := asInt_ok_iff.mpr cumulative_output
  rw [rawUsage, input_read, output_read, cumulative_input_read, cumulative_output_read]
  exact ⟨_, rfl⟩

end Counts

section Price

variable {settings : Settings} {usage : UsageCounts}

theorem ceilFloat_ok_iff {cost : PyFloat} :
    (∃ credits, ceilFloat cost = .ok credits) ↔ ∃ value, cost = .finite value := by
  cases cost with
  | finite value => exact iff_of_true ⟨_, rfl⟩ ⟨value, rfl⟩
  | nan => exact iff_of_false no_ok_of_error (fun ⟨_, same⟩ => by cases same)
  | infinite negative =>
      exact iff_of_false no_ok_of_error (fun ⟨_, same⟩ => by cases same)

theorem nearest_of_ofInt {count : Int} {value : ℚ} (converted : PyFloat.ofInt count = some value) :
    PyFloat.nearest count = .finite value := by
  rw [PyFloat.ofInt] at converted
  split at converted
  next rounded nearest =>
    cases converted
    exact nearest
  · cases converted

theorem except_map_ok_iff {change : Int → Int} {cost : Except PyError Int} :
    (∃ credits, change <$> cost = .ok credits) ↔ ∃ credits, cost = .ok credits := by
  cases cost with
  | error raised => exact iff_of_false no_ok_of_error no_ok_of_error
  | ok credits => exact iff_of_true ⟨_, rfl⟩ ⟨_, rfl⟩

theorem usageToCredits_ok_iff :
    (∃ owed, usageToCredits settings.rates usage.inputTokens usage.outputTokens = .ok owed) ↔
      Priceable settings.rates usage := by
  rw [usageToCredits]
  unfold Priceable
  split
  next idle => exact iff_of_true ⟨0, rfl⟩ (.inl (by omega))
  next busy =>
    have used : ¬ (usage.inputTokens ≤ 0 ∧ usage.outputTokens ≤ 0) := by omega
    rw [or_iff_right used, except_map_ok_iff]
    cases settings.rates with
    | exact creditsPer1kInput creditsPer1kOutput => exact iff_of_true ⟨_, rfl⟩ trivial
    | floats creditsPer1kInput creditsPer1kOutput =>
        have input := @PyFloat.ofInt_isSome_iff (max usage.inputTokens 0) (le_max_right _ _)
        have output := @PyFloat.ofInt_isSome_iff (max usage.outputTokens 0) (le_max_right _ _)
        have bound : 0 < PyFloat.overflowBound := by decide +kernel
        rw [max_lt_iff, and_iff_left bound] at input output
        simp only [Rates.cost, ← input, ← output]
        cases left : PyFloat.ofInt (max usage.inputTokens 0) with
        | none => exact iff_of_false no_ok_of_error (by simp)
        | some inputTokens =>
            cases right : PyFloat.ofInt (max usage.outputTokens 0) with
            | none => exact iff_of_false no_ok_of_error (by simp)
            | some outputTokens =>
                rw [nearest_of_ofInt left, nearest_of_ofInt right, ← ceilFloat_ok_iff]
                simp only [Option.isSome_some, true_and]

end Price

/-- The mirror in `agent_runs` takes a step. -/
def MirrorFits (runs : Runs) (runId : String) (stepIndex credits : Int) : Prop :=
  Runs.fitsInteger stepIndex = true ∧ ∀ row ∈ runs, row.runId = runId →
    fitsBigint (row.cumulativeCreditsSpent + credits) = true

/-- The collected steps can be rendered within the payload of a pause. -/
def Encodable (host : Host) (steps : List Fields) : Prop :=
  nestingOfItems (steps.map .obj) + 2 ≤ host.encodeDepth

/-- A step which owes credits is harmless: the database takes what a debit under a free key writes,
and a wallet which falls short leads to a pause that can be rendered. -/
structure StepHarmless (host : Host) (run : RunProcessing) (parsed : ParsedEvent) (db : AgentDb)
    (stepIndex want : Int) : Prop where
  debit : 0 < (db.accounts run.userId).balance →
    (db.accounts run.userId).existing (stepKey run.runId stepIndex) = none →
      parsed.modelStorable = true ∧
        MirrorFits db.runs run.runId stepIndex (min want (db.accounts run.userId).balance)
  pause : (db.accounts run.userId).balance < want →
    (0 < (db.accounts run.userId).balance →
      (db.accounts run.userId).existing (stepKey run.runId stepIndex) = none) →
        Encodable host run.state.steps

/-- Billing an event step by step is harmless. -/
structure BillHarmless (settings : Settings) (host : Host) (run : RunProcessing)
    (parsed : ParsedEvent) (db : AgentDb) : Prop where
  index : convertible parsed.event.data "step_index" = true
  priced : ∀ usage, extractUsageCounts parsed.event = .ok usage → Priceable settings.rates usage
  step : ∀ usage stepIndex owed, extractUsageCounts parsed.event = .ok usage →
    asInt (Json.get? parsed.event.data "step_index") = .ok stepIndex →
      usageToCredits settings.rates usage.inputTokens usage.outputTokens = .ok owed →
        run.charged < owed → StepHarmless host run parsed db stepIndex (owed - run.charged)

section Steps

variable {settings : Settings} {host : Host} {conditions : Conditions} {run : RunProcessing}
  {parsed : ParsedEvent} {db after : AgentDb} {charged : Int} {depleted : Bool}

theorem recordStep_ok_iff {runs : Runs} {runId : String} {stepIndex credits : Int} :
    (∃ recorded, Runs.recordStep runs runId stepIndex credits = .ok recorded) ↔
      MirrorFits runs runId stepIndex credits := by
  have beyond : (runs.any fun row =>
      row.runId == runId && !fitsBigint (row.cumulativeCreditsSpent + credits)) = true ↔
        ¬ ∀ row ∈ runs, row.runId = runId →
          fitsBigint (row.cumulativeCreditsSpent + credits) = true := by
    simp
  rw [Runs.recordStep, MirrorFits]
  cases fits : Runs.fitsInteger stepIndex with
  | false => exact iff_of_false no_ok_of_error (fun both => by cases both.1)
  | true =>
      simp only [Bool.not_true, Bool.false_eq_true, if_false, beyond, true_and]
      split
      next refused => exact iff_of_false no_ok_of_error refused
      next taken => exact iff_of_true ⟨_, rfl⟩ (not_not.mp taken)

/-- A step under a free key which the balance covers is debited where the mirror takes it. -/
theorem chargeStep_free {stepIndex want amount : Int} {record : Json} {model : Option String}
    {newId : TxId} (works : conditions.Work) (stored : (db.accounts run.userId).row.Stored)
    (positive : 0 < amount) (covered : amount ≤ (db.accounts run.userId).balance)
    (fresh : (db.accounts run.userId).existing (stepKey run.runId stepIndex) = none) :
    (MirrorFits db.runs run.runId stepIndex amount ∧ ∃ after,
      chargeStep settings conditions run stepIndex want
        (stepRequest run.runId stepIndex amount record model newId) db =
          (.ok (run.charged + amount, decide (amount < want)), after)) ∨
      ¬ MirrorFits db.runs run.runId stepIndex amount ∧
        chargeStep settings conditions run stepIndex want
          (stepRequest run.runId stepIndex amount record model newId) db =
            (.error .database, db) := by
  obtain ⟨event, -, ran⟩ := Wallet.Call.run_covered (settings.context run.userId)
    (stepRequest run.runId stepIndex amount record model newId) rfl stored positive covered fresh
  obtain ⟨result, account, debited, once, whole⟩ : ∃ result account,
      debit settings run.userId (stepRequest run.runId stepIndex amount record model newId) db =
        (.consumed result, account) ∧ result.idempotentReplay = false ∧
          result.chargedAmount = amount := ⟨_, _, ran, rfl, rfl⟩
  simp only [chargeStep, debited, once, whole, if_pos positive, works.billing,
    ← recordStep_ok_iff]
  cases Runs.recordStep db.runs run.runId stepIndex amount with
  | error refused => exact .inr ⟨no_ok_of_error, rfl⟩
  | ok recorded => exact .inl ⟨⟨recorded, rfl⟩, _, rfl⟩

theorem nesting_payload (block : PausedBlock) :
    nesting block.payload = nestingOfItems (block.steps.map .obj) + 2 := by
  simp [PausedBlock.payload, nesting, nestingOfFields]

theorem pauseRunWithin_ok_iff (works : conditions.Work) :
    (∃ paused, (pauseRunWithin settings host conditions run db).1 = .ok paused) ↔
      Encodable host run.state.steps := by
  obtain ⟨block, after, paused, steps⟩ : ∃ block after,
      pauseRun settings conditions run db = (.ok (some block), after) ∧
        block.steps = run.state.steps := by
    simp only [pauseRun, works.interrupt, works.status]
    exact ⟨_, _, rfl, rfl⟩
  simp only [pauseRunWithin, paused, nesting_payload, steps, Encodable]
  split
  next deep => exact iff_of_false no_ok_of_error (by omega)
  next shallow => exact iff_of_true ⟨_, rfl⟩ (by omega)

theorem billDeltaWithin_of_billed (works : conditions.Work)
    (billed : billStepWithin settings conditions run parsed db =
      (.ok (charged, depleted), after)) :
    (∃ paused, (billDeltaWithin settings host conditions run parsed db).1 = .ok paused) ↔
      (depleted = true → Encodable host run.state.steps) := by
  simp only [billDeltaWithin, billed]
  cases depleted with
  | false => exact iff_of_true ⟨none, rfl⟩ (fun short => by cases short)
  | true =>
      have paused := @pauseRunWithin_ok_iff settings host conditions { run with charged := charged }
        after works
      simpa using paused

theorem billDeltaWithin_of_raised {error : Raised}
    (raised : billStepWithin settings conditions run parsed db = (.error error, after)) :
    ¬ ∃ paused, (billDeltaWithin settings host conditions run parsed db).1 = .ok paused := by
  rw [billDeltaWithin, raised]
  exact no_ok_of_error

theorem billDeltaWithin_owing {usage : UsageCounts} {stepIndex owed : Int}
    (works : conditions.Work) (stored : (db.accounts run.userId).row.Stored)
    (read : extractUsageCounts parsed.event = .ok usage)
    (indexed : asInt (Json.get? parsed.event.data "step_index") = .ok stepIndex)
    (priced : usageToCredits settings.rates usage.inputTokens usage.outputTokens = .ok owed)
    (owing : run.charged < owed) :
    (∃ paused, (billDeltaWithin settings host conditions run parsed db).1 = .ok paused) ↔
      StepHarmless host run parsed db stepIndex (owed - run.charged) := by
  have readable := extractUsageCounts_ok_iff.mp ⟨usage, read⟩
  obtain ⟨record, recorded⟩ := rawUsage_of_readable readable usage
  have due : ¬ owed - run.charged ≤ 0 := by omega
  have billed : billStepWithin settings conditions run parsed db =
      debitStepWithin settings conditions run parsed db usage stepIndex (owed - run.charged) := by
    rw [billStepWithin, read, indexed]
    simp only [priced, due, if_false]
  rw [debitStepWithin, recorded] at billed
  by_cases some_left : 0 < (db.accounts run.userId).balance
  · have positive : 0 < min (owed - run.charged) (db.accounts run.userId).balance := by omega
    simp only [if_pos positive] at billed
    cases existing : (db.accounts run.userId).existing (stepKey run.runId stepIndex) with
    | some holder =>
        simp only [existing, Option.isNone_some, Bool.false_and, Bool.false_eq_true, if_false,
          chargeStep_taken positive existing] at billed
        rw [billDeltaWithin_of_billed works billed]
        refine iff_of_true (fun short => by cases short) ⟨fun _ fresh => ?_, fun _ fresh => ?_⟩
        · cases existing.symm.trans fresh
        · cases existing.symm.trans (fresh some_left)
    | none =>
        cases storable : parsed.modelStorable with
        | false =>
            simp only [existing, storable, Option.isNone_none, Bool.not_false, Bool.and_true,
              if_true] at billed
            refine iff_of_false (billDeltaWithin_of_raised billed) fun harmless => ?_
            cases storable.symm.trans (harmless.debit some_left existing).1
        | true =>
            simp only [existing, storable, Bool.not_true, Bool.and_false, Bool.false_eq_true,
              if_false] at billed
            obtain ⟨fits, after, charged⟩ | ⟨beyond, refused⟩ :=
              @chargeStep_free settings conditions run db stepIndex (owed - run.charged) _ record
                (extractModel parsed.event) conditions.newId works stored positive
                (min_le_right _ _) existing
            · rw [charged] at billed
              rw [billDeltaWithin_of_billed works billed, decide_eq_true_eq]
              constructor
              · intro encodable
                exact ⟨fun _ _ => ⟨storable, fits⟩, fun short _ => encodable (by omega)⟩
              · intro harmless short
                exact harmless.pause (by omega) fun _ => existing
            · rw [refused] at billed
              refine iff_of_false (billDeltaWithin_of_raised billed) fun harmless => ?_
              exact beyond (harmless.debit some_left existing).2
  · have nothing : ¬ 0 < min (owed - run.charged) (db.accounts run.userId).balance := by omega
    simp only [if_neg nothing] at billed
    rw [billDeltaWithin_of_billed works billed]
    constructor
    · intro encodable
      exact ⟨fun some_left_now => absurd some_left_now some_left, fun _ _ => encodable rfl⟩
    · intro harmless _
      exact harmless.pause (by omega) fun some_left_now => absurd some_left_now some_left

theorem billDeltaWithin_ok_iff {usage : UsageCounts} (works : conditions.Work)
    (stored : (db.accounts run.userId).row.Stored)
    (read : extractUsageCounts parsed.event = .ok usage) :
    (∃ paused, (billDeltaWithin settings host conditions run parsed db).1 = .ok paused) ↔
      BillHarmless settings host run parsed db := by
  cases indexed : asInt (Json.get? parsed.event.data "step_index") with
  | error error =>
      refine iff_of_false (@billDeltaWithin_of_raised settings host conditions run parsed db db
        (.python error) ?_) fun harmless => ?_
      · rw [billStepWithin, read, indexed]
      · obtain ⟨stepIndex, converted⟩ := asInt_ok_iff.mpr harmless.index
        cases indexed.symm.trans converted
  | ok stepIndex =>
      cases priced : usageToCredits settings.rates usage.inputTokens usage.outputTokens with
      | error error =>
          refine iff_of_false (@billDeltaWithin_of_raised settings host conditions run parsed db db
            (.python error) ?_) fun harmless => ?_
          · rw [billStepWithin, read, indexed]
            simp only [priced]
          · obtain ⟨owed, computed⟩ := usageToCredits_ok_iff.mpr (harmless.priced usage read)
            cases priced.symm.trans computed
      | ok owed =>
          have sound : BillHarmless settings host run parsed db ↔ (run.charged < owed →
              StepHarmless host run parsed db stepIndex (owed - run.charged)) := by
            constructor
            · intro harmless
              exact harmless.step usage stepIndex owed read indexed priced
            · intro step
              refine ⟨asInt_ok_iff.mp ⟨stepIndex, indexed⟩, ?_, ?_⟩
              · intro other other_read
                cases read.symm.trans other_read
                exact usageToCredits_ok_iff.mp ⟨owed, priced⟩
              · intro other index credits other_read index_read computed
                cases read.symm.trans other_read
                cases indexed.symm.trans index_read
                cases priced.symm.trans computed
                exact step
          rw [sound]
          by_cases owing : run.charged < owed
          · rw [forall_prop_of_true owing]
            exact billDeltaWithin_owing works stored read indexed priced owing
          · have settled : billStepWithin settings conditions run parsed db =
                (.ok (run.charged, false), db) := by
              rw [billStepWithin, read, indexed]
              simp only [priced]
              rw [if_pos (by omega)]
            rw [billDeltaWithin_of_billed works settled]
            exact iff_of_true (fun short => by cases short) (fun due => absurd due owing)

end Steps

def HarmlessEvent (settings : Settings) (host : Host) (run : RunProcessing)
    (parsed : ParsedEvent) (db : AgentDb) :
    Prop :=
  match eventKind parsed.event with
  | .usageDelta => Readable parsed.event ∧
      (run.incremental = true → BillHarmless settings host run parsed db)
  | .runCompleted => Readable parsed.event ∧ (run.billed = false →
      ∀ usage, extractUsageCounts parsed.event = .ok usage → Priceable settings.rates usage)
  | _ => True

/-- A block does no harm: the decoder gets through it, and then its event does none. -/
def Harmless (settings : Settings) (host : Host) (run : RunProcessing) (db : AgentDb)
    (block : List UInt8) : Prop :=
  ∃ parsed, parseSseBlockWithin host.decodeDepth block = some parsed ∧
    HarmlessEvent settings host run parsed db

/-- A block is parsed and processed without raising, and if it ends the run then no row of the run
is left active. -/
structure Survives (settings : Settings) (host : Host) (conditions : Conditions)
    (run : RunProcessing) (db : AgentDb) (block : List UInt8) : Prop where
  returns : ∃ paused, (processBlock settings host conditions run db block).1 = .ok paused
  ended : eventKind (parseSseBlock block) = .runCompleted ∨
      eventKind (parseSseBlock block) = .runFailed →
    ∀ row ∈ (processBlock settings host conditions run db block).2.2.runs,
      row.runId = run.runId → row.status.active = false

section Events

variable {settings : Settings} {host : Host} {conditions : Conditions} {run later : RunProcessing}
  {parsed : ParsedEvent} {db after : AgentDb}

theorem BillHarmless.congr (harmless : BillHarmless settings host run parsed db)
    (user : later.userId = run.userId) (identifier : later.runId = run.runId)
    (charged : later.charged = run.charged) (steps : later.state.steps = run.state.steps)
    (accounts : after.accounts = db.accounts) (runs : after.runs = db.runs) :
    BillHarmless settings host later parsed after := by
  refine ⟨harmless.index, harmless.priced, fun usage stepIndex owed read indexed priced owing => ?_⟩
  obtain ⟨debit, pause⟩ := harmless.step usage stepIndex owed read indexed priced (charged ▸ owing)
  rw [← user, ← identifier, ← charged, ← accounts, ← runs] at debit
  rw [← user, ← identifier, ← charged, ← steps, ← accounts] at pause
  exact ⟨debit, pause⟩

theorem flushSnapshot_steps (immediate assertApproval : Bool) :
    (flushSnapshot settings conditions run immediate assertApproval db).1.state.steps =
      run.state.steps := by
  unfold flushSnapshot
  split <;> rfl

theorem noteAnchors_steps (anchors : UsageCounts) :
    (noteAnchors settings conditions run anchors db).1.state.steps = run.state.steps := by
  unfold noteAnchors
  simp only
  split
  · exact flushSnapshot_steps true false
  · rfl

theorem onUsageDeltaWithin_ok_iff (works : conditions.Work)
    (stored : (db.accounts run.userId).row.Stored) :
    (∃ paused, (onUsageDeltaWithin settings host conditions run parsed db).1 = .ok paused) ↔
      Readable parsed.event ∧
        (run.incremental = true → BillHarmless settings host run parsed db) := by
  rw [onUsageDeltaWithin, ← extractUsageCounts_ok_iff]
  cases read : extractUsageCounts parsed.event with
  | error error =>
      exact iff_of_false no_ok_of_error fun both => no_ok_of_error both.1
  | ok usage =>
      obtain ⟨user, identifier, incremental, charged⟩ :=
        @noteAnchors_run settings conditions run db usage
      have steps := @noteAnchors_steps settings conditions run db usage
      have accounts := @noteAnchors_accounts settings conditions run db usage
      have runs := @noteAnchors_runs settings conditions run db usage
      simp only [incremental]
      cases stepwise : run.incremental with
      | false => exact iff_of_true ⟨none, rfl⟩ ⟨⟨usage, rfl⟩, fun wrong => by cases wrong⟩
      | true =>
          have billed := @billDeltaWithin_ok_iff settings host conditions
            (noteAnchors settings conditions run usage db).1 parsed
            (noteAnchors settings conditions run usage db).2 usage works
            (by rw [user, accounts]; exact stored) read
          simp only [if_true]
          rw [billed]
          constructor
          · intro harmless
            exact ⟨⟨usage, rfl⟩, fun _ => harmless.congr user.symm identifier.symm charged.symm
              steps.symm accounts.symm runs.symm⟩
          · rintro ⟨-, harmless⟩
            exact (harmless trivial).congr user identifier charged steps accounts runs

theorem markStatus_inactive {runs : Runs} {runId : String} {status : RunStatus}
    (terminal : status.active = false) :
    ∀ row ∈ Runs.markStatus runs runId status, row.runId = runId → row.status.active = false := by
  intro row listed mine
  obtain ⟨earlier, -, rfl⟩ := List.mem_map.mp listed
  by_cases flipped : earlier.runId = runId ∧ earlier.status.active = true
  · rw [if_pos flipped]
    exact terminal
  · rw [if_neg flipped] at mine ⊢
    exact Bool.eq_false_iff.mpr fun active => flipped ⟨mine, active⟩

/-- Billing a completed run raises only where its counts have no price, and leaves the status. -/
theorem billCompletedWithin_cases (works : conditions.Work) (usage : UsageCounts) :
    (billCompletedWithin settings conditions run parsed db usage).2.runs = db.runs ∧
      ((∃ billed,
          (billCompletedWithin settings conditions run parsed db usage).1 = .ok billed) ↔
        Priceable settings.rates usage) := by
  rw [← usageToCredits_ok_iff, billCompletedWithin, works.billing]
  cases usageToCredits settings.rates usage.inputTokens usage.outputTokens with
  | error error => exact ⟨rfl, iff_of_false no_ok_of_error no_ok_of_error⟩
  | ok owed =>
      rw [iff_true_right ⟨owed, rfl⟩]
      simp only
      split
      · exact ⟨rfl, true, rfl⟩
      · split
        · exact ⟨rfl, true, rfl⟩
        · split
          · exact ⟨rfl, true, rfl⟩
          · exact ⟨rfl, true, rfl⟩
          next lost => cases lost
          next lost => cases lost
          · exact ⟨rfl, true, rfl⟩

theorem noteCompleted_runs (works : conditions.Work) (usage : UsageCounts) :
    (noteCompleted settings conditions run usage db).2.runs =
      Runs.markStatus db.runs run.runId .completed := by
  simp [noteCompleted, markTerminal, works.status]

/-- A completed run is processed exactly where its counts are read and have a price, and then it is
marked. -/
theorem onRunCompletedWithin_cases (works : conditions.Work) :
    ((∃ paused, (onRunCompletedWithin settings conditions run parsed db).1 = .ok paused) ↔
      Readable parsed.event ∧ (run.billed = false →
        ∀ usage, extractUsageCounts parsed.event = .ok usage → Priceable settings.rates usage)) ∧
      (Readable parsed.event →
        (onRunCompletedWithin settings conditions run parsed db).2.2.runs =
          Runs.markStatus db.runs run.runId .completed) := by
  rw [onRunCompletedWithin, ← extractUsageCounts_ok_iff]
  cases read : extractUsageCounts parsed.event with
  | error error =>
      exact ⟨iff_of_false no_ok_of_error fun both => no_ok_of_error both.1,
        fun readable => absurd readable no_ok_of_error⟩
  | ok usage =>
      have same := @noteCompleted_sameCount settings conditions run db usage
      have runs := @noteCompleted_runs settings conditions run db works usage
      simp only [same.billed]
      cases billed : run.billed with
      | true => exact ⟨iff_of_true ⟨none, rfl⟩ ⟨⟨usage, rfl⟩, fun wrong => by cases wrong⟩,
          fun _ => runs⟩
      | false =>
          obtain ⟨kept, priced⟩ := @billCompletedWithin_cases settings conditions
            (noteCompleted settings conditions run usage db).1 parsed
            (noteCompleted settings conditions run usage db).2 works usage
          have counted : (∀ other, extractUsageCounts parsed.event = .ok other →
              Priceable settings.rates other) ↔ Priceable settings.rates usage := by
            constructor
            · intro each
              exact each usage read
            · intro harmless other other_read
              cases read.symm.trans other_read
              exact harmless
          have readable : ∃ other, extractUsageCounts parsed.event = .ok other := ⟨usage, read⟩
          rw [← read, forall_prop_of_true rfl, counted, and_iff_right readable, ← priced]
          simp only [Bool.false_eq_true, if_false]
          cases outcome : billCompletedWithin settings conditions
              (noteCompleted settings conditions run usage db).1 parsed
              (noteCompleted settings conditions run usage db).2 usage with
          | mk result after =>
              rw [outcome] at kept
              cases result with
              | error error =>
                  exact ⟨iff_of_false no_ok_of_error no_ok_of_error, fun _ => kept.trans runs⟩
              | ok marked => exact ⟨iff_of_true ⟨none, rfl⟩ ⟨marked, rfl⟩, fun _ => kept.trans runs⟩

theorem onRunFailed_runs (works : conditions.Work) :
    (onRunFailed settings conditions run db).2.runs =
      Runs.markStatus db.runs run.runId .failed := by
  simp [onRunFailed, markTerminal, works.status]

/-- An event is processed without raising exactly where it does no harm. -/
theorem processParsed_ok_iff (works : conditions.Work)
    (stored : (db.accounts run.userId).row.Stored) :
    (∃ paused, (processParsed settings host conditions run parsed db).1 = .ok paused) ↔
      HarmlessEvent settings host run parsed db := by
  rw [processParsed, HarmlessEvent]
  cases eventKind parsed.event with
  | usageDelta => exact onUsageDeltaWithin_ok_iff works stored
  | runCompleted => exact (onRunCompletedWithin_cases works).1
  | messageDelta => exact iff_of_true ⟨none, rfl⟩ trivial
  | tool => exact iff_of_true ⟨none, rfl⟩ trivial
  | approvalRequest => exact iff_of_true ⟨none, rfl⟩ trivial
  | runFailed => exact iff_of_true ⟨none, rfl⟩ trivial
  | other => exact iff_of_true ⟨none, rfl⟩ trivial

theorem processParsed_ended (works : conditions.Work)
    (harmless : HarmlessEvent settings host run parsed db)
    (ends : eventKind parsed.event = .runCompleted ∨ eventKind parsed.event = .runFailed) :
    ∀ row ∈ (processParsed settings host conditions run parsed db).2.2.runs,
      row.runId = run.runId → row.status.active = false := by
  obtain completed | failed := ends
  · rw [HarmlessEvent, completed] at harmless
    rw [processParsed, completed]
    simp only [(onRunCompletedWithin_cases works).2 harmless.1]
    exact markStatus_inactive rfl
  · rw [processParsed, failed]
    simp only [onRunFailed_runs works]
    exact markStatus_inactive rfl

end Events

/-- A result of the processing without bounds. -/
def unbounded (processed : Except Raised (Option PausedBlock) × RunProcessing × AgentDb) :
    Except Escape (Option PausedBlock) × RunProcessing × AgentDb :=
  (processed.1.mapError .raised, processed.2)

section Agreement

variable {settings : Settings} {host : Host} {conditions : Conditions} {run : RunProcessing}
  {parsed : ParsedEvent} {db : AgentDb}

theorem debitStepWithin_eq {usage : UsageCounts} {stepIndex want : Int}
    (storable : parsed.modelStorable = true) :
    debitStepWithin settings conditions run parsed db usage stepIndex want =
      if 0 < min want (db.accounts run.userId).balance then
        match rawUsage parsed.event usage with
        | .error error => (.error (.python error), db)
        | .ok record =>
            chargeStep settings conditions run stepIndex want
              (stepRequest run.runId stepIndex (min want (db.accounts run.userId).balance) record
                (extractModel parsed.event) conditions.newId) db
      else (.ok (run.charged, true), db) := by
  rw [debitStepWithin]
  by_cases charging : 0 < min want (db.accounts run.userId).balance
  · rw [if_pos charging, if_pos charging]
    cases rawUsage parsed.event usage with
    | error error => rfl
    | ok record =>
        refine if_neg ?_
        rw [storable, Bool.not_true, Bool.and_false]
        exact Bool.false_ne_true
  · rw [if_neg charging, if_neg charging]

theorem billStepWithin_eq (storable : parsed.modelStorable = true) :
    billStepWithin settings conditions run parsed db =
      billStep settings conditions run parsed.event db := by
  rw [billStepWithin, billStep]
  cases read : extractUsageCounts parsed.event with
  | error error => rfl
  | ok usage =>
      cases asInt (Json.get? parsed.event.data "step_index") with
      | error error => rfl
      | ok stepIndex =>
          simp only
          cases usageToCredits settings.rates usage.inputTokens usage.outputTokens with
          | error error => rfl
          | ok owed =>
              by_cases settled : owed - run.charged ≤ 0
              · exact (if_pos settled).trans (if_pos settled).symm
              · refine (if_neg settled).trans (Eq.trans ?_ (if_neg settled).symm)
                exact debitStepWithin_eq storable

theorem pauseRunWithin_eq (encodable : Encodable host run.state.steps) :
    pauseRunWithin settings host conditions run db =
      unbounded (pauseRun settings conditions run db) := by
  rw [pauseRunWithin, pauseRun]
  by_cases fails : conditions.interruptFails = true
  · rw [if_pos fails]
    rfl
  · by_cases lost : conditions.statusLost = true
    · simp only [fails, lost, Bool.false_eq_true, if_false, if_true]
      rfl
    · have shallow : ¬ host.encodeDepth < nestingOfItems (run.state.steps.map .obj) + 2 :=
        not_lt.mpr encodable
      simp only [fails, lost, Bool.false_eq_true, if_false, nesting_payload, shallow]
      rfl

theorem billDeltaWithin_eq (storable : parsed.modelStorable = true)
    (encodable : Encodable host run.state.steps) :
    billDeltaWithin settings host conditions run parsed db =
      unbounded (billDelta settings conditions run parsed.event db) := by
  rw [billDeltaWithin, billDelta, billStepWithin_eq storable]
  cases billStep settings conditions run parsed.event db with
  | mk result after =>
      cases result with
      | error error => rfl
      | ok billed =>
          obtain ⟨charged, depleted⟩ := billed
          cases depleted with
          | false => rfl
          | true => exact pauseRunWithin_eq encodable

theorem billCompletedWithin_eq {usage : UsageCounts} (storable : parsed.modelStorable = true) :
    billCompletedWithin settings conditions run parsed db usage =
      billCompleted settings conditions run parsed.event usage db := by
  rw [billCompletedWithin, billCompleted]
  cases usageToCredits settings.rates usage.inputTokens usage.outputTokens with
  | error error => rfl
  | ok owed =>
      by_cases settled : owed - run.charged ≤ 0
      · exact (if_pos settled).trans (if_pos settled).symm
      · refine (if_neg settled).trans (Eq.trans (if_neg ?_) (if_neg settled).symm)
        rw [storable, Bool.not_true, Bool.and_false]
        exact Bool.false_ne_true

theorem processParsed_eq (storable : parsed.modelStorable = true)
    (encodable : Encodable host run.state.steps) :
    processParsed settings host conditions run parsed db =
      unbounded (processEvent settings conditions run parsed.event db) := by
  rw [processParsed, processEvent]
  cases eventKind parsed.event with
  | messageDelta => rfl
  | tool => rfl
  | approvalRequest => rfl
  | runFailed => rfl
  | other => rfl
  | usageDelta =>
      simp only [onUsageDeltaWithin, onUsageDelta]
      cases extractUsageCounts parsed.event with
      | error error => rfl
      | ok usage =>
          simp only
          split
          · refine billDeltaWithin_eq storable ?_
            rw [noteAnchors_steps]
            exact encodable
          · rfl
  | runCompleted =>
      simp only [onRunCompletedWithin, onRunCompleted]
      cases read : extractUsageCounts parsed.event with
      | error error => rfl
      | ok usage =>
          simp only [billCompletedWithin_eq storable]
          split
          · rfl
          · cases billCompleted settings conditions (noteCompleted settings conditions run usage
                db).1 parsed.event usage (noteCompleted settings conditions run usage db).2 with
            | mk result after => cases result <;> rfl

end Agreement

def defaultHost : Host := ⟨1000, 1000⟩

/-- Per-step billing at rates of one and five credits. -/
def floatSettings : Settings := steppedSettings (.floats (.finite 1) (.finite 5))

/-- A funded wallet and a run which is going on. -/
def runningDb : AgentDb :=
  { fundedDb with
    runs :=
      [{ runId := "run", userId := ⟨1⟩, sessionId := "session", status := .running
         createdAt := 0 }] }

def runningRelay : RunProcessing :=
  newRunProcessing floatSettings ⟨1⟩ "run" runningDb

def thousandTokens : List UInt8 :=
  encode ("event: usage.delta\ndata: \x7b\"step_index\": 1, \"model\": \"hermes\", " ++
    "\"cumulative_input_tokens\": 1000, \"cumulative_output_tokens\": 1000\x7d")

def overflowingCount : List UInt8 :=
  encode ("event: run.completed\ndata: " ++
    "\x7b\"usage\": \x7b\"input_tokens\": 1e400, \"output_tokens\": 1\x7d\x7d")

end Hermes.AgentProxy
