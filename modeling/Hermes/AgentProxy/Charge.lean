import Hermes.AgentProxy.Attribution
import Hermes.Wallet.Isolation

/-!
# What processing an event charges

Whatever branch an event takes, at most one debit follows: under one key, for the run of the relay,
of at most what the event says is owed beyond the relay's own count of what was charged.
-/

namespace Hermes.AgentProxy

open Wallet

/-- Between two states at most one debit was made: for one run, under one key if it was free, and
of at most one amount. -/
structure Charges (before after : AgentDb) (userId : UserId) (runId key : String)
    (amount : Int) : Prop where
  others : ∀ user, user ≠ userId → after.accounts user = before.accounts user
  attributed : Attributed (before.accounts userId) → Attributed (after.accounts userId)
  total : ∀ other,
    totalOf (after.accounts userId) other = totalOf (before.accounts userId) other ∨
      runId = other ∧ (before.accounts userId).existing key = none ∧
        totalOf (after.accounts userId) other ≤ totalOf (before.accounts userId) other + amount
  posted : ∀ row ∈ (after.accounts userId).ledger, row ∈ (before.accounts userId).ledger ∨
    row.type = .debit ∧ row.metadata.runId = some runId ∧ row.idempotencyKey = key
  grows : ∀ other, (after.accounts userId).existing other = none →
    (before.accounts userId).existing other = none
  vacant : (after.accounts userId).existing key = none → ∀ other,
    totalOf (after.accounts userId) other = totalOf (before.accounts userId) other
  stored : (before.accounts userId).Stored → (after.accounts userId).Stored

namespace Charges

variable {before after : AgentDb} {userId : UserId} {runId key : String} {amount : Int}

theorem weaken {bound : Int} (charges : Charges before after userId runId key amount)
    (le : amount ≤ bound) : Charges before after userId runId key bound where
  others := charges.others
  attributed := charges.attributed
  total other := by
    rcases charges.total other with same | ⟨mine, fresh, more⟩
    · exact .inl same
    · exact .inr ⟨mine, fresh, by omega⟩
  posted := charges.posted
  grows := charges.grows
  vacant := charges.vacant
  stored := charges.stored

theorem between {earlier later : AgentDb} (charges : Charges before after userId runId key amount)
    (first : earlier.accounts = before.accounts) (last : later.accounts = after.accounts) :
    Charges earlier later userId runId key amount where
  others := by rw [first, last]; exact charges.others
  attributed := by rw [first, last]; exact charges.attributed
  total := by rw [first, last]; exact charges.total
  posted := by rw [first, last]; exact charges.posted
  grows := by rw [first, last]; exact charges.grows
  vacant := by rw [first, last]; exact charges.vacant
  stored := by rw [first, last]; exact charges.stored

theorem congr {later : AgentDb} (charges : Charges before after userId runId key amount)
    (same : later.accounts = after.accounts) :
    Charges before later userId runId key amount :=
  charges.between rfl same

theorem put {db : AgentDb} {account : Account}
    (attributed : Attributed (db.accounts userId) → Attributed account)
    (total : ∀ other, totalOf account other = totalOf (db.accounts userId) other ∨
      runId = other ∧ (db.accounts userId).existing key = none ∧
        totalOf account other ≤ totalOf (db.accounts userId) other + amount)
    (posted : ∀ row ∈ account.ledger, row ∈ (db.accounts userId).ledger ∨
      row.type = .debit ∧ row.metadata.runId = some runId ∧ row.idempotencyKey = key)
    (grows : ∀ other, account.existing other = none →
      (db.accounts userId).existing other = none)
    (vacant : account.existing key = none → ∀ other,
      totalOf account other = totalOf (db.accounts userId) other)
    (stored : (db.accounts userId).Stored → account.Stored) :
    Charges db (db.putAccount userId account) userId runId key amount := by
  have here : (db.putAccount userId account).accounts userId = account :=
    Function.update_self ..
  rw [← here] at attributed total posted grows vacant stored
  refine ⟨fun user differs => ?_, attributed, total, posted, grows, vacant, stored⟩
  exact Function.update_of_ne differs ..

/-- Committing what a debit left charges at most its amount. -/
theorem putAccount (settings : Settings) {request : ConsumeRequest} {db : AgentDb}
    (named : request.metadata.runId = some runId) (attributable : Attributable request)
    {account : Account} (left : (debit settings userId request db).2 = account) :
    Charges db (db.putAccount userId account) userId runId request.idempotencyKey
      request.amount := by
  subst left
  have stored : (db.accounts userId).Stored → (debit settings userId request db).2.Stored :=
    fun stored => Account.Stored.run stored _
  rcases Call.run_consume (settings.context userId) request .commit (db.accounts userId) with
    same | ⟨result, debited⟩
  · have unchanged : (debit settings userId request db).2 = db.accounts userId := same
    rw [unchanged] at stored ⊢
    exact put id (fun _ => .inl rfl) (fun _ => .inl) (fun _ => id) (fun _ _ => rfl) stored
  · have posted := debit_posted debited named
    refine put ?_ ?_ posted ?_ ?_ stored
    · exact fun attributed => debit_attributed debited attributable attributed.provisioned
    · intro other
      rcases debit_total debited other with same | ⟨mine, fresh, more⟩
      · exact .inl same
      · exact .inr ⟨Option.some.inj (named.symm.trans mine), fresh, more⟩
    · intro other free
      have grows := debit_grows debited free
      exact grows
    · intro free other
      have same := debit_vacant debited free other
      exact same

theorem putRefused (settings : Settings) {request : ConsumeRequest} {db : AgentDb}
    (named : request.metadata.runId = some runId) (attributable : Attributable request)
    {account : Account} (left : (debit settings userId request db).2 = account)
    (refused : Int) (model : Option String) (usage : UsageCounts) :
    Charges db (db.putAccount userId (recordInsufficient runId refused model usage account))
      userId runId request.idempotencyKey request.amount := by
  obtain ⟨-, attributed, total, posted, grows, vacant, stored⟩ :=
    putAccount settings named attributable left
  have here : (db.putAccount userId account).accounts userId = account :=
    Function.update_self ..
  rw [here] at attributed total posted grows vacant stored
  refine put ?_ ?_ posted grows ?_ stored
  · exact fun before => (attributed before).recordInsufficient runId refused model usage
  · simpa using total
  · intro free other
    simpa using vacant free other

end Charges

theorem billsUnder_self (runId : String) : billsUnder runId runId = true := by
  simp [billsUnder]

theorem billsUnder_stepKey (runId : String) (stepIndex : Int) :
    billsUnder runId (stepKey runId stepIndex) = true := by
  simp [billsUnder, stepKey]

theorem stepRequest_attributable (runId : String) (stepIndex charge : Int) (usage : Json)
    (model : Option String) (newId : TxId) :
    Attributable (stepRequest runId stepIndex charge usage model newId) where
  keyed other named := by
    cases named
    exact billsUnder_stepKey runId stepIndex
  settled other named plain := by cases plain

theorem completedRequest_attributable (runId : String) (amount : Int) (usage : UsageCounts)
    (model : Option String) (newId : TxId) :
    Attributable (completedRequest runId amount usage model newId) where
  keyed other named := by
    cases named
    exact billsUnder_self runId
  settled other named plain := by
    cases named
    rfl

theorem orphanRequest_attributable (runId : String) (owed : Int) (newId : TxId) :
    Attributable (orphanRequest runId owed newId) where
  keyed other named := by
    cases named
    exact billsUnder_self runId
  settled other named plain := by
    cases named
    rfl

section Flush

variable (settings : Settings) (conditions : Conditions) (run : RunProcessing)
  (immediate assertApproval : Bool) (db : AgentDb)

@[simp] theorem writeSnapshot_accounts (incoming : RunSnapshot) :
    (writeSnapshot conditions incoming assertApproval db).accounts = db.accounts := by
  unfold writeSnapshot
  repeat' split
  all_goals rfl

@[simp] theorem flushSnapshot_accounts :
    (flushSnapshot settings conditions run immediate assertApproval db).2.accounts =
      db.accounts := by
  unfold flushSnapshot
  split
  · rfl
  · simp

@[simp] theorem flushSnapshot_userId :
    (flushSnapshot settings conditions run immediate assertApproval db).1.userId =
      run.userId := by
  unfold flushSnapshot
  split <;> rfl

@[simp] theorem flushSnapshot_runId :
    (flushSnapshot settings conditions run immediate assertApproval db).1.runId = run.runId := by
  unfold flushSnapshot
  split <;> rfl

@[simp] theorem flushSnapshot_incremental :
    (flushSnapshot settings conditions run immediate assertApproval db).1.incremental =
      run.incremental := by
  unfold flushSnapshot
  split <;> rfl

@[simp] theorem flushSnapshot_charged :
    (flushSnapshot settings conditions run immediate assertApproval db).1.charged =
      run.charged := by
  unfold flushSnapshot
  split <;> rfl

@[simp] theorem flushSnapshot_billed :
    (flushSnapshot settings conditions run immediate assertApproval db).1.billed =
      run.billed := by
  unfold flushSnapshot
  split <;> rfl

@[simp] theorem flushSnapshot_inputTokens :
    (flushSnapshot settings conditions run immediate assertApproval db).1.state.inputTokens =
      run.state.inputTokens := by
  unfold flushSnapshot
  split <;> rfl

@[simp] theorem flushSnapshot_outputTokens :
    (flushSnapshot settings conditions run immediate assertApproval db).1.state.outputTokens =
      run.state.outputTokens := by
  unfold flushSnapshot
  split <;> rfl

@[simp] theorem markTerminal_accounts (runId : String) (status : RunStatus) :
    (markTerminal conditions runId status db).accounts = db.accounts := by
  unfold markTerminal
  split <;> rfl

@[simp] theorem pauseRun_accounts :
    (pauseRun settings conditions run db).2.2.accounts = db.accounts := by
  unfold pauseRun
  split
  · rfl
  · split <;> simp

end Flush

section Bill

variable (settings : Settings) (conditions : Conditions) (run : RunProcessing)
  (event : SseEvent) (db : AgentDb)

theorem chargeStep_charges (stepIndex want : Int) {request : ConsumeRequest}
    (named : request.metadata.runId = some run.runId) (attributable : Attributable request) :
    let after := (chargeStep settings conditions run stepIndex want request db).2
    after.accounts = db.accounts ∨
      Charges db after run.userId run.runId request.idempotencyKey request.amount := by
  unfold chargeStep
  split
  next result account debited =>
    have charges : Charges db (db.putAccount run.userId account) run.userId run.runId
        request.idempotencyKey request.amount :=
      .putAccount settings named attributable (by rw [debited])
    split
    · exact .inl rfl
    · simp only
      split
      · exact .inr (charges.congr rfl)
      · exact .inl rfl
  · exact .inl rfl
  · exact .inl rfl

structure BillItem where
  key : String
  amount : Int
  deriving DecidableEq, Repr

/-- What processing an event bills: a step in incremental mode, or the remainder of a run which
this relay has not finished billing. -/
def billItem (settings : Settings) (run : RunProcessing) (event : SseEvent) : Option BillItem :=
  match eventKind event, extractUsageCounts event with
  | .usageDelta, .ok usage =>
      match run.incremental, asInt (Json.get? event.data "step_index") with
      | true, .ok stepIndex =>
          some ⟨stepKey run.runId stepIndex,
            settings.rates.price usage.inputTokens usage.outputTokens - run.charged⟩
      | _, _ => none
  | .runCompleted, .ok usage =>
      if run.billed then none
      else
        some ⟨run.runId,
          settings.rates.price usage.inputTokens usage.outputTokens - run.charged⟩
  | _, _ => none

/-- One call left the accounts alone or charged no more than one item. -/
def ChargesItem (run : RunProcessing) (item : Option BillItem) (before after : AgentDb) : Prop :=
  after.accounts = before.accounts ∨
    ∃ bill, item = some bill ∧ 0 < bill.amount ∧
      Charges before after run.userId run.runId bill.key bill.amount

theorem billStep_charges {usage : UsageCounts} {stepIndex : Int}
    (read : extractUsageCounts event = .ok usage)
    (indexed : asInt (Json.get? event.data "step_index") = .ok stepIndex) :
    ChargesItem run
      (some ⟨stepKey run.runId stepIndex,
        settings.rates.price usage.inputTokens usage.outputTokens - run.charged⟩)
      db (billStep settings conditions run event db).2 := by
  simp only [billStep, read, indexed]
  split
  · exact .inl rfl
  next owed priced =>
    rw [price_of_ok priced]
    split
    · exact .inl rfl
    next owing =>
      split
      · split
        · exact .inl rfl
        next record recorded =>
          have attributable := stepRequest_attributable run.runId stepIndex
            (min (owed - run.charged) (db.accounts run.userId).balance) record
            (extractModel event) conditions.newId
          rcases chargeStep_charges settings conditions run db stepIndex _ rfl attributable with
            same | charges
          · exact .inl same
          · refine .inr ⟨_, rfl, lt_of_not_ge owing, ?_⟩
            exact charges.weaken (min_le_left _ _)
      · exact .inl rfl

/-- A step whose counts or index cannot be read bills nothing. -/
theorem billStep_unread
    (unread : ∀ usage stepIndex, extractUsageCounts event = .ok usage →
      asInt (Json.get? event.data "step_index") ≠ .ok stepIndex) :
    (billStep settings conditions run event db).2 = db := by
  unfold billStep
  split
  next usage stepIndex read indexed => exact absurd indexed (unread usage stepIndex read)
  · rfl
  · rfl

theorem billCompleted_charges (usage : UsageCounts) :
    ChargesItem run
      (some ⟨run.runId,
        settings.rates.price usage.inputTokens usage.outputTokens - run.charged⟩)
      db (billCompleted settings conditions run event usage db).2 := by
  unfold billCompleted
  split
  · exact .inl rfl
  next owed priced =>
    rw [price_of_ok priced]
    simp only
    split
    · exact .inl rfl
    next owing =>
      have attributable := completedRequest_attributable run.runId (owed - run.charged) usage
        (extractModel event) conditions.newId
      split
      next result account debited _ =>
        refine .inr ⟨_, rfl, lt_of_not_ge owing, ?_⟩
        exact .putAccount settings rfl attributable (by rw [debited])
      next account debited _ =>
        refine .inr ⟨_, rfl, lt_of_not_ge owing, ?_⟩
        exact .putRefused settings rfl attributable (by rw [debited]) _ _ _
      all_goals exact .inl rfl

/-- Restate an effect for a state and a relay which differ in nothing that is billed. -/
theorem ChargesItem.congr {item : Option BillItem} {run later : RunProcessing}
    {before between after last : AgentDb} (charges : ChargesItem later item between after)
    (user_eq : later.userId = run.userId) (run_eq : later.runId = run.runId)
    (before_eq : between.accounts = before.accounts) (after_eq : last.accounts = after.accounts) :
    ChargesItem run item before last := by
  rcases charges with same | ⟨bill, is_bill, positive, charges⟩
  · exact .inl (after_eq.trans (same.trans before_eq))
  · rw [user_eq, run_eq] at charges
    exact .inr ⟨bill, is_bill, positive, charges.between before_eq.symm after_eq⟩

@[simp] theorem noteAnchors_accounts (anchors : UsageCounts) :
    (noteAnchors settings conditions run anchors db).2.accounts = db.accounts := by
  unfold noteAnchors
  simp only
  split <;> simp

/-- Noting the anchors changes nothing that a bill is computed from. -/
theorem noteAnchors_run (anchors : UsageCounts) :
    let noted := (noteAnchors settings conditions run anchors db).1
    noted.userId = run.userId ∧ noted.runId = run.runId ∧ noted.incremental = run.incremental ∧
      noted.charged = run.charged := by
  unfold noteAnchors
  simp only
  split <;> simp [RunProcessing.observe]

@[simp] theorem billDelta_accounts :
    (billDelta settings conditions run event db).2.2.accounts =
      (billStep settings conditions run event db).2.accounts := by
  unfold billDelta
  split
  next raised after billed => rw [billed]
  next charged depleted after billed =>
    rw [billed]
    simp only
    split <;> simp

theorem onUsageDelta_charges (kind : eventKind event = .usageDelta) :
    ChargesItem run (billItem settings run event) db
      (onUsageDelta settings conditions run event db).2.2 := by
  unfold onUsageDelta
  split
  · exact .inl rfl
  next anchors read =>
    simp only
    obtain ⟨user_eq, run_eq, incremental_eq, charged_eq⟩ :=
      noteAnchors_run settings conditions run db anchors
    generalize noted_eq : noteAnchors settings conditions run anchors db = noted at *
    have accounts_eq : noted.2.accounts = db.accounts := by simp [← noted_eq]
    split
    next incremental =>
      rw [incremental_eq] at incremental
      cases indexed : asInt (Json.get? event.data "step_index") with
      | error raised =>
          have unread :=
            billStep_unread settings conditions noted.1 event noted.2 (by simp [indexed])
          refine .inl ?_
          rw [billDelta_accounts, unread, accounts_eq]
      | ok stepIndex =>
          have item_eq : billItem settings run event = some ⟨stepKey noted.1.runId stepIndex,
              settings.rates.price anchors.inputTokens anchors.outputTokens -
                noted.1.charged⟩ := by
            simp [billItem, kind, read, indexed, incremental, run_eq, charged_eq]
          rw [item_eq]
          have charges := billStep_charges settings conditions noted.1 event noted.2 read indexed
          exact charges.congr user_eq run_eq accounts_eq (by simp)
    · exact .inl accounts_eq

@[simp] theorem noteCompleted_accounts (usage : UsageCounts) :
    (noteCompleted settings conditions run usage db).2.accounts = db.accounts := by
  simp [noteCompleted]

theorem onRunCompleted_charges (kind : eventKind event = .runCompleted) :
    ChargesItem run (billItem settings run event) db
      (onRunCompleted settings conditions run event db).2.2 := by
  unfold onRunCompleted
  split
  · exact .inl rfl
  next usage read =>
    simp only
    have accounts_eq := noteCompleted_accounts settings conditions run db usage
    split
    · exact .inl accounts_eq
    next unbilled =>
      have charges := billCompleted_charges settings conditions
        (noteCompleted settings conditions run usage db).1 event
        (noteCompleted settings conditions run usage db).2 usage
      have item_eq : billItem settings run event = some ⟨run.runId,
          settings.rates.price usage.inputTokens usage.outputTokens - run.charged⟩ := by
        have unbilled : run.billed = false := by
          simpa [noteCompleted, RunProcessing.observe] using unbilled
        simp [billItem, kind, read, unbilled]
      rw [item_eq]
      have billed : ChargesItem run _ db (billCompleted settings conditions
          (noteCompleted settings conditions run usage db).1 event usage
          (noteCompleted settings conditions run usage db).2).2 :=
        charges.congr (by simp [noteCompleted, RunProcessing.observe])
          (by simp [noteCompleted, RunProcessing.observe]) accounts_eq rfl
      have run_eq : (noteCompleted settings conditions run usage db).1.runId = run.runId := by
        simp [noteCompleted, RunProcessing.observe]
      have charged_eq :
          (noteCompleted settings conditions run usage db).1.charged = run.charged := by
        simp [noteCompleted, RunProcessing.observe]
      rw [run_eq, charged_eq] at billed
      split
      next raised after outcome =>
        rw [outcome] at billed
        exact billed
      next done after outcome =>
        rw [outcome] at billed
        exact billed

/-- Processing an event charges at most what its bill asks for. -/
theorem processEvent_charges :
    ChargesItem run (billItem settings run event) db
      (processEvent settings conditions run event db).2.2 := by
  unfold processEvent
  split
  · refine .inl ?_
    simp only [onMessageDelta]
    split <;> simp
  · exact .inl (by simp [onTool])
  · exact .inl (by simp)
  next kind => exact onUsageDelta_charges settings conditions run event db kind
  · exact .inl (by simp [onRunFailed])
  next kind => exact onRunCompleted_charges settings conditions run event db kind
  · exact .inl rfl

end Bill

section Orphan

variable (settings : Settings) (conditions : Conditions) (candidate : OrphanCandidate)
  (db : AgentDb)

theorem chargeOrphan_charges (owed : Int) :
    let after := (chargeOrphan settings conditions candidate owed db).2
    after.accounts = db.accounts ∨
      Charges db after candidate.userId candidate.runId candidate.runId owed := by
  have attributable := orphanRequest_attributable candidate.runId owed conditions.newId
  unfold chargeOrphan
  split
  · exact .inl rfl
  · simp only
    split
    next result account debited =>
      exact .inr (.putAccount settings rfl attributable (by rw [debited]))
    next account debited =>
      exact .inr (.putRefused settings rfl attributable (by rw [debited]) _ _ _)
    · exact .inl rfl
    · exact .inl rfl

theorem markOrphan_accounts (charged : AgentDb) :
    (markOrphan conditions candidate db charged).accounts = db.accounts ∨
      (markOrphan conditions candidate db charged).accounts = charged.accounts := by
  unfold markOrphan
  split
  · exact .inl rfl
  · exact .inr rfl

/-- `finalize_orphan_run` past its reads: what is owed and what is audited was read from `read`,
and the debit meets `db`. -/
def finishOrphanRun (settings : Settings) (conditions : Conditions)
    (candidate : OrphanCandidate) (read db : AgentDb) : Except Raised Unit × AgentDb :=
  match usageToCredits settings.rates candidate.inputTokens candidate.outputTokens with
  | .error error => (.error (.python error), db)
  | .ok _ =>
      match chargeOrphan settings conditions candidate (orphanOwed settings candidate read) db with
      | (.error raised, _) => (.error raised, db)
      | (.ok billed, charged) =>
          let marked := markOrphan conditions candidate db charged
          match conditions.billingLost with
          | some _ => (.error .database, marked)
          | none => (.ok (), { marked with
              finalized := marked.finalized ++ [orphanFinalized settings candidate billed read] })

/-- With nobody in between, the debit meets what was read. -/
theorem finalizeOrphanRun_eq :
    finalizeOrphanRun settings conditions candidate db =
      finishOrphanRun settings conditions candidate db db :=
  rfl

/-- The debit is at most what was owed when it was read. -/
theorem finishOrphanRun_charges (read : AgentDb) :
    let after := (finishOrphanRun settings conditions candidate read db).2
    after.accounts = db.accounts ∨
      Charges db after candidate.userId candidate.runId candidate.runId
        (orphanOwed settings candidate read) := by
  have charged := chargeOrphan_charges settings conditions candidate db
    (orphanOwed settings candidate read)
  unfold finishOrphanRun
  split
  · exact .inl rfl
  · split
    · exact .inl rfl
    next billed left outcome =>
      rw [outcome] at charged
      have kept (after : AgentDb)
          (after_eq : after.accounts = (markOrphan conditions candidate db left).accounts) :
          after.accounts = db.accounts ∨
            Charges db after candidate.userId candidate.runId candidate.runId
              (orphanOwed settings candidate read) := by
        rcases markOrphan_accounts conditions candidate db left with lost | marked
        · exact .inl (after_eq.trans lost)
        · rcases charged with same | charges
          · exact .inl (after_eq.trans (marked.trans same))
          · exact .inr (charges.congr (after_eq.trans marked))
      simp only
      split
      · exact kept _ rfl
      · exact kept _ rfl

/-- Finalizing an orphan charges at most what its snapshot owes beyond the ledger. -/
theorem finalizeOrphanRun_charges :
    let after := (finalizeOrphanRun settings conditions candidate db).2
    after.accounts = db.accounts ∨
      Charges db after candidate.userId candidate.runId candidate.runId
        (orphanOwed settings candidate db) :=
  finishOrphanRun_charges settings conditions candidate db db

end Orphan

end Hermes.AgentProxy
