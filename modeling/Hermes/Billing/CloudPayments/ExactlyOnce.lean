import Hermes.Billing.CloudPayments.Delivery

/-!
# Crediting exactly once

The event row keeps the payment id of a transaction to itself until it commits, so the wallet finds
no credit for the payment and adds its row.  With the event, the credit and the subscription change
in one commit, the tables agree at every moment.
-/

namespace Hermes.Billing.CloudPayments

open Wallet (UserId Account GrantRequest GrantResult LedgerTransaction TxId WalletError Sql World)
open Program (call RunsAmid RestOf)

/-! ## The transaction of one payment -/

section Transaction

variable {environment : Environment} {resolved : Resolved} {user : UserId}
  {expiresAt : Option Instant} {newId : TxId}

def walletPart : Program.Part PaymentTx Wallet.Tx where
  get := PaymentTx.wallet
  put wallet tx := { tx with wallet := wallet }
  get_put _ _ := rfl
  put_put _ _ _ := rfl
  put_get _ := rfl

/-- A statement of the wallet which the database accepts does what it does on the wallet alone. -/
theorem walletPart_accepted (environment : Environment) :
    ∀ (world : World) β (stmt : Sql β) tx answer after,
      Stmt.exec environment world β (.wallet stmt) tx = .ok (answer, after) →
        ∃ kept, world.exec β stmt (walletPart.get tx) = .ok (answer, kept) ∧
          after = walletPart.put kept tx := by
  intro world β stmt tx answer after executed
  simp only [Stmt.exec] at executed
  split at executed
  · cases executed
  next kept ran =>
    split at executed
    · cases executed
      exact ⟨kept, ran, rfl⟩
    · cases executed

/-- While its event row keeps the payment id, a transaction meets no credit for it. -/
def Unpaid (paymentId : String) (world : World) : Prop :=
  world.committed.existing (grantKey paymentId) = none

theorem grant_adds {tx after : PaymentTx} {context : Wallet.Context}
    {result : Except WalletError GrantResult} (positive : 0 < resolved.credits)
    (clean : tx.wallet.work.rows = [])
    (runs : RunsAmid (Stmt.exec environment) (Unpaid resolved.payment.paymentId)
      ((Wallet.grant context (resolved.request newId)).translate fun _ stmt => Stmt.wallet stmt)
      tx result after) :
    (∃ granted, result = .ok granted) ∧
      after.wallet.work.rows = [(resolved.request newId).row] ∧
      after.subscription = tx.subscription := by
  obtain ⟨runs, framed⟩ := runs.of_translate walletPart (fun _ stmt => Stmt.wallet stmt)
    (walletPart_accepted environment)
  have framed_subscription : after.subscription = tx.subscription := by rw [framed]; rfl
  have untaken (world : World) (unpaid : Unpaid resolved.payment.paymentId world) :
      (tx.wallet.work.onto world.committed).existing (grantKey resolved.payment.paymentId) =
        none := by
    simpa [Unpaid, Account.existing, Wallet.Work.onto, clean] using unpaid
  cases Wallet.grant_runsAmid runs with
  | rejected message same why =>
      rcases why with worthless | ⟨world, unpaid, holder, taken⟩
      · exact absurd positive (not_lt.mpr worthless)
      · cases (untaken world unpaid).symm.trans taken
  | replayed balance holder same taken credit amount =>
      obtain ⟨world, unpaid, taken⟩ := taken
      cases (untaken world unpaid).symm.trans taken
  | added balance positive rows =>
      refine ⟨⟨_, rfl⟩, ?_, framed_subscription⟩
      have grown : after.wallet.work.rows = tx.wallet.work.rows ++ [(resolved.request newId).row] :=
        rows
      rw [grown, clean]
      rfl

/-- A grant of some worth with the audit entry behind it adds its one row. -/
theorem grant_audited {start tx : PaymentTx} {result : Except WalletError GrantResult}
    {audit : PaymentAudit}
    {next : Except WalletError GrantResult → Program Stmt (Except WalletError GrantResult)}
    (positive : 0 < resolved.credits)
    (audits : ∀ granted, next (.ok granted) =
      call (.insertAudit audit ()) >>= fun _ => pure (.ok granted))
    (runs : RunsAmid (Stmt.exec environment) (Unpaid resolved.payment.paymentId)
      ((Wallet.grant ⟨user, fun _ => none, environment.agentDebtReconcileEnabled⟩
        (resolved.request newId)).translate (fun _ stmt => Stmt.wallet stmt) >>= next)
      start result tx) (clean : start.wallet.work.rows = []) :
    (∃ granted, result = .ok granted) ∧ tx.wallet.work.rows = [(resolved.request newId).row] ∧
      tx.subscription = start.subscription := by
  obtain ⟨granted, between, grant_runs, later⟩ := runs.of_bind
  obtain ⟨⟨answer, rfl⟩, rows, framed⟩ := grant_adds positive clean grant_runs
  rw [audits, Program.call_bind] at later
  obtain ⟨world, _, noted, -, audited, later⟩ := later.of_issue
  cases audited
  obtain ⟨rfl, rfl⟩ := later.of_done
  exact ⟨⟨answer, rfl⟩, rows, framed⟩

/-- A payment of some worth ends with its one row and its subscription change. -/
theorem program_adds {tx : PaymentTx} {result : Except WalletError GrantResult}
    (positive : 0 < resolved.credits)
    (runs : RunsAmid (Stmt.exec environment) (Unpaid resolved.payment.paymentId)
      (resolved.program environment user expiresAt newId) {} result tx) :
    (∃ granted, result = .ok granted) ∧ tx.wallet.work.rows = [(resolved.request newId).row] ∧
      tx.subscription = expiresAt.map (upsertPaid resolved.payment.productCode) := by
  unfold Resolved.program at runs
  cases expiresAt with
  | none => exact grant_audited positive (fun _ => rfl) runs rfl
  | some moment =>
      simp only [Program.call_bind] at runs
      obtain ⟨world, _, written, -, upserted, later⟩ := runs.of_issue
      cases upserted
      exact grant_audited positive (fun _ => rfl) later rfl

end Transaction

/-! ## The commit of one payment -/

section Commit

variable {store : Store} {user : UserId} {resolved : Resolved} {tx : PaymentTx}
  {expiresAt : Option Instant} {newId : TxId}

theorem grantKey_injective : Function.Injective grantKey :=
  fun _ _ same => (String.append_right_inj _).mp same

/-- What the transaction of a payment brings to its commit. -/
structure Finished (store : Store) (resolved : Resolved) (expiresAt : Option Instant)
    (newId : TxId) (tx : PaymentTx) : Prop where
  rows : tx.wallet.work.rows = [(resolved.request newId).row]
  subscription : tx.subscription = expiresAt.map (upsertPaid resolved.payment.productCode)
  kind : expiresAt.isSome ↔ resolved.kind = .subscription
  fresh : resolved.payment.paymentId ∉ store.eventIds

theorem Finished.ledger_self (finished : Finished store resolved expiresAt newId tx) :
    ((store.commit user resolved tx).accounts user).ledger =
      (store.accounts user).ledger ++ [(resolved.request newId).row] := by
  simp [Store.commit, Wallet.Work.onto, finished.rows]

theorem ledger_other {other : UserId} (distinct : other ≠ user) :
    ((store.commit user resolved tx).accounts other).ledger = (store.accounts other).ledger := by
  simp [Store.commit, Function.update_of_ne distinct]

/-- A row in the tables after the commit was there before or is the new one. -/
theorem Finished.row_cases (finished : Finished store resolved expiresAt newId tx)
    {owner : UserId} {row : LedgerTransaction}
    (present : row ∈ ((store.commit user resolved tx).accounts owner).ledger) :
    row ∈ (store.accounts owner).ledger ∨
      owner = user ∧ row = (resolved.request newId).row := by
  rcases Decidable.em (owner = user) with rfl | distinct
  · rw [finished.ledger_self] at present
    rcases List.mem_append.mp present with old | new
    · exact .inl old
    · exact .inr ⟨rfl, List.mem_singleton.mp new⟩
  · rw [ledger_other distinct] at present
    exact .inl present

theorem Finished.row_kept (finished : Finished store resolved expiresAt newId tx)
    {owner : UserId} {row : LedgerTransaction} (present : row ∈ (store.accounts owner).ledger) :
    row ∈ ((store.commit user resolved tx).accounts owner).ledger := by
  rcases Decidable.em (owner = user) with rfl | distinct
  · rw [finished.ledger_self]
    exact List.mem_append_left _ present
  · rwa [ledger_other distinct]

theorem Finished.row_added (finished : Finished store resolved expiresAt newId tx) :
    (resolved.request newId).row ∈ ((store.commit user resolved tx).accounts user).ledger := by
  rw [finished.ledger_self]
  simp

theorem Finished.granted_mono (finished : Finished store resolved expiresAt newId tx)
    {paymentId : String} (granted : Granted store paymentId) :
    Granted (store.commit user resolved tx) paymentId := by
  obtain ⟨owner, row, present, same⟩ := granted
  exact ⟨owner, row, finished.row_kept present, same⟩

theorem Finished.unpaid (finished : Finished store resolved expiresAt newId tx)
    (atomic : Atomic store) {owner : UserId} {row : LedgerTransaction}
    (present : row ∈ (store.accounts owner).ledger) :
    row.idempotencyKey ≠ grantKey resolved.payment.paymentId :=
  fun same => finished.fresh (atomic.granted _ ⟨owner, row, present, same⟩)

theorem Finished.once (finished : Finished store resolved expiresAt newId tx)
    (atomic : Atomic store) (once : Once store) : Once (store.commit user resolved tx) where
  single owner paymentId := by
    rcases Decidable.em (owner = user) with rfl | distinct
    · rw [finished.ledger_self, List.filter_append]
      rcases Decidable.em (paymentId = resolved.payment.paymentId) with rfl | other
      · have none_before : (store.accounts owner).ledger.filter (fun row =>
            row.idempotencyKey == grantKey resolved.payment.paymentId) = [] := by
          rw [List.filter_eq_nil_iff]
          intro row present same
          exact finished.unpaid atomic present (beq_iff_eq.mp same)
        rw [none_before]
        exact List.length_filter_le _ _
      · have not_new : [(resolved.request newId).row].filter (fun row =>
            row.idempotencyKey == grantKey paymentId) = [] := by
          have different : grantKey resolved.payment.paymentId ≠ grantKey paymentId :=
            fun same => other (grantKey_injective same).symm
          simp [Resolved.request, GrantRequest.row, different]
        rw [not_new, List.append_nil]
        exact once.single owner paymentId
    · rw [ledger_other distinct]
      exact once.single owner paymentId
  exclusive owner other paymentId distinct := by
    rintro ⟨row, present, same⟩ held held_present held_same
    rcases finished.row_cases present with old | ⟨rfl, rfl⟩
    · rcases finished.row_cases held_present with held_old | ⟨rfl, rfl⟩
      · exact once.exclusive owner other paymentId distinct ⟨row, old, same⟩ held held_old held_same
      · exact finished.unpaid atomic old (same.trans held_same.symm)
    · rcases finished.row_cases held_present with held_old | ⟨rfl, -⟩
      · exact finished.unpaid atomic held_old (held_same.trans same.symm)
      · exact distinct rfl

theorem Finished.atomic (finished : Finished store resolved expiresAt newId tx)
    (atomic : Atomic store) : Atomic (store.commit user resolved tx) where
  granted paymentId granted := by
    obtain ⟨owner, row, present, same⟩ := granted
    simp only [Store.eventIds, Store.commit, List.map_append, List.mem_append]
    rcases finished.row_cases present with old | ⟨-, rfl⟩
    · exact .inl (atomic.granted paymentId ⟨owner, row, old, same⟩)
    · exact .inr (by simp [Resolved.event, grantKey_injective same])
  credited event present := by
    rcases List.mem_append.mp present with old | new
    · obtain ⟨row, row_present, credit⟩ := atomic.credited event old
      exact ⟨row, finished.row_kept row_present, credit⟩
    · obtain rfl := List.mem_singleton.mp new
      exact ⟨_, finished.row_added, rfl, rfl⟩
  changed event present subscribes := by
    rcases List.mem_append.mp present with old | new
    · obtain ⟨write, written, made⟩ := atomic.changed event old subscribes
      exact ⟨write, List.mem_append_left _ written, made⟩
    · obtain rfl := List.mem_singleton.mp new
      obtain ⟨moment, paid⟩ := Option.isSome_iff_exists.mp (finished.kind.mpr subscribes)
      have written := finished.subscription
      rw [paid] at written
      refine ⟨⟨resolved.payment.paymentId, user, upsertPaid resolved.payment.productCode moment⟩,
        List.mem_append_right _ ?_, rfl, rfl⟩
      rw [written]
      exact List.mem_singleton_self _
  paid write present := by
    rcases List.mem_append.mp present with old | new
    · obtain ⟨event, recorded, made⟩ := atomic.paid write old
      exact ⟨event, List.mem_append_left _ recorded, made⟩
    · rw [finished.subscription, Option.map_map, Option.mem_toList] at new
      obtain ⟨moment, paid, rfl⟩ := Option.map_eq_some_iff.mp new
      refine ⟨resolved.event user, List.mem_append_right _ (List.mem_singleton_self _), rfl, rfl,
        ?_⟩
      exact finished.kind.mp (by simp [paid])

end Commit

/-! ## What one step keeps -/

/-- Every creditable payment of the lists has been credited or is still ahead. -/
structure Accounted (environment : Environment) (store : Store) (now : Instant)
    (items : List Fields) (remaining : List CreditablePayment) : Prop where
  consistent : Consistent environment now items
  ahead : ∃ merged, mergePayments [] items = .ok merged ∧
    ∀ payment ∈ selectCreditablePayments environment now merged,
      Creditable environment payment → Granted store payment.paymentId ∨ payment ∈ remaining

/-- What holds of a delivery where it stands. -/
def Standing (environment : Environment) (store : Store) (delivery : Delivery) : Prop :=
  match delivery.position with
  | .fetching => True
  | .ready todo _ => Accounted environment store delivery.now delivery.items todo
  | .inserting resolved todo _ =>
      Accounted environment store delivery.now delivery.items (resolved.payment :: todo) ∧
        0 < resolved.credits
  | .applying resolved expiresAt newId program tx _ todo _ =>
      Accounted environment store delivery.now delivery.items (resolved.payment :: todo) ∧
        0 < resolved.credits ∧
        (expiresAt.isSome ↔ resolved.kind = .subscription) ∧
        RestOf (Stmt.exec environment) (Unpaid resolved.payment.paymentId)
          (resolved.program environment delivery.userId expiresAt newId) {} program tx
  | .returned _ => Accounted environment store delivery.now delivery.items []
  | .raised failure => failure.external = true

/-- What holds of the system between two steps. -/
structure Sound {n : Nat} (environment : Environment) (system : System n) : Prop where
  once : Once system.store
  atomic : Atomic system.store
  fresh : ∀ actor paymentId, (system.deliveries actor).position.pending = some paymentId →
    paymentId ∉ system.store.eventIds
  distinct : ∀ actor other paymentId, actor ≠ other →
    (system.deliveries actor).position.pending = some paymentId →
      (system.deliveries other).position.pending ≠ some paymentId
  standing : ∀ actor, Standing environment system.store (system.deliveries actor)

section Steps

variable {n : Nat} {environment : Environment} {system after : System n} {store : Store}
  {delivery : Delivery} {now : Instant} {items : List Fields}
  {remaining : List CreditablePayment}

theorem Accounted.mono {later : Store}
    (kept : ∀ paymentId, Granted store paymentId → Granted later paymentId)
    (accounted : Accounted environment store now items remaining) :
    Accounted environment later now items remaining := by
  obtain ⟨consistent, merged, merges, ahead⟩ := accounted
  refine ⟨consistent, merged, merges, fun payment selected creditable => ?_⟩
  exact (ahead payment selected creditable).imp_left (kept _)

theorem Standing.mono {later : Store}
    (kept : ∀ paymentId, Granted store paymentId → Granted later paymentId)
    (standing : Standing environment store delivery) : Standing environment later delivery := by
  unfold Standing at standing ⊢
  cases position : delivery.position with
  | fetching => trivial
  | ready todo counts =>
      rw [position] at standing
      exact standing.mono kept
  | inserting resolved todo counts =>
      rw [position] at standing
      exact ⟨standing.1.mono kept, standing.2⟩
  | applying resolved expiresAt newId program tx snapshot todo counts =>
      rw [position] at standing
      exact ⟨standing.1.mono kept, standing.2⟩
  | returned outcome =>
      rw [position] at standing
      exact standing.mono kept
  | raised failure =>
      rw [position] at standing
      exact standing

theorem Accounted.tail {payment : CreditablePayment}
    (accounted : Accounted environment store now items (payment :: remaining))
    (seen_to : Creditable environment payment → Granted store payment.paymentId) :
    Accounted environment store now items remaining := by
  obtain ⟨consistent, merged, merges, ahead⟩ := accounted
  refine ⟨consistent, merged, merges, fun candidate selected creditable => ?_⟩
  rcases ahead candidate selected creditable with granted | here
  · exact .inl granted
  · rcases List.mem_cons.mp here with rfl | behind
    · exact .inl (seen_to creditable)
    · exact .inr behind

theorem Sound.update (sound : Sound environment system) {actor : Fin n} {moved : Delivery}
    (pends : ∀ paymentId, moved.position.pending = some paymentId →
      paymentId ∉ system.store.eventIds ∧ ∀ other, other ≠ actor →
        (system.deliveries other).position.pending ≠ some paymentId)
    (standing : Standing environment system.store moved) :
    Sound environment (system.put actor moved) where
  once := sound.once
  atomic := sound.atomic
  fresh other paymentId pending := by
    rcases Decidable.em (other = actor) with rfl | elsewhere
    · rw [System.deliveries_put_self] at pending
      exact (pends paymentId pending).1
    · rw [System.deliveries_put_of_ne _ _ elsewhere] at pending
      exact sound.fresh other paymentId pending
  distinct first second paymentId different pending := by
    rcases Decidable.em (first = actor) with rfl | first_elsewhere
    · rw [System.deliveries_put_self] at pending
      rw [System.deliveries_put_of_ne _ _ different.symm]
      exact (pends paymentId pending).2 second different.symm
    · rw [System.deliveries_put_of_ne _ _ first_elsewhere] at pending
      rcases Decidable.em (second = actor) with rfl | second_elsewhere
      · rw [System.deliveries_put_self]
        intro own
        exact (pends paymentId own).2 first first_elsewhere pending
      · rw [System.deliveries_put_of_ne _ _ second_elsewhere]
        exact sound.distinct first second paymentId different pending
  standing other := by
    rcases Decidable.em (other = actor) with rfl | elsewhere
    · rw [System.deliveries_put_self]
      exact standing
    · rw [System.deliveries_put_of_ne _ _ elsewhere]
      exact sound.standing other

theorem Sound.rest (sound : Sound environment system) {actor : Fin n} {position : Position}
    (idle : position.pending = none)
    (standing : Standing environment system.store
      { system.deliveries actor with position := position }) :
    Sound environment (system.set actor position) := by
  refine sound.update (fun paymentId pending => ?_) standing
  rw [idle] at pending
  cases pending

theorem Sound.goOn (sound : Sound environment system) {actor : Fin n} {position : Position}
    (same : position.pending = (system.deliveries actor).position.pending)
    (standing : Standing environment system.store
      { system.deliveries actor with position := position }) :
    Sound environment (system.set actor position) := by
  refine sound.update (fun paymentId pending => ?_) standing
  rw [same] at pending
  refine ⟨sound.fresh actor paymentId pending, fun other elsewhere => ?_⟩
  exact sound.distinct actor other paymentId elsewhere.symm pending

theorem Sound.at (sound : Sound environment system) {actor : Fin n} {position : Position}
    (stands : (system.deliveries actor).position = position) :
    Standing environment system.store { system.deliveries actor with position := position } := by
  rw [← stands]
  exact sound.standing actor

theorem fetched_standing (store : Store) (moved : Delivery)
    (hashable : Hashable moved.items) (legible : Legible environment moved.items)
    (recent : firstInstant ≤ cutoff environment moved.now)
    (consistent : Consistent environment moved.now moved.items)
    (position : moved.position = System.fetched environment moved.now moved.items) :
    moved.position.pending = none ∧ Standing environment store moved := by
  obtain ⟨merged, merges⟩ : ∃ merged, mergePayments [] moved.items = .ok merged :=
    mergePayments_ok hashable
  have accounted : Accounted environment store moved.now moved.items
      (selectCreditablePayments environment moved.now merged) :=
    ⟨consistent, merged, merges, fun payment selected _ => .inr selected⟩
  unfold Standing
  have merged_legible : Legible environment merged :=
    fun item present => legible item (mergePayments_subset merges present)
  simp only [System.fetched, merges, merged_legible, not_true_eq_false, not_lt.mpr recent, if_false]
    at position
  cases selects : selectCreditablePayments environment moved.now merged with
  | nil =>
      rw [selects] at position accounted
      rw [position]
      exact ⟨rfl, accounted⟩
  | cons payment todo =>
      rw [selects] at position accounted
      rw [position]
      exact ⟨rfl, accounted⟩

theorem fetch_sound (sound : Sound environment system) {actor : Fin n}
    {first second : List Fields} {now : Instant}
    (harmless : Harmless environment system (actor, .fetch first second now))
    (stepped : system.step environment (actor, .fetch first second now) = some after) :
    Sound environment after := by
  obtain ⟨hashable, legible, recent, consistent⟩ := harmless
  simp only [System.step] at stepped
  split at stepped
  next fetching =>
    cases stepped
    have both := fetched_standing system.store
      { system.deliveries actor with
        now := now, items := first ++ second,
        position := System.fetched environment now (first ++ second) }
      hashable legible recent consistent rfl
    refine sound.update (fun paymentId pending => ?_) both.2
    rw [both.1] at pending
    cases pending
  · cases stepped

theorem next_sound (sound : Sound environment system) {actor : Fin n}
    (harmless : Harmless environment system (actor, .next))
    (stepped : system.step environment (actor, .next) = some after) :
    Sound environment after := by
  simp only [System.step] at stepped
  split at stepped
  next counts stands =>
    cases stepped
    have accounted : Accounted environment system.store _ _ [] := sound.at stands
    exact sound.rest rfl accounted
  next payment todo counts stands =>
    have accounted : Accounted environment system.store _ _ (payment :: todo) := sound.at stands
    split at stepped
    next skipped =>
      cases stepped
      refine sound.rest rfl (accounted.tail ?_)
      rintro ⟨kind, credits, resolved, -⟩
      rw [skipped] at resolved
      cases resolved
    next kind credits resolved =>
      cases stepped
      refine sound.rest rfl ⟨accounted, ?_⟩
      simpa [Harmless, Position.worthwhile, stands, resolved] using harmless
  · cases stepped

theorem expiry_kind {resolved : Resolved} {expiresAt : Option Instant}
    (expires : resolved.expiry environment now = some expiresAt) :
    expiresAt.isSome ↔ resolved.kind = .subscription := by
  unfold Resolved.expiry at expires
  split at expires
  next tokens =>
    cases expires
    simp [tokens]
  next subscription =>
    obtain ⟨moment, -, rfl⟩ := Option.map_eq_some_iff.mp expires
    simp [subscription]

theorem insert_sound (sound : Sound environment system) {actor : Fin n} {now : Instant}
    {newId : TxId} (harmless : Harmless environment system (actor, .insert now newId))
    (stepped : system.step environment (actor, .insert now newId) = some after) :
    Sound environment after := by
  simp only [System.step] at stepped
  split at stepped
  next resolved todo counts stands =>
    obtain ⟨accounted, positive⟩ := sound.at stands
    simp only [Harmless, Position.recordable, stands, Bool.and_eq_true, Bool.or_eq_true,
      decide_eq_true_eq] at harmless
    obtain ⟨storable, recordable⟩ := harmless
    rw [if_neg (by simp [storable])] at stepped
    split at stepped
    · cases stepped
    next free =>
      split at stepped
      next recorded =>
        cases stepped
        refine sound.rest rfl (Accounted.tail accounted fun _ => ?_)
        obtain ⟨event, present, same⟩ := List.mem_map.mp recorded
        obtain ⟨row, row_present, key, -⟩ := sound.atomic.credited event present
        exact ⟨event.userId, row, row_present, same ▸ key⟩
      next unrecorded =>
        obtain ⟨roomy, dated⟩ := recordable.resolve_left unrecorded
        rw [if_neg (by simp [roomy])] at stepped
        split at stepped
        next overflows =>
          rw [overflows] at dated
          cases dated
        next expiresAt expires =>
          cases stepped
          refine sound.update ?_ ⟨accounted, positive, expiry_kind expires, .refl _ _⟩
          rintro paymentId ⟨⟩
          refine ⟨unrecorded, fun other _ pending => free ?_⟩
          exact List.any_eq_true.mpr ⟨other, List.mem_finRange other, by simp [pending]⟩
  · cases stepped

theorem arrive_sound (sound : Sound environment system) {actor : Fin n}
    (stepped : system.step environment (actor, .arrive) = some after) :
    Sound environment after := by
  simp only [System.step] at stepped
  split at stepped
  next stands =>
    cases stepped
    obtain ⟨accounted, positive, kind, rest⟩ := sound.at stands
    refine sound.goOn ?_ ⟨accounted, positive, kind, rest⟩
    rw [stands]
    rfl
  · cases stepped

theorem execute_sound (sound : Sound environment system) {actor : Fin n}
    (harmless : Harmless environment system (actor, .execute))
    (stepped : system.step environment (actor, .execute) = some after) :
    Sound environment after := by
  simp only [System.step] at stepped
  split at stepped
  next resolved expiresAt newId _ stmt next tx snapshot todo counts stands =>
    obtain ⟨accounted, positive, kind, rest⟩ := sound.at stands
    split at stepped
    · cases stepped
    · simp only [Harmless, Position.acceptable, stands] at harmless
      split at stepped
      next failure rejected =>
        rw [rejected] at harmless
        cases harmless
      next answer moved executed =>
        cases stepped
        refine sound.goOn ?_ ⟨accounted, positive, kind, rest.issue ?_ executed⟩
        · rw [stands]
          rfl
        · -- The event row is still pending, so no credit for the payment can be committed.
          have unrecorded := sound.fresh actor resolved.payment.paymentId (by rw [stands]; rfl)
          refine List.find?_eq_none.mpr fun row present same => unrecorded ?_
          exact sound.atomic.granted _ ⟨_, row, present, beq_iff_eq.mp same⟩
  · cases stepped

/-- The commit of a payment by the delivery which has inserted it. -/
theorem Sound.commit (sound : Sound environment system) {actor : Fin n} {resolved : Resolved}
    {expiresAt : Option Instant} {newId : TxId} {tx : PaymentTx} {position : Position}
    (finished : Finished system.store resolved expiresAt newId tx)
    (pending : (system.deliveries actor).position.pending = some resolved.payment.paymentId)
    (idle : position.pending = none)
    (standing : Standing environment
      (system.store.commit (system.deliveries actor).userId resolved tx)
      { system.deliveries actor with position := position }) :
    Sound environment
      { (system.set actor position) with
        store := system.store.commit (system.deliveries actor).userId resolved tx } := by
  have moved_self : (system.set actor position).deliveries actor =
      { system.deliveries actor with position := position } := by simp [System.set]
  have moved_other {other : Fin n} (elsewhere : other ≠ actor) :
      (system.set actor position).deliveries other = system.deliveries other :=
    System.deliveries_put_of_ne _ _ elsewhere
  have waiting {other : Fin n} {paymentId : String}
      (waits : ((system.set actor position).deliveries other).position.pending =
        some paymentId) :
      other ≠ actor ∧ (system.deliveries other).position.pending = some paymentId := by
    rcases Decidable.em (other = actor) with rfl | elsewhere
    · rw [moved_self] at waits
      cases idle.symm.trans waits
    · rw [moved_other elsewhere] at waits
      exact ⟨elsewhere, waits⟩
  refine ⟨finished.once sound.atomic sound.once, finished.atomic sound.atomic, ?_, ?_, ?_⟩
  · intro other paymentId waits recorded
    obtain ⟨elsewhere, waits⟩ := waiting waits
    simp only [Store.eventIds, Store.commit, List.map_append, List.mem_append] at recorded
    rcases recorded with old | new
    · exact sound.fresh other paymentId waits old
    · obtain rfl : paymentId = resolved.payment.paymentId := by simpa [Resolved.event] using new
      exact sound.distinct actor other _ elsewhere.symm pending waits
  · intro first second paymentId different first_waits second_waits
    exact sound.distinct first second paymentId different (waiting first_waits).2
      (waiting second_waits).2
  · intro other
    rcases Decidable.em (other = actor) with rfl | elsewhere
    · rw [moved_self]
      exact standing
    · rw [moved_other elsewhere]
      exact (sound.standing other).mono fun _ granted => finished.granted_mono granted

theorem finish_sound (sound : Sound environment system) {actor : Fin n}
    (stepped : system.step environment (actor, .finish) = some after) :
    Sound environment after := by
  simp only [System.step] at stepped
  split at stepped
  next resolved expiresAt newId result tx snapshot todo counts stands =>
    cases stepped
    obtain ⟨accounted, positive, kind, rest⟩ := sound.at stands
    have pending : (system.deliveries actor).position.pending =
        some resolved.payment.paymentId := by
      rw [stands]
      rfl
    obtain ⟨-, rows, subscription⟩ := program_adds positive rest.done
    have finished : Finished system.store resolved expiresAt newId tx :=
      ⟨rows, subscription, kind, sound.fresh actor _ pending⟩
    refine sound.commit finished pending rfl ?_
    refine Accounted.tail (Accounted.mono ?_ accounted) fun _ => ⟨_, _, finished.row_added, rfl⟩
    exact fun _ granted => finished.granted_mono granted
  next resolved expiresAt newId raised tx snapshot todo counts stands =>
    obtain ⟨-, positive, -, rest⟩ := sound.at stands
    obtain ⟨⟨granted, answered⟩, -⟩ := program_adds positive rest.done
    cases answered
  · cases stepped

theorem abort_sound (sound : Sound environment system) {actor : Fin n}
    (stepped : system.step environment (actor, .abort) = some after) :
    Sound environment after := by
  simp only [System.step] at stepped
  split at stepped
  · cases stepped
    exact sound.rest rfl rfl
  · cases stepped
    exact sound.rest rfl rfl
  · cases stepped

theorem step_sound {move : Fin n × Action} (sound : Sound environment system)
    (harmless : Harmless environment system move)
    (stepped : system.step environment move = some after) : Sound environment after := by
  obtain ⟨actor, action⟩ := move
  cases action with
  | fetch first second now => exact fetch_sound sound harmless stepped
  | unavailable =>
      simp only [System.step] at stepped
      split at stepped
      · cases stepped
        exact sound.rest rfl rfl
      · cases stepped
  | next => exact next_sound sound harmless stepped
  | insert now newId => exact insert_sound sound harmless stepped
  | arrive => exact arrive_sound sound stepped
  | execute => exact execute_sound sound harmless stepped
  | finish => exact finish_sound sound stepped
  | abort => exact abort_sound sound stepped

end Steps

/-! ## Every interleaving -/

structure Opening (store : Store) : Prop where
  events : store.events = []
  writes : store.writes = []
  ungranted : ∀ paymentId, ¬ Granted store paymentId

section Runs

variable {n : Nat} {environment : Environment} {system : System n}

theorem sound_initial {users : Fin n → UserId} {store : Store} (opening : Opening store) :
    Sound environment (System.initial users store) where
  once :=
    { single := by
        intro user paymentId
        have none_held : (store.accounts user).ledger.filter (fun row =>
            row.idempotencyKey == grantKey paymentId) = [] := by
          rw [List.filter_eq_nil_iff]
          intro row present same
          exact opening.ungranted paymentId ⟨user, row, present, beq_iff_eq.mp same⟩
        simp only [System.initial, none_held]
        exact Nat.zero_le 1
      exclusive := by
        rintro user other paymentId - ⟨row, present, same⟩
        exact absurd ⟨user, row, present, same⟩ (opening.ungranted paymentId) }
  atomic :=
    { granted := fun paymentId granted => absurd granted (opening.ungranted paymentId)
      credited := by simp [System.initial, opening.events]
      changed := by simp [System.initial, opening.events]
      paid := by simp [System.initial, opening.writes] }
  fresh actor paymentId pending := by cases pending
  distinct actor other paymentId _ pending := by cases pending
  standing actor := trivial

theorem Sound.exactlyOnce (sound : Sound environment system) : ExactlyOnce environment system where
  once := sound.once
  atomic := sound.atomic
  served actor :=
    { complete := by
        intro outcome returned item present payment selects creditable
        obtain ⟨consistent, merged, merges, ahead⟩ := sound.at returned
        obtain ⟨kept, selected, same, kept_creditable⟩ :=
          consistent.represented merges present selects creditable
        rcases ahead kept selected kept_creditable with granted | behind
        · rwa [← same]
        · cases behind
      unhindered := fun failure raised => sound.at raised }

/-- In every interleaving of deliveries in which nothing of a payment makes its delivery raise or
hides it, crediting is exactly-once and atomic. -/
theorem delivered_exactly_once (environment : Environment) (users : Fin n → UserId) (store : Store)
    (opening : Opening store) (system : System n)
    (reached : Reachable (System.step environment) (Harmless environment)
      (System.initial users store) system) :
    ExactlyOnce environment system := by
  refine (reached.invariant (Sound environment) (sound_initial opening) ?_).exactlyOnce
  intro before move after sound harmless stepped
  exact step_sound sound harmless stepped

end Runs

/-! ## One payment in two lists -/

namespace Sample

def shop : Environment where
  str value := match value with
    | .str text => some text
    | _ => some ""
  lower := id
  strip := id
  fromisoformat text := if text = "2026-01-01T00:00:00+00:00" then some 0 else none
  paidStatuses := ["succeeded"]
  freshnessHours := 24
  tokenDocument := some (.obj [("100_tokens", .int 100)])
  productDocument := none
  subscriptionTokensGrant := 1000
  agentDebtReconcileEnabled := true
  storable text := !text.toList.contains '\x00'
  indexable key := decide (key.toList.length ≤ 600)

/-- The payment as the provider lists it with a status. -/
def item (status : String) : Fields :=
  [("payment_id", .str "first"), ("status", .str status),
    ("paid_at", .str "2026-01-01T00:00:00Z"),
    ("product", .obj [("code", .str "100_tokens"), ("payment_type", .str "one_time")])]

def empty : Store where
  events := []
  accounts _ := {}
  writes := []
  audit := []

theorem opening : Opening empty where
  events := rfl
  writes := rfl
  ungranted paymentId := by
    rintro ⟨user, row, present, -⟩
    cases present

def users : Fin 1 → UserId := fun _ => ⟨1⟩

/-- The steps of a delivery which credits one payment. -/
def actions : List (Fin 1 × Action) :=
  ([Action.fetch [item "succeeded"] [item "succeeded"] 0, .next, .insert 0 ⟨1⟩] ++
    (List.replicate 5 [Action.arrive, .execute]).flatten ++ [Action.finish, .next]).map
      fun action => (0, action)

/-- A delivery which finds the payment paid in both lists credits it once. -/
theorem delivered_exactly_once_first_payment :
    ∃ system : System 1, ExactlyOnce shop system ∧
      (system.store.accounts ⟨1⟩).ledger.length = 1 := by
  obtain ⟨system, reached, credited⟩ := reachable_of_any (System.step shop) (Harmless shop)
    (System.initial users empty)
    (fun system => (system.store.accounts ⟨1⟩).ledger.length == 1) actions (by decide)
  exact ⟨system, delivered_exactly_once shop users empty opening system reached,
    beq_iff_eq.mp credited⟩

theorem fetched_pending : System.fetched shop 0 ([item "pending"] ++ [item "succeeded"]) =
    .returned (.ignored "no_creditable_payment") := by
  have merges : mergePayments [] ([item "pending"] ++ [item "succeeded"]) =
      .ok [item "pending"] := by rfl
  have legible : Legible shop [item "pending"] := by decide
  have recent : ¬ cutoff shop 0 < firstInstant := by decide
  have selects : selectCreditablePayments shop 0 [item "pending"] = [] := by decide
  simp only [System.fetched, merges, legible, not_true_eq_false, recent, selects, if_false]

/-- The delivery which is shown both. -/
def shown : Delivery where
  userId := ⟨1⟩
  items := [item "pending"] ++ [item "succeeded"]
  position := .returned (.ignored "no_creditable_payment")

theorem step_shown : System.step shop (System.initial users empty)
    (0, .fetch [item "pending"] [item "succeeded"] 0) =
      some ((System.initial users empty).put 0 shown) := by
  simp only [System.step, System.initial, fetched_pending]
  rfl

/-- A delivery which finds the payment pending in the first list and paid in the second returns
without crediting it. -/
theorem paid_behind_pending :
    ∃ system : System 1, Reachable (System.step shop) (fun _ _ => True)
        (System.initial users empty) system ∧ ¬ ExactlyOnce shop system := by
  refine ⟨_, .next .start trivial step_shown, fun exactly => ?_⟩
  have served := exactly.served 0
  rw [System.deliveries_put_self] at served
  have granted := served.complete (.ignored "no_creditable_payment") rfl (item "succeeded")
    (by simp [shown]) ⟨"first", "100_tokens", "one_time", "succeeded", 0⟩ (by rfl)
    ⟨.tokens, 100, by rfl, by decide⟩
  obtain ⟨user, row, present, -⟩ := granted
  cases present

end Sample

end Hermes.Billing.CloudPayments
