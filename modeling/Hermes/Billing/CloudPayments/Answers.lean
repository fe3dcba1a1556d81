import Hermes.Billing.CloudPayments.Callback
import Hermes.Wallet.Admission

/-!
# Where the CloudPayments callback answers

Each stage of the callback is given the inputs it does not stumble over, in the order of the stages.
A payment meets the tables which the payments in front of it have left.
-/

namespace Hermes.Billing.CloudPayments.Callback

open Wallet (UserId TxId)
open JsonDecoder Encoding Jsonb

variable (host : Host) (environment : Environment)

/-! ## The condition -/

def Represented (value : Option Parsed) : Prop :=
  ∀ given, value = some given → (environment.str given).isSome = true

/-- The value is represented unless it counts as nothing. -/
def Readable (value : Option Parsed) : Prop :=
  ∀ given, value = some given → truthy given = true → (environment.str given).isSome = true

def Completed (fields : Fields) : Prop :=
  ∃ status operationType, normalized environment (Parsed.get? fields "Status") = .ok status ∧
    normalized environment (Parsed.get? fields "OperationType") = .ok operationType ∧
    parseGate status operationType = true

structure Triggers (fields : Fields) : Prop where
  status : Readable environment (Parsed.get? fields "Status")
  operationType : Readable environment (Parsed.get? fields "OperationType")
  data : Completed environment fields → ∀ text, Parsed.get? fields "Data" = some (.str text) →
    host.loadsText text ≠ .error .recursion

/-- The content of an answer is not nested too deep. -/
def Shallow (answer : Answer) : Prop :=
  ∀ bytes, answer = .content bytes → host.loads bytes ≠ .error .recursion

/-- The payment ids of the items have hashes. -/
def Hashable (items : List Fields) : Prop :=
  ∀ item ∈ items, ∃ key, paymentKey item = .ok key

/-- The lists of the provider are read, and the window of fresh payments begins no earlier than the
calendar. -/
structure Listable (answers : UserId → Answer) (now : Instant) (userId other : UserId) : Prop where
  first : Shallow host (answers userId)
  second : other ≠ userId → (∃ items, listPayments host (answers userId) = .ok items) →
    Shallow host (answers other)
  hashable : ∀ items, listBoth host answers userId other = .ok items → Hashable items
  statuses : ∀ items, listPaymentsBoth host answers userId other = .ok items →
    ∀ item ∈ items, Represented environment (Parsed.get? item "status")
  window : (∃ items, listPaymentsBoth host answers userId other = .ok items) →
    firstInstant ≤ cutoff environment now

/-- A payment which is not recorded yet is credited. -/
structure Creditable (user : UserId) (reading : Reading) (store : Store)
    (payment : CreditablePayment) (kind : Kind) (credits : Int) : Prop where
  key : host.indexable payment.stored.paymentId = true
  expiry : (expiry environment reading.now payment kind).isSome = true
  grantKey : host.indexable (grantKey payment.stored.paymentId) = true
  admitted : Wallet.CreditAdmitted (context environment user)
    (Resolved.request ⟨payment.stored, kind, credits⟩ reading.newId) (store.accounts user)

/-- The database takes what the statements for a payment bring to it. -/
structure Acceptable (user : UserId) (reading : Reading) (store : Store)
    (payment : CreditablePayment) (kind : Kind) (credits : Int) : Prop where
  paymentId : storableText payment.paymentId = true
  productCode : storableText payment.productCode = true
  payload : host.Persists (payment.sanitized kind)
  credit : payment.stored.paymentId ∉ store.eventIds →
    Creditable host environment user reading store payment kind credits

def applied (user : UserId) (reading : Reading) (store : Store) (payment : CreditablePayment)
    (kind : Kind) (credits : Int) : Store :=
  let resolved : Resolved := ⟨payment.stored, kind, credits⟩
  if resolved.payment.paymentId ∈ store.eventIds then store
  else
    commit store user resolved ((expiry environment reading.now payment kind).getD none)
      ((store.accounts user).granted (context environment user) (resolved.request reading.newId))

/-- Each payment is skipped or acceptable to the tables which the earlier ones leave. -/
def AllAcceptable (user : UserId) : (Nat → Reading) → Store → List CreditablePayment → Prop
  | _, _, [] => True
  | readings, store, payment :: later =>
      let rest := fun turn => readings (turn + 1)
      match resolvePayment environment payment with
      | none => AllAcceptable user rest store later
      | some (kind, credits) => (readings 0).lost = false →
          Acceptable host environment user (readings 0) store payment kind credits ∧
            AllAcceptable user rest
              (applied environment user (readings 0) store payment kind credits) later

/-- The identifier of a trigger leads to a user whose payments are applied. -/
structure Reconcilable (store : Store) (delivery : Delivery) (deviceId user : UserId) : Prop where
  listable : Listable host environment delivery.answers delivery.now user deviceId
  payments : ∀ payments, creditable host environment delivery user deviceId = .ok payments →
    AllAcceptable host environment user delivery.readings store payments

/-- No stage of the callback stumbles over the body or over the provider's lists. -/
structure Harmless (store : Store) (delivery : Delivery) : Prop where
  decodes : host.loads delivery.raw ≠ .error .recursion
  triggers : ∀ fields, host.loads delivery.raw = .ok (.obj fields) →
    Triggers host environment fields
  reconcilable : ∀ fields deviceId, host.loads delivery.raw = .ok (.obj fields) →
    trigger host environment fields = .ok (.ok deviceId) → delivery.lost = false →
    ∀ user, environment.resolveUser deviceId = some user →
      Reconcilable host environment store delivery deviceId user

/-- An outcome instead of an exception, and for a body which cannot be decoded the outcome
`ignored`. -/
def Answered (raw : List UInt8) : Except Raised WebhookOutcome → Prop
  | .ok outcome => (∀ value, host.loads raw ≠ .ok value) → ∃ reason, outcome = .ignored reason
  | .error raised => raised.external = true

/-! ## Where it answers -/

section Answers

variable {host : Host} {environment : Environment} {fields : Fields} {value : Option Parsed}
  {answers : UserId → Answer} {userId other : UserId} {seen : List Key} {items : List Fields}

theorem answers_toStr_iff {given : Parsed} :
    Answers (toStr environment given) ↔ (environment.str given).isSome = true := by
  rw [toStr]
  cases environment.str given with
  | some text => exact iff_of_true (answers_ok text) rfl
  | none => exact iff_of_false (fun answers => by cases answers _ rfl) (by simp)

theorem internal_normalized : Internal (normalized environment value) := by
  intro raised failed
  unfold normalized toStr at failed
  repeat' split at failed
  all_goals
    cases failed
    try rfl

theorem answers_normalized_iff :
    Answers (normalized environment value) ↔ Readable environment value := by
  cases value with
  | none => exact iff_of_true (answers_ok _) fun given absent => by cases absent
  | some value =>
      simp only [normalized]
      split
      next counts =>
        rw [answers_map_iff, answers_toStr_iff]
        constructor
        · rintro represented given ⟨⟩ -
          exact represented
        · exact fun readable => readable value rfl counts
      next nothing =>
        refine iff_of_true (answers_ok _) ?_
        rintro given ⟨⟩ counts
        exact absurd counts nothing

theorem answers_parseData_iff :
    Answers (parseData host fields) ↔ ∀ text, Parsed.get? fields "Data" = some (.str text) →
      host.loadsText text ≠ .error .recursion := by
  rw [parseData]
  split
  next data read =>
    exact iff_of_true (answers_ok _) fun text found => by cases read.symm.trans found
  next raw read =>
    split
    next deep =>
      refine iff_of_false (fun answers => by cases answers _ rfl) fun shallow => ?_
      exact shallow raw read deep
    next data decoded =>
      refine iff_of_true (answers_ok _) fun text found => ?_
      cases read.symm.trans found
      simp [decoded]
    next shallow other =>
      refine iff_of_true (answers_ok _) fun text found => ?_
      cases read.symm.trans found
      exact shallow
  next unread other =>
    exact iff_of_true (answers_ok _) fun text found => absurd found (other text)

theorem answers_trigger_iff :
    Answers (trigger host environment fields) ↔ Triggers host environment fields := by
  simp only [trigger, answers_bind_iff, answers_normalized_iff]
  constructor
  · rintro ⟨status_readable, rest⟩
    obtain ⟨status, status_read⟩ :=
      internal_normalized.answers_iff.mp (answers_normalized_iff.mpr status_readable)
    obtain ⟨type_readable, -⟩ := rest status status_read
    refine ⟨status_readable, type_readable, ?_⟩
    rintro ⟨status, operationType, status_read, type_read, completed⟩
    have gated := (rest status status_read).2 operationType type_read
    rw [if_pos completed, answers_bind_iff] at gated
    exact answers_parseData_iff.mp gated.1
  · intro triggers
    refine ⟨triggers.status, fun status status_read => ⟨triggers.operationType, ?_⟩⟩
    intro operationType type_read
    split
    next completed =>
      rw [answers_bind_iff]
      have data := triggers.data ⟨status, operationType, status_read, type_read, completed⟩
      refine ⟨answers_parseData_iff.mpr data, fun data _ => ?_⟩
      split
      · exact answers_ok _
      · exact answers_ok _
    · exact answers_ok _

theorem answers_listPayments_iff {answer : Answer} :
    Answers (listPayments host answer) ↔ Shallow host answer := by
  have outside : Answers (.error .unavailable : Except Raised (List Fields)) := by
    rintro raised ⟨⟩
    rfl
  cases answer with
  | missing => exact iff_of_true (answers_ok _) fun bytes other => by cases other
  | failed => exact iff_of_true outside fun bytes other => by cases other
  | content bytes =>
      have shallow_iff : Shallow host (.content bytes) ↔ host.loads bytes ≠ .error .recursion :=
        ⟨fun shallow => shallow bytes rfl, fun shallow _ same => by cases same; exact shallow⟩
      rw [shallow_iff, listPayments]
      split
      next deep => exact iff_of_false (fun answers => by cases answers _ rfl) fun all => all deep
      next body decoded =>
        refine iff_of_true ?_ (by simp [decoded])
        split
        · exact answers_ok _
        · exact outside
      next shallow other => exact iff_of_true outside shallow

theorem answers_listBoth_iff :
    Answers (listBoth host answers userId other) ↔ Shallow host (answers userId) ∧
      (other ≠ userId → (∃ items, listPayments host (answers userId) = .ok items) →
        Shallow host (answers other)) := by
  simp only [listBoth, answers_bind_iff, answers_listPayments_iff]
  refine and_congr_right fun _ => ?_
  rcases Decidable.em (other = userId) with same | distinct
  · simp only [same, if_true]
    exact iff_of_true (fun items _ => answers_ok (items ++ [])) fun absent => absurd rfl absent
  · simp only [distinct, if_false, answers_bind_iff, answers_listPayments_iff]
    constructor
    · rintro both - ⟨items, listed⟩
      exact (both items listed).1
    · exact fun second items listed => ⟨second distinct ⟨items, listed⟩, fun _ _ => answers_ok _⟩

theorem internal_paymentKey (item : Fields) : Internal (paymentKey item) := by
  intro raised failed
  unfold paymentKey at failed
  split at failed
  all_goals
    cases failed
    try rfl

theorem answers_mergePayments_iff :
    Answers (mergePayments seen items) ↔ Hashable items := by
  induction items generalizing seen with
  | nil => exact iff_of_true (answers_ok _) (by simp [Hashable])
  | cons item later induction =>
      have kept (seen : List Key) : Answers (do return item :: (← mergePayments seen later)) ↔
          Hashable later := by
        rw [answers_bind_iff, induction]
        exact and_iff_left fun _ _ => answers_ok _
      rw [mergePayments, answers_bind_iff, (internal_paymentKey item).answers_iff, Hashable,
        List.forall_mem_cons, ← Hashable]
      refine and_congr_right fun hashed => ?_
      obtain ⟨key, keyed⟩ := hashed
      constructor
      · intro merges
        have merged := merges key keyed
        cases key with
        | none => exact (kept seen).mp merged
        | some key =>
            simp only at merged
            split at merged
            · exact induction.mp merged
            · exact (kept (key :: seen)).mp merged
      · intro hashable key _
        cases key with
        | none => exact (kept seen).mpr hashable
        | some key =>
            simp only
            split
            · exact induction.mpr hashable
            · exact (kept (key :: seen)).mpr hashable

theorem answers_paymentStatuses_iff :
    Answers (paymentStatuses environment items) ↔
      ∀ item ∈ items, Represented environment (Parsed.get? item "status") := by
  induction items with
  | nil => exact iff_of_true (answers_ok _) (by simp)
  | cons item later induction =>
      rw [paymentStatuses, answers_bind_iff, List.forall_mem_cons, ← induction]
      cases read : Parsed.get? item "status" with
      | none =>
          refine and_congr (iff_of_true (answers_ok _) fun given absent => by cases absent) ?_
          exact ⟨fun rest => rest [] rfl, fun rest _ _ => rest⟩
      | some status =>
          have represented : Represented environment (some status) ↔
              (environment.str status).isSome = true :=
            ⟨fun all => all status rfl, fun found given same => by cases same; exact found⟩
          rw [Option.elim_some, answers_toStr_iff, represented]
          refine and_congr_right fun found => ?_
          obtain ⟨text, texted⟩ := Option.isSome_iff_exists.mp found
          exact ⟨fun rest => rest text (by rw [toStr, texted]), fun rest _ _ => rest⟩

theorem paymentStatuses_ok
    (represented : ∀ item ∈ items, Represented environment (Parsed.get? item "status")) :
    paymentStatuses environment items = .ok () := by
  induction items with
  | nil => rfl
  | cons item later induction =>
      rw [List.forall_mem_cons] at represented
      rw [paymentStatuses, induction represented.2]
      cases read : Parsed.get? item "status" with
      | none => rfl
      | some status =>
          obtain ⟨text, texted⟩ := Option.isSome_iff_exists.mp (represented.1 status read)
          simp only [Option.elim_some, toStr, texted]
          rfl

theorem answers_listPaymentsBoth_iff :
    Answers (listPaymentsBoth host answers userId other) ↔
      (Shallow host (answers userId) ∧
        (other ≠ userId → (∃ items, listPayments host (answers userId) = .ok items) →
          Shallow host (answers other))) ∧
      ∀ items, listBoth host answers userId other = .ok items → Hashable items := by
  simp only [listPaymentsBoth, answers_bind_iff, answers_listBoth_iff, answers_mergePayments_iff]

theorem selectAll_ok (now : Instant)
    (represented : ∀ item ∈ items, Represented environment (Parsed.get? item "status")) :
    ∃ payments, selectAll environment now items = .ok payments := by
  induction items with
  | nil => exact ⟨[], rfl⟩
  | cons item later induction =>
      rw [List.forall_mem_cons] at represented
      have readable : Readable environment (Parsed.get? item "status") :=
        fun given found _ => represented.1 given found
      obtain ⟨status, read⟩ :=
        internal_normalized.answers_iff.mp (answers_normalized_iff.mpr readable)
      obtain ⟨others, selected⟩ := induction represented.2
      exact ⟨_, by rw [selectAll, read, selected]; rfl⟩

/-- With them the selection answers where its window begins in the calendar. -/
theorem answers_selectCreditablePayments_iff {now : Instant}
    (represented : ∀ item ∈ items, Represented environment (Parsed.get? item "status")) :
    Answers (selectCreditablePayments environment now items) ↔
      firstInstant ≤ cutoff environment now := by
  rw [selectCreditablePayments]
  split
  next early => exact iff_of_false (fun answers => by cases answers _ rfl) (not_le.mpr early)
  next within =>
    obtain ⟨payments, selected⟩ := selectAll_ok now represented
    rw [selected]
    exact iff_of_true (answers_ok payments) (not_lt.mp within)

theorem answers_creditable_iff {delivery : Delivery} :
    Answers (creditable host environment delivery userId other) ↔
      Listable host environment delivery.answers delivery.now userId other := by
  simp only [creditable, answers_bind_iff, answers_listPaymentsBoth_iff,
    answers_paymentStatuses_iff]
  constructor
  · rintro ⟨⟨⟨first, second⟩, hashable⟩, rest⟩
    refine ⟨first, second, hashable, fun items listed => (rest items listed).1, ?_⟩
    rintro ⟨items, listed⟩
    obtain ⟨represented, selects⟩ := rest items listed
    exact (answers_selectCreditablePayments_iff represented).mp
      (selects () (paymentStatuses_ok represented))
  · intro listable
    refine ⟨⟨⟨listable.first, listable.second⟩, listable.hashable⟩, fun items listed => ?_⟩
    have represented := listable.statuses items listed
    refine ⟨represented, fun _ _ => ?_⟩
    exact (answers_selectCreditablePayments_iff represented).mpr (listable.window ⟨items, listed⟩)

end Answers

section Payments

variable {host : Host} {environment : Environment} {user : UserId} {reading : Reading}
  {store after : Store} {payment : CreditablePayment} {kind : Kind} {credits : Int}
  {credited : Bool}

/-- The wallet makes the credit of a payment where it is admitted, and leaves what it is to
leave. -/
theorem grant_iff {resolved : Resolved} {newId : TxId} {account : Wallet.Account} :
    (Wallet.CreditAdmitted (context environment user) (resolved.request newId) account →
      grant environment user resolved newId account =
        .ok (account.granted (context environment user) (resolved.request newId))) ∧
    (∀ left, grant environment user resolved newId account = .ok left →
      Wallet.CreditAdmitted (context environment user) (resolved.request newId) account) := by
  have granted :=
    Wallet.Call.run_grant_iff (context environment user) (resolved.request newId) account
  constructor
  · intro admitted
    obtain ⟨result, ran⟩ := granted.1 admitted
    simp only [grant, ran]
  · intro left made
    simp only [grant] at made
    split at made
    next result account ran => exact granted.2 result account ran
    · cases made

theorem applyResolved_of_acceptable
    (acceptable : Acceptable host environment user reading store payment kind credits) :
    ∃ credited, applyResolved host environment user reading store payment kind credits =
      .ok (credited, applied environment user reading store payment kind credits) := by
  rcases Decidable.em (payment.stored.paymentId ∈ store.eventIds) with recorded | fresh
  · refine ⟨false, ?_⟩
    simp only [applyResolved, except_seq_ok_iff, insist_ok_iff, sendText_ok_iff,
      Host.castJsonb_ok_iff]
    refine ⟨acceptable.paymentId, acceptable.productCode, acceptable.payload, ?_⟩
    simp only [applied, recorded, if_true]
    rfl
  · have creditable := acceptable.credit fresh
    obtain ⟨expiresAt, found⟩ := Option.isSome_iff_exists.mp creditable.expiry
    refine ⟨true, ?_⟩
    simp only [applyResolved, except_seq_ok_iff, insist_ok_iff, sendText_ok_iff,
      Host.castJsonb_ok_iff]
    refine ⟨acceptable.paymentId, acceptable.productCode, acceptable.payload, ?_⟩
    simp only [applied, fresh, if_false, found, except_seq_ok_iff, insist_ok_iff,
      Host.enterKey_ok_iff]
    refine ⟨creditable.key, creditable.grantKey, ?_⟩
    rw [grant_iff.1 creditable.admitted]
    rfl

theorem acceptable_of_applyResolved
    (ran : applyResolved host environment user reading store payment kind credits =
      .ok (credited, after)) :
    Acceptable host environment user reading store payment kind credits := by
  simp only [applyResolved, except_seq_ok_iff, insist_ok_iff, sendText_ok_iff,
    Host.castJsonb_ok_iff] at ran
  obtain ⟨paymentId, productCode, payload, ran⟩ := ran
  refine ⟨paymentId, productCode, payload, fun fresh => ?_⟩
  rw [if_neg fresh] at ran
  simp only [except_seq_ok_iff, insist_ok_iff, Host.enterKey_ok_iff] at ran
  obtain ⟨key, ran⟩ := ran
  split at ran
  · cases ran
  next expiresAt found =>
    simp only [except_seq_ok_iff, insist_ok_iff, Host.enterKey_ok_iff] at ran
    obtain ⟨grantKey, ran⟩ := ran
    obtain ⟨account, made, -⟩ := except_bind_eq_ok ran
    exact ⟨key, by rw [found]; rfl, grantKey, grant_iff.2 account made⟩

theorem internal_applyResolved :
    Internal (applyResolved host environment user reading store payment kind credits) := by
  have grants (resolved : Resolved) (newId : TxId) (account : Wallet.Account) :
      Internal (grant environment user resolved newId account) := by
    intro raised failed
    rw [grant] at failed
    split at failed
    · cases failed
    · cases failed
      rfl
  refine .bind (internal_insist _) fun _ => .bind (internal_insist _) fun _ =>
    .bind (internal_insist _) fun _ => .ite (.ok _) (.bind (internal_insist _) fun _ => ?_)
  split
  · rintro raised ⟨⟩
    rfl
  · exact .bind (internal_insist _) fun _ => .bind (grants _ _ _) fun _ => .ok _

/-- The loop answers where each payment is skipped or acceptable in its turn. -/
theorem answers_applyPayments_iff {readings : Nat → Reading} {counts : Counts}
    {payments : List CreditablePayment} :
    Answers (applyPayments host environment user readings counts store payments).1 ↔
      AllAcceptable host environment user readings store payments := by
  induction payments generalizing readings counts store with
  | nil => exact iff_of_true (answers_ok _) trivial
  | cons payment later induction =>
      rw [applyPayments, AllAcceptable]
      cases resolved : resolvePayment environment payment with
      | none => exact induction
      | some bought =>
          obtain ⟨kind, credits⟩ := bought
          cases lost : (readings 0).lost with
          | true =>
              simp only [if_true]
              refine iff_of_true ?_ fun kept => by cases kept
              rintro raised ⟨⟩
              rfl
          | false =>
              simp only [Bool.false_eq_true, if_false, forall_const]
              cases ran :
                  applyResolved host environment user (readings 0) store payment kind credits with
              | error raised =>
                  refine iff_of_false (fun answers => ?_) fun all => ?_
                  · cases (internal_applyResolved raised ran).symm.trans (answers raised rfl)
                  · obtain ⟨credited, applies⟩ := applyResolved_of_acceptable all.1
                    cases ran.symm.trans applies
              | ok result =>
                  obtain ⟨credited, after⟩ := result
                  have acceptable := acceptable_of_applyResolved ran
                  obtain ⟨_, applies⟩ := applyResolved_of_acceptable acceptable
                  cases ran.symm.trans applies
                  rw [and_iff_right acceptable]
                  cases credited with
                  | true => exact induction
                  | false => exact induction

end Payments

section Service

variable {host : Host} {environment : Environment} {store : Store} {delivery : Delivery}
  {deviceId : UserId} {fields : Fields}

theorem answers_reconcile_iff :
    Answers (reconcile host environment store delivery deviceId).1 ↔ (delivery.lost = false →
      ∀ user, environment.resolveUser deviceId = some user →
        Reconcilable host environment store delivery deviceId user) := by
  rw [reconcile]
  split
  next lost =>
    refine iff_of_true ?_ fun kept => by cases lost.symm.trans kept
    rintro raised ⟨⟩
    rfl
  next kept =>
    rw [forall_prop_of_true (by simpa using kept)]
    split
    next unknown =>
      refine iff_of_true (answers_ok _) fun user found => ?_
      cases unknown.symm.trans found
    next user resolved =>
      have only : (∀ user', environment.resolveUser deviceId = some user' →
          Reconcilable host environment store delivery deviceId user') ↔
          Reconcilable host environment store delivery deviceId user := by
        constructor
        · exact fun all => all user resolved
        · intro reconcilable other found
          cases resolved.symm.trans found
          exact reconcilable
      rw [only]
      split
      next raised stopped =>
        have stopped_iff := @answers_creditable_iff host environment user deviceId delivery
        rw [stopped] at stopped_iff
        constructor
        · intro answers
          refine ⟨stopped_iff.mp fun other failed => answers other (by cases failed; rfl), ?_⟩
          intro payments selected
          cases stopped.symm.trans selected
        · intro reconcilable other failed
          cases failed
          exact stopped_iff.mpr reconcilable.listable raised rfl
      next none_selected =>
        have listable := answers_creditable_iff.mp (none_selected ▸ answers_ok [])
        refine iff_of_true (answers_ok _) ⟨listable, fun payments selected => ?_⟩
        cases none_selected.symm.trans selected
        trivial
      next payments nonempty selected =>
        have listable := answers_creditable_iff.mp (selected ▸ answers_ok payments)
        have counted := @answers_map_iff _ _
          (applyPayments host environment user delivery.readings {} store payments).1
          Counts.outcome
        refine (counted.trans answers_applyPayments_iff).trans ⟨fun all => ⟨listable, ?_⟩, ?_⟩
        · intro others found
          cases selected.symm.trans found
          exact all
        · exact fun reconcilable => reconcilable.payments payments selected

theorem answered_iff {value : Parsed} {result : Except Raised WebhookOutcome}
    (decoded : host.loads delivery.raw = .ok value) :
    Answered host delivery.raw result ↔ Answers result := by
  cases result with
  | ok outcome =>
      exact iff_of_true (fun undecoded => absurd decoded (undecoded value)) (answers_ok outcome)
  | error raised =>
      constructor
      · rintro external other ⟨⟩
        exact external
      · exact fun answers => answers raised rfl

/-- Without an object there is nothing to stumble over. -/
theorem harmless_of_no_object (shallow : host.loads delivery.raw ≠ .error .recursion)
    (absent : ∀ fields, host.loads delivery.raw ≠ .ok (.obj fields)) :
    Harmless host environment store delivery where
  decodes := shallow
  triggers fields decoded := absurd decoded (absent fields)
  reconcilable fields _ decoded := absurd decoded (absent fields)

theorem harmless_iff (decoded : host.loads delivery.raw = .ok (.obj fields)) :
    Harmless host environment store delivery ↔ Triggers host environment fields ∧
      ∀ deviceId, trigger host environment fields = .ok (.ok deviceId) → delivery.lost = false →
        ∀ user, environment.resolveUser deviceId = some user →
          Reconcilable host environment store delivery deviceId user := by
  constructor
  · exact fun harmless => ⟨harmless.triggers fields decoded,
      fun deviceId => harmless.reconcilable fields deviceId decoded⟩
  · rintro ⟨triggers, reconcilable⟩
    refine ⟨by simp [decoded], ?_, ?_⟩
    · intro other found
      cases decoded.symm.trans found
      exact triggers
    · intro other deviceId found
      cases decoded.symm.trans found
      exact reconcilable deviceId

/-- The callback answers where the body and the lists are harmless, unless there is no token. -/
theorem handle_answered_iff :
    Answered host delivery.raw (handle host environment store delivery).1 ↔
      (environment.apiToken ≠ "" → Harmless host environment store delivery) := by
  rw [handle]
  split
  next unset => exact iff_of_true rfl fun token => absurd unset token
  next token =>
    rw [forall_prop_of_true token]
    split
    next empty =>
      have nothing : host.loads delivery.raw = .error .value := by rw [empty, Host.loads_nil]
      exact iff_of_true (fun _ => ⟨_, rfl⟩)
        (harmless_of_no_object (by simp [nothing]) (by simp [nothing]))
    next nonempty =>
      split
      next deep =>
        exact iff_of_false (fun external => by cases external) fun harmless => harmless.decodes deep
      next invalid =>
        exact iff_of_true (fun _ => ⟨_, rfl⟩)
          (harmless_of_no_object (by simp [invalid]) (by simp [invalid]))
      next fields decoded =>
        rw [answered_iff decoded, harmless_iff decoded, ← answers_trigger_iff]
        split
        next raised stopped =>
          rw [stopped]
          refine ⟨fun answers => ⟨fun other failed => answers other (by cases failed; rfl), ?_⟩, ?_⟩
          · intro deviceId triggered
            cases triggered
          · rintro ⟨answers, -⟩ other failed
            cases failed
            exact answers raised rfl
        next reason ignored =>
          refine iff_of_true (answers_ok _) ⟨ignored ▸ answers_ok _, fun deviceId triggered => ?_⟩
          cases ignored.symm.trans triggered
        next deviceId triggered =>
          rw [answers_reconcile_iff]
          refine ⟨fun reconcilable => ⟨triggered ▸ answers_ok _, ?_⟩,
            fun both => both.2 _ triggered⟩
          intro other found
          cases triggered.symm.trans found
          exact reconcilable
      next value other decoded =>
        refine iff_of_true (fun _ => ⟨_, rfl⟩) (harmless_of_no_object (by simp [decoded]) ?_)
        exact fun fields found => other fields (Except.ok.inj (decoded.symm.trans found))

end Service

end Hermes.Billing.CloudPayments.Callback
