import Mathlib.Data.Fin.Basic
import Hermes.Billing.CloudPayments.Reconcile
import Hermes.Library.Transition
import Hermes.Wallet.Amid

/-!
# CloudPayments deliveries

A delivery fetches the provider's lists and credits each selected payment in a transaction of its
own: the event row which keeps the payment id, the subscription row, the wallet.  Any number of
deliveries run at once, one statement at a time; an `INSERT` of an event waits for another
transaction which has inserted the same id.
-/

namespace Hermes.Billing.CloudPayments

open Wallet (UserId Account GrantRequest GrantResult LedgerTransaction TxId WalletError DbError Sql
  World)
open Program (call)

/-! ## One payment -/

/-- A `cloudpayments_webhook_events` row. -/
structure EventRow where
  transactionId : String
  userId : UserId
  productId : String
  kind : Kind
  deriving DecidableEq, Repr

/-- A write of the subscription row, with the payment it was made for. -/
structure SubscriptionWrite where
  paymentId : String
  userId : UserId
  row : SubscriptionRow
  deriving DecidableEq, Repr

/-- The payload of a `cloudpayments_payment` audit row. -/
structure PaymentAudit where
  payment : CreditablePayment
  kind : Kind
  expiresAt : Option Instant
  creditsGranted : Int
  deriving DecidableEq, Repr

/-- The statements which follow the event row in the transaction of a payment.  Those without an
answer of their own name one. -/
inductive Stmt (β : Type) : Type
  | upsertSubscription (plan : String) (expiresAt : Instant) (answer : β)
  | wallet (stmt : Sql β)
  | insertAudit (row : PaymentAudit) (answer : β)

inductive Refusal
  /-- A text with a NUL or a surrogate. -/
  | text
  /-- A key for which an index entry has no room. -/
  | key
  | statement (failure : DbError)
  deriving DecidableEq, Repr

/-- The uncommitted work of such a transaction. -/
structure PaymentTx where
  subscription : Option SubscriptionRow := none
  wallet : Wallet.Tx := {}
  audit : List PaymentAudit := []

def Stmt.exec (environment : Environment) (world : World) :
    Program.Semantics Stmt Refusal PaymentTx :=
  fun _ stmt tx =>
    match stmt with
    | .upsertSubscription plan expiresAt answer =>
        .ok (answer, { tx with subscription := some (upsertPaid plan expiresAt) })
    | .wallet stmt =>
        match world.exec _ stmt tx.wallet with
        | .error failure => .error (.statement failure)
        | .ok (answer, after) =>
            if after.work.rows.all fun row => environment.indexable row.idempotencyKey then
              .ok (answer, { tx with wallet := after })
            else .error .key
    | .insertAudit row answer => .ok (answer, { tx with audit := tx.audit ++ [row] })

/-- A resolved payment on its way into the tables. -/
structure Resolved where
  payment : CreditablePayment
  kind : Kind
  credits : Int
  deriving DecidableEq, Repr

/-- The key under which a payment is credited. -/
def grantKey (paymentId : String) : String := "cp-txn:" ++ paymentId

namespace Resolved

variable (resolved : Resolved)

def event (user : UserId) : EventRow :=
  ⟨resolved.payment.paymentId, user, resolved.payment.productCode, resolved.kind⟩

def request (newId : TxId) : GrantRequest where
  amount := resolved.credits
  idempotencyKey := grantKey resolved.payment.paymentId
  metadata := {}
  reason := match resolved.kind with
    | .tokens => "cloudpayments_tokens"
    | .subscription => "cloudpayments_subscription"
  newId := newId

/-- The database takes the texts of the event row. -/
def storable (environment : Environment) : Bool :=
  [resolved.payment.paymentId, resolved.payment.productCode, resolved.payment.status].all
    environment.storable

/-- The expiry a subscription is paid until; `none` is an `OverflowError`. -/
def expiry (environment : Environment) (now : Instant) : Option (Option Instant) :=
  match resolved.kind with
  | .tokens => some none
  | .subscription =>
      (computeExpiry now
        (inferIntervalUnitFromCode environment.lower resolved.payment.productCode) 1).map some

/-- `_apply_payment` behind the event row. -/
def program (environment : Environment) (user : UserId) (expiresAt : Option Instant)
    (newId : TxId) : Program Stmt (Except WalletError GrantResult) := do
  match expiresAt with
  | some moment => call (.upsertSubscription resolved.payment.productCode moment ())
  | none => pure ()
  let granted ← (Wallet.grant ⟨user, fun _ => none, environment.agentDebtReconcileEnabled⟩
    (resolved.request newId)).translate fun _ stmt => Stmt.wallet stmt
  match granted with
  | .error raised => return .error raised
  | .ok result =>
      call (.insertAudit ⟨resolved.payment, resolved.kind, expiresAt, resolved.credits⟩ ())
      return .ok result

end Resolved

/-! ## Deliveries -/

structure Store where
  events : List EventRow
  accounts : UserId → Account
  writes : List SubscriptionWrite
  audit : List PaymentAudit

def Store.eventIds (store : Store) : List String := store.events.map (·.transactionId)

/-- `WebhookOutcome`. -/
inductive WebhookOutcome
  | applied
  | duplicate
  | ignored (reason : String)
  deriving DecidableEq, Repr

inductive Failure
  /-- The provider could not be asked. -/
  | unavailable
  /-- The database connection was lost or the transaction chosen as a deadlock victim. -/
  | lost
  /-- A payment id without a hash. -/
  | typeError
  /-- A status which nests too deep for `str`. -/
  | recursion
  /-- A cutoff before the first moment or an expiry beyond the last. -/
  | overflow
  | wallet (raised : WalletError)
  | rejected (refusal : Refusal)
  deriving DecidableEq, Repr

/-- How many payments a delivery has credited and skipped. -/
structure Counts where
  credited : Nat := 0
  skipped : Nat := 0
  deriving DecidableEq, Repr

inductive Position : Type 1
  | fetching
  | ready (todo : List CreditablePayment) (counts : Counts)
  | inserting (resolved : Resolved) (todo : List CreditablePayment) (counts : Counts)
  | applying (resolved : Resolved) (expiresAt : Option Instant) (newId : TxId)
      (program : Program Stmt (Except WalletError GrantResult)) (tx : PaymentTx)
      (snapshot : Option Account) (todo : List CreditablePayment) (counts : Counts)
  | returned (outcome : WebhookOutcome)
  | raised (failure : Failure)

/-- A delivery for a resolved user, with the lists it was given. -/
structure Delivery : Type 1 where
  userId : UserId
  now : Instant := 0
  items : List Fields := []
  position : Position := .fetching

/-- The tables and the deliveries around them. -/
structure System (n : Nat) : Type 1 where
  store : Store
  deliveries : Fin n → Delivery

inductive Action
  /-- The provider answers for both identifiers. -/
  | fetch (first second : List Fields) (now : Instant)
  | unavailable
  /-- The loop takes up its next payment, or ends. -/
  | next
  /-- The event row is inserted. -/
  | insert (now : Instant) (newId : TxId)
  | arrive
  | execute
  | finish
  | abort

/-- The outcome of a delivery after its loop. -/
def Counts.outcome (counts : Counts) : WebhookOutcome :=
  if 1 ≤ counts.credited then .applied
  else if 1 ≤ counts.skipped then .ignored "payment_skipped"
  else .duplicate

/-- The payment id a delivery has inserted and not yet committed. -/
def Position.pending : Position → Option String
  | .applying resolved .. => some resolved.payment.paymentId
  | _ => none

def Position.tx : Position → PaymentTx
  | .applying _ _ _ _ tx _ _ _ => tx
  | _ => {}

/-- The tables with the work of a payment committed. -/
def Store.commit (store : Store) (user : UserId)
    (resolved : Resolved) (tx : PaymentTx) : Store where
  events := store.events ++ [resolved.event user]
  accounts := Function.update store.accounts user (tx.wallet.work.onto (store.accounts user))
  writes := store.writes ++
    (tx.subscription.map fun row => ⟨resolved.payment.paymentId, user, row⟩).toList
  audit := store.audit ++ tx.audit

namespace System

variable {n : Nat}

def put (system : System n) (actor : Fin n) (delivery : Delivery) : System n :=
  { system with deliveries := Function.update system.deliveries actor delivery }

def set (system : System n) (actor : Fin n) (position : Position) : System n :=
  system.put actor { system.deliveries actor with position := position }

@[simp] theorem store_put (system : System n) (actor : Fin n) (delivery : Delivery) :
    (system.put actor delivery).store = system.store := rfl

@[simp] theorem deliveries_put_self (system : System n) (actor : Fin n) (delivery : Delivery) :
    (system.put actor delivery).deliveries actor = delivery := by
  simp [put]

theorem deliveries_put_of_ne (system : System n) {actor other : Fin n} (delivery : Delivery)
    (distinct : other ≠ actor) :
    (system.put actor delivery).deliveries other = system.deliveries other := by
  simp [put, distinct]

/-- Another delivery for the same user holds what a statement waits for. -/
def blocked {β : Type} (system : System n) (actor : Fin n) (world : World) (tx : PaymentTx) :
    Stmt β → Bool
  | .upsertSubscription _ _ _ =>
      (List.finRange n).any fun other =>
        other ≠ actor && (system.deliveries other).userId = (system.deliveries actor).userId &&
          (system.deliveries other).position.tx.subscription.isSome
  | .wallet stmt =>
      (List.finRange n).any fun other =>
        other ≠ actor && (system.deliveries other).userId = (system.deliveries actor).userId &&
          (stmt.locksWallet world.snapshot world.committed tx.wallet &&
              (system.deliveries other).position.tx.wallet.work.wallet.isSome ||
            (system.deliveries other).position.tx.wallet.work.rows.any fun row =>
              stmt.locksKey world.committed tx.wallet == some row.idempotencyKey)
  | .insertAudit _ _ => false

variable (environment : Environment)

/-- Where a delivery stands with the lists it was given. -/
def fetched (now : Instant) (items : List Fields) : Position :=
  match mergePayments [] items with
  | .error () => .raised .typeError
  | .ok merged =>
      if ¬ Legible environment merged then .raised .recursion
      else if cutoff environment now < firstInstant then .raised .overflow
      else
        match selectCreditablePayments environment now merged with
        | [] => .returned (.ignored "no_creditable_payment")
        | todo => .ready todo {}

/-- One action of one delivery, if it is possible now. -/
def step (system : System n) : Fin n × Action → Option (System n)
  | (actor, .fetch first second now) =>
      match (system.deliveries actor).position with
      | .fetching =>
          some (system.put actor
            { system.deliveries actor with
              now := now
              items := first ++ second
              position := fetched environment now (first ++ second) })
      | _ => none
  | (actor, .unavailable) =>
      match (system.deliveries actor).position with
      | .fetching => some (system.set actor (.raised .unavailable))
      | _ => none
  | (actor, .next) =>
      match (system.deliveries actor).position with
      | .ready [] counts => some (system.set actor (.returned counts.outcome))
      | .ready (payment :: todo) counts =>
          match resolvePayment environment payment with
          | none =>
              some (system.set actor (.ready todo { counts with skipped := counts.skipped + 1 }))
          | some (kind, credits) =>
              some (system.set actor (.inserting ⟨payment, kind, credits⟩ todo counts))
      | _ => none
  | (actor, .insert now newId) =>
      match (system.deliveries actor).position with
      | .inserting resolved todo counts =>
          if resolved.storable environment = false then
            some (system.set actor (.raised (.rejected .text)))
          else if (List.finRange n).any fun other =>
              (system.deliveries other).position.pending == some resolved.payment.paymentId then
            none
          else if resolved.payment.paymentId ∈ system.store.eventIds then
            some (system.set actor (.ready todo counts))
          else if environment.indexable resolved.payment.paymentId = false then
            some (system.set actor (.raised (.rejected .key)))
          else
            match resolved.expiry environment now with
            | none => some (system.set actor (.raised .overflow))
            | some expiresAt =>
                some (system.set actor (.applying resolved expiresAt newId
                  (resolved.program environment (system.deliveries actor).userId expiresAt newId)
                  {} none todo counts))
      | _ => none
  | (actor, .arrive) =>
      match (system.deliveries actor).position with
      | .applying resolved expiresAt newId (.issue stmt next) tx none todo counts =>
          some (system.set actor (.applying resolved expiresAt newId (.issue stmt next) tx
            (some (system.store.accounts (system.deliveries actor).userId)) todo counts))
      | _ => none
  | (actor, .execute) =>
      match (system.deliveries actor).position with
      | .applying resolved expiresAt newId (.issue stmt next) tx (some snapshot) todo counts =>
          let world : World := ⟨snapshot, system.store.accounts (system.deliveries actor).userId⟩
          if system.blocked actor world tx stmt then none
          else
            match Stmt.exec environment world _ stmt tx with
            | .error refusal => some (system.set actor (.raised (.rejected refusal)))
            | .ok (answer, after) =>
                some (system.set actor
                  (.applying resolved expiresAt newId (next answer) after none todo counts))
      | _ => none
  | (actor, .finish) =>
      match (system.deliveries actor).position with
      | .applying resolved _ _ (.done (.ok _)) tx _ todo counts =>
          some
            { (system.set actor (.ready todo { counts with credited := counts.credited + 1 })) with
              store := system.store.commit (system.deliveries actor).userId resolved tx }
      | .applying _ _ _ (.done (.error raised)) _ _ _ _ =>
          some (system.set actor (.raised (.wallet raised)))
      | _ => none
  | (actor, .abort) =>
      match (system.deliveries actor).position with
      | .inserting .. | .applying .. => some (system.set actor (.raised .lost))
      | _ => none

/-- Every delivery is about to ask the provider. -/
def initial (users : Fin n → UserId) (store : Store) : System n where
  store := store
  deliveries actor := { userId := users actor }

end System

/-! ## Exactly once -/

def Granted (store : Store) (paymentId : String) : Prop :=
  ∃ user, ∃ row ∈ (store.accounts user).ledger, row.idempotencyKey = grantKey paymentId

structure Once (store : Store) : Prop where
  single : ∀ user paymentId, ((store.accounts user).ledger.filter fun row =>
    row.idempotencyKey == grantKey paymentId).length ≤ 1
  exclusive : ∀ user other paymentId, user ≠ other →
    (∃ row ∈ (store.accounts user).ledger, row.idempotencyKey = grantKey paymentId) →
      ∀ row ∈ (store.accounts other).ledger, row.idempotencyKey ≠ grantKey paymentId

/-- Event row, credit and subscription change of a payment are there together. -/
structure Atomic (store : Store) : Prop where
  granted : ∀ paymentId, Granted store paymentId → paymentId ∈ store.eventIds
  credited : ∀ event ∈ store.events, ∃ row ∈ (store.accounts event.userId).ledger,
    row.idempotencyKey = grantKey event.transactionId ∧ row.type = .credit
  changed : ∀ event ∈ store.events, event.kind = .subscription →
    ∃ write ∈ store.writes, write.paymentId = event.transactionId ∧ write.userId = event.userId
  paid : ∀ write ∈ store.writes, ∃ event ∈ store.events,
    event.transactionId = write.paymentId ∧ event.userId = write.userId ∧
      event.kind = .subscription

def Failure.external : Failure → Bool
  | .unavailable | .lost => true
  | _ => false

/-- What a delivery owes to the payments of its lists. -/
structure Served (environment : Environment) (store : Store) (delivery : Delivery) : Prop where
  complete : ∀ outcome, delivery.position = .returned outcome →
    ∀ item ∈ delivery.items, ∀ payment,
      selectPayment environment delivery.now item = some payment →
        Creditable environment payment → Granted store payment.paymentId
  unhindered : ∀ failure, delivery.position = .raised failure → failure.external = true

structure ExactlyOnce {n : Nat} (environment : Environment) (system : System n) : Prop where
  once : Once system.store
  atomic : Atomic system.store
  served : ∀ actor, Served environment system.store (system.deliveries actor)

/-- The next payment is skipped or worth something. -/
def Position.worthwhile (environment : Environment) : Position → Bool
  | .ready (payment :: _) _ =>
      (resolvePayment environment payment).all fun resolved => decide (0 < resolved.2)
  | _ => true

/-- The database takes the event row, and a payment which is new to it does not run beyond the last
moment. -/
def Position.recordable (environment : Environment) (store : Store) (now : Instant) :
    Position → Bool
  | .inserting resolved _ _ =>
      resolved.storable environment &&
        (decide (resolved.payment.paymentId ∈ store.eventIds) ||
          environment.indexable resolved.payment.paymentId &&
            (resolved.expiry environment now).isSome)
  | _ => true

/-- The database does not reject the next statement. -/
def Position.acceptable (environment : Environment) (committed : Account) : Position → Bool
  | .applying _ _ _ (.issue stmt _) tx (some snapshot) _ _ =>
      (Stmt.exec environment ⟨snapshot, committed⟩ _ stmt tx).isOk
  | _ => true

/-- Nothing of a payment makes its delivery raise or hides it. -/
def Harmless {n : Nat} (environment : Environment) (system : System n) : Fin n × Action → Prop
  | (_, .fetch first second now) =>
      Hashable (first ++ second) ∧ Legible environment (first ++ second) ∧
        firstInstant ≤ cutoff environment now ∧ Consistent environment now (first ++ second)
  | (actor, .next) => (system.deliveries actor).position.worthwhile environment = true
  | (actor, .insert now _) =>
      (system.deliveries actor).position.recordable environment system.store now = true
  | (actor, .execute) =>
      (system.deliveries actor).position.acceptable environment
        (system.store.accounts (system.deliveries actor).userId) = true
  | _ => True

instance {n : Nat} (environment : Environment) (system : System n) (move : Fin n × Action) :
    Decidable (Harmless environment system move) :=
  match move with
  | (_, .fetch _ _ _) => inferInstanceAs (Decidable (_ ∧ _ ∧ _ ∧ _))
  | (_, .next) => inferInstanceAs (Decidable (_ = true))
  | (_, .insert _ _) => inferInstanceAs (Decidable (_ = true))
  | (_, .execute) => inferInstanceAs (Decidable (_ = true))
  | (_, .unavailable) => isTrue trivial
  | (_, .arrive) => isTrue trivial
  | (_, .finish) => isTrue trivial
  | (_, .abort) => isTrue trivial

end Hermes.Billing.CloudPayments
