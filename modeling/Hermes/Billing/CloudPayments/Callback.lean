import Hermes.Billing.CloudPayments.Delivery
import Hermes.Billing.Intake
import Hermes.Wallet.Service

/-!
# What the CloudPayments callback raises

The posted body only triggers the reconciliation: it names a user, the provider is asked for the
payments of this user, and each of these goes into the database in a transaction of its own.  A text
is a list of code points here, as it comes from the decoder.
-/

namespace Hermes.Billing.CloudPayments.Callback

open Wallet (UserId TxId)
open JsonDecoder Encoding Jsonb

abbrev Fields := List (List Nat × Parsed)

/-- What the service uses besides its tables. -/
structure Environment where
  /-- `cloudpayments_api_token`. -/
  apiToken : String
  /-- `str` of a decoded value; `none` is a `RecursionError`. -/
  str : Parsed → Option (List Nat)
  /-- `str.lower`. -/
  lower : List Nat → List Nat
  /-- `uuid.UUID`; `none` is a `ValueError`. -/
  uuid : List Nat → Option UserId
  /-- `resolve_user`. -/
  resolveUser : UserId → Option UserId
  /-- `datetime.fromisoformat`, a moment without a zone taken as UTC. -/
  fromisoformat : List Nat → Option Instant
  /-- `cloudpayments_paid_statuses`. -/
  paidStatuses : List (List Nat)
  /-- `CLOUDPAYMENTS_PAYMENT_FRESHNESS_HOURS`. -/
  freshnessHours : Nat
  /-- `token_products`. -/
  tokenProducts : List (List Nat × Int)
  /-- `cloudpayments_product_tokens`. -/
  productTokens : List (List Nat × Int)
  /-- `CLOUDPAYMENTS_SUBSCRIPTION_TOKENS_GRANT`. -/
  subscriptionTokensGrant : Int
  /-- `AGENT_DEBT_RECONCILE_ENABLED`. -/
  agentDebtReconcileEnabled : Bool

/-- What the provider answers for one identifier. -/
inductive Answer
  /-- Status 404. -/
  | missing
  /-- No response, or another status which is no success. -/
  | failed
  | content (bytes : List UInt8)

structure Reading where
  now : Instant
  newId : TxId
  /-- The database fails. -/
  lost : Bool := false

structure Delivery where
  raw : List UInt8
  /-- The database fails before the provider is asked. -/
  lost : Bool := false
  answers : UserId → Answer
  now : Instant
  /-- The readings of the payments, in their order. -/
  readings : Nat → Reading

variable (host : Host) (environment : Environment)

/-! ## The trigger -/

def truthy : Parsed → Bool
  | .null => false
  | .bool value => value
  | .int value => value ≠ 0
  | .float value => value ≠ .finite 0
  | .str text => text ≠ []
  | .arr items => !items.isEmpty
  | .obj fields => !fields.isEmpty

/-- `str(value)`. -/
def toStr (value : Parsed) : Except Raised (List Nat) :=
  match environment.str value with
  | some text => .ok text
  | none => .error .recursion

/-- `str(value or "").strip().lower()`. -/
def normalized (value : Option Parsed) : Except Raised (List Nat) :=
  match value with
  | some value =>
      if truthy value then (fun text => environment.lower (strip text)) <$> toStr environment value
      else .ok (environment.lower [])
  | none => .ok (environment.lower [])

/-- `parse_gate`. -/
def parseGate (status operationType : List Nat) : Bool :=
  status == codes "completed" && operationType == codes "payment"

/-- `_parse_data`, and an empty object where it finds none. -/
def parseData (fields : Fields) : Except Raised Fields :=
  match Parsed.get? fields "Data" with
  | some (.obj data) => .ok data
  | some (.str raw) =>
      match host.loadsText raw with
      | .error .recursion => .error .recursion
      | .ok (.obj data) => .ok data
      | _ => .ok []
  | _ => .ok []

/-- `_first_str`: integers count as their texts. -/
def firstStr (candidates : List (Option Parsed)) : Option (List Nat) :=
  candidates.findSome? fun candidate =>
    match candidate with
    | some (.str text) => if text ≠ [] then some text else none
    | some (.int value) => some (codes (toString value))
    | _ => none

/-- `parse_user_id`. -/
def parseUserId (fields data : Fields) : Option UserId :=
  (firstStr [Parsed.get? fields "AccountId", Parsed.get? data "user_id"]).bind fun raw =>
    environment.uuid (environment.lower raw)

/-- The stages of `handle` up to the identifier; the inner error is the reason to ignore. -/
def trigger (fields : Fields) : Except Raised (Except String UserId) := do
  let status ← normalized environment (Parsed.get? fields "Status")
  let operationType ← normalized environment (Parsed.get? fields "OperationType")
  if parseGate status operationType then
    let data ← parseData host fields
    match parseUserId environment fields data with
    | none => return .error "invalid_account_id"
    | some deviceId => return .ok deviceId
  else return .error "not_a_completed_payment"

/-! ## The provider's lists -/

def objects (items : List Parsed) : List Fields :=
  items.filterMap fun item =>
    match item with
    | .obj fields => some fields
    | _ => none

/-- `list_payments`. -/
def listPayments : Answer → Except Raised (List Fields)
  | .missing => .ok []
  | .failed => .error .unavailable
  | .content bytes =>
      match host.loads bytes with
      | .error .recursion => .error .recursion
      | .ok (.obj body) =>
          match Parsed.get? body "data" with
          | some (.arr items) => .ok (objects items)
          | _ => .error .unavailable
      | _ => .error .unavailable

/-- A payment id as a member of a set: equal numbers are one member whatever their type, and the
decoder has a single `nan`. -/
inductive Key
  | str (text : List Nat)
  | number (value : ℚ)
  | infinite (negative : Bool)
  | nan
  deriving DecidableEq, Repr

def paymentKey (item : Fields) : Except Raised (Option Key) :=
  match Parsed.get? item "payment_id" with
  | none | some .null => .ok none
  | some (.str text) => .ok (some (.str text))
  | some (.bool value) => .ok (some (.number (if value then 1 else 0)))
  | some (.int value) => .ok (some (.number value))
  | some (.float (.finite value)) => .ok (some (.number value))
  | some (.float (.infinite negative)) => .ok (some (.infinite negative))
  | some (.float .nan) => .ok (some .nan)
  | some (.arr _) | some (.obj _) => .error .unhashable

/-- The loop of `_list_payments_both`. -/
def mergePayments (seen : List Key) : List Fields → Except Raised (List Fields)
  | [] => .ok []
  | item :: later => do
      match ← paymentKey item with
      | none => return item :: (← mergePayments seen later)
      | some key =>
          if key ∈ seen then mergePayments seen later
          else return item :: (← mergePayments (key :: seen) later)

/-- What the provider lists under both identifiers. -/
def listBoth (answers : UserId → Answer) (userId other : UserId) :
    Except Raised (List Fields) := do
  let first ← listPayments host (answers userId)
  let second ← if other = userId then .ok [] else listPayments host (answers other)
  return first ++ second

/-- `_list_payments_both`. -/
def listPaymentsBoth (answers : UserId → Answer) (userId other : UserId) :
    Except Raised (List Fields) := do
  mergePayments [] (← listBoth host answers userId other)

/-- `payment_statuses`, of which only the log has something. -/
def paymentStatuses : List Fields → Except Raised Unit
  | [] => .ok ()
  | item :: later => do
      let _ ← (Parsed.get? item "status").elim (.ok []) (toStr environment)
      paymentStatuses later

/-- `CreditablePayment`. -/
structure CreditablePayment where
  paymentId : List Nat
  productCode : List Nat
  paymentType : List Nat
  status : List Nat
  paidAt : Instant

def stripped : Option Parsed → Option (List Nat)
  | some (.str text) => if strip text ≠ [] then some (strip text) else none
  | _ => none

/-- A trailing `Z` or `z` written as an offset. -/
def normalizedZone (text : List Nat) : List Nat :=
  if text.getLast? = some 'Z'.toNat ∨ text.getLast? = some 'z'.toNat then
    text.dropLast ++ codes "+00:00"
  else text

/-- `_parse_paid_at`. -/
def parsePaidAt (value : Option Parsed) : Option Instant :=
  (stripped value).bind fun text => environment.fromisoformat (normalizedZone text)

def paymentProduct (item : Fields) : Option Fields :=
  match Parsed.get? item "product" with
  | some (.obj product) => some product
  | _ => none

/-- `cutoff`. -/
def cutoff (now : Instant) : Instant := now - environment.freshnessHours * 3600000000

/-- One item of `select_creditable_payments` behind its status. -/
def selectPayment (now : Instant) (item : Fields) (status : List Nat) :
    Option CreditablePayment := do
  if status ∉ environment.paidStatuses then none
  let paidAt ← parsePaidAt environment (Parsed.get? item "paid_at")
  if paidAt < cutoff environment now then none
  let paymentId ← stripped (Parsed.get? item "payment_id")
  let product ← paymentProduct item
  let productCode ← stripped (Parsed.get? product "code")
  let paymentType ← stripped (Parsed.get? product "payment_type")
  some ⟨paymentId, productCode, environment.lower paymentType, status, paidAt⟩

/-- The loop of `select_creditable_payments`. -/
def selectAll (now : Instant) : List Fields → Except Raised (List CreditablePayment)
  | [] => .ok []
  | item :: later => do
      let status ← normalized environment (Parsed.get? item "status")
      let others ← selectAll now later
      return (selectPayment environment now item status).toList ++ others

/-- `select_creditable_payments`. -/
def selectCreditablePayments (now : Instant) (items : List Fields) :
    Except Raised (List CreditablePayment) :=
  if cutoff environment now < firstInstant then .error .overflow
  else selectAll environment now items

def creditable (delivery : Delivery) (userId other : UserId) :
    Except Raised (List CreditablePayment) := do
  let items ← listPaymentsBoth host delivery.answers userId other
  paymentStatuses environment items
  selectCreditablePayments environment delivery.now items

/-! ## One payment -/

/-- `dict.get` on a product table. -/
def amount? (products : List (List Nat × Int)) (productCode : List Nat) : Option Int :=
  (products.find? fun entry => entry.1 == productCode).map (·.2)

/-- `infer_interval_unit_from_code`. -/
def inferIntervalUnitFromCode (productCode : List Nat) : Option Interval :=
  subKeywords.find? fun unit => mentions (ofCodes (environment.lower productCode)) unit.keyword

/-- `_looks_like_subscription`. -/
def looksLikeSubscription (productCode : List Nat) : Bool :=
  (inferIntervalUnitFromCode environment productCode).isSome ||
    ["_nottrial", "_trial"].any fun ending =>
      (codes ending).isSuffixOf (environment.lower productCode)

/-- The kind a payment is credited as; `none` is an unknown payment type. -/
def paymentKind (payment : CreditablePayment) : Option Kind :=
  let oneTimeIds := environment.tokenProducts.map (·.1)
  if payment.paymentType = codes "one_time" then
    if payment.productCode ∉ oneTimeIds ∧ ¬ tokensName (ofCodes payment.productCode) ∧
        looksLikeSubscription environment payment.productCode then
      some .subscription
    else some .tokens
  else if payment.paymentType = codes "subscription" then some .subscription
  else none

/-- The kind and the credits of a payment; `none` is one which is skipped. -/
def resolvePayment (payment : CreditablePayment) : Option (Kind × Int) :=
  match paymentKind environment payment with
  | none => none
  | some .tokens =>
      match amount? environment.tokenProducts payment.productCode with
      | none => none
      | some credits => if credits ≤ 0 then none else some (.tokens, credits)
  | some .subscription =>
      some (.subscription, (amount? environment.productTokens payment.productCode).getD
        environment.subscriptionTokensGrant)

/-- `KIND_SUBSCRIPTION` and `KIND_TOKENS`. -/
def kindText : Kind → String
  | .subscription => "subscription"
  | .tokens => "tokens"

def CreditablePayment.sanitized (payment : CreditablePayment) (kind : Kind) : Parsed :=
  .obj
    [(codes "paymentId", .str payment.paymentId), (codes "productCode", .str payment.productCode),
      (codes "paymentType", .str payment.paymentType), (codes "status", .str payment.status),
      (codes "kind", .str (codes (kindText kind)))]

def CreditablePayment.stored (payment : CreditablePayment) : CloudPayments.CreditablePayment :=
  ⟨ofCodes payment.paymentId, ofCodes payment.productCode, ofCodes payment.paymentType,
    ofCodes payment.status, payment.paidAt⟩

/-- The expiry a subscription is paid until; `none` is an `OverflowError`. -/
def expiry (now : Instant) (payment : CreditablePayment) : Kind → Option (Option Instant)
  | .tokens => some none
  | .subscription =>
      (computeExpiry now (inferIntervalUnitFromCode environment payment.productCode) 1).map some

def commit (store : Store) (user : UserId) (resolved : Resolved) (expiresAt : Option Instant)
    (account : Wallet.Account) : Store where
  events := store.events ++ [resolved.event user]
  accounts := Function.update store.accounts user account
  writes := store.writes ++ (expiresAt.map fun moment =>
    ⟨resolved.payment.paymentId, user, upsertPaid resolved.payment.productCode moment⟩).toList
  audit := store.audit ++ [⟨resolved.payment, resolved.kind, expiresAt, resolved.credits⟩]

def context (user : UserId) : Wallet.Context :=
  ⟨user, fun _ => none, environment.agentDebtReconcileEnabled⟩

/-- `wallet.grant`. -/
def grant (user : UserId) (resolved : Resolved) (newId : TxId) (account : Wallet.Account) :
    Except Raised Wallet.Account :=
  match Wallet.Call.run ⟨context environment user, .grant (resolved.request newId), .commit⟩
    account with
  | (.granted _, after) => .ok after
  | _ => .error .credit

/-- `_apply_payment` of a payment which is not skipped; the answer tells whether it is credited. -/
def applyResolved (user : UserId) (reading : Reading) (store : Store)
    (payment : CreditablePayment) (kind : Kind) (credits : Int) : Except Raised (Bool × Store) := do
  let resolved : Resolved := ⟨payment.stored, kind, credits⟩
  insist (Host.sendText payment.paymentId)
  insist (Host.sendText payment.productCode)
  insist (host.castJsonb (payment.sanitized kind))
  if resolved.payment.paymentId ∈ store.eventIds then return (false, store)
  insist (host.enterKey resolved.payment.paymentId)
  match expiry environment reading.now payment kind with
  | none => .error .overflow
  | some expiresAt =>
      insist (host.enterKey (grantKey resolved.payment.paymentId))
      let account ← grant environment user resolved reading.newId (store.accounts user)
      return (true, commit store user resolved expiresAt account)

/-! ## The service -/

/-- The loop over the payments.  What is committed stays, whatever a later payment raises. -/
def applyPayments (user : UserId) :
    (Nat → Reading) → Counts → Store → List CreditablePayment → Except Raised Counts × Store
  | _, counts, store, [] => (.ok counts, store)
  | readings, counts, store, payment :: later =>
      let rest := fun turn => readings (turn + 1)
      match resolvePayment environment payment with
      | none => applyPayments user rest { counts with skipped := counts.skipped + 1 } store later
      | some (kind, credits) =>
          if (readings 0).lost then (.error .unavailable, store)
          else
            match applyResolved host environment user (readings 0) store payment kind credits with
            | .error raised => (.error raised, store)
            | .ok (false, after) => applyPayments user rest counts after later
            | .ok (true, after) =>
                applyPayments user rest { counts with credited := counts.credited + 1 } after later

/-- `handle` behind the trigger. -/
def reconcile (store : Store) (delivery : Delivery) (deviceId : UserId) :
    Except Raised WebhookOutcome × Store :=
  if delivery.lost then (.error .unavailable, store)
  else
    match environment.resolveUser deviceId with
    | none => (.ok (.ignored "user_not_found"), store)
    | some user =>
        match creditable host environment delivery user deviceId with
        | .error raised => (.error raised, store)
        | .ok [] => (.ok (.ignored "no_creditable_payment"), store)
        | .ok payments =>
            let (counted, after) :=
              applyPayments host environment user delivery.readings {} store payments
            (counted.map Counts.outcome, after)

/-- `handle`. -/
def handle (store : Store) (delivery : Delivery) : Except Raised WebhookOutcome × Store :=
  if environment.apiToken = "" then (.error .misconfigured, store)
  else if delivery.raw = [] then (.ok (.ignored "empty_body"), store)
  else
    match host.loads delivery.raw with
    | .error .recursion => (.error .recursion, store)
    | .error .value => (.ok (.ignored "invalid_json"), store)
    | .ok (.obj fields) =>
        match trigger host environment fields with
        | .error raised => (.error raised, store)
        | .ok (.error reason) => (.ok (.ignored reason), store)
        | .ok (.ok deviceId) => reconcile host environment store delivery deviceId
    | .ok _ => (.ok (.ignored "not_an_object"), store)

end Hermes.Billing.CloudPayments.Callback
