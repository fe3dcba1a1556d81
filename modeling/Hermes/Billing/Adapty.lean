import Mathlib.Algebra.BigOperators.Group.List.Basic
import Mathlib.Data.List.Nodup
import Hermes.Billing.Products
import Hermes.Billing.Subscription
import Hermes.Wallet.Effect

/-!
# The Adapty webhook

A delivery is parsed defensively, recorded once per event id, and in the same transaction changes
the subscription row and, for a starting or renewing event, credits the wallet.  Senders repeat
and reorder deliveries; nothing in the payload orders the events.
-/

namespace Hermes.Billing.Adapty

open Wallet (UserId Account Call GrantRequest LedgerTransaction TxId)
open Json (get?)

abbrev Fields := List (String × Json)

/-- `ParsedEvent`. -/
structure ParsedEvent where
  eventId : String
  eventType : AdaptyType
  customerUserId : UserId
  vendorProductId : Option String
  expiresAt : Option Instant
  deriving DecidableEq, Repr

def ParsedEvent.change (event : ParsedEvent) : AdaptyChange :=
  ⟨event.eventType, event.vendorProductId, event.expiresAt⟩

/-- What the service uses besides its tables. -/
structure Environment where
  /-- `json.loads`; `none` is a `ValueError`. -/
  loads : List UInt8 → Option Json
  /-- `str.lower`. -/
  lower : String → String
  /-- `uuid.UUID`; `none` is a `ValueError`. -/
  uuid : String → Option UserId
  /-- `datetime.fromisoformat`, a moment without a zone taken as UTC. -/
  fromisoformat : String → Option Instant
  userExists : UserId → Bool
  /-- The decoded `ADAPTY_PRODUCT_TOKENS`. -/
  productDocument : Option Json
  /-- `ADAPTY_SUBSCRIPTION_TOKENS_GRANT`. -/
  subscriptionTokensGrant : Int
  /-- `AGENT_DEBT_RECONCILE_ENABLED`. -/
  agentDebtReconcileEnabled : Bool

variable (environment : Environment)

/-! ## Parsing -/

/-- `_as_dict`. -/
def asDict : Option Json → Fields
  | some (.obj fields) => fields
  | _ => []

/-- `_first_str`. -/
def firstStr (candidates : List (Option Json)) : Option String :=
  candidates.findSome? fun candidate =>
    match candidate with
    | some (.str value) => if value ≠ "" then some value else none
    | _ => none

/-- `parse_event_id`. -/
def parseEventId (body : Fields) : Option String :=
  firstStr [get? body "event_id", get? body "id"]

/-- `parse_event_type`. -/
def parseEventType (body : Fields) : String :=
  match get? body "event_type" with
  | some (.str raw) => environment.lower raw
  | _ => ""

/-- `KNOWN_EVENTS`. -/
def knownEvent (eventType : String) : Option AdaptyType :=
  if eventType = "subscription_started" then some .started
  else if eventType = "subscription_renewed" then some .renewed
  else if eventType = "subscription_cancelled" then some .cancelled
  else if eventType = "subscription_expired" then some .expired
  else none

/-- `parse_customer_user_id`. -/
def parseCustomerUserId (body : Fields) : Option UserId :=
  let profile := asDict (get? body "profile")
  (firstStr [get? body "customer_user_id", get? profile "customer_user_id",
    get? body "user_id"]).bind environment.uuid

/-- `parse_vendor_product_id`. -/
def parseVendorProductId (body : Fields) : Option String :=
  let props := asDict (get? body "event_properties")
  firstStr [get? props "vendor_product_id", get? props "product_id",
    get? body "vendor_product_id", get? body "product_id"]

/-- A trailing `Z` written as an offset. -/
def normalizedZone (raw : String) : String :=
  if raw.toList.getLast? = some 'Z' then String.ofList (raw.toList.dropLast ++ "+00:00".toList)
  else raw

/-- `parse_expires_at`. -/
def parseExpiresAt (body : Fields) : Option Instant :=
  let props := asDict (get? body "event_properties")
  let profile := asDict (get? body "profile")
  (firstStr [get? props "expires_at", get? profile "expires_at"]).bind
    fun raw => environment.fromisoformat (normalizedZone raw)

/-! ## The service -/

/-- `WebhookOutcome`. -/
inductive WebhookOutcome
  | ignored (reason : Option String) (eventType : Option String)
  | duplicate
  | applied
  deriving DecidableEq, Repr

/-- The stages of `handle` before the event is applied. -/
def recognize (raw : List UInt8) : Except WebhookOutcome (ParsedEvent × Fields) :=
  if raw = [] then .error (.ignored (some "empty_body") none)
  else
    match environment.loads raw with
    | none => .error (.ignored (some "invalid_json") none)
    | some (.obj body) =>
        match parseEventId body with
        | none => .error (.ignored (some "missing_event_id") none)
        | some eventId =>
            match parseCustomerUserId environment body with
            | none => .error (.ignored (some "missing_customer_user_id") none)
            | some customerUserId =>
                if !environment.userExists customerUserId then
                  .error (.ignored (some "user_not_found") none)
                else
                  match knownEvent (parseEventType environment body) with
                  | none => .error (.ignored none (some (parseEventType environment body)))
                  | some eventType =>
                      .ok (⟨eventId, eventType, customerUserId, parseVendorProductId body,
                        parseExpiresAt environment body⟩, body)
    | some _ => .error (.ignored (some "not_an_object") none)

/-- An `adapty_webhook_events` row. -/
structure EventRow where
  eventId : String
  userId : UserId
  eventType : AdaptyType
  payload : Fields

/-- The payload of an `adapty_subscription` audit row. -/
structure AuditRow where
  event : ParsedEvent
  status : Status
  plan : Option String

structure Db where
  events : List EventRow
  subscriptions : UserId → Option SubscriptionRow
  accounts : UserId → Account
  audit : List AuditRow

def Db.eventIds (db : Db) : List String := db.events.map (·.eventId)

/-- `_tier_for`: `or` also passes over a zero. -/
def tierFor (vendorProductId : Option String) : Int :=
  match (productTokens environment.productDocument).amount? (vendorProductId.getD "") with
  | some mapped => if mapped ≠ 0 then mapped else environment.subscriptionTokensGrant
  | none => environment.subscriptionTokensGrant

def grantKey (eventId : String) : String := "adapty-event:" ++ eventId

/-- The credit asked for by `_grant`. -/
def grantRequest (event : ParsedEvent) (newId : TxId) : GrantRequest where
  amount := tierFor environment event.vendorProductId
  idempotencyKey := grantKey event.eventId
  metadata := {}
  reason := "adapty_subscription"
  newId := newId

/-- `_grant`; `none` when the wallet raises or the database rejects a statement. -/
def grant (event : ParsedEvent) (newId : TxId) (account : Account) : Option Account :=
  let invocation : Call :=
    { context := ⟨event.customerUserId, fun _ => none, environment.agentDebtReconcileEnabled⟩
      operation := .grant (grantRequest environment event newId)
      ending := .commit }
  match invocation.run account with
  | (.granted _, after) => some after
  | _ => none

/-- The wallet part of `_apply`. -/
def grantIfGranting (event : ParsedEvent) (newId : TxId) (account : Account) : Option Account :=
  if event.eventType.granting then grant environment event newId account else some account

/-- `_apply` of a new event id. -/
def applyNew (db : Db) (event : ParsedEvent) (body : Fields) (newId : TxId) : Option Db :=
  let user := event.customerUserId
  let row := upsertAdapty (db.subscriptions user) event.change
  (grantIfGranting environment event newId (db.accounts user)).map fun account =>
    { events := db.events ++ [⟨event.eventId, user, event.eventType, body⟩]
      subscriptions := Function.update db.subscriptions user (some row)
      accounts := Function.update db.accounts user account
      audit := db.audit ++ [⟨event, row.status, row.plan⟩] }

/-- `_apply`. -/
def apply (db : Db) (event : ParsedEvent) (body : Fields) (newId : TxId) :
    Option (WebhookOutcome × Db) :=
  if event.eventId ∈ db.eventIds then some (.duplicate, db)
  else (applyNew environment db event body newId).map fun after => (.applied, after)

/-- One webhook call; `lost` when the database fails before the commit. -/
structure Delivery where
  raw : List UInt8
  newId : TxId
  lost : Bool := false

/-- `handle` inside `session_scope`: no answer is a 500, with everything rolled back. -/
def handle (db : Db) (delivery : Delivery) : Option WebhookOutcome × Db :=
  match recognize environment delivery.raw with
  | .error ignored => (some ignored, db)
  | .ok (event, body) =>
      if delivery.lost then (none, db)
      else
        match apply environment db event body delivery.newId with
        | none => (none, db)
        | some (outcome, after) => (some outcome, after)

def deliver (db : Db) (deliveries : List Delivery) : Db :=
  deliveries.foldl (fun db delivery => (handle environment db delivery).2) db

/-! ## Arrivals -/

/-- The event of a delivery which is answered. -/
def answeredEvent (db : Db) (delivery : Delivery) : Option ParsedEvent :=
  match recognize environment delivery.raw with
  | .error _ => none
  | .ok (event, _) => (handle environment db delivery).1.map fun _ => event

/-- The events of the answered deliveries, in the order of their arrival. -/
def arrivals (db : Db) : List Delivery → List ParsedEvent
  | [] => []
  | delivery :: later =>
      (answeredEvent environment db delivery).toList ++
        arrivals (handle environment db delivery).2 later

/-- The events whose id was not there before. -/
def firstArrivals (seen : List String) : List ParsedEvent → List ParsedEvent
  | [] => []
  | event :: later =>
      if event.eventId ∈ seen then firstArrivals seen later
      else event :: firstArrivals (seen ++ [event.eventId]) later

/-- The events of a user, in the order in which their first delivery is answered. -/
def order (db : Db) (deliveries : List Delivery) (user : UserId) : List ParsedEvent :=
  (firstArrivals db.eventIds (arrivals environment db deliveries)).filter
    fun event => event.customerUserId = user

/-- What a sequence of events makes of a row: the status of the last one, and the product and
the expiry of the last granting one. -/
def settled (row : Option SubscriptionRow) (events : List ParsedEvent) : Option SubscriptionRow :=
  match events.getLast? with
  | none => row
  | some last =>
      let paid := (events.filter fun event => event.eventType.granting).getLast?
      some
        { status := if last.eventType.granting then .active else .expired
          plan := paid.elim (row.bind (·.plan)) (·.vendorProductId)
          expiresAt := paid.elim (row.bind (·.expiresAt)) (·.expiresAt) }

/-- The events of a list which credit the wallet. -/
def granting (events : List ParsedEvent) : List ParsedEvent :=
  events.filter fun event => event.eventType.granting

/-- The credit due for an event: its type, amount and key. -/
def due (event : ParsedEvent) : Wallet.LedgerTxType × Int × String :=
  (.credit, tierFor environment event.vendorProductId, grantKey event.eventId)

def worth (account : Account) : Int := account.balance - account.debt

section Firsts

variable {seen : List String} {event : ParsedEvent} {events : List ParsedEvent}

theorem firstArrivals_subset (seen : List String) (events : List ParsedEvent) :
    ∀ event ∈ firstArrivals seen events, event ∈ events ∧ event.eventId ∉ seen := by
  induction events generalizing seen with
  | nil => simp [firstArrivals]
  | cons head later induction =>
      intro event present
      rw [firstArrivals] at present
      split at present
      · obtain ⟨found, unseen⟩ := induction seen event present
        exact ⟨List.mem_cons_of_mem _ found, unseen⟩
      next unseen =>
        rcases List.mem_cons.mp present with rfl | present
        · exact ⟨List.mem_cons_self, unseen⟩
        · obtain ⟨found, fresh⟩ := induction _ event present
          exact ⟨List.mem_cons_of_mem _ found, fun old => fresh (List.mem_append_left _ old)⟩

theorem firstArrivals_distinct (seen : List String) (events : List ParsedEvent) :
    ((firstArrivals seen events).map (·.eventId)).Nodup := by
  induction events generalizing seen with
  | nil => simp [firstArrivals]
  | cons head later induction =>
      rw [firstArrivals]
      split
      · exact induction seen
      · rw [List.map_cons, List.nodup_cons]
        refine ⟨?_, induction _⟩
        intro repeated
        obtain ⟨event, present, same⟩ := List.mem_map.mp repeated
        have fresh := (firstArrivals_subset _ _ event present).2
        exact fresh (List.mem_append_right _ (by simp [same]))

theorem exists_firstArrival (unseen : event.eventId ∉ seen) (present : event ∈ events) :
    ∃ first ∈ firstArrivals seen events, first.eventId = event.eventId := by
  induction events generalizing seen with
  | nil => cases present
  | cons head later induction =>
      rw [firstArrivals]
      split
      next old =>
        rcases List.mem_cons.mp present with rfl | present
        · exact absurd old unseen
        · exact induction unseen present
      next =>
        rcases Decidable.em (event.eventId = head.eventId) with same | other
        · exact ⟨head, List.mem_cons_self, same.symm⟩
        · rcases List.mem_cons.mp present with rfl | present
          · exact absurd rfl other
          · have fresh : event.eventId ∉ seen ++ [head.eventId] := by simp [unseen, other]
            obtain ⟨first, found, same⟩ := induction fresh present
            exact ⟨first, List.mem_cons_of_mem _ found, same⟩

end Firsts

/-! ## One delivery -/

section Step

variable {environment : Environment} {db after : Db} {event : ParsedEvent} {newId : TxId}
  {account credited : Account}

theorem grant_of_free (granted : grant environment event newId account = some credited)
    (free : account.existing (grantKey event.eventId) = none) :
    credited.ledger = account.ledger ++ [(grantRequest environment event newId).row] ∧
      worth credited = worth account + tierFor environment event.vendorProductId := by
  simp only [grant] at granted
  split at granted
  next result final concluded =>
    cases granted
    exact Call.grant_of_free concluded free
  · cases granted

/-- What a delivery does, with the event it answers for. -/
inductive Handled (environment : Environment) (db : Db) : Option ParsedEvent → Db → Prop
  | idle : Handled environment db none db
  | repeated (event : ParsedEvent) (recorded : event.eventId ∈ db.eventIds) :
      Handled environment db (some event) db
  | applied (event : ParsedEvent) (body : Fields) (newId : TxId) (after : Db)
      (unrecorded : event.eventId ∉ db.eventIds)
      (written : applyNew environment db event body newId = some after) :
      Handled environment db (some event) after

theorem handled (environment : Environment) (db : Db) (delivery : Delivery) :
    Handled environment db (answeredEvent environment db delivery)
      (handle environment db delivery).2 := by
  unfold answeredEvent handle
  cases recognize environment delivery.raw with
  | error ignored => exact .idle
  | ok found =>
      obtain ⟨event, body⟩ := found
      cases delivery.lost with
      | true => exact .idle
      | false =>
          simp only [Bool.false_eq_true, if_false, apply]
          split
          · exact .idle
          next outcome final ran =>
            split at ran
            next recorded =>
              cases ran
              exact .repeated event recorded
            next unrecorded =>
              obtain ⟨after, written, same⟩ := Option.map_eq_some_iff.mp ran
              cases same
              exact .applied event body delivery.newId _ unrecorded written

structure Written (environment : Environment) (db : Db) (event : ParsedEvent) (newId : TxId)
    (after : Db) : Prop where
  ids : after.eventIds = db.eventIds ++ [event.eventId]
  subscriptions : after.subscriptions = Function.update db.subscriptions event.customerUserId
    (some (upsertAdapty (db.subscriptions event.customerUserId) event.change))
  account : ∃ account, after.accounts = Function.update db.accounts event.customerUserId account ∧
    grantIfGranting environment event newId (db.accounts event.customerUserId) = some account

theorem written_of_applyNew {body : Fields}
    (written : applyNew environment db event body newId = some after) :
    Written environment db event newId after := by
  obtain ⟨account, granted, same⟩ := Option.map_eq_some_iff.mp written
  subst same
  exact ⟨by simp [Db.eventIds], rfl, account, rfl, granted⟩

end Step

/-! ## Whole sequences -/

section Sequence

variable {environment : Environment} {user : UserId}

def settle (row : Option SubscriptionRow) (event : ParsedEvent) : Option SubscriptionRow :=
  some (upsertAdapty row event.change)

theorem foldl_settle (row : Option SubscriptionRow) (events : List ParsedEvent) :
    events.foldl settle row = settled row events := by
  induction events using List.reverseRecOn with
  | nil => rfl
  | append_singleton earlier event induction =>
      rw [List.foldl_append, induction]
      cases grants : event.eventType.granting with
      | true =>
          simp [settled, settle, upsertAdapty, ParsedEvent.change, List.filter_append, grants]
      | false =>
          simp only [List.foldl_cons, List.foldl_nil, settle, upsertAdapty, ParsedEvent.change,
            grants, settled, List.filter_append, List.getLast?_append]
          cases last : earlier.getLast? with
          | none =>
              rw [List.getLast?_eq_none_iff] at last
              subst last
              cases row <;> simp [grants]
          | some before => simp [grants]

/-- The first arrivals of a sequence grow by at most the event of its first delivery. -/
theorem order_cons (environment : Environment) (user : UserId) (db : Db) (delivery : Delivery)
    (later : List Delivery) :
    order environment db (delivery :: later) user =
        order environment (handle environment db delivery).2 later user ∧
      (handle environment db delivery).2 = db ∨
    ∃ event body newId,
      applyNew environment db event body newId = some (handle environment db delivery).2 ∧
      event.eventId ∉ db.eventIds ∧
      order environment db (delivery :: later) user =
        [event].filter (fun event => event.customerUserId = user) ++
          order environment (handle environment db delivery).2 later user := by
  have step := handled environment db delivery
  simp only [order, arrivals]
  generalize answeredEvent environment db delivery = answered at step ⊢
  generalize (handle environment db delivery).2 = after at step ⊢
  cases step with
  | idle => exact .inl ⟨rfl, rfl⟩
  | repeated event recorded =>
      simp [firstArrivals, recorded]
  | applied event body newId after unrecorded written =>
      refine .inr ⟨event, body, newId, written, unrecorded, ?_⟩
      rw [(written_of_applyNew written).ids]
      simp only [Option.toList_some, List.singleton_append, firstArrivals, unrecorded, if_false]
      rw [← List.filter_append]
      rfl

/-- The row of a user is what the user's events make of it in the order of their arrival. -/
theorem subscriptions_deliver (db : Db) (deliveries : List Delivery) :
    (deliver environment db deliveries).subscriptions user =
      (order environment db deliveries user).foldl settle (db.subscriptions user) := by
  induction deliveries generalizing db with
  | nil => rfl
  | cons delivery later induction =>
      rw [deliver, List.foldl_cons, ← deliver, induction]
      obtain ⟨same, unchanged⟩ | ⟨event, body, newId, written, -, grown⟩ :=
        order_cons environment user db delivery later
      · rw [same, unchanged]
      · rw [grown, List.foldl_append, (written_of_applyNew written).subscriptions]
        rcases Decidable.em (event.customerUserId = user) with rfl | other
        · simp [settle]
        · simp [other, Function.update_of_ne (Ne.symm other)]

theorem grantKey_injective : Function.Injective grantKey :=
  fun _ _ same => (String.append_right_inj _).mp same

/-- The rows are the credits due for some events. -/
def Credited (environment : Environment) (events : List ParsedEvent) (before after : Account) :
    Prop :=
  ∃ rows, after.ledger = before.ledger ++ rows ∧
    rows.map (fun row => (row.type, row.amount, row.idempotencyKey)) =
      (granting events).map (due environment) ∧
    worth after = worth before +
      ((granting events).map fun event => tierFor environment event.vendorProductId).sum

theorem Credited.trans {earlier later : List ParsedEvent} {before between after : Account}
    (first : Credited environment earlier before between)
    (second : Credited environment later between after) :
    Credited environment (earlier ++ later) before after := by
  obtain ⟨first_rows, first_ledger, first_listed, first_worth⟩ := first
  obtain ⟨second_rows, second_ledger, second_listed, second_worth⟩ := second
  have split : granting (earlier ++ later) = granting earlier ++ granting later :=
    List.filter_append ..
  refine ⟨first_rows ++ second_rows, ?_, ?_, ?_⟩
  · rw [second_ledger, first_ledger, List.append_assoc]
  · rw [List.map_append, first_listed, second_listed, split, List.map_append]
  · rw [second_worth, first_worth, split, List.map_append, List.sum_append, Int.add_assoc]

theorem credited_of_grantIfGranting {event : ParsedEvent} {newId : TxId} {account after : Account}
    (granted : grantIfGranting environment event newId account = some after)
    (free : account.existing (grantKey event.eventId) = none) :
    Credited environment [event] account after := by
  cases grants : event.eventType.granting with
  | false =>
      simp only [grantIfGranting, grants, Bool.false_eq_true, if_false, Option.some.injEq]
        at granted
      subst granted
      exact ⟨[], by simp [granting, grants]⟩
  | true =>
      rw [grantIfGranting, if_pos grants] at granted
      obtain ⟨ledger, grown⟩ := grant_of_free granted free
      refine ⟨_, ledger, ?_, ?_⟩
      · simp [granting, grants, due, grantRequest, Wallet.GrantRequest.row]
      · simp [granting, grants, grown]

theorem Credited.existing {events : List ParsedEvent} {before after : Account} {eventId : String}
    (credited : Credited environment events before after)
    (other : eventId ∉ events.map (·.eventId))
    (free : before.existing (grantKey eventId) = none) :
    after.existing (grantKey eventId) = none := by
  obtain ⟨rows, ledger, listed, -⟩ := credited
  simp only [Account.existing, ledger, List.find?_append, Option.or_eq_none_iff] at free ⊢
  refine ⟨free, List.find?_eq_none.mpr ?_⟩
  intro row present matched
  have due_row : (row.type, row.amount, row.idempotencyKey) ∈
      (granting events).map (due environment) := by
    rw [← listed]
    exact List.mem_map_of_mem present
  obtain ⟨event, granted, same⟩ := List.mem_map.mp due_row
  have same_key : grantKey event.eventId = row.idempotencyKey := congrArg (·.2.2) same
  rw [beq_iff_eq, ← same_key] at matched
  exact other (grantKey_injective matched ▸
    List.mem_map_of_mem (List.mem_filter.mp granted).1)

theorem credits_deliver (db : Db) (deliveries : List Delivery)
    (unclaimed : ∀ event ∈ order environment db deliveries user,
      (db.accounts user).existing (grantKey event.eventId) = none) :
    Credited environment (order environment db deliveries user) (db.accounts user)
      ((deliver environment db deliveries).accounts user) := by
  induction deliveries generalizing db with
  | nil =>
      exact ⟨[], by simp [deliver, order, arrivals, firstArrivals, granting]⟩
  | cons delivery later induction =>
      rw [deliver, List.foldl_cons, ← deliver]
      obtain ⟨same, unchanged⟩ | ⟨event, body, newId, applied, -, grown⟩ :=
        order_cons environment user db delivery later
      · rw [same, unchanged] at unclaimed ⊢
        exact induction db unclaimed
      · have written := written_of_applyNew applied
        obtain ⟨account, accounts, granted⟩ := written.account
        generalize (handle environment db delivery).2 = after at *
        rw [grown] at unclaimed ⊢
        rcases Decidable.em (event.customerUserId = user) with rfl | other
        · have stored : after.accounts event.customerUserId = account := by simp [accounts]
          have first := credited_of_grantIfGranting granted (unclaimed event (by simp))
          rw [← stored] at first
          have still_unclaimed : ∀ following ∈ order environment after later event.customerUserId,
              (after.accounts event.customerUserId).existing
                (grantKey following.eventId) = none := by
            intro following present
            refine first.existing ?_ (unclaimed following (List.mem_append_right _ present))
            have fresh := (firstArrivals_subset _ _ following (List.mem_filter.mp present).1).2
            rw [written.ids] at fresh
            simp only [List.mem_append, not_or] at fresh
            exact fresh.2
          have own : [event].filter (fun other => other.customerUserId = event.customerUserId) =
              [event] := by simp
          rw [own]
          exact first.trans (induction after still_unclaimed)
        · have stored : after.accounts user = db.accounts user := by
            rw [accounts, Function.update_of_ne (Ne.symm other)]
          simp only [other, decide_false, List.filter_cons, List.filter_nil, Bool.false_eq_true,
            if_false, List.nil_append] at unclaimed ⊢
          rw [← stored] at unclaimed ⊢
          exact induction after unclaimed

end Sequence

/-! ## Any order, any duplicates -/

/-- Some events of one user with ids of their own, none of them recorded or credited yet. -/
structure Batch (db : Db) (user : UserId) (events : List ParsedEvent) : Prop where
  distinct : (events.map (·.eventId)).Nodup
  owned : ∀ event ∈ events, event.customerUserId = user
  unrecorded : ∀ event ∈ events, event.eventId ∉ db.eventIds
  unclaimed : ∀ event ∈ events, (db.accounts user).existing (grantKey event.eventId) = none

/-- The deliveries bring these events to the user and no others, in any order and number, and each
of them is answered at least once. -/
structure Brings (environment : Environment) (db : Db) (user : UserId) (events : List ParsedEvent)
    (deliveries : List Delivery) : Prop where
  only : ∀ delivery ∈ deliveries, ∀ event body,
    recognize environment delivery.raw = .ok (event, body) →
      event.customerUserId = user ∨ event.eventId ∈ events.map (·.eventId) → event ∈ events
  answered : ∀ event ∈ events, event ∈ arrivals environment db deliveries

section Batches

variable {environment : Environment} {db : Db} {user : UserId} {events : List ParsedEvent}
  {deliveries : List Delivery}

theorem recognized_of_arrival {event : ParsedEvent}
    (arrived : event ∈ arrivals environment db deliveries) :
    ∃ delivery ∈ deliveries, ∃ body, recognize environment delivery.raw = .ok (event, body) := by
  induction deliveries generalizing db with
  | nil => cases arrived
  | cons delivery later induction =>
      rcases List.mem_append.mp arrived with here | there
      · rw [Option.mem_toList, answeredEvent] at here
        cases found : recognize environment delivery.raw with
        | error ignored =>
            rw [found] at here
            cases here
        | ok parsed =>
            rw [found] at here
            obtain ⟨_, _, rfl⟩ := Option.map_eq_some_iff.mp here
            exact ⟨delivery, List.mem_cons_self, parsed.2, found⟩
      · obtain ⟨carrier, present, recognized⟩ := induction there
        exact ⟨carrier, List.mem_cons_of_mem _ present, recognized⟩

theorem order_perm (batch : Batch db user events)
    (brings : Brings environment db user events deliveries) :
    (order environment db deliveries user).Perm events := by
  have listed (event : ParsedEvent) (arrived : event ∈ arrivals environment db deliveries)
      (concerned : event.customerUserId = user ∨ event.eventId ∈ events.map (·.eventId)) :
      event ∈ events := by
    obtain ⟨delivery, present, body, recognized⟩ := recognized_of_arrival arrived
    exact brings.only delivery present event body recognized concerned
  have firsts := firstArrivals_subset db.eventIds (arrivals environment db deliveries)
  have nodup : (order environment db deliveries user).Nodup :=
    (List.Nodup.of_map _ (firstArrivals_distinct _ _)).filter _
  rw [List.perm_ext_iff_of_nodup nodup (List.Nodup.of_map _ batch.distinct)]
  intro event
  simp only [order, List.mem_filter, decide_eq_true_eq]
  constructor
  · rintro ⟨first, concerned⟩
    exact listed event (firsts event first).1 (.inl concerned)
  · intro present
    obtain ⟨first, found, same⟩ :=
      exists_firstArrival (batch.unrecorded event present) (brings.answered event present)
    have first_present := listed first (firsts first found).1
      (.inr (same ▸ List.mem_map_of_mem present))
    have first_eq : first = event :=
      List.inj_on_of_nodup_map batch.distinct first_present present same
    exact ⟨first_eq ▸ found, batch.owned event present⟩

/-- The order of the first deliveries decides the subscription, duplicates decide nothing, and
every granting event is credited exactly once whatever the order. -/
theorem arrival_order_decides (batch : Batch db user events)
    (brings : Brings environment db user events deliveries) :
    (order environment db deliveries user).Perm events ∧
    (deliver environment db deliveries).subscriptions user =
      settled (db.subscriptions user) (order environment db deliveries user) ∧
    (∃ rows, ((deliver environment db deliveries).accounts user).ledger =
        (db.accounts user).ledger ++ rows ∧
      (rows.map fun row => (row.type, row.amount, row.idempotencyKey)).Perm
        ((granting events).map (due environment))) ∧
    worth ((deliver environment db deliveries).accounts user) =
      worth (db.accounts user) + ((granting events).map
        fun event => tierFor environment event.vendorProductId).sum := by
  have permuted := order_perm batch brings
  have credited := permuted.filter fun event => event.eventType.granting
  have unclaimed : ∀ event ∈ order environment db deliveries user,
      (db.accounts user).existing (grantKey event.eventId) = none :=
    fun event present => batch.unclaimed event (permuted.mem_iff.mp present)
  obtain ⟨rows, ledger, listed, total⟩ := credits_deliver db deliveries unclaimed
  refine ⟨permuted, ?_, ⟨rows, ledger, ?_⟩, ?_⟩
  · rw [subscriptions_deliver, foldl_settle]
  · rw [listed]
    exact credited.map _
  · rw [total]
    exact congrArg _ (credited.map _).sum_eq

end Batches

/-! ## Two orders of two events -/

namespace Sample

/-- The bytes of a text. -/
def bytes (text : String) : List UInt8 := text.toUTF8.data.toList

def userText : String := "00000000-0000-0000-0000-000000000001"

def user : UserId := ⟨1⟩

def startedBody : Fields :=
  [("event_id", .str "first"), ("event_type", .str "subscription_started"),
    ("customer_user_id", .str userText), ("product_id", .str "pro.month")]

def expiredBody : Fields :=
  [("event_id", .str "second"), ("event_type", .str "subscription_expired"),
    ("customer_user_id", .str userText)]

def startedRaw : List UInt8 :=
  bytes ("\x7b\"event_id\":\"first\",\"event_type\":\"subscription_started\"," ++
    "\"customer_user_id\":\"" ++ userText ++ "\",\"product_id\":\"pro.month\"\x7d")

def expiredRaw : List UInt8 :=
  bytes ("\x7b\"event_id\":\"second\",\"event_type\":\"subscription_expired\"," ++
    "\"customer_user_id\":\"" ++ userText ++ "\"\x7d")

def shop : Environment where
  loads raw :=
    if raw = startedRaw then some (.obj startedBody)
    else if raw = expiredRaw then some (.obj expiredBody)
    else none
  lower := id
  uuid text := if text = userText then some user else none
  fromisoformat _ := none
  userExists other := other = user
  productDocument := none
  subscriptionTokensGrant := 1000
  agentDebtReconcileEnabled := true

def empty : Db where
  events := []
  subscriptions _ := none
  accounts _ := {}
  audit := []

def started : ParsedEvent := ⟨"first", .started, user, some "pro.month", none⟩

def expired : ParsedEvent := ⟨"second", .expired, user, none, none⟩

def startedDelivery : Delivery := ⟨startedRaw, ⟨1⟩, false⟩

def expiredDelivery : Delivery := ⟨expiredRaw, ⟨2⟩, false⟩

theorem recognize_started : recognize shop startedRaw = .ok (started, startedBody) := by
  have decoded : shop.loads startedRaw = some (.obj startedBody) := by
    simp only [shop, if_true]
  have nonempty : startedRaw ≠ [] := by decide
  simp only [recognize, nonempty, decoded, if_false]
  rfl

theorem recognize_expired : recognize shop expiredRaw = .ok (expired, expiredBody) := by
  have other : expiredRaw ≠ startedRaw := by decide
  have decoded : shop.loads expiredRaw = some (.obj expiredBody) := by
    simp only [shop, other, if_false, if_true]
  have nonempty : expiredRaw ≠ [] := by decide
  simp only [recognize, nonempty, decoded, if_false]
  rfl

theorem batch : Batch empty user [started, expired] where
  distinct := by decide
  owned := by decide
  unrecorded := by decide
  unclaimed := by
    intro event _
    rfl

theorem brings {deliveries : List Delivery}
    (only : ∀ delivery ∈ deliveries, delivery = startedDelivery ∨ delivery = expiredDelivery)
    (answered : ∀ event ∈ [started, expired], event ∈ arrivals shop empty deliveries) :
    Brings shop empty user [started, expired] deliveries where
  only := by
    intro delivery present event body recognized _
    rcases only delivery present with rfl | rfl
    · simp only [startedDelivery, recognize_started, Except.ok.injEq, Prod.mk.injEq] at recognized
      simp [recognized.1.symm]
    · simp only [expiredDelivery, recognize_expired, Except.ok.injEq, Prod.mk.injEq] at recognized
      simp [recognized.1.symm]
  answered := answered

theorem brings_in_order :
    Brings shop empty user [started, expired] [startedDelivery, startedDelivery, expiredDelivery] :=
  brings (by simp) (by decide)

theorem brings_reversed :
    Brings shop empty user [started, expired] [expiredDelivery, startedDelivery, expiredDelivery] :=
  brings (by simp) (by decide)

/-- The two events in the order in which they happened. -/
theorem in_order_decides :
    (deliver shop empty [startedDelivery, startedDelivery, expiredDelivery]).subscriptions user =
      settled none
        (order shop empty [startedDelivery, startedDelivery, expiredDelivery] user) :=
  (arrival_order_decides batch brings_in_order).2.1

/-- The same events in the other order leave an active subscription instead of an expired one. -/
theorem reversed_differs :
    Batch empty user [started, expired] ∧
    Brings shop empty user [started, expired]
      [startedDelivery, startedDelivery, expiredDelivery] ∧
    Brings shop empty user [started, expired]
      [expiredDelivery, startedDelivery, expiredDelivery] ∧
    (deliver shop empty [startedDelivery, startedDelivery, expiredDelivery]).subscriptions user ≠
      (deliver shop empty [expiredDelivery, startedDelivery, expiredDelivery]).subscriptions
        user :=
  ⟨batch, brings_in_order, brings_reversed, by decide⟩

end Sample

end Hermes.Billing.Adapty
