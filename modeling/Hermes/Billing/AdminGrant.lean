import Hermes.Billing.Subscription
import Hermes.Library.Calendar
import Hermes.Library.Text
import Hermes.Wallet.Conservation

/-!
# Subscription grants by an operator

`admin_grant` records a grant under its key together with a digest of the payload, writes the
subscription and credits the wallet in one transaction.  A key which is recorded is answered from
the record if the digests agree, and refused otherwise.  The digest is taken of the expiry in UTC,
and some expiries have none: `datetime` ends with the year 9999.
-/

namespace Hermes.Billing.AdminGrant

open Wallet (UserId TxId Account Accounts Call GrantRequest)

/-- A `datetime`: its wall clock, in microseconds, and its offset from UTC if it has a zone. -/
structure Datetime where
  wall : Int
  utcoffset : Option Int
  within : Calendar.Representable wall

/-- The moment of a datetime, one without a zone taken as UTC. -/
def Datetime.moment (datetime : Datetime) : Instant :=
  datetime.wall - datetime.utcoffset.getD 0

/-- The library and the database a grant relies on. -/
structure GrantHost where
  /-- `hashlib.sha256(text.encode("utf-8")).hexdigest()`. -/
  sha256 : String → String
  /-- The database takes the text: it has no NUL and no lone surrogate.  A character which occurs
  nowhere else stands for a surrogate. -/
  storable : String → Bool
  /-- An entry of a unique index has room for the key. -/
  indexable : String → Bool

/-- What `get_settings` returns to a call. -/
structure GrantSettings where
  subscriptionCreditsPerPeriod : Int
  agentDebtReconcileEnabled : Bool
  deriving DecidableEq, Repr

/-- A `subscription_grant_events` row. -/
structure SubscriptionGrantEvent where
  userId : UserId
  idempotencyKey : String
  payloadHash : String
  plan : String
  expiresAt : Instant
  grantCredits : Bool
  ledgerTxId : Option TxId
  deriving DecidableEq, Repr

/-- The `admin_subscription_grant` audit row. -/
structure GrantAudit where
  userId : UserId
  plan : String
  expiresAt : Datetime
  reason : String
  idempotencyKey : String
  grantCredits : Bool
  ledgerTxId : Option TxId

structure GrantDb where
  events : List SubscriptionGrantEvent := []
  subscriptions : UserId → Option SubscriptionRow := fun _ => none
  accounts : Accounts := Accounts.empty
  audit : List GrantAudit := []

/-- A call of `admin_grant`; `newId` is the id the database generates for a ledger row. -/
structure GrantCall where
  settings : GrantSettings
  userId : UserId
  plan : String
  expiresAt : Datetime
  grantCredits : Bool
  idempotencyKey : String
  reason : String
  newId : TxId
  /-- The connection to the database is lost. -/
  lost : Bool := false

/-- `AdminGrantResult`, the expiry as the moment it names. -/
structure GrantResult where
  status : Status
  plan : String
  expiresAt : Instant
  creditsGranted : Option Int
  ledgerTxId : Option TxId
  idempotentReplay : Bool
  deriving DecidableEq, Repr

inductive GrantRaised
  | conflict (message : String)
  | overflowError
  /-- The database refuses a text or a key. -/
  | refused
  | database
  deriving DecidableEq, Repr

/-- The unit separator between the parts of the canonical payload. -/
def unitSeparator : Char := Char.ofNat 0x1f

/-- `f"{grant_credits}"`. -/
def flagText (grantCredits : Bool) : List Char :=
  if grantCredits then "True".toList else "False".toList

/-- The canonical payload of `_payload_hash`. -/
def canonical (plan : String) (expiresAt : Instant) (grantCredits : Bool) : String :=
  String.ofList ((plan.toList ++ unitSeparator :: Calendar.isoformat expiresAt) ++
    unitSeparator :: flagText grantCredits)

/-- `_payload_hash`; `none` is the `OverflowError` of `astimezone`. -/
def payloadHash (host : GrantHost) (plan : String) (expiresAt : Datetime)
    (grantCredits : Bool) : Option String :=
  if Calendar.Representable expiresAt.moment then
    some (host.sha256 (canonical plan expiresAt.moment grantCredits))
  else none

/-- `SELECT … FROM subscription_grant_events WHERE user_id = :uid AND idempotency_key = :key`. -/
def GrantDb.recorded (db : GrantDb) (userId : UserId) (key : String) :
    Option SubscriptionGrantEvent :=
  db.events.find? fun event => event.userId == userId && event.idempotencyKey == key

/-- `_handle_existing_grant_event`. -/
def handleExistingGrantEvent (settings : GrantSettings) (event : SubscriptionGrantEvent)
    (payloadHash : String) : Except GrantRaised GrantResult :=
  if event.payloadHash ≠ payloadHash then
    .error (.conflict "idempotency key reused with different payload")
  else
    .ok {
      status := .active
      plan := event.plan
      expiresAt := event.expiresAt
      creditsGranted :=
        if event.grantCredits then some settings.subscriptionCreditsPerPeriod else none
      ledgerTxId := event.ledgerTxId
      idempotentReplay := true }

def creditKey (key : String) : String := "admin-sub-grant:" ++ key

def creditRequest (call : GrantCall) : GrantRequest where
  amount := call.settings.subscriptionCreditsPerPeriod
  idempotencyKey := creditKey call.idempotencyKey
  metadata := { source := some "admin_subscription_grant" }
  reason := "admin_subscription"
  newId := call.newId

/-- The credit of `_apply_new_grant`: the id of the ledger row, and the account afterwards. -/
def creditIfAsked (host : GrantHost) (call : GrantCall) (account : Account) :
    Except GrantRaised (Option TxId × Account) :=
  if call.grantCredits then
    let credit : Call :=
      { context := ⟨call.userId, fun _ => none, call.settings.agentDebtReconcileEnabled⟩
        operation := .grant (creditRequest call)
        ending := .commit }
    match credit.run account with
    | (.granted result, after) =>
        if host.indexable (creditKey call.idempotencyKey) then .ok (some result.ledgerTxId, after)
        else .error .refused
    | (.raised (.conflict message), _) => .error (.conflict message)
    | _ => .error .database
  else .ok (none, account)

/-- `_apply_new_grant`, with the record of the grant. -/
def applyNewGrant (host : GrantHost) (db : GrantDb) (call : GrantCall)
    (payloadHash : String) : Except GrantRaised (GrantResult × GrantDb) := do
  let (ledgerTxId, account) ← creditIfAsked host call (db.accounts call.userId)
  return (
    { status := .active
      plan := call.plan
      expiresAt := call.expiresAt.moment
      creditsGranted :=
        if call.grantCredits then some call.settings.subscriptionCreditsPerPeriod else none
      ledgerTxId := ledgerTxId
      idempotentReplay := false },
    { events := db.events ++
        [⟨call.userId, call.idempotencyKey, payloadHash, call.plan, call.expiresAt.moment,
          call.grantCredits, ledgerTxId⟩]
      subscriptions := Function.update db.subscriptions call.userId
        (some ⟨.active, some call.plan, some call.expiresAt.moment⟩)
      accounts := Function.update db.accounts call.userId account
      audit := db.audit ++
        [⟨call.userId, call.plan, call.expiresAt, call.reason, call.idempotencyKey,
          call.grantCredits, ledgerTxId⟩] })

/-- `admin_grant` in a transaction of its own, which is rolled back where the call raises.  The
`INSERT` of the record sends its texts before it looks for the key, and enters the key only where it
is free. -/
def adminGrant (host : GrantHost) (db : GrantDb) (call : GrantCall) :
    Except GrantRaised GrantResult × GrantDb :=
  match payloadHash host call.plan call.expiresAt call.grantCredits with
  | none => (.error .overflowError, db)
  | some payloadHash =>
      if call.lost then (.error .database, db)
      else if (host.storable call.idempotencyKey && host.storable call.plan) = false then
        (.error .refused, db)
      else
        match db.recorded call.userId call.idempotencyKey with
        | some event => (handleExistingGrantEvent call.settings event payloadHash, db)
        | none =>
            if (host.indexable call.idempotencyKey && host.storable call.reason) = false then
              (.error .refused, db)
            else
              match applyNewGrant host db call payloadHash with
              | .ok (result, after) => (.ok result, after)
              | .error raised => (.error raised, db)

def runAll (host : GrantHost) (db : GrantDb) (calls : List GrantCall) : GrantDb :=
  calls.foldl (fun db call => (adminGrant host db call).2) db

/-! ## What is promised -/

/-- Nothing is granted yet, and no credit stands under the key of a grant. -/
structure Fresh (db : GrantDb) : Prop where
  events : db.events = []
  credits : ∀ userId key, (db.accounts userId).existing (creditKey key) = none

/-- A call for the user and with the key of another one. -/
def GrantCall.Repeats (again first : GrantCall) : Prop :=
  again.userId = first.userId ∧ again.idempotencyKey = first.idempotencyKey

/-- The payloads of two calls are equal, the expiries as moments. -/
def GrantCall.SamePayload (again first : GrantCall) : Prop :=
  again.plan = first.plan ∧ again.expiresAt.moment = first.expiresAt.moment ∧
    again.grantCredits = first.grantCredits

/-- A replay which answers what was recorded. -/
def GrantResult.Replays (replay result : GrantResult) : Prop :=
  replay = { result with idempotentReplay := true }

/-- What is asked of a call which repeats the key of one that returned. -/
structure RepeatLaw (host : GrantHost) (db : GrantDb) (result : GrantResult)
    (first again : GrantCall) : Prop where
  same : again.SamePayload first → ∃ replay : GrantResult, replay.Replays result ∧
    adminGrant host db again = (.ok replay, db)
  other : ¬ again.SamePayload first → ∃ message,
    adminGrant host db again = (.error (.conflict message), db)

def grantsAnew (answer : Except GrantRaised GrantResult × GrantDb) : Bool :=
  match answer.1 with
  | .ok result => !result.idempotentReplay
  | .error _ => false

def applies (host : GrantHost) (db : GrantDb) (call : GrantCall) : Bool :=
  grantsAnew (adminGrant host db call)

/-- How many calls of a sequence grant anew to a user and under a key. -/
def applications (host : GrantHost) (userId : UserId) (key : String) :
    GrantDb → List GrantCall → Nat
  | _, [] => 0
  | db, call :: later =>
      (if applies host db call ∧ call.userId = userId ∧ call.idempotencyKey = key then 1
        else 0) + applications host userId key (adminGrant host db call).2 later

/-- What an answer has done to the subscriptions and the wallets. -/
structure EffectLaw (host : GrantHost) (db : GrantDb) (call : GrantCall)
    (answer : Except GrantRaised GrantResult × GrantDb) : Prop where
  unchanged : grantsAnew answer = false → answer.2 = db
  subscription : grantsAnew answer = true →
    answer.2.subscriptions = Function.update db.subscriptions call.userId
      (some ⟨.active, some call.plan, some call.expiresAt.moment⟩)
  others : ∀ userId, userId ≠ call.userId → answer.2.accounts userId = db.accounts userId
  uncredited : grantsAnew answer = true → call.grantCredits = false →
    answer.2.accounts call.userId = db.accounts call.userId
  credited : grantsAnew answer = true → call.grantCredits = true →
    let before := db.accounts call.userId
    let after := answer.2.accounts call.userId
    after.ledger = before.ledger ++ [(creditRequest call).row] ∧
      after.balance - after.debt =
        before.balance - before.debt + call.settings.subscriptionCreditsPerPeriod

/-! ## One call -/

section Call

variable {host : GrantHost} {db after : GrantDb} {call : GrantCall}
  {event : SubscriptionGrantEvent} {hash : String} {result : GrantResult}

@[simp] theorem grantsAnew_ok : grantsAnew (.ok result, db) = !result.idempotentReplay :=
  rfl

/-- A call whose statements reach the database is answered from the record of its key, if there is
one. -/
theorem adminGrant_recorded
    (hashed : payloadHash host call.plan call.expiresAt call.grantCredits = some hash)
    (kept : call.lost = false) (key : host.storable call.idempotencyKey = true)
    (plan : host.storable call.plan = true)
    (found : db.recorded call.userId call.idempotencyKey = some event) :
    adminGrant host db call = (handleExistingGrantEvent call.settings event hash, db) := by
  rw [adminGrant, hashed]
  dsimp only
  rw [kept, if_neg Bool.false_ne_true, key, plan, if_neg (by decide), found]

/-- A call which returns, or finds a conflict, has an expiry in UTC and texts which the database
takes. -/
theorem heard_of_answered
    (answered : (∃ result, (adminGrant host db call).1 = .ok result) ∨
      ∃ message, (adminGrant host db call).1 = .error (.conflict message)) :
    (∃ hash, payloadHash host call.plan call.expiresAt call.grantCredits = some hash) ∧
      call.lost = false ∧ host.storable call.idempotencyKey = true ∧
      host.storable call.plan = true := by
  rw [adminGrant] at answered
  cases hashed : payloadHash host call.plan call.expiresAt call.grantCredits with
  | none => simp [hashed] at answered
  | some hash =>
      rw [hashed] at answered
      dsimp only at answered
      split at answered
      · simp at answered
      next kept =>
        split at answered
        · simp at answered
        next taken =>
          rw [Bool.not_eq_false, Bool.and_eq_true] at taken
          exact ⟨⟨hash, rfl⟩, Bool.eq_false_iff.mpr kept, taken⟩

/-- The record which answers a call: what its digest is, and what it answers. -/
structure Answers (host : GrantHost) (event : SubscriptionGrantEvent) (call : GrantCall)
    (result : GrantResult) : Prop where
  hashed : payloadHash host call.plan call.expiresAt call.grantCredits =
    some event.payloadHash
  answer : { result with idempotentReplay := true } =
    ({ status := .active
       plan := event.plan
       expiresAt := event.expiresAt
       creditsGranted :=
         if event.grantCredits then some call.settings.subscriptionCreditsPerPeriod else none
       ledgerTxId := event.ledgerTxId
       idempotentReplay := true } : GrantResult)

/-- What a call does: it raises, or answers from the record, or is the first under its key. -/
inductive Done (host : GrantHost) (db : GrantDb) (call : GrantCall) :
    Except GrantRaised GrantResult × GrantDb → Prop
  | raised (raised : GrantRaised) : Done host db call (.error raised, db)
  | replayed (event : SubscriptionGrantEvent) (result : GrantResult)
      (found : db.recorded call.userId call.idempotencyKey = some event)
      (answers : Answers host event call result) (replay : result.idempotentReplay = true) :
      Done host db call (.ok result, db)
  | applied (event : SubscriptionGrantEvent) (result : GrantResult) (after : GrantDb)
      (account : Account) (ledgerTxId : Option TxId)
      (absent : db.recorded call.userId call.idempotencyKey = none)
      (owner : event.userId = call.userId) (key : event.idempotencyKey = call.idempotencyKey)
      (answers : Answers host event call result) (new : result.idempotentReplay = false)
      (credit : creditIfAsked host call (db.accounts call.userId) = .ok (ledgerTxId, account))
      (events : after.events = db.events ++ [event])
      (subscriptions : after.subscriptions = Function.update db.subscriptions call.userId
        (some ⟨.active, some call.plan, some call.expiresAt.moment⟩))
      (accounts : after.accounts = Function.update db.accounts call.userId account) :
      Done host db call (.ok result, after)

theorem done (host : GrantHost) (db : GrantDb) (call : GrantCall) :
    Done host db call (adminGrant host db call) := by
  rw [adminGrant]
  cases hashed : payloadHash host call.plan call.expiresAt call.grantCredits with
  | none => exact .raised .overflowError
  | some hash =>
      dsimp only
      split
      · exact .raised .database
      · split
        · exact .raised .refused
        · cases found : db.recorded call.userId call.idempotencyKey with
          | some event =>
              dsimp only
              rw [handleExistingGrantEvent]
              split
              · exact .raised _
              next same =>
                rw [← not_not.mp same] at hashed
                exact .replayed event _ found ⟨hashed, rfl⟩ rfl
          | none =>
              dsimp only
              split
              · exact .raised .refused
              · rw [applyNewGrant]
                cases credit : creditIfAsked host call (db.accounts call.userId) with
                | error raised => exact .raised raised
                | ok credited =>
                    exact .applied _ _ _ credited.2 credited.1 found rfl rfl ⟨hashed, rfl⟩ rfl
                      credit rfl rfl rfl

theorem Done.recorded {answer : Except GrantRaised GrantResult × GrantDb}
    (is_done : Done host db call answer) {userId : UserId} {key : String}
    (found : db.recorded userId key = some event) : answer.2.recorded userId key = some event := by
  cases is_done with
  | raised raised => exact found
  | replayed other result present answers replay => exact found
  | applied other result after account ledgerTxId absent owner named answers new credit events
      subscriptions accounts =>
      change List.find? _ after.events = _
      rw [events, List.find?_append]
      exact Option.or_eq_some_iff.mpr (.inl found)

theorem recorded_of_returned (returned : (adminGrant host db call).1 = .ok result) :
    ∃ event, (adminGrant host db call).2.recorded call.userId call.idempotencyKey =
      some event ∧ Answers host event call result := by
  have is_done := done host db call
  generalize adminGrant host db call = answer at is_done returned ⊢
  cases is_done with
  | raised raised => cases returned
  | replayed event other found answers replay =>
      cases returned
      exact ⟨event, found, answers⟩
  | applied event other after account ledgerTxId absent owner named answers new credit events
      subscriptions accounts =>
      cases returned
      refine ⟨event, ?_, answers⟩
      have matched : (event.userId == call.userId &&
          event.idempotencyKey == call.idempotencyKey) = true := by
        rw [owner, named, beq_self_eq_true, beq_self_eq_true, Bool.and_self]
      change List.find? _ after.events = _
      rw [events, List.find?_append]
      exact Option.or_eq_some_iff.mpr (.inr ⟨absent, List.find?_cons_of_pos matched⟩)

theorem runAll_cons (call : GrantCall) (later : List GrantCall) :
    runAll host db (call :: later) =
      runAll host (adminGrant host db call).2 later :=
  rfl

theorem runAll_append (calls later : List GrantCall) :
    runAll host db (calls ++ later) = runAll host (runAll host db calls) later :=
  List.foldl_append

theorem recorded_runAll (calls : List GrantCall) {userId : UserId} {key : String}
    (found : db.recorded userId key = some event) :
    (runAll host db calls).recorded userId key = some event := by
  induction calls generalizing db with
  | nil => exact found
  | cons call later induction => exact induction ((done host db call).recorded found)

end Call

/-! ## The payload -/

section Payload

variable {host : GrantHost} {first again : GrantCall}

theorem unitSeparator_notMem_flagText (grantCredits : Bool) :
    unitSeparator ∉ flagText grantCredits := by
  cases grantCredits <;> decide

theorem flagText_inj {flag other : Bool} (same : flagText flag = flagText other) :
    flag = other := by
  cases flag <;> cases other
  · rfl
  · exact absurd same (by decide)
  · exact absurd same (by decide)
  · rfl

theorem canonical_inj {plan other : String} {moment later : Instant} {flag mark : Bool}
    (fits : Calendar.Representable moment) (later_fits : Calendar.Representable later)
    (same : canonical plan moment flag = canonical other later mark) :
    plan = other ∧ moment = later ∧ flag = mark := by
  have texts := congrArg (Text.rpartition unitSeparator) (String.ofList_injective same)
  rw [Text.rpartition_append _ _ _ (unitSeparator_notMem_flagText flag),
    Text.rpartition_append _ _ _ (unitSeparator_notMem_flagText mark)] at texts
  obtain ⟨heads, flags⟩ := Prod.mk.inj texts
  have absent : ∀ moment, unitSeparator ∉ Calendar.isoformat moment :=
    Calendar.notMem_isoformat (by decide) (by decide)
  have parts := congrArg (Text.rpartition unitSeparator) heads
  rw [Text.rpartition_append _ _ _ (absent moment),
    Text.rpartition_append _ _ _ (absent later)] at parts
  obtain ⟨plans, moments⟩ := Prod.mk.inj parts
  exact ⟨String.toList_injective plans, Calendar.isoformat_inj fits later_fits moments,
    flagText_inj flags⟩

theorem payloadHash_eq_some {plan : String} {expiresAt : Datetime} {grantCredits : Bool}
    {hash : String} (hashed : payloadHash host plan expiresAt grantCredits = some hash) :
    Calendar.Representable expiresAt.moment ∧
      host.sha256 (canonical plan expiresAt.moment grantCredits) = hash := by
  rw [payloadHash] at hashed
  split at hashed
  next fits => exact ⟨fits, Option.some.inj hashed⟩
  · cases hashed

/-- The digests of two payloads differ if the payloads do. -/
def Apart (host : GrantHost) (first again : GrantCall) : Prop :=
  host.sha256 (canonical first.plan first.expiresAt.moment first.grantCredits) =
      host.sha256 (canonical again.plan again.expiresAt.moment again.grantCredits) →
    canonical first.plan first.expiresAt.moment first.grantCredits =
      canonical again.plan again.expiresAt.moment again.grantCredits

/-- The repeating call reaches its record, which answers it as it has answered before. -/
structure Heeded (host : GrantHost) (db : GrantDb) (first again : GrantCall) : Prop where
  dated : Calendar.Representable again.expiresAt.moment
  storable : host.storable again.plan = true
  connected : again.lost = false
  priced : again.SamePayload first →
    ∀ event, db.recorded again.userId again.idempotencyKey = some event →
      event.grantCredits = true →
        again.settings.subscriptionCreditsPerPeriod = first.settings.subscriptionCreditsPerPeriod

theorem RepeatLaw.answered {db : GrantDb} {result : GrantResult}
    (law : RepeatLaw host db result first again) :
    (∃ replay, (adminGrant host db again).1 = .ok replay) ∨
      ∃ message, (adminGrant host db again).1 = .error (.conflict message) := by
  rcases Classical.em (again.SamePayload first) with same | different
  · obtain ⟨replay, -, answered⟩ := law.same same
    exact .inl ⟨replay, by rw [answered]⟩
  · obtain ⟨message, refused⟩ := law.other different
    exact .inr ⟨message, by rw [refused]⟩

theorem repeatLaw_iff {db : GrantDb} {event : SubscriptionGrantEvent} {result : GrantResult}
    (found : db.recorded again.userId again.idempotencyKey = some event)
    (answers : Answers host event first result)
    (key : host.storable again.idempotencyKey = true) (apart : Apart host first again) :
    RepeatLaw host db result first again ↔ Heeded host db first again := by
  obtain ⟨first_fits, first_hash⟩ := payloadHash_eq_some answers.hashed
  -- What the record answers to the payload of the first call.
  have replays (kept : again.lost = false) (plan : host.storable again.plan = true)
      (same : again.SamePayload first) :
      adminGrant host db again = (.ok {
        status := .active
        plan := event.plan
        expiresAt := event.expiresAt
        creditsGranted :=
          if event.grantCredits then some again.settings.subscriptionCreditsPerPeriod else none
        ledgerTxId := event.ledgerTxId
        idempotentReplay := true }, db) := by
    have hashed : payloadHash host again.plan again.expiresAt again.grantCredits =
        some event.payloadHash := by
      obtain ⟨plans, moments, flags⟩ := same
      rw [payloadHash, plans, moments, flags, if_pos first_fits, first_hash]
    rw [adminGrant_recorded hashed kept key plan found, handleExistingGrantEvent,
      if_neg (by simp)]
  constructor
  · intro law
    obtain ⟨⟨hash, hashed⟩, kept, -, plan⟩ := heard_of_answered law.answered
    refine ⟨(payloadHash_eq_some hashed).1, plan, kept, fun same other recorded credited => ?_⟩
    cases found.symm.trans recorded
    obtain ⟨replay, same_result, answered⟩ := law.same same
    rw [replays kept plan same] at answered
    cases answered
    have credits := congrArg GrantResult.creditsGranted (same_result.trans answers.answer)
    simpa [credited] using credits
  · intro heeded
    constructor
    · intro same
      refine ⟨_, ?_, replays heeded.connected heeded.storable same⟩
      rw [GrantResult.Replays, answers.answer]
      cases credited : event.grantCredits with
      | false => rfl
      | true => rw [heeded.priced same event found credited]
    · intro different
      have hashed : payloadHash host again.plan again.expiresAt again.grantCredits =
          some (host.sha256 (canonical again.plan again.expiresAt.moment again.grantCredits)) :=
        if_pos heeded.dated
      refine ⟨"idempotency key reused with different payload", ?_⟩
      rw [adminGrant_recorded hashed heeded.connected key heeded.storable found,
        handleExistingGrantEvent, if_pos]
      intro same
      rw [← first_hash] at same
      obtain ⟨plans, moments, flags⟩ := canonical_inj first_fits heeded.dated (apart same)
      exact different ⟨plans.symm, moments.symm, flags.symm⟩

end Payload

/-! ## A sequence of calls -/

section Sequence

variable {host : GrantHost} {db : GrantDb} {call : GrantCall} {userId : UserId}
  {key : String} {event : SubscriptionGrantEvent}

theorem applies_of_recorded (found : db.recorded call.userId call.idempotencyKey = some event) :
    applies host db call = false := by
  rw [applies]
  have is_done := done host db call
  generalize adminGrant host db call = answer at is_done ⊢
  cases is_done with
  | raised raised => rfl
  | replayed other result present answers replay =>
      rw [grantsAnew_ok, replay, Bool.not_true]
  | applied other result after account ledgerTxId absent owner named answers new credit events
      subscriptions accounts =>
      rw [found] at absent
      cases absent

theorem recorded_of_absent (host : GrantHost) (call : GrantCall)
    (absent : db.recorded userId key = none) :
    (applies host db call ∧ call.userId = userId ∧ call.idempotencyKey = key) ∧
        ((adminGrant host db call).2.recorded userId key).isSome = true ∨
      ¬ (applies host db call ∧ call.userId = userId ∧ call.idempotencyKey = key) ∧
        (adminGrant host db call).2.recorded userId key = none := by
  rw [applies]
  have is_done := done host db call
  generalize adminGrant host db call = answer at is_done ⊢
  cases is_done with
  | raised raised => exact .inr ⟨fun both => Bool.false_ne_true both.1, absent⟩
  | replayed event result present answers replay =>
      refine .inr ⟨fun both => ?_, absent⟩
      rw [both.2.1, both.2.2, absent] at present
      cases present
  | applied event result after account ledgerTxId missing owner named answers new credit events
      subscriptions accounts =>
      have recorded_eq : after.recorded userId key =
          [event].find? fun event => event.userId == userId && event.idempotencyKey == key := by
        change List.find? _ after.events = _
        rw [events, List.find?_append]
        exact (congrArg (Option.or · _) absent).trans (Option.none_or)
      rw [grantsAnew_ok, recorded_eq, new, ← owner, ← named]
      by_cases mine : event.userId = userId ∧ event.idempotencyKey = key
      · refine .inl ⟨⟨rfl, mine⟩, ?_⟩
        simp [mine.1, mine.2]
      · refine .inr ⟨fun both => mine both.2, ?_⟩
        simpa using mine

theorem applications_of_recorded (calls : List GrantCall)
    (found : db.recorded userId key = some event) :
    applications host userId key db calls = 0 := by
  induction calls generalizing db with
  | nil => rfl
  | cons call later induction =>
      rw [applications, induction ((done host db call).recorded found), if_neg]
      rintro ⟨granted, rfl, rfl⟩
      rw [applies_of_recorded found] at granted
      cases granted

/-- A key is granted under once if it is recorded in the end, and else never. -/
theorem applications_cases (host : GrantHost) (calls : List GrantCall)
    (absent : db.recorded userId key = none) :
    applications host userId key db calls = 1 ∧
        ((runAll host db calls).recorded userId key).isSome = true ∨
      applications host userId key db calls = 0 ∧
        (runAll host db calls).recorded userId key = none := by
  induction calls generalizing db with
  | nil => exact .inr ⟨rfl, absent⟩
  | cons call later induction =>
      rw [applications, runAll_cons]
      obtain ⟨granted, present⟩ | ⟨passed, missing⟩ := recorded_of_absent host call absent
      · obtain ⟨event, found⟩ := Option.isSome_iff_exists.mp present
        rw [if_pos granted, applications_of_recorded later found, recorded_runAll later found]
        exact .inl ⟨rfl, rfl⟩
      · rw [if_neg passed, Nat.zero_add]
        exact induction missing

/-- A credit stands only under the key of a grant on record. -/
def Anchored (db : GrantDb) : Prop :=
  ∀ userId key, db.recorded userId key = none →
    (db.accounts userId).existing (creditKey key) = none

theorem Fresh.anchored (fresh : Fresh db) : Anchored db :=
  fun userId key _ => fresh.credits userId key

theorem creditKey_injective : Function.Injective creditKey := by
  intro key other same
  exact (String.append_right_inj _).mp same

theorem creditIfAsked_ok {account after : Account} {ledgerTxId : Option TxId}
    (credit : creditIfAsked host call account = .ok (ledgerTxId, after))
    (free : account.existing (creditKey call.idempotencyKey) = none) :
    call.grantCredits = false ∧ after = account ∨
      call.grantCredits = true ∧
        after.ledger = account.ledger ++ [(creditRequest call).row] ∧
        after.balance - after.debt =
          account.balance - account.debt + call.settings.subscriptionCreditsPerPeriod := by
  rw [creditIfAsked] at credit
  split at credit
  next asked =>
    dsimp only at credit
    split at credit
    next granted final concluded =>
      split at credit
      · cases credit
        exact .inr ⟨asked, Call.grant_of_free concluded free⟩
      · cases credit
    · cases credit
    · cases credit
  next unasked =>
    cases credit
    exact .inl ⟨Bool.eq_false_iff.mpr unasked, rfl⟩

theorem Anchored.adminGrant (anchored : Anchored db) (call : GrantCall) :
    Anchored (adminGrant host db call).2 := by
  have is_done := done host db call
  generalize AdminGrant.adminGrant host db call = answer at is_done ⊢
  cases is_done with
  | raised raised => exact anchored
  | replayed event result found answers replay => exact anchored
  | applied event result after account ledgerTxId absent owner named answers new credit events
      subscriptions accounts =>
      intro userId key missing
      change List.find? _ after.events = none at missing
      rw [events, List.find?_append, Option.or_eq_none_iff] at missing
      obtain ⟨earlier, unmatched⟩ := missing
      change (after.accounts userId).existing (creditKey key) = none
      by_cases mine : userId = call.userId
      · rw [accounts, mine, Function.update_self]
        have other_key : key ≠ call.idempotencyKey := by
          intro same
          simp [owner, named, mine, same] at unmatched
        have free := anchored userId key earlier
        rw [mine] at free
        obtain ⟨-, same⟩ | ⟨-, ledger, -⟩ :=
          creditIfAsked_ok credit (anchored call.userId call.idempotencyKey absent)
        · rw [same]
          exact free
        · have unused : ((creditRequest call).row.idempotencyKey == creditKey key) =
              false :=
            beq_eq_false_iff_ne.mpr fun same => other_key (creditKey_injective same).symm
          rw [Account.existing, ledger, List.find?_append, Option.or_eq_none_iff]
          exact ⟨free, by rw [List.find?_singleton, unused]; rfl⟩
      · rw [accounts, Function.update_of_ne mine]
        exact anchored userId key earlier

theorem Anchored.runAll (anchored : Anchored db) (calls : List GrantCall) :
    Anchored (runAll host db calls) := by
  induction calls generalizing db with
  | nil => exact anchored
  | cons call later induction => exact induction (anchored.adminGrant call)

theorem effectLaw (anchored : Anchored db) (call : GrantCall) :
    EffectLaw host db call (adminGrant host db call) := by
  have is_done := done host db call
  generalize adminGrant host db call = answer at is_done ⊢
  cases is_done with
  | raised raised =>
      refine ⟨fun _ => rfl, ?_, fun _ _ => rfl, fun _ _ => rfl, ?_⟩
      · rintro ⟨⟩
      · rintro ⟨⟩
  | replayed event result found answers replay =>
      have idle : grantsAnew (.ok result, db) = false := by
        rw [grantsAnew_ok, replay, Bool.not_true]
      refine ⟨fun _ => rfl, ?_, fun _ _ => rfl, fun _ _ => rfl, ?_⟩
      · rw [idle]
        rintro ⟨⟩
      · rw [idle]
        rintro ⟨⟩
  | applied event result after account ledgerTxId absent owner named answers new credit events
      subscriptions accounts =>
      have anew : grantsAnew (.ok result, after) = true := by
        rw [grantsAnew_ok, new, Bool.not_false]
      have mine : after.accounts call.userId = account := by
        rw [accounts, Function.update_self]
      have free := anchored call.userId call.idempotencyKey absent
      refine ⟨?_, fun _ => subscriptions, ?_, ?_, ?_⟩
      · rw [anew]
        rintro ⟨⟩
      · intro userId other
        rw [accounts, Function.update_of_ne other]
      · intro _ unasked
        dsimp only
        obtain ⟨-, same⟩ | ⟨asked, -⟩ := creditIfAsked_ok credit free
        · rw [mine, same]
        · rw [unasked] at asked
          cases asked
      · intro _ asked
        dsimp only
        obtain ⟨unasked, -⟩ | ⟨-, credited⟩ := creditIfAsked_ok credit free
        · rw [asked] at unasked
          cases unasked
        · rw [mine]
          exact credited

end Sequence

/-- In a sequence of calls from fresh tables a repeated key is answered as promised exactly if the
call is heeded; and each key is granted under once, by a call which does as asked. -/
theorem adminGrant_lawful_iff (host : GrantHost) (start : GrantDb) (fresh : Fresh start)
    (before between : List GrantCall) (first again : GrantCall) (result : GrantResult)
    (returned : (adminGrant host (runAll host start before) first).1 = .ok result)
    (repeats : again.Repeats first) (apart : Apart host first again) :
    (RepeatLaw host (runAll host start (before ++ first :: between)) result first again ↔
      Heeded host (runAll host start (before ++ first :: between)) first again) ∧
    applications host again.userId again.idempotencyKey start
      (before ++ first :: (between ++ [again])) = 1 ∧
    ∀ prior call later, before ++ first :: (between ++ [again]) = prior ++ call :: later →
      EffectLaw host (runAll host start prior) call
        (adminGrant host (runAll host start prior) call) := by
  obtain ⟨user_eq, key_eq⟩ := repeats
  obtain ⟨event, found, answers⟩ := recorded_of_returned returned
  obtain ⟨-, -, key, -⟩ := heard_of_answered (.inl ⟨result, returned⟩)
  rw [← user_eq, ← key_eq] at found
  rw [← key_eq] at key
  have unrecorded : start.recorded again.userId again.idempotencyKey = none := by
    rw [GrantDb.recorded, fresh.events, List.find?_nil]
  refine ⟨?_, ?_, fun prior call later _ => effectLaw (fresh.anchored.runAll prior) call⟩
  · rw [runAll_append, runAll_cons]
    exact repeatLaw_iff (recorded_runAll between found) answers key apart
  · obtain ⟨once, -⟩ | ⟨-, missing⟩ := applications_cases host
      (before ++ first :: (between ++ [again])) unrecorded
    · exact once
    · rw [runAll_append, runAll_cons, recorded_runAll (between ++ [again]) found] at missing
      cases missing

/-! ## Two operators -/

namespace Sample

/-- The digests are those of the two payloads below. -/
def host : GrantHost where
  sha256 text :=
    if text = canonical "pro" 1798761600000000 true then
      "8bc4671610ceaeb68224d261af963ae611f7b85b562a94134dc9a04589170f3c"
    else if text = canonical "basic" 1830297600000000 false then
      "a7c0fd835bf67194f24fe49a0aab8af85af8dd38c640ec6bccb6c84b36443ca3"
    else text
  storable text := !text.toList.contains (Char.ofNat 0)
  indexable key := decide (key.toList.length ≤ 600)

/-- A thousand credits a period. -/
def settings : GrantSettings where
  subscriptionCreditsPerPeriod := 1000
  agentDebtReconcileEnabled := true

/-- Until the beginning of 2027, written in a zone three hours ahead. -/
def first : GrantCall where
  settings := settings
  userId := ⟨1⟩
  plan := "pro"
  expiresAt := ⟨1798772400000000, some 10800000000, by decide⟩
  grantCredits := true
  idempotencyKey := "ticket-7"
  reason := "support"
  newId := ⟨1⟩

/-- Another plan under another key. -/
def between : GrantCall where
  settings := settings
  userId := ⟨1⟩
  plan := "basic"
  expiresAt := ⟨1830297600000000, some 0, by decide⟩
  grantCredits := false
  idempotencyKey := "ticket-8"
  reason := "downgrade"
  newId := ⟨2⟩

/-- The first call again, its expiry written in UTC. -/
def again : GrantCall :=
  { first with expiresAt := ⟨1798761600000000, some 0, by decide⟩, newId := ⟨3⟩ }

/-- The first key with the last second of the year 9999, an hour behind UTC. -/
def late : GrantCall :=
  { first with expiresAt := ⟨253402300799000000, some (-3600000000), by decide⟩ }

def granted : GrantResult where
  status := .active
  plan := "pro"
  expiresAt := 1798761600000000
  creditsGranted := some 1000
  ledgerTxId := some ⟨1⟩
  idempotentReplay := false

theorem fresh : Fresh {} :=
  ⟨rfl, fun _ _ => rfl⟩

theorem first_returned : (adminGrant host {} first).1 = .ok granted := by
  decide

/-- The first call is answered from its record after the plan has changed. -/
theorem replayed_after_other_key :
    RepeatLaw host (runAll host {} [first, between]) granted first again ∧
      applications host ⟨1⟩ "ticket-7" {} [first, between, again] = 1 := by
  obtain ⟨law, once, -⟩ := adminGrant_lawful_iff host {} fresh [] [between] first again granted
    first_returned ⟨rfl, rfl⟩ fun _ => rfl
  exact ⟨law.mpr ⟨by decide, by decide, rfl, fun _ _ _ _ => rfl⟩, once⟩

/-- The late call is no conflict: its expiry has no datetime in UTC. -/
theorem late_expiry_raises :
    (adminGrant host {} first).1 = .ok granted ∧ late.Repeats first ∧ late.lost = false ∧
      ¬ RepeatLaw host (runAll host {} [first]) granted first late := by
  refine ⟨first_returned, ⟨rfl, rfl⟩, rfl, fun law => ?_⟩
  have different : ¬ late.SamePayload first := by
    rintro ⟨-, moments, -⟩
    exact absurd moments (by decide)
  obtain ⟨message, refused⟩ := law.other different
  have raised : (adminGrant host (runAll host {} [first]) late).1 =
      .error .overflowError := by
    rw [adminGrant, payloadHash, if_neg (by decide)]
  rw [refused] at raised
  cases raised

end Sample

end Hermes.Billing.AdminGrant
