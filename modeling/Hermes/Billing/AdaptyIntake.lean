import Hermes.Billing.Adapty
import Hermes.Billing.Intake
import Hermes.Wallet.Admission

/-!
# What the Adapty webhook raises

The service behind the posted bytes, with everything a payload can make it raise, and the exact
condition under which it answers.
-/

namespace Hermes.Billing.Adapty

open Wallet (TxId)
open JsonDecoder Encoding Jsonb

/-! ## Reading a decoded object -/

/-- `_first_str` of decoded values. -/
def firstText (candidates : List (Option Parsed)) : Option (List Nat) :=
  candidates.findSome? fun candidate =>
    match candidate with
    | some (.str text) => if text ≠ [] then some text else none
    | _ => none

/-- `_as_dict` of a decoded value. -/
def asFields : Option Parsed → List (List Nat × Parsed)
  | some (.obj fields) => fields
  | _ => []

/-- `parse_event_id`, as it was sent. -/
def sentEventId (fields : List (List Nat × Parsed)) : Option (List Nat) :=
  firstText [Parsed.get? fields "event_id", Parsed.get? fields "id"]

/-- `parse_vendor_product_id`, as it was sent. -/
def sentProductId (fields : List (List Nat × Parsed)) : Option (List Nat) :=
  let props := asFields (Parsed.get? fields "event_properties")
  firstText [Parsed.get? props "vendor_product_id", Parsed.get? props "product_id",
    Parsed.get? fields "vendor_product_id", Parsed.get? fields "product_id"]

/-! ## The service -/

variable (host : Host) (environment : Environment)

def Environment.given (fields : List (List Nat × Parsed)) : Environment :=
  { environment with loads := fun _ => some (Parsed.obj fields).toJson }

/-- The parameters which only a granting event has: the product and the expiry of the subscription
row, and the key of the credit. -/
def sendGranting (fields : List (List Nat × Parsed)) (event : ParsedEvent) : Except Raised Unit :=
  if event.eventType.granting then do
    sendOptional (fun productId => insist (Host.sendText productId)) (sentProductId fields)
    sendOptional sendMoment event.expiresAt
    insist (host.enterKey (grantKey event.eventId))
  else .ok ()

/-- `_apply` of a new event behind its row. -/
def applyChange (db : Db) (event : ParsedEvent) (body : Fields) (newId : TxId) :
    Except Raised (WebhookOutcome × Db) :=
  match applyNew environment db event body newId with
  | none => .error .credit
  | some after => .ok (.applied, after)

/-- `_apply` with the parameters of its statements. -/
def applySent (db : Db) (fields : List (List Nat × Parsed)) (event : ParsedEvent) (body : Fields)
    (newId : TxId) : Except Raised (WebhookOutcome × Db) := do
  insist (Host.sendText ((sentEventId fields).getD []))
  insist (host.castJsonb (.obj fields))
  if event.eventId ∈ db.eventIds then return (.duplicate, db)
  insist (host.enterKey event.eventId)
  sendGranting host fields event
  applyChange environment db event body newId

/-- `handle` from the posted bytes on.  A lone surrogate is the replacement character to the field
readers: neither of them is part of an event type, a UUID or a moment. -/
def receive (db : Db) (delivery : Delivery) : Except Raised (WebhookOutcome × Db) :=
  if delivery.raw = [] then .ok (.ignored (some "empty_body") none, db)
  else
    match host.loads delivery.raw with
    | .error .recursion => .error .recursion
    | .error .value => .ok (.ignored (some "invalid_json") none, db)
    | .ok (.obj fields) =>
        match recognize (environment.given fields) delivery.raw with
        | .error ignored => .ok (ignored, db)
        | .ok (event, body) =>
            if delivery.lost then .error .unavailable
            else applySent host environment db fields event body delivery.newId
    | .ok _ => .ok (.ignored (some "not_an_object") none, db)

/-! ## The condition -/

/-- An outcome instead of an exception, and for a payload which cannot be used the outcome
`ignored`. -/
def Answered (raw : List UInt8) : Except Raised (WebhookOutcome × Db) → Prop
  | .ok (outcome, _) => Unusable host raw → ∃ reason eventType, outcome = .ignored reason eventType
  | .error raised => raised.external = true

/-- The bytes carry an event which is to be applied. -/
def Carries (raw : List UInt8) (fields : List (List Nat × Parsed)) (event : ParsedEvent) : Prop :=
  host.loads raw = .ok (.obj fields) ∧
    ∃ body, recognize (environment.given fields) raw = .ok (event, body)

/-- The credit of a granting event is possible. -/
structure Grantable (db : Db) (fields : List (List Nat × Parsed)) (event : ParsedEvent)
    (newId : TxId) : Prop where
  product : ∀ productId, sentProductId fields = some productId → storableText productId = true
  expiry : ∀ moment, event.expiresAt = some moment → firstInstant ≤ moment ∧ moment ≤ lastInstant
  key : host.indexable (grantKey event.eventId) = true
  admitted : Wallet.CreditAdmitted
    ⟨event.customerUserId, fun _ => none, environment.agentDebtReconcileEnabled⟩
    (grantRequest environment event newId) (db.accounts event.customerUserId)

/-- The database takes what the statements for an event bring to it. -/
structure Acceptable (db : Db) (fields : List (List Nat × Parsed)) (event : ParsedEvent)
    (newId : TxId) : Prop where
  eventId : storableText ((sentEventId fields).getD []) = true
  payload : host.Persists (.obj fields)
  key : event.eventId ∉ db.eventIds → host.indexable event.eventId = true
  credit : event.eventId ∉ db.eventIds → event.eventType.granting = true →
    Grantable host environment db fields event newId

/-- No stage of the webhook stumbles over the payload. -/
structure Harmless (db : Db) (delivery : Delivery) : Prop where
  decodes : host.loads delivery.raw ≠ .error .recursion
  accepted : ∀ fields event, Carries host environment delivery.raw fields event →
    delivery.lost = false → Acceptable host environment db fields event delivery.newId

section Answers

variable {host : Host} {environment : Environment} {db after : Db}
  {fields : List (List Nat × Parsed)} {event : ParsedEvent} {body : Fields} {newId : TxId}
  {delivery : Delivery}

theorem grant_iff {account : Wallet.Account} :
    (∃ credited, grant environment event newId account = some credited) ↔
      Wallet.CreditAdmitted
        ⟨event.customerUserId, fun _ => none, environment.agentDebtReconcileEnabled⟩
        (grantRequest environment event newId) account := by
  have granted := Wallet.Call.run_grant_iff
    ⟨event.customerUserId, fun _ => none, environment.agentDebtReconcileEnabled⟩
    (grantRequest environment event newId) account
  constructor
  · rintro ⟨credited, made⟩
    simp only [grant] at made
    split at made
    next result left ran => exact granted.2 result left ran
    · cases made
  · intro admitted
    obtain ⟨result, ran⟩ := granted.1 admitted
    simp only [grant, ran]
    exact ⟨_, rfl⟩

/-- A new event is applied where the credit it may bring is admitted. -/
theorem applyChange_iff :
    (∃ result, applyChange environment db event body newId = .ok result) ↔
      (event.eventType.granting = true → Wallet.CreditAdmitted
        ⟨event.customerUserId, fun _ => none, environment.agentDebtReconcileEnabled⟩
        (grantRequest environment event newId) (db.accounts event.customerUserId)) := by
  rw [applyChange, applyNew, grantIfGranting]
  cases grants : event.eventType.granting with
  | false =>
      rw [if_neg (by simp)]
      exact iff_of_true ⟨_, rfl⟩ fun absent => by cases absent
  | true =>
      rw [if_pos rfl]
      rw [forall_prop_of_true rfl, ← grant_iff]
      cases made : grant environment event newId (db.accounts event.customerUserId) with
      | none =>
          exact iff_of_false (fun ran => by cases ran.choose_spec)
            fun credited => by cases credited.choose_spec
      | some credited => exact iff_of_true ⟨_, rfl⟩ ⟨credited, rfl⟩

theorem sendGranting_iff :
    sendGranting host fields event = .ok () ↔ (event.eventType.granting = true →
      (∀ productId, sentProductId fields = some productId → storableText productId = true) ∧
      (∀ moment, event.expiresAt = some moment → firstInstant ≤ moment ∧ moment ≤ lastInstant) ∧
      host.indexable (grantKey event.eventId) = true) := by
  rw [sendGranting]
  cases event.eventType.granting with
  | false =>
      rw [if_neg (by simp)]
      exact iff_of_true rfl fun absent => by cases absent
  | true =>
      rw [if_pos rfl, forall_prop_of_true rfl]
      simp only [except_seq_ok_iff, sendOptional_ok_iff, sendMoment_ok_iff, insist_ok_iff,
        sendText_ok_iff, Host.enterKey_ok_iff]

/-- `_apply` answers where the database takes everything it is given. -/
theorem applySent_iff :
    (∃ result, applySent host environment db fields event body newId = .ok result) ↔
      Acceptable host environment db fields event newId := by
  simp only [applySent, except_seq_ok_iff, exists_and_left, insist_ok_iff, sendText_ok_iff,
    Host.castJsonb_ok_iff]
  rcases Decidable.em (event.eventId ∈ db.eventIds) with recorded | fresh
  · simp only [recorded, if_true]
    constructor
    · rintro ⟨eventId, payload, -⟩
      exact ⟨eventId, payload, fun fresh => absurd recorded fresh,
        fun fresh => absurd recorded fresh⟩
    · intro acceptable
      exact ⟨acceptable.eventId, acceptable.payload, _, rfl⟩
  · simp only [fresh, if_false, except_seq_ok_iff, exists_and_left, insist_ok_iff,
      Host.enterKey_ok_iff, sendGranting_iff, applyChange_iff]
    constructor
    · rintro ⟨eventId, payload, key, sent, admitted⟩
      refine ⟨eventId, payload, fun _ => key, fun _ grants => ?_⟩
      obtain ⟨product, expiry, grantKey⟩ := sent grants
      exact ⟨product, expiry, grantKey, admitted grants⟩
    · intro acceptable
      refine ⟨acceptable.eventId, acceptable.payload, acceptable.key fresh, fun grants => ?_,
        fun grants => (acceptable.credit fresh grants).admitted⟩
      have grantable := acceptable.credit fresh grants
      exact ⟨grantable.product, grantable.expiry, grantable.key⟩

theorem recognize_error {raw : List UInt8} {outcome : WebhookOutcome}
    (stopped : recognize environment raw = .error outcome) :
    ∃ reason eventType, outcome = .ignored reason eventType := by
  simp only [recognize] at stopped
  repeat' split at stopped
  all_goals first
    | exact ⟨_, _, (Except.error.inj stopped).symm⟩
    | cases stopped

theorem internal_applySent :
    Internal (applySent host environment db fields event body newId) := by
  have changes : Internal (applyChange environment db event body newId) := by
    intro raised failed
    rw [applyChange] at failed
    split at failed
    · cases failed
      rfl
    · cases failed
  have grants : Internal (sendGranting host fields event) :=
    .ite
      (.bind (internal_sendOptional (fun _ => internal_insist _) _) fun _ =>
        .bind (internal_sendOptional internal_sendMoment _) fun _ => internal_insist _)
      (.ok ())
  refine .bind (internal_insist _) fun _ => .bind (internal_insist _) fun _ => .ite (.ok _) ?_
  exact .bind (internal_insist _) fun _ => .bind grants fun _ => changes

/-- An event which is recognized is answered where it is acceptable. -/
theorem applySent_answered_iff {raw : List UInt8} (decoded : host.loads raw = .ok (.obj fields)) :
    Answered host raw (applySent host environment db fields event body newId) ↔
      Acceptable host environment db fields event newId := by
  rw [← @applySent_iff _ _ _ _ _ body _]
  cases ran : applySent host environment db fields event body newId with
  | error raised =>
      refine iff_of_false (fun external => ?_) fun answered => by cases answered.choose_spec
      rw [Answered, internal_applySent raised ran] at external
      cases external
  | ok result =>
      have acceptable := applySent_iff.mp ⟨result, ran⟩
      refine iff_of_true (fun unusable => ?_) ⟨result, rfl⟩
      exact absurd acceptable.payload (unusable _ decoded)

theorem harmless_of_no_object (shallow : host.loads delivery.raw ≠ .error .recursion)
    (absent : ∀ fields, host.loads delivery.raw ≠ .ok (.obj fields)) :
    Harmless host environment db delivery where
  decodes := shallow
  accepted fields _ carries := absurd carries.1 (absent fields)

theorem receive_answered_iff :
    Answered host delivery.raw (receive host environment db delivery) ↔
      Harmless host environment db delivery := by
  rw [receive]
  split
  next empty =>
    have nothing : host.loads delivery.raw = .error .value := by rw [empty, Host.loads_nil]
    exact iff_of_true (fun _ => ⟨_, _, rfl⟩)
      (harmless_of_no_object (by simp [nothing]) (by simp [nothing]))
  next nonempty =>
    split
    next deep =>
      exact iff_of_false (fun external => by cases external) fun harmless => harmless.decodes deep
    next invalid =>
      exact iff_of_true (fun _ => ⟨_, _, rfl⟩)
        (harmless_of_no_object (by simp [invalid]) (by simp [invalid]))
    next fields decoded =>
      split
      next ignored stopped =>
        refine iff_of_true (fun _ => recognize_error stopped) ⟨by simp [decoded], ?_⟩
        rintro other event ⟨found, body, recognized⟩
        cases decoded.symm.trans found
        cases stopped.symm.trans recognized
      next event body recognized =>
        have carried : Carries host environment delivery.raw fields event :=
          ⟨decoded, body, recognized⟩
        split
        next lost =>
          refine iff_of_true rfl ⟨by simp [decoded], fun _ _ _ kept => ?_⟩
          cases lost.symm.trans kept
        next kept =>
          rw [applySent_answered_iff decoded]
          constructor
          · intro acceptable
            refine ⟨by simp [decoded], ?_⟩
            rintro other event' ⟨found, body', again⟩ -
            cases decoded.symm.trans found
            cases recognized.symm.trans again
            exact acceptable
          · intro harmless
            exact harmless.accepted fields event carried (by simpa using kept)
    next value other decoded =>
      refine iff_of_true (fun _ => ⟨_, _, rfl⟩) (harmless_of_no_object (by simp [decoded]) ?_)
      exact fun fields found => other fields (Except.ok.inj (decoded.symm.trans found))

end Answers

/-! ## The events behind it -/

section Refinement

variable {host : Host} {environment : Environment} {db after : Db}
  {fields : List (List Nat × Parsed)} {delivery : Delivery} {outcome : WebhookOutcome}

/-- The decoder of a host, with the texts rendered. -/
def Environment.decoding (environment : Environment) (host : Host) : Environment :=
  { environment with loads := fun raw => (host.loads raw).toOption.map Parsed.toJson }

theorem recognize_decoding {raw : List UInt8} (decoded : host.loads raw = .ok (.obj fields)) :
    recognize (environment.decoding host) raw = recognize (environment.given fields) raw := by
  simp only [recognize, Environment.decoding, Environment.given, decoded, Except.toOption,
    Option.map_some]
  rfl

theorem apply_of_applySent {event : ParsedEvent} {body : Fields} {newId : TxId}
    (applied : applySent host environment db fields event body newId = .ok (outcome, after)) :
    apply environment db event body newId = some (outcome, after) := by
  simp only [applySent, except_seq_ok_iff] at applied
  obtain ⟨-, -, applied⟩ := applied
  rw [apply]
  split at applied
  next recorded =>
    cases applied
    rw [if_pos recorded]
  next fresh =>
    rw [if_neg fresh]
    simp only [except_seq_ok_iff] at applied
    obtain ⟨-, -, changed⟩ := applied
    rw [applyChange] at changed
    split at changed
    · cases changed
    next written =>
      cases changed
      rw [written, Option.map_some]

theorem handle_of_receive
    (answered : receive host environment db delivery = .ok (outcome, after)) :
    handle (environment.decoding host) db delivery = (some outcome, after) := by
  rw [receive] at answered
  rw [handle]
  split at answered
  next empty =>
    cases answered
    rw [recognize, if_pos empty]
  next nonempty =>
    split at answered
    · cases answered
    next invalid =>
      cases answered
      rw [recognize, if_neg nonempty]
      simp only [Environment.decoding, invalid, Except.toOption, Option.map_none]
    next fields decoded =>
      rw [recognize_decoding decoded]
      rcases recognized : recognize (environment.given fields) delivery.raw with
        ignored | ⟨event, body⟩
      · simp only [recognized, Except.ok.injEq, Prod.mk.injEq] at answered
        obtain ⟨rfl, rfl⟩ := answered
        rfl
      · simp only [recognized] at answered
        split at answered
        · cases answered
        next kept =>
          have applied : apply (environment.decoding host) db event body delivery.newId =
              some (outcome, after) := apply_of_applySent answered
          simp only [kept, Bool.false_eq_true, if_false, applied]
    next value other decoded =>
      cases answered
      rw [recognize, if_neg nonempty]
      simp only [Environment.decoding, decoded, Except.toOption, Option.map_some]
      cases value with
      | obj fields => exact absurd rfl (other fields)
      | _ => rfl

theorem firstStr_toJson (candidates : List (Option Parsed)) :
    firstStr (candidates.map fun candidate => candidate.map Parsed.toJson) =
      (firstText candidates).map ofCodes := by
  induction candidates with
  | nil => rfl
  | cons candidate candidates induction =>
      rw [firstStr] at induction ⊢
      rw [firstText] at induction ⊢
      rw [List.map_cons, List.findSome?_cons, List.findSome?_cons]
      cases candidate with
      | none => exact induction
      | some value =>
          cases value with
          | str text =>
              rw [Option.map_some, Parsed.toJson]
              simp only [ne_eq, ofCodes_eq_empty_iff]
              rcases Decidable.em (text = []) with empty | nonempty
              · simpa only [empty, not_true_eq_false, if_false] using induction
              · simp only [nonempty, not_false_eq_true, if_true, Option.map_some]
          | _ => exact induction

theorem parseEventId_fieldsToJson (fields : List (List Nat × Parsed)) :
    parseEventId (Parsed.fieldsToJson fields) = (sentEventId fields).map ofCodes := by
  rw [sentEventId, ← firstStr_toJson]
  simp only [parseEventId, List.map_cons, List.map_nil]
  rw [get?_fieldsToJson fields (by simp), get?_fieldsToJson fields (by simp)]

theorem asDict_toJson (value : Option Parsed) :
    asDict (value.map Parsed.toJson) = Parsed.fieldsToJson (asFields value) := by
  cases value with
  | none => rfl
  | some value => cases value <;> rfl

theorem parseVendorProductId_fieldsToJson (fields : List (List Nat × Parsed)) :
    parseVendorProductId (Parsed.fieldsToJson fields) = (sentProductId fields).map ofCodes := by
  have properties := @get?_fieldsToJson "event_properties" fields (by simp)
  have vendor (fields : List (List Nat × Parsed)) :=
    @get?_fieldsToJson "vendor_product_id" fields (by simp)
  have product (fields : List (List Nat × Parsed)) :=
    @get?_fieldsToJson "product_id" fields (by simp)
  rw [sentProductId, ← firstStr_toJson]
  simp only [parseVendorProductId, properties, asDict_toJson, vendor, product, List.map_cons,
    List.map_nil]

/-- The event id and the product which the statements get are those of the event. -/
theorem sent_of_recognize {raw : List UInt8} {event : ParsedEvent} {body : Fields}
    (recognized : recognize (environment.given fields) raw = .ok (event, body)) :
    (sentEventId fields).map ofCodes = some event.eventId ∧
      (sentProductId fields).map ofCodes = event.vendorProductId := by
  rw [← parseEventId_fieldsToJson, ← parseVendorProductId_fieldsToJson]
  simp only [recognize, Environment.given, Parsed.toJson] at recognized
  split at recognized
  · cases recognized
  split at recognized
  · cases recognized
  next eventId identified =>
    split at recognized
    · cases recognized
    next customerUserId _ =>
      cases known : environment.userExists customerUserId with
      | false => simp [known] at recognized
      | true =>
          simp only [known, Bool.not_true, Bool.false_eq_true, if_false] at recognized
          split at recognized
          · cases recognized
          · cases recognized
            exact ⟨identified, rfl⟩

end Refinement

end Hermes.Billing.Adapty
