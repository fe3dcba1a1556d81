import Hermes.Billing.Adapty
import Hermes.Library.Uuid

/-!
# Whose payment it is

A client hands a payment provider an identifier: the id of its user, or a device id it registered
with.  Both webhooks read it as a UUID.  CloudPayments looks for a user with this id, and then for a
device; Adapty looks for a user only.
-/

namespace Hermes.Billing

open Wallet (UserId)
open Adapty (Fields)
open Json (get?)

def deviceIdChar (char : Char) : Bool :=
  char.isAlphanum || char == '.' || char == '_' || char == ':' || char == '-'

/-- `DeviceId`. -/
structure DeviceId where
  text : List Char
  length : 1 ≤ text.length ∧ text.length ≤ 128
  pattern : text.all deviceIdChar = true
  deriving DecidableEq, Repr

/-- The tables `users` and `auth_devices`. -/
structure Registry where
  users : List UserId
  devices : List (DeviceId × UserId)
  bounded : ∀ user ∈ users, user.value < 2 ^ 128
  keyed : (devices.map Prod.fst).Nodup
  linked : ∀ row ∈ devices, row.2 ∈ users

/-- `uuid.UUID`. -/
def parseUuid (text : String) : Option UserId := (Uuid.ofText text.toList).map UserId.mk

/-! ## Adapty -/

/-- The text of `customer_user_id`. -/
def customerUserIdText (body : Fields) : Option String :=
  Adapty.firstStr [get? body "customer_user_id",
    get? (Adapty.asDict (get? body "profile")) "customer_user_id", get? body "user_id"]

namespace Registry

variable (registry : Registry)

/-- The environment of the Adapty webhook over the tables. -/
def adapty (environment : Adapty.Environment) : Adapty.Environment :=
  { environment with uuid := parseUuid, userExists := fun user => user ∈ registry.users }

/-- The user to whom the Adapty webhook attributes a payment. -/
def adaptyPayer (environment : Adapty.Environment) (body : Fields) : Option UserId :=
  (Adapty.parseCustomerUserId (registry.adapty environment) body).filter
    (registry.adapty environment).userExists

end Registry

/-! ## CloudPayments -/

namespace CloudPayments

/-- `_first_str`: an integer counts as its digits. -/
def firstStr (candidates : List (Option Json)) : Option String :=
  candidates.findSome? fun candidate =>
    match candidate with
    | some (.str value) => if value ≠ "" then some value else none
    | some (.int value) => some (toString value)
    | _ => none

/-- The text of `AccountId`. -/
def accountIdText (body data : Adapty.Fields) : Option String :=
  firstStr [get? body "AccountId", get? data "user_id"]

/-- `parse_user_id`. -/
def parseUserId (body data : Adapty.Fields) : Option UserId :=
  (accountIdText body data).bind fun raw => parseUuid (String.ofList (Uuid.lower raw.toList))

end CloudPayments

/-- How `resolve_user` found a user. -/
inductive ResolvedVia
  | userId
  | deviceId
  deriving DecidableEq, Repr

namespace Registry

variable (registry : Registry)

/-- The users of the devices whose id is written like a UUID, in any letter case. -/
def deviceUsers (identifier : UserId) : List UserId :=
  (registry.devices.filter fun row =>
    Uuid.lower row.1.text = Uuid.toText identifier.value).map Prod.snd

/-- `resolve_user`. -/
def resolveUser (identifier : UserId) : Option (UserId × ResolvedVia) :=
  if identifier ∈ registry.users then some (identifier, .userId)
  else
    ((registry.deviceUsers identifier).map UserId.value).min?.map fun value =>
      (⟨value⟩, .deviceId)

/-- The user to whom the CloudPayments webhook attributes a payment. -/
def cloudPaymentsPayer (body data : Fields) : Option UserId :=
  ((CloudPayments.parseUserId body data).bind registry.resolveUser).map Prod.fst

end Registry

/-! ## Resolution -/

/-- The identifiers of a user: its id, and the ids of its devices. -/
inductive Registry.RegisteredFor (registry : Registry) : List Char → UserId → Prop
  | user {user : UserId} (member : user ∈ registry.users) :
      registry.RegisteredFor (Uuid.toText user.value) user
  | device {device : DeviceId} {user : UserId} (member : (device, user) ∈ registry.devices) :
      registry.RegisteredFor device.text user

/-- An identifier which both providers hand over as the client wrote it. -/
structure Handover (registry : Registry) where
  identifier : List Char
  owner : UserId
  registered : registry.RegisteredFor identifier owner
  text : String
  spelled : Uuid.lower text.toList = Uuid.lower identifier
  adaptyBody : Fields
  adaptyCarries : customerUserIdText adaptyBody = some text
  cloudBody : Fields
  cloudData : Fields
  cloudCarries : CloudPayments.accountIdText cloudBody cloudData = some text

/-- Both webhooks attribute the payment to the owner of the identifier. -/
def Handover.ResolvedAlike {registry : Registry} (handover : Handover registry)
    (environment : Adapty.Environment) : Prop :=
  registry.adaptyPayer environment handover.adaptyBody = some handover.owner ∧
    registry.cloudPaymentsPayer handover.cloudBody handover.cloudData = some handover.owner

section Webhook

variable {registry : Registry} {environment : Adapty.Environment}

theorem adaptyPayer_eq (body : Fields) :
    registry.adaptyPayer environment body =
      ((customerUserIdText body).bind parseUuid).filter fun user => user ∈ registry.users := by
  simp only [Registry.adaptyPayer, Registry.adapty, Adapty.parseCustomerUserId, customerUserIdText]

theorem recognize_payer {raw : List UInt8} {event : Adapty.ParsedEvent} {body : Fields}
    (recognized : Adapty.recognize (registry.adapty environment) raw = .ok (event, body)) :
    registry.adaptyPayer environment body = some event.customerUserId := by
  unfold Adapty.recognize at recognized
  split at recognized
  · cases recognized
  split at recognized
  next => cases recognized
  next fields decoded =>
    split at recognized
    next => cases recognized
    next eventId identified =>
      split at recognized
      next => cases recognized
      next user parsed =>
        split at recognized
        next => cases recognized
        next exists_user =>
          split at recognized
          next => cases recognized
          next eventType known =>
            cases recognized
            simp only [Bool.not_eq_true', Bool.not_eq_false] at exists_user
            rw [Registry.adaptyPayer, parsed, Option.filter_some, if_pos exists_user]
  next => cases recognized

theorem recognize_dropped {raw : List UInt8} {body : Fields}
    (decoded : environment.loads raw = some (.obj body))
    (unpaid : registry.adaptyPayer environment body = none) :
    ∃ reason, Adapty.recognize (registry.adapty environment) raw =
      .error (.ignored (some reason) none) := by
  have decoded' : (registry.adapty environment).loads raw = some (.obj body) := decoded
  unfold Adapty.recognize
  split
  · exact ⟨_, rfl⟩
  rw [decoded']
  simp only
  split
  next => exact ⟨_, rfl⟩
  next eventId identified =>
    split
    next => exact ⟨_, rfl⟩
    next user parsed =>
      have absent : (registry.adapty environment).userExists user = false := by
        rw [Registry.adaptyPayer, parsed, Option.filter_some] at unpaid
        simpa using unpaid
      rw [absent]
      exact ⟨_, rfl⟩

end Webhook

section Resolution

variable {registry : Registry} {environment : Adapty.Environment} {user : UserId}

theorem Registry.RegisteredFor.mem_users {identifier : List Char}
    (registered : registry.RegisteredFor identifier user) : user ∈ registry.users := by
  cases registered with
  | user member => exact member
  | device member => exact registry.linked _ member

theorem parseUuid_lower {text : String} (parsed : parseUuid text = some user) :
    parseUuid (String.ofList (Uuid.lower text.toList)) = some user := by
  rw [parseUuid, Option.map_eq_some_iff] at parsed ⊢
  obtain ⟨number, read, rfl⟩ := parsed
  refine ⟨number, ?_, rfl⟩
  rw [String.toList_ofList]
  exact Uuid.ofText_lower read

theorem Registry.resolveUser_user (member : user ∈ registry.users) :
    registry.resolveUser user = some (user, .userId) := if_pos member

theorem cloudPaymentsPayer_of_adaptyPayer {text : String} {adaptyBody cloudBody cloudData : Fields}
    (adaptyCarries : customerUserIdText adaptyBody = some text)
    (cloudCarries : CloudPayments.accountIdText cloudBody cloudData = some text)
    (attributed : registry.adaptyPayer environment adaptyBody = some user) :
    registry.cloudPaymentsPayer cloudBody cloudData = some user := by
  rw [adaptyPayer_eq, adaptyCarries, Option.bind_some, Option.filter_eq_some_iff] at attributed
  obtain ⟨parsed, member⟩ := attributed
  rw [decide_eq_true_eq] at member
  rw [Registry.cloudPaymentsPayer, CloudPayments.parseUserId, cloudCarries, Option.bind_some,
    parseUuid_lower parsed, Option.bind_some, Registry.resolveUser_user member]
  rfl

theorem Handover.adaptyPayer_iff (handover : Handover registry)
    (environment : Adapty.Environment) :
    registry.adaptyPayer environment handover.adaptyBody = some handover.owner ↔
      parseUuid handover.text = some handover.owner := by
  rw [adaptyPayer_eq, handover.adaptyCarries, Option.bind_some, Option.filter_eq_some_iff,
    decide_eq_true_eq]
  exact and_iff_left handover.registered.mem_users

theorem Handover.resolvedAlike_of_parsed (handover : Handover registry)
    (parsed : parseUuid handover.text = some handover.owner) :
    handover.ResolvedAlike environment := by
  have attributed := (handover.adaptyPayer_iff environment).mpr parsed
  refine ⟨attributed, ?_⟩
  exact cloudPaymentsPayer_of_adaptyPayer handover.adaptyCarries handover.cloudCarries attributed

/-- For every set of users and devices and every identifier of a user in any letter case, both
webhooks attribute the payment to this user if and only if the identifier, read as a UUID, is the
id of this user. -/
theorem payer_resolved_iff (registry : Registry) (environment : Adapty.Environment)
    (handover : Handover registry) :
    handover.ResolvedAlike environment ↔ parseUuid handover.text = some handover.owner := by
  constructor
  · intro resolved
    exact (handover.adaptyPayer_iff environment).mp resolved.1
  · exact handover.resolvedAlike_of_parsed

end Resolution

namespace Sample

/-- A vendor identifier as a device writes it. -/
def deviceText : String := "6D92078A-8246-4BA4-AE5B-76104861E7DC"

def device : DeviceId := ⟨deviceText.toList, by decide, by decide⟩

def registry : Registry where
  users := [⟨7⟩]
  devices := [(device, ⟨7⟩)]
  bounded := by decide
  keyed := by decide
  linked := by decide

def handover : Handover registry where
  identifier := deviceText.toList
  owner := ⟨7⟩
  registered := @Registry.RegisteredFor.device registry device ⟨7⟩ List.mem_cons_self
  text := deviceText
  spelled := rfl
  adaptyBody := [("customer_user_id", .str deviceText)]
  adaptyCarries := rfl
  cloudBody := [("AccountId", .str deviceText)]
  cloudData := []
  cloudCarries := rfl

end Sample

/-- A payment for a registered device id is credited by CloudPayments and dropped by Adapty. -/
theorem device_payment_dropped :
    ∃ (registry : Registry) (handover : Handover registry),
      registry.cloudPaymentsPayer handover.cloudBody handover.cloudData = some handover.owner ∧
      ∀ environment, registry.adaptyPayer environment handover.adaptyBody = none ∧
        ¬handover.ResolvedAlike environment := by
  refine ⟨Sample.registry, Sample.handover, by decide, ?_⟩
  intro environment
  have dropped : Sample.registry.adaptyPayer environment Sample.handover.adaptyBody = none := by
    rw [adaptyPayer_eq]
    decide
  refine ⟨dropped, ?_⟩
  intro resolved
  cases dropped.symm.trans resolved.1

end Hermes.Billing
