import Mathlib.Data.List.Nodup
import Mathlib.Logic.Function.Basic
import Hermes.Library.Positions
import Hermes.Library.Transition

/-!
# Devices and Apple identities

`register`, `token` and `sign_in_with_apple` find or create the user of a device in statements of
one transaction each.  A statement sees what is committed when it begins and what its own
transaction wrote; an update locks the row of the device, and an insertion its key, until the
transaction ends.
-/

namespace Hermes.Auth

/-- What a call is for: `register` or `token`, or a sign-in with a verified Apple subject. -/
inductive Purpose
  | register
  | apple (subject : String)
  deriving DecidableEq, Repr

inductive Stage
  /-- Look the Apple identity up. -/
  | lookup
  /-- Look the device up. -/
  | search
  /-- The device is known: touch its row. -/
  | seen (user : Nat)
  /-- The device is unknown: insert a user and the device. -/
  | unseen
  /-- Another call has inserted the device: read it again. -/
  | lost
  /-- `_find_or_create_identity` has returned the user of the device. -/
  | settled (user : Nat)
  /-- Insert the Apple identity for a user. -/
  | linking (user : Nat)
  /-- Read the Apple identity again. -/
  | linked
  /-- `_resolve_apple_user` has returned: bind the device. -/
  | resolved (user : Nat)
  /-- Issue the tokens and commit. -/
  | bound (user : Nat)
  /-- The call has returned tokens for a user, or raised. -/
  | finished (user : Option Nat)
  deriving DecidableEq, Repr

/-- A call, whether its transaction has locked the row of the device, and what it has written and
not committed. -/
structure AuthCall where
  purpose : Purpose
  device : String
  stage : Stage
  locked : Bool := false
  ownDevice : Option Nat := none
  ownIdentity : Option Nat := none
  deriving DecidableEq, Repr

/-- The committed tables, the calls made so far and the number of users ever made. -/
structure Registry where
  devices : String → Option Nat := fun _ => none
  identities : List (String × Nat) := []
  calls : List AuthCall := []
  users : Nat := 0

inductive AuthEvent
  /-- `register`, `token` or `sign_in_with_apple` is called. -/
  | call (purpose : Purpose) (device : String)
  /-- A call issues its next statement. -/
  | advance (index : Nat)
  /-- A call fails and is rolled back. -/
  | die (index : Nat)
  deriving DecidableEq, Repr

namespace AuthCall

/-- The call as it stands when its transaction has ended. -/
def ended (call : AuthCall) (user : Option Nat) : AuthCall :=
  { call with stage := .finished user, locked := false, ownDevice := none, ownIdentity := none }

end AuthCall

namespace Registry

def become (registry : Registry) (index : Nat) (call : AuthCall) : Registry :=
  { registry with calls := registry.calls.set index call }

def identity (registry : Registry) (subject : String) : Option Nat :=
  registry.identities.lookup subject

def hasApple (registry : Registry) (user : Nat) : Bool :=
  registry.identities.any fun row => row.2 == user

/-- Whether another transaction has locked the row of a device or is inserting it. -/
def deviceLocked (registry : Registry) (index : Nat) (device : String) : Bool :=
  registry.calls.zipIdx.any fun (call, other) =>
    other != index && call.device == device && call.locked

/-- Whether another transaction is inserting an identity for a subject. -/
def subjectLocked (registry : Registry) (index : Nat) (subject : String) : Bool :=
  registry.calls.zipIdx.any fun (call, other) =>
    other != index && call.purpose == .apple subject && call.ownIdentity.isSome

def commit (registry : Registry) (call : AuthCall) : Registry :=
  { registry with
    devices :=
      match call.ownDevice with
      | none => registry.devices
      | some user => Function.update registry.devices call.device (some user)
    identities :=
      match call.purpose, call.ownIdentity with
      | .apple subject, some user => registry.identities ++ [(subject, user)]
      | _, _ => registry.identities }

def advance (registry : Registry) (index : Nat) (call : AuthCall) : Option Registry :=
  match call.stage with
  | .lookup =>
      match call.purpose with
      | .register => none
      | .apple subject =>
          match registry.identity subject with
          | some user => some (registry.become index { call with stage := .resolved user })
          | none => some (registry.become index { call with stage := .search })
  | .search =>
      match registry.devices call.device with
      | some user => some (registry.become index { call with stage := .seen user })
      | none => some (registry.become index { call with stage := .unseen })
  | .seen user =>
      if registry.deviceLocked index call.device then none
      else some (registry.become index { call with stage := .settled user, locked := true })
  | .unseen =>
      match registry.devices call.device with
      | some _ =>
          some { registry.become index { call with stage := .lost } with
            users := registry.users + 1 }
      | none =>
          if registry.deviceLocked index call.device then none
          else
            some { registry.become index
                { call with
                  stage := .settled registry.users
                  locked := true
                  ownDevice := some registry.users } with
              users := registry.users + 1 }
  | .lost =>
      match registry.devices call.device with
      | some user => some (registry.become index { call with stage := .settled user })
      | none => some (registry.become index (call.ended none))
  | .settled user =>
      match call.purpose with
      | .register => some ((registry.commit call).become index (call.ended (some user)))
      | .apple _ =>
          if registry.hasApple user then
            some { registry.become index { call with stage := .linking registry.users } with
              users := registry.users + 1 }
          else some (registry.become index { call with stage := .linking user })
  | .linking user =>
      match call.purpose with
      | .register => none
      | .apple subject =>
          if (registry.identity subject).isSome then
            some (registry.become index { call with stage := .linked })
          else if registry.subjectLocked index subject then none
          else some (registry.become index { call with stage := .linked, ownIdentity := some user })
  | .linked =>
      match call.purpose with
      | .register => none
      | .apple subject =>
          match call.ownIdentity.or (registry.identity subject) with
          | some user => some (registry.become index { call with stage := .resolved user })
          | none => some (registry.become index (call.ended none))
  | .resolved user =>
      match call.purpose with
      | .register => none
      | .apple _ =>
          if registry.deviceLocked index call.device then none
          else
            some (registry.become index
              { call with stage := .bound user, locked := true, ownDevice := some user })
  | .bound user => some ((registry.commit call).become index (call.ended (some user)))
  | .finished _ => none

def step (registry : Registry) : AuthEvent → Option Registry
  | .call purpose device =>
      some { registry with
        calls := registry.calls ++
          [{ purpose, device, stage := if purpose = .register then .search else .lookup }] }
  | .advance index => (registry.calls[index]?).bind (registry.advance index)
  | .die index =>
      (registry.calls[index]?).bind fun call =>
        match call.stage with
        | .finished _ => none
        | _ => some (registry.become index (call.ended none))

end Registry

end Hermes.Auth
