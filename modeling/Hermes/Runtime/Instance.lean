import Mathlib.Data.List.Basic
import Hermes.Library.Positions
import Hermes.Library.Transition

/-!
# The container of a user and the calls which bring it up

`ensure_running` reads the row of its user under a lock, which it gives up before every wait on
the container.  A call is the phase it has come to; the Docker daemon, the probes of a container
and the clock move on between any two statements of a call.
-/

namespace Hermes.Runtime

/-- The statuses of `hermes_instances`. -/
inductive Status
  | provisioning
  | running
  | stopped
  deriving DecidableEq, Repr

/-- A row of `hermes_instances`; times are in microseconds and the key is the decrypted one. -/
structure Row where
  apiKey : Nat
  status : Status
  containerId : Option Nat
  provisioningStartedAt : Option Nat
  createdAt : Nat
  lastActiveAt : Nat
  deriving DecidableEq, Repr

namespace Row

/-- The row `create_provisioning` inserts in a transaction which began at some time. -/
def createProvisioning (apiKey began : Nat) : Row :=
  { apiKey, status := .provisioning, containerId := none, provisioningStartedAt := some began,
    createdAt := began, lastActiveAt := began }

/-- `mark_provisioning`. -/
def markProvisioning (row : Row) (provisioningStartedAt now : Nat) : Row :=
  { row with
    status := .provisioning
    provisioningStartedAt := some provisioningStartedAt
    lastActiveAt := now }

/-- `mark_running`. -/
def markRunning (row : Row) (containerId now : Nat) : Row :=
  { row with status := .running, containerId := some containerId, lastActiveAt := now }

/-- `mark_stopped`. -/
def markStopped (row : Row) : Row :=
  { row with status := .stopped }

/-- `touch_active`. -/
def touchActive (row : Row) (now : Nat) : Row :=
  { row with lastActiveAt := now }

/-- `_is_stale_provisioning`: a threshold which is not positive turns the replay off. -/
def isStaleProvisioning (row : Row) (staleSeconds : Int) (now : Nat) : Bool :=
  decide (0 < staleSeconds) &&
    decide (staleSeconds * 1000000 < now - (row.provisioningStartedAt.getD row.createdAt : Nat))

end Row

/-- A container, with the key it was started with and whether the reaper was the last to stop
it. -/
structure Container where
  id : Nat
  apiKey : Nat
  up : Bool
  reaped : Bool
  deriving DecidableEq, Repr

/-- What a call asks of the Docker daemon.  `docker run` creates a container and starts it: of the
first part alone comes `create`. -/
inductive Request
  | run (apiKey : Nat)
  | create (apiKey : Nat)
  | start (containerId : Nat)
  | stop (containerId : Nat)
  | remove (containerId : Nat)
  deriving DecidableEq, Repr

/-- The daemon, as far as the container name of one user goes: one container at most holds it. -/
structure Docker where
  container : Option Container := none
  minted : Nat := 0
  deriving DecidableEq, Repr

namespace Docker

/-- Carry out a request; nothing is the answer with an error.  A container which is gone counts as
stopped and as removed, but it cannot be started, and a name which is held cannot be taken. -/
def perform (docker : Docker) : Request → Option Docker
  | .run apiKey =>
      match docker.container with
      | none =>
          some
            { container := some ⟨docker.minted, apiKey, true, false⟩
              minted := docker.minted + 1 }
      | some _ => none
  | .create apiKey =>
      match docker.container with
      | none =>
          some
            { container := some ⟨docker.minted, apiKey, false, false⟩
              minted := docker.minted + 1 }
      | some _ => none
  | .start containerId =>
      match docker.container with
      | none => none
      | some container =>
          if container.id = containerId then
            some { docker with container := some { container with up := true, reaped := false } }
          else none
  | .stop containerId =>
      match docker.container with
      | none => some docker
      | some container =>
          if container.id = containerId then
            some { docker with container := some { container with up := false } }
          else some docker
  | .remove containerId =>
      match docker.container with
      | none => some docker
      | some container =>
          if container.id = containerId then some { docker with container := none }
          else some docker

/-- Whether a probe of the user's endpoint can be answered: by whatever container holds the
name. -/
def answers (docker : Docker) : Bool :=
  docker.container.any (·.up)

end Docker

/-- How a call came to the readiness poll: by `docker run`, or by waking a container at a time
which names the attempt. -/
inductive Origin
  | launched
  | woken (attemptStartedAt : Nat)
  deriving DecidableEq, Repr

/-- How far a call of `ensure_running` has come. -/
inductive Phase
  /-- Before `get_for_update`. -/
  | begun
  /-- `get_for_update` found no row in a transaction which began at the time. -/
  | absent (began : Nat)
  /-- `_await_concurrent_ready`. -/
  | waiting
  /-- The row is committed and `docker run` is under way. -/
  | launching (apiKey : Nat)
  /-- `_wait_for_ready`. -/
  | probing (origin : Origin) (apiKey containerId : Nat)
  /-- The poll was answered and `mark_running` comes next. -/
  | ready (origin : Origin) (apiKey containerId : Nat)
  /-- `_cleanup_failed_provision`, removing the container. -/
  | discarding (containerId : Nat)
  /-- `_cleanup_failed_provision`, dropping the row. -/
  | dropping
  /-- `_wake_locked`, with `docker start` under way below the lock. -/
  | waking (attemptStartedAt apiKey : Nat) (containerId : Option Nat)
  /-- The container was started and `mark_provisioning` comes next. -/
  | started (attemptStartedAt apiKey containerId : Nat)
  /-- The poll of a wake ran out and `mark_stopped_if_provisioning` comes next. -/
  | expired (attemptStartedAt containerId : Nat)
  /-- `docker stop` is under way with the row marked and not yet committed. -/
  | halting (containerId : Nat)
  /-- The commit of the row marked as stopped comes next. -/
  | halted
  /-- `_replay_stale_provisioning`, removing the container below the lock. -/
  | replaying (began containerId : Nat)
  /-- The row is deleted, not yet committed, and `create_provisioning` comes next. -/
  | replaced (began : Nat)
  /-- The call has returned an endpoint with the key, or raised. -/
  | finished (apiKey : Option Nat)
  deriving DecidableEq, Repr

/-- Who holds the lock of the row: a call, or a tick of the reaper. -/
inductive Holder
  | call (index : Nat)
  | tick (index : Nat)
  deriving DecidableEq, Repr

/-- The committed row of a user, its lock, the daemon, every call made so far, and the requests
whose callers have died before the daemon answered.  The opener is the call which inserted the row
or marked it `provisioning` last; the program does not know it. -/
structure World where
  row : Option Row := none
  holder : Option Holder := none
  docker : Docker := {}
  calls : List Phase := []
  late : List Request := []
  opener : Option Nat := none
  now : Nat := 0

namespace Phase

/-- The Docker request a call is waiting for. -/
def request : Phase → Option Request
  | launching apiKey => some (.run apiKey)
  | discarding containerId => some (.remove containerId)
  | waking _ _ containerId => containerId.map .start
  | halting containerId => some (.stop containerId)
  | replaying _ containerId => some (.remove containerId)
  | _ => none

def replays : Phase → Bool
  | replaying .. => true
  | replaced _ => true
  | _ => false

def isOver : Phase → Bool
  | finished _ => true
  | _ => false

end Phase

inductive Move
  /-- `get_for_update` and the branch it takes. -/
  | look
  /-- A statement which waited for a row that a replay was deleting finds none. -/
  | miss
  /-- `create_provisioning` with a key of its own, and the commit. -/
  | insert (apiKey : Nat)
  /-- The daemon carries out the request of the call. -/
  | perform
  /-- The daemon answers the request with an error. -/
  | refuse
  /-- The daemon creates the container of a `docker run` and refuses to start it. -/
  | create
  /-- A probe is answered with 200. -/
  | answer
  /-- The readiness budget is spent. -/
  | expire
  /-- The write of the phase, with its commit. -/
  | write
  /-- A waiting call reads the row again. -/
  | notice
  /-- The call dies where it stands: an error nothing catches, a cancellation, a crash. -/
  | die
  deriving DecidableEq, Repr

namespace World

def become (world : World) (index : Nat) (phase : Phase) : World :=
  { world with calls := world.calls.set index phase }

def seize (world : World) (index : Nat) : World :=
  { world with holder := some (.call index) }

/-- The transaction which holds the row lock ends. -/
def release (world : World) : World :=
  { world with holder := none }

def releaseFor (world : World) (index : Nat) : World :=
  if world.holder = some (.call index) then world.release else world

/-- Whether a call which replays the row holds its lock. -/
def replacing (world : World) : Bool :=
  match world.holder with
  | some (.call index) => (world.calls[index]?).any Phase.replays
  | _ => false

/-- `ensure_running` up to its branch: the row is read below its lock. -/
def look (world : World) (staleSeconds : Int) (index : Nat) : World :=
  match world.row with
  | none => world.become index (.absent world.now)
  | some row =>
      match row.status with
      | .provisioning =>
          if row.isStaleProvisioning staleSeconds world.now then
            match row.containerId with
            | some containerId =>
                (world.seize index).become index (.replaying world.now containerId)
            | none => (world.seize index).become index (.replaced world.now)
          else world.become index .waiting
      | .stopped =>
          (world.seize index).become index (.waking world.now row.apiKey row.containerId)
      | .running =>
          { world with row := some (row.touchActive world.now) }.become index
            (.finished (some row.apiKey))

def inserted (world : World) (index apiKey began : Nat) : World :=
  { world with
    row := some (.createProvisioning apiKey began)
    holder := none
    opener := some index }.become index (.launching apiKey)

/-- The daemon answers the request of a call with an error: `UpstreamError`, which only the two
clean-ups catch. -/
def refused (world : World) (index : Nat) : Phase → Option World
  | .launching _ => some (world.become index (.finished none))
  | .waking .. => some (world.release.become index (.finished none))
  | .replaying .. => some (world.release.become index (.finished none))
  | .discarding _ => some (world.become index .dropping)
  | .halting _ => some (world.become index .halted)
  | _ => none

/-- The daemon creates the container of a call and does not start it: `UpstreamError`. -/
def created (world : World) (index : Nat) : Phase → Option World
  | .launching apiKey =>
      (world.docker.perform (.create apiKey)).map fun docker =>
        { world with docker }.become index (.finished none)
  | _ => none

/-- The daemon carries out the request of a call, and the call goes on. -/
def performed (world : World) (index : Nat) (phase : Phase) : Option World :=
  match phase.request.bind world.docker.perform with
  | none => world.refused index phase
  | some docker =>
      match phase with
      | .launching apiKey =>
          some ({ world with docker }.become index (.probing .launched apiKey world.docker.minted))
      | .waking attemptStartedAt apiKey (some containerId) =>
          some ({ world with docker }.become index (.started attemptStartedAt apiKey containerId))
      | .replaying began _ => some ({ world with docker }.become index (.replaced began))
      | .discarding _ => some ({ world with docker }.become index .dropping)
      | .halting _ => some ({ world with docker }.become index .halted)
      | _ => none

/-- The write of a phase.  An update or a deletion of the row waits for its lock, and changes no row
where there is none. -/
def written (world : World) (index : Nat) : Phase → Option World
  | .ready _ apiKey containerId =>
      if world.holder = none then
        some ({ world with
          row := world.row.map fun row : Row => row.markRunning containerId world.now }.become index
            (.finished (some apiKey)))
      else none
  | .dropping =>
      if world.holder = none then some ({ world with row := none }.become index (.finished none))
      else none
  | .started attemptStartedAt apiKey containerId =>
      some ({ world with
        row := world.row.map fun row : Row => row.markProvisioning attemptStartedAt world.now
        holder := none
        opener := some index }.become index (.probing (.woken attemptStartedAt) apiKey containerId))
  | .expired attemptStartedAt containerId =>
      if world.holder = none then
        if world.row.any fun row => row.status == .provisioning &&
            row.provisioningStartedAt == some attemptStartedAt then
          some ((world.seize index).become index (.halting containerId))
        else some (world.become index (.finished none))
      else none
  | .halted =>
      some ({ world with row := world.row.map Row.markStopped, holder := none }.become index
        (.finished none))
  | _ => none

/-- A statement of a call comes upon a row which a replay has deleted. -/
def missed (world : World) (index : Nat) : Phase → Option World
  | .begun => some (world.become index (.absent world.now))
  | .ready _ apiKey _ => some (world.become index (.finished (some apiKey)))
  | .dropping => some (world.become index (.finished none))
  | .expired .. => some (world.become index (.finished none))
  | _ => none

/-- `_await_concurrent_ready` reads the committed row. -/
def noticed (world : World) (index : Nat) : World :=
  match world.row with
  | none => world.become index (.finished none)
  | some row =>
      match row.status with
      | .running => world.become index (.finished (some row.apiKey))
      | _ => world

/-- A call dies: its transaction is rolled back, and the daemon may still carry out what it was
asked for. -/
def died (world : World) (index : Nat) (phase : Phase) : World :=
  { world.releaseFor index with late := world.late ++ phase.request.toList }.become index
    (.finished none)

def advance (world : World) (staleSeconds : Int) (index : Nat) (phase : Phase) :
    Move → Option World
  | .look =>
      match phase with
      | .begun => if world.holder = none then some (world.look staleSeconds index) else none
      | _ => none
  | .miss => if world.replacing then world.missed index phase else none
  | .insert apiKey =>
      match phase with
      | .absent began =>
          match world.row with
          | none => some (world.inserted index apiKey began)
          | some _ => some (world.become index .waiting)
      | .replaced began => some (world.inserted index apiKey began)
      | _ => none
  | .perform => world.performed index phase
  | .refuse => world.refused index phase
  | .create => world.created index phase
  | .answer =>
      match phase with
      | .probing origin apiKey containerId =>
          if world.docker.answers then
            some (world.become index (.ready origin apiKey containerId))
          else none
      | _ => none
  | .expire =>
      match phase with
      | .probing .launched _ containerId => some (world.become index (.discarding containerId))
      | .probing (.woken attemptStartedAt) _ containerId =>
          some (world.become index (.expired attemptStartedAt containerId))
      | .waiting => some (world.become index (.finished none))
      | _ => none
  | .write => world.written index phase
  | .notice =>
      match phase with
      | .waiting => some (world.noticed index)
      | _ => none
  | .die => if phase.isOver then none else some (world.died index phase)

end World

inductive Event
  /-- Time passes. -/
  | pass (microseconds : Nat)
  /-- `ensure_running` is called. -/
  | call
  /-- `touch_active` and its commit. -/
  | touch
  /-- A call moves on. -/
  | move (index : Nat) (move : Move)
  /-- The daemon carries out a request whose caller has died. -/
  | late (index : Nat)
  /-- Of a `docker run` whose caller has died, no more than the first part is left. -/
  | curtail (index : Nat)
  deriving DecidableEq, Repr

/-- One step of everything around the row of a user. -/
def World.step (staleSeconds : Int) (world : World) : Event → Option World
  | .pass microseconds => some { world with now := world.now + microseconds }
  | .call => some { world with calls := world.calls ++ [.begun] }
  | .touch =>
      if world.holder = none then
        some { world with row := world.row.map (·.touchActive world.now) }
      else none
  | .move index move =>
      (world.calls[index]?).bind fun phase => world.advance staleSeconds index phase move
  | .late index =>
      (world.late[index]?).map fun request =>
        { world with
          docker := (world.docker.perform request).getD world.docker
          late := world.late.eraseIdx index }
  | .curtail index =>
      (world.late[index]?).bind fun request =>
        match request with
        | .run apiKey => some { world with late := world.late.set index (.create apiKey) }
        | _ => none

end Hermes.Runtime
