import Hermes.Runtime.Instance
import Mathlib.Data.List.Sort

/-!
# The reaper

A tick lists the instances which have been idle too long without locking their rows, stops their
containers one after another and marks each row, and all the marks become visible when the tick
commits.  Every worker process runs a reaper of its own, so that ticks overlap.
-/

namespace Hermes.Runtime

/-- What a tick read of a row when it listed it. -/
structure Listed where
  userId : Nat
  containerId : Option Nat
  lastActiveAt : Nat
  deriving DecidableEq, Repr

/-- A tick: the rows it has still to go through, whether the container of the first of them was
already stopped, and the users whose rows it has marked. -/
structure Tick where
  listed : List Listed
  stopped : Bool := false
  marked : List Nat := []
  finished : Bool := false
  deriving DecidableEq, Repr

/-- The instances of all users by number, the ticks so far, and the stops which the daemon may still
carry out for ticks that have failed. -/
structure Fleet where
  instances : List World
  ticks : List Tick := []
  late : List Listed := []

inductive FleetEvent
  /-- Time passes. -/
  | pass (microseconds : Nat)
  /-- Something happens around the row of a user. -/
  | user (userId : Nat) (event : Event)
  /-- A tick begins with `list_idle_running`. -/
  | list (thresholdSeconds : Int)
  /-- The daemon stops the container of the first listed row. -/
  | stop (tick : Nat)
  /-- The daemon answers the stop with an error. -/
  | refuse (tick : Nat)
  /-- `mark_stopped`. -/
  | mark (tick : Nat)
  /-- `mark_stopped` waited for a row that a replay was deleting. -/
  | miss (tick : Nat)
  /-- The tick commits. -/
  | commit (tick : Nat)
  /-- The tick fails and is rolled back. -/
  | abort (tick : Nat)
  /-- The daemon carries out a stop for a tick which has failed. -/
  | late (index : Nat)
  deriving DecidableEq, Repr

/-- `_REAPER_BATCH_LIMIT`. -/
def reaperBatchLimit : Nat := 100

/-- Whether a stop of a container would do something. -/
def Docker.runs (docker : Docker) (containerId : Nat) : Bool :=
  docker.container.any fun container => container.id == containerId && container.up

/-- The reaper stops a container; one which is gone counts as stopped. -/
def Docker.reap (docker : Docker) (containerId : Nat) : Docker :=
  match docker.container with
  | none => docker
  | some container =>
      if container.id = containerId ∧ container.up = true then
        { docker with container := some { container with up := false, reaped := true } }
      else docker

/-- The mark of a tick becomes visible and its lock is released. -/
def World.hibernate (world : World) : World :=
  { world with row := world.row.map Row.markStopped, holder := none }

def World.yieldTick (world : World) (index : Nat) : World :=
  if world.holder = some (.tick index) then world.release else world

namespace Fleet

/-- A row which `list_idle_running` selects. -/
def idleRow (thresholdSeconds : Int) (world : World) (userId : Nat) : Option Listed :=
  world.row.bind fun row =>
    if row.status = .running ∧
        (row.lastActiveAt : Int) < world.now - thresholdSeconds * 1000000 then
      some ⟨userId, row.containerId, row.lastActiveAt⟩
    else none

/-- `list_idle_running`. -/
def listIdleRunning (fleet : Fleet) (thresholdSeconds : Int) (limit : Nat) : List Listed :=
  ((fleet.instances.zipIdx.filterMap fun (world, userId) =>
    idleRow thresholdSeconds world userId).insertionSort
      fun first second => first.lastActiveAt ≤ second.lastActiveAt).take limit

def update (fleet : Fleet) (userId : Nat) (change : World → World) : Fleet :=
  { fleet with instances := fleet.instances.modify userId change }

def turn (fleet : Fleet) (index : Nat) (tick : Tick) : Fleet :=
  { fleet with ticks := fleet.ticks.set index tick }

/-- The daemon stops the container of a listed row. -/
def stopped (fleet : Fleet) (row : Listed) (containerId : Nat) : Fleet :=
  fleet.update row.userId fun world => { world with docker := world.docker.reap containerId }

/-- One move of a tick of `stop_idle`. -/
def advance (fleet : Fleet) (index : Nat) (tick : Tick) : FleetEvent → Option Fleet
  | .stop _ =>
      match tick.listed with
      | row :: _ =>
          if tick.stopped then none
          else row.containerId.map fun containerId =>
            (fleet.stopped row containerId).turn index { tick with stopped := true }
      | [] => none
  | .refuse _ =>
      match tick.listed with
      | _ :: later =>
          if tick.stopped then none else some (fleet.turn index { tick with listed := later })
      | [] => none
  | .mark _ =>
      match tick.listed with
      | row :: later =>
          if tick.stopped then
            (fleet.instances[row.userId]?).bind fun world =>
              if world.row = none then
                some (fleet.turn index { tick with listed := later, stopped := false })
              else if world.holder = none then
                some ((fleet.update row.userId fun world =>
                  { world with holder := some (.tick index) }).turn index
                    { tick with
                      listed := later
                      stopped := false
                      marked := tick.marked ++ [row.userId] })
              else none
          else none
      | [] => none
  | .miss _ =>
      match tick.listed with
      | row :: later =>
          if tick.stopped && (fleet.instances[row.userId]?).any World.replacing then
            some (fleet.turn index { tick with listed := later, stopped := false })
          else none
      | [] => none
  | .commit _ =>
      if tick.listed.isEmpty then
        some ({ fleet with
          instances := fleet.instances.mapIdx fun userId (world : World) =>
            if userId ∈ tick.marked then world.hibernate else world }.turn index
              { tick with finished := true })
      else none
  | .abort _ =>
      some ({ fleet with
        instances := fleet.instances.map fun world : World => world.yieldTick index
        late := fleet.late ++ if tick.stopped then [] else tick.listed.take 1 }.turn index
          { tick with finished := true })
  | _ => none

def step (staleSeconds : Int) (fleet : Fleet) (event : FleetEvent) : Option Fleet :=
  match event with
  | .pass microseconds =>
      some { fleet with
        instances := fleet.instances.map fun world =>
          { world with now := world.now + microseconds } }
  | .user _ (.pass _) => none
  | .user userId event =>
      (fleet.instances[userId]?).bind fun world =>
        (world.step staleSeconds event).map fun after =>
          { fleet with instances := fleet.instances.set userId after }
  | .list thresholdSeconds =>
      some { fleet with
        ticks := fleet.ticks ++
          [{ listed := fleet.listIdleRunning thresholdSeconds reaperBatchLimit }] }
  | .late index =>
      (fleet.late[index]?).bind fun row => row.containerId.map fun containerId =>
        { fleet.stopped row containerId with late := fleet.late.eraseIdx index }
  | .stop index | .refuse index | .mark index | .miss index | .commit index | .abort index =>
      (fleet.ticks[index]?).bind fun tick =>
        if tick.finished then none else fleet.advance index tick event

/-! ### What hibernation promises -/

/-- A stop of the container of a listed row would do something. -/
def reaches (fleet : Fleet) (row : Listed) : Bool :=
  (fleet.instances[row.userId]?).any fun world => row.containerId.any world.docker.runs

/-- The listed row whose running container a step of the reaper stops. -/
def stops (fleet : Fleet) (event : FleetEvent) : Option Listed :=
  (match event with
    | .stop index =>
        (fleet.ticks[index]?).bind fun tick =>
          if tick.finished || tick.stopped then none else tick.listed.head?
    | .late index => fleet.late[index]?
    | _ => none).filter fleet.reaches

/-- Whenever a committed row says `running`, its container has not been stopped by the reaper. -/
def Awake (fleet : Fleet) : Prop :=
  ∀ (userId : Nat) (world : World) (row : Row) (container : Container),
    fleet.instances[userId]? = some world → world.row = some row → row.status = .running →
    world.docker.container = some container → row.containerId = some container.id →
    container.reaped = false

/-- A step of the reaper stops no instance which was refreshed after it was listed. -/
def Considerate (fleet : Fleet) (event : FleetEvent) : Prop :=
  ∀ (listed : Listed) (world : World) (row : Row), fleet.stops event = some listed →
    fleet.instances[listed.userId]? = some world → world.row = some row →
    row.lastActiveAt = listed.lastActiveAt

/-- No call and no tick is under way, and no `running` row names a container the reaper has
stopped. -/
structure Fresh (fleet : Fleet) : Prop where
  ticks : fleet.ticks = []
  late : fleet.late = []
  calls : ∀ world ∈ fleet.instances, world.calls = []
  awake : fleet.Awake

end Fleet

/-! ### Containers which are counted on -/

/-- The container a call has started and will mark as running. -/
def Phase.relies : Phase → Option Nat
  | started _ _ containerId | probing _ _ containerId | ready _ _ containerId => some containerId
  | _ => none

namespace World

/-- A running row names the container, or a call is about to. -/
def Claims (world : World) (containerId : Nat) : Prop :=
  (∃ row, world.row = some row ∧ row.status = .running ∧ row.containerId = some containerId) ∨
    ∃ (index : Nat) (phase : Phase), world.calls[index]? = some phase ∧
      phase.relies = some containerId

/-- Nothing counts on a container which the reaper has stopped. -/
def Roused (world : World) : Prop :=
  ∀ container, world.docker.container = some container → container.reaped = true →
    ¬ world.Claims container.id

end World

theorem Docker.perform_reaped {docker after : Docker} {request : Request} {container : Container}
    (performed : docker.perform request = some after) (held : after.container = some container)
    (reaped : container.reaped = true) :
    ∃ former, docker.container = some former ∧ former.id = container.id ∧
      former.reaped = true ∧ (∀ apiKey, request ≠ .run apiKey) ∧
      ∀ containerId, request ≠ .start containerId := by
  cases found : docker.container with
  | none =>
      cases request with
      | run apiKey | create apiKey =>
          simp only [perform, found, Option.some.injEq] at performed
          subst performed
          cases held
          cases reaped
      | start containerId => simp [perform, found] at performed
      | stop containerId | remove containerId =>
          simp only [perform, found, Option.some.injEq] at performed
          subst performed
          simp [found] at held
  | some former =>
      cases request with
      | run apiKey | create apiKey => simp [perform, found] at performed
      | start containerId =>
          simp only [perform, found] at performed
          split at performed <;> cases performed
          cases held
          cases reaped
      | stop containerId =>
          simp only [perform, found] at performed
          split at performed <;> cases performed
          · cases held
            exact ⟨former, rfl, rfl, reaped, nofun, nofun⟩
          · rw [found] at held
            cases held
            exact ⟨_, rfl, rfl, reaped, nofun, nofun⟩
      | remove containerId =>
          simp only [perform, found] at performed
          split at performed <;> cases performed
          · cases held
          · rw [found] at held
            cases held
            exact ⟨_, rfl, rfl, reaped, nofun, nofun⟩

namespace World

variable {world after : World}

theorem claims_of_become {index : Nat} {phase next : Phase}
    (present : world.calls[index]? = some phase)
    (calls : after.calls = world.calls.set index next)
    (row : ∀ found, after.row = some found → found.status = .running →
      (∃ former, world.row = some former ∧ former.status = .running ∧
        former.containerId = found.containerId) ∨ phase.relies = found.containerId)
    (relies : next.relies = none ∨ next.relies = phase.relies) {containerId : Nat}
    (claims : after.Claims containerId) : world.Claims containerId := by
  rcases claims with ⟨found, at_row, status, named⟩ | ⟨other, found, at_other, relied⟩
  · rcases row found at_row status with ⟨former, at_row', status', same⟩ | relied
    · exact .inl ⟨former, at_row', status', same.trans named⟩
    · exact .inr ⟨index, phase, present, relied.trans named⟩
  · rw [calls] at at_other
    obtain ⟨-, rfl⟩ | ⟨-, before⟩ := getElem?_set_cases at_other
    · rcases relies with none | same
      · rw [none] at relied
        cases relied
      · exact .inr ⟨index, phase, present, same.symm.trans relied⟩
    · exact .inr ⟨other, found, before, relied⟩

namespace Roused

theorem become (roused : world.Roused) {index : Nat} {phase next : Phase}
    (present : world.calls[index]? = some phase)
    (calls : after.calls = world.calls.set index next) (docker : after.docker = world.docker)
    (row : ∀ found, after.row = some found → found.status = .running →
      (∃ former, world.row = some former ∧ former.status = .running ∧
        former.containerId = found.containerId) ∨ phase.relies = found.containerId)
    (relies : next.relies = none ∨ next.relies = phase.relies) : after.Roused := by
  intro container held reaped claims
  rw [docker] at held
  exact roused container held reaped (claims_of_become present calls row relies claims)

theorem shift (roused : world.Roused) {index : Nat} {phase next : Phase}
    (present : world.calls[index]? = some phase)
    (calls : after.calls = world.calls.set index next) (docker : after.docker = world.docker)
    (row : after.row = world.row) (relies : next.relies = none ∨ next.relies = phase.relies) :
    after.Roused :=
  roused.become present calls docker
    (fun found at_row status => .inl ⟨found, row ▸ at_row, status, rfl⟩) relies

theorem serve (roused : world.Roused) {index : Nat} {phase next : Phase} {request : Request}
    {docker : Docker} (present : world.calls[index]? = some phase)
    (performed : world.docker.perform request = some docker)
    (relies : next.relies = none ∨ (∃ apiKey, request = .run apiKey) ∨
      ∃ containerId, request = .start containerId) :
    World.Roused ({ world with docker }.become index next) := by
  intro container held reaped claims
  obtain ⟨former, held', same, reaped', not_run, not_start⟩ :=
    Docker.perform_reaped performed held reaped
  have unclaimed := roused former held' reaped'
  rw [same] at unclaimed
  apply unclaimed
  apply claims_of_become present rfl _ _ claims
  · exact fun found at_row status => .inl ⟨found, at_row, status, rfl⟩
  · rcases relies with none | ⟨apiKey, runs⟩ | ⟨containerId, starts⟩
    · exact .inl none
    · exact absurd runs (not_run apiKey)
    · exact absurd starts (not_start containerId)

theorem look (roused : world.Roused) {staleSeconds : Int} {index : Nat}
    (present : world.calls[index]? = some .begun) :
    (world.look staleSeconds index).Roused := by
  unfold World.look
  split
  · exact roused.shift present rfl rfl rfl (.inl rfl)
  next row at_row =>
    split
    · split
      · split <;> exact roused.shift present rfl rfl rfl (.inl rfl)
      · exact roused.shift present rfl rfl rfl (.inl rfl)
    · exact roused.shift present rfl rfl rfl (.inl rfl)
    next status =>
      refine roused.become present rfl rfl (fun found at_row' _ => ?_) (.inl rfl)
      cases at_row'
      exact .inl ⟨row, at_row, status, rfl⟩

theorem refused (roused : world.Roused) {index : Nat} {phase : Phase}
    (present : world.calls[index]? = some phase)
    (refused : world.refused index phase = some after) : after.Roused := by
  cases phase with
  | launching | waking | replaying | discarding | halting =>
      cases refused
      exact roused.shift present rfl rfl rfl (.inl rfl)
  | begun | absent | waiting | probing | ready | dropping | started | expired | halted | replaced
  | finished => cases refused

theorem created (roused : world.Roused) {index : Nat} {phase : Phase}
    (present : world.calls[index]? = some phase)
    (created : world.created index phase = some after) : after.Roused := by
  cases phase with
  | launching apiKey =>
      obtain ⟨docker, served, rfl⟩ := Option.map_eq_some_iff.mp created
      exact roused.serve present served (.inl rfl)
  | begun | absent | waiting | probing | ready | discarding | dropping | waking | started | expired
  | halting | halted | replaying | replaced | finished => cases created

theorem performed (roused : world.Roused) {index : Nat} {phase : Phase}
    (present : world.calls[index]? = some phase)
    (performed : world.performed index phase = some after) : after.Roused := by
  unfold World.performed at performed
  split at performed
  · exact roused.refused present performed
  next docker served =>
    cases phase with
    | launching apiKey =>
        cases performed
        have served : world.docker.perform (.run apiKey) = some docker := served
        exact roused.serve present served (.inr (.inl ⟨apiKey, rfl⟩))
    | waking attemptStartedAt apiKey containerId =>
        cases containerId with
        | none => cases performed
        | some containerId =>
            cases performed
            have served : world.docker.perform (.start containerId) = some docker := served
            exact roused.serve present served (.inr (.inr ⟨containerId, rfl⟩))
    | replaying began containerId =>
        cases performed
        have served : world.docker.perform (.remove containerId) = some docker := served
        exact roused.serve present served (.inl rfl)
    | discarding containerId =>
        cases performed
        have served : world.docker.perform (.remove containerId) = some docker := served
        exact roused.serve present served (.inl rfl)
    | halting containerId =>
        cases performed
        have served : world.docker.perform (.stop containerId) = some docker := served
        exact roused.serve present served (.inl rfl)
    | begun | absent | waiting | probing | ready | dropping | started | expired | halted | replaced
    | finished => cases performed

theorem written (roused : world.Roused) {index : Nat} {phase : Phase}
    (present : world.calls[index]? = some phase)
    (written : world.written index phase = some after) : after.Roused := by
  cases phase with
  | ready origin apiKey containerId =>
      simp only [World.written] at written
      split at written <;> cases written
      refine roused.become present rfl rfl (fun found at_row _ => ?_) (.inl rfl)
      obtain ⟨former, -, rfl⟩ := Option.map_eq_some_iff.mp at_row
      exact .inr rfl
  | dropping =>
      simp only [World.written] at written
      split at written <;> cases written
      exact roused.become present rfl rfl (fun found at_row => nomatch at_row) (.inl rfl)
  | started attemptStartedAt apiKey containerId =>
      cases written
      refine roused.become present rfl rfl (fun found at_row status => ?_) (.inr rfl)
      obtain ⟨former, -, rfl⟩ := Option.map_eq_some_iff.mp at_row
      cases status
  | expired attemptStartedAt containerId =>
      simp only [World.written] at written
      split at written
      · split at written <;> cases written <;> exact roused.shift present rfl rfl rfl (.inl rfl)
      · cases written
  | halted =>
      cases written
      refine roused.become present rfl rfl (fun found at_row status => ?_) (.inl rfl)
      obtain ⟨former, -, rfl⟩ := Option.map_eq_some_iff.mp at_row
      cases status
  | begun | absent | waiting | launching | probing | discarding | waking | halting | replaying
  | replaced | finished => cases written

theorem advance (roused : world.Roused) {staleSeconds : Int} {index : Nat} {phase : Phase}
    {move : Move} (present : world.calls[index]? = some phase)
    (advanced : world.advance staleSeconds index phase move = some after) : after.Roused := by
  cases move with
  | look =>
      simp only [World.advance] at advanced
      split at advanced
      · split at advanced <;> cases advanced
        exact roused.look present
      · cases advanced
  | miss =>
      simp only [World.advance] at advanced
      split at advanced
      · cases phase with
        | begun | ready | dropping | expired =>
            cases advanced
            exact roused.shift present rfl rfl rfl (.inl rfl)
        | absent | waiting | launching | probing | discarding | waking | started | halting | halted
        | replaying | replaced | finished => cases advanced
      · cases advanced
  | insert apiKey =>
      simp only [World.advance] at advanced
      split at advanced
      · split at advanced <;> cases advanced
        · refine roused.become present rfl rfl (fun found at_row status => ?_) (.inl rfl)
          cases at_row
          cases status
        · exact roused.shift present rfl rfl rfl (.inl rfl)
      · cases advanced
        refine roused.become present rfl rfl (fun found at_row status => ?_) (.inl rfl)
        cases at_row
        cases status
      · cases advanced
  | perform => exact roused.performed present advanced
  | refuse => exact roused.refused present advanced
  | create => exact roused.created present advanced
  | answer =>
      simp only [World.advance] at advanced
      split at advanced
      · split at advanced <;> cases advanced
        exact roused.shift present rfl rfl rfl (.inr rfl)
      · cases advanced
  | expire =>
      simp only [World.advance] at advanced
      split at advanced <;> cases advanced <;> exact roused.shift present rfl rfl rfl (.inl rfl)
  | write => exact roused.written present advanced
  | notice =>
      simp only [World.advance] at advanced
      split at advanced
      · cases advanced
        simp only [World.noticed]
        split
        · exact roused.shift present rfl rfl rfl (.inl rfl)
        · split
          · exact roused.shift present rfl rfl rfl (.inl rfl)
          · exact roused
      · cases advanced
  | die =>
      simp only [World.advance] at advanced
      split at advanced <;> cases advanced
      simp only [World.died, World.releaseFor]
      split <;> exact roused.shift present rfl rfl rfl (.inl rfl)

theorem same (roused : world.Roused) (docker : after.docker = world.docker)
    (calls : ∀ (index : Nat) (phase : Phase), after.calls[index]? = some phase →
      world.calls[index]? = some phase ∨ phase.relies = none)
    (row : ∀ found, after.row = some found → found.status = .running →
      ∃ former, world.row = some former ∧ former.status = .running ∧
        former.containerId = found.containerId) : after.Roused := by
  intro container held reaped claims
  rw [docker] at held
  apply roused container held reaped
  rcases claims with ⟨found, at_row, status, named⟩ | ⟨index, phase, present, relied⟩
  · obtain ⟨former, at_row', status', same⟩ := row found at_row status
    exact .inl ⟨former, at_row', status', same.trans named⟩
  · rcases calls index phase present with kept | none
    · exact .inr ⟨index, phase, kept, relied⟩
    · rw [none] at relied
      cases relied

/-- Whatever happens around the row of a user, calls count on no container the reaper has
stopped. -/
theorem step (roused : world.Roused) {staleSeconds : Int} {event : Event}
    (stepped : world.step staleSeconds event = some after) : after.Roused := by
  cases event with
  | pass microseconds =>
      cases stepped
      exact roused
  | call =>
      cases stepped
      refine roused.same rfl (fun index phase present => ?_)
        fun found at_row status => ⟨found, at_row, status, rfl⟩
      obtain before | ⟨-, rfl⟩ := getElem?_snoc present
      · exact .inl before
      · exact .inr rfl
  | touch =>
      simp only [World.step] at stepped
      split at stepped <;> cases stepped
      refine roused.same rfl (fun _ _ present => .inl present) fun found at_row status => ?_
      obtain ⟨former, at_row', rfl⟩ := Option.map_eq_some_iff.mp at_row
      exact ⟨former, at_row', status, rfl⟩
  | move index move =>
      obtain ⟨phase, present, advanced⟩ := Option.bind_eq_some_iff.mp stepped
      exact roused.advance present advanced
  | late index =>
      obtain ⟨request, -, rfl⟩ := Option.map_eq_some_iff.mp stepped
      cases performed : world.docker.perform request with
      | none => exact roused
      | some docker =>
          intro container held reaped claims
          obtain ⟨former, held', same, reaped', -⟩ :=
            Docker.perform_reaped performed held reaped
          exact roused former held' reaped' (same ▸ claims)
  | curtail index =>
      obtain ⟨request, -, stepped⟩ := Option.bind_eq_some_iff.mp stepped
      split at stepped <;> cases stepped
      exact roused

end Roused

end World

/-! ### The fleet -/

theorem Docker.reap_of_not_runs {docker : Docker} {containerId : Nat}
    (idle : docker.runs containerId = false) : docker.reap containerId = docker := by
  unfold Docker.reap
  split
  · rfl
  next container held =>
    simp only [Docker.runs, held, Option.any_some, Bool.and_eq_false_iff,
      beq_eq_false_iff_ne] at idle
    rw [if_neg]
    rintro ⟨same, up⟩
    rcases idle with other | down
    · exact other same
    · rw [up] at down
      cases down

namespace Fleet

inductive Stepped (staleSeconds : Int) (fleet : Fleet) : FleetEvent → Fleet → Prop
  | pass {microseconds : Nat} : Stepped staleSeconds fleet (.pass microseconds)
      { fleet with
        instances := fleet.instances.map fun world =>
          { world with now := world.now + microseconds } }
  | user {userId : Nat} {event : Event} {world next : World}
      (at_user : fleet.instances[userId]? = some world)
      (stepped : world.step staleSeconds event = some next) :
      Stepped staleSeconds fleet (.user userId event)
        { fleet with instances := fleet.instances.set userId next }
  | list {thresholdSeconds : Int} : Stepped staleSeconds fleet (.list thresholdSeconds)
      { fleet with
        ticks := fleet.ticks ++
          [{ listed := fleet.listIdleRunning thresholdSeconds reaperBatchLimit }] }
  | late {index containerId : Nat} {row : Listed} (present : fleet.late[index]? = some row)
      (named : row.containerId = some containerId) : Stepped staleSeconds fleet (.late index)
        { fleet.stopped row containerId with late := fleet.late.eraseIdx index }
  | stop {index containerId : Nat} {tick : Tick} {row : Listed} {later : List Listed}
      (present : fleet.ticks[index]? = some tick) (going : tick.finished = false)
      (listed : tick.listed = row :: later) (standing : tick.stopped = false)
      (named : row.containerId = some containerId) : Stepped staleSeconds fleet (.stop index)
        ((fleet.stopped row containerId).turn index { tick with stopped := true })
  | refuse {index : Nat} {tick : Tick} {row : Listed} {later : List Listed}
      (present : fleet.ticks[index]? = some tick) (going : tick.finished = false)
      (listed : tick.listed = row :: later) (standing : tick.stopped = false) :
      Stepped staleSeconds fleet (.refuse index) (fleet.turn index { tick with listed := later })
  | absent {index : Nat} {tick : Tick} {row : Listed} {later : List Listed} {world : World}
      (present : fleet.ticks[index]? = some tick) (going : tick.finished = false)
      (listed : tick.listed = row :: later) (stopped : tick.stopped = true)
      (at_user : fleet.instances[row.userId]? = some world) (missing : world.row = none) :
      Stepped staleSeconds fleet (.mark index)
        (fleet.turn index { tick with listed := later, stopped := false })
  | mark {index : Nat} {tick : Tick} {row : Listed} {later : List Listed} {world : World}
      (present : fleet.ticks[index]? = some tick) (going : tick.finished = false)
      (listed : tick.listed = row :: later) (stopped : tick.stopped = true)
      (at_user : fleet.instances[row.userId]? = some world) (found : world.row ≠ none)
      (free : world.holder = none) : Stepped staleSeconds fleet (.mark index)
        ((fleet.update row.userId fun world =>
          { world with holder := some (.tick index) }).turn index
            { tick with
              listed := later
              stopped := false
              marked := tick.marked ++ [row.userId] })
  | miss {index : Nat} {tick : Tick} {row : Listed} {later : List Listed}
      (present : fleet.ticks[index]? = some tick) (going : tick.finished = false)
      (listed : tick.listed = row :: later) (stopped : tick.stopped = true)
      (replaced : (fleet.instances[row.userId]?).any World.replacing = true) :
      Stepped staleSeconds fleet (.miss index)
        (fleet.turn index { tick with listed := later, stopped := false })
  | commit {index : Nat} {tick : Tick} (present : fleet.ticks[index]? = some tick)
      (going : tick.finished = false) (done : tick.listed = []) :
      Stepped staleSeconds fleet (.commit index)
        ({ fleet with
          instances := fleet.instances.mapIdx fun userId (world : World) =>
            if userId ∈ tick.marked then world.hibernate else world }.turn index
              { tick with finished := true })
  | abort {index : Nat} {tick : Tick} (present : fleet.ticks[index]? = some tick)
      (going : tick.finished = false) : Stepped staleSeconds fleet (.abort index)
        ({ fleet with
          instances := fleet.instances.map fun world : World => world.yieldTick index
          late := fleet.late ++ if tick.stopped then [] else tick.listed.take 1 }.turn index
            { tick with finished := true })

variable {fleet after : Fleet}

theorem tick_of_step {index : Nat} {event : FleetEvent}
    (stepped : ((fleet.ticks[index]?).bind fun tick =>
      if tick.finished then none else fleet.advance index tick event) = some after) :
    ∃ tick, fleet.ticks[index]? = some tick ∧ tick.finished = false ∧
      fleet.advance index tick event = some after := by
  obtain ⟨tick, present, stepped⟩ := Option.bind_eq_some_iff.mp stepped
  split at stepped
  · cases stepped
  next going => exact ⟨tick, present, by simpa using going, stepped⟩

theorem stepped_of_step {staleSeconds : Int} {event : FleetEvent}
    (stepped : fleet.step staleSeconds event = some after) :
    Stepped staleSeconds fleet event after := by
  cases event with
  | pass microseconds =>
      cases stepped
      exact .pass
  | user userId event =>
      cases event with
      | pass => cases stepped
      | call | touch | move | late | curtail =>
          obtain ⟨world, at_user, stepped⟩ := Option.bind_eq_some_iff.mp stepped
          obtain ⟨next, moved, rfl⟩ := Option.map_eq_some_iff.mp stepped
          exact .user at_user moved
  | list thresholdSeconds =>
      cases stepped
      exact .list
  | late index =>
      obtain ⟨row, present, stepped⟩ := Option.bind_eq_some_iff.mp stepped
      obtain ⟨containerId, named, rfl⟩ := Option.map_eq_some_iff.mp stepped
      exact .late present named
  | stop index =>
      obtain ⟨tick, present, going, advanced⟩ := tick_of_step stepped
      simp only [Fleet.advance] at advanced
      split at advanced
      next row later listed =>
        split at advanced
        · cases advanced
        next standing =>
          obtain ⟨containerId, named, rfl⟩ := Option.map_eq_some_iff.mp advanced
          exact .stop present going listed (by simpa using standing) named
      · cases advanced
  | refuse index =>
      obtain ⟨tick, present, going, advanced⟩ := tick_of_step stepped
      simp only [Fleet.advance] at advanced
      split at advanced
      next row later listed =>
        split at advanced <;> cases advanced
        next standing => exact .refuse present going listed (by simpa using standing)
      · cases advanced
  | mark index =>
      obtain ⟨tick, present, going, advanced⟩ := tick_of_step stepped
      simp only [Fleet.advance] at advanced
      split at advanced
      next row later listed =>
        split at advanced
        next stopped =>
          obtain ⟨world, at_user, advanced⟩ := Option.bind_eq_some_iff.mp advanced
          split at advanced
          next missing =>
            cases advanced
            exact .absent present going listed stopped at_user missing
          next found =>
            split at advanced <;> cases advanced
            next free => exact .mark present going listed stopped at_user found free
        · cases advanced
      · cases advanced
  | miss index =>
      obtain ⟨tick, present, going, advanced⟩ := tick_of_step stepped
      simp only [Fleet.advance] at advanced
      split at advanced
      next row later listed =>
        split at advanced <;> cases advanced
        next replaced =>
          rw [Bool.and_eq_true] at replaced
          exact .miss present going listed replaced.1 replaced.2
      · cases advanced
  | commit index =>
      obtain ⟨tick, present, going, advanced⟩ := tick_of_step stepped
      simp only [Fleet.advance] at advanced
      split at advanced <;> cases advanced
      next done => exact .commit present going (by simpa using done)
  | abort index =>
      obtain ⟨tick, present, going, advanced⟩ := tick_of_step stepped
      cases advanced
      exact .abort present going

/-- Nothing counts on a container which the reaper has stopped. -/
def Roused (fleet : Fleet) : Prop :=
  ∀ world ∈ fleet.instances, world.Roused

theorem stopped_of_not_reaches {listed : Listed} {containerId : Nat}
    (named : listed.containerId = some containerId) (idle : fleet.reaches listed = false) :
    (fleet.stopped listed containerId).instances = fleet.instances := by
  simp only [stopped, update]
  apply List.ext_getElem?
  intro userId
  rw [List.getElem?_modify]
  split
  next same =>
    subst same
    cases present : fleet.instances[listed.userId]? with
    | none => rfl
    | some world =>
        simp only [reaches, present, named, Option.any_some] at idle
        simp [Docker.reap_of_not_runs idle]
  · simp

theorem asleep_of_reaches {listed : Listed} {containerId : Nat} {world : World} {row : Row}
    (named : listed.containerId = some containerId) (reached : fleet.reaches listed = true)
    (present : fleet.instances[listed.userId]? = some world) (at_row : world.row = some row)
    (status : row.status = .running) (same : row.containerId = listed.containerId)
    (instances : after.instances = (fleet.stopped listed containerId).instances) :
    ¬ after.Awake := by
  intro awake
  simp only [reaches, present, named, Option.any_some, Docker.runs, Option.any_eq_true,
    Bool.and_eq_true, beq_iff_eq] at reached
  obtain ⟨container, held, rfl, up⟩ := reached
  have reaped : world.docker.reap container.id =
      { world.docker with container := some { container with up := false, reaped := true } } := by
    simp [Docker.reap, held, up]
  have found : after.instances[listed.userId]? =
      some { world with docker := world.docker.reap container.id } := by
    rw [instances, stopped, update, List.getElem?_modify, present]
    simp
  have := awake listed.userId _ row { container with up := false, reaped := true } found at_row
    status (by rw [reaped]) (same.trans named)
  cases this

theorem stopped_of_stops {staleSeconds : Int} {event : FleetEvent} {listed : Listed}
    (stops : fleet.stops event = some listed)
    (stepped : fleet.step staleSeconds event = some after) :
    ∃ containerId, listed.containerId = some containerId ∧ fleet.reaches listed = true ∧
      after.instances = (fleet.stopped listed containerId).instances := by
  obtain ⟨chosen, reached⟩ := Option.filter_eq_some_iff.mp stops
  cases event with
  | stop index =>
      obtain ⟨tick, present, chosen⟩ := Option.bind_eq_some_iff.mp chosen
      split at chosen
      · cases chosen
      next standing =>
        simp only [Bool.or_eq_true, not_or, Bool.not_eq_true] at standing
        obtain ⟨later, at_listed⟩ := List.head?_eq_some_iff.mp chosen
        simp only [step, present, Option.bind_some, standing.1, Bool.false_eq_true, if_false,
          advance, at_listed, standing.2] at stepped
        obtain ⟨containerId, named, rfl⟩ := Option.map_eq_some_iff.mp stepped
        exact ⟨containerId, named, reached, rfl⟩
  | late index =>
      have present : fleet.late[index]? = some listed := chosen
      simp only [step, present, Option.bind_some] at stepped
      obtain ⟨containerId, named, rfl⟩ := Option.map_eq_some_iff.mp stepped
      exact ⟨containerId, named, reached, rfl⟩
  | pass | user | list | refuse | mark | miss | commit | abort => cases chosen

theorem Roused.update (roused : fleet.Roused) {userId : Nat} {change : World → World}
    (kept : ∀ world : World, world.Roused → (change world).Roused) :
    (fleet.update userId change).Roused := by
  intro world member
  obtain ⟨index, present⟩ := List.mem_iff_getElem?.mp member
  rw [Fleet.update, List.getElem?_modify] at present
  obtain ⟨former, found, rfl⟩ := Option.map_eq_some_iff.mp present
  have roused := roused former (List.mem_of_getElem? found)
  split
  · exact kept former roused
  · exact roused

/-- While no stop of the reaper does anything, nothing counts on a container it has stopped. -/
theorem Roused.step (roused : fleet.Roused) {staleSeconds : Int} {event : FleetEvent}
    (quiet : fleet.stops event = none) (stepped : fleet.step staleSeconds event = some after) :
    after.Roused := by
  cases stepped_of_step stepped with
  | pass =>
      intro world member
      obtain ⟨former, present, rfl⟩ := List.mem_map.mp member
      exact roused former present
  | @user _ _ world _ at_user moved =>
      intro other member
      rcases List.mem_or_eq_of_mem_set member with old | rfl
      · exact roused other old
      · exact (roused world (List.mem_of_getElem? at_user)).step moved
  | list | refuse | absent | miss => exact roused
  | @late _ _ row present named =>
      have idle : fleet.reaches row = false := by
        simpa [stops, present] using quiet
      intro world member
      exact roused world (stopped_of_not_reaches named idle ▸ member)
  | @stop _ _ _ row _ present going listed standing named =>
      have idle : fleet.reaches row = false := by
        simpa [stops, present, going, standing, listed] using quiet
      intro world member
      exact roused world (stopped_of_not_reaches named idle ▸ member)
  | mark => exact Roused.update roused fun world roused => roused
  | commit =>
      intro world member
      obtain ⟨userId, present⟩ := List.mem_iff_getElem?.mp member
      simp only [turn, List.getElem?_mapIdx] at present
      obtain ⟨former, found, rfl⟩ := Option.map_eq_some_iff.mp present
      have roused := roused former (List.mem_of_getElem? found)
      split
      · refine roused.same rfl (fun _ _ held => .inl held) fun marked at_row status => ?_
        obtain ⟨unmarked, -, rfl⟩ := Option.map_eq_some_iff.mp at_row
        cases status
      · exact roused
  | abort =>
      intro world member
      obtain ⟨former, present, rfl⟩ := List.mem_map.mp member
      have roused := roused former present
      simp only [World.yieldTick]
      split <;> exact roused

theorem Roused.of_fresh (fresh : fleet.Fresh) : fleet.Roused := by
  intro world member container held reaped claims
  obtain ⟨userId, present⟩ := List.mem_iff_getElem?.mp member
  rcases claims with ⟨row, at_row, status, named⟩ | ⟨index, phase, found, -⟩
  · have awake := fresh.awake userId world row container present at_row status held named
    rw [reaped] at awake
    cases awake
  · simp [fresh.calls world member] at found

/-- Where nothing counts on a container the reaper has stopped, `running` rows are awake. -/
theorem Roused.awake (roused : fleet.Roused) : fleet.Awake := by
  intro userId world row container present at_row status held named
  by_contra reaped
  have member := List.mem_of_getElem? present
  exact roused world member container held (by simpa using reaped)
    (.inl ⟨row, at_row, status, named⟩)

end Fleet

/-- Hibernation keeps what it promises only while it stops nothing: in every run in which no stop of
a tick does anything the instances in use are left alone, and a stop which does something to the
container of a `running` row is at once seen by whoever reads the row. -/
theorem hibernation_spares_only_by_stopping_nothing (staleSeconds : Int) (start : Fleet)
    (fresh : start.Fresh) :
    (∀ fleet, Reachable (Fleet.step staleSeconds) (fun fleet event => fleet.stops event = none)
        start fleet →
      fleet.Awake ∧ ∀ event, fleet.stops event = none → fleet.Considerate event) ∧
    ∀ (fleet after : Fleet) (event : FleetEvent) (listed : Listed) (world : World) (row : Row),
      fleet.stops event = some listed → fleet.step staleSeconds event = some after →
      fleet.instances[listed.userId]? = some world → world.row = some row →
      row.status = .running → row.containerId = listed.containerId → ¬ after.Awake := by
  constructor
  · intro fleet reached
    have roused : fleet.Roused := by
      apply reached.invariant Fleet.Roused (.of_fresh fresh)
      intro before event after roused quiet stepped
      exact roused.step quiet stepped
    refine ⟨roused.awake, fun event quiet listed world row stops => ?_⟩
    rw [quiet] at stops
    cases stops
  · intro fleet after event listed world row stops stepped present at_row status named
    obtain ⟨containerId, named', reached, instances⟩ := Fleet.stopped_of_stops stops stepped
    exact Fleet.asleep_of_reaches named' reached present at_row status named instances

namespace Sample

/-- An instance which was used an hour ago, with its container as given. -/
def idleInstance (container : Container) : World :=
  { row := some
      { apiKey := 7, status := .running, containerId := some 0, provisioningStartedAt := some 0,
        createdAt := 0, lastActiveAt := 0 }
    docker := { container := some container, minted := 1 }
    now := 3600000000 }

theorem idleInstance_fresh (container : Container) (standing : container.reaped = false) :
    Fleet.Fresh { instances := [idleInstance container] } := by
  constructor
  case ticks => rfl
  case late => rfl
  case calls =>
      intro world member
      rw [List.mem_singleton] at member
      rw [member]
      rfl
  case awake =>
      intro userId world row held present at_row _ at_name _
      have member := List.mem_of_getElem? present
      rw [List.mem_singleton] at member
      subst member
      cases at_name
      exact standing

/-- A container which has crashed is hibernated without being stopped. -/
theorem crashed_instance_spared :
    (∃ fleet, Reachable (Fleet.step 120) (fun fleet event => fleet.stops event = none)
        { instances := [idleInstance ⟨0, 7, false, false⟩] } fleet ∧
      (fleet.instances.any fun world => world.row.any fun row => row.status == .stopped) = true ∧
      fleet.Awake) ∧
    ∀ (fleet after : Fleet) (event : FleetEvent) (listed : Listed) (world : World) (row : Row),
      fleet.stops event = some listed → fleet.step 120 event = some after →
      fleet.instances[listed.userId]? = some world → world.row = some row →
      row.status = .running → row.containerId = listed.containerId → ¬ after.Awake := by
  have holds := hibernation_spares_only_by_stopping_nothing 120
    { instances := [idleInstance ⟨0, 7, false, false⟩] } (idleInstance_fresh _ rfl)
  obtain ⟨fleet, reached, tested⟩ := reachable_of_any (Fleet.step 120)
    (fun fleet event => fleet.stops event = none)
    { instances := [idleInstance ⟨0, 7, false, false⟩] }
    (fun fleet => fleet.instances.any fun world => world.row.any fun row => row.status == .stopped)
    [.list 1800, .stop 0, .mark 0, .commit 0] (by decide)
  exact ⟨⟨fleet, reached, tested, (holds.1 fleet reached).1⟩, holds.2⟩

/-- The heartbeat of a run refreshes an instance between its listing and its stop: the tick stops
it all the same, and its row still says `running`. -/
theorem refreshed_instance_stopped :
    ¬ ∀ (staleSeconds : Int) (start fleet : Fleet), start.Fresh →
      Reachable (Fleet.step staleSeconds) (fun _ _ => True) start fleet →
      fleet.Awake ∧ ∀ event after, fleet.step staleSeconds event = some after →
        fleet.Considerate event := by
  intro always
  obtain ⟨fleet, reached, tested⟩ := reachable_of_any (Fleet.step 120) (fun _ _ => True)
    { instances := [idleInstance ⟨0, 7, true, false⟩] }
    (fun fleet => fleet.stops (.stop 0) == some ⟨0, some 0, 0⟩ &&
      (fleet.step 120 (.stop 0)).isSome && (fleet.instances[0]?).any fun world =>
        world.row.any fun row => row.lastActiveAt == 3600000000)
    [.list 1800, .user 0 .touch] (by decide)
  simp only [Bool.and_eq_true, beq_iff_eq, Option.any_eq_true, Option.isSome_iff_exists] at tested
  obtain ⟨⟨stops, after, stepped⟩, world, present, row, at_row, refreshed⟩ := tested
  have considerate := (always 120 _ fleet (idleInstance_fresh _ rfl) reached).2 _ after stepped
  have unrefreshed := considerate ⟨0, some 0, 0⟩ world row stops present at_row
  rw [refreshed] at unrefreshed
  cases unrefreshed

end Sample

end Hermes.Runtime
