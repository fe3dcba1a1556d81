import Hermes.Runtime.Tending

/-!
# Instances after mishaps

Calls, ticks and people outside change rows and containers of all users in any order.  As long as
nobody loses sight of a container, whatever is left when everything has come to rest is repaired by
the next call of `ensure_running`.
-/

namespace Hermes.Runtime

/-- What happens to the fleet: a step of the program, or the removal of a container by someone
else. -/
inductive Happening
  | program (event : FleetEvent)
  | vanish (userId : Nat)
  deriving DecidableEq, Repr

/-- The users whose containers the tick has stopped without having committed their rows. -/
def Tick.handled (tick : Tick) : List Nat :=
  (if tick.stopped then (tick.listed.head?.map Listed.userId).toList else []) ++ tick.marked

def World.upright (world : World) : Bool :=
  !world.trusted || world.docker.answers

namespace Fleet

/-- One step of the fleet and of those who remove containers. -/
def happen (staleSeconds : Int) (fleet : Fleet) : Happening → Option Fleet
  | .program event => fleet.step staleSeconds event
  | .vanish userId => some (fleet.update userId World.vanish)

/-- No container is lost sight of: calls are prudent and careful, a tick marks no row which a call
has opened and fails only while what it has stopped is not trusted, no stop is carried out late on a
container which is trusted, and only dispensable containers are removed. -/
def gentle (staleSeconds : Int) (fleet : Fleet) : Happening → Bool
  | .program (.user userId event) =>
      (fleet.instances[userId]?).all fun world =>
        world.prudent staleSeconds event && world.careful event
  | .program (.mark index) =>
      (fleet.ticks[index]?).all fun tick => tick.listed.head?.all fun listed =>
        (fleet.instances[listed.userId]?).all fun world =>
          world.row.all fun row => row.status != .provisioning
  | .program (.abort index) =>
      (fleet.ticks[index]?).all fun tick => tick.handled.all fun userId =>
        (fleet.instances[userId]?).all World.upright
  | .program (.late index) =>
      (fleet.late[index]?).all fun listed =>
        !(fleet.reaches listed && (fleet.instances[listed.userId]?).any World.trusted)
  | .vanish userId => (fleet.instances[userId]?).all World.dispensable
  | _ => true

/-- A tick has stopped the container of the user and will commit the row as stopped. -/
def Halting (fleet : Fleet) (userId : Nat) : Prop :=
  ∃ (index : Nat) (tick : Tick), fleet.ticks[index]? = some tick ∧ tick.finished = false ∧
    userId ∈ tick.handled

/-- Every instance is tended, and what a tick has marked it holds. -/
structure Tended (fleet : Fleet) : Prop where
  worlds : ∀ (userId : Nat) (world : World), fleet.instances[userId]? = some world →
    world.Tended (fleet.Halting userId)
  marked : ∀ (index userId : Nat) (tick : Tick) (world : World), fleet.ticks[index]? = some tick →
    tick.finished = false → userId ∈ tick.marked → fleet.instances[userId]? = some world →
    world.HeldBy index

variable {fleet after : Fleet}

theorem getElem?_update {userId other : Nat} {change : World → World} {world : World}
    (present : (fleet.update userId change).instances[other]? = some world) :
    (other = userId ∧ ∃ former, fleet.instances[userId]? = some former ∧ world = change former) ∨
      (other ≠ userId ∧ fleet.instances[other]? = some world) := by
  rw [update, List.getElem?_modify] at present
  obtain ⟨former, found, rfl⟩ := Option.map_eq_some_iff.mp present
  by_cases same : userId = other
  · subst same
    exact .inl ⟨rfl, former, found, if_pos rfl⟩
  · refine .inr ⟨Ne.symm same, ?_⟩
    rw [if_neg same]
    exact found

theorem Halting.turn {userId index : Nat} {tick next : Tick} (halting : fleet.Halting userId)
    (present : fleet.ticks[index]? = some tick)
    (ticks : after.ticks = fleet.ticks.set index next) :
    after.Halting userId ∨
      userId ∈ tick.handled ∧ ¬ (next.finished = false ∧ userId ∈ next.handled) := by
  obtain ⟨other, found, at_other, going, handled⟩ := halting
  by_cases same : other = index
  · subst same
    cases present.symm.trans at_other
    by_cases goes_on : next.finished = false ∧ userId ∈ next.handled
    · refine .inl ⟨other, next, ?_, goes_on.1, goes_on.2⟩
      rw [ticks, List.getElem?_set_self (List.getElem?_eq_some_iff.mp present).choose]
    · exact .inr ⟨handled, goes_on⟩
  · refine .inl ⟨other, found, ?_, going, handled⟩
    rw [ticks, List.getElem?_set_ne (Ne.symm same)]
    exact at_other

namespace Tended

/-- An instance is still tended when a tick has come to another point, unless the tick has dropped
it. -/
theorem carried (tended : fleet.Tended) {userId index : Nat} {tick next : Tick} {world : World}
    (present : fleet.ticks[index]? = some tick)
    (ticks : after.ticks = fleet.ticks.set index next)
    (at_user : fleet.instances[userId]? = some world)
    (relieved : userId ∈ tick.handled → ¬ (next.finished = false ∧ userId ∈ next.handled) →
      world.trusted = true → world.docker.answers = true) :
    world.Tended (after.Halting userId) := by
  apply (tended.worlds userId world at_user).mono
  intro halting trusted
  obtain kept | ⟨handled, dropped⟩ := halting.turn present ticks
  · exact .inr kept
  · exact .inl (relieved handled dropped trusted)

theorem turn (tended : fleet.Tended) {index : Nat} {tick next : Tick}
    (present : fleet.ticks[index]? = some tick)
    (ticks : after.ticks = fleet.ticks.set index next)
    (worlds : ∀ (userId : Nat) (world : World), after.instances[userId]? = some world →
      ∃ former, fleet.instances[userId]? = some former ∧
        world.Tended (after.Halting userId) ∧
        (next.finished = true ∨ (userId ∈ next.marked → world.HeldBy index)) ∧
        ∀ other, other ≠ index → former.HeldBy other → world.HeldBy other) : after.Tended := by
  constructor
  case worlds =>
      intro userId world found
      obtain ⟨former, -, tended, -⟩ := worlds userId world found
      exact tended
  case marked =>
      intro other userId found world at_other going marked at_user
      obtain ⟨former, at_user', -, own, others⟩ := worlds userId world at_user
      rw [ticks] at at_other
      obtain ⟨rfl, rfl⟩ | ⟨apart, before⟩ := getElem?_set_cases at_other
      · exact own.resolve_left (by simp [going]) marked
      · apply others other apart
        exact tended.marked other userId found former before going marked at_user'

section Ticks

variable {index : Nat} {tick : Tick} (tended : fleet.Tended)
  (present : fleet.ticks[index]? = some tick) (going : tick.finished = false)

include tended present going

theorem stop {row : Listed} {later : List Listed} {containerId : Nat}
    (listed : tick.listed = row :: later) (standing : tick.stopped = false) :
    ((fleet.stopped row containerId).turn index { tick with stopped := true }).Tended := by
  refine tended.turn present rfl fun userId world found => ?_
  have within : index < fleet.ticks.length := (List.getElem?_eq_some_iff.mp present).choose
  obtain ⟨rfl, former, at_user, rfl⟩ | ⟨-, at_user⟩ := getElem?_update found
  · refine ⟨former, at_user, ?_, .inr fun marked => ?_, fun _ _ held => held⟩
    · apply (tended.worlds _ former at_user).reap
      refine fun _ => .inr ⟨index, _, List.getElem?_set_self within, going, ?_⟩
      simp [Tick.handled, listed]
    · exact tended.marked index _ tick former present going marked at_user
  · refine ⟨world, at_user, ?_, .inr fun marked => ?_, fun _ _ held => held⟩
    · refine tended.carried present rfl at_user fun handled dropped => ?_
      refine absurd ⟨going, ?_⟩ dropped
      simp only [Tick.handled, standing, Bool.false_eq_true, if_false, List.nil_append] at handled
      exact List.mem_append_right _ handled
    · exact tended.marked index _ tick world present going marked at_user

theorem skip {row : Listed} {later : List Listed} {next : Tick}
    (listed : tick.listed = row :: later)
    (goes_on : next = { tick with listed := later, stopped := false })
    (untrusted : tick.stopped = true → ∀ world, fleet.instances[row.userId]? = some world →
      world.trusted = false) : (fleet.turn index next).Tended := by
  subst goes_on
  refine tended.turn present rfl fun userId world at_user => ?_
  refine ⟨world, at_user, ?_, .inr fun marked => ?_, fun _ _ held => held⟩
  · refine tended.carried present rfl at_user fun handled dropped trusted => ?_
    by_cases marked : userId ∈ tick.marked
    · exact absurd ⟨going, marked⟩ dropped
    · simp only [Tick.handled, List.mem_append, marked, or_false] at handled
      split at handled
      next stopped =>
        have same : userId = row.userId := by simpa [listed] using handled
        subst same
        have untrusted := untrusted stopped world at_user
        exact absurd (untrusted.symm.trans trusted) Bool.false_ne_true
      · cases handled
  · exact tended.marked index _ tick world present going marked at_user

theorem mark {row : Listed} {later : List Listed}
    (listed : tick.listed = row :: later) (stopped : tick.stopped = true)
    (settled : ∀ world, fleet.instances[row.userId]? = some world → world.holder = none ∧
      ∃ found, world.row = some found ∧ found.status ≠ .provisioning) :
    ((fleet.update row.userId fun world =>
      { world with holder := some (.tick index) }).turn index
        { tick with
          listed := later
          stopped := false
          marked := tick.marked ++ [row.userId] }).Tended := by
  refine tended.turn present rfl fun userId world found => ?_
  have kept {userId : Nat} (handled : userId ∈ tick.handled) :
      userId ∈ tick.marked ++ [row.userId] := by
    simpa [Tick.handled, listed, stopped, or_comm] using handled
  obtain ⟨rfl, former, at_user, rfl⟩ | ⟨apart, at_user⟩ := getElem?_update found
  · obtain ⟨free, settled⟩ := settled former at_user
    refine ⟨former, at_user, ?_, .inr fun _ => ⟨rfl, settled⟩, fun other _ held => ?_⟩
    · refine World.Tended.relock ?_ _ (by simp [free])
      exact tended.carried present rfl at_user fun handled dropped =>
        absurd ⟨going, kept handled⟩ dropped
    · cases free.symm.trans held.1
  · refine ⟨world, at_user, ?_, .inr fun marked => ?_, fun _ _ held => held⟩
    · exact tended.carried present rfl at_user fun handled dropped =>
        absurd ⟨going, kept handled⟩ dropped
    · rcases List.mem_append.mp marked with old | new
      · exact tended.marked index _ tick world present going old at_user
      · exact absurd (List.mem_singleton.mp new) apart

theorem commit (done : tick.listed = []) :
    (Fleet.turn { fleet with
      instances := fleet.instances.mapIdx fun userId (world : World) =>
        if userId ∈ tick.marked then world.hibernate else world } index
          { tick with finished := true }).Tended := by
  refine tended.turn present rfl fun userId world found => ?_
  simp only [Fleet.turn, List.getElem?_mapIdx] at found
  obtain ⟨former, at_user, rfl⟩ := Option.map_eq_some_iff.mp found
  refine ⟨former, at_user, ?_, .inl rfl, fun other apart held => ?_⟩
  · split
    next marked =>
      have held := tended.marked index userId tick former present going marked at_user
      exact (tended.worlds userId former at_user).hibernate held
    next unmarked =>
      refine tended.carried present rfl at_user fun handled => ?_
      simp only [Tick.handled, done, List.head?_nil, Option.map_none, Option.toList_none, ite_self,
        List.nil_append] at handled
      exact absurd handled unmarked
  · split
    next marked =>
      -- Two ticks do not hold one lock.
      have own := tended.marked index userId tick former present going marked at_user
      cases own.1.symm.trans held.1
      exact absurd rfl apart
    next => exact held

omit going in
theorem abort {late : List Listed}
    (upright : ∀ userId world, userId ∈ tick.handled → fleet.instances[userId]? = some world →
      world.trusted = true → world.docker.answers = true) :
    (Fleet.turn { fleet with
      instances := fleet.instances.map fun world : World => world.yieldTick index
      late } index { tick with finished := true }).Tended := by
  refine tended.turn present rfl fun userId world found => ?_
  simp only [Fleet.turn, List.getElem?_map] at found
  obtain ⟨former, at_user, rfl⟩ := Option.map_eq_some_iff.mp found
  refine ⟨former, at_user, ?_, .inl rfl, fun other apart held => ?_⟩
  · apply World.Tended.yieldTick
    exact tended.carried present rfl at_user fun handled _ => upright userId former handled at_user
  · have foreign : former.holder ≠ some (.tick index) := by
      rw [held.1]
      simpa using apart
    rw [World.yieldTick, if_neg foreign]
    exact held

end Ticks

theorem update (tended : fleet.Tended) {userId : Nat} {change : World → World}
    (worlds : ∀ world, fleet.instances[userId]? = some world →
      (change world).Tended (fleet.Halting userId) ∧
        ∀ tick, world.HeldBy tick → (change world).HeldBy tick) :
    (fleet.update userId change).Tended := by
  constructor
  case worlds =>
      intro other world found
      obtain ⟨rfl, former, at_user, rfl⟩ | ⟨-, at_user⟩ := getElem?_update found
      · exact (worlds former at_user).1
      · exact tended.worlds other world at_user
  case marked =>
      intro index other tick world present going marked found
      obtain ⟨rfl, former, at_user, rfl⟩ | ⟨-, at_user⟩ := getElem?_update found
      · exact (worlds former at_user).2 index
          (tended.marked index other tick former present going marked at_user)
      · exact tended.marked index other tick world present going marked at_user

theorem user (tended : fleet.Tended) {staleSeconds : Int} {userId : Nat} {event : Event}
    {world next : World} (at_user : fleet.instances[userId]? = some world)
    (prudent : world.prudent staleSeconds event = true) (careful : world.careful event = true)
    (stepped : world.step staleSeconds event = some next) :
    Fleet.Tended { fleet with instances := fleet.instances.set userId next } := by
  have here := tended.worlds userId world at_user
  constructor
  case worlds =>
      intro other found at_other
      obtain ⟨rfl, rfl⟩ | ⟨-, before⟩ := getElem?_set_cases at_other
      · exact here.step prudent careful stepped
      · exact tended.worlds other found before
  case marked =>
      intro index other tick found present going marked at_other
      obtain ⟨rfl, rfl⟩ | ⟨-, before⟩ := getElem?_set_cases at_other
      · exact (tended.marked index other tick world present going marked at_user).step
          here.orderly stepped
      · exact tended.marked index other tick found present going marked before

theorem pass (tended : fleet.Tended) {microseconds : Nat} :
    Fleet.Tended { fleet with
      instances := fleet.instances.map fun world : World =>
        { world with now := world.now + microseconds } } := by
  constructor
  case worlds =>
      intro userId world found
      rw [List.getElem?_map] at found
      obtain ⟨former, at_user, rfl⟩ := Option.map_eq_some_iff.mp found
      exact (tended.worlds userId former at_user).step
        (show former.prudent 0 (.pass microseconds) = true from rfl) rfl rfl
  case marked =>
      intro index userId tick world present going marked found
      rw [List.getElem?_map] at found
      obtain ⟨former, at_user, rfl⟩ := Option.map_eq_some_iff.mp found
      exact tended.marked index userId tick former present going marked at_user

theorem list (tended : fleet.Tended) (listed : List Listed) :
    Fleet.Tended { fleet with ticks := fleet.ticks ++ [{ listed }] } := by
  constructor
  case worlds =>
      intro userId world at_user
      apply (tended.worlds userId world at_user).mono
      rintro ⟨index, tick, present, going, handled⟩ _
      refine .inr ⟨index, tick, ?_, going, handled⟩
      have within : index < fleet.ticks.length := (List.getElem?_eq_some_iff.mp present).choose
      exact (List.getElem?_append_left within).trans present
  case marked =>
      intro index userId tick world present going marked at_user
      obtain before | ⟨-, rfl⟩ := getElem?_snoc present
      · exact tended.marked index userId tick world before going marked at_user
      · cases marked

theorem step (tended : fleet.Tended) {staleSeconds : Int} {event : FleetEvent}
    (gentle : fleet.gentle staleSeconds (.program event) = true)
    (stepped : fleet.step staleSeconds event = some after) : after.Tended := by
  cases stepped_of_step stepped with
  | pass => exact tended.pass
  | user at_user moved =>
      simp only [Fleet.gentle, at_user, Option.all_some, Bool.and_eq_true] at gentle
      exact tended.user at_user gentle.1 gentle.2 moved
  | list => exact tended.list _
  | @late _ containerId row present named =>
      have kept : (fleet.stopped row containerId).Tended := by
        apply tended.update
        intro world at_user
        refine ⟨?_, fun _ held => held⟩
        have here := tended.worlds row.userId world at_user
        apply here.reap
        intro trusted
        have unreached : fleet.reaches row = false := by
          simpa [Fleet.gentle, present, at_user, trusted] using gentle
        have idle : world.docker.runs containerId = false := by
          simpa [reaches, at_user, named] using unreached
        rw [Docker.reap_of_not_runs idle]
        exact here.standing trusted
      exact ⟨kept.worlds, kept.marked⟩
  | stop present going listed standing named => exact tended.stop present going listed standing
  | refuse present going listed standing =>
      apply tended.skip present going listed (by rw [standing])
      intro stopped
      exact absurd (standing.symm.trans stopped) Bool.false_ne_true
  | absent present going listed stopped at_user missing =>
      apply tended.skip present going listed rfl
      intro _ other at_other
      cases at_user.symm.trans at_other
      exact World.untrusted_of_absent (tended.worlds _ _ at_user).orderly missing
  | mark present going listed stopped at_user found free =>
      apply tended.mark present going listed stopped
      intro other at_other
      cases at_user.symm.trans at_other
      obtain ⟨marked, at_row⟩ := Option.ne_none_iff_exists'.mp found
      refine ⟨free, marked, at_row, ?_⟩
      simpa [Fleet.gentle, present, listed, at_user, at_row] using gentle
  | miss present going listed stopped replaced =>
      apply tended.skip present going listed rfl
      intro _ world at_user
      rw [at_user, Option.any_some] at replaced
      exact World.untrusted_of_replacing (tended.worlds _ world at_user).orderly replaced
  | commit present going done => exact tended.commit present going done
  | abort present going =>
      apply tended.abort present
      intro userId world handled at_user trusted
      simp only [Fleet.gentle, present, Option.all_some, List.all_eq_true] at gentle
      have upright := gentle userId handled
      simpa [at_user, World.upright, trusted] using upright

theorem happen (tended : fleet.Tended) {staleSeconds : Int} {happening : Happening}
    (gentle : fleet.gentle staleSeconds happening = true)
    (happened : fleet.happen staleSeconds happening = some after) : after.Tended := by
  cases happening with
  | program event => exact tended.step gentle happened
  | vanish userId =>
      cases happened
      apply tended.update
      intro world at_user
      refine ⟨(tended.worlds userId world at_user).vanish ?_, fun _ held => held⟩
      simpa [Fleet.gentle, at_user] using gentle

end Tended

/-! ### The fleet before and after -/

end Fleet

/-- No call is under way, the container is the one the row names, and it is up if the row says
so. -/
structure World.Settled (world : World) : Prop where
  quiet : world.Quiet
  named : ∀ container, world.docker.container = some container →
    ∃ row, world.row = some row ∧ row.containerId = some container.id
  up : ∀ row, world.row = some row → row.status = .running → world.docker.answers = true

namespace Fleet

/-- Every instance is settled and no tick is under way. -/
structure Settled (fleet : Fleet) : Prop where
  worlds : ∀ world ∈ fleet.instances, world.Settled
  ticks : fleet.ticks = []

def AtRest (fleet : Fleet) : Prop :=
  ∀ tick ∈ fleet.ticks, tick.finished = true

theorem Tended.of_settled {fleet : Fleet} (settled : fleet.Settled) : fleet.Tended := by
  constructor
  case worlds =>
      intro userId world at_user
      have settled := settled.worlds world (List.mem_of_getElem? at_user)
      have calls := settled.quiet.calls
      constructor
      case orderly => exact .of_quiet settled.quiet
      case known => exact fun container held => .inl (settled.named container held)
      case standing =>
          intro trusted
          rcases World.trusted_iff.mp trusted with
            ⟨row, at_row, status⟩ | ⟨index, phase, present, -⟩
          · exact .inl (settled.up row at_row status)
          · simp [calls] at present
      case cleared =>
          intro index phase present
          simp [calls] at present
  case marked =>
      intro index userId tick world present
      simp [settled.ticks] at present

theorem Tended.mendable {fleet : Fleet} (tended : fleet.Tended) (rest : fleet.AtRest)
    {staleSeconds : Int} (positive : 0 < staleSeconds) {userId : Nat} {world : World}
    (at_user : fleet.instances[userId]? = some world) (idle : world.Idle) :
    world.Mendable staleSeconds := by
  have here := tended.worlds userId world at_user
  have unbusy (index : Nat) (phase : Phase) (present : world.calls[index]? = some phase) :
      phase.busy = false := by
    have ended := idle.ended phase (List.mem_of_getElem? present)
    cases phase with
    | finished => rfl
    | begun | absent | waiting | probing | ready | launching | discarding | dropping | expired
    | halting | halted | waking | started | replaying | replaced => cases ended
  cases at_row : world.row with
  | none =>
      simp only [World.Mendable, at_row]
      by_contra held
      obtain ⟨container, held⟩ := Option.ne_none_iff_exists'.mp held
      obtain ⟨row, at_row', -⟩ := here.named unbusy held
      cases at_row.symm.trans at_row'
  | some row =>
      cases status : row.status with
      | provisioning =>
          simp only [World.Mendable, at_row, status]
          refine ⟨positive, fun container held => ?_⟩
          obtain ⟨found, at_found, named⟩ := here.named unbusy held
          cases at_row.symm.trans at_found
          exact named
      | running =>
          simp only [World.Mendable, at_row, status]
          refine ⟨here.orderly.backed row at_row (by simp [status]), ?_⟩
          have trusted : world.trusted = true :=
            World.trusted_iff.mpr (.inl ⟨row, at_row, status⟩)
          refine (here.standing trusted).resolve_right ?_
          rintro ⟨index, tick, present, going, -⟩
          have finished := rest tick (List.mem_of_getElem? present)
          exact absurd (going.symm.trans finished) Bool.false_ne_true
      | stopped =>
          simp only [World.Mendable, at_row, status]
          exact here.orderly.backed row at_row (by simp [status])

end Fleet

/-- However calls, ticks and outsiders have failed, as long as nobody has lost sight of a container
the instances they leave behind recover; and an instance at rest recovers exactly when its row and
its container can be mended. -/
theorem instance_recovers_iff (staleSeconds : Int) (positive : 0 < staleSeconds)
    (start fleet : Fleet) (settled : start.Settled)
    (reached : Reachable (Fleet.happen staleSeconds)
      (fun fleet happening => fleet.gentle staleSeconds happening = true) start fleet) :
    (fleet.AtRest → ∀ (userId : Nat) (world : World), fleet.instances[userId]? = some world →
      world.Idle → world.Lapsed staleSeconds → world.Recovers staleSeconds) ∧
    ∀ world : World, world.Idle → world.Lapsed staleSeconds →
      (world.Recovers staleSeconds ↔ world.Mendable staleSeconds) := by
  have tended : fleet.Tended := by
    apply reached.invariant Fleet.Tended (.of_settled settled)
    intro before happening after tended gentle happened
    exact tended.happen gentle happened
  constructor
  · intro rest userId world at_user idle lapsed
    exact (World.recovers_iff idle lapsed).mpr (tended.mendable rest positive at_user idle)
  · exact fun world idle lapsed => World.recovers_iff idle lapsed

namespace Sample

/-- A wake dies while the container starts, and someone removes the container. -/
def removedInWake : List Happening :=
  [.program (.user 0 .call), .program (.user 0 (.move 0 .look)),
    .program (.user 0 (.move 0 .perform)), .program (.user 0 (.move 0 .write)),
    .program (.user 0 (.move 0 .die)), .vanish 0, .program (.pass 121000000)]

theorem hibernated_settled : Fleet.Settled { instances := [hibernated] } := by
  constructor
  case worlds =>
      intro world member
      rw [List.mem_singleton.mp member]
      constructor
      case quiet => exact hibernated_quiet
      case named =>
          intro container held
          cases held
          exact ⟨_, rfl, rfl⟩
      case up =>
          intro row present status
          cases present
          cases status
  case ticks => rfl

/-- The replay finds nothing to remove and brings the instance back. -/
theorem instance_removed_in_wake_recovers :
    ∃ (fleet : Fleet) (world : World),
      Reachable (Fleet.happen 120)
        (fun fleet happening => fleet.gentle 120 happening = true)
        { instances := [hibernated] } fleet ∧
      fleet.instances[0]? = some world ∧ world.docker.container = none ∧
      world.Recovers 120 := by
  obtain ⟨fleet, reached, tested⟩ := reachable_of_any (Fleet.happen 120)
    (fun fleet happening => fleet.gentle 120 happening = true) { instances := [hibernated] }
    (fun fleet => fleet.ticks == [] && (fleet.instances[0]?).any fun world =>
      world.holder == none && world.calls.all Phase.isOver && world.docker.container == none &&
        world.row.all fun row => row.provisioningStartedAt == some 3600000000 &&
          world.now == 3721000000)
    removedInWake (by decide)
  simp only [Bool.and_eq_true, beq_iff_eq, Option.any_eq_true, Option.all_eq_true] at tested
  obtain ⟨ticks, world, at_user, ⟨⟨holder, ended⟩, removed⟩, times⟩ := tested
  refine ⟨fleet, world, reached, at_user, removed, ?_⟩
  apply (instance_recovers_iff 120 (by omega) _ fleet hibernated_settled reached).1
  · simp [Fleet.AtRest, ticks]
  · exact at_user
  · exact ⟨holder, List.all_eq_true.mp ended⟩
  · intro row at_row _
    obtain ⟨started, now⟩ := times row at_row
    simp [started, now]

/-- A first call dies between `docker run` and `mark_running`. -/
def diedInLaunch : List Happening :=
  [.program (.user 0 .call), .program (.user 0 (.move 0 .look)),
    .program (.user 0 (.move 0 (.insert 7))), .program (.user 0 (.move 0 .perform)),
    .program (.user 0 (.move 0 .die)), .program (.pass 121000000)]

/-- The row never names the container, so that no replay removes it, and every later `docker run`
finds the name taken. -/
theorem launch_dies_for_good :
    ¬ ∀ (staleSeconds : Int) (start fleet : Fleet), 0 < staleSeconds → start.Settled →
      Reachable (Fleet.happen staleSeconds) (fun _ _ => True) start fleet → fleet.AtRest →
      ∀ (userId : Nat) (world : World), fleet.instances[userId]? = some world → world.Idle →
        world.Lapsed staleSeconds → world.Recovers staleSeconds := by
  intro always
  obtain ⟨fleet, reached, tested⟩ := reachable_of_any (Fleet.happen 120) (fun _ _ => True)
    { instances := [{}] }
    (fun fleet => fleet.ticks == [] && (fleet.instances[0]?).any fun world =>
      world.holder == none && world.calls.all Phase.isOver && world.now == 121000000 &&
        world.row == some (.createProvisioning 7 0) &&
        world.docker.container == some ⟨0, 7, true, false⟩)
    diedInLaunch (by decide)
  simp only [Bool.and_eq_true, beq_iff_eq, Option.any_eq_true] at tested
  obtain ⟨ticks, world, at_user, ⟨⟨⟨holder, ended⟩, now⟩, at_row⟩, at_name⟩ := tested
  have settled : Fleet.Settled { instances := [{}] } := by
    constructor
    case worlds =>
        intro world member
        rw [List.mem_singleton.mp member]
        constructor
        case quiet => constructor <;> simp
        case named => simp
        case up => simp
    case ticks => rfl
  have idle : world.Idle := ⟨holder, List.all_eq_true.mp ended⟩
  have lapsed : world.Lapsed 120 := by
    intro row found _
    cases at_row.symm.trans found
    simp [Row.createProvisioning, now]
  have rest : fleet.AtRest := by simp [Fleet.AtRest, ticks]
  have recovers := always 120 _ fleet (by omega) settled reached rest 0 world at_user idle lapsed
  have mendable := (World.recovers_iff idle lapsed).mp recovers
  simp only [World.Mendable, at_row, Row.createProvisioning] at mendable
  cases mendable.2 _ at_name

end Sample

end Hermes.Runtime
