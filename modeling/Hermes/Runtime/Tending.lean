import Hermes.Runtime.Reaper
import Hermes.Runtime.Recovery

/-!
# What calls and ticks leave behind

An instance can be repaired as long as every container is named by its row or known to a call which
is under way, and a container which is taken for ready is up, or was stopped by a tick which goes on
to mark the row.
-/

namespace Hermes.Runtime

/-! ### What is counted on -/

namespace Phase

/-- The container which nothing but the call knows of. -/
def minds : Phase → Option Nat
  | probing .launched _ containerId | ready .launched _ containerId | discarding containerId =>
      some containerId
  | _ => none

/-- The call goes on as if the container it has started were there. -/
def expects : Phase → Bool
  | probing .. | ready .. | expired .. | halting _ | halted => true
  | _ => false

def trusts : Phase → Bool
  | ready .. => true
  | _ => false

/-- The call is about to insert a row in place of one it has deleted. -/
def replaces : Phase → Bool
  | replaced _ => true
  | _ => false

/-- An idle call minds no container, trusts none and replaces no row. -/
theorem careless_of_idle {phase : Phase} (idle : phase.busy = false) :
    phase.minds = none ∧ phase.trusts = false ∧ phase.replaces = false := by
  cases phase with
  | begun | absent | waiting | finished => exact ⟨rfl, rfl, rfl⟩
  | probing | ready | launching | discarding | dropping | expired | halting | halted | waking
  | started | replaying | replaced => cases idle

end Phase

theorem Docker.perform_former {docker after : Docker} {request : Request} {container : Container}
    (performed : docker.perform request = some after) (held : after.container = some container)
    (not_run : ∀ apiKey, request ≠ .run apiKey) (not_create : ∀ apiKey, request ≠ .create apiKey) :
    ∃ former, docker.container = some former ∧ former.id = container.id := by
  cases found : docker.container with
  | none =>
      cases request with
      | run apiKey => exact absurd rfl (not_run apiKey)
      | create apiKey => exact absurd rfl (not_create apiKey)
      | start containerId => simp [perform, found] at performed
      | stop containerId | remove containerId =>
          simp only [perform, found, Option.some.injEq] at performed
          subst performed
          simp [found] at held
  | some former =>
      refine ⟨former, rfl, ?_⟩
      cases request with
      | run apiKey => exact absurd rfl (not_run apiKey)
      | create apiKey => exact absurd rfl (not_create apiKey)
      | start containerId =>
          simp only [perform, found] at performed
          split at performed <;> cases performed
          cases held
          rfl
      | stop containerId =>
          simp only [perform, found] at performed
          split at performed <;> cases performed
          · cases held
            rfl
          · cases found.symm.trans held
            rfl
      | remove containerId =>
          simp only [perform, found] at performed
          split at performed <;> cases performed
          · cases held
          · cases found.symm.trans held
            rfl

theorem Docker.perform_remove {docker after : Docker} {containerId : Nat}
    (performed : docker.perform (.remove containerId) = some after)
    (only : ∀ container, docker.container = some container → container.id = containerId) :
    after.container = none := by
  cases held : docker.container with
  | none =>
      simp only [perform, held, Option.some.injEq] at performed
      rw [← performed, held]
  | some container =>
      simp only [perform, held, only container held, if_true, Option.some.injEq] at performed
      rw [← performed]

namespace World

/-- The row says `running`, or a call is about to make it say so. -/
def trusted (world : World) : Bool :=
  world.row.any (·.status == .running) || world.calls.any Phase.trusts

/-- No call dies, and none is refused its clean-up, while nothing but the call knows of its
container; none is left with a container which is not started, and none is created for a call which
has died. -/
def careful (world : World) : Event → Bool
  | .move index .die | .move index .refuse =>
      (world.calls[index]?).all fun phase => phase.minds.isNone
  | .move _ .create => false
  | .late index =>
      (world.late[index]?).all fun request =>
        match request with
        | .run _ | .create _ => world.docker.container.isSome
        | _ => true
  | _ => true

/-- The container is named by no settled row and expected by no call. -/
def dispensable (world : World) : Bool :=
  world.row.all (·.status == .provisioning) && !world.calls.any Phase.expects

def vanish (world : World) : World :=
  { world with docker := { world.docker with container := none } }

/-- Every container is named by the row or minded by a call, one which is trusted is up unless a
tick has stopped it and goes on, and a replay inserts its row where there is no container. -/
structure Tended (halting : Prop) (world : World) : Prop where
  orderly : world.Orderly
  known : ∀ container, world.docker.container = some container →
    (∃ row, world.row = some row ∧ row.containerId = some container.id) ∨
      ∃ (index : Nat) (phase : Phase), world.calls[index]? = some phase ∧
        phase.minds = some container.id
  standing : world.trusted = true → world.docker.answers = true ∨ halting
  cleared : ∀ (index : Nat) (phase : Phase), world.calls[index]? = some phase →
    phase.replaces = true → world.docker.container = none

theorem trusted_iff {world : World} :
    world.trusted = true ↔ (∃ row, world.row = some row ∧ row.status = .running) ∨
      ∃ (index : Nat) (phase : Phase), world.calls[index]? = some phase ∧
        phase.trusts = true := by
  simp only [trusted, Bool.or_eq_true, Option.any_eq_true, List.any_eq_true, beq_iff_eq]
  apply or_congr Iff.rfl
  constructor
  · rintro ⟨phase, member, trusts⟩
    obtain ⟨index, present⟩ := List.mem_iff_getElem?.mp member
    exact ⟨index, phase, present, trusts⟩
  · rintro ⟨index, phase, present, trusts⟩
    exact ⟨phase, List.mem_of_getElem? present, trusts⟩

/-- Only a row which says `running` is trusted where no call is busy. -/
theorem trusted_of_busy {world : World} (orderly : world.Orderly) {index : Nat} {phase : Phase}
    (present : world.calls[index]? = some phase) (busy : phase.busy = true)
    (trusted : world.trusted = true) : phase.trusts = true := by
  rcases trusted_iff.mp trusted with ⟨row, at_row, status⟩ | ⟨other, found, at_other, trusts⟩
  · obtain ⟨found, at_row', unsettled⟩ := orderly.unsettled present busy
    cases at_row.symm.trans at_row'
    exact absurd status unsettled
  · by_cases same : other = index
    · subst same
      cases present.symm.trans at_other
      exact trusts
    · have idle := orderly.others present busy other found at_other same
      rw [(Phase.careless_of_idle idle).2.1] at trusts
      cases trusts

theorem untrusted_of_absent {world : World} (orderly : world.Orderly) (absent : world.row = none) :
    world.trusted = false := by
  by_contra trusted
  rcases trusted_iff.mp (by simpa using trusted) with
    ⟨row, at_row, -⟩ | ⟨index, phase, present, trusts⟩
  · cases absent.symm.trans at_row
  · have idle := orderly.idle_of_absent absent present
    rw [(Phase.careless_of_idle idle).2.1] at trusts
    cases trusts

theorem untrusted_of_replacing {world : World} (orderly : world.Orderly)
    (replacing : world.replacing = true) : world.trusted = false := by
  by_contra trusted
  simp only [World.replacing] at replacing
  split at replacing
  next index held =>
    obtain ⟨phase, present, replays⟩ := (Option.any_eq_true _ _).mp replacing
    have busy : phase.busy = true := by
      cases phase <;> first | rfl | cases replays
    have trusts := trusted_of_busy orderly present busy (by simpa using trusted)
    cases phase <;> first | cases replays; done | cases trusts
  · cases replacing

namespace Tended

variable {world after : World} {halting : Prop}

theorem held (tended : world.Tended halting) {index : Nat} {phase : Phase}
    (present : world.calls[index]? = some phase) (busy : phase.busy = true)
    {container : Container} (held : world.docker.container = some container) :
    (∃ row, world.row = some row ∧ row.containerId = some container.id) ∨
      phase.minds = some container.id := by
  rcases tended.known container held with named | ⟨other, found, at_other, minds⟩
  · exact .inl named
  · by_cases same : other = index
    · subst same
      cases present.symm.trans at_other
      exact .inr minds
    · have idle := tended.orderly.others present busy other found at_other same
      rw [(Phase.careless_of_idle idle).1] at minds
      cases minds

theorem row_names (tended : world.Tended halting) {index : Nat} {phase : Phase}
    (present : world.calls[index]? = some phase) (busy : phase.busy = true)
    (careless : phase.minds = none) {container : Container}
    (held : world.docker.container = some container) :
    ∃ row, world.row = some row ∧ row.containerId = some container.id :=
  (tended.held present busy held).resolve_right (by simp [careless])

theorem named (tended : world.Tended halting)
    (idle : ∀ (index : Nat) (phase : Phase), world.calls[index]? = some phase →
      phase.busy = false) {container : Container}
    (held : world.docker.container = some container) :
    ∃ row, world.row = some row ∧ row.containerId = some container.id := by
  rcases tended.known container held with named | ⟨index, phase, present, minds⟩
  · exact named
  · rw [(Phase.careless_of_idle (idle index phase present)).1] at minds
    cases minds

theorem mono {others : Prop} (tended : world.Tended halting)
    (relieved : halting → world.trusted = true → world.docker.answers = true ∨ others) :
    world.Tended others := by
  constructor
  case orderly => exact tended.orderly
  case known => exact tended.known
  case standing =>
      intro trusted
      rcases tended.standing trusted with answers | halting
      · exact .inl answers
      · exact relieved halting trusted
  case cleared => exact tended.cleared

/-- A call which comes to another phase, leaving the row and the daemon as they are. -/
theorem shift (tended : world.Tended halting) (orderly : after.Orderly) {index : Nat}
    {phase next : Phase} (present : world.calls[index]? = some phase)
    (calls : after.calls = world.calls.set index next) (row : Alike world.row after.row)
    (docker : after.docker = world.docker)
    (minds : phase.minds = none ∨ next.minds = phase.minds)
    (trusts : next.trusts = false ∨ world.docker.answers = true)
    (cleared : next.replaces = false ∨ world.docker.container = none) :
    after.Tended halting := by
  constructor
  case orderly => exact orderly
  case known =>
      intro container held
      rw [docker] at held
      rcases tended.known container held with
        ⟨found, at_row, named⟩ | ⟨other, found, at_other, minded⟩
      · obtain ⟨kept, at_row', -, -, named'⟩ := row.find at_row
        exact .inl ⟨kept, at_row', named'.trans named⟩
      · by_cases same : other = index
        · subst same
          cases present.symm.trans at_other
          rcases minds with none | same
          · rw [none] at minded
            cases minded
          · refine .inr ⟨other, next, ?_, same.trans minded⟩
            rw [calls, List.getElem?_set_self]
            exact (List.getElem?_eq_some_iff.mp present).choose
        · refine .inr ⟨other, found, ?_, minded⟩
          rw [calls, List.getElem?_set_ne (Ne.symm same)]
          exact at_other
  case standing =>
      intro trusted
      rw [docker]
      rcases trusted_iff.mp trusted with
        ⟨found, at_row, status⟩ | ⟨other, found, at_other, trusting⟩
      · obtain ⟨kept, at_row', status', -⟩ := row.symm.find at_row
        exact tended.standing (trusted_iff.mpr (.inl ⟨kept, at_row', status'.trans status⟩))
      · rw [calls] at at_other
        obtain ⟨-, rfl⟩ | ⟨-, before⟩ := getElem?_set_cases at_other
        · exact .inl (trusts.resolve_left (by simp [trusting]))
        · exact tended.standing (trusted_iff.mpr (.inr ⟨other, found, before, trusting⟩))
  case cleared =>
      intro other found at_other replaces
      rw [docker]
      rw [calls] at at_other
      obtain ⟨-, rfl⟩ | ⟨-, before⟩ := getElem?_set_cases at_other
      · exact cleared.resolve_left (by simp [replaces])
      · exact tended.cleared other found before replaces

theorem turn (orderly : after.Orderly) {index : Nat} {next : Phase}
    (calls : after.calls = world.calls.set index next)
    (others : ∀ (other : Nat) (found : Phase), world.calls[other]? = some found → other ≠ index →
      found.busy = false)
    (within : index < world.calls.length)
    (known : ∀ container, after.docker.container = some container →
      (∃ row, after.row = some row ∧ row.containerId = some container.id) ∨
        next.minds = some container.id)
    (standing : ((∃ row, after.row = some row ∧ row.status = .running) ∨ next.trusts = true) →
      after.docker.answers = true ∨ halting)
    (cleared : next.replaces = false ∨ after.docker.container = none) :
    after.Tended halting := by
  have idle {other : Nat} {found : Phase} (at_other : after.calls[other]? = some found) :
      found = next ∨ found.busy = false := by
    rw [calls] at at_other
    obtain ⟨-, rfl⟩ | ⟨apart, before⟩ := getElem?_set_cases at_other
    · exact .inl rfl
    · exact .inr (others other found before apart)
  constructor
  case orderly => exact orderly
  case known =>
      intro container held
      refine (known container held).imp_right fun minds => ⟨index, next, ?_, minds⟩
      rw [calls, List.getElem?_set_self within]
  case standing =>
      intro trusted
      apply standing
      rcases trusted_iff.mp trusted with running | ⟨other, found, at_other, trusts⟩
      · exact .inl running
      · rcases idle at_other with rfl | idle
        · exact .inr trusts
        · rw [(Phase.careless_of_idle idle).2.1] at trusts
          cases trusts
  case cleared =>
      intro other found at_other replaces
      rcases idle at_other with rfl | idle
      · exact cleared.resolve_left (by simp [replaces])
      · rw [(Phase.careless_of_idle idle).2.2] at replaces
        cases replaces

/-- A call which comes to an idle phase and leaves no container behind. -/
theorem rest (tended : world.Tended halting) (orderly : after.Orderly) {index : Nat}
    {phase next : Phase} (present : world.calls[index]? = some phase)
    (calls : after.calls = world.calls.set index next) (row : Alike world.row after.row)
    (docker : after.docker = world.docker) (minds : phase.minds = none)
    (idle : next.busy = false) : after.Tended halting := by
  obtain ⟨-, trusts, replaces⟩ := Phase.careless_of_idle idle
  exact tended.shift orderly present calls row docker (.inl minds) (.inl trusts) (.inl replaces)

/-! ### The steps of a call -/

theorem look (tended : world.Tended halting) {staleSeconds : Int} {index : Nat}
    (present : world.calls[index]? = some .begun) (free : world.holder = none)
    (prudent : world.prudent staleSeconds (.move index .look) = true) :
    (world.look staleSeconds index).Tended halting := by
  have orderly := (tended.orderly.look present free prudent).1
  revert orderly
  unfold World.look
  split
  · exact fun orderly => tended.rest orderly present rfl (.refl _) rfl rfl rfl
  next row at_row =>
    split
    next status =>
      split
      next stale =>
        have gone : world.openerOver = true := by
          simpa [World.prudent, at_row, status, stale] using prudent
        split
        · intro orderly
          exact tended.shift orderly present rfl (.refl _) rfl (.inl rfl) (.inl rfl) (.inl rfl)
        next unnamed =>
          intro orderly
          refine tended.shift orderly present rfl (.refl _) rfl (.inl rfl) (.inl rfl) (.inr ?_)
          -- No call is busy, and the row names no container.
          by_contra held
          obtain ⟨container, held⟩ := Option.ne_none_iff_exists'.mp held
          have idle (index : Nat) (phase : Phase) (found : world.calls[index]? = some phase) :=
            tended.orderly.idle_of_openerOver free gone found
          obtain ⟨found, at_row', named⟩ := tended.named idle held
          cases at_row.symm.trans at_row'
          rw [unnamed] at named
          cases named
      · exact fun orderly => tended.rest orderly present rfl (.refl _) rfl rfl rfl
    · exact fun orderly =>
        tended.shift orderly present rfl (.refl _) rfl (.inl rfl) (.inl rfl) (.inl rfl)
    · intro orderly
      apply tended.rest orderly present rfl _ rfl rfl rfl
      rw [at_row]
      exact .touched (some row) world.now

theorem inserted {index apiKey began : Nat}
    (orderly : (world.inserted index apiKey began).Orderly)
    (others : ∀ (other : Nat) (found : Phase), world.calls[other]? = some found →
      other ≠ index → found.busy = false) (within : index < world.calls.length)
    (free : world.docker.container = none) :
    (world.inserted index apiKey began).Tended halting := by
  apply turn orderly rfl others within
  · intro container held
    cases free.symm.trans held
  · rintro (⟨row, at_row, status⟩ | trusts)
    · cases at_row
      cases status
    · cases trusts
  · exact .inl rfl

theorem refused (tended : world.Tended halting) {index : Nat} {phase : Phase}
    (present : world.calls[index]? = some phase) (careful : phase.minds = none)
    (refused : world.refused index phase = some after) : after.Tended halting := by
  have orderly := tended.orderly.refused present refused
  cases phase with
  | launching | waking | replaying =>
      cases refused
      exact tended.rest orderly present rfl (.refl _) rfl rfl rfl
  | discarding => cases careful
  | halting =>
      cases refused
      exact tended.shift orderly present rfl (.refl _) rfl (.inl rfl) (.inl rfl) (.inl rfl)
  | begun | absent | waiting | probing | ready | dropping | started | expired | halted | replaced
  | finished => cases refused

theorem serve (tended : world.Tended halting) {index : Nat} {phase next : Phase} {docker : Docker}
    (present : world.calls[index]? = some phase) (busy : phase.busy = true)
    (orderly : ({ world with docker }.become index next).Orderly)
    (known : ∀ container, docker.container = some container →
      (∃ row, world.row = some row ∧ row.containerId = some container.id) ∨
        next.minds = some container.id)
    (trusts : next.trusts = false)
    (cleared : next.replaces = false ∨ docker.container = none) :
    ({ world with docker }.become index next).Tended halting := by
  have within : index < world.calls.length := (List.getElem?_eq_some_iff.mp present).choose
  apply turn orderly rfl (tended.orderly.others present busy) within known
  · rintro (⟨row, at_row, status⟩ | trusting)
    · obtain ⟨found, at_row', unsettled⟩ := tended.orderly.unsettled present busy
      cases at_row.symm.trans at_row'
      exact absurd status unsettled
    · rw [trusts] at trusting
      cases trusting
  · exact cleared

theorem kept (tended : world.Tended halting) {index : Nat} {phase next : Phase} {docker : Docker}
    {request : Request} (present : world.calls[index]? = some phase) (busy : phase.busy = true)
    (careless : phase.minds = none) (served : world.docker.perform request = some docker)
    (not_run : ∀ apiKey, request ≠ .run apiKey) (not_create : ∀ apiKey, request ≠ .create apiKey)
    (orderly : ({ world with docker }.become index next).Orderly) (trusts : next.trusts = false)
    (replaces : next.replaces = false) :
    ({ world with docker }.become index next).Tended halting := by
  apply tended.serve present busy orderly _ trusts (.inl replaces)
  intro container held
  obtain ⟨former, held', same⟩ := Docker.perform_former served held not_run not_create
  exact .inl (same ▸ tended.row_names present busy careless held')

theorem removed (tended : world.Tended halting) {index containerId : Nat} {phase next : Phase}
    {docker : Docker} (present : world.calls[index]? = some phase) (busy : phase.busy = true)
    (served : world.docker.perform (.remove containerId) = some docker)
    (only : ∀ container, world.docker.container = some container → container.id = containerId)
    (orderly : ({ world with docker }.become index next).Orderly) (trusts : next.trusts = false) :
    ({ world with docker }.become index next).Tended halting := by
  have free := Docker.perform_remove served only
  apply tended.serve present busy orderly _ trusts (.inr free)
  intro container held
  cases free.symm.trans held

theorem performed (tended : world.Tended halting) {index : Nat} {phase : Phase}
    (present : world.calls[index]? = some phase)
    (performed : world.performed index phase = some after) : after.Tended halting := by
  have orderly := tended.orderly.performed present performed
  have fits := tended.orderly.fits _ _ present
  unfold World.performed at performed
  split at performed
  next failed =>
    apply tended.refused present _ performed
    cases phase with
    | discarding containerId =>
        -- The removal of a container does not fail by itself.
        have failed : world.docker.perform (.remove containerId) = none := failed
        simp only [Docker.perform] at failed
        split at failed
        · cases failed
        · split at failed <;> cases failed
    | launching | waking | replaying | halting => rfl
    | begun | absent | waiting | probing | ready | dropping | started | expired | halted | replaced
    | finished => cases performed
  next docker served =>
    cases phase with
    | launching apiKey =>
        cases performed
        have served : world.docker.perform (.run apiKey) = some docker := served
        apply tended.serve present rfl orderly _ rfl (.inl rfl)
        intro container held
        simp only [Docker.perform] at served
        split at served <;> cases served
        cases held
        exact .inr rfl
    | waking attemptStartedAt apiKey containerId =>
        cases containerId with
        | none => cases performed
        | some containerId =>
            cases performed
            have served : world.docker.perform (.start containerId) = some docker := served
            exact tended.kept present rfl rfl served (by simp) (by simp) orderly rfl rfl
    | halting containerId =>
        cases performed
        have served : world.docker.perform (.stop containerId) = some docker := served
        exact tended.kept present rfl rfl served (by simp) (by simp) orderly rfl rfl
    | replaying began containerId =>
        cases performed
        obtain ⟨found, at_row, -, named⟩ := fits
        apply tended.removed present rfl served _ orderly rfl
        intro container held
        obtain ⟨row, at_row', named'⟩ := tended.row_names present rfl rfl held
        cases at_row.symm.trans at_row'
        exact Option.some.inj (named'.symm.trans named)
    | discarding containerId =>
        cases performed
        obtain ⟨found, at_row, -, unnamed, -⟩ := fits
        apply tended.removed present rfl served _ orderly rfl
        intro container held
        rcases tended.held present rfl held with ⟨row, at_row', named⟩ | minds
        · cases at_row.symm.trans at_row'
          rw [unnamed] at named
          cases named
        · cases minds
          rfl
    | begun | absent | waiting | probing | ready | dropping | started | expired | halted | replaced
    | finished => cases performed

/-- A call which minds nothing changes its row and leaves it with its container. -/
theorem marked (tended : world.Tended halting) (orderly : after.Orderly) {index : Nat}
    {phase next : Phase} {change : Row → Row}
    (present : world.calls[index]? = some phase) (busy : phase.busy = true)
    (careless : phase.minds = none) (calls : after.calls = world.calls.set index next)
    (docker : after.docker = world.docker) (changed : after.row = world.row.map change)
    (named : ∀ row, (change row).containerId = row.containerId)
    (unsettled : ∀ row, (change row).status ≠ .running) (trusts : next.trusts = false)
    (replaces : next.replaces = false) : after.Tended halting := by
  have within : index < world.calls.length := (List.getElem?_eq_some_iff.mp present).choose
  apply turn orderly calls (tended.orderly.others present busy) within
  · intro container held
    rw [docker] at held
    obtain ⟨row, at_row, names⟩ := tended.row_names present busy careless held
    exact .inl ⟨change row, by rw [changed, at_row]; rfl, (named row).trans names⟩
  · rintro (⟨row, at_row, status⟩ | trusting)
    · rw [changed] at at_row
      obtain ⟨former, -, rfl⟩ := Option.map_eq_some_iff.mp at_row
      exact absurd status (unsettled former)
    · cases trusts.symm.trans trusting
  · exact .inl replaces

theorem written (tended : world.Tended halting) {index : Nat} {phase : Phase}
    (present : world.calls[index]? = some phase)
    (written : world.written index phase = some after) : after.Tended halting := by
  have orderly := tended.orderly.written present written
  have fits := tended.orderly.fits _ _ present
  have within : index < world.calls.length := (List.getElem?_eq_some_iff.mp present).choose
  cases phase with
  | ready origin apiKey containerId =>
      simp only [World.written] at written
      split at written <;> cases written
      obtain ⟨found, at_row, held⟩ : ∃ found, world.row = some found ∧
          world.docker.Holds containerId apiKey := by
        cases origin <;>
          · obtain ⟨found, at_row, -, -, -, held⟩ := fits
            exact ⟨found, at_row, held⟩
      apply turn orderly rfl (tended.orderly.others present rfl) within
      · intro container at_name
        obtain ⟨other, at_name', rfl, -⟩ := held
        cases at_name.symm.trans at_name'
        exact .inl ⟨_, congrArg (Option.map _) at_row, rfl⟩
      · intro _
        apply tended.standing
        exact trusted_iff.mpr (.inr ⟨index, _, present, rfl⟩)
      · exact .inl rfl
  | dropping =>
      simp only [World.written] at written
      split at written <;> cases written
      obtain ⟨found, at_row, -, unnamed⟩ := fits
      apply turn orderly rfl (tended.orderly.others present rfl) within
      · intro container held
        obtain ⟨row, at_row', named⟩ := tended.row_names present rfl rfl held
        cases at_row.symm.trans at_row'
        rw [unnamed] at named
        cases named
      · rintro (⟨row, at_row', -⟩ | trusts)
        · cases at_row'
        · cases trusts
      · exact .inl rfl
  | started attemptStartedAt apiKey containerId =>
      cases written
      apply tended.marked orderly present rfl rfl rfl rfl rfl (fun _ => rfl) _ rfl rfl
      intro row status
      cases status
  | expired attemptStartedAt containerId =>
      simp only [World.written] at written
      split at written
      · split at written <;> cases written
        · exact tended.shift orderly present rfl (.refl _) rfl (.inl rfl) (.inl rfl) (.inl rfl)
        · exact tended.rest orderly present rfl (.refl _) rfl rfl rfl
      · cases written
  | halted =>
      cases written
      apply tended.marked orderly present rfl rfl rfl rfl rfl (fun _ => rfl) _ rfl rfl
      intro row status
      cases status
  | begun | absent | waiting | launching | probing | discarding | waking | halting | replaying
  | replaced | finished => cases written

theorem advance (tended : world.Tended halting) {staleSeconds : Int} {index : Nat} {phase : Phase}
    {move : Move} (present : world.calls[index]? = some phase)
    (prudent : world.prudent staleSeconds (.move index move) = true)
    (careful : world.careful (.move index move) = true)
    (advanced : world.advance staleSeconds index phase move = some after) :
    after.Tended halting := by
  have orderly := (tended.orderly.advance present prudent advanced).1
  have within : index < world.calls.length := (List.getElem?_eq_some_iff.mp present).choose
  cases move with
  | look =>
      simp only [World.advance] at advanced
      split at advanced
      · split at advanced
        next free =>
          cases advanced
          exact tended.look present free prudent
        · cases advanced
      · cases advanced
  | miss =>
      simp only [World.advance] at advanced
      split at advanced
      next replacing =>
        cases phase with
        | begun =>
            cases advanced
            exact tended.rest orderly present rfl (.refl _) rfl rfl rfl
        | ready | dropping | expired =>
            cases tended.orderly.replays_of_replacing replacing present rfl
        | absent | waiting | launching | probing | discarding | waking | started | halting | halted
        | replaying | replaced | finished => cases advanced
      · cases advanced
  | insert apiKey =>
      simp only [World.advance] at advanced
      split at advanced
      · split at advanced
        next absent =>
          cases advanced
          have idle (other : Nat) (found : Phase) (at_other : world.calls[other]? = some found) :=
            tended.orderly.idle_of_absent absent at_other
          apply inserted orderly (fun other found at_other _ => idle other found at_other)
            within
          by_contra held
          obtain ⟨container, held⟩ := Option.ne_none_iff_exists'.mp held
          obtain ⟨row, at_row, -⟩ := tended.named idle held
          cases absent.symm.trans at_row
        · cases advanced
          exact tended.rest orderly present rfl (.refl _) rfl rfl rfl
      · cases advanced
        exact inserted orderly (tended.orderly.others present rfl) within
          (tended.cleared _ _ present rfl)
      · cases advanced
  | perform => exact tended.performed present advanced
  | refuse =>
      apply tended.refused present _ advanced
      simpa [World.careful, present] using careful
  | create => cases careful
  | answer =>
      simp only [World.advance] at advanced
      split at advanced
      next origin apiKey containerId =>
        split at advanced <;> cases advanced
        next answers =>
          apply tended.shift orderly present rfl (.refl _) rfl _ (.inr answers) (.inl rfl)
          cases origin
          · exact .inr rfl
          · exact .inl rfl
      · cases advanced
  | expire =>
      simp only [World.advance] at advanced
      split at advanced <;> cases advanced
      · exact tended.shift orderly present rfl (.refl _) rfl (.inr rfl) (.inl rfl) (.inl rfl)
      · exact tended.shift orderly present rfl (.refl _) rfl (.inl rfl) (.inl rfl) (.inl rfl)
      · exact tended.rest orderly present rfl (.refl _) rfl rfl rfl
  | write => exact tended.written present advanced
  | notice =>
      simp only [World.advance] at advanced
      split at advanced
      · cases advanced
        revert orderly
        simp only [World.noticed]
        split
        · exact fun orderly => tended.rest orderly present rfl (.refl _) rfl rfl rfl
        · split
          · exact fun orderly => tended.rest orderly present rfl (.refl _) rfl rfl rfl
          · exact fun _ => tended
      · cases advanced
  | die =>
      simp only [World.advance] at advanced
      split at advanced <;> cases advanced
      have minds : phase.minds = none := by
        simpa [World.careful, present] using careful
      revert orderly
      simp only [World.died, World.releaseFor]
      split
      · exact fun orderly => tended.rest orderly present rfl (.refl _) rfl minds rfl
      · exact fun orderly => tended.rest orderly present rfl (.refl _) rfl minds rfl

/-! ### What happens beside the calls -/

/-- A step which adds no more than idle calls, and changes no more than the times of the row. -/
theorem aside (tended : world.Tended halting) (orderly : after.Orderly)
    (kept : ∀ (index : Nat) (phase : Phase), world.calls[index]? = some phase →
      after.calls[index]? = some phase)
    (calls : ∀ (index : Nat) (phase : Phase), after.calls[index]? = some phase →
      world.calls[index]? = some phase ∨ phase.busy = false)
    (row : Alike world.row after.row) (docker : after.docker = world.docker) :
    after.Tended halting := by
  constructor
  case orderly => exact orderly
  case known =>
      intro container held
      rw [docker] at held
      rcases tended.known container held with
        ⟨found, at_row, named⟩ | ⟨index, phase, present, minds⟩
      · obtain ⟨kept, at_row', -, -, named'⟩ := row.find at_row
        exact .inl ⟨kept, at_row', named'.trans named⟩
      · exact .inr ⟨index, phase, kept index phase present, minds⟩
  case standing =>
      intro trusted
      rw [docker]
      apply tended.standing
      apply trusted_iff.mpr
      rcases trusted_iff.mp trusted with ⟨found, at_row, status⟩ | ⟨index, phase, present, trusts⟩
      · obtain ⟨former, at_row', status', -⟩ := row.symm.find at_row
        exact .inl ⟨former, at_row', status'.trans status⟩
      · rcases calls index phase present with before | idle
        · exact .inr ⟨index, phase, before, trusts⟩
        · rw [(Phase.careless_of_idle idle).2.1] at trusts
          cases trusts
  case cleared =>
      intro index phase present replaces
      rw [docker]
      rcases calls index phase present with before | idle
      · exact tended.cleared index phase before replaces
      · rw [(Phase.careless_of_idle idle).2.2] at replaces
        cases replaces

theorem untrusted_of_forsaken (orderly : world.Orderly) {container : Container}
    (held : world.docker.container = some container) (forsaken : world.Forsaken container.id) :
    world.trusted = false := by
  by_contra trusted
  rcases trusted_iff.mp (by simpa using trusted) with
    ⟨row, at_row, status⟩ | ⟨index, phase, present, trusts⟩
  · obtain ⟨containerId, named, other, held', rfl, -⟩ :=
      orderly.backed row at_row (by simp [status])
    cases held.symm.trans held'
    rw [forsaken.unsettled row at_row named] at status
    cases status
  · have fits := orderly.fits _ _ present
    obtain ⟨unowned, unfresh⟩ := forsaken.forgone index phase present
    cases phase with
    | ready origin apiKey containerId =>
        cases origin with
        | launched =>
            obtain ⟨found, -, -, -, -, other, held', rfl, -⟩ := fits
            cases held.symm.trans held'
            exact unfresh rfl
        | woken attemptStartedAt =>
            obtain ⟨found, at_row, -, named, -, other, held', rfl, -⟩ := fits
            cases held.symm.trans held'
            exact unowned rfl found at_row named
    | begun | absent | waiting | launching | probing | discarding | dropping | waking | started
    | expired | halting | halted | replaying | replaced | finished => cases trusts

theorem afterwards (tended : world.Tended halting) {request : Request} {docker : Docker}
    {late : List Request} (asked : request ∈ world.late) (fewer : late ⊆ world.late)
    (not_run : ∀ apiKey, request ≠ .run apiKey) (not_create : ∀ apiKey, request ≠ .create apiKey)
    (performed : world.docker.perform request = some docker) :
    World.Tended halting { world with docker, late } := by
  constructor
  case orderly => exact (tended.orderly.afterwards asked fewer performed).1
  case known =>
      intro container held
      obtain ⟨former, held', same⟩ := Docker.perform_former performed held not_run not_create
      have known := tended.known former held'
      rw [same] at known
      exact known
  case standing =>
      intro trusted
      refine (tended.standing trusted).imp_left fun answers => ?_
      obtain ⟨container, held, up⟩ := (Option.any_eq_true _ _).mp answers
      have spared : ¬ request.hits container.id := fun hits => by
        have forsaken := tended.orderly.late request asked container.id hits
        have untrusted := untrusted_of_forsaken tended.orderly held forsaken
        exact absurd (untrusted.symm.trans trusted) Bool.false_ne_true
      obtain ⟨left, held', -, -, kept⟩ := Docker.perform_kept held spared performed
      exact (Option.any_eq_true _ _).mpr ⟨left, held', kept up⟩
  case cleared =>
      intro index phase present replaces
      by_contra held
      obtain ⟨container, held⟩ := Option.ne_none_iff_exists'.mp held
      obtain ⟨former, held', -⟩ := Docker.perform_former performed held not_run not_create
      cases (tended.cleared index phase present replaces).symm.trans held'

theorem step (tended : world.Tended halting) {staleSeconds : Int} {event : Event}
    (prudent : world.prudent staleSeconds event = true) (careful : world.careful event = true)
    (stepped : world.step staleSeconds event = some after) : after.Tended halting := by
  have orderly := (tended.orderly.step prudent stepped).1
  cases event with
  | pass microseconds =>
      cases stepped
      exact tended.aside orderly (fun _ _ present => present) (fun _ _ present => .inl present)
        (.refl _) rfl
  | call =>
      cases stepped
      apply tended.aside orderly _ _ (.refl _) rfl
      · intro index phase present
        have within : index < world.calls.length :=
          (List.getElem?_eq_some_iff.mp present).choose
        exact (List.getElem?_append_left within).trans present
      · intro index phase present
        obtain before | ⟨-, rfl⟩ := getElem?_snoc present
        · exact .inl before
        · exact .inr rfl
  | touch =>
      simp only [World.step] at stepped
      split at stepped <;> cases stepped
      exact tended.aside orderly (fun _ _ present => present) (fun _ _ present => .inl present)
        (.touched world.row world.now) rfl
  | move index move =>
      obtain ⟨phase, present, advanced⟩ := Option.bind_eq_some_iff.mp stepped
      exact tended.advance present prudent careful advanced
  | late index =>
      obtain ⟨request, at_index, rfl⟩ := Option.map_eq_some_iff.mp stepped
      cases performed : world.docker.perform request with
      | none =>
          rw [performed] at orderly
          exact tended.aside orderly (fun _ _ present => present)
            (fun _ _ present => .inl present) (.refl _) rfl
      | some docker =>
          -- A name which is held is not given again.
          refine tended.afterwards (List.mem_of_getElem? at_index) List.eraseIdx_subset ?_ ?_
            performed
          all_goals
            rintro apiKey rfl
            have held : world.docker.container.isSome = true := by
              simpa [World.careful, at_index] using careful
            obtain ⟨container, held⟩ := Option.isSome_iff_exists.mp held
            simp [Docker.perform, held] at performed
  | curtail index =>
      obtain ⟨request, -, stepped⟩ := Option.bind_eq_some_iff.mp stepped
      split at stepped <;> cases stepped
      exact tended.aside orderly (fun _ _ present => present) (fun _ _ present => .inl present)
        (.refl _) rfl

end Tended

/-! ### What the reaper and others do -/

/-- The container of an orderly world changes, and nothing else does. -/
theorem Orderly.redock {world : World} (orderly : world.Orderly) (docker : Docker)
    (minted : docker.minted = world.docker.minted)
    (fits : ∀ (index : Nat) (phase : Phase), world.calls[index]? = some phase →
      phase.Fits world.row docker)
    (backed : ∀ row, world.row = some row → row.status ≠ .provisioning → docker.Backs row)
    (known : ∀ container, docker.container = some container → container.id < docker.minted) :
    World.Orderly { world with docker } := by
  constructor
  case alone => exact orderly.alone
  case locked => exact orderly.locked
  case opened => exact orderly.opened
  case fits => exact fits
  case backed => exact backed
  case named =>
      intro row containerId at_row named
      exact minted ▸ orderly.named row containerId at_row named
  case known => exact known
  case late =>
      intro request member containerId hits
      have forsaken := orderly.late request member containerId hits
      exact ⟨minted ▸ forsaken.given, forsaken.unsettled, forsaken.forgone⟩

end World

/-- What fits one daemon fits another which holds the same containers. -/
theorem Phase.Fits.redock {row : Option Row} {docker after : Docker} {phase : Phase}
    (fits : phase.Fits row docker) (minted : after.minted = docker.minted)
    (holds : ∀ containerId apiKey, docker.Holds containerId apiKey →
      after.Holds containerId apiKey) : phase.Fits row after := by
  cases phase with
  | probing origin | ready origin =>
      cases origin <;>
        · obtain ⟨found, present, status, named, key, held⟩ := fits
          exact ⟨found, present, status, named, key, holds _ _ held⟩
  | discarding =>
      obtain ⟨found, present, status, named, given⟩ := fits
      exact ⟨found, present, status, named, minted.symm ▸ given⟩
  | expired | halting =>
      obtain ⟨found, present, status, named, held⟩ := fits
      exact ⟨found, present, status, named, holds _ _ held⟩
  | halted =>
      obtain ⟨found, present, status, containerId, named, held⟩ := fits
      exact ⟨found, present, status, containerId, named, holds _ _ held⟩
  | launching | dropping | waking | started | replaying | replaced => exact fits
  | begun | absent | waiting | finished => trivial

namespace Docker

variable {docker : Docker} {containerId : Nat}

theorem reap_minted : (docker.reap containerId).minted = docker.minted := by
  unfold reap
  split
  · rfl
  · split <;> rfl

theorem reap_former {container : Container}
    (held : (docker.reap containerId).container = some container) :
    ∃ former, docker.container = some former ∧ former.id = container.id := by
  cases present : docker.container with
  | none => simp [reap, present] at held
  | some former =>
      refine ⟨former, rfl, ?_⟩
      simp only [reap, present] at held
      split at held
      · cases held
        rfl
      · cases present.symm.trans held
        rfl

theorem Holds.reap {other apiKey : Nat} (held : docker.Holds other apiKey) :
    (docker.reap containerId).Holds other apiKey := by
  obtain ⟨container, present, rfl, rfl⟩ := held
  simp only [Docker.reap, present]
  split
  · exact ⟨_, rfl, rfl, rfl⟩
  · exact ⟨container, present, rfl, rfl⟩

end Docker

namespace World.Tended

variable {world : World} {halting : Prop}

theorem reap {others : Prop} (tended : world.Tended halting) {containerId : Nat}
    (standing : world.trusted = true →
      (world.docker.reap containerId).answers = true ∨ others) :
    World.Tended others { world with docker := world.docker.reap containerId } := by
  constructor
  case orderly =>
      apply tended.orderly.redock _ Docker.reap_minted
      · intro index phase present
        exact (tended.orderly.fits _ _ present).redock Docker.reap_minted
          fun _ _ held => held.reap
      · intro row at_row status
        obtain ⟨other, named, held⟩ := tended.orderly.backed row at_row status
        exact ⟨other, named, held.reap⟩
      · intro container held
        obtain ⟨former, held', same⟩ := Docker.reap_former held
        rw [Docker.reap_minted, ← same]
        exact tended.orderly.known former held'
  case known =>
      intro container held
      obtain ⟨former, held', same⟩ := Docker.reap_former held
      have known := tended.known former held'
      rw [same] at known
      exact known
  case standing => exact standing
  case cleared =>
      intro index phase present replaces
      by_contra held
      obtain ⟨container, held⟩ := Option.ne_none_iff_exists'.mp held
      obtain ⟨former, held', -⟩ := Docker.reap_former held
      cases (tended.cleared index phase present replaces).symm.trans held'

theorem vanish (tended : world.Tended halting) (dispensable : world.dispensable = true) :
    world.vanish.Tended halting := by
  simp only [World.dispensable, Option.all_eq_true, Bool.and_eq_true, beq_iff_eq, Bool.not_eq_true',
    List.any_eq_false, Bool.not_eq_true] at dispensable
  obtain ⟨unsettled, unexpected⟩ := dispensable
  constructor
  case orderly =>
      apply tended.orderly.redock { world.docker with container := none } rfl
      · intro index phase present
        have fits := tended.orderly.fits _ _ present
        have unexpected := unexpected phase (List.mem_of_getElem? present)
        cases phase with
        | probing | ready | expired | halting | halted => cases unexpected
        | launching | discarding | dropping | waking | started | replaying | replaced => exact fits
        | begun | absent | waiting | finished => trivial
      · exact fun row at_row status => absurd (unsettled row at_row) status
      · intro container held
        cases held
  case known =>
      intro container held
      cases held
  case standing =>
      intro trusted
      rcases trusted_iff.mp trusted with ⟨row, at_row, status⟩ | ⟨index, phase, present, trusts⟩
      · rw [unsettled row at_row] at status
        cases status
      · have unexpected := unexpected phase (List.mem_of_getElem? present)
        cases phase with
        | ready => cases unexpected
        | begun | absent | waiting | launching | probing | discarding | dropping | waking | started
        | expired | halting | halted | replaying | replaced | finished => cases trusts
  case cleared => exact fun _ _ _ _ => rfl

end World.Tended

/-! ### The lock of a tick -/

namespace World

/-- A tick holds the lock of the row, which no call has opened. -/
def HeldBy (tick : Nat) (world : World) : Prop :=
  world.holder = some (.tick tick) ∧ ∃ row, world.row = some row ∧ row.status ≠ .provisioning

variable {world after : World} {tick : Nat}

theorem HeldBy.idle (held : world.HeldBy tick) (orderly : world.Orderly) {index : Nat}
    {phase : Phase} (present : world.calls[index]? = some phase) : phase.busy = false := by
  obtain ⟨holder, row, at_row, settled⟩ := held
  apply orderly.idle_of_unlocked present (by simp [holder])
  exact orderly.unowned_of_settled at_row settled present

/-- Nothing that happens around the row takes the lock from a tick, or changes the row below
it. -/
theorem HeldBy.step (held : world.HeldBy tick) (orderly : world.Orderly) {staleSeconds : Int}
    {event : Event} (stepped : world.step staleSeconds event = some after) :
    after.HeldBy tick := by
  obtain ⟨holder, row, at_row, settled⟩ := id held
  cases event with
  | pass | call =>
      cases stepped
      exact held
  | touch =>
      simp only [World.step, holder, reduceCtorEq, if_false] at stepped
  | late index =>
      obtain ⟨request, -, rfl⟩ := Option.map_eq_some_iff.mp stepped
      exact held
  | curtail index =>
      obtain ⟨request, -, stepped⟩ := Option.bind_eq_some_iff.mp stepped
      split at stepped <;> cases stepped
      exact held
  | move index move =>
      obtain ⟨phase, present, advanced⟩ := Option.bind_eq_some_iff.mp stepped
      have idle := held.idle orderly present
      cases phase with
      | begun =>
          cases move with
          | look => simp [advance, holder] at advanced
          | miss => simp [advance, replacing, holder] at advanced
          | die =>
              cases advanced
              simpa [HeldBy, died, releaseFor, become, holder] using held
          | perform | refuse | create | insert | answer | expire | write | notice => cases advanced
      | absent began =>
          cases move with
          | insert apiKey =>
              simp only [advance, at_row] at advanced
              cases advanced
              exact held
          | miss => simp [advance, replacing, holder] at advanced
          | die =>
              cases advanced
              simpa [HeldBy, died, releaseFor, become, holder] using held
          | look | perform | refuse | create | answer | expire | write | notice => cases advanced
      | waiting =>
          cases move with
          | expire =>
              cases advanced
              exact held
          | notice =>
              cases advanced
              simp only [noticed, at_row]
              split <;> exact held
          | miss => simp [advance, replacing, holder] at advanced
          | die =>
              cases advanced
              simpa [HeldBy, died, releaseFor, become, holder] using held
          | look | perform | refuse | create | insert | answer | write => cases advanced
      | finished result =>
          cases move with
          | miss => simp [advance, replacing, holder] at advanced
          | die | look | perform | refuse | create | insert | answer | expire | write | notice =>
              cases advanced
      | probing | ready | launching | discarding | dropping | expired | halting | halted | waking
      | started | replaying | replaced => cases idle

theorem Tended.relock {halting : Prop} (tended : world.Tended halting) (holder : Option Holder)
    (free : ∀ index, world.holder ≠ some (.call index)) :
    World.Tended halting { world with holder } := by
  have orderly : World.Orderly { world with holder } := by
    refine tended.orderly.aside (fun _ _ present => .inl present) (.refl _) rfl rfl
      (fun index phase present locks held => ?_) fun _ member => .inl member
    exact absurd held (free index)
  exact tended.aside orderly (fun _ _ present => present) (fun _ _ present => .inl present)
    (.refl _) rfl

theorem Tended.yieldTick {halting : Prop} (tended : world.Tended halting) :
    (world.yieldTick tick).Tended halting := by
  unfold World.yieldTick
  split
  next holds => exact tended.relock none (by simp [holds])
  · exact tended

theorem Tended.hibernate {halting others : Prop} (tended : world.Tended halting)
    (held : world.HeldBy tick) : world.hibernate.Tended others := by
  obtain ⟨-, row, at_row, settled⟩ := id held
  have idle (index : Nat) (phase : Phase) (present : world.calls[index]? = some phase) :=
    held.idle tended.orderly present
  have at_after : world.row.map Row.markStopped = some row.markStopped := by
    rw [at_row]
    rfl
  constructor
  case orderly =>
      constructor
      case alone =>
          intro index other phase found present _ busy
          exact absurd ((idle index phase present).symm.trans busy) Bool.false_ne_true
      case locked =>
          intro index phase present locks
          have idle := idle index phase present
          simp [Phase.busy, locks] at idle
      case opened =>
          intro index phase present owns
          have idle := idle index phase present
          simp [Phase.busy, owns] at idle
      case fits =>
          intro index phase present
          exact Phase.fits_of_idle (idle index phase present) _ _
      case backed =>
          intro found at_found _
          cases at_after.symm.trans at_found
          exact tended.orderly.backed row at_row settled
      case named =>
          intro found containerId at_found named
          cases at_after.symm.trans at_found
          exact tended.orderly.named row containerId at_row named
      case known => exact tended.orderly.known
      case late =>
          intro request member containerId hits
          have forsaken := tended.orderly.late request member containerId hits
          refine ⟨forsaken.given, fun found at_found named => ?_, fun index phase present => ?_⟩
          · cases at_after.symm.trans at_found
            exact absurd (forsaken.unsettled row at_row named) settled
          · exact Phase.forgoes_of_idle (idle index phase present) _ _
  case known =>
      intro container at_name
      obtain ⟨found, at_found, named⟩ := tended.named idle at_name
      cases at_row.symm.trans at_found
      exact .inl ⟨_, at_after, named⟩
  case standing =>
      intro trusted
      rcases trusted_iff.mp trusted with ⟨found, at_found, status⟩ | ⟨index, phase, present, trusts⟩
      · cases at_after.symm.trans at_found
        cases status
      · rw [(Phase.careless_of_idle (idle index phase present)).2.1] at trusts
        cases trusts
  case cleared =>
      intro index phase present replaces
      rw [(Phase.careless_of_idle (idle index phase present)).2.2] at replaces
      cases replaces

end World

end Hermes.Runtime
