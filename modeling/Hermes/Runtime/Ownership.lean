import Hermes.Runtime.Instance

/-!
# One owner for each running instance

A call which opens the row, by inserting it or by waking the instance, is its owner until the row
says `running` or is given up.  No statement asks whether the row is still the one the call
opened, apart from one; what keeps a second owner away is only that the row is not taken for the
residue of a crash while its owner lives.
-/

namespace Hermes.Runtime

/-! ### What the registry promises -/

/-- A container of that identifier, started with that key, holds the name. -/
def Docker.Holds (docker : Docker) (containerId apiKey : Nat) : Prop :=
  ∃ container, docker.container = some container ∧ container.id = containerId ∧
    container.apiKey = apiKey

/-- The row names a container which exists and was started with the key of the row. -/
def Docker.Backs (docker : Docker) (row : Row) : Prop :=
  ∃ containerId, row.containerId = some containerId ∧ docker.Holds containerId row.apiKey

/-- Every committed `running` row is backed by its container. -/
def World.Honest (world : World) : Prop :=
  ∀ row, world.row = some row → row.status = .running → world.docker.Backs row

/-- A step leaves a running instance alone: the row keeps its status, its key and its container,
and the container is neither removed nor stopped. -/
def World.Spared (before after : World) : Prop :=
  ∀ row, before.row = some row → row.status = .running →
    (∃ kept, after.row = some kept ∧ kept.status = .running ∧ kept.apiKey = row.apiKey ∧
      kept.containerId = row.containerId) ∧
    ∀ container, before.docker.container = some container →
      row.containerId = some container.id →
      ∃ left, after.docker.container = some left ∧ left.id = container.id ∧
        left.apiKey = container.apiKey ∧ (container.up = true → left.up = true)

/-- The call which opened the row has returned or raised. -/
def World.openerOver (world : World) : Bool :=
  match world.opener with
  | none => true
  | some opener => (world.calls[opener]?).all Phase.isOver

/-- The row is not replayed as stale while the call which opened it is under way. -/
def World.prudent (staleSeconds : Int) (world : World) : Event → Bool
  | .move _ .look =>
      world.openerOver || world.row.all fun row =>
        !(row.status == .provisioning && row.isStaleProvisioning staleSeconds world.now)
  | _ => true

/-- No call is under way, and a row which is not the residue of a crash is backed. -/
structure World.Quiet (world : World) : Prop where
  calls : world.calls = []
  late : world.late = []
  holder : world.holder = none
  backed : ∀ row, world.row = some row → row.status ≠ .provisioning → world.docker.Backs row
  named : ∀ row containerId, world.row = some row → row.containerId = some containerId →
    containerId < world.docker.minted
  known : ∀ container, world.docker.container = some container →
    container.id < world.docker.minted

/-! ### Requests and the container they are about -/

/-- The request stops or removes the container. -/
def Request.hits (request : Request) (containerId : Nat) : Prop :=
  request = .stop containerId ∨ request = .remove containerId

namespace Docker

variable {docker after : Docker} {request : Request}

theorem perform_kept {container : Container} (held : docker.container = some container)
    (other : ¬ request.hits container.id) (performed : docker.perform request = some after) :
    ∃ left, after.container = some left ∧ left.id = container.id ∧
      left.apiKey = container.apiKey ∧ (container.up = true → left.up = true) := by
  cases request with
  | run apiKey | create apiKey => simp [perform, held] at performed
  | start containerId =>
      simp only [perform, held] at performed
      split at performed
      · cases performed
        exact ⟨_, rfl, rfl, rfl, fun _ => rfl⟩
      · cases performed
  | stop containerId =>
      have apart : ¬ container.id = containerId := fun same => other (.inl (same ▸ rfl))
      simp only [perform, held, if_neg apart] at performed
      cases performed
      exact ⟨container, held, rfl, rfl, id⟩
  | remove containerId =>
      have apart : ¬ container.id = containerId := fun same => other (.inr (same ▸ rfl))
      simp only [perform, held, if_neg apart] at performed
      cases performed
      exact ⟨container, held, rfl, rfl, id⟩

theorem Holds.perform {containerId apiKey : Nat} (held : docker.Holds containerId apiKey)
    (other : request ≠ .remove containerId) (performed : docker.perform request = some after) :
    after.Holds containerId apiKey := by
  obtain ⟨container, found, rfl, rfl⟩ := held
  by_cases halts : request = .stop container.id
  · subst halts
    simp only [Docker.perform, found, if_true] at performed
    cases performed
    exact ⟨_, rfl, rfl, rfl⟩
  · obtain ⟨left, held, same, key, -⟩ :=
      perform_kept found (fun hit => hit.elim halts other) performed
    exact ⟨left, held, same, key⟩

/-- Container identifiers are never given twice, and the container which holds the name has one
of those given. -/
theorem perform_known (performed : docker.perform request = some after)
    (known : ∀ container, docker.container = some container → container.id < docker.minted) :
    docker.minted ≤ after.minted ∧
      ∀ container, after.container = some container → container.id < after.minted := by
  cases found : docker.container with
  | none =>
      cases request with
      | run apiKey | create apiKey =>
          simp only [perform, found, Option.some.injEq] at performed
          subst performed
          refine ⟨Nat.le_succ _, fun container held => ?_⟩
          cases held
          exact Nat.lt_succ_self _
      | start containerId => simp [perform, found] at performed
      | stop containerId | remove containerId =>
          simp only [perform, found, Option.some.injEq] at performed
          subst performed
          exact ⟨Nat.le_refl _, known⟩
  | some container =>
      have below := known container found
      cases request with
      | run apiKey | create apiKey => simp [perform, found] at performed
      | start containerId =>
          simp only [perform, found] at performed
          split at performed <;> cases performed
          refine ⟨Nat.le_refl _, fun left held => ?_⟩
          cases held
          exact below
      | stop containerId =>
          simp only [perform, found] at performed
          split at performed <;> cases performed
          · refine ⟨Nat.le_refl _, fun left held => ?_⟩
            cases held
            exact below
          · exact ⟨Nat.le_refl _, known⟩
      | remove containerId =>
          simp only [perform, found] at performed
          split at performed <;> cases performed
          · exact ⟨Nat.le_refl _, fun left held => nomatch held⟩
          · exact ⟨Nat.le_refl _, known⟩

theorem perform_run {apiKey : Nat} (performed : docker.perform (.run apiKey) = some after) :
    after.Holds docker.minted apiKey := by
  simp only [perform] at performed
  split at performed
  · cases performed
    exact ⟨_, rfl, rfl, rfl⟩
  · cases performed

end Docker

/-! ### Calls which own the row or its lock -/

namespace Phase

/-- The call has opened the row and not yet settled it. -/
def owns : Phase → Bool
  | launching _ | probing .. | ready .. | discarding _ | dropping | expired .. | halting _
  | halted => true
  | _ => false

/-- The call is in a transaction which holds the lock of the row. -/
def locks : Phase → Bool
  | waking .. | started .. | halting _ | halted | replaying .. | replaced _ => true
  | _ => false

def busy (phase : Phase) : Bool :=
  phase.owns || phase.locks

/-- The container a call has just started and the row does not name yet. -/
def fresh : Phase → Option Nat
  | probing .launched _ containerId | ready .launched _ containerId => some containerId
  | _ => none

/-- What the row and the daemon are while a call is in a phase. -/
def Fits (row : Option Row) (docker : Docker) : Phase → Prop
  | launching apiKey =>
      ∃ found, row = some found ∧ found.status = .provisioning ∧ found.containerId = none ∧
        found.apiKey = apiKey
  | probing .launched apiKey containerId | ready .launched apiKey containerId =>
      ∃ found, row = some found ∧ found.status = .provisioning ∧ found.containerId = none ∧
        found.apiKey = apiKey ∧ docker.Holds containerId apiKey
  | probing (.woken _) apiKey containerId | ready (.woken _) apiKey containerId =>
      ∃ found, row = some found ∧ found.status = .provisioning ∧
        found.containerId = some containerId ∧ found.apiKey = apiKey ∧
        docker.Holds containerId apiKey
  | discarding containerId =>
      ∃ found, row = some found ∧ found.status = .provisioning ∧ found.containerId = none ∧
        containerId < docker.minted
  | dropping => ∃ found, row = some found ∧ found.status = .provisioning ∧ found.containerId = none
  | expired _ containerId | halting containerId =>
      ∃ found, row = some found ∧ found.status = .provisioning ∧
        found.containerId = some containerId ∧ docker.Holds containerId found.apiKey
  | halted => ∃ found, row = some found ∧ found.status = .provisioning ∧ docker.Backs found
  | waking _ apiKey containerId =>
      ∃ found, row = some found ∧ found.status = .stopped ∧ found.containerId = containerId ∧
        found.apiKey = apiKey
  | started _ apiKey containerId =>
      ∃ found, row = some found ∧ found.status = .stopped ∧
        found.containerId = some containerId ∧ found.apiKey = apiKey
  | replaying _ containerId =>
      ∃ found, row = some found ∧ found.status = .provisioning ∧
        found.containerId = some containerId
  | replaced _ => ∃ found, row = some found ∧ found.status = .provisioning
  | _ => True

theorem Fits.unsettled {row : Option Row} {docker : Docker} {phase : Phase}
    (fits : phase.Fits row docker) (busy : phase.busy = true) :
    ∃ found, row = some found ∧ found.status ≠ .running := by
  cases phase with
  | probing origin | ready origin =>
      cases origin <;>
        · obtain ⟨found, present, status, -⟩ := fits
          exact ⟨found, present, by simp [status]⟩
  | launching | discarding | dropping | expired | halting | halted | waking | started | replaying =>
      obtain ⟨found, present, status, -⟩ := fits
      exact ⟨found, present, by simp [status]⟩
  | replaced =>
      obtain ⟨found, present, status⟩ := fits
      exact ⟨found, present, by simp [status]⟩
  | begun | absent | waiting | finished => cases busy

theorem Fits.provisioning {row : Option Row} {docker : Docker} {phase : Phase}
    (fits : phase.Fits row docker) (owns : phase.owns = true) :
    ∃ found, row = some found ∧ found.status = .provisioning := by
  cases phase with
  | probing origin | ready origin =>
      cases origin <;>
        · obtain ⟨found, present, status, -⟩ := fits
          exact ⟨found, present, status⟩
  | launching | discarding | dropping | expired | halting | halted =>
      obtain ⟨found, present, status, -⟩ := fits
      exact ⟨found, present, status⟩
  | begun | absent | waiting | finished | waking | started | replaying | replaced => cases owns

theorem fits_of_idle {phase : Phase} (idle : phase.busy = false) (row : Option Row)
    (docker : Docker) : phase.Fits row docker := by
  cases phase with
  | begun | absent | waiting | finished => trivial
  | probing | ready | launching | discarding | dropping | expired | halting | halted | waking
  | started | replaying | replaced => cases idle

end Phase

/-! ### The order of the calls -/

/-- Two rows agree but for the times they carry. -/
def Alike (row other : Option Row) : Prop :=
  (row.map fun found => (found.status, found.apiKey, found.containerId)) =
    other.map fun found => (found.status, found.apiKey, found.containerId)

def Phase.Forgoes (row : Option Row) (containerId : Nat) (phase : Phase) : Prop :=
  (phase.owns = true → ∀ found, row = some found → found.containerId ≠ some containerId) ∧
    phase.fresh ≠ some containerId

/-- Neither a settled row nor a call counts on a container, so that what dead callers asked about
it may still happen. -/
structure World.Forsaken (world : World) (containerId : Nat) : Prop where
  given : containerId < world.docker.minted
  unsettled : ∀ row, world.row = some row → row.containerId = some containerId →
    row.status = .provisioning
  forgone : ∀ (index : Nat) (phase : Phase), world.calls[index]? = some phase →
    phase.Forgoes world.row containerId

/-- One call at most is busy, what it finds fits its phase, a settled row is backed, and dead
callers have asked about nothing that counts. -/
structure World.Orderly (world : World) : Prop where
  alone : ∀ (index other : Nat) (phase found : Phase), world.calls[index]? = some phase →
    world.calls[other]? = some found → phase.busy = true → found.busy = true → index = other
  locked : ∀ (index : Nat) (phase : Phase), world.calls[index]? = some phase → phase.locks = true →
    world.holder = some (.call index)
  opened : ∀ (index : Nat) (phase : Phase), world.calls[index]? = some phase → phase.owns = true →
    world.opener = some index
  fits : ∀ (index : Nat) (phase : Phase), world.calls[index]? = some phase →
    phase.Fits world.row world.docker
  backed : ∀ row, world.row = some row → row.status ≠ .provisioning → world.docker.Backs row
  named : ∀ row containerId, world.row = some row → row.containerId = some containerId →
    containerId < world.docker.minted
  known : ∀ container, world.docker.container = some container →
    container.id < world.docker.minted
  late : ∀ request ∈ world.late, ∀ containerId, request.hits containerId →
    world.Forsaken containerId

namespace Alike

variable {row other : Option Row} {found : Row}

theorem refl (row : Option Row) : Alike row row := rfl

theorem symm (alike : Alike row other) : Alike other row := Eq.symm alike

theorem find (alike : Alike row other) (present : row = some found) :
    ∃ match_, other = some match_ ∧ match_.status = found.status ∧
      match_.apiKey = found.apiKey ∧ match_.containerId = found.containerId := by
  subst present
  cases other with
  | none => simp [Alike] at alike
  | some match_ =>
      simp only [Alike, Option.map_some, Option.some.injEq, Prod.mk.injEq] at alike
      exact ⟨match_, rfl, alike.1.symm, alike.2.1.symm, alike.2.2.symm⟩

theorem touched (row : Option Row) (now : Nat) :
    Alike row (row.map fun found : Row => found.touchActive now) := by
  cases row <;> rfl

end Alike

theorem Phase.Fits.alike {row other : Option Row} {docker : Docker} {phase : Phase}
    (fits : phase.Fits row docker) (alike : Alike row other) : phase.Fits other docker := by
  cases phase with
  | probing origin | ready origin =>
      cases origin <;>
        · obtain ⟨found, present, status, named, key, held⟩ := fits
          obtain ⟨found', present', status', key', named'⟩ := alike.find present
          exact ⟨found', present', status'.trans status, named'.trans named, key'.trans key, held⟩
  | launching | waking | started =>
      obtain ⟨found, present, status, named, key⟩ := fits
      obtain ⟨found', present', status', key', named'⟩ := alike.find present
      exact ⟨found', present', status'.trans status, named'.trans named, key'.trans key⟩
  | discarding =>
      obtain ⟨found, present, status, named, given⟩ := fits
      obtain ⟨found', present', status', -, named'⟩ := alike.find present
      exact ⟨found', present', status'.trans status, named'.trans named, given⟩
  | dropping | replaying =>
      obtain ⟨found, present, status, named⟩ := fits
      obtain ⟨found', present', status', -, named'⟩ := alike.find present
      exact ⟨found', present', status'.trans status, named'.trans named⟩
  | expired | halting =>
      obtain ⟨found, present, status, named, held⟩ := fits
      obtain ⟨found', present', status', key', named'⟩ := alike.find present
      exact ⟨found', present', status'.trans status, named'.trans named, key' ▸ held⟩
  | halted =>
      obtain ⟨found, present, status, containerId, named, held⟩ := fits
      obtain ⟨found', present', status', key', named'⟩ := alike.find present
      exact ⟨found', present', status'.trans status, containerId, named'.trans named, key' ▸ held⟩
  | replaced =>
      obtain ⟨found, present, status⟩ := fits
      obtain ⟨found', present', status', -⟩ := alike.find present
      exact ⟨found', present', status'.trans status⟩
  | begun | absent | waiting | finished => trivial

theorem Phase.Fits.served {row : Option Row} {docker after : Docker} {phase : Phase}
    {request : Request} (fits : phase.Fits row docker)
    (performed : docker.perform request = some after) (grown : docker.minted ≤ after.minted)
    (spared : ∀ containerId, request = .remove containerId → phase.Forgoes row containerId) :
    phase.Fits row after := by
  cases phase with
  | probing origin | ready origin =>
      cases origin with
      | launched =>
          obtain ⟨found, present, status, named, key, held⟩ := fits
          exact ⟨found, present, status, named, key,
            held.perform (fun same => (spared _ same).2 rfl) performed⟩
      | woken attemptStartedAt =>
          obtain ⟨found, present, status, named, key, held⟩ := fits
          exact ⟨found, present, status, named, key,
            held.perform (fun same => (spared _ same).1 rfl found present named) performed⟩
  | discarding =>
      obtain ⟨found, present, status, named, given⟩ := fits
      exact ⟨found, present, status, named, Nat.lt_of_lt_of_le given grown⟩
  | expired | halting =>
      obtain ⟨found, present, status, named, held⟩ := fits
      exact ⟨found, present, status, named,
        held.perform (fun same => (spared _ same).1 rfl found present named) performed⟩
  | halted =>
      obtain ⟨found, present, status, containerId, named, held⟩ := fits
      exact ⟨found, present, status, containerId, named,
        held.perform (fun same => (spared _ same).1 rfl found present named) performed⟩
  | launching | dropping | waking | started | replaying | replaced => exact fits
  | begun | absent | waiting | finished => trivial

theorem Phase.forgoes_of_idle {phase : Phase} (idle : phase.busy = false) (row : Option Row)
    (containerId : Nat) : phase.Forgoes row containerId := by
  cases phase with
  | begun | absent | waiting | finished =>
      exact ⟨fun owns => (nomatch owns), fun fresh => (nomatch fresh)⟩
  | probing | ready | launching | discarding | dropping | expired | halting | halted | waking
  | started | replaying | replaced => cases idle

namespace World.Orderly

variable {world after : World}

theorem others (orderly : world.Orderly) {index : Nat} {phase : Phase}
    (present : world.calls[index]? = some phase) (busy : phase.busy = true) :
    ∀ (other : Nat) (found : Phase), world.calls[other]? = some found → other ≠ index →
      found.busy = false := by
  intro other found at_other apart
  by_contra not_idle
  exact apart (orderly.alone _ _ _ _ at_other present (by simpa using not_idle) busy)

theorem unsettled (orderly : world.Orderly) {index : Nat} {phase : Phase}
    (present : world.calls[index]? = some phase) (busy : phase.busy = true) :
    ∃ found, world.row = some found ∧ found.status ≠ .running :=
  (orderly.fits _ _ present).unsettled busy

/-- A step which only sends calls to idle phases, and changes no more than the times of the row,
keeps the order. -/
theorem aside (orderly : world.Orderly)
    (calls : ∀ (index : Nat) (phase : Phase), after.calls[index]? = some phase →
      world.calls[index]? = some phase ∨ phase.busy = false)
    (row : Alike world.row after.row) (docker : after.docker = world.docker)
    (opener : after.opener = world.opener)
    (holder : ∀ (index : Nat) (phase : Phase), after.calls[index]? = some phase →
      phase.locks = true → world.holder = some (.call index) →
      after.holder = some (.call index))
    (late : ∀ request ∈ after.late, request ∈ world.late ∨
      ∀ containerId, request.hits containerId → after.Forsaken containerId) : after.Orderly := by
  have before {index : Nat} {phase : Phase} (present : after.calls[index]? = some phase)
      (busy : phase.busy = true) : world.calls[index]? = some phase :=
    (calls index phase present).resolve_right (by simp [busy])
  constructor
  case alone =>
      intro index other phase found at_index at_other busy busy'
      exact orderly.alone _ _ _ _ (before at_index busy) (before at_other busy') busy busy'
  case locked =>
      intro index phase present locks
      have busy : phase.busy = true := by simp [Phase.busy, locks]
      exact holder index phase present locks (orderly.locked _ _ (before present busy) locks)
  case opened =>
      intro index phase present owns
      have busy : phase.busy = true := by simp [Phase.busy, owns]
      rw [opener]
      exact orderly.opened _ _ (before present busy) owns
  case fits =>
      intro index phase present
      rcases calls index phase present with kept | idle
      · rw [docker]
        exact (orderly.fits _ _ kept).alike row
      · exact Phase.fits_of_idle idle _ _
  case backed =>
      intro found present status
      obtain ⟨old, present', status', key', named'⟩ := row.symm.find present
      obtain ⟨containerId, named, held⟩ := orderly.backed old present' (status' ▸ status)
      exact ⟨containerId, named'.symm.trans named, by rw [docker, ← key']; exact held⟩
  case named =>
      intro found containerId present named
      obtain ⟨old, present', -, -, named'⟩ := row.symm.find present
      rw [docker]
      exact orderly.named old containerId present' (named'.trans named)
  case known =>
      rw [docker]
      exact orderly.known
  case late =>
      intro request member containerId hits
      rcases late request member with old | forsaken
      · have forsaken := orderly.late request old containerId hits
        constructor
        case given => rw [docker]; exact forsaken.given
        case unsettled =>
            intro found present named
            obtain ⟨old, present', status', -, named'⟩ := row.symm.find present
            exact status'.symm.trans (forsaken.unsettled old present' (named'.trans named))
        case forgone =>
            intro index phase present
            rcases calls index phase present with kept | idle
            · obtain ⟨unowned, fresh⟩ := forsaken.forgone index phase kept
              refine ⟨fun owns found at_row named => ?_, fresh⟩
              obtain ⟨old, present', -, -, named'⟩ := row.symm.find at_row
              exact unowned owns old present' (named'.trans named)
            · exact Phase.forgoes_of_idle idle _ _
      · exact forsaken containerId hits

/-- A step of one call, with every other call idle, keeps the order when what it leaves behind fits
its next phase. -/
theorem turn (orderly : world.Orderly) {index : Nat} {next : Phase}
    (calls : after.calls = world.calls.set index next)
    (others : ∀ (other : Nat) (found : Phase), world.calls[other]? = some found → other ≠ index →
      found.busy = false)
    (locked : next.locks = true → after.holder = some (.call index))
    (opened : next.owns = true → after.opener = some index)
    (fits : next.Fits after.row after.docker)
    (backed : ∀ row, after.row = some row → row.status ≠ .provisioning → after.docker.Backs row)
    (named : ∀ row containerId, after.row = some row → row.containerId = some containerId →
      containerId < after.docker.minted)
    (docker : world.docker.minted ≤ after.docker.minted)
    (known : ∀ container, after.docker.container = some container →
      container.id < after.docker.minted)
    (late : after.late = world.late)
    (forgone : ∀ containerId, world.Forsaken containerId →
      (∀ row, after.row = some row → row.containerId = some containerId →
        row.status = .provisioning) ∧ next.Forgoes after.row containerId) : after.Orderly := by
  have split {other : Nat} {phase : Phase} (present : after.calls[other]? = some phase) :
      other = index ∧ phase = next ∨ phase.busy = false := by
    rw [calls] at present
    exact (getElem?_set_cases present).imp_right fun ⟨apart, before⟩ =>
      others other phase before apart
  constructor
  case alone =>
      intro first second phase found at_first at_second busy busy'
      obtain ⟨rfl, -⟩ := (split at_first).resolve_right (by simp [busy])
      obtain ⟨rfl, -⟩ := (split at_second).resolve_right (by simp [busy'])
      rfl
  case locked =>
      intro other phase present locks
      obtain ⟨rfl, rfl⟩ := (split present).resolve_right (by simp [Phase.busy, locks])
      exact locked locks
  case opened =>
      intro other phase present owns
      obtain ⟨rfl, rfl⟩ := (split present).resolve_right (by simp [Phase.busy, owns])
      exact opened owns
  case fits =>
      intro other phase present
      rcases split present with ⟨rfl, rfl⟩ | idle
      · exact fits
      · exact Phase.fits_of_idle idle _ _
  case backed => exact backed
  case named => exact named
  case known => exact known
  case late =>
      intro request member containerId hits
      have forsaken := orderly.late request (late ▸ member) containerId hits
      obtain ⟨unsettled, forgoes⟩ := forgone containerId forsaken
      refine ⟨Nat.lt_of_lt_of_le forsaken.given docker, unsettled, fun other phase present => ?_⟩
      rcases split present with ⟨-, rfl⟩ | idle
      · exact forgoes
      · exact Phase.forgoes_of_idle idle _ _

theorem shift (orderly : world.Orderly) {index : Nat} {phase next : Phase}
    (present : world.calls[index]? = some phase)
    (others : ∀ (other : Nat) (found : Phase), world.calls[other]? = some found →
      other ≠ index → found.busy = false)
    (calls : after.calls = world.calls.set index next) (row : after.row = world.row)
    (docker : after.docker = world.docker) (late : after.late = world.late)
    (locked : next.locks = true → after.holder = some (.call index))
    (opened : next.owns = true → after.opener = some index)
    (fits : next.Fits world.row world.docker) (owns : next.owns = true → phase.owns = true)
    (fresh : next.fresh = none ∨ next.fresh = phase.fresh) : after.Orderly := by
  apply orderly.turn calls others locked opened
  · rw [row, docker]
    exact fits
  · rw [row, docker]
    exact orderly.backed
  · rw [row, docker]
    exact orderly.named
  · exact Nat.le_of_eq (congrArg Docker.minted docker.symm)
  · rw [docker]
    exact orderly.known
  · exact late
  · intro containerId forsaken
    obtain ⟨unowned, unfresh⟩ := forsaken.forgone index phase present
    rw [row]
    refine ⟨forsaken.unsettled, fun owning => unowned (owns owning), ?_⟩
    rcases fresh with none | same
    · simp [none]
    · rw [same]
      exact unfresh

theorem spared_of_alike (row : Alike world.row after.row)
    (docker : after.docker = world.docker) : world.Spared after := by
  intro found present status
  obtain ⟨kept, present', status', key', named'⟩ := row.find present
  refine ⟨⟨kept, present', status'.trans status, key', named'⟩, fun container held _ => ?_⟩
  exact ⟨container, by rw [docker, held], rfl, rfl, id⟩

theorem spared_of_busy (orderly : world.Orderly) {index : Nat} {phase : Phase}
    (present : world.calls[index]? = some phase) (busy : phase.busy = true) (after : World) :
    world.Spared after := by
  obtain ⟨found, at_row, unsettled⟩ := orderly.unsettled present busy
  intro row present status
  rw [at_row] at present
  cases present
  exact absurd status unsettled

/-! ### The steps of a call -/

theorem idle_of_unlocked (orderly : world.Orderly) {index : Nat} {phase : Phase}
    (at_index : world.calls[index]? = some phase) (unlocked : world.holder ≠ some (.call index))
    (unowned : phase.owns = false) : phase.busy = false := by
  by_contra busy
  have locks : phase.locks = true := by simpa [Phase.busy, unowned] using busy
  exact unlocked (orderly.locked _ _ at_index locks)

theorem unowned_of_settled (orderly : world.Orderly) {row : Row} (present : world.row = some row)
    (settled : row.status ≠ .provisioning) {index : Nat} {phase : Phase}
    (at_index : world.calls[index]? = some phase) : phase.owns = false := by
  by_contra owns
  obtain ⟨found, at_row, provisioning⟩ :=
    (orderly.fits _ _ at_index).provisioning (by simpa using owns)
  cases present.symm.trans at_row
  exact settled provisioning

theorem idle_of_stopped (orderly : world.Orderly) (free : world.holder = none) {row : Row}
    (present : world.row = some row) (status : row.status = .stopped) {index : Nat} {phase : Phase}
    (at_index : world.calls[index]? = some phase) : phase.busy = false := by
  apply orderly.idle_of_unlocked at_index (by simp [free])
  exact orderly.unowned_of_settled present (by simp [status]) at_index

theorem idle_of_openerOver (orderly : world.Orderly) (free : world.holder = none)
    (gone : world.openerOver = true) {index : Nat} {phase : Phase}
    (at_index : world.calls[index]? = some phase) : phase.busy = false := by
  apply orderly.idle_of_unlocked at_index (by simp [free])
  by_contra owns
  have opened := orderly.opened _ _ at_index (by simpa using owns)
  simp only [World.openerOver, opened, at_index, Option.all_some] at gone
  cases phase <;> simp_all [Phase.isOver, Phase.owns]

theorem idle_of_absent (orderly : world.Orderly) (absent : world.row = none) {index : Nat}
    {phase : Phase} (at_index : world.calls[index]? = some phase) : phase.busy = false := by
  by_contra busy
  obtain ⟨found, at_row, -⟩ := orderly.unsettled at_index (by simpa using busy)
  rw [absent] at at_row
  cases at_row

theorem calls_of_become {index : Nat} {next : Phase} (idle : next.busy = false)
    (calls : after.calls = world.calls.set index next) :
    ∀ (other : Nat) (phase : Phase), after.calls[other]? = some phase →
      world.calls[other]? = some phase ∨ phase.busy = false := by
  intro other phase present
  rw [calls] at present
  obtain ⟨-, rfl⟩ | ⟨-, before⟩ := getElem?_set_cases present
  · exact .inr idle
  · exact .inl before

theorem rest (orderly : world.Orderly) {index : Nat} {next : Phase} (idle : next.busy = false)
    (calls : after.calls = world.calls.set index next) (row : Alike world.row after.row)
    (docker : after.docker = world.docker) (opener : after.opener = world.opener)
    (holder : ∀ other, other ≠ index → world.holder = some (.call other) →
      after.holder = some (.call other))
    (late : after.late = world.late) : after.Orderly := by
  apply orderly.aside (calls_of_become idle calls) row docker opener
  · intro other phase present locks held
    apply holder other _ held
    rintro rfl
    rw [calls] at present
    obtain ⟨-, rfl⟩ | ⟨apart, -⟩ := getElem?_set_cases present
    · simp [Phase.busy, locks] at idle
    · exact apart rfl
  · intro request member
    exact .inl (late ▸ member)

/-- `get_for_update` and the branch it takes keep the order, unless a row is replayed while its
opener is under way. -/
theorem become_idle (orderly : world.Orderly) (index : Nat) {next : Phase}
    (idle : next.busy = false) :
    (world.become index next).Orderly ∧ world.Spared (world.become index next) :=
  ⟨orderly.rest idle rfl (.refl _) rfl rfl (fun _ _ held => held) rfl,
    spared_of_alike (.refl _) rfl⟩

/-- A call writes the row: what it leaves behind has to fit its next phase and the container. -/
theorem rewrite (orderly : world.Orderly) {index : Nat} {next : Phase} {row : Option Row}
    {holder : Option Holder} {opener : Option Nat}
    (others : ∀ (other : Nat) (found : Phase), world.calls[other]? = some found →
      other ≠ index → found.busy = false)
    (locked : next.locks = true → holder = some (.call index))
    (opened : next.owns = true → opener = some index) (fits : next.Fits row world.docker)
    (backed : ∀ found, row = some found → found.status ≠ .provisioning →
      world.docker.Backs found)
    (named : ∀ found containerId, row = some found → found.containerId = some containerId →
      containerId < world.docker.minted)
    (forgone : ∀ containerId, world.Forsaken containerId →
      (∀ found, row = some found → found.containerId = some containerId →
        found.status = .provisioning) ∧ next.Forgoes row containerId) :
    ({ world with row, holder, opener }.become index next).Orderly :=
  orderly.turn rfl others locked opened fits backed named (Nat.le_refl _) orderly.known rfl forgone

theorem look (orderly : world.Orderly) {staleSeconds : Int} {index : Nat}
    (present : world.calls[index]? = some .begun) (free : world.holder = none)
    (prudent : world.prudent staleSeconds (.move index .look) = true) :
    (world.look staleSeconds index).Orderly ∧ world.Spared (world.look staleSeconds index) := by
  unfold World.look
  split
  next absent => exact orderly.become_idle index rfl
  next row at_row =>
    split
    next status =>
      split
      next stale =>
        have gone : world.openerOver = true := by
          simpa [World.prudent, at_row, status, stale] using prudent
        have idle {other : Nat} {phase : Phase} (found : world.calls[other]? = some phase) :=
          orderly.idle_of_openerOver free gone found
        split
        next containerId named =>
          refine ⟨?_, spared_of_alike (.refl _) rfl⟩
          exact orderly.shift present (fun _ _ found _ => idle found) rfl rfl rfl rfl
            (fun _ => rfl) nofun ⟨row, at_row, status, named⟩ nofun (.inl rfl)
        next =>
          refine ⟨?_, spared_of_alike (.refl _) rfl⟩
          exact orderly.shift present (fun _ _ found _ => idle found) rfl rfl rfl rfl
            (fun _ => rfl) nofun ⟨row, at_row, status⟩ nofun (.inl rfl)
      next => exact orderly.become_idle index rfl
    next status =>
      have idle {other : Nat} {phase : Phase} (found : world.calls[other]? = some phase) :=
        orderly.idle_of_stopped free at_row status found
      refine ⟨?_, spared_of_alike (.refl _) rfl⟩
      exact orderly.shift present (fun _ _ found _ => idle found) rfl rfl rfl rfl
        (fun _ => rfl) nofun ⟨row, at_row, status, rfl, rfl⟩ nofun (.inl rfl)
    next status =>
      have alike : Alike world.row (some (row.touchActive world.now)) := by
        rw [at_row]
        exact .touched (some row) world.now
      refine ⟨orderly.rest rfl rfl alike rfl rfl (fun _ _ held => held) rfl, ?_⟩
      exact spared_of_alike alike rfl

theorem inserted (orderly : world.Orderly) {index apiKey began : Nat}
    (others : ∀ (other : Nat) (found : Phase), world.calls[other]? = some found →
      other ≠ index → found.busy = false) : (world.inserted index apiKey began).Orderly := by
  refine orderly.rewrite others nofun (fun _ => rfl) ?_ ?_ ?_ ?_
  · exact ⟨_, rfl, rfl, rfl, rfl⟩
  · intro row present status
    cases present
    exact absurd rfl status
  · intro row containerId present named
    cases present
    cases named
  · intro containerId forsaken
    refine ⟨fun row present _ => by cases present; rfl, fun _ row present named => ?_, nofun⟩
    cases present
    cases named

/-- The daemon carries out the request of a busy call, which removes a container only while the
row is `provisioning`. -/
theorem serve (orderly : world.Orderly) {index : Nat} {phase next : Phase} {request : Request}
    {docker : Docker} (present : world.calls[index]? = some phase) (busy : phase.busy = true)
    (performed : world.docker.perform request = some docker)
    (locked : next.locks = true → phase.locks = true)
    (opened : next.owns = true → phase.owns = true)
    (fits : next.Fits world.row docker)
    (safe : ∀ containerId, request = .remove containerId →
      ∃ found, world.row = some found ∧ found.status = .provisioning)
    (forgone : ∀ containerId, world.Forsaken containerId → next.Forgoes world.row containerId) :
    ({ world with docker }.become index next).Orderly := by
  obtain ⟨grown, known⟩ := Docker.perform_known performed orderly.known
  have calls : ({ world with docker }.become index next).calls = world.calls.set index next := rfl
  apply orderly.turn calls (orderly.others present busy)
    (fun locks => orderly.locked _ _ present (locked locks))
    (fun owns => orderly.opened _ _ present (opened owns))
  · exact fits
  · intro row at_row status
    obtain ⟨containerId, named, held⟩ := orderly.backed row at_row status
    refine ⟨containerId, named, held.perform (fun removes => ?_) performed⟩
    obtain ⟨found, at_row', provisioning⟩ := safe containerId removes
    cases at_row.symm.trans at_row'
    exact status provisioning
  · intro row containerId at_row named
    exact Nat.lt_of_lt_of_le (orderly.named row containerId at_row named) grown
  · exact grown
  · exact known
  · rfl
  · intro containerId forsaken
    exact ⟨forsaken.unsettled, forgone containerId forsaken⟩

theorem refused (orderly : world.Orderly) {index : Nat} {phase : Phase}
    (present : world.calls[index]? = some phase)
    (refused : world.refused index phase = some after) : after.Orderly := by
  have fits := orderly.fits _ _ present
  cases phase with
  | launching apiKey =>
      cases refused
      exact (orderly.become_idle index rfl).1
  | waking | replaying =>
      cases refused
      have held := orderly.locked _ _ present rfl
      refine orderly.rest rfl rfl (.refl _) rfl rfl (fun other apart held' => ?_) rfl
      rw [held] at held'
      cases held'
      exact absurd rfl apart
  | discarding containerId =>
      cases refused
      obtain ⟨found, at_row, status, unnamed, -⟩ := fits
      exact orderly.shift present (orderly.others present rfl) rfl rfl rfl rfl nofun
        (fun _ => orderly.opened _ _ present rfl) ⟨found, at_row, status, unnamed⟩ (fun _ => rfl)
        (.inl rfl)
  | halting containerId =>
      cases refused
      obtain ⟨found, at_row, status, named, held⟩ := fits
      exact orderly.shift present (orderly.others present rfl) rfl rfl rfl rfl
        (fun _ => orderly.locked _ _ present rfl) (fun _ => orderly.opened _ _ present rfl)
        ⟨found, at_row, status, containerId, named, held⟩ (fun _ => rfl) (.inl rfl)
  | begun | absent | waiting | probing | ready | dropping | started | expired | halted | replaced
  | finished => cases refused

theorem created (orderly : world.Orderly) {index : Nat} {phase : Phase}
    (present : world.calls[index]? = some phase)
    (created : world.created index phase = some after) : after.Orderly := by
  cases phase with
  | launching apiKey =>
      obtain ⟨docker, served, rfl⟩ := Option.map_eq_some_iff.mp created
      exact orderly.serve present rfl served nofun nofun trivial nofun fun _ _ => ⟨nofun, nofun⟩
  | begun | absent | waiting | probing | ready | discarding | dropping | waking | started | expired
  | halting | halted | replaying | replaced | finished => cases created

theorem performed (orderly : world.Orderly) {index : Nat} {phase : Phase}
    (present : world.calls[index]? = some phase)
    (performed : world.performed index phase = some after) : after.Orderly := by
  have fits := orderly.fits _ _ present
  unfold World.performed at performed
  split at performed
  · exact orderly.refused present performed
  next docker served =>
    cases phase with
    | launching apiKey =>
        cases performed
        have served : world.docker.perform (.run apiKey) = some docker := served
        obtain ⟨found, at_row, status, unnamed, key⟩ := fits
        apply orderly.serve present rfl served
        · exact nofun
        · exact fun _ => rfl
        · exact ⟨found, at_row, status, unnamed, key, Docker.perform_run served⟩
        · exact nofun
        · intro containerId forsaken
          refine ⟨fun _ row at_row' named => ?_, fun fresh => ?_⟩
          · cases at_row.symm.trans at_row'
            simp [unnamed] at named
          · cases fresh
            exact absurd forsaken.given (Nat.lt_irrefl _)
    | waking attemptStartedAt apiKey containerId =>
        cases containerId with
        | none => cases performed
        | some containerId =>
            cases performed
            have served : world.docker.perform (.start containerId) = some docker := served
            apply orderly.serve present rfl served
            · exact fun _ => rfl
            · exact nofun
            · exact fits
            · exact nofun
            · exact fun _ _ => ⟨nofun, nofun⟩
    | replaying began containerId =>
        cases performed
        have served : world.docker.perform (.remove containerId) = some docker := served
        obtain ⟨found, at_row, status, -⟩ := fits
        apply orderly.serve present rfl served
        · exact fun _ => rfl
        · exact nofun
        · exact ⟨found, at_row, status⟩
        · exact fun _ _ => ⟨found, at_row, status⟩
        · exact fun _ _ => ⟨nofun, nofun⟩
    | discarding containerId =>
        cases performed
        have served : world.docker.perform (.remove containerId) = some docker := served
        obtain ⟨found, at_row, status, unnamed, -⟩ := fits
        apply orderly.serve present rfl served
        · exact nofun
        · exact fun _ => rfl
        · exact ⟨found, at_row, status, unnamed⟩
        · exact fun _ _ => ⟨found, at_row, status⟩
        · intro other forsaken
          exact ⟨fun _ => (forsaken.forgone _ _ present).1 rfl, nofun⟩
    | halting containerId =>
        cases performed
        have served : world.docker.perform (.stop containerId) = some docker := served
        obtain ⟨found, at_row, status, named, held⟩ := fits
        have other : Request.stop containerId ≠ .remove containerId := nofun
        apply orderly.serve present rfl served
        · exact fun _ => rfl
        · exact fun _ => rfl
        · exact ⟨found, at_row, status, containerId, named, held.perform other served⟩
        · exact nofun
        · intro other forsaken
          exact ⟨fun _ => (forsaken.forgone _ _ present).1 rfl, nofun⟩
    | begun | absent | waiting | probing | ready | dropping | started | expired | halted | replaced
    | finished => cases performed

/-- `mark_running`. -/
theorem ran (orderly : world.Orderly) {index : Nat} {origin : Origin} {apiKey containerId : Nat}
    (present : world.calls[index]? = some (.ready origin apiKey containerId)) :
    ({ world with
      row := world.row.map fun row : Row => row.markRunning containerId world.now }.become index
        (.finished (some apiKey))).Orderly := by
  have fits := orderly.fits _ _ present
  obtain ⟨found, at_row, key, held⟩ : ∃ found, world.row = some found ∧ found.apiKey = apiKey ∧
      world.docker.Holds containerId apiKey := by
    cases origin <;>
      · obtain ⟨found, at_row, -, -, key, held⟩ := fits
        exact ⟨found, at_row, key, held⟩
  have at_after : (world.row.map fun row : Row => row.markRunning containerId world.now) =
      some (found.markRunning containerId world.now) := congrArg (Option.map _) at_row
  refine orderly.rewrite (orderly.others present rfl) nofun nofun trivial ?_ ?_ ?_
  · intro row at_row' _
    cases at_after.symm.trans at_row'
    exact ⟨containerId, rfl, key ▸ held⟩
  · intro row other at_row' named
    cases at_after.symm.trans at_row'
    cases named
    obtain ⟨container, at_name, rfl, -⟩ := held
    exact orderly.known container at_name
  · intro other forsaken
    refine ⟨fun row at_row' named => ?_, nofun, nofun⟩
    cases at_after.symm.trans at_row'
    cases named
    obtain ⟨unowned, unfresh⟩ := forsaken.forgone _ _ present
    cases origin with
    | launched => exact absurd rfl unfresh
    | woken attemptStartedAt =>
        obtain ⟨found', at_row', -, named', -⟩ := fits
        exact absurd named' (unowned rfl found' at_row')

/-- `mark_provisioning`. -/
theorem reopened (orderly : world.Orderly) {index attemptStartedAt apiKey containerId : Nat}
    (present : world.calls[index]? = some (.started attemptStartedAt apiKey containerId)) :
    ({ world with
      row := world.row.map fun row : Row => row.markProvisioning attemptStartedAt world.now
      holder := none
      opener := some index }.become index
        (.probing (.woken attemptStartedAt) apiKey containerId)).Orderly := by
  obtain ⟨found, at_row, status, named, key⟩ := orderly.fits _ _ present
  have stopped : found.status ≠ .provisioning := by simp [status]
  obtain ⟨backer, named', held⟩ := orderly.backed found at_row stopped
  cases named.symm.trans named'
  have at_after : (world.row.map fun row : Row =>
      row.markProvisioning attemptStartedAt world.now) =
        some (found.markProvisioning attemptStartedAt world.now) := congrArg (Option.map _) at_row
  refine orderly.rewrite (orderly.others present rfl) nofun (fun _ => rfl) ?_ ?_ ?_ ?_
  · exact ⟨_, at_after, rfl, named, key, key ▸ held⟩
  · intro row at_row' settled
    cases at_after.symm.trans at_row'
    exact absurd rfl settled
  · intro row other at_row' named'
    cases at_after.symm.trans at_row'
    exact orderly.named found other at_row named'
  · intro other forsaken
    -- A container dead callers asked about is not the one a stopped row names.
    have apart : found.containerId ≠ some other := fun same =>
      stopped (forsaken.unsettled found at_row same)
    refine ⟨fun row at_row' named' => ?_, fun _ row at_row' named' => ?_, nofun⟩
    · cases at_after.symm.trans at_row'
      exact absurd named' apart
    · cases at_after.symm.trans at_row'
      exact absurd named' apart

/-- `mark_stopped`. -/
theorem halted (orderly : world.Orderly) {index : Nat}
    (present : world.calls[index]? = some .halted) :
    ({ world with row := world.row.map Row.markStopped, holder := none }.become index
      (.finished none)).Orderly := by
  obtain ⟨found, at_row, status, containerId, named, held⟩ := orderly.fits _ _ present
  have at_after : world.row.map Row.markStopped = some found.markStopped :=
    congrArg (Option.map _) at_row
  refine orderly.rewrite (orderly.others present rfl) nofun nofun trivial ?_ ?_ ?_
  · intro row at_row' _
    cases at_after.symm.trans at_row'
    exact ⟨containerId, named, held⟩
  · intro row other at_row' named'
    cases at_after.symm.trans at_row'
    exact orderly.named found other at_row named'
  · intro other forsaken
    refine ⟨fun row at_row' named' => ?_, nofun, nofun⟩
    cases at_after.symm.trans at_row'
    exact absurd named' ((forsaken.forgone _ _ present).1 rfl found at_row)

theorem written (orderly : world.Orderly) {index : Nat} {phase : Phase}
    (present : world.calls[index]? = some phase)
    (written : world.written index phase = some after) : after.Orderly := by
  have fits := orderly.fits _ _ present
  cases phase with
  | ready origin apiKey containerId =>
      simp only [World.written] at written
      split at written <;> cases written
      exact orderly.ran present
  | dropping =>
      simp only [World.written] at written
      split at written <;> cases written
      refine orderly.rewrite (orderly.others present rfl) nofun nofun trivial ?_ ?_ ?_
      · exact fun row at_row => nomatch at_row
      · exact fun row containerId at_row => nomatch at_row
      · exact fun containerId _ => ⟨fun row at_row => (nomatch at_row), nofun, nofun⟩
  | started attemptStartedAt apiKey containerId =>
      cases written
      exact orderly.reopened present
  | expired attemptStartedAt containerId =>
      simp only [World.written] at written
      split at written
      · split at written <;> cases written
        · exact orderly.shift present (orderly.others present rfl) rfl rfl rfl rfl (fun _ => rfl)
            (fun _ => orderly.opened _ _ present rfl) fits (fun _ => rfl) (.inl rfl)
        · exact (orderly.become_idle index rfl).1
      · cases written
  | halted =>
      cases written
      exact orderly.halted present
  | begun | absent | waiting | launching | probing | discarding | waking | halting | replaying
  | replaced | finished => cases written

theorem forsaken_of_request (orderly : world.Orderly) {index : Nat} {phase : Phase}
    (present : world.calls[index]? = some phase) {request : Request}
    (asked : phase.request = some request) {containerId : Nat} (hits : request.hits containerId)
    (calls : after.calls = world.calls.set index (.finished none)) (row : after.row = world.row)
    (docker : after.docker = world.docker) : after.Forsaken containerId := by
  have fits := orderly.fits _ _ present
  have subject : phase.busy = true ∧ containerId < world.docker.minted ∧
      ∃ found, world.row = some found ∧ found.status = .provisioning := by
    cases phase with
    | launching apiKey =>
        cases asked
        exact hits.elim nofun nofun
    | waking attemptStartedAt apiKey waked =>
        cases waked with
        | none => cases asked
        | some waked =>
            cases asked
            exact hits.elim nofun nofun
    | discarding discarded =>
        cases asked
        obtain ⟨found, at_row, status, -, given⟩ := fits
        have same : discarded = containerId := by
          rcases hits with stops | removes
          · cases stops
          · cases removes
            rfl
        exact ⟨rfl, same ▸ given, found, at_row, status⟩
    | halting halted =>
        cases asked
        obtain ⟨found, at_row, status, named, -⟩ := fits
        have same : halted = containerId := by
          rcases hits with stops | removes
          · cases stops
            rfl
          · cases removes
        exact ⟨rfl, same ▸ orderly.named found halted at_row named, found, at_row, status⟩
    | replaying began removed =>
        cases asked
        obtain ⟨found, at_row, status, named⟩ := fits
        have same : removed = containerId := by
          rcases hits with stops | removes
          · cases stops
          · cases removes
            rfl
        exact ⟨rfl, same ▸ orderly.named found removed at_row named, found, at_row, status⟩
    | begun | absent | waiting | probing | ready | dropping | started | expired | halted | replaced
    | finished => cases asked
  obtain ⟨busy, given, found, at_row, status⟩ := subject
  constructor
  case given => rw [docker]; exact given
  case unsettled =>
      intro row' at_after _
      cases at_row.symm.trans (row ▸ at_after)
      exact status
  case forgone =>
      intro other phase' at_other
      have idle : phase'.busy = false := by
        rcases calls_of_become rfl calls other phase' at_other with kept | idle
        · rw [calls] at at_other
          obtain ⟨-, rfl⟩ | ⟨apart, -⟩ := getElem?_set_cases at_other
          · rfl
          · exact orderly.others present busy other phase' kept apart
        · exact idle
      exact Phase.forgoes_of_idle idle _ _

theorem died (orderly : world.Orderly) {index : Nat} {phase : Phase}
    (present : world.calls[index]? = some phase) :
    (world.died index phase).Orderly ∧ world.Spared (world.died index phase) := by
  have calls : (world.died index phase).calls = world.calls.set index (.finished none) := by
    simp only [World.died, World.become, World.releaseFor]
    split <;> rfl
  have row : (world.died index phase).row = world.row := by
    simp only [World.died, World.become, World.releaseFor]
    split <;> rfl
  have docker : (world.died index phase).docker = world.docker := by
    simp only [World.died, World.become, World.releaseFor]
    split <;> rfl
  have opener : (world.died index phase).opener = world.opener := by
    simp only [World.died, World.become, World.releaseFor]
    split <;> rfl
  have alike : Alike world.row (world.died index phase).row := by rw [row]; exact .refl _
  refine ⟨?_, spared_of_alike alike docker⟩
  apply orderly.aside (calls_of_become rfl calls) alike docker opener
  · intro other phase' at_other locks held
    have apart : other ≠ index := by
      rw [calls] at at_other
      obtain ⟨-, rfl⟩ | ⟨apart, -⟩ := getElem?_set_cases at_other
      · cases locks
      · exact apart
    have foreign : world.holder ≠ some (.call index) := by
      rw [held]
      simpa using apart
    simp only [World.died, World.become, World.releaseFor, if_neg foreign]
    exact held
  · intro request member
    have late : (world.died index phase).late = world.late ++ phase.request.toList := rfl
    rw [late, List.mem_append, Option.mem_toList] at member
    rcases member with old | asked
    · exact .inl old
    · exact .inr fun containerId hits =>
        orderly.forsaken_of_request present asked hits calls row docker

theorem replays_of_replacing (orderly : world.Orderly) (replacing : world.replacing = true)
    {index : Nat} {phase : Phase} (present : world.calls[index]? = some phase)
    (busy : phase.busy = true) : phase.replays = true := by
  simp only [World.replacing] at replacing
  split at replacing
  next other held =>
    obtain ⟨found, at_other, replays⟩ := (Option.any_eq_true _ _).mp replacing
    have replayer : found.busy = true := by
      cases found <;> first | rfl | cases replays
    have same := orderly.alone _ _ _ _ present at_other busy replayer
    subst same
    cases present.symm.trans at_other
    exact replays
  · cases replacing

theorem missed (orderly : world.Orderly) {index : Nat} {phase : Phase}
    (present : world.calls[index]? = some phase) (replacing : world.replacing = true)
    (missed : world.missed index phase = some after) : after.Orderly ∧ world.Spared after := by
  have foreign := orderly.replays_of_replacing replacing present
  cases phase with
  | begun =>
      cases missed
      exact orderly.become_idle index rfl
  | ready | dropping | expired => cases foreign rfl
  | absent | waiting | launching | probing | discarding | waking | started | halting | halted
  | replaying | replaced | finished => cases missed

/-- Every move of a call keeps the order and spares a running instance, unless it replays a row
whose opener is under way. -/
theorem createProvisioning (orderly : world.Orderly) {staleSeconds : Int} {index apiKey : Nat}
    {phase : Phase} (present : world.calls[index]? = some phase)
    (advanced : world.advance staleSeconds index phase (.insert apiKey) = some after) :
    after.Orderly ∧ world.Spared after := by
  simp only [World.advance] at advanced
  split at advanced
  · split at advanced
    next absent =>
      cases advanced
      refine ⟨orderly.inserted fun _ _ found _ => orderly.idle_of_absent absent found, ?_⟩
      intro row at_row
      simp [absent] at at_row
    · cases advanced
      exact orderly.become_idle index rfl
  · cases advanced
    exact ⟨orderly.inserted (orderly.others present rfl), orderly.spared_of_busy present rfl _⟩
  · cases advanced

theorem answered (orderly : world.Orderly) {index apiKey containerId : Nat} {origin : Origin}
    (present : world.calls[index]? = some (.probing origin apiKey containerId)) :
    (world.become index (.ready origin apiKey containerId)).Orderly := by
  have fits := orderly.fits _ _ present
  refine orderly.shift present (orderly.others present rfl) rfl rfl rfl rfl nofun
    (fun _ => orderly.opened _ _ present rfl) ?_ (fun _ => rfl) ?_
  · cases origin <;> exact fits
  · cases origin
    · exact .inr rfl
    · exact .inl rfl

/-- The readiness budget of a call is spent. -/
theorem expired (orderly : world.Orderly) {staleSeconds : Int} {index : Nat} {phase : Phase}
    (present : world.calls[index]? = some phase)
    (advanced : world.advance staleSeconds index phase .expire = some after) :
    after.Orderly ∧ world.Spared after := by
  have fits := orderly.fits _ _ present
  simp only [World.advance] at advanced
  split at advanced
  next apiKey containerId =>
    cases advanced
    obtain ⟨found, at_row, status, unnamed, -, container, at_name, rfl, -⟩ := fits
    refine ⟨?_, orderly.spared_of_busy present rfl _⟩
    exact orderly.shift present (orderly.others present rfl) rfl rfl rfl rfl nofun
      (fun _ => orderly.opened _ _ present rfl)
      ⟨found, at_row, status, unnamed, orderly.known container at_name⟩ (fun _ => rfl)
      (.inl rfl)
  next attemptStartedAt apiKey containerId =>
    cases advanced
    obtain ⟨found, at_row, status, named, key, held⟩ := fits
    refine ⟨?_, orderly.spared_of_busy present rfl _⟩
    exact orderly.shift present (orderly.others present rfl) rfl rfl rfl rfl nofun
      (fun _ => orderly.opened _ _ present rfl)
      ⟨found, at_row, status, named, key ▸ held⟩ (fun _ => rfl) (.inl rfl)
  · cases advanced
    exact orderly.become_idle index rfl
  · cases advanced

theorem noticed (orderly : world.Orderly) (index : Nat) :
    (world.noticed index).Orderly ∧ world.Spared (world.noticed index) := by
  simp only [World.noticed]
  split
  · exact orderly.become_idle index rfl
  · split
    · exact orderly.become_idle index rfl
    · exact ⟨orderly, spared_of_alike (.refl _) rfl⟩

theorem advance (orderly : world.Orderly) {staleSeconds : Int} {index : Nat} {phase : Phase}
    {move : Move} (present : world.calls[index]? = some phase)
    (prudent : world.prudent staleSeconds (.move index move) = true)
    (advanced : world.advance staleSeconds index phase move = some after) :
    after.Orderly ∧ world.Spared after := by
  cases move with
  | look =>
      simp only [World.advance] at advanced
      split at advanced
      · split at advanced
        next free =>
          cases advanced
          exact orderly.look present free prudent
        · cases advanced
      · cases advanced
  | miss =>
      simp only [World.advance] at advanced
      split at advanced
      next replacing => exact orderly.missed present replacing advanced
      · cases advanced
  | insert apiKey => exact orderly.createProvisioning present advanced
  | perform =>
      have busy : phase.busy = true := by
        cases phase <;> first | rfl | cases advanced
      exact ⟨orderly.performed present advanced, orderly.spared_of_busy present busy _⟩
  | refuse =>
      have busy : phase.busy = true := by
        cases phase <;> first | rfl | cases advanced
      exact ⟨orderly.refused present advanced, orderly.spared_of_busy present busy _⟩
  | create =>
      have busy : phase.busy = true := by
        cases phase <;> first | rfl | cases advanced
      exact ⟨orderly.created present advanced, orderly.spared_of_busy present busy _⟩
  | answer =>
      simp only [World.advance] at advanced
      split at advanced
      · split at advanced <;> cases advanced
        exact ⟨orderly.answered present, orderly.spared_of_busy present rfl _⟩
      · cases advanced
  | expire => exact orderly.expired present advanced
  | write =>
      have busy : phase.busy = true := by
        cases phase <;> first | rfl | cases advanced
      exact ⟨orderly.written present advanced, orderly.spared_of_busy present busy _⟩
  | notice =>
      simp only [World.advance] at advanced
      split at advanced
      · cases advanced
        exact orderly.noticed index
      · cases advanced
  | die =>
      simp only [World.advance] at advanced
      split at advanced <;> cases advanced
      exact orderly.died present

/-! ### What happens beside the calls -/

theorem afterwards (orderly : world.Orderly) {request : Request} {docker : Docker}
    {late : List Request} (asked : request ∈ world.late) (fewer : late ⊆ world.late)
    (performed : world.docker.perform request = some docker) :
    World.Orderly { world with docker, late } ∧ world.Spared { world with docker, late } := by
  obtain ⟨grown, known⟩ := Docker.perform_known performed orderly.known
  have removes {containerId : Nat} (same : request = .remove containerId) :
      world.Forsaken containerId := orderly.late request asked containerId (.inr same)
  constructor
  · constructor
    case alone => exact orderly.alone
    case locked => exact orderly.locked
    case opened => exact orderly.opened
    case fits =>
        intro index phase present
        apply (orderly.fits _ _ present).served performed grown
        intro containerId same
        exact (removes same).forgone index phase present
    case backed =>
        intro row at_row status
        obtain ⟨containerId, named, held⟩ := orderly.backed row at_row status
        refine ⟨containerId, named, held.perform (fun same => ?_) performed⟩
        exact status ((removes same).unsettled row at_row named)
    case named =>
        intro row containerId at_row named
        exact Nat.lt_of_lt_of_le (orderly.named row containerId at_row named) grown
    case known => exact known
    case late =>
        intro other member containerId hits
        have forsaken := orderly.late other (fewer member) containerId hits
        exact ⟨Nat.lt_of_lt_of_le forsaken.given grown, forsaken.unsettled, forsaken.forgone⟩
  · intro row at_row status
    refine ⟨⟨row, at_row, status, rfl, rfl⟩, fun container held named => ?_⟩
    refine Docker.perform_kept held (fun hits => ?_) performed
    have forsaken := orderly.late request asked container.id hits
    rw [forsaken.unsettled row at_row named] at status
    cases status

/-- Every step keeps the order and spares a running instance, unless it replays a row whose opener
is under way. -/
theorem step (orderly : world.Orderly) {staleSeconds : Int} {event : Event}
    (prudent : world.prudent staleSeconds event = true)
    (stepped : world.step staleSeconds event = some after) :
    after.Orderly ∧ world.Spared after := by
  cases event with
  | pass microseconds =>
      cases stepped
      exact ⟨orderly.aside (fun _ _ present => .inl present) (.refl _) rfl rfl
        (fun _ _ _ _ held => held) fun _ member => .inl member, spared_of_alike (.refl _) rfl⟩
  | call =>
      cases stepped
      refine ⟨orderly.aside (fun index phase present => ?_) (.refl _) rfl rfl
        (fun _ _ _ _ held => held) fun _ member => .inl member, spared_of_alike (.refl _) rfl⟩
      obtain before | ⟨-, rfl⟩ := getElem?_snoc present
      · exact .inl before
      · exact .inr rfl
  | touch =>
      simp only [World.step] at stepped
      split at stepped <;> cases stepped
      have alike := Alike.touched world.row world.now
      exact ⟨orderly.aside (fun _ _ present => .inl present) alike rfl rfl
        (fun _ _ _ _ held => held) fun _ member => .inl member, spared_of_alike alike rfl⟩
  | move index move =>
      obtain ⟨phase, present, advanced⟩ := Option.bind_eq_some_iff.mp stepped
      exact orderly.advance present prudent advanced
  | late index =>
      obtain ⟨request, at_index, rfl⟩ := Option.map_eq_some_iff.mp stepped
      have asked : request ∈ world.late := List.mem_of_getElem? at_index
      have fewer : world.late.eraseIdx index ⊆ world.late := List.eraseIdx_subset
      cases performed : world.docker.perform request with
      | none =>
          exact ⟨orderly.aside (fun _ _ present => .inl present) (.refl _) rfl rfl
            (fun _ _ _ _ held => held) fun _ member => .inl (fewer member),
            spared_of_alike (.refl _) rfl⟩
      | some docker => exact orderly.afterwards asked fewer performed
  | curtail index =>
      obtain ⟨request, at_index, stepped⟩ := Option.bind_eq_some_iff.mp stepped
      split at stepped <;> cases stepped
      next apiKey =>
        refine ⟨orderly.aside (fun _ _ present => .inl present) (.refl _) rfl rfl
          (fun _ _ _ _ held => held) fun other member => ?_, spared_of_alike (.refl _) rfl⟩
        obtain old | rfl := List.mem_or_eq_of_mem_set member
        · exact .inl old
        · exact .inr nofun

theorem of_quiet (quiet : world.Quiet) : world.Orderly := by
  have none_under_way {index : Nat} {phase : Phase} (present : world.calls[index]? = some phase) :
      False := by
    simp [quiet.calls] at present
  constructor
  case alone => exact fun _ _ _ _ present => (none_under_way present).elim
  case locked => exact fun _ _ present => (none_under_way present).elim
  case opened => exact fun _ _ present => (none_under_way present).elim
  case fits => exact fun _ _ present => (none_under_way present).elim
  case backed => exact quiet.backed
  case named => exact quiet.named
  case known => exact quiet.known
  case late =>
      intro request member
      simp [quiet.late] at member

end World.Orderly

/-- While no row is replayed as stale under a call still at work on it, every committed `running`
row is backed by a container started with its key, and no step removes, stops or overwrites a
running instance. -/
theorem running_instance_has_one_owner (staleSeconds : Int) (start world : World)
    (quiet : start.Quiet)
    (reached : Reachable (World.step staleSeconds)
      (fun world event => world.prudent staleSeconds event = true) start world) :
    world.Honest ∧
      ∀ event after, world.prudent staleSeconds event = true →
        world.step staleSeconds event = some after → world.Spared after := by
  have orderly : world.Orderly := by
    apply reached.invariant World.Orderly (.of_quiet quiet)
    intro before event after orderly prudent stepped
    exact (orderly.step prudent stepped).1
  constructor
  · intro row at_row status
    exact orderly.backed row at_row (by simp [status])
  · intro event after prudent stepped
    exact (orderly.step prudent stepped).2

namespace Sample

/-- A hibernated instance. -/
def hibernated : World :=
  { row := some
      { apiKey := 7, status := .stopped, containerId := some 0, provisioningStartedAt := some 0,
        createdAt := 0, lastActiveAt := 0 }
    docker := { container := some ⟨0, 7, false, true⟩, minted := 1 }
    now := 3600000000 }

theorem hibernated_quiet : hibernated.Quiet := by
  constructor
  case calls => rfl
  case late => rfl
  case holder => rfl
  case backed =>
      intro row present _
      cases present
      exact ⟨0, rfl, _, rfl, rfl, rfl⟩
  case named =>
      intro row containerId present named
      cases present
      cases named
      exact Nat.one_pos
  case known =>
      intro container held
      cases held
      exact Nat.one_pos

/-- A wake which times out and cannot stop its container, a wake which dies, and a replay of the
row it left behind. -/
def troubled : List Event :=
  [.call, .move 0 .look, .move 0 .perform, .move 0 .write, .call, .move 1 .look, .move 0 .expire,
    .move 0 .write, .move 0 .refuse, .move 0 .write, .call, .move 2 .look, .move 2 .perform,
    .move 2 .write, .move 2 .answer, .move 2 .die, .move 1 .notice, .pass 121000000, .call,
    .move 3 .look, .move 3 .perform, .move 3 (.insert 8), .move 3 .perform, .move 3 .answer,
    .move 3 .write]

/-- The order holds through the troubles, and the instance they end with is backed. -/
theorem troubled_instance_honest :
    ∃ world, Reachable (World.step 120) (fun world event => world.prudent 120 event = true)
        hibernated world ∧
      (world.row.any fun row => row.status == .running && row.apiKey == 8) = true ∧
      world.Honest ∧
      ∀ event after, world.prudent 120 event = true →
        world.step 120 event = some after → world.Spared after := by
  obtain ⟨world, reached, tested⟩ := reachable_of_any (World.step 120)
    (fun world event => world.prudent 120 event = true) hibernated
    (fun world => world.row.any fun row => row.status == .running && row.apiKey == 8) troubled
    (by decide)
  exact ⟨world, reached, tested,
    running_instance_has_one_owner 120 hibernated world hibernated_quiet reached⟩

/-- A `docker run` which outlives the threshold: its row is replayed by a second call, and the
first then marks the row of the second as running with its own container. -/
def outlived : List Event :=
  [.call, .move 0 .look, .move 0 (.insert 1), .pass 121000000, .call, .move 1 .look,
    .move 1 (.insert 2), .move 0 .perform, .move 0 .answer, .move 0 .write]

/-- The row says `running` and holds the key of one call, the container it names was started with
the key of another. -/
theorem outlived_call_overwrites :
    ¬ ∀ (staleSeconds : Int) (start world : World), start.Quiet →
      Reachable (World.step staleSeconds) (fun _ _ => True) start world →
      world.Honest ∧
        ∀ event after, world.step staleSeconds event = some after → world.Spared after := by
  intro always
  obtain ⟨world, reached, tested⟩ := reachable_of_any (World.step 120) (fun _ _ => True) {}
    (fun world => (world.row.any fun row => row.status == .running && row.apiKey == 2) &&
      world.docker.container == some ⟨0, 1, true, false⟩) outlived (by decide)
  have quiet : World.Quiet {} := by
    constructor <;> simp
  have honest := (always 120 {} world quiet reached).1
  simp only [Bool.and_eq_true, beq_iff_eq, Option.any_eq_true] at tested
  obtain ⟨⟨row, at_row, status, key⟩, at_name⟩ := tested
  obtain ⟨containerId, -, container, held, -, same⟩ := honest row at_row status
  cases at_name.symm.trans held
  simp [key] at same

end Sample

end Hermes.Runtime
