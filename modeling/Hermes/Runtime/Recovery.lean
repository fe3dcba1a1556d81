import Mathlib.Data.List.Induction
import Hermes.Runtime.Ownership

/-!
# Calls which nothing disturbs

When the daemon and the probes work and no other call is under way, a call of `ensure_running` goes
by itself from its first statement to its last.  Whether such calls bring an instance back is a
matter of the row and the container they begin with.
-/

namespace Hermes.Runtime

/-- The next move of a call which nothing disturbs: a container which is up answers its probes,
and a row which another call has opened stays as it is. -/
def Phase.undisturbed (answers : Bool) (apiKey : Nat) : Phase → Move
  | begun => .look
  | absent _ | replaced _ => .insert apiKey
  | launching _ | discarding _ | waking .. | halting _ | replaying .. => .perform
  | probing .. => if answers then .answer else .expire
  | ready .. | dropping | started .. | expired .. | halted => .write
  | waiting | finished _ => .expire

/-- A call of `ensure_running`, some time after the one before, and the key it generates if it
comes to provision. -/
structure Visit where
  wait : Nat
  apiKey : Nat

namespace World

/-- Let a call go on for a number of moves, or until it is over. -/
def attend (staleSeconds : Int) (index apiKey : Nat) : Nat → World → World
  | 0, world => world
  | moves + 1, world =>
      match (world.calls[index]?).bind fun phase => world.step staleSeconds
          (.move index (phase.undisturbed world.docker.answers apiKey)) with
      | some after => attend staleSeconds index apiKey moves after
      | none => world

/-- The moves of the longest undisturbed call: a replay whose container does not become ready. -/
def longest : Nat := 8

/-- The world with a call after some others, which has come to a phase. -/
def on (world : World) (calls : List Phase) (phase : Phase) : World :=
  { world with calls := calls ++ [phase] }

/-- A call of `ensure_running` which nothing disturbs. -/
def ensureRunning (staleSeconds : Int) (apiKey : Nat) (world : World) : World :=
  (world.on world.calls .begun).attend staleSeconds world.calls.length apiKey longest

/-- Time passes, and `ensure_running` is called. -/
def visit (staleSeconds : Int) (world : World) (visit : Visit) : World :=
  { world with now := world.now + visit.wait }.ensureRunning staleSeconds visit.apiKey

def visits (staleSeconds : Int) (world : World) (visits : List Visit) : World :=
  visits.foldl (visit staleSeconds) world

structure Idle (world : World) : Prop where
  holder : world.holder = none
  ended : ∀ phase ∈ world.calls, phase.isOver = true

/-- The last call has returned the key of the row. -/
def Answered (world : World) : Prop :=
  ∃ row, world.row = some row ∧ world.calls.getLast? = some (.finished (some row.apiKey))

/-- The row says `running`, and the container it names is up and was started with its key. -/
def Healthy (world : World) : Prop :=
  ∃ row, world.row = some row ∧ row.status = .running ∧ world.docker.Backs row ∧
    world.docker.answers = true

/-- The threshold has passed since the row was opened. -/
def Lapsed (staleSeconds : Int) (world : World) : Prop :=
  ∀ row, world.row = some row → row.status = .provisioning →
    staleSeconds * 1000000 < world.now - (row.provisioningStartedAt.getD row.createdAt : Nat)

/-- After a finite number of calls the instance is up, and every later call returns. -/
def Recovers (staleSeconds : Int) (world : World) : Prop :=
  ∃ enough, ∀ visits : List Visit, enough ≤ visits.length →
    (world.visits staleSeconds visits).Healthy ∧
      ∀ visit, ((world.visits staleSeconds visits).visit staleSeconds visit).Answered

/-- No container holds the name of the user but the one the row names, and the row names one which
is there unless it can be replayed. -/
def Mendable (staleSeconds : Int) (world : World) : Prop :=
  match world.row with
  | none => world.docker.container = none
  | some row =>
      match row.status with
      | .provisioning =>
          0 < staleSeconds ∧ ∀ container, world.docker.container = some container →
            row.containerId = some container.id
      | .running => world.docker.Backs row ∧ world.docker.answers = true
      | .stopped => world.docker.Backs row

/-! ### One call -/

section Moves

variable {world : World} {calls : List Phase} {staleSeconds : Int} {apiKey moves : Nat}
  {phase : Phase}

theorem attend_on (after : World) (next : Phase)
    (advanced : (world.on calls phase).advance staleSeconds calls.length phase
      (phase.undisturbed world.docker.answers apiKey) = some (after.on calls next)) :
    (world.on calls phase).attend staleSeconds calls.length apiKey (moves + 1) =
      (after.on calls next).attend staleSeconds calls.length apiKey moves := by
  have present : (world.on calls phase).calls[calls.length]? = some phase := by simp [on]
  have answers : (world.on calls phase).docker.answers = world.docker.answers := rfl
  rw [attend, present, Option.bind_some, answers]
  simp only [step, present, Option.bind_some, advanced]

theorem attend_finished {result : Option Nat} :
    (world.on calls (.finished result)).attend staleSeconds calls.length apiKey moves =
      world.on calls (.finished result) := by
  cases moves with
  | zero => rfl
  | succ moves =>
      have present : (world.on calls (.finished result)).calls[calls.length]? =
          some (.finished result) := by simp [on]
      rw [attend, present, Option.bind_some]
      simp [step, present, advance, Phase.undisturbed]

@[simp] theorem become_on {next : Phase} :
    (world.on calls phase).become calls.length next = world.on calls next := by
  simp [become, on]

theorem ensureRunning_running {row : Row} (free : world.holder = none)
    (at_row : world.row = some row) (status : row.status = .running) :
    world.ensureRunning staleSeconds apiKey =
      { world with row := some (row.touchActive world.now) }.on world.calls
        (.finished (some row.apiKey)) := by
  rw [ensureRunning, longest, attend_on { world with row := some (row.touchActive world.now) }
    (.finished (some row.apiKey)) ?_, attend_finished]
  simp [advance, Phase.undisturbed, look, become, on, free, at_row, status]

/-- A call which finds the row opened not long ago waits for it in vain. -/
theorem ensureRunning_waits {row : Row} (free : world.holder = none)
    (at_row : world.row = some row) (status : row.status = .provisioning)
    (young : row.isStaleProvisioning staleSeconds world.now = false) :
    world.ensureRunning staleSeconds apiKey = world.on world.calls (.finished none) := by
  rw [ensureRunning, longest, attend_on world .waiting ?_,
    attend_on world (.finished none) ?_, attend_finished]
  · simp [advance, Phase.undisturbed, become, on]
  · simp [advance, Phase.undisturbed, look, become, on, free, at_row, status, young]

theorem ensureRunning_startless {row : Row} (free : world.holder = none)
    (at_row : world.row = some row) (status : row.status = .stopped)
    (refused : (row.containerId.map .start).bind world.docker.perform = none) :
    world.ensureRunning staleSeconds apiKey = world.on world.calls (.finished none) := by
  rw [ensureRunning, longest, attend_on (world.seize world.calls.length)
    (.waking world.now row.apiKey row.containerId) ?_,
    attend_on world (.finished none) ?_, attend_finished]
  · simp [advance, Phase.undisturbed, performed, Phase.request, World.refused, become, on, seize,
      release, refused, free]
  · simp [advance, Phase.undisturbed, look, become, on, seize, free, at_row, status]

theorem ensureRunning_wakes {row : Row} {containerId : Nat} {docker : Docker}
    (free : world.holder = none) (at_row : world.row = some row) (status : row.status = .stopped)
    (named : row.containerId = some containerId)
    (performed : world.docker.perform (.start containerId) = some docker)
    (answers : docker.answers = true) :
    world.ensureRunning staleSeconds apiKey =
      { world with
        row := some ((row.markProvisioning world.now world.now).markRunning containerId world.now)
        docker
        opener := some world.calls.length }.on world.calls (.finished (some row.apiKey)) := by
  rw [ensureRunning, longest, attend_on (world.seize world.calls.length)
      (.waking world.now row.apiKey (some containerId)) ?_,
    attend_on { world.seize world.calls.length with docker }
      (.started world.now row.apiKey containerId) ?_,
    attend_on { world with
        row := some (row.markProvisioning world.now world.now)
        docker
        opener := some world.calls.length }
      (.probing (.woken world.now) row.apiKey containerId) ?_,
    attend_on { world with
        row := some (row.markProvisioning world.now world.now)
        docker
        opener := some world.calls.length }
      (.ready (.woken world.now) row.apiKey containerId) ?_,
    attend_on { world with
        row := some ((row.markProvisioning world.now world.now).markRunning containerId world.now)
        docker
        opener := some world.calls.length }
      (.finished (some row.apiKey)) ?_, attend_finished]
  · simp [advance, Phase.undisturbed, written, become, on, free]
  · simp [advance, Phase.undisturbed, become, on, answers]
  · simp [advance, Phase.undisturbed, written, become, on, seize, free, at_row]
  · simp [advance, Phase.undisturbed, World.performed, Phase.request, become, on, seize, performed]
  · simp [advance, Phase.undisturbed, look, become, on, seize, free, at_row, status, named]

/-- What becomes of the world when a row is provisioned with the daemon as it is. -/
def launched (world : World) (apiKey : Nat) : World :=
  match world.docker.perform (.run apiKey) with
  | some docker =>
      { world with
        row := some ((Row.createProvisioning apiKey world.now).markRunning world.docker.minted
          world.now)
        docker
        opener := some world.calls.length }.on world.calls (.finished (some apiKey))
  | none =>
      { world with
        row := some (.createProvisioning apiKey world.now)
        opener := some world.calls.length }.on world.calls (.finished none)

/-- From the commit of the row on, the call needs no more than the name of the container to be
free. -/
theorem attend_launching (free : world.holder = none) :
    ({ world with
        row := some (.createProvisioning apiKey world.now)
        opener := some world.calls.length }.on world.calls (.launching apiKey)).attend staleSeconds
      world.calls.length apiKey (moves + 4) = world.launched apiKey := by
  rw [launched]
  cases performed : world.docker.perform (.run apiKey) with
  | none =>
      rw [attend_on { world with
          row := some (.createProvisioning apiKey world.now)
          opener := some world.calls.length } (.finished none) ?_, attend_finished]
      simp [advance, Phase.undisturbed, World.performed, Phase.request, refused, become, on,
        performed]
  | some docker =>
      have answers : docker.answers = true := by
        simp only [Docker.perform] at performed
        split at performed <;> cases performed
        rfl
      rw [attend_on { world with
            row := some (.createProvisioning apiKey world.now)
            docker
            opener := some world.calls.length }
          (.probing .launched apiKey world.docker.minted) ?_,
        attend_on { world with
            row := some (.createProvisioning apiKey world.now)
            docker
            opener := some world.calls.length }
          (.ready .launched apiKey world.docker.minted) ?_,
        attend_on { world with
            row := some ((Row.createProvisioning apiKey world.now).markRunning
              world.docker.minted world.now)
            docker
            opener := some world.calls.length }
          (.finished (some apiKey)) ?_, attend_finished]
      · simp [advance, Phase.undisturbed, written, become, on, free]
      · simp [advance, Phase.undisturbed, become, on, answers]
      · simp [advance, Phase.undisturbed, World.performed, Phase.request, become, on, performed]

theorem ensureRunning_provisions (free : world.holder = none) (absent : world.row = none) :
    world.ensureRunning staleSeconds apiKey = world.launched apiKey := by
  rw [ensureRunning, longest, attend_on world (.absent world.now) ?_,
    attend_on { world with
        row := some (.createProvisioning apiKey world.now)
        opener := some world.calls.length } (.launching apiKey) ?_,
    attend_launching free]
  · simp [advance, Phase.undisturbed, inserted, become, on, absent, free]
  · simp [advance, Phase.undisturbed, look, become, on, absent, free]

/-- A call which finds the residue of a crash removes the container it names and provisions
afresh. -/
theorem ensureRunning_replays {row : Row} {docker : Docker} (free : world.holder = none)
    (at_row : world.row = some row) (status : row.status = .provisioning)
    (stale : row.isStaleProvisioning staleSeconds world.now = true)
    (cleared : (row.containerId.map .remove).elim (some world.docker) world.docker.perform =
      some docker) :
    world.ensureRunning staleSeconds apiKey = { world with docker }.launched apiKey := by
  have provisioned {moves : Nat} :
      ({ world.seize world.calls.length with docker }.on world.calls
        (.replaced world.now)).attend staleSeconds world.calls.length apiKey (moves + 5) =
          { world with docker }.launched apiKey := by
    rw [attend_on { world with
          row := some (.createProvisioning apiKey world.now)
          docker
          opener := some world.calls.length } (.launching apiKey) ?_]
    · have unlocked : World.holder { world with docker } = none := free
      exact attend_launching unlocked
    · simp [advance, Phase.undisturbed, inserted, become, on, seize, free]
  cases named : row.containerId with
  | none =>
      simp only [named, Option.map_none, Option.elim_none, Option.some.injEq] at cleared
      subst cleared
      rw [ensureRunning, longest, attend_on (world.seize world.calls.length)
        (.replaced world.now) ?_]
      · exact provisioned
      · simp [advance, Phase.undisturbed, look, become, on, seize, free, at_row, status, stale,
          named]
  | some containerId =>
      simp only [named, Option.map_some, Option.elim_some] at cleared
      rw [ensureRunning, longest, attend_on (world.seize world.calls.length)
          (.replaying world.now containerId) ?_,
        attend_on { world.seize world.calls.length with docker } (.replaced world.now) ?_]
      · exact provisioned
      · simp [advance, Phase.undisturbed, performed, Phase.request, become, on, seize, cleared]
      · simp [advance, Phase.undisturbed, look, become, on, seize, free, at_row, status, stale,
          named]

end Moves

/-! ### What a call leaves behind -/

section Repair

variable {world : World} {staleSeconds : Int} {apiKey : Nat}

theorem Idle.on {after : World} (idle : world.Idle) (holder : after.holder = world.holder)
    (result : Option Nat) : (after.on world.calls (.finished result)).Idle := by
  constructor
  case holder => exact holder.trans idle.holder
  case ended =>
      intro phase member
      rcases List.mem_append.mp member with before | last
      · exact idle.ended phase before
      · rw [List.mem_singleton.mp last]
        rfl

theorem Idle.launched (idle : world.Idle) : (world.launched apiKey).Idle := by
  unfold World.launched
  split
  · exact idle.on (by rfl) _
  · exact idle.on (by rfl) _

theorem launched_healthy (free : world.docker.container = none) :
    (world.launched apiKey).Healthy ∧ (world.launched apiKey).Answered := by
  have performed : world.docker.perform (.run apiKey) =
      some ⟨some ⟨world.docker.minted, apiKey, true, false⟩, world.docker.minted + 1⟩ := by
    simp [Docker.perform, free]
  simp only [launched, performed]
  constructor
  · exact ⟨_, rfl, rfl, ⟨world.docker.minted, rfl, _, rfl, rfl, rfl⟩, rfl⟩
  · exact ⟨_, rfl, by simp [on, Row.createProvisioning, Row.markRunning]⟩

/-- Provisioning under a name which is held fails, and leaves a row which names no container. -/
theorem launched_unmendable {container : Container}
    (held : world.docker.container = some container) :
    ¬ (world.launched apiKey).Mendable staleSeconds := by
  have refused : world.docker.perform (.run apiKey) = none := by
    simp [Docker.perform, held]
  simp only [launched, refused]
  intro mendable
  have named := mendable.2 container held
  cases named

theorem Healthy.mendable (healthy : world.Healthy) : world.Mendable staleSeconds := by
  obtain ⟨row, at_row, status, backed, answers⟩ := healthy
  simp only [Mendable, at_row, status]
  exact ⟨backed, answers⟩

theorem Healthy.lapsed (healthy : world.Healthy) : world.Lapsed staleSeconds := by
  obtain ⟨row, at_row, status, -⟩ := healthy
  intro found at_found provisioning
  cases at_row.symm.trans at_found
  rw [status] at provisioning
  cases provisioning

/-- One undisturbed call repairs what can be repaired, once the threshold has passed. -/
theorem ensureRunning_repairs (idle : world.Idle) (lapsed : world.Lapsed staleSeconds)
    (mendable : world.Mendable staleSeconds) :
    (world.ensureRunning staleSeconds apiKey).Idle ∧
      (world.ensureRunning staleSeconds apiKey).Healthy ∧
      (world.ensureRunning staleSeconds apiKey).Answered := by
  cases at_row : world.row with
  | none =>
      have free : world.docker.container = none := by simpa [Mendable, at_row] using mendable
      rw [ensureRunning_provisions idle.holder at_row]
      exact ⟨idle.launched, launched_healthy free⟩
  | some row =>
      cases status : row.status with
      | running =>
          have backed : world.docker.Backs row ∧ world.docker.answers = true := by
            simpa [Mendable, at_row, status] using mendable
          rw [ensureRunning_running idle.holder at_row status]
          refine ⟨idle.on (by rfl) _, ⟨_, rfl, status, backed⟩, ?_⟩
          exact ⟨_, rfl, by simp [on, Row.touchActive]⟩
      | stopped =>
          have backed : world.docker.Backs row := by
            simpa [Mendable, at_row, status] using mendable
          obtain ⟨containerId, named, container, held, same, key⟩ := backed
          have performed : world.docker.perform (.start containerId) =
              some { world.docker with
                container := some { container with up := true, reaped := false } } := by
            simp [Docker.perform, held, same]
          rw [ensureRunning_wakes idle.holder at_row status named performed rfl]
          refine ⟨idle.on (by rfl) _, ⟨_, rfl, rfl, ?_, rfl⟩, ?_⟩
          · exact ⟨containerId, rfl, _, rfl, same, key⟩
          · exact ⟨_, rfl, by simp [on, Row.markProvisioning, Row.markRunning]⟩
      | provisioning =>
          have named : 0 < staleSeconds ∧ ∀ container,
              world.docker.container = some container →
              row.containerId = some container.id := by
            simpa [Mendable, at_row, status] using mendable
          have stale : row.isStaleProvisioning staleSeconds world.now = true := by
            simp only [Row.isStaleProvisioning, Bool.and_eq_true, decide_eq_true_eq]
            exact ⟨named.1, lapsed row at_row status⟩
          obtain ⟨docker, cleared, free⟩ : ∃ docker : Docker,
              (row.containerId.map .remove).elim (some world.docker) world.docker.perform =
                some docker ∧ docker.container = none := by
            cases held : world.docker.container with
            | none =>
                refine ⟨world.docker, ?_, held⟩
                cases row.containerId <;> simp [Docker.perform, held]
            | some container =>
                refine ⟨{ world.docker with container := none }, ?_, rfl⟩
                simp [named.2 container held, Docker.perform, held]
          rw [ensureRunning_replays idle.holder at_row status stale cleared]
          exact ⟨Idle.launched ⟨idle.holder, idle.ended⟩, launched_healthy free⟩

theorem ensureRunning_unmendable (idle : world.Idle)
    (unmendable : ¬ world.Mendable staleSeconds) :
    (world.ensureRunning staleSeconds apiKey).Idle ∧
      ¬ (world.ensureRunning staleSeconds apiKey).Mendable staleSeconds := by
  cases at_row : world.row with
  | none =>
      obtain ⟨container, held⟩ : ∃ container, world.docker.container = some container := by
        simpa [Mendable, at_row, Option.ne_none_iff_exists'] using unmendable
      rw [ensureRunning_provisions idle.holder at_row]
      exact ⟨idle.launched, launched_unmendable held⟩
  | some row =>
      cases status : row.status with
      | running =>
          rw [ensureRunning_running idle.holder at_row status]
          refine ⟨idle.on (by rfl) _, fun mendable => unmendable ?_⟩
          simpa [Mendable, on, at_row, status, Row.touchActive, Docker.Backs] using mendable
      | stopped =>
          cases refused : (row.containerId.map .start).bind world.docker.perform with
          | none =>
              rw [ensureRunning_startless idle.holder at_row status refused]
              exact ⟨idle.on (by rfl) _, unmendable⟩
          | some docker =>
              obtain ⟨request, asked, performed⟩ := Option.bind_eq_some_iff.mp refused
              obtain ⟨containerId, named, rfl⟩ := Option.map_eq_some_iff.mp asked
              obtain ⟨container, held, rfl, rfl⟩ : ∃ container,
                  world.docker.container = some container ∧ container.id = containerId ∧
                    docker = { world.docker with
                      container := some { container with up := true, reaped := false } } := by
                simp only [Docker.perform] at performed
                split at performed
                · cases performed
                next container held =>
                  split at performed <;> cases performed
                  exact ⟨container, held, ‹_›, rfl⟩
              rw [ensureRunning_wakes idle.holder at_row status named performed rfl]
              refine ⟨idle.on (by rfl) _, fun mendable => unmendable ?_⟩
              -- Whether the container has the key of the row does not depend on its being up.
              obtain ⟨⟨other, named', found, at_name, same, key⟩, -⟩ := mendable
              cases at_name
              simp only [Mendable, at_row, status]
              exact ⟨container.id, named, container, held, rfl, key⟩
      | provisioning =>
          cases stale : row.isStaleProvisioning staleSeconds world.now with
          | false =>
              rw [ensureRunning_waits idle.holder at_row status stale]
              exact ⟨idle.on (by rfl) _, unmendable⟩
          | true =>
              have positive : 0 < staleSeconds := by
                simp only [Row.isStaleProvisioning, Bool.and_eq_true, decide_eq_true_eq] at stale
                exact stale.1
              obtain ⟨container, held, unnamed⟩ : ∃ container,
                  world.docker.container = some container ∧
                    row.containerId ≠ some container.id := by
                simpa [Mendable, at_row, status, positive] using unmendable
              have cleared : (row.containerId.map .remove).elim (some world.docker)
                  world.docker.perform = some world.docker := by
                cases named : row.containerId with
                | none => rfl
                | some containerId =>
                    have apart : container.id ≠ containerId := by
                      rintro rfl
                      exact unnamed named
                    simp [Docker.perform, held, apart]
              rw [ensureRunning_replays idle.holder at_row status stale cleared]
              exact ⟨Idle.launched ⟨idle.holder, idle.ended⟩, launched_unmendable held⟩

end Repair

/-! ### One call after another -/

section Visits

variable {world : World} {staleSeconds : Int}

theorem visits_concat (visits : List Visit) (visit : Visit) :
    world.visits staleSeconds (visits ++ [visit]) =
      (world.visits staleSeconds visits).visit staleSeconds visit := by
  simp [World.visits]

theorem visit_repairs (idle : world.Idle) (lapsed : world.Lapsed staleSeconds)
    (mendable : world.Mendable staleSeconds) (visit : Visit) :
    (world.visit staleSeconds visit).Idle ∧ (world.visit staleSeconds visit).Healthy ∧
      (world.visit staleSeconds visit).Answered := by
  apply ensureRunning_repairs
  · exact ⟨idle.holder, idle.ended⟩
  · intro row at_row status
    have passed := lapsed row at_row status
    push_cast
    omega
  · exact mendable

theorem visits_repair (idle : world.Idle) (lapsed : world.Lapsed staleSeconds)
    (mendable : world.Mendable staleSeconds) (visits : List Visit) :
    (world.visits staleSeconds visits).Idle ∧
      (world.visits staleSeconds visits).Lapsed staleSeconds ∧
      (world.visits staleSeconds visits).Mendable staleSeconds ∧
      (visits ≠ [] → (world.visits staleSeconds visits).Healthy) := by
  induction visits using List.reverseRecOn with
  | nil => exact ⟨idle, lapsed, mendable, fun some => absurd rfl some⟩
  | append_singleton visits visit induction =>
      obtain ⟨idle, lapsed, mendable, -⟩ := induction
      obtain ⟨idle, healthy, -⟩ := visit_repairs idle lapsed mendable visit
      rw [visits_concat]
      exact ⟨idle, healthy.lapsed, healthy.mendable, fun _ => healthy⟩

theorem visits_unmendable (idle : world.Idle) (unmendable : ¬ world.Mendable staleSeconds)
    (visits : List Visit) :
    (world.visits staleSeconds visits).Idle ∧
      ¬ (world.visits staleSeconds visits).Mendable staleSeconds := by
  induction visits using List.reverseRecOn with
  | nil => exact ⟨idle, unmendable⟩
  | append_singleton visits visit induction =>
      rw [visits_concat]
      exact ensureRunning_unmendable ⟨induction.1.holder, induction.1.ended⟩ induction.2

theorem recovers_iff (idle : world.Idle) (lapsed : world.Lapsed staleSeconds) :
    world.Recovers staleSeconds ↔ world.Mendable staleSeconds := by
  constructor
  · rintro ⟨enough, recovered⟩
    by_contra unmendable
    have healthy := (recovered (List.replicate enough ⟨0, 0⟩) (by simp)).1
    exact (visits_unmendable idle unmendable _).2 healthy.mendable
  · intro mendable
    refine ⟨1, fun visits some => ?_⟩
    obtain ⟨idle, lapsed, mendable, healthy⟩ := visits_repair idle lapsed mendable visits
    constructor
    · apply healthy
      rintro rfl
      cases some
    · intro visit
      exact (visit_repairs idle lapsed mendable visit).2.2

end Visits

end World

end Hermes.Runtime
