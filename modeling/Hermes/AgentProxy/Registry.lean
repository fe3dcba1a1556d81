import Hermes.Library.Transition
import Mathlib.Data.List.AList

/-!
# The registry of consumer tasks

A task leaves the registry by a callback which runs some time after it has ended, and by then
another task may consume the same run.  Still the registry names every live task, so that a run is
never consumed twice by one worker, and it is empty once all callbacks have run.
-/

namespace Hermes.AgentProxy

inductive TaskEnding
  | returned
  | cancelled
  | failed (error : String)
  deriving DecidableEq, Repr

/-- A consumer task: `done` where it has an ending, and behind `_forget` where it is forgotten. -/
structure ConsumerTask where
  runId : String
  ending : Option TaskEnding := none
  forgotten : Bool := false
  cancelled : Bool := false
  deriving DecidableEq, Repr

/-- `ConsumerRegistry`, with all tasks it ever created; a task is known by its position there. -/
structure ConsumerRegistry where
  tasks : AList fun _ : String => Nat := ∅
  created : List ConsumerTask := []
  /-- `agent_run_consumers_active`. -/
  gauge : Nat := 0

inductive RegistryAction
  /-- `start`, for whatever coroutine. -/
  | start (runId : String)
  /-- A task comes to its end. -/
  | finish (task : Nat) (ending : TaskEnding)
  /-- The callback of a task which has ended. -/
  | forget (task : Nat)
  | drain
  deriving DecidableEq, Repr

namespace ConsumerRegistry

variable (registry : ConsumerRegistry)

/-- `not task.done()`. -/
def live (task : Nat) : Bool := registry.created[task]?.any fun made => made.ending.isNone

/-- `active`. -/
def active : Nat := registry.tasks.entries.countP fun entry => registry.live entry.2

/-- `agent_run_consumers_active.set(self.active)`. -/
def publish : ConsumerRegistry := { registry with gauge := registry.active }

/-- `start`: the task which consumes the run from now on, and whether it is a new one. -/
def start (runId : String) : (Nat × Bool) × ConsumerRegistry :=
  match (registry.tasks.lookup runId).filter registry.live with
  | some existing => ((existing, false), registry)
  | none =>
      let task := registry.created.length
      ((task, true),
        publish
          { registry with
            tasks := registry.tasks.insert runId task
            created := registry.created ++ [{ runId }] })

/-- `_forget`, up to what it logs. -/
def forget (runId : String) (task : Nat) : ConsumerRegistry :=
  publish
    { registry with
      tasks :=
        if registry.tasks.lookup runId = some task then registry.tasks.erase runId
        else registry.tasks
      created := registry.created.modify task fun made => { made with forgotten := true } }

/-- The tasks which `drain` cancels and waits for. -/
def draining : List Nat := (registry.tasks.entries.map (·.2)).filter registry.live

/-- `drain`, up to its waiting: how many tasks it cancels. -/
def drain : Nat × ConsumerRegistry :=
  (registry.draining.length,
    { registry with
      created :=
        registry.created.mapIdx fun task made =>
          if task ∈ registry.draining then { made with cancelled := true } else made })

/-- A task which was cancelled may end in any way, or go on. -/
def step : RegistryAction → Option ConsumerRegistry
  | .start runId => some (registry.start runId).2
  | .finish task ending =>
      if registry.live task then
        some
          { registry with
            created := registry.created.modify task fun made =>
              { made with ending := some ending } }
      else none
  | .forget task =>
      match registry.created[task]? with
      | some made =>
          if made.ending.isSome && !made.forgotten then some (registry.forget made.runId task)
          else none
      | none => none
  | .drain => some registry.drain.2

variable {registry} {after : ConsumerRegistry} {task : Nat} {runId : String}

theorem live_iff : registry.live task = true ↔
    ∃ made, registry.created[task]? = some made ∧ made.ending = none := by
  simp [live, Option.any_eq_true]

/-! ## Every live task is named -/

/-- A live task is named for its run, and what is named has not been forgotten. -/
structure Sound (registry : ConsumerRegistry) : Prop where
  named : ∀ (task : Nat) (made : ConsumerTask),
    registry.created[task]? = some made → made.ending = none →
      registry.tasks.lookup made.runId = some task
  known : ∀ runId task, registry.tasks.lookup runId = some task →
    ∃ made, registry.created[task]? = some made ∧ made.runId = runId ∧ made.forgotten = false
  unforgotten : ∀ (task : Nat) (made : ConsumerTask),
    registry.created[task]? = some made → made.ending = none → made.forgotten = false

theorem Sound.publish (sound : Sound registry) : Sound registry.publish :=
  ⟨sound.named, sound.known, sound.unforgotten⟩

/-- A task is created, or the one which is there goes on with the run. -/
theorem start_cases (registry : ConsumerRegistry) (runId : String) :
    (∃ existing, registry.live existing = true ∧
        registry.start runId = ((existing, false), registry)) ∨
      (∀ existing, registry.tasks.lookup runId = some existing →
          registry.live existing = false) ∧
        registry.start runId = ((registry.created.length, true),
          ConsumerRegistry.publish
            { registry with
              tasks := registry.tasks.insert runId registry.created.length
              created := registry.created ++ [{ runId }] }) := by
  rw [start]
  cases found : (registry.tasks.lookup runId).filter registry.live with
  | some existing => exact .inl ⟨existing, (Option.filter_eq_some_iff.mp found).2, rfl⟩
  | none =>
      refine .inr ⟨fun existing named => ?_, rfl⟩
      rw [named] at found
      simpa using found

theorem getElem?_snoc {tasks : List ConsumerTask} {made added : ConsumerTask}
    (found : (tasks ++ [added])[task]? = some made) :
    tasks[task]? = some made ∨ task = tasks.length ∧ made = added := by
  rcases Nat.lt_trichotomy task tasks.length with below | rfl | above
  · rw [List.getElem?_append_left below] at found
    exact .inl found
  · rw [List.getElem?_concat_length, Option.some.injEq] at found
    exact .inr ⟨rfl, found.symm⟩
  · rw [List.getElem?_eq_none (by simpa using Nat.succ_le_of_lt above)] at found
    cases found

theorem Sound.start (sound : Sound registry) (runId : String) :
    Sound (registry.start runId).2 := by
  rcases start_cases registry runId with ⟨existing, -, same⟩ | ⟨idle, created⟩
  · rw [same]
    exact sound
  rw [created]
  apply Sound.publish
  refine ⟨fun task made found running => ?_, fun other task named => ?_,
    fun task made found running => ?_⟩
  · rcases getElem?_snoc found with earlier | ⟨rfl, rfl⟩
    · have named := sound.named task made earlier running
      have different : made.runId ≠ runId := by
        rintro rfl
        have ended := idle task named
        rw [live_iff.mpr ⟨made, earlier, running⟩] at ended
        cases ended
      exact (AList.lookup_insert_ne different).trans named
    · exact AList.lookup_insert _
  · by_cases same : other = runId
    · subst same
      rw [AList.lookup_insert, Option.some.injEq] at named
      subst named
      exact ⟨_, List.getElem?_concat_length, rfl, rfl⟩
    · rw [AList.lookup_insert_ne same] at named
      obtain ⟨made, found, rest⟩ := sound.known other task named
      obtain ⟨below, -⟩ := List.getElem?_eq_some_iff.mp found
      exact ⟨made, (List.getElem?_append_left below).trans found, rest⟩
  · rcases getElem?_snoc found with earlier | ⟨rfl, rfl⟩
    · exact sound.unforgotten task made earlier running
    · rfl

theorem Sound.change (sound : Sound registry) {created : List ConsumerTask}
    (changed : ∀ (task : Nat) (made : ConsumerTask), created[task]? = some made →
      ∃ earlier, registry.created[task]? = some earlier ∧ made.runId = earlier.runId ∧
        (made.ending = none → earlier.ending = none) ∧ made.forgotten = earlier.forgotten)
    (kept : created.length = registry.created.length) :
    Sound { registry with created } := by
  refine ⟨fun task made found running => ?_, fun runId task named => ?_,
    fun task made found running => ?_⟩
  · obtain ⟨earlier, before, same, lived, -⟩ := changed task made found
    rw [same]
    exact sound.named task earlier before (lived running)
  · obtain ⟨earlier, before, same, fresh⟩ := sound.known runId task named
    obtain ⟨below, -⟩ := List.getElem?_eq_some_iff.mp before
    rw [← kept] at below
    have found := List.getElem?_eq_getElem below
    obtain ⟨stored, stored_before, stored_same, -, stored_fresh⟩ := changed task _ found
    rw [before, Option.some.injEq] at stored_before
    subst stored_before
    exact ⟨_, found, stored_same.trans same, stored_fresh.trans fresh⟩
  · obtain ⟨earlier, before, -, lived, same⟩ := changed task made found
    rw [same]
    exact sound.unforgotten task earlier before (lived running)

theorem lookup_forget {other : Nat} {otherRun : String} :
    (registry.forget runId task).tasks.lookup otherRun = some other ↔
      registry.tasks.lookup otherRun = some other ∧ (otherRun ≠ runId ∨ other ≠ task) := by
  rw [ConsumerRegistry.forget, publish]
  dsimp only
  by_cases own : registry.tasks.lookup runId = some task
  · rw [if_pos own]
    by_cases same : otherRun = runId
    · subst same
      rw [AList.lookup_erase, own, Option.some.injEq]
      constructor
      · exact fun gone => by cases gone
      · rintro ⟨rfl, different⟩
        rcases different with different | different <;> exact absurd rfl different
    · rw [AList.lookup_erase_ne same]
      exact ⟨fun named => ⟨named, .inl same⟩, And.left⟩
  · rw [if_neg own]
    refine ⟨fun named => ⟨named, ?_⟩, And.left⟩
    by_cases same : otherRun = runId
    · subst same
      refine .inr ?_
      rintro rfl
      exact own named
    · exact .inl same

theorem created_forget (registry : ConsumerRegistry) (runId : String) (task : Nat) :
    (registry.forget runId task).created =
      registry.created.modify task fun made => { made with forgotten := true } := rfl

theorem Sound.forget (sound : Sound registry) {made : ConsumerTask}
    (found : registry.created[task]? = some made) (ended : made.ending.isSome = true) :
    Sound (registry.forget made.runId task) := by
  have others {other : Nat} {stored : ConsumerTask} (different : other ≠ task) :
      (registry.forget made.runId task).created[other]? = some stored ↔
        registry.created[other]? = some stored := by
    rw [created_forget, List.getElem?_modify_ne _ _ (Ne.symm different)]
  have gone {other : Nat} {stored : ConsumerTask}
      (present : (registry.forget made.runId task).created[other]? = some stored)
      (running : stored.ending = none) :
      other ≠ task ∧ registry.created[other]? = some stored := by
    by_cases same : other = task
    · subst same
      rw [created_forget, List.getElem?_modify_eq, found] at present
      cases present
      rw [running] at ended
      cases ended
    · exact ⟨same, (others same).mp present⟩
  refine ⟨fun other stored present running => ?_, fun runId other named => ?_,
    fun other stored present running => ?_⟩
  · obtain ⟨different, earlier⟩ := gone present running
    exact lookup_forget.mpr ⟨sound.named other stored earlier running, .inr different⟩
  · obtain ⟨named, different⟩ := lookup_forget.mp named
    obtain ⟨stored, earlier, rfl, fresh⟩ := sound.known runId other named
    have distinct : other ≠ task := by
      rintro rfl
      rw [found, Option.some.injEq] at earlier
      subst earlier
      rcases different with different | different <;> exact different rfl
    exact ⟨stored, (others distinct).mpr earlier, rfl, fresh⟩
  · exact sound.unforgotten other stored (gone present running).2 running

theorem Sound.finish (sound : Sound registry) (task : Nat) (ending : TaskEnding) :
    Sound
      { registry with
        created := registry.created.modify task fun made =>
          { made with ending := some ending } } := by
  refine sound.change (fun other made found => ?_) (List.length_modify ..)
  rw [List.getElem?_modify] at found
  obtain ⟨earlier, before, rfl⟩ := Option.map_eq_some_iff.mp found
  refine ⟨earlier, before, ?_⟩
  split
  · exact ⟨rfl, fun ended => (by cases ended), rfl⟩
  · exact ⟨rfl, id, rfl⟩

theorem Sound.drain (sound : Sound registry) : Sound registry.drain.2 := by
  refine sound.change (fun other made found => ?_) List.length_mapIdx
  rw [List.getElem?_mapIdx] at found
  obtain ⟨earlier, before, rfl⟩ := Option.map_eq_some_iff.mp found
  refine ⟨earlier, before, ?_⟩
  split <;> exact ⟨rfl, id, rfl⟩

theorem Sound.step {action : RegistryAction} (sound : Sound registry)
    (stepped : registry.step action = some after) : Sound after := by
  cases action with
  | start runId =>
      cases stepped
      exact sound.start runId
  | finish task ending =>
      rw [ConsumerRegistry.step] at stepped
      split at stepped
      · cases stepped
        exact sound.finish task ending
      · cases stepped
  | forget task =>
      rw [ConsumerRegistry.step] at stepped
      split at stepped
      next made found =>
        split at stepped
        next ended =>
          cases stepped
          exact sound.forget found (Bool.and_eq_true_iff.mp ended).1
        · cases stepped
      · cases stepped
  | drain =>
      cases stepped
      exact sound.drain

/-! ## What the registry counts -/

/-- All live tasks, whether the registry names them or not. -/
def running (registry : ConsumerRegistry) : List Nat :=
  (List.range registry.created.length).filter registry.live

theorem mem_running : task ∈ registry.running ↔ registry.live task = true := by
  rw [running, List.mem_filter, List.mem_range]
  refine ⟨And.right, fun lives => ⟨?_, lives⟩⟩
  obtain ⟨made, found, -⟩ := live_iff.mp lives
  exact (List.getElem?_eq_some_iff.mp found).1

theorem mem_draining : task ∈ registry.draining ↔
    (∃ runId, registry.tasks.lookup runId = some task) ∧ registry.live task = true := by
  simp only [draining, List.mem_filter, List.mem_map, Sigma.exists, exists_eq_right,
    ← AList.mem_lookup_iff, Option.mem_def]

theorem Sound.draining_perm (sound : Sound registry) :
    registry.draining.Perm registry.running := by
  have once : registry.draining.Nodup := by
    refine List.Nodup.filter _ (List.Nodup.map_on ?_ (.of_map _ registry.tasks.keys_nodup))
    rintro ⟨first, task⟩ first_member ⟨second, other⟩ second_member same
    obtain rfl : task = other := same
    obtain ⟨made, found, rfl, -⟩ :=
      sound.known first task (AList.mem_lookup_iff.mpr first_member)
    obtain ⟨also, again, rfl, -⟩ :=
      sound.known second task (AList.mem_lookup_iff.mpr second_member)
    rw [found, Option.some.injEq] at again
    rw [again]
  have all_once : registry.running.Nodup := List.nodup_range.filter _
  refine (List.perm_ext_iff_of_nodup once all_once).mpr fun task => ?_
  rw [mem_draining, mem_running]
  refine ⟨And.right, fun lives => ⟨?_, lives⟩⟩
  obtain ⟨made, found, ending⟩ := live_iff.mp lives
  exact ⟨made.runId, sound.named task made found ending⟩

theorem active_eq_draining (registry : ConsumerRegistry) :
    registry.active = registry.draining.length := by
  rw [active, draining, List.countP_eq_length_filter, List.filter_map, List.length_map]
  rfl

theorem Sound.active_eq (sound : Sound registry) : registry.active = registry.running.length := by
  rw [active_eq_draining, sound.draining_perm.length_eq]

/-- The callback of every task which has ended has run. -/
def Settled (registry : ConsumerRegistry) : Prop :=
  ∀ (task : Nat) (made : ConsumerTask), registry.created[task]? = some made →
    made.ending.isSome = true → made.forgotten = true

/-- What is published is right once every callback has run. -/
def Gauged (registry : ConsumerRegistry) : Prop :=
  Settled registry → registry.gauge = registry.active

theorem gauged_publish (registry : ConsumerRegistry) : Gauged registry.publish := fun _ => rfl

theorem live_drain (registry : ConsumerRegistry) : registry.drain.2.live = registry.live := by
  funext task
  rw [live, live, drain]
  dsimp only
  rw [List.getElem?_mapIdx]
  cases registry.created[task]? with
  | none => rfl
  | some made =>
      rw [Option.map_some, Option.any_some, Option.any_some]
      split <;> rfl

theorem Gauged.drain (gauged : Gauged registry) : Gauged registry.drain.2 := by
  intro settled
  have before : Settled registry := by
    intro task made found ended
    have marked : registry.drain.2.created[task]? = some
        (if task ∈ registry.draining then { made with cancelled := true } else made) := by
      rw [ConsumerRegistry.drain, List.getElem?_mapIdx, found, Option.map_some]
    have forgotten := settled task _ marked (by split <;> exact ended)
    split at forgotten <;> exact forgotten
  rw [active, live_drain]
  exact gauged before

theorem Gauged.step {action : RegistryAction} (sound : Sound registry) (gauged : Gauged registry)
    (stepped : registry.step action = some after) : Gauged after := by
  cases action with
  | start runId =>
      cases stepped
      rcases start_cases registry runId with ⟨existing, -, same⟩ | ⟨-, created⟩
      · rw [same]
        exact gauged
      · rw [created]
        exact gauged_publish _
  | finish task ending =>
      rw [ConsumerRegistry.step] at stepped
      split at stepped
      next lives =>
        cases stepped
        intro settled
        obtain ⟨made, found, alive⟩ := live_iff.mp lives
        have forgotten := settled task { made with ending := some ending }
          (by rw [List.getElem?_modify_eq, found]; rfl) rfl
        rw [sound.unforgotten task made found alive] at forgotten
        cases forgotten
      · cases stepped
  | forget task =>
      rw [ConsumerRegistry.step] at stepped
      split at stepped
      · split at stepped
        · cases stepped
          exact gauged_publish _
        · cases stepped
      · cases stepped
  | drain =>
      cases stepped
      exact gauged.drain

/-- Whatever the tasks do and however late their callbacks come, the registry names a live task for
each run which has one. -/
theorem Sound.of_reachable (reached : Reachable ConsumerRegistry.step (fun _ _ => True) {}
    registry) : Sound registry ∧ Gauged registry := by
  have initially : Sound {} ∧ Gauged {} := by
    refine ⟨⟨fun _ _ found => ?_, fun _ _ named => ?_, fun _ _ found => ?_⟩, fun _ => rfl⟩
    · cases found
    · cases named
    · cases found
  exact reached.invariant (fun registry => Sound registry ∧ Gauged registry) initially
    fun _ _ _ kept _ stepped => ⟨kept.1.step stepped, kept.2.step kept.1 stepped⟩

/-- Once the callbacks have run, the registry names the live tasks and nothing else. -/
theorem Sound.settled_perm (sound : Sound registry) (settled : Settled registry) :
    (registry.tasks.entries.map (·.2)).Perm registry.running := by
  have perm := sound.draining_perm
  rwa [draining, List.filter_eq_self.mpr] at perm
  intro task listed
  obtain ⟨⟨runId, task⟩, member, rfl⟩ := List.mem_map.mp listed
  obtain ⟨made, found, -, fresh⟩ := sound.known runId task (AList.mem_lookup_iff.mpr member)
  refine live_iff.mpr ⟨made, found, ?_⟩
  cases ending : made.ending with
  | none => rfl
  | some ending =>
      rw [settled task made found (by rw [ending]; rfl)] at fresh
      cases fresh

/-- At most one live task consumes a run, `active` counts the live tasks and `drain` cancels all of
them, however the tasks end and however late their callbacks come; and once the callbacks have run,
the registry has an entry for each live task and none besides, and the gauge says how many. -/
theorem one_consumer_per_run (registry : ConsumerRegistry)
    (reached : Reachable ConsumerRegistry.step (fun _ _ => True) {} registry) :
    (∀ (first second : Nat) (made other : ConsumerTask),
      registry.created[first]? = some made → registry.created[second]? = some other →
        made.ending = none → other.ending = none → made.runId = other.runId → first = second) ∧
    registry.active = registry.running.length ∧
    registry.drain.1 = registry.running.length ∧
    (∀ task ∈ registry.running, ∃ made, registry.drain.2.created[task]? = some made ∧
      made.cancelled = true) ∧
    (Settled registry → (registry.tasks.entries.map (·.2)).Perm registry.running ∧
      registry.gauge = registry.running.length) := by
  obtain ⟨sound, gauged⟩ := Sound.of_reachable reached
  refine ⟨fun first second made other found also alive live same => ?_, sound.active_eq,
    sound.draining_perm.length_eq, fun task runs => ?_, fun settled => ?_⟩
  · have named := sound.named first made found alive
    rw [same, sound.named second other also live, Option.some.injEq] at named
    exact named.symm
  · obtain ⟨made, found, -⟩ := live_iff.mp (mem_running.mp runs)
    have drained := sound.draining_perm.mem_iff.mpr runs
    refine ⟨{ made with cancelled := true }, ?_, rfl⟩
    rw [drain, List.getElem?_mapIdx, found, Option.map_some, if_pos drained]
  · rw [gauged settled]
    exact ⟨sound.settled_perm settled, sound.active_eq⟩

/-- The callback of the first task comes after the second has taken over the run. -/
theorem late_callback : ∃ registry,
    Reachable ConsumerRegistry.step (fun _ _ => True) {} registry ∧
      registry.tasks.lookup "run" = some 1 ∧ registry.active = registry.running.length ∧
      registry.active = 1 := by
  obtain ⟨registry, reached, tested⟩ := reachable_of_any ConsumerRegistry.step (fun _ _ => True) {}
    (fun registry => registry.tasks.lookup "run" == some 1 && registry.active == 1)
    [.start "run", .finish 0 .returned, .start "run", .forget 0] rfl
  rw [Bool.and_eq_true, beq_iff_eq, beq_iff_eq] at tested
  exact ⟨registry, reached, tested.1, (one_consumer_per_run registry reached).2.1, tested.2⟩

end ConsumerRegistry

end Hermes.AgentProxy
