import Hermes.Library.ExactFloats
import Hermes.Library.SlidingWindow
import Hermes.Library.SortedSet
import Mathlib.Data.List.Chain

/-!
# Rate limits

A call is counted in the sorted set of its key under the time it has read, whether it is admitted or
not, and the set goes with its time to live.  That runs on the clock of Redis, from the instant at
which the call arrives there: a call which is long on its way may find the set gone while the calls
it held are within its window.
-/

namespace Hermes.Gateway

open SlidingWindow
open SortedSet

/-- A reading of `time.time()`: a float, in seconds since the epoch, of a clock which counts the
nanoseconds in 63 bits. -/
structure Reading where
  seconds : ℚ
  float : PyFloat.IsFloat seconds
  nonneg : 0 ≤ seconds
  below : seconds < 2 ^ 34

/-- An instant on the clock of Redis, in milliseconds. -/
abbrev Instant := Fin (2 ^ 62)

/-- `window_seconds`, as far as Redis can count its milliseconds from any instant on. -/
structure Window where
  seconds : Int
  fits : seconds.natAbs * 1000 < 2 ^ 62

/-- `f"{now}:{uuid.uuid4()}"`. -/
structure Member where
  now : ℚ
  uuid : Nat
  deriving DecidableEq

/-- What Redis holds under each key, and the next identifier that `uuid4` hands out. -/
structure Redis where
  keys : String → Option (SortedSet Member ℚ)
  uuid : Nat

/-- The arguments of `_allow`, with its reading of the clock and the instant at which Redis executes
its commands, all at once. -/
structure Call where
  key : String
  limit : Int
  window : Window
  now : Reading
  arrival : Instant

/-- `now - window_seconds`. -/
def Call.cutoff (call : Call) : PyFloat :=
  .sub (.finite call.now.seconds) (.nearest call.window.seconds)

/-- What the key of a call holds when it is counted. -/
def Call.counted (call : Call) (redis : Redis) : Option (SortedSet Member ℚ) :=
  let held := present call.arrival (redis.keys call.key)
  let recent := zremrangebyscore (fun score => decide (0 ≤ score) && call.cutoff.atLeast score) held
  zadd ⟨call.now.seconds, redis.uuid⟩ call.now.seconds recent

/-- `_allow`. -/
def allow (redis : Redis) (call : Call) : Bool × Redis :=
  let counted := call.counted redis
  (decide ((zcard counted : Int) ≤ call.limit),
    { keys := Function.update redis.keys call.key
        (expire call.arrival call.window.seconds counted)
      uuid := redis.uuid + 1 })

/-- The readings of the calls of a key with their answers, when calls happen one after the other. -/
def history (key : String) : Redis → List Call → List (ℚ × Bool)
  | _, [] => []
  | redis, call :: later =>
      let (admits, after) := allow redis call
      if call.key = key then (call.now.seconds, admits) :: history key after later
      else history key after later

def Redis.empty : Redis := ⟨fun _ => none, 0⟩

/-- When a call reads its clock, and when it arrives. -/
def Call.trip (call : Call) : ℚ × Instant := (call.now.seconds, call.arrival)

/-- The key which a call left behind is still there at the next call, if that call has it within its
window. -/
def InTime (window : Window) (earlier later : ℚ × Instant) : Prop :=
  later.1 - window.seconds < earlier.1 →
    (later.2 : Int) ≤ earlier.2 + 1000 * window.seconds

instance (window : Window) (earlier later : ℚ × Instant) :
    Decidable (InTime window earlier later) :=
  inferInstanceAs (Decidable (_ → _))

/-! ## The window of a call -/

theorem Call.cutoff_atLeast (call : Call) (positive : 0 < call.window.seconds) {score : ℚ}
    (nonneg : 0 ≤ score) :
    call.cutoff.atLeast score = decide (score ≤ call.now.seconds - call.window.seconds) := by
  have fits := call.window.fits
  have window : PyFloat.nearest call.window.seconds = .finite call.window.seconds :=
    PyFloat.isFloat_intCast (by omega)
  have bounded : call.now.seconds < 2 ^ (52 : Int) :=
    call.now.below.trans (by norm_num)
  rw [Call.cutoff, window, PyFloat.sub, PyFloat.neg, PyFloat.add, ← sub_eq_add_neg]
  exact PyFloat.atLeast_sub_intCast call.now.float call.now.nonneg bounded positive nonneg

/-- The sorted set of a key whose calls all have one window keeps, for any later call which is in
time behind the last one, the events which count. -/
structure Holds (window : Window) (key : String) (redis : Redis) (past : List (ℚ × Bool))
    (last : Option (ℚ × Instant)) : Prop where
  fresh : ∀ entry ∈ entriesOf (redis.keys key), entry.1.uuid < redis.uuid
  nonneg : ∀ entry ∈ entriesOf (redis.keys key), 0 ≤ entry.2
  gone : window.seconds ≤ 0 → redis.keys key = none
  /-- The set goes with the time to live which the last call gave it. -/
  expires : ∀ arrival : Instant,
    (∀ trip ∈ last, trip.2 + 1000 * window.seconds < (arrival : Int)) →
      present arrival (redis.keys key) = none
  kept : ∀ (now : ℚ) (arrival : Instant), (∀ event ∈ past, event.1 ≤ now) →
    (∀ trip ∈ last, InTime window trip (now, arrival)) →
      ((entriesOf (present arrival (redis.keys key))).map (·.2)).filter
          (fun score => decide (now - window.seconds < score)) =
        (past.map (·.1)).filter fun time => decide (now - window.seconds < time)

section Counting

variable {window : Window} {key : String} {redis : Redis} {past : List (ℚ × Bool)}
  {last : Option (ℚ × Instant)} {call : Call}

theorem mem_present {entry : Member × ℚ} {time : Int} {value : Option (SortedSet Member ℚ)}
    (listed : entry ∈ entriesOf (present time value)) : entry ∈ entriesOf value := by
  cases value with
  | none => exact listed
  | some set =>
      rw [present, Option.filter_some] at listed
      split at listed
      · exact listed
      · exact absurd listed List.not_mem_nil

theorem Holds.recent_entries (holds : Holds window key redis past last) (own : call.key = key)
    (same : call.window = window) (ordered : ∀ event ∈ past, event.1 ≤ call.now.seconds)
    (inTime : ∀ trip ∈ last, InTime window trip call.trip) :
    (entriesOf (zremrangebyscore
        (fun score => decide (0 ≤ score) && call.cutoff.atLeast score)
        (present call.arrival (redis.keys call.key)))).map (·.2) =
      (past.map (·.1)).filter fun time => decide (call.now.seconds - window.seconds < time) := by
  subst own same
  rw [entriesOf_zremrangebyscore, ← holds.kept call.now.seconds call.arrival ordered inTime]
  obtain nonpos | positive := le_or_gt call.window.seconds 0
  · rw [holds.gone nonpos]
    rfl
  · rw [List.filter_map]
    congr 1
    apply List.filter_congr
    intro entry listed
    have nonneg := holds.nonneg entry (mem_present listed)
    rw [call.cutoff_atLeast positive nonneg, decide_eq_true nonneg, Bool.true_and,
      Function.comp_apply, ← decide_not, decide_eq_decide, not_le]

theorem Holds.counted_entries (holds : Holds window key redis past last) (own : call.key = key)
    (same : call.window = window) (ordered : ∀ event ∈ past, event.1 ≤ call.now.seconds)
    (inTime : ∀ trip ∈ last, InTime window trip call.trip) :
    (entriesOf (call.counted redis)).map (·.2) =
        ((past.map (·.1)).filter fun time => decide (call.now.seconds - window.seconds < time)) ++
          [call.now.seconds] ∧
      ∀ entry ∈ entriesOf (call.counted redis), entry.1.uuid ≤ redis.uuid ∧ 0 ≤ entry.2 := by
  have earlier : ∀ entry ∈ entriesOf (zremrangebyscore
      (fun score => decide (0 ≤ score) && call.cutoff.atLeast score)
      (present call.arrival (redis.keys call.key))),
      entry.1.uuid < redis.uuid ∧ 0 ≤ entry.2 := by
    intro entry listed
    rw [entriesOf_zremrangebyscore] at listed
    have held := mem_present (List.mem_filter.mp listed).1
    rw [own] at held
    exact ⟨holds.fresh entry held, holds.nonneg entry held⟩
  have fresh : ∀ entry ∈ entriesOf (zremrangebyscore
      (fun score => decide (0 ≤ score) && call.cutoff.atLeast score)
      (present call.arrival (redis.keys call.key))),
      entry.1 ≠ ⟨call.now.seconds, redis.uuid⟩ := by
    intro entry listed is
    have below := (earlier entry listed).1
    rw [is] at below
    exact absurd below (lt_irrefl _)
  have added := entriesOf_zadd fresh call.now.seconds
  constructor
  · rw [Call.counted, added, List.map_append, holds.recent_entries own same ordered inTime]
    rfl
  · intro entry listed
    rw [Call.counted, added] at listed
    obtain held | last := List.mem_append.mp listed
    · exact ⟨(earlier entry held).1.le, (earlier entry held).2⟩
    · rw [List.mem_singleton.mp last]
      exact ⟨le_rfl, call.now.nonneg⟩

theorem Holds.answer (holds : Holds window key redis past last) (own : call.key = key)
    (same : call.window = window) (ordered : ∀ event ∈ past, event.1 ≤ call.now.seconds)
    (inTime : ∀ trip ∈ last, InTime window trip call.trip) :
    (allow redis call).1 =
      decide ((recent (window.seconds : ℚ) past call.now.seconds).length + 1 ≤ call.limit) := by
  have count := congrArg List.length (holds.counted_entries own same ordered inTime).1
  rw [List.length_map, List.filter_map, List.length_append, List.length_map] at count
  rw [allow, zcard, count, decide_eq_decide]
  push_cast
  rfl

theorem filter_recent {times : List ℚ} {earlier later width : ℚ} (ordered : earlier ≤ later) :
    (times.filter fun time => decide (earlier - width < time)).filter
        (fun time => decide (later - width < time)) =
      times.filter fun time => decide (later - width < time) := by
  rw [List.filter_filter]
  apply List.filter_congr
  intro time _
  rw [← Bool.decide_and, decide_eq_decide]
  exact and_iff_left_of_imp fun recent => by linarith

theorem Holds.step (holds : Holds window key redis past last) (own : call.key = key)
    (same : call.window = window) (ordered : ∀ event ∈ past, event.1 ≤ call.now.seconds)
    (inTime : ∀ trip ∈ last, InTime window trip call.trip) (answer : Bool) :
    Holds window key (allow redis call).2 (past ++ [(call.now.seconds, answer)])
      (some call.trip) := by
  obtain ⟨times, bounded⟩ := holds.counted_entries own same ordered inTime
  subst own same
  have after : (allow redis call).2.keys call.key =
      expire call.arrival call.window.seconds (call.counted redis) :=
    Function.update_self ..
  have uuid : (allow redis call).2.uuid = redis.uuid + 1 := rfl
  have listed_before : ∀ entry ∈ entriesOf ((allow redis call).2.keys call.key),
      entry ∈ entriesOf (call.counted redis) := by
    intro entry listed
    rw [after, expire] at listed
    split at listed
    · exact absurd listed List.not_mem_nil
    · exact listed
  constructor
  · intro entry listed
    rw [uuid]
    exact Nat.lt_succ_of_le (bounded entry (listed_before entry listed)).1
  · exact fun entry listed => (bounded entry (listed_before entry listed)).2
  · intro nonpos
    rw [after, expire_of_nonpos nonpos]
  · intro arrival late
    rw [after]
    obtain nonpos | positive := le_or_gt call.window.seconds 0
    · rw [expire_of_nonpos nonpos]
      rfl
    · exact present_expire positive (late call.trip rfl)
  · intro now arrival later punctual
    have now_later : call.now.seconds ≤ now :=
      later (call.now.seconds, answer) (List.mem_append_right _ (List.mem_singleton.mpr rfl))
    have past_earlier : ∀ time ∈ past.map (·.1) ++ [call.now.seconds],
        time ≤ call.now.seconds := by
      intro time listed
      obtain earlier | last := List.mem_append.mp listed
      · obtain ⟨event, event_listed, rfl⟩ := List.mem_map.mp earlier
        exact ordered event event_listed
      · exact (List.mem_singleton.mp last).le
    have none_recent (passed : call.now.seconds ≤ now - call.window.seconds) :
        (past.map (·.1) ++ [call.now.seconds]).filter
          (fun time => decide (now - call.window.seconds < time)) = [] := by
      rw [List.filter_eq_nil_iff]
      intro time listed
      rw [decide_eq_true_eq, not_lt]
      exact (past_earlier time listed).trans passed
    rw [List.map_append, List.map_singleton, after]
    obtain nonpos | positive := le_or_gt call.window.seconds 0
    · have nonpos_cast : (call.window.seconds : ℚ) ≤ 0 := by exact_mod_cast nonpos
      rw [expire_of_nonpos nonpos, none_recent (by linarith)]
      rfl
    · rw [entriesOf_present_expire positive]
      split
      next alive =>
        rw [times, List.filter_append, filter_recent now_later, List.filter_append]
      next expired =>
        rw [none_recent (not_lt.mp fun recent => expired (punctual call.trip rfl recent))]
        rfl

theorem Holds.frame (holds : Holds window key redis past last) (other : call.key ≠ key) :
    Holds window key (allow redis call).2 past last := by
  have same : (allow redis call).2.keys key = redis.keys key :=
    Function.update_of_ne other.symm ..
  obtain ⟨fresh, nonneg, gone, expires, kept⟩ := holds
  constructor
  · rw [same]
    exact fun entry listed => Nat.lt_succ_of_lt (fresh entry listed)
  · rwa [same]
  · rwa [same]
  · rwa [same]
  · rwa [same]

theorem Holds.empty (window : Window) (key : String) : Holds window key .empty [] none :=
  ⟨List.forall_mem_nil _, List.forall_mem_nil _, fun _ => rfl, fun _ _ => rfl, fun _ _ _ _ => rfl⟩

theorem Holds.restart (holds : Holds window key redis past last) (own : call.key = key)
    (same : call.window = window) (late : ¬ ∀ trip ∈ last, InTime window trip call.trip) :
    ∃ emptied, allow redis call = allow emptied call ∧ Holds window key emptied [] none := by
  subst own same
  refine ⟨⟨Function.update redis.keys call.key none, redis.uuid⟩, ?_, ?_⟩
  · have absent : present call.arrival (redis.keys call.key) = none := by
      refine holds.expires call.arrival fun trip is_last => ?_
      by_contra alive
      refine late fun other is_other => ?_
      rw [Option.mem_unique is_other is_last]
      exact fun _ => not_lt.mp alive
    have counted : call.counted ⟨Function.update redis.keys call.key none, redis.uuid⟩ =
        call.counted redis := by
      simp only [Call.counted, Function.update_self, absent]
      rfl
    rw [allow, allow, counted]
    simp only [Function.update_idem]
  · constructor <;> simp [present]

theorem Holds.counting (holds : Holds window key redis past last) (own : call.key = key)
    (same : call.window = window) :
    ∃ counting counted latest, allow redis call = allow counting call ∧
      Holds window key counting counted latest ∧ counted.Sublist past ∧
      ∀ trip ∈ latest, InTime window trip call.trip := by
  by_cases inTime : ∀ trip ∈ last, InTime window trip call.trip
  · exact ⟨redis, past, last, rfl, holds, .refl _, inTime⟩
  · obtain ⟨emptied, answered, fresh⟩ := holds.restart own same inTime
    exact ⟨emptied, [], none, answered, fresh, List.nil_sublist _, nofun⟩

end Counting

/-! ## Sequences of calls -/

section Sequences

variable {key : String} {limit : Int} {window : Window} {redis : Redis} {past : List (ℚ × Bool)}
  {last : Option (ℚ × Instant)} {calls : List Call}

def trips (key : String) (calls : List Call) : List (ℚ × Instant) :=
  (calls.filter fun call => decide (call.key = key)).map Call.trip

/-- Calls in the order of their readings, each in time behind the one before it, are decided by the
events within their windows. -/
theorem history_decided (decided : Decided limit (window.seconds : ℚ) past)
    (holds : Holds window key redis past last)
    (ordered : calls.Pairwise fun earlier later => earlier.now.seconds ≤ later.now.seconds)
    (behind : ∀ event ∈ past, ∀ call ∈ calls, event.1 ≤ call.now.seconds)
    (own : ∀ call ∈ calls, call.key = key → call.limit = limit ∧ call.window = window)
    (inTime : (last.toList ++ trips key calls).IsChain (InTime window)) :
    Decided limit (window.seconds : ℚ) (past ++ history key redis calls) := by
  induction calls generalizing redis past last with
  | nil =>
      rw [history, List.append_nil]
      exact decided
  | cons call later induction =>
      obtain ⟨first, rest⟩ := List.pairwise_cons.mp ordered
      have own_later := fun other listed => own other (List.mem_cons_of_mem _ listed)
      have before := fun event listed => behind event listed call List.mem_cons_self
      have behind_later := fun event listed other member =>
        behind event listed other (List.mem_cons_of_mem _ member)
      rw [history]
      dsimp only
      split
      next is_own =>
        obtain ⟨limit_eq, window_eq⟩ := own call List.mem_cons_self is_own
        have split : trips key (call :: later) = call.trip :: trips key later := by
          simp [trips, is_own]
        rw [split] at inTime
        obtain ⟨-, following, joined⟩ := List.isChain_append.mp inTime
        have now : ∀ trip ∈ last, InTime window trip call.trip := by
          intro trip is_last
          subst is_last
          exact joined trip rfl call.trip rfl
        rw [List.append_cons]
        refine induction ?_ (holds.step is_own window_eq before now _) rest ?_ own_later following
        · rw [holds.answer is_own window_eq before now, limit_eq]
          exact decided.snoc call.now.seconds
        · intro event listed other member
          obtain earlier | last := List.mem_append.mp listed
          · exact behind_later event earlier other member
          · rw [List.mem_singleton.mp last]
            exact first other member
      next is_other =>
        have split : trips key (call :: later) = trips key later := by simp [trips, is_other]
        rw [split] at inTime
        exact induction decided (holds.frame is_other) rest behind_later own_later inTime

theorem history_serves {known : List (ℚ × Bool)} (serves : Serves limit (window.seconds : ℚ) past)
    (some_of : known.Sublist past) (holds : Holds window key redis known last)
    (ordered : calls.Pairwise fun earlier later => earlier.now.seconds ≤ later.now.seconds)
    (behind : ∀ event ∈ past, ∀ call ∈ calls, event.1 ≤ call.now.seconds)
    (own : ∀ call ∈ calls, call.key = key → call.limit = limit ∧ call.window = window) :
    Serves limit (window.seconds : ℚ) (past ++ history key redis calls) := by
  induction calls generalizing redis past known last with
  | nil =>
      rw [history, List.append_nil]
      exact serves
  | cons call later induction =>
      obtain ⟨first, rest⟩ := List.pairwise_cons.mp ordered
      have own_later := fun other listed => own other (List.mem_cons_of_mem _ listed)
      have behind_later := fun event listed other member =>
        behind event listed other (List.mem_cons_of_mem _ member)
      rw [history]
      dsimp only
      split
      next is_own =>
        obtain ⟨limit_eq, window_eq⟩ := own call List.mem_cons_self is_own
        obtain ⟨counting, counted, latest, same, holds, fewer, inTime⟩ :=
          holds.counting is_own window_eq
        have before : ∀ event ∈ counted, event.1 ≤ call.now.seconds := fun event listed =>
          behind event ((fewer.trans some_of).mem listed) call List.mem_cons_self
        rw [same, List.append_cons]
        refine induction ?_ ((fewer.trans some_of).append_right _)
          (holds.step is_own window_eq before inTime _) rest ?_ own_later
        · refine serves.snoc fun few => ?_
          have counted_few := ((fewer.trans some_of).filter fun event =>
            decide (call.now.seconds - window.seconds < event.1)).length_le
          rw [holds.answer is_own window_eq before inTime, limit_eq, decide_eq_true_eq]
          rw [recent] at few ⊢
          omega
        · intro event listed other member
          obtain earlier | last := List.mem_append.mp listed
          · exact behind_later event earlier other member
          · rw [List.mem_singleton.mp last]
            exact first other member
      next is_other =>
        exact induction serves some_of (holds.frame is_other) rest behind_later own_later

end Sequences

theorem allow_serves (calls : List Call) (key : String) (limit : Int) (window : Window)
    (ordered : calls.Pairwise fun earlier later => earlier.now.seconds ≤ later.now.seconds)
    (own : ∀ call ∈ calls, call.key = key → call.limit = limit ∧ call.window = window) :
    Serves limit (window.seconds : ℚ) (history key .empty calls) := by
  have serves := history_serves .nil (.refl _) (.empty window key) ordered
    (List.forall_mem_nil _) own
  rwa [List.nil_append] at serves

/-- The calls of a key, among calls of any keys whose readings never decrease, are limited within
every window if each finds what the calls within its window left behind. -/
theorem allow_limits (calls : List Call) (key : String) (limit : Int) (window : Window)
    (ordered : calls.Pairwise fun earlier later => earlier.now.seconds ≤ later.now.seconds)
    (own : ∀ call ∈ calls, call.key = key → call.limit = limit ∧ call.window = window)
    (inTime : (trips key calls).IsChain (InTime window)) :
    Limits limit (window.seconds : ℚ) (history key .empty calls) := by
  have decided := history_decided .nil (.empty window key) ordered (List.forall_mem_nil _) own
    inTime
  rw [List.nil_append] at decided
  exact decided.limits

namespace Sample

/-- The clock shows a whole number of seconds. -/
def reading (seconds : Nat) (below : seconds < 2 ^ 34) : Reading where
  seconds := ((seconds : Int) : ℚ)
  float := PyFloat.isFloat_intCast (by omega)
  nonneg := by positivity
  below := by exact_mod_cast below

def minute : Window := ⟨60, by decide⟩

/-- A call of a user who may call twice a minute. -/
def userCall (seconds : Nat) (below : seconds < 2 ^ 34) : Call :=
  ⟨"rl:user:1", 2, minute, reading seconds below, ⟨1000 * seconds, by omega⟩⟩

def calls : List Call :=
  [userCall 100 (by decide), userCall 110 (by decide), userCall 120 (by decide),
    userCall 160 (by decide), userCall 220 (by decide)]

/-- The refused call counts, and a minute after the last call but one there is room again. -/
theorem calls_limited :
    history "rl:user:1" .empty calls =
        [(100, true), (110, true), (120, false), (160, false), (220, true)] ∧
      Limits 2 ((60 : Int) : ℚ) (history "rl:user:1" .empty calls) :=
  ⟨by decide +kernel, allow_limits calls "rl:user:1" 2 minute (by decide +kernel)
    (by simp [calls, userCall]) (by decide +kernel)⟩

/-- Calls of a user who may call once a minute, the second of which is on its way for a second. -/
def hastyCalls : List Call :=
  [⟨"rl:user:1", 1, minute, reading 100 (by decide), 100000⟩,
    ⟨"rl:user:1", 1, minute, reading 159 (by decide), 160001⟩]

/-- Both calls are admitted, 59 seconds apart. -/
theorem late_arrival_admitted :
    ¬ ∀ (calls : List Call) (key : String) (limit : Int) (window : Window),
      (calls.Pairwise fun earlier later => earlier.now.seconds ≤ later.now.seconds) →
      (∀ call ∈ calls, call.key = key → call.limit = limit ∧ call.window = window) →
      Limits limit (window.seconds : ℚ) (history key .empty calls) := by
  intro limits
  have kept := limits hastyCalls "rl:user:1" 1 minute (by decide +kernel) (by simp [hastyCalls])
  have two : (admitted (fun time => decide ((100 : ℚ) ≤ time ∧ time < 100 + minute.seconds))
      (history "rl:user:1" .empty hastyCalls)).length = 2 := by
    decide +kernel
  exact absurd (two ▸ kept.closed_open 100) (by decide)

end Sample

end Hermes.Gateway
