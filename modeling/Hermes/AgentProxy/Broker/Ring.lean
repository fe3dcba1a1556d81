import Mathlib.Data.List.Infix
import Hermes.AgentProxy.Broker.Classify
import Hermes.Library.Positions

/-!
# The keys of a run in Redis

The publish script counts, appends and trims in one step.  The keys expire on clocks of their own
and may be evicted one by one, so each of them may be missing at any moment.
-/

namespace Hermes.AgentProxy.Broker

/-- The ceilings of the ring, and the length of the element the script writes for an event. -/
structure RingLimits where
  maxEvents : Int
  maxBytes : Int
  elementSize : RingEvent → Nat

/-- The keys of one run; a missing list is an empty one. -/
structure RunKeys where
  epoch : Option String := none
  seq : Option Nat := none
  events : List RingEvent := []
  bytes : Option Int := none

namespace RunKeys

variable (limits : RingLimits)

/-- Drop elements from the head while there are more than the ceiling. -/
def trimEvents : List RingEvent → Int → List RingEvent × Int
  | [], total => ([], total)
  | event :: ring, total =>
      if limits.maxEvents < (event :: ring).length then
        trimEvents ring (total - limits.elementSize event)
      else (event :: ring, total)

/-- Drop elements from the head while they are too many bytes, but not the newest one. -/
def trimBytes : List RingEvent → Int → List RingEvent × Int
  | [], total => ([], total)
  | [event], total => ([event], total)
  | event :: next :: ring, total =>
      if limits.maxBytes < total then
        trimBytes (next :: ring) (total - limits.elementSize event)
      else (event :: next :: ring, total)

/-- The publish script: the event under its number, and the keys afterwards. -/
def publish (keys : RunKeys) (epoch : String) (data : Bytes) : RingEvent × RunKeys :=
  let seq := keys.seq.getD 0 + 1
  let event : RingEvent := ⟨epoch, seq, data⟩
  let counted := trimEvents limits (keys.events ++ [event])
    (keys.bytes.getD 0 + limits.elementSize event)
  let weighed := trimBytes limits counted.1 counted.2
  (event, { keys with seq := some seq, events := weighed.1, bytes := some weighed.2 })

/-- `SET key fresh NX`. -/
def setEpoch (keys : RunKeys) (fresh : String) : RunKeys :=
  match keys.epoch with
  | some _ => keys
  | none => { keys with epoch := some fresh }

structure Expired where
  epoch : Bool := false
  seq : Bool := false
  events : Bool := false
  bytes : Bool := false
  deriving DecidableEq, Repr

def expire (keys : RunKeys) (expired : Expired) : RunKeys where
  epoch := if expired.epoch then none else keys.epoch
  seq := if expired.seq then none else keys.seq
  events := if expired.events then [] else keys.events
  bytes := if expired.bytes then none else keys.bytes

theorem trimEvents_suffix (ring : List RingEvent) (total : Int) :
    (trimEvents limits ring total).1 <:+ ring := by
  induction ring generalizing total with
  | nil => exact List.suffix_rfl
  | cons event ring induction =>
      rw [trimEvents]
      split
      · exact (induction _).trans (List.suffix_cons event ring)
      · exact List.suffix_rfl

theorem trimBytes_suffix (ring : List RingEvent) (total : Int) :
    (trimBytes limits ring total).1 <:+ ring := by
  induction ring generalizing total with
  | nil => exact List.suffix_rfl
  | cons event ring induction =>
      cases ring with
      | nil => exact List.suffix_rfl
      | cons next ring =>
          rw [trimBytes]
          split
          · exact (induction _).trans (List.suffix_cons event _)
          · exact List.suffix_rfl

/-- A publish appends one event and drops some from the head. -/
theorem publish_events (keys : RunKeys) (epoch : String) (data : Bytes) :
    (keys.publish limits epoch data).2.events <:+
      keys.events ++ [(keys.publish limits epoch data).1] :=
  (trimBytes_suffix limits _ _).trans (trimEvents_suffix limits _ _)

theorem setEpoch_seq (keys : RunKeys) (fresh : String) : (keys.setEpoch fresh).seq = keys.seq := by
  rw [setEpoch]
  split <;> rfl

theorem setEpoch_events (keys : RunKeys) (fresh : String) :
    (keys.setEpoch fresh).events = keys.events := by
  rw [setEpoch]
  split <;> rfl

end RunKeys

end Hermes.AgentProxy.Broker
