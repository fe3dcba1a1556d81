import Mathlib.Logic.Function.Basic

/-!
# Locks which expire

A key names the owner of a lock up to a last moment.  Whoever takes it, or extends it, holds it for
a fixed time from then on, whatever others ask for meanwhile; so no two owners hold it at once.
-/

namespace Hermes.TimedLock

/-- A key with the last moment at which it is there. -/
structure Held (ω : Type*) where
  owner : ω
  last : Nat
  deriving DecidableEq, Repr

variable {ω : Type*}

/-- `GET`: a key is gone behind its last moment. -/
def get (now : Nat) (key : Option (Held ω)) : Option ω :=
  (key.filter fun held => decide (now ≤ held.last)).map (·.owner)

/-- `SET … NX PX`: whether the key was set, and the key behind it. -/
def setNx (now ttl : Nat) (owner : ω) (key : Option (Held ω)) : Bool × Option (Held ω) :=
  match get now key with
  | none => (true, some ⟨owner, now + ttl⟩)
  | some _ => (false, key)

/-- `PEXPIRE`. -/
def pexpire (now ttl : Nat) (key : Option (Held ω)) : Option (Held ω) :=
  (get now key).map fun owner => ⟨owner, now + ttl⟩

section Tenure

variable {now ttl : Nat} {key after : Option (Held ω)} {since : ω → Option Nat} {owner other : ω}

theorem get_some {held : Held ω} : get now (some held) = some owner ↔
    now ≤ held.last ∧ held.owner = owner := by
  simp [get, Option.filter_some]

def Holds (now ttl : Nat) (since : ω → Option Nat) (owner : ω) : Prop :=
  ∃ taken, since owner = some taken ∧ now ≤ taken + ttl

/-- Whoever holds the lock is named by the key, to the end of the time. -/
def Tenures (now ttl : Nat) (since : ω → Option Nat) (key : Option (Held ω)) : Prop :=
  ∀ owner taken, since owner = some taken → now ≤ taken + ttl → key = some ⟨owner, taken + ttl⟩

theorem Tenures.none : Tenures now ttl (fun _ => none) key := nofun

theorem Tenures.pass {later : Nat} (tenures : Tenures now ttl since key) (passed : now ≤ later) :
    Tenures later ttl since key :=
  fun owner taken held within => tenures owner taken held (Nat.le_trans passed within)

theorem Tenures.get_of_holds (tenures : Tenures now ttl since key)
    (holds : Holds now ttl since owner) : get now key = some owner := by
  obtain ⟨taken, held, within⟩ := holds
  rw [tenures owner taken held within, get_some]
  exact ⟨within, rfl⟩

theorem Tenures.exclusive (tenures : Tenures now ttl since key) (first : Holds now ttl since owner)
    (second : Holds now ttl since other) : owner = other := by
  have named := tenures.get_of_holds first
  rw [tenures.get_of_holds second] at named
  exact (Option.some.inj named).symm

variable [DecidableEq ω]

theorem Tenures.enter (tenures : Tenures now ttl since key)
    (free : ∀ other, get now key = some other → other = owner) :
    Tenures now ttl (Function.update since owner (some now)) (some ⟨owner, now + ttl⟩) := by
  intro other taken held within
  by_cases same : other = owner
  · subst same
    rw [Function.update_self, Option.some.injEq] at held
    rw [held]
  · rw [Function.update_of_ne same] at held
    exact absurd (free other (tenures.get_of_holds ⟨taken, held, within⟩)) same

/-- An owner which is not the named one may go, and one which is may clear the key. -/
theorem Tenures.leave (tenures : Tenures now ttl since key)
    (cleared : after = key ∨ get now key = some owner) :
    Tenures now ttl (Function.update since owner Option.none) after := by
  intro other taken held within
  by_cases same : other = owner
  · subst same
    rw [Function.update_self] at held
    cases held
  · rw [Function.update_of_ne same] at held
    rcases cleared with rfl | named
    · exact tenures other taken held within
    · rw [tenures.get_of_holds ⟨taken, held, within⟩, Option.some.injEq] at named
      exact absurd named same

end Tenure

end Hermes.TimedLock
