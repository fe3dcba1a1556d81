import Mathlib.Data.List.Basic

/-!
# Sorted sets with a time to live

A key holds a set of members with scores, or nothing; it is gone once its time has passed.  The
commands act on what a key holds at one moment, counted in milliseconds.
-/

namespace Hermes

structure SortedSet (μ σ : Type*) where
  entries : List (μ × σ)
  expiresAt : Option Int := none

namespace SortedSet

variable {μ σ : Type*}

def present (time : Int) (value : Option (SortedSet μ σ)) : Option (SortedSet μ σ) :=
  value.filter fun set => set.expiresAt.all fun last => decide (time ≤ last)

/-- `ZREMRANGEBYSCORE`: a key without members is gone. -/
def zremrangebyscore (range : σ → Bool) (value : Option (SortedSet μ σ)) :
    Option (SortedSet μ σ) :=
  (value.map fun set =>
    { set with entries := set.entries.filter fun entry => !range entry.2 }).filter fun set =>
      !set.entries.isEmpty

def entriesOf (value : Option (SortedSet μ σ)) : List (μ × σ) := (value.map (·.entries)).getD []

/-- `ZADD`: the score of a member which is there already is replaced. -/
def zadd [DecidableEq μ] (member : μ) (score : σ) (value : Option (SortedSet μ σ)) :
    Option (SortedSet μ σ) :=
  some
    { entries := ((entriesOf value).filter fun entry => entry.1 != member) ++ [(member, score)]
      expiresAt := value.bind (·.expiresAt) }

/-- `ZCARD`. -/
def zcard (value : Option (SortedSet μ σ)) : Nat := (entriesOf value).length

/-- `EXPIRE`: a time to live which is not positive deletes the key. -/
def expire (time seconds : Int) (value : Option (SortedSet μ σ)) : Option (SortedSet μ σ) :=
  if seconds ≤ 0 then none
  else value.map fun set => { set with expiresAt := some (time + 1000 * seconds) }

section Commands

variable {value : Option (SortedSet μ σ)} {time : Int}

@[simp] theorem entriesOf_none : entriesOf (none : Option (SortedSet μ σ)) = [] := rfl

@[simp] theorem entriesOf_some (set : SortedSet μ σ) : entriesOf (some set) = set.entries := rfl

theorem entriesOf_zremrangebyscore (range : σ → Bool) (value : Option (SortedSet μ σ)) :
    entriesOf (zremrangebyscore range value) =
      (entriesOf value).filter fun entry => !range entry.2 := by
  cases value with
  | none => rfl
  | some set =>
      rw [zremrangebyscore, Option.map_some, Option.filter_some]
      split
      · rfl
      next empty =>
        rw [Bool.not_eq_true', Bool.not_eq_false, List.isEmpty_iff] at empty
        exact empty.symm

theorem entriesOf_zadd [DecidableEq μ] {member : μ}
    (fresh : ∀ entry ∈ entriesOf value, entry.1 ≠ member)
    (score : σ) : entriesOf (zadd member score value) =
      entriesOf value ++ [(member, score)] := by
  rw [zadd, entriesOf_some, List.filter_eq_self.mpr]
  exact fun entry listed => bne_iff_ne.mpr (fresh entry listed)

/-- A key with a time to live is there up to the end of it. -/
theorem entriesOf_present_expire {seconds : Int} (positive : 0 < seconds)
    (value : Option (SortedSet μ σ)) (later : Int) :
    entriesOf (present later (expire time seconds value)) =
      if later ≤ time + 1000 * seconds then entriesOf value else [] := by
  rw [expire, if_neg (Int.not_le.mpr positive)]
  cases value with
  | none => simp [present]
  | some set =>
      rw [Option.map_some, present, Option.filter_some, Option.all_some]
      simp only [decide_eq_true_eq]
      split <;> rfl

theorem present_expire {seconds later : Int} (positive : 0 < seconds)
    (passed : time + 1000 * seconds < later) :
    present later (expire time seconds value) = none := by
  rw [expire, if_neg (Int.not_le.mpr positive)]
  cases value with
  | none => rfl
  | some set =>
      rw [Option.map_some, present, Option.filter_some, Option.all_some]
      simp [Int.not_le.mpr passed]

theorem expire_of_nonpos {seconds : Int} (nonpos : seconds ≤ 0) (value : Option (SortedSet μ σ)) :
    expire time seconds value = none := if_pos nonpos

end Commands

end SortedSet

end Hermes
