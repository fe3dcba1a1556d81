import Hermes.Library.JsonDecoder
import Mathlib.Algebra.Order.Archimedean.Basic
import Mathlib.Algebra.Order.Field.Power
import Mathlib.Tactic.Linarith
import Mathlib.Tactic.Ring

/-!
# Arithmetic of binary64 floats

The operations round the exact result to the nearest float; what is too large becomes infinite, and
an undefined result is no number.  The sign of a zero is not kept.
-/

namespace Hermes.PyFloat

open JsonDecoder

def nearest (value : ℚ) : PyFloat := nearestFloat (decide (value < 0)) |value|

def signed (negative : Bool) (value : ℚ) : PyFloat :=
  if value = 0 then .nan else .infinite (negative != decide (value < 0))

def mul : PyFloat → PyFloat → PyFloat
  | .nan, _ | _, .nan => .nan
  | .finite left, .finite right => nearest (left * right)
  | .infinite negative, .finite value | .finite value, .infinite negative => signed negative value
  | .infinite left, .infinite right => .infinite (left != right)

def add : PyFloat → PyFloat → PyFloat
  | .nan, _ | _, .nan => .nan
  | .finite left, .finite right => nearest (left + right)
  | .infinite negative, .finite _ | .finite _, .infinite negative => .infinite negative
  | .infinite left, .infinite right => if left = right then .infinite left else .nan

def divBy (divisor : ℚ) : PyFloat → PyFloat
  | .finite value => nearest (value / divisor)
  | value => value

/-- `float` of an integer; none stands for the `OverflowError` of one which is too large. -/
def ofInt (value : Int) : Option ℚ :=
  match nearest value with
  | .finite rounded => some rounded
  | _ => none

/-- The least number which is rounded beyond the floats, as a power of two less half a unit. -/
def overflowBound : Int := 2 ^ 1024 - 2 ^ 970

/-- The exponent of the last place of a float. -/
def lastPlace (value : ℚ) : Int := max (-1074) (Int.log 2 value - 52)

/-- The places of a float which is nearest to a number. -/
def places (value : ℚ) : Int := roundHalfEven (value / 2 ^ lastPlace value)

section Rounding

variable {value : ℚ} {bound : Int}

/-- A number is rounded down or up, and to the even neighbour from the middle. -/
theorem roundHalfEven_cases (value : ℚ) :
    roundHalfEven value = ⌊value⌋ ∧
        (value < ⌊value⌋ + 1 / 2 ∨ value = ⌊value⌋ + 1 / 2 ∧ ⌊value⌋ % 2 = 0) ∨
      roundHalfEven value = ⌊value⌋ + 1 ∧
        (⌊value⌋ + 1 / 2 < value ∨ value = ⌊value⌋ + 1 / 2 ∧ ⌊value⌋ % 2 ≠ 0) := by
  have unfolded : roundHalfEven value =
      if value - ⌊value⌋ < 1 / 2 then ⌊value⌋
      else if 1 / 2 < value - ⌊value⌋ then ⌊value⌋ + 1
      else if ⌊value⌋ % 2 = 0 then ⌊value⌋ else ⌊value⌋ + 1 := rfl
  rw [unfolded]
  split
  next below => exact .inl ⟨rfl, .inl (by linarith)⟩
  next not_below =>
    split
    next above => exact .inr ⟨rfl, .inl (by linarith)⟩
    next not_above =>
      have middle : value = ⌊value⌋ + 1 / 2 := by linarith
      split
      next even => exact .inl ⟨rfl, .inr ⟨middle, even⟩⟩
      next odd => exact .inr ⟨rfl, .inr ⟨middle, odd⟩⟩

theorem roundHalfEven_mono {low high : ℚ} (le : low ≤ high) :
    roundHalfEven low ≤ roundHalfEven high := by
  have floor_le : ⌊low⌋ ≤ ⌊high⌋ := Int.floor_le_floor le
  rcases floor_le.eq_or_lt with same | lower
  · obtain ⟨down, -⟩ | ⟨up, above⟩ := roundHalfEven_cases low <;>
      obtain ⟨high_down, below⟩ | ⟨high_up, -⟩ := roundHalfEven_cases high
    · omega
    · omega
    · exfalso
      have same_cast : (⌊low⌋ : ℚ) = ⌊high⌋ := by exact_mod_cast same
      obtain above | ⟨above, odd⟩ := above <;> obtain below | ⟨below, even⟩ := below
      · linarith
      · linarith
      · linarith
      · exact odd (same ▸ even)
    · omega
  · obtain ⟨rounded, -⟩ | ⟨rounded, -⟩ := roundHalfEven_cases low <;>
      obtain ⟨high_rounded, -⟩ | ⟨high_rounded, -⟩ := roundHalfEven_cases high <;> omega

theorem le_roundHalfEven (below : bound ≤ value) : bound ≤ roundHalfEven value := by
  have floor : bound ≤ ⌊value⌋ := Int.le_floor.mpr below
  obtain ⟨rounded, -⟩ | ⟨rounded, -⟩ := roundHalfEven_cases value <;> omega

theorem roundHalfEven_le (above : value ≤ bound) : roundHalfEven value ≤ bound := by
  obtain ⟨rounded, -⟩ | ⟨rounded, up⟩ := roundHalfEven_cases value
  · rw [rounded]
    exact_mod_cast (Int.floor_le value).trans above
  · have beyond : (⌊value⌋ : ℚ) < bound := by
      obtain up | ⟨up, -⟩ := up <;> linarith
    have strict : ⌊value⌋ < bound := by exact_mod_cast beyond
    omega

theorem le_roundHalfEven_iff (even : bound % 2 = 0) :
    bound ≤ roundHalfEven value ↔ (bound : ℚ) - 1 / 2 ≤ value := by
  have floor_le := Int.floor_le value
  have lt_floor := Int.lt_floor_add_one value
  constructor
  · intro reached
    obtain ⟨rounded, -⟩ | ⟨rounded, up⟩ := roundHalfEven_cases value
    · rw [rounded] at reached
      have reached : (bound : ℚ) ≤ ⌊value⌋ := by exact_mod_cast reached
      linarith
    · rw [rounded] at reached
      have reached : (bound : ℚ) ≤ ⌊value⌋ + 1 := by exact_mod_cast reached
      obtain up | ⟨up, -⟩ := up <;> linarith
  · intro near
    have floor : bound ≤ ⌊value⌋ + 1 := by
      have below : (bound : ℚ) < ⌊value⌋ + 2 := by linarith
      have below : bound < ⌊value⌋ + 2 := by exact_mod_cast below
      omega
    obtain ⟨rounded, down⟩ | ⟨rounded, -⟩ := roundHalfEven_cases value
    · by_contra missed
      have last : ⌊value⌋ = bound - 1 := by omega
      have last_cast : (⌊value⌋ : ℚ) = bound - 1 := by exact_mod_cast last
      obtain down | ⟨-, down⟩ := down
      · linarith
      · omega
    · omega

/-- A number is rounded to a finite float or to an infinite one of its sign. -/
theorem nearestFloat_cases (negative : Bool) (value : ℚ) :
    nearestFloat negative value = .infinite negative ∨
      ∃ rounded, nearestFloat negative value = .finite rounded := by
  rw [nearestFloat]
  split
  · exact .inr ⟨0, rfl⟩
  · simp only
    split
    · exact .inl rfl
    · exact .inr ⟨_, rfl⟩

theorem nearestFloat_of_pos (negative : Bool) (positive : 0 < value) :
    nearestFloat negative value =
      if (2 : ℚ) ^ (1024 : Int) ≤ places value * 2 ^ lastPlace value then .infinite negative
      else .finite (if negative then -(places value * (2 : ℚ) ^ lastPlace value)
        else places value * (2 : ℚ) ^ lastPlace value) := by
  rw [nearestFloat, if_neg positive.ne']
  rfl

theorem nearestFloat_infinite (negative : Bool) (positive : 0 < value) :
    nearestFloat negative value = .infinite negative ↔
      (2 : ℚ) ^ (1024 : Int) ≤ places value * 2 ^ lastPlace value := by
  rw [nearestFloat_of_pos negative positive]
  split
  next beyond => exact iff_of_true rfl beyond
  next within => exact iff_of_false PyFloat.noConfusion within

theorem places_le (value : ℚ) : places value ≤ 2 ^ 53 := by
  apply roundHalfEven_le
  have below := Int.lt_zpow_succ_log_self (b := 2) one_lt_two value
  have place : Int.log 2 value + 1 ≤ 53 + lastPlace value := by
    rw [lastPlace]
    omega
  rw [div_le_iff₀ (by positivity)]
  calc value
    _ ≤ (2 : ℚ) ^ (Int.log 2 value + 1) := by exact_mod_cast below.le
    _ ≤ (2 : ℚ) ^ (53 + lastPlace value) := zpow_le_zpow_right₀ one_le_two place
    _ = ((2 ^ 53 : Int) : ℚ) * 2 ^ lastPlace value := by
        rw [zpow_add₀ two_ne_zero]
        norm_num

theorem le_places (positive : 0 < value) (normal : lastPlace value = Int.log 2 value - 52) :
    2 ^ 52 ≤ places value := by
  have above := Int.zpow_log_le_self (b := 2) one_lt_two positive
  apply le_roundHalfEven
  rw [le_div_iff₀ (by positivity), normal]
  refine le_trans (le_of_eq ?_) above
  rw [zpow_sub₀ two_ne_zero]
  push_cast
  exact mul_div_cancel₀ _ (by positivity)

/-- The power of two beyond the floats in units of the last place of the largest ones. -/
theorem top_eq : (2 : ℚ) ^ (1024 : Int) = ((2 ^ 53 : Int) : ℚ) * 2 ^ (971 : Int) := by
  have cast : ((2 ^ 53 : Int) : ℚ) = 2 ^ (53 : Int) := by norm_cast
  rw [cast, ← zpow_add₀ two_ne_zero]
  rfl

theorem overflowBound_eq :
    (overflowBound : ℚ) = (((2 ^ 53 : Int) : ℚ) - 1 / 2) * 2 ^ (971 : Int) := by
  have half : (2 : ℚ) ^ (970 : Int) = 1 / 2 * 2 ^ (971 : Int) := by
    rw [show (971 : Int) = 970 + 1 from rfl, zpow_add_one₀ two_ne_zero]
    ring
  have power (exponent : Nat) : ((2 ^ exponent : Int) : ℚ) = 2 ^ (exponent : Int) := by
    rw [Int.cast_pow, zpow_natCast]
    rfl
  calc (overflowBound : ℚ)
    _ = 2 ^ (1024 : Int) - 2 ^ (970 : Int) := by
        rw [overflowBound, Int.cast_sub, power, power]
        rfl
    _ = (((2 ^ 53 : Int) : ℚ) - 1 / 2) * 2 ^ (971 : Int) := by
        rw [top_eq, half]
        ring

/-- A number is rounded to an infinite float from the bound on. -/
theorem nearestFloat_infinite_iff (negative : Bool) (positive : 0 < value) :
    nearestFloat negative value = .infinite negative ↔ (overflowBound : ℚ) ≤ value := by
  rw [nearestFloat_infinite negative positive]
  have above := Int.zpow_log_le_self (b := 2) one_lt_two positive
  have below := Int.lt_zpow_succ_log_self (b := 2) one_lt_two value
  rcases lt_trichotomy (Int.log 2 value) 1023 with small | last | large
  · have place : 53 + lastPlace value ≤ 1023 := by
      rw [lastPlace]
      omega
    have value_lt : value < 2 ^ (1023 : Int) :=
      (below.trans_le (zpow_le_zpow_right₀ one_le_two (by omega)))
    have places_le : (places value : ℚ) ≤ 2 ^ (53 : Int) := by
      exact_mod_cast places_le value
    have rounded_le : (places value : ℚ) * 2 ^ lastPlace value ≤ 2 ^ (1023 : Int) := by
      calc (places value : ℚ) * 2 ^ lastPlace value
        _ ≤ 2 ^ (53 : Int) * 2 ^ lastPlace value := by gcongr
        _ = (2 : ℚ) ^ (53 + lastPlace value) := (zpow_add₀ two_ne_zero _ _).symm
        _ ≤ 2 ^ (1023 : Int) := zpow_le_zpow_right₀ one_le_two place
    have half : (2 : ℚ) ^ (1023 : Int) = 2 ^ (52 : Int) * 2 ^ (971 : Int) :=
      zpow_add₀ two_ne_zero 52 971
    refine iff_of_false (not_le.mpr (rounded_le.trans_lt ?_)) (not_le.mpr (value_lt.trans_le ?_))
    · exact zpow_lt_zpow_right₀ one_lt_two (by omega)
    · rw [overflowBound_eq, half]
      gcongr
      norm_num
  · have place : lastPlace value = 971 := by
      rw [lastPlace, last]
      rfl
    have even : (2 : Int) ^ 53 % 2 = 0 := by norm_num
    rw [places, place]
    calc (2 : ℚ) ^ (1024 : Int) ≤ roundHalfEven (value / 2 ^ (971 : Int)) * 2 ^ (971 : Int)
      _ ↔ ((2 ^ 53 : Int) : ℚ) ≤ roundHalfEven (value / 2 ^ (971 : Int)) := by
          rw [top_eq]
          exact mul_le_mul_iff_left₀ (by positivity)
      _ ↔ (2 ^ 53 : Int) ≤ roundHalfEven (value / 2 ^ (971 : Int)) := Int.cast_le
      _ ↔ ((2 ^ 53 : Int) : ℚ) - 1 / 2 ≤ value / 2 ^ (971 : Int) := le_roundHalfEven_iff even
      _ ↔ (overflowBound : ℚ) ≤ value := by
          rw [le_div_iff₀ (by positivity), overflowBound_eq]
  · have place : lastPlace value = Int.log 2 value - 52 := by
      rw [lastPlace]
      omega
    have power_le : (2 : ℚ) ^ (1024 : Int) ≤ 2 ^ Int.log 2 value :=
      zpow_le_zpow_right₀ one_le_two (by omega)
    have le_places : ((2 : ℚ) ^ (52 : Int)) ≤ places value := by
      exact_mod_cast le_places positive place
    refine iff_of_true (power_le.trans ?_) (le_trans ?_ (power_le.trans above))
    · calc (2 : ℚ) ^ Int.log 2 value
        _ = 2 ^ (52 : Int) * 2 ^ lastPlace value := by
            rw [← zpow_add₀ two_ne_zero, place]
            congr 1
            omega
        _ ≤ places value * 2 ^ lastPlace value := by gcongr
    · rw [overflowBound_eq, top_eq]
      gcongr
      linarith

theorem rounded_mono {low high : ℚ} (positive : 0 < low) (le : low ≤ high) :
    places low * (2 : ℚ) ^ lastPlace low ≤ places high * (2 : ℚ) ^ lastPlace high := by
  have high_positive := positive.trans_le le
  have log_le : Int.log 2 low ≤ Int.log 2 high := Int.log_mono_right positive le
  have place_le : lastPlace low ≤ lastPlace high := by
    rw [lastPlace, lastPlace]
    omega
  rcases place_le.eq_or_lt with same | finer
  · rw [places, places, same]
    have rounded_le : (roundHalfEven (low / 2 ^ lastPlace high) : ℚ) ≤
        roundHalfEven (high / 2 ^ lastPlace high) := by
      exact_mod_cast roundHalfEven_mono (div_le_div_of_nonneg_right le (by positivity))
    gcongr
  · -- The larger one has a power of two between them.
    have normal : lastPlace high = Int.log 2 high - 52 := by
      rw [lastPlace] at finer ⊢
      rw [lastPlace] at finer
      omega
    have few : (places low : ℚ) ≤ 2 ^ (53 : Int) := by exact_mod_cast places_le low
    have many : (2 : ℚ) ^ (52 : Int) ≤ places high := by
      exact_mod_cast le_places high_positive normal
    calc places low * (2 : ℚ) ^ lastPlace low
      _ ≤ 2 ^ (53 : Int) * 2 ^ lastPlace low := by gcongr
      _ = (2 : ℚ) ^ (53 + lastPlace low) := (zpow_add₀ two_ne_zero _ _).symm
      _ ≤ (2 : ℚ) ^ (52 + lastPlace high) := zpow_le_zpow_right₀ one_le_two (by omega)
      _ = 2 ^ (52 : Int) * 2 ^ lastPlace high := zpow_add₀ two_ne_zero _ _
      _ ≤ places high * (2 : ℚ) ^ lastPlace high := by gcongr

theorem ofInt_isSome_iff {count : Int} (nonneg : 0 ≤ count) :
    (ofInt count).isSome = true ↔ count < overflowBound := by
  have nonneg_cast : (0 : ℚ) ≤ count := by exact_mod_cast nonneg
  have unsigned : nearest count = nearestFloat false count := by
    rw [nearest, abs_of_nonneg nonneg_cast, decide_eq_false (not_lt.mpr nonneg_cast)]
  rw [ofInt, unsigned]
  obtain zero | positive := nonneg.eq_or_lt
  · rw [← zero]
    exact iff_of_true rfl (by decide +kernel)
  · have infinite := @nearestFloat_infinite_iff count false (by exact_mod_cast positive)
    rw [Int.cast_le] at infinite
    rw [← not_le, ← infinite]
    rcases nearestFloat_cases false (count : ℚ) with beyond | ⟨rounded, within⟩
    · rw [beyond]
      exact iff_of_false Bool.false_ne_true (not_not_intro rfl)
    · rw [within]
      exact iff_of_true rfl PyFloat.noConfusion

end Rounding

/-- What is computed from less is finite where the other is, and no larger. -/
def Below (low high : PyFloat) : Prop :=
  ∀ value, high = .finite value → ∃ less, low = .finite less ∧ 0 ≤ less ∧ less ≤ value

section Monotone

variable {low high : ℚ} {left right lower upper : PyFloat}

theorem nearest_below (nonneg : 0 ≤ low) (le : low ≤ high) :
    Below (nearest low) (nearest high) := by
  intro value computed
  have high_nonneg := nonneg.trans le
  rw [nearest, abs_of_nonneg high_nonneg, decide_eq_false (not_lt.mpr high_nonneg)] at computed
  rw [nearest, abs_of_nonneg nonneg, decide_eq_false (not_lt.mpr nonneg)]
  have rounded_nonneg (number : ℚ) (positive : 0 < number) :
      0 ≤ places number * (2 : ℚ) ^ lastPlace number := by
    have places_nonneg : (0 : ℚ) ≤ places number := by
      exact_mod_cast le_roundHalfEven (by positivity)
    positivity
  obtain zero | positive := nonneg.eq_or_lt
  · refine ⟨0, by rw [← zero]; rfl, le_rfl, ?_⟩
    obtain zero | positive := high_nonneg.eq_or_lt
    · rw [← zero] at computed
      cases computed
      exact le_rfl
    · rw [nearestFloat_of_pos false positive] at computed
      split at computed
      · cases computed
      · cases computed
        exact rounded_nonneg high positive
  · have high_positive := positive.trans_le le
    have rounded_le := rounded_mono positive le
    rw [nearestFloat_of_pos false high_positive] at computed
    split at computed
    · cases computed
    next within =>
      cases computed
      rw [nearestFloat_of_pos false positive,
        if_neg fun beyond => within (beyond.trans rounded_le)]
      exact ⟨_, rfl, rounded_nonneg low positive, rounded_le⟩

theorem Below.divBy (below : Below left right) {divisor : ℚ} (positive : 0 < divisor) :
    Below (left.divBy divisor) (right.divBy divisor) := by
  intro value computed
  cases right with
  | nan => cases computed
  | infinite negative => cases computed
  | finite high =>
      obtain ⟨low, rfl, nonneg, le⟩ := below high rfl
      exact nearest_below (div_nonneg nonneg positive.le)
        (div_le_div_of_nonneg_right le positive.le) value computed

theorem Below.mul (below : Below left right) {factor : ℚ} (nonneg : 0 ≤ factor) :
    Below (left.mul (.finite factor)) (right.mul (.finite factor)) := by
  intro value computed
  cases right with
  | nan => cases computed
  | infinite negative =>
      rw [PyFloat.mul, signed] at computed
      split at computed <;> cases computed
  | finite high =>
      obtain ⟨low, rfl, low_nonneg, le⟩ := below high rfl
      exact nearest_below (mul_nonneg low_nonneg nonneg) (mul_le_mul_of_nonneg_right le nonneg)
        value computed

theorem Below.add (below : Below left right) (other : Below lower upper) :
    Below (left.add lower) (right.add upper) := by
  intro value computed
  cases right with
  | nan => cases computed
  | infinite negative =>
      cases upper with
      | nan => cases computed
      | finite high => cases computed
      | infinite sign =>
          rw [PyFloat.add] at computed
          split at computed <;> cases computed
  | finite high =>
      cases upper with
      | nan => cases computed
      | infinite negative => cases computed
      | finite more =>
          obtain ⟨low, rfl, low_nonneg, le⟩ := below high rfl
          obtain ⟨less, rfl, less_nonneg, less_le⟩ := other more rfl
          exact nearest_below (add_nonneg low_nonneg less_nonneg) (add_le_add le less_le) value
            computed

end Monotone

end Hermes.PyFloat
