import Hermes.Library.Binary64

/-!
# Exact differences of floats

A number on the grid of a float which is no larger than the float is a float itself.  So an integer
is subtracted exactly from a float which is at least as large, and a difference below zero stays
below zero whatever it is rounded to.
-/

namespace Hermes.PyFloat

open JsonDecoder

def neg : PyFloat → PyFloat
  | .finite value => .finite (-value)
  | .infinite negative => .infinite (!negative)
  | .nan => .nan

def sub (left right : PyFloat) : PyFloat := add left (neg right)

def atLeast (bound : PyFloat) (value : ℚ) : Bool :=
  match bound with
  | .finite bound => decide (value ≤ bound)
  | .infinite negative => !negative
  | .nan => false

def IsFloat (value : ℚ) : Prop := nearest value = .finite value

section Exact

variable {value : ℚ} {count place : Int}

theorem roundHalfEven_intCast (count : Int) : roundHalfEven (count : ℚ) = count :=
  le_antisymm (roundHalfEven_le le_rfl) (le_roundHalfEven le_rfl)

/-- The grid of a number with few places is no coarser than the one it is given on. -/
theorem lastPlace_le (positive : 0 < count) (few : count < 2 ^ 53) (fine : -1074 ≤ place) :
    lastPlace (count * (2 : ℚ) ^ place) ≤ place := by
  have count_lt : (count : ℚ) < 2 ^ (53 : Int) := by exact_mod_cast few
  have value_lt : count * (2 : ℚ) ^ place < 2 ^ (53 + place) := by
    rw [zpow_add₀ two_ne_zero]
    gcongr
  have value_pos : 0 < count * (2 : ℚ) ^ place := by
    have : (0 : ℚ) < count := by exact_mod_cast positive
    positivity
  have log_lt : Int.log 2 (count * (2 : ℚ) ^ place) < 53 + place :=
    (Int.lt_zpow_iff_log_lt (b := 2) one_lt_two value_pos).mp (by exact_mod_cast value_lt)
  rw [lastPlace]
  omega

theorem nearestFloat_exact (negative : Bool) (positive : 0 < count) (few : count < 2 ^ 53)
    (fine : -1074 ≤ place) (coarse : place ≤ 971) :
    nearestFloat negative (count * (2 : ℚ) ^ place) =
      .finite (if negative then -(count * (2 : ℚ) ^ place) else count * (2 : ℚ) ^ place) := by
  have count_lt : (count : ℚ) < 2 ^ (53 : Int) := by exact_mod_cast few
  have value_pos : 0 < count * (2 : ℚ) ^ place := by
    have : (0 : ℚ) < count := by exact_mod_cast positive
    positivity
  have grid := lastPlace_le positive few fine
  obtain ⟨steps, difference⟩ := Int.eq_ofNat_of_zero_le (sub_nonneg.mpr grid)
  have units : count * (2 : ℚ) ^ place / 2 ^ lastPlace (count * (2 : ℚ) ^ place) =
      ((count * 2 ^ steps : Int) : ℚ) := by
    rw [mul_div_assoc, ← zpow_sub₀ two_ne_zero, difference, zpow_natCast]
    push_cast
    rfl
  have whole : places (count * (2 : ℚ) ^ place) * (2 : ℚ) ^ lastPlace (count * (2 : ℚ) ^ place) =
      count * 2 ^ place := by
    rw [places, units, roundHalfEven_intCast, ← units]
    exact div_mul_cancel₀ _ (zpow_ne_zero _ two_ne_zero)
  have within : count * (2 : ℚ) ^ place < 2 ^ (1024 : Int) := by
    calc count * (2 : ℚ) ^ place
      _ < 2 ^ (53 : Int) * (2 : ℚ) ^ place := by gcongr
      _ = (2 : ℚ) ^ (53 + place) := (zpow_add₀ two_ne_zero _ _).symm
      _ ≤ 2 ^ (1024 : Int) := zpow_le_zpow_right₀ one_le_two (by omega)
  rw [nearestFloat_of_pos negative value_pos, whole, if_neg (not_le.mpr within)]

theorem isFloat_intCast (few : count.natAbs < 2 ^ 53) : IsFloat count := by
  rw [IsFloat, nearest]
  obtain negative | rfl | positive := lt_trichotomy count 0
  · have below : (count : ℚ) < 0 := by exact_mod_cast negative
    have exact_ := @nearestFloat_exact (-count) 0 true (by omega) (by omega) (by omega) (by omega)
    rw [zpow_zero, mul_one, Int.cast_neg] at exact_
    rw [decide_eq_true below, abs_of_neg below, exact_, if_pos rfl, neg_neg]
  · rfl
  · have above : (0 : ℚ) < count := by exact_mod_cast positive
    have exact_ := @nearestFloat_exact count 0 false positive (by omega) (by omega) (by omega)
    rw [zpow_zero, mul_one] at exact_
    rw [decide_eq_false (not_lt.mpr above.le), abs_of_pos above, exact_]
    rfl

theorem IsFloat.eq_places (float : IsFloat value) (positive : 0 < value) :
    value = places value * 2 ^ lastPlace value := by
  rw [IsFloat, nearest, decide_eq_false (not_lt.mpr positive.le), abs_of_pos positive,
    nearestFloat_of_pos false positive] at float
  split at float
  · cases float
  · exact (PyFloat.finite.inj float).symm

theorem IsFloat.places_lt (float : IsFloat value) (positive : 0 < value) :
    places value < 2 ^ 53 := by
  have below := Int.lt_zpow_succ_log_self (b := 2) one_lt_two value
  have place : Int.log 2 value + 1 ≤ 53 + lastPlace value := by
    rw [lastPlace]
    omega
  have scaled :
      (places value : ℚ) * 2 ^ lastPlace value < 2 ^ (53 : Int) * 2 ^ lastPlace value := by
    rw [← float.eq_places positive, ← zpow_add₀ two_ne_zero]
    calc value
      _ < (2 : ℚ) ^ (Int.log 2 value + 1) := by exact_mod_cast below
      _ ≤ 2 ^ (53 + lastPlace value) := zpow_le_zpow_right₀ one_le_two place
  exact_mod_cast lt_of_mul_lt_mul_right scaled (by positivity)

theorem IsFloat.sub_intCast (float : IsFloat value) (positive : 0 < count) (le : count ≤ value)
    (bounded : value < 2 ^ (52 : Int)) : IsFloat (value - count) := by
  have value_pos : 0 < value := by
    have : (0 : ℚ) < count := by exact_mod_cast positive
    linarith
  have log_lt : Int.log 2 value < 52 :=
    (Int.lt_zpow_iff_log_lt (b := 2) one_lt_two value_pos).mp (by exact_mod_cast bounded)
  have place_le : lastPlace value ≤ 0 := by
    rw [lastPlace]
    omega
  have fine : -1074 ≤ lastPlace value := le_max_left _ _
  obtain ⟨steps, finer⟩ := Int.eq_ofNat_of_zero_le (neg_nonneg.mpr place_le)
  have unit : (2 : ℚ) ^ steps * 2 ^ lastPlace value = 1 := by
    rw [← zpow_natCast, ← zpow_add₀ two_ne_zero]
    have cancelled : (steps : Int) + lastPlace value = 0 := by omega
    rw [cancelled, zpow_zero]
  have difference : value - count =
      ((places value - count * 2 ^ steps : Int) : ℚ) * 2 ^ lastPlace value := by
    rw [Int.cast_sub, Int.cast_mul, Int.cast_pow, Int.cast_two, sub_mul, mul_assoc, unit, mul_one,
      ← float.eq_places value_pos]
  obtain rest | rest := le.lt_or_eq
  · have few := float.places_lt value_pos
    have rest_pos : 0 < places value - count * 2 ^ steps := by
      have above : (0 : ℚ) < ((places value - count * 2 ^ steps : Int) : ℚ) *
          2 ^ lastPlace value := by
        rw [← difference]
        linarith
      exact_mod_cast pos_of_mul_pos_left above (by positivity)
    have taken : 0 < count * 2 ^ steps := by positivity
    have exact_ := @nearestFloat_exact _ (lastPlace value) false rest_pos (by omega) fine (by omega)
    rw [IsFloat, nearest, decide_eq_false (not_lt.mpr (by linarith)), abs_of_pos (by linarith),
      difference, exact_]
    rfl
  · rw [← rest, sub_self]
    rfl

theorem IsFloat.on_grid (float : IsFloat value) (nonneg : 0 ≤ value) :
    ∃ units : Int, value = units * 2 ^ (-1074 : Int) := by
  obtain zero | positive := nonneg.eq_or_lt
  · exact ⟨0, by rw [← zero, Int.cast_zero, zero_mul]⟩
  · have fine : -1074 ≤ lastPlace value := le_max_left _ _
    obtain ⟨steps, coarser⟩ := Int.eq_ofNat_of_zero_le (sub_nonneg.mpr fine)
    refine ⟨places value * 2 ^ steps, ?_⟩
    calc value
      _ = places value * 2 ^ lastPlace value := float.eq_places positive
      _ = places value * (2 ^ (steps : Int) * 2 ^ (-1074 : Int)) := by
          rw [← zpow_add₀ two_ne_zero]
          congr 2
          omega
      _ = ((places value * 2 ^ steps : Int) : ℚ) * 2 ^ (-1074 : Int) := by
          rw [Int.cast_mul, Int.cast_pow, Int.cast_two, mul_assoc, zpow_natCast]

theorem atLeast_nearest_of_neg {score : ℚ} (negative : value ≤ -2 ^ (-1074 : Int))
    (nonneg : 0 ≤ score) : atLeast (nearest value) score = false := by
  have unit_pos : (0 : ℚ) < 2 ^ (-1074 : Int) := by positivity
  have size_pos : 0 < -value := by linarith
  have below : value < 0 := by linarith
  have one_le : (1 : Int) ≤ places (-value) := by
    apply le_roundHalfEven
    rw [Int.cast_one, le_div_iff₀ (by positivity), one_mul, lastPlace]
    obtain fine | coarse := max_choice (-1074 : Int) (Int.log 2 (-value) - 52)
    · rw [fine]
      linarith
    · rw [coarse]
      calc (2 : ℚ) ^ (Int.log 2 (-value) - 52)
        _ ≤ 2 ^ Int.log 2 (-value) := zpow_le_zpow_right₀ one_le_two (by omega)
        _ ≤ -value := by exact_mod_cast Int.zpow_log_le_self (b := 2) one_lt_two size_pos
  have rounded_pos : (0 : ℚ) < places (-value) * 2 ^ lastPlace (-value) := by
    have : (1 : ℚ) ≤ places (-value) := by exact_mod_cast one_le
    positivity
  rw [nearest, decide_eq_true below, abs_of_neg below, nearestFloat_of_pos true size_pos]
  split
  · rfl
  · rw [if_pos rfl, atLeast, decide_eq_false_iff_not]
    linarith

/-- A float less an integer is at least what the exact difference is at least, zero or above. -/
theorem atLeast_sub_intCast {score : ℚ} (float : IsFloat value) (nonneg : 0 ≤ value)
    (bounded : value < 2 ^ (52 : Int)) (positive : 0 < count) (score_nonneg : 0 ≤ score) :
    atLeast (nearest (value - count)) score = decide (score ≤ value - count) := by
  obtain le | lt := le_or_gt (count : ℚ) value
  · rw [float.sub_intCast positive le bounded]
    rfl
  · obtain ⟨units, on_grid⟩ := float.on_grid nonneg
    have unit : (2 : ℚ) ^ (1074 : Nat) * 2 ^ (-1074 : Int) = 1 := by
      rw [← zpow_natCast, ← zpow_add₀ two_ne_zero]
      exact zpow_zero 2
    have difference : value - count =
        ((units - count * 2 ^ 1074 : Int) : ℚ) * 2 ^ (-1074 : Int) := by
      rw [Int.cast_sub, Int.cast_mul, Int.cast_pow, Int.cast_two, sub_mul, mul_assoc, unit, mul_one,
        ← on_grid]
    have below : units - count * 2 ^ 1074 ≤ -1 := by
      have negative : ((units - count * 2 ^ 1074 : Int) : ℚ) * 2 ^ (-1074 : Int) < 0 := by
        rw [← difference]
        linarith
      have units_neg : ((units - count * 2 ^ 1074 : Int) : ℚ) < 0 :=
        neg_of_mul_neg_left negative (by positivity)
      have : units - count * 2 ^ 1074 < 0 := by exact_mod_cast units_neg
      omega
    rw [atLeast_nearest_of_neg _ score_nonneg, eq_comm, decide_eq_false_iff_not]
    · linarith
    · have below_cast : ((units - count * 2 ^ 1074 : Int) : ℚ) ≤ -1 := by
        rw [← Int.cast_one, ← Int.cast_neg, Int.cast_le]
        exact below
      rw [difference]
      calc ((units - count * 2 ^ 1074 : Int) : ℚ) * 2 ^ (-1074 : Int)
        _ ≤ -1 * 2 ^ (-1074 : Int) := mul_le_mul_of_nonneg_right below_cast (by positivity)
        _ = -2 ^ (-1074 : Int) := neg_one_mul _

end Exact

end Hermes.PyFloat
