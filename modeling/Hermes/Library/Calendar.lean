import Mathlib.Algebra.Group.Nat.Defs
import Mathlib.Tactic.Common

/-!
# Dates and their texts

The proleptic Gregorian calendar as `datetime` counts it: days from the first of January of the
year one, leap years in cycles of four hundred years.  `isoformat` writes every moment between the
years 1 and 9999 differently.
-/

namespace Hermes.Calendar

def isLeap (year : Nat) : Bool := year % 4 == 0 && (year % 100 != 0 || year % 400 == 0)

/-- `_days_before_year`. -/
def daysBeforeYear (year : Nat) : Nat :=
  (year - 1) * 365 + (year - 1) / 4 - (year - 1) / 100 + (year - 1) / 400

/-- `_DAYS_BEFORE_MONTH`, from January on. -/
def monthStarts : List Nat := [0, 31, 59, 90, 120, 151, 181, 212, 243, 273, 304, 334]

/-- `_days_before_month`. -/
def daysBeforeMonth (leap : Bool) (month : Nat) : Nat :=
  monthStarts.getD (month - 1) 0 + if 2 < month ∧ leap = true then 1 else 0

structure Date where
  year : Nat
  month : Nat
  day : Nat
  deriving DecidableEq, Repr

/-- `_ymd2ord`. -/
def Date.ordinal (date : Date) : Nat :=
  daysBeforeYear date.year + daysBeforeMonth (isLeap date.year) date.month + date.day

/-- The month of a day of a year, counted from zero. -/
def monthOf (leap : Bool) (dayOfYear : Nat) : Nat :=
  let guess := (dayOfYear + 50) / 32
  if dayOfYear < daysBeforeMonth leap guess then guess - 1 else guess

/-- The date of a day of a year, counted from zero. -/
def dateIn (year : Nat) (leap : Bool) (dayOfYear : Nat) : Date where
  year := year
  month := monthOf leap dayOfYear
  day := dayOfYear - daysBeforeMonth leap (monthOf leap dayOfYear) + 1

/-- `_ord2ymd`: cycles of 400, of 100 and of 4 years, and single years. -/
def ofOrdinal (ordinal : Nat) : Date :=
  let inCycle := (ordinal - 1) % 146097
  let centuries := inCycle / 36524
  let inCentury := inCycle % 36524
  let quads := inCentury / 1461
  let inQuad := inCentury % 1461
  let years := inQuad / 365
  let year := (ordinal - 1) / 146097 * 400 + centuries * 100 + quads * 4 + years + 1
  if years = 4 ∨ centuries = 4 then ⟨year - 1, 12, 31⟩
  else dateIn year (years == 3 && (quads != 24 || centuries == 3)) (inQuad % 365)

section Dates

theorem daysBeforeMonth_monthOf (leap : Bool) (dayOfYear : Nat)
    (within : dayOfYear < 365 + leap.toNat) :
    daysBeforeMonth leap (monthOf leap dayOfYear) ≤ dayOfYear ∧
      monthOf leap dayOfYear ≤ 12 ∧
      dayOfYear - daysBeforeMonth leap (monthOf leap dayOfYear) < 31 := by
  have table : ∀ leap : Bool, ∀ day < 366, day < 365 + leap.toNat →
      daysBeforeMonth leap (monthOf leap day) ≤ day ∧ monthOf leap day ≤ 12 ∧
        day - daysBeforeMonth leap (monthOf leap day) < 31 := by
    decide +kernel
  have most : leap.toNat ≤ 1 := Bool.toNat_le leap
  exact table leap dayOfYear (by omega) within

theorem dateIn_ordinal {year : Nat} {leap : Bool} (leaps : isLeap year = leap) (dayOfYear : Nat)
    (within : dayOfYear < 365 + leap.toNat) :
    (dateIn year leap dayOfYear).ordinal = daysBeforeYear year + dayOfYear + 1 := by
  obtain ⟨reached, -, -⟩ := daysBeforeMonth_monthOf leap dayOfYear within
  rw [Date.ordinal, dateIn, leaps]
  dsimp only
  omega

/-- The year of a cycle which the counts name. -/
theorem daysBeforeYear_counts (cycles centuries quads years : Nat) (century : centuries < 4)
    (quad : quads < 25) (within : years < 4) :
    daysBeforeYear (cycles * 400 + centuries * 100 + quads * 4 + years + 1) =
      cycles * 146097 + centuries * 36524 + quads * 1461 + years * 365 := by
  rw [daysBeforeYear, Nat.add_sub_cancel]
  omega

theorem isLeap_counts (cycles centuries quads years : Nat) (century : centuries < 4)
    (quad : quads < 25) (within : years < 4) :
    isLeap (cycles * 400 + centuries * 100 + quads * 4 + years + 1) =
      (years == 3 && (quads != 24 || centuries == 3)) := by
  rw [isLeap, Bool.eq_iff_iff]
  simp only [Bool.and_eq_true, Bool.or_eq_true, beq_iff_eq, bne_iff_ne, ne_eq]
  omega

/-- The last day of a leap year closes its cycle. -/
theorem lastDay_ordinal (cycles centuries quads : Nat) (century : centuries < 4)
    (quad : quads < 25) (leaps : quads ≠ 24 ∨ centuries = 3) :
    (Date.mk (cycles * 400 + centuries * 100 + quads * 4 + 3 + 1) 12 31).ordinal =
      cycles * 146097 + centuries * 36524 + quads * 1461 + 1461 := by
  have leap : isLeap (cycles * 400 + centuries * 100 + quads * 4 + 3 + 1) = true := by
    rw [isLeap_counts cycles centuries quads 3 century quad (by omega)]
    simpa using leaps
  have start : daysBeforeMonth true 12 = 335 := by decide
  rw [Date.ordinal, daysBeforeYear_counts cycles centuries quads 3 century quad (by omega), leap,
    start]
  change _ + 31 = _
  omega

theorem ordinal_ofOrdinal {ordinal : Nat} (positive : 0 < ordinal) :
    (ofOrdinal ordinal).ordinal = ordinal := by
  obtain ⟨before, rfl⟩ := Nat.exists_eq_add_of_lt positive
  rw [ofOrdinal, Nat.zero_add, Nat.add_sub_cancel]
  generalize cycle_eq : before / 146097 = cycles
  generalize century_eq : before % 146097 / 36524 = centuries
  generalize quad_eq : before % 146097 % 36524 / 1461 = quads
  generalize years_eq : before % 146097 % 36524 % 1461 / 365 = years
  generalize day_eq : before % 146097 % 36524 % 1461 % 365 = day
  have total : before = cycles * 146097 + centuries * 36524 + quads * 1461 + years * 365 + day := by
    omega
  split
  next closing =>
    obtain quad_closes | cycle_closes := closing
    · have closed := lastDay_ordinal cycles centuries quads (by omega) (by omega) (by omega)
      rw [quad_closes, show cycles * 400 + centuries * 100 + quads * 4 + 4 + 1 - 1 =
        cycles * 400 + centuries * 100 + quads * 4 + 3 + 1 by omega, closed]
      omega
    · have closed := lastDay_ordinal cycles 3 24 (by omega) (by omega) (by omega)
      rw [show cycles * 400 + centuries * 100 + quads * 4 + years + 1 - 1 =
        cycles * 400 + 3 * 100 + 24 * 4 + 3 + 1 by omega, closed]
      omega
  next inside =>
    have century : centuries < 4 := by omega
    have quad : quads < 25 := by omega
    have year : years < 4 := by omega
    rw [dateIn_ordinal (isLeap_counts cycles centuries quads years century quad year) day
      (by omega), daysBeforeYear_counts cycles centuries quads years century quad year]
    omega

def lastOrdinal : Nat := 3652059

theorem ofOrdinal_bounds {ordinal : Nat} (positive : 0 < ordinal)
    (within : ordinal ≤ lastOrdinal) :
    (ofOrdinal ordinal).year < 10 ^ 4 ∧ (ofOrdinal ordinal).month < 10 ^ 2 ∧
      (ofOrdinal ordinal).day < 10 ^ 2 := by
  obtain ⟨before, rfl⟩ := Nat.exists_eq_add_of_lt positive
  have few : before < 3652059 := by
    rw [lastOrdinal] at within
    omega
  rw [ofOrdinal, Nat.zero_add, Nat.add_sub_cancel]
  split
  next closing =>
    refine ⟨?_, (by decide : 12 < 10 ^ 2), (by decide : 31 < 10 ^ 2)⟩
    dsimp only
    omega
  next inside =>
    obtain ⟨-, month, day⟩ := daysBeforeMonth_monthOf
      (before % 146097 % 36524 % 1461 / 365 == 3 &&
        (before % 146097 % 36524 / 1461 != 24 || before % 146097 / 36524 == 3))
      (before % 146097 % 36524 % 1461 % 365) (by omega)
    rw [dateIn]
    dsimp only
    refine ⟨?_, ?_, ?_⟩
    · omega
    · omega
    · omega

theorem ofOrdinal_inj {ordinal other : Nat} (positive : 0 < ordinal) (later : 0 < other)
    (same : ofOrdinal ordinal = ofOrdinal other) : ordinal = other := by
  rw [← ordinal_ofOrdinal positive, ← ordinal_ofOrdinal later, same]

end Dates

/-! ## Texts -/

/-- The last digits of a number, as many as asked for. -/
def padded : Nat → Nat → List Char
  | 0, _ => []
  | width + 1, number => padded width (number / 10) ++ [Nat.digitChar (number % 10)]

/-- Microseconds from the first moment `datetime` has to 1970. -/
def epoch : Nat := 62135596800000000

def dayLength : Nat := 86400000000

/-- `isoformat` of a date and a time of day in UTC. -/
def render (date : Date) (time : Nat) : List Char :=
  padded 4 date.year ++ '-' :: padded 2 date.month ++ '-' :: padded 2 date.day ++
    'T' :: padded 2 (time / 3600000000) ++ ':' :: padded 2 (time / 60000000 % 60) ++
    ':' :: padded 2 (time / 1000000 % 60) ++
    (if time % 1000000 = 0 then [] else '.' :: padded 6 (time % 1000000)) ++
    ['+', '0', '0', ':', '0', '0']

/-- `isoformat` of a moment in UTC, given in microseconds since 1970. -/
def isoformat (moment : Int) : List Char :=
  let elapsed := (moment + epoch).toNat
  render (ofOrdinal (elapsed / dayLength + 1)) (elapsed % dayLength)

section Texts

@[simp] theorem length_padded (width number : Nat) : (padded width number).length = width := by
  induction width generalizing number with
  | zero => rfl
  | succ width induction =>
      rw [padded, List.length_append, induction, List.length_singleton]

theorem digitChar_inj {digit other : Nat} (digit_lt : digit < 10) (other_lt : other < 10)
    (same : Nat.digitChar digit = Nat.digitChar other) : digit = other := by
  have table : ∀ digit < 10, ∀ other < 10,
      Nat.digitChar digit = Nat.digitChar other → digit = other := by decide
  exact table digit digit_lt other other_lt same

theorem padded_inj {width number other : Nat} (small : number < 10 ^ width)
    (other_small : other < 10 ^ width) (same : padded width number = padded width other) :
    number = other := by
  induction width generalizing number other with
  | zero => omega
  | succ width induction =>
      rw [padded, padded] at same
      obtain ⟨high, low⟩ := List.append_inj' same rfl
      rw [Nat.pow_succ] at small other_small
      have tens := induction (by omega) (by omega) high
      have units := digitChar_inj (Nat.mod_lt number (by omega)) (Nat.mod_lt other (by omega))
        (List.singleton_inj.mp low)
      omega

/-- Two texts which begin with a number of one width. -/
theorem padded_append_inj {width number other : Nat} {tail later : List Char}
    (small : number < 10 ^ width) (other_small : other < 10 ^ width)
    (same : padded width number ++ tail = padded width other ++ later) :
    number = other ∧ tail = later := by
  have widths : (padded width number).length = (padded width other).length := by
    rw [length_padded, length_padded]
  obtain ⟨heads, tails⟩ := List.append_inj same widths
  exact ⟨padded_inj small other_small heads, tails⟩

theorem fraction_inj {micros other : Nat} (small : micros < 10 ^ 6) (other_small : other < 10 ^ 6)
    {zone : List Char}
    (same : (if micros = 0 then [] else '.' :: padded 6 micros) ++ '+' :: zone =
      (if other = 0 then [] else '.' :: padded 6 other) ++ '+' :: zone) : micros = other := by
  by_cases zero : micros = 0 <;> by_cases other_zero : other = 0
  · rw [zero, other_zero]
  · rw [if_pos zero, if_neg other_zero] at same
    exact absurd (List.cons.inj same).1 (by decide)
  · rw [if_neg zero, if_pos other_zero] at same
    exact absurd (List.cons.inj same).1 (by decide)
  · rw [if_neg zero, if_neg other_zero] at same
    exact (padded_append_inj small other_small (List.cons.inj same).2).1

theorem render_inj {date later : Date} {time other : Nat}
    (date_fits : date.year < 10 ^ 4 ∧ date.month < 10 ^ 2 ∧ date.day < 10 ^ 2)
    (later_fits : later.year < 10 ^ 4 ∧ later.month < 10 ^ 2 ∧ later.day < 10 ^ 2)
    (time_lt : time < dayLength) (other_lt : other < dayLength)
    (same : render date time = render later other) : date = later ∧ time = other := by
  rw [dayLength] at time_lt other_lt
  simp only [render, List.append_assoc, List.cons_append] at same
  obtain ⟨years, same⟩ := padded_append_inj date_fits.1 later_fits.1 same
  obtain ⟨months, same⟩ :=
    padded_append_inj date_fits.2.1 later_fits.2.1 (List.cons.inj same).2
  obtain ⟨days, same⟩ := padded_append_inj date_fits.2.2 later_fits.2.2 (List.cons.inj same).2
  obtain ⟨hours, same⟩ := padded_append_inj (by omega) (by omega) (List.cons.inj same).2
  obtain ⟨minutes, same⟩ := padded_append_inj (by omega) (by omega) (List.cons.inj same).2
  obtain ⟨seconds, same⟩ := padded_append_inj (by omega) (by omega) (List.cons.inj same).2
  have micros := fraction_inj (by omega) (by omega) same
  constructor
  · obtain ⟨year, month, day⟩ := date
    rw [Date.mk.injEq]
    exact ⟨years, months, days⟩
  · omega

/-- A moment `datetime` has in UTC. -/
def Representable (moment : Int) : Prop :=
  -(epoch : Int) ≤ moment ∧ moment < lastOrdinal * dayLength - epoch

instance (moment : Int) : Decidable (Representable moment) :=
  inferInstanceAs (Decidable (_ ∧ _))

theorem isoformat_inj {moment other : Int} (fits : Representable moment)
    (other_fits : Representable other) (same : isoformat moment = isoformat other) :
    moment = other := by
  obtain ⟨lower, upper⟩ := fits
  obtain ⟨other_lower, other_upper⟩ := other_fits
  rw [isoformat, isoformat] at same
  generalize elapsed_eq : (moment + epoch).toNat = elapsed at same
  generalize passed_eq : (other + epoch).toNat = passed at same
  have day_fits : elapsed / dayLength + 1 ≤ lastOrdinal := by
    simp only [dayLength, lastOrdinal, epoch] at *
    omega
  have other_day_fits : passed / dayLength + 1 ≤ lastOrdinal := by
    simp only [dayLength, lastOrdinal, epoch] at *
    omega
  obtain ⟨dates, times⟩ := render_inj
    (ofOrdinal_bounds (Nat.succ_pos _) day_fits) (ofOrdinal_bounds (Nat.succ_pos _) other_day_fits)
    (Nat.mod_lt _ (by decide)) (Nat.mod_lt _ (by decide)) same
  have days := ofOrdinal_inj (Nat.succ_pos _) (Nat.succ_pos _) dates
  simp only [dayLength, lastOrdinal, epoch] at *
  omega

theorem notMem_padded {char : Char} (apart : ∀ digit < 10, Nat.digitChar digit ≠ char)
    (width number : Nat) : char ∉ padded width number := by
  induction width generalizing number with
  | zero => exact List.not_mem_nil
  | succ width induction =>
      rw [padded, List.mem_append, List.mem_singleton, not_or]
      exact ⟨induction _, (apart (number % 10) (Nat.mod_lt number (by omega))).symm⟩

/-- The text of a moment has digits and five marks. -/
theorem notMem_isoformat {char : Char} (apart : ∀ digit < 10, Nat.digitChar digit ≠ char)
    (unmarked : char ∉ ['-', 'T', ':', '.', '+', '0']) (moment : Int) :
    char ∉ isoformat moment := by
  have digits := notMem_padded apart
  simp only [List.mem_cons, List.not_mem_nil, or_false, not_or] at unmarked
  rw [isoformat, render]
  split <;> simp [digits, unmarked]

end Texts
end Hermes.Calendar
