import Hermes.Library.Calendar

/-!
# Reading dates and times

`datetime.fromisoformat` reads calendar dates and week dates, with separators or without, any
character between date and time, fractions of a second and a zone.  What `isoformat` writes is read
as the moment it was written for.
-/

namespace Hermes.Calendar

/-! ## Parsing -/

/-- Read as many digits as asked for; the number so far and the text which follows. -/
def readDigits : Nat → Nat → List Char → Option (Nat × List Char)
  | 0, number, text => some (number, text)
  | _ + 1, _, [] => none
  | width + 1, number, char :: text =>
      if char.isDigit then readDigits width (10 * number + (char.toNat - '0'.toNat)) text else none

/-- Where the date ends, `_find_isoformat_datetime_separator`. -/
def separatorAt (text : List Char) : Option Nat :=
  if text.length = 7 then some 7
  else if text[4]? = some '-' then
    if text[5]? = some 'W' then
      if text[8]? = some '-' then
        if text.length = 9 then none
        else if (text[10]?.any Char.isDigit) = true then some 8
        else some 10
      else some 8
    else some 10
  else if text[4]? = some 'W' then
    let digitsEnd := 7 + ((text.drop 7).takeWhile Char.isDigit).length
    if digitsEnd < 9 then some digitsEnd
    else if digitsEnd % 2 = 0 then some 7
    else some 8
  else some 8

/-- The day of the week of an ordinal, Monday being zero. -/
def weekday (ordinal : Nat) : Nat := (ordinal + 6) % 7

/-- `iso_to_ymd`, as the ordinal of the day. -/
def weekDate (year week day : Nat) : Option Nat :=
  let first := daysBeforeYear year + 1
  let long := weekday first = 3 ∨ (weekday first = 2 ∧ isLeap year = true)
  if 1 ≤ year ∧ 1 ≤ week ∧ (week ≤ 52 ∨ (week = 53 ∧ long)) ∧ 1 ≤ day ∧ day ≤ 7 then
    -- The first week has the first Thursday of the year.
    let monday := if weekday first ≤ 3 then first - weekday first else first + 7 - weekday first
    some (monday + (week - 1) * 7 + day - 1)
  else none

/-- The ordinal of a date, where the calendar has the date. -/
def ordinalOf (date : Date) : Option Nat :=
  if ofOrdinal date.ordinal = date then some date.ordinal else none

def readDash (dashed : Bool) (text : List Char) : Option (List Char) :=
  match dashed, text with
  | false, _ => some text
  | true, '-' :: later => some later
  | true, _ => none

/-- `parse_isoformat_date`, as the ordinal of the day. -/
def parseDate (text : List Char) (dateEnd : Nat) : Option Nat := do
  let (year, rest) ← readDigits 4 0 text
  let dashed := rest.head? == some '-'
  let rest ← readDash dashed rest
  match rest with
  | 'W' :: rest =>
      let (week, rest) ← readDigits 2 0 rest
      if text.length - rest.length < dateEnd then do
        let rest ← readDash dashed rest
        let (day, _) ← readDigits 1 0 rest
        weekDate year week day
      else weekDate year week 1
  | _ =>
      let (month, rest) ← readDigits 2 0 rest
      let rest ← readDash dashed rest
      let (day, _) ← readDigits 2 0 rest
      ordinalOf ⟨year, month, day⟩

/-- A time of day, or the amount of an offset. -/
structure Clock where
  hour : Nat
  minute : Nat := 0
  second : Nat := 0
  micros : Nat := 0
  deriving DecidableEq, Repr

def Clock.total (clock : Clock) : Nat :=
  ((clock.hour * 60 + clock.minute) * 60 + clock.second) * 1000000 + clock.micros

/-- The fraction of a second: digits after the sixth are dropped. -/
def parseFraction (text : List Char) : Option Nat :=
  if text = [] ∨ text.all Char.isDigit = false then none
  else (readDigits (min text.length 6) 0 text).map fun read =>
    read.1 * 10 ^ (6 - min text.length 6)

/-- `parse_hh_mm_ss_ff`. -/
def parseClock (text : List Char) : Option Clock := do
  let (hour, rest) ← readDigits 2 0 text
  if rest = [] then return { hour := hour }
  let colons := rest.head? == some ':'
  let rest := if colons then rest.tail else rest
  let (minute, rest) ← readDigits 2 0 rest
  if rest = [] then return { hour := hour, minute := minute }
  let rest ← if colons then (if rest.head? = some ':' then some rest.tail else none) else some rest
  let (second, rest) ← readDigits 2 0 rest
  match rest with
  | [] => return { hour := hour, minute := minute, second := second }
  | mark :: rest =>
      if mark = '.' ∨ mark = ',' then do
        let micros ← parseFraction rest
        return { hour := hour, minute := minute, second := second, micros := micros }
      else none

/-- A zone begins with a sign or is a `Z`. -/
def beginsZone (char : Char) : Bool := char == '+' || char == '-' || char == 'Z'

def parseZone : List Char → Option (Option Int)
  | [] => some none
  | 'Z' :: later => if later = [] then some (some 0) else none
  | mark :: later => do
      let offset ← parseClock later
      if offset.total < dayLength then
        return some (if mark = '-' then -(offset.total : Int) else offset.total)
      else none

/-- `parse_isoformat_time`: microseconds since midnight and the offset, if there is a zone. -/
def parseTime (text : List Char) : Option (Nat × Option Int) := do
  let clock ← parseClock (text.takeWhile fun char => !beginsZone char)
  let offset ← parseZone (text.dropWhile fun char => !beginsZone char)
  if clock.hour < 24 ∧ clock.minute < 60 ∧ clock.second < 60 then return (clock.total, offset)
  else none

/-- `datetime.fromisoformat`: local microseconds since 1970, and the offset if there is a zone;
`none` is a `ValueError`. -/
def fromisoformat (text : List Char) : Option (Int × Option Int) := do
  if text.length < 7 then none
  let dateEnd ← separatorAt text
  let ordinal ← parseDate text dateEnd
  let (time, offset) ←
    if dateEnd + 1 < text.length then parseTime (text.drop (dateEnd + 1)) else some (0, none)
  return (((ordinal : Int) - 1) * dayLength + time - epoch, offset)

/-- The moment which was read, taken as UTC where there is no zone. -/
def readMoment (text : List Char) : Option Int :=
  (fromisoformat text).map fun read => read.1 - read.2.getD 0

/-! ## What `isoformat` writes -/

section Written

theorem readDigits_succ (width start : Nat) (text : List Char) :
    readDigits (width + 1) start text =
      (readDigits width start text).bind fun read => readDigits 1 read.1 read.2 := by
  induction width generalizing start text with
  | zero => rfl
  | succ width induction =>
      cases text with
      | nil => rfl
      | cons char text =>
          rw [readDigits, readDigits]
          split
          · exact induction _ text
          · rfl

theorem isDigit_digitChar {digit : Nat} (small : digit < 10) :
    (Nat.digitChar digit).isDigit = true ∧ (Nat.digitChar digit).toNat - '0'.toNat = digit := by
  have table : ∀ digit < 10, (Nat.digitChar digit).isDigit = true ∧
      (Nat.digitChar digit).toNat - '0'.toNat = digit := by decide
  exact table digit small

/-- A number of a fixed width is read as itself. -/
theorem readDigits_padded {width number : Nat} (small : number < 10 ^ width) (start : Nat)
    (rest : List Char) :
    readDigits width start (padded width number ++ rest) =
      some (start * 10 ^ width + number, rest) := by
  induction width generalizing number rest with
  | zero =>
      have zero : number = 0 := by simpa using small
      simp [readDigits, padded, zero]
  | succ width induction =>
      have tens : number / 10 < 10 ^ width := by
        rw [Nat.pow_succ] at small
        omega
      obtain ⟨digit, value⟩ := isDigit_digitChar (Nat.mod_lt number (by omega : 10 > 0))
      rw [readDigits_succ, padded, List.append_assoc, induction tens, Option.bind_some,
        List.singleton_append, readDigits, if_pos digit, value, readDigits]
      have number_eq : 10 * (start * 10 ^ width + number / 10) + number % 10 =
          start * 10 ^ (width + 1) + number := by
        rw [Nat.pow_succ, ← Nat.mul_assoc]
        omega
      exact congrArg (fun read => some (read, rest)) number_eq

theorem padded_isDigit {width number : Nat} :
    ∀ char ∈ padded width number, char.isDigit = true := by
  induction width generalizing number with
  | zero => exact fun _ listed => absurd listed List.not_mem_nil
  | succ width induction =>
      intro char listed
      rw [padded, List.mem_append, List.mem_singleton] at listed
      rcases listed with earlier | rfl
      · exact induction char earlier
      · exact (isDigit_digitChar (Nat.mod_lt number (by omega))).1

/-- The fraction, which is left out where it is zero. -/
def fraction (micros : Nat) : List Char := if micros = 0 then [] else '.' :: padded 6 micros

theorem parseFraction_padded {micros : Nat} (small : micros < 10 ^ 6) :
    parseFraction (padded 6 micros) = some micros := by
  have digits : (padded 6 micros).all Char.isDigit = true :=
    List.all_eq_true.mpr padded_isDigit
  have read := readDigits_padded small 0 []
  rw [List.append_nil] at read
  rw [parseFraction, digits, length_padded, if_neg (by simp [padded]), Nat.min_self, read]
  simp

def clockText (clock : Clock) : List Char :=
  padded 2 clock.hour ++ ':' :: (padded 2 clock.minute ++ ':' :: (padded 2 clock.second ++
    fraction clock.micros))

/-- The numbers fit the places they are written in. -/
structure Clock.Fits (clock : Clock) : Prop where
  hour : clock.hour < 10 ^ 2
  minute : clock.minute < 10 ^ 2
  second : clock.second < 10 ^ 2
  micros : clock.micros < 10 ^ 6

theorem parseClock_clockText {clock : Clock} (fits : clock.Fits) :
    parseClock (clockText clock) = some clock := by
  obtain ⟨hour, minute, second, micros⟩ := clock
  rw [parseClock, clockText, readDigits_padded fits.hour]
  simp only [Option.bind_eq_bind, Option.bind_some, reduceCtorEq, if_false, List.head?_cons,
    BEq.rfl, if_true, List.tail_cons, readDigits_padded fits.minute, readDigits_padded fits.second,
    Nat.zero_mul, Nat.zero_add]
  by_cases zero : micros = 0
  · simp [fraction, zero]
  · simp [fraction, zero, parseFraction_padded fits.micros]

theorem beginsZone_digit {char : Char} (digit : char.isDigit = true) :
    beginsZone char = false := by
  simp only [beginsZone, Bool.or_eq_false_iff, beq_eq_false_iff_ne]
  refine ⟨⟨?_, ?_⟩, ?_⟩ <;>
  · rintro rfl
    exact absurd digit (by decide)

theorem beginsZone_clockText {clock : Clock} :
    ∀ char ∈ clockText clock, (!beginsZone char) = true := by
  intro char listed
  have plain : char.isDigit = true ∨ char = ':' ∨ char = '.' := by
    simp only [clockText, fraction, List.mem_append, List.mem_cons] at listed
    rcases listed with hour | rfl | minute | rfl | second | micros
    · exact .inl (padded_isDigit char hour)
    · exact .inr (.inl rfl)
    · exact .inl (padded_isDigit char minute)
    · exact .inr (.inl rfl)
    · exact .inl (padded_isDigit char second)
    · split at micros
      · exact absurd micros List.not_mem_nil
      · rcases List.mem_cons.mp micros with rfl | digit
        · exact .inr (.inr rfl)
        · exact .inl (padded_isDigit char digit)
  rcases plain with digit | rfl | rfl
  · rw [beginsZone_digit digit]
    rfl
  · rfl
  · rfl

/-- A time of day in UTC is read as itself. -/
theorem parseTime_clockText {clock : Clock} (fits : clock.Fits) (hour : clock.hour < 24)
    (minute : clock.minute < 60) (second : clock.second < 60) :
    parseTime (clockText clock ++ ['+', '0', '0', ':', '0', '0']) =
      some (clock.total, some 0) := by
  rw [parseTime, List.takeWhile_append_of_pos beginsZone_clockText,
    List.dropWhile_append_of_pos beginsZone_clockText]
  have after : List.dropWhile (fun char => !beginsZone char)
      ['+', '0', '0', ':', '0', '0'] = ['+', '0', '0', ':', '0', '0'] := rfl
  have zone : parseZone ['+', '0', '0', ':', '0', '0'] = some (some 0) := by
    have offset : parseClock ['0', '0', ':', '0', '0'] = some ⟨0, 0, 0, 0⟩ := rfl
    simp [parseZone, offset, Clock.total, dayLength]
  have before : List.takeWhile (fun char => !beginsZone char)
      ['+', '0', '0', ':', '0', '0'] = [] := rfl
  rw [after, zone, before, List.append_nil, parseClock_clockText fits]
  simp only [Option.bind_eq_bind, Option.bind_some, hour, minute, second, and_self, if_true]
  rfl

def dateText (date : Date) : List Char :=
  padded 4 date.year ++ '-' :: (padded 2 date.month ++ '-' :: padded 2 date.day)

theorem digitChar_ne_week (number : Nat) : Nat.digitChar (number % 10) ≠ 'W' := by
  intro week
  have digit := (isDigit_digitChar (Nat.mod_lt number (by omega : 10 > 0))).1
  rw [week] at digit
  exact absurd digit (by decide)

theorem separatorAt_dateText (date : Date) (rest : List Char) :
    separatorAt (dateText date ++ 'T' :: rest) = some 10 := by
  simp [separatorAt, dateText, padded, digitChar_ne_week]

theorem parseDate_dateText {date : Date}
    (fits : date.year < 10 ^ 4 ∧ date.month < 10 ^ 2 ∧ date.day < 10 ^ 2) (rest : List Char)
    (dateEnd : Nat) :
    parseDate (dateText date ++ rest) dateEnd = ordinalOf date := by
  obtain ⟨tens, units, month, notWeek⟩ : ∃ tens units, padded 2 date.month = [tens, units] ∧
      tens ≠ 'W' := ⟨_, _, rfl, digitChar_ne_week _⟩
  have readMonth := readDigits_padded fits.2.1 0 ('-' :: (padded 2 date.day ++ rest))
  rw [month, Nat.zero_mul, Nat.zero_add] at readMonth
  simp only [parseDate, dateText, List.append_assoc, List.cons_append,
    readDigits_padded fits.1, Option.bind_eq_bind, Option.bind_some, List.head?_cons, BEq.rfl,
    readDash, Nat.zero_mul, Nat.zero_add, month, List.nil_append]
  split
  next week => exact absurd (List.cons.inj week).1 notWeek
  next =>
    simp only [List.cons_append, List.nil_append] at readMonth
    simp only [readMonth, Option.bind_some, readDigits_padded fits.2.2, Nat.zero_mul,
      Nat.zero_add]

/-- The numbers of a time of day, given in microseconds. -/
def clockOf (time : Nat) : Clock where
  hour := time / 3600000000
  minute := time / 60000000 % 60
  second := time / 1000000 % 60
  micros := time % 1000000

theorem total_clockOf (time : Nat) : (clockOf time).total = time := by
  simp only [Clock.total, clockOf]
  omega

theorem render_eq (date : Date) (time : Nat) :
    render date time =
      dateText date ++ 'T' :: (clockText (clockOf time) ++ ['+', '0', '0', ':', '0', '0']) := by
  simp only [render, dateText, clockText, fraction, clockOf, List.append_assoc, List.cons_append]
  rfl

/-- A date and a time which are written are read as themselves. -/
theorem fromisoformat_render {date : Date} {time : Nat}
    (fits : date.year < 10 ^ 4 ∧ date.month < 10 ^ 2 ∧ date.day < 10 ^ 2)
    (onCalendar : ofOrdinal date.ordinal = date) (within : time < dayLength) :
    fromisoformat (render date time) =
      some (((date.ordinal : Int) - 1) * dayLength + time - epoch, some 0) := by
  rw [dayLength] at within
  have clock : parseTime (clockText (clockOf time) ++ ['+', '0', '0', ':', '0', '0']) =
      some (time, some 0) := by
    have read := @parseTime_clockText (clockOf time)
      ⟨by simp only [clockOf]; omega, by simp only [clockOf]; omega, by simp only [clockOf]; omega,
        by simp only [clockOf]; omega⟩
      (by simp only [clockOf]; omega) (by simp only [clockOf]; omega)
      (by simp only [clockOf]; omega)
    rwa [total_clockOf] at read
  have length : (dateText date).length = 10 := by simp [dateText]
  have behind : (dateText date ++
      'T' :: (clockText (clockOf time) ++ ['+', '0', '0', ':', '0', '0'])).drop (10 + 1) =
        clockText (clockOf time) ++ ['+', '0', '0', ':', '0', '0'] := by
    rw [← length, List.drop_append]
    simp
  have long : 10 + 1 < (dateText date ++
      'T' :: (clockText (clockOf time) ++ ['+', '0', '0', ':', '0', '0'])).length := by
    simp [length]
    omega
  rw [render_eq, fromisoformat, separatorAt_dateText, if_neg (by omega)]
  simp only [Option.bind_eq_bind, Option.bind_some, parseDate_dateText fits, ordinalOf,
    if_pos onCalendar, if_pos long, behind, clock]
  rfl

/-- What `isoformat` writes is read as the same moment in UTC. -/
theorem fromisoformat_isoformat {moment : Int} (fits : Representable moment) :
    fromisoformat (isoformat moment) = some (moment, some 0) := by
  obtain ⟨lower, upper⟩ := fits
  have elapsed_eq : ((moment + epoch).toNat : Int) = moment + epoch :=
    Int.toNat_of_nonneg (by omega)
  have day_positive : 0 < dayLength := by
    rw [dayLength]
    omega
  have day_fits : (moment + epoch).toNat / dayLength + 1 ≤ lastOrdinal := by
    simp only [dayLength, lastOrdinal, epoch] at *
    omega
  have counted := @ordinal_ofOrdinal ((moment + epoch).toNat / dayLength + 1) (Nat.succ_pos _)
  have read := fromisoformat_render (ofOrdinal_bounds (Nat.succ_pos _) day_fits)
    (congrArg ofOrdinal counted) (Nat.mod_lt (moment + epoch).toNat day_positive)
  have value : (((moment + epoch).toNat / dayLength + 1 : Nat) - 1 : Int) * dayLength +
      ((moment + epoch).toNat % dayLength : Nat) - epoch = moment := by
    simp only [dayLength, epoch] at *
    omega
  rw [counted, value] at read
  exact read

theorem readMoment_isoformat {moment : Int} (fits : Representable moment) :
    readMoment (isoformat moment) = some moment := by
  rw [readMoment, fromisoformat_isoformat fits]
  simp

theorem isoformat_ascii {moment : Int} : ∀ char ∈ isoformat moment, char.toNat < 0x80 := by
  intro char listed
  by_contra high
  refine notMem_isoformat (fun digit small same => ?_) (fun mark => ?_) moment listed
  · have table : ∀ digit < 10, (Nat.digitChar digit).toNat < 0x80 := by decide
    rw [← same] at high
    exact high (table digit small)
  · simp only [List.mem_cons, List.not_mem_nil, or_false] at mark
    rcases mark with rfl | rfl | rfl | rfl | rfl | rfl <;> exact high (by decide)

end Written

end Hermes.Calendar
