import InertialSense.TimeConversion.Absolute
import InertialSense.TimeConversion.Week
import Mathlib.Tactic.IntervalCases

/-! The calendar: a GPS time is given a date, and the date and the time of day are brought back. -/

namespace InertialSense.TimeConversion

/-- `civil` in whole numbers, from the day that is counted from the start of March. -/
def wholeCivil (B : Nat) : Nat × Nat × Nat :=
  let C := (20 * B - 2442) / 7305
  let D := 1461 * C / 4
  let E := 10000 * (B - D) / 306001
  let month := if E < 14 then E - 1 else E - 13
  (if month > 2 then C - 4716 else C - 4715, month, B - D - 306001 * E / 10000)

/-- The days from the start of 1970 to a date, in the years with a leap day every four. -/
def dayNumber (year month day : Int) : Int :=
  (year - 1970) * 365 + (year - 1969) / 4 + doy.getD (month - 1).toNat 0 + day - 2 +
    (if year % 4 = 0 ∧ month ≥ 3 then 1 else 0)

/-- In a year that starts in March, the leap day is the last one, and `30.6001` days for each month
are those before it. -/
private theorem dayNumber_march (Y day : Int) {E : Nat} (early : 4 ≤ E) (late : E ≤ 15) :
    dayNumber (if E < 14 then Y else Y + 1) ((if E < 14 then E - 1 else E - 13 : Nat) : Int) day =
      365 * Y + Y / 4 + (306001 * E / 10000 : Nat) + day - 719606 := by
  interval_cases E <;> simp [dayNumber, doy] <;> omega

private theorem floor_quotient {value : Rat} {count unit : Nat} (same : value = (count : Rat) / unit) :
    ⌊value⌋₊ = count / unit := by
  rw [same, Nat.floor_div_eq_div]

theorem uint32_natCast {value : Int} {small : Nat} (same : value = small) (below : small < 2 ^ 32) :
    uint32 value = small := by
  have inside := @uint32_of_inside value (by omega) (by omega)
  omega

section Day

variable {Z : Nat} (first : 2444245 ≤ Z) (last : Z ≤ 2488069)
include first last

private theorem century : ⌊((Z : Rat) - 1867216.25) / 36524.25⌋₊ = (4 * Z - 7468865) / 146097 := by
  refine floor_quotient ?_
  push_cast [Nat.cast_sub (show 7468865 ≤ 4 * Z by omega)]
  ring

/-- From March 1900 to February 2100 the correction for the centuries is 13 days. -/
theorem civil_eq : civil Z = wholeCivil (Z + 1537) := by
  have gregorian : uint32 (Z + 1 + ((4 * Z - 7468865) / 146097 : Nat) -
      ((4 * Z - 7468865) / 146097 / 4 : Nat)) = Z + 13 := uint32_natCast (by omega) (by omega)
  have shifted : uint32 ((Z + 13 : Nat) + 1524) = Z + 1537 := uint32_natCast (by omega) (by omega)
  unfold civil
  simp only [century first last, if_neg (show ¬ Z < 2299161 by omega), gregorian, shifted]
  have years : ⌊(((Z + 1537 : Nat) : Rat) - 122.1) / 365.25⌋₊ = (20 * (Z + 1537) - 2442) / 7305 := by
    refine floor_quotient ?_
    push_cast [Nat.cast_sub (show 2442 ≤ 20 * (Z + 1537) by omega)]
    ring
  have days (C : Nat) : ⌊365.25 * (C : Rat)⌋₊ = 1461 * C / 4 := by
    refine floor_quotient ?_
    push_cast
    ring
  have months (inYear : Nat) : ⌊(inYear : Rat) / 30.6001⌋₊ = 10000 * inYear / 306001 := by
    refine floor_quotient ?_
    push_cast
    ring
  have before (E : Nat) : ⌊30.6001 * (E : Rat)⌋₊ = 306001 * E / 10000 := by
    refine floor_quotient ?_
    push_cast
    ring
  simp only [years, days, before]
  unfold wholeCivil
  generalize counted : (20 * (Z + 1537) - 2442) / 7305 = C
  have inYear : uint32 (((Z + 1537 : Nat) : Int) - (1461 * C / 4 : Nat)) = Z + 1537 - 1461 * C / 4 :=
    uint32_natCast (by omega) (by omega)
  simp only [inYear, months]
  generalize named : 10000 * (Z + 1537 - 1461 * C / 4) / 306001 = E
  have dayOfMonth : uint32 (((Z + 1537 : Nat) : Int) - (1461 * C / 4 : Nat) - (306001 * E / 10000 : Nat)) =
      Z + 1537 - 1461 * C / 4 - 306001 * E / 10000 := uint32_natCast (by omega) (by omega)
  have month : (if E < 14 then uint32 ((E : Int) - 1) else uint32 ((E : Int) - 13)) =
      if E < 14 then E - 1 else E - 13 := by
    split
    · exact uint32_natCast (by omega) (by omega)
    · exact uint32_natCast (by omega) (by omega)
  have sameYear : uint32 ((C : Int) - 4716) = C - 4716 := uint32_natCast (by omega) (by omega)
  have nextYear : uint32 ((C : Int) - 4715) = C - 4715 := uint32_natCast (by omega) (by omega)
  simp only [dayOfMonth, month, sameYear, nextYear]

/-- The date that is found is a day of 1980 to 2099, and it is the right one. -/
theorem civil_dayNumber : ∃ year month day : Nat, civil Z = (year, month, day) ∧
    (1980 ≤ year ∧ year ≤ 2099) ∧ (1 ≤ month ∧ month ≤ 12) ∧
    dayNumber year month day = Z - 2440588 := by
  rw [civil_eq first last]
  simp only [wholeCivil]
  generalize counted : (20 * (Z + 1537) - 2442) / 7305 = C
  have passed : 1461 * C / 4 = 365 * C + C / 4 := by omega
  rw [passed]
  generalize named : 10000 * (Z + 1537 - (365 * C + C / 4)) / 306001 = E
  have early : 4 ≤ E := by omega
  have late : E ≤ 15 := by omega
  have march := dayNumber_march (C - 4716) (Z + 1537 - (365 * C + C / 4) - 306001 * E / 10000 : Nat) early late
  have year : (if (if E < 14 then E - 1 else E - 13) > 2 then C - 4716 else C - 4715) =
      if E < 14 then C - 4716 else C - 4715 := by
    by_cases before : E < 14
    · simp only [before, if_true]
      exact if_pos (by omega)
    · simp only [before, if_false]
      exact if_neg (by omega)
  have cast : ((if E < 14 then C - 4716 else C - 4715 : Nat) : Int) =
      if E < 14 then (C : Int) - 4716 else C - 4716 + 1 := by
    split <;> omega
  refine ⟨_, _, _, rfl, ?_, ?_, ?_⟩
  · rw [year]
    split <;> omega
  · split <;> omega
  · rw [year, cast, march]
    omega

end Day

/-- The hour, minute, second and millisecond of so many milliseconds of a day. -/
def wholeClock (todayMs : Nat) : Nat × Nat × Nat × Nat :=
  (todayMs / 3600000, todayMs % 3600000 / 60000, todayMs % 60000 / 1000, todayMs % 1000)

private theorem less_whole {total count rest : Nat} {unit : Int}
    (parts : (total : Int) = rest + 1000 * (count * unit)) (some : 0 ≤ count * unit)
    (small : count * unit < 2 ^ 32) :
    (total : Rat) / 1000 - uint32 (count * unit) = (rest : Rat) / 1000 := by
  have stored := congrArg (Int.cast : Int → Rat) (uint32_of_inside some small)
  have partsRat := congrArg (Int.cast : Int → Rat) parts
  push_cast at stored partsRat
  rw [stored, partsRat]
  ring

/-- The seconds of a day that are whole milliseconds are not rounded. -/
private theorem clock_eq {todayMs : Nat} (inDay : todayMs < 86400000) :
    clock ((todayMs : Rat) / 1000) = wholeClock todayMs := by
  have hours : ⌊(todayMs : Rat) / 1000 / 3600⌋₊ = todayMs / 3600000 := by
    refine floor_quotient ?_
    push_cast
    ring
  have afterHours : (todayMs : Rat) / 1000 - uint32 ((todayMs / 3600000 : Nat) * 3600) =
      ((todayMs % 3600000 : Nat) : Rat) / 1000 := less_whole (by omega) (by omega) (by omega)
  have minutes : ⌊((todayMs % 3600000 : Nat) : Rat) / 1000 / 60⌋₊ = todayMs % 3600000 / 60000 := by
    refine floor_quotient ?_
    push_cast
    ring
  have afterMinutes : ((todayMs % 3600000 : Nat) : Rat) / 1000 -
      uint32 ((todayMs % 3600000 / 60000 : Nat) * 60) = ((todayMs % 60000 : Nat) : Rat) / 1000 :=
    less_whole (by omega) (by omega) (by omega)
  have seconds : ⌊((todayMs % 60000 : Nat) : Rat) / 1000⌋₊ = todayMs % 60000 / 1000 :=
    floor_quotient (by push_cast; rfl)
  have exact : (((todayMs % 60000 : Nat) : Rat) / 1000 - (todayMs % 60000 / 1000 : Nat)) * 1000 =
      (todayMs % 1000 : Nat) := by
    have parts : todayMs % 60000 = todayMs % 1000 + 1000 * (todayMs % 60000 / 1000) := by omega
    have partsRat := congrArg (Nat.cast : Nat → Rat) parts
    push_cast at partsRat ⊢
    linarith
  unfold clock wholeClock
  simp only [hours, afterHours, minutes, afterMinutes, seconds, exact, round_natCast, Int.toNat_natCast]

/-- The instant is whole milliseconds, so that nothing is rounded and nothing is carried. -/
theorem julianToDate_eq (days todayMs : Nat) (inDay : todayMs < 86400000) :
    julianToDate (days - 0.5 + (todayMs : Rat) / 86400000) =
      { year := (civil days).1, month := (civil days).2.1, day := (civil days).2.2
        hour := (wholeClock todayMs).1, minute := (wholeClock todayMs).2.1
        second := (wholeClock todayMs).2.2.1, millisecond := (wholeClock todayMs).2.2.2 } := by
  have part : (0 : Rat) ≤ (todayMs : Rat) / 86400000 ∧ (todayMs : Rat) / 86400000 < 1 := by
    refine ⟨by positivity, ?_⟩
    rw [div_lt_one (by norm_num)]
    exact_mod_cast inDay
  have jd : (days : Rat) - 0.5 + (todayMs : Rat) / 86400000 + 0.5 = days + (todayMs : Rat) / 86400000 := by
    ring
  have whole (day : Nat) : ⌊(day : Rat) + (todayMs : Rat) / 86400000⌋₊ = day := by
    rw [add_comm, Nat.floor_add_natCast part.1, Nat.floor_eq_zero.mpr part.2, Nat.zero_add]
  have seconds : (todayMs : Rat) / 86400000 * 86400 = (todayMs : Rat) / 1000 := by ring
  unfold julianToDate
  simp only [jd, whole, add_sub_cancel_left, seconds, clock_eq inDay]
  exact if_pos (by simp only [wholeClock]; omega)

theorem epochToTime_eq {year month day : Nat} (years : 1970 ≤ year ∧ year ≤ 2099)
    (months : 1 ≤ month ∧ month ≤ 12) (hour minute second : Int) :
    epochToTime year month day hour minute second =
      ⟨dayNumber year month day * 86400 + int32 (hour * 3600) + int32 (minute * 60) + second, 0⟩ := by
  unfold epochToTime dayNumber
  simp only [toInt_natCast, toInt_intCast, Int.floor_intCast, sub_self]
  rw [if_neg (by omega), Int.tdiv_eq_ediv_of_nonneg (by omega), Int.tmod_eq_emod_of_nonneg (by omega)]

private theorem epochToTime_clock {year month day : Nat} (years : 1970 ≤ year ∧ year ≤ 2099)
    (months : 1 ≤ month ∧ month ≤ 12) {todayMs : Nat} (inDay : todayMs < 86400000) :
    epochToTime year month day ((todayMs : Int) / 3600000 : Int) ((todayMs : Int) / 60000 % 60 : Int)
        ((todayMs : Int) / 1000 % 60 : Int) =
      ⟨dayNumber year month day * 86400 + (todayMs : Int) / 1000, 0⟩ := by
  have total : dayNumber year month day * 86400 + (todayMs : Int) / 3600000 * 3600 +
      (todayMs : Int) / 60000 % 60 * 60 + (todayMs : Int) / 1000 % 60 =
        dayNumber year month day * 86400 + (todayMs : Int) / 1000 := by omega
  have hours : int32 ((todayMs : Int) / 3600000 * 3600) = (todayMs : Int) / 3600000 * 3600 :=
    int32_of_inside (by omega) (by omega)
  have minutes : int32 ((todayMs : Int) / 60000 % 60 * 60) = (todayMs : Int) / 60000 % 60 * 60 :=
    int32_of_inside (by omega) (by omega)
  rw [epochToTime_eq years months, hours, minutes, total]

/-- The week and the time of the week of so many seconds since the start of GPS time. -/
private theorem timeToGpst_eq {week seconds : Nat} (inWeek : seconds < 604800) (few : week < 2 ^ 31) :
    timeToGpst ⟨gpsRefTime + (week * 604800 + seconds), 0⟩ = ((seconds : Rat), (week : Int)) := by
  have weeks : ((week : Int) * 604800 + seconds).tdiv 604800 = week := by
    rw [Int.tdiv_eq_ediv_of_nonneg (by omega)]
    omega
  have stored : int32 week = week := int32_of_inside (by omega) (by omega)
  unfold timeToGpst
  simp only [add_sub_cancel_left, secondsPerWeek, weeks, stored]
  push_cast
  rw [add_sub_cancel_left, add_zero]

/-- The UTC instant of a GPS time, in milliseconds since the start of 1980-01-06. -/
def utcMs (gpsWeek tow leapS : Nat) : Int := gpsWeek * 604800000 + tow - 1000 * leapS

/-- The day of a UTC instant, from the start of 1970. -/
def utcDay (gpsWeek tow leapS : Nat) : Int := dayNumber 1980 1 6 + utcMs gpsWeek tow leapS / 86400000

/-- A GPS time is given its UTC date and time of day, and their whole seconds are converted back to
the time of week and the week. -/
def throughUtc (gpsWeek tow leapS : Nat) : Nat × Nat :=
  let date := julianToDate (gpsToJulian gpsWeek tow leapS)
  let time := gpsTowMsToUtcTime tow leapS
  utcDateTimeToGpsTime date.year date.month date.day time.hour time.minute time.second leapS

/-- On every day of 1980 to 2099 the calendars agree. -/
theorem date_restored (gpsWeek tow leapS : Nat) (inWeek : tow < 604800000) (leap : leapS ≤ 60)
    (first : dayNumber 1980 1 6 ≤ utcDay gpsWeek tow leapS)
    (last : utcDay gpsWeek tow leapS ≤ dayNumber 2099 12 31) :
    throughUtc gpsWeek tow leapS = (1000 * (tow / 1000), gpsWeek) ∧
      (julianToDate (gpsToJulian gpsWeek tow leapS)).millisecond = tow % 1000 := by
  have start : dayNumber 1980 1 6 = 3657 := by decide
  have finish : dayNumber 2099 12 31 = 47481 := by decide
  unfold utcDay at first last
  rw [start] at first last
  rw [finish] at last
  obtain ⟨days, todayMs, instant, inDay⟩ : ∃ days todayMs : Nat,
      utcMs gpsWeek tow leapS = days * 86400000 + todayMs ∧ todayMs < 86400000 :=
    ⟨(utcMs gpsWeek tow leapS / 86400000).toNat, (utcMs gpsWeek tow leapS % 86400000).toNat,
      by omega, by omega⟩
  unfold utcMs at instant first last
  have julian : gpsToJulian gpsWeek tow leapS = (2444245 + days : Nat) - 0.5 + (todayMs : Rat) / 86400000 := by
    have instantRat := congrArg (Int.cast : Int → Rat) instant
    rw [gpsToJulian_eq (by omega)]
    unfold julianOfUnix unixTime
    push_cast at instantRat ⊢
    linarith
  obtain ⟨year, month, day, found, years, months, number⟩ :=
    @civil_dayNumber (2444245 + days) (by omega) (by omega)
  have today : (tow - 1000 * leapS : Int) % millisecondsPerDay = todayMs := by
    unfold millisecondsPerDay
    omega
  unfold throughUtc
  rw [gpsTowMsToUtcTime_eq inWeek (by omega) (by omega), today, ofToday_eq (by omega), julian,
    julianToDate_eq _ _ inDay, found]
  refine ⟨?_, by simp only [wholeClock]; omega⟩
  have seconds : dayNumber year month day * 86400 + (todayMs : Int) / 1000 + leapS =
      gpsRefTime + ((gpsWeek : Int) * 604800 + (tow / 1000 : Nat)) := by
    unfold gpsRefTime
    omega
  unfold utcDateTimeToGpsTime
  simp only [epochToTime_clock (And.intro (by omega) years.2) months inDay, seconds]
  rw [timeToGpst_eq (by omega) (by omega)]
  refine Prod.ext ?_ ?_
  · have shifted : (((tow / 1000 : Nat) : Rat) + 0.00001) * 1000 = 0.01 + (1000 * (tow / 1000) : Nat) := by
      push_cast
      ring
    have small : ⌊(0.01 : Rat)⌋₊ = 0 := Nat.floor_eq_zero.mpr (by norm_num)
    simp only [shifted, Nat.floor_add_natCast (show (0 : Rat) ≤ 0.01 by norm_num), small, Nat.zero_add]
  · exact uint32_natCast rfl (by omega)

/-- In the leap seconds at the start of a week, which are on the day before in UTC. -/
theorem date_restored_leap :
    throughUtc 2345 5250 18 = (1000 * (5250 / 1000), 2345) ∧
      (julianToDate (gpsToJulian 2345 5250 18)).millisecond = 5250 % 1000 :=
  date_restored 2345 5250 18 (by decide) (by decide) (by decide) (by decide)

end InertialSense.TimeConversion
