import InertialSense.Foundation.Gregorian
import InertialSense.TimeConversion.Calendar

/-! The calendar of `ISUtilities.cpp`: modified Julian days and days of the week, against the
calendar of `epochToTime`. -/

namespace InertialSense.TimeConversion

open Foundation Gregorian

def convertDateToMjd (year month day : Int) : Int :=
  int32 (int32 (367 * year) -
    (int32 (7 * int32 (year + (int32 (month + 9)).tdiv 12))).tdiv 4 -
    (int32 (3 * ((int32 (year + (int32 (month - 9)).tdiv 7)).tdiv 100 + 1))).tdiv 4 +
    (int32 (275 * month)).tdiv 9 + day + 1721028 - 2400000)

/-- `convertMjdToDate`: the year, the month and the day that it stores. -/
def convertMjdToDate (mjd : Int) : Int × Int × Int :=
  let j := int32 (mjd + 2400001 + 68569)
  let c := (int32 (4 * j)).tdiv 146097
  let j := int32 (j - (int32 (146097 * c + 3)).tdiv 4)
  let y := (int32 (4000 * int32 (j + 1))).tdiv 1461001
  let j := int32 (j - (int32 (1461 * y)).tdiv 4 + 31)
  let m := (int32 (80 * j)).tdiv 2447
  let day := int32 (j - (int32 (2447 * m)).tdiv 80)
  let j := m.tdiv 11
  (int32 (100 * (c - 49) + y + j), int32 (m + 2 - 12 * j), day)

def dateToWeekDay (year month day : Nat) : Nat :=
  let (year, month) := if month = 1 ∨ month = 2 then (uint32 ((year : Int) - 1), uint32 (month + 12)) else (year, month)
  let week := uint32 (day + 2 * month + (uint32 (3 * (month + 1)) / 5 : Nat) + year +
    (year / 4 : Nat) - (year / 100 : Nat) + (year / 400 : Nat)) % 7
  uint32 (week + 1)

private theorem march {month : Nat} (months : 1 ≤ month ∧ month ≤ 12) :
    (int32 (month + 9)).tdiv 12 = (if month < 3 then 0 else 1) ∧
      (int32 (month - 9)).tdiv 7 = if month < 3 then -1 else 0 := by
  obtain ⟨first, last⟩ := months
  interval_cases month <;> decide

private theorem leap_years (year : Int) : 7 * year / 4 = 2 * year - (year + 3) / 4 := by omega

private theorem leap_centuries (year : Int) : 3 * (year / 100 + 1) / 4 = year / 100 - year / 400 := by
  have part : year / 100 / 4 = year / 400 := Int.ediv_ediv_of_nonneg (by decide)
  omega

section Date

variable (date : Date) (first : 1 ≤ date.year) (last : date.year ≤ 10001)
include first last

/-- The modified Julian day counts from 1858-11-17. -/
theorem convertDateToMjd_eq :
    convertDateToMjd date.year date.month date.day = date.number - 678942 := by
  have months := date.months
  have short : date.day ≤ 31 := date.days.2.trans (monthDays_le date.year date.month)
  obtain ⟨quarter, century⟩ := march months
  unfold convertDateToMjd
  rw [quarter, century, date.number_eq, daysBeforeYear_eq, daysBeforeYear_eq]
  by_cases early : date.month < 3
  · simp only [early, if_true]
    simp (disch := omega) only [int32_of_inside, Int.tdiv_eq_ediv_of_nonneg]
    rw [leap_years, leap_centuries]
    omega
  · simp only [early, if_false]
    simp (disch := omega) only [int32_of_inside, Int.tdiv_eq_ediv_of_nonneg]
    rw [leap_years, leap_centuries]
    omega

end Date

/-! ### The date of a day -/

private theorem days_of_centuries {century year : Nat} (inCentury : year ≤ 99) :
    (daysBeforeYear (100 * century + year + 1) : Int) =
      (146097 * ((century : Int) + 49) + 3) / 4 + 1461 * (year : Int) / 4 - 1789323 := by
  have centuries : (146097 * ((century : Int) + 49) + 3) / 4 = 36524 * century + (century / 4 : Nat) + 1789689 := by
    omega
  have years : 1461 * (year : Int) / 4 = 365 * year + (year / 4 : Nat) := by omega
  have everyFourth : (100 * century + year + 1 + 3) / 4 = 25 * century + year / 4 + 1 := by omega
  have hundreds : (100 * century + year + 1 + 99) / 100 = century + 1 := by omega
  have everyFourHundredth : (100 * century + year + 1 + 399) / 400 = century / 4 + 1 := by omega
  rw [daysBeforeYear_eq, everyFourth, hundreds, everyFourHundredth, centuries, years]
  omega

private theorem century_found {century year days : Int} (inCentury : 0 ≤ year ∧ year ≤ 99)
    (inYear : 0 ≤ days ∧ days ≤ 365)
    (leap : days = 365 → year % 4 = 3 ∧ (year = 99 → century % 4 = 3)) :
    4 * ((146097 * (century + 49) + 3) / 4 + 1461 * year / 4 + days) / 146097 = century + 49 := by
  omega

private theorem year_found {year days : Int} (inCentury : 0 ≤ year ∧ year ≤ 99)
    (inYear : 0 ≤ days ∧ days ≤ 365) (leap : days = 365 → year % 4 = 3) :
    4000 * (1461 * year / 4 + days + 1) / 1461001 = year := by
  omega

private theorem month_found {month day : Nat} (months : 1 ≤ month ∧ month ≤ 12)
    (days : 1 ≤ day ∧ day ≤ 31) (february : month = 2 → day ≤ 29)
    (short : month = 4 ∨ month = 6 ∨ month = 9 ∨ month = 11 → day ≤ 30) :
    80 * (275 * (month : Int) / 9 + day + if month < 3 then 306 else -61) / 2447 =
      if month < 3 then (month : Int) + 10 else month - 2 := by
  obtain ⟨first, last⟩ := months
  interval_cases month <;> simp at * <;> omega

private theorem monthDays_bounds (date : Date) :
    (date.month = 2 → date.day ≤ 29) ∧
      (date.month = 4 ∨ date.month = 6 ∨ date.month = 9 ∨ date.month = 11 → date.day ≤ 30) ∧
      (date.month = 2 → date.day = 29 → IsLeap date.year) := by
  have inside := date.days.2
  unfold monthDays at inside
  refine ⟨fun february => ?_, fun short => ?_, fun february last => ?_⟩
  · rw [if_pos february] at inside
    split at inside <;> omega
  · rw [if_neg (by omega), if_pos short] at inside
    exact inside
  · rw [if_pos february] at inside
    by_contra common
    rw [if_neg common] at inside
    omega

/-- Where a date is among the years that start in March: the century, the year in it and the day in that. -/
structure InMarchYear (date : Date) (century year : Nat) (inYear : Int) : Prop where
  inCentury : year ≤ 99
  marchYear : date.year = 100 * century + year + if date.month < 3 then 1 else 0
  behind : inYear = 275 * (date.month : Int) / 9 + date.day + if date.month < 3 then 275 else -92
  number : (date.number : Int) + 1789628 = (146097 * ((century : Int) + 49) + 3) / 4 + 1461 * (year : Int) / 4 + inYear
  inside : 0 ≤ inYear ∧ inYear ≤ 365
  leapDay : inYear = 365 → (year : Int) % 4 = 3 ∧ ((year : Int) = 99 → (century : Int) % 4 = 3)

private theorem inMarchYear (date : Date) (first : 1 ≤ date.year) :
    ∃ century year inYear, InMarchYear date century year inYear := by
  obtain ⟨century, year, inCentury, marchYear⟩ : ∃ century year : Nat, year ≤ 99 ∧
      date.year = 100 * century + year + (if date.month < 3 then 1 else 0) := by
    split
    · exact ⟨(date.year - 1) / 100, (date.year - 1) % 100, by omega, by omega⟩
    · exact ⟨date.year / 100, date.year % 100, by omega, by omega⟩
  obtain ⟨february, short, leap⟩ := monthDays_bounds date
  have months := date.months
  have days : 1 ≤ date.day ∧ date.day ≤ 31 :=
    ⟨date.days.1, date.days.2.trans (monthDays_le date.year date.month)⟩
  obtain ⟨inYear, behind⟩ : ∃ inYear : Int, inYear =
      275 * (date.month : Int) / 9 + date.day + if date.month < 3 then 275 else -92 := ⟨_, rfl⟩
  refine ⟨century, year, inYear, inCentury, marchYear, behind, ?_, ?_, ?_⟩
  · have centuries := @days_of_centuries century year inCentury
    rw [date.number_eq]
    split
    case isTrue early =>
      rw [if_pos early] at behind marchYear
      rw [marchYear]
      omega
    case isFalse late =>
      rw [if_neg late] at behind marchYear
      rw [marchYear, Nat.add_zero]
      omega
  · rw [behind]
    split <;> omega
  · intro last
    have day : date.month = 2 ∧ date.day = 29 := by
      split at behind <;> omega
    have leap := leap day.1 day.2
    rw [if_pos (by omega)] at marchYear
    unfold IsLeap at leap
    omega

/-- The date of a modified Julian day is found again. -/
theorem convertMjdToDate_number (date : Date) (first : 1 ≤ date.year) (last : date.year ≤ 10000) :
    convertMjdToDate (date.number - 678942) = ((date.year : Int), (date.month : Int), (date.day : Int)) := by
  obtain ⟨century, year, inYear, inCentury, marchYear, behind, number, inside, leapDay⟩ := inMarchYear date first
  obtain ⟨february, short, -⟩ := monthDays_bounds date
  have months := date.months
  have days : 1 ≤ date.day ∧ date.day ≤ 31 :=
    ⟨date.days.1, date.days.2.trans (monthDays_le date.year date.month)⟩
  have start : int32 ((date.number : Int) - 678942 + 2400001 + 68569) =
      (146097 * ((century : Int) + 49) + 3) / 4 + 1461 * (year : Int) / 4 + inYear := by
    rw [int32_of_inside (by omega) (by omega)]
    omega
  have c : (int32 (4 * ((146097 * ((century : Int) + 49) + 3) / 4 + 1461 * (year : Int) / 4 + inYear))).tdiv
      146097 = century + 49 := by
    rw [int32_of_inside (by omega) (by omega), Int.tdiv_eq_ediv_of_nonneg (by omega)]
    exact century_found (by omega) inside leapDay
  have inCenturyDay : int32 ((146097 * ((century : Int) + 49) + 3) / 4 + 1461 * (year : Int) / 4 + inYear -
      (int32 (146097 * (century + 49) + 3)).tdiv 4) = 1461 * (year : Int) / 4 + inYear := by
    simp (disch := omega) only [int32_of_inside, Int.tdiv_eq_ediv_of_nonneg]
    omega
  have y : (int32 (4000 * int32 (1461 * (year : Int) / 4 + inYear + 1))).tdiv 1461001 = year := by
    simp (disch := omega) only [int32_of_inside, Int.tdiv_eq_ediv_of_nonneg]
    exact year_found (by omega) inside fun last => (leapDay last).1
  have inYearDay : int32 (1461 * (year : Int) / 4 + inYear - (int32 (1461 * year)).tdiv 4 + 31) = inYear + 31 := by
    simp (disch := omega) only [int32_of_inside, Int.tdiv_eq_ediv_of_nonneg]
    omega
  obtain ⟨m, monthCount⟩ : ∃ m : Int, m = if date.month < 3 then (date.month : Int) + 10 else date.month - 2 :=
    ⟨_, rfl⟩
  have month : (int32 (80 * (inYear + 31))).tdiv 2447 = m := by
    rw [int32_of_inside (by omega) (by omega), Int.tdiv_eq_ediv_of_nonneg (by omega), monthCount,
      ← month_found months days february short, behind]
    congr 2
    split <;> omega
  unfold convertMjdToDate
  simp only [start, c, inCenturyDay, y, inYearDay, month]
  have wrapped : m / 11 = if date.month < 3 then 1 else 0 := by
    rw [monthCount]
    split <;> omega
  have day : inYear + 31 - 2447 * m / 80 = date.day := by
    rw [behind, monthCount]
    obtain ⟨first, last⟩ := months
    interval_cases date.month <;> simp <;> omega
  have fewMonths : 0 ≤ m ∧ m ≤ 12 := by
    split at monthCount <;> omega
  simp (disch := omega) only [int32_of_inside, Int.tdiv_eq_ediv_of_nonneg, day]
  rw [wrapped]
  refine Prod.ext ?_ (Prod.ext ?_ rfl)
  · dsimp only
    split at marchYear <;> omega
  · dsimp only
    split at monthCount <;> omega

/-! ### The day of the week -/

private theorem daysBeforeYear_next (year : Nat) :
    (daysBeforeYear (year + 1) : Int) = 365 * year + (year / 4 : Nat) - (year / 100 : Nat) + (year / 400 : Nat) + 366 := by
  have everyFourth : (year + 1 + 3) / 4 = year / 4 + 1 := by omega
  have hundreds : (year + 1 + 99) / 100 = year / 100 + 1 := by omega
  have everyFourHundredth : (year + 1 + 399) / 400 = year / 400 + 1 := by omega
  rw [daysBeforeYear_eq, everyFourth, hundreds, everyFourHundredth]
  omega

private theorem weekDay_sum {year month day : Nat} (years : year ≤ 10000)
    (months : 3 ≤ month ∧ month ≤ 14) (short : day ≤ 31) :
    (uint32 (uint32 (day + 2 * month + (uint32 (3 * (month + 1)) / 5 : Nat) + year +
      (year / 4 : Nat) - (year / 100 : Nat) + (year / 400 : Nat)) % 7 + 1 : Nat) : Int) =
    (day + 2 * month + (3 * (month + 1) / 5 : Nat) + year + (year / 4 : Nat) - (year / 100 : Nat) +
      (year / 400 : Nat)) % 7 + 1 := by
  have triple : uint32 (3 * ((month : Int) + 1)) = 3 * (month + 1) := uint32_natCast (by omega) (by omega)
  rw [triple]
  have inside := @uint32_of_inside (day + 2 * month + (3 * (month + 1) / 5 : Nat) + year +
    (year / 4 : Nat) - (year / 100 : Nat) + (year / 400 : Nat)) (by omega) (by omega)
  rw [uint32_of_inside (by omega) (by omega)]
  omega

private theorem days_before_month {month : Nat} (months : 3 ≤ month ∧ month ≤ 12) :
    275 * month / 9 + 1 = 30 * month + 3 * (month + 1) / 5 := by
  obtain ⟨first, last⟩ := months
  interval_cases month <;> rfl

theorem dateToWeekDay_eq (date : Date) (first : 1 ≤ date.year) (last : date.year ≤ 10000) :
    (dateToWeekDay date.year date.month date.day : Int) = (date.number + 4) % 7 + 1 := by
  have months := date.months
  have some := date.days.1
  have short : date.day ≤ 31 := date.days.2.trans (monthDays_le date.year date.month)
  rw [date.number_eq]
  unfold dateToWeekDay
  by_cases early : date.month < 3
  · -- January and February are the last months of the year before
    obtain ⟨year, next⟩ : ∃ year, date.year = year + 1 := ⟨date.year - 1, by omega⟩
    have count := daysBeforeYear_next year
    have before : uint32 ((date.year : Int) - 1) = year := uint32_natCast (by omega) (by omega)
    have late : uint32 ((date.month : Int) + 12) = date.month + 12 := uint32_natCast (by omega) (by omega)
    rw [if_pos early, if_pos (show date.month = 1 ∨ date.month = 2 by omega), before, late, next]
    refine (weekDay_sum (by omega) (by omega) short).trans ?_
    obtain month | month : date.month = 1 ∨ date.month = 2 := by omega
    · rw [month]
      omega
    · rw [month]
      omega
  · have count := daysBeforeYear_next date.year
    rw [if_neg early, if_neg (show ¬(date.month = 1 ∨ date.month = 2) by omega)]
    refine (weekDay_sum (by omega) (by omega) short).trans ?_
    have days := days_before_month (show 3 ≤ date.month ∧ date.month ≤ 12 by omega)
    generalize 275 * date.month / 9 = before at days ⊢
    omega

/-! ### The days of the Unix epoch -/

private theorem doy_eq {month : Nat} (months : 1 ≤ month ∧ month ≤ 12) :
    doy.getD ((month : Int) - 1).toNat 0 = (275 * month / 9 : Nat) - if month < 3 then 29 else 31 := by
  obtain ⟨first, last⟩ := months
  interval_cases month <;> rfl

/-- Of the years that `epochToTime` knows, every fourth one is a leap year. -/
theorem dayNumber_eq (date : Date) (years : 1970 ≤ date.year ∧ date.year ≤ 2099) :
    dayNumber date.year date.month date.day = date.number - 719529 := by
  obtain ⟨first, last⟩ := years
  have some := date.days.1
  -- 1900 is the only one of the centuries that is passed over
  have centuries {year : Nat} (first : 1969 ≤ year) (last : year ≤ 2099) : year / 100 = year / 400 + 15 := by
    omega
  obtain ⟨year, next⟩ : ∃ year, date.year = year + 1 := ⟨date.year - 1, by omega⟩
  have count := daysBeforeYear_next year
  have count' := daysBeforeYear_next (year + 1)
  rw [@centuries year (by omega) (by omega)] at count
  rw [@centuries (year + 1) (by omega) (by omega)] at count'
  have months := date.months
  rw [date.number_eq, next]
  unfold dayNumber
  generalize daysBeforeYear (year + 1) = days at count ⊢
  generalize daysBeforeYear (year + 1 + 1) = days' at count' ⊢
  rw [doy_eq months]
  by_cases early : date.month < 3
  · rw [if_pos early, if_pos early, if_neg (by omega)]
    omega
  · rw [if_neg early, if_neg early]
    split_ifs <;> omega

/-- The helpers agree on every date. -/
theorem calendars_agree (date : Date) (first : 1 ≤ date.year) (last : date.year ≤ 10000) :
    convertMjdToDate (convertDateToMjd date.year date.month date.day) =
        ((date.year : Int), (date.month : Int), (date.day : Int)) ∧
      convertDateToMjd date.next.year date.next.month date.next.day =
        convertDateToMjd date.year date.month date.day + 1 ∧
      dateToWeekDay date.year date.month date.day =
        (convertDateToMjd date.year date.month date.day + 2) % 7 + 1 ∧
      (1970 ≤ date.year → date.year ≤ 2099 → ∀ hour minute second : Int,
        epochToTime date.year date.month date.day hour minute second =
          ⟨(convertDateToMjd date.year date.month date.day - 40587) * 86400 + int32 (hour * 3600) +
            int32 (minute * 60) + second, 0⟩) := by
  have mjd := convertDateToMjd_eq date first (by omega)
  have number := date.number_next
  refine ⟨?_, ?_, ?_, fun early late hour minute second => ?_⟩
  · rw [mjd, convertMjdToDate_number date first last]
  · obtain ⟨first', last'⟩ := date.next_year
    rw [mjd, convertDateToMjd_eq date.next (by omega) (by omega), number]
    omega
  · rw [mjd, dateToWeekDay_eq date first last]
    omega
  · have days : (date.number : Int) - 719529 = date.number - 678942 - 40587 := by omega
    rw [epochToTime_eq ⟨early, late⟩ date.months, dayNumber_eq date ⟨early, late⟩, mjd, days]

/-- A leap day of a century. -/
theorem calendars_agree_leap :
    let date : Date := ⟨2000, 2, 29, by decide, by decide⟩
    convertMjdToDate (convertDateToMjd date.year date.month date.day) =
        ((date.year : Int), (date.month : Int), (date.day : Int)) ∧
      convertDateToMjd date.next.year date.next.month date.next.day =
        convertDateToMjd date.year date.month date.day + 1 ∧
      dateToWeekDay date.year date.month date.day =
        (convertDateToMjd date.year date.month date.day + 2) % 7 + 1 ∧
      (1970 ≤ date.year → date.year ≤ 2099 → ∀ hour minute second : Int,
        epochToTime date.year date.month date.day hour minute second =
          ⟨(convertDateToMjd date.year date.month date.day - 40587) * 86400 + int32 (hour * 3600) +
            int32 (minute * 60) + second, 0⟩) :=
  calendars_agree ⟨2000, 2, 29, by decide, by decide⟩ (by decide) (by decide)

end InertialSense.TimeConversion
