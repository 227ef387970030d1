import Mathlib.Algebra.Order.Floor.Semifield
import Mathlib.Algebra.Order.Round
import Mathlib.Data.Rat.Floor

/-! The time conversions of `time_conversion.cpp`. Machine integers are integers brought into
their range where an operation can leave it; floating point is read as exact arithmetic. -/

namespace InertialSense.TimeConversion

/-- An `int` that an operation leaves. -/
def int32 (value : Int) : Int := value.bmod (2 ^ 32)

/-- A `uint32_t` that an operation leaves. -/
def uint32 (value : Int) : Nat := (value % 2 ^ 32).toNat

theorem int32_of_inside {value : Int} (above : -2 ^ 31 ≤ value) (below : value < 2 ^ 31) :
    int32 value = value := by
  unfold int32
  rw [Int.bmod_def]
  split <;> omega

theorem uint32_of_inside {value : Int} (above : 0 ≤ value) (below : value < 2 ^ 32) :
    (uint32 value : Int) = value := by
  unfold uint32
  omega

def millisecondsPerWeek : Int := 604800000
def millisecondsPerDay : Int := 86400000
def millisecondsPerHour : Int := 3600000
def millisecondsPerMinute : Int := 60000
def millisecondsPerSecond : Int := 1000
def secondsPerWeek : Int := 604800

def gpsToUnixOffsetS : Int := 315964800

def daysPerSecond : Rat := 1 / 86400

/-- `utc_time_t`. -/
structure UtcTime where
  hour : Int
  minute : Int
  second : Int
  millisecond : Int
deriving DecidableEq, Repr

def gpsTowMsToUtcTime (gpsTimeOfWeekMs : Nat) (gpsLeapS : Int) : UtcTime :=
  let leapMs := int32 (gpsLeapS * 1000)
  let towMsMinusLeapMs := int32 (gpsTimeOfWeekMs - leapMs)
  -- Handle week wrap
  let towMsMinusLeapMs :=
    if towMsMinusLeapMs < 0 then int32 (towMsMinusLeapMs + millisecondsPerWeek) else towMsMinusLeapMs
  let todayMs := towMsMinusLeapMs.tmod millisecondsPerDay
  { hour := todayMs.tdiv millisecondsPerHour
    minute := (todayMs.tdiv 60000).tmod 60
    second := (todayMs.tdiv 1000).tmod 60
    millisecond := todayMs.tmod 1000 }

/-- `utcTimeToGpsTowMs`: what is stored as the time of week. -/
def utcTimeToGpsTowMs (time : UtcTime) (utcWeekday gpsLeapS : Int) : Nat :=
  let towMs := int32 (time.hour * millisecondsPerHour + time.minute * millisecondsPerMinute +
    time.second * millisecondsPerSecond + time.millisecond + gpsLeapS * 1000 +
    utcWeekday * millisecondsPerDay)
  -- Handle week wrap
  let towMs :=
    if towMs ≥ millisecondsPerWeek then towMs - millisecondsPerWeek
    else if towMs < 0 then towMs + millisecondsPerWeek
    else towMs
  uint32 towMs

def gpsTowMsToUtcWeekday (gpsTowMs leapS : Int) : Int :=
  let utcTowMs := int32 (gpsTowMs - int32 (leapS * 1000))
  -- Handle wrap
  let utcTowMs := if utcTowMs < 0 then int32 (utcTowMs - millisecondsPerDay) else utcTowMs
  utcTowMs.tdiv millisecondsPerDay

/-- `gtime_t`. -/
structure GTime where
  time : Int
  sec : Rat
deriving DecidableEq, Repr

/-- The conversion of a `double` to `int`, which cuts its fraction off. -/
def toInt (value : Rat) : Int := if 0 ≤ value then ⌊value⌋ else ⌈value⌉

@[simp] theorem toInt_intCast (value : Int) : toInt value = value := by
  simp [toInt]

@[simp] theorem toInt_natCast (value : Nat) : toInt value = value := by
  simp [toInt]

/-- The days of the year before each month, counted from one. -/
def doy : List Int := [1, 32, 60, 91, 121, 152, 182, 213, 244, 274, 305, 335]

/-- `epochToTime` of year, month, day, hour, minute and second. -/
def epochToTime (ep0 ep1 ep2 ep3 ep4 ep5 : Rat) : GTime :=
  let year := toInt ep0
  let mon := toInt ep1
  let day := toInt ep2
  if year < 1970 ∨ 2099 < year ∨ mon < 1 ∨ 12 < mon then ⟨0, 0⟩
  else
    -- leap year if year%4==0 in 1901-2099
    let days := (year - 1970) * 365 + (year - 1969).tdiv 4 + doy.getD (mon - 1).toNat 0 + day - 2 +
      (if year.tmod 4 = 0 ∧ mon ≥ 3 then 1 else 0)
    let sec := ⌊ep5⌋
    ⟨days * 86400 + int32 (toInt ep3 * 3600) + int32 (toInt ep4 * 60) + sec, ep5 - sec⟩

/-- The time of `gpsRefT0`. -/
def gpsRefTime : Int := 315964800

/-- `timeToGpst`: the time of week and the week. -/
def timeToGpst (t : GTime) : Rat × Int :=
  let sec := t.time - gpsRefTime
  let w := sec.tdiv secondsPerWeek
  ((sec - (w : Rat) * secondsPerWeek) + t.sec, int32 w)

/-- `UtcDateTimeToGpsTime`: the time of week and the week that it stores. -/
def utcDateTimeToGpsTime (year month day hour minute second : Rat) (leapSeconds : Int) : Nat × Nat :=
  let gtm := epochToTime year month day hour minute second
  let (iTOWd, week) := timeToGpst { gtm with time := gtm.time + leapSeconds }
  (⌊(iTOWd + 0.00001) * 1000⌋₊, uint32 week)

/-- What `julianToDate` stores. -/
structure JulianDate where
  year : Nat
  month : Nat
  day : Nat
  hour : Nat
  minute : Nat
  second : Nat
  millisecond : Nat
deriving DecidableEq, Repr

/-- The days of a month in `julianToDate`. -/
def daysInMonth (year month : Nat) : Nat :=
  if month = 2 ∧ ((year % 4 = 0 ∧ year % 100 ≠ 0) ∨ year % 400 = 0) then 29
  else [31, 28, 31, 30, 31, 30, 31, 31, 30, 31, 30, 31].getD (month - 1) 0

/-- The end of `julianToDate`: a millisecond that was rounded up to 1000 is carried. -/
def JulianDate.carry (date : JulianDate) : JulianDate :=
  if date.millisecond ≠ 1000 then date
  else
    let date := { date with millisecond := 0, second := date.second + 1 }
    if date.second ≠ 60 then date
    else
      let date := { date with second := 0, minute := date.minute + 1 }
      if date.minute ≠ 60 then date
      else
        let date := { date with minute := 0, hour := date.hour + 1 }
        if date.hour ≠ 24 then date
        else
          let date := { date with hour := 0, day := date.day + 1 }
          if date.day ≤ daysInMonth date.year date.month then date
          else
            let date := { date with day := 1, month := date.month + 1 }
            if date.month ≤ 12 then date else { date with month := 1, year := date.year + 1 }

/-- The year, month and day of month that `julianToDate` finds for a day `Z`. -/
def civil (Z : Nat) : Nat × Nat × Nat :=
  let alpha := ⌊((Z : Rat) - 1867216.25) / 36524.25⌋₊
  let A := if Z < 2299161 then Z else uint32 (Z + 1 + alpha - (alpha / 4 : Nat))
  let B := uint32 (A + 1524)
  let C := ⌊((B : Rat) - 122.1) / 365.25⌋₊
  let D := ⌊365.25 * (C : Rat)⌋₊
  let E := ⌊(uint32 ((B : Int) - D) : Rat) / 30.6001⌋₊
  let day := uint32 ((B : Int) - D - ⌊30.6001 * (E : Rat)⌋₊)
  let month := if E < 14 then uint32 (E - 1) else uint32 (E - 13)
  let year := if month > 2 then uint32 (C - 4716) else uint32 (C - 4715)
  (year, month, day)

/-- The hour, minute, second and millisecond that `julianToDate` finds for the seconds of a day. -/
def clock (totalSeconds : Rat) : Nat × Nat × Nat × Nat :=
  let hour := ⌊totalSeconds / 3600⌋₊
  let totalSeconds := totalSeconds - uint32 (hour * 3600)
  let minute := ⌊totalSeconds / 60⌋₊
  let totalSeconds := totalSeconds - uint32 (minute * 60)
  let second := ⌊totalSeconds⌋₊
  (hour, minute, second, (round ((totalSeconds - second) * 1000)).toNat)

def julianToDate (julian : Rat) : JulianDate :=
  let jd := julian + 0.5
  let Z := ⌊jd⌋₊
  let F := jd - Z
  let (year, month, wholeDay) := civil Z
  let fractionalDay := wholeDay + F
  let day := ⌊fractionalDay⌋₊
  let fractionalDayPart := fractionalDay - day
  let (hour, minute, second, millisecond) := clock (fractionalDayPart * 86400)
  JulianDate.carry { year, month, day, hour, minute, second, millisecond }

def gpsToUnix (gpsWeek gpsTimeofWeekMs leapSeconds : Nat) : Rat :=
  let gpsTow := gpsTimeofWeekMs / 1000
  let gpsTime := uint32 (gpsWeek * secondsPerWeek + gpsTow)
  let unixSeconds : Rat := uint32 (gpsTime + gpsToUnixOffsetS - leapSeconds)
  -- Include fractional seconds
  let gpsFracS := (uint32 (gpsTimeofWeekMs - gpsTow) : Rat) * 0.001
  unixSeconds + gpsFracS

def gpsToJulian (gpsWeek gpsMilliseconds leapSeconds : Nat) : Rat :=
  let gpsDays : Rat := uint32 (gpsWeek * 7)
  let gpsDays := gpsDays + (gpsMilliseconds * 0.001 - leapSeconds) * daysPerSecond
  -- Julian date for Jan 6, 1980 midnight - start of gps time
  2444244.5 + gpsDays

end InertialSense.TimeConversion
