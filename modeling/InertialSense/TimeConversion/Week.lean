import InertialSense.TimeConversion.Model

/-! The time of the week in GPS and in UTC: there and back, and the weekday that goes with it. -/

namespace InertialSense.TimeConversion

def UtcTime.milliseconds (time : UtcTime) : Int :=
  time.hour * millisecondsPerHour + time.minute * millisecondsPerMinute +
    time.second * millisecondsPerSecond + time.millisecond

/-- The fields of a time of day are in their ranges. -/
structure UtcTime.InRange (time : UtcTime) : Prop where
  hour : 0 ≤ time.hour ∧ time.hour < 24
  minute : 0 ≤ time.minute ∧ time.minute < 60
  second : 0 ≤ time.second ∧ time.second < 60
  millisecond : 0 ≤ time.millisecond ∧ time.millisecond < 1000

/-- The time of day that so many milliseconds of the day are split into. -/
def ofToday (todayMs : Int) : UtcTime :=
  { hour := todayMs.tdiv millisecondsPerHour
    minute := (todayMs.tdiv 60000).tmod 60
    second := (todayMs.tdiv 1000).tmod 60
    millisecond := todayMs.tmod 1000 }

section Today

variable {todayMs : Int} (above : 0 ≤ todayMs)
include above

theorem ofToday_eq : ofToday todayMs =
    ⟨todayMs / 3600000, todayMs / 60000 % 60, todayMs / 1000 % 60, todayMs % 1000⟩ := by
  have minutes : 0 ≤ todayMs / 60000 := by omega
  have seconds : 0 ≤ todayMs / 1000 := by omega
  simp only [ofToday, millisecondsPerHour, Int.tdiv_eq_ediv_of_nonneg above,
    Int.tmod_eq_emod_of_nonneg above, Int.tmod_eq_emod_of_nonneg minutes,
    Int.tmod_eq_emod_of_nonneg seconds]

theorem ofToday_milliseconds : (ofToday todayMs).milliseconds = todayMs := by
  rw [ofToday_eq above]
  simp only [UtcTime.milliseconds, millisecondsPerHour, millisecondsPerMinute, millisecondsPerSecond]
  omega

theorem ofToday_inRange (below : todayMs < millisecondsPerDay) : (ofToday todayMs).InRange := by
  unfold millisecondsPerDay at below
  rw [ofToday_eq above]
  constructor <;> dsimp only <;> omega

end Today

section Instant

variable {tow : Nat} {leapS : Int} (inWeek : tow < 604800000) (leapAbove : 0 ≤ leapS)
  (leapBelow : leapS < 86400)
include inWeek leapAbove leapBelow

/-- The time of day belongs to the time of week without the leap seconds. -/
theorem gpsTowMsToUtcTime_eq :
    gpsTowMsToUtcTime tow leapS = ofToday ((tow - 1000 * leapS) % millisecondsPerDay) := by
  have leapMs : int32 (leapS * 1000) = leapS * 1000 := int32_of_inside (by omega) (by omega)
  have less : int32 (tow - leapS * 1000) = tow - leapS * 1000 := int32_of_inside (by omega) (by omega)
  have wrapped : int32 (tow - leapS * 1000 + 604800000) = tow - leapS * 1000 + 604800000 ∨
      0 ≤ tow - leapS * 1000 := by
    by_cases negative : tow - leapS * 1000 < 0
    · exact .inl (int32_of_inside (by omega) (by omega))
    · exact .inr (by omega)
  unfold gpsTowMsToUtcTime
  simp only [leapMs, less, millisecondsPerWeek]
  change ofToday _ = _
  split
  case isTrue negative =>
    rw [wrapped.resolve_right (by omega), Int.tmod_eq_emod_of_nonneg (by omega)]
    unfold millisecondsPerDay
    congr 1
    omega
  case isFalse positive =>
    rw [Int.tmod_eq_emod_of_nonneg (by omega)]
    unfold millisecondsPerDay
    congr 1
    omega

/-- The weekday is -1 when the leap seconds reach into the week before. -/
theorem gpsTowMsToUtcWeekday_eq :
    gpsTowMsToUtcWeekday tow leapS = (tow - 1000 * leapS) / millisecondsPerDay := by
  have leapMs : int32 (leapS * 1000) = leapS * 1000 := int32_of_inside (by omega) (by omega)
  have less : int32 (tow - leapS * 1000) = tow - leapS * 1000 := int32_of_inside (by omega) (by omega)
  unfold gpsTowMsToUtcWeekday
  simp only [leapMs, less, millisecondsPerDay]
  split
  case isTrue negative =>
    have further : int32 (tow - leapS * 1000 - 86400000) = tow - leapS * 1000 - 86400000 :=
      int32_of_inside (by omega) (by omega)
    have divided : (-(tow - leapS * 1000 - 86400000)).tdiv 86400000 = 1 := by
      rw [Int.tdiv_eq_ediv_of_nonneg (by omega)]
      omega
    rw [Int.neg_tdiv] at divided
    rw [further]
    omega
  case isFalse positive =>
    rw [Int.tdiv_eq_ediv_of_nonneg (by omega)]
    omega

private theorem milliseconds_eq : (gpsTowMsToUtcTime tow leapS).milliseconds =
    (tow - 1000 * leapS) % millisecondsPerDay := by
  rw [gpsTowMsToUtcTime_eq inWeek leapAbove leapBelow]
  exact ofToday_milliseconds (Int.emod_nonneg _ (by decide))

private theorem inRange : (gpsTowMsToUtcTime tow leapS).InRange := by
  rw [gpsTowMsToUtcTime_eq inWeek leapAbove leapBelow]
  exact ofToday_inRange (Int.emod_nonneg _ (by decide)) (Int.emod_lt_of_pos _ (by decide))

end Instant

/-- The way back puts the weekday, the time of day and the leap seconds together again. -/
theorem utcTimeToGpsTowMs_eq {time : UtcTime} {utcWeekday leapS : Int} {tow : Nat}
    (inWeek : tow < 604800000)
    (sum : time.milliseconds + leapS * 1000 + utcWeekday * millisecondsPerDay = tow) :
    utcTimeToGpsTowMs time utcWeekday leapS = tow := by
  have whole : int32 tow = tow := int32_of_inside (by omega) (by omega)
  have inside : (uint32 tow : Int) = tow := uint32_of_inside (by omega) (by omega)
  unfold UtcTime.milliseconds at sum
  unfold utcTimeToGpsTowMs
  simp only [sum, whole, millisecondsPerWeek]
  rw [if_neg (by omega), if_neg (by omega)]
  exact_mod_cast inside

/-- The time of week is converted to UTC and back without a loss. -/
theorem timeOfWeek_restored (tow : Nat) (leapS : Int) (inWeek : tow < 604800000)
    (leapAbove : 0 ≤ leapS) (leapBelow : leapS < 86400) :
    utcTimeToGpsTowMs (gpsTowMsToUtcTime tow leapS) (gpsTowMsToUtcWeekday tow leapS) leapS = tow ∧
      (gpsTowMsToUtcTime tow leapS).InRange := by
  refine ⟨utcTimeToGpsTowMs_eq inWeek ?_, inRange inWeek leapAbove leapBelow⟩
  rw [milliseconds_eq inWeek leapAbove leapBelow, gpsTowMsToUtcWeekday_eq inWeek leapAbove leapBelow]
  unfold millisecondsPerDay
  omega

/-- In the leap seconds at the start of the week, too. -/
theorem timeOfWeek_restored_leap :
    utcTimeToGpsTowMs (gpsTowMsToUtcTime 5250 18) (gpsTowMsToUtcWeekday 5250 18) 18 = 5250 ∧
      (gpsTowMsToUtcTime 5250 18).InRange :=
  timeOfWeek_restored 5250 18 (by decide) (by decide) (by decide)

def SameInstant (tow : Nat) (leapS weekday : Int) (time : UtcTime) : Prop :=
  (0 ≤ weekday ∧ weekday ≤ 6) ∧
    (weekday * millisecondsPerDay + time.milliseconds) % millisecondsPerWeek =
      (tow - 1000 * leapS) % millisecondsPerWeek

/-- The weekday goes with the time of day if and only if the leap seconds do not reach into the
week before. -/
theorem weekday_sameInstant_iff (tow : Nat) (leapS : Int) (inWeek : tow < 604800000)
    (leapAbove : 0 ≤ leapS) (leapBelow : leapS < 86400) :
    SameInstant tow leapS (gpsTowMsToUtcWeekday tow leapS) (gpsTowMsToUtcTime tow leapS) ↔
      1000 * leapS ≤ tow := by
  unfold SameInstant
  rw [milliseconds_eq inWeek leapAbove leapBelow, gpsTowMsToUtcWeekday_eq inWeek leapAbove leapBelow]
  have whole := Int.emod_add_mul_ediv (tow - 1000 * leapS) millisecondsPerDay
  rw [Int.add_comm, Int.mul_comm] at whole
  rw [whole]
  unfold millisecondsPerDay
  omega

theorem weekday_sameInstant_monday :
    SameInstant 100000000 18 (gpsTowMsToUtcWeekday 100000000 18) (gpsTowMsToUtcTime 100000000 18) :=
  (weekday_sameInstant_iff 100000000 18 (by decide) (by decide) (by decide)).mpr (by decide)

/-- In the first second of the week it is still Saturday in UTC, and the weekday is -1. -/
theorem weekday_leap :
    ¬ ∀ (tow : Nat) (leapS : Int), tow < 604800000 → 0 ≤ leapS → leapS < 86400 →
      SameInstant tow leapS (gpsTowMsToUtcWeekday tow leapS) (gpsTowMsToUtcTime tow leapS) := by
  intro claimed
  have first := (claimed 0 18 (by decide) (by decide) (by decide)).1
  revert first
  decide

end InertialSense.TimeConversion
