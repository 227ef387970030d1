import Mathlib.Algebra.BigOperators.Group.List.Basic
import Mathlib.Data.List.Range
import Mathlib.Tactic.IntervalCases

/-! The Gregorian calendar, also before its introduction: its dates, the day after each, and the
number of a day, which counts the years and months before it. -/

namespace Foundation.Gregorian

/-- Every fourth year is a leap year; of the centuries, every fourth one. -/
def IsLeap (year : ℕ) : Prop := year % 4 = 0 ∧ (year % 100 ≠ 0 ∨ year % 400 = 0)

instance (year : ℕ) : Decidable (IsLeap year) := inferInstanceAs (Decidable (_ ∧ _))

def yearDays (year : ℕ) : ℕ := if IsLeap year then 366 else 365

def monthDays (year month : ℕ) : ℕ :=
  if month = 2 then if IsLeap year then 29 else 28
  else if month = 4 ∨ month = 6 ∨ month = 9 ∨ month = 11 then 30
  else 31

/-- A date of the calendar. -/
@[ext] structure Date where
  year : ℕ
  month : ℕ
  day : ℕ
  months : 1 ≤ month ∧ month ≤ 12
  days : 1 ≤ day ∧ day ≤ monthDays year month

theorem monthDays_pos (year month : ℕ) : 1 ≤ monthDays year month := by
  unfold monthDays
  split
  · split <;> omega
  · split <;> omega

theorem monthDays_le (year month : ℕ) : monthDays year month ≤ 31 := by
  unfold monthDays
  split
  · split <;> omega
  · split <;> omega

def firstOf (year month : ℕ) (months : 1 ≤ month ∧ month ≤ 12) : Date :=
  ⟨year, month, 1, months, Nat.le_refl 1, monthDays_pos year month⟩

def Date.next (date : Date) : Date :=
  if more : date.day < monthDays date.year date.month then
    { date with day := date.day + 1, days := ⟨Nat.le_add_left .., more⟩ }
  else if more : date.month < 12 then firstOf date.year (date.month + 1) ⟨Nat.le_add_left .., more⟩
  else firstOf (date.year + 1) 1 (by decide)

theorem Date.next_year (date : Date) : date.year ≤ date.next.year ∧ date.next.year ≤ date.year + 1 := by
  unfold next
  split
  case isTrue => exact ⟨Nat.le_refl _, Nat.le_succ _⟩
  case isFalse =>
    split
    case isTrue => exact ⟨Nat.le_refl _, Nat.le_succ _⟩
    case isFalse => exact ⟨Nat.le_succ _, Nat.le_refl _⟩

def daysBeforeYear (year : ℕ) : ℕ := ((List.range year).map yearDays).sum

def daysBeforeMonth (year month : ℕ) : ℕ := ((List.range' 1 (month - 1)).map (monthDays year)).sum

/-- The number of a day: the first one is the first of January of the year 0. -/
def Date.number (date : Date) : ℕ :=
  daysBeforeYear date.year + daysBeforeMonth date.year date.month + date.day

theorem daysBeforeYear_succ (year : ℕ) : daysBeforeYear (year + 1) = daysBeforeYear year + yearDays year := by
  unfold daysBeforeYear
  rw [List.range_succ, List.map_append, List.sum_append, List.map_singleton, List.sum_singleton]

theorem daysBeforeMonth_succ (year : ℕ) {month : ℕ} (some : 1 ≤ month) :
    daysBeforeMonth year (month + 1) = daysBeforeMonth year month + monthDays year month := by
  obtain ⟨count, rfl⟩ := Nat.exists_eq_add_of_le some
  unfold daysBeforeMonth
  rw [Nat.add_sub_cancel, Nat.add_sub_cancel_left, Nat.add_comm 1 count, List.range'_1_concat,
    List.map_append, List.sum_append, List.map_singleton, List.sum_singleton, Nat.add_comm 1 count]

theorem yearDays_eq (year : ℕ) : yearDays year = daysBeforeMonth year 12 + monthDays year 12 := by
  by_cases leap : IsLeap year
  · simp [yearDays, daysBeforeMonth, monthDays, leap, List.range']
  · simp [yearDays, daysBeforeMonth, monthDays, leap, List.range']

theorem Date.number_next (date : Date) : date.next.number = date.number + 1 := by
  obtain ⟨year, month, day, ⟨first, last⟩, ⟨some, inside⟩⟩ := date
  unfold Date.next
  split
  case isTrue => rfl
  case isFalse full =>
    obtain rfl : day = monthDays year month := Nat.le_antisymm inside (Nat.le_of_not_lt full)
    split
    case isTrue =>
      unfold number firstOf
      dsimp only
      rw [daysBeforeMonth_succ year first, ← Nat.add_assoc (daysBeforeYear year)]
    case isFalse december =>
      obtain rfl : month = 12 := Nat.le_antisymm last (Nat.le_of_not_lt december)
      unfold number firstOf
      dsimp only
      rw [daysBeforeYear_succ, yearDays_eq, ← Nat.add_assoc, show daysBeforeMonth (year + 1) 1 = 0 from rfl]

/-! ### Closed forms -/

/-- The leap days are counted by quotients. -/
theorem daysBeforeYear_eq (year : ℕ) :
    daysBeforeYear year = 365 * year + (year + 3) / 4 - (year + 99) / 100 + (year + 399) / 400 := by
  induction year with
  | zero => rfl
  | succ year ih =>
    rw [daysBeforeYear_succ, ih]
    unfold yearDays
    by_cases leap : IsLeap year
    · rw [if_pos leap]
      unfold IsLeap at leap
      omega
    · rw [if_neg leap]
      unfold IsLeap at leap
      omega

/-- The days of the months are counted by a quotient; from March on the leap day is one of them. -/
theorem daysBeforeMonth_eq (year : ℕ) {month : ℕ} (months : 1 ≤ month ∧ month ≤ 12) :
    daysBeforeMonth year month =
      if month < 3 then 275 * month / 9 - 30 else yearDays year + 275 * month / 9 - 397 := by
  obtain ⟨first, last⟩ := months
  by_cases leap : IsLeap year
  · interval_cases month <;> simp [daysBeforeMonth, monthDays, yearDays, leap, List.range']
  · interval_cases month <;> simp [daysBeforeMonth, monthDays, yearDays, leap, List.range']

/-- The number of a day; from March on it counts from the end of the year. -/
theorem Date.number_eq (date : Date) :
    date.number = if date.month < 3 then daysBeforeYear date.year + 275 * date.month / 9 + date.day - 30
      else daysBeforeYear (date.year + 1) + 275 * date.month / 9 + date.day - 397 := by
  unfold number
  rw [daysBeforeMonth_eq date.year date.months, daysBeforeYear_succ]
  have first := date.months.1
  split
  case isTrue => omega
  case isFalse =>
    have long : 365 ≤ yearDays date.year := by
      unfold yearDays
      split <;> decide
    omega

end Foundation.Gregorian
