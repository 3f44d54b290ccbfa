import Mathlib.Data.Int.Order.Basic

/-!
# The Gregorian calendar

A date is the number `toordinal` gives it: the first of January of year one is day one, a Monday.
-/

namespace Python.Calendar

/-- `date.weekday`: Monday is zero, Sunday is six. -/
def weekday (day : ℤ) : ℤ := (day + 6) % 7

def isLeap (year : ℤ) : Bool := year % 4 = 0 && (year % 100 ≠ 0 || year % 400 = 0)

/-- `_days_before_year`. -/
def daysBeforeYear (year : ℤ) : ℤ :=
  let past := year - 1
  past * 365 + past / 4 - past / 100 + past / 400

/-- `_DAYS_BEFORE_MONTH`. -/
def daysBefore : ℕ → ℤ
  | 1 => 0
  | 2 => 31
  | 3 => 59
  | 4 => 90
  | 5 => 120
  | 6 => 151
  | 7 => 181
  | 8 => 212
  | 9 => 243
  | 10 => 273
  | 11 => 304
  | 12 => 334
  | _ => 0

/-- The days that a leap year has more, from March on. -/
def leapDays (year : ℤ) : ℤ := if isLeap year then 1 else 0

/-- `date(year, month, day)`. -/
def date (year : ℤ) (month : ℕ) (day : ℤ) : ℤ :=
  daysBeforeYear year + daysBefore month + (if 2 < month then leapDays year else 0) + day

variable (year day : ℤ)

theorem weekday_range : 0 ≤ weekday day ∧ weekday day < 7 := by
  rw [weekday]
  omega

theorem leapDays_range : 0 ≤ leapDays year ∧ leapDays year ≤ 1 := by
  rw [leapDays]
  split <;> omega

/-- A day of January or February, by its place in the year. -/
theorem date_early {month : ℕ} (early : month ≤ 2) :
    date year month day = daysBeforeYear year + daysBefore month + day := by
  rw [date, if_neg (by omega), Int.add_zero]

/-- A day from March on. -/
theorem date_late {month : ℕ} (late : 2 < month) :
    date year month day = daysBeforeYear year + daysBefore month + leapDays year + day := by
  rw [date, if_pos late]

/-- From March on, every fourth year has counted one day more, every hundredth not and every four
hundredth again. -/
theorem daysBeforeYear_add_leapDays :
    daysBeforeYear year + leapDays year =
      365 * (year - 1) + year / 4 - year / 100 + year / 400 := by
  simp only [daysBeforeYear, leapDays, isLeap, Bool.and_eq_true, Bool.or_eq_true, decide_eq_true_eq,
    ne_eq]
  split <;> omega

/-- The years follow each other without a gap. -/
theorem daysBeforeYear_succ :
    daysBeforeYear (year + 1) = daysBeforeYear year + 365 + leapDays year := by
  have counted := daysBeforeYear_add_leapDays year
  simp only [daysBeforeYear] at counted ⊢
  omega

example : weekday (date 2024 3 29) = 4 := by decide

end Python.Calendar
