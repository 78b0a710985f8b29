import Mathlib.Order.Monotone.Basic
import Mathlib.Data.Fin.VecNotation
import Mathlib.Data.List.FinRange
import Mathlib.Tactic.Common
import Mathlib.Algebra.GroupWithZero.Nat

/-!
# The Gregorian calendar

Dates with their time of day, and the seconds from the beginning of 1970 to them.  Months are
numbered from 0.
-/

namespace Linux012.Lib

/-- Every fourth year, but of the full centuries only every fourth. -/
def isLeap (year : Nat) : Bool :=
  year % 4 == 0 && (year % 100 != 0 || year % 400 == 0)

/-- The length of a month. -/
def monthDays (leap : Bool) : Fin 12 → Nat :=
  ![31, if leap then 29 else 28, 31, 30, 31, 30, 31, 31, 30, 31, 30, 31]

/-- The days of a year in front of a month. -/
def daysBeforeMonth (leap : Bool) (month : Fin 12) : Nat :=
  (((List.finRange 12).take month).map (monthDays leap)).sum

def yearDays (year : Nat) : Nat := if isLeap year then 366 else 365

/-- The days from 1970 to the beginning of the year that comes `years` later. -/
def daysOfYears : (years : Nat) → Nat
  | 0 => 0
  | years + 1 => daysOfYears years + yearDays (1970 + years)

/-- A date and a time of day. -/
structure Date where
  year : Nat
  month : Fin 12
  day : Nat
  hour : Nat
  minute : Nat
  second : Nat
  deriving DecidableEq, Repr

namespace Date

/-- A date of the calendar from 1970 on. -/
structure Valid (date : Date) : Prop where
  year : 1970 ≤ date.year
  dayPos : 1 ≤ date.day
  day : date.day ≤ monthDays (isLeap date.year) date.month
  hour : date.hour < 24
  minute : date.minute < 60
  second : date.second < 60

/-- The days from the beginning of 1970 on. -/
def days (date : Date) : Nat :=
  daysOfYears (date.year - 1970) + daysBeforeMonth (isLeap date.year) date.month + (date.day - 1)

/-- The seconds from the beginning of 1970 on. -/
def seconds (date : Date) : Nat :=
  ((date.days * 24 + date.hour) * 60 + date.minute) * 60 + date.second

/-- One date comes before another. -/
def Before (a b : Date) : Prop :=
  a.year < b.year ∨ a.year = b.year ∧
    (a.month < b.month ∨ a.month = b.month ∧
      (a.day < b.day ∨ a.day = b.day ∧
        (a.hour < b.hour ∨ a.hour = b.hour ∧
          (a.minute < b.minute ∨ a.minute = b.minute ∧ a.second < b.second))))

end Date

/-! ## Order -/

theorem daysOfYears_strictMono : StrictMono daysOfYears := by
  refine strictMono_nat_of_lt_succ fun years => ?_
  rw [daysOfYears, yearDays]
  split
  · omega
  · omega

/-- A month ends where the next one begins. -/
theorem daysBeforeMonth_add {leap : Bool} {month later : Fin 12} (before : month < later) :
    daysBeforeMonth leap month + monthDays leap month ≤ daysBeforeMonth leap later := by
  revert leap month later
  decide

/-- The last month ends with the year. -/
theorem daysBeforeMonth_le {year : Nat} {month : Fin 12} :
    daysBeforeMonth (isLeap year) month + monthDays (isLeap year) month ≤ yearDays year := by
  have both : ∀ (leap : Bool) (month : Fin 12),
      daysBeforeMonth leap month + monthDays leap month ≤ if leap then 366 else 365 := by
    decide
  exact both (isLeap year) month

namespace Date

variable {a b : Date}

theorem days_lt_of_year (valid : a.Valid) (before : a.year < b.year) :
    a.days < b.days := by
  have inYear := @daysBeforeMonth_le a.year a.month
  have day := valid.day
  have pos := valid.dayPos
  have low := valid.year
  have next : daysOfYears (a.year - 1970 + 1) ≤ daysOfYears (b.year - 1970) :=
    daysOfYears_strictMono.monotone (by omega)
  have thisYear : daysOfYears (a.year - 1970 + 1) =
      daysOfYears (a.year - 1970) + yearDays a.year := by
    rw [daysOfYears, Nat.add_sub_cancel' low]
  rw [days, days]
  omega

theorem days_lt_of_month (valid : a.Valid) (sameYear : a.year = b.year)
    (before : a.month < b.month) : a.days < b.days := by
  have inMonth := @daysBeforeMonth_add (isLeap a.year) a.month b.month before
  have day := valid.day
  have pos := valid.dayPos
  rw [days, days, ← sameYear]
  omega

theorem days_lt_of_day (valid : a.Valid) (sameYear : a.year = b.year)
    (sameMonth : a.month = b.month) (before : a.day < b.day) : a.days < b.days := by
  have pos := valid.dayPos
  rw [days, days, ← sameYear, ← sameMonth]
  omega

/-- A later day is later at every time of day. -/
theorem seconds_lt_of_days (valid : a.Valid) (before : a.days < b.days) :
    a.seconds < b.seconds := by
  have hour := valid.hour
  have minute := valid.minute
  have second := valid.second
  rw [seconds, seconds]
  omega

theorem seconds_lt (valid : a.Valid) (before : a.Before b) :
    a.seconds < b.seconds := by
  have hour := valid.hour
  have minute := valid.minute
  have second := valid.second
  rcases before with year | ⟨sameYear, month | ⟨sameMonth, day | ⟨sameDay, time⟩⟩⟩
  · exact seconds_lt_of_days valid (days_lt_of_year valid year)
  · exact seconds_lt_of_days valid (days_lt_of_month valid sameYear month)
  · exact seconds_lt_of_days valid (days_lt_of_day valid sameYear sameMonth day)
  · have sameDays : a.days = b.days := by
      rw [days, days, sameYear, sameMonth, sameDay]
    rw [seconds, seconds, sameDays]
    omega

end Date

end Linux012.Lib
