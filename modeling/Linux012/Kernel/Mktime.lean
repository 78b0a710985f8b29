import Mathlib.Algebra.Group.Nat.Defs
import Linux012.Lib.Gregorian
import Linux012.Lib.Sizes

/-!
# The clock at startup

`kernel_mktime` and `time_init` of `mktime.c`, and `sys_print_sys_time` of `sys02.c`.  What is done
with the result of each operation on `int`s is a parameter: `checked` stops at the first overflow,
`wrapped` is what the machine does.
-/

namespace Linux012.Kernel.Mktime

open Lib (Date isLeap monthDays daysBeforeMonth yearDays daysOfYears)

/-- `MINUTE`. -/
def minute : Int := 60

/-- `HOUR`. -/
def hour : Int := 60 * minute

/-- `DAY`. -/
def day : Int := 24 * hour

/-- `YEAR`. -/
def year : Int := 365 * day

theorem minute_eq : minute = 60 := rfl

theorem hour_eq : hour = 3600 := rfl

theorem day_eq : day = 86400 := rfl

theorem year_eq : year = 31536000 := rfl

/-- `month`: "interestingly, we assume leap-years". -/
def month : List Int := [
  0,
  day * 31,
  day * (31 + 29),
  day * (31 + 29 + 31),
  day * (31 + 29 + 31 + 30),
  day * (31 + 29 + 31 + 30 + 31),
  day * (31 + 29 + 31 + 30 + 31 + 30),
  day * (31 + 29 + 31 + 30 + 31 + 30 + 31),
  day * (31 + 29 + 31 + 30 + 31 + 30 + 31 + 31),
  day * (31 + 29 + 31 + 30 + 31 + 30 + 31 + 31 + 30),
  day * (31 + 29 + 31 + 30 + 31 + 30 + 31 + 31 + 30 + 31),
  day * (31 + 29 + 31 + 30 + 31 + 30 + 31 + 31 + 30 + 31 + 30)]

/-- The fields of `struct tm` that are used. -/
structure Tm where
  tmSec : Int
  tmMin : Int
  tmHour : Int
  tmMday : Int
  tmMon : Int
  tmYear : Int
  deriving DecidableEq, Repr

/-- An `int` that has to fit. -/
def checked (value : Int) : Option Int :=
  if -2147483648 ≤ value ∧ value < 2147483648 then some value else none

/-- An `int` that wraps. -/
def wrapped (value : Int) : Option Int := some (value.bmod 4294967296)

/-- `month[mon]`, if there is such an entry. -/
def monthAt (mon : Int) : Option Int := if mon < 0 then none else month[mon.toNat]?

/-- "If it wasn't a leap-year, we have to adjust". -/
def adjust (int : Int → Option Int) (mon years res : Int) : Option Int := do
  -- "and (y+2) here."
  let afterNext ← int (years + 2)
  if mon > 1 ∧ afterNext.tmod 4 ≠ 0 then int (res - day) else return res

/-- `kernel_mktime`. -/
def kernelMktime (int : Int → Option Int) (tm : Tm) : Option Int := do
  let years ← int (tm.tmYear - 70)
  -- "magic offsets (y+1) needed to get leapyears right."
  let ofYears ← int (year * years)
  let next ← int (years + 1)
  let leaps ← int (day * next.tdiv 4)
  let res ← int (ofYears + leaps)
  let ofMonth ← monthAt tm.tmMon
  let res ← int (res + ofMonth)
  let res ← adjust int tm.tmMon years res
  let mday ← int (tm.tmMday - 1)
  let ofDays ← int (day * mday)
  let res ← int (res + ofDays)
  let ofHours ← int (hour * tm.tmHour)
  let res ← int (res + ofHours)
  let ofMinutes ← int (minute * tm.tmMin)
  let res ← int (res + ofMinutes)
  int (res + tm.tmSec)

/-- The bytes of the clock. -/
structure Reading where
  second : UInt8
  minute : UInt8
  hour : UInt8
  day : UInt8
  month : UInt8
  year : UInt8
  deriving DecidableEq, Repr

/-- `BCD_TO_BIN`. -/
def bcdToBin (val : UInt8) : Int := ((val.toNat &&& 15) + (val.toNat >>> 4) * 10 : Nat)

/-- `time_init`, when the reading stands still: what `startup_time` is set to. -/
def timeInit (reading : Reading) : Option UInt32 :=
  let time : Tm :=
    { tmSec := bcdToBin reading.second
      tmMin := bcdToBin reading.minute
      tmHour := bcdToBin reading.hour
      tmMday := bcdToBin reading.day
      tmMon := bcdToBin reading.month - 1
      tmYear := bcdToBin reading.year }
  (kernelMktime wrapped time).map fun res => UInt32.ofInt res

/-- The arguments of the last `printk` of `sys_print_sys_time`. -/
def sysPrintSysTime (reading : Reading) : List Int :=
  [bcdToBin reading.year + 2000, bcdToBin reading.month, bcdToBin reading.day,
    bcdToBin reading.hour, bcdToBin reading.minute, bcdToBin reading.second]

/-! ## From 1970 to 2037 -/

/-- The date of a `struct tm`. -/
def Tm.IsDate (tm : Tm) (date : Date) : Prop :=
  tm.tmYear = date.year - 1900 ∧ tm.tmMon = date.month ∧ tm.tmMday = date.day ∧
    tm.tmHour = date.hour ∧ tm.tmMin = date.minute ∧ tm.tmSec = date.second

/-- Within these years, every fourth year is a leap year. -/
theorem isLeap_iff {year : Nat} (low : 1970 ≤ year) (high : year ≤ 2099) :
    isLeap year = true ↔ year % 4 = 0 := by
  rw [isLeap, Bool.and_eq_true, Bool.or_eq_true, beq_iff_eq, bne_iff_ne, beq_iff_eq]
  omega

/-- The days of the years up to 2099. -/
theorem daysOfYears_eq {years : Nat} (few : years ≤ 130) :
    daysOfYears years = 365 * years + (years + 1) / 4 := by
  induction years with
  | zero => rfl
  | succ years ih =>
      have leap := @isLeap_iff (1970 + years) (by omega) (by omega)
      rw [daysOfYears, ih (by omega), yearDays]
      by_cases fourth : (1970 + years) % 4 = 0
      · rw [if_pos (leap.mpr fourth)]
        omega
      · rw [if_neg (fun isLeap => fourth (leap.mp isLeap))]
        omega

/-- The table counts the days of a leap year. -/
theorem month_eq (index : Fin 12) :
    month[index.val]? = some (day * (daysBeforeMonth true index : Int)) := by
  revert index
  decide

/-- A year that is none has one day less before March. -/
theorem daysBeforeMonth_false (index : Fin 12) :
    daysBeforeMonth true index =
      daysBeforeMonth false index + if 1 < index.val then 1 else 0 := by
  revert index
  decide

theorem monthDays_le (leap : Bool) (index : Fin 12) : monthDays leap index ≤ 31 := by
  revert leap index
  decide

theorem daysBeforeMonth_true_le (index : Fin 12) : daysBeforeMonth true index ≤ 335 := by
  revert index
  decide

/-- An operation that does not overflow. -/
theorem bind_checked {α : Type} {value : Int} {next : Int → Option α}
    (low : -2147483648 ≤ value) (high : value < 2147483648) :
    (checked value >>= next) = next value := by
  rw [checked, if_pos ⟨low, high⟩, Option.bind_eq_bind, Option.bind_some]

theorem bind_some {α β : Type} {value : α} {next : α → Option β} :
    (some value >>= next) = next value := rfl

/-- What `kernel_mktime` takes away behind February. -/
def adjustment (years mon : Nat) : Nat := if 1 < mon ∧ (years + 2) % 4 ≠ 0 then 1 else 0

theorem adjustment_le {years mon : Nat} : adjustment years mon ≤ 1 := by
  rw [adjustment]
  split
  · exact le_refl _
  · exact Nat.zero_le _

theorem adjust_eq {years mon : Nat} {res : Int} (few : years ≤ 67) (low : 0 ≤ res)
    (high : res < 2147483648) :
    adjust checked mon years res = some (res - 86400 * adjustment years mon) := by
  have rest : ((years : Int) + 2).tmod 4 = ((years + 2) % 4 : Nat) := by
    rw [Int.tmod_eq_emod_of_nonneg (by omega)]
    omega
  rw [adjust, adjustment, bind_checked (by omega) (by omega), rest, day_eq]
  by_cases adjusts : 1 < mon ∧ (years + 2) % 4 ≠ 0
  · rw [if_pos (by omega), if_pos adjusts, checked, if_pos (by omega)]
    simp
  · rw [if_neg (by omega), if_neg adjusts]
    simp

variable {tm : Tm} {years mon before mday hours minutes seconds : Nat}

/-- No operation overflows up to 2037. -/
theorem kernelMktime_fits (isYear : tm.tmYear = years + 70) (isMonth : tm.tmMon = mon)
    (isDay : tm.tmMday = mday) (isHour : tm.tmHour = hours) (isMinute : tm.tmMin = minutes)
    (isSecond : tm.tmSec = seconds) (few : years ≤ 67)
    (table : monthAt mon = some (86400 * (before : Int))) (most : before ≤ 335)
    (first : 1 ≤ mday) (last : mday ≤ 31) (hour : hours < 24) (minute : minutes < 60)
    (second : seconds < 60) :
    kernelMktime checked tm =
      some ((86400 * (365 * years + (years + 1) / 4 + before + (mday - 1)) + 3600 * hours +
        60 * minutes + seconds : Nat) - 86400 * (adjustment years mon : Int)) := by
  obtain ⟨leaps, isLeaps⟩ : ∃ leaps, (years + 1) / 4 = leaps := ⟨_, rfl⟩
  have fewLeaps : leaps ≤ 17 := by omega
  have nextLeaps : ((years : Int) + 1).tdiv 4 = leaps := by
    rw [Int.tdiv_eq_ediv_of_nonneg (by omega)]
    omega
  have yearsOf : (years : Int) + 70 - 70 = years := by omega
  obtain ⟨less, isLess⟩ : ∃ less, adjustment years mon = less := ⟨_, rfl⟩
  have atMostOne : less ≤ 1 := isLess ▸ adjustment_le
  rw [isLeaps, isLess, kernelMktime, isYear, isMonth, isDay, isHour, isMinute, isSecond, yearsOf,
    year_eq, day_eq, hour_eq, minute_eq]
  clear isLeaps
  rw [bind_checked (by omega) (by omega), bind_checked (by omega) (by omega),
    bind_checked (by omega) (by omega), nextLeaps, bind_checked (by omega) (by omega),
    bind_checked (by omega) (by omega), table, bind_some,
    bind_checked (by omega) (by omega), adjust_eq few (by omega) (by omega), isLess,
    bind_some]
  rw [bind_checked (by omega) (by omega), bind_checked (by omega) (by omega),
    bind_checked (by omega) (by omega), bind_checked (by omega) (by omega),
    bind_checked (by omega) (by omega), bind_checked (by omega) (by omega),
    bind_checked (by omega) (by omega), checked, if_pos (by omega)]
  refine congrArg some ?_
  omega

theorem bind_eq_some {α β : Type} {first : Option α} {next : α → Option β} {result : β}
    (ran : (first >>= next) = some result) :
    ∃ value, first = some value ∧ next value = some result := Option.bind_eq_some_iff.mp ran

/-- Where nothing overflows, wrapping makes no difference. -/
theorem wrapped_of_checked {value result : Int} (fits : checked value = some result) :
    wrapped value = some result := by
  rw [checked] at fits
  split at fits
  next inRange =>
    cases fits
    rw [wrapped, Int.bmod_eq_of_le (by omega) (by omega)]
  next => cases fits

theorem adjust_wrapped {mon years res result : Int}
    (fits : adjust checked mon years res = some result) :
    adjust wrapped mon years res = some result := by
  rw [adjust] at fits ⊢
  obtain ⟨afterNext, ran, fits⟩ := bind_eq_some fits
  rw [wrapped_of_checked ran, bind_some]
  split at fits
  next adjusts => rw [if_pos adjusts, wrapped_of_checked fits]
  next stays => rw [if_neg stays, fits]

theorem kernelMktime_wrapped {result : Int} (fits : kernelMktime checked tm = some result) :
    kernelMktime wrapped tm = some result := by
  rw [kernelMktime] at fits ⊢
  obtain ⟨_, ran, fits⟩ := bind_eq_some fits
  rw [wrapped_of_checked ran, bind_some]
  obtain ⟨_, ran, fits⟩ := bind_eq_some fits
  rw [wrapped_of_checked ran, bind_some]
  obtain ⟨_, ran, fits⟩ := bind_eq_some fits
  rw [wrapped_of_checked ran, bind_some]
  obtain ⟨_, ran, fits⟩ := bind_eq_some fits
  rw [wrapped_of_checked ran, bind_some]
  obtain ⟨_, ran, fits⟩ := bind_eq_some fits
  rw [wrapped_of_checked ran, bind_some]
  obtain ⟨_, ran, fits⟩ := bind_eq_some fits
  rw [ran, bind_some]
  obtain ⟨_, ran, fits⟩ := bind_eq_some fits
  rw [wrapped_of_checked ran, bind_some]
  obtain ⟨_, ran, fits⟩ := bind_eq_some fits
  rw [adjust_wrapped ran, bind_some]
  obtain ⟨_, ran, fits⟩ := bind_eq_some fits
  rw [wrapped_of_checked ran, bind_some]
  obtain ⟨_, ran, fits⟩ := bind_eq_some fits
  rw [wrapped_of_checked ran, bind_some]
  obtain ⟨_, ran, fits⟩ := bind_eq_some fits
  rw [wrapped_of_checked ran, bind_some]
  obtain ⟨_, ran, fits⟩ := bind_eq_some fits
  rw [wrapped_of_checked ran, bind_some]
  obtain ⟨_, ran, fits⟩ := bind_eq_some fits
  rw [wrapped_of_checked ran, bind_some]
  obtain ⟨_, ran, fits⟩ := bind_eq_some fits
  rw [wrapped_of_checked ran, bind_some]
  obtain ⟨_, ran, fits⟩ := bind_eq_some fits
  rw [wrapped_of_checked ran, bind_some]
  exact wrapped_of_checked fits

variable {date : Date}

/-- For the years up to 2037, `kernel_mktime` counts the seconds. -/
theorem kernelMktime_seconds (isDate : tm.IsDate date) (valid : date.Valid)
    (high : date.year ≤ 2037) : kernelMktime checked tm = some (date.seconds : Int) := by
  obtain ⟨isYear, isMonth, isDay, isHour, isMinute, isSecond⟩ := isDate
  have low := valid.year
  have dayPos := valid.dayPos
  have table : monthAt (date.month.val : Int) =
      some (86400 * (daysBeforeMonth true date.month : Int)) := by
    rw [monthAt, if_neg (by omega), Int.toNat_natCast, month_eq, day_eq]
  have short : date.day ≤ 31 := valid.day.trans (monthDays_le _ _)
  have counted := @kernelMktime_fits tm (date.year - 1970) date.month
    (daysBeforeMonth true date.month) date.day date.hour date.minute date.second (by omega) isMonth isDay isHour isMinute isSecond
    (by omega) table (daysBeforeMonth_true_le date.month) dayPos short valid.hour valid.minute
    valid.second
  have adjusted : daysBeforeMonth true date.month =
      daysBeforeMonth (isLeap date.year) date.month +
        adjustment (date.year - 1970) date.month := by
    have leap := isLeap_iff low (by omega)
    cases isLeap' : isLeap date.year with
    | true =>
        have fourth := leap.mp isLeap'
        rw [adjustment, if_neg (by omega), Nat.add_zero]
    | false =>
        have notFourth : date.year % 4 ≠ 0 := fun fourth => by
          rw [leap.mpr fourth] at isLeap'
          cases isLeap'
        rw [daysBeforeMonth_false, adjustment]
        exact congrArg (_ + ·) (if_congr (by omega) rfl rfl)
  rw [counted, Date.seconds, Date.days, daysOfYears_eq (by omega), adjusted]
  refine congrArg some ?_
  omega

/-- For every date from 1970 to 2037, `kernel_mktime` returns the number of seconds since the
beginning of 1970 without an overflow; a later date has a greater one. -/
theorem kernelMktime_exact (isDate : tm.IsDate date) (valid : date.Valid)
    (high : date.year ≤ 2037) :
    kernelMktime checked tm = some (date.seconds : Int) ∧
      kernelMktime wrapped tm = some (date.seconds : Int) ∧
      ∀ (tm' : Tm) (date' : Date), tm'.IsDate date' → date'.Valid → date'.year ≤ 2037 →
        date.Before date' →
        ∃ later, kernelMktime checked tm' = some later ∧ (date.seconds : Int) < later := by
  have counted := kernelMktime_seconds isDate valid high
  refine ⟨counted, kernelMktime_wrapped counted, fun tm' date' isDate' valid' high' before => ?_⟩
  exact ⟨_, kernelMktime_seconds isDate' valid' high',
    Int.ofNat_lt.mpr (Date.seconds_lt valid before)⟩

/-- The first leap day of this century. -/
theorem kernelMktime_exact_leapDay :
    kernelMktime checked ⟨59, 59, 23, 29, 1, 100⟩ = some 951868799 :=
  (@kernelMktime_exact ⟨59, 59, 23, 29, 1, 100⟩ ⟨2000, 1, 29, 23, 59, 59⟩
    ⟨rfl, rfl, rfl, rfl, rfl, rfl⟩ ⟨by decide, by decide, by decide, by decide, by decide, by decide⟩
    (by decide)).1

end Linux012.Kernel.Mktime
