import Linux012.Kernel.Mktime

/-!
# The two clocks

`time_init` takes the year of the clock for one of the last century, `sys_print_sys_time` for one of
this century.
-/

namespace Linux012.Kernel.Mktime

open Lib (Date isLeap monthDays daysBeforeMonth daysOfYears)

/-- What the clock can show. -/
structure Reading.Valid (reading : Reading) : Prop where
  digits : ∀ byte ∈ [reading.second, reading.minute, reading.hour, reading.day, reading.month,
    reading.year], byte &&& 15 ≤ 9 ∧ byte >>> 4 ≤ 9
  second : bcdToBin reading.second < 60
  minute : bcdToBin reading.minute < 60
  hour : bcdToBin reading.hour < 24
  day : 1 ≤ bcdToBin reading.day ∧ bcdToBin reading.day ≤ 31
  month : 1 ≤ bcdToBin reading.month ∧ bcdToBin reading.month ≤ 12

/-- What is printed are the numbers of a date, and `startup_time` holds its seconds, as far as 32
bits can. -/
def Agrees (reading : Reading) : Prop :=
  ∃ (date : Date) (startup : UInt32), date.Valid ∧ timeInit reading = some startup ∧
    startup.toNat = date.seconds % 2 ^ 32 ∧
    sysPrintSysTime reading =
      [(date.year : Int), date.month + 1, date.day, date.hour, date.minute, date.second]

section Wrapping

variable {tm : Tm} {value result : Int}

theorem wrapped_spec (ran : wrapped value = some result) :
    ∃ turns, result = value + 4294967296 * turns := by
  cases ran
  have same := @Int.bmod_emod value 4294967296
  exact ⟨(value.bmod 4294967296) / 4294967296 - value / 4294967296, by omega⟩

theorem wrapped_small (low : -1000 ≤ value) (high : value ≤ 1000) :
    wrapped value = some value :=
  wrapped_of_checked (if_pos (by omega))

/-- What `kernel_mktime` takes away behind February, for any year. -/
theorem adjust_spec {mon years : Int} (low : -70 ≤ years) (high : years ≤ 29)
    (ran : adjust wrapped mon years value = some result) :
    ∃ less turns, 0 ≤ less ∧ less ≤ 1 ∧ result = value - 86400 * less + 4294967296 * turns := by
  rw [adjust, wrapped_small (by omega) (by omega), bind_some, day_eq] at ran
  split at ran
  · obtain ⟨turns, rfl⟩ := wrapped_spec ran
    exact ⟨1, turns, by omega, by omega, by omega⟩
  · cases ran
    exact ⟨0, 0, by omega, by omega, by omega⟩

/-- What `kernel_mktime` returns for two digits of the year, up to a day. -/
theorem kernelMktime_spec {before : Nat} (low : 0 ≤ tm.tmYear) (high : tm.tmYear ≤ 99)
    (first : 1 ≤ tm.tmMday) (last : tm.tmMday ≤ 31)
    (table : monthAt tm.tmMon = some (86400 * (before : Int)))
    (ran : kernelMktime wrapped tm = some result) :
    ∃ less turns, 0 ≤ less ∧ less ≤ 1 ∧ result =
      86400 * (365 * (tm.tmYear - 70) + (tm.tmYear - 69).tdiv 4 + before - less +
        (tm.tmMday - 1)) + 3600 * tm.tmHour + 60 * tm.tmMin + tm.tmSec + 4294967296 * turns := by
  have next : tm.tmYear - 70 + 1 = tm.tmYear - 69 := by omega
  rw [kernelMktime, wrapped_small (by omega) (by omega), bind_some] at ran
  obtain ⟨ofYears, isYears, ran⟩ := bind_eq_some ran
  obtain ⟨k₁, rfl⟩ := wrapped_spec isYears
  rw [next, wrapped_small (by omega) (by omega), bind_some] at ran
  obtain ⟨leaps, isLeaps, ran⟩ := bind_eq_some ran
  obtain ⟨k₂, rfl⟩ := wrapped_spec isLeaps
  obtain ⟨res₁, isRes, ran⟩ := bind_eq_some ran
  obtain ⟨k₃, rfl⟩ := wrapped_spec isRes
  rw [table, bind_some] at ran
  obtain ⟨res₂, isRes, ran⟩ := bind_eq_some ran
  obtain ⟨k₄, isRes₂⟩ := wrapped_spec isRes
  obtain ⟨res₃, isAdjusted, ran⟩ := bind_eq_some ran
  obtain ⟨less, k₅, lessLow, lessHigh, isRes₃⟩ := adjust_spec (by omega) (by omega) isAdjusted
  rw [wrapped_small (by omega) (by omega), bind_some] at ran
  obtain ⟨ofDays, isDays, ran⟩ := bind_eq_some ran
  obtain ⟨k₆, isDays⟩ := wrapped_spec isDays
  obtain ⟨res₄, isRes, ran⟩ := bind_eq_some ran
  obtain ⟨k₇, isRes₄⟩ := wrapped_spec isRes
  obtain ⟨ofHours, isHours, ran⟩ := bind_eq_some ran
  obtain ⟨k₈, isHours⟩ := wrapped_spec isHours
  obtain ⟨res₅, isRes, ran⟩ := bind_eq_some ran
  obtain ⟨k₉, isRes₅⟩ := wrapped_spec isRes
  obtain ⟨ofMinutes, isMinutes, ran⟩ := bind_eq_some ran
  obtain ⟨l₁, isMinutes⟩ := wrapped_spec isMinutes
  obtain ⟨res₆, isRes, ran⟩ := bind_eq_some ran
  obtain ⟨l₂, isRes₆⟩ := wrapped_spec isRes
  obtain ⟨l₃, isResult⟩ := wrapped_spec ran
  rw [day_eq, year_eq] at isRes₂
  rw [day_eq] at isDays
  rw [hour_eq] at isHours
  rw [minute_eq] at isMinutes
  refine ⟨less, k₁ + k₂ + k₃ + k₄ + k₅ + k₆ + k₇ + k₈ + k₉ + l₁ + l₂ + l₃, lessLow, lessHigh, ?_⟩
  omega

end Wrapping

/-! ## They never agree -/

variable {reading : Reading}

/-- Two digits. -/
theorem bcdToBin_le {byte : UInt8} (low : byte &&& 15 ≤ 9) (high : byte >>> 4 ≤ 9) :
    0 ≤ bcdToBin byte ∧ bcdToBin byte ≤ 99 := by
  have lowNat : byte.toNat &&& 15 ≤ 9 := by
    have := UInt8.le_iff_toNat_le.mp low
    rwa [UInt8.toNat_and] at this
  have highNat : byte.toNat >>> 4 ≤ 9 := by
    have := UInt8.le_iff_toNat_le.mp high
    rwa [UInt8.toNat_shiftRight] at this
  rw [bcdToBin]
  omega

/-- The months before a month of the printed year, and of a leap year. -/
theorem daysBeforeMonth_near (leap : Bool) (index : Fin 12) :
    daysBeforeMonth leap index ≤ daysBeforeMonth true index ∧
      daysBeforeMonth true index ≤ daysBeforeMonth leap index + 1 := by
  revert leap index
  decide

/-- A hundred years are more than no seconds and fewer than 32 bits can count. -/
theorem apart {years before before' days time : Nat} {less turns : Int}
    (lessLow : 0 ≤ less) (lessHigh : less ≤ 1) (near : before ≤ before' ∧ before' ≤ before + 1) :
    (86400 * (365 * ((years : Int) - 70) + ((years : Int) - 69).tdiv 4 + before' - less + days) +
        time + 4294967296 * turns) % 4294967296 ≠
      ((86400 * (365 * (years + 30) + (years + 31) / 4 + before + days) + time : Nat) : Int) %
        4294967296 := by
  obtain ⟨magic, isMagic⟩ : ∃ magic, ((years : Int) - 69).tdiv 4 = magic := ⟨_, rfl⟩
  obtain ⟨leaps, isLeaps⟩ : ∃ leaps, (years + 31) / 4 = leaps := ⟨_, rfl⟩
  have magicRest : ((years : Int) - 69).tmod 4 + 4 * magic = (years : Int) - 69 := by
    rw [← isMagic]
    exact Int.tmod_add_mul_tdiv ..
  have restLow : -4 < ((years : Int) - 69).tmod 4 := Int.lt_tmod_of_pos _ (by decide)
  have restHigh : ((years : Int) - 69).tmod 4 < 4 := Int.tmod_lt_of_pos _ (by decide)
  have leapsNear : 22 ≤ (leaps : Int) - magic ∧ (leaps : Int) - magic ≤ 28 := by omega
  rw [isMagic, isLeaps]
  clear isMagic isLeaps magicRest restLow restHigh
  omega

theorem toNat_ofInt {value : Int} : ((UInt32.ofInt value).toNat : Int) = value % 4294967296 := by
  rw [UInt32.ofInt, UInt32.toNat_ofNat']
  omega

theorem seconds_eq {days hours minutes seconds : Nat} :
    ((days * 24 + hours) * 60 + minutes) * 60 + seconds =
      86400 * days + (3600 * hours + 60 * minutes + seconds) := by
  omega

theorem time_cast {hours minutes seconds : Nat} :
    ((3600 * hours + 60 * minutes + seconds : Nat) : Int) =
      3600 * hours + 60 * minutes + seconds := by
  omega

/-- The time of day. -/
def timeOf (date : Date) : Nat := 3600 * date.hour + 60 * date.minute + date.second

/-- The seconds up to a date of this century. -/
theorem seconds_century {date : Date} (low : 2000 ≤ date.year) (high : date.year ≤ 2099) :
    date.seconds =
      86400 * (365 * (date.year - 2000 + 30) + (date.year - 2000 + 31) / 4 +
        daysBeforeMonth (isLeap date.year) date.month + (date.day - 1)) + timeOf date := by
  have years : date.year - 1970 = date.year - 2000 + 30 := by omega
  have few : date.year - 2000 + 30 ≤ 130 := by omega
  rw [Date.seconds, Date.days, years, daysOfYears_eq few, seconds_eq]
  rfl

/-- What `kernel_mktime` returns for that date with its year taken for one of the last century. -/
theorem kernelMktime_century {tm : Tm} {date : Date} {res : Int} (low : 2000 ≤ date.year)
    (high : date.year ≤ 2099) (valid : date.Valid) (isYear : tm.tmYear + 2000 = date.year)
    (isMonth : tm.tmMon = date.month) (isDay : tm.tmMday = date.day)
    (isHour : tm.tmHour = date.hour) (isMinute : tm.tmMin = date.minute)
    (isSecond : tm.tmSec = date.second) (ran : kernelMktime wrapped tm = some res) :
    ∃ less turns : Int, 0 ≤ less ∧ less ≤ 1 ∧ res =
      86400 * (365 * (((date.year - 2000 : Nat) : Int) - 70) +
        (((date.year - 2000 : Nat) : Int) - 69).tdiv 4 + daysBeforeMonth true date.month - less +
        (date.day - 1 : Nat)) + timeOf date + 4294967296 * turns := by
  have years : tm.tmYear = (date.year - 2000 : Nat) := by omega
  have dayPos := valid.dayPos
  have dayHigh : date.day ≤ 31 := valid.day.trans (monthDays_le _ _)
  have table : monthAt tm.tmMon = some (86400 * (daysBeforeMonth true date.month : Int)) := by
    rw [isMonth, monthAt, if_neg (by omega), Int.toNat_natCast, month_eq, day_eq]
  obtain ⟨less, turns, lessLow, lessHigh, isRes⟩ := kernelMktime_spec (by omega) (by omega)
    (by omega) (by omega) table ran
  have dayOf : (date.day : Int) - 1 = (date.day - 1 : Nat) := by omega
  refine ⟨less, turns, lessLow, lessHigh, ?_⟩
  rw [isRes, years, isDay, isHour, isMinute, isSecond, dayOf, timeOf, time_cast, ← Int.add_assoc,
    ← Int.add_assoc]

/-- There is no reading for which the two clocks agree: they are a hundred years apart. -/
theorem not_agrees (valid : reading.Valid) : ¬Agrees reading := by
  rintro ⟨date, startup, isDate, started, seconds, printed⟩
  obtain ⟨lowDigit, highDigit⟩ := valid.digits reading.year (by simp)
  obtain ⟨yearLow, yearHigh⟩ := bcdToBin_le lowDigit highDigit
  simp only [sysPrintSysTime, List.cons.injEq, and_true] at printed
  obtain ⟨isYear, isMonth, isDay, isHour, isMinute, isSecond⟩ := printed
  obtain ⟨res, ran, isStartup⟩ := Option.map_eq_some_iff.mp started
  have startupNat : (startup.toNat : Int) = res % 4294967296 := by
    rw [← isStartup, toNat_ofInt]
  have low : 2000 ≤ date.year := by
    clear seconds startupNat
    omega
  have high : date.year ≤ 2099 := by
    clear seconds startupNat
    omega
  obtain ⟨less, turns, lessLow, lessHigh, isRes⟩ := kernelMktime_century low high isDate isYear
    (Int.sub_eq_iff_eq_add.mpr isMonth) isDay isHour isMinute isSecond ran
  have far := @apart (date.year - 2000) (daysBeforeMonth (isLeap date.year) date.month)
    (daysBeforeMonth true date.month) (date.day - 1) (timeOf date) less turns lessLow lessHigh
    (daysBeforeMonth_near _ _)
  rw [← isRes, ← seconds_century low high, ← startupNat, seconds] at far
  exact far (Int.natCast_emod ..)

theorem not_agrees_turnOfCentury : ¬Agrees ⟨0x59, 0x59, 0x23, 0x31, 0x12, 0x99⟩ :=
  not_agrees ⟨by decide +kernel, by decide, by decide, by decide, by decide, by decide⟩

/-- In the afternoon of the first day of 2025. -/
def newYear : Reading := ⟨0x00, 0x30, 0x15, 0x01, 0x01, 0x25⟩

/-- That afternoon is printed, but `startup_time` is that of the afternoon in 1925. -/
theorem newYear_disagrees : newYear.Valid ∧ ¬Agrees newYear := by
  refine ⟨⟨by decide +kernel, by decide, by decide, by decide, by decide, by decide⟩, ?_⟩
  rintro ⟨date, startup, -, started, seconds, printed⟩
  have isDate : date = ⟨2025, 0, 1, 15, 30, 0⟩ := by
    obtain ⟨year, month, day, hour, minute, second⟩ := date
    have shown : sysPrintSysTime newYear = [2025, 1, 1, 15, 30, 0] := by decide
    rw [shown] at printed
    simp only [List.cons.injEq, and_true] at printed
    obtain ⟨isYear, isMonth, isDay, isHour, isMinute, isSecond⟩ := printed
    have isIndex : month = 0 := Fin.ext (by show month.val = 0; omega)
    rw [Date.mk.injEq]
    exact ⟨by omega, isIndex, by omega, by omega, by omega, by omega⟩
  have isStartup : timeInit newYear = some 2874952696 := by decide
  have isSame : startup = 2874952696 := Option.some.inj (started.symm.trans isStartup)
  rw [isDate, isSame] at seconds
  exact absurd seconds (by decide)

end Linux012.Kernel.Mktime
