import Linux012.Kernel.Identity
import Linux012.Lib.Words

/-!
# The time of day

`sys_gettimeofday` and `sys_settimeofday` of `sys.c`.  What was set is kept as the
second of the start and as an offset to `jiffies`, an `unsigned int` that may stand for a negative
one.
-/

namespace Linux012.Kernel.TimeOfDay

open Identity (eperm)
open Lib (toInt_toInt32 toNat_toUInt32)

/-- `HZ`. -/
def hz : UInt32 := 100

/-- `CT_TO_SECS`. -/
def ctToSecs (ticks : UInt32) : UInt32 := ticks / hz

/-- `CT_TO_USECS`. -/
def ctToUsecs (ticks : UInt32) : UInt32 := ticks % hz * 1000000 / hz

/-- `struct timeval`. -/
structure Timeval where
  tvSec : Int32
  tvUsec : Int32
  deriving DecidableEq

/-- `struct timezone`. -/
structure Timezone where
  tzMinuteswest : Int32
  tzDsttime : Int32
  deriving DecidableEq

/-- What the kernel keeps of the time. -/
structure Clock where
  jiffies : UInt32
  startupTime : UInt32
  jiffiesOffset : UInt32
  sysTz : Timezone
  firsttime : Bool
  deriving DecidableEq

namespace Clock

/-- `timer_interrupt`. -/
def tick (clock : Clock) : Clock := { clock with jiffies := clock.jiffies + 1 }

/-- `adjust_clock`. -/
def adjustClock (clock : Clock) : Clock :=
  { clock with startupTime := clock.startupTime + (clock.sysTz.tzMinuteswest * 60).toUInt32 }

end Clock

/-- `sys_gettimeofday`: what is written to `tv` and to `tz`, when they are not `NULL`. -/
def sysGettimeofday (tv tz : Bool) (clock : Clock) : Option Timeval × Option Timezone :=
  let ticks := clock.jiffies + clock.jiffiesOffset
  (if tv then some ⟨(clock.startupTime + ctToSecs ticks).toInt32, (ctToUsecs ticks).toInt32⟩
    else none,
   if tz then some clock.sysTz else none)

/-- The part of `sys_settimeofday` about `tz`. -/
def setTimezone (tv : Option Timeval) (tz : Timezone) (clock : Clock) : Clock :=
  let clock := { clock with sysTz := tz }
  if clock.firsttime then
    let clock := { clock with firsttime := false }
    if tv.isNone then clock.adjustClock else clock
  else clock

/-- The part of `sys_settimeofday` about `tv`. -/
def setTime (tv : Timeval) (clock : Clock) : Clock :=
  { clock with
    startupTime := tv.tvSec.toUInt32 - clock.jiffies / hz
    jiffiesOffset := (tv.tvUsec * hz.toInt32 / 1000000).toUInt32 - clock.jiffies % hz }

def sysSettimeofday (suser : Bool) (tv : Option Timeval) (tz : Option Timezone) (clock : Clock) :
    Clock × Int :=
  if !suser then (clock, eperm)
  else
    let clock := (tz.map (setTimezone tv · clock)).getD clock
    let clock := (tv.map (setTime · clock)).getD clock
    (clock, 0)

/-! ## What is read -/

section Words

variable {tv : Timeval}

/-- The hundredths in an offset of microseconds. -/
theorem hundredths_eq (low : 0 ≤ tv.tvUsec.toInt) (high : tv.tvUsec.toInt < 1000000) :
    ((tv.tvUsec * hz.toInt32 / 1000000).toUInt32.toNat : Int) = tv.tvUsec.toInt / 10000 := by
  have isHz : hz.toInt32.toInt = 100 := by decide
  have isMillion : (1000000 : Int32).toInt = 1000000 := by decide
  have product : (tv.tvUsec * hz.toInt32).toInt = tv.tvUsec.toInt * 100 := by
    rw [Int32.toInt_mul, isHz]
    exact Int.bmod_eq_of_le (by omega) (by omega)
  have quotient : (tv.tvUsec.toInt * 100).tdiv 1000000 = tv.tvUsec.toInt / 10000 := by
    rw [Int.tdiv_eq_ediv_of_nonneg (by omega)]
    omega
  rw [toNat_toUInt32, Int32.toInt_div, product, isMillion, quotient,
    Int.bmod_eq_of_le (by omega) (by omega)]
  omega

theorem ctToSecs_toNat (ticks : UInt32) : (ctToSecs ticks).toNat = ticks.toNat / 100 :=
  UInt32.toNat_div ..

theorem ctToUsecs_toNat (ticks : UInt32) :
    (ctToUsecs ticks).toNat = ticks.toNat % 100 * 10000 := by
  have isHz : hz.toNat = 100 := by decide
  have isMillion : (1000000 : UInt32).toNat = 1000000 := by decide
  rw [ctToUsecs, UInt32.toNat_div, UInt32.toNat_mul, UInt32.toNat_mod, isHz, isMillion]
  omega

end Words

section Ticks

variable {clock : Clock}

theorem tick_iterate (count : Nat) :
    Clock.tick^[count] clock =
      { clock with jiffies := clock.jiffies + UInt32.ofNat count } := by
  induction count generalizing clock with
  | zero =>
      show clock = { clock with jiffies := clock.jiffies + 0 }
      rw [UInt32.add_zero]
  | succ count ih =>
      rw [Function.iterate_succ_apply, ih, Clock.tick, Clock.mk.injEq, UInt32.ofNat_add,
        UInt32.add_assoc, UInt32.add_comm 1]
      exact ⟨rfl, rfl, rfl, rfl, rfl⟩

/-- Nothing but `jiffies` counts. -/
theorem setTimezone_jiffies (tv : Option Timeval) (tz : Timezone) :
    (setTimezone tv tz clock).jiffies = clock.jiffies := by
  rw [setTimezone]
  split
  · split <;> rfl
  · rfl

/-- What is stored, when something is. -/
theorem sysSettimeofday_stored {suser : Bool} {tv : Timeval} {tz : Option Timezone}
    {after : Clock} (stored : sysSettimeofday suser (some tv) tz clock = (after, 0)) :
    after.jiffies = clock.jiffies ∧
      after.startupTime = tv.tvSec.toUInt32 - clock.jiffies / hz ∧
      after.jiffiesOffset =
        (tv.tvUsec * hz.toInt32 / 1000000).toUInt32 - clock.jiffies % hz := by
  cases suser with
  | false =>
      have refused : eperm = 0 := congrArg Prod.snd stored
      exact absurd refused (by decide)
  | true =>
      obtain ⟨rfl, -⟩ := Prod.mk.inj stored
      cases tz with
      | none => exact ⟨rfl, rfl, rfl⟩
      | some tz =>
          have same := @setTimezone_jiffies clock (some tv) tz
          refine ⟨same, ?_, ?_⟩
          · show _ - (setTimezone (some tv) tz clock).jiffies / hz = _
            rw [same]
          · show _ - (setTimezone (some tv) tz clock).jiffies % hz = _
            rw [same]

end Ticks

/-! ## Set and read -/

section SetAndRead

variable {clock after : Clock} {count : Nat}

/-- The ticks that are read: the offset takes the phase of `jiffies` away again. -/
theorem ticks_toNat {jiffies hundredths : UInt32} (few : hundredths.toNat < 100)
    (noWrap : jiffies.toNat + count + 100 < 4294967296) :
    (jiffies + UInt32.ofNat count + (hundredths - jiffies % hz)).toNat =
      100 * (jiffies.toNat / 100) + (hundredths.toNat + count) := by
  have isHz : hz.toNat = 100 := by decide
  rw [UInt32.toNat_add, UInt32.toNat_add, UInt32.toNat_sub, UInt32.toNat_mod, isHz,
    UInt32.toNat_ofNat']
  omega

/-- The seconds that are read, as far as 32 bits can hold them. -/
theorem seconds_toNat {sec jiffies ticks : UInt32} {rest : Nat}
    (isTicks : ticks.toNat = 100 * (jiffies.toNat / 100) + rest) :
    (sec - jiffies / hz + ctToSecs ticks).toNat = (sec.toNat + rest / 100) % 4294967296 := by
  have isHz : hz.toNat = 100 := by decide
  have size := jiffies.toNat_lt
  rw [UInt32.toNat_add, UInt32.toNat_sub, UInt32.toNat_div, isHz, ctToSecs_toNat, isTicks]
  omega

/-- Seconds that stay within an `int`. -/
theorem seconds_toInt {sec : Int32} {later : Nat} (secHigh : sec.toInt < 2 ^ 31 - 2 ^ 26)
    (few : later < 2 ^ 26) :
    (((sec.toUInt32.toNat + later) % 4294967296 : Nat) : Int).bmod 4294967296 =
      sec.toInt + later := by
  have secLow := sec.le_toInt
  have isSec := toNat_toUInt32 sec
  have isSum : (((sec.toUInt32.toNat + later) % 4294967296 : Nat) : Int) =
      (sec.toInt + later) % 4294967296 := by omega
  have reduced := @Int.emod_bmod (sec.toInt + later) 4294967296
  rw [isSum]
  exact reduced.trans (Int.bmod_eq_of_le (by omega) (by omega))

theorem sysGettimeofday_tv {tzRead : Bool} :
    (sysGettimeofday true tzRead clock).1 =
      some ⟨(clock.startupTime + ctToSecs (clock.jiffies + clock.jiffiesOffset)).toInt32,
        (ctToUsecs (clock.jiffies + clock.jiffiesOffset)).toInt32⟩ := rfl

/-- After some ticks, what was set is read, and the hundredths that went by. -/
theorem sysGettimeofday_set {suser tzRead : Bool} {tv : Timeval} {tz : Option Timezone}
    (usecLow : 0 ≤ tv.tvUsec.toInt) (usecHigh : tv.tvUsec.toInt < 1000000)
    (secHigh : tv.tvSec.toInt < 2 ^ 31 - 2 ^ 26)
    (noWrap : clock.jiffies.toNat + count + 100 < 2 ^ 32)
    (stored : sysSettimeofday suser (some tv) tz clock = (after, 0)) :
    ∃ read, (sysGettimeofday true tzRead (Clock.tick^[count] after)).1 = some read ∧
      read.tvSec.toInt * 100 + read.tvUsec.toInt / 10000 =
        tv.tvSec.toInt * 100 + tv.tvUsec.toInt / 10000 + count ∧
      read.tvSec.toInt = tv.tvSec.toInt + (tv.tvUsec.toInt / 10000 + count) / 100 ∧
      read.tvUsec.toInt = (tv.tvUsec.toInt / 10000 + count) % 100 * 10000 := by
  obtain ⟨sameJiffies, isStartup, isOffset⟩ := sysSettimeofday_stored stored
  have isHundredths := hundredths_eq usecLow usecHigh
  obtain ⟨hundredths, isTerm⟩ :
    ∃ hundredths, (tv.tvUsec * hz.toInt32 / 1000000).toUInt32 = hundredths := ⟨_, rfl⟩
  rw [isTerm] at isOffset isHundredths
  have isTicks := @ticks_toNat count clock.jiffies hundredths (by omega) (by omega)
  obtain ⟨ticks, isTerm⟩ : ∃ ticks, clock.jiffies + UInt32.ofNat count +
    (hundredths - clock.jiffies % hz) = ticks := ⟨_, rfl⟩
  rw [isTerm] at isTicks
  have seconds : (tv.tvSec.toUInt32 - clock.jiffies / hz + ctToSecs ticks).toInt32.toInt =
      tv.tvSec.toInt + (tv.tvUsec.toInt / 10000 + count) / 100 := by
    have later : (((hundredths.toNat + count) / 100 : Nat) : Int) =
        (tv.tvUsec.toInt / 10000 + count) / 100 := by omega
    rw [toInt_toInt32, seconds_toNat isTicks, ← later]
    exact seconds_toInt (by omega) (by omega)
  have microseconds : (ctToUsecs ticks).toInt32.toInt =
      (tv.tvUsec.toInt / 10000 + count) % 100 * 10000 := by
    rw [toInt_toInt32, ctToUsecs_toNat, isTicks, Int.bmod_eq_of_le (by omega) (by omega)]
    omega
  rw [tick_iterate, sysGettimeofday_tv]
  refine ⟨_, rfl, ?_, ?_, ?_⟩
  all_goals simp only [sameJiffies, isStartup, isOffset, isTerm, seconds, microseconds]
  omega

/-- Ten ticks carry the last hundredths into the next second. -/
theorem sysGettimeofday_set_carry :
    ∃ read, (sysGettimeofday true false (Clock.tick^[10]
      (sysSettimeofday true (some ⟨694224000, 990000⟩) none
        ⟨123456, 600000000, 0, ⟨0, 0⟩, true⟩).1)).1 = some read ∧
      read.tvSec.toInt = 694224001 ∧ read.tvUsec.toInt = 90000 := by
  obtain ⟨read, isRead, -, seconds, microseconds⟩ :=
    @sysGettimeofday_set ⟨123456, 600000000, 0, ⟨0, 0⟩, true⟩ _ 10 true false
      ⟨694224000, 990000⟩ none (by decide) (by decide) (by decide) (by decide) rfl
  exact ⟨read, isRead, seconds.trans (by decide), microseconds.trans (by decide)⟩

end SetAndRead

end Linux012.Kernel.TimeOfDay
