import Mathlib.Data.UInt
import Mathlib.Tactic.ByContra
import Mathlib.Algebra.Group.Nat.Defs
import Linux012.Lib.Sizes

/-!
# The numbers of terminals

The entry points of the terminals, from `open`, `read`, `write`, `ioctl` and `select`, up to their
first use of a queue: which entries of `tty_table` they use.  An entry that is not in the table is
what lies in the memory at its place.
-/

namespace Linux012.ChrDrv.TtyNumbers

abbrev ePerm : Int32 := 1
abbrev eIntr : Int32 := 4
abbrev eIo : Int32 := 5
abbrev eInval : Int32 := 22
abbrev eNoTty : Int32 := 25
abbrev eRestartSys : Int32 := 512

abbrev sigTtin : UInt32 := 21
abbrev sigTtou : UInt32 := 22

abbrev tostop : UInt32 := 0o400

/-- `struct tty_struct`; a queue is its address. -/
structure Tty where
  cLflag : UInt32
  startChar : UInt8
  stopChar : UInt8
  pgrp : Int32
  session : Int32
  readQ : UInt32
  writeQ : UInt32
  secondary : UInt32
  deriving DecidableEq, Repr

namespace Tty

/-- None of the queue pointers is null. -/
def Ready (tty : Tty) : Prop := tty.readQ ≠ 0 ∧ tty.writeQ ≠ 0 ∧ tty.secondary ≠ 0

/-- `!(tty->write_q || tty->read_q || tty->secondary)`. -/
def Bare (tty : Tty) : Prop := tty.writeQ = 0 ∧ tty.readQ = 0 ∧ tty.secondary = 0

instance (tty : Tty) : Decidable tty.Ready := inferInstanceAs (Decidable (_ ∧ _))
instance (tty : Tty) : Decidable tty.Bare := inferInstanceAs (Decidable (_ ∧ _))

end Tty

/-- `tty_table`, and the memory around it. -/
structure Terminals where
  nrConsoles : Nat
  fgConsole : Nat
  tty : Int → Tty

/-- The fields of `current`.  `orphaned` is what `is_orphaned_pgrp(current->pgrp)` finds. -/
structure Task where
  tty : Int32
  pgrp : Int32
  session : Int32
  orphaned : Bool
  blocked : UInt32
  saHandler : UInt32 → UInt32

/-- What `tty_signal` returns. -/
def ttySignal (task : Task) (sig : UInt32) : Int32 :=
  if task.orphaned then -eIo
  else if task.blocked &&& (1 <<< (sig - 1)) ≠ 0 ∨ task.saHandler sig = 1 then -eIo
  else if task.saHandler sig ≠ 0 then -eIntr
  else -eRestartSys

/-- `TTY_TABLE`. -/
def Terminals.index (t : Terminals) (nr : Int) : Int :=
  if nr ≠ 0 then if nr < 64 then nr - 1 else nr else t.fgConsole

/-- What an entry point does with its entry of the table. -/
inductive Verdict where
  /-- It returns an error before it has used a queue. -/
  | refuses (error : Int32)
  /-- It uses the entry, and none of the queues. -/
  | plain
  | queues
  deriving DecidableEq, Repr

/-- How far an entry point gets. -/
inductive Outcome where
  | refuses (error : Int32)
  | panics
  /-- It uses these entries of the table, and the queues of those. -/
  | uses (ttys queues : List Int)
  deriving DecidableEq, Repr

def Verdict.outcome : Verdict → (ttys : List Int) → Outcome
  | .refuses error, _ => .refuses error
  | .plain, ttys => .uses ttys []
  | .queues, ttys => .uses ttys ttys

/-! ## `tty_io.c` -/

section TtyIo

variable (task : Task) (t : Terminals)

/-- `tty_read` behind the check of its channel. -/
def readVerdict (channel : UInt32) (nr : Int32) (tty : Tty) : Verdict :=
  if tty.Bare then .refuses (-eIo)
  else if task.tty.toUInt32 = channel ∧ tty.pgrp ≠ task.pgrp then .refuses (ttySignal task sigTtin)
  else if nr > 0 then .queues
  else .plain

/-- `tty_read`. -/
def ttyRead (channel : UInt32) (nr : Int32) : Outcome :=
  if channel > 255 then .refuses (-eIo)
  else
    let tty := t.index channel.toNat
    -- `other_tty`
    let others := if channel &&& 0x80 ≠ 0 then [((channel ^^^ 0x40).toNat : Int)] else []
    (readVerdict task channel nr (t.tty tty)).outcome (tty :: others)

/-- `tty_write` behind the check of its channel. -/
def writeVerdict (channel : UInt32) (nr : Int32) (tty : Tty) : Verdict :=
  if tty.Bare then .refuses (-eIo)
  else if tty.cLflag &&& tostop ≠ 0 ∧ task.tty.toUInt32 = channel ∧ tty.pgrp ≠ task.pgrp then
    .refuses (ttySignal task sigTtou)
  else if nr > 0 then .queues
  else .plain

/-- `tty_write`. -/
def ttyWrite (channel : UInt32) (nr : Int32) : Outcome :=
  if channel > 255 then .refuses (-eIo)
  else
    let tty := t.index channel.toNat
    (writeVerdict task channel nr (t.tty tty)).outcome [tty]

end TtyIo

/-! ## `tty_ioctl.c` -/

section TtyIoctl

variable (task : Task) (t : Terminals)

/-- `set_termios`. -/
def setTermios (channel : Int) (tty : Tty) : Verdict :=
  let retsig := ttySignal task sigTtou
  if task.tty.toInt = channel ∧ tty.pgrp ≠ task.pgrp ∧
      (retsig = -eRestartSys ∨ retsig = -eIntr) then .refuses retsig
  else .queues -- `change_speed`

/-- The `switch` of `tty_ioctl`.  `pgrp` is the long at `arg`, and `sessionOfPgrp` is
`session_of_pgrp`. -/
def ioctlVerdict (sessionOfPgrp : Int32 → Int32) (pgrp : Int32) (dev : Int) (cmd arg : UInt32)
    (tty : Tty) : Verdict :=
  if cmd = 0x5401 then .plain -- `TCGETS`
  else if cmd = 0x5404 then .queues -- `TCSETSF`
  else if cmd = 0x5403 ∨ cmd = 0x5402 then setTermios task dev tty -- `TCSETSW`, `TCSETS`
  else if cmd = 0x5408 then .queues -- `TCSETAF`
  else if cmd = 0x5407 ∨ cmd = 0x5409 then .plain -- `TCSETAW`, `TCSBRK`
  else if cmd = 0x540A then -- `TCXONC`
    if arg = 0 ∨ arg = 1 then .queues
    else if arg = 2 then if tty.stopChar ≠ 0 then .queues else .plain
    else if arg = 3 then if tty.startChar ≠ 0 then .queues else .plain
    else .refuses (-eInval)
  else if cmd = 0x540B then -- `TCFLSH`
    if arg = 0 ∨ arg = 1 ∨ arg = 2 then .queues else .refuses (-eInval)
  else if cmd = 0x540F then .plain -- `TIOCGPGRP`
  else if cmd = 0x5410 then -- `TIOCSPGRP`
    if task.tty < 0 ∨ task.tty.toInt ≠ dev ∨ tty.session ≠ task.session then .refuses (-eNoTty)
    else if pgrp < 0 then .refuses (-eInval)
    else if sessionOfPgrp pgrp ≠ task.session then .refuses (-ePerm)
    else .plain
  else if cmd = 0x5411 ∨ cmd = 0x541B then .queues -- `TIOCOUTQ`, `TIOCINQ`
  else .refuses (-eInval)

end TtyIoctl

/-! ## The entry points -/

/-- `MAJOR`. -/
def major (dev : UInt16) : UInt16 := dev >>> 8

/-- `MINOR`. -/
def minor (dev : UInt16) : UInt16 := dev &&& 0xff

/-- The number of the terminal that a device is. -/
def number (task : Task) (dev : UInt16) : Int :=
  if major dev = 5 then task.tty.toInt else (minor dev).toNat

inductive Entry where
  /-- `check_char_dev`. -/
  | open
  | read (nr : Int32)
  | write (nr : Int32)
  | ioctl (sessionOfPgrp : Int32 → Int32) (pgrp : Int32) (cmd arg : UInt32)
  /-- `check_in`, `check_out` and `check_ex`. -/
  | select

section Entries

variable (task : Task) (t : Terminals) (dev : UInt16)

/-- `check_char_dev`.  Its flags decide what it writes to the entry. -/
def checkCharDev : Outcome :=
  if major dev = 4 ∨ major dev = 5 then
    let min := number task dev
    if min < 0 then .refuses (-1) else .uses [t.index min] []
  else .uses [] []

/-- `rw_char`, for a terminal: `rw_ttyx` and `rw_tty`. -/
def rwChar (transfer : (channel : UInt32) → Outcome) : Outcome :=
  if major dev = 5 then if task.tty < 0 then .refuses (-ePerm) else transfer task.tty.toUInt32
  else transfer (minor dev).toUInt32

/-- `tty_ioctl`. -/
def ttyIoctl (sessionOfPgrp : Int32 → Int32) (pgrp : Int32) (cmd arg : UInt32) : Outcome :=
  if major dev = 5 ∧ task.tty < 0 then .panics -- "tty_ioctl: dev<0"
  else
    let dev := number task dev
    let tty := t.index dev
    (ioctlVerdict task sessionOfPgrp pgrp dev cmd arg (t.tty tty)).outcome [tty]

/-- `get_tty`, of a character device. -/
def getTty : Option Int :=
  if major dev ≠ 5 ∧ major dev ≠ 4 then none
  else
    let minor := number task dev
    if minor < 0 then none else some (t.index minor)

/-- `check_in` and its like.  Without a terminal, and a pipe, they find nothing. -/
def checkSelect : Outcome :=
  match getTty task t dev with
  | none => .uses [] []
  | some tty => .uses [tty] [tty]

def Entry.call : Entry → Outcome
  | .open => checkCharDev task t dev
  | .read nr => rwChar task dev fun channel => ttyRead task t channel nr
  | .write nr => rwChar task dev fun channel => ttyWrite task t channel nr
  | .ioctl sessionOfPgrp pgrp cmd arg => ttyIoctl task t dev sessionOfPgrp pgrp cmd arg
  | .select => checkSelect task t dev

end Entries

/-! ## What is promised -/

/-- The consoles and the two serial lines have queues, and no other entry of the table has one. -/
structure Initialised (t : Terminals) : Prop where
  fgConsole : t.fgConsole < t.nrConsoles
  nrConsoles : t.nrConsoles ≤ 8
  ready : ∀ i : Int, 0 ≤ i → i < t.nrConsoles ∨ i = 64 ∨ i = 65 → (t.tty i).Ready
  bare : ∀ i : Int, 0 ≤ i → i < 128 → ¬(i < t.nrConsoles ∨ i = 64 ∨ i = 65) → (t.tty i).Bare

/-- An error is returned in front of the queues, or the entries are in the table and the queues that
are used are there. -/
def InRange (t : Terminals) : Outcome → Prop
  | .refuses _ => True
  | .panics => False
  | .uses ttys queues => (∀ i ∈ ttys, 0 ≤ i ∧ i < 128) ∧ ∀ i ∈ queues, (t.tty i).Ready

/-- The number is one of a terminal with queues. -/
def HasQueues (t : Terminals) (nr : Int) : Prop :=
  nr = 0 ∨ 1 ≤ nr ∧ nr ≤ t.nrConsoles ∨ nr = 64 ∨ nr = 65

/-- The terminal is the one of the task, but not in the foreground for it. -/
def Background (task : Task) (nr : Int) (tty : Tty) : Prop :=
  task.tty.toInt = nr ∧ tty.pgrp ≠ task.pgrp

/-- The commands of `tty_ioctl`, of which one that is not known is refused. -/
def commands : List UInt32 :=
  [0x5401, 0x5402, 0x5403, 0x5404, 0x5407, 0x5408, 0x5409, 0x540A, 0x540B, 0x540F, 0x5410, 0x5411,
    0x541B]

/-- The command is not known, its argument is not, or the task may not give it. -/
def IoctlRefused (task : Task) (sessionOfPgrp : Int32 → Int32) (pgrp : Int32) (nr : Int)
    (cmd arg : UInt32) (tty : Tty) : Prop :=
  cmd ∉ commands ∨
    (cmd = 0x5402 ∨ cmd = 0x5403) ∧ Background task nr tty ∧ ttySignal task sigTtou ≠ -eIo ∨
    cmd = 0x540A ∧ arg ∉ [0, 1, 2, 3] ∨
    cmd = 0x540B ∧ arg ∉ [0, 1, 2] ∨
    cmd = 0x5410 ∧ (task.tty < 0 ∨ task.tty.toInt ≠ nr ∨ tty.session ≠ task.session ∨ pgrp < 0 ∨
      sessionOfPgrp pgrp ≠ task.session)

/-- The command uses a queue. -/
def IoctlQueues (cmd arg : UInt32) (tty : Tty) : Prop :=
  cmd ∈ [0x5402, 0x5403, 0x5404, 0x5408, 0x5411, 0x541B] ∨
    cmd = 0x540A ∧ (arg = 0 ∨ arg = 1 ∨ arg = 2 ∧ tty.stopChar ≠ 0 ∨
      arg = 3 ∧ tty.startChar ≠ 0) ∨
    cmd = 0x540B ∧ arg ∈ [0, 1, 2]

/-- The condition on the number of the terminal.  `tty_read` and `tty_write` refuse the numbers of
the table that have no queues, and no number from 128 to 255. -/
def Allowed (task : Task) (t : Terminals) (nr : Int) : Entry → Prop
  | .open => nr < 128
  | .read _ => nr < 128 ∨ 255 < nr ∨ (t.tty (t.index nr)).Bare ∨
      Background task nr (t.tty (t.index nr))
  | .write _ => nr < 128 ∨ 255 < nr ∨ (t.tty (t.index nr)).Bare ∨
      (t.tty (t.index nr)).cLflag &&& tostop ≠ 0 ∧ Background task nr (t.tty (t.index nr))
  | .ioctl sessionOfPgrp pgrp cmd arg =>
      0 ≤ nr ∧ (IoctlRefused task sessionOfPgrp pgrp nr cmd arg (t.tty (t.index nr)) ∨
        nr < 128 ∧ (IoctlQueues cmd arg (t.tty (t.index nr)) → HasQueues t nr))
  | .select => nr < 0 ∨ HasQueues t nr

/-! ## The checks -/

section Checks

variable {task : Task} {tty : Tty}

def Refused (verdict : Verdict) : Prop := ∃ error, verdict = .refuses error

theorem refused_refuses (error : Int32) : Refused (.refuses error) := ⟨error, rfl⟩

theorem not_refused_plain : ¬Refused .plain := fun ⟨_, impossible⟩ => nomatch impossible

theorem not_refused_queues : ¬Refused .queues := fun ⟨_, impossible⟩ => nomatch impossible

theorem background_channel_iff {channel : UInt32} (small : channel.toNat ≤ 255) :
    task.tty.toUInt32 = channel ∧ tty.pgrp ≠ task.pgrp ↔ Background task channel.toNat tty := by
  refine and_congr_left fun _ => ⟨?_, fun same => ?_⟩
  · rintro rfl
    have isInt : task.tty.toInt = (task.tty.toUInt32.toNat : Int).bmod (2 ^ 32) :=
      BitVec.toInt_eq_toNat_bmod _
    rw [isInt]
    exact Int.bmod_eq_of_le (by omega) (by omega)
  · have notNegative : 0 ≤ task.tty :=
      Int32.le_iff_toInt_le.mpr (same ▸ Int.natCast_nonneg channel.toNat)
    apply UInt32.toNat_inj.mp
    rw [Int32.toNat_toUInt32_of_le notNegative]
    exact congrArg Int.toNat same

theorem refused_readVerdict_iff {channel : UInt32} (count : Int32) (small : channel.toNat ≤ 255) :
    Refused (readVerdict task channel count tty) ↔
      tty.Bare ∨ Background task channel.toNat tty := by
  rw [readVerdict, ← background_channel_iff small]
  split_ifs <;> simp_all [refused_refuses, not_refused_plain, not_refused_queues]

theorem refused_writeVerdict_iff {channel : UInt32} (count : Int32) (small : channel.toNat ≤ 255) :
    Refused (writeVerdict task channel count tty) ↔
      tty.Bare ∨ tty.cLflag &&& tostop ≠ 0 ∧ Background task channel.toNat tty := by
  rw [writeVerdict, ← background_channel_iff small]
  split_ifs <;> simp_all [refused_refuses, not_refused_plain, not_refused_queues]

theorem ttySignal_interrupts_iff {sig : UInt32} :
    ttySignal task sig = -eRestartSys ∨ ttySignal task sig = -eIntr ↔
      ttySignal task sig ≠ -eIo := by
  rw [ttySignal]
  split_ifs <;> decide

/-- `set_termios` is interrupted, or it sets the speed. -/
theorem refused_setTermios_iff {nr : Int} :
    Refused (setTermios task nr tty) ↔ Background task nr tty ∧ ttySignal task sigTtou ≠ -eIo := by
  rw [setTermios, ← ttySignal_interrupts_iff, Background, and_assoc]
  split
  next interrupted => exact iff_of_true (refused_refuses _) interrupted
  next goesOn => exact iff_of_false not_refused_queues goesOn

theorem setTermios_of_not_refused {nr : Int} (goesOn : ¬Refused (setTermios task nr tty)) :
    setTermios task nr tty = .queues := by
  rw [setTermios] at goesOn ⊢
  refine if_neg fun interrupted => goesOn ?_
  rw [if_pos interrupted]
  exact refused_refuses _

variable {sessionOfPgrp : Int32 → Int32} {pgrp : Int32} {nr : Int} {cmd arg : UInt32}

theorem ioctlVerdict_of_unknown (unknown : cmd ∉ commands) :
    ioctlVerdict task sessionOfPgrp pgrp nr cmd arg tty = .refuses (-eInval) := by
  simp only [commands, List.mem_cons, List.not_mem_nil, or_false, not_or] at unknown
  simp [ioctlVerdict, unknown]

theorem refused_ioctlVerdict_iff :
    Refused (ioctlVerdict task sessionOfPgrp pgrp nr cmd arg tty) ↔
      IoctlRefused task sessionOfPgrp pgrp nr cmd arg tty := by
  by_cases member : cmd ∈ commands
  · simp only [commands, List.mem_cons, List.not_mem_nil, or_false] at member
    rcases member with rfl | rfl | rfl | rfl | rfl | rfl | rfl | rfl | rfl | rfl | rfl | rfl | rfl
    all_goals simp [ioctlVerdict, IoctlRefused, commands, not_refused_plain, not_refused_queues,
      refused_setTermios_iff]
    all_goals grind [refused_refuses, not_refused_plain, not_refused_queues]
  · rw [ioctlVerdict_of_unknown member]
    exact iff_of_true (refused_refuses _) (.inl member)

/-- A command that is not refused uses a queue or none. -/
theorem ioctlVerdict_eq_queues_iff
    (goesOn : ¬Refused (ioctlVerdict task sessionOfPgrp pgrp nr cmd arg tty)) :
    ioctlVerdict task sessionOfPgrp pgrp nr cmd arg tty = .queues ↔ IoctlQueues cmd arg tty := by
  by_cases member : cmd ∈ commands
  · simp only [commands, List.mem_cons, List.not_mem_nil, or_false] at member
    rcases member with rfl | rfl | rfl | rfl | rfl | rfl | rfl | rfl | rfl | rfl | rfl | rfl | rfl
    all_goals simp [ioctlVerdict, IoctlQueues] at goesOn ⊢
    all_goals grind [refused_refuses, setTermios_of_not_refused]
  · rw [ioctlVerdict_of_unknown member] at goesOn
    exact absurd (refused_refuses _) goesOn

end Checks

/-! ## The table -/

section Table

variable {task : Task} {t : Terminals} {nr : Int} {dev : UInt16}

theorem index_inTable_iff (init : Initialised t) (notNegative : 0 ≤ nr) :
    0 ≤ t.index nr ∧ t.index nr < 128 ↔ nr < 128 := by
  have first := init.fgConsole
  have most := init.nrConsoles
  rw [Terminals.index]
  split_ifs <;> omega

theorem Tty.Ready.not_bare {tty : Tty} (ready : tty.Ready) : ¬tty.Bare :=
  fun bare => ready.2.1 bare.1

/-- The entries with queues are those of the numbers with queues. -/
theorem ready_index_iff (init : Initialised t) (notNegative : 0 ≤ nr) (less : nr < 128) :
    (t.tty (t.index nr)).Ready ↔ HasQueues t nr := by
  have first := init.fgConsole
  have most := init.nrConsoles
  have inTable := (index_inTable_iff init notNegative).mpr less
  have numbers : (t.index nr < t.nrConsoles ∨ t.index nr = 64 ∨ t.index nr = 65) ↔
      HasQueues t nr := by
    rw [HasQueues, Terminals.index]
    split_ifs <;> omega
  rw [← numbers]
  constructor
  · intro ready
    by_contra none
    exact ready.not_bare (init.bare _ inTable.1 inTable.2 none)
  · exact init.ready _ inTable.1

theorem HasQueues.lt (init : Initialised t) (has : HasQueues t nr) : nr < 128 := by
  have most := init.nrConsoles
  rcases has with same | ⟨-, less⟩ | same | same <;> omega

theorem bare_or_ready_index (init : Initialised t) (notNegative : 0 ≤ nr) (less : nr < 128) :
    (t.tty (t.index nr)).Bare ∨ (t.tty (t.index nr)).Ready := by
  have inTable := (index_inTable_iff init notNegative).mpr less
  by_cases has : t.index nr < t.nrConsoles ∨ t.index nr = 64 ∨ t.index nr = 65
  · exact .inr (init.ready _ inTable.1 has)
  · exact .inl (init.bare _ inTable.1 inTable.2 has)

theorem inRange_outcome_iff {verdict : Verdict} {i : Int} :
    InRange t (verdict.outcome [i]) ↔
      Refused verdict ∨ (0 ≤ i ∧ i < 128) ∧ (verdict = .queues → (t.tty i).Ready) := by
  cases verdict with
  | refuses error => exact iff_of_true trivial (.inl ⟨error, rfl⟩)
  | plain => simp [Verdict.outcome, InRange, Refused]
  | queues => simp [Verdict.outcome, InRange, Refused]

end Table

/-! ## The entry points, one by one -/

section Points

variable {task : Task} {t : Terminals} {nr : Int} {dev : UInt16}

theorem number_of_major_ne (notTty : major dev ≠ 5) :
    number task dev = (minor dev).toNat ∧ (minor dev).toNat ≤ 255 := by
  refine ⟨if_neg notTty, ?_⟩
  rw [minor, UInt16.toNat_and]
  exact Nat.and_le_right

theorem number_of_major_eq (isTty : major dev = 5) : number task dev = task.tty.toInt :=
  if_pos isTty

theorem checkCharDev_inRange_iff (init : Initialised t)
    (isTerminal : major dev = 4 ∨ major dev = 5) :
    InRange t (checkCharDev task t dev) ↔ number task dev < 128 := by
  rw [checkCharDev, if_pos isTerminal]
  dsimp only
  by_cases negative : number task dev < 0
  · rw [if_pos negative]
    exact iff_of_true trivial (by omega)
  · rw [if_neg negative, ← index_inTable_iff init (Int.not_lt.mp negative)]
    simp [InRange]

theorem checkSelect_inRange_iff (init : Initialised t)
    (isTerminal : major dev = 4 ∨ major dev = 5) :
    InRange t (checkSelect task t dev) ↔
      number task dev < 0 ∨ HasQueues t (number task dev) := by
  have isTty : ¬(major dev ≠ 5 ∧ major dev ≠ 4) := by
    rcases isTerminal with four | five
    · exact fun other => other.2 four
    · exact fun other => other.1 five
  rw [checkSelect, getTty, if_neg isTty]
  dsimp only
  by_cases negative : number task dev < 0
  · rw [if_pos negative]
    exact iff_of_true (by simp [InRange]) (.inl negative)
  have notNegative := Int.not_lt.mp negative
  rw [if_neg negative, or_iff_right negative]
  have isRange : InRange t (.uses [t.index (number task dev)] [t.index (number task dev)]) ↔
      number task dev < 128 ∧ (t.tty (t.index (number task dev))).Ready := by
    simp [InRange, index_inTable_iff init notNegative]
  refine isRange.trans ⟨fun ⟨less, ready⟩ => ?_, fun has => ?_⟩
  · exact (ready_index_iff init notNegative less).mp ready
  · have less := has.lt init
    exact ⟨less, (ready_index_iff init notNegative less).mpr has⟩

theorem ttyIoctl_inRange_iff (init : Initialised t) (sessionOfPgrp : Int32 → Int32) (pgrp : Int32)
    (cmd arg : UInt32) :
    InRange t (ttyIoctl task t dev sessionOfPgrp pgrp cmd arg) ↔
      Allowed task t (number task dev) (.ioctl sessionOfPgrp pgrp cmd arg) := by
  have negative_iff : (major dev = 5 ∧ task.tty < 0) ↔ number task dev < 0 := by
    by_cases five : major dev = 5
    · rw [number_of_major_eq five, Int32.lt_iff_toInt_lt]
      exact and_iff_right five
    · have isMinor := (@number_of_major_ne task dev five).1
      exact iff_of_false (fun both => five both.1) (by omega)
  rw [ttyIoctl, Allowed]
  dsimp only
  by_cases negative : number task dev < 0
  · rw [if_pos (negative_iff.mpr negative)]
    exact iff_of_false id fun allowed => absurd allowed.1 (Int.not_le.mpr negative)
  have notNegative := Int.not_lt.mp negative
  rw [if_neg (negative_iff.not.mpr negative), inRange_outcome_iff, and_iff_right notNegative,
    index_inTable_iff init notNegative]
  rw [refused_ioctlVerdict_iff]
  refine or_congr_right' fun goesOn => and_congr_right fun less => ?_
  rw [ready_index_iff init notNegative less,
    ioctlVerdict_eq_queues_iff (refused_ioctlVerdict_iff.not.mpr goesOn)]

/-- Behind the check of its channel a transfer is in range below 128, where it refuses the entries
without queues, and for the channels that it refuses. -/
theorem inRange_transfer_iff (init : Initialised t) {channel : UInt32} {verdict : Verdict}
    {others : List Int} (none : channel.toNat < 128 → others = [])
    (refusesBare : (t.tty (t.index channel.toNat)).Bare → Refused verdict) :
    InRange t (verdict.outcome (t.index channel.toNat :: others)) ↔
      channel.toNat < 128 ∨ Refused verdict := by
  have inTable := index_inTable_iff init (Int.natCast_nonneg channel.toNat)
  by_cases less : channel.toNat < 128
  · have isLess : (channel.toNat : Int) < 128 := by omega
    rw [none less, inRange_outcome_iff]
    refine iff_of_true ?_ (.inl less)
    rcases bare_or_ready_index init (Int.natCast_nonneg _) isLess with bare | ready
    · exact .inl (refusesBare bare)
    · exact .inr ⟨inTable.mpr isLess, fun _ => ready⟩
  · have outside : ¬(0 ≤ t.index channel.toNat ∧ t.index channel.toNat < 128) := by omega
    rw [or_iff_right less]
    cases verdict with
    | refuses error => exact iff_of_true trivial ⟨error, rfl⟩
    | plain =>
        refine iff_of_false (fun inRange => ?_) fun ⟨_, impossible⟩ => nomatch impossible
        exact outside (inRange.1 _ List.mem_cons_self)
    | queues =>
        refine iff_of_false (fun inRange => ?_) fun ⟨_, impossible⟩ => nomatch impossible
        exact outside (inRange.1 _ List.mem_cons_self)

theorem noOther_of_lt {channel : UInt32} (less : channel.toNat < 128) :
    (if channel &&& 0x80 ≠ 0 then [((channel ^^^ 0x40).toNat : Int)] else []) = [] := by
  have noBit : ∀ nr < 128, nr &&& 128 = 0 := by decide +kernel
  refine if_neg (not_not.mpr (UInt32.toNat_inj.mp ?_))
  rw [UInt32.toNat_and]
  exact noBit _ less

theorem channel_gt_iff {channel : UInt32} : channel > 255 ↔ 255 < channel.toNat := by
  rw [gt_iff_lt, UInt32.lt_iff_toNat_lt]
  rfl

theorem ttyRead_inRange_iff (init : Initialised t) (channel : UInt32) (count : Int32) :
    InRange t (ttyRead task t channel count) ↔ Allowed task t channel.toNat (.read count) := by
  rw [ttyRead, Allowed]
  dsimp only
  by_cases large : channel > 255
  · rw [if_pos large]
    have isLarge := channel_gt_iff.mp large
    exact iff_of_true trivial (.inr (.inl (by omega)))
  have notLarge : ¬255 < (channel.toNat : Int) := fun isLarge =>
    large (channel_gt_iff.mpr (by omega))
  have refused := @refused_readVerdict_iff task (t.tty (t.index channel.toNat)) channel count
    (by omega)
  rw [if_neg large, inRange_transfer_iff init noOther_of_lt fun bare => refused.mpr (.inl bare),
    or_iff_right notLarge, refused]
  exact or_congr_left (by omega)

theorem ttyWrite_inRange_iff (init : Initialised t) (channel : UInt32) (count : Int32) :
    InRange t (ttyWrite task t channel count) ↔ Allowed task t channel.toNat (.write count) := by
  rw [ttyWrite, Allowed]
  dsimp only
  by_cases large : channel > 255
  · rw [if_pos large]
    have isLarge := channel_gt_iff.mp large
    exact iff_of_true trivial (.inr (.inl (by omega)))
  have notLarge : ¬255 < (channel.toNat : Int) := fun isLarge =>
    large (channel_gt_iff.mpr (by omega))
  have refused := @refused_writeVerdict_iff task (t.tty (t.index channel.toNat)) channel count
    (by omega)
  rw [if_neg large, inRange_transfer_iff init (fun _ => rfl) fun bare => refused.mpr (.inl bare),
    or_iff_right notLarge, refused]
  exact or_congr_left (by omega)

/-- `rw_tty` gives the terminal of the task to `rw_ttyx`, if there is one. -/
theorem rwChar_inRange_iff {transfer : UInt32 → Outcome} {allowed : Int → Prop}
    (below : ∀ nr < 0, allowed nr)
    (isRange : ∀ channel, InRange t (transfer channel) ↔ allowed channel.toNat) :
    InRange t (rwChar task dev transfer) ↔ allowed (number task dev) := by
  rw [rwChar]
  by_cases five : major dev = 5
  · rw [if_pos five, number_of_major_eq five]
    by_cases negative : task.tty < 0
    · rw [if_pos negative]
      exact iff_of_true trivial (below _ (Int32.lt_iff_toInt_lt.mp negative))
    · have notNegative : 0 ≤ task.tty.toInt := Int32.le_iff_toInt_le.mp (Int32.not_lt.mp negative)
      have isChannel : (task.tty.toUInt32.toNat : Int) = task.tty.toInt := by
        rw [Int32.toNat_toUInt32_of_le (Int32.not_lt.mp negative)]
        exact Int.toNat_of_nonneg notNegative
      rw [if_neg negative, isRange, isChannel]
  · rw [if_neg five, isRange, (number_of_major_ne five).1, UInt16.toNat_toUInt32]

end Points

/-- Every entry point, for every device and every terminal of the task. -/
theorem call_inRange_iff (t : Terminals) (init : Initialised t) (task : Task) (dev : UInt16)
    (isTerminal : major dev = 4 ∨ major dev = 5) (entry : Entry) :
    InRange t (entry.call task t dev) ↔ Allowed task t (number task dev) entry := by
  cases entry with
  | «open» => exact checkCharDev_inRange_iff init isTerminal
  | read count =>
      have below : ∀ nr < 0, Allowed task t nr (.read count) := fun nr _ => .inl (by omega)
      exact rwChar_inRange_iff below fun channel => ttyRead_inRange_iff init channel count
  | write count =>
      have below : ∀ nr < 0, Allowed task t nr (.write count) := fun nr _ => .inl (by omega)
      exact rwChar_inRange_iff below fun channel => ttyWrite_inRange_iff init channel count
  | ioctl sessionOfPgrp pgrp cmd arg => exact ttyIoctl_inRange_iff init sessionOfPgrp pgrp cmd arg
  | select => exact checkSelect_inRange_iff init isTerminal

/-- Four consoles and two serial lines, and nothing in the memory behind the table. -/
def booted : Terminals where
  nrConsoles := 4
  fgConsole := 0
  tty i :=
    if i < 4 ∨ i = 64 ∨ i = 65 then ⟨0, 0, 0, 0, 0, 0x1000, 0x1410, 0x1820⟩
    else ⟨0, 0, 0, 0, 0, 0, 0, 0⟩

theorem initialised_booted : Initialised booted where
  fgConsole := by decide
  nrConsoles := by decide
  ready i _ isReady := by
    have isEntry : booted.tty i = ⟨0, 0, 0, 0, 0, 0x1000, 0x1410, 0x1820⟩ := if_pos isReady
    rw [isEntry]
    decide
  bare i _ _ isBare := by
    have isEntry : booted.tty i = ⟨0, 0, 0, 0, 0, 0, 0, 0⟩ := if_neg isBare
    rw [isEntry]
    decide

/-- A task on console 2. -/
def user : Task where
  tty := 2
  pgrp := 7
  session := 7
  orphaned := false
  blocked := 0
  saHandler _ := 0

theorem call_inRange_iff_booted :
    InRange booted (Entry.call user booted 0x500 .select) ↔
      Allowed user booted (number user 0x500) .select :=
  call_inRange_iff booted initialised_booted user 0x500 (.inr (by decide)) .select

/-- A `select` on terminal 20, which is in the table and has no queues. -/
theorem select_without_queues : ¬∀ (t : Terminals) (task : Task) (dev : UInt16) (entry : Entry),
    Initialised t → major dev = 4 ∨ major dev = 5 → InRange t (entry.call task t dev) := by
  intro always
  have inRange := always booted user 0x414 .select initialised_booted (.inl (by decide))
  have isOutcome : Entry.call user booted 0x414 .select = .uses [19] [19] := by decide +kernel
  rw [isOutcome] at inRange
  have notReady : ¬(booted.tty 19).Ready := by decide +kernel
  exact notReady (inRange.2 19 List.mem_cons_self)

end Linux012.ChrDrv.TtyNumbers
