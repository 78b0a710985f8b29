import Mathlib.Data.Fin.VecNotation
import Mathlib.Data.UInt
import Linux012.Lib.CellRing
import Linux012.Lib.Sizes

/-!
# A terminal

The queues of a terminal, and `copy_to_cooked` and `tty_read` of `tty_io.c`.  The characters that
are put into the write queue and those that `con_write` gets from it are kept in order.
-/

namespace Linux012.ChrDrv

open Linux012.Lib

/-! ## Queues -/

/-- `struct tty_queue`. -/
structure TtyQueue where
  data : UInt32
  ring : CellRing UInt8 1024

namespace TtyQueue

abbrev Empty (queue : TtyQueue) : Prop := queue.ring.Empty
abbrev Full (queue : TtyQueue) : Prop := queue.ring.Full

/-- `PUTCH`. -/
def putch (queue : TtyQueue) (c : UInt8) : TtyQueue := { queue with ring := queue.ring.put c }

/-- What `GETCH` leaves. -/
def getch (queue : TtyQueue) : TtyQueue := { queue with ring := queue.ring.drop }

/-- `DEC(queue->head)`. -/
def dec (queue : TtyQueue) : TtyQueue := { queue with ring := queue.ring.unput }

/-- `put_queue` of the keyboard with one character, which is discarded when there is no room. -/
def putQueue (queue : TtyQueue) (c : UInt8) : TtyQueue :=
  if queue.Full then queue else queue.putch c

end TtyQueue

/-! ## Settings -/

abbrev vIntr : Fin 17 := 0
abbrev vQuit : Fin 17 := 1
abbrev vErase : Fin 17 := 2
abbrev vKill : Fin 17 := 3
abbrev vEof : Fin 17 := 4
abbrev vTime : Fin 17 := 5
abbrev vMin : Fin 17 := 6
abbrev vStart : Fin 17 := 8
abbrev vStop : Fin 17 := 9
abbrev vSusp : Fin 17 := 10

abbrev inlcr : UInt32 := 0o100
abbrev igncr : UInt32 := 0o200
abbrev icrnl : UInt32 := 0o400
abbrev iuclc : UInt32 := 0o1000
abbrev ixon : UInt32 := 0o2000

abbrev opost : UInt32 := 0o1
abbrev olcuc : UInt32 := 0o2
abbrev onlcr : UInt32 := 0o4
abbrev ocrnl : UInt32 := 0o10
abbrev onlret : UInt32 := 0o40

abbrev isig : UInt32 := 0o1
abbrev icanon : UInt32 := 0o2
abbrev echo : UInt32 := 0o10
abbrev tostop : UInt32 := 0o400
abbrev echoctl : UInt32 := 0o1000
abbrev echoke : UInt32 := 0o4000

abbrev sigInt : UInt32 := 2
abbrev sigQuit : UInt32 := 3
abbrev sigTstp : UInt32 := 20

/-- `struct termios`, as far as it is used. -/
structure Termios where
  cIflag : UInt32
  cOflag : UInt32
  cLflag : UInt32
  cCc : Fin 17 → UInt8

/-- `ORIG_INIT_C_CC`. -/
def initCCc : Fin 17 → UInt8 :=
  ![0o3, 0o34, 0o177, 0o25, 0o4, 0, 1, 0, 0o21, 0o23, 0o32, 0, 0o22, 0o17, 0o27, 0o26, 0]

/-- The settings that `tty_init` gives to a console. -/
def consoleTermios : Termios where
  cIflag := icrnl
  cOflag := opost ||| onlcr
  cLflag := ixon ||| isig ||| icanon ||| echo ||| echoctl ||| echoke
  cCc := initCCc

/-- The function in `tty->write`. -/
inductive Driver where
  | conWrite
  | rsWrite
  deriving DecidableEq, Repr

/-- `struct tty_struct`.  `killed` are the signals for its process group, `written`
the characters that have been put into the write queue, `shown` those that have been got from it,
all with the last one at the end; `overrun` is set when one is put into a full write queue. -/
structure Tty where
  termios : Termios
  stopped : Bool
  driver : Driver
  readQ : TtyQueue
  writeQ : TtyQueue
  secondary : TtyQueue
  killed : List UInt32
  written : List UInt8
  shown : List UInt8
  overrun : Bool

namespace Tty

def iFlag (tty : Tty) (flag : UInt32) : Bool := tty.termios.cIflag &&& flag ≠ 0
def oFlag (tty : Tty) (flag : UInt32) : Bool := tty.termios.cOflag &&& flag ≠ 0
def lFlag (tty : Tty) (flag : UInt32) : Bool := tty.termios.cLflag &&& flag ≠ 0

/-- `X_CHAR(tty) != _POSIX_VDISABLE && c==X_CHAR(tty)`; a `char` has a sign, and an
`unsigned char` has not. -/
def isChar (tty : Tty) (which : Fin 17) (c : UInt8) : Bool :=
  tty.termios.cCc which ≠ 0 ∧ c = tty.termios.cCc which ∧ c < 128

/-- The character ends a line. -/
def endsLine (tty : Tty) (c : UInt8) : Bool := c = 10 || tty.isChar vEof c

/-- `PUTCH(c,tty->write_q)`. -/
def putWrite (tty : Tty) (c : UInt8) : Tty :=
  { tty with
    writeQ := tty.writeQ.putch c
    written := tty.written ++ [c]
    overrun := tty.overrun || tty.writeQ.Full }

/-- `GETCH(tty->write_q,c)`, and the character is shown. -/
def getWrite (tty : Tty) : Tty :=
  { tty with
    writeQ := tty.writeQ.getch
    shown := tty.shown ++ [tty.writeQ.ring.first] }

/-- The loop of `con_write`. -/
def conWriteLoop : (nr : Nat) → Tty → Tty
  | 0, tty => tty
  | nr + 1, tty => if tty.stopped then tty else conWriteLoop nr tty.getWrite

/-- `con_write`, without the screen. -/
def conWrite (tty : Tty) : Tty := conWriteLoop tty.writeQ.ring.chars tty

/-- `tty->write(tty)`; `rs_write` leaves the characters for the interrupts of the line. -/
def write (tty : Tty) : Tty :=
  match tty.driver with
  | .conWrite => tty.conWrite
  | .rsWrite => tty

/-! ## `copy_to_cooked` -/

/-- `c<32` for a `char`. -/
def isLow (c : UInt8) : Bool := c < 32 || 128 ≤ c

/-- The echo of a character that is erased. -/
def echoErased (tty : Tty) (c : UInt8) : Tty :=
  if tty.lFlag echo then
    ((if isLow c then tty.putWrite 127 else tty).putWrite 127).write
  else tty

/-- There is no character in front of the line's start. -/
def atLineStart (tty : Tty) : Bool :=
  tty.secondary.Empty || tty.endsLine tty.secondary.ring.last

/-- One character is taken from the line. -/
def eraseLast (tty : Tty) : Tty :=
  let tty := tty.echoErased tty.secondary.ring.last
  { tty with secondary := tty.secondary.dec }

/-- The loop for the kill character. -/
def killLine : (left : Nat) → Tty → Tty
  | 0, tty => tty
  | left + 1, tty => if tty.atLineStart then tty else killLine left tty.eraseLast

/-- The echo of a character. -/
def echoChar (tty : Tty) (c : UInt8) : Tty :=
  if tty.lFlag echo then
    (if c = 10 then (tty.putWrite 10).putWrite 13
    else if isLow c then
      if tty.lFlag echoctl then (tty.putWrite 94).putWrite (c + 64) else tty
    else tty.putWrite c).write
  else tty

/-- `tty->secondary->data++` for a character that ends a line. -/
def countLine (tty : Tty) (c : UInt8) : Tty :=
  if tty.endsLine c then
    { tty with secondary := { tty.secondary with data := tty.secondary.data + 1 } }
  else tty

/-- `kill_pg(tty->pgrp, signr, 1)`. -/
def killPg (tty : Tty) (signr : UInt32) : Tty := { tty with killed := tty.killed ++ [signr] }

/-- `tolower`. -/
def toLower (c : UInt8) : UInt8 := if 65 ≤ c ∧ c ≤ 90 then c + 32 else c

/-- The character that is cooked for one of the read queue, unless it is dropped. -/
def mapInput (tty : Tty) (c : UInt8) : Option UInt8 :=
  let mapped :=
    if c = 13 then
      if tty.iFlag icrnl then some 10 else if tty.iFlag igncr then none else some 13
    else if c = 10 ∧ tty.iFlag inlcr then some 13
    else some c
  if tty.iFlag iuclc then mapped.map toLower else mapped

/-- From the flow control to the end of the loop. -/
def cookPlain (orphaned : Bool) (tty : Tty) (c : UInt8) : Tty :=
  if tty.iFlag ixon ∧ tty.isChar vStop c then { tty with stopped := true }.write
  else if tty.iFlag ixon ∧ tty.isChar vStart c then { tty with stopped := false }.write
  else if tty.lFlag isig ∧ tty.isChar vIntr c then tty.killPg sigInt
  else if tty.lFlag isig ∧ tty.isChar vQuit c then tty.killPg sigQuit
  else if tty.lFlag isig ∧ tty.isChar vSusp c then
    if orphaned then tty else tty.killPg sigTstp
  else
    let tty := (tty.countLine c).echoChar c
    { tty with secondary := tty.secondary.putch c }

/-- One character of `copy_to_cooked`, behind `GETCH`. -/
def cookChar (orphaned : Bool) (tty : Tty) (c : UInt8) : Tty :=
  match tty.mapInput c with
  | none => tty
  | some c =>
      if tty.lFlag icanon ∧ tty.isChar vKill c then
        killLine tty.secondary.ring.chars tty
      else if tty.lFlag icanon ∧ tty.isChar vErase c then
        if tty.atLineStart then tty else tty.eraseLast
      else cookPlain orphaned tty c

/-- One pass of the loop of `copy_to_cooked`, where it does not end; `orphaned` is
`is_orphaned_pgrp(tty->pgrp)`. -/
def cookStep (orphaned : Bool) (tty : Tty) : Option Tty :=
  if tty.readQ.Empty ∨ tty.secondary.Full then none
  else some (cookChar orphaned { tty with readQ := tty.readQ.getch } tty.readQ.ring.first)

/-- The loop of `copy_to_cooked`. -/
def cookLoop (orphaned : Bool) : (left : Nat) → Tty → Tty
  | 0, tty => tty
  | left + 1, tty =>
      match cookStep orphaned tty with
      | none => tty
      | some tty => cookLoop orphaned left tty

/-- `copy_to_cooked`. -/
def copyToCooked (orphaned : Bool) (tty : Tty) : Tty :=
  cookLoop orphaned tty.readQ.ring.chars tty

/-! ## `tty_read` -/

/-- `minimum` of `tty_read`, for a call with `nr`. -/
def minimum (tty : Tty) (nr : Nat) : Nat :=
  if tty.lFlag icanon ∨ tty.termios.cCc vMin = 0 then nr
  else min (tty.termios.cCc vMin).toNat nr

/-- `tty_read` finds nothing to read. -/
def mustSleep (tty : Tty) : Bool :=
  tty.secondary.Empty ||
    (tty.lFlag icanon && !decide tty.readQ.Full && tty.secondary.data == 0)

/-- `GETCH(tty->secondary,c)` of `tty_read`, with `tty->secondary->data--`. -/
def getCooked (tty : Tty) : Tty :=
  let data := tty.secondary.data
  { tty with
    secondary := { tty.secondary.getch with
      data := if tty.endsLine tty.secondary.ring.first then data - 1 else data } }

end Tty

/-- A console as `tty_init` leaves it. -/
def ttyInit : Tty where
  termios := consoleTermios
  stopped := false
  driver := .conWrite
  readQ := ⟨0, ⟨0, 0, fun _ => 0⟩⟩
  writeQ := ⟨0, ⟨0, 0, fun _ => 0⟩⟩
  secondary := ⟨0, ⟨0, 0, fun _ => 0⟩⟩
  killed := []
  written := []
  shown := []
  overrun := false

/-! ## What is kept -/

/-- The terminal is the same but for its output. -/
structure Tty.SameInput (before after : Tty) : Prop where
  termios : after.termios = before.termios
  stopped : after.stopped = before.stopped
  driver : after.driver = before.driver
  readQ : after.readQ = before.readQ
  secondary : after.secondary = before.secondary

namespace Tty

theorem SameInput.refl (tty : Tty) : tty.SameInput tty := ⟨rfl, rfl, rfl, rfl, rfl⟩

theorem SameInput.trans {first second third : Tty} (one : first.SameInput second)
    (two : second.SameInput third) : first.SameInput third where
  termios := two.termios.trans one.termios
  stopped := two.stopped.trans one.stopped
  driver := two.driver.trans one.driver
  readQ := two.readQ.trans one.readQ
  secondary := two.secondary.trans one.secondary

theorem sameInput_putWrite (tty : Tty) (c : UInt8) : tty.SameInput (tty.putWrite c) :=
  ⟨rfl, rfl, rfl, rfl, rfl⟩

theorem sameInput_conWriteLoop (nr : Nat) (tty : Tty) :
    tty.SameInput (tty.conWriteLoop nr) := by
  induction nr generalizing tty with
  | zero => exact SameInput.refl tty
  | succ nr ih =>
      rw [conWriteLoop]
      split
      · exact SameInput.refl tty
      · have got : tty.SameInput tty.getWrite := ⟨rfl, rfl, rfl, rfl, rfl⟩
        exact got.trans (ih tty.getWrite)

theorem sameInput_write (tty : Tty) : tty.SameInput tty.write := by
  rw [write]
  split
  · exact sameInput_conWriteLoop _ tty
  · exact SameInput.refl tty

theorem sameInput_echoErased (tty : Tty) (c : UInt8) : tty.SameInput (tty.echoErased c) := by
  rw [echoErased]
  split
  · refine SameInput.trans ?_ (sameInput_write _)
    refine SameInput.trans ?_ (sameInput_putWrite _ _)
    split
    · exact sameInput_putWrite _ _
    · exact SameInput.refl tty
  · exact SameInput.refl tty

theorem sameInput_echoChar (tty : Tty) (c : UInt8) : tty.SameInput (tty.echoChar c) := by
  rw [echoChar]
  split
  · refine SameInput.trans ?_ (sameInput_write _)
    split
    · exact (sameInput_putWrite tty _).trans (sameInput_putWrite _ _)
    · split
      · split
        · exact (sameInput_putWrite tty _).trans (sameInput_putWrite _ _)
        · exact SameInput.refl tty
      · exact sameInput_putWrite tty _
  · exact SameInput.refl tty

theorem SameInput.endsLine {before after : Tty} (same : before.SameInput after) :
    after.endsLine = before.endsLine := by
  funext c
  rw [Tty.endsLine, Tty.endsLine, isChar, isChar, same.termios]

theorem eraseLast_termios (tty : Tty) : tty.eraseLast.termios = tty.termios :=
  (tty.sameInput_echoErased tty.secondary.ring.last).termios

theorem killLine_termios (left : Nat) (tty : Tty) :
    (tty.killLine left).termios = tty.termios := by
  induction left generalizing tty with
  | zero => rfl
  | succ left ih =>
      rw [killLine]
      split
      · rfl
      · exact (ih _).trans tty.eraseLast_termios

theorem countLine_termios (tty : Tty) (c : UInt8) :
    (tty.countLine c).termios = tty.termios := by
  rw [countLine]
  split <;> rfl

theorem countLine_ring (tty : Tty) (c : UInt8) :
    (tty.countLine c).secondary.ring = tty.secondary.ring := by
  rw [countLine]
  split <;> rfl

theorem countLine_data (tty : Tty) (c : UInt8) :
    (tty.countLine c).secondary.data =
      if tty.endsLine c then tty.secondary.data + 1 else tty.secondary.data := by
  rw [countLine]
  split <;> rfl

theorem cookPlain_termios (orphaned : Bool) (tty : Tty) (c : UInt8) :
    (tty.cookPlain orphaned c).termios = tty.termios := by
  rw [cookPlain]
  split
  · exact (sameInput_write _).termios
  split
  · exact (sameInput_write _).termios
  split
  · rfl
  split
  · rfl
  split
  · split <;> rfl
  · exact (sameInput_echoChar _ c).termios.trans (tty.countLine_termios c)

theorem cookChar_termios (orphaned : Bool) (tty : Tty) (c : UInt8) :
    (tty.cookChar orphaned c).termios = tty.termios := by
  rw [cookChar]
  cases tty.mapInput c with
  | none => rfl
  | some c =>
      dsimp only
      split
      · exact killLine_termios _ tty
      split
      · split
        · rfl
        · exact tty.eraseLast_termios
      · exact cookPlain_termios orphaned tty c

/-- `copy_to_cooked` leaves the settings. -/
theorem cookStep_termios {tty after : Tty} {orphaned : Bool}
    (taken : tty.cookStep orphaned = some after) : after.termios = tty.termios := by
  rw [cookStep] at taken
  split at taken
  · cases taken
  · cases taken
    exact cookChar_termios orphaned _ _

end Tty

end Linux012.ChrDrv
