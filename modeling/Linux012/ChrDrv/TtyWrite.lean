import Linux012.ChrDrv.TtyIo
import Linux012.Lib.Run

/-!
# Writing to terminals

Tasks in `tty_write`, the keyboard, `copy_to_cooked` and the drains of the write queues.  The
calls are switched at each character.
-/

namespace Linux012.ChrDrv

open Linux012.Lib

/-! ## The calls -/

/-- Where a task is in `tty_write`. -/
inductive WritePhase where
  /-- At `while (nr>0)`. -/
  | top
  /-- In `interruptible_sleep_on` of `sleep_if_full`. -/
  | asleep
  /-- At `while (nr>0 && !FULL(tty->write_q))`. -/
  | filling
  | returned
  deriving DecidableEq, Repr

/-- A call of `tty_write`.  Of its buffer, the characters in `consumed` have been dealt with, and
those in `rest` have not; `appended` is what the call has put into the write queue. -/
structure WriteCall (Line : Type) where
  line : Line
  phase : WritePhase
  rest : List UInt8
  consumed : List UInt8
  appended : List UInt8
  deriving DecidableEq, Repr

/-- `b-buf`, which the call returns. -/
def WriteCall.result {Line : Type} (call : WriteCall Line) : Int := call.consumed.length

/-- Terminals, and the last call of each task; `crFlag` is the static `cr_flag`. -/
structure Writers (Task Line : Type) where
  tty : Line → Tty
  crFlag : Bool
  call : Task → Option (WriteCall Line)

inductive WriteAction (Task Line : Type) where
  /-- A character comes in. -/
  | key (line : Line) (c : UInt8)
  /-- One pass of the loop of `copy_to_cooked`. -/
  | cook (line : Line) (orphaned : Bool)
  /-- A reader gets a character. -/
  | read (line : Line)
  /-- `TCXONC` of `tty_ioctl`, with `TCOOFF` or `TCOON`. -/
  | flow (line : Line) (stopped : Bool)
  /-- `tty->write(tty)`. -/
  | drain (line : Line)
  /-- The interrupt for a character that a serial line has sent. -/
  | writeChar (line : Line)
  /-- The task calls `tty_write`, and is behind its checks. -/
  | write (task : Task) (line : Line) (chars : List UInt8)
  /-- One turn of a task in `tty_write`. -/
  | turn (task : Task) (signalled : Bool)
  deriving DecidableEq, Repr

namespace Tty

/-- What `OCRNL` and `ONLRET` make of a character. -/
def mapOutput (tty : Tty) (c : UInt8) : UInt8 :=
  if c = 13 ∧ tty.oFlag ocrnl then 10
  else if c = 10 ∧ tty.oFlag onlret then 13
  else c

end Tty

/-- `toupper`. -/
def toUpper (c : UInt8) : UInt8 := if 97 ≤ c ∧ c ≤ 122 then c - 32 else c

/-- No task has called `tty_write`. -/
def Writers.boot {Task Line : Type} (tty : Line → Tty) : Writers Task Line where
  tty := tty
  crFlag := false
  call _ := none

section Steps

variable {Task Line : Type} [DecidableEq Task] [DecidableEq Line]

namespace Writers

def setTty (s : Writers Task Line) (line : Line) (tty : Tty) : Writers Task Line :=
  { s with tty := Function.update s.tty line tty }

def setCall (s : Writers Task Line) (task : Task) (call : WriteCall Line) :
    Writers Task Line :=
  { s with call := Function.update s.call task (some call) }

omit [DecidableEq Task] in
@[simp] theorem setTty_tty (s : Writers Task Line) (line : Line) (tty : Tty) :
    (s.setTty line tty).tty line = tty := Function.update_self _ _ _

/-- The carriage return in front of a newline is put. -/
def putReturn (s : Writers Task Line) (task : Task) (call : WriteCall Line) :
    Writers Task Line where
  tty := Function.update s.tty call.line ((s.tty call.line).putWrite 13)
  crFlag := true
  call := Function.update s.call task (some { call with appended := call.appended ++ [13] })

/-- A character of the buffer is put, as `out`. -/
def putOutput (s : Writers Task Line) (task : Task) (call : WriteCall Line) (c : UInt8)
    (rest : List UInt8) (out : UInt8) : Writers Task Line where
  tty := Function.update s.tty call.line ((s.tty call.line).putWrite out)
  crFlag := false
  call := Function.update s.call task (some { call with
    rest := rest
    consumed := call.consumed ++ [c]
    appended := call.appended ++ [out] })

/-- One pass of the inner loop of `tty_write`. -/
def fillPass (s : Writers Task Line) (task : Task) (call : WriteCall Line) (c : UInt8)
    (rest : List UInt8) : Writers Task Line :=
  let tty := s.tty call.line
  if tty.oFlag opost then
    let mapped := tty.mapOutput c
    if mapped = 10 ∧ ¬s.crFlag ∧ tty.oFlag onlcr then s.putReturn task call
    else s.putOutput task call c rest (if tty.oFlag olcuc then toUpper mapped else mapped)
  else s.putOutput task call c rest c

/-- One turn of `tty_write`. -/
def writeTurn (s : Writers Task Line) (task : Task) (call : WriteCall Line) (signalled : Bool) :
    Option (Writers Task Line) :=
  let tty := s.tty call.line
  match call.phase, call.rest with
  | .top, [] => some (s.setCall task { call with phase := .returned })
  | .top, _ :: _ =>
      if tty.writeQ.Full ∧ ¬signalled then some (s.setCall task { call with phase := .asleep })
      else if signalled then some (s.setCall task { call with phase := .returned })
      else some (s.setCall task { call with phase := .filling })
  | .asleep, _ =>
      if signalled then some (s.setCall task { call with phase := .returned })
      else if tty.writeQ.ring.left < 128 then some s
      else some (s.setCall task { call with phase := .filling })
  | .filling, [] =>
      some ((s.setTty call.line tty.write).setCall task { call with phase := .top })
  | .filling, c :: rest =>
      if tty.writeQ.Full then
        some ((s.setTty call.line tty.write).setCall task { call with phase := .top })
      else some (s.fillPass task call c rest)
  | .returned, _ => none

end Writers

/-- One step. -/
def writeStep (s : Writers Task Line) : WriteAction Task Line → Option (Writers Task Line)
  | .key line c =>
      let tty := s.tty line
      some (s.setTty line { tty with readQ := tty.readQ.putQueue c })
  | .cook line orphaned =>
      match (s.tty line).cookStep orphaned with
      | none => none
      | some tty => some (s.setTty line tty)
  | .read line =>
      if (s.tty line).secondary.Empty then none
      else some (s.setTty line (s.tty line).getCooked)
  | .flow line stopped => some (s.setTty line { s.tty line with stopped := stopped }.write)
  | .drain line => some (s.setTty line (s.tty line).write)
  | .writeChar line =>
      if (s.tty line).driver = .rsWrite ∧ ¬(s.tty line).writeQ.Empty then
        some (s.setTty line (s.tty line).getWrite)
      else none
  | .write task line chars =>
      if ∀ call ∈ s.call task, call.phase = .returned then
        some (s.setCall task ⟨line, .top, chars, [], []⟩)
      else none
  | .turn task signalled =>
      match s.call task with
      | none => none
      | some call => s.writeTurn task call signalled

end Steps

end Linux012.ChrDrv
