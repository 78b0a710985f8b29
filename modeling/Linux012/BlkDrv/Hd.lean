import Mathlib.Data.UInt
import Mathlib.Algebra.Group.Nat.Defs
import Linux012.BlkDrv.Request

/-!
# The hard disk driver

`do_hd_request` and the interrupt handlers of `hd.c` on one request, with the controller
that they drive.  A handler runs with interrupts off.  `add_request` calls `do_hd_request`
behind `sti()`: there an interrupt can come between what is read of the request and the
command, and in the wait for `DRQ_STAT`.

Not modelled: a controller that never gets ready stops the kernel; `hd_timeout` is never
set; the buffer head's lock is read but not waited for.  When the request has ended the
run is over, whatever the queue holds then.
-/

namespace Linux012.BlkDrv.Hd

/-- `MAX_ERRORS`. -/
abbrev maxErrors : Nat := 7

/-- The 512 bytes of a sector. -/
abbrev Sector := Fin 512 → UInt8

/-- The sector's worth of memory at an address. -/
def sectorAt (mem : Nat → UInt8) (buffer : Nat) : Sector := fun i => mem (buffer + i)

/-- `struct hd_struct`. -/
structure HdStruct where
  startSect : Int32
  nrSects : Int32
  deriving DecidableEq, Repr

/-- `NR_HD`, `hd[]` and the heads of `hd_info[]`. -/
structure Disks where
  nrHd : Nat
  hd : Nat → HdStruct
  head : Nat → Nat

/-- `struct request`, with the lock of its buffer head. -/
structure Request where
  dev : Nat
  cmd : Cmd
  errors : Nat
  sector : UInt32
  nrSectors : UInt32
  buffer : Nat
  /-- `bh->b_lock`, or no `bh`. -/
  bLock : Option Bool
  deriving DecidableEq, Repr

/-- `MAJOR(CURRENT->dev)`. -/
def Request.major (r : Request) : Nat := r.dev / 256

/-- `MINOR(CURRENT->dev)`. -/
def Request.minor (r : Request) : Nat := r.dev % 256

/-- What `do_hd` can point to. -/
inductive Handler where
  | resetHd
  | readIntr
  | writeIntr
  | recalIntr
  deriving DecidableEq, Repr

/-- What `hd_out_LBA` is called with, apart from the handler. -/
structure Args where
  drive : Nat
  nsect : Int32
  sector : Int32
  cmd : Cmd
  deriving DecidableEq, Repr

/-- A transfer that the device does: its next sector, and how many are left.  For a write
the device needs the data of the sector. -/
structure Transfer where
  drive : Nat
  sector : UInt32
  left : UInt32
  cmd : Cmd
  hasData : Bool
  deriving DecidableEq, Repr

/-- What the device is at. -/
inductive Job where
  | idle
  /-- `WIN_SPECIFY` or `WIN_RESTORE`. -/
  | control
  | transfer (t : Transfer)
  deriving DecidableEq, Repr

/-- Where the `do_hd_request` is that `add_request` calls. -/
inductive Stage where
  /-- Not called yet. -/
  | waiting
  /-- The request has been read; the command is about to be given. -/
  | loaded (args : Args)
  /-- In the wait for `DRQ_STAT`. -/
  | polling
  /-- Returned, or never called. -/
  | outside
  deriving DecidableEq, Repr

/-- The driver, the device and the memory. -/
structure Driver where
  /-- `CURRENT`, until the request has ended. -/
  current : Option Request
  /-- The argument of `end_request`. -/
  ended : Option Bool
  reset : Bool
  recalibrate : Bool
  doHd : Option Handler
  /-- The static `i` of `reset_hd`. -/
  i : Int
  stage : Stage
  job : Job
  /-- What the device has read. -/
  dataIn : Sector
  /-- The data of the last `port_write`. -/
  dataOut : Sector
  disk : Nat → UInt32 → Sector
  /-- The sectors that the device has written to. -/
  touched : List (Nat × UInt32)
  mem : Nat → UInt8
  panicked : Bool

namespace Driver

def panic (d : Driver) : Driver := { d with panicked := true }

/-! ## Commands -/

/-- `hd_out` with a command that transfers nothing. -/
def hdOut (d : Driver) (drive head : Int) (intr : Handler) : Driver :=
  if 1 < drive ∨ 15 < head then d.panic -- "Trying to write bad sector"
  else { d with doHd := some intr, job := .control }

end Driver

/-- The bytes that `hd_out_LBA` writes to the ports from `HD_NSECTOR` to `HD_COMMAND`. -/
def Args.registers (args : Args) : List UInt8 :=
  let sector := args.sector.toUInt32
  let cmd : UInt8 :=
    match args.cmd with
    | .read => 0x20 -- `WIN_READ`
    | .write => 0x30 -- `WIN_WRITE`
  [args.nsect.toUInt32.toUInt8,
    (sector &&& 0xff).toUInt8,
    ((sector >>> 8) &&& 0xff).toUInt8,
    ((sector >>> 16) &&& 0xff).toUInt8,
    (((sector >>> 24) &&& 0x0f).toUInt8 ||| (0xe0 : UInt8)) ||| (args.drive <<< 4).toUInt8,
    cmd]

/-- The sector that the registers name. -/
def lbaOf (registers : List UInt8) : Nat :=
  match registers with
  | [_, low, middle, high, drive, _] =>
      low.toNat + 256 * middle.toNat + 65536 * high.toNat + 16777216 * (drive.toNat % 16)
  | _ => 0

theorem drive_register_mod (nibble : Fin 16) (drive : Fin 2) :
    ((UInt8.ofNat nibble.val ||| (0xe0 : UInt8)) ||| (drive.val <<< 4).toUInt8).toNat % 16 =
      nibble.val := by
  revert nibble drive
  decide

/-- The registers name the low 28 bits of the sector that `hd_out_LBA` is called with. -/
theorem Args.lbaOf_registers_mod (args : Args) (drive : args.drive < 2) :
    lbaOf args.registers = args.sector.toUInt32.toNat % 2 ^ 28 := by
  have byte (value : UInt32) : (value &&& 0xff).toUInt8.toNat = value.toNat % 256 := by
    simp [Nat.and_two_pow_sub_one_eq_mod _ 8]
  have top : args.sector.toUInt32.toNat / 2 ^ 24 % 16 < 16 := Nat.mod_lt _ (by decide)
  have nibble : ((args.sector.toUInt32 >>> 24) &&& 0x0f).toUInt8 =
      UInt8.ofNat (args.sector.toUInt32.toNat / 2 ^ 24 % 16) := by
    apply UInt8.toNat_inj.mp
    have masked : (args.sector.toUInt32.toNat >>> 24 % 256) &&& 15 =
        args.sector.toUInt32.toNat / 16777216 % 16 % 256 := by
      rw [Nat.and_two_pow_sub_one_eq_mod _ 4, Nat.shiftRight_eq_div_pow]
      omega
    simpa using masked
  have driveByte := drive_register_mod ⟨_, top⟩ ⟨_, drive⟩
  simp only [lbaOf, registers, byte, nibble, driveByte]
  have second : (args.sector.toUInt32 >>> 8).toNat = args.sector.toUInt32.toNat / 2 ^ 8 := by
    simp [Nat.shiftRight_eq_div_pow]
  have third : (args.sector.toUInt32 >>> 16).toNat = args.sector.toUInt32.toNat / 2 ^ 16 := by
    simp [Nat.shiftRight_eq_div_pow]
  rw [second, third]
  omega

/-- The transfer that the device begins: the range that `hd_out_LBA` is called with. -/
def Args.transfer (args : Args) : Transfer where
  drive := args.drive
  sector := args.sector.toUInt32
  left := args.nsect.toUInt32
  cmd := args.cmd
  hasData := false

/-- The device is at the next sector of the transfer, or has done all. -/
def Transfer.advance (t : Transfer) : Job :=
  if t.left = 1 then .idle
  else .transfer { t with sector := t.sector + 1, left := t.left - 1, hasData := false }

/-- The handler of a transfer. -/
def handlerOf : Cmd → Handler
  | .read => .readIntr
  | .write => .writeIntr

namespace Driver

/-- `hd_out_LBA`. -/
def hdOutLba (d : Driver) (args : Args) : Driver :=
  if 1 < args.drive then d.panic -- "Trying to write bad sector"
  else { d with doHd := some (handlerOf args.cmd), job := .transfer args.transfer }

/-- `port_write(HD_DATA, CURRENT->buffer, 256)`. -/
def portWrite (d : Driver) : Driver :=
  match d.current with
  | none => d
  | some r =>
      { d with
        dataOut := sectorAt d.mem r.buffer
        job :=
          match d.job with
          | .transfer t => .transfer { t with hasData := true }
          | job => job }

/-- `port_read(HD_DATA, buffer, 256)`. -/
def portRead (d : Driver) (buffer : Nat) : Driver :=
  { d with mem := fun a =>
      if inside : a - buffer < 512 then
        if buffer ≤ a then d.dataIn ⟨a - buffer, inside⟩ else d.mem a
      else d.mem a }

/-! ## The request -/

def endRequest (d : Driver) (uptodate : Bool) : Driver :=
  { d with current := none, ended := some uptodate }

/-- `bad_rw_intr`.  When it has ended the request it looks at the errors of another. -/
def badRwIntr (d : Driver) : Driver :=
  match d.current with
  | none => d
  | some r =>
      if maxErrors ≤ r.errors + 1 then d.endRequest false
      else
        { d with
          current := some { r with errors := r.errors + 1 }
          reset := d.reset || decide (maxErrors / 2 < r.errors + 1) }

/-- `reset_controller` and what is before it. -/
def beginReset (d : Driver) : Driver := { d with reset := false, i := -1 }

/-- `reset_hd`, where `failed` is what `win_result` says. -/
def resetHd (d : Driver) (disks : Disks) (doHdRequest : Driver → Driver) (failed : Bool) :
    Driver :=
  let d :=
    if d.reset then d.beginReset
    else if failed then
      let d := d.badRwIntr
      if d.reset then d.beginReset else d -- goto repeat
    else d
  let d := { d with i := d.i + 1 }
  if d.i < (disks.nrHd : Int) then d.hdOut d.i ((disks.head d.i.toNat : Int) - 1) .resetHd
  else doHdRequest d

/-- `do_hd_request` up to the command of a transfer. -/
def prepare (d : Driver) (disks : Disks) : Driver × Option Args :=
  match d.current with
  | none => ({ d with doHd := none }, none)
  | some r =>
      if r.major ≠ 3 then (d.panic, none) -- "request list destroyed"
      else if r.bLock = some false then (d.panic, none) -- "block not locked"
      else
        let part := disks.hd r.minor
        let sector := r.sector.toInt32
        if 5 * disks.nrHd ≤ r.minor ∨ part.nrSects ≤ sector + 2 then
          ({ d.endRequest false with doHd := none }, none)
        else if d.reset then
          -- there is a drive, for which `reset_hd` gives a command
          (({ d with recalibrate := true } : Driver).resetHd disks id false, none)
        else if d.recalibrate then
          (({ d with recalibrate := false } : Driver).hdOut (r.minor / 5 : Nat) 0 .recalIntr, none)
        else (d, some {
          drive := r.minor / 5
          nsect := r.nrSectors.toInt32
          sector := sector + part.startSect
          cmd := r.cmd })

/-- `do_hd_request` with interrupts off; `misses` is how often `DRQ_STAT` does not come. -/
def doHdRequest (disks : Disks) : (misses : Nat) → Driver → Driver
  | misses, d =>
      match d.prepare disks with
      | (d, none) => d
      | (d, some args) =>
          let d := d.hdOutLba args
          match args.cmd, misses with
          | .read, _ => d
          | .write, 0 => d.portWrite
          | .write, misses + 1 => doHdRequest disks misses d.badRwIntr

/-! ## The handlers -/

def readIntr (d : Driver) (disks : Disks) (failed : Bool) (misses : Nat) : Driver :=
  if failed then doHdRequest disks misses d.badRwIntr
  else
    match d.current with
    | none => d
    | some r =>
        let next : Request := { r with
          errors := 0
          buffer := r.buffer + 512
          sector := r.sector + 1
          nrSectors := r.nrSectors - 1 }
        let d := { d.portRead r.buffer with current := some next }
        if next.nrSectors ≠ 0 then { d with doHd := some .readIntr }
        else doHdRequest disks misses (d.endRequest true)

def writeIntr (d : Driver) (disks : Disks) (failed : Bool) (misses : Nat) : Driver :=
  if failed then doHdRequest disks misses d.badRwIntr
  else
    match d.current with
    | none => d
    | some r =>
        let nrSectors := r.nrSectors - 1
        if nrSectors ≠ 0 then
          let next : Request := { r with
            nrSectors := nrSectors
            sector := r.sector + 1
            buffer := r.buffer + 512 }
          ({ d with current := some next, doHd := some .writeIntr } : Driver).portWrite
        else doHdRequest disks misses (d.endRequest true)

def recalIntr (d : Driver) (disks : Disks) (failed : Bool) (misses : Nat) : Driver :=
  doHdRequest disks misses (if failed then d.badRwIntr else d)

/-- `hd_interrupt`: `xchgl do_hd,%edx` and the call. -/
def hdInterrupt (d : Driver) (disks : Disks) (failed : Bool) (misses : Nat) : Driver :=
  let cleared := { d with doHd := none }
  match d.doHd with
  | none => d -- the device has no command
  | some .resetHd => cleared.resetHd disks (doHdRequest disks misses) failed
  | some .readIntr => cleared.readIntr disks failed misses
  | some .writeIntr => cleared.writeIntr disks failed misses
  | some .recalIntr => cleared.recalIntr disks failed misses

/-! ## The device -/

/-- The device writes to a sector. -/
def touch (d : Driver) (drive : Nat) (sector : UInt32) (data : Sector) : Driver :=
  { d with
    disk := Function.update d.disk drive (Function.update (d.disk drive) sector data)
    touched := (drive, sector) :: d.touched }

/-- What the device has done when an interrupt says that a command has had success: it has
read the sector, or written the data of the last `port_write` to it. -/
def succeed (d : Driver) : Option Driver :=
  match d.job with
  | .idle => none
  | .control => some { d with job := .idle }
  | .transfer t =>
      match t.cmd with
      | .read => some { d with dataIn := d.disk t.drive t.sector, job := t.advance }
      | .write =>
          if t.hasData then some { d.touch t.drive t.sector d.dataOut with job := t.advance }
          else none

/-- An error ends the command. -/
def fail (d : Driver) : Option Driver :=
  match d.job with
  | .idle => none
  | _ => some { d with job := .idle }

end Driver

/-! ## Runs -/

inductive Action where
  /-- `add_request` calls `do_hd_request`. -/
  | request
  /-- A handler that has ended another request calls `do_hd_request`. -/
  | serve (misses : Nat)
  /-- The `do_hd_request` called by `add_request` gives its command. -/
  | resume
  /-- Its wait ends with `DRQ_STAT` or without. -/
  | poll (drq : Bool)
  | interrupt (failed : Bool) (misses : Nat)
  /-- While it writes a sector the device may leave anything in it. -/
  | scratch (data : Sector)

/-- `do_hd_request` with interrupts on, up to the command. -/
def Driver.enter (d : Driver) (disks : Disks) : Driver :=
  match d.prepare disks with
  | (d, none) => { d with stage := .outside }
  | (d, some args) => { d with stage := .loaded args }

/-- One step, while the request is not done. -/
def act (disks : Disks) (d : Driver) : Action → Option Driver
  | .request => if d.stage = .waiting then some (d.enter disks) else none
  | .serve misses =>
      if d.stage = .outside ∧ d.job = .idle then some (d.doHdRequest disks misses) else none
  | .resume =>
      match d.stage with
      | .loaded args =>
          let stage :=
            match args.cmd with
            | .read => Stage.outside
            | .write => Stage.polling
          some { d.hdOutLba args with stage := stage }
      | _ => none
  | .poll drq =>
      if d.stage = .polling then
        if drq then some { d.portWrite with stage := .outside }
        else some (d.badRwIntr.enter disks)
      else none
  | .interrupt failed misses =>
      (if failed then d.fail else d.succeed).map fun d => d.hdInterrupt disks failed misses
  | .scratch data =>
      match d.job with
      | .transfer t => if t.cmd = .write then some (d.touch t.drive t.sector data) else none
      | _ => none

def step (disks : Disks) (d : Driver) (action : Action) : Option Driver :=
  if d.panicked ∨ d.ended.isSome then none else act disks d action

end Linux012.BlkDrv.Hd
