import Linux012.Lib.Run
import Linux012.Zones.Contents

/-!
# Files under any schedule

`file_read`, `file_write` and `truncate` of any number of tasks on one device, cut at the
places where they call a function that can sleep: `getblk`, `ll_rw_block` and
`wait_on_buffer` in `bread`, `brelse` and `free_block`, the page faults of `get_fs_byte`
and `put_fs_byte`, and `schedule`.  Each of these places counts as one where other tasks
run, whether or not the task would really sleep there, and so does each round of a loop.

Of the buffer cache only the contents of the blocks and the references to them matter:
every block has one buffer, and a buffer with a reference keeps its block.  `refs` are the
references that `b_count` counts.  `use` is what each zone has been taken for and not yet
freed; the code does not know it.
-/

namespace Linux012.Zones

/-- What the tasks share.  `fPos` is the position of each `struct file`. -/
structure Shared where
  device : Device
  refs : List (Nat × Nat)
  fPos : Nat → Nat
  use : Nat → Option Use

namespace Shared

variable (s : Shared) (task : Nat)

/-- `b_count` of the buffer of a block. -/
def bCount (block : Nat) : Nat := s.refs.countP fun ref => ref.2 == block

/-- `bh->b_count++`. -/
def take (block : Nat) : Shared := { s with refs := (task, block) :: s.refs }

/-- `bh->b_count--`. -/
def drop (block : Nat) : Shared := { s with refs := s.refs.erase (task, block) }

/-- `new_block` before `getblk`. -/
def takeZone : Shared × Nat :=
  match s.device.takeZone with
  | (d, 0) => ({ s with device := d }, 0)
  | (d, zone) =>
      ({ s with device := d, use := Function.update s.use zone (some (.allocating task)) }, zone)

/-- `new_block` after `getblk`: the block is cleared, and its number is stored. -/
def store (inode height : Nat) (c : Cell) (zone : Nat) : Shared :=
  { s with
    device := s.device.store c zone
    use := Function.update s.use zone (some (.block inode height)) }

/-- The end of `free_block`, and the clearing of the pointer. -/
def free (c : Cell) (zone : Nat) : Shared :=
  { s with
    device := (s.device.clearBit zone).setPtr c 0
    use := Function.update s.use zone none }

end Shared

/-! ## `_bmap` -/

/-- `_bmap` at a pointer: the rest of its route, and the indirect block that it has. -/
structure Bmap where
  create : Bool
  inode : Nat
  c : Cell
  rest : List Nat
  held : Option Nat
  deriving DecidableEq

/-- Where `_bmap` sleeps. -/
inductive BmapWait where
  /-- `getblk` in `new_block`. -/
  | alloc (zone : Nat)
  /-- `brelse` of the indirect block that the pointer is in. -/
  | release (zone : Nat)
  /-- `getblk` in `bread` of the indirect block that the pointer is in. -/
  | getting (zone : Nat)
  /-- `bread` with a reference to the indirect block. -/
  | reading (zone : Nat)
  deriving DecidableEq

inductive BmapOutcome where
  | sleeps (b : Bmap) (wait : BmapWait)
  | returns (zone : Nat)

namespace Bmap

variable (b : Bmap) (s : Shared) (task : Nat)

/-- `_bmap` has the zone that the pointer leads to, and no buffer. -/
def goOn (zone : Nat) : BmapOutcome :=
  match b.rest with
  | [] => .returns zone
  | j :: rest =>
      if zone = 0 then .returns 0
      else .sleeps ⟨b.create, b.inode, .entry zone j, rest, none⟩ (.getting zone)

/-- `_bmap` has the zone that the pointer leads to. -/
def found (zone : Nat) : BmapOutcome :=
  match b.held with
  | none => b.goOn zone
  | some _ => .sleeps b (.release zone)

/-- `_bmap` looks at the pointer. -/
def look : Shared × BmapOutcome :=
  if b.create ∧ s.device.ptr b.c = 0 then
    match s.takeZone task with
    | (s, 0) => (s, b.found 0)
    | (s, zone) => (s, .sleeps b (.alloc zone))
  else (s, b.found (s.device.ptr b.c))

def resume (ok : Bool) : BmapWait → Option (Shared × BmapOutcome)
  | .alloc zone =>
      if s.bCount zone = 0 then
        some (s.store b.inode b.rest.length b.c zone, b.found zone)
      else none -- "new block: count is != 1"
  | .release zone =>
      match b.held with
      | some block => some (s.drop task block, b.goOn zone)
      | none => none
  | .getting zone => some (s.take task zone, .sleeps b (.reading zone))
  | .reading zone =>
      if ok then some ({ b with held := some zone }.look s task)
      else some (s.drop task zone, .returns 0)

/-- A call of `_bmap`. -/
def start (create : Bool) (inode block : Nat) : Option (Shared × BmapOutcome) :=
  if block < maxBlocks then
    let route := Device.route block
    some (look ⟨create, inode, .zone inode route.1, route.2, none⟩ s task)
  else none -- "_bmap: block>big"

end Bmap

/-! ## `file_read` and `file_write` -/

/-- Where `file_read` or `file_write` is.  Block 0 is a hole. -/
inductive FilePhase where
  | next
  | mapping (b : Bmap) (wait : BmapWait)
  | getting (zone : Nat)
  | reading (zone : Nat)
  | copying (zone offset chars : Nat)
  | releasing (zone : Nat)
  deriving DecidableEq

structure ReadCall where
  inode : Nat
  filp : Nat
  left : Nat
  out : List UInt8
  phase : FilePhase
  deriving DecidableEq

structure WriteCall where
  inode : Nat
  filp : Nat
  append : Bool
  pos : Nat
  buf : List UInt8
  phase : FilePhase
  deriving DecidableEq

namespace ReadCall

variable (r : ReadCall) (s : Shared) (task : Nat)

/-- `file_read` has the block, or a hole. -/
def beginCopy (zone : Nat) : Shared × Option ReadCall :=
  let offset := s.fPos r.filp % blockSize
  let chars := min (blockSize - offset) r.left
  ({ s with fPos := Function.update s.fPos r.filp (s.fPos r.filp + chars) },
    some { r with left := r.left - chars, phase := .copying zone offset chars })

def mapped : Shared × BmapOutcome → Shared × Option ReadCall
  | (s, .sleeps b wait) => (s, some { r with phase := .mapping b wait })
  | (s, .returns 0) => r.beginCopy s 0
  | (s, .returns zone) => (s, some { r with phase := .getting zone })

/-- `file_read` goes on; no call is left when it returns. -/
def resume (ok : Bool) : Option (Shared × Option ReadCall) :=
  match r.phase with
  | .next =>
      if r.left = 0 then some (s, none)
      else (Bmap.start s task false r.inode (s.fPos r.filp / blockSize)).map r.mapped
  | .mapping b wait => (b.resume s task ok wait).map r.mapped
  | .getting zone => some (s.take task zone, some { r with phase := .reading zone })
  | .reading zone => if ok then some (r.beginCopy s zone) else some (s.drop task zone, none)
  | .copying zone _ 0 =>
      some (s, some { r with phase := if zone = 0 then .next else .releasing zone })
  | .copying zone offset (chars + 1) =>
      let byte := if zone = 0 then 0 else s.device.data zone offset
      some (s, some { r with out := r.out ++ [byte], phase := .copying zone (offset + 1) chars })
  | .releasing zone => some (s.drop task zone, some { r with phase := .next })

end ReadCall

namespace WriteCall

variable (w : WriteCall) (s : Shared) (task : Nat)

/-- `file_write` returns. -/
def finish : Shared × Option WriteCall :=
  if w.append then (s, none)
  else ({ s with fPos := Function.update s.fPos w.filp w.pos }, none)

/-- `file_write` has the block. -/
def beginCopy (zone : Nat) : Shared × Option WriteCall :=
  let c := min (blockSize - w.pos % blockSize) w.buf.length
  let size := max (s.device.iSize w.inode) (w.pos + c)
  ({ s with device := s.device.setSize w.inode size },
    some { w with pos := w.pos + c, phase := .copying zone (w.pos % blockSize) c })

def mapped : Shared × BmapOutcome → Shared × Option WriteCall
  | (s, .sleeps b wait) => (s, some { w with phase := .mapping b wait })
  | (s, .returns 0) => w.finish s
  | (s, .returns zone) => (s, some { w with phase := .getting zone })

/-- `file_write` goes on; no call is left when it returns. -/
def resume (ok : Bool) : Option (Shared × Option WriteCall) :=
  match w.phase, w.buf with
  | .next, [] => some (w.finish s)
  | .next, _ :: _ => (Bmap.start s task true w.inode (w.pos / blockSize)).map w.mapped
  | .mapping b wait, _ => (b.resume s task ok wait).map w.mapped
  | .getting zone, _ => some (s.take task zone, some { w with phase := .reading zone })
  | .reading zone, _ =>
      if ok then some (w.beginCopy s zone) else some (w.finish (s.drop task zone))
  | .copying zone _ 0, _ => some (s, some { w with phase := .releasing zone })
  | .copying zone offset (chars + 1), byte :: buf =>
      some ({ s with device := s.device.setByte zone offset byte },
        some { w with buf := buf, phase := .copying zone (offset + 1) chars })
  | .copying .., [] => none
  | .releasing zone, _ => some (s.drop task zone, some { w with phase := .next })

end WriteCall

/-! ## `truncate` -/

/-- `free_ind` or `free_dind` of the block that a pointer leads to, at entry `j`. -/
structure Scan where
  c : Cell
  zone : Nat
  j : Nat
  blockBusy : Bool
  deriving DecidableEq

/-- Where `truncate` is. -/
inductive TruncPhase where
  /-- At the next pointer. -/
  | scanning
  /-- `free_block` with a reference to the block that a pointer leads to. -/
  | freeing (c : Cell) (zone : Nat)
  /-- `getblk` in `bread` of `free_ind` or `free_dind`. -/
  | getting (c : Cell) (zone : Nat)
  /-- `bread` with a reference. -/
  | reading (c : Cell) (zone : Nat)
  /-- `brelse` in `free_ind` or `free_dind`. -/
  | releasing
  deriving DecidableEq

/-- `truncate` at `i_zone[k]`, inside of `free_dind` and `free_ind` (the innermost first). -/
structure Trunc where
  inode : Nat
  k : Nat
  blockBusy : Bool
  scans : List Scan
  phase : TruncPhase
  deriving DecidableEq

namespace Trunc

variable (t : Trunc) (s : Shared) (task : Nat)

/-- The height of the block that a pointer leads to, which is looked at next. -/
def height : Nat := t.k - 6 - t.scans.length

/-- A block is freed, or it is busy; the loop around goes on. -/
def freed (ok : Bool) : Trunc :=
  match t.scans with
  | [] => { t with k := t.k + 1, blockBusy := t.blockBusy || !ok, phase := .scanning }
  | scan :: scans =>
      { t with
        scans := { scan with j := scan.j + 1, blockBusy := scan.blockBusy || !ok } :: scans
        phase := .scanning }

/-- `free_block`, up to `wait_on_buffer` in `get_hash_table`. -/
def startFree (c : Cell) (zone : Nat) : Option (Shared × Option Trunc) :=
  if s.device.InZones zone then
    some (s.take task zone, some { t with phase := .freeing c zone })
  else none -- "trying to free block not in datazone"

/-- The next pointer: a block is freed, an indirect block is read, null is passed over. -/
def visit (c : Cell) : Option (Shared × Option Trunc) :=
  let zone := s.device.ptr c
  if zone = 0 then some (s, some (t.freed true))
  else if t.height = 0 then t.startFree s task c zone
  else some (s, some { t with phase := .getting c zone })

def scan : Option (Shared × Option Trunc) :=
  match t.scans with
  | [] =>
      if t.k < 9 then t.visit s task (.zone t.inode t.k)
      else if t.blockBusy then some (s, some { t with k := 0, blockBusy := false })
      else some ({ s with device := s.device.setSize t.inode 0 }, none)
  | scan :: _ =>
      if scan.j < 512 then t.visit s task (.entry scan.zone scan.j)
      else some (s, some { t with phase := .releasing })

/-- `truncate` goes on; no call is left when it returns. -/
def resume (ok : Bool) : Option (Shared × Option Trunc) :=
  match t.phase with
  | .scanning => t.scan s task
  | .freeing c zone =>
      if s.bCount zone > 1 then some (s.drop task zone, some (t.freed false))
      else some ((s.drop task zone).free c zone, some (t.freed true))
  | .getting c zone => some (s.take task zone, some { t with phase := .reading c zone })
  | .reading c zone =>
      if ok then
        some (s, some { t with scans := ⟨c, zone, 0, false⟩ :: t.scans, phase := .scanning })
      else t.startFree (s.drop task zone) task c zone
  | .releasing =>
      match t.scans with
      | [] => none
      | scan :: scans =>
          let t := { t with scans := scans }
          let s := s.drop task scan.zone
          if scan.blockBusy then some (s, some (t.freed false))
          else t.startFree s task scan.c scan.zone

end Trunc

/-! ## The system -/

/-- What a task is inside. -/
inductive FileCall where
  | read (r : ReadCall)
  | write (w : WriteCall)
  | truncate (t : Trunc)
  deriving DecidableEq

def FileCall.resume (s : Shared) (task : Nat) (ok : Bool) :
    FileCall → Option (Shared × Option FileCall)
  | .read r => (r.resume s task ok).map (Prod.map id (Option.map .read))
  | .write w => (w.resume s task ok).map (Prod.map id (Option.map .write))
  | .truncate t => (t.resume s task ok).map (Prod.map id (Option.map .truncate))

structure System extends Shared where
  call : Nat → Option FileCall

inductive Action where
  | fileRead (task inode filp count : Nat)
  | fileWrite (task inode filp : Nat) (append : Bool) (buf : List UInt8)
  | truncate (task inode : Nat)
  /-- A task goes on; `ok` says whether a transfer it waited for was done. -/
  | resume (task : Nat) (ok : Bool)
  /-- The buffer of a free block is reused: its contents are what is on the disk. -/
  | forget (block : Nat) (data : Nat → UInt8)

namespace System

variable (s : System)

def withCall (task : Nat) : Shared × Option FileCall → System
  | (shared, call) => ⟨shared, Function.update s.call task call⟩

def enter (task : Nat) (call : FileCall) : Option System :=
  match s.call task with
  | none => some (s.withCall task (s.toShared, some call))
  | some _ => none

def step : Action → Option System
  | .fileRead task inode filp count => s.enter task (.read ⟨inode, filp, count, [], .next⟩)
  | .fileWrite task inode filp append buf =>
      let pos := if append then s.device.iSize inode else s.fPos filp
      s.enter task (.write ⟨inode, filp, append, pos, buf, .next⟩)
  | .truncate task inode => s.enter task (.truncate ⟨inode, 0, false, [], .scanning⟩)
  | .resume task ok =>
      match s.call task with
      | none => none
      | some call => (call.resume s.toShared task ok).map (s.withCall task)
  | .forget block data =>
      if s.device.InZones block ∧ s.device.bit block = false ∧ s.bCount block = 0 then
        let device := { s.device with data := Function.update s.device.data block data }
        some ⟨{ s.toShared with device := device }, s.call⟩
      else none

end System

end Linux012.Zones
