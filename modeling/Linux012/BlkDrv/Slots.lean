import Mathlib.Data.Fintype.Basic
import Mathlib.Data.List.FinRange
import Linux012.BlkDrv.Request

/-!
# The slots of request[] and the locks of the buffers

`make_request`, `ll_rw_block` and `ll_rw_page` of any tasks, with `end_request` for the
requests that a driver finishes.  A task is switched away in `lock_buffer` and where it
waits for a free slot.  The queue of a device is linked through the `next` pointers of
its slots, from `current_request` on.
-/

namespace Linux012.BlkDrv.Slots

/-- `NR_REQUEST`. -/
abbrev nrRequest : Nat := 32

/-- `NR_BLK_DEV`. -/
abbrev nrBlkDev : Nat := 7

/-- A `struct request *` is an index of `request[]`. -/
abbrev Slot := Fin nrRequest

/-- An index of `blk_dev[]`. -/
abbrev Major := Fin nrBlkDev

/-- A `struct buffer_head *`. -/
abbrev Bh := Nat

/-- The fields of `struct buffer_head` that the driver uses. -/
structure BufferHead where
  bDev : Nat
  bBlocknr : Nat
  bData : Nat
  bUptodate : Bool
  bDirt : Bool
  bLock : Bool
  deriving DecidableEq, Repr

/-- Where a task is. -/
inductive Call where
  | outside
  /-- Asleep in `lock_buffer`. -/
  | locking (major : Major) (rw : Cmd) (bh : Bh) (rwAhead : Bool)
  /-- Behind `repeat:` of `make_request`, asleep on `wait_for_request` or about to look. -/
  | finding (major : Major) (rw : Cmd) (bh : Bh) (rwAhead : Bool)
  /-- Behind `repeat:` of `ll_rw_page`. -/
  | paging (major : Major) (rw : Cmd) (dev page buffer : Nat)
  deriving DecidableEq, Repr

/-- `request[]`, `blk_dev[]`, the buffers and the calls of the tasks. -/
structure BlkState (Task : Type) where
  request : Slot → Request
  next : Slot → Option Slot
  currentRequest : Major → Option Slot
  /-- `blk_dev[major].request_fn` is not null. -/
  requestFn : Major → Bool
  buffer : Bh → BufferHead
  call : Task → Call
  /-- "block not locked", or a queue without end. -/
  panicked : Bool

/-- `READ`, `WRITE`, `READA` and `WRITEA`. -/
inductive Rw where
  | read
  | write
  | reada
  | writea
  deriving DecidableEq, Repr

/-- `rw_ahead`. -/
def Rw.ahead : Rw → Bool
  | .reada | .writea => true
  | .read | .write => false

def Rw.cmd : Rw → Cmd
  | .read | .reada => .read
  | .write | .writea => .write

/-- `MAJOR`, if there is such a device and it has a driver. -/
def findMajor (requestFn : Major → Bool) (dev : Nat) : Option Major :=
  if inRange : dev >>> 8 < nrBlkDev then
    if requestFn ⟨dev >>> 8, inRange⟩ then some ⟨dev >>> 8, inRange⟩ else none
  else none

variable {Task : Type} [DecidableEq Task]

namespace BlkState

def setCall (s : BlkState Task) (task : Task) (call : Call) : BlkState Task :=
  { s with call := Function.update s.call task call }

def setBuffer (s : BlkState Task) (bh : Bh) (head : BufferHead) : BlkState Task :=
  { s with buffer := Function.update s.buffer bh head }

/-- `unlock_buffer`. -/
def unlockBuffer (s : BlkState Task) (bh : Bh) : BlkState Task :=
  s.setBuffer bh { s.buffer bh with bLock := false }

/-- `while (--req >= request) if (req->dev<0) break`, with `req` at `request+bound`. -/
def findEmpty (s : BlkState Task) (bound : Nat) : Option Slot :=
  (List.finRange nrRequest).reverse.find? fun slot =>
    decide (slot < bound) && decide ((s.request slot).dev < 0)

/-- "The last third of the requests are only for reads." -/
def slotBound : Cmd → Nat
  | .read => nrRequest
  | .write => nrRequest * 2 / 3

/-- The slot is filled, and `req->next = NULL`. -/
def fill (s : BlkState Task) (slot : Slot) (req : Request) : BlkState Task :=
  { s with
    request := Function.update s.request slot req
    next := Function.update s.next slot none }

/-! ## add_request -/

/-- The loop of `add_request` at `tmp`, for at most `left` rounds. -/
def findPlace (s : BlkState Task) (req : Slot) : (left : Nat) → (tmp : Slot) → Option Slot
  | 0, _ => none
  | left + 1, tmp =>
      match s.next tmp with
      | none => some tmp
      | some next =>
          if stopsBefore (s.request req) (s.request tmp) (s.request next) then some tmp
          else findPlace s req left next

/-- `req->next=tmp->next; tmp->next=req`. -/
def link (s : BlkState Task) (req tmp : Slot) : BlkState Task :=
  { s with
    next := Function.update (Function.update s.next req (s.next tmp)) tmp (some req) }

/-- `if (req->bh) req->bh->b_dirt = 0`. -/
def cleanBuffer (s : BlkState Task) (req : Slot) : BlkState Task :=
  match (s.request req).bh with
  | none => s
  | some bh => s.setBuffer bh { s.buffer bh with bDirt := false }

/-- `add_request`.  On an idle device the call of `request_fn` is a step of the driver. -/
def addRequest (s : BlkState Task) (major : Major) (req : Slot) : BlkState Task :=
  let s := s.cleanBuffer req
  match s.currentRequest major with
  | none => { s with currentRequest := Function.update s.currentRequest major (some req) }
  | some tmp =>
      match s.findPlace req nrRequest tmp with
      | none => { s with panicked := true }
      | some tmp => s.link req tmp

/-! ## make_request and ll_rw_page -/

/-- `make_request` from `repeat:` on. -/
def findTurn (s : BlkState Task) (task : Task) (major : Major) (rw : Cmd) (bh : Bh)
    (rwAhead : Bool) : BlkState Task :=
  match s.findEmpty (slotBound rw) with
  | none => if rwAhead then (s.unlockBuffer bh).setCall task .outside else s
  | some req =>
      let head := s.buffer bh
      let filled := s.fill req (Request.ofBuffer rw head.bDev head.bBlocknr bh head.bData)
      (filled.setCall task .outside).addRequest major req

/-- `make_request` from `lock_buffer` on. -/
def lockTurn (s : BlkState Task) (task : Task) (major : Major) (rw : Cmd) (bh : Bh)
    (rwAhead : Bool) : BlkState Task :=
  if (s.buffer bh).bLock then s.setCall task (.locking major rw bh rwAhead)
  else
    let s := (s.setBuffer bh { s.buffer bh with bLock := true }).setCall task
      (.finding major rw bh rwAhead)
    if (rw = .write ∧ (s.buffer bh).bDirt = false) ∨
        (rw = .read ∧ (s.buffer bh).bUptodate = true) then
      (s.unlockBuffer bh).setCall task .outside
    else s.findTurn task major rw bh rwAhead

def makeRequest (s : BlkState Task) (task : Task) (major : Major) (rw : Rw) (bh : Bh) :
    BlkState Task :=
  if rw.ahead && (s.buffer bh).bLock then s
  else s.lockTurn task major rw.cmd bh rw.ahead

def llRwBlock (s : BlkState Task) (task : Task) (rw : Rw) (bh : Bh) : BlkState Task :=
  match findMajor s.requestFn (s.buffer bh).bDev with
  | none => s
  | some major => s.makeRequest task major rw bh

/-- `ll_rw_page` from `repeat:` on. -/
def pageTurn (s : BlkState Task) (task : Task) (current : Nat) (major : Major) (rw : Cmd)
    (dev page buffer : Nat) : BlkState Task :=
  match s.findEmpty nrRequest with
  | none => s.setCall task (.paging major rw dev page buffer)
  | some req =>
      let filled := s.fill req (Request.ofPage rw dev page buffer current)
      (filled.setCall task .outside).addRequest major req

def llRwPage (s : BlkState Task) (task : Task) (current : Nat) (rw : Cmd)
    (dev page buffer : Nat) : BlkState Task :=
  match findMajor s.requestFn dev with
  | none => s
  | some major => s.pageTurn task current major rw dev page buffer

/-! ## The driver -/

/-- `end_request`, with `CURRENT` at the slot. -/
def endRequest (s : BlkState Task) (major : Major) (slot : Slot) (uptodate : Bool) :
    BlkState Task :=
  let s :=
    match (s.request slot).bh with
    | none => s
    | some bh => (s.setBuffer bh { s.buffer bh with bUptodate := uptodate }).unlockBuffer bh
  { s with
    request := Function.update s.request slot { s.request slot with dev := -1 }
    currentRequest := Function.update s.currentRequest major (s.next slot) }

/-- The driver has come further with `CURRENT`. -/
def progress (s : BlkState Task) (slot : Slot) (errors sector nrSectors buffer : Nat) :
    BlkState Task :=
  { s with request := Function.update s.request slot { s.request slot with
      errors := errors, sector := sector, nrSectors := nrSectors, buffer := buffer } }

/-- `do_hd_request` from `repeat:` on: it may refuse the request, which is one turn of its
loop, or begin with it. -/
def doRequest (s : BlkState Task) (major : Major) (refuses : Bool) : BlkState Task :=
  match s.currentRequest major with
  | none => s
  | some slot =>
      if (s.request slot).bh.any fun bh => !(s.buffer bh).bLock then
        { s with panicked := true }
      else if refuses then s.endRequest major slot false
      else s

end BlkState

/-! ## Runs -/

inductive Action (Task : Type) where
  | llRwBlock (task : Task) (rw : Rw) (bh : Bh)
  | llRwPage (task : Task) (current : Nat) (rw : Cmd) (dev page buffer : Nat)
  /-- A task looks again. -/
  | turn (task : Task) (current : Nat)
  /-- The driver finishes `CURRENT`. -/
  | endRequest (major : Major) (uptodate : Bool)
  | progress (major : Major) (errors sector nrSectors buffer : Nat)
  /-- The driver is called. -/
  | doRequest (major : Major) (refuses : Bool)
  /-- Other code uses the buffer for another block, reads or writes it. -/
  | elsewhere (bh : Bh) (bDev bBlocknr : Nat) (bUptodate bDirt : Bool)

/-- One step. -/
def step (s : BlkState Task) : Action Task → Option (BlkState Task)
  | .llRwBlock task rw bh =>
      if s.call task = .outside then some (s.llRwBlock task rw bh) else none
  | .llRwPage task current rw dev page buffer =>
      if s.call task = .outside then some (s.llRwPage task current rw dev page buffer)
      else none
  | .turn task current =>
      match s.call task with
      | .outside => none
      | .locking major rw bh rwAhead => some (s.lockTurn task major rw bh rwAhead)
      | .finding major rw bh rwAhead => some (s.findTurn task major rw bh rwAhead)
      | .paging major rw dev page buffer =>
          some (s.pageTurn task current major rw dev page buffer)
  | .endRequest major uptodate =>
      match s.currentRequest major with
      | none => none
      | some slot => some (s.endRequest major slot uptodate)
  | .progress major errors sector nrSectors buffer =>
      match s.currentRequest major with
      | none => none
      | some slot => some (s.progress slot errors sector nrSectors buffer)
  | .doRequest major refuses => some (s.doRequest major refuses)
  | .elsewhere bh bDev bBlocknr bUptodate bDirt =>
      some (s.setBuffer bh { s.buffer bh with
        bDev := bDev, bBlocknr := bBlocknr, bUptodate := bUptodate, bDirt := bDirt })

/-- After `blk_dev_init` and the initialisation of the drivers and of the buffers. -/
def boot (request : Slot → Request) (requestFn : Major → Bool) (buffer : Bh → BufferHead) :
    BlkState Task where
  request slot := { request slot with dev := -1 }
  next _ := none
  currentRequest _ := none
  requestFn := requestFn
  buffer bh := { buffer bh with bLock := false }
  call _ := .outside
  panicked := false

end Linux012.BlkDrv.Slots
