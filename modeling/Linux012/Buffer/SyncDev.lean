import Mathlib.Data.List.FinRange
import Linux012.Buffer.Calls

/-!
# getblk with sync_dev

`getblk` and all that it calls, for one task that nobody disturbs: `sync_dev`, `sync_inodes`,
`write_inode` and, from there, `bread` and `getblk` again.  Requests that are queued are done when
they are waited for, or before.  What sleeps where only this task could wake it never returns.
-/

namespace Linux012.Buffer.Syncing

/-- `NR_INODE`. -/
abbrev nrInode : Nat := 64

/-- The fields of `struct m_inode` that decide what is written. -/
structure Inode where
  iDev : UInt16
  iNum : UInt16
  iDirt : Bool
  iPipe : Bool
  iLock : Bool
  deriving DecidableEq, Repr

/-- The buffers and the inodes; `looks` counts how often a buffer to use has been looked for. -/
structure Kernel where
  cache : Cache
  inode : Fin nrInode → Inode
  looks : Nat

/-- What the devices do. -/
structure World where
  /-- `request_fn` of the device is there. -/
  driver : UInt16 → Bool
  /-- The first block of inodes, `2 + s_imap_blocks + s_zmap_blocks`, of a mounted device. -/
  inodeBlocks : UInt16 → Option UInt32
  /-- Requests for the block succeed. -/
  transfers : UInt16 → UInt32 → Bool
  /-- By that look, the request for the buffer is done. -/
  finishes : Nat → Bh → Bool

namespace World

variable (w : World)

/-! ## Requests -/

/-- `end_request` for the buffer. -/
def endRequest (c : Cache) (bh : Bh) : Cache :=
  { c with
    bLock := Function.update c.bLock bh false
    bUptodate := Function.update c.bUptodate bh (w.transfers (c.bDev bh) (c.bBlocknr bh)) }

/-- `wait_on_buffer`. -/
def waitOnBuffer (c : Cache) (bh : Bh) : Cache := if c.bLock bh then w.endRequest c bh else c

/-- Requests that are done while nobody waits for them. -/
def interrupts (k : Kernel) : Kernel :=
  { k with
    cache := { k.cache with
      bLock := fun bh => k.cache.bLock bh && !w.finishes k.looks bh
      bUptodate := fun bh =>
        if k.cache.bLock bh && w.finishes k.looks bh then
          w.transfers (k.cache.bDev bh) (k.cache.bBlocknr bh)
        else k.cache.bUptodate bh }
    looks := k.looks + 1 }

/-- `ll_rw_block` with `make_request`, for `WRITE` or `READ`. -/
def llRwBlock (write : Bool) (c : Cache) (bh : Bh) : Cache :=
  if w.driver (c.bDev bh) then
    let c := w.waitOnBuffer c bh
    if (if write then !c.bDirt bh else c.bUptodate bh) then c
    else
      { c with
        bLock := Function.update c.bLock bh true
        bDirt := Function.update c.bDirt bh false }
  else c -- "Trying to read nonexistent block-device"

/-! ## The calls, for any getblk -/

/-- One of the two loops of `sync_dev`. -/
def syncBuffers (dev : UInt16) (c : Cache) : Cache :=
  (List.range c.nrBuffers).foldl (fun c bh =>
    if c.bDev bh ≠ dev then c
    else
      let c := w.waitOnBuffer c bh
      if c.bDev bh = dev ∧ c.bDirt bh then w.llRwBlock true c bh else c) c

/-- `brelse`. -/
def brelse (c : Cache) (bh : Bh) : Option Cache :=
  let c := w.waitOnBuffer c bh
  if c.bCount bh = 0 then none -- "Trying to free free buffer"
  else some (c.setCount bh (c.bCount bh - 1))

section Open

variable (getblk : Kernel → UInt16 → UInt32 → Option (Kernel × Bh))

/-- `bread`. -/
def bread (k : Kernel) (dev : UInt16) (block : UInt32) : Option (Kernel × Option Bh) := do
  let (k, bh) ← getblk k dev block
  if k.cache.bUptodate bh then return (k, some bh)
  else
    let c := w.waitOnBuffer (w.llRwBlock false k.cache bh) bh
    if c.bUptodate bh then return ({ k with cache := c }, some bh)
    else
      let c ← w.brelse c bh
      return ({ k with cache := c }, none)

/-- `INODES_PER_BLOCK`. -/
abbrev inodesPerBlock : UInt32 := 32

def Kernel.setInode (k : Kernel) (i : Fin nrInode) (inode : Inode) : Kernel :=
  { k with inode := Function.update k.inode i inode }

/-- `write_inode`. -/
def writeInode (k : Kernel) (i : Fin nrInode) : Option Kernel :=
  let inode := k.inode i
  if inode.iLock then none
  else if !inode.iDirt || inode.iDev == 0 then some k
  else do
    let base ← w.inodeBlocks inode.iDev -- "trying to write inode without device"
    let k := Kernel.setInode k i { inode with iLock := true }
    let block := base + (inode.iNum.toUInt32 - 1) / inodesPerBlock
    let (k, bh) ← w.bread getblk k inode.iDev block
    let bh ← bh -- "unable to read i-node block"
    let c := { k.cache with bDirt := Function.update k.cache.bDirt bh true }
    let c ← w.brelse c bh
    return Kernel.setInode { k with cache := c } i { inode with iDirt := false }

/-- `sync_inodes`. -/
def syncInodes (k : Kernel) : Option Kernel :=
  (List.finRange nrInode).foldlM (fun k i =>
    if (k.inode i).iLock then none
    else if (k.inode i).iDirt && !(k.inode i).iPipe then w.writeInode getblk k i
    else some k) k

/-- `sync_dev`. -/
def syncDev (k : Kernel) (dev : UInt16) : Option Kernel := do
  let k ← w.syncInodes getblk { k with cache := w.syncBuffers dev k.cache }
  return { k with cache := w.syncBuffers dev k.cache }

end Open

/-! ## getblk -/

/-- `getblk` from `repeat:` on, or from where it has waited for the buffer to use, for at most
`fuel` rounds. -/
def getblk : (fuel : Nat) → Kernel → Option Bh → UInt16 → UInt32 → Option (Kernel × Bh)
  | 0, _, _, _, _ => none
  | fuel + 1, k, none, dev, block =>
      let k := w.interrupts k
      match k.cache.findBuffer dev block with
      | some bh =>
          let c := k.cache.setCount bh (k.cache.bCount bh + 1)
          some ({ k with cache := w.waitOnBuffer c bh }, bh)
      | none =>
          match k.cache.victim with
          | none => none -- asleep on `buffer_wait`
          | some bh => getblk fuel { k with cache := w.waitOnBuffer k.cache bh } (some bh) dev block
  | fuel + 1, k, some bh, dev, block =>
      if k.cache.bCount bh ≠ 0 then getblk fuel k none dev block
      else if k.cache.bDirt bh then
        match w.syncDev (fun k dev block => getblk fuel k none dev block) k (k.cache.bDev bh) with
        | none => none
        | some k => getblk fuel { k with cache := w.waitOnBuffer k.cache bh } (some bh) dev block
      else if (k.cache.findBuffer dev block).isSome then getblk fuel k none dev block
      else
        match k.cache.assign bh dev block with
        | none => none -- "Free block list corrupted"
        | some c => some ({ k with cache := c }, bh)

/-- The call of `getblk` returns a buffer. -/
def Returns (k : Kernel) (dev : UInt16) (block : UInt32) : Prop :=
  ∃ fuel, (w.getblk fuel k none dev block).isSome = true

/-- A round of `block_write` that writes a whole block. -/
def writeBlock (fuel : Nat) (k : Kernel) (dev : UInt16) (block : UInt32) : Option Kernel := do
  let (k, bh) ← w.getblk fuel k none dev block
  let c ← w.brelse { k.cache with bDirt := Function.update k.cache.bDirt bh true } bh
  return { k with cache := c }

end World

end Linux012.Buffer.Syncing
