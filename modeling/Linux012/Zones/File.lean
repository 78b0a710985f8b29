import Linux012.Zones.Contents

/-!
# Reading and writing a file

`_bmap`, `new_block`, `free_block`, `truncate`, `file_read` and `file_write` as one task
runs them when no other task is in the way and no transfer fails: every call that may sleep
returns with what it was called for, and the task's own reference is the only one to a
block that it frees.  A panic is `none`.
-/

namespace Linux012.Zones

namespace Device

variable (d : Device) (inode : Nat)

/-! ## `bitmap.c` -/

/-- `new_block`. -/
def newBlock : Device × Nat :=
  match d.takeZone with
  | (d, 0) => (d, 0)
  | (d, zone) => (d.clearBlock zone, zone)

/-- `free_block`. -/
def freeBlock (block : Nat) : Option Device :=
  if d.InZones block then some (d.clearBit block)
  else none -- "trying to free block not in datazone"

/-! ## `_bmap` -/

/-- One pointer on the way of `_bmap`: a null pointer gets a new block, if `create` is set
and there is one. -/
def mapped (create : Bool) (c : Cell) : Device × Nat :=
  if create ∧ d.ptr c = 0 then
    match d.newBlock with
    | (d, 0) => (d, 0)
    | (d, zone) => (d.setPtr c zone, zone)
  else (d, d.ptr c)

/-- `_bmap` from a pointer on, along the rest of the route. -/
def follow (d : Device) (create : Bool) : Cell → List Nat → Device × Nat
  | c, [] => d.mapped create c
  | c, j :: rest =>
      match d.mapped create c with
      | (d, 0) => (d, 0)
      | (d, zone) => follow d create (.entry zone j) rest

def _bmap (block : Nat) (create : Bool) : Option (Device × Nat) :=
  if block < maxBlocks then
    some (d.follow create (.zone inode (route block).1) (route block).2)
  else none -- "_bmap: block>big"

def bmap (block : Nat) : Option (Device × Nat) := d._bmap inode block false

def createBlock (block : Nat) : Option (Device × Nat) := d._bmap inode block true

/-! ## `truncate.c` -/

/-- The loop of `free_ind` and `free_dind` over the entries of a block from `j` on, each of
which is freed with `free`. -/
def freeEntries (free : Device → Nat → Option Device) (block : Nat) :
    (left j : Nat) → Device → Option Device
  | 0, _, d => some d
  | left + 1, j, d =>
      if d.word block j = 0 then freeEntries free block left (j + 1) d
      else do
        let d ← free d (d.word block j)
        freeEntries free block left (j + 1) (d.setPtr (.entry block j) 0)

/-- `free_block`, `free_ind` and `free_dind` of a block that is not 0. -/
def freeTree : (height : Nat) → Device → (block : Nat) → Option Device
  | 0, d, block => d.freeBlock block
  | height + 1, d, block => do
      let d ← freeEntries (freeTree height) block 512 0 d
      d.freeBlock block

def freeInd (block : Nat) : Option Device :=
  if block = 0 then some d else freeTree 1 d block

def freeDind (block : Nat) : Option Device :=
  if block = 0 then some d else freeTree 2 d block

/-- The loop of `truncate` over the direct zones, from `i` on. -/
def freeDirect (inode : Nat) : (left i : Nat) → Device → Option Device
  | 0, _, d => some d
  | left + 1, i, d =>
      if d.iZone inode i = 0 then freeDirect inode left (i + 1) d
      else do
        let d ← d.freeBlock (d.iZone inode i)
        freeDirect inode left (i + 1) (d.setPtr (.zone inode i) 0)

/-- `truncate`, for a regular file. -/
def truncate : Option Device := do
  let d ← freeDirect inode 7 0 d
  let d ← d.freeInd (d.iZone inode 7)
  let d := d.setPtr (.zone inode 7) 0
  let d ← d.freeDind (d.iZone inode 8)
  let d := d.setPtr (.zone inode 8) 0
  return d.setSize inode 0

/-! ## `file_dev.c` -/

/-- The bytes of a block that are read, or zeros for a hole. -/
def readBytes (block offset chars : Nat) : List UInt8 :=
  (List.range chars).map fun i => if block = 0 then 0 else d.data block (offset + i)

/-- The bytes that are written to a block. -/
def writeBytes (d : Device) (block : Nat) : (offset : Nat) → List UInt8 → Device
  | _, [] => d
  | offset, byte :: bytes => writeBytes (d.setByte block offset byte) block (offset + 1) bytes

/-- The loop of `file_read`; every round reads at least one byte. -/
def readLoop (inode : Nat) : (rounds : Nat) → Device → (fPos left : Nat) → Option (List UInt8)
  | 0, _, _, _ => some []
  | rounds + 1, d, fPos, left =>
      if left = 0 then some []
      else do
        let (d, nr) ← d.bmap inode (fPos / blockSize)
        let chars := min (blockSize - fPos % blockSize) left
        let rest ← readLoop inode rounds d (fPos + chars) (left - chars)
        return d.readBytes nr (fPos % blockSize) chars ++ rest

/-- `file_read`: what is stored at `buf`, and `f_pos`. -/
def fileRead (fPos count : Nat) : Option (List UInt8 × Nat) := do
  let bytes ← readLoop inode count d fPos count
  return (bytes, fPos + count)

/-- The loop of `file_write`: the device, `pos` and `i` after it.  Every round writes at
least one byte. -/
def writeLoop (inode : Nat) :
    (rounds : Nat) → Device → (pos i : Nat) → (buf : List UInt8) → Option (Device × Nat × Nat)
  | 0, d, pos, i, _ => some (d, pos, i)
  | rounds + 1, d, pos, i, buf =>
      if buf = [] then some (d, pos, i)
      else do
        let (d, block) ← d.createBlock inode (pos / blockSize)
        if block = 0 then return (d, pos, i)
        let c := min (blockSize - pos % blockSize) buf.length
        let d := d.setSize inode (max (d.iSize inode) (pos + c))
        let d := d.writeBytes block (pos % blockSize) (buf.take c)
        writeLoop inode rounds d (pos + c) (i + c) (buf.drop c)

/-- `file_write`: the device, the result and `f_pos`. -/
def fileWrite (append : Bool) (fPos : Nat) (buf : List UInt8) : Option (Device × Int × Nat) := do
  let start := if append then d.iSize inode else fPos
  let (d, pos, i) ← writeLoop inode buf.length d start 0 buf
  return (d, if i = 0 then -1 else i, if append then fPos else pos)

end Device

end Linux012.Zones
