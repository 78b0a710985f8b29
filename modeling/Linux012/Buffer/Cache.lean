import Linux012.Lib.LinkedList
import Linux012.Lib.Sizes

/-!
# The buffer cache

The data structures of `buffer.c` and the operations on them that do not sleep.  A
`struct buffer_head *` is the number of the buffer from `start_buffer` on, and each
field of the structure is a function of it.
-/

namespace Linux012.Buffer

open Lib (store)

/-- `struct buffer_head *`. -/
abbrev Bh := Nat

/-- `NR_HASH`. -/
abbrev nrHash : UInt32 := 307

/-- The buffer heads with `free_list` and `hash_table`. -/
structure Cache where
  nrBuffers : Nat
  freeList : Bh
  hashTable : Nat → Option Bh
  bData : Bh → Nat → UInt8
  bBlocknr : Bh → UInt32
  bDev : Bh → UInt16
  bUptodate : Bh → Bool
  bDirt : Bh → Bool
  bCount : Bh → UInt8
  bLock : Bh → Bool
  bPrev : Bh → Option Bh
  bNext : Bh → Option Bh
  bPrevFree : Bh → Option Bh
  bNextFree : Bh → Option Bh

/-- `_hashfn`. -/
def hashfn (dev : UInt16) (block : UInt32) : Nat :=
  ((dev.toUInt32 ^^^ block) % nrHash).toNat

namespace Cache

/-- The index of the buffer in `hash_table`. -/
def hash (c : Cache) (bh : Bh) : Nat := hashfn (c.bDev bh) (c.bBlocknr bh)

/-- The buffer is for a block. -/
def Holds (c : Cache) (bh : Bh) (dev : UInt16) (block : UInt32) : Prop :=
  c.bDev bh = dev ∧ c.bBlocknr bh = block

instance (c : Cache) (bh : Bh) (dev : UInt16) (block : UInt32) :
    Decidable (c.Holds bh dev block) :=
  inferInstanceAs (Decidable (_ ∧ _))

/-! ## The queues -/

/-- `remove_from_queues`: "remove from hash-queue". -/
def removeFromHash (c : Cache) (bh : Bh) : Cache :=
  let c := { c with bPrev := store c.bPrev (c.bNext bh) (c.bPrev bh) }
  let c := { c with bNext := store c.bNext (c.bPrev bh) (c.bNext bh) }
  if c.hashTable (c.hash bh) = some bh then
    { c with hashTable := Function.update c.hashTable (c.hash bh) (c.bNext bh) }
  else c

/-- `remove_from_queues`: "remove from free list". -/
def removeFromFree (c : Cache) (bh : Bh) : Option Cache :=
  match c.bPrevFree bh, c.bNextFree bh with
  | some _, some next =>
      let c := { c with bNextFree := store c.bNextFree (c.bPrevFree bh) (c.bNextFree bh) }
      let c := { c with bPrevFree := store c.bPrevFree (c.bNextFree bh) (c.bPrevFree bh) }
      if c.freeList = bh then some { c with freeList := next } else some c
  | _, _ => none -- "Free block list corrupted"

def removeFromQueues (c : Cache) (bh : Bh) : Option Cache :=
  (c.removeFromHash bh).removeFromFree bh

/-- `insert_into_queues`: "put at end of free list". -/
def insertIntoFree (c : Cache) (bh : Bh) : Cache :=
  let c := { c with bNextFree := store c.bNextFree (some bh) (some c.freeList) }
  let c := { c with bPrevFree := store c.bPrevFree (some bh) (c.bPrevFree c.freeList) }
  let c := { c with bNextFree := store c.bNextFree (c.bPrevFree c.freeList) (some bh) }
  { c with bPrevFree := store c.bPrevFree (some c.freeList) (some bh) }

/-- `insert_into_queues`: "put the buffer in new hash-queue if it has a device". -/
def insertIntoHash (c : Cache) (bh : Bh) : Cache :=
  let c := { c with bPrev := store c.bPrev (some bh) none }
  let c := { c with bNext := store c.bNext (some bh) none }
  if c.bDev bh = 0 then c
  else
    let c := { c with bNext := store c.bNext (some bh) (c.hashTable (c.hash bh)) }
    let c := { c with hashTable := Function.update c.hashTable (c.hash bh) (some bh) }
    { c with bPrev := store c.bPrev (c.bNext bh) (some bh) }

def insertIntoQueues (c : Cache) (bh : Bh) : Cache :=
  (c.insertIntoFree bh).insertIntoHash bh

/-! ## Searching -/

/-- The loop of `find_buffer`, for at most `left` rounds. -/
def findLoop (c : Cache) (dev : UInt16) (block : UInt32) :
    (left : Nat) → Option Bh → Option Bh
  | left + 1, some tmp =>
      if c.Holds tmp dev block then some tmp else findLoop c dev block left (c.bNext tmp)
  | _, _ => none

/-- `find_buffer`. -/
def findBuffer (c : Cache) (dev : UInt16) (block : UInt32) : Option Bh :=
  c.findLoop dev block c.nrBuffers (c.hashTable (hashfn dev block))

/-- `BADNESS`. -/
def badness (c : Cache) (bh : Bh) : Nat :=
  2 * (c.bDirt bh).toNat + (c.bLock bh).toNat

/-- One round of the loop of `getblk` that looks for a buffer to use: what `bh` is after
it, and whether the loop goes on. -/
def consider (c : Cache) (tmp : Bh) (bh : Option Bh) : Option Bh × Bool :=
  if c.bCount tmp ≠ 0 then (bh, true)
  else
    match bh with
    | none => (some tmp, c.badness tmp ≠ 0)
    | some best =>
        if c.badness tmp < c.badness best then (some tmp, c.badness tmp ≠ 0)
        else (some best, true)

/-- The loop of `getblk` that looks for a buffer to use, for at most `left` rounds. -/
def victimLoop (c : Cache) : (left : Nat) → (tmp : Bh) → Option Bh → Option Bh
  | 0, _, bh => bh
  | left + 1, tmp, bh =>
      match c.consider tmp bh with
      | (bh, false) => bh
      | (bh, true) =>
          match c.bNextFree tmp with
          | none => bh
          | some tmp => if tmp = c.freeList then bh else victimLoop c left tmp bh

def victim (c : Cache) : Option Bh := c.victimLoop c.nrBuffers c.freeList none

/-! ## Reference counts and reuse -/

/-- `bh->b_count = count`. -/
def setCount (c : Cache) (bh : Bh) (count : UInt8) : Cache :=
  { c with bCount := Function.update c.bCount bh count }

/-- The end of `getblk`: the buffer gets a new identity. -/
def assign (c : Cache) (bh : Bh) (dev : UInt16) (block : UInt32) : Option Cache := do
  let c := { c.setCount bh 1 with
    bDirt := Function.update c.bDirt bh false
    bUptodate := Function.update c.bUptodate bh false }
  let c ← c.removeFromQueues bh
  let c := { c with
    bDev := Function.update c.bDev bh dev
    bBlocknr := Function.update c.bBlocknr bh block }
  return c.insertIntoQueues bh

end Cache

/-- `buffer_init` with room for `n` buffers.  Block numbers and data are what is in the
memory. -/
def bufferInit (n : Nat) (bBlocknr : Bh → UInt32) (bData : Bh → Nat → UInt8) : Cache where
  nrBuffers := n
  freeList := 0
  hashTable _ := none
  bData := bData
  bBlocknr := bBlocknr
  bDev _ := 0
  bUptodate _ := false
  bDirt _ := false
  bCount _ := 0
  bLock _ := false
  bPrev _ := none
  bNext _ := none
  bPrevFree h := some (if h = 0 then n - 1 else h - 1)
  bNextFree h := some (if h + 1 = n then 0 else h + 1)

end Linux012.Buffer
