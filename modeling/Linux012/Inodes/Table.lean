import Mathlib.Data.List.FinRange
import Mathlib.Data.Fintype.Basic
import Mathlib.Logic.Function.Basic
import Linux012.Lib.Sizes

/-!
# The inode table

`inode_table` and the calls `iget`, `iput`, `new_inode` and `get_empty_inode`, cut at the
places where they sleep: while an inode is locked, and in `bread`, `sync_dev` and
`truncate`.  No file system is mounted or unmounted meanwhile, so `get_super` does not
sleep.

`refs` are the references that `i_count` counts: the task that has it, and the slot.  A
slot that `get_empty_inode` has set aside counts as referred to.
-/

namespace Linux012.Inodes

/-- `NR_INODE`. -/
abbrev nrInode : Nat := 64

/-- `ROOT_INO`. -/
abbrev rootIno : Nat := 1

/-- `struct m_inode *`. -/
abbrev Slot := Fin nrInode

/-- The fields of `struct m_inode` that these calls look at; `isBlk` is
`S_ISBLK(i_mode)`. -/
structure MInode where
  isBlk : Bool
  iNlinks : Nat
  iDev : Nat
  iNum : Nat
  iCount : Nat
  iLock : Bool
  iDirt : Bool
  iPipe : Bool
  iMount : Bool
  deriving DecidableEq, Repr

/-- `memset(inode,0,sizeof(*inode))`. -/
def MInode.zero : MInode where
  isBlk := false
  iNlinks := 0
  iDev := 0
  iNum := 0
  iCount := 0
  iLock := false
  iDirt := false
  iPipe := false
  iMount := false

/-- A reference to an inode in the table. -/
structure Ref where
  task : Nat
  slot : Slot
  deriving DecidableEq, Repr

/-- The inode table, with the inode bitmaps and sizes of the devices, and the device that
is mounted on an inode. -/
structure Table where
  inode : Slot → MInode
  lastInode : Slot
  imap : Nat → Nat → Bool
  ninodes : Nat → Nat
  mounted : Slot → Option Nat
  refs : List Ref

/-- What `get_empty_inode` is called for. -/
inductive Why where
  | getEmptyInode
  | newInode (dev : Nat)
  | iget (dev nr : Nat)
  deriving DecidableEq, Repr

/-- What comes after an `iput`: the end of the call, or the search of `iget` for the root
of a mounted file system. -/
inductive After where
  | returns (result : Option Slot)
  | crosses (empty : Slot) (dev nr : Nat)
  deriving DecidableEq, Repr

/-- Where in a call a task sleeps. -/
inductive Wait where
  /-- `get_empty_inode`: `wait_on_inode(inode)`. -/
  | empty (i : Slot) (why : Why)
  /-- `get_empty_inode`: `write_inode(inode)`. -/
  | emptyWrite (i : Slot) (why : Why)
  /-- `iget`: `wait_on_inode(inode)`. -/
  | found (empty i : Slot) (dev nr : Nat)
  /-- `iget`: after `iput(inode)` of a mount point. -/
  | crossed (empty : Slot) (dev nr : Nat)
  /-- `read_inode`: `lock_inode(inode)`. -/
  | readLock (i : Slot)
  /-- `read_inode`: `bread`. -/
  | reading (i : Slot)
  /-- `iput`: `wait_on_inode(inode)`. -/
  | put (i : Slot) (after : After)
  /-- `iput`: `sync_dev(inode->i_zone[0])`. -/
  | putSync (i : Slot) (after : After)
  /-- `iput`: `wait_on_inode(inode)` after `sync_dev`. -/
  | putSynced (i : Slot) (after : After)
  /-- `iput`: `truncate(inode)`. -/
  | putTruncate (i : Slot) (after : After)
  /-- `iput`: `write_inode(inode)`. -/
  | putWrite (i : Slot) (after : After)
  /-- `sync_inodes`: `write_inode(inode)`. -/
  | syncWrite (i : Slot)
  deriving DecidableEq, Repr

/-- What a task does next. -/
inductive Outcome where
  | sleeps (wait : Wait)
  | returns (result : Option Slot)
  deriving DecidableEq, Repr

/-- Where the task sleeps, if it does. -/
def Outcome.wait : Outcome → Option Wait
  | .sleeps wait => some wait
  | .returns _ => none

namespace Table

variable (t : Table) (task : Nat)

/-- The inode in the slot is number `nr` of device `dev`. -/
def Carries (i : Slot) (dev nr : Nat) : Prop := (t.inode i).iDev = dev ∧ (t.inode i).iNum = nr

instance (i : Slot) (dev nr : Nat) : Decidable (t.Carries i dev nr) :=
  inferInstanceAs (Decidable (_ ∧ _))

def setInode (i : Slot) (node : MInode) : Table :=
  { t with inode := Function.update t.inode i node }

/-- `inode->i_count++`. -/
def take (i : Slot) : Table :=
  { t.setInode i { t.inode i with iCount := (t.inode i).iCount + 1 } with
    refs := ⟨task, i⟩ :: t.refs }

/-- `inode->i_count--`. -/
def drop (i : Slot) : Table :=
  { t.setInode i { t.inode i with iCount := (t.inode i).iCount - 1 } with
    refs := t.refs.erase ⟨task, i⟩ }

/-- `inode->i_lock=1`, in `lock_inode`. -/
def lock (i : Slot) : Table := t.setInode i { t.inode i with iLock := true }

/-- The end of `write_inode`. -/
def written (i : Slot) : Table := t.setInode i { t.inode i with iDirt := false, iLock := false }

/-- `set_bit` and `clear_bit` in the inode bitmap of a device. -/
def setBit (dev nr : Nat) (bit : Bool) : Table :=
  { t with imap := Function.update t.imap dev (Function.update (t.imap dev) nr bit) }

/-! ## iput -/

/-- After the last statement of an `iput`. -/
def afterPut : After → Outcome
  | .returns result => .returns result
  | .crosses empty dev nr => .sleeps (.crossed empty dev nr)

/-- `iput` from `repeat:` on. -/
def putRepeat (i : Slot) (after : After) : Option (Table × Outcome) :=
  if (t.inode i).iCount > 1 then some (t.drop task i, afterPut after)
  else if (t.inode i).iNlinks = 0 then some (t, .sleeps (.putTruncate i after))
  else if (t.inode i).iDirt then
    -- without a device, `write_inode` does nothing and the loop does not end
    if (t.inode i).iDev = 0 then none else some (t.lock i, .sleeps (.putWrite i after))
  else some (t.drop task i, afterPut after)

/-- `iput` behind the first `wait_on_inode`. -/
def putUnlocked (i : Slot) (after : After) : Option (Table × Outcome) :=
  if (t.inode i).iCount = 0 then none -- "iput: trying to free free inode"
  else if (t.inode i).iPipe then
    let t := t.drop task i
    if (t.inode i).iCount ≠ 0 then some (t, afterPut after)
    else some (t.setInode i { t.inode i with iDirt := false, iPipe := false }, afterPut after)
  else if (t.inode i).iDev = 0 then some (t.drop task i, afterPut after)
  else if (t.inode i).isBlk then some (t, .sleeps (.putSync i after))
  else t.putRepeat task i after

/-- `iput`. -/
def iput (i : Slot) (after : After) : Option (Table × Outcome) :=
  if (t.inode i).iLock then some (t, .sleeps (.put i after)) else t.putUnlocked task i after

/-- `free_inode`, and the end of `iput`. -/
def freeInode (i : Slot) (after : After) : Option (Table × Outcome) :=
  let freed := { t.setInode i .zero with refs := t.refs.erase ⟨task, i⟩ }
  if (t.inode i).iDev = 0 then some (freed, afterPut after)
  else if (t.inode i).iCount > 1 then none -- "free_inode"
  else if (t.inode i).iNlinks ≠ 0 then none -- "trying to free inode with links"
  else if (t.inode i).iNum < 1 ∨ (t.inode i).iNum > t.ninodes (t.inode i).iDev then
    none -- "trying to free inode 0 or nonexistant inode"
  else
    some (freed.setBit (t.inode i).iDev (t.inode i).iNum false, afterPut after)

/-! ## iget -/

/-- `iget` has found the inode in a slot that is not locked. -/
def takeFound (empty i : Slot) : Option (Table × Outcome) :=
  let t := t.take task i
  if (t.inode i).iMount then
    match t.mounted i with
    | none => t.iput task empty (.returns (some i)) -- "Mounted inode hasn't got sb"
    | some dev => t.iput task i (.crosses empty dev rootIno)
  else t.iput task empty (.returns (some i))

/-- `lock_inode(inode)` of `read_inode`. -/
def readInode (i : Slot) : Table × Outcome :=
  if (t.inode i).iLock then (t, .sleeps (.readLock i)) else (t.lock i, .sleeps (.reading i))

/-- The loop of `iget` from the start of the table, and what follows when it finds
nothing. -/
def scan (empty : Slot) (dev nr : Nat) : Option (Table × Outcome) :=
  match (List.finRange nrInode).find? fun i => t.Carries i dev nr with
  | some i =>
      if (t.inode i).iLock then some (t, .sleeps (.found empty i dev nr))
      else t.takeFound task empty i
  | none =>
      some ((t.setInode empty { t.inode empty with iDev := dev, iNum := nr }).readInode empty)

/-! ## get_empty_inode and new_inode -/

/-- The `for` loop of `get_empty_inode`: the inode to use, and `last_inode` after it. -/
def pick : Option (Slot × Slot) :=
  let order := (List.finRange nrInode).map fun k => t.lastInode + 1 + k
  match order.find? fun i =>
      (t.inode i).iCount = 0 && !(t.inode i).iDirt && !(t.inode i).iLock with
  | some i => some (i, i)
  | none =>
      (order.filter fun i => (t.inode i).iCount = 0).getLast?.map fun i => (i, t.lastInode)

/-- `find_first_zero` over the inode bitmap of a device, from number `j` on. -/
def findFirstZero (bits : Nat → Bool) : (left : Nat) → (j : Nat) → Option Nat
  | 0, _ => none
  | left + 1, j => if bits j then findFirstZero bits left (j + 1) else some j

/-- `new_inode` behind `get_empty_inode`. -/
def initNew (i : Slot) (dev : Nat) : Option (Table × Outcome) :=
  match findFirstZero (t.imap dev) (t.ninodes dev + 1) 0 with
  | none => t.iput task i (.returns none)
  | some j =>
      let node := { t.inode i with
        iCount := 1, iNlinks := 1, iDev := dev, iDirt := true, iNum := j }
      some ((t.setInode i node).setBit dev j true, .returns (some i))

/-- `get_empty_inode` has found its inode. -/
def gotEmpty (i : Slot) (why : Why) : Option (Table × Outcome) :=
  let t := { t.setInode i { MInode.zero with iCount := 1 } with refs := ⟨task, i⟩ :: t.refs }
  match why with
  | .getEmptyInode => some (t, .returns (some i))
  | .newInode dev => t.initNew task i dev
  | .iget dev nr => t.scan task i dev nr

/-- The loop of `get_empty_inode`, when the inode is dirty. -/
def emptyDirty (i : Slot) (why : Why) : Option (Table × Outcome) :=
  -- without a device, `write_inode` does nothing and the loop does not end
  if (t.inode i).iDev = 0 then none else some (t.lock i, .sleeps (.emptyWrite i why))

/-- `get_empty_inode`. -/
def getEmptyInode (why : Why) : Option (Table × Outcome) :=
  match t.pick with
  | none => none -- "No free inodes in mem"
  | some (i, last) =>
      let t := { t with lastInode := last }
      if (t.inode i).iLock then some (t, .sleeps (.empty i why))
      else if (t.inode i).iDirt then t.emptyDirty i why
      else t.gotEmpty task i why

/-- `get_empty_inode` behind a `wait_on_inode`. -/
def emptyUnlocked (i : Slot) (why : Why) : Option (Table × Outcome) :=
  if (t.inode i).iDirt then t.emptyDirty i why
  else if (t.inode i).iCount ≠ 0 then t.getEmptyInode task why
  else t.gotEmpty task i why

/-! ## Going on -/

/-- The inode whose `i_lock` keeps the task from going on. -/
def lockOf : Wait → Option Slot
  | .empty i _ | .found _ i _ _ | .readLock i | .put i _ | .putSynced i _ => some i
  | _ => none

/-- The task goes on after it slept at `wait`.  `isBlk` and `iNlinks` are what
`read_inode` finds on the device. -/
def resume (wait : Wait) (isBlk : Bool) (iNlinks : Nat) : Option (Table × Outcome) :=
  if (lockOf wait).any fun i => (t.inode i).iLock then none
  else
    match wait with
    | .empty i why => t.emptyUnlocked task i why
    | .emptyWrite i why => (t.written i).emptyUnlocked task i why
    | .found empty i dev nr =>
        if t.Carries i dev nr then t.takeFound task empty i else t.scan task empty dev nr
    | .crossed empty dev nr => t.scan task empty dev nr
    | .readLock i => some (t.readInode i)
    | .reading i =>
        some (t.setInode i { t.inode i with
          isBlk := isBlk, iNlinks := iNlinks, iLock := false }, .returns (some i))
    | .put i after => t.putUnlocked task i after
    | .putSync i after => some (t, .sleeps (.putSynced i after))
    | .putSynced i after => t.putRepeat task i after
    | .putTruncate i after => t.freeInode task i after
    | .putWrite i after => (t.written i).putRepeat task i after
    | .syncWrite i => some (t.written i, .returns none)

end Table

end Linux012.Inodes
