import Mathlib.Data.Multiset.Dedup
import Mathlib.Data.Multiset.AddSub
import Linux012.Fs.Tree

/-!
# Inodes in use

`iget`, `iput`, `new_inode` and what they call, from `inode.c`, `bitmap.c` and
`truncate.c`.  An inode in use is one reference or more to a slot of `inode_table`:
`i_count` of an inode is the number of its occurrences in `refs`.  Times and the
dirty flags are left out, and a panic is `failure`.
-/

namespace Linux012.Fs

/-- `NR_INODE`. -/
abbrev nrInode : Nat := 64

/-- `ROOT_INO`. -/
abbrev rootIno : Nat := 1

/-- The fields of `struct super_block` that `namei.c` depends on. -/
structure SuperBlock where
  sDev : Nat
  sNinodes : Nat
  sImount : Option Ino
  deriving DecidableEq, Repr

/-- The mounted file systems.  `newBlocks` holds the answers that the next calls of
`new_block` get: whether there is a free block. -/
structure FileSys extends Tree where
  refs : Multiset Ino
  superBlock : List SuperBlock
  iMount : Ino → Bool
  newBlocks : List Bool

/-- Kernel code that works on the file systems. -/
abbrev FsM := StateT FileSys Option

/-- `i_count`. -/
def FileSys.iCount (fs : FileSys) (n : Ino) : Nat := fs.refs.count n

def FileSys.getSuper (fs : FileSys) (dev : Nat) : Option SuperBlock :=
  if dev = 0 then none else fs.superBlock.find? fun sb => sb.sDev == dev

/-- One more reference. -/
def FileSys.hold (fs : FileSys) (n : Ino) : FileSys := { fs with refs := n ::ₘ fs.refs }

def FileSys.setInode (fs : FileSys) (n : Ino) (node : Inode) : FileSys :=
  { fs with inode := Function.update fs.inode n node }

/-- `inode->i_count++`. -/
def hold (n : Ino) : FsM Unit := modify fun fs => fs.hold n

def setInode (n : Ino) (node : Inode) : FsM Unit := modify fun fs => fs.setInode n node

/-- `get_empty_inode` as far as it can fail: it panics when no slot is free. -/
def getEmptyInode : FsM Unit := do
  let fs ← get
  if nrInode ≤ fs.refs.dedup.card then failure

/-- `truncate`: files with blocks lose them all. -/
def truncate (n : Ino) : FsM Unit := do
  let fs ← get
  let node := fs.inode n
  if node.isReg || node.isDir || node.isLnk then
    setInode n { node with zone := fun _ => false, size := 0 }

/-- `free_inode`, for an inode with one reference. -/
def freeInode (n : Ino) : FsM Unit := do
  let fs ← get
  if (fs.inode n).nlinks ≠ 0 then failure
  let some sb := fs.getSuper n.dev | failure
  if n.num < 1 ∨ n.num > sb.sNinodes then failure
  set { fs with imap := fs.imap.erase n, refs := fs.refs.erase n }

def iput (n : Ino) : FsM Unit := do
  let fs ← get
  if fs.iCount n = 0 then failure
  if fs.iCount n > 1 then
    set { fs with refs := fs.refs.erase n }
  else if (fs.inode n).nlinks = 0 then do
    truncate n
    freeInode n
  else
    set { fs with refs := fs.refs.erase n }

/-- `iget`.  A mounted inode leads to the root of the file system that is mounted on
it; as `sys_mount` refuses `ROOT_INO`, nothing is mounted on that root itself. -/
def iget (dev nr : Nat) : FsM Ino := do
  getEmptyInode
  let fs ← get
  let inode : Ino := ⟨dev, nr⟩
  if fs.iMount inode then
    match fs.superBlock.find? fun sb => sb.sImount == some inode with
    | some sb =>
        hold ⟨sb.sDev, rootIno⟩
        return ⟨sb.sDev, rootIno⟩
    | none =>
        -- "Mounted inode hasn't got sb"
        hold inode
        return inode
  else
    hold inode
    return inode

/-- The number of the first zero bit of the inode bitmap, unless it is too large. -/
def FileSys.freeInodeNumber (fs : FileSys) (dev : Nat) (sb : SuperBlock) : Option Nat :=
  (List.range' 1 sb.sNinodes).find? fun num => decide ((⟨dev, num⟩ : Ino) ∉ fs.imap)

/-- The contents that `get_empty_inode` clears a slot to, with the fields that
`new_inode` sets. -/
def freshInode (uid gid : UInt16) : Inode where
  mode := 0
  uid := uid
  gid := UInt8.ofNat gid.toNat
  size := 0
  nlinks := 1
  rdev := 0
  zone := fun _ => false
  entry := fun _ => ⟨0, []⟩
  bytes := fun _ => 0

def newInode (dev : Nat) (uid gid : UInt16) : FsM (Option Ino) := do
  getEmptyInode
  let fs ← get
  let some sb := fs.getSuper dev | failure
  match fs.freeInodeNumber dev sb with
  | none => return none
  | some num =>
      let inode : Ino := ⟨dev, num⟩
      set { (fs.hold inode).setInode inode (freshInode uid gid) with
        imap := insert inode fs.imap }
      return some inode

/-- `new_block`, as far as it is seen here: whether there was a free block. -/
def newBlock : FsM Bool := do
  let fs ← get
  match fs.newBlocks with
  | [] => return false
  | answer :: rest =>
      set { fs with newBlocks := rest }
      return answer

/-- Past the last block that `_bmap` accepts. -/
def endOfBlocks : Nat := 7 + 512 + 512 * 512

/-- A new block is cleared, in either view of it. -/
def Inode.withBlock (node : Inode) (block : Nat) : Inode :=
  { node with
    zone := Function.update node.zone block true
    entry := fun slot =>
      if slot / dirEntriesPerBlock = block then ⟨0, []⟩ else node.entry slot
    bytes := fun pos => if pos / 1024 = block then 0 else node.bytes pos }

/-- `create_block`; the answer is whether there is a block then.  The calls of
`new_block` for indirect blocks count as one with that for the block. -/
def createBlock (n : Ino) (block : Nat) : FsM Bool := do
  if block ≥ endOfBlocks then failure
  let fs ← get
  if (fs.inode n).zone block then return true
  if ← newBlock then
    let fs ← get
    setInode n ((fs.inode n).withBlock block)
    return true
  else
    return false

end Linux012.Fs
