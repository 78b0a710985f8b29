import Linux012.Fs.PathRuns

/-!
# readlink

`sys_readlink`, on disks whose blocks are bytes.  What a walk finds in an inode comes from the
blocks that `bmap` leads to.  A block that cannot be read counts as missing, as for all callers of
`bread` here, and the text of a link ends within its block.
-/

namespace Linux012.Fs

/-- `struct d_inode`. -/
structure DInode where
  mode : UInt16
  uid : UInt16
  gid : UInt8
  size : Nat
  nlinks : UInt8
  zone : Fin 9 → UInt16

/-- The disks, and what the kernel holds of them.  A block is `none` if it cannot be read. -/
structure Disks where
  imap : Finset Ino
  inode : Ino → DInode
  block : (dev nr : Nat) → Option (Nat → UInt8)
  refs : Multiset Ino
  superBlock : List SuperBlock
  iMount : Ino → Bool

namespace Disks

variable (d : Disks)

/-! ## bmap -/

/-- `((unsigned short *) (bh->b_data))[j]` of a block. -/
def word (dev nr j : Nat) : Nat :=
  match d.block dev nr with
  | none => 0
  | some data => (data (2 * j)).toNat + 256 * (data (2 * j + 1)).toNat

/-- A pointer in an indirect block; there is none if that block is missing. -/
def entryOf (dev nr j : Nat) : Nat := if nr = 0 then 0 else d.word dev nr j

/-- The blocks that `_bmap` comes to for one block of a file; the last one is its result.  Where
it panics, for a block that is too large, there is none. -/
def route (n : Ino) (block : Nat) : List Nat :=
  let zone (k : Fin 9) := ((d.inode n).zone k).toNat
  if h : block < 7 then [zone ⟨block, by omega⟩]
  else if block - 7 < 512 then [zone 7, d.entryOf n.dev (zone 7) (block - 7)]
  else if endOfBlocks ≤ block then []
  else
    let table := d.entryOf n.dev (zone 8) ((block - 7 - 512) / 512)
    [zone 8, table, d.entryOf n.dev table ((block - 7 - 512) % 512)]

/-- `bmap`. -/
def bmap (n : Ino) (block : Nat) : Nat := (d.route n block).getLast?.getD 0

/-- The contents of a block of a file. -/
def fileBlock (n : Ino) (block : Nat) : Option (Nat → UInt8) :=
  if d.bmap n block = 0 then none else d.block n.dev (d.bmap n block)

/-- A byte of a file. -/
def byte (n : Ino) (i : Nat) : UInt8 :=
  match d.fileBlock n (i / 1024) with
  | none => 0
  | some data => data (i % 1024)

/-- A `struct dir_entry` of a directory. -/
def dirEntry (n : Ino) (slot : Nat) : DirEntry :=
  let field (i : Nat) := d.byte n (slot * dirEntrySize + i)
  { inode := (field 0).toNat + 256 * (field 1).toNat
    name := ((List.range nameLen).map fun i => field (i + 2)).takeWhile (· ≠ 0) }

/-- What the kernel finds in an inode. -/
def node (n : Ino) : Inode where
  mode := (d.inode n).mode
  uid := (d.inode n).uid
  gid := (d.inode n).gid
  size := (d.inode n).size
  nlinks := (d.inode n).nlinks
  rdev := (d.inode n).zone 0
  zone block := (d.fileBlock n block).isSome
  entry := d.dirEntry n
  bytes := d.byte n

def fileSys : FileSys where
  imap := d.imap
  inode := d.node
  refs := d.refs
  superBlock := d.superBlock
  iMount := d.iMount
  newBlocks := []

/-! ## sys_readlink -/

/-- The loop over the bytes, of which `left` still fit into the buffer. -/
def copyText (data : Nat → UInt8) : (left i : Nat) → List UInt8
  | 0, _ => []
  | left + 1, i => if data i = 0 then [] else data i :: copyText data left (i + 1)

/-- `sys_readlink`: the return value and the bytes put into the buffer. -/
def sysReadlink (current : Task) (mounts links : Nat) (path : List UInt8) (bufsiz : Int) :
    Except PathWalk.Stop (Int × List UInt8) := do
  if bufsiz ≤ 0 then return (-9, []) -- -EBADF
  let bufsiz := (min bufsiz 1023).toNat
  let (inode, fs) ←
    (PathWalk.lnamei current mounts links PathWalk.userSegment path).run d.fileSys
  match inode with
  | none => return (-2, []) -- -ENOENT
  | some inode =>
      -- `truncate` may have taken the blocks of an inode without links
      let bh :=
        if (fs.inode inode).zone 0 then d.block inode.dev ((d.inode inode).zone 0).toNat
        else none
      let _ ← (PathWalk.iput inode).run fs
      match bh with
      | none => return (0, [])
      | some data =>
          let text := copyText data bufsiz 0
          return (text.length, text)

end Disks

/-- The loop of `sys_symlink` that stores `oldname` into the block of the link from byte `i`
on. -/
def storeName : (i : Nat) → List UInt8 → (Nat → UInt8) → Nat → UInt8
  | i, [], data => Function.update data i 0
  | i, c :: oldname, data =>
      if i < 1023 ∧ c ≠ 0 then storeName (i + 1) oldname (Function.update data i c)
      else Function.update data i 0

end Linux012.Fs
