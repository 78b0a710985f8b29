import Mathlib.Data.Finset.Card
import Mathlib.Data.Finset.Union
import Mathlib.Data.Finset.Range
import Mathlib.Data.Finset.Image
import Mathlib.Logic.Function.Basic
import Linux012.Lib.Sizes

/-!
# Inodes and directory entries

The allocated inodes of all mounted devices with their contents.  `inode n` is the
contents that the kernel works with: the copy in `inode_table` while there is one,
and the one on disk otherwise.  Everything that the kernel changes in a copy is
written back before the copy is dropped, so the two need not be told apart.

Of a block of an inode only the view that its type gives it is used: directory
entries for a directory, bytes for other files.
-/

namespace Linux012.Fs

/-- An inode number on a device. -/
structure Ino where
  dev : Nat
  num : Nat
  deriving DecidableEq, Repr

abbrev Name := List UInt8

/-- `'.'`. -/
abbrev dot : UInt8 := 46

/-- `struct dir_entry`; the name ends before the first NUL of its 14 bytes. -/
structure DirEntry where
  inode : Nat
  name : Name
  deriving DecidableEq, Repr

/-- The part of `struct m_inode` that is also on disk, with the blocks it leads to.
`zone b` says whether `bmap` finds a block for block `b` of the file, and `rdev` is
what `i_zone[0]` holds in the inode of a device. -/
structure Inode where
  mode : UInt16
  uid : UInt16
  gid : UInt8
  size : Nat
  nlinks : UInt8
  rdev : UInt16
  zone : Nat → Bool
  entry : Nat → DirEntry
  bytes : Nat → UInt8

/-- `sizeof (struct dir_entry)`. -/
abbrev dirEntrySize : Nat := 16

/-- `DIR_ENTRIES_PER_BLOCK`. -/
abbrev dirEntriesPerBlock : Nat := 64

def sIfmt : UInt16 := 0o170000
def sIflnk : UInt16 := 0o120000
def sIfreg : UInt16 := 0o100000
def sIfblk : UInt16 := 0o060000
def sIfdir : UInt16 := 0o040000
def sIfchr : UInt16 := 0o020000
def sIsvtx : UInt16 := 0o001000

/-- `S_ISLNK`, `S_ISREG`, `S_ISDIR`, .. compare the type bits of a mode. -/
def isType (type mode : UInt16) : Bool := mode &&& sIfmt == type

abbrev Inode.isLnk (node : Inode) : Bool := isType sIflnk node.mode
abbrev Inode.isReg (node : Inode) : Bool := isType sIfreg node.mode
abbrev Inode.isDir (node : Inode) : Bool := isType sIfdir node.mode
abbrev Inode.isBlk (node : Inode) : Bool := isType sIfblk node.mode
abbrev Inode.isChr (node : Inode) : Bool := isType sIfchr node.mode

/-- The allocated inodes and the contents of all inodes. -/
structure Tree where
  imap : Finset Ino
  inode : Ino → Inode

/-! ## Live entries -/

/-- The inode number in a slot of a directory, if the slot holds a live entry. -/
def Inode.target (node : Inode) (slot : Nat) : Option Nat :=
  if node.isDir ∧ slot < node.size / dirEntrySize ∧
      node.zone (slot / dirEntriesPerBlock) ∧ (node.entry slot).inode ≠ 0 then
    some (node.entry slot).inode
  else none

/-- A live entry of an allocated directory carries the number of `n`. -/
def Tree.Names (tree : Tree) (dir : Ino) (slot : Nat) (n : Ino) : Prop :=
  dir ∈ tree.imap ∧ dir.dev = n.dev ∧ (tree.inode dir).target slot = some n.num

instance (tree : Tree) (dir : Ino) (slot : Nat) (n : Ino) :
    Decidable (tree.Names dir slot n) :=
  inferInstanceAs (Decidable (_ ∧ _ ∧ _))

/-- The live entries that carry the number of `n`. -/
def Tree.namers (tree : Tree) (n : Ino) : Finset (Ino × Nat) :=
  tree.imap.biUnion fun dir =>
    ((Finset.range ((tree.inode dir).size / dirEntrySize)).filter
      fun slot => tree.Names dir slot n).image fun slot => (dir, slot)

/-- The number of live entries that carry the number of `n`. -/
def Tree.linkCount (tree : Tree) (n : Ino) : Nat := (tree.namers n).card

theorem Inode.lt_of_target {node : Inode} {slot num : Nat}
    (live : node.target slot = some num) : slot < node.size / dirEntrySize := by
  unfold Inode.target at live
  split at live
  next holds => exact holds.2.1
  next => cases live

theorem Inode.isDir_of_target {node : Inode} {slot num : Nat}
    (live : node.target slot = some num) : node.isDir = true := by
  unfold Inode.target at live
  split at live
  next holds => exact holds.1
  next => cases live

theorem Inode.target_of_not_isDir {node : Inode} (other : node.isDir = false) (slot : Nat) :
    node.target slot = none := by
  simp [Inode.target, other]

@[simp] theorem Tree.mem_namers {tree : Tree} {n dir : Ino} {slot : Nat} :
    (dir, slot) ∈ tree.namers n ↔ tree.Names dir slot n := by
  simp only [Tree.namers, Finset.mem_biUnion, Finset.mem_image, Finset.mem_filter,
    Finset.mem_range, Prod.mk.injEq]
  constructor
  · rintro ⟨dir', _, slot', ⟨_, names⟩, rfl, rfl⟩
    exact names
  · intro names
    exact ⟨dir, names.1, slot, ⟨Inode.lt_of_target names.2.2, names⟩, rfl, rfl⟩

theorem Tree.linkCount_pos {tree : Tree} {n dir : Ino} {slot : Nat}
    (names : tree.Names dir slot n) : 0 < tree.linkCount n :=
  Finset.card_pos.mpr ⟨(dir, slot), Tree.mem_namers.mpr names⟩

theorem Tree.not_names_of_linkCount_eq_zero {tree : Tree} {n : Ino}
    (unnamed : tree.linkCount n = 0) (dir : Ino) (slot : Nat) : ¬tree.Names dir slot n := by
  intro names
  have positive := Tree.linkCount_pos names
  omega

theorem Tree.linkCount_congr {tree tree' : Tree} {n : Ino}
    (same : ∀ dir slot, tree'.Names dir slot n ↔ tree.Names dir slot n) :
    tree'.linkCount n = tree.linkCount n := by
  have equal : tree'.namers n = tree.namers n := by
    ext ⟨dir, slot⟩
    rw [Tree.mem_namers, Tree.mem_namers]
    exact same dir slot
  rw [Tree.linkCount, equal, Tree.linkCount]

/-- One live entry more is one link more. -/
theorem Tree.linkCount_succ {tree tree' : Tree} {n place : Ino} {at_ : Nat}
    (fresh : ¬tree.Names place at_ n)
    (added : ∀ dir slot, tree'.Names dir slot n ↔
      tree.Names dir slot n ∨ dir = place ∧ slot = at_) :
    tree'.linkCount n = tree.linkCount n + 1 := by
  have equal : tree'.namers n = insert (place, at_) (tree.namers n) := by
    ext ⟨dir, slot⟩
    rw [Finset.mem_insert, Tree.mem_namers, Tree.mem_namers, added dir slot, or_comm,
      Prod.mk.injEq]
  rw [Tree.linkCount, equal, Finset.card_insert_of_notMem (by simpa using fresh),
    Tree.linkCount]

/-! ## The law of link counts -/

/-- The law: `i_nlinks` of every allocated inode is the number of live entries that
name it, and no live entry names an inode that is not allocated. -/
structure LinkLaw (tree : Tree) : Prop where
  counts : ∀ n ∈ tree.imap, (tree.inode n).nlinks.toNat = tree.linkCount n
  allocated : ∀ dir slot n, tree.Names dir slot n → n ∈ tree.imap

/-- A directory without a block, as `sys_mknod` makes it. -/
def Inode.Blank (node : Inode) : Prop := node.size = 0 ∧ node.zone 0 = false

/-- A directory that begins with the entries `.` and `..`. -/
structure Inode.Proper (node : Inode) (num : Nat) : Prop where
  wholeEntries : node.size % dirEntrySize = 0
  dot : node.target 0 = some num
  dotdot : ∃ parent, node.target 1 = some parent
  dotName : (node.entry 0).name = [Fs.dot]
  dotdotName : (node.entry 1).name = [Fs.dot, Fs.dot]

/-- The shape of a directory tree.  Slots 0 and 1 of a directory are `.` and `..`;
the other slots form the tree. -/
structure DirTree (tree : Tree) : Prop where
  numbered : ∀ n ∈ tree.imap, n.num ≠ 0
  shape : ∀ dir ∈ tree.imap, (tree.inode dir).isDir = true →
    (tree.inode dir).Blank ∨ (tree.inode dir).Proper dir.num
  /-- The directory that `..` names has an entry for this one, except at the root. -/
  parent : ∀ dir up, tree.Names dir 1 up → up = dir ∨ ∃ slot ≥ 2, tree.Names up slot dir
  /-- `..` names the directory that has an entry for this one. -/
  child : ∀ up slot dir up', 2 ≤ slot → tree.Names up slot dir →
    tree.Names dir 1 up' → up' = up
  /-- A directory has one entry besides `.` and `..`. -/
  once : ∀ n, (tree.inode n).isDir = true → ∀ up slot up' slot', 2 ≤ slot → 2 ≤ slot' →
    tree.Names up slot n → tree.Names up' slot' n → up = up' ∧ slot = slot'

/-- What every call keeps of the inodes and the entries. -/
structure Tree.Ok (tree : Tree) : Prop where
  law : LinkLaw tree
  dirs : DirTree tree

end Linux012.Fs
