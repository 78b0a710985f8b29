import Linux012.Fs.NameiSpec

/-!
# How the calls change the tree

Each call that makes or removes an entry ends in one of the changes of the tree, with
the directory and the file in the place of the abstract inodes.  All of its other ways
out leave the tree as it was.
-/

namespace Linux012.Fs

open Lib (Triple)

variable {fs : FileSys} {n m dir : Ino} {slot : Nat} {name : Name}

/-! ## A slot of a directory -/

theorem Inode.FreeSlot.target {node : Inode} (free : node.FreeSlot slot) :
    node.target slot = none := by
  simp [Inode.target, free.inode]

/-- Slots 0 and 1 of a directory are never free. -/
theorem Inode.FreeSlot.late {node : Inode} {num : Nat} (free : node.FreeSlot slot)
    (shape : node.Blank ∨ node.Proper num) : 2 ≤ slot := by
  have empty := free.target
  rcases shape with blank | proper
  · have inside := free.inside
    simp [blank.1] at inside
  · match slot with
    | 0 =>
        rw [proper.dot] at empty
        cases empty
    | 1 =>
        rcases proper.dotdot with ⟨up, live⟩
        rw [live] at empty
        cases empty
    | slot + 2 => omega

theorem Inode.slotChanged_withEntry {node : Inode} {de : DirEntry} (isDir : node.isDir = true) :
    node.SlotChanged (node.withEntry slot de) slot where
  isDir := isDir
  isDir' := isDir
  size := rfl
  zone := rfl
  target i other := by
    simp [Inode.target, Inode.withEntry, other]
  entry i other := by
    simp [Inode.withEntry, other]

theorem Inode.SlotChanged.setNlinks {old new : Inode} {nlinks : UInt8}
    (changed : old.SlotChanged new slot) :
    old.SlotChanged { new with nlinks := nlinks } slot :=
  ⟨changed.isDir, changed.isDir', changed.size, changed.zone, changed.target, changed.entry⟩

theorem Inode.FreeSlot.target_withEntry {node : Inode} {num : Nat} (free : node.FreeSlot slot)
    (isDir : node.isDir = true) (numbered : num ≠ 0) :
    (node.withEntry slot ⟨num, name⟩).target slot = some num := by
  rw [Inode.target, if_pos]
  · simp [Inode.withEntry]
  · exact ⟨isDir, free.inside, free.zone, by simpa [Inode.withEntry] using numbered⟩

@[simp] theorem Inode.target_withEntry_zero {node : Inode} :
    (node.withEntry slot ⟨0, name⟩).target slot = none := by
  simp [Inode.target, Inode.withEntry]

/-! ## The state of a call -/

/-- A call ended with a good file system and the references that it began with. -/
structure Settled (fs t : FileSys) : Prop where
  ok : t.Ok
  refs : t.refs = fs.refs

theorem FileSys.Ok.settled (ok : fs.Ok) : Settled fs fs := ⟨ok, rfl⟩

theorem FileSys.Kept.mono {t : FileSys} (kept : fs.Kept n) (imap : n ∈ fs.imap → n ∈ t.imap)
    (refs : n ∈ fs.refs → n ∈ t.refs)
    (nlinks : (fs.inode n).nlinks ≠ 0 → (t.inode n).nlinks ≠ 0) : t.Kept n where
  allocated := imap kept.allocated
  stays := kept.stays.imp refs nlinks

theorem FileSys.Kept.setInode {node : Inode} (kept : fs.Kept m)
    (nlinks : m = n → (fs.inode m).nlinks ≠ 0 → node.nlinks ≠ 0) : (fs.setInode n node).Kept m := by
  apply kept.mono (t := fs.setInode n node) id id
  intro linked
  by_cases here : m = n
  · subst here
    rw [FileSys.setInode_inode_self]
    exact nlinks rfl linked
  · rw [FileSys.setInode_inode_of_ne here]
    exact linked

theorem FileSys.Kept.allocate {node : Inode} (kept : fs.Kept m) (fresh : n ∉ fs.imap) :
    (fs.allocate n node).Kept m := by
  have other : m ≠ n := by
    rintro rfl
    exact fresh kept.allocated
  apply kept.mono (t := fs.allocate n node) (fun member => Finset.mem_insert_of_mem member) id
  intro linked
  change ((fs.setInode n node).inode m).nlinks ≠ 0
  rw [FileSys.setInode_inode_of_ne other]
  exact linked

theorem FileSys.setInode_comm {node node' : Inode} (other : n ≠ m) :
    (fs.setInode n node).setInode m node' = (fs.setInode m node').setInode n node := by
  simp only [FileSys.setInode]
  rw [Function.update_comm other.symm]

theorem FileSys.setInode_hold {node : Inode} :
    (fs.hold m).setInode n node = (fs.setInode n node).hold m := rfl

theorem FileSys.regrow_hold {node : Inode} {answers : List Bool} :
    (fs.hold m).regrow n node answers = (fs.regrow n node answers).hold m := rfl

theorem FileSys.setInode_alloc {node node' : Inode} (other : m ≠ n) :
    (fs.alloc n node).setInode m node' = (fs.setInode m node').alloc n node := by
  simp only [FileSys.alloc, FileSys.allocate, FileSys.setInode, FileSys.hold]
  rw [Function.update_comm other.symm]

theorem FileSys.regrow_alloc {node node' : Inode} {answers : List Bool} (other : m ≠ n) :
    (fs.alloc n node).regrow m node' answers = (fs.regrow m node' answers).alloc n node := by
  simp only [FileSys.alloc, FileSys.allocate, FileSys.regrow, FileSys.setInode, FileSys.hold]
  rw [Function.update_comm other.symm]

theorem setEntry_spec {num : Nat} : Triple (· = fs) (setEntry dir slot num) fun _ t =>
    t = fs.setInode dir ((fs.inode dir).withEntry slot
      { (fs.inode dir).entry slot with inode := num }) := by
  rw [setEntry]
  apply Triple.get_bind_at
  exact setInode_spec

/-- `add_entry` leaves a good file system good. -/
theorem RoomAdded.ok {t : FileSys} {result : Option Nat} (ok : fs.Ok)
    (added : RoomAdded fs dir result t) : t.Ok := by
  rcases added with ⟨node, answers, rfl, alike, _⟩
  exact (ok.setInode fun _ => alike).newBlocks answers

/-- A change of the tree that spares the inodes in use and the roots. -/
theorem FileSys.Ok.changed {t : FileSys} (ok : fs.Ok) (tree : t.toTree.Ok)
    (refs : t.refs = fs.refs) (superBlock : t.superBlock = fs.superBlock)
    (iMount : t.iMount = fs.iMount)
    (inUse : ∀ m ∈ fs.refs, m ∈ t.imap ∧ (t.inode m).isDir = (fs.inode m).isDir)
    (roots : ∀ root, fs.IsRoot root → t.IsRoot root) : t.Ok where
  tree := tree
  allocated m reference := (inUse m (refs ▸ reference)).1
  mounted sb there m on := by
    have mounted := ok.mounted sb (superBlock ▸ there) m on
    rw [refs, (inUse m mounted.1).2]
    exact mounted
  roots sb there m on mount := by
    have root := ok.roots sb (superBlock ▸ there) m on (iMount ▸ mount)
    exact ⟨root.1, roots _ root.2⟩

/-! ## A file is made -/

/-- What the inode of a new file has to be before it gets its entry. -/
structure Inode.NewFile (node : Inode) : Prop where
  links : node.nlinks = 1
  empty : ∀ slot, node.target slot = none
  blank : node.isDir = true → node.Blank

/-- The directory with the entry in its slot. -/
def FileSys.withEntry (fs : FileSys) (dir : Ino) (slot : Nat) (de : DirEntry) : FileSys :=
  fs.setInode dir ((fs.inode dir).withEntry slot de)

@[simp] theorem FileSys.withEntry_inode_self {de : DirEntry} :
    (fs.withEntry dir slot de).inode dir = (fs.inode dir).withEntry slot de :=
  FileSys.setInode_inode_self

theorem FileSys.withEntry_inode_of_ne {de : DirEntry} (other : m ≠ dir) :
    (fs.withEntry dir slot de).inode m = fs.inode m :=
  FileSys.setInode_inode_of_ne other

@[simp] theorem FileSys.isDir_withEntry {de : DirEntry} :
    ((fs.withEntry dir slot de).inode m).isDir = (fs.inode m).isDir := by
  by_cases here : m = dir
  · subst here
    rw [FileSys.withEntry_inode_self]
    rfl
  · rw [FileSys.withEntry_inode_of_ne here]

theorem FileSys.Ok.create (ok : fs.Ok) {node : Inode} (fresh : n ∉ fs.imap)
    (numbered : n.num ≠ 0) (newFile : node.NewFile) (place : dir ∈ fs.imap)
    (sameDev : dir.dev = n.dev) (isDir : (fs.inode dir).isDir = true)
    (free : (fs.inode dir).FreeSlot slot) :
    ((fs.withEntry dir slot ⟨n.num, name⟩).allocate n node).Ok := by
  have distinct : dir ≠ n := by
    rintro rfl
    exact fresh place
  -- first the inode without links, then the entry for it
  have allocated : fs.toTree.Allocated
      (fs.allocate n { node with nlinks := 0 }).toTree n := by
    constructor
    · exact fresh
    · exact numbered
    · rfl
    · intro m member
      exact FileSys.setInode_inode_of_ne (ne_of_mem_of_not_mem member fresh)
    · simp [FileSys.allocate]
    · intro i
      simpa [FileSys.allocate] using newFile.empty i
    · intro fileIsDir
      simp only [FileSys.allocate, FileSys.setInode_inode_self] at fileIsDir ⊢
      exact newFile.blank fileIsDir
  have linked : Tree.Linked (fs.allocate n { node with nlinks := 0 }).toTree
      ((fs.withEntry dir slot ⟨n.num, name⟩).allocate n node).toTree dir slot n := by
    have before : (fs.allocate n { node with nlinks := 0 }).inode dir = fs.inode dir :=
      FileSys.setInode_inode_of_ne distinct
    have after : ((fs.withEntry dir slot ⟨n.num, name⟩).allocate n node).inode dir =
        (fs.inode dir).withEntry slot ⟨n.num, name⟩ := by
      simp [FileSys.allocate, FileSys.setInode_inode_of_ne distinct]
    constructor
    · rfl
    · exact Finset.mem_insert_of_mem place
    · exact sameDev
    · exact free.late (ok.tree.dirs.shape dir place isDir)
    · rw [before]
      exact free.target
    · rw [before, after]
      exact Inode.slotChanged_withEntry isDir
    · rw [after]
      exact free.target_withEntry isDir numbered
    · exact distinct
    · exact Finset.mem_insert_self _ _
    · rw [before, after]
      rfl
    · simp [FileSys.allocate, newFile.links]
    · simp [FileSys.allocate]
    · intro m _ notDir notN
      simp only [FileSys.allocate, FileSys.setInode_inode_of_ne notN,
        FileSys.withEntry_inode_of_ne notDir]
  apply ok.changed
  · apply (ok.tree.alloc allocated).link linked
    · intro _ up i named
      exact ok.tree.not_names_fresh fresh up i ((allocated.names up i n).mp named)
    · intro up named
      exact fresh ((allocated.names n 1 up).mp named).1
  · rfl
  · rfl
  · rfl
  · intro m reference
    have member := ok.allocated m reference
    have other : m ≠ n := ne_of_mem_of_not_mem member fresh
    refine ⟨Finset.mem_insert_of_mem member, ?_⟩
    change ((fs.withEntry dir slot ⟨n.num, name⟩).setInode n node |>.inode m).isDir = _
    rw [FileSys.setInode_inode_of_ne other, FileSys.isDir_withEntry]
  · intro root isRoot
    exact ⟨(linked.names _ _ _).mpr (.inl ((allocated.names _ _ _).mpr isRoot.1)),
      (linked.names _ _ _).mpr (.inl ((allocated.names _ _ _).mpr isRoot.2))⟩

/-! ## A file gets another name -/

/-- A link count that does not wrap round. -/
theorem toNat_succ {count : UInt8} (room : count ≠ 255) :
    (count + 1).toNat = count.toNat + 1 := by
  have bound := count.toNat_lt
  have notLast : count.toNat ≠ 255 := fun last => room (UInt8.toNat.inj last)
  have one : (1 : UInt8).toNat = 1 := rfl
  rw [UInt8.toNat_add]
  omega

theorem toNat_pred {count : UInt8} (linked : count ≠ 0) :
    count.toNat = (count - 1).toNat + 1 := by
  have positive : count.toNat ≠ 0 := fun zero => linked (UInt8.toNat.inj zero)
  have one : (1 : UInt8).toNat = 1 := rfl
  have atLeast : (1 : UInt8) ≤ count := by
    rw [UInt8.le_iff_toNat_le]
    omega
  rw [UInt8.toNat_sub_of_le _ _ atLeast]
  omega

/-- The inode with another link count. -/
def FileSys.setNlinks (fs : FileSys) (n : Ino) (nlinks : UInt8) : FileSys :=
  fs.setInode n { fs.inode n with nlinks := nlinks }

@[simp] theorem FileSys.setNlinks_inode_self {nlinks : UInt8} :
    (fs.setNlinks n nlinks).inode n = { fs.inode n with nlinks := nlinks } :=
  FileSys.setInode_inode_self

theorem FileSys.setNlinks_inode_of_ne {nlinks : UInt8} (other : m ≠ n) :
    (fs.setNlinks n nlinks).inode m = fs.inode m :=
  FileSys.setInode_inode_of_ne other

@[simp] theorem FileSys.isDir_setNlinks {nlinks : UInt8} :
    ((fs.setNlinks n nlinks).inode m).isDir = (fs.inode m).isDir := by
  by_cases here : m = n
  · subst here
    rw [FileSys.setNlinks_inode_self]
  · rw [FileSys.setNlinks_inode_of_ne here]

/-- What an entry for a file looks like before and after. -/
theorem FileSys.linked (name : Name) {t : FileSys} {nlinks : UInt8} (file : (fs.inode n).isDir = false)
    (isDir : (fs.inode dir).isDir = true) (member : n ∈ fs.imap) (place : dir ∈ fs.imap)
    (sameDev : dir.dev = n.dev) (free : (fs.inode dir).FreeSlot slot)
    (late : 2 ≤ slot) (numbered : n.num ≠ 0)
    (counted : nlinks.toNat = (fs.inode n).nlinks.toNat + 1)
    (changed : t = (fs.withEntry dir slot ⟨n.num, name⟩).setNlinks n nlinks) :
    fs.toTree.Linked t.toTree dir slot n := by
  have distinct : dir ≠ n := by
    rintro rfl
    rw [file] at isDir
    cases isDir
  have after : t.inode dir = (fs.inode dir).withEntry slot ⟨n.num, name⟩ := by
    rw [changed, FileSys.setNlinks_inode_of_ne distinct, FileSys.withEntry_inode_self]
  have afterN : t.inode n = { fs.inode n with nlinks := nlinks } := by
    rw [changed, FileSys.setNlinks_inode_self, FileSys.withEntry_inode_of_ne distinct.symm]
  constructor
  · rw [changed]
    rfl
  · exact place
  · exact sameDev
  · exact late
  · exact free.target
  · rw [after]
    exact Inode.slotChanged_withEntry isDir
  · rw [after]
    exact free.target_withEntry isDir numbered
  · exact distinct
  · exact member
  · rw [after]
    rfl
  · rw [afterN]
    exact counted
  · rw [afterN]
  · intro m _ notDir notN
    rw [changed, FileSys.setNlinks_inode_of_ne notN, FileSys.withEntry_inode_of_ne notDir]

theorem FileSys.Ok.link (name : Name) (ok : fs.Ok) (file : (fs.inode n).isDir = false)
    (isDir : (fs.inode dir).isDir = true) (member : n ∈ fs.imap) (place : dir ∈ fs.imap)
    (sameDev : dir.dev = n.dev) (free : (fs.inode dir).FreeSlot slot)
    (room : (fs.inode n).nlinks ≠ 255) :
    ((fs.withEntry dir slot ⟨n.num, name⟩).setNlinks n ((fs.inode n).nlinks + 1)).Ok := by
  have counted : ((fs.inode n).nlinks + 1).toNat = (fs.inode n).nlinks.toNat + 1 :=
    toNat_succ room
  have linked := FileSys.linked name file isDir member place sameDev free
    (free.late (ok.tree.dirs.shape dir place isDir)) (ok.tree.dirs.numbered n member) counted rfl
  apply ok.changed
  · apply ok.tree.link linked
    · intro nowDir
      rw [file] at nowDir
      cases nowDir
    · rintro up ⟨_, _, live⟩
      rw [Inode.target_of_not_isDir file] at live
      cases live
  · rfl
  · rfl
  · rfl
  · intro m reference
    exact ⟨ok.allocated m reference, by simp⟩
  · intro root isRoot
    exact ⟨(linked.names _ _ _).mpr (.inl isRoot.1), (linked.names _ _ _).mpr (.inl isRoot.2)⟩

/-! ## A file loses a name -/

/-- A file is named only by slots from 2 on. -/
theorem Tree.Ok.late_of_file {tree : Tree} (ok : tree.Ok) (named : tree.Names dir slot n)
    (file : (tree.inode n).isDir = false) : 2 ≤ slot := by
  match slot with
  | 0 =>
      rcases ok.dirs.shape dir named.1 (Inode.isDir_of_target named.2.2) with blank | proper
      · have bound := Inode.lt_of_target named.2.2
        simp [blank.1] at bound
      · have sameNum := Option.some.inj (proper.dot.symm.trans named.2.2)
        have self := Ino.eq_of_dev_num named.2.1 sameNum
        have isDir := Inode.isDir_of_target proper.dot
        rw [self, file] at isDir
        cases isDir
  | 1 =>
      have isDir : (tree.inode n).isDir = true := by
        rcases ok.dirs.parent dir n named with self | ⟨i, _, inside⟩
        · rw [self]
          exact Inode.isDir_of_target named.2.2
        · exact Inode.isDir_of_target inside.2.2
      rw [file] at isDir
      cases isDir
  | slot + 2 => omega

/-- Emptying the slot of an entry and dropping a link undo a `link`. -/
theorem FileSys.Ok.unlink (name : Name) (ok : fs.Ok) (file : (fs.inode n).isDir = false)
    (named : fs.Names dir slot n) :
    ((fs.withEntry dir slot ⟨0, name⟩).setNlinks n ((fs.inode n).nlinks - 1)).Ok := by
  have isDir := Inode.isDir_of_target named.2.2
  have distinct : dir ≠ n := by
    rintro rfl
    rw [file] at isDir
    cases isDir
  have counted := toNat_pred (ok.nlinks_ne_zero named)
  have linked : ((fs.withEntry dir slot ⟨0, name⟩).setNlinks n
      ((fs.inode n).nlinks - 1)).toTree.Linked fs.toTree dir slot n := by
    have after : ((fs.withEntry dir slot ⟨0, name⟩).setNlinks n
        ((fs.inode n).nlinks - 1)).inode dir = (fs.inode dir).withEntry slot ⟨0, name⟩ := by
      rw [FileSys.setNlinks_inode_of_ne distinct, FileSys.withEntry_inode_self]
    have afterN : ((fs.withEntry dir slot ⟨0, name⟩).setNlinks n
        ((fs.inode n).nlinks - 1)).inode n =
          { fs.inode n with nlinks := (fs.inode n).nlinks - 1 } := by
      rw [FileSys.setNlinks_inode_self, FileSys.withEntry_inode_of_ne distinct.symm]
    constructor
    · rfl
    · exact named.1
    · exact named.2.1
    · exact ok.tree.late_of_file named file
    · rw [after, Inode.target_withEntry_zero]
    · rw [after]
      exact (Inode.slotChanged_withEntry isDir).symm
    · exact named.2.2
    · exact distinct
    · exact ok.tree.law.allocated dir slot n named
    · rw [after]
      rfl
    · rw [afterN]
      exact counted
    · rw [afterN]
    · intro m _ notDir notN
      rw [FileSys.setNlinks_inode_of_ne notN, FileSys.withEntry_inode_of_ne notDir]
  apply ok.changed
  · exact ok.tree.unlink linked file
  · rfl
  · rfl
  · rfl
  · intro m reference
    exact ⟨ok.allocated m reference, by simp⟩
  · have late := linked.late
    have early : ∀ root i, i < 2 → fs.Names root i root →
        ((fs.withEntry dir slot ⟨0, name⟩).setNlinks n
          ((fs.inode n).nlinks - 1)).Names root i root := by
      intro root i first names
      rcases (linked.names root i root).mp names with old | ⟨_, here, _⟩
      · exact old
      · omega
    intro root isRoot
    exact ⟨early root 0 (by omega) isRoot.1, early root 1 (by omega) isRoot.2⟩

/-! ## A directory is made -/

/-- The inode of a new directory in the directory number `up`. -/
structure Inode.NewDir (node : Inode) (num up : Nat) : Prop where
  links : node.nlinks = 2
  proper : node.Proper num
  own : ∀ i, node.target i = if i = 0 then some num else if i = 1 then some up else none

/-- `dir` with the entry for a new directory and with its link, and the new directory. -/
def FileSys.withDir (fs : FileSys) (dir : Ino) (slot : Nat) (name : Name) (n : Ino)
    (node : Inode) : FileSys :=
  ((fs.withEntry dir slot ⟨n.num, name⟩).setNlinks dir ((fs.inode dir).nlinks + 1)).allocate n node

theorem FileSys.Ok.mkdir (ok : fs.Ok) {node : Inode} (fresh : n ∉ fs.imap)
    (numbered : n.num ≠ 0) (newDir : node.NewDir n.num dir.num) (place : dir ∈ fs.imap)
    (sameDev : dir.dev = n.dev) (isDir : (fs.inode dir).isDir = true)
    (free : (fs.inode dir).FreeSlot slot) (room : (fs.inode dir).nlinks ≠ 255) :
    (fs.withDir dir slot name n node).Ok := by
  have distinct : dir ≠ n := by
    rintro rfl
    exact fresh place
  have after : (fs.withDir dir slot name n node).inode dir =
      { (fs.inode dir).withEntry slot ⟨n.num, name⟩ with
        nlinks := (fs.inode dir).nlinks + 1 } := by
    simp [FileSys.withDir, FileSys.allocate, FileSys.setInode_inode_of_ne distinct]
  have afterN : (fs.withDir dir slot name n node).inode n = node := by
    simp [FileSys.withDir, FileSys.allocate]
  have others : ∀ m, m ≠ dir → m ≠ n → (fs.withDir dir slot name n node).inode m = fs.inode m := by
    intro m notDir notN
    simp only [FileSys.withDir, FileSys.allocate, FileSys.setInode_inode_of_ne notN,
      FileSys.setNlinks_inode_of_ne notDir, FileSys.withEntry_inode_of_ne notDir]
  have added : fs.toTree.DirAdded (fs.withDir dir slot name n node).toTree dir slot n := by
    constructor
    · rfl
    · exact fresh
    · exact place
    · exact sameDev
    · exact free.late (ok.tree.dirs.shape dir place isDir)
    · exact free.target
    · rw [after]
      exact (Inode.slotChanged_withEntry isDir).setNlinks
    · rw [after, Inode.target_nlinks]
      exact free.target_withEntry isDir numbered
    · rw [after]
      exact toNat_succ room
    · rw [afterN]
      exact newDir.own
    · intro m member notDir
      exact others m notDir (ne_of_mem_of_not_mem member fresh)
  apply ok.changed
  · apply ok.tree.mkdir added numbered
    · rw [afterN]
      exact newDir.links
    · rw [afterN]
      exact newDir.proper
  · rfl
  · rfl
  · rfl
  · intro m reference
    have member := ok.allocated m reference
    exact ⟨Finset.mem_insert_of_mem member, added.isDir member⟩
  · intro root isRoot
    exact ⟨(added.names _ _ _).mpr (.inl isRoot.1), (added.names _ _ _).mpr (.inl isRoot.2)⟩

/-! ## A directory is removed -/

/-- What `empty_dir` finds out. -/
theorem emptyDir_target {node : Inode} {up : Nat} (empty : emptyDir n node = true)
    (proper : node.Proper n.num) (dotdot : node.target 1 = some up) (i : Nat) :
    node.target i = if i = 0 then some n.num else if i = 1 then some up else none := by
  match i with
  | 0 => exact proper.dot
  | 1 => exact dotdot
  | i + 2 =>
      rw [if_neg (by omega), if_neg (by omega)]
      simp only [emptyDir] at empty
      split at empty
      next => cases empty
      next =>
        split at empty
        next => cases empty
        next =>
          rw [Inode.target, if_neg]
          rintro ⟨_, inside, zone, used⟩
          rw [List.all_eq_true] at empty
          have slotEmpty := empty (i + 2) (List.mem_range'_1.mpr (by omega))
          simp [zone, used] at slotEmpty

/-- The directory that has an entry for another directory is the one that `..` of that
directory names. -/
theorem Tree.Ok.dotdot_of_names {tree : Tree} (ok : tree.Ok) (named : tree.Names dir slot n)
    (late : 2 ≤ slot) (proper : (tree.inode n).Proper n.num) :
    (tree.inode n).target 1 = some dir.num := by
  have member := ok.law.allocated dir slot n named
  rcases proper.dotdot with ⟨up, live⟩
  have dotdot : tree.Names n 1 ⟨n.dev, up⟩ := ⟨member, rfl, live⟩
  have same := ok.dirs.child dir slot n _ late named dotdot
  rw [live, ← same]

/-- `dir` without the entry for the directory `n` and without its link, and `n` freed. -/
def FileSys.withoutDir (fs : FileSys) (dir : Ino) (slot : Nat) (name : Name) (n : Ino)
    (node : Inode) : FileSys :=
  ((fs.withEntry dir slot ⟨0, name⟩).setNlinks dir ((fs.inode dir).nlinks - 1)).release n node

theorem FileSys.Ok.rmdir (name : Name) (node : Inode) (ok : fs.Ok) (named : fs.Names dir slot n)
    (late : 2 ≤ slot) (distinct : dir ≠ n) (proper : (fs.inode n).Proper n.num)
    (empty : emptyDir n (fs.inode n) = true) (notInUse : n ∉ fs.refs) :
    (fs.withoutDir dir slot name n node).Ok := by
  have isDir := Inode.isDir_of_target named.2.2
  have dotdot := ok.tree.dotdot_of_names named late proper
  have member := ok.tree.law.allocated dir slot n named
  have up : fs.Names n 1 dir := ⟨member, named.2.1.symm, dotdot⟩
  have counted := toNat_pred (ok.nlinks_ne_zero up)
  have after : (fs.withoutDir dir slot name n node).inode dir =
      { (fs.inode dir).withEntry slot ⟨0, name⟩ with nlinks := (fs.inode dir).nlinks - 1 } := by
    simp [FileSys.withoutDir, FileSys.release, FileSys.setInode_inode_of_ne distinct]
  have added : (fs.withoutDir dir slot name n node).toTree.DirAdded fs.toTree dir slot n := by
    constructor
    · exact (Finset.insert_erase member).symm
    · exact Finset.notMem_erase _ _
    · exact Finset.mem_erase.mpr ⟨distinct, named.1⟩
    · exact named.2.1
    · exact late
    · rw [after, Inode.target_nlinks, Inode.target_withEntry_zero]
    · rw [after]
      exact (Inode.slotChanged_withEntry isDir).setNlinks.symm
    · exact named.2.2
    · rw [after]
      exact counted
    · exact emptyDir_target empty proper dotdot
    · intro m allocated notDir
      have notN := (Finset.mem_erase.mp allocated).1
      simp only [FileSys.withoutDir, FileSys.release, FileSys.setInode_inode_of_ne notN,
        FileSys.setNlinks_inode_of_ne notDir, FileSys.withEntry_inode_of_ne notDir]
  apply ok.changed
  · exact ok.tree.rmdir added
  · rfl
  · rfl
  · rfl
  · intro m reference
    have stays : m ∈ (fs.withoutDir dir slot name n node).imap :=
      Finset.mem_erase.mpr ⟨ne_of_mem_of_not_mem reference notInUse, ok.allocated m reference⟩
    exact ⟨stays, (added.isDir stays).symm⟩
  · intro root isRoot
    -- the removed directory is no root: a root is its own parent
    have notRoot : root ≠ n := by
      rintro rfl
      exact distinct (ok.tree.dirs.child dir slot root root late named isRoot.2).symm
    have early : ∀ i, i < 2 → fs.Names root i root →
        (fs.withoutDir dir slot name n node).Names root i root := by
      intro i first names
      rcases (added.names root i root).mp names with old | ⟨_, here, _⟩ | ⟨here, _⟩ | ⟨here, _⟩
      · exact old
      · omega
      · exact absurd here notRoot
      · exact absurd here notRoot
    exact ⟨early 0 (by omega) isRoot.1, early 1 (by omega) isRoot.2⟩

/-! ## An inode is freed -/

theorem FileSys.Ok.release (ok : fs.Ok) {node : Inode} (member : n ∈ fs.imap)
    (unlinked : (fs.inode n).nlinks = 0) (notInUse : n ∉ fs.refs) : (fs.release n node).Ok := by
  have freed : fs.toTree.Freed (fs.release n node).toTree n :=
    ⟨member, unlinked, rfl, fun m _ other => FileSys.setInode_inode_of_ne other⟩
  have names := ok.tree.names_free freed
  apply ok.changed
  · exact ok.tree.free freed
  · rfl
  · rfl
  · rfl
  · intro m reference
    have other := ne_of_mem_of_not_mem reference notInUse
    refine ⟨Finset.mem_erase.mpr ⟨other, ok.allocated m reference⟩, ?_⟩
    rw [freed.others m (ok.allocated m reference) other]
  · intro root isRoot
    exact ⟨(names _ _ _).mpr isRoot.1, (names _ _ _).mpr isRoot.2⟩

end Linux012.Fs
