import Linux012.Lib.Hoare
import Linux012.Fs.Namei
import Linux012.Fs.TreeOps

/-!
# What the inode operations do to a good file system

A good file system keeps the law of link counts and refers to allocated inodes only.
In it, a reference that is taken and dropped again leaves no trace: dropping it frees
the inode only if nothing names it and nobody else uses it.
-/

namespace Linux012.Fs

open Lib (Triple)

/-- The root of a directory tree: its own `.` and its own `..`. -/
def Tree.IsRoot (tree : Tree) (root : Ino) : Prop :=
  tree.Names root 0 root ∧ tree.Names root 1 root

/-- What every call keeps of the mounted file systems. -/
structure FileSys.Ok (fs : FileSys) : Prop where
  tree : fs.toTree.Ok
  allocated : ∀ n ∈ fs.refs, n ∈ fs.imap
  /-- A mounted file system holds the directory that it is mounted on. -/
  mounted : ∀ sb ∈ fs.superBlock, ∀ m, sb.sImount = some m →
    m ∈ fs.refs ∧ (fs.inode m).isDir = true
  /-- A file system is mounted on a directory of another device, by its root. -/
  roots : ∀ sb ∈ fs.superBlock, ∀ m, sb.sImount = some m → fs.iMount m = true →
    m.dev ≠ sb.sDev ∧ fs.IsRoot ⟨sb.sDev, rootIno⟩

/-- An inode that stays when a reference to it is dropped. -/
structure FileSys.Kept (fs : FileSys) (n : Ino) : Prop where
  allocated : n ∈ fs.imap
  stays : n ∈ fs.refs ∨ (fs.inode n).nlinks ≠ 0

variable {fs : FileSys} {n m dir : Ino}

/-! ## References -/

@[simp] theorem FileSys.hold_toTree : (fs.hold n).toTree = fs.toTree := rfl
@[simp] theorem FileSys.hold_refs : (fs.hold n).refs = n ::ₘ fs.refs := rfl
@[simp] theorem FileSys.hold_superBlock : (fs.hold n).superBlock = fs.superBlock := rfl
@[simp] theorem FileSys.hold_iMount : (fs.hold n).iMount = fs.iMount := rfl
@[simp] theorem FileSys.hold_newBlocks : (fs.hold n).newBlocks = fs.newBlocks := rfl

theorem FileSys.hold_comm : (fs.hold n).hold m = (fs.hold m).hold n := by
  simp only [FileSys.hold, Multiset.cons_swap]

theorem FileSys.erase_hold : { fs.hold n with refs := (fs.hold n).refs.erase n } = fs := by
  simp only [FileSys.hold, Multiset.erase_cons_head]

theorem FileSys.Ok.hold (ok : fs.Ok) (member : n ∈ fs.imap) : (fs.hold n).Ok where
  tree := ok.tree
  allocated m reference := by
    rcases Multiset.mem_cons.mp reference with rfl | old
    · exact member
    · exact ok.allocated m old
  mounted sb there m on :=
    ⟨Multiset.mem_cons_of_mem (ok.mounted sb there m on).1, (ok.mounted sb there m on).2⟩
  roots := ok.roots

theorem FileSys.Ok.kept_of_mem (ok : fs.Ok) (reference : n ∈ fs.refs) : fs.Kept n :=
  ⟨ok.allocated n reference, .inl reference⟩

theorem FileSys.Ok.nlinks_ne_zero (ok : fs.Ok) {slot : Nat} (named : fs.Names dir slot n) :
    (fs.inode n).nlinks ≠ 0 := by
  intro unlinked
  have counts := ok.tree.law.counts n (ok.tree.law.allocated dir slot n named)
  have positive := Tree.linkCount_pos named
  rw [unlinked] at counts
  have zero : (0 : UInt8).toNat = 0 := rfl
  omega

theorem FileSys.Ok.kept_of_names (ok : fs.Ok) {slot : Nat} (named : fs.Names dir slot n) :
    fs.Kept n :=
  ⟨ok.tree.law.allocated dir slot n named, .inr (ok.nlinks_ne_zero named)⟩

theorem FileSys.Kept.hold (kept : fs.Kept n) : (fs.hold m).Kept n where
  allocated := kept.allocated
  stays := by
    rcases kept.stays with reference | linked
    · exact .inl (Multiset.mem_cons_of_mem reference)
    · exact .inr linked

@[simp] theorem FileSys.setInode_inode_self {node : Inode} :
    (fs.setInode n node).inode n = node := by
  simp [FileSys.setInode]

theorem FileSys.setInode_inode_of_ne {node : Inode} (other : m ≠ n) :
    (fs.setInode n node).inode m = fs.inode m := by
  simp [FileSys.setInode, other]

theorem hold_spec : Triple (· = fs) (hold n) fun _ t => t = fs.hold n := by
  exact Triple.modify_at rfl

theorem setInode_spec {node : Inode} :
    Triple (· = fs) (setInode n node) fun _ t => t = fs.setInode n node := by
  exact Triple.modify_at rfl

theorem truncate_spec : Triple (· = fs) (truncate n) fun _ t =>
    t = fs.setInode n { fs.inode n with zone := fun _ => false, size := 0 } ∧
      ((fs.inode n).isReg || (fs.inode n).isDir || (fs.inode n).isLnk) = true ∨ t = fs := by
  apply Triple.get_bind_at
  apply Triple.ite
  · intro file
    exact setInode_spec.after fun _ _ equal => .inl ⟨equal, file⟩
  · intro _
    apply Triple.pure_at
    exact .inr rfl

/-- An inode is freed; what it held does not matter any more. -/
def FileSys.release (fs : FileSys) (n : Ino) (node : Inode) : FileSys :=
  { fs.setInode n node with imap := fs.imap.erase n }

/-- Dropping a reference undoes taking it, unless it was the only one and nothing names
the inode: then the inode is freed. -/
theorem iput_spec : Triple (· = fs.hold n) (iput n) fun _ t =>
    (n ∈ fs.refs ∨ (fs.inode n).nlinks ≠ 0) ∧ t = fs ∨
      n ∉ fs.refs ∧ (fs.inode n).nlinks = 0 ∧ ∃ node, t = fs.release n node := by
  have count : (fs.hold n).iCount n = fs.refs.count n + 1 := Multiset.count_cons_self n fs.refs
  rw [iput]
  apply Triple.get_bind_at
  apply Triple.ite
  · intro none
    omega
  · intro _
    apply Triple.ite
    · intro several
      have reference : n ∈ fs.refs := Multiset.count_pos.mp (by omega)
      exact Triple.set fun _ _ => .inl ⟨.inl reference, FileSys.erase_hold⟩
    · intro single
      have alone : n ∉ fs.refs := Multiset.count_eq_zero.mp (by omega)
      apply Triple.ite
      · intro unlinked
        apply Triple.through (fun _ t => ∃ node, t = (fs.setInode n node).hold n)
        · apply truncate_spec.after
          rintro _ t (⟨rfl, _⟩ | rfl)
          · exact ⟨_, rfl⟩
          · exact ⟨fs.inode n, by simp [FileSys.hold, FileSys.setInode]⟩
        · intro _
          apply Triple.get_bind
          rintro _ ⟨node, rfl⟩
          apply Triple.ite
          · intro _
            exact Triple.failure
          · intro _
            split
            next =>
              apply Triple.ite
              · intro _
                exact Triple.failure
              · intro _
                apply Triple.set
                rintro _ _
                right
                refine ⟨alone, unlinked, node, ?_⟩
                simp only [FileSys.release, FileSys.hold, Multiset.erase_cons_head,
                  FileSys.setInode]
            next => exact Triple.failure
      · intro linked
        exact Triple.set fun _ _ => .inl ⟨.inr linked, FileSys.erase_hold⟩

/-- Dropping a reference to an inode that stays undoes taking it. -/
theorem iput_kept (kept : fs.Kept n) : Triple (· = fs.hold n) (iput n) fun _ t => t = fs := by
  apply iput_spec.after
  rintro _ t (⟨_, rfl⟩ | ⟨alone, unlinked, _⟩)
  · rfl
  · rcases kept.stays with reference | linked
    · exact absurd reference alone
    · exact absurd unlinked linked

theorem getEmptyInode_spec : Triple (· = fs) getEmptyInode fun _ t => t = fs := by
  apply Triple.get_bind_at
  apply Triple.ite
  · intro _
    exact Triple.failure
  · intro _
    exact Triple.pure fun _ => id

/-- A live entry carries the number of the inode. -/
def Tree.Named (tree : Tree) (n : Ino) : Prop := ∃ dir slot, tree.Names dir slot n

theorem FileSys.Ok.kept_of_named (ok : fs.Ok) (named : fs.Named n) : fs.Kept n := by
  rcases named with ⟨dir, slot, names⟩
  exact ok.kept_of_names names

/-- The inode that `iget` finds for a live entry. -/
theorem iget_spec (ok : fs.Ok) {slot : Nat} (named : fs.Names dir slot n) :
    Triple (· = fs) (iget n.dev n.num) fun found t => t = fs.hold found ∧ fs.Named found ∧
      (found = n ∨ found.dev ≠ n.dev ∧ (fs.inode found).isDir = true) := by
  rw [iget]
  apply Triple.bind getEmptyInode_spec
  intro _
  apply Triple.get_bind_at
  apply Triple.ite
  · intro mounted
    split
    next sb found =>
      have there := List.mem_of_find?_eq_some found
      have on := List.find?_some found
      simp only [beq_iff_eq] at on
      have roots := ok.roots sb there n on mounted
      apply Triple.bind hold_spec
      intro _
      apply Triple.pure_at
      exact ⟨rfl, ⟨_, _, roots.2.1⟩, .inr ⟨roots.1.symm,
        Inode.isDir_of_target roots.2.1.2.2⟩⟩
    next =>
      apply Triple.bind hold_spec
      intro _
      apply Triple.pure_at
      exact ⟨rfl, ⟨_, _, named⟩, .inl rfl⟩
  · intro _
    apply Triple.bind hold_spec
    intro _
    apply Triple.pure_at
    exact ⟨rfl, ⟨_, _, named⟩, .inl rfl⟩

/-! ## New inodes -/

/-- An inode more is allocated. -/
def FileSys.allocate (fs : FileSys) (n : Ino) (node : Inode) : FileSys :=
  { fs.setInode n node with imap := insert n fs.imap }

/-- A new inode with its first reference. -/
def FileSys.alloc (fs : FileSys) (n : Ino) (node : Inode) : FileSys :=
  (fs.allocate n node).hold n

@[simp] theorem FileSys.alloc_inode_self {node : Inode} : (fs.alloc n node).inode n = node := by
  simp [FileSys.alloc, FileSys.allocate]

theorem FileSys.alloc_inode_of_ne {node : Inode} (other : m ≠ n) :
    (fs.alloc n node).inode m = fs.inode m := by
  simp [FileSys.alloc, FileSys.allocate, FileSys.setInode, other]

@[simp] theorem FileSys.alloc_setInode_self {node node' : Inode} :
    (fs.alloc n node).setInode n node' = fs.alloc n node' := by
  simp [FileSys.alloc, FileSys.allocate, FileSys.setInode, FileSys.hold]

theorem FileSys.alloc_hold {node : Inode} :
    (fs.hold m).alloc n node = (fs.alloc n node).hold m := by
  simp only [FileSys.alloc, FileSys.allocate, FileSys.setInode, FileSys.hold,
    Multiset.cons_swap]

theorem newInode_spec {dev : Nat} {uid gid : UInt16} :
    Triple (· = fs) (newInode dev uid gid) fun result t =>
      match result with
      | none => t = fs
      | some n => n ∉ fs.imap ∧ n.dev = dev ∧ n.num ≠ 0 ∧ t = fs.alloc n (freshInode uid gid) := by
  rw [newInode]
  apply Triple.bind getEmptyInode_spec
  intro _
  apply Triple.get_bind_at
  split
  next sb _ =>
    split
    next => exact Triple.pure fun _ => id
    next num found =>
      have free := List.find?_some found
      have range := List.mem_of_find?_eq_some found
      simp only [decide_eq_true_eq] at free
      rw [List.mem_range'_1] at range
      apply Triple.through (fun _ t => t = fs.alloc ⟨dev, num⟩ (freshInode uid gid))
      · exact Triple.set fun _ _ => rfl
      · intro _
        apply Triple.pure_at
        exact ⟨free, rfl, by simp only; omega, rfl⟩
  next => exact Triple.failure

theorem FileSys.Ok.setInode (ok : fs.Ok) {node : Inode}
    (alike : n ∈ fs.imap → (fs.inode n).Alike node) : (fs.setInode n node).Ok := by
  have same : ∀ m ∈ fs.imap, (fs.inode m).Alike ((fs.setInode n node).inode m) := by
    intro m member
    by_cases here : m = n
    · subst here
      rw [FileSys.setInode_inode_self]
      exact alike member
    · rw [FileSys.setInode_inode_of_ne here]
      exact Inode.Alike.refl _
  have names : ∀ dir slot m, (fs.setInode n node).Names dir slot m ↔ fs.Names dir slot m :=
    Tree.names_of_alike rfl same
  constructor
  · exact ok.tree.alike rfl same
  · exact ok.allocated
  · intro sb there m on
    have mounted := ok.mounted sb there m on
    refine ⟨mounted.1, ?_⟩
    rw [(same m (ok.allocated m mounted.1)).isDir]
    exact mounted.2
  · intro sb there m on mount
    have roots := ok.roots sb there m on mount
    exact ⟨roots.1, (names _ _ _).mpr roots.2.1, (names _ _ _).mpr roots.2.2⟩

theorem FileSys.Ok.setInode_fresh (ok : fs.Ok) {node : Inode} (fresh : n ∉ fs.imap) :
    (fs.setInode n node).Ok :=
  ok.setInode fun member => absurd member fresh

theorem FileSys.Ok.newBlocks (ok : fs.Ok) (answers : List Bool) :
    FileSys.Ok { fs with newBlocks := answers } :=
  ⟨ok.tree, ok.allocated, ok.mounted, ok.roots⟩

/-- Dropping the only reference to a new inode without links frees it again. -/
theorem iput_fresh (ok : fs.Ok) {node : Inode} (fresh : n ∉ fs.imap)
    (unlinked : node.nlinks = 0) :
    Triple (· = fs.alloc n node) (iput n) fun _ t => ∃ node', t = fs.setInode n node' := by
  have notInUse : n ∉ fs.refs := fun reference => fresh (ok.allocated n reference)
  apply iput_spec.after
  rintro _ t (⟨reference | linked, _⟩ | ⟨_, _, node', rfl⟩)
  · exact absurd reference notInUse
  · exact absurd (by simpa [FileSys.allocate] using unlinked) linked
  · refine ⟨node', ?_⟩
    simp [FileSys.release, FileSys.allocate, FileSys.setInode, fresh]

/-! ## New entries -/

/-- The same with other contents of one inode, and fewer answers of `new_block` to
come. -/
def FileSys.regrow (fs : FileSys) (n : Ino) (node : Inode) (answers : List Bool) : FileSys :=
  { fs.setInode n node with newBlocks := answers }

@[simp] theorem FileSys.regrow_inode_self {node : Inode} {answers : List Bool} :
    (fs.regrow n node answers).inode n = node :=
  FileSys.setInode_inode_self

@[simp] theorem FileSys.regrow_setInode {node node' : Inode} {answers : List Bool} :
    (fs.regrow n node answers).setInode n node' = fs.regrow n node' answers := by
  simp [FileSys.regrow, FileSys.setInode]

@[simp] theorem FileSys.regrow_regrow {node node' : Inode} {answers answers' : List Bool} :
    (fs.regrow n node answers).regrow n node' answers' = fs.regrow n node' answers' := by
  simp [FileSys.regrow, FileSys.setInode]

theorem FileSys.regrow_id : fs.regrow n (fs.inode n) fs.newBlocks = fs := by
  simp [FileSys.regrow, FileSys.setInode]

/-- A block is added to a directory, or none is. -/
structure Inode.Widened (old new : Inode) : Prop where
  alike : old.Alike new
  size : new.size = old.size
  zone : ∀ block, old.zone block = true → new.zone block = true

theorem Inode.widened_withBlock {node : Inode} {block : Nat} (first : node.zone 0 = true)
    (missing : node.zone block = false) : node.Widened (node.withBlock block) where
  alike := by
    refine ⟨rfl, rfl, ?_, ?_, fun _ blank => ?_, fun _ whole => whole⟩
    · intro slot
      have isDir : (node.withBlock block).isDir = node.isDir := rfl
      by_cases inside : slot / dirEntriesPerBlock = block
      · simp [Inode.target, Inode.withBlock, inside, missing]
      · simp only [Inode.target, isDir]
        simp [Inode.withBlock, inside]
    · intro slot early _
      have inFirst : slot / dirEntriesPerBlock = 0 := Nat.div_eq_of_lt (by
        simp only [dirEntriesPerBlock]
        omega)
      have other : slot / dirEntriesPerBlock ≠ block := by
        rw [inFirst]
        rintro rfl
        rw [first] at missing
        cases missing
      simp [Inode.withBlock, other]
    · rw [blank.2] at first
      cases first
  size := rfl
  zone := by
    intro b there
    by_cases same : b = block
    · simp [Inode.withBlock, same]
    · simpa [Inode.withBlock, same] using there

theorem newBlock_spec : Triple (· = fs) newBlock fun _ t =>
    ∃ answers, t = { fs with newBlocks := answers } := by
  rw [newBlock]
  apply Triple.get_bind_at
  split
  next => exact Triple.pure_at ⟨fs.newBlocks, rfl⟩
  next answer rest _ =>
    apply Triple.through (fun _ t => t = { fs with newBlocks := rest })
    · exact Triple.set fun _ _ => rfl
    · intro _
      exact Triple.pure_at ⟨rest, rfl⟩

theorem createBlock_spec {block : Nat} (first : (fs.inode n).zone 0 = true) :
    Triple (· = fs) (createBlock n block) fun ok t => ∃ node answers,
      t = fs.regrow n node answers ∧ (fs.inode n).Widened node ∧
        (ok = true → node.zone block = true) := by
  rw [createBlock]
  have none : ∀ answers, ({ fs with newBlocks := answers } : FileSys) =
      fs.regrow n (fs.inode n) answers := by
    intro answers
    simp [FileSys.regrow, FileSys.setInode]
  have same : (fs.inode n).Widened (fs.inode n) :=
    ⟨Inode.Alike.refl _, rfl, fun _ => id⟩
  apply Triple.ite
  · intro _
    exact Triple.failure
  · intro _
    apply Triple.get_bind_at
    apply Triple.ite
    · intro there
      exact Triple.pure_at ⟨_, _, FileSys.regrow_id.symm, same, fun _ => there⟩
    · intro missing
      apply Triple.bind newBlock_spec
      intro answer
      apply Triple.ite
      · intro _
        apply Triple.get_bind
        rintro _ ⟨answers, rfl⟩
        apply Triple.bind setInode_spec
        intro _
        apply Triple.pure_at
        refine ⟨(fs.inode n).withBlock block, answers, rfl,
          Inode.widened_withBlock first (by simpa using missing), fun _ => ?_⟩
        simp [Inode.withBlock]
      · intro _
        apply Triple.pure
        rintro _ ⟨answers, rfl⟩
        exact ⟨_, answers, none answers, same, fun impossible => by cases impossible⟩

/-- The slot that `add_entry` finds is free, and lies inside the directory. -/
structure Inode.FreeSlot (node : Inode) (slot : Nat) : Prop where
  inode : (node.entry slot).inode = 0
  inside : slot < node.size / dirEntrySize
  zone : node.zone (slot / dirEntriesPerBlock) = true

/-- The state after `add_entry`: the directory has the same live entries as before,
and room for one more if a slot was returned. -/
def RoomAdded (fs : FileSys) (dir : Ino) (result : Option Nat) (t : FileSys) : Prop :=
  ∃ node answers, t = fs.regrow dir node answers ∧ (fs.inode dir).Alike node ∧
    ∀ slot, result = some slot → node.FreeSlot slot

theorem Inode.alike_withEntry {node : Inode} {slot : Nat} {name : Name}
    (free : (node.entry slot).inode = 0) : node.Alike (node.withEntry slot ⟨0, name⟩) where
  isDir := rfl
  nlinks := rfl
  target i := by
    by_cases here : i = slot
    · subst here
      simp [Inode.target, Inode.withEntry, free]
    · simp [Inode.target, Inode.withEntry, here]
  early i _ live := by
    have other : i ≠ slot := by
      rintro rfl
      simp [Inode.target, free] at live
    simp [Inode.withEntry, other]
  blank _ blank := blank
  wholeEntries _ whole := whole

/-- `add_entry` appends a slot to a directory that has no free one. -/
theorem Inode.alike_append {node : Inode} {slot : Nat} {name : Name}
    (first : node.zone 0 = true) (full : node.size = slot * dirEntrySize) :
    node.Alike { node.withEntry slot ⟨0, name⟩ with size := (slot + 1) * dirEntrySize } where
  isDir := rfl
  nlinks := rfl
  target i := by
    have positive : 0 < dirEntrySize := by decide
    have old : node.size / dirEntrySize = slot := by
      rw [full, Nat.mul_div_cancel slot positive]
    have new : (slot + 1) * dirEntrySize / dirEntrySize = slot + 1 :=
      Nat.mul_div_cancel (slot + 1) positive
    by_cases here : i = slot
    · subst here
      simp [Inode.target, Inode.withEntry, old]
    · have bound : i < slot + 1 ↔ i < slot := by omega
      simp only [Inode.target, Inode.withEntry, old, new, bound, ne_eq, here,
        not_false_eq_true, Function.update_of_ne]
  early i _ live := by
    have other : i ≠ slot := by
      rintro rfl
      rcases Option.isSome_iff_exists.mp live with ⟨num, target⟩
      have inside := Inode.lt_of_target target
      rw [full, Nat.mul_div_cancel i (by decide)] at inside
      omega
    simp [Inode.withEntry, other]
  blank _ blank := by
    rw [blank.2] at first
    cases first
  wholeEntries _ _ := by
    simp

theorem slotBlock_spec {i : Nat} (first : (fs.inode dir).zone 0 = true)
    (here : i % dirEntriesPerBlock ≠ 0 → (fs.inode dir).zone (i / dirEntriesPerBlock) = true) :
    Triple (· = fs) (slotBlock dir i) fun ok t => ∃ node answers,
      t = fs.regrow dir node answers ∧ (fs.inode dir).Widened node ∧
        (ok = true → node.zone (i / dirEntriesPerBlock) = true) := by
  apply Triple.ite
  · intro _
    exact createBlock_spec first
  · intro inside
    apply Triple.pure_at
    refine ⟨_, _, FileSys.regrow_id.symm, ⟨Inode.Alike.refl _, rfl, fun _ => id⟩, fun _ => ?_⟩
    by_cases zero : i = 0
    · simpa [zero] using first
    · exact here fun start => inside ⟨start, zero⟩

theorem addEntryLoop_spec {name : Name} (left i : Nat) (fs : FileSys)
    (isDir : (fs.inode dir).isDir = true) (first : (fs.inode dir).zone 0 = true)
    (total : (fs.inode dir).size = (i + left) * dirEntrySize)
    (here : i % dirEntriesPerBlock ≠ 0 → (fs.inode dir).zone (i / dirEntriesPerBlock) = true) :
    Triple (· = fs) (addEntryLoop dir name left i) (RoomAdded fs dir) := by
  induction left generalizing i fs with
  | zero =>
      rw [addEntryLoop]
      apply Triple.bind (slotBlock_spec first here)
      intro ok
      apply Triple.ite
      · intro _
        apply Triple.pure
        rintro _ ⟨node, answers, rfl, widened, _⟩
        exact ⟨node, answers, rfl, widened.alike, fun _ impossible => by cases impossible⟩
      · intro there
        apply Triple.get_bind
        rintro _ ⟨node, answers, rfl, widened, zone⟩
        apply Triple.bind setInode_spec
        intro _
        apply Triple.pure_at
        rw [FileSys.regrow_inode_self, FileSys.regrow_setInode]
        have full : node.size = i * dirEntrySize := by
          rw [widened.size, total, Nat.add_zero]
        refine ⟨_, answers, rfl, widened.alike.trans
          (Inode.alike_append (widened.zone 0 first) full), ?_⟩
        rintro slot same
        cases same
        constructor
        · simp [Inode.withEntry]
        · simp
        · exact zone (by simpa using there)
  | succ left ih =>
      rw [addEntryLoop]
      apply Triple.bind (slotBlock_spec first here)
      intro ok
      apply Triple.ite
      · intro _
        apply Triple.pure
        rintro _ ⟨node, answers, rfl, widened, _⟩
        exact ⟨node, answers, rfl, widened.alike, fun _ impossible => by cases impossible⟩
      · intro there
        apply Triple.get_bind
        rintro _ ⟨node, answers, rfl, widened, zone⟩
        have present := zone (by simpa using there)
        rw [FileSys.regrow_inode_self]
        apply Triple.ite
        · intro free
          apply Triple.bind setInode_spec
          intro _
          apply Triple.pure_at
          rw [FileSys.regrow_setInode]
          refine ⟨_, answers, rfl, widened.alike.trans (Inode.alike_withEntry free), ?_⟩
          rintro slot same
          cases same
          constructor
          · simp [Inode.withEntry]
          · change i < node.size / dirEntrySize
            rw [widened.size, total, Nat.mul_div_cancel _ (by decide)]
            omega
          · exact present
        · intro _
          have inside : (i + 1) % dirEntriesPerBlock ≠ 0 →
              (i + 1) / dirEntriesPerBlock = i / dirEntriesPerBlock := by
            intro notStart
            simp only [dirEntriesPerBlock] at notStart ⊢
            omega
          refine (ih (i + 1) (fs.regrow dir node answers) ?_ ?_ ?_ ?_).after ?_
          · rw [FileSys.regrow_inode_self, widened.alike.isDir]
            exact isDir
          · rw [FileSys.regrow_inode_self]
            exact widened.zone 0 first
          · rw [FileSys.regrow_inode_self, widened.size, total]
            congr 1
            omega
          · rw [FileSys.regrow_inode_self]
            intro notStart
            rw [inside notStart]
            exact present
          · rintro result _ ⟨node', answers', rfl, alike, found⟩
            rw [FileSys.regrow_inode_self] at alike
            exact ⟨node', answers', FileSys.regrow_regrow, widened.alike.trans alike, found⟩

theorem addEntry_spec {name : Name}
    (shape : (fs.inode dir).Blank ∨ (fs.inode dir).Proper dir.num) :
    Triple (· = fs) (addEntry dir name) (RoomAdded fs dir) := by
  have failed : RoomAdded fs dir none fs :=
    ⟨_, _, FileSys.regrow_id.symm, Inode.Alike.refl _, fun _ impossible => by cases impossible⟩
  rw [addEntry]
  apply Triple.ite
  · intro _
    exact Triple.pure_at failed
  · intro _
    apply Triple.get_bind_at
    apply Triple.ite
    · intro _
      exact Triple.pure_at failed
    · intro first
      rw [Bool.not_eq_true, Bool.not_eq_false'] at first
      have proper := shape.resolve_left fun blank => by
        rw [blank.2] at first
        cases first
      apply addEntryLoop_spec
      · exact Inode.isDir_of_target proper.dot
      · exact first
      · have whole := proper.wholeEntries
        simp only [dirEntrySize] at whole ⊢
        omega
      · intro notStart
        exact absurd rfl notStart

end Linux012.Fs
