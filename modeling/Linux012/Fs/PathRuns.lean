import Linux012.Fs.PathWalk
import Linux012.Lib.TwoRuns

/-!
# What a path walk looks at

A walk reads the entries of directories and the texts of links, and of other inodes only what
`permission` and `iput` read.  Two file systems that are alike in this cannot be told apart by it.
-/

namespace Linux012.Fs

/-- The inodes are alike for a path walk. -/
structure Inode.Like (node node' : Inode) : Prop where
  mode : node.mode = node'.mode
  uid : node.uid = node'.uid
  gid : node.gid = node'.gid
  nlinks : node.nlinks = node'.nlinks
  first : node.zone 0 = node'.zone 0
  size : node.isDir = true → node.size = node'.size
  zone : node.isDir = true → node.zone = node'.zone
  entry : node.isDir = true → node.entry = node'.entry
  bytes : node.isLnk = true → node.bytes = node'.bytes

/-- The file systems are alike for a path walk. -/
structure FileSys.Like (fs fs' : FileSys) : Prop where
  imap : fs.imap = fs'.imap
  refs : fs.refs = fs'.refs
  superBlock : fs.superBlock = fs'.superBlock
  iMount : fs.iMount = fs'.iMount
  inode : ∀ n, (fs.inode n).Like (fs'.inode n)

theorem Inode.Like.refl (node : Inode) : node.Like node where
  mode := rfl
  uid := rfl
  gid := rfl
  nlinks := rfl
  first := rfl
  size _ := rfl
  zone _ := rfl
  entry _ := rfl
  bytes _ := rfl

theorem FileSys.Like.refl (fs : FileSys) : fs.Like fs where
  imap := rfl
  refs := rfl
  superBlock := rfl
  iMount := rfl
  inode n := .refl (fs.inode n)

namespace PathWalk

open Lib (Agree)

variable {begin fs fs' : FileSys} {current : Task} {n dir : Ino}

/-- Two walks that began in `begin` and in a file system like it.  File systems are mounted on
directories, and what has a link stays. -/
structure Walking (begin fs fs' : FileSys) : Prop where
  like : fs.Like fs'
  superBlock : fs.superBlock = begin.superBlock
  mounted : ∀ sb ∈ begin.superBlock, ∀ n ∈ sb.sImount, (fs.inode n).isDir = true
  kept : ∀ n, (begin.inode n).nlinks ≠ 0 → fs.inode n = begin.inode n
  first : ∀ n, (fs.inode n).zone 0 = true → (begin.inode n).zone 0 = true

namespace Walking

theorem isDir_eq (walking : Walking begin fs fs') :
    (fs.inode n).isDir = (fs'.inode n).isDir := by
  rw [Inode.isDir, Inode.isDir, (walking.like.inode n).mode]

theorem isLnk_eq (walking : Walking begin fs fs') :
    (fs.inode n).isLnk = (fs'.inode n).isLnk := by
  rw [Inode.isLnk, Inode.isLnk, (walking.like.inode n).mode]

theorem permission_eq (walking : Walking begin fs fs') {mask : UInt16} :
    permission current n (fs.inode n) mask = permission current n (fs'.inode n) mask := by
  have like := walking.like.inode n
  rw [permission, permission, like.mode, like.uid, like.gid, like.nlinks]

theorem getSuper_eq (walking : Walking begin fs fs') {dev : Nat} :
    fs.getSuper dev = fs'.getSuper dev := by
  rw [FileSys.getSuper, FileSys.getSuper, walking.like.superBlock]

theorem iCount_eq (walking : Walking begin fs fs') : fs.iCount n = fs'.iCount n := by
  rw [FileSys.iCount, FileSys.iCount, walking.like.refs]

theorem findSlot_eq (walking : Walking begin fs fs') (isDir : (fs.inode n).isDir = true)
    {name : Name} : (fs.inode n).findSlot name = (fs'.inode n).findSlot name := by
  have like := walking.like.inode n
  rw [Inode.findSlot, Inode.findSlot, like.size isDir, like.zone isDir, like.entry isDir]

theorem text_eq (walking : Walking begin fs fs') (isLnk : (fs.inode n).isLnk = true) :
    (fs.inode n).text = (fs'.inode n).text := by
  rw [Inode.text, Inode.text, (walking.like.inode n).bytes isLnk]

/-- References come and go. -/
theorem setRefs (walking : Walking begin fs fs') (refs : Multiset Ino) :
    Walking begin { fs with refs := refs } { fs' with refs := refs } where
  like := { walking.like with refs := rfl }
  superBlock := walking.superBlock
  mounted := walking.mounted
  kept := walking.kept
  first := walking.first

/-- A file without a link loses its blocks. -/
theorem truncate (walking : Walking begin fs fs') (unlinked : (fs.inode n).nlinks = 0) :
    Walking begin
      (fs.setInode n { fs.inode n with zone := fun _ => false, size := 0 })
      (fs'.setInode n { fs'.inode n with zone := fun _ => false, size := 0 }) where
  like :=
    { walking.like with
      inode := by
        intro m
        by_cases same : m = n
        · subst same
          have like := walking.like.inode m
          simp only [FileSys.setInode, Function.update_self]
          exact { like with
            first := rfl
            size := fun _ => rfl
            zone := fun _ => rfl }
        · simp only [FileSys.setInode, Function.update_of_ne same]
          exact walking.like.inode m }
  superBlock := walking.superBlock
  mounted sb there m on := by
    have isDir := walking.mounted sb there m on
    by_cases same : m = n
    · subst same
      simpa only [FileSys.setInode, Function.update_self] using isDir
    · simpa only [FileSys.setInode, Function.update_of_ne same] using isDir
  kept m linked := by
    have kept := walking.kept m linked
    by_cases same : m = n
    · subst same
      rw [kept] at unlinked
      exact absurd unlinked linked
    · simpa only [FileSys.setInode, Function.update_of_ne same] using kept
  first m mapped := by
    by_cases same : m = n
    · subst same
      simp only [FileSys.setInode, Function.update_self, Bool.false_eq_true] at mapped
    · simp only [FileSys.setInode, Function.update_of_ne same] at mapped
      exact walking.first m mapped

theorem setImap (walking : Walking begin fs fs') (imap : Finset Ino) :
    Walking begin { fs with imap := imap } { fs' with imap := imap } where
  like := { walking.like with imap := rfl }
  superBlock := walking.superBlock
  mounted := walking.mounted
  kept := walking.kept
  first := walking.first

end Walking

/-! ## Inodes -/

/-- The two walks go on. -/
abbrev Goes {α : Type} (begin : FileSys) (_ : α) : FileSys → FileSys → Prop := Walking begin

theorem agree_hold : Agree (Walking begin) (lift (hold n)) (lift (hold n)) (Goes begin) := by
  intro fs fs' walking
  refine ⟨rfl, ?_⟩
  have held := walking.setRefs (n ::ₘ fs.refs)
  change Walking begin { fs with refs := n ::ₘ fs.refs } { fs' with refs := n ::ₘ fs'.refs }
  rwa [← walking.like.refs]

theorem agree_truncate : Agree (fun fs fs' => Walking begin fs fs' ∧ (fs.inode n).nlinks = 0)
    (lift (truncate n)) (lift (truncate n)) (Goes begin) := by
  simp only [truncate, lift_bind, lift_get, lift_ite, lift_setInode, lift_pure]
  refine Agree.get_bind ?_
  intro fs fs' both
  obtain ⟨walking, unlinked⟩ := both
  have isReg : (fs.inode n).isReg = (fs'.inode n).isReg := by
    rw [Inode.isReg, Inode.isReg, (walking.like.inode n).mode]
  rw [← isReg, ← walking.isDir_eq, ← walking.isLnk_eq]
  split
  · refine Agree.get_bind fun now now' same => Agree.set fun _ _ _ => ?_
    rw [same.1, same.2]
    exact walking.truncate unlinked
  · refine Agree.pure fun _ _ same => ?_
    rwa [same.1, same.2]

theorem agree_freeInode : Agree (Walking begin) (lift (freeInode n)) (lift (freeInode n))
    (Goes begin) := by
  simp only [freeInode, lift_bind, lift_get, lift_ite, lift_failure]
  refine Agree.get_bind fun fs fs' walking => ?_
  rw [← (walking.like.inode n).nlinks, ← walking.getSuper_eq]
  split
  · exact Agree.throw_bind
  cases fs.getSuper n.dev with
  | none => exact Agree.throw
  | some sb =>
      simp only [lift_ite, lift_bind, lift_failure, lift_set]
      split
      · exact Agree.throw_bind
      refine Agree.set fun _ _ _ => ?_
      rw [← walking.like.imap, ← walking.like.refs]
      exact (walking.setImap _).setRefs _

theorem agree_iput : Agree (Walking begin) (iput n) (iput n) (Goes begin) := by
  refine Agree.get_bind fun fs fs' walking => ?_
  rw [← walking.iCount_eq]
  refine Agree.ite (fun _ => Agree.throw_bind) fun _ => ?_
  simp only [Fs.iput, lift_bind, lift_get, lift_ite, lift_failure, lift_set]
  refine Agree.start (Agree.get_bind fun fs fs' walking => ?_) walking
  have next : Walking begin { fs with refs := fs.refs.erase n }
      { fs' with refs := fs'.refs.erase n } := by
    rw [← walking.like.refs]
    exact walking.setRefs _
  rw [← walking.iCount_eq, ← (walking.like.inode n).nlinks]
  refine Agree.ite (fun _ => Agree.throw_bind) fun _ => ?_
  refine Agree.ite (fun _ => Agree.set fun _ _ _ => next) fun _ => ?_
  refine Agree.ite (fun unlinked => ?_) fun _ => Agree.set fun _ _ _ => next
  exact Agree.start (agree_truncate.bind fun _ => agree_freeInode) ⟨walking, unlinked⟩

/-- A reference to an inode with links is dropped. -/
theorem iput_of_linked (referred : fs.iCount n ≠ 0) (linked : (fs.inode n).nlinks ≠ 0) :
    (iput n).run fs = .ok ((), { fs with refs := fs.refs.erase n }) := by
  have dropped : (lift (Fs.iput n)).run fs = .ok ((), { fs with refs := fs.refs.erase n }) := by
    simp only [Fs.iput, lift_bind, lift_get, lift_ite, lift_failure, lift_set, StateT.run_bind]
    change (StateT.run (if fs.iCount n = 0 then _ else _) fs) = _
    rw [if_neg referred]
    split
    · rfl
    · rfl
  rw [← dropped]
  change (StateT.run (if fs.iCount n = 0 then _ else _) fs) = _
  rw [if_neg referred]

theorem agree_getEmptyInode : Agree (Walking begin) getEmptyInode getEmptyInode (Goes begin) := by
  have checked : Agree (Walking begin) (lift Fs.getEmptyInode) (lift Fs.getEmptyInode)
      (Goes begin) := by
    simp only [Fs.getEmptyInode, lift_bind, lift_get, lift_ite, lift_failure]
    refine Agree.get_bind fun fs fs' walking => ?_
    rw [← walking.like.refs]
    split
    · exact Agree.throw
    · exact Agree.start (Agree.pure fun _ _ => id) walking
  exact checked.bind fun _ => agree_hold

theorem agree_putEmpty : Agree (Walking begin) putEmpty putEmpty (Goes begin) := by
  refine Agree.get_bind fun fs fs' walking => ?_
  rw [← walking.iCount_eq]
  split
  · exact Agree.throw_bind
  refine Agree.set fun _ _ _ => ?_
  rw [← walking.like.refs]
  exact walking.setRefs _

theorem agree_fillEmpty : Agree (Walking begin) (fillEmpty n) (fillEmpty n) (Goes begin) := by
  refine Agree.get_bind fun fs fs' walking => ?_
  rw [← walking.getSuper_eq]
  split
  · exact Agree.throw_bind
  · exact Agree.start (agree_putEmpty.bind fun _ => agree_hold) walking

theorem agree_igetLoop {mounts dev nr : Nat} : Agree (Walking begin) (igetLoop mounts dev nr)
    (igetLoop mounts dev nr) (Goes begin) := by
  unfold igetLoop
  refine Agree.get_bind fun fs fs' walking => ?_
  rw [← walking.like.refs, ← walking.like.iMount, ← walking.like.superBlock]
  refine Agree.start ?_ walking
  split
  · refine agree_hold.bind fun _ => ?_
    split
    · split
      · exact agree_putEmpty.bind fun _ => Agree.pure fun _ _ => id
      · refine agree_iput.bind fun _ => ?_
        cases mounts with
        | zero => exact Agree.throw
        | succ mounts => exact agree_igetLoop
    · exact agree_putEmpty.bind fun _ => Agree.pure fun _ _ => id
  · exact agree_fillEmpty.bind fun _ => Agree.pure fun _ _ => id
termination_by mounts

theorem agree_iget {mounts dev nr : Nat} : Agree (Walking begin) (iget mounts dev nr)
    (iget mounts dev nr) (Goes begin) := by
  rw [iget]
  split
  · exact Agree.throw_bind
  · exact agree_getEmptyInode.bind fun _ => agree_igetLoop

/-! ## Directories -/

/-- The inode that a call returns is a directory. -/
def GoesTo {α : Type} (directory : α → Option Ino) (begin : FileSys) (result : α)
    (fs fs' : FileSys) : Prop :=
  Walking begin fs fs' ∧ ∀ n ∈ directory result, (fs.inode n).isDir = true

theorem goesTo_none {α : Type} {directory : α → Option Ino} {result : α}
    (walking : Walking begin fs fs') (none : directory result = none) :
    GoesTo directory begin result fs fs' := by
  refine ⟨walking, fun _ isDirectory => ?_⟩
  rw [none] at isDirectory
  cases isDirectory

/-- Both walks are at one directory. -/
def At (begin : FileSys) (dir : Ino) (fs fs' : FileSys) : Prop :=
  Walking begin fs fs' ∧ (fs.inode dir).isDir = true

theorem agree_crossMount : Agree (At begin dir) (crossMount dir) (crossMount dir)
    (fun dir => At begin dir) := by
  rw [crossMount]
  split
  · exact Agree.pure fun _ _ => id
  refine Agree.get_bind fun fs fs' isAt => ?_
  obtain ⟨walking, isDir⟩ := isAt
  rw [← walking.getSuper_eq]
  cases found : fs.getSuper dir.dev with
  | none => exact Agree.throw
  | some sb =>
      dsimp only
      cases on : sb.sImount with
      | none => exact Agree.start (Agree.pure fun _ _ => id) ⟨walking, isDir⟩
      | some mounted =>
          have there : sb ∈ begin.superBlock := by
            rw [← walking.superBlock]
            rw [FileSys.getSuper] at found
            split at found
            · cases found
            · exact List.mem_of_find?_eq_some found
          refine Agree.start (agree_iput.bind fun _ => agree_hold.bind fun _ => ?_) walking
          exact Agree.pure fun _ _ walking => ⟨walking, walking.mounted sb there mounted on⟩

/-- The search of one directory. -/
theorem agree_search {name : Name} : Agree (At begin dir)
    ((do let fs ← get; return (dir, (fs.inode dir).findSlot name)) : WalkM (Ino × Option Nat))
    (do let fs ← get; return (dir, (fs.inode dir).findSlot name))
    (fun found => At begin found.1) := by
  refine Agree.get_bind fun fs fs' isAt => ?_
  obtain ⟨walking, isDir⟩ := isAt
  rw [← walking.findSlot_eq isDir]
  exact Agree.start (Agree.pure fun _ _ => id) ⟨walking, isDir⟩

theorem agree_findEntry {name : Name} : Agree (At begin dir) (findEntry current dir name)
    (findEntry current dir name) (fun found => At begin found.1) := by
  rw [findEntry]
  split
  · split
    · exact agree_search
    · exact agree_crossMount.bind fun _ => agree_search
  · exact agree_search

/-! ## Paths -/

section Follow

variable {mounts : Nat} {followLink : Ino → Ino → WalkM (Option Ino)}

/-- An operation that follows links agrees with itself. -/
def FollowsAlike (begin : FileSys) (followLink : Ino → Ino → WalkM (Option Ino)) : Prop :=
  ∀ dir inode, Agree (Walking begin) (followLink dir inode) (followLink dir inode) (Goes begin)

/-- The inode in a slot that was found is taken. -/
theorem agree_igetSlot_bind {α : Type} {slot : Nat} {rest : Ino → WalkM α}
    {after : α → FileSys → FileSys → Prop}
    (continues : ∀ inode, Agree (Walking begin) (rest inode) (rest inode) after) :
    Agree (At begin dir)
      (do let fs ← get; let inode ← iget mounts dir.dev ((fs.inode dir).entry slot).inode
          rest inode)
      (do let fs ← get; let inode ← iget mounts dir.dev ((fs.inode dir).entry slot).inode
          rest inode) after := by
  refine Agree.get_bind fun fs fs' isAt => ?_
  obtain ⟨walking, isDir⟩ := isAt
  rw [← (walking.like.inode dir).entry isDir]
  exact Agree.start (agree_iget.bind continues) walking

theorem isDir_of_passed {node : Inode} {allowed : Bool}
    (passed : ¬(!node.isDir || !allowed) = true) : node.isDir = true := by
  simp only [Bool.or_eq_true, Bool.not_eq_true', not_or, Bool.not_eq_false] at passed
  exact passed.1

theorem agree_walk (follows : FollowsAlike begin followLink) (components : List Name)
    (inode : Ino) : Agree (Walking begin) (walk current mounts followLink components inode)
      (walk current mounts followLink components inode) (GoesTo id begin) := by
  have gone (inode : Ino) : Agree (Walking begin) (do iput inode; return none)
      (do iput inode; return none) (GoesTo id begin) :=
    agree_iput.bind fun _ => Agree.pure fun _ _ walking => goesTo_none walking rfl
  induction components generalizing inode with
  | nil =>
      rw [walk]
      refine Agree.get_bind fun fs fs' walking => ?_
      rw [← walking.isDir_eq, ← walking.permission_eq]
      split
      · exact Agree.start (gone inode) walking
      next passed =>
        refine Agree.pure fun _ _ same => ?_
        rw [same.1, same.2]
        refine ⟨walking, fun _ isInode => ?_⟩
        obtain rfl := Option.some.inj isInode
        exact isDir_of_passed passed
  | cons thisname rest ih =>
      rw [walk]
      refine Agree.get_bind fun fs fs' walking => ?_
      rw [← walking.isDir_eq, ← walking.permission_eq]
      split
      · exact Agree.start (gone inode) walking
      next passed =>
        have isAt : At begin inode fs fs' := ⟨walking, isDir_of_passed passed⟩
        refine Agree.start ?_ isAt
        refine agree_findEntry.bind fun found => ?_
        obtain ⟨dir, _ | de⟩ := found
        · exact (gone dir).conseq (fun _ _ both => both.1) fun _ _ _ => id
        · refine agree_igetSlot_bind fun inode => (follows dir inode).bind fun result => ?_
          cases result with
          | none => exact Agree.pure fun _ _ walking => goesTo_none walking rfl
          | some inode => exact ih inode

theorem agree_startDir {base : Option Ino} : Agree (Walking begin) (startDir current base)
    (startDir current base) (Goes begin) := by
  cases base with
  | none => exact agree_hold.bind fun _ => Agree.pure fun _ _ => id
  | some inode => exact Agree.pure fun _ _ => id

theorem agree_getDir (follows : FollowsAlike begin followLink) {pathname : List UInt8}
    {base : Option Ino} : Agree (Walking begin) (getDir current mounts followLink pathname base)
      (getDir current mounts followLink pathname base) (GoesTo id begin) := by
  refine agree_startDir.bind fun inode => ?_
  split
  · exact agree_iput.bind fun _ => agree_hold.bind fun _ => agree_walk follows _ _
  · exact agree_walk follows _ _

theorem agree_dirNamei (follows : FollowsAlike begin followLink) {pathname : List UInt8}
    {base : Option Ino} : Agree (Walking begin) (dirNamei current mounts followLink pathname base)
      (dirNamei current mounts followLink pathname base)
      (GoesTo (fun place => place.map Prod.fst) begin) := by
  refine (agree_getDir follows).bind fun result => ?_
  cases result with
  | none => exact Agree.pure fun _ _ both => goesTo_none both.1 rfl
  | some dir => exact Agree.pure fun _ _ => id

theorem agree_findPlace (follows : FollowsAlike begin followLink) {pathname : List UInt8}
    {base : Option Ino} : Agree (Walking begin)
      (findPlace current mounts followLink pathname base)
      (findPlace current mounts followLink pathname base) (Goes begin) := by
  refine (agree_dirNamei follows).bind fun place => ?_
  cases place with
  | none => exact Agree.pure fun _ _ both => both.1
  | some place =>
      obtain ⟨base, basename⟩ := place
      dsimp only
      split
      · exact Agree.pure fun _ _ both => both.1
      refine Agree.of_start fun fs fs' both => ?_
      have isAt : At begin base fs fs' := ⟨both.1, both.2 base rfl⟩
      refine Agree.start (agree_findEntry.bind fun found => ?_) isAt
      obtain ⟨dir, _ | de⟩ := found
      · refine Agree.conseq (agree_iput.bind fun _ => ?_) (fun _ _ both => both.1)
          fun _ _ _ => id
        exact Agree.pure fun _ _ => id
      · exact agree_igetSlot_bind fun inode => Agree.pure fun _ _ => id

theorem agree_setAtime : Agree (Walking begin) (setAtime (some n)) (setAtime (some n))
    (Goes begin) :=
  Agree.pure fun _ _ => id

/-- Without a link to follow. -/
theorem agree_namei_noFollow (follows : FollowsAlike begin followLink) {pathname : List UInt8}
    {base : Option Ino} : Agree (Walking begin)
      (namei current mounts followLink pathname base false)
      (namei current mounts followLink pathname base false) (Goes begin) := by
  refine (agree_findPlace follows).bind fun place => ?_
  cases place with
  | nothing => exact Agree.pure fun _ _ => id
  | directory base => exact Agree.pure fun _ _ => id
  | entry base inode =>
      refine agree_iput.bind fun _ => ?_
      exact agree_setAtime.bind fun _ => Agree.pure fun _ _ => id

end Follow

theorem agree_followLink {mounts links : Nat} {segment : UInt16} :
    FollowsAlike begin (followLink current mounts links segment) := by
  intro dir inode
  unfold followLink
  refine Agree.get_bind fun fs fs' walking => ?_
  rw [← walking.isLnk_eq, ← (walking.like.inode inode).first]
  split
  · exact Agree.start (agree_iput.bind fun _ => Agree.pure fun _ _ => id) walking
  next isLnk =>
    split
    · refine Agree.start (agree_iput.bind fun _ => agree_iput.bind fun _ => ?_) walking
      exact Agree.pure fun _ _ => id
    · rw [← walking.text_eq (by simpa using isLnk)]
      refine Agree.start (agree_iput.bind fun _ => ?_) walking
      cases links with
      | zero => exact Agree.throw
      | succ links => exact agree_namei_noFollow agree_followLink
termination_by links

/-- `lnamei` cannot tell file systems that are alike from one another. -/
theorem agree_lnamei {mounts links : Nat} {segment : UInt16} {pathname : List UInt8} :
    Agree (Walking begin) (lnamei current mounts links segment pathname)
      (lnamei current mounts links segment pathname) (Goes begin) :=
  agree_namei_noFollow agree_followLink

end PathWalk

end Linux012.Fs
