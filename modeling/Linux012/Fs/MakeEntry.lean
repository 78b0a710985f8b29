import Linux012.Fs.Entries

/-!
# Calls that make entries

`sys_mknod`, `sys_symlink`, `sys_mkdir` and `sys_link` leave a good file system good.
The last two increment a link count, and do so only if it is not 255.
-/

namespace Linux012.Fs

open Lib (Triple)

variable {fs : FileSys} {n m dir : Ino} {slot : Nat} {name : Name} {current : Task}

/-! ## Room for an entry -/

theorem RoomAdded.of_hold {t : FileSys} {result : Option Nat}
    (added : RoomAdded (fs.hold m) dir result t) :
    ∃ ready, RoomAdded fs dir result ready ∧ t = ready.hold m := by
  rcases added with ⟨node, answers, same, alike, free⟩
  exact ⟨_, ⟨node, answers, rfl, alike, free⟩, same⟩

theorem RoomAdded.of_alloc {t : FileSys} {result : Option Nat} {node : Inode}
    (other : dir ≠ n) (added : RoomAdded (fs.alloc n node) dir result t) :
    ∃ ready, RoomAdded fs dir result ready ∧ t = ready.alloc n node := by
  rcases added with ⟨node', answers, same, alike, free⟩
  rw [FileSys.alloc_inode_of_ne other] at alike
  exact ⟨_, ⟨node', answers, rfl, alike, free⟩, same.trans (FileSys.regrow_alloc other)⟩

section Room

variable {t : FileSys} {result : Option Nat}

theorem RoomAdded.imap (added : RoomAdded fs dir result t) : t.imap = fs.imap := by
  rcases added with ⟨node, answers, rfl, _⟩
  rfl

theorem RoomAdded.refs (added : RoomAdded fs dir result t) : t.refs = fs.refs := by
  rcases added with ⟨node, answers, rfl, _⟩
  rfl

theorem RoomAdded.isDir (added : RoomAdded fs dir result t) :
    (t.inode dir).isDir = (fs.inode dir).isDir := by
  rcases added with ⟨node, answers, rfl, alike, _⟩
  rw [FileSys.regrow_inode_self, alike.isDir]

theorem RoomAdded.nlinks (added : RoomAdded fs dir result t) :
    (t.inode dir).nlinks = (fs.inode dir).nlinks := by
  rcases added with ⟨node, answers, rfl, alike, _⟩
  rw [FileSys.regrow_inode_self, alike.nlinks]

theorem RoomAdded.inode_of_ne (added : RoomAdded fs dir result t) (other : m ≠ dir) :
    t.inode m = fs.inode m := by
  rcases added with ⟨node, answers, rfl, _⟩
  exact FileSys.setInode_inode_of_ne other

theorem RoomAdded.free (added : RoomAdded fs dir (some slot) t) :
    (t.inode dir).FreeSlot slot := by
  rcases added with ⟨node, answers, rfl, _, free⟩
  rw [FileSys.regrow_inode_self]
  exact free slot rfl

theorem RoomAdded.not_blank (added : RoomAdded fs dir (some slot) t)
    (isDir : (fs.inode dir).isDir = true) : ¬(fs.inode dir).Blank := by
  intro blank
  rcases added with ⟨node, answers, rfl, alike, free⟩
  have inside := (free slot rfl).inside
  simp [(alike.blank isDir blank).1] at inside

theorem RoomAdded.kept (added : RoomAdded fs dir result t) (kept : fs.Kept dir) :
    t.Kept dir := by
  apply kept.mono
  · intro member
    rw [added.imap]
    exact member
  · intro reference
    rw [added.refs]
    exact reference
  · intro linked
    rw [added.nlinks]
    exact linked

theorem RoomAdded.settled (added : RoomAdded fs dir result t) (ok : fs.Ok) : Settled fs t :=
  ⟨added.ok ok, added.refs⟩

end Room

/-- The calls work on a directory that is good to have entries added. -/
structure FileSys.Place (fs : FileSys) (dir : Ino) : Prop where
  ok : fs.Ok
  kept : fs.Kept dir
  isDir : (fs.inode dir).isDir = true

theorem FileSys.Place.shape (place : fs.Place dir) :
    (fs.inode dir).Blank ∨ (fs.inode dir).Proper dir.num :=
  place.ok.tree.dirs.shape dir place.kept.allocated place.isDir

theorem RoomAdded.place {t : FileSys} {result : Option Nat} (added : RoomAdded fs dir result t)
    (place : fs.Place dir) : t.Place dir :=
  ⟨added.ok place.ok, added.kept place.kept, added.isDir.trans place.isDir⟩

theorem FileSys.Place.ne_fresh (place : fs.Place dir) (fresh : n ∉ fs.imap) : dir ≠ n :=
  ne_of_mem_of_not_mem place.kept.allocated fresh

/-- `add_entry` while a new inode waits for its entry. -/
theorem addEntry_alloc {node : Inode} (place : fs.Place dir) (fresh : n ∉ fs.imap) :
    Triple (· = (fs.hold dir).alloc n node) (addEntry dir name) fun result t =>
      ∃ ready, RoomAdded fs dir result ready ∧ t = (ready.hold dir).alloc n node := by
  have distinct := place.ne_fresh fresh
  have spec : Triple (· = (fs.hold dir).alloc n node) (addEntry dir name)
      (RoomAdded ((fs.hold dir).alloc n node) dir) := by
    apply addEntry_spec
    rw [FileSys.alloc_inode_of_ne distinct]
    exact place.shape
  apply spec.after
  rintro result t added
  rcases added.of_alloc distinct with ⟨held, addedHeld, rfl⟩
  rcases addedHeld.of_hold with ⟨ready, addedReady, rfl⟩
  exact ⟨ready, addedReady, rfl⟩

/-- `add_entry` while another inode is held as well. -/
theorem addEntry_held (place : (fs.hold n).Place dir) :
    Triple (· = (fs.hold n).hold dir) (addEntry dir name) fun result t =>
      ∃ ready, RoomAdded fs dir result ready ∧ t = (ready.hold n).hold dir := by
  have spec : Triple (· = (fs.hold n).hold dir) (addEntry dir name)
      (RoomAdded ((fs.hold n).hold dir) dir) := addEntry_spec place.shape
  apply spec.after
  rintro result t added
  rcases added.of_hold with ⟨held, addedHeld, rfl⟩
  rcases addedHeld.of_hold with ⟨ready, addedReady, rfl⟩
  exact ⟨ready, addedReady, rfl⟩

/-! ## Giving a new inode back -/

theorem iput_place {node : Inode} (kept : fs.Kept dir) (fresh : n ∉ fs.imap) :
    Triple (· = (fs.hold dir).alloc n node) (iput dir) fun _ t => t = fs.alloc n node := by
  rw [FileSys.alloc_hold]
  exact iput_kept (kept.allocate fresh).hold

theorem last_link {count : UInt8} (one : count = 1) : count - 1 = 0 := by
  rw [one]
  decide

/-- The new inode is given back after the directory. -/
theorem dropPlaceFirst {α : Type} {result : α} {node : Inode} (unlink : Inode → Inode)
    (place : fs.Place dir) (fresh : n ∉ fs.imap) (unlinked : (unlink node).nlinks = 0) :
    Triple (· = (fs.hold dir).alloc n node)
      (do
        iput dir
        let s ← get
        setInode n (unlink (s.inode n))
        iput n
        return result)
      fun r t => r = result ∧ Settled fs t := by
  apply Triple.bind (iput_place place.kept fresh)
  intro _
  apply Triple.get_bind_at
  rw [FileSys.alloc_inode_self]
  apply Triple.bind setInode_spec
  intro _
  rw [FileSys.alloc_setInode_self]
  apply Triple.bind (iput_fresh place.ok fresh unlinked)
  intro _
  apply Triple.pure
  rintro _ ⟨node', rfl⟩
  exact ⟨rfl, place.ok.setInode_fresh fresh, rfl⟩

/-- The new inode is given back before the directory. -/
theorem dropPlaceLast {α : Type} {result : α} {node : Inode} (unlink : Inode → Inode)
    (place : fs.Place dir) (fresh : n ∉ fs.imap) (unlinked : (unlink node).nlinks = 0) :
    Triple (· = (fs.hold dir).alloc n node)
      (do
        let s ← get
        setInode n (unlink (s.inode n))
        iput n
        iput dir
        return result)
      fun r t => r = result ∧ Settled fs t := by
  have distinct := place.ne_fresh fresh
  apply Triple.get_bind_at
  rw [FileSys.alloc_inode_self]
  apply Triple.bind setInode_spec
  intro _
  rw [FileSys.alloc_setInode_self]
  apply Triple.bind (iput_fresh (place.ok.hold place.kept.allocated) fresh unlinked)
  intro _
  apply Triple.of_pre
  rintro _ ⟨node', rfl⟩
  rw [FileSys.setInode_hold]
  have kept : (fs.setInode n node').Kept dir :=
    place.kept.setInode fun same => absurd same distinct
  apply Triple.bind (iput_kept kept)
  intro _
  exact Triple.pure_at ⟨rfl, place.ok.setInode_fresh fresh, rfl⟩

theorem succ_ne_zero {count : UInt8} (room : count ≠ 255) : count + 1 ≠ 0 := by
  intro wrapped
  have grown := toNat_succ room
  rw [wrapped] at grown
  have zero : (0 : UInt8).toNat = 0 := rfl
  omega

theorem FileSys.Kept.of_hold (kept : (fs.hold n).Kept m) (other : m ≠ n) : fs.Kept m where
  allocated := kept.allocated
  stays := by
    rcases kept.stays with reference | linked
    · exact .inl ((Multiset.mem_cons.mp reference).resolve_left other)
    · exact .inr linked

theorem ne_of_isDir (isDir : (fs.inode dir).isDir = true) (file : (fs.inode n).isDir = false) :
    dir ≠ n := by
  rintro rfl
  rw [file] at isDir
  cases isDir

/-! ## New files -/

theorem FileSys.Kept.withEntry {de : DirEntry} (kept : fs.Kept m) :
    (fs.withEntry dir slot de).Kept m := by
  apply kept.setInode
  rintro rfl linked
  exact linked

/-- Writing the number of a new inode into the slot that was found. -/
theorem setEntry_alloc {node : Inode} {num : Nat} (distinct : dir ≠ n) :
    Triple (· = (fs.hold dir).alloc n node) (setEntry dir slot num) fun _ t =>
      t = ((fs.withEntry dir slot ⟨num, ((fs.inode dir).entry slot).name⟩).hold dir).alloc
        n node := by
  apply setEntry_spec.after
  rintro _ t rfl
  rw [FileSys.alloc_inode_of_ne distinct, FileSys.setInode_alloc distinct]
  rfl

/-- A new inode, with what has to be known of it until it gets its entry. -/
structure FileSys.Fresh (fs : FileSys) (dir n : Ino) : Prop where
  fresh : n ∉ fs.imap
  numbered : n.num ≠ 0
  sameDev : dir.dev = n.dev

theorem RoomAdded.fresh {t : FileSys} {result : Option Nat} (added : RoomAdded fs dir result t)
    (fresh : fs.Fresh dir n) : t.Fresh dir n :=
  ⟨by rw [added.imap]; exact fresh.fresh, fresh.numbered, fresh.sameDev⟩

/-- The file system once the entry of a new file is written. -/
def FileSys.created (fs : FileSys) (dir : Ino) (slot : Nat) (n : Ino) (node : Inode) : FileSys :=
  (fs.withEntry dir slot ⟨n.num, ((fs.inode dir).entry slot).name⟩).allocate n node

theorem FileSys.Place.created_ok {node : Inode} (place : fs.Place dir) (fresh : fs.Fresh dir n)
    (free : (fs.inode dir).FreeSlot slot) (newFile : node.NewFile) :
    (fs.created dir slot n node).Ok :=
  place.ok.create fresh.fresh fresh.numbered newFile place.kept.allocated fresh.sameDev
    place.isDir free

theorem FileSys.created_kept {node : Inode} (newFile : node.NewFile) :
    (fs.created dir slot n node).Kept n where
  allocated := Finset.mem_insert_self _ _
  stays := by
    right
    simp [FileSys.created, FileSys.allocate, newFile.links]

/-- The end of a call that made a file and keeps it open. -/
theorem finishOpen {node : Inode} {α : Type} {result : α} (place : fs.Place dir)
    (fresh : fs.Fresh dir n) (free : (fs.inode dir).FreeSlot slot) (newFile : node.NewFile) :
    Triple (· = (fs.hold dir).alloc n node)
      (do
        setEntry dir slot n.num
        iput dir
        return result)
      fun r t => r = result ∧ ∃ made, t = made.hold n ∧ Settled fs made ∧ made.Kept n := by
  apply Triple.bind (setEntry_alloc (place.ne_fresh fresh.fresh))
  intro _
  apply Triple.bind (iput_place place.kept.withEntry fresh.fresh)
  intro _
  apply Triple.pure_at
  exact ⟨rfl, _, rfl, ⟨place.created_ok fresh free newFile, rfl⟩, FileSys.created_kept newFile⟩

/-- The end of a call that made a file. -/
theorem finishCreate {node : Inode} {α : Type} {result : α} (place : fs.Place dir)
    (fresh : fs.Fresh dir n) (free : (fs.inode dir).FreeSlot slot) (newFile : node.NewFile) :
    Triple (· = (fs.hold dir).alloc n node)
      (do
        setEntry dir slot n.num
        iput dir
        iput n
        return result)
      fun _ t => Settled fs t := by
  apply Triple.bind (setEntry_alloc (place.ne_fresh fresh.fresh))
  intro _
  apply Triple.bind (iput_place place.kept.withEntry fresh.fresh)
  intro _
  apply Triple.bind (iput_kept (FileSys.created_kept newFile))
  intro _
  exact Triple.pure_at ⟨place.created_ok fresh free newFile, rfl⟩

theorem Settled.trans {t u : FileSys} (one : Settled fs t) (two : Settled t u) : Settled fs u :=
  ⟨two.ok, two.refs.trans one.refs⟩

theorem Settled.of_newBlocks {t : FileSys} {answers : List Bool}
    (settled : Settled { fs with newBlocks := answers } t) : Settled fs t :=
  ⟨settled.ok, settled.refs⟩

/-! ## sys_mknod -/

/-- The result of the way in: an error, or a place for an entry. -/
def AtPlace (fs : FileSys) (result : Except Errno (Ino × Name)) (t : FileSys) : Prop :=
  match result with
  | .error _ => t = fs
  | .ok place => t = fs.hold place.1 ∧ fs.Place place.1

theorem placeOf_spec (ok : fs.Ok) (runs : fs.Runs current) (pathname : List UInt8)
    (noDir noName noWrite : Errno) :
    Triple (· = fs) (placeOf current pathname noDir noName noWrite) (AtPlace fs) := by
  rw [placeOf]
  apply Triple.bind (dirNamei_spec ok runs pathname)
  intro place
  cases place with
  | none => exact Triple.pure fun _ => id
  | some place =>
      rcases place with ⟨dir, basename⟩
      apply Triple.of_pre
      rintro _ ⟨rfl, kept, isDir⟩
      apply Triple.ite
      · intro _
        apply Triple.bind (iput_kept kept)
        intro _
        exact Triple.pure_at rfl
      · intro _
        apply Triple.get_bind_at
        apply Triple.ite
        · intro _
          apply Triple.bind (iput_kept kept)
          intro _
          exact Triple.pure_at rfl
        · intro _
          exact Triple.pure_at ⟨rfl, ok, kept, isDir⟩

theorem Found.place {result : Ino × Option Nat} {t : FileSys} (found : Found fs dir result t)
    (ok : fs.Ok) : fs.Place result.1 :=
  ⟨ok, found.kept, found.isDir⟩

theorem freshInode_newFile (uid gid uid' mode rdev : UInt16) :
    ({ freshInode uid gid with uid := uid', mode := mode, rdev := rdev } : Inode).NewFile where
  links := rfl
  empty slot := by simp [Inode.target, freshInode]
  blank _ := ⟨rfl, rfl⟩

/-- The inode that `sys_mknod` makes. -/
theorem mknodInode_newFile (uid gid mode dev : UInt16) :
    (let node : Inode := { freshInode uid gid with mode := mode }
      if node.isBlk || node.isChr then { node with rdev := dev } else node).NewFile := by
  simp only
  split
  · exact freshInode_newFile uid gid uid mode dev
  · exact freshInode_newFile uid gid uid mode 0

theorem sysMknod_spec (ok : fs.Ok) (runs : fs.Runs current) (filename : List UInt8)
    (mode dev : UInt16) :
    Triple (· = fs) (sysMknod current filename mode dev) fun _ t => Settled fs t := by
  rw [sysMknod]
  apply Triple.ite
  · intro _
    exact Triple.pure_at ok.settled
  · intro _
    apply Triple.bind (placeOf_spec ok runs filename _ _ _)
    intro entrance
    cases entrance with
    | error errno =>
        apply Triple.pure
        rintro _ rfl
        exact ok.settled
    | ok entrance =>
        rcases entrance with ⟨dir, basename⟩
        apply Triple.of_pre
        rintro _ ⟨rfl, place⟩
        apply Triple.bind (findEntry_spec ok.searchable place.kept place.isDir)
        rintro ⟨dir, slot⟩
        apply Triple.of_pre
        intro t found
        rw [found.state]
        have place := found.place ok
        cases slot with
        | some slot =>
            apply Triple.bind (iput_kept found.kept)
            intro _
            exact Triple.pure_at ok.settled
        | none =>
            apply Triple.bind newInode_spec
            intro inode
            cases inode with
            | none =>
                apply Triple.bind (iput_kept found.kept)
                intro _
                exact Triple.pure_at ok.settled
            | some n =>
                apply Triple.of_pre
                rintro _ ⟨unused, onDev, numbered, rfl⟩
                have fresh : fs.Fresh dir n := ⟨unused, numbered, onDev.symm⟩
                apply Triple.get_bind_at
                rw [FileSys.alloc_inode_self]
                apply Triple.bind setInode_spec
                intro _
                rw [FileSys.alloc_setInode_self]
                have newFile := mknodInode_newFile current.euid current.egid mode dev
                apply Triple.bind (addEntry_alloc place unused)
                intro de
                apply Triple.of_pre
                rintro _ ⟨ready, added, rfl⟩
                have readyFresh := added.fresh fresh
                cases de with
                | none =>
                    apply (dropPlaceFirst (fun node => { node with nlinks := 0 })
                      (added.place place) readyFresh.fresh rfl).after
                    rintro _ t ⟨rfl, settled⟩
                    exact (added.settled ok).trans settled
                | some de =>
                    apply (finishCreate (added.place place) readyFresh added.free newFile).after
                    intro _ t settled
                    exact (added.settled ok).trans settled

/-! ## The type bits of a mode -/

theorem uint16_or_and (a b c : UInt16) : (a ||| b) &&& c = a &&& c ||| b &&& c := by
  apply UInt16.toBitVec_inj.1
  exact BitVec.and_or_distrib_right

/-- Permission bits do not touch the type of a file. -/
theorem permissions_and_sIfmt (mode mask : UInt16) : mode &&& 0o777 &&& mask &&& sIfmt = 0 := by
  have apart : (0o777 : UInt16) &&& sIfmt = 0 := by decide
  rw [UInt16.and_assoc, UInt16.and_assoc, UInt16.and_comm mask, ← UInt16.and_assoc 0o777, apart,
    UInt16.zero_and, UInt16.and_zero]

theorem isType_permissions (type mode mask : UInt16) (clean : type &&& sIfmt = type) :
    isType type (type ||| (mode &&& 0o777 &&& mask)) = true := by
  rw [isType, uint16_or_and, permissions_and_sIfmt, UInt16.or_zero, clean, beq_self_eq_true]

/-! ## sys_symlink -/

theorem newBlock_alloc {node : Inode} :
    Triple (· = (fs.hold dir).alloc n node) newBlock fun _ t =>
      ∃ answers, t = (FileSys.hold { fs with newBlocks := answers } dir).alloc n node := by
  apply newBlock_spec.after
  rintro _ t ⟨answers, rfl⟩
  exact ⟨answers, rfl⟩

theorem FileSys.Place.newBlocks (place : fs.Place dir) (answers : List Bool) :
    FileSys.Place { fs with newBlocks := answers } dir :=
  ⟨place.ok.newBlocks answers, ⟨place.kept.allocated, place.kept.stays⟩, place.isDir⟩

theorem symlinkInode_newFile (node : Inode) (mask : UInt16) (oldname : List UInt8)
    (links : node.nlinks = 1) (mode : node.mode = sIflnk ||| (0o777 &&& mask)) :
    (node.asSymlink oldname).NewFile := by
  have isLnk : isType sIflnk node.mode = true := by
    rw [mode]
    have permissions := isType_permissions sIflnk 0o777 mask (by decide)
    rwa [UInt16.and_self] at permissions
  have notDir : (node.asSymlink oldname).isDir = false := by
    simp only [isType, beq_iff_eq] at isLnk
    change isType sIfdir node.mode = false
    rw [isType, isLnk]
    decide
  constructor
  · exact links
  · exact Inode.target_of_not_isDir notDir
  · intro isDir
    rw [notDir] at isDir
    cases isDir

/-- `find_entry` while a new file waits for its entry. -/
theorem findEntry_alloc {node : Inode} (place : fs.Place dir) (unused : n ∉ fs.imap)
    (newFile : node.NewFile) :
    Triple (· = (fs.hold dir).alloc n node) (findEntry current dir name) fun result t =>
      t = (fs.hold result.1).alloc n node ∧ fs.Place result.1 ∧
        (result.2 = none → result.1 = dir ∨ (fs.inode result.1).Blank) := by
  have search : (fs.alloc n node).Searchable := by
    constructor
    · intro sb there m on
      have mounted := place.ok.searchable.mounted sb there m on
      refine ⟨(mounted.1.allocate unused).hold, ?_⟩
      rw [FileSys.alloc_inode_of_ne (ne_of_mem_of_not_mem mounted.1.allocated unused)]
      exact mounted.2
    · intro m member isDir
      rcases Finset.mem_insert.mp member with rfl | old
      · rw [FileSys.alloc_inode_self] at isDir ⊢
        exact .inl (newFile.blank isDir)
      · rw [FileSys.alloc_inode_of_ne (ne_of_mem_of_not_mem old unused)] at isDir ⊢
        exact place.ok.tree.dirs.shape m old isDir
  have isDir : ((fs.alloc n node).inode dir).isDir = true := by
    rw [FileSys.alloc_inode_of_ne (place.ne_fresh unused)]
    exact place.isDir
  rw [FileSys.alloc_hold]
  apply (findEntry_spec search (place.kept.allocate unused).hold isDir).after
  intro result t found
  have place' : fs.Place result.1 := by
    rcases found.origin with same | ⟨sb, there, on⟩
    · rw [same]
      exact place
    · have mounted := place.ok.searchable.mounted sb there result.1 on
      exact ⟨place.ok, mounted.1, mounted.2⟩
  refine ⟨found.state.trans FileSys.alloc_hold.symm, place', ?_⟩
  intro missing
  have same := found.same missing
  rw [FileSys.alloc_inode_of_ne (place'.ne_fresh unused)] at same
  exact same

theorem sysSymlink_spec (ok : fs.Ok) (runs : fs.Runs current) (oldname newname : List UInt8) :
    Triple (· = fs) (sysSymlink current oldname newname) fun _ t => Settled fs t := by
  rw [sysSymlink]
  apply Triple.bind (placeOf_spec ok runs newname _ _ _)
  intro entrance
  cases entrance with
  | error errno =>
      apply Triple.pure
      rintro _ rfl
      exact ok.settled
  | ok entrance =>
      rcases entrance with ⟨dir, basename⟩
      apply Triple.of_pre
      rintro _ ⟨rfl, place⟩
      apply Triple.bind newInode_spec
      intro inode
      cases inode with
      | none =>
          apply Triple.bind (iput_kept place.kept)
          intro _
          exact Triple.pure_at ok.settled
      | some n =>
          apply Triple.of_pre
          rintro _ ⟨unused, onDev, numbered, rfl⟩
          apply Triple.get_bind_at
          rw [FileSys.alloc_inode_self]
          apply Triple.bind setInode_spec
          intro _
          rw [FileSys.alloc_setInode_self]
          apply Triple.bind newBlock_alloc
          intro answer
          apply Triple.of_pre
          rintro _ ⟨answers, rfl⟩
          have place' := place.newBlocks answers
          apply Triple.ite
          · intro _
            apply (dropPlaceFirst (fun node => { node with nlinks := node.nlinks - 1 })
              place' unused _).after
            · rintro _ t ⟨rfl, settled⟩
              exact settled.of_newBlocks
            · exact last_link rfl
          · intro _
            apply Triple.get_bind_at
            rw [FileSys.alloc_inode_self]
            apply Triple.bind setInode_spec
            intro _
            rw [FileSys.alloc_setInode_self]
            have newFile := symlinkInode_newFile { freshInode current.euid current.egid with
              mode := sIflnk ||| (0o777 &&& ~~~current.umask) } (~~~current.umask) oldname rfl rfl
            apply Triple.bind (findEntry_alloc place' unused newFile)
            rintro ⟨dir', slot⟩
            apply Triple.of_pre
            rintro _ ⟨rfl, place, same⟩
            cases slot with
            | some slot =>
                apply (dropPlaceLast (fun node => { node with nlinks := node.nlinks - 1 })
                  place unused _).after
                · rintro _ t ⟨rfl, settled⟩
                  exact settled.of_newBlocks
                · exact last_link newFile.links
            | none =>
                apply Triple.bind (addEntry_alloc place unused)
                intro de
                apply Triple.of_pre
                rintro _ ⟨ready, added, rfl⟩
                cases de with
                | none =>
                    apply (dropPlaceLast (fun node => { node with nlinks := node.nlinks - 1 })
                      (added.place place) _ _).after
                    · rintro _ t ⟨rfl, settled⟩
                      exact ((added.settled place.ok).trans settled).of_newBlocks
                    · rw [added.imap]
                      exact unused
                    · exact last_link newFile.links
                | some de =>
                    -- a directory exchanged for `dir` would have had an entry `..`
                    have here : dir' = dir := (same rfl).resolve_right (added.not_blank place.isDir)
                    have fresh : FileSys.Fresh { fs with newBlocks := answers } dir' n :=
                      ⟨unused, numbered, here ▸ onDev.symm⟩
                    apply (finishCreate (added.place place) (added.fresh fresh) added.free newFile).after
                    intro _ t settled
                    exact ((added.settled place.ok).trans settled).of_newBlocks

/-! ## sys_mkdir -/

theorem newDirInode (node : Inode) (mask mode : UInt16) {num up : Nat} (numbered : num ≠ 0)
    (upNumbered : up ≠ 0) :
    ({ node.asNewDir num up with mode := sIfdir ||| (mode &&& 0o777 &&& mask) } : Inode).NewDir
      num up := by
  have isDir := isType_permissions sIfdir mode mask (by decide)
  have own : ∀ i, ({ node.asNewDir num up with
      mode := sIfdir ||| (mode &&& 0o777 &&& mask) } : Inode).target i =
        if i = 0 then some num else if i = 1 then some up else none := by
    intro i
    have slots : 32 / dirEntrySize = 2 := rfl
    have firstBlock : 1 / dirEntriesPerBlock = 0 := rfl
    match i with
    | 0 =>
        rw [Inode.target, if_pos]
        · rfl
        · exact ⟨isDir, by simp [Inode.asNewDir, slots],
            by simp [Inode.asNewDir, Inode.withEntry, Inode.withBlock],
            by simpa [Inode.asNewDir, Inode.withEntry] using numbered⟩
    | 1 =>
        rw [Inode.target, if_pos]
        · rfl
        · exact ⟨isDir, by simp [Inode.asNewDir, slots],
            by simp [Inode.asNewDir, Inode.withEntry, Inode.withBlock, firstBlock],
            by simpa [Inode.asNewDir, Inode.withEntry] using upNumbered⟩
    | i + 2 =>
        rw [Inode.target, if_neg, if_neg (by omega), if_neg (by omega)]
        rintro ⟨_, inside, _⟩
        change i + 2 < 32 / dirEntrySize at inside
        omega
  constructor
  · rfl
  · constructor
    · exact (by decide : 32 % dirEntrySize = 0)
    · exact own 0
    · exact ⟨up, own 1⟩
    · simp [Inode.asNewDir, Inode.withEntry]
    · simp [Inode.asNewDir, Inode.withEntry]
  · exact own

/-- What `sys_mkdir` has done before it increments the link count of the directory. -/
def DirMade (fs : FileSys) (result : Except Errno (Ino × Ino)) (t : FileSys) : Prop :=
  match result with
  | .error _ => Settled fs t
  | .ok (dir, n) => ∃ (ready : FileSys) (slot : Nat) (node : Inode), ready.Place dir ∧ ready.Fresh dir n ∧
      ready.refs = fs.refs ∧ (ready.inode dir).nlinks = (fs.inode dir).nlinks ∧
      (ready.inode dir).FreeSlot slot ∧ node.NewDir n.num dir.num ∧
      t = ((ready.withEntry dir slot
        ⟨n.num, ((ready.inode dir).entry slot).name⟩).hold dir).alloc n node

theorem makeDir_spec (ok : fs.Ok) (runs : fs.Runs current) (pathname : List UInt8)
    (mode : UInt16) : Triple (· = fs) (makeDir current pathname mode) (DirMade fs) := by
  rw [makeDir]
  apply Triple.bind (placeOf_spec ok runs pathname _ _ _)
  intro entrance
  cases entrance with
  | error errno =>
      apply Triple.pure
      rintro _ rfl
      exact ok.settled
  | ok entrance =>
      rcases entrance with ⟨dir, basename⟩
      apply Triple.of_pre
      rintro _ ⟨rfl, place⟩
      apply Triple.bind (findEntry_spec ok.searchable place.kept place.isDir)
      rintro ⟨dir, slot⟩
      apply Triple.of_pre
      intro t found
      rw [found.state]
      have place := found.place ok
      cases slot with
      | some slot =>
          apply Triple.bind (iput_kept found.kept)
          intro _
          exact Triple.pure_at ok.settled
      | none =>
          apply Triple.bind newInode_spec
          intro inode
          cases inode with
          | none =>
              apply Triple.bind (iput_kept found.kept)
              intro _
              exact Triple.pure_at ok.settled
          | some n =>
              apply Triple.of_pre
              rintro _ ⟨unused, onDev, numbered, rfl⟩
              apply Triple.get_bind_at
              rw [FileSys.alloc_inode_self]
              apply Triple.bind setInode_spec
              intro _
              rw [FileSys.alloc_setInode_self]
              apply Triple.bind newBlock_alloc
              intro answer
              apply Triple.of_pre
              rintro _ ⟨answers, rfl⟩
              have place' := place.newBlocks answers
              have fresh : FileSys.Fresh { fs with newBlocks := answers } dir n :=
                ⟨unused, numbered, onDev.symm⟩
              apply Triple.ite
              · intro _
                apply (dropPlaceFirst (fun node => { node with nlinks := node.nlinks - 1 })
                  place' unused _).after
                · rintro _ t ⟨rfl, settled⟩
                  exact settled.of_newBlocks
                · exact last_link rfl
              · intro _
                apply Triple.get_bind_at
                rw [FileSys.alloc_inode_self]
                apply Triple.bind setInode_spec
                intro _
                rw [FileSys.alloc_setInode_self]
                apply Triple.bind (addEntry_alloc place' unused)
                intro de
                apply Triple.of_pre
                rintro _ ⟨ready, added, rfl⟩
                have readyFresh := added.fresh fresh
                cases de with
                | none =>
                    apply (dropPlaceFirst (fun node => { node with nlinks := 0 })
                      (added.place place') readyFresh.fresh rfl).after
                    rintro _ t ⟨rfl, settled⟩
                    exact ((added.settled place'.ok).trans settled).of_newBlocks
                | some de =>
                    have distinct := place'.ne_fresh unused
                    apply Triple.bind (setEntry_alloc distinct)
                    intro _
                    apply Triple.pure_at
                    exact ⟨ready, de, _, added.place place', readyFresh, added.refs, added.nlinks,
                      added.free, newDirInode _ _ mode numbered
                        (ok.tree.dirs.numbered dir place.kept.allocated), rfl⟩

/-- The directory that `sys_mkdir` is about to make an entry in has room for a link. -/
def MkdirHasRoom (fs : FileSys) (current : Task) (pathname : List UInt8) (mode : UInt16) :
    Prop :=
  ∀ dir inode t, (makeDir current pathname mode).run fs = some (.ok (dir, inode), t) →
    (fs.inode dir).nlinks ≠ 255

theorem sysMkdir_spec (ok : fs.Ok) (runs : fs.Runs current) {pathname : List UInt8}
    {mode : UInt16} (room : MkdirHasRoom fs current pathname mode) :
    Triple (· = fs) (sysMkdir current pathname mode) fun _ t => Settled fs t := by
  have made : Triple (· = fs) (makeDir current pathname mode) fun result t =>
      DirMade fs result t ∧ ∀ dir inode, result = .ok (dir, inode) →
        (fs.inode dir).nlinks ≠ 255 := by
    constructor
    rintro _ rfl result t ran
    refine ⟨(makeDir_spec ok runs pathname mode).returns _ rfl result t ran, ?_⟩
    rintro dir inode rfl
    exact room dir inode t ran
  rw [sysMkdir]
  apply Triple.bind made
  intro result
  apply Triple.of_pre
  rintro t ⟨made, room⟩
  cases result with
  | error errno => exact Triple.pure_at made
  | ok both =>
      rcases both with ⟨dir, n⟩
      rcases made with ⟨ready, slot, node, place, fresh, refs, nlinks, free, newDir, rfl⟩
      have notLast := room dir n rfl
      rw [← nlinks] at notLast
      have distinct := place.ne_fresh fresh.fresh
      have finished : (ready.withDir dir slot ((ready.inode dir).entry slot).name n node).Ok :=
        place.ok.mkdir fresh.fresh fresh.numbered newDir place.kept.allocated fresh.sameDev
          place.isDir free notLast
      apply Triple.get_bind_at
      apply Triple.bind setInode_spec
      intro _
      rw [FileSys.alloc_inode_of_ne distinct, FileSys.setInode_alloc distinct]
      have keptDir : (ready.withEntry dir slot ⟨n.num, ((ready.inode dir).entry slot).name⟩
          |>.setNlinks dir ((ready.inode dir).nlinks + 1)).Kept dir :=
        ⟨place.kept.allocated, .inr (by
          rw [FileSys.setNlinks_inode_self]
          exact succ_ne_zero notLast)⟩
      have keptNew : (ready.withDir dir slot ((ready.inode dir).entry slot).name n node).Kept n :=
        ⟨Finset.mem_insert_self _ _, .inr (by
          simp [FileSys.withDir, FileSys.allocate, newDir.links])⟩
      have state : ((ready.withEntry dir slot ⟨n.num, ((ready.inode dir).entry slot).name⟩).hold
          dir).setInode dir { (ready.withEntry dir slot
            ⟨n.num, ((ready.inode dir).entry slot).name⟩).inode dir with
              nlinks := ((ready.withEntry dir slot
                ⟨n.num, ((ready.inode dir).entry slot).name⟩).inode dir).nlinks + 1 } =
          (ready.withEntry dir slot ⟨n.num, ((ready.inode dir).entry slot).name⟩
            |>.setNlinks dir ((ready.inode dir).nlinks + 1)).hold dir := by
        rw [FileSys.withEntry_inode_self]
        rw [FileSys.setNlinks, FileSys.withEntry_inode_self]
        rfl
      rw [FileSys.hold_toTree, state]
      apply Triple.bind (iput_place keptDir fresh.fresh)
      intro _
      apply Triple.bind (iput_kept keptNew)
      intro _
      exact Triple.pure_at ⟨finished, refs⟩

/-! ## sys_link -/

/-- What `sys_link` has done before it increments the link count of the file. -/
def LinkMade (fs : FileSys) (result : Except Errno Ino) (t : FileSys) : Prop :=
  match result with
  | .error _ => Settled fs t
  | .ok n => ∃ (ready : FileSys) (dir : Ino) (slot : Nat), ready.Ok ∧
      n ∈ ready.imap ∧ (ready.inode n).isDir = false ∧ (ready.inode n) = (fs.inode n) ∧
      dir ∈ ready.imap ∧ (ready.inode dir).isDir = true ∧ dir.dev = n.dev ∧
      (ready.inode dir).FreeSlot slot ∧ ready.refs = fs.refs ∧
      t = (ready.withEntry dir slot ⟨n.num, ((ready.inode dir).entry slot).name⟩).hold n

theorem makeLink_spec (ok : fs.Ok) (runs : fs.Runs current) (oldname newname : List UInt8) :
    Triple (· = fs) (makeLink current oldname newname) (LinkMade fs) := by
  rw [makeLink]
  apply Triple.bind (namei_spec ok runs oldname)
  intro old
  cases old with
  | none =>
      apply Triple.pure
      rintro _ rfl
      exact ok.settled
  | some n =>
      apply Triple.of_pre
      rintro _ ⟨rfl, keptOld⟩
      apply Triple.get_bind_at
      apply Triple.ite
      · intro _
        apply Triple.bind (iput_kept keptOld)
        intro _
        exact Triple.pure_at ok.settled
      · intro notDir
        have file : (fs.inode n).isDir = false := by simpa using notDir
        have okHold := ok.hold keptOld.allocated
        apply Triple.bind (dirNamei_spec okHold runs.hold newname)
        intro place
        cases place with
        | none =>
            apply Triple.of_pre
            rintro _ rfl
            apply Triple.bind (iput_kept keptOld)
            intro _
            exact Triple.pure_at ok.settled
        | some place =>
            rcases place with ⟨dir, basename⟩
            apply Triple.of_pre
            rintro _ ⟨rfl, kept, isDir⟩
            apply Triple.ite
            · intro _
              apply Triple.bind (iput_kept_below keptOld)
              intro _
              apply Triple.bind (iput_kept (kept.of_hold (ne_of_isDir isDir file)))
              intro _
              exact Triple.pure_at ok.settled
            · intro _
              apply Triple.ite
              · intro _
                apply Triple.bind (iput_kept kept)
                intro _
                apply Triple.bind (iput_kept keptOld)
                intro _
                exact Triple.pure_at ok.settled
              · intro devs
                apply Triple.get_bind_at
                apply Triple.ite
                · intro _
                  apply Triple.bind (iput_kept kept)
                  intro _
                  apply Triple.bind (iput_kept keptOld)
                  intro _
                  exact Triple.pure_at ok.settled
                · intro _
                  apply Triple.bind (findEntry_spec okHold.searchable kept isDir)
                  rintro ⟨dir', slot⟩
                  apply Triple.of_pre
                  intro t found
                  rw [found.state]
                  cases slot with
                  | some slot =>
                      apply Triple.bind (iput_kept found.kept)
                      intro _
                      apply Triple.bind (iput_kept keptOld)
                      intro _
                      exact Triple.pure_at ok.settled
                  | none =>
                      apply Triple.bind (addEntry_held (found.place okHold))
                      intro de
                      apply Triple.of_pre
                      rintro _ ⟨ready, added, rfl⟩
                      have distinct := ne_of_isDir found.isDir file
                      have place : fs.Place dir' :=
                        ⟨ok, found.kept.of_hold distinct, found.isDir⟩
                      have sameOld := added.inode_of_ne distinct.symm
                      have readyOld : ready.Kept n := by
                        apply keptOld.mono
                        · rw [added.imap]
                          exact id
                        · rw [added.refs]
                          exact id
                        · rw [sameOld]
                          exact id
                      cases de with
                      | none =>
                          apply Triple.bind (iput_kept (added.kept place.kept).hold)
                          intro _
                          apply Triple.bind (iput_kept readyOld)
                          intro _
                          exact Triple.pure_at (added.settled ok)
                      | some de =>
                          have here : dir' = dir :=
                            (found.same rfl).resolve_right (added.not_blank found.isDir)
                          have ready' := added.place place
                          apply Triple.bind setEntry_spec
                          intro _
                          apply Triple.bind (iput_kept (ready'.kept.withEntry).hold)
                          intro _
                          apply Triple.pure_at
                          exact ⟨ready, dir', de, ready'.ok, readyOld.allocated,
                            sameOld ▸ file, sameOld, ready'.kept.allocated, ready'.isDir,
                            here ▸ not_not.mp devs, added.free, added.refs, rfl⟩

/-- The file that `sys_link` is about to give a name has room for a link. -/
def LinkHasRoom (fs : FileSys) (current : Task) (oldname newname : List UInt8) : Prop :=
  ∀ n t, (makeLink current oldname newname).run fs = some (.ok n, t) →
    (fs.inode n).nlinks ≠ 255

theorem sysLink_spec (ok : fs.Ok) (runs : fs.Runs current) {oldname newname : List UInt8}
    (room : LinkHasRoom fs current oldname newname) :
    Triple (· = fs) (sysLink current oldname newname) fun _ t => Settled fs t := by
  have made : Triple (· = fs) (makeLink current oldname newname) fun result t =>
      LinkMade fs result t ∧ ∀ n, result = .ok n → (fs.inode n).nlinks ≠ 255 := by
    constructor
    rintro _ rfl result t ran
    refine ⟨(makeLink_spec ok runs oldname newname).returns _ rfl result t ran, ?_⟩
    rintro n rfl
    exact room n t ran
  rw [sysLink]
  apply Triple.bind made
  intro result
  apply Triple.of_pre
  rintro t ⟨made, room⟩
  cases result with
  | error errno => exact Triple.pure_at made
  | ok n =>
      rcases made with ⟨ready, dir, slot, readyOk, member, file, same, place, isDir, sameDev,
        free, refs, rfl⟩
      have notLast := room n rfl
      rw [← same] at notLast
      have distinct := ne_of_isDir isDir file
      have finished := readyOk.link ((ready.inode dir).entry slot).name file isDir
        member place sameDev free notLast
      have kept : (ready.withEntry dir slot ⟨n.num, ((ready.inode dir).entry slot).name⟩
          |>.setNlinks n ((ready.inode n).nlinks + 1)).Kept n :=
        ⟨member, .inr (by
          rw [FileSys.setNlinks_inode_self]
          exact succ_ne_zero notLast)⟩
      apply Triple.get_bind_at
      apply Triple.bind setInode_spec
      intro _
      have state : ((ready.withEntry dir slot ⟨n.num, ((ready.inode dir).entry slot).name⟩).hold
          n).setInode n { (ready.withEntry dir slot
            ⟨n.num, ((ready.inode dir).entry slot).name⟩).inode n with
              nlinks := ((ready.withEntry dir slot
                ⟨n.num, ((ready.inode dir).entry slot).name⟩).inode n).nlinks + 1 } =
          (ready.withEntry dir slot ⟨n.num, ((ready.inode dir).entry slot).name⟩
            |>.setNlinks n ((ready.inode n).nlinks + 1)).hold n := by
        rw [FileSys.setNlinks, FileSys.withEntry_inode_of_ne distinct.symm]
        rfl
      rw [FileSys.hold_toTree, state]
      apply Triple.bind (iput_kept kept)
      intro _
      exact Triple.pure_at ⟨finished, refs⟩

end Linux012.Fs
