import Linux012.Fs.InodeSpec

/-!
# What a lookup does to a good file system

A lookup changes nothing but references: it gives back those that it takes on its way,
and the one that it returns is to an inode that stays when it is dropped.
-/

namespace Linux012.Fs

open Lib (Triple)

variable {fs : FileSys} {n dir inode : Ino} {current : Task}

/-- The kernel holds the directories that the current task starts its lookups from. -/
structure FileSys.Runs (fs : FileSys) (current : Task) : Prop where
  pwd : current.pwd ∈ fs.refs
  root : current.root ∈ fs.refs

theorem FileSys.Runs.hold (runs : fs.Runs current) : (fs.hold n).Runs current :=
  ⟨Multiset.mem_cons_of_mem runs.pwd, Multiset.mem_cons_of_mem runs.root⟩

/-- The result of a lookup: nothing, or an inode with one more reference. -/
def Looked (fs : FileSys) (result : Option Ino) (t : FileSys) : Prop :=
  match result with
  | none => t = fs
  | some n => t = fs.hold n ∧ fs.Kept n

theorem Inode.target_of_findSlot {node : Inode} {name : Name} {slot : Nat}
    (isDir : node.isDir = true) (found : node.findSlot name = some slot) :
    node.target slot = some (node.entry slot).inode := by
  rw [Inode.findSlot] at found
  split at found
  next =>
    have bound := List.mem_of_find?_eq_some found
    have fits := List.find?_some found
    simp only [List.mem_range] at bound
    simp only [matchName, Bool.and_eq_true, bne_iff_ne, ne_eq] at fits
    rw [Inode.target, if_pos ⟨isDir, bound, fits.1, fits.2.1⟩]
  next => cases found

/-- What the search of a directory depends on: where file systems are mounted, and the
shape of directories. -/
structure FileSys.Searchable (fs : FileSys) : Prop where
  mounted : ∀ sb ∈ fs.superBlock, ∀ m, sb.sImount = some m →
    fs.Kept m ∧ (fs.inode m).isDir = true
  shape : ∀ dir ∈ fs.imap, (fs.inode dir).isDir = true →
    (fs.inode dir).Blank ∨ (fs.inode dir).Proper dir.num

theorem FileSys.Ok.searchable (ok : fs.Ok) : fs.Searchable where
  mounted sb there m on :=
    ⟨ok.kept_of_mem (ok.mounted sb there m on).1, (ok.mounted sb there m on).2⟩
  shape := ok.tree.dirs.shape

/-- The directory itself, or one that a file system is mounted on. -/
def FileSys.Origin (fs : FileSys) (dir dir' : Ino) : Prop :=
  dir' = dir ∨ ∃ sb ∈ fs.superBlock, sb.sImount = some dir'

theorem crossMount_spec (search : fs.Searchable) (kept : fs.Kept dir)
    (isDir : (fs.inode dir).isDir = true) :
    Triple (· = fs.hold dir) (crossMount dir) fun dir' t =>
      t = fs.hold dir' ∧ fs.Kept dir' ∧ (fs.inode dir').isDir = true ∧ fs.Origin dir dir' := by
  rw [crossMount]
  apply Triple.ite
  · intro _
    exact Triple.pure_at ⟨rfl, kept, isDir, .inl rfl⟩
  · intro _
    apply Triple.get_bind_at
    split
    next sb super =>
      split
      next mounted on =>
        have there : sb ∈ fs.superBlock := by
          rw [FileSys.getSuper] at super
          split at super
          · cases super
          · exact List.mem_of_find?_eq_some super
        have mount := search.mounted sb there mounted on
        apply Triple.bind (iput_kept kept)
        intro _
        apply Triple.bind hold_spec
        intro _
        exact Triple.pure_at ⟨rfl, mount.1, mount.2, .inr ⟨sb, there, on⟩⟩
      next => exact Triple.pure_at ⟨rfl, kept, isDir, .inl rfl⟩
    next => exact Triple.failure

/-- What `find_entry` returns: a directory that stays, and perhaps a live entry in it.
A directory that it exchanges has no entry `..` only if it is blank. -/
structure Found (fs : FileSys) (dir : Ino) (result : Ino × Option Nat) (t : FileSys) :
    Prop where
  state : t = fs.hold result.1
  kept : fs.Kept result.1
  isDir : (fs.inode result.1).isDir = true
  live : ∀ slot, result.2 = some slot →
    fs.Names result.1 slot ⟨result.1.dev, ((fs.inode result.1).entry slot).inode⟩
  origin : fs.Origin dir result.1
  same : result.2 = none → result.1 = dir ∨ (fs.inode result.1).Blank

theorem findSlot_found {name : Name} {dir' : Ino} (kept : fs.Kept dir')
    (isDir : (fs.inode dir').isDir = true) (origin : fs.Origin dir dir')
    (same : (fs.inode dir').findSlot name = none → dir' = dir ∨ (fs.inode dir').Blank) :
    Found fs dir (dir', (fs.inode dir').findSlot name) (fs.hold dir') where
  state := rfl
  kept := kept
  isDir := isDir
  live _ found := ⟨kept.allocated, rfl, Inode.target_of_findSlot isDir found⟩
  origin := origin
  same := same

/-- Every directory with entries has one named `..`. -/
theorem Inode.Proper.findSlot_dotdot {node : Inode} {num : Nat} (proper : node.Proper num) :
    node.findSlot [Fs.dot, Fs.dot] ≠ none := by
  rcases proper.dotdot with ⟨up, live⟩
  have inside := Inode.lt_of_target live
  rw [Inode.target] at live
  split at live
  next holds =>
    intro missing
    have zone : node.zone (1 / dirEntriesPerBlock) = true := holds.2.2.1
    rw [Inode.findSlot, if_pos (show node.zone 0 = true from zone),
      List.find?_eq_none] at missing
    have passed := missing 1 (List.mem_range.mpr inside)
    simp [matchName, proper.dotdotName, zone, holds.2.2.2] at passed
  next => cases live

theorem findEntry_spec {name : Name} (search : fs.Searchable) (kept : fs.Kept dir)
    (isDir : (fs.inode dir).isDir = true) :
    Triple (· = fs.hold dir) (findEntry current dir name) (Found fs dir) := by
  rw [findEntry]
  apply Triple.ite
  · intro dotdot
    apply Triple.ite
    · intro _
      apply Triple.get_bind_at
      exact Triple.pure_at (findSlot_found kept isDir (.inl rfl) fun _ => .inl rfl)
    · intro _
      apply Triple.bind (crossMount_spec search kept isDir)
      intro dir'
      apply Triple.get_bind
      rintro _ ⟨rfl, kept', isDir', origin⟩
      apply Triple.pure_at
      apply findSlot_found kept' isDir' origin
      intro missing
      rcases search.shape dir' kept'.allocated isDir' with blank | proper
      · exact .inr blank
      · rw [dotdot] at missing
        exact absurd missing proper.findSlot_dotdot
  · intro _
    apply Triple.get_bind_at
    exact Triple.pure_at (findSlot_found kept isDir (.inl rfl) fun _ => .inl rfl)

/-- What the lookup of a path needs of the way links are followed. -/
def FollowsLinks (fs : FileSys) (followLink : Ino → Ino → FsM (Option Ino)) : Prop :=
  ∀ dir inode, fs.Kept dir → fs.Kept inode →
    Triple (· = (fs.hold dir).hold inode) (followLink dir inode) (Looked fs)

theorem iput_kept_below (kept : fs.Kept dir) :
    Triple (· = (fs.hold dir).hold inode) (iput dir) fun _ t => t = fs.hold inode := by
  rw [FileSys.hold_comm]
  exact iput_kept kept.hold

theorem followLinkInKernel_spec : FollowsLinks fs followLinkInKernel := by
  intro dir inode keptDir keptInode
  rw [followLinkInKernel]
  apply Triple.get_bind_at
  apply Triple.bind (iput_kept_below keptDir)
  intro _
  apply Triple.ite
  · intro _
    exact Triple.pure_at ⟨rfl, keptInode⟩
  · intro _
    apply Triple.bind (iput_kept keptInode)
    intro _
    exact Triple.pure_at rfl

/-- `get_dir` returns a directory. -/
def LookedDir (fs : FileSys) (result : Option Ino) (t : FileSys) : Prop :=
  match result with
  | none => t = fs
  | some n => t = fs.hold n ∧ fs.Kept n ∧ (fs.inode n).isDir = true

theorem walk_spec {followLink : Ino → Ino → FsM (Option Ino)} (ok : fs.Ok)
    (follows : FollowsLinks fs followLink) (components : List Name) (kept : fs.Kept inode) :
    Triple (· = fs.hold inode) (walk current followLink components inode) (LookedDir fs) := by
  induction components generalizing inode with
  | nil =>
      rw [walk]
      apply Triple.get_bind_at
      apply Triple.ite
      · intro _
        apply Triple.bind (iput_kept kept)
        intro _
        exact Triple.pure_at rfl
      · intro searchable
        simp only [FileSys.hold_toTree, Bool.or_eq_true, Bool.not_eq_true', not_or,
          Bool.not_eq_false] at searchable
        exact Triple.pure_at ⟨rfl, kept, searchable.1⟩
  | cons thisname rest ih =>
      rw [walk]
      apply Triple.get_bind_at
      apply Triple.ite
      · intro _
        apply Triple.bind (iput_kept kept)
        intro _
        exact Triple.pure_at rfl
      · intro searchable
        simp only [FileSys.hold_toTree, Bool.or_eq_true, Bool.not_eq_true', not_or,
          Bool.not_eq_false] at searchable
        apply Triple.bind (findEntry_spec ok.searchable kept searchable.1)
        rintro ⟨dir, slot⟩
        apply Triple.of_pre
        intro t found
        rw [found.state]
        cases slot with
        | none =>
            apply Triple.bind (iput_kept found.kept)
            intro _
            exact Triple.pure_at rfl
        | some slot =>
            apply Triple.get_bind_at
            apply Triple.bind (iget_spec (ok.hold found.kept.allocated) (found.live slot rfl))
            intro child
            apply Triple.of_pre
            rintro _ ⟨rfl, named, _⟩
            apply Triple.bind (follows dir child found.kept (ok.kept_of_named named))
            intro next
            cases next with
            | none => exact Triple.pure fun _ => id
            | some next =>
                apply Triple.of_pre
                rintro _ ⟨rfl, keptNext⟩
                exact ih keptNext

theorem getDir_spec {followLink : Ino → Ino → FsM (Option Ino)} (ok : fs.Ok)
    (runs : fs.Runs current) (follows : FollowsLinks fs followLink) (pathname : List UInt8)
    (base : Option Ino) (baseKept : ∀ inode, base = some inode → fs.Kept inode) :
    Triple (· = base.elim fs fs.hold) (getDir current followLink pathname base)
      (LookedDir fs) := by
  rw [getDir]
  apply Triple.through (fun inode t => t = fs.hold inode ∧ fs.Kept inode)
  · cases base with
    | none =>
        apply Triple.bind hold_spec
        intro _
        exact Triple.pure_at ⟨rfl, ok.kept_of_mem runs.pwd⟩
    | some inode => exact Triple.pure_at ⟨rfl, baseKept inode rfl⟩
  · intro inode
    apply Triple.of_pre
    rintro _ ⟨rfl, kept⟩
    apply Triple.ite
    · intro _
      apply Triple.bind (iput_kept kept)
      intro _
      apply Triple.bind hold_spec
      intro _
      exact walk_spec ok follows _ (ok.kept_of_mem runs.root)
    · intro _
      exact walk_spec ok follows _ kept

/-- `dir_namei` returns a directory and a name in it. -/
def LookedPlace (fs : FileSys) (result : Option (Ino × Name)) (t : FileSys) : Prop :=
  LookedDir fs (result.map Prod.fst) t

theorem dirNameiFrom_spec {followLink : Ino → Ino → FsM (Option Ino)} (ok : fs.Ok)
    (runs : fs.Runs current) (follows : FollowsLinks fs followLink) (pathname : List UInt8)
    (base : Option Ino) (baseKept : ∀ inode, base = some inode → fs.Kept inode) :
    Triple (· = base.elim fs fs.hold) (dirNameiFrom current followLink pathname base)
      (LookedPlace fs) := by
  rw [dirNameiFrom]
  apply Triple.bind (getDir_spec ok runs follows pathname base baseKept)
  intro dir
  cases dir with
  | none => exact Triple.pure fun _ => id
  | some dir => exact Triple.pure fun _ => id

theorem nameiFrom_spec {followLink : Ino → Ino → FsM (Option Ino)} (ok : fs.Ok)
    (runs : fs.Runs current) (follows : FollowsLinks fs followLink) (pathname : List UInt8)
    (base : Option Ino) (baseKept : ∀ inode, base = some inode → fs.Kept inode)
    (followLinks : Bool) :
    Triple (· = base.elim fs fs.hold)
      (nameiFrom current followLink pathname base followLinks) (Looked fs) := by
  rw [nameiFrom]
  apply Triple.bind (dirNameiFrom_spec ok runs follows pathname base baseKept)
  intro place
  cases place with
  | none => exact Triple.pure fun _ => id
  | some place =>
      rcases place with ⟨dir, basename⟩
      apply Triple.of_pre
      rintro _ ⟨rfl, kept, isDir⟩
      apply Triple.ite
      · intro _
        exact Triple.pure_at ⟨rfl, kept⟩
      · intro _
        apply Triple.bind (findEntry_spec ok.searchable kept isDir)
        rintro ⟨dir', slot⟩
        apply Triple.of_pre
        intro t found
        rw [found.state]
        cases slot with
        | none =>
            apply Triple.bind (iput_kept found.kept)
            intro _
            exact Triple.pure_at rfl
        | some slot =>
            apply Triple.get_bind_at
            apply Triple.bind (iget_spec (ok.hold found.kept.allocated) (found.live slot rfl))
            intro inode
            apply Triple.of_pre
            rintro _ ⟨rfl, named, _⟩
            have keptInode := ok.kept_of_named named
            apply Triple.ite
            · intro _
              exact follows dir' inode found.kept keptInode
            · intro _
              apply Triple.bind (iput_kept_below found.kept)
              intro _
              exact Triple.pure_at ⟨rfl, keptInode⟩

theorem followLink_spec (ok : fs.Ok) (runs : fs.Runs current) :
    FollowsLinks fs (followLink current) := by
  intro dir inode keptDir keptInode
  rw [followLink]
  apply Triple.get_bind_at
  apply Triple.ite
  · intro _
    apply Triple.bind (iput_kept_below keptDir)
    intro _
    exact Triple.pure_at ⟨rfl, keptInode⟩
  · intro _
    apply Triple.ite
    · intro _
      apply Triple.bind (iput_kept_below keptDir)
      intro _
      apply Triple.bind (iput_kept keptInode)
      intro _
      exact Triple.pure_at rfl
    · intro _
      apply Triple.bind (iput_kept keptInode.hold)
      intro _
      exact nameiFrom_spec ok runs followLinkInKernel_spec _ (some dir)
        (fun _ same => Option.some.inj same ▸ keptDir) false

theorem dirNamei_spec (ok : fs.Ok) (runs : fs.Runs current) (pathname : List UInt8) :
    Triple (· = fs) (dirNamei current pathname) (LookedPlace fs) :=
  dirNameiFrom_spec ok runs (followLink_spec ok runs) pathname none
    (fun _ impossible => by cases impossible)

theorem namei_spec (ok : fs.Ok) (runs : fs.Runs current) (pathname : List UInt8) :
    Triple (· = fs) (namei current pathname) (Looked fs) :=
  nameiFrom_spec ok runs (followLink_spec ok runs) pathname none
    (fun _ impossible => by cases impossible) true

end Linux012.Fs
