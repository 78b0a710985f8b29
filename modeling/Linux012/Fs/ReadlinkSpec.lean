import Linux012.Fs.PathBalance
import Linux012.Fs.Readlink

/-!
# What readlink reveals

`sys_readlink` does not look at the type of the inode: for whatever the path names it returns the
text in the block that the first zone pointer leads to.  Hence it reveals a block of a file that
the caller must not read, if the path names the file, or a device with the number of the block.
-/

namespace Linux012.Fs

open Lib (Agree Ledger)

namespace Disks

variable {d d' : Disks} {current : Task} {dev nr block : Nat} {n : Ino}

/-! ## Blocks of files that the caller must not read -/

/-- The zone pointers of the inode lead to blocks. -/
def HasBlocks (d : Disks) (n : Ino) : Prop :=
  (d.node n).isReg = true ∨ (d.node n).isDir = true ∨ (d.node n).isLnk = true

/-- The block belongs to regular files, to nothing else, and to none that may be read. -/
structure Hidden (d : Disks) (current : Task) (dev nr : Nat) : Prop where
  content : ∃ n block, n.dev = dev ∧ (d.node n).isReg = true ∧ d.bmap n block = nr
  unreadable : ∀ n block, n.dev = dev → d.HasBlocks n → nr ∈ d.route n block →
    (d.node n).isReg = true ∧ permission current n (d.node n) mayRead = false

/-- The disks differ in the contents of hidden blocks only. -/
structure DiffersHidden (current : Task) (d d' : Disks) : Prop where
  imap : d.imap = d'.imap
  inode : d.inode = d'.inode
  refs : d.refs = d'.refs
  superBlock : d.superBlock = d'.superBlock
  iMount : d.iMount = d'.iMount
  readable : ∀ dev nr, (d.block dev nr).isSome = (d'.block dev nr).isSome
  block : ∀ dev nr, ¬d.Hidden current dev nr → d.block dev nr = d'.block dev nr

/-- Directories and links are no regular files. -/
theorem not_isReg {node : Inode} (other : node.isDir = true ∨ node.isLnk = true) :
    ¬node.isReg = true := by
  simp only [Inode.isReg, Inode.isDir, Inode.isLnk, isType, beq_iff_eq] at other ⊢
  rintro same
  rw [same] at other
  revert other
  decide

theorem entryOf_congr {j : Nat} (same : d.block dev nr = d'.block dev nr) :
    d.entryOf dev nr j = d'.entryOf dev nr j := by
  rw [entryOf, entryOf, word, word, same]

theorem bmap_mem_route (mapped : d.bmap n block ≠ 0) : d.bmap n block ∈ d.route n block := by
  rw [bmap] at mapped ⊢
  cases last : (d.route n block).getLast? with
  | none => rw [last] at mapped; exact absurd rfl mapped
  | some nr => exact List.mem_of_getLast? last

namespace DiffersHidden

/-- What a directory or a link leads to is the same. -/
theorem block_of_route (differs : DiffersHidden current d d')
    (other : (d.node n).isDir = true ∨ (d.node n).isLnk = true) (reached : nr ∈ d.route n block) :
    d.block n.dev nr = d'.block n.dev nr :=
  differs.block n.dev nr fun hidden =>
    not_isReg other (hidden.unreadable n block rfl (.inr other) reached).1

theorem route_eq (differs : DiffersHidden current d d')
    (other : (d.node n).isDir = true ∨ (d.node n).isLnk = true) :
    d.route n block = d'.route n block := by
  have same (nr : Nat) := @block_of_route d d' current nr block n differs other
  revert same
  rw [route, route, ← differs.inode]
  dsimp only
  split
  · exact fun _ => rfl
  split
  · intro same
    rw [entryOf_congr (same _ List.mem_cons_self)]
  split
  · exact fun _ => rfl
  · intro same
    rw [← entryOf_congr (same _ List.mem_cons_self),
      ← entryOf_congr (same _ (List.mem_cons_of_mem _ List.mem_cons_self))]

theorem fileBlock_eq (differs : DiffersHidden current d d')
    (other : (d.node n).isDir = true ∨ (d.node n).isLnk = true) :
    d.fileBlock n block = d'.fileBlock n block := by
  have sameBlock : d.bmap n block = d'.bmap n block := by
    rw [bmap, bmap, differs.route_eq other]
  rw [fileBlock, fileBlock, ← sameBlock]
  split
  · rfl
  next mapped => exact differs.block_of_route other (bmap_mem_route mapped)

theorem byte_eq (differs : DiffersHidden current d d')
    (other : (d.node n).isDir = true ∨ (d.node n).isLnk = true) : d.byte n = d'.byte n := by
  funext i
  rw [byte, byte, differs.fileBlock_eq other]

theorem first_eq (differs : DiffersHidden current d d') :
    (d.fileBlock n 0).isSome = (d'.fileBlock n 0).isSome := by
  have sameZone : d.bmap n 0 = d'.bmap n 0 := by
    simp [bmap, route, differs.inode]
  rw [fileBlock, fileBlock, ← sameZone]
  split
  · rfl
  · exact differs.readable _ _

theorem like (differs : DiffersHidden current d d') : d.fileSys.Like d'.fileSys where
  imap := differs.imap
  refs := differs.refs
  superBlock := differs.superBlock
  iMount := differs.iMount
  inode n :=
    { mode := congrArg (fun inode => (inode n).mode) differs.inode
      uid := congrArg (fun inode => (inode n).uid) differs.inode
      gid := congrArg (fun inode => (inode n).gid) differs.inode
      nlinks := congrArg (fun inode => (inode n).nlinks) differs.inode
      first := differs.first_eq
      size := fun _ => congrArg (fun inode => (inode n).size) differs.inode
      zone := fun isDir => funext fun _ => congrArg Option.isSome (differs.fileBlock_eq (.inl isDir))
      entry := fun isDir => funext fun slot => by
        change d.dirEntry n slot = d'.dirEntry n slot
        rw [dirEntry, dirEntry, differs.byte_eq (.inl isDir)]
      bytes := fun isLnk => differs.byte_eq (.inr isLnk) }

end DiffersHidden

/-! ## The text of a link -/

/-- What `sys_symlink` has stored stays. -/
theorem storeName_below {i j : Nat} {oldname : List UInt8} {data : Nat → UInt8} (below : j < i) :
    storeName i oldname data j = data j := by
  induction oldname generalizing i data with
  | nil => exact Function.update_of_ne (Nat.ne_of_lt below) ..
  | cons c oldname ih =>
      rw [storeName]
      split
      · rw [ih (Nat.lt_succ_of_lt below), Function.update_of_ne (Nat.ne_of_lt below)]
      · exact Function.update_of_ne (Nat.ne_of_lt below) ..

/-- `sys_readlink` copies what `sys_symlink` has stored. -/
theorem copyText_storeName {left i : Nat} {oldname : List UInt8} {data : Nat → UInt8}
    (fits : i + left ≤ 1023) :
    copyText (storeName i oldname data) left i = (oldname.takeWhile (· ≠ 0)).take left := by
  induction left generalizing i oldname data with
  | zero => rfl
  | succ left ih =>
      rw [copyText]
      cases oldname with
      | nil => simp [storeName]
      | cons c oldname =>
          rw [storeName]
          by_cases ends : c = 0
          · simp [ends]
          · have stored : storeName (i + 1) oldname (Function.update data i c) i = c := by
              rw [storeName_below (Nat.lt_succ_self i), Function.update_self]
            have room : i < 1023 ∧ c ≠ 0 := ⟨by omega, ends⟩
            rw [if_pos room, stored, if_neg ends, ih (by omega)]
            simp [ends]

/-! ## What a call returns -/

section Runs

variable {mounts links : Nat} {path : List UInt8} {bufsiz : Int} {fs fs' : FileSys}

/-- The path walk of the call. -/
abbrev walked (d : Disks) (current : Task) (mounts links : Nat) (path : List UInt8) :
    Except PathWalk.Stop (Option Ino × FileSys) :=
  (PathWalk.lnamei current mounts links PathWalk.userSegment path).run d.fileSys

/-- The call, once the block of the inode has been read. -/
def reply (bh : Option (Nat → UInt8)) (bufsiz : Int) : Int × List UInt8 :=
  match bh with
  | none => (0, [])
  | some data =>
      ((copyText data (min bufsiz 1023).toNat 0).length, copyText data (min bufsiz 1023).toNat 0)

theorem sysReadlink_error {stop : PathWalk.Stop} (positive : 0 < bufsiz)
    (ran : d.walked current mounts links path = .error stop) :
    d.sysReadlink current mounts links path bufsiz = .error stop := by
  simp only [sysReadlink, if_neg (not_le_of_gt positive), ran]
  rfl

theorem sysReadlink_none (positive : 0 < bufsiz)
    (ran : d.walked current mounts links path = .ok (none, fs)) :
    d.sysReadlink current mounts links path bufsiz = .ok (-2, []) := by
  simp only [sysReadlink, if_neg (not_le_of_gt positive), ran]
  rfl

theorem sysReadlink_some (positive : 0 < bufsiz)
    (ran : d.walked current mounts links path = .ok (some n, fs)) :
    d.sysReadlink current mounts links path bufsiz =
      ((PathWalk.iput n).run fs).map fun _ =>
        reply (if (fs.inode n).zone 0 then d.block n.dev ((d.inode n).zone 0).toNat else none)
          bufsiz := by
  simp only [sysReadlink, if_neg (not_le_of_gt positive), ran]
  change ((PathWalk.iput n).run fs).bind _ = _
  dsimp only
  generalize (if (fs.inode n).zone 0 then d.block n.dev ((d.inode n).zone 0).toNat else none) = bh
  cases (PathWalk.iput n).run fs with
  | error stop => rfl
  | ok left =>
      cases bh with
      | none => rfl
      | some data => rfl

/-- File systems are mounted on directories, and none on the root of another one: `sys_mount`
refuses the rest. -/
structure MountsOk (d : Disks) : Prop where
  onDirs : ∀ sb ∈ d.superBlock, ∀ n ∈ sb.sImount, (d.node n).isDir = true
  rootsFree : PathWalk.RootsFree d.fileSys

/-- The call cannot tell disks that differ in hidden blocks, and it returns the first
`min(bufsiz,1023)` bytes of what `sys_symlink` has stored as the target of a link. -/
structure RevealsTargets (d : Disks) (current : Task) (mounts links : Nat) (path : List UInt8)
    (bufsiz : Int) : Prop where
  alike : ∀ d', DiffersHidden current d d' →
    d'.sysReadlink current mounts links path bufsiz =
      d.sysReadlink current mounts links path bufsiz
  target : ∀ n fs oldname data, 0 < bufsiz →
    d.walked current mounts links path = .ok (some n, fs) → (d.node n).isLnk = true →
    (d.node n).nlinks ≠ 0 → (d.inode n).zone 0 ≠ 0 →
    d.block n.dev ((d.inode n).zone 0).toNat = some (storeName 0 oldname data) →
    let text := (oldname.takeWhile (· ≠ 0)).take (min bufsiz 1023).toNat
    d.sysReadlink current mounts links path bufsiz = .ok (text.length, text)

/-- The path names an inode, and its first zone pointer is the number of a hidden block. -/
def Exposes (d : Disks) (current : Task) (mounts links : Nat) (path : List UInt8)
    (bufsiz : Int) : Prop :=
  0 < bufsiz ∧ ∃ n fs, d.walked current mounts links path = .ok (some n, fs) ∧
    (fs.inode n).zone 0 = true ∧ (∃ left, (PathWalk.iput n).run fs = .ok left) ∧
      d.Hidden current n.dev ((d.inode n).zone 0).toNat

theorem MountsOk.walking (ok : d.MountsOk) (like : d.fileSys.Like d'.fileSys) :
    PathWalk.Walking d.fileSys d.fileSys d'.fileSys where
  like := like
  superBlock := rfl
  mounted := ok.onDirs
  kept _ _ := rfl
  first _ := id

/-- Both walks stop, or end at one inode. -/
theorem MountsOk.walked_run (ok : d.MountsOk) (like : d.fileSys.Like d'.fileSys) :
    (∃ stop, d.walked current mounts links path = .error stop ∧
      d'.walked current mounts links path = .error stop) ∨
    ∃ result fs fs', d.walked current mounts links path = .ok (result, fs) ∧
      d'.walked current mounts links path = .ok (result, fs') ∧
        PathWalk.Walking d.fileSys fs fs' :=
  PathWalk.agree_lnamei.run (ok.walking like)

theorem alike_of_not_exposes (ok : d.MountsOk) (positive : 0 < bufsiz)
    (safe : ¬d.Exposes current mounts links path bufsiz)
    (differs : DiffersHidden current d d') :
    d'.sysReadlink current mounts links path bufsiz =
      d.sysReadlink current mounts links path bufsiz := by
  rcases @MountsOk.walked_run d d' current mounts links path ok differs.like with
    ⟨stop, ran, ran'⟩ | ⟨result, fs, fs', ran, ran', walking⟩
  · rw [sysReadlink_error positive ran, sysReadlink_error positive ran']
  cases result with
  | none => rw [sysReadlink_none positive ran, sysReadlink_none positive ran']
  | some n =>
      rw [sysReadlink_some positive ran, sysReadlink_some positive ran',
        ← (walking.like.inode n).first, ← differs.inode]
      rcases PathWalk.agree_iput.run walking with ⟨stop, put, put'⟩ | ⟨_, left, left', put, put', -⟩
      · rw [put, put']
        rfl
      · rw [put, put']
        cases mapped : (fs.inode n).zone 0 with
        | false => rfl
        | true =>
            have notHidden : ¬d.Hidden current n.dev ((d.inode n).zone 0).toNat := fun hidden =>
              safe ⟨positive, n, fs, ran, mapped, ⟨_, put⟩, hidden⟩
            rw [differs.block _ _ notHidden]
            rfl

/-- A walk leaves an inode with links as it is, and the reference to it can be dropped. -/
theorem MountsOk.walked_linked (ok : d.MountsOk) (oneMount : 1 ≤ mounts) (oneLink : 1 ≤ links)
    (ran : d.walked current mounts links path = .ok (some n, fs))
    (linked : (d.node n).nlinks ≠ 0) :
    fs.inode n = d.node n ∧ ∃ left, (PathWalk.iput n).run fs = .ok left := by
  have kept : fs.inode n = d.node n := by
    rcases @MountsOk.walked_run d d current mounts links path ok (.refl _) with
      ⟨stop, stopped, -⟩ | ⟨result, t, t', ran', -, walking⟩
    · rw [stopped] at ran
      cases ran
    · rw [ran'] at ran
      cases ran
      exact walking.kept n linked
  have balanced : (PathWalk.references false).Balanced 0
      (PathWalk.lnamei current mounts links PathWalk.userSegment path) PathWalk.refsOf :=
    PathWalk.balanced_namei_noFollow oneMount
      (PathWalk.balanced_followLink current oneMount fun _ => oneLink) path none
  have held := balanced d.fileSys d.refs ok.rootsFree (zero_add d.refs).symm
  have ran' : (PathWalk.lnamei current mounts links PathWalk.userSegment path).run d.fileSys =
      .ok (some n, fs) := ran
  rw [ran'] at held
  have referred : fs.iCount n ≠ 0 := by
    have isHeld : fs.refs = {n} + d.refs := held.2
    rw [FileSys.iCount, isHeld, Multiset.count_add, Multiset.count_singleton_self]
    omega
  have stays : (fs.inode n).nlinks ≠ 0 := by rwa [kept]
  exact ⟨kept, _, PathWalk.iput_of_linked referred stays⟩

theorem target_of_mountsOk (ok : d.MountsOk) (oneMount : 1 ≤ mounts) (oneLink : 1 ≤ links)
    {oldname : List UInt8} {data : Nat → UInt8} (positive : 0 < bufsiz)
    (ran : d.walked current mounts links path = .ok (some n, fs))
    (linked : (d.node n).nlinks ≠ 0) (mapped : (d.inode n).zone 0 ≠ 0)
    (stored : d.block n.dev ((d.inode n).zone 0).toNat = some (storeName 0 oldname data)) :
    d.sysReadlink current mounts links path bufsiz =
      .ok (((oldname.takeWhile (· ≠ 0)).take (min bufsiz 1023).toNat).length,
        (oldname.takeWhile (· ≠ 0)).take (min bufsiz 1023).toNat) := by
  obtain ⟨same, left, put⟩ := ok.walked_linked oneMount oneLink ran linked
  have first : (fs.inode n).zone 0 = true := by
    have isFirst : d.bmap n 0 = ((d.inode n).zone 0).toNat := rfl
    have notNull : ((d.inode n).zone 0).toNat ≠ 0 := fun zero =>
      mapped (UInt16.toNat_inj.mp zero)
    rw [same]
    change (d.fileBlock n 0).isSome = true
    rw [fileBlock, isFirst, if_neg notNull, stored]
    rfl
  rw [sysReadlink_some positive ran, put, if_pos first, stored]
  have fits : 0 + (min bufsiz 1023).toNat ≤ 1023 := by omega
  simp only [Except.map, reply, copyText_storeName fits]

/-- The disks with another byte at the start of the block. -/
def altered (d : Disks) (dev nr : Nat) (data : Nat → UInt8) : Disks :=
  { d with block := fun dev' nr' =>
      if dev' = dev ∧ nr' = nr then some (Function.update data 0 (if data 0 = 0 then 1 else 0))
      else d.block dev' nr' }

theorem differsHidden_altered {data : Nat → UInt8} (hidden : d.Hidden current dev nr)
    (isData : d.block dev nr = some data) :
    DiffersHidden current d (d.altered dev nr data) where
  imap := rfl
  inode := rfl
  refs := rfl
  superBlock := rfl
  iMount := rfl
  readable dev' nr' := by
    rw [altered]
    dsimp only
    split
    next same =>
      rw [same.1, same.2, isData]
      rfl
    · rfl
  block dev' nr' notHidden := by
    rw [altered]
    dsimp only
    split
    next same =>
      rw [same.1, same.2] at notHidden
      exact absurd hidden notHidden
    · rfl

/-- A hidden block that is read is told from one with another first byte. -/
theorem not_alike_of_exposes (ok : d.MountsOk)
    (exposes : d.Exposes current mounts links path bufsiz) :
    ∃ d', DiffersHidden current d d' ∧
      d'.sysReadlink current mounts links path bufsiz ≠
        d.sysReadlink current mounts links path bufsiz := by
  obtain ⟨positive, n, fs, ran, mapped, ⟨left, put⟩, hidden⟩ := exposes
  have isData : ∃ data, d.block n.dev ((d.inode n).zone 0).toNat = some data := by
    rcases @MountsOk.walked_run d d current mounts links path ok (.refl _) with
      ⟨stop, stopped, -⟩ | ⟨result, t, t', ran', -, walking⟩
    · rw [stopped] at ran
      cases ran
    · rw [ran'] at ran
      cases ran
      have isBlock : (d.fileBlock n 0).isSome = true := walking.first n mapped
      rw [fileBlock] at isBlock
      split at isBlock
      · cases isBlock
      · exact Option.isSome_iff_exists.mp isBlock
  obtain ⟨data, isData⟩ := isData
  have differs := differsHidden_altered hidden isData
  refine ⟨_, differs, ?_⟩
  rcases @MountsOk.walked_run d _ current mounts links path ok differs.like with
    ⟨stop, stopped, -⟩ | ⟨result, fs₁, fs', ran₁, ran', walking⟩
  · rw [stopped] at ran
    cases ran
  rw [ran₁] at ran
  cases ran
  rcases PathWalk.agree_iput.run walking with ⟨stop, stopped, -⟩ | ⟨_, left, left', put, put', -⟩
  · rw [stopped] at put
    cases put
  rw [sysReadlink_some positive ran₁, sysReadlink_some positive ran', put, put',
    ← (walking.like.inode n).first, if_pos mapped, if_pos mapped, isData]
  have isAltered : (d.altered n.dev ((d.inode n).zone 0).toNat data).block n.dev
      (((d.altered n.dev ((d.inode n).zone 0).toNat data).inode n).zone 0).toNat =
        some (Function.update data 0 (if data 0 = 0 then 1 else 0)) := if_pos ⟨rfl, rfl⟩
  rw [isAltered]
  obtain ⟨room, hasRoom⟩ : ∃ room, (min bufsiz 1023).toNat = room + 1 :=
    ⟨(min bufsiz 1023).toNat - 1, by omega⟩
  simp only [Except.map, reply, hasRoom, copyText, Function.update_self, ne_eq]
  by_cases empty : data 0 = 0
  · simp [empty]
  · simp [empty]

end Runs

/-! ## A link and a file -/

/-- An inode with one block. -/
def oneBlock (mode : UInt16) (size : Nat) (nr : UInt16) : DInode where
  mode := mode
  uid := 0
  gid := 0
  size := size
  nlinks := 1
  zone k := if k = 0 then nr else 0

theorem route_of_oneBlock (others : ∀ k ≠ 0, (d.inode n).zone k = 0) (notNull : nr ≠ 0)
    (reached : nr ∈ d.route n block) : nr = ((d.inode n).zone 0).toNat := by
  have seventh : (d.inode n).zone 7 = 0 := others 7 (by decide)
  have eighth : (d.inode n).zone 8 = 0 := others 8 (by decide)
  rw [route] at reached
  dsimp only at reached
  split at reached
  next direct =>
    by_cases first : block = 0
    · subst first
      exact List.mem_singleton.mp reached
    · have isNull : (d.inode n).zone ⟨block, by omega⟩ = 0 :=
        others _ fun same => first (congrArg Fin.val same)
      rw [isNull] at reached
      exact absurd (List.mem_singleton.mp reached) notNull
  have isNull : nr = 0 := by
    simp only [seventh, eighth, entryOf, UInt16.toNat_zero, if_true] at reached
    split at reached
    · simpa using reached
    split at reached
    · cases reached
    · simpa using reached
  exact absurd isNull notNull

/-- A root directory with a link `l` to `t` and a file `s` of the superuser. -/
def linkAndFile : Disks where
  imap := {⟨1, 1⟩, ⟨1, 2⟩, ⟨1, 3⟩}
  inode n :=
    if n.num = 1 then oneBlock 0o040755 32 5
    else if n.num = 2 then oneBlock 0o120777 1 6
    else if n.num = 3 then oneBlock 0o100600 1 7
    else oneBlock 0 0 0
  block _ nr :=
    if nr = 5 then some fun i => if i = 0 then 2 else if i = 2 then 108 else
      if i = 16 then 3 else if i = 18 then 115 else 0
    else if nr = 6 then some (storeName 0 [116] fun _ => 0)
    else if nr = 7 then some fun i => if i = 0 then 107 else 0
    else none
  refs := {⟨1, 1⟩}
  superBlock := [⟨1, 10, none⟩]
  iMount _ := false

/-- A user at the root. -/
def user : Task where
  euid := 1
  egid := 1
  groups := []
  umask := 0
  pwd := ⟨1, 1⟩
  root := ⟨1, 1⟩

theorem linkAndFile_mountsOk : linkAndFile.MountsOk where
  onDirs sb there n on := by
    obtain rfl := List.mem_singleton.mp there
    cases on
  rootsFree _ := rfl

theorem hidden_file : linkAndFile.Hidden user 1 7 where
  content := ⟨⟨1, 3⟩, 0, rfl, by decide, by decide⟩
  unreadable n block onDev hasBlocks reached := by
    obtain ⟨dev, num⟩ := n
    obtain rfl : dev = 1 := onDev
    have others (k : Fin 9) (later : k ≠ 0) : (linkAndFile.inode ⟨1, num⟩).zone k = 0 := by
      simp only [linkAndFile]
      split
      · exact if_neg later
      split
      · exact if_neg later
      split
      · exact if_neg later
      · exact if_neg later
    have isFirst := route_of_oneBlock others (by decide) reached
    have isFile : num = 3 := by
      by_contra other
      simp only [linkAndFile, other, if_false] at isFirst
      split at isFirst
      · cases isFirst
      split at isFirst
      · cases isFirst
      · cases isFirst
    subst isFile
    decide

end Disks

end Linux012.Fs
