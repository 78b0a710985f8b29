import Linux012.Lib.Run
import Linux012.Fs.RemoveEntry
import Linux012.Fs.Open

/-!
# Link counts

The calls that make and remove directory entries keep the law of link counts, as long
as none of them increments a link count of 255: `i_nlinks` is a byte, and neither
`sys_link` nor `sys_mkdir` looks at it before the increment.
-/

namespace Linux012.Fs

open Lib (Triple)

variable {fs : FileSys} {n m dir : Ino} {slot : Nat} {name : Name} {current : Task}

/-! ## Runs -/

/-- A call, with its arguments. -/
inductive Call where
  | mkdir (pathname : List UInt8) (mode : UInt16)
  | rmdir (name : List UInt8)
  | mknod (filename : List UInt8) (mode dev : UInt16)
  | symlink (oldname newname : List UInt8)
  | link (oldname newname : List UInt8)
  | unlink (name : List UInt8)
  | openFile (pathname : List UInt8) (flag mode : UInt16)
  deriving DecidableEq, Repr

/-- The call as code of the kernel; what it returns does not matter here. -/
def Call.code (current : Task) : Call → FsM Unit
  | .mkdir pathname mode => do let _ ← sysMkdir current pathname mode
  | .rmdir name => do let _ ← sysRmdir current name
  | .mknod filename mode dev => do let _ ← sysMknod current filename mode dev
  | .symlink oldname newname => do let _ ← sysSymlink current oldname newname
  | .link oldname newname => do let _ ← sysLink current oldname newname
  | .unlink name => do let _ ← sysUnlink current name
  | .openFile pathname flag mode => do let _ ← openNamei current pathname flag mode

/-- One call by one task, with the answers that `new_block` gives during it. -/
structure CallBy where
  current : Task
  call : Call
  answers : List Bool

/-- The state that the call is made in. -/
def CallBy.start (action : CallBy) (fs : FileSys) : FileSys :=
  { fs with newBlocks := action.answers }

/-- A call runs from beginning to end.  The kernel holds the directories that the task
works from. -/
def callStep (fs : FileSys) (action : CallBy) : Option FileSys :=
  if action.current.pwd ∈ fs.refs ∧ action.current.root ∈ fs.refs then
    ((action.call.code action.current).run (action.start fs)).map Prod.snd
  else none

/-- The call does not increment a link count of 255. -/
def HasRoom (fs : FileSys) (action : CallBy) : Prop :=
  match action.call with
  | .mkdir pathname mode => MkdirHasRoom (action.start fs) action.current pathname mode
  | .link oldname newname => LinkHasRoom (action.start fs) action.current oldname newname
  | _ => True

/-- The result of a call is dropped. -/
theorem ignore_spec {α : Type} {prog : FsM α} {post : α → FileSys → Prop} {good : FileSys → Prop}
    (spec : Triple (· = fs) prog post) (enough : ∀ result t, post result t → good t) :
    Triple (· = fs) (do let _ ← prog) fun _ t => good t := by
  apply Triple.bind spec
  intro result
  exact Triple.pure (enough result)

theorem Opened.ok {result : Except Errno Ino} {t : FileSys} (opened : Opened fs result t) :
    t.Ok := by
  cases result with
  | error errno => exact Settled.ok opened
  | ok n =>
      rcases opened with ⟨made, rfl, settled, kept⟩
      exact settled.ok.hold kept.allocated

/-- The step lemma: a call that has room keeps a file system good. -/
theorem FileSys.Ok.callStep {t : FileSys} {action : CallBy} (ok : fs.Ok)
    (room : HasRoom fs action) (taken : callStep fs action = some t) : t.Ok := by
  rw [Fs.callStep] at taken
  split at taken
  next held =>
    have okStart : (action.start fs).Ok := ok.newBlocks action.answers
    have runs : (action.start fs).Runs action.current := ⟨held.1, held.2⟩
    have spec : Triple (· = action.start fs) (action.call.code action.current)
        fun _ t => t.Ok := by
      rcases action with ⟨current, call, answers⟩
      cases call with
      | mkdir pathname mode =>
          exact ignore_spec (sysMkdir_spec okStart runs room) fun _ _ settled => settled.ok
      | rmdir name =>
          exact ignore_spec (sysRmdir_spec okStart runs name) fun _ _ settled => settled.ok
      | mknod filename mode dev =>
          exact ignore_spec (sysMknod_spec okStart runs filename mode dev)
            fun _ _ settled => settled.ok
      | symlink oldname newname =>
          exact ignore_spec (sysSymlink_spec okStart runs oldname newname)
            fun _ _ settled => settled.ok
      | link oldname newname =>
          exact ignore_spec (sysLink_spec okStart runs room) fun _ _ settled => settled.ok
      | unlink name =>
          exact ignore_spec (sysUnlink_spec okStart runs name) fun _ _ settled => settled.ok
      | openFile pathname flag mode =>
          exact ignore_spec (openNamei_spec okStart runs pathname flag mode)
            fun _ _ opened => opened.ok
    rw [Option.map_eq_some_iff] at taken
    rcases taken with ⟨⟨result, after⟩, ran, rfl⟩
    exact spec.returns _ rfl result after ran
  next => cases taken

/-- In every state of every run whose calls have room, `i_nlinks` of every allocated inode
is the number of live entries for it, and no entry names an inode that is not allocated. -/
theorem linkLaw_of_hasRoom {start final : FileSys} (ok : start.Ok)
    (reached : Lib.ReachedBy callStep HasRoom start final) : LinkLaw final.toTree :=
  (reached.invariant FileSys.Ok (fun _ _ _ ok room taken => ok.callStep room taken) ok).tree.law

/-! ## The law is not always kept -/

/-- The root directory and the only file of a small file system. -/
abbrev rootDir : Ino := ⟨0x301, 1⟩
abbrev onlyFile : Ino := ⟨0x301, 2⟩

/-- Slot `i` of the root directory: the file has a name of two letters in each slot from
2 on. -/
def rootEntry (i : Nat) : DirEntry :=
  if i = 0 then ⟨1, [dot]⟩
  else if i = 1 then ⟨1, [dot, dot]⟩
  else ⟨2, [UInt8.ofNat (97 + i / 16), UInt8.ofNat (97 + i % 16)]⟩

/-- A file system with one file that has `links` names. -/
def linkedFile (links : Nat) : FileSys where
  imap := {rootDir, onlyFile}
  inode n :=
    if n = rootDir then
      { freshInode 0 0 with
        mode := sIfdir ||| 0o755
        size := (links + 2) * dirEntrySize
        nlinks := 2
        zone := fun block => decide (block * dirEntriesPerBlock < links + 2)
        entry := rootEntry }
    else { freshInode 0 0 with mode := sIfreg ||| 0o644, nlinks := UInt8.ofNat links }
  refs := {rootDir, rootDir}
  superBlock := [⟨0x301, 16, some rootDir⟩]
  iMount _ := false
  newBlocks := []

section LinkedFile

variable {links : Nat}

theorem linkedFile_root : rootDir ∈ (linkedFile links).imap := Finset.mem_insert_self _ _

theorem linkedFile_file : onlyFile ∈ (linkedFile links).imap :=
  Finset.mem_insert_of_mem (Finset.mem_singleton_self _)

theorem linkedFile_isDir : ((linkedFile links).inode rootDir).isDir = true := by
  have mode : ((linkedFile links).inode rootDir).mode = sIfdir ||| 0o755 := by
    simp [linkedFile]
  rw [Inode.isDir, mode]
  decide

theorem linkedFile_notDir : ((linkedFile links).inode onlyFile).isDir = false := by
  have mode : ((linkedFile links).inode onlyFile).mode = sIfreg ||| 0o644 := by
    simp [linkedFile]
  rw [Inode.isDir, mode]
  decide

theorem linkedFile_target (slot : Nat) : ((linkedFile links).inode rootDir).target slot =
    if slot < links + 2 then some (rootEntry slot).inode else none := by
  have slots : (links + 2) * dirEntrySize / dirEntrySize = links + 2 :=
    Nat.mul_div_cancel (links + 2) (by decide)
  have used : (rootEntry slot).inode ≠ 0 := by
    rw [rootEntry]
    split
    · decide
    · split
      · decide
      · exact Nat.succ_ne_zero 1
  have inFile : slot < links + 2 → slot / dirEntriesPerBlock * dirEntriesPerBlock < links + 2 :=
    fun inside => Nat.lt_of_le_of_lt (Nat.div_mul_le_self slot dirEntriesPerBlock) inside
  rw [Inode.target]
  simp only [linkedFile_isDir]
  simp only [linkedFile, if_true, slots, used, decide_eq_true_eq, ne_eq, not_false_eq_true,
    and_true, true_and]
  by_cases inside : slot < links + 2
  · rw [if_pos ⟨inside, inFile inside⟩, if_pos inside]
  · rw [if_neg (fun holds => inside holds.1), if_neg inside]

theorem linkedFile_names {slot : Nat} {dir n : Ino} :
    (linkedFile links).Names dir slot n ↔
      dir = rootDir ∧ slot < links + 2 ∧ n = if slot < 2 then rootDir else onlyFile := by
  have number : (rootEntry slot).inode = if slot < 2 then 1 else 2 := by
    rw [rootEntry]
    split
    · rw [if_pos (by omega)]
    · split
      · rw [if_pos (by omega)]
      · rw [if_neg (by omega)]
  constructor
  · rintro ⟨member, sameDev, live⟩
    rcases Finset.mem_insert.mp member with rfl | isFile
    · rw [linkedFile_target, number] at live
      split at live
      next inside =>
        refine ⟨rfl, inside, ?_⟩
        apply Ino.eq_of_dev_num
        · rw [← sameDev]
          split <;> rfl
        · rw [← Option.some.inj live]
          split <;> rfl
      next => cases live
    · rw [Finset.mem_singleton.mp isFile, Inode.target_of_not_isDir linkedFile_notDir] at live
      cases live
  · rintro ⟨rfl, inside, rfl⟩
    refine ⟨Finset.mem_insert_self _ _, by split <;> rfl, ?_⟩
    rw [linkedFile_target, if_pos inside, number]
    split <;> rfl

theorem linkedFile_namers_root :
    (linkedFile links).namers rootDir = {(rootDir, 0), (rootDir, 1)} := by
  ext ⟨dir, slot⟩
  rw [Tree.mem_namers, linkedFile_names]
  simp only [Finset.mem_insert, Finset.mem_singleton, Prod.mk.injEq]
  constructor
  · rintro ⟨rfl, _, same⟩
    have early : slot < 2 := by
      by_contra late
      rw [if_neg late] at same
      exact absurd same (by decide)
    match slot with
    | 0 => exact .inl ⟨rfl, rfl⟩
    | 1 => exact .inr ⟨rfl, rfl⟩
  · rintro (⟨rfl, rfl⟩ | ⟨rfl, rfl⟩)
    · exact ⟨rfl, by omega, rfl⟩
    · exact ⟨rfl, by omega, rfl⟩

theorem linkedFile_namers_file :
    (linkedFile links).namers onlyFile =
      (Finset.range links).image fun i => (rootDir, i + 2) := by
  ext ⟨dir, slot⟩
  rw [Tree.mem_namers, linkedFile_names]
  simp only [Finset.mem_image, Finset.mem_range, Prod.mk.injEq]
  constructor
  · rintro ⟨rfl, inside, same⟩
    have late : ¬slot < 2 := by
      intro early
      rw [if_pos early] at same
      exact absurd same (by decide)
    exact ⟨slot - 2, by omega, rfl, by omega⟩
  · rintro ⟨i, inside, rfl, rfl⟩
    exact ⟨rfl, by omega, by rw [if_neg (by omega)]⟩

theorem linkedFile_ok (fits : links < 256) : (linkedFile links).Ok where
  tree.law.counts n member := by
    rcases Finset.mem_insert.mp member with rfl | isFile
    · rw [Tree.linkCount, linkedFile_namers_root]
      rfl
    · have injective : Function.Injective fun i : Nat => (rootDir, i + 2) := by
        intro i j same
        simpa using same
      rw [Finset.mem_singleton.mp isFile, Tree.linkCount, linkedFile_namers_file,
        Finset.card_image_of_injective _ injective, Finset.card_range]
      exact Nat.mod_eq_of_lt fits
  tree.law.allocated dir slot n named := by
    rw [(linkedFile_names.mp named).2.2]
    split
    · exact linkedFile_root
    · exact linkedFile_file
  tree.dirs.numbered n member := by
    rcases Finset.mem_insert.mp member with rfl | isFile
    · decide
    · rw [Finset.mem_singleton.mp isFile]
      decide
  tree.dirs.shape dir member isDir := by
    rcases Finset.mem_insert.mp member with rfl | isFile
    · right
      constructor
      · exact Nat.mul_mod_left _ _
      · rw [linkedFile_target, if_pos (by omega)]
        rfl
      · exact ⟨1, by rw [linkedFile_target, if_pos (by omega)]; rfl⟩
      · rfl
      · rfl
    · rw [Finset.mem_singleton.mp isFile, linkedFile_notDir] at isDir
      cases isDir
  tree.dirs.parent dir up named := by
    left
    rw [(linkedFile_names.mp named).1, (linkedFile_names.mp named).2.2]
    rfl
  tree.dirs.child up slot dir up' late entry dotdot := by
    have isFile := (linkedFile_names.mp entry).2.2
    rw [if_neg (by omega), (linkedFile_names.mp dotdot).1] at isFile
    exact absurd isFile (by decide)
  tree.dirs.once n isDir up slot up' slot' late late' one two := by
    rw [(linkedFile_names.mp one).2.2, if_neg (by omega), linkedFile_notDir] at isDir
    cases isDir
  allocated n reference := by
    have isRoot : n = rootDir := by simpa [linkedFile] using reference
    rw [isRoot]
    exact linkedFile_root
  mounted sb there m on := by
    rw [List.mem_singleton.mp there] at on
    rw [← Option.some.inj on]
    exact ⟨by simp [linkedFile], linkedFile_isDir⟩
  roots sb there m on mount := by cases mount

end LinkedFile

/-- The superuser in the root directory gives the file one more name. -/
def oneMoreLink (oldname newname : List UInt8) : CallBy where
  current := ⟨0, 0, [], 0, rootDir, rootDir⟩
  call := .link oldname newname
  answers := []

/-- A file with one name gets a second one. -/
theorem linkLaw_of_hasRoom_secondLink :
    ∃ final, Lib.exec callStep (linkedFile 1) [oneMoreLink [97, 99] [98]] = some final ∧
      LinkLaw final.toTree := by
  have runs : (Lib.exec callStep (linkedFile 1) [oneMoreLink [97, 99] [98]]).isSome = true := by
    decide +kernel
  rcases Option.isSome_iff_exists.mp runs with ⟨final, ran⟩
  have room : HasRoom (linkedFile 1) (oneMoreLink [97, 99] [98]) := by
    intro n t _
    change ((linkedFile 1).inode n).nlinks ≠ 255
    simp only [linkedFile]
    split <;> decide
  exact ⟨final, ran, linkLaw_of_hasRoom (linkedFile_ok (by decide))
    ⟨_, ran, room, fun _ _ => trivial⟩⟩

/-- The 256th name of a file makes its link count 0, and the file is freed. -/
theorem link_frees_a_named_file :
    ¬∀ (start final : FileSys) (actions : List CallBy), start.Ok →
      Lib.exec callStep start actions = some final → LinkLaw final.toTree := by
  intro always
  have freed : ((callStep (linkedFile 255) (oneMoreLink [97, 99] [98])).map fun t =>
      (decide (onlyFile ∈ t.imap), decide (t.Names rootDir 2 onlyFile))) = some (false, true) := by
    decide +kernel
  rw [Option.map_eq_some_iff] at freed
  rcases freed with ⟨final, taken, facts⟩
  simp only [Prod.mk.injEq, decide_eq_false_iff_not, decide_eq_true_eq] at facts
  have law := always (linkedFile 255) final [oneMoreLink [97, 99] [98]]
    (linkedFile_ok (by decide)) (Lib.exec_cons_eq_some.mpr ⟨final, taken, rfl⟩)
  exact facts.1 (law.allocated rootDir 2 onlyFile facts.2)

end Linux012.Fs
