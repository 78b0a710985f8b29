import Linux012.Fs.MakeEntry

/-!
# open_namei

Opening, and perhaps making, a file leaves a good file system good.
-/

namespace Linux012.Fs

open Lib (Triple)

variable {fs : FileSys} {n m dir : Ino} {slot : Nat} {name : Name} {current : Task}

/-! ## open_namei -/

/-- `open_namei` returns an error, or an inode with one more reference. -/
def Opened (fs : FileSys) (result : Except Errno Ino) (t : FileSys) : Prop :=
  match result with
  | .error _ => Settled fs t
  | .ok n => ∃ made : FileSys, t = made.hold n ∧ Settled fs made ∧ made.Kept n

theorem openCreate_spec (place : fs.Place dir) (flag mode : UInt16) :
    Triple (· = fs.hold dir) (openCreate current dir name flag mode) (Opened fs) := by
  rw [openCreate]
  apply Triple.ite
  · intro _
    apply Triple.bind (iput_kept place.kept)
    intro _
    exact Triple.pure_at place.ok.settled
  · intro _
    apply Triple.get_bind_at
    apply Triple.ite
    · intro _
      apply Triple.bind (iput_kept place.kept)
      intro _
      exact Triple.pure_at place.ok.settled
    · intro _
      apply Triple.bind newInode_spec
      intro inode
      cases inode with
      | none =>
          apply Triple.bind (iput_kept place.kept)
          intro _
          exact Triple.pure_at place.ok.settled
      | some n =>
          apply Triple.of_pre
          rintro _ ⟨unused, onDev, numbered, rfl⟩
          have fresh : fs.Fresh dir n := ⟨unused, numbered, onDev.symm⟩
          apply Triple.get_bind_at
          rw [FileSys.alloc_inode_self]
          apply Triple.bind setInode_spec
          intro _
          rw [FileSys.alloc_setInode_self]
          have newFile := freshInode_newFile current.euid current.egid current.euid mode 0
          apply Triple.bind (addEntry_alloc place unused)
          intro de
          apply Triple.of_pre
          rintro _ ⟨ready, added, rfl⟩
          have readyFresh := added.fresh fresh
          cases de with
          | none =>
              apply (dropPlaceLast (fun node => { node with nlinks := node.nlinks - 1 })
                (added.place place) readyFresh.fresh (last_link newFile.links)).after
              rintro _ t ⟨rfl, settled⟩
              exact (added.settled place.ok).trans settled
          | some de =>
              apply (finishOpen (added.place place) readyFresh added.free newFile).after
              rintro _ t ⟨rfl, made, rfl, settled, kept⟩
              exact ⟨made, rfl, (added.settled place.ok).trans settled, kept⟩

theorem truncFlag_writes {flag : UInt16} (trunc : truncFlag flag &&& oTrunc ≠ 0) :
    truncFlag flag &&& oAccmode ≠ 0 := by
  rw [truncFlag] at trunc ⊢
  split
  next =>
    intro zero
    have bit := congrArg (fun mode : UInt16 => mode.toBitVec.getLsbD 0) zero
    simp [oWronly, oAccmode] at bit
  next reading =>
    rw [if_neg reading] at trunc
    exact fun zero => reading ⟨trunc, zero⟩

/-- Losing all blocks does not matter to a file that is no directory. -/
theorem Inode.alike_truncate {node : Inode} (file : node.isDir = false) :
    node.Alike { node with zone := fun _ => false, size := 0 } where
  isDir := rfl
  nlinks := rfl
  target slot := by
    rw [Inode.target_of_not_isDir file, Inode.target_of_not_isDir]
    exact file
  early _ _ _ := rfl
  blank isDir := by
    rw [file] at isDir
    cases isDir
  wholeEntries isDir := by
    rw [file] at isDir
    cases isDir

theorem truncate_held (ok : fs.Ok) (kept : fs.Kept n) (file : (fs.inode n).isDir = false) :
    Triple (· = fs.hold n) (truncate n) fun _ t =>
      ∃ made : FileSys, t = made.hold n ∧ Settled fs made ∧ made.Kept n := by
  apply truncate_spec.after
  rintro _ t (⟨rfl, _⟩ | rfl)
  · refine ⟨_, rfl, ⟨ok.setInode fun _ => Inode.alike_truncate file, rfl⟩, ?_⟩
    exact kept.setInode fun _ => id
  · exact ⟨fs, rfl, ok.settled, kept⟩

theorem openExisting_spec {inr : Nat} (ok : fs.Ok) (runs : fs.Runs current)
    (place : fs.Place dir) (named : fs.Names dir slot ⟨dir.dev, inr⟩) {flag : UInt16}
    (writes : flag &&& oTrunc ≠ 0 → flag &&& oAccmode ≠ 0) :
    Triple (· = fs.hold dir) (openExisting current dir inr flag) (Opened fs) := by
  rw [openExisting]
  apply Triple.ite
  · intro _
    apply Triple.bind (iput_kept place.kept)
    intro _
    exact Triple.pure_at ok.settled
  · intro _
    apply Triple.bind (iget_spec (ok.hold place.kept.allocated) named)
    intro n
    apply Triple.of_pre
    rintro _ ⟨rfl, namedN, _⟩
    apply Triple.bind (followLink_spec ok runs dir n place.kept (ok.kept_of_named namedN))
    intro inode
    cases inode with
    | none =>
        apply Triple.pure
        rintro _ rfl
        exact ok.settled
    | some inode =>
        apply Triple.of_pre
        rintro _ ⟨rfl, kept⟩
        apply Triple.get_bind_at
        apply Triple.ite
        · intro _
          apply Triple.bind (iput_kept kept)
          intro _
          exact Triple.pure_at ok.settled
        · intro allowed
          apply Triple.ite
          · intro trunc
            have file : (fs.inode inode).isDir = false := by
              rw [← Bool.not_eq_true]
              intro isDir
              exact allowed (.inl ⟨isDir, writes trunc⟩)
            apply Triple.bind (truncate_held ok kept file)
            intro _
            exact Triple.pure fun _ => id
          · intro _
            exact Triple.pure_at ⟨fs, rfl, ok.settled, kept⟩

theorem openNamei_spec (ok : fs.Ok) (runs : fs.Runs current) (pathname : List UInt8)
    (flag mode : UInt16) :
    Triple (· = fs) (openNamei current pathname flag mode) (Opened fs) := by
  rw [openNamei]
  apply Triple.bind (dirNamei_spec ok runs pathname)
  intro place
  cases place with
  | none =>
      apply Triple.pure
      rintro _ rfl
      exact ok.settled
  | some place =>
      rcases place with ⟨dir, basename⟩
      apply Triple.of_pre
      rintro _ ⟨rfl, kept, isDir⟩
      apply Triple.ite
      · intro _
        apply Triple.ite
        · intro _
          exact Triple.pure_at ⟨fs, rfl, ok.settled, kept⟩
        · intro _
          apply Triple.bind (iput_kept kept)
          intro _
          exact Triple.pure_at ok.settled
      · intro _
        apply Triple.bind (findEntry_spec ok.searchable kept isDir)
        rintro ⟨dir, slot⟩
        apply Triple.of_pre
        intro t found
        rw [found.state]
        cases slot with
        | none => exact openCreate_spec (found.place ok) _ _
        | some slot =>
            apply Triple.get_bind_at
            exact openExisting_spec ok runs (found.place ok) (found.live slot rfl)
              truncFlag_writes

end Linux012.Fs
