import Linux012.Fs.MakeEntry

/-!
# Calls that remove entries

`sys_unlink` and `sys_rmdir` leave a good file system good.
-/

namespace Linux012.Fs

open Lib (Triple)

variable {fs : FileSys} {n m dir : Ino} {slot : Nat} {name : Name} {current : Task}

/-! ## sys_unlink -/

theorem FileSys.Kept.release {node : Inode} (kept : fs.Kept m) (other : m ≠ n) :
    (fs.release n node).Kept m := by
  apply kept.mono (t := fs.release n node)
    (fun member => Finset.mem_erase.mpr ⟨other, member⟩) id
  intro linked
  change ((fs.setInode n node).inode m).nlinks ≠ 0
  rw [FileSys.setInode_inode_of_ne other]
  exact linked

/-- Ways out that change nothing. -/
theorem leavePlaceFirst {α : Type} {result : α} (ok : fs.Ok) (keptDir : fs.Kept dir)
    (kept : fs.Kept n) :
    Triple (· = (fs.hold dir).hold n)
      (do
        iput dir
        iput n
        return result)
      fun _ t => Settled fs t := by
  apply Triple.bind (iput_kept_below keptDir)
  intro _
  apply Triple.bind (iput_kept kept)
  intro _
  exact Triple.pure_at ok.settled

theorem leaveFileFirst {α : Type} {result : α} (ok : fs.Ok) (keptDir : fs.Kept dir)
    (kept : fs.Kept n) :
    Triple (· = (fs.hold dir).hold n)
      (do
        iput n
        iput dir
        return result)
      fun _ t => Settled fs t := by
  apply Triple.bind (iput_kept kept.hold)
  intro _
  apply Triple.bind (iput_kept keptDir)
  intro _
  exact Triple.pure_at ok.settled

theorem sysUnlink_spec (ok : fs.Ok) (runs : fs.Runs current) (pathname : List UInt8) :
    Triple (· = fs) (sysUnlink current pathname) fun _ t => Settled fs t := by
  rw [sysUnlink]
  apply Triple.bind (placeOf_spec ok runs pathname _ _ _)
  intro entrance
  cases entrance with
  | error errno =>
      apply Triple.pure
      rintro _ rfl
      exact ok.settled
  | ok entrance =>
      rcases entrance with ⟨dir, basename⟩
      apply Triple.of_pre
      rintro _ ⟨rfl, place⟩
      apply Triple.bind (findEntry_spec ok.searchable place.kept place.isDir)
      rintro ⟨dir, slot⟩
      apply Triple.of_pre
      intro t found
      rw [found.state]
      cases slot with
      | none =>
          apply Triple.bind (iput_kept found.kept)
          intro _
          exact Triple.pure_at ok.settled
      | some slot =>
          apply Triple.get_bind_at
          apply Triple.bind (iget_spec (ok.hold found.kept.allocated) (found.live slot rfl))
          intro n
          apply Triple.of_pre
          rintro _ ⟨rfl, namedN, which⟩
          have keptN := ok.kept_of_named namedN
          apply Triple.get_bind_at
          apply Triple.ite
          · intro _
            exact leavePlaceFirst ok found.kept keptN
          · intro _
            apply Triple.ite
            · intro _
              exact leaveFileFirst ok found.kept keptN
            · intro notDir
              have file : (fs.inode n).isDir = false := by simpa using notDir
              have named : fs.Names dir slot n := by
                rcases which with same | ⟨_, isDir⟩
                · rw [same]
                  exact found.live slot rfl
                · rw [FileSys.hold_toTree, file] at isDir
                  cases isDir
              have linked := ok.nlinks_ne_zero named
              have distinct := ne_of_isDir found.isDir file
              have unlinked := ok.unlink ((fs.inode dir).entry slot).name file named
              have live : liveLinks (fs.inode n).nlinks = (fs.inode n).nlinks := if_neg linked
              rw [← live] at unlinked
              apply Triple.bind setEntry_spec
              intro _
              apply Triple.get_bind_at
              apply Triple.bind setInode_spec
              intro _
              apply Triple.start_eq
                (((fs.withEntry dir slot ⟨0, ((fs.inode dir).entry slot).name⟩).setNlinks n
                  (liveLinks (fs.inode n).nlinks - 1)).hold dir |>.hold n)
              · rw [FileSys.setNlinks, FileSys.withEntry_inode_of_ne distinct.symm,
                  FileSys.setInode_inode_of_ne distinct.symm]
                rfl
              · have keptDir : (fs.withEntry dir slot ⟨0, ((fs.inode dir).entry slot).name⟩
                    |>.setNlinks n (liveLinks (fs.inode n).nlinks - 1)).Kept dir :=
                  found.kept.withEntry.setInode fun same => absurd same distinct
                apply Triple.bind iput_spec
                intro _
                apply Triple.of_pre
                rintro _ (⟨_, rfl⟩ | ⟨alone, unnamed, node, rfl⟩)
                · apply Triple.bind (iput_kept keptDir)
                  intro _
                  exact Triple.pure_at ⟨unlinked, rfl⟩
                · have notInUse : n ∉ fs.refs := fun reference =>
                    alone (Multiset.mem_cons_of_mem reference)
                  apply Triple.bind (iput_kept (keptDir.release distinct))
                  intro _
                  exact Triple.pure_at
                    ⟨unlinked.release keptN.allocated unnamed notInUse, rfl⟩

/-! ## sys_rmdir -/

/-- An entry that leads to an empty directory other than its own is in a late slot. -/
theorem Tree.Ok.late_of_emptyDir {tree : Tree} (ok : tree.Ok) (named : tree.Names dir slot n)
    (distinct : dir ≠ n) (proper : (tree.inode n).Proper n.num)
    (empty : emptyDir n (tree.inode n) = true) : 2 ≤ slot := by
  match slot with
  | 0 =>
      rcases ok.dirs.shape dir named.1 (Inode.isDir_of_target named.2.2) with blank | properDir
      · have bound := Inode.lt_of_target named.2.2
        simp [blank.1] at bound
      · have sameNum := Option.some.inj (properDir.dot.symm.trans named.2.2)
        exact absurd (Ino.eq_of_dev_num named.2.1 sameNum) distinct
  | 1 =>
      rcases ok.dirs.parent dir n named with self | ⟨i, late, inside⟩
      · exact absurd self.symm distinct
      · rcases proper.dotdot with ⟨up, dotdot⟩
        have live := inside.2.2
        rw [emptyDir_target empty proper dotdot, if_neg (by omega), if_neg (by omega)] at live
        cases live
  | slot + 2 => omega

theorem emptyDir_proper {node : Inode} (shape : node.Blank ∨ node.Proper n.num)
    (empty : emptyDir n node = true) : node.Proper n.num := by
  rcases shape with blank | proper
  · simp [emptyDir, blank.1] at empty
  · exact proper

/-- A directory that has a directory in it is still named without that. -/
theorem FileSys.Ok.pred_ne_zero (ok : fs.Ok) (named : fs.Names dir slot n)
    (distinct : dir ≠ n) (dotdot : (fs.inode n).target 1 = some dir.num) :
    (fs.inode dir).nlinks - 1 ≠ 0 := by
  have isDir := Inode.isDir_of_target named.2.2
  have self : fs.Names dir 0 dir := by
    rcases ok.tree.dirs.shape dir named.1 isDir with blank | proper
    · have bound := Inode.lt_of_target named.2.2
      simp [blank.1] at bound
    · exact ⟨named.1, rfl, proper.dot⟩
  have up : fs.Names n 1 dir :=
    ⟨ok.tree.law.allocated dir slot n named, named.2.1.symm, dotdot⟩
  have several : 1 < fs.linkCount dir :=
    Finset.one_lt_card.mpr ⟨(dir, 0), Tree.mem_namers.mpr self, (n, 1), Tree.mem_namers.mpr up,
      by simp [distinct]⟩
  have counts := ok.tree.law.counts dir named.1
  have grown := toNat_pred (ok.nlinks_ne_zero self)
  intro zero
  rw [zero] at grown
  have none : (0 : UInt8).toNat = 0 := rfl
  omega

/-- The end of `sys_rmdir`, from `de->inode = 0` on. -/
theorem removeDir_spec {α : Type} {result : α} (ok : fs.Ok) (keptDir : fs.Kept dir)
    (named : fs.Names dir slot n) (distinct : dir ≠ n) (isDir : (fs.inode n).isDir = true)
    (empty : emptyDir n (fs.inode n) = true) (notInUse : n ∉ fs.refs) :
    Triple (· = (fs.hold dir).hold n)
      (do
        setEntry dir slot 0
        let s ← get
        setInode n { s.inode n with nlinks := 0 }
        let s ← get
        setInode dir { s.inode dir with nlinks := (s.inode dir).nlinks - 1 }
        iput dir
        iput n
        return result)
      fun _ t => Settled fs t := by
  have member := ok.tree.law.allocated dir slot n named
  have proper := emptyDir_proper (ok.tree.dirs.shape n member isDir) empty
  have late := ok.tree.late_of_emptyDir named distinct proper empty
  have stillNamed := ok.pred_ne_zero named distinct (ok.tree.dotdot_of_names named late proper)
  apply Triple.bind setEntry_spec
  intro _
  apply Triple.get_bind_at
  apply Triple.bind setInode_spec
  intro _
  apply Triple.get_bind_at
  apply Triple.bind setInode_spec
  intro _
  apply Triple.start_eq
    ((((fs.withEntry dir slot ⟨0, ((fs.inode dir).entry slot).name⟩).setNlinks dir
      ((fs.inode dir).nlinks - 1)).setNlinks n 0).hold dir |>.hold n)
  · rw [FileSys.setInode_inode_of_ne distinct, FileSys.setInode_comm distinct.symm]
    rw [FileSys.setInode_inode_self, FileSys.setInode_inode_of_ne distinct.symm]
    rw [FileSys.setNlinks, FileSys.setNlinks, FileSys.withEntry_inode_self,
      FileSys.setInode_inode_of_ne distinct.symm, FileSys.withEntry_inode_of_ne distinct.symm]
    rfl
  · have keptAfter : (((fs.withEntry dir slot ⟨0, ((fs.inode dir).entry slot).name⟩).setNlinks dir
        ((fs.inode dir).nlinks - 1)).setNlinks n 0).Kept dir := by
      constructor
      · exact keptDir.allocated
      · right
        rw [FileSys.setNlinks_inode_of_ne distinct, FileSys.setNlinks_inode_self]
        exact stillNamed
    apply Triple.bind (iput_kept_below keptAfter)
    intro _
    apply Triple.bind iput_spec
    intro _
    apply Triple.of_pre
    rintro _ (⟨reference | linked, _⟩ | ⟨_, _, node, rfl⟩)
    · exact absurd reference notInUse
    · rw [FileSys.setNlinks_inode_self] at linked
      exact absurd rfl linked
    · have removed := ok.rmdir ((fs.inode dir).entry slot).name node named
        late distinct proper empty notInUse
      apply Triple.pure_at
      refine ⟨?_, rfl⟩
      have same : FileSys.release (((fs.withEntry dir slot
          ⟨0, ((fs.inode dir).entry slot).name⟩).setNlinks dir
            ((fs.inode dir).nlinks - 1)).setNlinks n 0) n node =
          fs.withoutDir dir slot ((fs.inode dir).entry slot).name n node := by
        simp [FileSys.release, FileSys.withoutDir, FileSys.setNlinks, FileSys.setInode]
      rw [same]
      exact removed

theorem sysRmdir_spec (ok : fs.Ok) (runs : fs.Runs current) (pathname : List UInt8) :
    Triple (· = fs) (sysRmdir current pathname) fun _ t => Settled fs t := by
  rw [sysRmdir]
  apply Triple.bind (placeOf_spec ok runs pathname _ _ _)
  intro entrance
  cases entrance with
  | error errno =>
      apply Triple.pure
      rintro _ rfl
      exact ok.settled
  | ok entrance =>
      rcases entrance with ⟨dir, basename⟩
      apply Triple.of_pre
      rintro _ ⟨rfl, place⟩
      apply Triple.bind (findEntry_spec ok.searchable place.kept place.isDir)
      rintro ⟨dir, slot⟩
      apply Triple.of_pre
      intro t found
      rw [found.state]
      cases slot with
      | none =>
          apply Triple.bind (iput_kept found.kept)
          intro _
          exact Triple.pure_at ok.settled
      | some slot =>
          apply Triple.get_bind_at
          apply Triple.bind (iget_spec (ok.hold found.kept.allocated) (found.live slot rfl))
          intro n
          apply Triple.of_pre
          rintro _ ⟨rfl, namedN, which⟩
          have keptN := ok.kept_of_named namedN
          apply Triple.get_bind_at
          apply Triple.ite
          · intro _
            exact leavePlaceFirst ok found.kept keptN
          · intro _
            apply Triple.ite
            · intro _
              exact leavePlaceFirst ok found.kept keptN
            · intro here
              apply Triple.ite
              · intro _
                exact leaveFileFirst ok found.kept keptN
              · intro notSelf
                apply Triple.ite
                · intro _
                  exact leaveFileFirst ok found.kept keptN
                · intro isDir
                  apply Triple.ite
                  · intro _
                    exact leaveFileFirst ok found.kept keptN
                  · intro notEmpty
                    simp only [FileSys.hold_toTree, Bool.not_eq_true', Bool.not_eq_false]
                      at isDir notEmpty
                    have distinct : dir ≠ n := fun same => notSelf same.symm
                    have named : fs.Names dir slot n := by
                      rcases which with same | ⟨otherDev, _⟩
                      · rw [same]
                        exact found.live slot rfl
                      · exact absurd (.inl otherDev) here
                    have notInUse : n ∉ fs.refs := by
                      intro reference
                      apply here
                      right
                      have positive := Multiset.count_pos.mpr reference
                      simp only [FileSys.iCount, FileSys.hold_refs, Multiset.count_cons_self,
                        Multiset.count_cons_of_ne distinct.symm]
                      omega
                    exact removeDir_spec ok found.kept named distinct isDir notEmpty notInUse

end Linux012.Fs
