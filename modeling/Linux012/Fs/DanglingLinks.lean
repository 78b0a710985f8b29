import Linux012.Fs.PathBalance

/-!
# A link at the end that leads nowhere

`_namei` sets the times of the inode that it has found, also where `follow_link` has found none.
-/

namespace Linux012.Fs.PathWalk

open Lib (Ledger run_bind_eq_ok run_bind_eq_error)

section Lookups

variable (current : Task) (mounts links : Nat) (segment : UInt16) (pathname : List UInt8)

/-- The last component of the path is a link, and `follow_link` finds nothing behind it: it has no
block, or the path that is its text leads to no inode without another link. -/
def Dangles (fs : FileSys) : Prop :=
  ∃ base inode before after,
    (findPlace current mounts (followLink current mounts links segment) pathname none).run fs =
        .ok (.entry base inode, before) ∧
      (before.inode inode).isLnk = true ∧
      (followLink current mounts links segment base inode).run before = .ok (none, after)

/-- `namei` writes through no null inode, it returns none with all references as before where the
path ends at a link that leads nowhere, and wherever it returns, all references are as before but
for the one to the inode that it returns. -/
def NameiSafe (fs : FileSys) : Prop :=
  (nameiFollow current mounts links segment pathname).run fs ≠ .error .nullInode ∧
    (Dangles current mounts links segment pathname fs →
      ∃ t, (nameiFollow current mounts links segment pathname).run fs = .ok (none, t) ∧
        t.refs = fs.refs) ∧
    ∀ result t, (nameiFollow current mounts links segment pathname).run fs = .ok (result, t) →
      t.refs = refsOf result + fs.refs

variable {current : Task} {mounts links : Nat} {segment : UInt16} {pathname : List UInt8}

/-- Only behind a link can there be nothing. -/
theorem isLnk_of_followLink_none {base inode : Ino} {fs t : FileSys}
    (ran : (followLink current mounts links segment base inode).run fs = .ok (none, t)) :
    (fs.inode inode).isLnk = true := by
  cases isLnk : (fs.inode inode).isLnk with
  | true => rfl
  | false =>
      have kept : (followLink current mounts links segment base inode).run fs =
          (do iput base; return some inode : WalkM (Option Ino)).run fs := by
        unfold followLink
        change (if (!(fs.inode inode).isLnk) = true then _ else _ : WalkM (Option Ino)).run fs = _
        rw [isLnk]
        rfl
      rw [kept, run_bind_eq_ok] at ran
      obtain ⟨value, middle, _, returned⟩ := ran
      cases returned

/-- `namei` accounts for all references, unless it writes through a null inode. -/
theorem balanced_nameiFollow (oneMount : 1 ≤ mounts) (oneLink : 1 ≤ links) :
    (references true).Balanced 0 (nameiFollow current mounts links segment pathname) refsOf := by
  have follows : FollowsBalanced true (followLink current mounts links segment) :=
    balanced_followLink current oneMount fun _ => oneLink
  refine (balanced_findPlace oneMount follows pathname none).bind fun place => ?_
  cases place with
  | nothing => exact Ledger.Balanced.pure rfl
  | directory base => exact Ledger.Balanced.pure rfl
  | entry base inode =>
      refine (follows base inode).bind fun result => ?_
      cases result with
      | none =>
          intro fs rest _ _
          exact Or.inr ⟨rfl, rfl⟩
      | some inode =>
          have stored : (references true).Balanced (refsOf (some inode)) (setAtime (some inode))
              fun _ => refsOf (some inode) := Ledger.Balanced.pure rfl
          exact stored.bind fun _ => Ledger.Balanced.pure rfl

/-- An operation that accounts for its references without it writes through no null inode. -/
theorem run_ne_nullInode {α : Type} {given : Multiset Ino} {kept : α → Multiset Ino}
    {prog : WalkM α} (balanced : (references false).Balanced given prog kept) {fs : FileSys}
    {rest : Multiset Ino} (rootsFree : RootsFree fs) (isHeld : fs.refs = given + rest) :
    prog.run fs ≠ .error .nullInode := by
  intro ran
  have stopped := balanced fs rest rootsFree isHeld
  rw [ran] at stopped
  rcases stopped with isPanic | ⟨isTrue, _⟩
  · cases isPanic
  · cases isTrue

/-- `namei` writes through a null inode exactly when the path ends at a link that leads nowhere. -/
theorem nameiSafe_iff {fs : FileSys} (rootsFree : RootsFree fs) (oneMount : 1 ≤ mounts)
    (oneLink : 1 ≤ links) :
    NameiSafe current mounts links segment pathname fs ↔
      ¬Dangles current mounts links segment pathname fs := by
  have follows : FollowsBalanced false (followLink current mounts links segment) :=
    balanced_followLink current oneMount fun _ => oneLink
  have finds : (references false).Balanced 0
      (findPlace current mounts (followLink current mounts links segment) pathname none)
      Place.refs :=
    balanced_findPlace oneMount follows pathname none
  constructor
  · rintro ⟨noNull, _, _⟩ ⟨base, inode, before, after, found, _, followed⟩
    apply noNull
    rw [nameiFollow, namei, run_bind_eq_error]
    refine .inr ⟨_, before, found, ?_⟩
    change (followLink current mounts links segment base inode >>= _).run before = _
    rw [run_bind_eq_error]
    exact .inr ⟨none, after, followed, rfl⟩
  · intro leads
    refine ⟨?_, fun dangles => absurd dangles leads, ?_⟩
    · intro ran
      rw [nameiFollow, namei, run_bind_eq_error] at ran
      rcases ran with ran | ⟨place, before, found, ran⟩
      · exact run_ne_nullInode finds rootsFree (zero_add fs.refs).symm ran
      cases place with
      | nothing => cases ran
      | directory base => cases ran
      | entry base inode =>
          change (followLink current mounts links segment base inode >>= _).run before = _ at ran
          rw [run_bind_eq_error] at ran
          have reached := finds fs fs.refs rootsFree (zero_add fs.refs).symm
          rw [found] at reached
          rcases ran with ran | ⟨result, after, followed, ran⟩
          · exact run_ne_nullInode (follows base inode) reached.1 reached.2 ran
          · cases result with
            | some inode => cases ran
            | none =>
                exact leads ⟨base, inode, before, after, found,
                  isLnk_of_followLink_none followed, followed⟩
    · intro result t ran
      have balanced : (references true).Balanced 0
          (nameiFollow current mounts links segment pathname) refsOf :=
        balanced_nameiFollow oneMount oneLink
      have returned := balanced fs fs.refs rootsFree (zero_add fs.refs).symm
      rw [ran] at returned
      exact returned.2

theorem findPlace_linkCycle :
    (match (findPlace rootTask 1 (followLink rootTask 1 1 userSegment) [47] none).run linkCycle with
      | .ok (.directory _, _) => true
      | _ => false) = true := by
  decide +kernel

/-- A path to the root leads somewhere. -/
theorem nameiSafe_root : NameiSafe rootTask 1 1 userSegment [47] linkCycle := by
  rw [nameiSafe_iff (fun _ => rfl) (le_refl 1) (le_refl 1)]
  rintro ⟨base, inode, before, after, found, _⟩
  have isRoot := findPlace_linkCycle
  rw [found] at isRoot
  cases isRoot

/-- A link to a path through itself. -/
theorem not_nameiSafe_linkCycle : ¬NameiSafe rootTask 1 1 userSegment [97] linkCycle := by
  rintro ⟨noNull, _⟩
  apply noNull
  have isNull : (match (nameiFollow rootTask 1 1 userSegment [97]).run linkCycle with
      | .error stop => decide (stop = .nullInode)
      | _ => false) = true := by decide +kernel
  split at isNull
  next stop ran =>
    rw [ran, of_decide_eq_true isNull]
  · cases isNull

end Lookups

end Linux012.Fs.PathWalk
