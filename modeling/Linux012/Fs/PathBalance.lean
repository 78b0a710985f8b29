import Linux012.Fs.InodeSpec
import Linux012.Fs.PathWalk
import Linux012.Lib.Ledger

/-!
# What a path walk takes and gives back

Every call gives back the references that it is given or takes on its way, but for the one that it
returns.
-/

namespace Linux012.Fs.PathWalk

open Lib (Ledger)

/-- No file system is mounted on the root of one: `sys_mount` refuses `ROOT_INO`. -/
def RootsFree (fs : FileSys) : Prop := ∀ dev, fs.iMount ⟨dev, rootIno⟩ = false

/-- The account of the references to inodes.  Only a panic may end a call, and it is none of a
reference that is given back twice; with `nullToo`, a write through a null inode may end it, too. -/
def references (nullToo : Bool) : Ledger FileSys Ino Stop where
  held := FileSys.refs
  invariant := RootsFree
  mayStop stop := stop = .panic ∨ nullToo = true ∧ stop = .nullInode

variable {nullToo : Bool}

/-- The reference to an inode that a call returns, or is given. -/
def refsOf : Option Ino → Multiset Ino
  | none => 0
  | some n => {n}

/-! ## Single operations -/

theorem balanced_lift {α : Type} {given : Multiset Ino} {kept : α → Multiset Ino} {prog : FsM α}
    (spec : ∀ fs rest, fs.refs = given + rest → ∀ result t, prog fs = some (result, t) →
      t.iMount = fs.iMount ∧ t.refs = kept result + rest) :
    (references nullToo).Balanced given (lift prog) kept := by
  intro fs rest rootsFree isHeld
  cases ran : prog fs with
  | none =>
      have isLift : (lift prog).run fs = .error .panic := by
        simp [lift, StateT.run, ran]
      rw [isLift]
      exact .inl rfl
  | some reached =>
      obtain ⟨sameMounts, isKept⟩ := spec fs rest isHeld reached.1 reached.2 ran
      have isLift : (lift prog).run fs = .ok reached := by
        simp [lift, StateT.run, ran]
      rw [isLift]
      refine ⟨?_, isKept⟩
      intro dev
      rw [sameMounts]
      exact rootsFree dev

theorem balanced_hold (n : Ino) : (references nullToo).Balanced 0 (lift (hold n)) fun _ => {n} := by
  refine balanced_lift ?_
  intro fs rest isHeld result t ran
  cases ran
  rw [zero_add] at isHeld
  exact ⟨rfl, by rw [← isHeld]; rfl⟩

/-- `iput` drops one reference, also where it frees the inode. -/
theorem iput_refs {n : Ino} {fs t : FileSys} {rest : Multiset Ino} {result : Unit}
    (isHeld : fs.refs = n ::ₘ rest) (ran : Fs.iput n fs = some (result, t)) :
    t.iMount = fs.iMount ∧ t.refs = rest := by
  let before : FileSys := { fs with refs := rest }
  have isHold : before.hold n = fs := by
    rw [FileSys.hold, ← isHeld]
  have after := iput_spec.returns _ isHold.symm result t ran
  rcases after with ⟨_, same⟩ | ⟨_, _, node, released⟩
  · rw [same]
    exact ⟨rfl, rfl⟩
  · rw [released]
    exact ⟨rfl, rfl⟩

theorem balanced_iput (n : Ino) : (references nullToo).Balanced {n} (iput n) fun _ => 0 := by
  intro fs rest rootsFree isHeld
  have isCons : fs.refs = n ::ₘ rest := isHeld
  have counted : ¬fs.iCount n = 0 := by
    rw [FileSys.iCount, isCons, Multiset.count_cons_self]
    omega
  have dropped : (references nullToo).Balanced {n} (lift (Fs.iput n)) fun _ => 0 := by
    refine balanced_lift ?_
    intro fs rest isHeld result t ran
    rw [zero_add]
    exact iput_refs isHeld ran
  have isPut : (iput n).run fs = (lift (Fs.iput n)).run fs := by
    simp [iput, counted]
  rw [isPut]
  exact dropped fs rest rootsFree isHeld

theorem balanced_getEmptyInode :
    (references nullToo).Balanced 0 getEmptyInode fun _ => {emptyIno} := by
  have checked : (references nullToo).Balanced 0 (lift Fs.getEmptyInode) fun _ => 0 := by
    refine balanced_lift ?_
    intro fs rest isHeld result t ran
    rw [getEmptyInode_spec.returns fs rfl result t ran]
    exact ⟨rfl, isHeld⟩
  exact checked.bind fun _ => balanced_hold emptyIno

theorem balanced_putEmpty : (references nullToo).Balanced {emptyIno} putEmpty fun _ => 0 := by
  intro fs rest rootsFree isHeld
  have isCons : fs.refs = emptyIno ::ₘ rest := isHeld
  have counted : ¬fs.iCount emptyIno = 0 := by
    rw [FileSys.iCount, isCons, Multiset.count_cons_self]
    omega
  have isPut : putEmpty.run fs = .ok (⟨⟩, { fs with refs := fs.refs.erase emptyIno }) := by
    simp [putEmpty, counted]
    rfl
  rw [isPut]
  refine ⟨rootsFree, ?_⟩
  change fs.refs.erase emptyIno = 0 + rest
  rw [isCons, Multiset.erase_cons_head, zero_add]

/-- A reference to the empty inode becomes one to the inode that is read. -/
theorem balanced_fillEmpty (inode : Ino) :
    (references nullToo).Balanced {emptyIno} (fillEmpty inode) fun _ => {inode} := by
  have filled : (references nullToo).Balanced {emptyIno} (do putEmpty; lift (hold inode)) fun _ => {inode} :=
    balanced_putEmpty.bind fun _ => balanced_hold inode
  refine Ledger.Balanced.get_bind fun fs _ => ?_
  split
  · exact Ledger.Balanced.bind (Ledger.Balanced.throw (.inl rfl)) fun _ => filled
  · exact filled

/-- The empty inode is given back, and the one that has been found is returned. -/
theorem balanced_found (inode : Ino) :
    (references nullToo).Balanced ({inode} + {emptyIno}) (do putEmpty; return inode) fun n => {n} :=
  Ledger.Balanced.spend balanced_putEmpty (add_comm _ _) (Ledger.Balanced.pure rfl)

/-- The root of a mounted file system is found without another mount point. -/
theorem balanced_igetLoop {dev nr mounts : Nat} (enough : nr = rootIno ∨ 1 ≤ mounts) :
    (references nullToo).Balanced {emptyIno} (igetLoop mounts dev nr) fun n => {n} := by
  unfold igetLoop
  refine Ledger.Balanced.get_bind fun fs rootsFree => ?_
  split
  · have isHeld : (references nullToo).Balanced {emptyIno} (lift (hold ⟨dev, nr⟩))
        fun _ => {⟨dev, nr⟩} + {emptyIno} :=
      ((balanced_hold ⟨dev, nr⟩).frame {emptyIno}).congr (zero_add _).symm fun _ => rfl
    refine isHeld.bind fun _ => ?_
    split
    next isMount =>
      split
      · exact balanced_found ⟨dev, nr⟩
      · have mounted : nr ≠ rootIno := by
          intro isRoot
          rw [isRoot, rootsFree dev] at isMount
          cases isMount
        refine Ledger.Balanced.spend (balanced_iput ⟨dev, nr⟩) rfl ?_
        -- Behind a mount point, a root is looked for.
        cases mounts with
        | zero => omega
        | succ mounts => exact balanced_igetLoop (.inl rfl)
    · exact balanced_found ⟨dev, nr⟩
  · exact (balanced_fillEmpty ⟨dev, nr⟩).bind fun _ => Ledger.Balanced.pure rfl
termination_by mounts

theorem balanced_iget {mounts : Nat} (enough : 1 ≤ mounts) (dev nr : Nat) :
    (references nullToo).Balanced 0 (iget mounts dev nr) fun n => {n} := by
  have searched : (references nullToo).Balanced 0 (do getEmptyInode; igetLoop mounts dev nr)
      fun n => {n} :=
    balanced_getEmptyInode.bind fun _ => balanced_igetLoop (.inr enough)
  rw [iget]
  split
  · exact Ledger.Balanced.bind (Ledger.Balanced.throw (.inl rfl)) fun _ => searched
  · exact searched

/-- An inode is got while another one is held. -/
theorem balanced_iget_beside {mounts : Nat} (enough : 1 ≤ mounts) (dev nr : Nat) (dir : Ino) :
    (references nullToo).Balanced {dir} (iget mounts dev nr) fun n => {dir} + {n} :=
  ((balanced_iget enough dev nr).frame {dir}).congr (zero_add _).symm fun n => add_comm {dir} {n}

/-! ## Directories -/

theorem balanced_crossMount (dir : Ino) :
    (references nullToo).Balanced {dir} (crossMount dir) fun n => {n} := by
  rw [crossMount]
  split
  · exact Ledger.Balanced.pure rfl
  refine Ledger.Balanced.get_bind fun fs _ => ?_
  split
  · exact Ledger.Balanced.throw (.inl rfl)
  · split
    next mounted _ =>
      refine (balanced_iput dir).bind fun _ => ?_
      exact (balanced_hold mounted).bind fun _ => Ledger.Balanced.pure rfl
    · exact Ledger.Balanced.pure rfl

/-- The directory may be exchanged for another one, together with its reference. -/
theorem balanced_findEntry (current : Task) (dir : Ino) (name : Name) :
    (references nullToo).Balanced {dir} (findEntry current dir name) fun found => {found.1} := by
  rw [findEntry]
  split
  · split
    · exact Ledger.Balanced.get_bind fun _ _ => Ledger.Balanced.pure rfl
    · refine (balanced_crossMount dir).bind fun dir => ?_
      exact Ledger.Balanced.get_bind fun _ _ => Ledger.Balanced.pure rfl
  · exact Ledger.Balanced.get_bind fun _ _ => Ledger.Balanced.pure rfl

/-! ## Paths -/

/-- `follow_link` takes the references to the directory and to the inode. -/
def FollowsBalanced (nullToo : Bool) (followLink : Ino → Ino → WalkM (Option Ino)) : Prop :=
  ∀ dir inode, (references nullToo).Balanced ({dir} + {inode}) (followLink dir inode) refsOf

section Follow

variable {current : Task} {mounts : Nat} {followLink : Ino → Ino → WalkM (Option Ino)}

theorem balanced_walk (enough : 1 ≤ mounts) (follows : FollowsBalanced nullToo followLink)
    (components : List Name) (inode : Ino) :
    (references nullToo).Balanced {inode} (walk current mounts followLink components inode) refsOf := by
  induction components generalizing inode with
  | nil =>
      rw [walk]
      refine Ledger.Balanced.get_bind fun fs _ => ?_
      split
      · exact (balanced_iput inode).bind fun _ => Ledger.Balanced.pure rfl
      · exact Ledger.Balanced.pure rfl
  | cons thisname rest ih =>
      rw [walk]
      refine Ledger.Balanced.get_bind fun fs _ => ?_
      split
      · exact (balanced_iput inode).bind fun _ => Ledger.Balanced.pure rfl
      refine (balanced_findEntry current inode thisname).bind fun found => ?_
      split
      next dir => exact (balanced_iput dir).bind fun _ => Ledger.Balanced.pure rfl
      next dir de =>
        refine Ledger.Balanced.get_bind fun fs _ => ?_
        refine (balanced_iget_beside enough _ _ dir).bind fun inode => ?_
        refine (follows dir inode).bind fun result => ?_
        split
        · exact Ledger.Balanced.pure rfl
        next inode => exact ih inode

theorem balanced_startDir (base : Option Ino) :
    (references nullToo).Balanced (refsOf base) (startDir current base) fun n => {n} := by
  cases base with
  | some inode => exact Ledger.Balanced.pure rfl
  | none => exact (balanced_hold current.pwd).bind fun _ => Ledger.Balanced.pure rfl

theorem balanced_getDir (enough : 1 ≤ mounts) (follows : FollowsBalanced nullToo followLink)
    (pathname : List UInt8) (base : Option Ino) :
    (references nullToo).Balanced (refsOf base) (getDir current mounts followLink pathname base)
      refsOf := by
  refine (balanced_startDir base).bind fun inode => ?_
  split
  · refine (balanced_iput inode).bind fun _ => ?_
    exact (balanced_hold current.root).bind fun _ =>
      balanced_walk enough follows _ current.root
  · exact balanced_walk enough follows _ inode

theorem balanced_dirNamei (enough : 1 ≤ mounts) (follows : FollowsBalanced nullToo followLink)
    (pathname : List UInt8) (base : Option Ino) :
    (references nullToo).Balanced (refsOf base) (dirNamei current mounts followLink pathname base)
      fun place => refsOf (place.map Prod.fst) := by
  refine (balanced_getDir enough follows pathname base).bind fun result => ?_
  split
  · exact Ledger.Balanced.pure rfl
  · exact Ledger.Balanced.pure rfl

/-- The references to what `_namei` has found. -/
def Place.refs : Place → Multiset Ino
  | .nothing => 0
  | .directory base => {base}
  | .entry base inode => {base} + {inode}

theorem balanced_findPlace (enough : 1 ≤ mounts) (follows : FollowsBalanced nullToo followLink)
    (pathname : List UInt8) (base : Option Ino) :
    (references nullToo).Balanced (refsOf base)
      (findPlace current mounts followLink pathname base) Place.refs := by
  refine (balanced_dirNamei enough follows pathname base).bind fun place => ?_
  split
  · exact Ledger.Balanced.pure rfl
  next base basename =>
    split
    · exact Ledger.Balanced.pure rfl
    refine (balanced_findEntry current base basename).bind fun found => ?_
    split
    next base => exact (balanced_iput base).bind fun _ => Ledger.Balanced.pure rfl
    next base de =>
      refine Ledger.Balanced.get_bind fun fs _ => ?_
      exact (balanced_iget_beside enough _ _ base).bind fun inode => Ledger.Balanced.pure rfl

/-- Without a link to follow, an inode is returned. -/
theorem balanced_namei_noFollow (enough : 1 ≤ mounts)
    (follows : FollowsBalanced nullToo followLink) (pathname : List UInt8) (base : Option Ino) :
    (references nullToo).Balanced (refsOf base)
      (namei current mounts followLink pathname base false) refsOf := by
  refine (balanced_findPlace enough follows pathname base).bind fun place => ?_
  cases place with
  | nothing => exact Ledger.Balanced.pure rfl
  | directory base => exact Ledger.Balanced.pure rfl
  | entry base inode =>
      exact Ledger.Balanced.spend (balanced_iput base) rfl
        (Ledger.Balanced.bind (Ledger.Balanced.pure rfl) fun _ => Ledger.Balanced.pure rfl)

end Follow

/-- One link inside another one is enough: the text of a link is read in the kernel's segment. -/
theorem balanced_followLink (current : Task) {mounts links : Nat} {segment : UInt16}
    (enough : 1 ≤ mounts) (bounded : segment = userSegment → 1 ≤ links) :
    FollowsBalanced nullToo (followLink current mounts links segment) := by
  intro dir inode
  unfold followLink
  refine Ledger.Balanced.get_bind fun fs _ => ?_
  split
  · exact Ledger.Balanced.spend (balanced_iput dir) rfl (Ledger.Balanced.pure rfl)
  split
  · refine Ledger.Balanced.spend (balanced_iput dir) rfl ?_
    exact (balanced_iput inode).bind fun _ => Ledger.Balanced.pure rfl
  next fromUser =>
    have isUser : segment = userSegment := by
      simp only [ne_eq, decide_not, Bool.or_eq_true, Bool.not_eq_true', not_or,
        decide_eq_false_iff_not, not_not] at fromUser
      exact fromUser.1
    refine Ledger.Balanced.spend (balanced_iput inode) (add_comm {dir} {inode}) ?_
    have one := bounded isUser
    cases links with
    | zero => omega
    | succ links =>
        have inKernel : FollowsBalanced nullToo (followLink current mounts links kernelSegment) :=
          balanced_followLink current enough (fun isUser => absurd isUser (by decide))
        exact balanced_namei_noFollow enough inKernel _ (some dir)
termination_by links

/-! ## Whole walks -/

/-- `get_dir`, `dir_namei` and `lnamei` end, with one link inside another one at most, and give back
all references but for the one to the inode that they return. -/
theorem pathWalks_balanced (current : Task) (segment : UInt16) (pathname : List UInt8)
    {mounts links : Nat} (oneMount : 1 ≤ mounts) (oneLink : 1 ≤ links) :
    (∀ base, (references false).Balanced (refsOf base)
        (getDir current mounts (followLink current mounts links segment) pathname base) refsOf) ∧
      (∀ base, (references false).Balanced (refsOf base)
        (dirNamei current mounts (followLink current mounts links segment) pathname base)
        fun place => refsOf (place.map Prod.fst)) ∧
      (references false).Balanced 0 (lnamei current mounts links segment pathname) refsOf := by
  have follows : FollowsBalanced false (followLink current mounts links segment) :=
    balanced_followLink current oneMount fun _ => oneLink
  refine ⟨fun base => ?_, fun base => ?_, ?_⟩
  · exact balanced_getDir oneMount follows pathname base
  · exact balanced_dirNamei oneMount follows pathname base
  · exact balanced_namei_noFollow oneMount follows pathname none

/-- An inode without an entry. -/
def blankInode : Inode where
  mode := 0o100644
  uid := 0
  gid := 0
  size := 0
  nlinks := 1
  rdev := 0
  zone _ := true
  entry _ := ⟨0, []⟩
  bytes _ := 0

/-- A root directory with a link `a` to `a/a`. -/
def linkCycle : FileSys where
  imap := {⟨1, 1⟩, ⟨1, 2⟩}
  inode n :=
    if n.num = 1 then
      { blankInode with
        mode := 0o040755
        size := 16
        entry := fun _ => ⟨2, [97]⟩ }
    else
      { blankInode with
        mode := 0o120777
        bytes := fun index => [97, 47, 97].getD index 0 }
  refs := {⟨1, 1⟩}
  superBlock := [⟨1, 10, none⟩]
  iMount _ := false
  newBlocks := []

/-- The superuser at the root. -/
def rootTask : Task where
  euid := 0
  egid := 0
  groups := []
  umask := 0
  pwd := ⟨1, 1⟩
  root := ⟨1, 1⟩

theorem lnamei_linkCycle :
    (match (lnamei rootTask 1 1 userSegment [97, 47, 97]).run linkCycle with
      | .ok (none, _) => true
      | _ => false) = true := by
  decide +kernel

/-- The cycle is not followed, and no reference is left. -/
theorem pathWalks_balanced_linkCycle :
    ∃ t, (lnamei rootTask 1 1 userSegment [97, 47, 97]).run linkCycle = .ok (none, t) ∧
      t.refs = {⟨1, 1⟩} := by
  have isNull := lnamei_linkCycle
  obtain ⟨t, ran⟩ : ∃ t, (lnamei rootTask 1 1 userSegment [97, 47, 97]).run linkCycle =
      .ok (none, t) := by
    split at isNull
    next t ran => exact ⟨t, ran⟩
    · cases isNull
  have balanced := (pathWalks_balanced rootTask userSegment [97, 47, 97] (le_refl 1)
    (le_refl 1)).2.2 linkCycle {⟨1, 1⟩} (fun _ => rfl) rfl
  rw [ran] at balanced
  exact ⟨t, ran, balanced.2⟩

end Linux012.Fs.PathWalk
