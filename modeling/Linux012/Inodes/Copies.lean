import Mathlib.Data.List.Count
import Linux012.Lib.Run
import Linux012.Inodes.Table

/-!
# One copy of an inode

Any number of tasks look inodes up, release, create and write them, in any order.  An
inode is in at most one slot of the table, as long as no inode is freed while a task is
inside `iget` for it: such an `iget` would fill a slot with an inode that is free by
then, and `new_inode` could give the same number to another slot.
-/

namespace Linux012.Inodes

/-- The inode that an `iget` asleep at the place looks for. -/
def Wait.wants : Wait → Option (Nat × Nat)
  | .empty _ (.iget dev nr) | .emptyWrite _ (.iget dev nr) | .found _ _ dev nr
  | .crossed _ dev nr | .put _ (.crosses _ dev nr) | .putSync _ (.crosses _ dev nr)
  | .putSynced _ (.crosses _ dev nr) | .putTruncate _ (.crosses _ dev nr)
  | .putWrite _ (.crosses _ dev nr) => some (dev, nr)
  | _ => none

/-- The inode table, and where each task sleeps in a call. -/
structure System where
  table : Table
  call : Nat → Option Wait

/-- A call begins, a task goes on, or something else happens to inodes that a task has
references to. -/
inductive Action where
  | iget (task dev nr : Nat)
  | iput (task : Nat) (i : Slot)
  | newInode (task dev : Nat)
  | getEmptyInode (task : Nat)
  | resume (task : Nat) (isBlk : Bool) (iNlinks : Nat)
  /-- `sync_inodes` comes to a dirty inode that is not locked. -/
  | syncInode (task : Nat) (i : Slot)
  /-- `inode->i_count++`, as in `fork` and `dup`; the new reference can be another task's. -/
  | share (task other : Nat) (i : Slot)
  /-- The task changes an inode that it has. -/
  | change (task : Nat) (i : Slot) (isBlk : Bool) (iNlinks : Nat) (iDirt : Bool)
  /-- A file system was mounted on an inode that the task has. -/
  | mount (task : Nat) (i : Slot) (dev : Nat)
  | umount (task : Nat) (i : Slot)
  deriving DecidableEq, Repr

/-- `i_mount` of an inode, and the device that is mounted on it. -/
def Table.setMount (t : Table) (i : Slot) (dev : Option Nat) : Table :=
  { t.setInode i { t.inode i with iMount := dev.isSome } with
    mounted := Function.update t.mounted i dev }

namespace System

variable (s : System)

/-- The task sleeps or is out of the call. -/
def goOn (task : Nat) (result : Table × Outcome) : System where
  table := result.1
  call := Function.update s.call task result.2.wait

/-- The task is in no call and has a reference to the inode. -/
def Has (task : Nat) (i : Slot) : Prop := s.call task = none ∧ ⟨task, i⟩ ∈ s.table.refs

instance (task : Nat) (i : Slot) : Decidable (s.Has task i) :=
  inferInstanceAs (Decidable (_ ∧ _))

/-- One step.  `iget` is called only for inodes that are allocated. -/
def step : Action → Option System
  | .iget task dev nr =>
      if s.call task = none ∧ dev ≠ 0 ∧ s.table.imap dev nr then
        (s.table.getEmptyInode task (.iget dev nr)).map (s.goOn task)
      else none
  | .iput task i =>
      if s.Has task i then (s.table.iput task i (.returns none)).map (s.goOn task) else none
  | .newInode task dev =>
      if s.call task = none ∧ dev ≠ 0 then
        (s.table.getEmptyInode task (.newInode dev)).map (s.goOn task)
      else none
  | .getEmptyInode task =>
      if s.call task = none then
        (s.table.getEmptyInode task .getEmptyInode).map (s.goOn task)
      else none
  | .resume task isBlk iNlinks => do
      let wait ← s.call task
      let result ← s.table.resume task wait isBlk iNlinks
      return s.goOn task result
  | .syncInode task i =>
      let node := s.table.inode i
      if s.call task = none ∧ node.iDirt ∧ ¬ node.iPipe ∧ node.iDev ≠ 0 ∧ ¬ node.iLock then
        some (s.goOn task (s.table.lock i, .sleeps (.syncWrite i)))
      else none
  | .share task other i =>
      if s.Has task i then some { s with table := s.table.take other i } else none
  | .change task i isBlk iNlinks iDirt =>
      if s.Has task i ∧ (s.table.inode i).iDev ≠ 0 then
        some { s with table := s.table.setInode i { s.table.inode i with
          isBlk := isBlk, iNlinks := iNlinks, iDirt := iDirt } }
      else none
  | .mount task i dev =>
      if s.Has task i ∧ (s.table.inode i).iDev ≠ 0 ∧ dev ≠ 0 ∧ s.table.imap dev rootIno then
        some { s with table := s.table.setMount i (some dev) }
      else none
  | .umount task i =>
      if s.Has task i then
        some { s with table := s.table.setMount i none }
      else none

end System

/-- An empty table on devices with the given bitmaps. -/
def start (imap : Nat → Nat → Bool) (ninodes : Nat → Nat) : System where
  table := {
    inode := fun _ => .zero
    lastInode := 0
    imap := imap
    ninodes := ninodes
    mounted := fun _ => none
    refs := [] }
  call _ := none

/-! ## What is claimed -/

/-- The slot is set aside for the task. -/
structure Table.Reserved (t : Table) (task : Nat) (i : Slot) : Prop where
  has : ⟨task, i⟩ ∈ t.refs
  once : (t.inode i).iCount = 1
  iDev : (t.inode i).iDev = 0
  iLock : (t.inode i).iLock = false
  iDirt : (t.inode i).iDirt = false
  iPipe : (t.inode i).iPipe = false

/-- `iget` with the slot `empty` set aside returns the inode that is in slot `i`, with one
reference more, and gives `empty` back. -/
def Table.Finds (t : Table) (empty i : Slot) (result : Option (Table × Outcome)) :
    Prop :=
  ∃ t', result = some (t', .returns (some i)) ∧
    t'.inode i = { t.inode i with iCount := (t.inode i).iCount + 1 } ∧
    t'.inode empty = { t.inode empty with iCount := 0 } ∧
    ∀ j, j ≠ i → j ≠ empty → t'.inode j = t.inode j

/-- One copy per inode, which `iget` finds. -/
structure System.OneCopy (s : System) : Prop where
  once : ∀ i j, (s.table.inode i).iDev ≠ 0 → 0 < (s.table.inode i).iCount →
    0 < (s.table.inode j).iCount → (s.table.inode j).iDev = (s.table.inode i).iDev →
    (s.table.inode j).iNum = (s.table.inode i).iNum → i = j
  /-- The search of `iget`, for an inode that is not a mount point and not locked. -/
  scans : ∀ task empty i dev nr, dev ≠ 0 → s.table.Reserved task empty →
    s.table.Carries i dev nr → (s.table.inode i).iMount = false →
    (s.table.inode i).iLock = false →
    s.table.Finds empty i (s.table.scan task empty dev nr)
  /-- A locked one is waited for, with a slot set aside. -/
  waits : ∀ task empty i dev nr, s.call task = some (.found empty i dev nr) →
    dev ≠ 0 ∧ s.table.Reserved task empty ∧
      (s.table.Carries i dev nr → (s.table.inode i).iMount = false →
        (s.table.inode i).iLock = false → ∀ isBlk iNlinks,
        s.table.Finds empty i
          (s.table.resume task (.found empty i dev nr) isBlk iNlinks))

/-- `free_inode` is not reached for an inode that a task is inside `iget` for, nor for the
root of a mounted file system. -/
def System.FreesUnwanted (s : System) : Action → Prop
  | .resume task .. => ∀ i after, s.call task = some (.putTruncate i after) →
      (∀ other wait, s.call other = some wait →
        wait.wants ≠ some ((s.table.inode i).iDev, (s.table.inode i).iNum)) ∧
      ∀ j, s.table.mounted j = some (s.table.inode i).iDev → (s.table.inode i).iNum ≠ rootIno
  | _ => True

/-! ## The invariant -/

variable {t t' : Table} {task other : Nat} {i e empty : Slot} {dev nr : Nat} {after : After}

/-- What every call keeps. -/
structure Table.Good (t : Table) : Prop where
  once : ∀ i j, (t.inode i).iDev ≠ 0 → (t.inode j).iDev = (t.inode i).iDev →
    (t.inode j).iNum = (t.inode i).iNum → i = j
  allocated : ∀ i, (t.inode i).iDev ≠ 0 → t.imap (t.inode i).iDev (t.inode i).iNum = true
  counted : ∀ i, (t.inode i).iCount = t.refs.countP fun ref => ref.slot == i
  roots : ∀ i dev, t.mounted i = some dev → dev ≠ 0 ∧ t.imap dev rootIno = true

/-- The inode that the call looks for after an `iput`. -/
def After.wants : After → Option (Nat × Nat)
  | .returns _ => none
  | .crosses _ dev nr => some (dev, nr)

/-- An inode that can be looked for. -/
def Table.Known (t : Table) (wanted : Option (Nat × Nat)) : Prop :=
  ∀ dev nr, wanted = some (dev, nr) → dev ≠ 0 ∧ t.imap dev nr = true

/-- What a task relies on while it releases `i`. -/
def Table.Releases (t : Table) (task : Nat) (i : Slot) (after : After) : Prop :=
  ⟨task, i⟩ ∈ t.refs ∧
    ∀ empty dev nr, after = .crosses empty dev nr → empty ≠ i ∧ t.Reserved task empty

/-- What a task relies on while it sleeps. -/
def Table.Keeps (t : Table) (task : Nat) : Wait → Prop
  | .empty _ why | .emptyWrite _ why => ∀ dev, why = .newInode dev → dev ≠ 0
  | .syncWrite _ => True
  | .found empty _ _ _ | .crossed empty _ _ => t.Reserved task empty
  | .readLock i | .reading i => ⟨task, i⟩ ∈ t.refs
  | .put i after => t.Releases task i after
  | .putSync i after | .putSynced i after | .putTruncate i after | .putWrite i after =>
      t.Releases task i after ∧ (t.inode i).iDev ≠ 0

/-- What a task relies on after a step. -/
def Table.Gives (t : Table) (task : Nat) : Outcome → Prop
  | .sleeps wait => t.Keeps task wait ∧ t.Known wait.wants
  | .returns _ => True

/-- What a task leaves as it is when it changes the table: references of other tasks and
the inodes that they are to, slots that they have set aside, and the bits of inodes in
`kept`. -/
structure Change (kept : Nat → Nat → Prop) (t : Table) (task : Nat) (t' : Table) : Prop where
  others : ∀ ref ∈ t.refs, ref.task ≠ task → ref ∈ t'.refs
  identity : ∀ ref ∈ t.refs, ref.task ≠ task →
    t'.Carries ref.slot (t.inode ref.slot).iDev (t.inode ref.slot).iNum
  frame : ∀ other e, other ≠ task → t.Reserved other e → t'.inode e = t.inode e
  bits : ∀ dev nr, kept dev nr → t.imap dev nr = true → t'.imap dev nr = true

/-- A step of a task. -/
structure Step (kept : Nat → Nat → Prop) (t : Table) (task : Nat) (result : Table × Outcome) :
    Prop where
  good : result.1.Good
  change : Change kept t task result.1
  gives : result.1.Gives task result.2

variable {kept : Nat → Nat → Prop} {result : Table × Outcome}

theorem Change.refl : Change kept t task t :=
  ⟨fun _ there _ => there, fun _ _ _ => ⟨rfl, rfl⟩, fun _ _ _ _ => rfl, fun _ _ _ set => set⟩

/-- Slots set aside by others stay so. -/
theorem Change.reserved (change : Change kept t task t') (different : other ≠ task)
    (reserved : t.Reserved other e) : t'.Reserved other e := by
  have same := change.frame other e different reserved
  refine ⟨change.others _ reserved.has different, ?_, ?_, ?_, ?_, ?_⟩
  · rw [same, reserved.once]
  · rw [same, reserved.iDev]
  · rw [same, reserved.iLock]
  · rw [same, reserved.iDirt]
  · rw [same, reserved.iPipe]

theorem Change.trans {t'' : Table} (first : Change kept t task t')
    (second : Change kept t' task t'') : Change kept t task t'' where
  others ref there different := second.others ref (first.others ref there different) different
  identity ref there different := by
    have before := first.identity ref there different
    have after := second.identity ref (first.others ref there different) different
    rwa [before.1, before.2] at after
  frame other e different reserved :=
    (second.frame other e different (first.reserved different reserved)).trans
      (first.frame other e different reserved)
  bits dev nr known set := second.bits dev nr known (first.bits dev nr known set)

theorem Step.afterChange (step : Step kept t' task result) (change : Change kept t task t') :
    Step kept t task result :=
  ⟨step.good, change.trans step.change, step.gives⟩

/-! ## Slots set aside -/

/-- The only reference to a slot that is set aside is its task's. -/
theorem Table.Good.reserved_ne (good : t.Good) (reserved : t.Reserved other e)
    (has : ⟨task, i⟩ ∈ t.refs) (different : other ≠ task) : e ≠ i := by
  intro same
  subst same
  have two : [⟨other, e⟩, ⟨task, e⟩].Subperm t.refs := by
    apply List.subperm_of_subset
    · simp [different]
    · intro ref member
      rcases List.mem_pair.mp member with rfl | rfl
      · exact reserved.has
      · exact has
  have counted := two.countP_le fun ref => ref.slot == e
  rw [← good.counted e, reserved.once] at counted
  simp at counted

theorem Table.Reserved.ne_of_iDev (reserved : t.Reserved other e)
    (onDevice : (t.inode i).iDev ≠ 0) : e ≠ i := by
  intro same
  rw [← same] at onDevice
  exact onDevice reserved.iDev

/-- A slot that no other task has set aside. -/
def Table.NotOthers (t : Table) (task : Nat) (i : Slot) : Prop :=
  ∀ other e, other ≠ task → t.Reserved other e → e ≠ i

theorem Table.Good.notOthers (good : t.Good) (has : ⟨task, i⟩ ∈ t.refs) :
    t.NotOthers task i :=
  fun _ _ different reserved => good.reserved_ne reserved has different

theorem Table.notOthers_of_iDev (onDevice : (t.inode i).iDev ≠ 0) : t.NotOthers task i :=
  fun _ _ _ reserved => reserved.ne_of_iDev onDevice

/-- The slot changes, and what is in it stays. -/
theorem carries_setInode {node : MInode} (sameDev : node.iDev = (t.inode i).iDev)
    (sameNum : node.iNum = (t.inode i).iNum) (j : Slot) :
    (t.setInode i node).Carries j (t.inode j).iDev (t.inode j).iNum := by
  by_cases here : j = i
  · subst here
    simp [Table.Carries, Table.setInode, sameDev, sameNum]
  · simp [Table.Carries, Table.setInode, here]

theorem carries_take (j : Slot) :
    (t.take task i).Carries j (t.inode j).iDev (t.inode j).iNum := by
  by_cases here : j = i
  · subst here
    simp [Table.Carries, Table.take, Table.setInode]
  · simp [Table.Carries, Table.take, Table.setInode, here]

theorem carries_drop (j : Slot) :
    (t.drop task i).Carries j (t.inode j).iDev (t.inode j).iNum := by
  by_cases here : j = i
  · subst here
    simp [Table.Carries, Table.drop, Table.setInode]
  · simp [Table.Carries, Table.drop, Table.setInode, here]

theorem Change.setInode {node : MInode} (notOthers : t.NotOthers task i)
    (sameDev : node.iDev = (t.inode i).iDev) (sameNum : node.iNum = (t.inode i).iNum) :
    Change kept t task (t.setInode i node) where
  others _ there _ := there
  identity ref _ _ := carries_setInode sameDev sameNum ref.slot
  frame other e different reserved :=
    Function.update_of_ne (notOthers other e different reserved) _ _
  bits _ _ _ set := set

/-! ## Changes of one slot -/

/-- What is in the slots and the bitmaps stays, and the references are counted. -/
theorem Table.Good.of_carries (good : t.Good)
    (same : ∀ j, t'.Carries j (t.inode j).iDev (t.inode j).iNum) (sameMap : t'.imap = t.imap)
    (sameMounted : t'.mounted = t.mounted)
    (counted : ∀ j, (t'.inode j).iCount = t'.refs.countP fun ref => ref.slot == j) :
    t'.Good := by
  refine ⟨?_, ?_, counted, ?_⟩
  · intro j k
    rw [(same j).1, (same k).1, (same j).2, (same k).2]
    exact good.once j k
  · intro j
    rw [(same j).1, (same j).2, sameMap]
    exact good.allocated j
  · rw [sameMap, sameMounted]
    exact good.roots

theorem Table.Good.setInode {node : MInode} (good : t.Good)
    (sameDev : node.iDev = (t.inode i).iDev) (sameNum : node.iNum = (t.inode i).iNum)
    (sameCount : node.iCount = (t.inode i).iCount) : (t.setInode i node).Good := by
  apply good.of_carries (carries_setInode sameDev sameNum) rfl rfl
  intro j
  change _ = t.refs.countP _
  rw [← good.counted j]
  by_cases here : j = i
  · subst here
    simp [Table.setInode, sameCount]
  · simp [Table.setInode, here]

theorem Table.Good.setMount {root : Option Nat} (good : t.Good)
    (known : ∀ dev, root = some dev → dev ≠ 0 ∧ t.imap dev rootIno = true) :
    (t.setMount i root).Good := by
  have same : (t.setInode i { t.inode i with iMount := root.isSome }).Good :=
    good.setInode rfl rfl rfl
  refine ⟨same.once, same.allocated, same.counted, ?_⟩
  intro j dev isMounted
  change Function.update t.mounted i root j = some dev at isMounted
  by_cases here : j = i
  · rw [here, Function.update_self] at isMounted
    exact known dev isMounted
  · rw [Function.update_of_ne here] at isMounted
    exact good.roots j dev isMounted

theorem Change.setMount {root : Option Nat} (notOthers : t.NotOthers task i) :
    Change kept t task (t.setMount i root) := by
  have same : Change kept t task (t.setInode i { t.inode i with iMount := root.isSome }) :=
    Change.setInode notOthers rfl rfl
  exact ⟨same.others, same.identity, same.frame, same.bits⟩

theorem Table.Good.take (good : t.Good) : (t.take task i).Good := by
  apply good.of_carries carries_take rfl rfl
  intro j
  simp only [Table.take, Table.setInode, List.countP_cons, Function.update_apply]
  by_cases here : j = i
  · simp [here, good.counted i]
  · simp [here, good.counted j, Ne.symm here]

theorem Table.Good.drop (good : t.Good) (has : ⟨task, i⟩ ∈ t.refs) : (t.drop task i).Good := by
  apply good.of_carries carries_drop rfl rfl
  intro j
  simp only [Table.drop, Table.setInode, List.countP_erase, Function.update_apply]
  by_cases here : j = i
  · simp [here, good.counted i, has]
  · simp [here, good.counted j, Ne.symm here]

theorem Change.drop (good : t.Good) (has : ⟨task, i⟩ ∈ t.refs) :
    Change kept t task (t.drop task i) where
  others ref there different := by
    apply (List.mem_erase_of_ne _).mpr there
    intro same
    exact different (same ▸ rfl)
  identity ref _ _ := carries_drop ref.slot
  frame other e different reserved :=
    Function.update_of_ne (good.reserved_ne reserved has different) _ _
  bits _ _ _ set := set

theorem Change.take (notOthers : t.NotOthers task i) : Change kept t task (t.take task i) where
  others _ there _ := List.mem_cons_of_mem _ there
  identity ref _ _ := carries_take ref.slot
  frame other e different reserved :=
    Function.update_of_ne (notOthers other e different reserved) _ _
  bits _ _ _ set := set

theorem Table.Reserved.congr (reserved : t.Reserved task e) (same : t'.inode e = t.inode e)
    (has : ⟨task, e⟩ ∈ t'.refs) : t'.Reserved task e := by
  refine ⟨has, ?_, ?_, ?_, ?_, ?_⟩
  · rw [same, reserved.once]
  · rw [same, reserved.iDev]
  · rw [same, reserved.iLock]
  · rw [same, reserved.iDirt]
  · rw [same, reserved.iPipe]

/-! ## iput -/

/-- What a task relies on while it releases does not depend on other slots. -/
theorem Table.Releases.congr {j : Slot} {node : MInode} (releases : t.Releases task i after)
    (notEmpty : ∀ empty dev nr, after = .crosses empty dev nr → empty ≠ j) :
    (t.setInode j node).Releases task i after := by
  refine ⟨releases.1, ?_⟩
  intro empty dev nr crosses
  obtain ⟨differs, reserved⟩ := releases.2 empty dev nr crosses
  have same : (t.setInode j node).inode empty = t.inode empty :=
    Function.update_of_ne (notEmpty empty dev nr crosses) _ _
  exact ⟨differs, reserved.congr same reserved.has⟩

/-- The end of an `iput`, in a table where the reference is gone. -/
theorem afterPut_step (good : t'.Good) (change : Change kept t task t')
    (releases : t.Releases task i after) (known : t'.Known after.wants)
    (elsewhere : ∀ e, e ≠ i → t'.inode e = t.inode e ∧
      (⟨task, e⟩ ∈ t.refs → ⟨task, e⟩ ∈ t'.refs)) :
    Step kept t task (t', Table.afterPut after) := by
  refine ⟨good, change, ?_⟩
  cases after with
  | returns result => trivial
  | crosses empty dev nr =>
      obtain ⟨differs, reserved⟩ := releases.2 empty dev nr rfl
      obtain ⟨same, has⟩ := elsewhere empty differs
      exact ⟨reserved.congr same (has reserved.has), known⟩

theorem drop_step (good : t.Good) (releases : t.Releases task i after)
    (known : t.Known after.wants) :
    Step kept t task (t.drop task i, Table.afterPut after) := by
  apply afterPut_step (good.drop releases.1) (Change.drop good releases.1) releases known
  intro e differs
  refine ⟨Function.update_of_ne differs _ _, fun has => ?_⟩
  apply (List.mem_erase_of_ne _).mpr has
  intro same
  exact differs (congrArg Ref.slot same)

theorem wants_put (i : Slot) (after : After) : (Wait.put i after).wants = after.wants ∧
    (Wait.putSync i after).wants = after.wants ∧ (Wait.putSynced i after).wants = after.wants ∧
    (Wait.putTruncate i after).wants = after.wants ∧
    (Wait.putWrite i after).wants = after.wants := by
  cases after <;> exact ⟨rfl, rfl, rfl, rfl, rfl⟩

theorem putRepeat_step (good : t.Good) (releases : t.Releases task i after)
    (known : t.Known after.wants) (onDevice : (t.inode i).iDev ≠ 0)
    (taken : t.putRepeat task i after = some result) : Step kept t task result := by
  obtain ⟨-, -, -, truncates, writes⟩ := wants_put i after
  rw [Table.putRepeat] at taken
  split at taken
  · cases taken
    exact drop_step good releases known
  · split at taken
    · cases taken
      exact ⟨good, Change.refl, ⟨releases, onDevice⟩, truncates ▸ known⟩
    · split at taken
      · cases taken
        have locked : (t.lock i).Releases task i after :=
          releases.congr fun empty dev nr crosses => (releases.2 empty dev nr crosses).1
        refine ⟨good.setInode rfl rfl rfl,
          Change.setInode (good.notOthers releases.1) rfl rfl, ⟨locked, ?_⟩, writes ▸ known⟩
        simpa [Table.lock, Table.setInode] using onDevice
      · cases taken
        exact drop_step good releases known

theorem putUnlocked_step (good : t.Good) (releases : t.Releases task i after)
    (known : t.Known after.wants) (taken : t.putUnlocked task i after = some result) :
    Step kept t task result := by
  rw [Table.putUnlocked] at taken
  split at taken
  · cases taken
  · split at taken
    · dsimp only at taken
      have dropped : Step kept t task (t.drop task i, Table.afterPut after) :=
        drop_step good releases known
      split at taken
      · cases taken
        exact dropped
      · cases taken
        have gone := dropped.good
        have notOthers : t.NotOthers task i := good.notOthers releases.1
        refine afterPut_step (gone.setInode rfl rfl rfl) ?_ releases known ?_
        · refine ⟨dropped.change.others, ?_, ?_, dropped.change.bits⟩
          · intro ref there different
            have same := dropped.change.identity ref there different
            rw [← same.1, ← same.2]
            apply carries_setInode
            · rfl
            · rfl
          · intro other e different reserved
            have differs := notOthers other e different reserved
            exact (Function.update_of_ne differs _ _).trans (Function.update_of_ne differs _ _)
        · intro e differs
          refine ⟨?_, fun has => ?_⟩
          · exact (Function.update_of_ne differs _ _).trans (Function.update_of_ne differs _ _)
          · apply (List.mem_erase_of_ne _).mpr has
            intro same
            exact differs (congrArg Ref.slot same)
    · split at taken
      · cases taken
        exact drop_step good releases known
      · rename_i onDevice
        split at taken
        · cases taken
          exact ⟨good, Change.refl, ⟨releases, onDevice⟩, (wants_put i after).2.1 ▸ known⟩
        · exact putRepeat_step good releases known onDevice taken

theorem iput_step (good : t.Good) (releases : t.Releases task i after)
    (known : t.Known after.wants) (taken : t.iput task i after = some result) :
    Step kept t task result := by
  rw [Table.iput] at taken
  split at taken
  · cases taken
    exact ⟨good, Change.refl, releases, (wants_put i after).1 ▸ known⟩
  · exact putUnlocked_step good releases known taken

/-- A task that has the only reference. -/
theorem Table.Good.sole (good : t.Good) (has : ⟨task, i⟩ ∈ t.refs)
    (few : (t.inode i).iCount ≤ 1) :
    (t.refs.erase ⟨task, i⟩).countP (fun ref => ref.slot == i) = 0 ∧
      ∀ ref ∈ t.refs, ref.task ≠ task → ref.slot ≠ i := by
  rw [good.counted i] at few
  have gone : (t.refs.erase ⟨task, i⟩).countP (fun ref => ref.slot == i) = 0 := by
    simp only [List.countP_erase, has, BEq.rfl, and_self, if_true]
    omega
  refine ⟨gone, fun ref there different here => ?_⟩
  have left : ref ∈ t.refs.erase ⟨task, i⟩ := by
    apply (List.mem_erase_of_ne _).mpr there
    intro same
    exact different (same ▸ rfl)
  have nobody := List.countP_eq_zero.mp gone ref left
  rw [here, BEq.rfl] at nobody
  exact nobody rfl

/-- `free_inode` takes the inode out of the table, and its number out of the bitmap. -/
theorem freeInode_step (good : t.Good) (releases : t.Releases task i after)
    (known : t.Known after.wants) (onDevice : (t.inode i).iDev ≠ 0)
    (spares : ∀ dev nr, kept dev nr ∨ after.wants = some (dev, nr) ∨
      (nr = rootIno ∧ ∃ j, t.mounted j = some dev) →
        ¬ ((t.inode i).iDev = dev ∧ (t.inode i).iNum = nr))
    (taken : t.freeInode task i after = some result) : Step kept t task result := by
  simp only [Table.freeInode, if_neg onDevice] at taken
  split at taken
  · cases taken
  · rename_i few
    split at taken
    · cases taken
    · split at taken
      · cases taken
      · cases taken
        have notOthers : t.NotOthers task i := good.notOthers releases.1
        obtain ⟨gone, nobody⟩ := good.sole releases.1 (Nat.not_lt.mp few)
        have spared {dev nr : Nat} (set : t.imap dev nr = true)
            (differs : ¬ ((t.inode i).iDev = dev ∧ (t.inode i).iNum = nr)) :
            Function.update t.imap (t.inode i).iDev (Function.update
              (t.imap (t.inode i).iDev) (t.inode i).iNum false) dev nr = true := by
          by_cases sameDev : dev = (t.inode i).iDev
          · subst sameDev
            have otherNum : nr ≠ (t.inode i).iNum := fun same => differs ⟨rfl, same.symm⟩
            rw [Function.update_self, Function.update_of_ne otherNum, set]
          · rw [Function.update_of_ne sameDev, set]
        refine afterPut_step ⟨?_, ?_, ?_, ?_⟩ ⟨?_, ?_, ?_, ?_⟩ releases ?_ ?_
        · intro j k
          simp only [Table.setBit, Table.setInode, Function.update_apply]
          split <;> split
          · simp [MInode.zero]
          · simp [MInode.zero]
          · intro hasDev same
            exact absurd same.symm hasDev
          · exact good.once j k
        · intro j
          simp only [Table.setBit, Table.setInode, Function.update_apply t.inode]
          split
          · intro zero
            exact absurd rfl zero
          · rename_i notHere
            intro hasDev
            apply spared (good.allocated j hasDev)
            intro same
            exact notHere (good.once i j onDevice same.1.symm same.2.symm).symm
        · intro j
          simp only [Table.setBit, Table.setInode, Function.update_apply t.inode]
          split
          · rename_i here
            rw [here]
            exact gone.symm
          · rename_i notHere
            rw [good.counted j]
            simp [List.countP_erase, Ne.symm notHere]
        · intro j dev isMounted
          obtain ⟨hasDev, set⟩ := good.roots j dev isMounted
          exact ⟨hasDev, spared set (spares dev rootIno (.inr (.inr ⟨rfl, j, isMounted⟩)))⟩
        · intro ref there different
          apply (List.mem_erase_of_ne _).mpr there
          intro same
          exact different (same ▸ rfl)
        · intro ref there different
          have elsewhere := nobody ref there different
          simp [Table.Carries, Table.setBit, Table.setInode, elsewhere]
        · intro other e different reserved
          exact Function.update_of_ne (notOthers other e different reserved) _ _
        · intro dev nr isKept set
          exact spared set (spares dev nr (.inl isKept))
        · intro dev nr wanted
          obtain ⟨hasDev, set⟩ := known dev nr wanted
          exact ⟨hasDev, spared set (spares dev nr (.inr (.inl wanted)))⟩
        · intro e differs
          refine ⟨Function.update_of_ne differs _ _, fun has => ?_⟩
          apply (List.mem_erase_of_ne _).mpr has
          intro same
          exact differs (congrArg Ref.slot same)

/-! ## iget -/

theorem Table.Reserved.iput {result : Option Slot} (reserved : t.Reserved task e) :
    t.iput task e (.returns result) = some (t.drop task e, .returns result) := by
  simp [Table.iput, Table.putUnlocked, reserved.iLock, reserved.once, reserved.iPipe,
    reserved.iDev, Table.afterPut]

theorem Table.Reserved.releases {result : Option Slot} (reserved : t.Reserved task e) :
    t.Releases task e (.returns result) :=
  ⟨reserved.has, nofun⟩

theorem takeFound_step (good : t.Good) (reserved : t.Reserved task empty)
    (onDevice : (t.inode i).iDev ≠ 0) (taken : t.takeFound task empty i = some result) :
    Step kept t task result := by
  have differs : empty ≠ i := reserved.ne_of_iDev onDevice
  have change : Change kept t task (t.take task i) :=
    Change.take (Table.notOthers_of_iDev onDevice)
  have good' : (t.take task i).Good := good.take
  have reserved' : (t.take task i).Reserved task empty := by
    apply reserved.congr (Function.update_of_ne differs _ _)
    exact List.mem_cons_of_mem _ reserved.has
  rw [Table.takeFound] at taken
  split at taken
  · split at taken
    · exact (iput_step good' reserved'.releases nofun taken).afterChange change
    · rename_i dev mounted
      have releases : (t.take task i).Releases task i (.crosses empty dev rootIno) := by
        refine ⟨List.mem_cons_self, ?_⟩
        intro empty' dev' nr' crosses
        cases crosses
        exact ⟨differs, reserved'⟩
      have known : (t.take task i).Known (some (dev, rootIno)) := by
        intro dev' nr' same
        cases same
        exact good'.roots i dev mounted
      exact (iput_step good' releases known taken).afterChange change
  · exact (iput_step good' reserved'.releases nofun taken).afterChange change

theorem readInode_step (good : t.Good) (has : ⟨task, i⟩ ∈ t.refs) :
    Step kept t task (t.readInode i) := by
  rw [Table.readInode]
  split
  · exact ⟨good, Change.refl, has, nofun⟩
  · exact ⟨good.setInode rfl rfl rfl, Change.setInode (good.notOthers has) rfl rfl, has, nofun⟩

/-- `iget` fills the slot that it has set aside. -/
theorem claim_step (good : t.Good) (reserved : t.Reserved task empty)
    (allocated : t.imap dev nr = true) (nowhere : ∀ i, ¬ t.Carries i dev nr) :
    Step kept t task
      ((t.setInode empty { t.inode empty with iDev := dev, iNum := nr }).readInode empty) := by
  have sole := good.sole reserved.has reserved.once.le
  have good' : (t.setInode empty { t.inode empty with iDev := dev, iNum := nr }).Good := by
    refine ⟨?_, ?_, ?_, good.roots⟩
    · intro j k
      simp only [Table.setInode, Function.update_apply]
      split <;> split
      · rename_i here here'
        intro _ _ _
        rw [here, here']
      · intro _ sameDev sameNum
        exact absurd ⟨sameDev, sameNum⟩ (nowhere k)
      · intro _ sameDev sameNum
        exact absurd ⟨sameDev.symm, sameNum.symm⟩ (nowhere j)
      · exact good.once j k
    · intro j
      simp only [Table.setInode, Function.update_apply t.inode]
      split
      · exact fun _ => allocated
      · exact good.allocated j
    · intro j
      change _ = t.refs.countP _
      rw [← good.counted j]
      by_cases here : j = empty
      · subst here
        simp [Table.setInode]
      · simp [Table.setInode, here]
  have change : Change kept t task
      (t.setInode empty { t.inode empty with iDev := dev, iNum := nr }) := by
    refine ⟨fun _ there _ => there, ?_, ?_, fun _ _ _ set => set⟩
    · intro ref there different
      simp [Table.Carries, Table.setInode, sole.2 ref there different]
    · intro other e different others
      exact Function.update_of_ne (good.reserved_ne others reserved.has different) _ _
  exact (readInode_step good' reserved.has).afterChange change

theorem scan_step (good : t.Good) (reserved : t.Reserved task empty)
    (known : t.Known (some (dev, nr))) (taken : t.scan task empty dev nr = some result) :
    Step kept t task result := by
  obtain ⟨hasDev, allocated⟩ := known dev nr rfl
  rw [Table.scan] at taken
  split at taken
  · rename_i i found
    have carries : t.Carries i dev nr := by simpa using List.find?_some found
    split at taken
    · cases taken
      exact ⟨good, Change.refl, reserved, known⟩
    · exact takeFound_step good reserved (carries.1 ▸ hasDev) taken
  · rename_i found
    cases taken
    apply claim_step good reserved allocated
    intro i
    have passed := List.find?_eq_none.mp found i (List.mem_finRange i)
    simpa using passed

/-! ## get_empty_inode and new_inode -/

theorem findFirstZero_eq_some {bits : Nat → Bool} {left j found : Nat}
    (search : Table.findFirstZero bits left j = some found) : bits found = false := by
  induction left generalizing j with
  | zero => cases search
  | succ left ih =>
      rw [Table.findFirstZero] at search
      split at search
      · exact ih search
      · rename_i clear
        cases search
        exact Bool.not_eq_true _ ▸ clear

theorem initNew_step (good : t.Good) (reserved : t.Reserved task i) (hasDev : dev ≠ 0)
    (taken : t.initNew task i dev = some result) : Step kept t task result := by
  rw [Table.initNew] at taken
  split at taken
  · exact iput_step good reserved.releases nofun taken
  · rename_i nr found
    cases taken
    have clear : t.imap dev nr = false := findFirstZero_eq_some found
    have nowhere : ∀ j, ¬ t.Carries j dev nr := by
      intro j carries
      have allocated := good.allocated j (carries.1.symm ▸ hasDev)
      rw [carries.1, carries.2, clear] at allocated
      cases allocated
    have set {dev' nr' : Nat} (before : t.imap dev' nr' = true) :
        Function.update t.imap dev (Function.update (t.imap dev) nr true) dev' nr' = true := by
      by_cases sameDev : dev' = dev
      · subst sameDev
        rw [Function.update_self]
        by_cases sameNum : nr' = nr
        · rw [sameNum, Function.update_self]
        · rw [Function.update_of_ne sameNum, before]
      · rw [Function.update_of_ne sameDev, before]
    have sole := good.sole reserved.has reserved.once.le
    refine ⟨⟨?_, ?_, ?_, ?_⟩, ⟨fun _ there _ => there, ?_, ?_, fun _ _ _ => set⟩, trivial⟩
    · intro j k
      simp only [Table.setBit, Table.setInode, Function.update_apply]
      split <;> split
      · rename_i here here'
        intro _ _ _
        rw [here, here']
      · intro _ sameDev sameNum
        exact absurd ⟨sameDev, sameNum⟩ (nowhere k)
      · intro _ sameDev sameNum
        exact absurd ⟨sameDev.symm, sameNum.symm⟩ (nowhere j)
      · exact good.once j k
    · intro j
      simp only [Table.setBit, Table.setInode, Function.update_apply t.inode]
      split
      · intro _
        simp
      · intro onDevice
        exact set (good.allocated j onDevice)
    · intro j
      simp only [Table.setBit, Table.setInode, Function.update_apply t.inode]
      rw [← good.counted j]
      split
      · rename_i here
        rw [here, reserved.once]
      · rfl
    · intro j dev' isMounted
      obtain ⟨onDevice, allocated⟩ := good.roots j dev' isMounted
      exact ⟨onDevice, set allocated⟩
    · intro ref there different
      simp [Table.Carries, Table.setBit, Table.setInode, sole.2 ref there different]
    · intro other e different others
      exact Function.update_of_ne (good.reserved_ne others reserved.has different) _ _

/-- What is relied on to go on from `get_empty_inode`. -/
def Table.MayGo (t : Table) : Why → Prop
  | .getEmptyInode => True
  | .newInode dev => dev ≠ 0
  | .iget dev nr => t.Known (some (dev, nr))

theorem Table.MayGo.known {why : Why} (mayGo : t.MayGo why) :
    t.Known (Wait.empty i why).wants ∧ t.Known (Wait.emptyWrite i why).wants := by
  cases why with
  | getEmptyInode => exact ⟨nofun, nofun⟩
  | newInode dev => exact ⟨nofun, nofun⟩
  | iget dev nr => exact ⟨mayGo, mayGo⟩

theorem Table.MayGo.hasDev {why : Why} (mayGo : t.MayGo why) :
    ∀ dev, why = .newInode dev → dev ≠ 0 := by
  intro dev same
  rwa [same] at mayGo

theorem gotEmpty_step {why : Why} (good : t.Good) (unused : (t.inode i).iCount = 0)
    (mayGo : t.MayGo why) (taken : t.gotEmpty task i why = some result) :
    Step kept t task result := by
  have nobody : ∀ ref ∈ t.refs, ref.slot ≠ i := by
    rw [good.counted i, List.countP_eq_zero] at unused
    intro ref there here
    exact unused ref there (by simp [here])
  generalize cleared : { t.setInode i { MInode.zero with iCount := 1 } with
    refs := ⟨task, i⟩ :: t.refs } = t' at taken
  have change : Change kept t task t' := by
    subst cleared
    refine ⟨fun _ there _ => List.mem_cons_of_mem _ there, ?_, ?_, fun _ _ _ set => set⟩
    · intro ref there _
      simp [Table.Carries, Table.setInode, nobody ref there]
    · intro other e _ reserved
      exact Function.update_of_ne (nobody _ reserved.has) _ _
  have good' : t'.Good := by
    subst cleared
    refine ⟨?_, ?_, ?_, good.roots⟩
    · intro j k
      simp only [Table.setInode, Function.update_apply]
      split <;> split
      · simp [MInode.zero]
      · simp [MInode.zero]
      · intro onDevice same
        exact absurd same.symm onDevice
      · exact good.once j k
    · intro j
      simp only [Table.setInode, Function.update_apply t.inode]
      split
      · exact fun zero => absurd rfl zero
      · exact good.allocated j
    · intro j
      simp only [Table.setInode, Function.update_apply t.inode, List.countP_cons]
      split
      · rename_i here
        rw [here, ← good.counted i, unused]
        simp
      · rename_i notHere
        rw [good.counted j]
        simp [Ne.symm notHere]
  have reserved : t'.Reserved task i := by
    subst cleared
    refine ⟨List.mem_cons_self, ?_, ?_, ?_, ?_, ?_⟩ <;> simp [Table.setInode, MInode.zero]
  have known : t'.MayGo why := by
    subst cleared
    exact mayGo
  unfold Table.gotEmpty at taken
  dsimp only at taken
  rw [cleared] at taken
  cases why with
  | getEmptyInode =>
      cases taken
      exact ⟨good', change, trivial⟩
  | newInode dev => exact (initNew_step good' reserved known taken).afterChange change
  | iget dev nr => exact (scan_step good' reserved known taken).afterChange change

theorem emptyDirty_step {why : Why} (good : t.Good) (mayGo : t.MayGo why)
    (taken : t.emptyDirty i why = some result) : Step kept t task result := by
  rw [Table.emptyDirty] at taken
  split at taken
  · cases taken
  · rename_i onDevice
    cases taken
    exact ⟨good.setInode rfl rfl rfl, Change.setInode (Table.notOthers_of_iDev onDevice) rfl rfl,
      mayGo.hasDev, mayGo.known.2⟩

theorem pick_eq_some {last : Slot} (picked : t.pick = some (i, last)) :
    (t.inode i).iCount = 0 := by
  rw [Table.pick] at picked
  split at picked
  · rename_i found
    cases picked
    have matched := List.find?_some found
    simp only [Bool.and_eq_true, decide_eq_true_eq] at matched
    exact matched.1.1
  · obtain ⟨j, isLast, same⟩ := Option.map_eq_some_iff.mp picked
    cases same
    have member := List.mem_of_getLast? isLast
    simpa using (List.mem_filter.mp member).2

theorem getEmptyInode_step {why : Why} (good : t.Good) (mayGo : t.MayGo why)
    (taken : t.getEmptyInode task why = some result) : Step kept t task result := by
  rw [Table.getEmptyInode] at taken
  split at taken
  · cases taken
  · rename_i i last picked
    have unused := pick_eq_some picked
    have change : Change kept t task { t with lastInode := last } :=
      ⟨fun _ there _ => there, fun _ _ _ => ⟨rfl, rfl⟩, fun _ _ _ _ => rfl, fun _ _ _ set => set⟩
    have good' : Table.Good { t with lastInode := last } :=
      ⟨good.once, good.allocated, good.counted, good.roots⟩
    have mayGo' : Table.MayGo { t with lastInode := last } why := mayGo
    dsimp only at taken
    split at taken
    · cases taken
      exact ⟨good', change, mayGo'.hasDev, mayGo'.known.1⟩
    · split at taken
      · exact (emptyDirty_step good' mayGo' taken).afterChange change
      · exact (gotEmpty_step good' unused mayGo' taken).afterChange change

theorem emptyUnlocked_step {why : Why} (good : t.Good) (mayGo : t.MayGo why)
    (taken : t.emptyUnlocked task i why = some result) : Step kept t task result := by
  rw [Table.emptyUnlocked] at taken
  split at taken
  · exact emptyDirty_step good mayGo taken
  · split at taken
    · exact getEmptyInode_step good mayGo taken
    · rename_i unused
      exact gotEmpty_step good (not_not.mp unused) mayGo taken

/-! ## Going on -/

/-- The end of `write_inode` does not matter to a slot that is set aside. -/
theorem written_step (kept : Nat → Nat → Prop) (task : Nat) (i : Slot) (good : t.Good) :
    (t.written i).Good ∧ Change kept t task (t.written i) := by
  refine ⟨good.setInode rfl rfl rfl, ⟨fun _ there _ => there, ?_, ?_, fun _ _ _ set => set⟩⟩
  · intro ref _ _
    apply carries_setInode
    · rfl
    · rfl
  · intro other e _ reserved
    by_cases same : e = i
    · subst same
      have flags := reserved.iDirt
      have lock := reserved.iLock
      simp only [Table.written, Table.setInode, Function.update_self]
      cases node : t.inode e
      simp_all
    · exact Function.update_of_ne same _ _

theorem Table.mayGo_of_known {why : Why} (known : t.Known (Wait.empty i why).wants)
    (hasDev : ∀ dev, why = .newInode dev → dev ≠ 0) : t.MayGo why := by
  cases why with
  | getEmptyInode => trivial
  | newInode dev => exact hasDev dev rfl
  | iget dev nr => exact known

theorem resume_step {wait : Wait} {isBlk : Bool} {iNlinks : Nat} (good : t.Good)
    (keeps : t.Keeps task wait) (known : t.Known wait.wants)
    (spares : ∀ i after, wait = .putTruncate i after →
      ∀ dev nr, kept dev nr ∨ wait.wants = some (dev, nr) ∨
        (nr = rootIno ∧ ∃ j, t.mounted j = some dev) →
          ¬ ((t.inode i).iDev = dev ∧ (t.inode i).iNum = nr))
    (taken : t.resume task wait isBlk iNlinks = some result) : Step kept t task result := by
  unfold Table.resume at taken
  split at taken
  · cases taken
  · cases wait with
    | empty i why => exact emptyUnlocked_step good (Table.mayGo_of_known known keeps) taken
    | emptyWrite i why =>
        obtain ⟨good', change⟩ := written_step kept task i good
        have known' : t.Known (Wait.empty i why).wants := by
          cases why <;> exact known
        have mayGo : (t.written i).MayGo why := Table.mayGo_of_known known' keeps
        exact (emptyUnlocked_step good' mayGo taken).afterChange change
    | found empty i dev nr =>
        dsimp only at taken
        split at taken
        · rename_i carries
          have onDevice : (t.inode i).iDev ≠ 0 := carries.1 ▸ (known dev nr rfl).1
          exact takeFound_step good keeps onDevice taken
        · exact scan_step good keeps known taken
    | crossed empty dev nr => exact scan_step good keeps known taken
    | readLock i =>
        cases taken
        exact readInode_step good keeps
    | reading i =>
        cases taken
        exact ⟨good.setInode rfl rfl rfl, Change.setInode (good.notOthers keeps) rfl rfl, trivial⟩
    | put i after => exact putUnlocked_step good keeps ((wants_put i after).1 ▸ known) taken
    | putSync i after =>
        cases taken
        have wants := wants_put i after
        exact ⟨good, Change.refl, keeps, wants.2.2.1 ▸ wants.2.1 ▸ known⟩
    | putSynced i after =>
        exact putRepeat_step good keeps.1 ((wants_put i after).2.2.1 ▸ known) keeps.2 taken
    | putTruncate i after =>
        have wants := (wants_put i after).2.2.2.1
        exact freeInode_step good keeps.1 (wants ▸ known) keeps.2 (wants ▸ spares i after rfl) taken
    | putWrite i after =>
        obtain ⟨good', change⟩ := written_step kept task i good
        have releases : (t.written i).Releases task i after :=
          keeps.1.congr fun empty dev nr crosses => (keeps.1.2 empty dev nr crosses).1
        have onDevice : ((t.written i).inode i).iDev ≠ 0 := by
          simpa [Table.written, Table.setInode] using keeps.2
        have known' : (t.written i).Known after.wants := (wants_put i after).2.2.2.2 ▸ known
        exact (putRepeat_step good' releases known' onDevice taken).afterChange change
    | syncWrite i =>
        cases taken
        obtain ⟨good', change⟩ := written_step kept task i good
        exact ⟨good', change, trivial⟩

/-! ## Any schedule -/

variable {s next : System}

/-- What another task relies on is still there. -/
theorem Change.keeps {wait : Wait} (change : Change kept t task t') (different : other ≠ task)
    (keeps : t.Keeps other wait) : t'.Keeps other wait := by
  have has {i : Slot} (there : ⟨other, i⟩ ∈ t.refs) : ⟨other, i⟩ ∈ t'.refs :=
    change.others _ there different
  have releases {i : Slot} {after : After} (releases : t.Releases other i after) :
      t'.Releases other i after := by
    refine ⟨has releases.1, fun empty dev nr crosses => ?_⟩
    obtain ⟨differs, reserved⟩ := releases.2 empty dev nr crosses
    exact ⟨differs, change.reserved different reserved⟩
  have onDevice {i : Slot} {after : After}
      (keeps : t.Releases other i after ∧ (t.inode i).iDev ≠ 0) :
      t'.Releases other i after ∧ (t'.inode i).iDev ≠ 0 := by
    refine ⟨releases keeps.1, ?_⟩
    rw [(change.identity _ keeps.1.1 different).1]
    exact keeps.2
  cases wait with
  | empty | emptyWrite | syncWrite => exact keeps
  | found | crossed => exact change.reserved different keeps
  | readLock | reading => exact has keeps
  | put => exact releases keeps
  | putSync | putSynced | putTruncate | putWrite => exact onDevice keeps

/-- The invariant. -/
structure System.Inv (s : System) : Prop where
  good : s.table.Good
  keeps : ∀ task wait, s.call task = some wait →
    s.table.Keeps task wait ∧ s.table.Known wait.wants

/-- Some task is inside `iget` for the inode. -/
def System.Wanted (s : System) (dev nr : Nat) : Prop :=
  ∃ task wait, s.call task = some wait ∧ wait.wants = some (dev, nr)

theorem start_inv {imap : Nat → Nat → Bool} {ninodes : Nat → Nat} :
    (start imap ninodes).Inv where
  good := ⟨fun _ _ onDevice => absurd rfl onDevice, fun _ onDevice => absurd rfl onDevice,
    fun _ => rfl, nofun⟩
  keeps := nofun

theorem System.Inv.others (inv : s.Inv) (change : Change s.Wanted s.table task t')
    {wait : Wait} (different : other ≠ task) (sleeps : s.call other = some wait) :
    t'.Keeps other wait ∧ t'.Known wait.wants := by
  obtain ⟨keeps, known⟩ := inv.keeps other wait sleeps
  refine ⟨change.keeps different keeps, fun dev nr wants => ?_⟩
  obtain ⟨hasDev, allocated⟩ := known dev nr wants
  exact ⟨hasDev, change.bits dev nr ⟨other, wait, sleeps, wants⟩ allocated⟩

theorem System.goOn_self : (s.goOn task result).call task = result.2.wait :=
  Function.update_self task _ _

theorem System.goOn_of_ne (different : other ≠ task) :
    (s.goOn task result).call other = s.call other :=
  Function.update_of_ne different _ _

theorem System.Inv.goOn (inv : s.Inv) (step : Step s.Wanted s.table task result) :
    (s.goOn task result).Inv where
  good := step.good
  keeps other wait sleeps := by
    by_cases same : other = task
    · subst same
      have outcome := step.gives
      rw [System.goOn_self] at sleeps
      cases ended : result.2 with
      | returns _ =>
          rw [ended] at sleeps
          cases sleeps
      | sleeps place =>
          rw [ended] at sleeps outcome
          cases sleeps
          exact outcome
    · rw [System.goOn_of_ne same] at sleeps
      exact inv.others step.change same sleeps

/-- A task that is in no call changes the table. -/
theorem System.Inv.outside (inv : s.Inv) (good : t'.Good)
    (change : Change s.Wanted s.table task t') (idle : s.call task = none) :
    System.Inv { s with table := t' } where
  good := good
  keeps other wait sleeps := by
    have different : other ≠ task := by
      intro same
      rw [same, idle] at sleeps
      cases sleeps
    exact inv.others change different sleeps

theorem System.Inv.step {action : Action} (inv : s.Inv) (spares : s.FreesUnwanted action)
    (taken : s.step action = some next) : next.Inv := by
  cases action with
  | iget task dev nr =>
      simp only [System.step, Option.ite_none_right_eq_some] at taken
      obtain ⟨⟨-, hasDev, allocated⟩, taken⟩ := taken
      obtain ⟨result, ran, rfl⟩ := Option.map_eq_some_iff.mp taken
      have known : s.table.Known (some (dev, nr)) := by
        intro dev' nr' same
        cases same
        exact ⟨hasDev, allocated⟩
      have mayGo : s.table.MayGo (.iget dev nr) := known
      exact inv.goOn (getEmptyInode_step inv.good mayGo ran)
  | iput task i =>
      simp only [System.step, Option.ite_none_right_eq_some] at taken
      obtain ⟨has, taken⟩ := taken
      obtain ⟨result, ran, rfl⟩ := Option.map_eq_some_iff.mp taken
      have releases : s.table.Releases task i (.returns none) := ⟨has.2, nofun⟩
      exact inv.goOn (iput_step inv.good releases nofun ran)
  | newInode task dev =>
      simp only [System.step, Option.ite_none_right_eq_some] at taken
      obtain ⟨⟨-, hasDev⟩, taken⟩ := taken
      obtain ⟨result, ran, rfl⟩ := Option.map_eq_some_iff.mp taken
      have mayGo : s.table.MayGo (.newInode dev) := hasDev
      exact inv.goOn (getEmptyInode_step inv.good mayGo ran)
  | getEmptyInode task =>
      simp only [System.step, Option.ite_none_right_eq_some] at taken
      obtain ⟨-, taken⟩ := taken
      obtain ⟨result, ran, rfl⟩ := Option.map_eq_some_iff.mp taken
      have mayGo : s.table.MayGo .getEmptyInode := trivial
      exact inv.goOn (getEmptyInode_step inv.good mayGo ran)
  | resume task isBlk iNlinks =>
      simp only [System.step, Option.bind_eq_bind, Option.bind_eq_some_iff] at taken
      obtain ⟨wait, sleeps, result, ran, taken⟩ := taken
      cases taken
      obtain ⟨keeps, known⟩ := inv.keeps task wait sleeps
      refine inv.goOn (resume_step inv.good keeps known ?_ ran)
      intro i after same dev nr reason freed
      subst same
      obtain ⟨unwanted, notRoot⟩ := spares i after sleeps
      rw [freed.1, freed.2] at unwanted
      rw [freed.1, freed.2] at notRoot
      rcases reason with ⟨other, wait, sleeping, wants⟩ | wants | ⟨isRoot, j, mounted⟩
      · exact unwanted other wait sleeping wants
      · exact unwanted task _ sleeps wants
      · exact notRoot j mounted isRoot
  | syncInode task i =>
      simp only [System.step, Option.ite_none_right_eq_some] at taken
      obtain ⟨⟨-, -, -, onDevice, -⟩, taken⟩ := taken
      cases taken
      apply inv.goOn
      exact ⟨inv.good.setInode rfl rfl rfl, Change.setInode (Table.notOthers_of_iDev onDevice)
        rfl rfl, trivial, nofun⟩
  | share task other i =>
      simp only [System.step, Option.ite_none_right_eq_some] at taken
      obtain ⟨⟨idle, has⟩, taken⟩ := taken
      cases taken
      apply inv.outside inv.good.take _ idle
      refine ⟨fun _ there _ => List.mem_cons_of_mem _ there, fun ref _ _ => carries_take ref.slot,
        ?_, fun _ _ _ set => set⟩
      intro owner e different reserved
      exact Function.update_of_ne (inv.good.reserved_ne reserved has different) _ _
  | change task i isBlk iNlinks iDirt =>
      simp only [System.step, Option.ite_none_right_eq_some] at taken
      obtain ⟨⟨⟨idle, has⟩, -⟩, taken⟩ := taken
      cases taken
      exact inv.outside (inv.good.setInode rfl rfl rfl)
        (Change.setInode (inv.good.notOthers has) rfl rfl) idle
  | mount task i dev =>
      simp only [System.step, Option.ite_none_right_eq_some] at taken
      obtain ⟨⟨⟨idle, has⟩, -, hasDev, allocated⟩, taken⟩ := taken
      cases taken
      refine inv.outside (inv.good.setMount ?_) (Change.setMount (inv.good.notOthers has)) idle
      intro dev' same
      exact Option.some.inj same ▸ ⟨hasDev, allocated⟩
  | umount task i =>
      simp only [System.step, Option.ite_none_right_eq_some] at taken
      obtain ⟨⟨idle, has⟩, taken⟩ := taken
      cases taken
      exact inv.outside (inv.good.setMount nofun) (Change.setMount (inv.good.notOthers has)) idle

/-! ## One copy -/

theorem takeFound_finds (reserved : t.Reserved task empty) (onDevice : (t.inode i).iDev ≠ 0)
    (notMount : (t.inode i).iMount = false) :
    t.Finds empty i (t.takeFound task empty i) := by
  have differs : empty ≠ i := reserved.ne_of_iDev onDevice
  have reserved' : (t.take task i).Reserved task empty := by
    apply reserved.congr (Function.update_of_ne differs _ _)
    exact List.mem_cons_of_mem _ reserved.has
  refine ⟨(t.take task i).drop task empty, ?_, ?_, ?_, ?_⟩
  · have notMount' : ((t.take task i).inode i).iMount = false := by
      simpa [Table.take, Table.setInode] using notMount
    rw [Table.takeFound, notMount', if_neg Bool.false_ne_true, reserved'.iput]
  · simp [Table.drop, Table.take, Table.setInode, Ne.symm differs]
  · simp [Table.drop, Table.take, Table.setInode, differs, reserved.once]
  · intro j notI notEmpty
    simp [Table.drop, Table.take, Table.setInode, notI, notEmpty]

theorem System.Inv.oneCopy (inv : s.Inv) : s.OneCopy := by
  refine ⟨?_, ?_, ?_⟩
  · intro i j onDevice _ _ sameDev sameNum
    exact inv.good.once i j onDevice sameDev sameNum
  · intro task empty i dev nr hasDev reserved carries notMount unlocked
    have onDevice : (s.table.inode i).iDev ≠ 0 := carries.1 ▸ hasDev
    have found : (List.finRange nrInode).find? (fun i => s.table.Carries i dev nr) = some i := by
      cases search : (List.finRange nrInode).find? fun i => s.table.Carries i dev nr with
      | none =>
          have passed := List.find?_eq_none.mp search i (List.mem_finRange i)
          simp [carries] at passed
      | some j =>
          have here : s.table.Carries j dev nr := by simpa using List.find?_some search
          have same := inv.good.once i j onDevice (here.1.trans carries.1.symm)
            (here.2.trans carries.2.symm)
          rw [same]
    have searched : s.table.scan task empty dev nr = s.table.takeFound task empty i := by
      simp only [Table.scan, found, unlocked]
      rfl
    rw [searched]
    exact takeFound_finds reserved onDevice notMount
  · intro task empty i dev nr sleeps
    obtain ⟨reserved, known⟩ := inv.keeps task _ sleeps
    obtain ⟨hasDev, -⟩ := known dev nr rfl
    refine ⟨hasDev, reserved, fun carries notMount unlocked isBlk iNlinks => ?_⟩
    have resumed : s.table.resume task (.found empty i dev nr) isBlk iNlinks =
        s.table.takeFound task empty i := by
      simp [Table.resume, Table.lockOf, unlocked, carries]
    rw [resumed]
    exact takeFound_finds reserved (carries.1 ▸ hasDev) notMount

/-- As long as no inode is freed while a task is inside `iget` for it, every inode has one
copy in the table. -/
theorem oneCopy_of_freesUnwanted {imap : Nat → Nat → Bool} {ninodes : Nat → Nat}
    (reached : Lib.ReachedBy System.step System.FreesUnwanted (start imap ninodes) s) :
    s.OneCopy :=
  (reached.invariant System.Inv (fun _ _ _ inv spares taken => inv.step spares taken)
    start_inv).oneCopy

/-- A check that implies the condition. -/
def System.checkFrees (s : System) : Action → Bool
  | .resume task .. =>
      match s.call task with
      | some (.putTruncate ..) => false
      | _ => true
  | _ => true

theorem freesUnwanted_of_check {action : Action} (checked : s.checkFrees action = true) :
    s.FreesUnwanted action := by
  cases action with
  | resume task isBlk iNlinks =>
      intro i after sleeps
      simp [System.checkFrees, sleeps] at checked
  | _ => trivial

/-- The first inodes of every device are allocated. -/
def firstFive : System := start (fun _ nr => nr ≤ 5) fun _ => 10

/-- A second task looks for an inode while it is being read. -/
def sharedInode : List Action :=
  [.iget 1 1 5, .iget 2 1 5, .resume 1 false 1, .resume 2 false 0, .iput 1 1, .newInode 1 1]

theorem oneCopy_of_freesUnwanted_shared : (Lib.exec System.step firstFive sharedInode).isSome ∧
    ∀ s, Lib.exec System.step firstFive sharedInode = some s → s.OneCopy := by
  refine ⟨by decide +kernel, fun s reached => ?_⟩
  refine oneCopy_of_freesUnwanted ⟨sharedInode, reached, ?_⟩
  exact Lib.everyStep_of_checkSteps System.checkFrees (fun _ _ => freesUnwanted_of_check)
    (by decide +kernel)

/-- A task waits in `iget` for an unlinked inode that is being written; the last reference
goes, the inode is freed, the task fills a slot with it, and `new_inode` gives its number to
another one. -/
def freedMeanwhile : List Action :=
  [.iget 1 1 5, .resume 1 false 1, .change 1 1 false 0 true, .syncInode 3 1, .iget 2 1 5,
    .resume 3 false 0, .iput 1 1, .resume 1 false 0, .resume 2 false 0, .newInode 4 1]

theorem two_copies : ¬ ∀ (actions : List Action) (s : System),
    Lib.exec System.step firstFive actions = some s → s.OneCopy := by
  intro oneCopy
  have run : (Lib.exec System.step firstFive freedMeanwhile).map (fun s =>
      (s.table.inode 2, s.table.inode 3)) =
      some (⟨false, 0, 1, 5, 1, true, false, false, false⟩,
        ⟨false, 1, 1, 5, 1, false, true, false, false⟩) := by
    decide +kernel
  obtain ⟨s, reached, slots⟩ := Option.map_eq_some_iff.mp run
  obtain ⟨second, third⟩ := Prod.mk.injEq .. ▸ slots
  have same := (oneCopy freedMeanwhile s reached).once 2 3
  rw [second, third] at same
  exact absurd (same (by decide) (by decide) (by decide) rfl rfl) (by decide)

end Linux012.Inodes
