import Linux012.Lib.Run
import Linux012.Buffer.Calls
import Linux012.Inodes.Table

/-!
# Inode locks and the buffer cache

`read_inode` and `write_inode` call `bread` while they hold the lock of their inode.
`getblk` writes a dirty buffer back through `sync_dev`, which calls `sync_inodes`, which
waits for the lock of every inode, also of the one that the task itself has locked.

The functions that a task is inside are a stack; the innermost one is where it sleeps or
goes on.  Every call of one of these functions counts as a place where other tasks run.
-/

namespace Linux012.Inodes.Locks

open Buffer (Bh Pool)

/-- `INODES_PER_BLOCK`. -/
abbrev inodesPerBlock : Nat := 32

/-- How far `read_inode` or `write_inode` is. -/
inductive Phase where
  /-- `lock_inode(inode)`. -/
  | locking
  /-- `bread(..)`. -/
  | reading
  /-- `bread` has returned the buffer. -/
  | got (bh : Bh)
  /-- `brelse(bh)`. -/
  | releasing
  deriving DecidableEq

/-- A function that a task is inside. -/
inductive Frame where
  | buffer (wait : Buffer.Wait)
  | readInode (i : Slot) (phase : Phase)
  | writeInode (i : Slot) (phase : Phase)
  /-- `wait_on_inode(inode)` of `iget`, `iput` and `get_empty_inode`. -/
  | waitOnInode (i : Slot)
  /-- `sync_inodes`, at inode number `k` of the table. -/
  | syncInodes (k : Nat)
  /-- `sync_dev`, at buffer `n`, before or after the call of `sync_inodes`. -/
  | syncDev (dev : UInt16) (second : Bool) (n : Bh)
  deriving DecidableEq

/-- The inode whose lock the function holds. -/
def Frame.holds : Frame → Option Slot
  | .readInode _ .locking | .writeInode _ .locking => none
  | .readInode i _ | .writeInode i _ => some i
  | _ => none

/-- The inode whose lock the function waits for. -/
def Frame.waitsFor : Frame → Option Slot
  | .readInode i .locking | .writeInode i .locking | .waitOnInode i => some i
  | .syncInodes k => if inside : k < nrInode then some ⟨k, inside⟩ else none
  | _ => none

/-- The buffer cache, the inode table, the sizes of the bitmaps of each device, and the
functions that each task is inside, the innermost first. -/
structure System where
  pool : Pool
  inode : Slot → MInode
  sImapBlocks : Nat → Nat
  sZmapBlocks : Nat → Nat
  stack : Nat → List Frame

namespace System

variable (s : System) (task : Nat) (i : Slot) (bh : Bh) (rest : List Frame)

def setStack (frames : List Frame) : System :=
  { s with stack := Function.update s.stack task frames }

def setInode (node : MInode) : System :=
  { s with inode := Function.update s.inode i node }

/-- The flags of a buffer. -/
def setFlags (bUptodate bDirt bLock : Bool) : System :=
  { s with pool := { s.pool with cache := { s.pool.cache with
      bUptodate := Function.update s.pool.cache.bUptodate bh bUptodate
      bDirt := Function.update s.pool.cache.bDirt bh bDirt
      bLock := Function.update s.pool.cache.bLock bh bLock } } }

/-- The block that the inode is in. -/
def inodeBlock : UInt32 :=
  let node := s.inode i
  UInt32.ofNat (2 + s.sImapBlocks node.iDev + s.sZmapBlocks node.iDev +
    (node.iNum - 1) / inodesPerBlock)

/-- The functions around a call of `buffer.c` that has returned. -/
def deliver (result : Option Bh) : List Frame → Option (List Frame)
  | .readInode i .reading :: rest => result.map fun bh => .readInode i (.got bh) :: rest
  | .writeInode i .reading :: rest => result.map fun bh => .writeInode i (.got bh) :: rest
  | rest => some rest

/-- A call of `buffer.c` sleeps or returns.  For a dirty buffer it calls `sync_dev`. -/
def afterBuffer (result : Pool × Buffer.Outcome) : Option System :=
  let s := { s with pool := result.1 }
  match result.2 with
  | .sleeps (.syncing caller dev block bh) =>
      some (s.setStack task (.syncDev (s.pool.cache.bDev bh) false 0 ::
        .buffer (.syncing caller dev block bh) :: rest))
  | .sleeps wait => some (s.setStack task (.buffer wait :: rest))
  | .returns found => (deliver found rest).map (s.setStack task)

/-- `lock_inode(inode)` and the call of `bread` in `read_inode` and `write_inode`. -/
def lockAndRead (frame : Frame) : Option System :=
  let s := s.setInode i { s.inode i with iLock := true }
  s.afterBuffer task (frame :: rest)
    (s.pool.lookUp task .bread (UInt16.ofNat (s.inode i).iDev) (s.inodeBlock i))

/-- The rest of `read_inode` behind `lock_inode` and before `unlock_inode`; what is read
does not matter here. -/
def stepReadInode : Phase → Option System
  | .locking =>
      if (s.inode i).iLock then none else s.lockAndRead task i rest (.readInode i .reading)
  | .reading => none
  | .got bh => some (s.setStack task (.buffer (.releasing bh) :: .readInode i .releasing :: rest))
  | .releasing => some ((s.setInode i { s.inode i with iLock := false }).setStack task rest)

/-- `write_inode`. -/
def stepWriteInode : Phase → Option System
  | .locking =>
      if (s.inode i).iLock then none
      else if ¬ (s.inode i).iDirt ∨ (s.inode i).iDev = 0 then some (s.setStack task rest)
      else s.lockAndRead task i rest (.writeInode i .reading)
  | .reading => none
  | .got bh =>
      let s := s.setFlags bh (s.pool.cache.bUptodate bh) true (s.pool.cache.bLock bh)
      let s := s.setInode i { s.inode i with iDirt := false }
      some (s.setStack task (.buffer (.releasing bh) :: .writeInode i .releasing :: rest))
  | .releasing => some ((s.setInode i { s.inode i with iLock := false }).setStack task rest)

/-- One round of the loop of `sync_inodes`. -/
def stepSyncInodes (k : Nat) : Option System :=
  if inside : k < nrInode then
    let node := s.inode ⟨k, inside⟩
    if node.iLock then none
    else if node.iDirt ∧ ¬ node.iPipe then
      some (s.setStack task (.writeInode ⟨k, inside⟩ .locking :: .syncInodes (k + 1) :: rest))
    else some (s.setStack task (.syncInodes (k + 1) :: rest))
  else some (s.setStack task rest)

/-- One round of a loop of `sync_dev`.  `ll_rw_block` locks the buffer and clears
`b_dirt`; the request is done later. -/
def stepSyncDev (dev : UInt16) (second : Bool) (n : Bh) : Option System :=
  let cache := s.pool.cache
  if n < cache.nrBuffers then
    if cache.bDev n ≠ dev then some (s.setStack task (.syncDev dev second (n + 1) :: rest))
    else if cache.bLock n then none
    else if cache.bDirt n then
      some ((s.setFlags n (cache.bUptodate n) false true).setStack task
        (.syncDev dev second (n + 1) :: rest))
    else some (s.setStack task (.syncDev dev second (n + 1) :: rest))
  else if second then some (s.setStack task rest)
  else some (s.setStack task (.syncInodes 0 :: .syncDev dev true 0 :: rest))

/-- A task goes on in the innermost function. -/
def resume : Option System :=
  match s.stack task with
  | [] => none
  | .buffer wait :: rest => do
      let result ← s.pool.resume task wait
      s.afterBuffer task rest result
  | .readInode i phase :: rest => s.stepReadInode task i rest phase
  | .writeInode i phase :: rest => s.stepWriteInode task i rest phase
  | .waitOnInode i :: rest =>
      if (s.inode i).iLock then none else some (s.setStack task rest)
  | .syncInodes k :: rest => s.stepSyncInodes task rest k
  | .syncDev dev second n :: rest => s.stepSyncDev task rest dev second n

end System

/-- A task that is in none of these functions calls one, a task goes on, or something else
happens to a buffer or an inode. -/
inductive Action where
  | bufferCall (task : Nat) (caller : Buffer.Caller) (dev : UInt16) (block : UInt32)
  | brelse (task : Nat) (bh : Bh)
  | call (task : Nat) (frame : Frame)
  | resume (task : Nat)
  /-- A request is done, or a task that has a reference changes the buffer. -/
  | changeBuffer (bh : Bh) (bUptodate bDirt bLock : Bool)
  /-- The inode gets another identity, is written to or is cleared. -/
  | changeInode (i : Slot) (node : MInode)

/-- How a function begins. -/
def Frame.isEntry : Frame → Bool
  | .readInode _ .locking | .writeInode _ .locking | .waitOnInode _ | .syncInodes 0
  | .syncDev _ false 0 => true
  | _ => false

def System.step (s : System) : Action → Option System
  | .bufferCall task caller dev block =>
      if s.stack task = [] then s.afterBuffer task [] (s.pool.lookUp task caller dev block)
      else none
  | .brelse task bh =>
      if s.stack task = [] ∧
          s.pool.refs.any (fun ref => ref.task == task && ref.bh == bh) then
        some (s.setStack task [.buffer (.releasing bh)])
      else none
  | .call task frame =>
      if s.stack task = [] ∧ frame.isEntry then some (s.setStack task [frame]) else none
  | .resume task => s.resume task
  | .changeBuffer bh bUptodate bDirt bLock => some (s.setFlags bh bUptodate bDirt bLock)
  | .changeInode i node => some (s.setInode i node)

/-- `n` buffers, an empty table, and no task in any of the functions. -/
def start (n : Nat) (bBlocknr : Bh → UInt32) (bData : Bh → Nat → UInt8)
    (sImapBlocks sZmapBlocks : Nat → Nat) : System where
  pool := ⟨Buffer.bufferInit n bBlocknr bData, []⟩
  inode _ := .zero
  sImapBlocks := sImapBlocks
  sZmapBlocks := sZmapBlocks
  stack _ := []

/-- No task waits for the lock of an inode that it has locked itself. -/
def System.NoSelfWait (s : System) : Prop :=
  ∀ task frame rest i, s.stack task = frame :: rest → frame.waitsFor = some i →
    (s.inode i).iLock = true → ∀ outer ∈ rest, outer.holds ≠ some i

/-- The unused buffer that `getblk` has picked and not yet checked. -/
def picked : Buffer.Wait → Option Bh
  | .victim _ _ _ bh | .synced _ _ _ bh => some bh
  | _ => none

/-- The condition: in a `bread` under the lock of an inode, `getblk` finds the unused buffer
that it has picked clean. -/
def System.PicksClean (s : System) : Action → Prop
  | .resume task => ∀ wait rest bh, s.stack task = .buffer wait :: rest →
      (∃ outer ∈ rest, outer.holds.isSome) → picked wait = some bh →
      s.pool.cache.bCount bh = 0 → s.pool.cache.bDirt bh = false
  | _ => True

/-! ## What the calls of `buffer.c` come to -/

/-- The wait is for a call of `sync_dev`. -/
def isSyncing : Buffer.Outcome → Prop
  | .sleeps (.syncing ..) => True
  | _ => False

theorem lookUp_not_syncing {pool : Pool} {task : Nat} {caller : Buffer.Caller} {dev : UInt16}
    {block : UInt32} : ¬ isSyncing (pool.lookUp task caller dev block).2 := by
  unfold Pool.lookUp Pool.notFound
  cases pool.cache.findBuffer dev block with
  | some bh => exact id
  | none => cases caller <;> cases pool.cache.victim <;> exact id

theorem gotBuffer_not_syncing {pool : Pool} {caller : Buffer.Caller} {bh : Bh} :
    ¬ isSyncing (pool.gotBuffer caller bh).2 := by
  unfold Pool.gotBuffer
  split
  · exact id
  · exact id
  · split <;> exact id
  · split
    · exact id
    · dsimp only
      split <;> exact id

theorem useVictim_not_syncing {pool : Pool} {task : Nat} {caller : Buffer.Caller}
    {dev : UInt16} {block : UInt32} {bh : Bh} {result : Pool × Buffer.Outcome}
    (used : pool.useVictim task caller dev block bh = some result) : ¬ isSyncing result.2 := by
  unfold Pool.useVictim at used
  split at used
  · cases used
    exact lookUp_not_syncing
  · obtain ⟨cache, -, built⟩ := Option.bind_eq_some_iff.mp used
    cases built
    exact gotBuffer_not_syncing

/-- `getblk` calls `sync_dev` for a buffer that is unused and dirty. -/
theorem checkVictim_syncing {pool : Pool} {task : Nat} {caller : Buffer.Caller}
    {dev : UInt16} {block : UInt32} {bh : Bh} {result : Pool × Buffer.Outcome}
    (checked : pool.checkVictim task caller dev block bh = some result)
    (syncing : isSyncing result.2) :
    pool.cache.bCount bh = 0 ∧ pool.cache.bDirt bh = true := by
  unfold Pool.checkVictim at checked
  split at checked
  · cases checked
    exact absurd syncing lookUp_not_syncing
  · rename_i unused
    split at checked
    · rename_i dirty
      exact ⟨not_not.mp unused, dirty⟩
    · exact absurd syncing (useVictim_not_syncing checked)

/-- A task that goes on in `buffer.c` calls `sync_dev` only for the buffer it has picked. -/
theorem resume_syncing {pool : Pool} {task : Nat} {wait : Buffer.Wait}
    {result : Pool × Buffer.Outcome} (resumed : pool.resume task wait = some result)
    (syncing : isSyncing result.2) :
    ∃ bh, picked wait = some bh ∧ pool.cache.bCount bh = 0 ∧ pool.cache.bDirt bh = true := by
  unfold Pool.resume at resumed
  split at resumed
  · cases resumed
  cases wait with
  | found caller dev block bh =>
      dsimp only at resumed
      split at resumed
      · cases resumed
        exact absurd syncing gotBuffer_not_syncing
      · cases resumed
        exact absurd syncing lookUp_not_syncing
  | noBuffer caller dev block =>
      cases resumed
      exact absurd syncing lookUp_not_syncing
  | victim caller dev block bh => exact ⟨bh, rfl, checkVictim_syncing resumed syncing⟩
  | syncing caller dev block bh =>
      cases resumed
      exact syncing.elim
  | synced caller dev block bh => exact ⟨bh, rfl, checkVictim_syncing resumed syncing⟩
  | reading bh =>
      cases resumed
      exact syncing.elim
  | read bh =>
      dsimp only at resumed
      split at resumed <;> cases resumed <;> exact syncing.elim
  | releasing bh =>
      dsimp only at resumed
      split at resumed
      · cases resumed
      · cases resumed
        exact syncing.elim

/-! ## Where a lock is held -/

/-- None of the functions holds the lock of an inode. -/
def HoldsNone (frames : List Frame) : Prop := ∀ frame ∈ frames, frame.holds = none

/-- Only the innermost function holds a lock, or the one that has called `buffer.c`. -/
def Shallow : List Frame → Prop
  | .buffer _ :: rest => HoldsNone rest.tail
  | frames => HoldsNone frames.tail

theorem HoldsNone.tail {frames : List Frame} (none : HoldsNone frames) :
    HoldsNone frames.tail :=
  fun frame inside => none frame (List.mem_of_mem_tail inside)

theorem HoldsNone.shallow {frames : List Frame} (none : HoldsNone frames.tail) :
    Shallow frames := by
  unfold Shallow
  split
  · exact none.tail
  · exact none

theorem HoldsNone.cons {frame : Frame} {frames : List Frame} (free : frame.holds = none)
    (none : HoldsNone frames) : HoldsNone (frame :: frames) :=
  List.forall_mem_cons.mpr ⟨free, none⟩

theorem HoldsNone.nil : HoldsNone [] := fun _ inside => absurd inside List.not_mem_nil

/-- The functions that each task is inside. -/
def System.Nested (s : System) : Prop := ∀ task, Shallow (s.stack task)

variable {s next : System} {task : Nat} {i : Slot} {rest : List Frame}

namespace System

theorem Nested.setStack (nested : s.Nested) {frames : List Frame} (shallow : Shallow frames) :
    (s.setStack task frames).Nested := by
  intro other
  by_cases here : other = task
  · subst here
    simpa [System.setStack] using shallow
  · simpa [System.setStack, here] using nested other

theorem deliver_tail {result : Option Bh} {frames : List Frame}
    (delivered : deliver result rest = some frames) : frames.tail = rest.tail := by
  unfold deliver at delivered
  split at delivered
  · obtain ⟨bh, -, built⟩ := Option.map_eq_some_iff.mp delivered
    rw [← built]
    rfl
  · obtain ⟨bh, -, built⟩ := Option.map_eq_some_iff.mp delivered
    rw [← built]
    rfl
  · cases delivered
    rfl

/-- A call of `buffer.c` keeps the nesting: it calls `sync_dev` only where no lock is
held. -/
theorem afterBuffer_nested {result : Pool × Buffer.Outcome} (nested : s.Nested)
    (outer : HoldsNone rest.tail) (noLock : isSyncing result.2 → HoldsNone rest)
    (after : s.afterBuffer task rest result = some next) : next.Nested := by
  unfold afterBuffer at after
  dsimp only at after
  split at after
  · rename_i caller dev block bh syncs
    rw [syncs] at noLock
    cases after
    have inner : HoldsNone (.buffer (.syncing caller dev block bh) :: rest) :=
      HoldsNone.cons rfl (noLock trivial)
    exact Nested.setStack nested inner
  · cases after
    exact Nested.setStack nested outer
  · obtain ⟨frames, delivered, built⟩ := Option.map_eq_some_iff.mp after
    rw [← built]
    exact Nested.setStack nested (HoldsNone.shallow (deliver_tail delivered ▸ outer))

theorem lockAndRead_nested {frame : Frame} (nested : s.Nested) (outer : HoldsNone rest)
    (locked : s.lockAndRead task i rest frame = some next) : next.Nested := by
  have around : HoldsNone (frame :: rest).tail := outer
  unfold lockAndRead at locked
  have relocked : (s.setInode i { s.inode i with iLock := true }).Nested := nested
  exact afterBuffer_nested relocked around (fun syncing => absurd syncing lookUp_not_syncing)
    locked

theorem stepReadInode_nested {phase : Phase} (nested : s.Nested) (outer : HoldsNone rest)
    (taken : s.stepReadInode task i rest phase = some next) : next.Nested := by
  cases phase with
  | locking =>
      dsimp only [stepReadInode] at taken
      split at taken
      · cases taken
      · exact lockAndRead_nested nested outer taken
  | reading => cases taken
  | got bh =>
      cases taken
      exact nested.setStack outer
  | releasing =>
      cases taken
      exact Nested.setStack nested outer.tail.shallow

theorem stepWriteInode_nested {phase : Phase} (nested : s.Nested) (outer : HoldsNone rest)
    (taken : s.stepWriteInode task i rest phase = some next) : next.Nested := by
  cases phase with
  | locking =>
      dsimp only [stepWriteInode] at taken
      split at taken
      · cases taken
      · split at taken
        · cases taken
          exact nested.setStack outer.tail.shallow
        · exact lockAndRead_nested nested outer taken
  | reading => cases taken
  | got bh =>
      cases taken
      exact Nested.setStack nested outer
  | releasing =>
      cases taken
      exact Nested.setStack nested outer.tail.shallow

theorem stepSyncInodes_nested {k : Nat} (nested : s.Nested) (outer : HoldsNone rest)
    (taken : s.stepSyncInodes task rest k = some next) : next.Nested := by
  unfold stepSyncInodes at taken
  split at taken
  · dsimp only at taken
    split at taken
    · cases taken
    · split at taken
      · cases taken
        exact nested.setStack (HoldsNone.cons rfl outer)
      · cases taken
        exact nested.setStack outer
  · cases taken
    exact nested.setStack outer.tail.shallow

theorem stepSyncDev_nested {dev : UInt16} {second : Bool} {n : Bh} (nested : s.Nested)
    (outer : HoldsNone rest)
    (taken : s.stepSyncDev task rest dev second n = some next) : next.Nested := by
  unfold stepSyncDev at taken
  dsimp only at taken
  split at taken
  · split at taken
    · cases taken
      exact nested.setStack outer
    · split at taken
      · cases taken
      · split at taken
        · cases taken
          exact Nested.setStack nested outer
        · cases taken
          exact nested.setStack outer
  · split at taken
    · cases taken
      exact nested.setStack outer.tail.shallow
    · cases taken
      exact nested.setStack (HoldsNone.cons rfl outer)

/-- A task that goes on keeps the nesting, if `getblk` finds its buffer clean where a lock
is held. -/
theorem resume_nested (nested : s.Nested) (clean : s.PicksClean (.resume task))
    (resumed : s.resume task = some next) : next.Nested := by
  have shallow := nested task
  unfold resume at resumed
  split at resumed
  · cases resumed
  · rename_i wait rest frames
    obtain ⟨result, called, after⟩ := Option.bind_eq_some_iff.mp resumed
    rw [frames] at shallow
    refine afterBuffer_nested nested shallow (fun syncing => ?_) after
    obtain ⟨bh, isPicked, unused, dirty⟩ := resume_syncing called syncing
    intro outer inside
    by_contra holding
    have notDirty := clean wait rest bh frames
      ⟨outer, inside, Option.isSome_iff_ne_none.mpr holding⟩ isPicked unused
    simp [dirty] at notDirty
  · rename_i i phase rest frames
    rw [frames] at shallow
    exact stepReadInode_nested nested shallow resumed
  · rename_i i phase rest frames
    rw [frames] at shallow
    exact stepWriteInode_nested nested shallow resumed
  · rename_i i rest frames
    rw [frames] at shallow
    split at resumed
    · cases resumed
    · cases resumed
      exact nested.setStack (HoldsNone.tail shallow).shallow
  · rename_i k rest frames
    rw [frames] at shallow
    exact stepSyncInodes_nested nested shallow resumed
  · rename_i dev second n rest frames
    rw [frames] at shallow
    exact stepSyncDev_nested nested shallow resumed

theorem Nested.step {action : Action} (nested : s.Nested) (clean : s.PicksClean action)
    (taken : s.step action = some next) : next.Nested := by
  cases action with
  | bufferCall task caller dev block =>
      unfold System.step at taken
      dsimp only at taken
      split at taken
      · have outer : HoldsNone ([] : List Frame).tail := HoldsNone.nil
        exact afterBuffer_nested nested outer
          (fun syncing => absurd syncing lookUp_not_syncing) taken
      · cases taken
  | brelse task bh =>
      unfold System.step at taken
      dsimp only at taken
      split at taken
      · cases taken
        exact nested.setStack HoldsNone.nil
      · cases taken
  | call task frame =>
      unfold System.step at taken
      dsimp only at taken
      split at taken
      · cases taken
        have outer : HoldsNone [frame].tail := HoldsNone.nil
        exact nested.setStack outer.shallow
      · cases taken
  | resume task => exact resume_nested nested clean taken
  | changeBuffer bh bUptodate bDirt bLock =>
      cases taken
      exact nested
  | changeInode i node =>
      cases taken
      exact nested

/-- What waits for the lock of an inode is not a call of `buffer.c`. -/
theorem Nested.noSelfWait (nested : s.Nested) : s.NoSelfWait := by
  intro task frame rest i frames waits locked outer inside holding
  have shallow := nested task
  rw [frames] at shallow
  cases frame with
  | buffer wait => cases waits
  | readInode | writeInode | waitOnInode | syncInodes | syncDev =>
      have none := shallow outer inside
      rw [holding] at none
      cases none

variable {n : Nat} {bBlocknr : Bh → UInt32} {bData : Bh → Nat → UInt8}
variable {sImapBlocks sZmapBlocks : Nat → Nat}

theorem start_nested : (start n bBlocknr bData sImapBlocks sZmapBlocks).Nested := by
  intro task
  have inside : HoldsNone ([] : List Frame).tail := HoldsNone.nil
  exact inside.shallow

/-- As long as `getblk` finds the buffers it picks clean where the lock of an inode is held,
no task waits for the lock of an inode that it has locked itself. -/
theorem noSelfWait_of_picksClean
    (reached : Lib.ReachedBy System.step System.PicksClean
      (start n bBlocknr bData sImapBlocks sZmapBlocks) s) : s.NoSelfWait :=
  (reached.invariant Nested (fun _ _ _ nested clean taken => nested.step clean taken)
    start_nested).noSelfWait

/-- A check that implies the condition. -/
def checkClean (s : System) : Action → Bool
  | .resume task =>
      match s.stack task with
      | .buffer wait :: _ => (picked wait).all fun bh => !s.pool.cache.bDirt bh
      | _ => true
  | _ => true

theorem picksClean_of_check {action : Action} (checked : s.checkClean action = true) :
    s.PicksClean action := by
  cases action with
  | resume task =>
      intro wait rest bh frames holding isPicked unused
      simpa [checkClean, frames, isPicked] using checked
  | _ => trivial

/-- Two buffers, and an inode on a device with one block of each bitmap. -/
def twoBuffers : System := start 2 (fun _ => 0) (fun _ _ => 0) (fun _ => 1) fun _ => 1

def useInode : Action := .changeInode 0 { MInode.zero with iDev := 769, iNum := 1, iCount := 1 }

/-- An inode is read into a buffer that was clean. -/
def readsInode : List Action :=
  [useInode, .call 2 (.readInode 0 .locking), .resume 2, .resume 2, .resume 2,
    .changeBuffer 0 true false false, .resume 2, .resume 2, .resume 2, .resume 2]

theorem noSelfWait_of_picksClean_reads :
    (Lib.exec System.step twoBuffers readsInode).isSome ∧
      ∀ s, Lib.exec System.step twoBuffers readsInode = some s → s.NoSelfWait := by
  refine ⟨by decide +kernel, fun s reached => ?_⟩
  refine noSelfWait_of_picksClean ⟨readsInode, reached, ?_⟩
  exact Lib.everyStep_of_checkSteps checkClean (fun _ _ => picksClean_of_check)
    (by decide +kernel)

/-- Both buffers are written to and released. -/
def allDirty : List Action :=
  [.bufferCall 1 .getblk 769 100, .resume 1, .bufferCall 1 .getblk 769 101, .resume 1,
    .changeBuffer 0 true true false, .changeBuffer 1 true true false,
    .brelse 1 0, .resume 1, .brelse 1 1, .resume 1]

/-- An inode is read while every buffer is dirty: `getblk` writes them back, and
`sync_inodes` waits for the inode. -/
def readsWhileDirty : List Action :=
  allDirty ++ [useInode, .call 2 (.readInode 0 .locking), .resume 2, .resume 2, .resume 2,
    .resume 2, .changeBuffer 0 true false false, .changeBuffer 1 true false false, .resume 2]

theorem waits_for_itself : ¬ ∀ (actions : List Action) (s : System),
    Lib.exec System.step twoBuffers actions = some s → s.NoSelfWait := by
  intro noSelfWait
  have run : (Lib.exec System.step twoBuffers readsWhileDirty).map (fun s =>
      (s.stack 2, (s.inode 0).iLock)) =
      some ([.syncInodes 0, .syncDev 769 true 0, .buffer (.syncing .bread 769 4 0),
        .readInode 0 .reading], true) := by
    decide +kernel
  obtain ⟨s, reached, sleeps⟩ := Option.map_eq_some_iff.mp run
  obtain ⟨frames, locked⟩ := Prod.mk.injEq .. ▸ sleeps
  exact noSelfWait readsWhileDirty s reached 2 _ _ 0 frames rfl locked
    (.readInode 0 .reading) (by simp) rfl

end System

end Linux012.Inodes.Locks
