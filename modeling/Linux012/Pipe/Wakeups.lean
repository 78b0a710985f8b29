import Linux012.Pipe.Calls

/-!
# Which pipe operations wake a selecting task

`select` always registers on `i_wait`, where readers wait; `write_pipe` and `iput` wake that
queue, but `read_pipe` wakes the writers on `i_wait2`.  So a task that selects a full pipe for
output sleeps on when a reader makes room.
-/

namespace Linux012.Pipe

open Kernel (Sleeper TaskState WaitQueue)

/-! ## What is promised -/

section Spec

variable {Task : Type}

/-- One of the selected conditions holds. -/
def Ready (files : Files) (sets : FdSets) (world : World Task) : Prop :=
  ∃ condition ∈ conditions, Selected sets condition ∧
    ready files world (files.inode condition.1) condition.2 = true

/-- `task` is `selector`, or in front of it in the queue: when `task` runs, the tasks up to it
are woken one after the other. -/
def World.Reaches (world : World Task) (selector : Task) (address : WaitAddress) (task : Task) :
    Prop :=
  ∃ above below, (world.queue address).Chain (above ++ selector :: below) ∧
    task ∈ above ++ [selector]

/-- `selector` is runnable, or will be through the chain of a queue. -/
def World.Roused (world : World Task) (selector : Task) : Prop :=
  (world.fields selector).state = .running ∨
    ∃ address task, world.Reaches selector address task ∧ (world.fields task).state = .running

/-- Behind every operation, a task that selects a condition that holds has been woken. -/
def Woken (files : Files) (selector : Task) (sets : FdSets) (s : PipeSystem Task) : Prop :=
  s.busy = none → Ready files sets s.world → s.world.Roused selector

/-- The condition on one step: `read_pipe` takes nothing out of a full pipe that is selected
for output, unless the task has been woken before. -/
def ReadAllowed (files : Files) (selector : Task) (sets : FdSets) (s : PipeSystem Task) :
    PipeAction Task → Prop
  | .turn task => ∀ inode count read, s.busy = some task →
      s.call task = .reading inode count read → count ≠ 0 →
      (s.world.inodes inode).pipeFull = true →
      (∃ fd, (fd, Sel.selOut) ∈ conditions ∧ Selected sets (fd, .selOut) ∧
        files.inode fd = inode) → s.world.Roused selector
  | _ => True

variable [DecidableEq Task] (idle : Task)

/-- The promise holds behind the step. -/
def KeepsWoken (files : Files) (selector : Task) (sets : FdSets) (s : PipeSystem Task)
    (action : PipeAction Task) : Prop :=
  ∀ next, pipeStep idle selector s action = some next → Woken files selector sets next

/-- No operation is in its middle, `selector` waits nowhere, and the others wait where they
are. -/
structure Settled (selector : Task) (s : PipeSystem Task) : Prop where
  chains : ∀ address, ∃ sleepers, (s.world.queue address).Chain sleepers
  calls : ∀ task ≠ selector, ∀ address,
    s.world.inside address task = true ↔ (s.call task).sleepsOn = some address
  outside : ∀ address, s.world.inside address selector = false
  notBusy : s.busy = none

/-- All selected descriptors are pipes. -/
def SelectsPipes (files : Files) (sets : FdSets) (world : World Task) : Prop :=
  ∀ condition ∈ conditions, Selected sets condition →
    isChr (world.inodes (files.inode condition.1)).iMode = false ∧
      (world.inodes (files.inode condition.1)).iPipe = true

/-- `do_select` polls and goes to sleep. -/
def beginSelect (files : Files) (selector : Task) (sets : FdSets) (s : PipeSystem Task) :
    PipeSystem Task :=
  { s with world := (poll files selector sets s.world).1.1.setState selector .interruptible }

end Spec

/-! ## Queues of the world -/

section Queues

variable {Task : Type} {world other : World Task} {selector task : Task} {address : WaitAddress}

/-- The chain of a queue depends only on its pointers. -/
theorem World.Reaches.congr (reaches : world.Reaches selector address task)
    (sameHead : other.head address = world.head address)
    (sameInside : other.inside address = world.inside address)
    (sameTmp : other.tmp address = world.tmp address) :
    other.Reaches selector address task := by
  obtain ⟨above, below, chain, member⟩ := reaches
  exact ⟨above, below, chain.congr sameHead sameInside sameTmp, member⟩

/-- A task in front of `selector` is in the queue. -/
theorem World.Reaches.inside (reaches : world.Reaches selector address task) :
    world.inside address task = true := by
  obtain ⟨above, below, chain, member⟩ := reaches
  refine (chain.inside task).mpr ?_
  rcases List.mem_append.mp member with isAbove | isSelf
  · exact List.mem_append_left _ isAbove
  · rw [List.mem_singleton.mp isSelf]
    exact List.mem_append_right _ List.mem_cons_self

/-- The first task of a chain with `selector` in it. -/
theorem exists_first {above below : List Task}
    (chain : (world.queue address).Chain (above ++ selector :: below)) :
    ∃ first ∈ above ++ [selector], world.head address = some first := by
  cases above with
  | nil => exact ⟨selector, List.mem_cons_self, chain.leads.1⟩
  | cons first above => exact ⟨first, List.mem_cons_self, chain.leads.1⟩

/-- The other world has the same queues, and its tasks are woken at most. -/
structure Wakes (world other : World Task) : Prop where
  inodes : other.inodes = world.inodes
  ttyTable : other.ttyTable = world.ttyTable
  ttyQueues : other.ttyQueues = world.ttyQueues
  fgConsole : other.fgConsole = world.fgConsole
  head : other.head = world.head
  inside : other.inside = world.inside
  tmp : other.tmp = world.tmp
  running : ∀ task, (world.fields task).state = .running → (other.fields task).state = .running

theorem Wakes.roused (wakes : Wakes world other) (roused : world.Roused selector) :
    other.Roused selector := by
  rcases roused with running | ⟨address, task, reaches, running⟩
  · exact .inl (wakes.running selector running)
  · exact .inr ⟨address, task, reaches.congr (congrFun wakes.head _) (congrFun wakes.inside _)
      (congrFun wakes.tmp _), wakes.running task running⟩

theorem Wakes.trans {third : World Task} (first : Wakes world other)
    (second : Wakes other third) : Wakes world third where
  inodes := second.inodes.trans first.inodes
  ttyTable := second.ttyTable.trans first.ttyTable
  ttyQueues := second.ttyQueues.trans first.ttyQueues
  fgConsole := second.fgConsole.trans first.fgConsole
  head := second.head.trans first.head
  inside := second.inside.trans first.inside
  tmp := second.tmp.trans first.tmp
  running task running := second.running task (first.running task running)

theorem Wakes.chain (wakes : Wakes world other) {sleepers : List Task}
    (chain : (world.queue address).Chain sleepers) : (other.queue address).Chain sleepers :=
  chain.congr (congrFun wakes.head _) (congrFun wakes.inside _) (congrFun wakes.tmp _)

@[simp] theorem head_setQueue_self (queue : WaitQueue Task) :
    (world.setQueue address queue).head address = queue.head :=
  Function.update_self _ _ _

@[simp] theorem inside_setQueue_self (queue : WaitQueue Task) :
    (world.setQueue address queue).inside address = queue.inside :=
  Function.update_self _ _ _

@[simp] theorem tmp_setQueue_self (queue : WaitQueue Task) :
    (world.setQueue address queue).tmp address = queue.tmp :=
  Function.update_self _ _ _

/-- An operation on one queue leaves the pointers of the others. -/
theorem World.Reaches.setQueue_of_ne {elsewhere : WaitAddress} (queue : WaitQueue Task)
    (differs : address ≠ elsewhere) (reaches : world.Reaches selector address task) :
    (world.setQueue elsewhere queue).Reaches selector address task :=
  reaches.congr (Function.update_of_ne differs _ _) (Function.update_of_ne differs _ _)
    (Function.update_of_ne differs _ _)

theorem chain_setQueue_of_ne {elsewhere : WaitAddress} (queue : WaitQueue Task)
    (differs : address ≠ elsewhere) {sleepers : List Task}
    (chain : (world.queue address).Chain sleepers) :
    ((world.setQueue elsewhere queue).queue address).Chain sleepers :=
  chain.congr (Function.update_of_ne differs _ _) (Function.update_of_ne differs _ _)
    (Function.update_of_ne differs _ _)

theorem chain_setQueue_self {queue : WaitQueue Task} {sleepers : List Task}
    (chain : queue.Chain sleepers) :
    ((world.setQueue address queue).queue address).Chain sleepers :=
  chain.congr (head_setQueue_self _) (inside_setQueue_self _) (tmp_setQueue_self _)

variable [DecidableEq Task]

/-- A task stays running when another one is woken. -/
theorem state_setState_running (queue : WaitQueue Task) (woken : Option Task)
    (running : (queue.fields task).state = .running) :
    ((queue.setState woken .running).fields task).state = .running := by
  cases woken with
  | none => exact running
  | some woken =>
      simp only [WaitQueue.setState, Function.update_apply]
      split
      · rfl
      · exact running

theorem state_setState_self (queue : WaitQueue Task) (task : Task) (state : TaskState) :
    ((queue.setState (some task) state).fields task).state = state := by
  simp [WaitQueue.setState]

theorem wakes_wakeUp (world : World Task) (address : WaitAddress) :
    Wakes world (world.wakeUp address) where
  inodes := rfl
  ttyTable := rfl
  ttyQueues := rfl
  fgConsole := rfl
  head := by simp [World.wakeUp, World.setQueue, World.queue]
  inside := by simp [World.wakeUp, World.setQueue, World.queue]
  tmp := by simp [World.wakeUp, World.setQueue, World.queue]
  running _ running := state_setState_running _ _ running

/-- `wake_up` wakes the first task of the chain, which reaches every other one. -/
theorem roused_wakeUp (chains : ∃ sleepers, (world.queue address).Chain sleepers)
    (waits : world.inside address selector = true) : (world.wakeUp address).Roused selector := by
  obtain ⟨sleepers, chain⟩ := chains
  obtain ⟨above, below, rfl⟩ := List.append_of_mem ((chain.inside selector).mp waits)
  have chain' := (wakes_wakeUp world address).chain chain
  obtain ⟨first, member, isHead⟩ := exists_first chain
  refine .inr ⟨address, first, ⟨above, below, chain', member⟩, ?_⟩
  simp only [World.wakeUp, World.setQueue, isHead]
  exact state_setState_self _ _ _

theorem wakes_post (world : World Task) (task : Task) (signal : UInt32) :
    Wakes world (world.post task signal) where
  inodes := rfl
  ttyTable := rfl
  ttyQueues := rfl
  fgConsole := rfl
  head := rfl
  inside := rfl
  tmp := rfl
  running other running := by
    simp only [World.post, Function.update_apply]
    split
    · rename_i same
      exact same ▸ running
    · exact running

theorem running_check {sleeper : Sleeper} (jiffies : UInt32)
    (running : sleeper.state = .running) : (sleeper.check jiffies).state = .running := by
  simp only [Sleeper.check, Sleeper.interrupt]
  split_ifs <;> simp_all

theorem wakes_check (idle : Task) (world : World Task) : Wakes world (world.check idle) where
  inodes := rfl
  ttyTable := rfl
  ttyQueues := rfl
  fgConsole := rfl
  head := rfl
  inside := rfl
  tmp := rfl
  running task running := by
    simp only [World.check]
    split
    · exact running
    · exact running_check _ running

/-! ## Sleeping and leaving -/

/-- A task that starts to sleep stays behind nobody that `selector` waits for. -/
theorem roused_sleepOn {state : TaskState} (roused : world.Roused selector)
    (other : task ≠ selector)
    (outside : ∀ address, world.inside address task = false) :
    (world.sleepOn address task state).Roused selector := by
  have stays (runner : Task) (differs : runner ≠ task)
      (running : (world.fields runner).state = .running) :
      ((world.sleepOn address task state).fields runner).state = .running := by
    simp only [World.sleepOn, World.setQueue, WaitQueue.sleepOn, WaitQueue.setState]
    rw [Function.update_of_ne differs]
    exact running
  rcases roused with running | ⟨place, runner, reaches, running⟩
  · exact .inl (stays selector (Ne.symm other) running)
  · have differs : runner ≠ task := by
      rintro rfl
      have isInside := reaches.inside
      rw [outside place] at isInside
      cases isInside
    refine .inr ⟨place, runner, ?_, stays runner differs running⟩
    by_cases same : place = address
    · subst same
      obtain ⟨above, below, chain, member⟩ := reaches
      exact ⟨task :: above, below, chain_setQueue_self (chain.sleepOn (outside place)),
        List.mem_cons_of_mem _ member⟩
    · exact reaches.setQueue_of_ne _ same

/-- Behind the first task of a chain the next one is woken. -/
theorem roused_leave (roused : world.Roused selector) (other : task ≠ selector)
    (isFirst : world.head address = some task) :
    (world.setQueue address ((world.queue address).leave task)).Roused selector := by
  have stays (runner : Task) (running : (world.fields runner).state = .running) :
      ((world.setQueue address ((world.queue address).leave task)).fields runner).state =
        .running := by
    simp only [World.setQueue, WaitQueue.leave]
    exact state_setState_running _ _ running
  rcases roused with running | ⟨place, runner, reaches, running⟩
  · exact .inl (stays selector running)
  · by_cases same : place = address
    · subst same
      obtain ⟨above, below, chain, -⟩ := reaches
      cases above with
      | nil => exact absurd (Option.some.inj (isFirst.symm.trans chain.leads.1)) other
      | cons first above =>
          have isTask : first = task := Option.some.inj (chain.leads.1.symm.trans isFirst)
          subst isTask
          have chain' : ((world.setQueue place ((world.queue place).leave first)).queue
              place).Chain (above ++ selector :: below) := chain_setQueue_self chain.leave
          obtain ⟨next, member, isNext⟩ := exists_first chain'
          refine .inr ⟨place, next, ⟨above, below, chain', member⟩, ?_⟩
          have isTmp : world.tmp place first = some next := by
            rw [head_setQueue_self] at isNext
            simpa [WaitQueue.leave, World.queue] using isNext
          simp only [World.setQueue, WaitQueue.leave, World.queue, isTmp]
          exact state_setState_self _ _ _
    · exact .inr ⟨place, runner, reaches.setQueue_of_ne _ same, stays runner running⟩

/-- A task that is not the first wakes the first and waits again. -/
theorem roused_waitAgain (roused : world.Roused selector) (other : task ≠ selector)
    (once : ∀ place, world.inside place task = true → place = address)
    (notFirst : (world.head address).isSome ∧ world.head address ≠ some task) :
    (world.setQueue address ((world.queue address).resume task)).Roused selector := by
  have again : (world.queue address).resume task =
      ((world.queue address).setState (world.head address) .running).setState task
        .uninterruptible := if_pos notFirst
  have fields (runner : Task) (differs : runner ≠ task) :
      (((world.queue address).resume task).fields runner) =
        ((world.queue address).setState (world.head address) .running).fields runner := by
    rw [again]
    exact Function.update_of_ne differs _ _
  have stays (runner : Task) (differs : runner ≠ task)
      (running : (world.fields runner).state = .running) :
      ((world.setQueue address ((world.queue address).resume task)).fields runner).state =
        .running := by
    simp only [World.setQueue, fields runner differs]
    exact state_setState_running _ _ running
  rcases roused with running | ⟨place, runner, reaches, running⟩
  · exact .inl (stays selector (Ne.symm other) running)
  · by_cases same : place = address
    · subst same
      obtain ⟨above, below, chain, member⟩ := reaches
      have chain' : ((world.setQueue place ((world.queue place).resume task)).queue
          place).Chain (above ++ selector :: below) := by
        apply chain_setQueue_self
        rw [again]
        exact chain.congr (by simp) (by simp) (by simp)
      obtain ⟨first, isAbove, isFirst⟩ := exists_first chain
      have differs : first ≠ task := fun isTask => notFirst.2 (isTask ▸ isFirst)
      refine .inr ⟨place, first, ⟨above, below, chain', isAbove⟩, ?_⟩
      simp only [World.setQueue, fields first differs, isFirst]
      exact state_setState_self _ _ _
    · have differs : runner ≠ task := by
        rintro rfl
        exact same (once place reaches.inside)
      exact .inr ⟨place, runner, reaches.setQueue_of_ne _ same, stays runner differs running⟩

end Queues

/-! ## The conditions of a pipe -/

/-- `check_XX` would report the condition of a pipe. -/
def Inode.ready (node : Inode) : Sel → Bool
  | .selIn => node.iPipe && !node.pipeEmpty
  | .selOut => node.iPipe && !node.pipeFull
  | .selEx => node.iPipe && decide (node.iCount < 2)

theorem ready_of_not_isChr {Task : Type} {files : Files} {world : World Task} {inode : Nat}
    (noTty : isChr (world.inodes inode).iMode = false) (sel : Sel) :
    ready files world inode sel = (world.inodes inode).ready sel := by
  have none : getTty files world (world.inodes inode) = none := by simp [getTty, noTty]
  cases sel <;> simp only [ready, none, Inode.ready]

theorem watched_of_not_isChr {Task : Type} {files : Files} {world : World Task} {inode : Nat}
    (noTty : isChr (world.inodes inode).iMode = false)
    (isPipe : (world.inodes inode).iPipe = true) (sel : Sel) :
    watched files world inode sel = some (.iWait inode) := by
  have none : getTty files world (world.inodes inode) = none := by simp [getTty, noTty]
  cases sel <;> simp [watched, none, isPipe]

namespace Inode

theorem pipeEmpty_of_pipeSize_ne_zero {node : Inode} (notEmpty : node.pipeSize ≠ 0) :
    node.pipeEmpty = false := by
  rw [pipeEmpty, beq_eq_false_iff_ne]
  intro same
  apply notEmpty
  simp [pipeSize, same]

/-- Reading from a pipe that is not empty brings room, and nothing else. -/
theorem ready_of_ready_advanceTail {node : Inode} {chars : Nat} {sel : Sel}
    (notEmpty : node.pipeSize ≠ 0) (isReady : (node.advanceTail chars).ready sel = true) :
    node.ready sel = true ∨ sel = .selOut ∧ node.pipeFull = true := by
  cases sel with
  | selIn =>
      left
      simp only [ready, advanceTail, Bool.and_eq_true] at isReady ⊢
      exact ⟨isReady.1, by rw [pipeEmpty_of_pipeSize_ne_zero notEmpty]; rfl⟩
  | selOut =>
      simp only [ready, advanceTail, Bool.and_eq_true] at isReady ⊢
      cases isFull : node.pipeFull
      · exact .inl ⟨isReady.1, rfl⟩
      · exact .inr ⟨trivial, rfl⟩
  | selEx => exact .inl isReady

end Inode

/-! ## The invariant -/

section Invariant

variable {Task : Type} {files : Files} {selector : Task} {sets : FdSets} {s next : PipeSystem Task}

/-- The queues are chains, the tasks wait where they are, and `selector` waits on every pipe that
it selects. -/
structure Registered (files : Files) (selector : Task) (sets : FdSets) (s : PipeSystem Task) :
    Prop where
  chains : ∀ address, ∃ sleepers, (s.world.queue address).Chain sleepers
  calls : ∀ task ≠ selector, ∀ address,
    s.world.inside address task = true ↔ (s.call task).sleepsOn = some address
  registered : ∀ condition ∈ conditions, Selected sets condition →
    s.world.inside (.iWait (files.inode condition.1)) selector = true
  pipes : ∀ condition ∈ conditions, Selected sets condition →
    isChr (s.world.inodes (files.inode condition.1)).iMode = false
  busy : ∀ task, s.busy = some task → task ≠ selector ∧ (s.call task).sleepsOn = none

/-- A writer is in the middle of an operation on a pipe that `selector` waits on. -/
def Writes (selector : Task) (s : PipeSystem Task) : Prop :=
  ∃ task inode count written, s.busy = some task ∧
    s.call task = .writing inode count written ∧ s.world.inside (.iWait inode) selector = true

/-- The invariant: a condition that holds has woken `selector`, or a writer is going to. -/
structure WokenInv (files : Files) (selector : Task) (sets : FdSets) (s : PipeSystem Task) : Prop
    extends Registered files selector sets s where
  woken : Ready files sets s.world → s.world.Roused selector ∨ Writes selector s

theorem WokenInv.toWoken (inv : WokenInv files selector sets s) : Woken files selector sets s := by
  intro notBusy isReady
  rcases inv.woken isReady with roused | ⟨task, inode, count, written, isBusy, -, -⟩
  · exact roused
  · rw [notBusy] at isBusy
    cases isBusy

/-- A task inside a call that does not sleep is in no queue. -/
theorem Registered.outside {task : Task} (registered : Registered files selector sets s)
    (other : task ≠ selector) (awake : (s.call task).sleepsOn = none) (address : WaitAddress) :
    s.world.inside address task = false := by
  rw [← Bool.not_eq_true, registered.calls task other address, awake]
  nofun

/-- A task sleeps in one queue at most. -/
theorem Registered.once {task : Task} {address : WaitAddress}
    (registered : Registered files selector sets s) (other : task ≠ selector)
    (sleeps : (s.call task).sleepsOn = some address) (place : WaitAddress)
    (isInside : s.world.inside place task = true) : place = address := by
  have here := (registered.calls task other place).mp isInside
  exact Option.some.inj (here.symm.trans sleeps)

/-- The conditions depend only on the inodes. -/
theorem Registered.ready_iff (registered : Registered files selector sets s) :
    Ready files sets s.world ↔ ∃ condition ∈ conditions, Selected sets condition ∧
      (s.world.inodes (files.inode condition.1)).ready condition.2 = true := by
  constructor
  · rintro ⟨condition, isCondition, selected, isReady⟩
    rw [ready_of_not_isChr (registered.pipes condition isCondition selected)] at isReady
    exact ⟨condition, isCondition, selected, isReady⟩
  · rintro ⟨condition, isCondition, selected, isReady⟩
    refine ⟨condition, isCondition, selected, ?_⟩
    rwa [ready_of_not_isChr (registered.pipes condition isCondition selected)]

variable {task : Task} {world : World Task} {call : PipeCall}

/-- Waking tasks keeps the registration. -/
theorem Registered.wakes (registered : Registered files selector sets s)
    (wakes : Wakes s.world world) : Registered files selector sets { s with world := world } where
  chains address := by
    obtain ⟨sleepers, chain⟩ := registered.chains address
    exact ⟨sleepers, wakes.chain chain⟩
  calls := by
    rw [wakes.inside]
    exact registered.calls
  registered := by
    rw [wakes.inside]
    exact registered.registered
  pipes := by
    rw [wakes.inodes]
    exact registered.pipes
  busy := registered.busy

/-- A condition that holds behind a step held before it, or is one of the changed inode. -/
theorem Registered.ready_of_changed {inode : Nat}
    (registered : Registered files selector sets s)
    (registered' : Registered files selector sets next)
    (others : ∀ place ≠ inode, next.world.inodes place = s.world.inodes place)
    (isReady : Ready files sets next.world) :
    Ready files sets s.world ∨ ∃ condition ∈ conditions, Selected sets condition ∧
      files.inode condition.1 = inode ∧ (next.world.inodes inode).ready condition.2 = true := by
  obtain ⟨condition, isCondition, selected, isReady⟩ := registered'.ready_iff.mp isReady
  by_cases same : files.inode condition.1 = inode
  · rw [same] at isReady
    exact .inr ⟨condition, isCondition, selected, same, isReady⟩
  · rw [others _ same] at isReady
    exact .inl (registered.ready_iff.mpr ⟨condition, isCondition, selected, isReady⟩)

/-- With the same inodes the same conditions hold. -/
theorem Registered.ready_of_same (registered : Registered files selector sets s)
    (registered' : Registered files selector sets next)
    (same : next.world.inodes = s.world.inodes) (isReady : Ready files sets next.world) :
    Ready files sets s.world := by
  rw [registered'.ready_iff, same] at isReady
  exact registered.ready_iff.mpr isReady

namespace WokenInv

theorem not_writes_of_notBusy (notBusy : s.busy = none) : ¬Writes selector s := by
  rintro ⟨task, inode, count, written, isBusy, -, -⟩
  cases notBusy.symm.trans isBusy

theorem not_writes_of_reading {inode count read : Nat} (isBusy : s.busy = some task)
    (reads : s.call task = .reading inode count read) : ¬Writes selector s := by
  rintro ⟨task', inode', count', written, isBusy', writes, -⟩
  cases isBusy.symm.trans isBusy'
  cases reads.symm.trans writes

/-- A step that changes no inode keeps the invariant, if it rouses `selector` whenever a
condition holds. -/
theorem of_same (inv : WokenInv files selector sets s)
    (registered : Registered files selector sets next)
    (same : next.world.inodes = s.world.inodes)
    (roused : s.world.Roused selector ∨ Writes selector s →
      next.world.Roused selector ∨ Writes selector next) :
    WokenInv files selector sets next where
  toRegistered := registered
  woken isReady :=
    roused (inv.woken (inv.toRegistered.ready_of_same registered same isReady))

end WokenInv

variable [DecidableEq Task]

/-- A step of one task keeps the registration, if the task is afterwards in the queue that its
call says. -/
theorem Registered.move {busy : Option Task} (registered : Registered files selector sets s)
    (chains : ∀ address, ∃ sleepers, (world.queue address).Chain sleepers)
    (others : ∀ runner ≠ task, ∀ address,
      world.inside address runner = s.world.inside address runner)
    (inside : ∀ address, world.inside address task = true ↔ call.sleepsOn = some address)
    (sameMode : ∀ inode, (world.inodes inode).iMode = (s.world.inodes inode).iMode)
    (other : task ≠ selector)
    (isBusy : busy = none ∨ busy = some task ∧ call.sleepsOn = none) :
    Registered files selector sets ⟨world, Function.update s.call task call, busy⟩ where
  chains := chains
  calls runner differs address := by
    by_cases same : runner = task
    · subst same
      simp only [Function.update_self]
      exact inside address
    · simp only [Function.update_of_ne same]
      rw [others runner same, registered.calls runner differs]
  registered condition isCondition selected := by
    rw [others selector (Ne.symm other)]
    exact registered.registered condition isCondition selected
  pipes condition isCondition selected := by
    rw [sameMode]
    exact registered.pipes condition isCondition selected
  busy runner runs := by
    rcases isBusy with rfl | ⟨rfl, awake⟩
    · cases runs
    · cases runs
      exact ⟨other, by simp [awake]⟩

/-- A step that leaves the queues alone. -/
theorem Registered.stay {busy : Option Task} (registered : Registered files selector sets s)
    (sameHead : world.head = s.world.head) (sameInside : world.inside = s.world.inside)
    (sameTmp : world.tmp = s.world.tmp)
    (sameMode : ∀ inode, (world.inodes inode).iMode = (s.world.inodes inode).iMode)
    (other : task ≠ selector) (same : (s.call task).sleepsOn = call.sleepsOn)
    (isBusy : busy = none ∨ busy = some task ∧ call.sleepsOn = none) :
    Registered files selector sets ⟨world, Function.update s.call task call, busy⟩ := by
  refine registered.move (fun address => ?_) (fun runner _ address => ?_) (fun address => ?_)
    sameMode other isBusy
  · obtain ⟨sleepers, chain⟩ := registered.chains address
    exact ⟨sleepers, chain.congr (congrFun sameHead _) (congrFun sameInside _)
      (congrFun sameTmp _)⟩
  · rw [sameInside]
  · rw [sameInside, registered.calls task other, same]

/-- The task starts to sleep. -/
theorem Registered.sleepOn {address : WaitAddress} {state : TaskState}
    (registered : Registered files selector sets s) (other : task ≠ selector)
    (awake : (s.call task).sleepsOn = none) (sleeps : call.sleepsOn = some address) :
    Registered files selector sets
      ⟨s.world.sleepOn address task state, Function.update s.call task call, none⟩ := by
  have outside := registered.outside other awake
  have inside (place : WaitAddress) (runner : Task) :
      (s.world.sleepOn address task state).inside place runner =
        if place = address ∧ runner = task then true else s.world.inside place runner := by
    by_cases same : place = address
    · subst same
      by_cases isTask : runner = task <;>
        simp [World.sleepOn, World.setQueue, WaitQueue.sleepOn, World.queue, isTask]
    · simp [World.sleepOn, World.setQueue, same]
  refine registered.move (fun place => ?_) (fun runner differs place => ?_) (fun place => ?_)
    (fun _ => rfl) other (.inl rfl)
  · obtain ⟨sleepers, chain⟩ := registered.chains place
    by_cases same : place = address
    · subst same
      exact ⟨_, chain_setQueue_self (chain.sleepOn (outside place))⟩
    · exact ⟨sleepers, chain_setQueue_of_ne _ same chain⟩
  · rw [inside, if_neg fun both => differs both.2]
  · rw [inside, sleeps, outside place]
    by_cases same : place = address
    · simp [same]
    · simp [same, Ne.symm same]

/-- The task leaves its queue. -/
theorem Registered.leave {address : WaitAddress} (registered : Registered files selector sets s)
    (other : task ≠ selector) (sleeps : (s.call task).sleepsOn = some address)
    (isFirst : s.world.head address = some task) (awake : call.sleepsOn = none) :
    Registered files selector sets
      ⟨s.world.setQueue address ((s.world.queue address).leave task),
        Function.update s.call task call, some task⟩ := by
  have inside (place : WaitAddress) (runner : Task) :
      (s.world.setQueue address ((s.world.queue address).leave task)).inside place runner =
        if place = address ∧ runner = task then false else s.world.inside place runner := by
    by_cases same : place = address
    · subst same
      by_cases isTask : runner = task <;>
        simp [World.setQueue, WaitQueue.leave, World.queue, isTask]
    · simp [World.setQueue, same]
  refine registered.move (fun place => ?_) (fun runner differs place => ?_) (fun place => ?_)
    (fun _ => rfl) other (.inr ⟨rfl, awake⟩)
  · obtain ⟨sleepers, chain⟩ := registered.chains place
    by_cases same : place = address
    · subst same
      cases sleepers with
      | nil => exact absurd (chain.leads.symm.trans isFirst) (Option.some_ne_none task).symm
      | cons first sleepers =>
          cases chain.leads.1.symm.trans isFirst
          exact ⟨sleepers, chain_setQueue_self chain.leave⟩
    · exact ⟨sleepers, chain_setQueue_of_ne _ same chain⟩
  · rw [inside, if_neg fun both => differs both.2]
  · rw [inside, awake]
    split
    · simp
    · rename_i elsewhere
      rw [registered.calls task other, sleeps]
      constructor
      · intro same
        exact absurd ⟨(Option.some.inj same).symm, rfl⟩ elsewhere
      · intro same
        cases same

/-! ## One step -/

namespace WokenInv

theorem start (inv : WokenInv files selector sets s) (idles : s.Idles selector task)
    (awake : call.sleepsOn = none) :
    WokenInv files selector sets (s.goesOn s.world task call) := by
  obtain ⟨notBusy, other, outside⟩ := idles
  have registered : Registered files selector sets (s.goesOn s.world task call) :=
    inv.toRegistered.stay rfl rfl rfl (fun _ => rfl) other (outside.trans awake.symm)
      (.inr ⟨rfl, awake⟩)
  refine inv.of_same registered rfl ?_
  rintro (roused | writes)
  · exact .inl roused
  · exact absurd writes (not_writes_of_notBusy notBusy)

/-- The busy task wakes a queue and returns, maybe with a signal. -/
theorem returns (inv : WokenInv files selector sets s) (isBusy : s.busy = some task)
    (wakes : Wakes s.world world)
    (writes : Writes selector s → world.Roused selector) (result : Int) :
    WokenInv files selector sets (s.returns world task result) := by
  obtain ⟨other, awake⟩ := inv.busy task isBusy
  have registered : Registered files selector sets (s.returns world task result) :=
    inv.toRegistered.stay wakes.head wakes.inside wakes.tmp
      (fun inode => by rw [wakes.inodes]) other awake (.inl rfl)
  refine inv.of_same registered wakes.inodes ?_
  rintro (roused | isWriter)
  · exact .inl (wakes.roused roused)
  · exact .inl (writes isWriter)

/-- The busy task wakes a queue and sleeps in another one. -/
theorem sleeps {address : WaitAddress} {state : TaskState}
    (inv : WokenInv files selector sets s) (isBusy : s.busy = some task)
    (wakes : Wakes s.world world)
    (writes : Writes selector s → world.Roused selector)
    (sleepsOn : call.sleepsOn = some address) :
    WokenInv files selector sets (s.sleeps (world.sleepOn address task state) task call) := by
  obtain ⟨other, awake⟩ := inv.busy task isBusy
  have woken := inv.toRegistered.wakes wakes
  have registered : Registered files selector sets
      (s.sleeps (world.sleepOn address task state) task call) :=
    woken.sleepOn other awake sleepsOn
  refine inv.of_same registered wakes.inodes fun before => .inl ?_
  refine roused_sleepOn ?_ other (woken.outside other awake)
  rcases before with roused | isWriter
  · exact wakes.roused roused
  · exact writes isWriter

theorem readTurn {inode count read : Nat} (inv : WokenInv files selector sets s)
    (isBusy : s.busy = some task) (reads : s.call task = .reading inode count read)
    (allowed : ReadAllowed files selector sets s (.turn task)) :
    WokenInv files selector sets (s.readTurn task inode count read) := by
  have notWrites : ¬Writes selector s := not_writes_of_reading isBusy reads
  have wakes := wakes_wakeUp s.world (.iWait2 inode)
  rw [PipeSystem.readTurn]
  split
  · exact inv.returns isBusy wakes (fun writes => absurd writes notWrites) _
  · rename_i countPos
    split
    · dsimp only
      split
      · exact inv.returns isBusy wakes (fun writes => absurd writes notWrites) _
      · split
        · exact inv.returns isBusy wakes (fun writes => absurd writes notWrites) _
        · exact inv.sleeps isBusy wakes (fun writes => absurd writes notWrites) rfl
    · rename_i notEmpty
      obtain ⟨other, awake⟩ := inv.busy task isBusy
      have registered : Registered files selector sets
          (s.goesOn (s.world.setInode inode
            ((s.world.inodes inode).advanceTail ((s.world.inodes inode).readChars count)))
            task (.reading inode (count - (s.world.inodes inode).readChars count)
              (read + (s.world.inodes inode).readChars count))) := by
        refine inv.toRegistered.stay rfl rfl rfl (fun place => ?_) other awake
          (.inr ⟨rfl, rfl⟩)
        by_cases same : place = inode <;> simp [World.setInode, same, Inode.advanceTail]
      refine ⟨registered, fun isReady => .inl ?_⟩
      have before := inv.toRegistered.ready_of_changed registered
        (fun place differs => Function.update_of_ne differs _ _) isReady
      rcases before with before | ⟨⟨fd, sel⟩, isCondition, selected, isInode, isReady⟩
      · exact (inv.woken before).resolve_right notWrites
      · simp only [PipeSystem.goesOn, World.setInode, Function.update_self] at isReady
        rcases Inode.ready_of_ready_advanceTail notEmpty isReady with before | ⟨isOut, isFull⟩
        · refine (inv.woken (inv.toRegistered.ready_iff.mpr ?_)).resolve_right notWrites
          exact ⟨(fd, sel), isCondition, selected, isInode ▸ before⟩
        · subst isOut
          exact allowed inode count read isBusy reads countPos isFull
            ⟨fd, isCondition, selected, isInode⟩

theorem writeTurn {inode count written : Nat} (inv : WokenInv files selector sets s)
    (isBusy : s.busy = some task) (isCall : s.call task = .writing inode count written) :
    WokenInv files selector sets (s.writeTurn task inode count written) := by
  have wakes := wakes_wakeUp s.world (.iWait inode)
  have isWriter : Writes selector s → s.world.inside (.iWait inode) selector = true := by
    rintro ⟨task', inode', count', written', isBusy', isCall', waits⟩
    cases isBusy.symm.trans isBusy'
    cases isCall.symm.trans isCall'
    exact waits
  have woken : Writes selector s → (s.world.wakeUp (.iWait inode)).Roused selector :=
    fun writes => roused_wakeUp (inv.chains (.iWait inode)) (isWriter writes)
  rw [PipeSystem.writeTurn]
  split
  · exact inv.returns isBusy wakes woken _
  · split
    · dsimp only
      split
      · exact inv.returns isBusy
          (wakes.trans (wakes_post (s.world.wakeUp (.iWait inode)) task 0x1000))
          (fun writes => (wakes_post _ _ _).roused (woken writes)) _
      · exact inv.sleeps isBusy wakes woken rfl
    · obtain ⟨other, awake⟩ := inv.busy task isBusy
      have registered : Registered files selector sets
          (s.goesOn (s.world.setInode inode
            ((s.world.inodes inode).advanceHead ((s.world.inodes inode).writeChars count)))
            task (.writing inode (count - (s.world.inodes inode).writeChars count)
              (written + (s.world.inodes inode).writeChars count))) := by
        refine inv.toRegistered.stay rfl rfl rfl (fun place => ?_) other awake
          (.inr ⟨rfl, rfl⟩)
        by_cases same : place = inode <;> simp [World.setInode, same, Inode.advanceHead]
      refine ⟨registered, fun isReady => ?_⟩
      have before := inv.toRegistered.ready_of_changed registered
        (fun place differs => Function.update_of_ne differs _ _) isReady
      -- if nothing has roused the task yet, this write is still going to
      have pending : s.world.Roused selector ∨ s.world.inside (.iWait inode) selector = true := by
        rcases before with before | ⟨condition, isCondition, selected, isInode, -⟩
        · exact (inv.woken before).imp_right isWriter
        · exact .inr (isInode ▸ inv.registered condition isCondition selected)
      rcases pending with roused | waits
      · exact .inl roused
      · exact .inr ⟨task, inode, _, _, rfl, Function.update_self _ _ _, waits⟩

theorem iput {inode : Nat} (inv : WokenInv files selector sets s) (notBusy : s.busy = none)
    (taken : s.iput inode = some next) : WokenInv files selector sets next := by
  have wakes := (wakes_wakeUp s.world (.iWait inode)).trans
    (wakes_wakeUp (s.world.wakeUp (.iWait inode)) (.iWait2 inode))
  simp only [PipeSystem.iput, Option.ite_none_left_eq_some, Option.some.injEq] at taken
  obtain ⟨-, rfl⟩ := taken
  have woken := inv.toRegistered.wakes wakes
  have registered : Registered files selector sets { s with
      world := ((s.world.wakeUp (.iWait inode)).wakeUp (.iWait2 inode)).setInode inode
        { s.world.inodes inode with
          iCount := (s.world.inodes inode).iCount - 1
          iPipe := (s.world.inodes inode).iPipe && (s.world.inodes inode).iCount != 1 } } := by
    refine ⟨woken.chains, woken.calls, woken.registered, ?_, woken.busy⟩
    intro condition isCondition selected
    have noTty := inv.pipes condition isCondition selected
    by_cases same : files.inode condition.1 = inode
    · simpa [World.setInode, same] using same ▸ noTty
    · simpa [World.setInode, same, wakes.inodes] using noTty
  refine ⟨registered, fun isReady => .inl ?_⟩
  have before := inv.toRegistered.ready_of_changed registered
    (fun place differs => (Function.update_of_ne differs _ _).trans (congrFun wakes.inodes _))
    isReady
  rcases before with before | ⟨condition, isCondition, selected, isInode, -⟩
  · exact wakes.roused ((inv.woken before).resolve_right (not_writes_of_notBusy notBusy))
  · have waits := inv.registered condition isCondition selected
    rw [isInode] at waits
    exact (wakes_wakeUp _ (.iWait2 inode)).roused (roused_wakeUp (inv.chains (.iWait inode)) waits)

theorem resume {address : WaitAddress} (inv : WokenInv files selector sets s)
    (notBusy : s.busy = none) (other : task ≠ selector)
    (sleeps : (s.call task).sleepsOn = some address) (awake : call.sleepsOn = none) :
    WokenInv files selector sets (s.resume task address call) := by
  have waits : s.world.inside address task = true :=
    (inv.calls task other address).mpr sleeps
  have rousedBefore (before : s.world.Roused selector ∨ Writes selector s) :
      s.world.Roused selector := before.resolve_right (not_writes_of_notBusy notBusy)
  simp only [PipeSystem.resume]
  split
  · rename_i notFirst
    have again : (s.world.queue address).resume task =
        ((s.world.queue address).setState (s.world.head address) .running).setState task
          .uninterruptible := if_pos notFirst
    have registered : Registered files selector sets (s.sleeps
        (s.world.setQueue address ((s.world.queue address).resume task)) task (s.call task)) := by
      refine inv.toRegistered.stay ?_ ?_ ?_ (fun _ => rfl) other rfl (.inl rfl)
      · rw [again]
        simp [World.setQueue, World.queue]
      · rw [again]
        simp [World.setQueue, World.queue]
      · rw [again]
        simp [World.setQueue, World.queue]
    exact inv.of_same registered rfl fun before => .inl <|
      roused_waitAgain (rousedBefore before) other
        (fun place => inv.toRegistered.once other sleeps place) notFirst
  · rename_i isFirst
    obtain ⟨sleepers, chain⟩ := inv.chains address
    have notNull : (s.world.head address).isSome = true := chain.head_isSome waits
    have leaves : (s.world.queue address).resume task = (s.world.queue address).leave task :=
      if_neg isFirst
    have isHead : s.world.head address = some task := by
      by_contra differs
      exact isFirst ⟨notNull, differs⟩
    rw [leaves]
    have registered : Registered files selector sets (s.goesOn
        (s.world.setQueue address ((s.world.queue address).leave task)) task call) :=
      inv.toRegistered.leave other sleeps isHead awake
    exact inv.of_same registered rfl fun before => .inl <|
      roused_leave (rousedBefore before) other isHead

omit [DecidableEq Task] in
/-- Signals and timeouts wake tasks at most. -/
theorem wakes (inv : WokenInv files selector sets s) (wakes : Wakes s.world world) :
    WokenInv files selector sets { s with world := world } := by
  have registered := inv.toRegistered.wakes wakes
  refine inv.of_same registered wakes.inodes ?_
  rintro (roused | ⟨task, inode, count, written, isBusy, isCall, waits⟩)
  · exact .inl (wakes.roused roused)
  · exact .inr ⟨task, inode, count, written, isBusy, isCall, by rw [wakes.inside]; exact waits⟩

/-- An allowed step keeps the invariant. -/
theorem step {idle : Task} {action : PipeAction Task} (inv : WokenInv files selector sets s)
    (allowed : ReadAllowed files selector sets s action)
    (taken : pipeStep idle selector s action = some next) :
    WokenInv files selector sets next := by
  cases action with
  | read task inode count =>
      simp only [pipeStep, Option.ite_none_right_eq_some, Option.some.injEq] at taken
      obtain ⟨⟨idles, -⟩, rfl⟩ := taken
      exact inv.start idles rfl
  | write task inode count =>
      simp only [pipeStep, Option.ite_none_right_eq_some, Option.some.injEq] at taken
      obtain ⟨⟨idles, -⟩, rfl⟩ := taken
      exact inv.start idles rfl
  | iput task inode =>
      simp only [pipeStep, Option.ite_none_right_eq_some] at taken
      exact inv.iput taken.1.1.1 taken.2
  | turn task =>
      simp only [pipeStep, Option.ite_none_right_eq_some] at taken
      obtain ⟨isBusy, taken⟩ := taken
      split at taken
      · rename_i inode count read reads
        cases taken
        exact inv.readTurn isBusy reads allowed
      · rename_i inode count written writes
        cases taken
        exact inv.writeTurn isBusy writes
      · cases taken
  | resume task =>
      simp only [pipeStep, Option.ite_none_right_eq_some] at taken
      obtain ⟨⟨notBusy, other, -⟩, taken⟩ := taken
      split at taken
      · rename_i inode count read reads
        cases taken
        exact inv.resume notBusy other (by rw [reads]; rfl) rfl
      · rename_i inode count written writes
        cases taken
        exact inv.resume notBusy other (by rw [writes]; rfl) rfl
      · cases taken
  | post task signal =>
      cases taken
      exact inv.wakes (wakes_post _ _ _)
  | schedule =>
      cases taken
      exact inv.wakes (wakes_check _ _)

end WokenInv

/-! ## The poll that goes to sleep -/

/-- Registration on one queue makes the task its first. -/
theorem chain_register {address place : WaitAddress} {sleepers : List Task}
    (chain : (world.queue place).Chain sleepers)
    (outside : world.inside address selector = false) :
    ∃ sleepers', ((world.register selector address).queue place).Chain sleepers' := by
  by_cases same : place = address
  · subst same
    have pushed : ((world.queue place).sleepOn selector .running).Chain (selector :: sleepers) :=
      chain.sleepOn outside
    refine ⟨_, chain_setQueue_self (pushed.congr ?_ ?_ ?_)⟩ <;>
      simp [WaitQueue.sleepOn, World.queue]
  · exact ⟨sleepers, chain_setQueue_of_ne _ same chain⟩

theorem inside_register (world : World Task) (selector : Task) (address place : WaitAddress)
    (runner : Task) : (world.register selector address).inside place runner =
      if place = address ∧ runner = selector then true else world.inside place runner := by
  by_cases same : place = address
  · subst same
    by_cases isTask : runner = selector <;>
      simp [World.register, World.setQueue, isTask]
  · simp [World.register, World.setQueue, same]

/-- What the registration on all queues of a table does. -/
theorem registerAll_spec (table : List WaitAddress)
    (chains : ∀ place, ∃ sleepers, (world.queue place).Chain sleepers)
    (nodup : table.Nodup) (outside : ∀ address ∈ table, world.inside address selector = false) :
    (∀ place, ∃ sleepers,
      ((world.registerAll selector table).queue place).Chain sleepers) ∧
    ∀ place runner, (world.registerAll selector table).inside place runner = true ↔
      world.inside place runner = true ∨ place ∈ table ∧ runner = selector := by
  induction table generalizing world with
  | nil =>
      refine ⟨chains, fun place runner => ?_⟩
      simp [World.registerAll]
  | cons address table ih =>
      obtain ⟨absent, nodup⟩ := List.nodup_cons.mp nodup
      have chains' (place : WaitAddress) :
          ∃ sleepers, ((world.register selector address).queue place).Chain sleepers := by
        obtain ⟨sleepers, chain⟩ := chains place
        exact chain_register chain (outside address List.mem_cons_self)
      have outside' (place : WaitAddress) (inTable : place ∈ table) :
          (world.register selector address).inside place selector = false := by
        have differs : place ≠ address := fun same => absent (same ▸ inTable)
        rw [inside_register, if_neg fun both => differs both.1]
        exact outside place (List.mem_cons_of_mem _ inTable)
      obtain ⟨kept, inside⟩ := ih chains' nodup outside'
      refine ⟨kept, fun place runner => ?_⟩
      have step : (world.registerAll selector (address :: table)).inside place runner = true ↔
          (world.register selector address).inside place runner = true ∨
            place ∈ table ∧ runner = selector := inside place runner
      rw [step, inside_register, List.mem_cons]
      by_cases both : place = address ∧ runner = selector
      · simp [both]
      · rw [if_neg both]
        constructor
        · rintro (before | ⟨inTable, isTask⟩)
          · exact .inl before
          · exact .inr ⟨.inr inTable, isTask⟩
        · rintro (before | ⟨same | inTable, isTask⟩)
          · exact .inl before
          · exact absurd ⟨same, isTask⟩ both
          · exact .inr ⟨inTable, isTask⟩

/-- A poll that has found nothing leaves the task registered on every pipe that it selects. -/
theorem wokenInv_beginSelect (settled : Settled selector s)
    (pipes : SelectsPipes files sets s.world)
    (nothing : (poll files selector sets s.world).2.count = 0) :
    WokenInv files selector sets (beginSelect files selector sets s) := by
  have polled := polled_poll files selector sets s.world
  obtain ⟨chains, inside⟩ := registerAll_spec (poll files selector sets s.world).1.2
    settled.chains polled.nodup fun address _ => settled.outside address
  have alike : Alike selector s.world (poll files selector sets s.world).1.1 := by
    rw [polled.registered]
    exact alike_registerAll _ _
  rw [← polled.registered] at chains inside
  have notReady := polled.count.mp nothing
  have registered : Registered files selector sets (beginSelect files selector sets s) := by
    refine ⟨fun address => ?_, fun task other address => ?_,
      fun condition isCondition selected => ?_, fun condition isCondition selected => ?_,
      fun task isBusy => ?_⟩
    · obtain ⟨sleepers, chain⟩ := chains address
      exact ⟨sleepers, chain.congr rfl rfl rfl⟩
    · refine ((inside address task).trans ⟨?_, .inl⟩).trans (settled.calls task other address)
      rintro (before | ⟨-, same⟩)
      · exact before
      · exact absurd same other
    · obtain ⟨noTty, isPipe⟩ := pipes condition isCondition selected
      refine (inside _ selector).mpr (.inr ⟨(polled.table _).mpr ?_, rfl⟩)
      exact ⟨condition, isCondition, selected, notReady condition isCondition selected,
        watched_of_not_isChr noTty isPipe _⟩
    · simp only [beginSelect, World.setState, alike.inodes]
      exact (pipes condition isCondition selected).1
    · exact absurd (settled.notBusy.symm.trans isBusy) (Option.some_ne_none task).symm
  refine ⟨registered, fun isReady => ?_⟩
  obtain ⟨condition, isCondition, selected, isReady⟩ := registered.ready_iff.mp isReady
  have noTty := (pipes condition isCondition selected).1
  have none := notReady condition isCondition selected
  rw [ready_of_not_isChr noTty] at none
  simp only [beginSelect, World.setState, alike.inodes] at isReady
  rw [none] at isReady
  cases isReady

end Invariant

/-! ## Whole runs -/

section Runs

variable {Task : Type} [DecidableEq Task] (idle selector : Task)

/-- A task sleeps in `do_select` on a set of pipes.  In every run of pipe operations that takes
nothing out of a full pipe selected for output, it has been woken behind every operation after
which a selected condition holds. -/
theorem keepsWoken_of_readAllowed (files : Files) (sets : FdSets) (s : PipeSystem Task)
    (settled : Settled selector s) (pipes : SelectsPipes files sets s.world)
    (nothing : (poll files selector sets s.world).2.count = 0)
    (actions : List (PipeAction Task))
    (allowed : Lib.EveryStep (pipeStep idle selector) (ReadAllowed files selector sets)
      (beginSelect files selector sets s) actions) :
    Lib.EveryStep (pipeStep idle selector) (KeepsWoken idle files selector sets)
      (beginSelect files selector sets s) actions :=
  Lib.everyStep_of_invariant (WokenInv files selector sets)
    (fun _ _ inv allowed _ taken => (inv.step allowed taken).toWoken)
    (fun _ _ _ inv allowed taken => inv.step allowed taken)
    (wokenInv_beginSelect settled pipes nothing) allowed

end Runs

/-! ## A select on a full pipe -/

/-- Inode 0 is a full pipe that the tasks 1 and 2 use; task 2 selects it. -/
def fullWorld : World Nat where
  jiffies := 0
  fields _ := ⟨.running, 0, 0, 0, 0⟩
  inodes _ := ⟨0o010000, true, 2, 4095, 0⟩
  ttyTable _ := ⟨0, 0⟩
  ttyQueues _ := ⟨0, 0⟩
  fgConsole := 0
  head _ := none
  inside _ _ := false
  tmp _ _ := none
  warned := false

def fullSystem : PipeSystem Nat := ⟨fullWorld, fun _ => .outside, none⟩

/-- Descriptor 0 is the pipe. -/
def fullFiles : Files where
  filp fd := if fd = 0 then some (some 0) else none
  tty := -1

/-- Descriptor 0 for output. -/
def forOutput : FdSets := ⟨0, 1, 0⟩

theorem settled_fullSystem : Settled 2 fullSystem where
  chains _ := ⟨[], List.nodup_nil, rfl, by simp [fullSystem, fullWorld, World.queue]⟩
  calls _ _ _ := ⟨nofun, nofun⟩
  outside _ := rfl
  notBusy := rfl

theorem isChr_fifo : isChr 0o010000 = false := by decide

theorem selectsPipes_fullSystem : SelectsPipes fullFiles forOutput fullSystem.world :=
  fun _ _ _ => ⟨isChr_fifo, rfl⟩

/-- The writer closes its end of the pipe. -/
theorem keepsWoken_of_readAllowed_closed :
    Lib.EveryStep (pipeStep 0 2) (KeepsWoken 0 fullFiles 2 forOutput)
      (beginSelect fullFiles 2 forOutput fullSystem) [.iput 1 0] :=
  keepsWoken_of_readAllowed 0 2 fullFiles forOutput fullSystem settled_fullSystem
    selectsPipes_fullSystem (by decide) [.iput 1 0] ⟨trivial, fun _ _ => trivial⟩

/-- Task 1 reads one byte from the full pipe. -/
def readOne : List (PipeAction Nat) := [.read 1 0 1, .turn 1, .turn 1]

/-- Behind the read there is room in the pipe, and the task that waits for room sleeps on. -/
theorem read_pipe_wakes_no_selector :
    ¬∀ (idle selector : Nat) (files : Files) (sets : FdSets) (s : PipeSystem Nat),
      Settled selector s → SelectsPipes files sets s.world →
      (poll files selector sets s.world).2.count = 0 → ∀ actions : List (PipeAction Nat),
      Lib.EveryStep (pipeStep idle selector) (KeepsWoken idle files selector sets)
        (beginSelect files selector sets s) actions := by
  intro always
  have keeps := always 0 2 fullFiles forOutput fullSystem settled_fullSystem
    selectsPipes_fullSystem (by decide) readOne
  let asleep := (beginSelect fullFiles 2 forOutput fullSystem).world
  have woken : Woken fullFiles 2 forOutput
      ⟨(asleep.setInode 0 ⟨0o010000, true, 2, 4095, 1⟩).wakeUp (.iWait2 0), _, none⟩ :=
    ((keeps.2 _ rfl).2 _ rfl).1 _ rfl
  have inv := wokenInv_beginSelect settled_fullSystem selectsPipes_fullSystem (by decide)
  have isReady : Inode.ready ⟨0o010000, true, 2, 4095, 1⟩ .selOut = true := by decide
  have room := woken rfl ⟨(0, .selOut), by decide, by rfl,
    (ready_of_not_isChr isChr_fifo .selOut).trans isReady⟩
  rcases room with running | ⟨place, task, reaches, running⟩
  · exact absurd running (by decide)
  · have waits := reaches.inside
    rw [(wakes_wakeUp _ _).inside] at waits
    by_cases isSelector : task = 2
    · rw [isSelector] at running
      exact absurd running (by decide)
    · exact absurd ((inv.calls task isSelector place).mp waits) nofun

end Linux012.Pipe
