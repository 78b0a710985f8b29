import Linux012.Kernel.WaitQueue
import Linux012.Pipe.Inode

/-!
# `select`

`fs/select.c`.  A poll looks at every selected descriptor and registers the task on the wait
queue of those that are not ready; `free_wait` takes it off these queues again.  An entry of
the wait table is its `wait_address`; its `old_task` is kept with the queue, where the local
`tmp` of `__sleep_on` is, because it is used in the same way.
-/

namespace Linux012.Pipe

open Kernel (Sleeper TaskState WaitQueue)

/-- The wait queues that `select`, pipes and terminals use. -/
inductive WaitAddress where
  /-- `&inode->i_wait`, which is `&PIPE_READ_WAIT(*inode)`. -/
  | iWait (inode : Nat)
  /-- `&inode->i_wait2`, which is `&PIPE_WRITE_WAIT(*inode)`. -/
  | iWait2 (inode : Nat)
  /-- `&queue->proc_list` of a terminal. -/
  | procList (queue : Nat)
  deriving DecidableEq, Repr

/-- `struct tty_queue`. -/
structure TtyQueue where
  head : UInt32
  tail : UInt32
  deriving DecidableEq, Repr

/-- `EMPTY`. -/
def TtyQueue.empty (queue : TtyQueue) : Bool := queue.head == queue.tail

/-- `LEFT`. -/
def TtyQueue.left (queue : TtyQueue) : UInt32 := (queue.tail - queue.head - 1) &&& 1023

/-- `FULL`. -/
def TtyQueue.full (queue : TtyQueue) : Bool := queue.left == 0

/-- The queues of a `struct tty_struct`. -/
structure Tty where
  writeQ : Nat
  secondary : Nat
  deriving DecidableEq, Repr

/-- What all tasks share. -/
structure World (Task : Type) where
  jiffies : UInt32
  fields : Task → Sleeper
  inodes : Nat → Inode
  ttyTable : Nat → Tty
  ttyQueues : Nat → TtyQueue
  fgConsole : Nat
  /-- `*wait_address`. -/
  head : WaitAddress → Option Task
  /-- The tasks in `__sleep_on` or with an entry in their wait table. -/
  inside : WaitAddress → Task → Bool
  tmp : WaitAddress → Task → Option Task
  warned : Bool

namespace World

variable {Task : Type}

/-- One wait queue of the world. -/
def queue (world : World Task) (address : WaitAddress) : WaitQueue Task where
  jiffies := world.jiffies
  fields := world.fields
  head := world.head address
  inside := world.inside address
  tmp := world.tmp address
  warned := world.warned

/-- The world behind an operation on one of its queues. -/
def setQueue (world : World Task) (address : WaitAddress) (queue : WaitQueue Task) :
    World Task :=
  { world with
    fields := queue.fields
    head := Function.update world.head address queue.head
    inside := Function.update world.inside address queue.inside
    tmp := Function.update world.tmp address queue.tmp
    warned := queue.warned }

variable [DecidableEq Task]

/-- `task->state = state`. -/
def setState (world : World Task) (task : Task) (state : TaskState) : World Task :=
  { world with
    fields := Function.update world.fields task { world.fields task with state := state } }

/-- `wake_up`. -/
def wakeUp (world : World Task) (address : WaitAddress) : World Task :=
  world.setQueue address
    ((world.queue address).setState (world.head address) .running)

/-- The loop of `schedule` over the sleeping tasks; `idle` is `task[0]`. -/
def check (idle : Task) (world : World Task) : World Task :=
  { world with
    fields := fun task =>
      if task = idle then world.fields task else (world.fields task).check world.jiffies }

/-- `current->signal & ~current->blocked`. -/
def signalled (world : World Task) (current : Task) : Bool :=
  (world.fields current).signal &&& ~~~(world.fields current).blocked != 0

end World

/-- The fields of `current` that only `current` writes: `filp[i]` with its `f_inode`, and
`tty`. -/
structure Files where
  filp : Nat → Option (Option Nat)
  tty : Int

/-- `NR_OPEN`. -/
abbrev nrOpen : Nat := 20

/-- `fd_set`. -/
abbrev FdSet : Type := UInt32

/-- `mask & set`, with the bit of one descriptor. -/
def isSelected (set : FdSet) (fd : Nat) : Bool := set &&& (1 <<< UInt32.ofNat fd) != 0

/-- `S_ISCHR`, with `S_IFMT` and `S_IFCHR`. -/
def isChr (iMode : Nat) : Bool := iMode &&& 0o170000 == 0o020000

/-- `S_ISFIFO`. -/
def isFifo (iMode : Nat) : Bool := iMode &&& 0o170000 == 0o010000

section Poll

variable {Task : Type} [DecidableEq Task] (files : Files) (current : Task)

/-- `TTY_TABLE`. -/
def World.ttyOf (world : World Task) (minor : Nat) : Tty :=
  world.ttyTable
    (if minor ≠ 0 then (if minor < 64 then minor - 1 else minor) else world.fgConsole)

/-- `get_tty`. -/
def getTty (world : World Task) (inode : Inode) : Option Tty :=
  if !isChr inode.iMode then none
  else
    let major := inode.iZone0 / 256
    if major ≠ 5 ∧ major ≠ 4 then none
    else
      let minor : Int := if major = 5 then files.tty else (inode.iZone0 % 256 : Nat)
      if minor < 0 then none else some (world.ttyOf minor.toNat)

/-- The world and the wait table. -/
abbrev Waiting (Task : Type) : Type := World Task × List WaitAddress

/-- `old_task = *wait_address; *wait_address = current`. -/
def World.register (world : World Task) (address : WaitAddress) : World Task :=
  world.setQueue address
    { world.queue address with
      tmp := Function.update (world.tmp address) current (world.head address)
      inside := Function.update (world.inside address) current true
      head := some current }

/-- `add_wait`. -/
def addWait (address : WaitAddress) (wait : Waiting Task) : Waiting Task :=
  if address ∈ wait.2 then wait
  else (wait.1.register current address, wait.2 ++ [address])

/-- `check_in`. -/
def checkIn (wait : Waiting Task) (inode : Nat) : Bool × Waiting Task :=
  let node := wait.1.inodes inode
  match getTty files wait.1 node with
  | some tty =>
      if !(wait.1.ttyQueues tty.secondary).empty then (true, wait)
      else (false, addWait current (.procList tty.secondary) wait)
  | none =>
      if node.iPipe then
        if !node.pipeEmpty then (true, wait)
        else (false, addWait current (.iWait inode) wait)
      else (false, wait)

/-- `check_out`. -/
def checkOut (wait : Waiting Task) (inode : Nat) : Bool × Waiting Task :=
  let node := wait.1.inodes inode
  match getTty files wait.1 node with
  | some tty =>
      if !(wait.1.ttyQueues tty.writeQ).full then (true, wait)
      else (false, addWait current (.procList tty.writeQ) wait)
  | none =>
      if node.iPipe then
        if !node.pipeFull then (true, wait)
        else (false, addWait current (.iWait inode) wait)
      else (false, wait)

/-- `check_ex`. -/
def checkEx (wait : Waiting Task) (inode : Nat) : Bool × Waiting Task :=
  let node := wait.1.inodes inode
  match getTty files wait.1 node with
  | some _ => (false, wait)
  | none =>
      if node.iPipe then
        if node.iCount < 2 then (true, wait)
        else (false, addWait current (.iWait inode) wait)
      else (false, wait)

/-- `SEL_IN`, `SEL_OUT` and `SEL_EX`. -/
inductive Sel where
  | selIn
  | selOut
  | selEx
  deriving DecidableEq, Repr

/-- The descriptors that one call selects. -/
structure FdSets where
  inSet : FdSet
  outSet : FdSet
  exSet : FdSet
  deriving DecidableEq, Repr

def FdSets.get (sets : FdSets) : Sel → FdSet
  | .selIn => sets.inSet
  | .selOut => sets.outSet
  | .selEx => sets.exSet

/-- `*inp |= mask` and the like. -/
def FdSets.mark (sets : FdSets) (sel : Sel) (fd : Nat) : FdSets :=
  let mask : FdSet := 1 <<< UInt32.ofNat fd
  match sel with
  | .selIn => { sets with inSet := sets.inSet ||| mask }
  | .selOut => { sets with outSet := sets.outSet ||| mask }
  | .selEx => { sets with exSet := sets.exSet ||| mask }

/-- What a poll has found: `*inp`, `*outp`, `*exp` and `count`. -/
structure Found where
  sets : FdSets
  count : Nat
  deriving DecidableEq, Repr

/-- The inode of a descriptor; `do_select` has checked that there is one. -/
def Files.inode (files : Files) (fd : Nat) : Nat := (files.filp fd).join.getD 0

/-- The `check_XX` functions. -/
def check : Sel → Waiting Task → Nat → Bool × Waiting Task
  | .selIn => checkIn files current
  | .selOut => checkOut files current
  | .selEx => checkEx files current

/-- `if (mask & in) if (check_in(..)) ..`, and the same for `out` and `ex`. -/
def pollOne (sets : FdSets) (state : Waiting Task × Found) (condition : Nat × Sel) :
    Waiting Task × Found :=
  let (fd, sel) := condition
  let (wait, found) := state
  if isSelected (sets.get sel) fd then
    match check files current sel wait (files.inode fd) with
    | (true, wait) => (wait, ⟨found.sets.mark sel fd, found.count + 1⟩)
    | (false, wait) => (wait, found)
  else (wait, found)

/-- The order in which the loop looks at the descriptors. -/
def conditions : List (Nat × Sel) :=
  (List.range nrOpen).flatMap fun fd => [(fd, .selIn), (fd, .selOut), (fd, .selEx)]

/-- The loop behind `repeat:`. -/
def poll (sets : FdSets) (world : World Task) : Waiting Task × Found :=
  conditions.foldl (pollOne files current sets) ((world, []), ⟨⟨0, 0, 0⟩, 0⟩)

/-- The first loop of `do_select`: every selected descriptor is open, and a pipe or a character
device. -/
def badFd (sets : FdSets) (world : World Task) : Bool :=
  (List.range nrOpen).any fun fd =>
    isSelected (sets.inSet ||| sets.outSet ||| sets.exSet) fd &&
      match files.filp fd with
      | none => true
      | some none => true
      | some (some inode) =>
          let node := world.inodes inode
          !(node.iPipe || isChr node.iMode || isFifo node.iMode)

/-- `free_wait`, up to its end or its first `schedule ()`: the entries that are left. -/
def freeWait : World Task → List WaitAddress → Waiting Task
  | world, [] => (world, [])
  | world, address :: table =>
      if (world.head address).isSome ∧ world.head address ≠ some current then
        ((world.wakeUp address).setState current .uninterruptible, address :: table)
      else
        freeWait (world.setQueue address ((world.queue address).leave current)) table

/-! ## What a poll finds -/

/-- `check_XX` would report the condition. -/
def ready (world : World Task) (inode : Nat) : Sel → Bool
  | .selIn =>
      match getTty files world (world.inodes inode) with
      | some tty => !(world.ttyQueues tty.secondary).empty
      | none => (world.inodes inode).iPipe && !(world.inodes inode).pipeEmpty
  | .selOut =>
      match getTty files world (world.inodes inode) with
      | some tty => !(world.ttyQueues tty.writeQ).full
      | none => (world.inodes inode).iPipe && !(world.inodes inode).pipeFull
  | .selEx =>
      match getTty files world (world.inodes inode) with
      | some _ => false
      | none => (world.inodes inode).iPipe && decide ((world.inodes inode).iCount < 2)

/-- The queue on which the task waits for the condition, if there is one. -/
def watched (world : World Task) (inode : Nat) : Sel → Option WaitAddress
  | .selIn =>
      match getTty files world (world.inodes inode) with
      | some tty => some (.procList tty.secondary)
      | none => if (world.inodes inode).iPipe then some (.iWait inode) else none
  | .selOut =>
      match getTty files world (world.inodes inode) with
      | some tty => some (.procList tty.writeQ)
      | none => if (world.inodes inode).iPipe then some (.iWait inode) else none
  | .selEx =>
      match getTty files world (world.inodes inode) with
      | some _ => none
      | none => if (world.inodes inode).iPipe then some (.iWait inode) else none

/-- `add_wait`, for a condition that may have no queue. -/
def addWatch (address : Option WaitAddress) (wait : Waiting Task) : Waiting Task :=
  match address with
  | none => wait
  | some address => addWait current address wait

theorem check_eq (sel : Sel) (wait : Waiting Task) (inode : Nat) :
    check files current sel wait inode =
      if ready files wait.1 inode sel then (true, wait)
      else (false, addWatch current (watched files wait.1 inode sel) wait) := by
  have isTty := Option.eq_none_or_eq_some (getTty files wait.1 (wait.1.inodes inode))
  cases sel with
  | selIn =>
      rcases isTty with noTty | ⟨tty, someTty⟩
      · cases isPipe : (wait.1.inodes inode).iPipe <;>
          simp [check, checkIn, ready, watched, noTty, isPipe, addWatch]
      · simp [check, checkIn, ready, watched, someTty, addWatch]
  | selOut =>
      rcases isTty with noTty | ⟨tty, someTty⟩
      · cases isPipe : (wait.1.inodes inode).iPipe <;>
          simp [check, checkOut, ready, watched, noTty, isPipe, addWatch]
      · simp [check, checkOut, ready, watched, someTty, addWatch]
  | selEx =>
      rcases isTty with noTty | ⟨tty, someTty⟩
      · cases isPipe : (wait.1.inodes inode).iPipe <;>
          simp [check, checkEx, ready, watched, noTty, isPipe, addWatch]
      · simp [check, checkEx, ready, watched, someTty, addWatch]

end Poll

section Spec

variable {Task : Type} {files : Files} {current : Task}

/-- The other world has the same devices, and the task the same signals and timeout. -/
structure Alike (current : Task) (world other : World Task) : Prop where
  inodes : other.inodes = world.inodes
  ttyTable : other.ttyTable = world.ttyTable
  ttyQueues : other.ttyQueues = world.ttyQueues
  fgConsole : other.fgConsole = world.fgConsole
  signal : (other.fields current).signal = (world.fields current).signal
  blocked : (other.fields current).blocked = (world.fields current).blocked
  timeout : (other.fields current).timeout = (world.fields current).timeout

namespace Alike

variable {world other third : World Task}

theorem refl (world : World Task) : Alike current world world :=
  ⟨rfl, rfl, rfl, rfl, rfl, rfl, rfl⟩

theorem trans (first : Alike current world other) (second : Alike current other third) :
    Alike current world third where
  inodes := second.inodes.trans first.inodes
  ttyTable := second.ttyTable.trans first.ttyTable
  ttyQueues := second.ttyQueues.trans first.ttyQueues
  fgConsole := second.fgConsole.trans first.fgConsole
  signal := second.signal.trans first.signal
  blocked := second.blocked.trans first.blocked
  timeout := second.timeout.trans first.timeout

theorem getTty (alike : Alike current world other) (inode : Inode) :
    getTty files other inode = getTty files world inode := by
  simp only [Pipe.getTty, World.ttyOf, alike.ttyTable, alike.fgConsole]

theorem ready (alike : Alike current world other) (inode : Nat) (sel : Sel) :
    ready files other inode sel = ready files world inode sel := by
  cases sel <;>
    simp only [Pipe.ready, alike.getTty, alike.inodes, alike.ttyQueues]

theorem watched (alike : Alike current world other) (inode : Nat) (sel : Sel) :
    watched files other inode sel = watched files world inode sel := by
  cases sel <;> simp only [Pipe.watched, alike.getTty, alike.inodes]

theorem signalled (alike : Alike current world other) :
    other.signalled current = world.signalled current := by
  rw [World.signalled, World.signalled, alike.signal, alike.blocked]

variable [DecidableEq Task]

theorem setState (world : World Task) (task : Task) (state : TaskState) :
    Alike current world (world.setState task state) := by
  by_cases same : current = task
  · subst same
    exact ⟨rfl, rfl, rfl, rfl, by simp [World.setState], by simp [World.setState],
      by simp [World.setState]⟩
  · exact ⟨rfl, rfl, rfl, rfl, by simp [World.setState, same], by simp [World.setState, same],
      by simp [World.setState, same]⟩

/-- An operation on a queue changes only the states of tasks. -/
theorem setQueue_setState {address : WaitAddress} {queue : WaitQueue Task}
    (sameFields : queue.fields = world.fields) (task : Option Task) (state : TaskState) :
    Alike current world (world.setQueue address (queue.setState task state)) := by
  cases task with
  | none => exact ⟨rfl, rfl, rfl, rfl, by simp [World.setQueue, WaitQueue.setState, sameFields],
      by simp [World.setQueue, WaitQueue.setState, sameFields],
      by simp [World.setQueue, WaitQueue.setState, sameFields]⟩
  | some task =>
      by_cases same : current = task
      · subst same
        exact ⟨rfl, rfl, rfl, rfl, by simp [World.setQueue, WaitQueue.setState, sameFields],
          by simp [World.setQueue, WaitQueue.setState, sameFields],
          by simp [World.setQueue, WaitQueue.setState, sameFields]⟩
      · exact ⟨rfl, rfl, rfl, rfl,
          by simp [World.setQueue, WaitQueue.setState, sameFields, same],
          by simp [World.setQueue, WaitQueue.setState, sameFields, same],
          by simp [World.setQueue, WaitQueue.setState, sameFields, same]⟩

end Alike

variable [DecidableEq Task]

theorem alike_freeWait (world : World Task) (table : List WaitAddress) :
    Alike current world (freeWait current world table).1 := by
  induction table generalizing world with
  | nil => exact .refl world
  | cons address table ih =>
      rw [freeWait]
      split
      · exact (Alike.setQueue_setState rfl _ _).trans (.setState _ _ _)
      · exact (Alike.setQueue_setState rfl _ _).trans (ih _)

/-- The world behind the registration on the queues of a table. -/
def World.registerAll (current : Task) (world : World Task) (table : List WaitAddress) :
    World Task :=
  table.foldl (World.register current) world

theorem alike_registerAll (world : World Task) (table : List WaitAddress) :
    Alike current world (world.registerAll current table) := by
  induction table generalizing world with
  | nil => exact .refl world
  | cons address table ih =>
      have registered : Alike current world (world.register current address) :=
        ⟨rfl, rfl, rfl, rfl, rfl, rfl, rfl⟩
      exact registered.trans (ih _)

/-- The selected conditions among those that a poll has looked at. -/
def Selected (sets : FdSets) (condition : Nat × Sel) : Prop :=
  isSelected (sets.get condition.2) condition.1 = true

/-- The condition makes the task wait on the queue. -/
def WaitsOn (files : Files) (sets : FdSets) (world : World Task) (condition : Nat × Sel)
    (address : WaitAddress) : Prop :=
  Selected sets condition ∧
    ready files world (files.inode condition.1) condition.2 = false ∧
    watched files world (files.inode condition.1) condition.2 = some address

/-- What a poll has done behind the conditions it has looked at. -/
structure Polled (files : Files) (current : Task) (sets : FdSets) (world : World Task)
    (seen : List (Nat × Sel)) (state : Waiting Task × Found) : Prop where
  registered : state.1.1 = world.registerAll current state.1.2
  nodup : state.1.2.Nodup
  count : state.2.count = 0 ↔
    ∀ condition ∈ seen, Selected sets condition →
      ready files world (files.inode condition.1) condition.2 = false
  table : ∀ address, address ∈ state.1.2 ↔
    ∃ condition ∈ seen, WaitsOn files sets world condition address

namespace Polled

variable {sets : FdSets} {world : World Task} {seen : List (Nat × Sel)}
variable {state : Waiting Task × Found} {condition : Nat × Sel}

/-- The condition is selected and not ready, and the task waits for it, if there is a queue. -/
theorem notReady (polled : Polled files current sets world seen state)
    (selected : Selected sets condition)
    (notReady : ready files world (files.inode condition.1) condition.2 = false) :
    Polled files current sets world (seen ++ [condition])
      (addWatch current (watched files world (files.inode condition.1) condition.2) state.1,
        state.2) := by
  have count : state.2.count = 0 ↔ ∀ other ∈ seen ++ [condition], Selected sets other →
      ready files world (files.inode other.1) other.2 = false := by
    rw [polled.count, List.forall_mem_append, List.forall_mem_singleton]
    exact ⟨fun none => ⟨none, fun _ => notReady⟩, And.left⟩
  have waits (address : WaitAddress) : (∃ other ∈ seen ++ [condition],
      WaitsOn files sets world other address) ↔ address ∈ state.1.2 ∨
        watched files world (files.inode condition.1) condition.2 = some address := by
    rw [polled.table]
    constructor
    · rintro ⟨other, isSeen, here⟩
      rcases List.mem_append.mp isSeen with before | last
      · exact .inl ⟨other, before, here⟩
      · rw [List.mem_singleton.mp last] at here
        exact .inr here.2.2
    · rintro (⟨other, isSeen, here⟩ | isWatched)
      · exact ⟨other, List.mem_append_left _ isSeen, here⟩
      · exact ⟨condition, List.mem_append_right _ List.mem_cons_self, selected, notReady,
          isWatched⟩
  cases isWatched : watched files world (files.inode condition.1) condition.2 with
  | none =>
      refine ⟨polled.registered, polled.nodup, count, fun address => ?_⟩
      rw [waits, isWatched]
      simp [addWatch]
  | some queue =>
      rw [addWatch, addWait]
      split
      · rename_i old
        refine ⟨polled.registered, polled.nodup, count, fun address => ?_⟩
        rw [waits, isWatched]
        constructor
        · exact .inl
        · rintro (inTable | same)
          · exact inTable
          · cases same
            exact old
      · rename_i fresh
        refine ⟨?_, ?_, count, fun address => ?_⟩
        · simp only [World.registerAll, List.foldl_append, List.foldl_cons, List.foldl_nil]
          rw [polled.registered]
          rfl
        · exact List.nodup_append.mpr ⟨polled.nodup, List.nodup_singleton _, by
            intro address inTable other isNew same
            rw [same, List.mem_singleton.mp isNew] at inTable
            exact fresh inTable⟩
        · rw [waits, isWatched]
          simp [List.mem_append, eq_comm]

/-- The condition is not selected or ready, so the task does not wait for it. -/
theorem table_of_not_waitsOn (polled : Polled files current sets world seen state)
    (notWaits : ∀ address, ¬WaitsOn files sets world condition address) (address : WaitAddress) :
    address ∈ state.1.2 ↔
      ∃ other ∈ seen ++ [condition], WaitsOn files sets world other address := by
  rw [polled.table]
  constructor
  · rintro ⟨other, isSeen, here⟩
    exact ⟨other, List.mem_append_left _ isSeen, here⟩
  · rintro ⟨other, isSeen, here⟩
    rcases List.mem_append.mp isSeen with before | last
    · exact ⟨other, before, here⟩
    · rw [List.mem_singleton.mp last] at here
      exact absurd here (notWaits address)

theorem pollOne (polled : Polled files current sets world seen state)
    (condition : Nat × Sel) :
    Polled files current sets world (seen ++ [condition])
      (pollOne files current sets state condition) := by
  have alike : Alike current world state.1.1 := by
    rw [polled.registered]
    exact alike_registerAll world state.1.2
  by_cases selected : Selected sets condition
  · have isOn : isSelected (sets.get condition.2) condition.1 = true := selected
    cases isReady : ready files world (files.inode condition.1) condition.2 with
    | true =>
        have result : Pipe.pollOne files current sets state condition =
            (state.1, ⟨state.2.sets.mark condition.2 condition.1, state.2.count + 1⟩) := by
          simp only [Pipe.pollOne, isOn, if_true, check_eq, alike.ready, isReady]
        rw [result]
        refine ⟨polled.registered, polled.nodup, ?_, polled.table_of_not_waitsOn ?_⟩
        · constructor
          · nofun
          · intro noneReady
            have notReady := noneReady condition
              (List.mem_append_right _ List.mem_cons_self) selected
            rw [isReady] at notReady
            cases notReady
        · intro address waits
          have notReady := waits.2.1
          rw [isReady] at notReady
          cases notReady
    | false =>
        have result : Pipe.pollOne files current sets state condition =
            (addWatch current (watched files world (files.inode condition.1) condition.2)
              state.1, state.2) := by
          simp only [Pipe.pollOne, isOn, if_true, check_eq, alike.ready, isReady, alike.watched,
            Bool.false_eq_true, if_false]
        rw [result]
        exact polled.notReady selected isReady
  · have isOff : ¬isSelected (sets.get condition.2) condition.1 = true := selected
    have result : Pipe.pollOne files current sets state condition = state := by
      simp only [Pipe.pollOne, if_neg isOff]
    rw [result]
    refine ⟨polled.registered, polled.nodup, ?_,
      polled.table_of_not_waitsOn fun address waits => selected waits.1⟩
    rw [polled.count, List.forall_mem_append, List.forall_mem_singleton]
    exact ⟨fun none => ⟨none, fun isSelected => absurd isSelected selected⟩, And.left⟩

end Polled

/-- What a poll finds, and the queues it waits on. -/
theorem polled_poll (files : Files) (current : Task) (sets : FdSets) (world : World Task) :
    Polled files current sets world conditions (poll files current sets world) := by
  have start : Polled files current sets world [] ((world, []), ⟨⟨0, 0, 0⟩, 0⟩) :=
    ⟨rfl, List.nodup_nil, by simp, by simp⟩
  have further (rest seen : List (Nat × Sel)) (state : Waiting Task × Found)
      (polled : Polled files current sets world seen state) :
      Polled files current sets world (seen ++ rest)
        (rest.foldl (pollOne files current sets) state) := by
    induction rest generalizing seen state with
    | nil => rwa [List.append_nil]
    | cons condition rest ih =>
        have next := ih _ _ (polled.pollOne condition)
        rwa [List.append_assoc] at next
  exact further conditions [] _ start

end Spec

end Linux012.Pipe
