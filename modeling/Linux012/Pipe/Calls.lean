import Linux012.Lib.Run
import Linux012.Pipe.Select

/-!
# Pipe operations while a task selects

`read_pipe`, `write_pipe` and `iput` of other tasks, while a task sleeps in `do_select`.  The
operations run from one `schedule ()` to the next; the task that is in the middle of one is
`busy`.
-/

namespace Linux012.Pipe

open Kernel (Sleeper TaskState WaitQueue)

/-- Where a task is in `read_pipe` or `write_pipe`. -/
inductive PipeCall where
  | outside
  /-- At `while (count>0)`, with `read`. -/
  | reading (inode count read : Nat)
  /-- In `interruptible_sleep_on(& PIPE_READ_WAIT(*inode))`. -/
  | readSleep (inode count read : Nat)
  /-- At `while (count>0)`, with `written`. -/
  | writing (inode count written : Nat)
  /-- In `sleep_on(& PIPE_WRITE_WAIT(*inode))`. -/
  | writeSleep (inode count written : Nat)
  | returned (result : Int)
  deriving DecidableEq, Repr

/-- The queue in which the task sleeps. -/
def PipeCall.sleepsOn : PipeCall → Option WaitAddress
  | .readSleep inode _ _ => some (.iWait inode)
  | .writeSleep inode _ _ => some (.iWait2 inode)
  | _ => none

structure PipeSystem (Task : Type) where
  world : World Task
  call : Task → PipeCall
  /-- The task in the middle of an operation. -/
  busy : Option Task

inductive PipeAction (Task : Type) where
  /-- The task calls `read_pipe`. -/
  | read (task : Task) (inode count : Nat)
  /-- The task calls `write_pipe`. -/
  | write (task : Task) (inode count : Nat)
  /-- The task closes its last descriptor of one end. -/
  | iput (task : Task) (inode : Nat)
  /-- One turn of the loop of the busy task. -/
  | turn (task : Task)
  /-- `switch_to` a task that sleeps in one of the queues. -/
  | resume (task : Task)
  /-- A signal is posted. -/
  | post (task : Task) (signal : UInt32)
  /-- The loop of `schedule` over the sleeping tasks. -/
  | schedule
  deriving DecidableEq, Repr

section Steps

variable {Task : Type} [DecidableEq Task]

/-- `*inode = ..` -/
def World.setInode (world : World Task) (inode : Nat) (node : Inode) : World Task :=
  { world with inodes := Function.update world.inodes inode node }

/-- `__sleep_on`, up to its first `schedule ()`. -/
def World.sleepOn (world : World Task) (address : WaitAddress) (current : Task)
    (state : TaskState) : World Task :=
  world.setQueue address ((world.queue address).sleepOn current state)

/-- `task->signal |= signal`; the bit of `SIGPIPE` is 0x1000. -/
def World.post (world : World Task) (task : Task) (signal : UInt32) : World Task :=
  { world with
    fields := Function.update world.fields task
      { world.fields task with signal := (world.fields task).signal ||| signal } }

namespace PipeSystem

/-- The task returns from its call. -/
def returns (s : PipeSystem Task) (world : World Task) (task : Task) (result : Int) :
    PipeSystem Task where
  world := world
  call := Function.update s.call task (.returned result)
  busy := none

/-- The task is switched away inside its call. -/
def sleeps (s : PipeSystem Task) (world : World Task) (task : Task) (call : PipeCall) :
    PipeSystem Task where
  world := world
  call := Function.update s.call task call
  busy := none

/-- The task goes on inside its call. -/
def goesOn (s : PipeSystem Task) (world : World Task) (task : Task) (call : PipeCall) :
    PipeSystem Task where
  world := world
  call := Function.update s.call task call
  busy := some task

/-- One turn of `while (count>0)` in `read_pipe`. -/
def readTurn (s : PipeSystem Task) (task : Task) (inode count read : Nat) : PipeSystem Task :=
  let node := s.world.inodes inode
  if count = 0 then s.returns (s.world.wakeUp (.iWait2 inode)) task read
  else if node.pipeSize = 0 then
    let world := s.world.wakeUp (.iWait2 inode)
    if node.iCount ≠ 2 then s.returns world task read -- are there any writers?
    else if world.signalled task then
      s.returns world task (if read ≠ 0 then read else -512) -- -ERESTARTSYS
    else
      s.sleeps (world.sleepOn (.iWait inode) task .interruptible) task
        (.readSleep inode count read)
  else
    let chars := node.readChars count
    s.goesOn (s.world.setInode inode (node.advanceTail chars)) task
      (.reading inode (count - chars) (read + chars))

/-- One turn of `while (count>0)` in `write_pipe`. -/
def writeTurn (s : PipeSystem Task) (task : Task) (inode count written : Nat) :
    PipeSystem Task :=
  let node := s.world.inodes inode
  if count = 0 then s.returns (s.world.wakeUp (.iWait inode)) task written
  else if pageSize - 1 - node.pipeSize = 0 then
    let world := s.world.wakeUp (.iWait inode)
    if node.iCount ≠ 2 then -- no readers
      s.returns (world.post task 0x1000) task (if written ≠ 0 then written else -1)
    else
      s.sleeps (world.sleepOn (.iWait2 inode) task .uninterruptible) task
        (.writeSleep inode count written)
  else
    let chars := node.writeChars count
    s.goesOn (s.world.setInode inode (node.advanceHead chars)) task
      (.writing inode (count - chars) (written + chars))

/-- `iput` of a pipe. -/
def iput (s : PipeSystem Task) (inode : Nat) : Option (PipeSystem Task) :=
  let node := s.world.inodes inode
  if node.iCount = 0 then none -- "iput: trying to free free inode"
  else
    let world := (s.world.wakeUp (.iWait inode)).wakeUp (.iWait2 inode)
    let node := { node with iCount := node.iCount - 1, iPipe := node.iPipe && node.iCount != 1 }
    some { s with world := world.setInode inode node }

/-- Behind the `schedule ()` of `__sleep_on`. -/
def resume (s : PipeSystem Task) (task : Task) (address : WaitAddress) (call : PipeCall) :
    PipeSystem Task :=
  let world := s.world.setQueue address ((s.world.queue address).resume task)
  if (s.world.head address).isSome ∧ s.world.head address ≠ some task then
    s.sleeps world task (s.call task)
  else s.goesOn world task call

end PipeSystem

variable (idle selector : Task)

/-- A task other than `selector` is at liberty to start an operation. -/
def PipeSystem.Idles (s : PipeSystem Task) (task : Task) : Prop :=
  s.busy = none ∧ task ≠ selector ∧ (s.call task).sleepsOn = none

instance (s : PipeSystem Task) (task : Task) : Decidable (s.Idles selector task) := by
  unfold PipeSystem.Idles
  infer_instance

/-- One step; `selector` is the task that selects, and `idle` is `task[0]`. -/
def pipeStep (s : PipeSystem Task) : PipeAction Task → Option (PipeSystem Task)
  | .read task inode count =>
      if s.Idles selector task ∧ (s.world.inodes inode).iPipe then
        some (s.goesOn s.world task (.reading inode count 0))
      else none
  | .write task inode count =>
      if s.Idles selector task ∧ (s.world.inodes inode).iPipe then
        some (s.goesOn s.world task (.writing inode count 0))
      else none
  | .iput task inode =>
      if s.Idles selector task ∧ (s.world.inodes inode).iPipe then s.iput inode else none
  | .turn task =>
      if s.busy = some task then
        match s.call task with
        | .reading inode count read => some (s.readTurn task inode count read)
        | .writing inode count written => some (s.writeTurn task inode count written)
        | _ => none
      else none
  | .resume task =>
      if s.busy = none ∧ task ≠ selector ∧ (s.world.fields task).state = .running then
        match s.call task with
        | .readSleep inode count read =>
            some (s.resume task (.iWait inode) (.reading inode count read))
        | .writeSleep inode count written =>
            some (s.resume task (.iWait2 inode) (.writing inode count written))
        | _ => none
      else none
  | .post task signal => some { s with world := s.world.post task signal }
  | .schedule => some { s with world := s.world.check idle }

end Steps

end Linux012.Pipe
