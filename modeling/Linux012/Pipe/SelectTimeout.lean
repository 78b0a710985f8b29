import Linux012.Lib.Run
import Linux012.Pipe.Select

/-!
# The timeout of `select`

`sys_select` and `do_select` of one task, among ticks, calls of `schedule` and anything that
other tasks and interrupts do.  Interrupts are off in `do_select`, so it runs without a break
from one `schedule ()` to the next.
-/

namespace Linux012.Pipe

open Kernel (Sleeper TaskState)

/-- `HZ`. -/
abbrev hz : UInt32 := 100

/-- The buffer of `sys_select`, with the sets and the `struct timeval` that its pointers lead
to. -/
structure SelectArgs where
  nd : UInt32
  inp : Option FdSet
  outp : Option FdSet
  exp : Option FdSet
  /-- `tv_sec` and `tv_usec`. -/
  tvp : Option (UInt32 × UInt32)
  deriving DecidableEq, Repr

/-- `mask & get_fs_long(inp)`, and the same for the other sets. -/
def SelectArgs.sets (args : SelectArgs) : FdSets :=
  let mask : FdSet := ~~~(~~~0 <<< args.nd)
  { inSet := (args.inp.map (mask &&& ·)).getD 0
    outSet := (args.outp.map (mask &&& ·)).getD 0
    exSet := (args.exp.map (mask &&& ·)).getD 0 }

/-- The `timeout` that `sys_select` computes. -/
def SelectArgs.timeout (args : SelectArgs) (jiffies : UInt32) : UInt32 :=
  match args.tvp with
  | none => 0xffffffff
  | some (sec, usec) => usec / (1000000 / hz) + sec * hz + jiffies

/-- What `sys_select` returns, and what it writes through its pointers. -/
structure SelectReturn where
  result : Int
  inp : Option FdSet
  outp : Option FdSet
  exp : Option FdSet
  tvp : Option (UInt32 × UInt32)
  deriving DecidableEq, Repr

inductive SelectPhase where
  | outside
  /-- In the `schedule ()` of `do_select`, with its wait table. -/
  | asleep (args : SelectArgs) (table : List WaitAddress)
  /-- In the `schedule ()` of `free_wait`, with the entries that are left; behind the last
  `free_wait`, `do_select` returns what it has found. -/
  | freeing (args : SelectArgs) (table : List WaitAddress) (found : Option Found)
  | returned (ret : SelectReturn)
  deriving DecidableEq, Repr

/-- The system with the task that selects.  `late` counts the polls that the call has made
with `current->timeout` 0. -/
structure SelectTask (Task : Type) where
  world : World Task
  phase : SelectPhase
  late : Nat

inductive SelectAction (Task : Type) where
  /-- The task calls `sys_select`. -/
  | select (args : SelectArgs)
  /-- `switch_to` the task, which goes on to its next `schedule ()` or returns. -/
  | resume
  /-- The loop of `schedule` over the sleeping tasks. -/
  | schedule
  /-- A timer tick. -/
  | tick
  /-- Other tasks and interrupts: they use the devices and the queues, post signals and wake
  tasks. -/
  | elsewhere (world : World Task)

section Steps

variable {Task : Type} [DecidableEq Task] (idle : Task) (files : Files) (current : Task)

/-- `current->timeout = timeout`. -/
def World.setTimeout (world : World Task) (timeout : UInt32) : World Task :=
  { world with
    fields :=
      Function.update world.fields current { world.fields current with timeout := timeout } }

/-- `sys_select` behind `do_select`. -/
def selectReturn (args : SelectArgs) (i : Int) (found : FdSets) (world : World Task) :
    SelectReturn :=
  let left := (world.fields current).timeout
  let timeout := if left > world.jiffies then left - world.jiffies else 0
  if i < 0 then ⟨i, none, none, none, none⟩
  else
    { result := if i = 0 ∧ world.signalled current then -4 else i -- -EINTR
      inp := args.inp.map fun _ => found.inSet
      outp := args.outp.map fun _ => found.outSet
      exp := args.exp.map fun _ => found.exSet
      tvp := args.tvp.map fun _ => (timeout / hz, timeout % hz * (1000000 / hz)) }

/-- `sys_select` behind `do_select`, which clears the timeout. -/
def finish (args : SelectArgs) (i : Int) (found : FdSets) (world : World Task) (late : Nat) :
    SelectTask Task where
  world := world.setTimeout current 0
  phase := .returned (selectReturn current args i found world)
  late := late

/-- The last `free_wait` of `do_select`. -/
def freeAndReturn (args : SelectArgs) (table : List WaitAddress) (found : Found)
    (world : World Task) (late : Nat) : SelectTask Task :=
  let (world, rest) := freeWait current world table
  if rest ≠ [] then ⟨world, .freeing args rest (some found), late⟩
  else finish current args found.count found.sets world late

/-- `do_select` from `repeat:` on. -/
def pollAgain (args : SelectArgs) (world : World Task) (late : Nat) : SelectTask Task :=
  let ((polled, table), found) := poll files current args.sets world
  let timeout := (polled.fields current).timeout
  let late := if timeout = 0 then late + 1 else late
  if !polled.signalled current ∧ (table ≠ [] ∨ timeout ≠ 0) ∧ found.count = 0 then
    ⟨polled.setState current .interruptible, .asleep args table, late⟩
  else freeAndReturn current args table found polled late

/-- `free_wait (); goto repeat`. -/
def freeAndRepeat (args : SelectArgs) (table : List WaitAddress) (world : World Task)
    (late : Nat) : SelectTask Task :=
  let (world, rest) := freeWait current world table
  if rest ≠ [] then ⟨world, .freeing args rest none, late⟩
  else pollAgain files current args world late

/-- `sys_select`. -/
def sysSelect (args : SelectArgs) (world : World Task) : SelectTask Task :=
  let world := world.setTimeout current (args.timeout world.jiffies)
  if badFd files args.sets world then
    finish current args (-9) ⟨0, 0, 0⟩ world 0 -- -EBADF
  else pollAgain files current args world 0

/-- The task goes on. -/
def SelectTask.resume (s : SelectTask Task) : Option (SelectTask Task) :=
  if (s.world.fields current).state = .running then
    match s.phase with
    | .asleep args table => some (freeAndRepeat files current args table s.world s.late)
    | .freeing args table none => some (freeAndRepeat files current args table s.world s.late)
    | .freeing args table (some found) =>
        some (freeAndReturn current args table found s.world s.late)
    | _ => none
  else none

/-- What others do leaves the timeout and the mask of the task alone. -/
def World.elsewhere (world other : World Task) : World Task :=
  { other with
    jiffies := world.jiffies
    fields := Function.update other.fields current
      { other.fields current with
        timeout := (world.fields current).timeout
        blocked := (world.fields current).blocked } }

/-- One step; `idle` is `task[0]`. -/
def selectStep (s : SelectTask Task) : SelectAction Task → Option (SelectTask Task)
  | .select args =>
      match s.phase with
      | .asleep _ _ => none
      | .freeing _ _ _ => none
      | _ => some (sysSelect files current args s.world)
  | .resume => s.resume files current
  | .schedule =>
      some { s with world := s.world.check idle }
  | .tick => some { s with world := { s.world with jiffies := s.world.jiffies + 1 } }
  | .elsewhere other => some { s with world := s.world.elsewhere current other }

/-- The timeout argument does not wrap to 0. -/
def TimeoutNonzero (s : SelectTask Task) : SelectAction Task → Prop
  | .select args => args.timeout s.world.jiffies ≠ 0
  | _ => True

/-- The call is in its last `free_wait`, or has returned. -/
def SelectTask.Leaves (s : SelectTask Task) : Prop :=
  (∃ args table found, s.phase = .freeing args table (some found)) ∨
    ∃ ret, s.phase = .returned ret

/-- The timeout is honoured: with `current->timeout` 0 the call polls once at most, and then
it is on its way out.  So no poll with `current->timeout` 0 goes to sleep. -/
structure OnTime (s : SelectTask Task) : Prop where
  once : s.late ≤ 1
  leaves : s.late ≠ 0 → s.Leaves

/-- The promise holds behind the step. -/
def KeepsTimeout (s : SelectTask Task) (action : SelectAction Task) : Prop :=
  ∀ next, selectStep idle files current s action = some next → OnTime next

/-- The task is about to poll again. -/
def Repeats (s : SelectTask Task) (args : SelectArgs) : Prop :=
  (s.world.fields current).state = .running ∧ ∃ table,
    (s.phase = .asleep args table ∨ s.phase = .freeing args table none) ∧
      (freeWait current s.world table).2 = []

/-- The condition on one step: a poll with `current->timeout` 0 is made only with a signal
pending, with a selected condition ready, or with no selected condition on a pipe or a
terminal. -/
def PollAllowed (s : SelectTask Task) (action : SelectAction Task) : Prop :=
  match action with
  | .resume => ∀ args, Repeats current s args → (s.world.fields current).timeout = 0 →
      s.world.signalled current = true ∨
      (∃ condition ∈ conditions, Selected args.sets condition ∧
        ready files s.world (files.inode condition.1) condition.2 = true) ∨
      ∀ condition ∈ conditions, Selected args.sets condition →
        watched files s.world (files.inode condition.1) condition.2 = none
  | _ => True

end Steps

/-! ## One poll -/

section Proofs

variable {Task : Type} [DecidableEq Task] {idle : Task} {files : Files} {current : Task}
variable {s next : SelectTask Task} {action : SelectAction Task} {args : SelectArgs}
variable {world : World Task} {late : Nat}

omit [DecidableEq Task] in
/-- A call that polls again is not on its way out. -/
theorem SelectTask.not_leaves_of_repeats
    (repeats : ∃ args table,
      s.phase = .asleep args table ∨ s.phase = .freeing args table none) :
    ¬s.Leaves := by
  obtain ⟨args, table, asleep | freeing⟩ := repeats
  · rintro (⟨_, _, _, phase⟩ | ⟨_, phase⟩)
    · cases asleep.symm.trans phase
    · cases asleep.symm.trans phase
  · rintro (⟨_, _, _, phase⟩ | ⟨_, phase⟩)
    · cases freeing.symm.trans phase
    · cases freeing.symm.trans phase

theorem freeAndReturn_late (args : SelectArgs) (table : List WaitAddress) (found : Found)
    (world : World Task) (late : Nat) :
    (freeAndReturn current args table found world late).late = late := by
  simp only [freeAndReturn]
  split <;> rfl

/-- Behind the last `free_wait` the task returns, or waits to leave a queue. -/
theorem freeAndReturn_leaves (args : SelectArgs) (table : List WaitAddress) (found : Found)
    (world : World Task) (late : Nat) :
    (freeAndReturn current args table found world late).Leaves := by
  simp only [freeAndReturn]
  split
  · exact .inl ⟨_, _, _, rfl⟩
  · exact .inr ⟨_, rfl⟩

/-- A poll sleeps exactly when nothing is ready or signalled, and there is a queue to wait on or
time left. -/
def Sleeps (files : Files) (current : Task) (args : SelectArgs) (world : World Task) : Prop :=
  world.signalled current = false ∧
    ((∃ condition ∈ conditions, ∃ address,
      WaitsOn files args.sets world condition address) ∨
      (world.fields current).timeout ≠ 0) ∧
    ∀ condition ∈ conditions, Selected args.sets condition →
      ready files world (files.inode condition.1) condition.2 = false

/-- The condition of `do_select` for sleeping, by what the poll looks at. -/
theorem sleeps_iff :
    ((!(poll files current args.sets world).1.1.signalled current) = true ∧
      ((poll files current args.sets world).1.2 ≠ [] ∨
        ((poll files current args.sets world).1.1.fields current).timeout ≠ 0) ∧
      (poll files current args.sets world).2.count = 0) ↔ Sleeps files current args world := by
  have polled := polled_poll files current args.sets world
  have alike : Alike current world (poll files current args.sets world).1.1 := by
    rw [polled.registered]
    exact alike_registerAll _ _
  have waits : (poll files current args.sets world).1.2 ≠ [] ↔
      ∃ condition ∈ conditions, ∃ address,
        WaitsOn files args.sets world condition address := by
    constructor
    · intro nonempty
      obtain ⟨address, inTable⟩ := List.exists_mem_of_ne_nil _ nonempty
      obtain ⟨condition, isCondition, waits⟩ := (polled.table address).mp inTable
      exact ⟨condition, isCondition, address, waits⟩
    · rintro ⟨condition, isCondition, address, waits⟩
      exact List.ne_nil_of_mem ((polled.table address).mpr ⟨condition, isCondition, waits⟩)
  rw [waits, polled.count, alike.signalled, alike.timeout, Bool.not_eq_true', Sleeps]

/-- The number of polls without time left, behind one more poll. -/
def lateAfter (current : Task) (world : World Task) (late : Nat) : Nat :=
  if (world.fields current).timeout = 0 then late + 1 else late

theorem poll_timeout : ((poll files current args.sets world).1.1.fields current).timeout =
    (world.fields current).timeout := by
  have polled := polled_poll files current args.sets world
  rw [polled.registered]
  exact (alike_registerAll _ _).timeout

theorem pollAgain_of_sleeps (sleeps : Sleeps files current args world) (late : Nat) :
    (pollAgain files current args world late).late = lateAfter current world late ∧
      ∃ table, (pollAgain files current args world late).phase = .asleep args table := by
  have enters := sleeps_iff.mpr sleeps
  simp only [pollAgain]
  rw [if_pos enters, poll_timeout]
  exact ⟨rfl, _, rfl⟩

theorem pollAgain_of_not_sleeps (notSleeps : ¬Sleeps files current args world) (late : Nat) :
    (pollAgain files current args world late).late = lateAfter current world late ∧
      (pollAgain files current args world late).Leaves := by
  have stays := fun enters => notSleeps (sleeps_iff.mp enters)
  simp only [pollAgain]
  rw [if_neg stays, poll_timeout, freeAndReturn_late]
  exact ⟨rfl, freeAndReturn_leaves _ _ _ _ _⟩

/-- A poll with time left keeps the promise, whatever it finds. -/
theorem onTime_pollAgain_of_timeout (timeLeft : (world.fields current).timeout ≠ 0) :
    OnTime (pollAgain files current args world 0) := by
  have late : lateAfter current world 0 = 0 := if_neg timeLeft
  have same : (pollAgain files current args world 0).late = 0 := by
    by_cases sleeps : Sleeps files current args world
    · rw [(pollAgain_of_sleeps sleeps 0).1, late]
    · rw [(pollAgain_of_not_sleeps sleeps 0).1, late]
  constructor
  · rw [same]
    exact Nat.zero_le 1
  · intro isLate
    exact absurd same isLate

/-- The first poll without time left keeps the promise exactly when it does not sleep. -/
theorem onTime_pollAgain_iff (expired : (world.fields current).timeout = 0) :
    OnTime (pollAgain files current args world 0) ↔ ¬Sleeps files current args world := by
  have late : lateAfter current world 0 = 1 := if_pos expired
  constructor
  · intro onTime sleeps
    obtain ⟨isLate, table, asleep⟩ := pollAgain_of_sleeps sleeps 0
    refine SelectTask.not_leaves_of_repeats ⟨args, table, .inl asleep⟩ (onTime.leaves ?_)
    rw [isLate, late]
    exact Nat.one_ne_zero
  · intro notSleeps
    obtain ⟨isLate, leaves⟩ := pollAgain_of_not_sleeps notSleeps 0
    exact ⟨by rw [isLate, late], fun _ => leaves⟩

omit [DecidableEq Task] in
/-- What `PollAllowed` asks for is that the poll does not sleep. -/
theorem not_sleeps_iff (expired : (world.fields current).timeout = 0) :
    ¬Sleeps files current args world ↔
      world.signalled current = true ∨
      (∃ condition ∈ conditions, Selected args.sets condition ∧
        ready files world (files.inode condition.1) condition.2 = true) ∨
      ∀ condition ∈ conditions, Selected args.sets condition →
        watched files world (files.inode condition.1) condition.2 = none := by
  constructor
  · intro notSleeps
    by_contra nothing
    simp only [not_or, not_exists, not_and, not_forall, Bool.not_eq_true] at nothing
    obtain ⟨quiet, noneReady, condition, isCondition, selected, isWatched⟩ := nothing
    obtain ⟨address, isAddress⟩ := Option.ne_none_iff_exists'.mp isWatched
    exact notSleeps ⟨quiet, .inl ⟨condition, isCondition, address, selected,
      noneReady condition isCondition selected, isAddress⟩, noneReady⟩
  · rintro allowed ⟨quiet, waits, noneReady⟩
    rcases allowed with signalled | ⟨condition, isCondition, selected, isReady⟩ | noQueue
    · rw [quiet] at signalled
      cases signalled
    · rw [noneReady condition isCondition selected] at isReady
      cases isReady
    · rcases waits with ⟨condition, isCondition, address, selected, -, isAddress⟩ | timeLeft
      · rw [noQueue condition isCondition selected] at isAddress
        cases isAddress
      · exact timeLeft expired

/-! ## One step -/

omit [DecidableEq Task] in
/-- Before the call polls without time left, it has not done so. -/
theorem OnTime.not_late (onTime : OnTime s)
    (repeats : ∃ args table,
      s.phase = .asleep args table ∨ s.phase = .freeing args table none) :
    s.late = 0 := by
  by_contra isLate
  exact SelectTask.not_leaves_of_repeats repeats (onTime.leaves isLate)

omit [DecidableEq Task] in
theorem onTime_of_not_late (notLate : s.late = 0) : OnTime s where
  once := by
    rw [notLate]
    exact Nat.zero_le 1
  leaves isLate := absurd notLate isLate

/-- A repetition keeps the promise exactly when it does not get to a poll that sleeps without
time left. -/
theorem onTime_freeAndRepeat_iff (table : List WaitAddress) :
    OnTime (freeAndRepeat files current args table world 0) ↔
      ((freeWait current world table).2 = [] → (world.fields current).timeout = 0 →
        ¬Sleeps files current args world) := by
  have alike : Alike current world (freeWait current world table).1 := alike_freeWait world table
  have sleeps : Sleeps files current args (freeWait current world table).1 ↔
      Sleeps files current args world := by
    simp only [Sleeps, WaitsOn, alike.signalled, alike.timeout, alike.ready, alike.watched]
  simp only [freeAndRepeat]
  by_cases free : (freeWait current world table).2 = []
  · rw [if_neg (not_not.mpr free)]
    by_cases expired : (world.fields current).timeout = 0
    · rw [onTime_pollAgain_iff (alike.timeout.trans expired), sleeps]
      exact ⟨fun notSleeps _ _ => notSleeps, fun allowed => allowed free expired⟩
    · have onTime : OnTime (pollAgain files current args (freeWait current world table).1 0) :=
        onTime_pollAgain_of_timeout fun zero => expired (alike.timeout.symm.trans zero)
      exact ⟨fun _ _ zero => absurd zero expired, fun _ => onTime⟩
  · rw [if_pos free]
    exact ⟨fun _ empty => absurd empty free, fun _ => onTime_of_not_late rfl⟩

/-- Another step than a repetition keeps the promise. -/
theorem OnTime.step_of_not_repeats (onTime : OnTime s) (nonzero : TimeoutNonzero s action)
    (notResume : ∀ args table, action = .resume → s.phase ≠ .asleep args table ∧
      s.phase ≠ .freeing args table none)
    (taken : selectStep idle files current s action = some next) : OnTime next := by
  have stays (world : World Task) : OnTime ⟨world, s.phase, s.late⟩ :=
    ⟨onTime.once, onTime.leaves⟩
  cases action with
  | select args =>
      have started : next = sysSelect files current args s.world := by
        simp only [selectStep] at taken
        split at taken
        · cases taken
        · cases taken
        · exact (Option.some.inj taken).symm
      rw [started, sysSelect]
      split
      · exact onTime_of_not_late rfl
      · apply onTime_pollAgain_of_timeout
        simp only [World.setTimeout, Function.update_self]
        exact nonzero
  | resume =>
      simp only [selectStep, SelectTask.resume] at taken
      split at taken
      · split at taken
        · rename_i args table asleep
          exact absurd asleep (notResume args table rfl).1
        · rename_i args table freeing
          exact absurd freeing (notResume args table rfl).2
        · cases taken
          exact ⟨by rw [freeAndReturn_late]; exact onTime.once,
            fun _ => freeAndReturn_leaves _ _ _ _ _⟩
        · cases taken
      · cases taken
  | schedule =>
      cases taken
      exact stays _
  | tick =>
      cases taken
      exact stays _
  | elsewhere other =>
      cases taken
      exact stays _

/-- A repetition keeps the promise exactly when it is allowed. -/
theorem OnTime.resume_iff (onTime : OnTime s) {table : List WaitAddress}
    (running : (s.world.fields current).state = .running)
    (repeats : s.phase = .asleep args table ∨ s.phase = .freeing args table none) :
    KeepsTimeout idle files current s .resume ↔ PollAllowed files current s .resume := by
  have notLate : s.late = 0 := onTime.not_late ⟨args, table, repeats⟩
  have taken : selectStep idle files current s .resume =
      some (freeAndRepeat files current args table s.world 0) := by
    simp only [selectStep, SelectTask.resume, if_pos running]
    rcases repeats with asleep | freeing
    · simp only [asleep, notLate]
    · simp only [freeing, notLate]
  have keeps : KeepsTimeout idle files current s .resume ↔
      OnTime (freeAndRepeat files current args table s.world 0) := by
    constructor
    · exact fun keeps => keeps _ taken
    · intro onTime' next taken'
      rw [taken] at taken'
      cases taken'
      exact onTime'
  rw [keeps, onTime_freeAndRepeat_iff]
  constructor
  · rintro sleepless args' ⟨-, table', repeats', free⟩ expired
    have same : args' = args ∧ table' = table := by
      rcases repeats with asleep | freeing
      · rcases repeats' with asleep' | freeing'
        · cases asleep.symm.trans asleep'
          exact ⟨rfl, rfl⟩
        · cases asleep.symm.trans freeing'
      · rcases repeats' with asleep' | freeing'
        · cases freeing.symm.trans asleep'
        · cases freeing.symm.trans freeing'
          exact ⟨rfl, rfl⟩
    obtain ⟨rfl, rfl⟩ := same
    exact (not_sleeps_iff expired).mp (sleepless free expired)
  · intro allowed free expired
    exact (not_sleeps_iff expired).mpr
      (allowed args ⟨running, table, repeats, free⟩ expired)

/-- One step keeps the promise exactly when it is allowed. -/
theorem OnTime.keepsTimeout_iff (onTime : OnTime s) (nonzero : TimeoutNonzero s action) :
    KeepsTimeout idle files current s action ↔ PollAllowed files current s action := by
  by_cases polls : action = .resume ∧ (s.world.fields current).state = .running ∧
      ∃ args table, s.phase = .asleep args table ∨ s.phase = .freeing args table none
  · obtain ⟨rfl, running, args, table, repeats⟩ := polls
    exact onTime.resume_iff running repeats
  · constructor
    · intro _
      cases action with
      | resume =>
          rintro args ⟨running, table, repeats, -⟩
          exact absurd ⟨rfl, running, args, table, repeats⟩ polls
      | _ => trivial
    · intro _ next taken
      refine onTime.step_of_not_repeats nonzero (fun args table isResume => ?_) taken
      subst isResume
      have running : (s.world.fields current).state = .running := by
        simp only [selectStep, SelectTask.resume, Option.ite_none_right_eq_some] at taken
        exact taken.1
      exact ⟨fun asleep => polls ⟨rfl, running, args, table, .inl asleep⟩,
        fun freeing => polls ⟨rfl, running, args, table, .inr freeing⟩⟩

/-! ## Whole runs -/

/-- The task has not selected yet. -/
def startSelect (world : World Task) : SelectTask Task := ⟨world, .outside, 0⟩

variable (idle files current)

/-- In a run with timeouts that do not wrap to 0, every call polls at most once without time
left and then returns, exactly when every step of the run is allowed. -/
theorem keepsTimeout_iff_pollAllowed (world : World Task) (actions : List (SelectAction Task))
    (nonzero : Lib.EveryStep (selectStep idle files current) TimeoutNonzero (startSelect world)
      actions) :
    Lib.EveryStep (selectStep idle files current) (KeepsTimeout idle files current)
        (startSelect world) actions ↔
      Lib.EveryStep (selectStep idle files current) (PollAllowed files current)
        (startSelect world) actions :=
  Lib.everyStep_iff OnTime (fun _ _ onTime nonzero => onTime.keepsTimeout_iff nonzero)
    (fun _ _ next onTime nonzero allowed taken =>
      (onTime.keepsTimeout_iff nonzero).mpr allowed next taken)
    (onTime_of_not_late rfl) nonzero

end Proofs

/-! ## A select on an empty pipe -/

/-- Descriptor 0 is an empty pipe with a writer. -/
def pipeWorld : World Bool where
  jiffies := 0
  fields _ := ⟨.running, 0, 0, 0, 0⟩
  inodes _ := ⟨0o010000, true, 2, 0, 0⟩
  ttyTable _ := ⟨0, 0⟩
  ttyQueues _ := ⟨0, 0⟩
  fgConsole := 0
  head _ := none
  inside _ _ := false
  tmp _ _ := none
  warned := false

/-- `filp[0]` is the pipe, and there is no terminal. -/
def pipeFiles : Files where
  filp fd := if fd = 0 then some (some 0) else none
  tty := -1

/-- Descriptor 0 for input, with a timeout of one tick. -/
def oneTick : SelectArgs := ⟨1, some 1, none, none, some (0, 10000)⟩

/-- The timeout expires while the task sleeps. -/
def expiringRun : List (SelectAction Bool) :=
  [.select oneTick, .tick, .tick, .schedule, .resume]

theorem keepsTimeout_iff_pollAllowed_started :
    Lib.EveryStep (selectStep false pipeFiles true) (KeepsTimeout false pipeFiles true)
        (startSelect pipeWorld) (expiringRun.take 4) ↔
      Lib.EveryStep (selectStep false pipeFiles true) (PollAllowed pipeFiles true)
        (startSelect pipeWorld) (expiringRun.take 4) :=
  keepsTimeout_iff_pollAllowed false pipeFiles true pipeWorld (expiringRun.take 4)
    ⟨(by decide : oneTick.timeout 0 ≠ 0), fun _ _ => ⟨trivial, fun _ _ => ⟨trivial,
      fun _ _ => ⟨trivial, fun _ _ => trivial⟩⟩⟩⟩

/-- Behind its timeout the task registers on the pipe again and sleeps on. -/
theorem select_sleeps_behind_timeout :
    ¬∀ (idle : Bool) (files : Files) (current : Bool) (world : World Bool)
      (actions : List (SelectAction Bool)),
      Lib.EveryStep (selectStep idle files current) TimeoutNonzero (startSelect world)
        actions →
      Lib.EveryStep (selectStep idle files current) (KeepsTimeout idle files current)
        (startSelect world) actions := by
  intro always
  have nonzero : oneTick.timeout 0 ≠ 0 := by decide
  have keeps := always false pipeFiles true pipeWorld expiringRun
    ⟨nonzero, fun _ _ => ⟨trivial, fun _ _ => ⟨trivial, fun _ _ => ⟨trivial,
      fun _ _ => ⟨trivial, fun _ _ => trivial⟩⟩⟩⟩⟩
  have onTime := ((((keeps.2 _ rfl).2 _ rfl).2 _ rfl).2 _ rfl).1 _ rfl
  refine SelectTask.not_leaves_of_repeats ⟨oneTick, [.iWait 0], .inl rfl⟩ (onTime.leaves ?_)
  exact Nat.one_ne_zero

end Linux012.Pipe
