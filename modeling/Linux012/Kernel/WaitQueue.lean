import Linux012.Lib.Run
import Linux012.Lib.LinkedList
import Linux012.Kernel.Fork

/-!
# Wait queues

`__sleep_on` and `wake_up` of `sched.c`, with the wake-ups that `schedule` does by
itself.  A wait queue is one pointer; the tasks that wait in it are linked through the
local variable `tmp` of each of them.  Tasks run in any order, and are switched where
`__sleep_on` calls `schedule`.
-/

namespace Linux012.Kernel

open Lib (Leads store)

/-- The fields of `task_struct` that `schedule` reads before it picks a task. -/
structure Sleeper where
  state : TaskState
  timeout : UInt32
  alarm : UInt32
  signal : UInt32
  blocked : UInt32
  deriving DecidableEq, Repr

/-- `_S`. -/
def sigBit (nr : UInt32) : UInt32 := 1 <<< (nr - 1)

abbrev sigKill : UInt32 := 9

abbrev sigAlrm : UInt32 := 14

abbrev sigStop : UInt32 := 19

/-- `_BLOCKABLE`. -/
def blockable : UInt32 := ~~~(sigBit sigKill ||| sigBit sigStop)

namespace Sleeper

/-- `if ((*p)->state == TASK_INTERRUPTIBLE) (*p)->state = TASK_RUNNING`. -/
def interrupt (p : Sleeper) : Sleeper :=
  if p.state = .interruptible then { p with state := .running } else p

/-- "check alarm, wake up any interruptible tasks that have got a signal". -/
def check (jiffies : UInt32) (p : Sleeper) : Sleeper :=
  let p :=
    if p.timeout ≠ 0 ∧ p.timeout < jiffies then { p with timeout := 0 }.interrupt else p
  let p :=
    if p.alarm ≠ 0 ∧ p.alarm < jiffies then
      { p with signal := p.signal ||| sigBit sigAlrm, alarm := 0 }
    else p
  if p.signal &&& ~~~(blockable &&& p.blocked) ≠ 0 then p.interrupt else p

end Sleeper

/-- A wait queue: the pointer `*p`, and for the tasks inside `__sleep_on` their local
`tmp`.  `warned` says that "Warning: *P = NULL" was printed. -/
structure WaitQueue (Task : Type) where
  jiffies : UInt32
  fields : Task → Sleeper
  head : Option Task
  inside : Task → Bool
  tmp : Task → Option Task
  warned : Bool

inductive WaitAction (Task : Type) where
  /-- `sleep_on` and `interruptible_sleep_on`, up to the first `schedule ()`. -/
  | sleepOn (current : Task) (state : TaskState)
  /-- `wake_up`, from a task or an interrupt. -/
  | wakeUp
  /-- The loop of `schedule` over the sleeping tasks. -/
  | check
  /-- `switch_to` a task inside `__sleep_on`, which runs to its next `schedule ()` or
  returns. -/
  | resume (current : Task)
  /-- What happens to a task elsewhere: it gets signals, sets its alarm or sleeps. -/
  | elsewhere (task : Task) (fields : Sleeper)
  /-- A timer tick. -/
  | tick

namespace WaitQueue

variable {Task : Type}

/-- The tasks inside are one chain through `tmp`, from `*p` to a null pointer. -/
structure Chain (q : WaitQueue Task) (sleepers : List Task) : Prop where
  nodup : sleepers.Nodup
  leads : Leads q.tmp q.head sleepers
  inside : ∀ task, q.inside task = true ↔ task ∈ sleepers

section Steps

variable [DecidableEq Task] (idle : Task)

/-- `task->state = state`, if the pointer is not null. -/
def setState (q : WaitQueue Task) (task : Option Task) (state : TaskState) : WaitQueue Task :=
  match task with
  | none => q
  | some task =>
      { q with fields := Function.update q.fields task { q.fields task with state := state } }

/-- `__sleep_on` up to `repeat:`. -/
def sleepOn (q : WaitQueue Task) (current : Task) (state : TaskState) : WaitQueue Task :=
  { q with
    tmp := Function.update q.tmp current q.head
    inside := Function.update q.inside current true
    head := some current }.setState current state

/-- The end of `__sleep_on`, from `if (!*p)` on. -/
def leave (q : WaitQueue Task) (current : Task) : WaitQueue Task :=
  { q with
    warned := q.warned || q.head.isNone
    inside := Function.update q.inside current false
    head := q.tmp current }.setState (q.tmp current) .running

/-- `__sleep_on` behind `schedule ()`. -/
def resume (q : WaitQueue Task) (current : Task) : WaitQueue Task :=
  if q.head.isSome ∧ q.head ≠ some current then
    (q.setState q.head .running).setState current .uninterruptible
  else q.leave current

/-- One step; `idle` is `task[0]`. -/
def step (q : WaitQueue Task) : WaitAction Task → Option (WaitQueue Task)
  | .sleepOn current state =>
      if q.inside current then none
      else if current = idle then none -- "task[0] trying to sleep"
      else if state = .interruptible ∨ state = .uninterruptible then
        some (q.sleepOn current state)
      else none
  | .wakeUp => some (q.setState q.head .running)
  | .check =>
      some { q with fields := fun task =>
        if task = idle then q.fields task else (q.fields task).check q.jiffies }
  | .resume current =>
      if q.inside current ∧ (q.fields current).state = .running then some (q.resume current)
      else none
  | .elsewhere task fields => some { q with fields := Function.update q.fields task fields }
  | .tick => some { q with jiffies := q.jiffies + 1 }

/-- Nobody waits yet. -/
def start (jiffies : UInt32) (fields : Task → Sleeper) : WaitQueue Task where
  jiffies := jiffies
  fields := fields
  head := none
  inside _ := false
  tmp _ := none
  warned := false

/-- What a wait queue is meant to be. -/
structure Intact (q : WaitQueue Task) : Prop where
  chain : ∃ sleepers, q.Chain sleepers
  /-- A task returns from `__sleep_on` only as the first of the chain. -/
  leavesFirst : ∀ action next task, q.step idle action = some next →
    q.inside task = true → next.inside task = false → q.head = some task
  notWarned : q.warned = false

end Steps

/-! ## The chain -/

variable {q : WaitQueue Task} {sleepers : List Task}

/-- The chain does not depend on the fields of the tasks. -/
theorem Chain.congr {other : WaitQueue Task} (chain : q.Chain sleepers)
    (sameHead : other.head = q.head) (sameInside : other.inside = q.inside)
    (sameTmp : other.tmp = q.tmp) : other.Chain sleepers where
  nodup := chain.nodup
  leads := by
    rw [sameHead, sameTmp]
    exact chain.leads
  inside := by
    rw [sameInside]
    exact chain.inside

/-- While a task waits, the pointer is not null. -/
theorem Chain.head_isSome {task : Task} (chain : q.Chain sleepers)
    (waits : q.inside task = true) : q.head.isSome = true := by
  cases sleepers with
  | nil => exact absurd ((chain.inside task).mp waits) List.not_mem_nil
  | cons first rest =>
      rw [chain.leads.1]
      rfl

/-- The invariant. -/
structure Inv (q : WaitQueue Task) : Prop where
  chain : ∃ sleepers, q.Chain sleepers
  notWarned : q.warned = false

theorem Inv.congr {other : WaitQueue Task} (inv : q.Inv) (sameHead : other.head = q.head)
    (sameInside : other.inside = q.inside) (sameTmp : other.tmp = q.tmp)
    (sameWarned : other.warned = q.warned) : other.Inv where
  chain := by
    obtain ⟨sleepers, chain⟩ := inv.chain
    exact ⟨sleepers, chain.congr sameHead sameInside sameTmp⟩
  notWarned := sameWarned.trans inv.notWarned

theorem inv_start (jiffies : UInt32) (fields : Task → Sleeper) : (start jiffies fields).Inv where
  chain := ⟨[], List.nodup_nil, rfl, by simp [start]⟩
  notWarned := rfl

variable [DecidableEq Task] {idle : Task}

@[simp] theorem head_setState (q : WaitQueue Task) (task : Option Task) (state : TaskState) :
    (q.setState task state).head = q.head := by
  cases task <;> rfl

@[simp] theorem inside_setState (q : WaitQueue Task) (task : Option Task) (state : TaskState) :
    (q.setState task state).inside = q.inside := by
  cases task <;> rfl

@[simp] theorem tmp_setState (q : WaitQueue Task) (task : Option Task) (state : TaskState) :
    (q.setState task state).tmp = q.tmp := by
  cases task <;> rfl

@[simp] theorem warned_setState (q : WaitQueue Task) (task : Option Task) (state : TaskState) :
    (q.setState task state).warned = q.warned := by
  cases task <;> rfl

/-- A new sleeper becomes the first. -/
theorem Chain.sleepOn {current : Task} {state : TaskState} (chain : q.Chain sleepers)
    (outside : q.inside current = false) :
    (q.sleepOn current state).Chain (current :: sleepers) := by
  have absent : current ∉ sleepers := by
    intro member
    rw [(chain.inside current).mpr member] at outside
    cases outside
  refine ⟨List.nodup_cons.mpr ⟨absent, chain.nodup⟩, ?_, ?_⟩
  · simp only [WaitQueue.sleepOn, head_setState, tmp_setState]
    refine ⟨rfl, ?_⟩
    rw [Function.update_self]
    apply chain.leads.congr
    intro task member
    have other : task ≠ current := fun same => absent (same ▸ member)
    exact Function.update_of_ne other _ _
  · intro task
    simp only [WaitQueue.sleepOn, inside_setState, Function.update_apply, List.mem_cons]
    by_cases same : task = current
    · simp [same]
    · simp [same, chain.inside task]

/-- The first of the chain leaves, and the pointer goes to the next. -/
theorem Chain.leave {current : Task} (chain : q.Chain (current :: sleepers)) :
    (q.leave current).Chain sleepers := by
  obtain ⟨absent, nodup⟩ := List.nodup_cons.mp chain.nodup
  refine ⟨nodup, ?_, ?_⟩
  · simp only [WaitQueue.leave, head_setState, tmp_setState]
    exact chain.leads.2
  · intro task
    simp only [WaitQueue.leave, inside_setState, Function.update_apply]
    by_cases same : task = current
    · simp [same, absent]
    · simp [same, chain.inside task]

/-- A task that goes on is the first and leaves, or waits again. -/
theorem Chain.resume {current : Task} (chain : q.Chain sleepers)
    (waits : q.inside current = true) :
    (q.head = some current ∧ q.resume current = q.leave current) ∨
      (q.resume current).head = q.head ∧ (q.resume current).inside = q.inside ∧
        (q.resume current).tmp = q.tmp ∧ (q.resume current).warned = q.warned := by
  have notNull := chain.head_isSome waits
  by_cases first : q.head = some current
  · left
    exact ⟨first, if_neg fun behind => behind.2 first⟩
  · right
    have again : q.resume current =
        (q.setState q.head .running).setState current .uninterruptible :=
      if_pos ⟨notNull, first⟩
    simp [again]

theorem Inv.resume {current : Task} (inv : q.Inv) (waits : q.inside current = true) :
    (q.resume current).Inv := by
  obtain ⟨sleepers, chain⟩ := inv.chain
  rcases chain.resume waits with ⟨first, leaves⟩ | ⟨sameHead, sameInside, sameTmp, sameWarned⟩
  · cases sleepers with
    | nil => exact absurd ((chain.inside current).mp waits) List.not_mem_nil
    | cons task sleepers =>
        have same : task = current := Option.some.inj (chain.leads.1.symm.trans first)
        subst same
        rw [leaves]
        refine ⟨⟨sleepers, chain.leave⟩, ?_⟩
        simp [WaitQueue.leave, inv.notWarned, first]
  · exact inv.congr sameHead sameInside sameTmp sameWarned

theorem Inv.step {action : WaitAction Task} {next : WaitQueue Task} (inv : q.Inv)
    (taken : q.step idle action = some next) : next.Inv := by
  cases action with
  | sleepOn current state =>
      simp only [WaitQueue.step, Option.ite_none_left_eq_some, Option.ite_none_right_eq_some,
        Option.some.injEq] at taken
      obtain ⟨outside, -, -, rfl⟩ := taken
      obtain ⟨sleepers, chain⟩ := inv.chain
      refine ⟨⟨_, chain.sleepOn (Bool.not_eq_true _ ▸ outside)⟩, ?_⟩
      simp [WaitQueue.sleepOn, inv.notWarned]
  | wakeUp =>
      cases taken
      exact inv.congr (by simp) (by simp) (by simp) (by simp)
  | check =>
      cases taken
      exact inv.congr rfl rfl rfl rfl
  | resume current =>
      simp only [WaitQueue.step, Option.ite_none_right_eq_some, Option.some.injEq] at taken
      obtain ⟨enabled, rfl⟩ := taken
      exact inv.resume enabled.1
  | elsewhere task fields =>
      cases taken
      exact inv.congr rfl rfl rfl rfl
  | tick =>
      cases taken
      exact inv.congr rfl rfl rfl rfl

/-- Only `resume` lets a task leave, and only the first of the chain. -/
theorem Inv.leavesFirst {action : WaitAction Task} {next : WaitQueue Task} {task : Task}
    (inv : q.Inv) (taken : q.step idle action = some next) (before : q.inside task = true)
    (after : next.inside task = false) : q.head = some task := by
  have changed : next.inside ≠ q.inside := by
    intro same
    rw [same, before] at after
    cases after
  cases action with
  | sleepOn current state =>
      simp only [WaitQueue.step, Option.ite_none_left_eq_some, Option.ite_none_right_eq_some,
        Option.some.injEq] at taken
      obtain ⟨outside, -, -, rfl⟩ := taken
      have other : task ≠ current := fun same => outside (same ▸ before)
      simp [WaitQueue.sleepOn, Function.update_of_ne other, before] at after
  | resume current =>
      simp only [WaitQueue.step, Option.ite_none_right_eq_some, Option.some.injEq] at taken
      obtain ⟨enabled, rfl⟩ := taken
      obtain ⟨sleepers, chain⟩ := inv.chain
      rcases chain.resume enabled.1 with ⟨first, leaves⟩ | ⟨-, sameInside, -⟩
      · by_cases same : task = current
        · rw [same]
          exact first
        · rw [leaves] at after
          simp [WaitQueue.leave, Function.update_of_ne same, before] at after
      · exact absurd sameInside changed
  | wakeUp =>
      cases taken
      exact absurd (inside_setState q q.head .running) changed
  | check =>
      cases taken
      exact absurd rfl changed
  | elsewhere other fields =>
      cases taken
      exact absurd rfl changed
  | tick =>
      cases taken
      exact absurd rfl changed

/-- A signal wakes the task behind the first, which has to wait until the first has
left. -/
def signalledRun : List (WaitAction Nat) :=
  [.sleepOn 1 .interruptible, .sleepOn 2 .uninterruptible,
    .elsewhere 1 ⟨.interruptible, 0, 0, 2, 0⟩, .check, .resume 1, .resume 2, .resume 1]

end WaitQueue

end Linux012.Kernel
