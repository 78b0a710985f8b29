import Linux012.Kernel.Kill

/-!
# The signals that stop and continue

`send_sig` on the tasks of `task[]`, between the system calls of these tasks and the deliveries of
their signals.  The calls of `send_sig` follow one another.  A delivery is two steps, the load of
`signal` in `ret_from_sys_call` and the store behind it, for the interrupt of a keyboard can call
`send_sig` between them.
-/

namespace Linux012.Kernel.StopSignals

open Signal (SigAction Mode signals lowest sigDfl sigIgn sigChld sigCont sigTstp sigTtin sigTtou)
open Kill (Job Permitted restart deliver sendSig)

abbrev sigInt : UInt32 := 2
abbrev sigQuit : UInt32 := 3
abbrev sigPipe : UInt32 := 13

/-- `SIGSTOP`, `SIGTSTP`, `SIGTTIN` and `SIGTTOU`. -/
def stopSignals : List UInt32 := [sigStop, sigTstp, sigTtin, sigTtou]

/-- The fields of `task_struct` that a signal depends on.  `parent` is the slot of `p_pptr`. -/
structure Process where
  pid : Int
  pgrp : Int
  euid : UInt16
  parent : Nat
  state : TaskState
  signal : UInt32
  sigaction : UInt32 → SigAction
  blocked : UInt32
  exitCode : UInt32
  memory : UInt32 → UInt8
  mode : Mode

namespace Process

/-- What `send_sig` depends on. -/
def job (p : Process) : Job where
  pid := p.pid
  pgrp := p.pgrp
  euid := p.euid
  state := p.state
  exitCode := p.exitCode
  signal := p.signal
  saHandler sig := (p.sigaction sig).saHandler

def withJob (p : Process) (job : Job) : Process :=
  { p with state := job.state, exitCode := job.exitCode, signal := job.signal }

/-- What the task's own calls depend on.  The signals that they post to the parent are kept
apart. -/
def current (p : Process) (parentChldFlags : UInt32) : Signal.Task where
  state := p.state
  signal := p.signal
  sigaction := p.sigaction
  blocked := p.blocked
  exitCode := p.exitCode
  parentSignal := 0
  parentChldFlags := parentChldFlags
  memory := p.memory
  mode := p.mode

def withCurrent (p : Process) (task : Signal.Task) : Process :=
  { p with
    state := task.state
    signal := task.signal
    sigaction := task.sigaction
    blocked := task.blocked
    exitCode := task.exitCode
    memory := task.memory
    mode := task.mode }

/-- `do_execve` behind "the point of no return". -/
def execve (p : Process) (memory : UInt32 → UInt8) (mode : Mode) : Process :=
  { p with
    signal := 0
    sigaction := fun sig =>
      { p.sigaction sig with
        saMask := 0
        saFlags := 0
        saHandler := if (p.sigaction sig).saHandler = sigIgn then sigIgn else sigDfl }
    memory := memory
    mode := mode }

end Process

/-- `task[]`, and what `ret_from_sys_call` has loaded of the running task and not yet stored: its
slot and its `signal`. -/
structure Table where
  task : Nat → Option Process
  fetched : Option (Nat × UInt32)

inductive Action where
  /-- `send_sig`, to what a slot points to. -/
  | send (caller target : Nat) (sig : UInt32) (priv : Bool)
  /-- A signal is posted without `send_sig`. -/
  | post (i : Nat) (sig : UInt32)
  /-- A call of the program. -/
  | call (i : Nat) (action : Signal.Action)
  /-- `movl signal(%eax),%ebx`. -/
  | fetch (i : Nat)
  /-- The rest of `ret_from_sys_call`, up to `iret` or to the jump back to `2:`. -/
  | store
  /-- `copy_process`. -/
  | fork (i : Nat) (child : Process)
  /-- `do_execve`. -/
  | execve (i : Nat) (memory : UInt32 → UInt8) (mode : Mode)
  /-- `release`. -/
  | release (i : Nat)
  /-- The other writes of these fields: the task sleeps, wakes or exits, or changes its group, its
  user or its parent. -/
  | elsewhere (i : Nat) (state : TaskState) (pgrp : Int) (euid : UInt16) (parent : Nat)

/-- The calls of a program, without the deliveries of its signals. -/
def IsCall : Signal.Action → Bool
  | .elsewhere .. => false
  | .ret => false
  | _ => true

/-- What the interrupt of a keyboard sends. -/
def FromTty (sig : UInt32) (priv : Bool) : Prop :=
  priv = true ∧ sig ∈ [sigInt, sigQuit, sigTstp]

instance (sig : UInt32) (priv : Bool) : Decidable (FromTty sig priv) :=
  inferInstanceAs (Decidable (_ ∧ _))

namespace Table

def set (t : Table) (i : Nat) (p : Process) : Table :=
  { t with task := Function.update t.task i (some p) }

/-- `p->signal |= bits`. -/
def postTo (t : Table) (i : Nat) (bits : UInt32) : Table :=
  match t.task i with
  | none => t
  | some p => t.set i { p with signal := p.signal ||| bits }

/-- `send_sig`. -/
def send (t : Table) (sig : UInt32) (caller : Process) (priv : Bool) (target : Nat) : Table :=
  match t.task target with
  | none => t
  | some p => t.set target (p.withJob (sendSig sig caller.job priv p.job).1)

/-- `p_pptr->sigaction[SIGCHLD-1].sa_flags`. -/
def parentChldFlags (t : Table) (p : Process) : UInt32 :=
  match t.task p.parent with
  | none => 0
  | some parent => (parent.sigaction sigChld).saFlags

/-- `ret_from_sys_call` behind the load of `signal`.  Without a signal to deliver, nothing is
stored. -/
def store (t : Table) (i : Nat) (p : Process) (signal : UInt32) (regs : Signal.Registers) : Table :=
  let task := { p with signal := signal }.current (t.parentChldFlags p)
  let t := { t with fetched := none }
  match task.next with
  | none => t.set i { p with mode := .user regs }
  | some _ =>
      let after := task.retFromSysCall regs
      (t.set i (p.withCurrent after)).postTo p.parent after.parentSignal

end Table

/-- One step. -/
def step (t : Table) : Action → Option Table
  | .send caller target sig priv =>
      match t.task caller with
      | none => none
      | some c =>
          if sig ∈ signals ∧ (t.fetched = none ∨ FromTty sig priv) then
            some (t.send sig c priv target)
          else none
  | .post i sig =>
      if sig ∈ [sigPipe, sigAlrm, sigChld] then some (t.postTo i (sigBit sig)) else none
  | .call i action =>
      match t.task i with
      | none => none
      | some p =>
          if IsCall action = true ∧ t.fetched = none then
            (Signal.step (p.current (t.parentChldFlags p)) action).map fun task =>
              t.set i (p.withCurrent task)
          else none
  | .fetch i =>
      match t.task i with
      | none => none
      | some p =>
          match p.mode with
          | .kernel _ =>
              if i ≠ 0 ∧ p.state = .running ∧ t.fetched = none then
                some { t with fetched := some (i, p.signal) }
              else none
          | _ => none
  | .store =>
      match t.fetched with
      | none => none
      | some (i, signal) =>
          match t.task i with
          | none => none
          | some p =>
              match p.mode with
              | .kernel regs => some (t.store i p signal regs)
              | _ => none
  | .fork i child =>
      match t.task i with
      | none =>
          if child.signal = 0 ∧ child.state = .uninterruptible ∧ t.fetched = none then
            some (t.set i child)
          else none
      | some _ => none
  | .execve i memory mode =>
      match t.task i with
      | none => none
      | some p => if t.fetched = none then some (t.set i (p.execve memory mode)) else none
  | .release i =>
      if t.fetched = none then some { t with task := Function.update t.task i none } else none
  | .elsewhere i state pgrp euid parent =>
      match t.task i with
      | none => none
      | some p =>
          if state = .stopped then none
          else
            some (t.set i { p with state := state, pgrp := pgrp, euid := euid, parent := parent })

/-! ## What is promised -/

/-- The bit of a signal is set. -/
def Pending (signal sig : UInt32) : Prop := signal &&& sigBit sig ≠ 0

instance (signal sig : UInt32) : Decidable (Pending signal sig) :=
  inferInstanceAs (Decidable (_ ≠ _))

/-- `SIGCONT` is not pending together with a signal that stops. -/
def Exclusive (signal : UInt32) : Prop :=
  Pending signal sigCont → ∀ stop ∈ stopSignals, ¬Pending signal stop

/-- The task is not stopped, and no signal that stops is pending. -/
structure Continued (p : Process) : Prop where
  state : p.state ≠ .stopped
  signal : ∀ stop ∈ stopSignals, ¬Pending p.signal stop

/-- The step sends the task no signal that stops. -/
def NoStopTo (target : Nat) (_ : Table) : Action → Prop
  | .send _ slot sig _ => slot = target → sig ∉ stopSignals
  | _ => True

/-- The task is continued, and it stays so for as long as it is sent no signal that stops. -/
structure LeftContinued (target : Nat) (t : Table) : Prop where
  now : ∃ q, t.task target = some q ∧ Continued q
  later : ∀ actions final, Lib.exec step t actions = some final →
    Lib.EveryStep step (NoStopTo target) t actions →
      ∀ q, final.task target = some q → Continued q

/-! ## Bits -/

section Bits

variable {signal other sig : UInt32}

theorem Pending.of_and (pending : Pending (signal &&& other) sig) : Pending signal sig := by
  intro none
  rw [Pending, UInt32.and_comm signal, UInt32.and_assoc, none, UInt32.and_zero] at pending
  exact pending rfl

theorem pending_or_iff :
    Pending (signal ||| other) sig ↔ Pending signal sig ∨ Pending other sig := by
  have split : (signal ||| other) &&& sigBit sig =
      signal &&& sigBit sig ||| other &&& sigBit sig := by
    apply UInt32.toBitVec_inj.mp
    ext bit
    simp [Bool.and_or_distrib_right]
  rw [Pending, split, ne_eq, UInt32.or_eq_zero_iff, Classical.not_and_iff_not_or_not]
  rfl

theorem not_pending_zero : ¬Pending 0 sig := fun pending => pending (UInt32.zero_and)

theorem forall_mem_of_all {list : List UInt32} {p : UInt32 → Prop} [DecidablePred p]
    (all : (list.all fun sig => decide (p sig)) = true) : ∀ sig ∈ list, p sig :=
  fun sig member => of_decide_eq_true (List.all_eq_true.mp all sig member)

/-- A signal has a bit of its own. -/
theorem eq_of_pending_sigBit (sent : UInt32) (isSent : sent ∈ signals) : ∀ sig ∈ signals,
    Pending (sigBit sent) sig → sig = sent := by
  have own : (signals.all fun sent => signals.all fun sig =>
      decide (Pending (sigBit sent) sig → sig = sent)) = true := by
    decide +kernel
  exact forall_mem_of_all (List.all_eq_true.mp own sent isSent)

theorem not_pending_cleared {mask : UInt32} (isMask : sigBit sig &&& ~~~mask = 0) :
    ¬Pending (signal &&& ~~~mask) sig := by
  intro pending
  rw [Pending, UInt32.and_assoc, UInt32.and_comm _ (sigBit sig), isMask] at pending
  exact pending UInt32.and_zero

theorem mem_signals_of_mem_stopSignals : ∀ stop ∈ stopSignals, stop ∈ signals :=
  forall_mem_of_all (by decide)

/-- The signals between `SIGSTOP` and `SIGTTOU` are those that stop. -/
theorem between_iff_mem_stopSignals : ∀ sig ∈ signals,
    (sig ≥ sigStop ∧ sig ≤ sigTtou ↔ sig ∈ stopSignals) :=
  forall_mem_of_all (by decide +kernel)

theorem not_pending_sigBit_sigCont : ∀ stop ∈ stopSignals, ¬Pending (sigBit stop) sigCont :=
  forall_mem_of_all (by decide)

end Bits

/-! ## `send_sig` -/

section Send

variable {sig : UInt32} {job : Job}

theorem pending_restart {other : UInt32} (pending : Pending (restart sig job).signal other) :
    Pending job.signal other := by
  rw [restart] at pending
  split at pending
  · exact pending.of_and
  · exact pending

/-- `SIGKILL` and `SIGCONT` take the signals that stop. -/
theorem not_pending_restart (continues : sig = sigKill ∨ sig = sigCont) :
    ∀ stop ∈ stopSignals, ¬Pending (restart sig job).signal stop := by
  intro stop isStop
  have isMask : ∀ stop ∈ stopSignals, sigBit stop &&&
      ~~~(sigBit sigStop ||| sigBit sigTstp ||| sigBit sigTtin ||| sigBit sigTtou) = 0 :=
    forall_mem_of_all (by decide)
  rw [restart, if_pos continues]
  exact not_pending_cleared (isMask stop isStop)

theorem restart_state_ne (continues : sig = sigKill ∨ sig = sigCont) :
    (restart sig job).state ≠ .stopped := by
  rw [restart, if_pos continues]
  dsimp only
  split
  · exact TaskState.noConfusion
  next running => exact running

@[simp] theorem deliver_state : (deliver sig job).state = job.state := by
  rw [deliver]
  split <;> rfl

/-- What is pending was pending, or it is the signal that is sent. -/
theorem pending_deliver {other : UInt32} (pending : Pending (deliver sig job).signal other) :
    Pending job.signal other ∨ Pending (sigBit sig) other := by
  rw [deliver] at pending
  split at pending
  · exact .inl pending
  dsimp only at pending
  refine (pending_or_iff.mp pending).imp_left fun before => ?_
  split at before
  · exact before.of_and
  · exact before

/-- A signal that stops takes `SIGCONT`, if it is posted. -/
theorem not_pending_deliver (isStop : sig ∈ stopSignals) (posted : (job.saHandler sig) ≠ sigIgn) :
    ¬Pending (deliver sig job).signal sigCont := by
  have isSignal := mem_signals_of_mem_stopSignals sig isStop
  rw [deliver, if_neg posted]
  dsimp only
  rw [if_pos ((between_iff_mem_stopSignals sig isSignal).mpr isStop), pending_or_iff, not_or]
  exact ⟨not_pending_cleared (by decide), not_pending_sigBit_sigCont sig isStop⟩

/-- `send_sig` behind its permission. -/
theorem Exclusive.deliver_restart (exclusive : Exclusive job.signal) (isSignal : sig ∈ signals) :
    Exclusive (deliver sig (restart sig job)).signal := by
  intro isCont stop isStop isPending
  have isSame (pending : Pending (sigBit sig) stop) : stop = sig :=
    eq_of_pending_sigBit sig isSignal stop (mem_signals_of_mem_stopSignals stop isStop) pending
  rcases pending_deliver isCont with before | isSent
  · rcases pending_deliver isPending with stopBefore | isSent
    · exact exclusive (pending_restart before) stop isStop (pending_restart stopBefore)
    · -- a signal that stops: posted, it takes `SIGCONT`; ignored, it was pending before
      obtain rfl := isSame isSent
      by_cases ignored : (restart stop job).saHandler stop = sigIgn
      · rw [deliver, if_pos ignored] at isPending
        exact exclusive (pending_restart before) stop isStop (pending_restart isPending)
      · exact not_pending_deliver isStop ignored isCont
  · obtain rfl := eq_of_pending_sigBit sig isSignal sigCont (by decide) isSent
    rcases pending_deliver isPending with stopBefore | isSent
    · exact not_pending_restart (.inr rfl) stop isStop stopBefore
    · rw [isSame isSent] at isStop
      exact absurd isStop (by decide)

/-- No signal that stops is pending behind a `send_sig` of another one. -/
theorem not_pending_sent (isSignal : sig ∈ signals) (noStop : sig ∉ stopSignals)
    (before : ∀ stop ∈ stopSignals, ¬Pending (restart sig job).signal stop) :
    ∀ stop ∈ stopSignals, ¬Pending (deliver sig (restart sig job)).signal stop := by
  intro stop isStop isPending
  rcases pending_deliver isPending with stopBefore | isSent
  · exact before stop isStop stopBefore
  · obtain rfl := eq_of_pending_sigBit sig isSignal stop
      (mem_signals_of_mem_stopSignals stop isStop) isSent
    exact noStop isStop

theorem restart_state (notStopped : job.state ≠ .stopped) :
    (restart sig job).state = job.state := by
  by_cases continues : sig = sigKill ∨ sig = sigCont
  · rw [restart, if_pos continues]
    exact if_neg notStopped
  · rw [restart, if_neg continues]

end Send

/-! ## What a step does to a task -/

/-- Where the task in slot `i` behind a step comes from. -/
inductive Change (t : Table) (action : Action) (i : Nat) (q : Process) : Prop where
  | kept (p : Process) (isTask : t.task i = some p) (signal : q.signal = p.signal)
      (state : q.state = p.state ∨ q.state ≠ .stopped)
  | sent (p : Process) (isTask : t.task i = some p) (caller : Nat) (sig : UInt32) (priv : Bool)
      (isSend : action = .send caller i sig priv) (isSignal : sig ∈ signals)
      (signal : q.signal = (deliver sig (restart sig p.job)).signal)
      (state : q.state = (restart sig p.job).state)
  | posted (p : Process) (isTask : t.task i = some p) (sig : UInt32)
      (isPost : sig ∈ [sigPipe, sigAlrm, sigChld]) (signal : q.signal = p.signal ||| sigBit sig)
      (state : q.state = p.state)
  | cleared (signal : q.signal = 0)
      (state : q.state ≠ .stopped ∨ ∃ p, t.task i = some p ∧ q.state = p.state)
  /-- A signal of `signal`, as `ret_from_sys_call` has loaded it, is delivered. -/
  | delivered (p : Process) (isTask : t.task i = some p) (signal signr : UInt32)
      (isFetched : t.fetched = some (i, signal)) (pending : Pending signal signr)
      (subset : ∀ sig ∈ signals, Pending q.signal sig → Pending signal sig ∨ sig = sigChld)
      (state : q.state = p.state ∨ signr ∈ stopSignals)

/-! ## The delivery of a signal -/

section Delivery

/-- What the delivery of `signr` can change. -/
structure Delivers (task after : Signal.Task) (signr : UInt32) : Prop where
  signal : ∀ sig, Pending after.signal sig → Pending task.signal sig
  state : after.state = task.state ∨ signr ∈ stopSignals
  parentSignal : after.parentSignal = task.parentSignal ∨
    after.parentSignal = task.parentSignal ||| sigBit sigChld

variable {task : Signal.Task} {signr : UInt32}

theorem Delivers.refl : Delivers task task signr where
  signal _ := id
  state := .inl rfl
  parentSignal := .inl rfl

theorem delivers_byDefault : Delivers task (task.byDefault signr).1 signr := by
  rw [Signal.Task.byDefault]
  split
  · exact .refl
  split
  next stops =>
    refine ⟨fun _ => id, .inr ?_, ?_⟩
    · rcases stops with rfl | rfl | rfl | rfl <;> decide
    · dsimp only
      split
      · exact .inr rfl
      · exact .inl rfl
  next => exact .refl

theorem delivers_doSignal (regs : Signal.Registers) :
    Delivers task (task.doSignal signr regs).1 signr := by
  rw [Signal.Task.doSignal]
  dsimp only
  split
  · exact .refl
  split
  · exact delivers_byDefault
  · exact ⟨fun _ => id, .inl rfl, .inl rfl⟩

theorem delivers_retFromSysCall (regs : Signal.Registers) (isNext : task.next = some signr) :
    Delivers task (task.retFromSysCall regs) signr := by
  have delivers : Delivers { task with signal := task.signal &&& ~~~sigBit signr }
      ({ task with signal := task.signal &&& ~~~sigBit signr }.doSignal signr regs).1 signr :=
    delivers_doSignal regs
  rw [Signal.Task.retFromSysCall, isNext]
  dsimp only
  generalize ({ task with signal := task.signal &&& ~~~sigBit signr } :
    Signal.Task).doSignal signr regs = result at delivers
  obtain ⟨after, regs', outcome⟩ := result
  cases outcome with
  | more | handler | exits code =>
      exact ⟨fun sig pending => (delivers.signal sig pending).of_and, delivers.state,
        delivers.parentSignal⟩

/-- The signal that is delivered is pending. -/
theorem pending_of_next (isNext : task.next = some signr) : Pending task.signal signr := by
  have isFound := List.find?_some (p := fun signr => decide (~~~task.blocked &&& task.signal &&&
    sigBit signr ≠ 0)) isNext
  have found : Pending (~~~task.blocked &&& task.signal) signr := of_decide_eq_true isFound
  rw [UInt32.and_comm] at found
  exact found.of_and

end Delivery

/-! ## Where a task comes from -/

section Tables

variable {t : Table} {i j : Nat} {p q : Process}

theorem task_set (isTask : (t.set i p).task j = some q) : j = i ∧ q = p ∨ t.task j = some q := by
  have updated : Function.update t.task i (some p) j = some q := isTask
  by_cases here : j = i
  · subst here
    rw [Function.update_self] at updated
    exact .inl ⟨rfl, (Option.some.inj updated).symm⟩
  · rw [Function.update_of_ne here] at updated
    exact .inr updated

theorem task_postTo {bits : UInt32} (isTask : (t.postTo i bits).task j = some q) :
    t.task j = some q ∨
      ∃ p, j = i ∧ t.task j = some p ∧ q = { p with signal := p.signal ||| bits } := by
  rw [Table.postTo] at isTask
  cases occupied : t.task i with
  | none =>
      rw [occupied] at isTask
      exact .inl isTask
  | some p =>
      rw [occupied] at isTask
      rcases task_set isTask with ⟨rfl, rfl⟩ | same
      · exact .inr ⟨p, rfl, occupied, rfl⟩
      · exact .inl same

theorem fetched_postTo (bits : UInt32) : (t.postTo i bits).fetched = t.fetched := by
  rw [Table.postTo]
  split <;> rfl

end Tables

/-- What `ret_from_sys_call` loads is the `signal` of the task. -/
def Fetches (t after : Table) : Prop :=
  ∀ i signal, after.fetched = some (i, signal) →
    t.fetched = some (i, signal) ∨ ∃ p, t.task i = some p ∧ p.signal = signal

variable {t after : Table} {action : Action} {i : Nat} {q : Process}

theorem change_refl (isTask : t.task i = some q) : Change t action i q :=
  .kept q isTask rfl (.inl rfl)

theorem change_send {c : Process} {caller target : Nat} {sig : UInt32} {priv : Bool}
    (isSignal : sig ∈ signals) (isTask : (t.send sig c priv target).task i = some q) :
    Change t (.send caller target sig priv) i q := by
  rw [Table.send] at isTask
  cases occupied : t.task target with
  | none =>
      rw [occupied] at isTask
      exact change_refl isTask
  | some p =>
      rw [occupied] at isTask
      rcases task_set isTask with ⟨rfl, rfl⟩ | same
      · rw [sendSig]
        by_cases permitted : Permitted c.job priv p.job
        · rw [if_neg (not_not.mpr permitted)]
          exact .sent p occupied caller sig priv rfl isSignal rfl deliver_state
        · rw [if_pos permitted]
          exact .kept p occupied rfl (.inl rfl)
      · exact change_refl same

theorem change_postTo {sig : UInt32} {k : Nat} (isPost : sig ∈ [sigPipe, sigAlrm, sigChld])
    (isTask : (t.postTo k (sigBit sig)).task i = some q) : Change t action i q := by
  rcases task_postTo isTask with same | ⟨p, -, occupied, rfl⟩
  · exact change_refl same
  · exact .posted p occupied sig isPost rfl rfl

theorem call_fields {task after : Signal.Task} {action : Signal.Action}
    (isCall : IsCall action = true) (taken : Signal.step task action = some after) :
    after.signal = task.signal ∧ (after.state = task.state ∨ after.state ≠ .stopped) := by
  cases action with
  | ssetmask regs =>
      cases mode : task.mode <;> simp only [Signal.step, mode] at taken <;> cases taken
      exact ⟨rfl, .inl rfl⟩
  | sigsuspend regs =>
      cases mode : task.mode <;> simp only [Signal.step, mode] at taken <;> cases taken
      rw [Signal.Task.sysSigsuspend]
      split
      · exact ⟨rfl, .inl rfl⟩
      · exact ⟨rfl, .inr TaskState.noConfusion⟩
  | sigaction regs =>
      cases mode : task.mode <;> simp only [Signal.step, mode] at taken <;> cases taken
      rw [Signal.Task.sysSigaction]
      dsimp only
      split
      · exact ⟨rfl, .inl rfl⟩
      · exact ⟨rfl, .inl rfl⟩
  | enter regs =>
      cases mode : task.mode <;> simp only [Signal.step, mode] at taken <;> cases taken
      exact ⟨rfl, .inl rfl⟩
  | compute memory =>
      cases mode : task.mode <;> simp only [Signal.step, mode] at taken <;> cases taken
      exact ⟨rfl, .inl rfl⟩
  | elsewhere signal state => cases isCall
  | ret => cases isCall

/-- A delivery changes its task, and can post `SIGCHLD` to the parent. -/
theorem change_store {p : Process} {k : Nat} {signal : UInt32} {regs : Signal.Registers}
    (isFetched : t.fetched = some (k, signal)) (occupied : t.task k = some p)
    (isTask : (t.store k p signal regs).task i = some q) : Change t action i q := by
  rw [Table.store] at isTask
  dsimp only at isTask
  cases isNext : ({ p with signal := signal }.current (t.parentChldFlags p)).next with
  | none =>
      rw [isNext] at isTask
      rcases task_set isTask with ⟨rfl, rfl⟩ | same
      · exact .kept p occupied rfl (.inl rfl)
      · exact change_refl same
  | some signr =>
      rw [isNext] at isTask
      dsimp only at isTask
      have delivers := delivers_retFromSysCall regs isNext
      have pending : Pending signal signr := pending_of_next isNext
      generalize ({ p with signal := signal }.current (t.parentChldFlags p)).retFromSysCall regs =
        task at isTask delivers
      have posts : task.parentSignal = 0 ∨ task.parentSignal = sigBit sigChld :=
        delivers.parentSignal.imp_right fun posted => posted.trans UInt32.zero_or
      rcases task_postTo isTask with same | ⟨before, -, there, rfl⟩
      · rcases task_set same with ⟨rfl, rfl⟩ | same
        · exact .delivered p occupied signal signr isFetched pending
            (fun sig _ isPending => .inl (delivers.signal sig isPending)) delivers.state
        · exact change_refl same
      · rcases task_set there with ⟨rfl, rfl⟩ | there
        · refine .delivered p occupied signal signr isFetched pending
            (fun sig isSignal isPending => ?_) delivers.state
          rcases pending_or_iff.mp isPending with isPending | isPosted
          · exact .inl (delivers.signal sig isPending)
          rcases posts with none | posted
          · rw [none] at isPosted
            exact absurd isPosted not_pending_zero
          · rw [posted] at isPosted
            exact .inr (eq_of_pending_sigBit sigChld (by decide) sig isSignal isPosted)
        · rcases posts with none | posted
          · exact .kept before there (by rw [none]; exact UInt32.or_zero) (.inl rfl)
          · exact .posted before there sigChld (by decide) (by rw [posted]) rfl

theorem change_of_step (taken : step t action = some after) (isTask : after.task i = some q) :
    Change t action i q := by
  cases action with
  | send caller target sig priv =>
      cases isCaller : t.task caller <;> simp only [step, isCaller] at taken
      case none => cases taken
      split at taken
      next enabled =>
        cases taken
        exact change_send enabled.1 isTask
      next => cases taken
  | post k sig =>
      rw [step] at taken
      split at taken
      next isPost =>
        cases taken
        exact change_postTo isPost isTask
      next => cases taken
  | call k action =>
      cases occupied : t.task k with
      | none =>
          simp only [step, occupied] at taken
          cases taken
      | some p =>
          simp only [step, occupied] at taken
          split at taken
          next enabled =>
            obtain ⟨task, called, rfl⟩ := Option.map_eq_some_iff.mp taken
            obtain ⟨signal, state⟩ := call_fields enabled.1 called
            rcases task_set isTask with ⟨rfl, rfl⟩ | same
            · exact .kept p occupied signal state
            · exact change_refl same
          next => cases taken
  | fetch k =>
      rw [step] at taken
      split at taken
      next => cases taken
      split at taken
      next =>
        split at taken
        · cases taken
          exact change_refl isTask
        · cases taken
      next => cases taken
  | store =>
      rw [step] at taken
      split at taken
      next => cases taken
      next k signal isFetched =>
        split at taken
        next => cases taken
        next p occupied =>
          split at taken
          · cases taken
            exact change_store isFetched occupied isTask
          · cases taken
  | fork k child =>
      rw [step] at taken
      split at taken
      next =>
        split at taken
        next enabled =>
          cases taken
          rcases task_set isTask with ⟨rfl, rfl⟩ | same
          · refine .cleared enabled.1 (.inl ?_)
            rw [enabled.2.1]
            exact TaskState.noConfusion
          · exact change_refl same
        next => cases taken
      next => cases taken
  | execve k memory mode =>
      rw [step] at taken
      split at taken
      next => cases taken
      next p occupied =>
        split at taken
        · cases taken
          rcases task_set isTask with ⟨rfl, rfl⟩ | same
          · exact .cleared rfl (.inr ⟨p, occupied, rfl⟩)
          · exact change_refl same
        · cases taken
  | release k =>
      rw [step] at taken
      split at taken
      · cases taken
        by_cases here : i = k
        · subst here
          cases (Function.update_self ..).symm.trans isTask
        · exact change_refl ((Function.update_of_ne here ..).symm.trans isTask)
      · cases taken
  | elsewhere k state pgrp euid parent =>
      rw [step] at taken
      split at taken
      next => cases taken
      next p occupied =>
        split at taken
        next => cases taken
        next running =>
          cases taken
          rcases task_set isTask with ⟨rfl, rfl⟩ | same
          · exact .kept p occupied rfl (.inr running)
          · exact change_refl same

theorem fetched_store (p : Process) (k : Nat) (signal : UInt32) (regs : Signal.Registers) :
    (t.store k p signal regs).fetched = none := by
  rw [Table.store]
  dsimp only
  split
  · rfl
  · rw [fetched_postTo]
    rfl

theorem fetched_send (sig : UInt32) (c : Process) (priv : Bool) (target : Nat) :
    (t.send sig c priv target).fetched = t.fetched := by
  rw [Table.send]
  split <;> rfl

theorem fetches_of_same (same : after.fetched = t.fetched) : Fetches t after :=
  fun _ _ isFetched => .inl (same.symm.trans isFetched)

theorem fetches_of_step (taken : step t action = some after) : Fetches t after := by
  cases action with
  | send caller target sig priv =>
      cases isCaller : t.task caller <;> simp only [step, isCaller] at taken
      case none => cases taken
      split at taken <;> cases taken
      exact fetches_of_same (fetched_send ..)
  | post k sig =>
      rw [step] at taken
      split at taken <;> cases taken
      exact fetches_of_same (fetched_postTo _)
  | call k action =>
      cases occupied : t.task k <;> simp only [step, occupied] at taken
      case none => cases taken
      split at taken
      · obtain ⟨task, -, rfl⟩ := Option.map_eq_some_iff.mp taken
        exact fetches_of_same rfl
      · cases taken
  | fetch k =>
      cases occupied : t.task k <;> simp only [step, occupied] at taken
      case none => cases taken
      case some p =>
        split at taken
        next =>
          split at taken <;> cases taken
          intro i signal isFetched
          cases isFetched
          exact .inr ⟨p, occupied, rfl⟩
        next => cases taken
  | store =>
      rw [step] at taken
      split at taken
      next => cases taken
      split at taken
      next => cases taken
      split at taken <;> cases taken
      intro i signal isFetched
      rw [fetched_store] at isFetched
      cases isFetched
  | fork k child =>
      rw [step] at taken
      split at taken
      next =>
        split at taken <;> cases taken
        exact fetches_of_same rfl
      next => cases taken
  | execve k memory mode =>
      rw [step] at taken
      split at taken
      next => cases taken
      split at taken <;> cases taken
      exact fetches_of_same rfl
  | release k =>
      rw [step] at taken
      split at taken <;> cases taken
      exact fetches_of_same rfl
  | elsewhere k state pgrp euid parent =>
      rw [step] at taken
      split at taken
      next => cases taken
      split at taken <;> cases taken
      exact fetches_of_same rfl

/-! ## One step -/

/-- `SIGCONT` and the signals that stop exclude each other, in the tasks and in what
`ret_from_sys_call` has loaded. -/
structure Excluding (t : Table) : Prop where
  task : ∀ i p, t.task i = some p → Exclusive p.signal
  fetched : ∀ i signal, t.fetched = some (i, signal) → Exclusive signal

/-- The task is continued, and `ret_from_sys_call` has not loaded a signal that stops it. -/
structure Quiet (i : Nat) (t : Table) : Prop where
  task : ∀ p, t.task i = some p → Continued p
  fetched : ∀ signal, t.fetched = some (i, signal) → ∀ stop ∈ stopSignals, ¬Pending signal stop

/-- A signal that is posted without `send_sig` neither stops nor continues. -/
theorem pending_posted {signal sig other : UInt32} (isPost : sig ∈ [sigPipe, sigAlrm, sigChld])
    (isOther : other = sigCont ∨ other ∈ stopSignals)
    (pending : Pending (signal ||| sigBit sig) other) : Pending signal other := by
  refine (pending_or_iff.mp pending).resolve_right ?_
  have apart : ([sigPipe, sigAlrm, sigChld].all fun sig => (sigCont :: stopSignals).all fun other =>
      decide (¬Pending (sigBit sig) other)) = true := by decide
  exact forall_mem_of_all (List.all_eq_true.mp apart sig isPost) other (List.mem_cons.mpr isOther)

theorem exclusive_mono {signal other : UInt32} (exclusive : Exclusive signal)
    (isCont : Pending other sigCont → Pending signal sigCont)
    (isStop : ∀ stop ∈ stopSignals, Pending other stop → Pending signal stop) : Exclusive other :=
  fun pending stop member isPending =>
    exclusive (isCont pending) stop member (isStop stop member isPending)

/-- `SIGCHLD`, which a delivery can post, neither stops nor continues. -/
theorem ne_sigChld : ∀ sig ∈ sigCont :: stopSignals, sig ≠ sigChld := forall_mem_of_all (by decide)

theorem Excluding.change (excluding : Excluding t) (change : Change t action i q) :
    Exclusive q.signal := by
  cases change with
  | kept p isTask signal state =>
      rw [signal]
      exact excluding.task i p isTask
  | sent p isTask caller sig priv isSend isSignal signal state =>
      have exclusive : Exclusive p.job.signal := excluding.task i p isTask
      rw [signal]
      exact exclusive.deliver_restart isSignal
  | posted p isTask sig isPost signal state =>
      rw [signal]
      exact exclusive_mono (excluding.task i p isTask) (pending_posted isPost (.inl rfl))
        fun stop isStop => pending_posted isPost (.inr isStop)
  | cleared signal state =>
      intro isCont
      rw [signal] at isCont
      exact absurd isCont not_pending_zero
  | delivered p isTask signal signr isFetched pending subset state =>
      refine exclusive_mono (excluding.fetched i signal isFetched) (fun isCont => ?_)
        fun stop isStop isPending => ?_
      · exact (subset sigCont (by decide) isCont).resolve_right
          (ne_sigChld sigCont List.mem_cons_self)
      · have isSignal := mem_signals_of_mem_stopSignals stop isStop
        exact (subset stop isSignal isPending).resolve_right (ne_sigChld stop (.tail _ isStop))

theorem Excluding.step (excluding : Excluding t) (taken : step t action = some after) :
    Excluding after where
  task _ _ isTask := excluding.change (change_of_step taken isTask)
  fetched i signal isFetched := by
    rcases fetches_of_step taken i signal isFetched with same | ⟨p, isTask, rfl⟩
    · exact excluding.fetched i signal same
    · exact excluding.task i p isTask

theorem Quiet.change (quiet : Quiet i t) (noStop : NoStopTo i t action)
    (change : Change t action i q) : Continued q := by
  cases change with
  | kept p isTask signal state =>
      have continued := quiet.task p isTask
      refine ⟨?_, signal ▸ continued.signal⟩
      exact state.elim (fun same => same ▸ continued.state) id
  | sent p isTask caller sig priv isSend isSignal signal state =>
      have continued := quiet.task p isTask
      subst isSend
      refine ⟨?_, ?_⟩
      · rw [state, restart_state continued.state]
        exact continued.state
      · rw [signal]
        exact not_pending_sent isSignal (noStop rfl) fun stop isStop pending =>
          continued.signal stop isStop (pending_restart pending)
  | posted p isTask sig isPost signal state =>
      have continued := quiet.task p isTask
      refine ⟨state ▸ continued.state, fun stop isStop pending => ?_⟩
      rw [signal] at pending
      exact continued.signal stop isStop (pending_posted isPost (.inr isStop) pending)
  | cleared signal state =>
      refine ⟨?_, fun _ _ pending => not_pending_zero (signal ▸ pending)⟩
      rcases state with running | ⟨p, isTask, same⟩
      · exact running
      · exact same ▸ (quiet.task p isTask).state
  | delivered p isTask signal signr isFetched pending subset state =>
      have noneLoaded := quiet.fetched signal isFetched
      refine ⟨?_, fun stop isStop isPending => ?_⟩
      · rcases state with same | stops
        · exact same ▸ (quiet.task p isTask).state
        · exact absurd pending (noneLoaded signr stops)
      · have isSignal := mem_signals_of_mem_stopSignals stop isStop
        exact noneLoaded stop isStop
          ((subset stop isSignal isPending).resolve_right (ne_sigChld stop (.tail _ isStop)))

theorem Quiet.step (quiet : Quiet i t) (noStop : NoStopTo i t action)
    (taken : step t action = some after) : Quiet i after where
  task _ isTask := quiet.change noStop (change_of_step taken isTask)
  fetched signal isFetched := by
    rcases fetches_of_step taken i signal isFetched with same | ⟨p, isTask, rfl⟩
    · exact quiet.fetched signal same
    · exact (quiet.task p isTask).signal

/-- A `SIGKILL` or a `SIGCONT` with permission, which no interrupt sends. -/
theorem quiet_of_continue {c p : Process} {caller target : Nat} {sig : UInt32} {priv : Bool}
    (continues : sig = sigKill ∨ sig = sigCont) (isCaller : t.task caller = some c)
    (isTarget : t.task target = some p) (permitted : Permitted c.job priv p.job)
    (taken : step t (.send caller target sig priv) = some after) :
    (∃ q, after.task target = some q) ∧ Quiet target after := by
  have notTty : ¬FromTty sig priv := by
    rintro ⟨-, isTty⟩
    rcases continues with rfl | rfl <;> exact absurd isTty (by decide)
  have noStop : sig ∉ stopSignals := by
    rcases continues with rfl | rfl <;> decide
  simp only [step, isCaller] at taken
  split at taken
  next enabled =>
    cases taken
    have idle : t.fetched = none := enabled.2.resolve_right notTty
    have isSent : (t.send sig c priv target).task target =
        some (p.withJob (deliver sig (restart sig p.job))) := by
      have isPosted : (sendSig sig c.job priv p.job).1 = deliver sig (restart sig p.job) := by
        rw [sendSig, if_neg (not_not.mpr permitted)]
      rw [Table.send, isTarget, ← isPosted]
      exact Function.update_self ..
    refine ⟨⟨_, isSent⟩, fun q isTask => ?_, fun signal isFetched => ?_⟩
    · cases isSent.symm.trans isTask
      refine ⟨?_, not_pending_sent enabled.1 noStop (not_pending_restart continues)⟩
      exact fun stopped => restart_state_ne continues (deliver_state.symm.trans stopped)
    · rw [fetched_send, idle] at isFetched
      cases isFetched
  next => cases taken

/-! ## Whole runs -/

theorem Excluding.exec {start final : Table} {actions : List Action} (excluding : Excluding start)
    (ran : Lib.exec StopSignals.step start actions = some final) : Excluding final :=
  Lib.exec_preserves Excluding (fun _ _ _ => Excluding.step) excluding ran

theorem Quiet.exec {start final : Table} {actions : List Action} (quiet : Quiet i start)
    (noStop : Lib.EveryStep StopSignals.step (NoStopTo i) start actions)
    (ran : Lib.exec StopSignals.step start actions = some final) : Quiet i final :=
  Lib.exec_invariant (Quiet i) (fun _ _ _ => Quiet.step) quiet noStop ran

/-- In every run `SIGCONT` is never pending together with a signal that stops, and a task that has
been sent a `SIGKILL` or a `SIGCONT` is left neither stopped nor about to stop. -/
theorem stopSignals_exclude {start t : Table} (actions : List Action)
    (exclusive : ∀ i p, start.task i = some p → Exclusive p.signal) (idle : start.fetched = none)
    (ran : Lib.exec step start actions = some t) :
    (∀ i p, t.task i = some p → Exclusive p.signal) ∧
      ∀ caller target sig priv c p after, sig = sigKill ∨ sig = sigCont →
        t.task caller = some c → t.task target = some p → Permitted c.job priv p.job →
          step t (.send caller target sig priv) = some after → LeftContinued target after := by
  have noneLoaded : ∀ i signal, start.fetched = some (i, signal) → Exclusive signal := by
    intro i signal isFetched
    cases idle.symm.trans isFetched
  have excluding : Excluding start := ⟨exclusive, noneLoaded⟩
  refine ⟨(excluding.exec ran).task, ?_⟩
  intro caller target sig priv c p after continues isCaller isTarget permitted taken
  obtain ⟨⟨q, isTask⟩, quiet⟩ := quiet_of_continue continues isCaller isTarget permitted taken
  exact ⟨⟨q, isTask, quiet.task q isTask⟩, fun more final ran noStop q isTask =>
    (quiet.exec noStop ran).task q isTask⟩

/-- A task in the kernel, without handlers. -/
def bare (pid : Int) (euid : UInt16) : Process where
  pid := pid
  pgrp := pid
  euid := euid
  parent := 1
  state := .running
  signal := 0
  sigaction _ := ⟨0, 0, 0, 0⟩
  blocked := 0
  exitCode := 0
  memory _ := 0
  mode := .kernel ⟨0, 0, 0, 0, 0, 0, 0, 0⟩

/-- `init`, and a task of a user. -/
def pair : Table where
  task i := if i = 1 then some (bare 1 0) else if i = 2 then some (bare 7 5) else none
  fetched := none

/-- The user's task gets a `SIGTTOU`, and a `SIGTSTP` from the keyboard while it is stopping. -/
def stopRun : List Action :=
  [.send 1 2 sigCont false, .send 1 2 sigTtou false, .fetch 2, .send 1 2 sigTstp true, .store]

theorem stopSignals_exclude_pair : ∃ t c p after, Lib.exec step pair stopRun = some t ∧
    t.task 1 = some c ∧ t.task 2 = some p ∧ p.state = .stopped ∧
      step t (.send 1 2 sigCont false) = some after ∧
        (∀ i p, t.task i = some p → Exclusive p.signal) ∧ LeftContinued 2 after := by
  have exclusive : ∀ i p, pair.task i = some p → Exclusive p.signal := by
    intro i p isTask
    simp only [pair] at isTask
    split_ifs at isTask <;> cases isTask <;> exact fun isCont => absurd isCont not_pending_zero
  have evaluates : ((Lib.exec step pair stopRun).bind fun t => (t.task 1).bind fun c =>
      (t.task 2).bind fun p => (step t (.send 1 2 sigCont false)).map fun _ =>
        decide (p.state = .stopped ∧ c.euid = 0)) = some true := by
    decide +kernel
  obtain ⟨t, ran, evaluates⟩ := Option.bind_eq_some_iff.mp evaluates
  obtain ⟨c, isCaller, evaluates⟩ := Option.bind_eq_some_iff.mp evaluates
  obtain ⟨p, isTarget, evaluates⟩ := Option.bind_eq_some_iff.mp evaluates
  obtain ⟨after, taken, facts⟩ := Option.map_eq_some_iff.mp evaluates
  obtain ⟨stopped, root⟩ := of_decide_eq_true facts
  obtain ⟨excluded, continued⟩ := stopSignals_exclude stopRun exclusive rfl ran
  exact ⟨t, c, p, after, ran, isCaller, isTarget, stopped, taken, excluded,
    continued 1 2 sigCont false c p after (.inr rfl) isCaller isTarget (.inr (.inr root)) taken⟩

end Linux012.Kernel.StopSignals
