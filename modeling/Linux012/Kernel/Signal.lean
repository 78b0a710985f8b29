import Linux012.Lib.Run
import Linux012.Kernel.WaitQueue

/-!
# Signals that cannot be blocked

`kernel/signal.c` and the end of `ret_from_sys_call`, for one task other than `task[0]`.
The mask `blocked` is written by `sys_ssetmask`, by both forms of `sys_sigsuspend` and by
`do_signal`, each time with a word that the program chose.
-/

namespace Linux012.Kernel.Signal

/-- `struct sigaction`; a handler is its address. -/
structure SigAction where
  saHandler : UInt32
  saMask : UInt32
  saFlags : UInt32
  saRestorer : UInt32
  deriving DecidableEq, Repr

/-- The registers of the program, as `system_call` pushes them. -/
structure Registers where
  ebx : UInt32
  ecx : UInt32
  edx : UInt32
  eax : UInt32
  origEax : UInt32
  eip : UInt32
  eflags : UInt32
  esp : UInt32
  deriving DecidableEq, Repr

inductive Mode where
  /-- The program runs; `iret` has just restored these registers. -/
  | user (regs : Registers)
  /-- On the way back to the program, at `ret_from_sys_call`. -/
  | kernel (regs : Registers)
  /-- `do_exit`. -/
  | exited (code : UInt32)
  deriving DecidableEq, Repr

/-- The fields of `current` and of `*current->p_pptr` that signals depend on.  `sigaction`
is indexed by the number of the signal, and `memory` is the program's. -/
structure Task where
  state : TaskState
  signal : UInt32
  sigaction : UInt32 → SigAction
  blocked : UInt32
  exitCode : UInt32
  parentSignal : UInt32
  parentChldFlags : UInt32
  memory : UInt32 → UInt8
  mode : Mode

abbrev sigDfl : UInt32 := 0
abbrev sigIgn : UInt32 := 1

abbrev sigChld : UInt32 := 17
abbrev sigCont : UInt32 := 18
abbrev sigTstp : UInt32 := 20
abbrev sigTtin : UInt32 := 21
abbrev sigTtou : UInt32 := 22

abbrev saNoCldStop : UInt32 := 1
abbrev saInterrupt : UInt32 := 0x20000000
abbrev saNoMask : UInt32 := 0x40000000
abbrev saOneShot : UInt32 := 0x80000000

abbrev eIntr : UInt32 := 4
abbrev eInval : UInt32 := 22
abbrev eRestartSys : UInt32 := 512
abbrev eRestartNoIntr : UInt32 := 513

/-! ## The memory of the program -/

/-- `get_fs_long`. -/
def getFsLong (memory : UInt32 → UInt8) (addr : UInt32) : UInt32 :=
  (memory addr).toUInt32 ||| (memory (addr + 1)).toUInt32 <<< 8 |||
    (memory (addr + 2)).toUInt32 <<< 16 ||| (memory (addr + 3)).toUInt32 <<< 24

/-- `put_fs_long`. -/
def putFsLong (memory : UInt32 → UInt8) (value addr : UInt32) : UInt32 → UInt8 :=
  let memory := Function.update memory addr value.toUInt8
  let memory := Function.update memory (addr + 1) (value >>> 8).toUInt8
  let memory := Function.update memory (addr + 2) (value >>> 16).toUInt8
  Function.update memory (addr + 3) (value >>> 24).toUInt8

/-- `put_fs_long` of one word after the other. -/
def putFsLongs (memory : UInt32 → UInt8) : List UInt32 → UInt32 → UInt32 → UInt8
  | [], _ => memory
  | value :: values, addr => putFsLongs (putFsLong memory value addr) values (addr + 4)

/-- `get_new`. -/
def getNew (memory : UInt32 → UInt8) (addr : UInt32) : SigAction where
  saHandler := getFsLong memory addr
  saMask := getFsLong memory (addr + 4)
  saFlags := getFsLong memory (addr + 8)
  saRestorer := getFsLong memory (addr + 12)

/-- `save_old`. -/
def saveOld (memory : UInt32 → UInt8) (sa : SigAction) (addr : UInt32) : UInt32 → UInt8 :=
  putFsLongs memory [sa.saHandler, sa.saMask, sa.saFlags, sa.saRestorer] addr

/-! ## The system calls -/

namespace Task

/-- `pushl %eax` behind the call. -/
def returns (task : Task) (regs : Registers) (result : UInt32) : Task :=
  { task with mode := .kernel { regs with origEax := regs.eax, eax := result } }

/-- `sys_ssetmask`, with its argument in `%ebx`. -/
def sysSsetmask (task : Task) (regs : Registers) : Task :=
  { task with blocked := regs.ebx &&& ~~~sigBit sigKill &&& ~~~sigBit sigStop }.returns
    regs task.blocked

/-- `sys_sigsuspend`, with `restart`, `old_mask` and `set` in `%ebx`, `%ecx` and `%edx`,
up to the `schedule ()` of `sys_pause`. -/
def sysSigsuspend (task : Task) (regs : Registers) : Task :=
  if regs.ebx ≠ 0 then
    { task with blocked := regs.ecx }.returns regs (-eIntr)
  else
    { task with blocked := regs.edx, state := .interruptible }.returns
      { regs with ebx := 1, ecx := task.blocked } (-eRestartNoIntr)

/-- `sys_sigaction`, with `signum`, `action` and `oldaction` in `%ebx`, `%ecx` and `%edx`. -/
def sysSigaction (task : Task) (regs : Registers) : Task :=
  let signum := regs.ebx
  if signum.toInt32 < 1 ∨ signum.toInt32 > 32 ∨ signum = sigKill ∨ signum = sigStop then
    task.returns regs (-eInval)
  else
    let tmp := task.sigaction signum
    let new := getNew task.memory regs.ecx
    let memory := if regs.edx ≠ 0 then saveOld task.memory tmp regs.edx else task.memory
    let mask := if new.saFlags &&& saNoMask ≠ 0 then 0 else new.saMask ||| sigBit signum
    { task with
      memory := memory
      sigaction := Function.update task.sigaction signum { new with saMask := mask } }.returns
        regs 0

end Task

/-! ## The delivery of a signal -/

/-- How `do_signal` ends. -/
inductive Outcome where
  /-- `return(1)`: "see if there are more signals". -/
  | more
  /-- `return(0)`: "continue, execute handler". -/
  | handler
  /-- `do_exit(code)`. -/
  | exits (code : UInt32)
  deriving DecidableEq, Repr

/-- The system call that the signal interrupted is restarted or fails with `EINTR`. -/
def restartCall (saFlags signr : UInt32) (regs : Registers) : Registers :=
  if regs.origEax ≠ -1 ∧ (regs.eax = -eRestartSys ∨ regs.eax = -eRestartNoIntr) then
    if regs.eax = -eRestartSys ∧
        (saFlags &&& saInterrupt ≠ 0 ∨ signr < sigCont ∨ signr > sigTtou) then
      { regs with eax := -eIntr }
    else { regs with eax := regs.origEax, eip := regs.eip - 2 }
  else regs

namespace Task

/-- The `switch` of `do_signal`, for a signal without a handler.  `core_dump` does nothing. -/
def byDefault (task : Task) (signr : UInt32) : Task × Outcome :=
  if signr = sigCont ∨ signr = sigChld then (task, .more)
  else if signr = sigStop ∨ signr = sigTstp ∨ signr = sigTtin ∨ signr = sigTtou then
    ({ task with
      state := .stopped
      exitCode := signr
      parentSignal :=
        if task.parentChldFlags &&& saNoCldStop = 0 then task.parentSignal ||| sigBit sigChld
        else task.parentSignal }, .more)
  else (task, .exits signr)

/-- What `do_signal` puts on the stack of the program. -/
def stackFrame (task : Task) (sa : SigAction) (signr : UInt32) (regs : Registers) :
    List UInt32 :=
  [sa.saRestorer, signr] ++ (if sa.saFlags &&& saNoMask = 0 then [task.blocked] else []) ++
    [regs.eax, regs.ecx, regs.edx, regs.eflags, regs.eip]

/-- "OK, we're invoking a handler". -/
def invoke (task : Task) (sa : SigAction) (signr : UInt32) (regs : Registers) :
    Task × Registers :=
  let longs := if sa.saFlags &&& saNoMask ≠ 0 then 7 else 8
  let esp := regs.esp - longs * 4
  ({ task with
      sigaction :=
        if sa.saFlags &&& saOneShot ≠ 0 then
          Function.update task.sigaction signr { sa with saHandler := 0 }
        else task.sigaction
      memory := putFsLongs task.memory (task.stackFrame sa signr regs) esp
      blocked := task.blocked ||| sa.saMask },
    { regs with eip := sa.saHandler, esp := esp })

/-- `do_signal`. -/
def doSignal (task : Task) (signr : UInt32) (regs : Registers) : Task × Registers × Outcome :=
  let sa := task.sigaction signr
  let regs := restartCall sa.saFlags signr regs
  if sa.saHandler = sigIgn then (task, regs, .more)
  else if sa.saHandler = sigDfl then
    let (task, outcome) := task.byDefault signr
    (task, regs, outcome)
  else
    let (task, regs) := task.invoke sa signr regs
    (task, regs, .handler)

end Task

/-- The numbers of the signals. -/
def signals : List UInt32 := (List.range 32).map fun bit => UInt32.ofNat (bit + 1)

/-- `bsfl` and `incl`: the number of the lowest bit that is set. -/
def lowest (word : UInt32) : Option UInt32 := signals.find? fun signr => word &&& sigBit signr ≠ 0

namespace Task

/-- The signal that `ret_from_sys_call` takes next. -/
def next (task : Task) : Option UInt32 := lowest (~~~task.blocked &&& task.signal)

/-- `ret_from_sys_call`, up to `iret` or to the jump back to `2:`. -/
def retFromSysCall (task : Task) (regs : Registers) : Task :=
  match task.next with
  | none => { task with mode := .user regs }
  | some signr =>
      let (task, regs, outcome) :=
        { task with signal := task.signal &&& ~~~sigBit signr }.doSignal signr regs
      match outcome with
      | .more => { task with mode := .kernel regs }
      | .handler => { task with mode := .user regs }
      | .exits code => { task with mode := .exited code }

end Task

inductive Action where
  | ssetmask (regs : Registers)
  | sigsuspend (regs : Registers)
  | sigaction (regs : Registers)
  /-- An interrupt, or a system call that neither reads nor writes what is modelled here. -/
  | enter (regs : Registers)
  /-- The program writes its memory. -/
  | compute (memory : UInt32 → UInt8)
  /-- While the task is in the kernel, others post signals, and stop or wake it. -/
  | elsewhere (signal : UInt32) (state : TaskState)
  /-- The task is the running one at `ret_from_sys_call`. -/
  | ret

/-- One step. -/
def step (task : Task) : Action → Option Task
  | .ssetmask regs =>
      match task.mode with
      | .user _ => some (task.sysSsetmask regs)
      | _ => none
  | .sigsuspend regs =>
      match task.mode with
      | .user _ => some (task.sysSigsuspend regs)
      | _ => none
  | .sigaction regs =>
      match task.mode with
      | .user _ => some (task.sysSigaction regs)
      | _ => none
  | .enter regs =>
      match task.mode with
      | .user _ => some { task with mode := .kernel regs }
      | _ => none
  | .compute memory =>
      match task.mode with
      | .user _ => some { task with memory := memory }
      | _ => none
  | .elsewhere signal state =>
      match task.mode with
      | .kernel _ => some { task with signal := signal, state := state }
      | _ => none
  | .ret =>
      match task.mode with
      | .kernel regs =>
          if task.state = .running then some (task.retFromSysCall regs) else none
      | _ => none

/-! ## What is promised -/

/-- The mask has neither the bit of `SIGKILL` nor the one of `SIGSTOP`. -/
abbrev Blockable (mask : UInt32) : Prop := mask &&& ~~~blockable = 0

/-- `SIGKILL` and `SIGSTOP` are not blocked, and a task that is back in its program has taken
its `SIGKILL`. -/
structure Killable (task : Task) : Prop where
  blocked : Blockable task.blocked
  taken : ∀ regs, task.mode = .user regs → task.signal &&& sigBit sigKill = 0

/-- The promise holds behind the step. -/
def KeepsKillable (task : Task) (action : Action) : Prop :=
  ∀ after, step task action = some after → Killable after

/-- The mask that `sys_sigsuspend` installs, from its registers. -/
def Registers.suspendMask (regs : Registers) : UInt32 :=
  if regs.ebx ≠ 0 then regs.ecx else regs.edx

/-- The signal is given to a handler. -/
def Task.Handles (task : Task) (signr : UInt32) : Prop :=
  task.next = some signr ∧ (task.sigaction signr).saHandler ≠ sigIgn ∧
    (task.sigaction signr).saHandler ≠ sigDfl

/-- The condition on one step that the task can take: the mask of a `sys_sigsuspend` and the
`sa_mask` of a signal with a handler are blockable, and no such signal is in front of a
`SIGKILL`. -/
def MaskAllowed (task : Task) (action : Action) : Prop :=
  (step task action).isSome = true →
    match action with
    | .sigsuspend regs => Blockable regs.suspendMask
    | .ret => ∀ signr, task.Handles signr →
        Blockable (task.sigaction signr).saMask ∧ task.signal &&& sigBit sigKill = 0
    | _ => True

/-- What every allowed run keeps. -/
structure Guarded (task : Task) : Prop extends Killable task where
  /-- `SIGKILL` has no handler. -/
  handler : (task.sigaction sigKill).saHandler = sigDfl

/-! ## Masks -/

theorem blockable_or_iff {first second : UInt32} :
    Blockable (first ||| second) ↔ Blockable first ∧ Blockable second := by
  have split : (first ||| second) &&& ~~~blockable =
      first &&& ~~~blockable ||| second &&& ~~~blockable := by
    apply UInt32.toBitVec_inj.mp
    ext bit
    simp [Bool.and_or_distrib_right]
  rw [Blockable, split, UInt32.or_eq_zero_iff]

/-- What `sys_ssetmask` takes out of its argument. -/
theorem blockable_filtered (mask : UInt32) :
    Blockable (mask &&& ~~~sigBit sigKill &&& ~~~sigBit sigStop) := by
  have filter : ~~~sigBit sigKill &&& (~~~sigBit sigStop &&& ~~~blockable) = 0 := by decide
  rw [Blockable, UInt32.and_assoc, UInt32.and_assoc, filter, UInt32.and_zero]

theorem Blockable.sigKill {mask : UInt32} (clean : Blockable mask) :
    mask &&& sigBit Kernel.sigKill = 0 := by
  have part : sigBit Kernel.sigKill = ~~~blockable &&& sigBit Kernel.sigKill := by decide
  rw [part, ← UInt32.and_assoc, clean, UInt32.zero_and]

theorem not_and_of_and_eq_zero {mask word : UInt32} (apart : mask &&& word = 0) :
    ~~~mask &&& word = word := by
  apply UInt32.toBitVec_inj.mp
  ext bit isBit
  have here : (mask &&& word).toBitVec[bit] = false := by simp [apart]
  rw [UInt32.toBitVec_and, BitVec.getElem_and] at here
  rw [UInt32.toBitVec_and, BitVec.getElem_and, UInt32.toBitVec_not, BitVec.getElem_not]
  cases inMask : mask.toBitVec[bit] <;> simp_all

/-- Taking another signal leaves `SIGKILL` pending. -/
theorem sigKill_of_taken {signal signr : UInt32} (isSignal : signr ∈ signals)
    (other : signr ≠ sigKill) :
    (signal &&& ~~~sigBit signr) &&& sigBit sigKill = signal &&& sigBit sigKill := by
  have disjoint : signals.all (fun signr => signr == sigKill ||
      ~~~sigBit signr &&& sigBit sigKill == sigBit sigKill) = true := by decide
  have here := List.all_eq_true.mp disjoint signr isSignal
  simp only [Bool.or_eq_true, beq_iff_eq, other, false_or] at here
  rw [UInt32.and_assoc, here]

theorem lowest_eq_none_iff {word : UInt32} :
    lowest word = none ↔ ∀ signr ∈ signals, word &&& sigBit signr = 0 := by
  simp [lowest]

theorem mem_signals_of_lowest {word signr : UInt32} (found : lowest word = some signr) :
    signr ∈ signals :=
  List.mem_of_find?_eq_some found

/-! ## One return to the program -/

variable {task after : Task} {action : Action}

/-- Without a handler the masks stay, and the task is not back in its program. -/
theorem Task.retFromSysCall_of_not_handles (regs : Registers) {signr : UInt32}
    (isNext : task.next = some signr) (notHandled : ¬task.Handles signr) :
    (task.retFromSysCall regs).blocked = task.blocked ∧
      (task.retFromSysCall regs).sigaction = task.sigaction ∧
      ∀ regs', (task.retFromSysCall regs).mode ≠ .user regs' := by
  rw [retFromSysCall, isNext]
  by_cases ignored : (task.sigaction signr).saHandler = sigIgn
  · simp [doSignal, ignored]
  · have default : (task.sigaction signr).saHandler = sigDfl := by
      by_contra handled
      exact notHandled ⟨isNext, ignored, handled⟩
    simp only [doSignal, default, byDefault]
    split_ifs <;> simp_all

/-- With a handler the task is back in its program, with `sa_mask` added to its mask. -/
theorem Task.retFromSysCall_of_handles (regs : Registers) {signr : UInt32}
    (handled : task.Handles signr) :
    (task.retFromSysCall regs).blocked = task.blocked ||| (task.sigaction signr).saMask ∧
      (task.retFromSysCall regs).signal = task.signal &&& ~~~sigBit signr ∧
      (∀ other ≠ signr, (task.retFromSysCall regs).sigaction other = task.sigaction other) ∧
      ∃ regs', (task.retFromSysCall regs).mode = .user regs' := by
  obtain ⟨isNext, notIgnored, notDefault⟩ := handled
  rw [retFromSysCall, isNext]
  simp only [doSignal, if_neg notIgnored, if_neg notDefault, invoke]
  refine ⟨trivial, trivial, fun other differs => ?_, _, rfl⟩
  split
  · exact Function.update_of_ne differs _ _
  · rfl

/-- A `SIGKILL` that is not blocked is taken, unless another signal is in front of it. -/
theorem sigKill_of_next_eq_none (clean : Blockable task.blocked) (isNext : task.next = none) :
    task.signal &&& sigBit sigKill = 0 := by
  have found := lowest_eq_none_iff.mp isNext sigKill (by decide)
  rwa [UInt32.and_comm (~~~task.blocked), UInt32.and_assoc,
    not_and_of_and_eq_zero clean.sigKill] at found

theorem Guarded.not_handles_sigKill (guarded : Guarded task) : ¬task.Handles sigKill :=
  fun handled => handled.2.2 guarded.handler

/-- A `SIGKILL` behind another signal is still pending when the handler runs. -/
theorem Task.sigKill_of_handles {regs : Registers} {signr : UInt32} (guarded : Guarded task)
    (handled : task.Handles signr) :
    (task.retFromSysCall regs).signal &&& sigBit sigKill = task.signal &&& sigBit sigKill := by
  rw [(retFromSysCall_of_handles regs handled).2.1]
  have other : signr ≠ sigKill := fun same => guarded.not_handles_sigKill (same ▸ handled)
  exact sigKill_of_taken (mem_signals_of_lowest handled.1) other

/-! ## One step -/

/-- Behind a system call or an interrupt the task is in the kernel, so only the mask and the
handler of `SIGKILL` count. -/
theorem guarded_of_kernel {regs : Registers} (mode : after.mode = .kernel regs)
    (blocked : Blockable after.blocked) (handler : (after.sigaction sigKill).saHandler = sigDfl) :
    Guarded after where
  blocked := blocked
  taken regs' isUser := by
    rw [mode] at isUser
    cases isUser
  handler := handler

theorem Guarded.sysSigsuspend (guarded : Guarded task) {regs : Registers}
    (allowed : Blockable regs.suspendMask) : Guarded (task.sysSigsuspend regs) := by
  unfold Registers.suspendMask at allowed
  rw [Task.sysSigsuspend]
  split
  · rename_i restart
    rw [if_pos restart] at allowed
    exact guarded_of_kernel rfl allowed guarded.handler
  · rename_i notRestart
    rw [if_neg notRestart] at allowed
    exact guarded_of_kernel rfl allowed guarded.handler

theorem Guarded.sysSigaction (guarded : Guarded task) (regs : Registers) :
    Guarded (task.sysSigaction regs) := by
  rw [Task.sysSigaction]
  split
  · exact guarded_of_kernel rfl guarded.blocked guarded.handler
  · rename_i accepted
    have other : sigKill ≠ regs.ebx := fun same =>
      accepted (.inr (.inr (.inl same.symm)))
    refine guarded_of_kernel rfl guarded.blocked ?_
    simp [Task.returns, Function.update_of_ne other, guarded.handler]

theorem Guarded.retFromSysCall (guarded : Guarded task) {regs : Registers}
    (allowed : ∀ signr, task.Handles signr →
      Blockable (task.sigaction signr).saMask ∧ task.signal &&& sigBit sigKill = 0) :
    Guarded (task.retFromSysCall regs) := by
  cases isNext : task.next with
  | none =>
      rw [Task.retFromSysCall, isNext]
      exact ⟨⟨guarded.blocked, fun _ _ => sigKill_of_next_eq_none guarded.blocked isNext⟩,
        guarded.handler⟩
  | some signr =>
      by_cases handled : task.Handles signr
      · obtain ⟨blocked, -, others, -⟩ := Task.retFromSysCall_of_handles regs handled
        have other : sigKill ≠ signr := fun same =>
          guarded.not_handles_sigKill (same ▸ handled)
        refine ⟨⟨?_, fun _ _ => ?_⟩, ?_⟩
        · rw [blocked]
          exact blockable_or_iff.mpr ⟨guarded.blocked, (allowed signr handled).1⟩
        · rw [Task.sigKill_of_handles guarded handled]
          exact (allowed signr handled).2
        · rw [others sigKill other]
          exact guarded.handler
      · obtain ⟨blocked, actions, notUser⟩ :=
          Task.retFromSysCall_of_not_handles regs isNext handled
        refine ⟨⟨?_, fun regs' isUser => absurd isUser (notUser regs')⟩, ?_⟩
        · rw [blocked]
          exact guarded.blocked
        · rw [actions]
          exact guarded.handler

/-- An allowed step keeps the promise and what it rests on. -/
theorem Guarded.step (guarded : Guarded task) (allowed : MaskAllowed task action)
    (taken : step task action = some after) : Guarded after := by
  have allowed := allowed (by rw [taken]; rfl)
  cases action with
  | ssetmask regs =>
      cases mode : task.mode <;> simp only [Signal.step, mode] at taken <;> cases taken
      exact guarded_of_kernel rfl (blockable_filtered regs.ebx) guarded.handler
  | sigsuspend regs =>
      cases mode : task.mode <;> simp only [Signal.step, mode] at taken <;> cases taken
      exact guarded.sysSigsuspend allowed
  | sigaction regs =>
      cases mode : task.mode <;> simp only [Signal.step, mode] at taken <;> cases taken
      exact guarded.sysSigaction regs
  | enter regs =>
      cases mode : task.mode <;> simp only [Signal.step, mode] at taken <;> cases taken
      exact guarded_of_kernel rfl guarded.blocked guarded.handler
  | compute memory =>
      cases mode : task.mode <;> simp only [Signal.step, mode] at taken <;> cases taken
      exact ⟨⟨guarded.blocked, fun _ _ => guarded.taken _ mode⟩, guarded.handler⟩
  | elsewhere signal state =>
      cases mode : task.mode <;> simp only [Signal.step, mode] at taken <;> cases taken
      exact guarded_of_kernel rfl guarded.blocked guarded.handler
  | ret =>
      cases mode : task.mode <;> simp only [Signal.step, mode] at taken
      case kernel regs =>
        split at taken
        · cases taken
          exact guarded.retFromSysCall allowed
        · cases taken
      all_goals cases taken

/-- A step that is not allowed installs a mask with one of the bits, or returns to the program
with a `SIGKILL` pending. -/
theorem Guarded.maskAllowed (guarded : Guarded task) (keeps : KeepsKillable task action) :
    MaskAllowed task action := by
  intro enabled
  obtain ⟨after, taken⟩ := Option.isSome_iff_exists.mp enabled
  have killable := keeps after taken
  cases action with
  | sigsuspend regs =>
      cases mode : task.mode <;> simp only [Signal.step, mode] at taken <;> cases taken
      have blocked := killable.blocked
      simp only [Registers.suspendMask]
      rw [Task.sysSigsuspend] at blocked
      split_ifs at blocked ⊢
      · exact blocked
      · exact blocked
  | ret =>
      intro signr handled
      cases mode : task.mode <;> simp only [Signal.step, mode] at taken
      case kernel regs =>
        split at taken
        · cases taken
          obtain ⟨blocked, -, -, regs', isUser⟩ :=
            Task.retFromSysCall_of_handles regs handled
          have clean := killable.blocked
          rw [blocked] at clean
          refine ⟨(blockable_or_iff.mp clean).2, ?_⟩
          rw [← Task.sigKill_of_handles guarded handled]
          exact killable.taken regs' isUser
        · cases taken
      all_goals cases taken
  | _ => trivial

/-! ## Whole runs -/

/-- In a run of a task that starts with a blockable mask and without a handler for `SIGKILL`,
`SIGKILL` and `SIGSTOP` are never blocked and every return to the program takes a pending
`SIGKILL`, exactly when every step of the run is allowed. -/
theorem killable_iff_maskAllowed (task : Task) (guarded : Guarded task)
    (actions : List Action) :
    Lib.EveryStep step KeepsKillable task actions ↔
      Lib.EveryStep step MaskAllowed task actions :=
  Lib.everyStep_iff Guarded
    (fun _ _ guarded _ => ⟨guarded.maskAllowed, fun allowed _ taken =>
      (guarded.step allowed taken).toKillable⟩)
    (fun _ _ _ guarded _ allowed taken => guarded.step allowed taken) guarded
    (Lib.everyStep_of_forall (fun _ _ => trivial) task actions)

/-- A task without handlers and with an empty mask. -/
def init : Task where
  state := .running
  signal := 0
  sigaction _ := ⟨0, 0, 0, 0⟩
  blocked := 0
  exitCode := 0
  parentSignal := 0
  parentChldFlags := 0
  memory _ := 0
  mode := .user ⟨0, 0, 0, 0, 0, 0, 0, 0⟩

theorem guarded_init : Guarded init where
  blocked := by decide
  taken _ _ := by decide
  handler := rfl

/-- The restart form of `sys_sigsuspend`, with the bit of `SIGKILL` as the old mask. -/
def restartWithKill : List Action := [.sigsuspend ⟨1, sigBit sigKill, 0, 0, 0, 0, 0, 0⟩]

theorem killable_iff_maskAllowed_init :
    Lib.EveryStep step KeepsKillable init restartWithKill ↔
      Lib.EveryStep step MaskAllowed init restartWithKill :=
  killable_iff_maskAllowed init guarded_init restartWithKill

/-- `sys_sigsuspend(1, 0x100, 0)` blocks `SIGKILL`. -/
theorem sigsuspend_blocks_sigKill :
    ¬∀ actions : List Action, Lib.EveryStep step KeepsKillable init actions := by
  intro always
  have killable := (always restartWithKill).1 _ rfl
  have blocked : sigBit sigKill &&& ~~~blockable = 0 := killable.blocked
  exact absurd blocked (by decide)

end Linux012.Kernel.Signal
