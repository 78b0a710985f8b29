import Linux012.Kernel.Signal

/-!
# The restart of a system call

A system call that a signal interrupted returns `-ERESTARTSYS` or `-ERESTARTNOINTR`, and
`ret_from_sys_call` gives the pending signals to `do_signal`, lowest number first, until one
has a handler or none is left.  The first of them decides what the program sees of the call.
-/

namespace Linux012.Kernel.Signal

/-- The entries of `sys_call_table`. -/
abbrev nrSyscalls : UInt32 := 30

/-- How the passes of `ret_from_sys_call` end. -/
inductive Ending where
  /-- The program goes on where it was. -/
  | resumes (regs : Registers)
  /-- A handler runs; it returns to the registers that are on its stack. -/
  | handles (signr : UInt32) (context : Registers)
  /-- `do_exit(code)`. -/
  | exits (code : UInt32)
  deriving DecidableEq, Repr

namespace Task

/-- The task when the bit of the signal is taken out of `signal`. -/
def taken (task : Task) (signr : UInt32) : Task :=
  { task with signal := task.signal &&& ~~~sigBit signr }

/-- `ret_from_sys_call` with its jumps back to `2:`, for at most `left` passes. -/
def ending : (left : Nat) → Task → Registers → Option Ending
  | 0, _, _ => none
  | left + 1, task, regs =>
      match task.next with
      | none => some (.resumes regs)
      | some signr =>
          match (task.taken signr).doSignal signr regs with
          | (task, regs, .more) => ending left { task with mode := .kernel regs } regs
          | (_, _, .handler) =>
              some (.handles signr (restartCall (task.sigaction signr).saFlags signr regs))
          | (_, _, .exits code) => some (.exits code)

/-- The same passes, as steps of the task. -/
def passes : (left : Nat) → Task → Task
  | 0, task => task
  | left + 1, task =>
      match task.mode with
      | .kernel regs => passes left (task.retFromSysCall regs)
      | _ => task

end Task

/-! ## What is promised -/

/-- The call is executed again, or it has failed with `EINTR`. -/
def Resumed (regs context : Registers) : Prop :=
  context.eax = regs.origEax ∧ context.eip = regs.eip - 2 ∨
    context.eax = -eIntr ∧ context.eip = regs.eip

/-- What becomes of a signal. -/
inductive Fate where
  | ignored
  | stops
  | handled
  | exits
  deriving DecidableEq, Repr

/-- The disposition of the signal. -/
def Task.fate (task : Task) (signr : UInt32) : Fate :=
  if (task.sigaction signr).saHandler = sigIgn then .ignored
  else if (task.sigaction signr).saHandler = sigDfl then
    if signr = sigCont ∨ signr = sigChld then .ignored
    else if signr = sigStop ∨ signr = sigTstp ∨ signr = sigTtin ∨ signr = sigTtou then .stops
    else .exits
  else .handled

/-- The promise for a call that returned with these registers: the program sees it executed
again or `EINTR`; it sees `EINTR` only behind a handler, and then the signal that made it so
is not ignored. -/
def Restarts (task : Task) (regs : Registers) : Ending → Prop
  | .resumes context => Resumed regs context ∧ context.eax ≠ -eIntr
  | .handles _ context => Resumed regs context ∧
      (context.eax = -eIntr → ∀ signr, task.next = some signr → task.fate signr ≠ .ignored)
  | .exits _ => True

/-- A call that a signal has interrupted. -/
structure Interrupted (task : Task) (regs : Registers) : Prop where
  call : regs.origEax < nrSyscalls
  result : regs.eax = -eRestartSys ∨ regs.eax = -eRestartNoIntr
  pending : task.next ≠ none

/-- `do_signal` makes `EINTR` of the result. -/
def Fails (task : Task) (regs : Registers) (signr : UInt32) : Prop :=
  regs.eax = -eRestartSys ∧
    ((task.sigaction signr).saFlags &&& saInterrupt ≠ 0 ∨ signr < sigCont ∨ signr > sigTtou)

instance (task : Task) (regs : Registers) (signr : UInt32) : Decidable (Fails task regs signr) :=
  inferInstanceAs (Decidable (_ ∧ _))

/-- The pending signals that are not blocked. -/
def Task.pending (task : Task) : List UInt32 :=
  signals.filter fun signr => (~~~task.blocked &&& task.signal) &&& sigBit signr ≠ 0

/-- The first signal that has a handler or ends the task. -/
def Task.decisive (task : Task) : Option UInt32 :=
  task.pending.find? fun signr => task.fate signr = .handled ∨ task.fate signr = .exits

/-- The condition: where the first signal makes the call fail, it has a handler or ends the
task; or it is ignored, and another signal ends the task first; or it stops the task, and
another has a handler or ends the task. -/
def FailsOnlyHandled (task : Task) (regs : Registers) : Prop :=
  ∀ signr, task.next = some signr → Fails task regs signr →
    match task.fate signr with
    | .handled | .exits => True
    | .ignored => ∃ other, task.decisive = some other ∧ task.fate other = .exits
    | .stops => ∃ other, task.decisive = some other

/-! ## The pending signals -/

variable {task : Task} {regs : Registers} {signr : UInt32} {rest : List UInt32}

theorem Task.next_eq_head? (task : Task) : task.next = task.pending.head? := by
  rw [Task.next, lowest, Task.pending, List.head?_filter]

theorem nodup_signals : signals.Nodup := by decide

theorem sigBit_taken {signr other : UInt32} (isSignal : signr ∈ signals)
    (isOther : other ∈ signals) :
    ~~~sigBit signr &&& sigBit other = if other = signr then 0 else sigBit other := by
  have all : signals.all (fun signr => signals.all fun other =>
      ~~~sigBit signr &&& sigBit other == if other = signr then 0 else sigBit other) = true := by
    decide +kernel
  exact beq_iff_eq.mp (List.all_eq_true.mp (List.all_eq_true.mp all signr isSignal) other isOther)

/-- The signal that is taken is the first of the pending ones. -/
theorem Task.pending_taken (isPending : task.pending = signr :: rest) :
    (task.taken signr).pending = rest := by
  have isSignal : signr ∈ signals := by
    apply List.mem_of_mem_filter (p := fun signr =>
      (~~~task.blocked &&& task.signal) &&& sigBit signr ≠ 0)
    have member : signr ∈ task.pending := isPending ▸ List.mem_cons_self
    exact member
  have distinct : (signr :: rest).Nodup := by
    rw [← isPending]
    exact nodup_signals.filter _
  have without : (task.taken signr).pending = task.pending.filter fun other => other ≠ signr := by
    rw [Task.pending, Task.pending, List.filter_filter]
    apply List.filter_congr
    intro other isOther
    have word : (~~~task.blocked &&& (task.signal &&& ~~~sigBit signr)) &&& sigBit other =
        if other = signr then 0 else (~~~task.blocked &&& task.signal) &&& sigBit other := by
      rw [← UInt32.and_assoc, UInt32.and_assoc, sigBit_taken isSignal isOther]
      split
      · exact UInt32.and_zero
      · rfl
    simp only [taken, word]
    by_cases same : other = signr
    · simp [same]
    · simp [same]
  rw [without, isPending, List.filter_cons_of_neg (by simp)]
  apply List.filter_eq_self.mpr
  intro other member
  have differs : other ≠ signr := fun same =>
    (List.nodup_cons.mp distinct).1 (same ▸ member)
  exact decide_eq_true differs

theorem Task.next_of_pending (isPending : task.pending = signr :: rest) :
    task.next = some signr := by
  rw [next_eq_head?, isPending]
  rfl

theorem Task.next_of_pending_nil (isPending : task.pending = []) : task.next = none := by
  rw [next_eq_head?, isPending]
  rfl

/-! ## One pass -/

/-- The dispositions and the mask are as before. -/
def Task.Same (task other : Task) : Prop :=
  task.sigaction = other.sigaction ∧ task.blocked = other.blocked ∧ task.signal = other.signal

theorem Task.Same.pending_eq {other : Task} (same : task.Same other) :
    task.pending = other.pending := by
  rw [pending, pending, same.2.1, same.2.2]

theorem Task.Same.fate_eq {other : Task} (same : task.Same other) (signr : UInt32) :
    task.fate signr = other.fate signr := by
  rw [fate, fate, same.1]

/-- What `do_signal` does with a signal, by its fate. -/
theorem Task.doSignal_of_fate (task : Task) (signr : UInt32) (regs : Registers) :
    match task.fate signr with
    | .ignored | .stops => ∃ next : Task, next.Same task ∧ task.doSignal signr regs =
        (next, restartCall (task.sigaction signr).saFlags signr regs, .more)
    | .handled => task.doSignal signr regs =
        let entered := task.invoke (task.sigaction signr) signr
          (restartCall (task.sigaction signr).saFlags signr regs)
        (entered.1, entered.2, .handler)
    | .exits => ∃ next left code, task.doSignal signr regs = (next, left, .exits code) := by
  rw [fate, doSignal]
  by_cases ignored : (task.sigaction signr).saHandler = sigIgn
  · simp only [if_pos ignored]
    exact ⟨task, ⟨rfl, rfl, rfl⟩, rfl⟩
  · simp only [if_neg ignored]
    by_cases default : (task.sigaction signr).saHandler = sigDfl
    · simp only [if_pos default, byDefault]
      by_cases drops : signr = sigCont ∨ signr = sigChld
      · simp only [if_pos drops]
        exact ⟨task, ⟨rfl, rfl, rfl⟩, rfl⟩
      · simp only [if_neg drops]
        by_cases stops :
            signr = sigStop ∨ signr = sigTstp ∨ signr = sigTtin ∨ signr = sigTtou
        · simp only [if_pos stops]
          refine ⟨_, ?_, rfl⟩
          exact ⟨rfl, rfl, rfl⟩
        · simp only [if_neg stops]
          exact ⟨_, _, _, rfl⟩
    · simp only [if_neg default]

/-- `do_signal` leaves the result alone when another signal has been taken. -/
def Settled (regs : Registers) : Prop :=
  regs.eax ≠ -eRestartSys ∧ regs.eax ≠ -eRestartNoIntr

theorem restartCall_of_settled {saFlags : UInt32} (settled : Settled regs) :
    restartCall saFlags signr regs = regs :=
  if_neg fun interrupted => interrupted.2.elim settled.1 settled.2

/-- The first signal makes the call fail or has it executed again. -/
theorem Interrupted.restartCall_eq (interrupted : Interrupted task regs) (signr : UInt32) :
    restartCall (task.sigaction signr).saFlags signr regs =
      if Fails task regs signr then { regs with eax := -eIntr }
      else { regs with eax := regs.origEax, eip := regs.eip - 2 } := by
  have isCall : regs.origEax ≠ -1 := by
    intro same
    have below := interrupted.call
    rw [same] at below
    exact absurd below (by decide)
  rw [restartCall, if_pos ⟨isCall, interrupted.result⟩]
  rfl

theorem Interrupted.settled (interrupted : Interrupted task regs) (signr : UInt32) :
    Settled (restartCall (task.sigaction signr).saFlags signr regs) := by
  rw [interrupted.restartCall_eq]
  split
  · have fails : (-eIntr : UInt32) ≠ -eRestartSys ∧ (-eIntr : UInt32) ≠ -eRestartNoIntr := by
      decide
    exact fails
  · constructor
    · intro same
      have below := interrupted.call
      have same : regs.origEax = -eRestartSys := same
      rw [same] at below
      exact absurd below (by decide)
    · intro same
      have below := interrupted.call
      have same : regs.origEax = -eRestartNoIntr := same
      rw [same] at below
      exact absurd below (by decide)

/-! ## All passes -/

/-- The signal is taken, and the passes go on. -/
theorem Task.ending_of_more {left : Nat} {after : Registers}
    (isPending : task.pending = signr :: rest)
    (more : ∃ next : Task, next.Same (task.taken signr) ∧
      (task.taken signr).doSignal signr regs = (next, after, .more)) :
    ∃ next : Task, next.Same (task.taken signr) ∧
      task.ending (left + 1) regs = next.ending left after := by
  obtain ⟨next, same, more⟩ := more
  refine ⟨{ next with mode := .kernel after }, same, ?_⟩
  simp only [ending, next_of_pending isPending, more]

theorem Task.decisive_cons_of_not {next : Task} (isPending : task.pending = signr :: rest)
    (notDecisive : ¬(task.fate signr = .handled ∨ task.fate signr = .exits))
    (same : next.Same (task.taken signr)) : task.decisive = next.decisive := by
  have fates (other : UInt32) : next.fate other = task.fate other := same.fate_eq other
  simp only [decisive, fates]
  rw [same.pending_eq, pending_taken isPending, isPending,
    List.find?_cons_of_neg (by simpa using not_or.mp notDecisive)]

theorem Task.decisive_cons (isPending : task.pending = signr :: rest)
    (isDecisive : task.fate signr = .handled ∨ task.fate signr = .exits) :
    task.decisive = some signr := by
  rw [decisive, isPending, List.find?_cons_of_pos (by simpa)]

/-- How the passes end for a result that is settled, given the first signal that decides. -/
def endingOf (task : Task) (regs : Registers) : Option UInt32 → Ending → Prop
  | none, ending => ending = .resumes regs
  | some signr, ending =>
      if task.fate signr = .handled then ending = .handles signr regs
      else ∃ code, ending = .exits code

theorem endingOf_congr {next : Task} (fates : ∀ other, next.fate other = task.fate other)
    (decisive : Option UInt32) (ending : Ending) :
    endingOf next regs decisive ending ↔ endingOf task regs decisive ending := by
  cases decisive with
  | none => exact Iff.rfl
  | some signr => simp only [endingOf, fates]

/-- When the result is settled the other signals decide how the passes end. -/
theorem ending_of_settled (settled : Settled regs) {left : Nat}
    (enough : task.pending.length < left) :
    ∃ ending, task.ending left regs = some ending ∧ endingOf task regs task.decisive ending := by
  generalize isPending : task.pending = pending at enough
  induction pending generalizing task left with
  | nil =>
      obtain ⟨left, rfl⟩ := Nat.exists_eq_add_one.mpr enough
      have noDecisive : task.decisive = none := by
        rw [Task.decisive, isPending]
        rfl
      rw [noDecisive]
      exact ⟨_, by rw [Task.ending, Task.next_of_pending_nil isPending], rfl⟩
  | cons signr rest ih =>
      obtain ⟨left, rfl⟩ := Nat.exists_eq_add_one.mpr (Nat.zero_lt_of_lt enough)
      have fates : (task.taken signr).fate signr = task.fate signr := rfl
      have done := (task.taken signr).doSignal_of_fate signr regs
      rw [restartCall_of_settled settled, fates] at done
      have goesOn (notDecisive : ¬(task.fate signr = .handled ∨ task.fate signr = .exits))
          (more : ∃ next : Task, next.Same (task.taken signr) ∧
            (task.taken signr).doSignal signr regs = (next, regs, .more)) :
          ∃ ending, task.ending (left + 1) regs = some ending ∧
            endingOf task regs task.decisive ending := by
        obtain ⟨next, same, more⟩ := Task.ending_of_more isPending more
        have nextPending : next.pending = rest :=
          same.pending_eq.trans (Task.pending_taken isPending)
        rw [more, Task.decisive_cons_of_not isPending notDecisive same]
        obtain ⟨ending, isEnding, isOf⟩ := ih nextPending (Nat.lt_of_succ_lt_succ enough)
        have same (other : UInt32) : next.fate other = task.fate other := same.fate_eq other
        exact ⟨ending, isEnding, (endingOf_congr same next.decisive ending).mp isOf⟩
      cases isFate : task.fate signr with
      | ignored =>
          rw [isFate] at done
          exact goesOn (by simp [isFate]) done
      | stops =>
          rw [isFate] at done
          exact goesOn (by simp [isFate]) done
      | handled =>
          rw [isFate] at done
          rw [Task.decisive_cons isPending (.inl isFate)]
          refine ⟨.handles signr regs, ?_, ?_⟩
          · simp only [Task.ending, Task.next_of_pending isPending, done,
              restartCall_of_settled settled]
          · rw [endingOf, if_pos isFate]
      | exits =>
          rw [isFate] at done
          obtain ⟨next, after, code, done⟩ := done
          rw [Task.decisive_cons isPending (.inr isFate)]
          refine ⟨.exits code, ?_, ?_⟩
          · simp only [Task.ending, Task.next_of_pending isPending, done]
          · rw [endingOf, if_neg (by simp [isFate])]
            exact ⟨code, rfl⟩

/-! ## What the program sees -/

theorem Interrupted.resumed (interrupted : Interrupted task regs) (signr : UInt32) :
    Resumed regs (restartCall (task.sigaction signr).saFlags signr regs) := by
  rw [interrupted.restartCall_eq]
  split
  · exact .inr ⟨rfl, rfl⟩
  · exact .inl ⟨rfl, rfl⟩

theorem Interrupted.eax_eq_iff (interrupted : Interrupted task regs) (signr : UInt32) :
    (restartCall (task.sigaction signr).saFlags signr regs).eax = -eIntr ↔
      Fails task regs signr := by
  rw [interrupted.restartCall_eq]
  split
  next fails => exact ⟨fun _ => fails, fun _ => rfl⟩
  next restarts =>
    refine ⟨fun same => ?_, fun fails => absurd fails restarts⟩
    have below := interrupted.call
    have same : regs.origEax = -eIntr := same
    rw [same] at below
    exact absurd below (by decide)

/-- A signal that neither has a handler nor ends the task: what the program sees depends on
the signal that decides. -/
theorem Interrupted.restarts_iff (interrupted : Interrupted task regs) {ending : Ending}
    (isNext : task.next = some signr) (fate : task.fate signr = .ignored ∨
      task.fate signr = .stops)
    (isEnding : endingOf task (restartCall (task.sigaction signr).saFlags signr regs)
      task.decisive ending) :
    Restarts task regs ending ↔ FailsOnlyHandled task regs := by
  have fails := interrupted.eax_eq_iff signr
  have resumed := interrupted.resumed signr
  have condition : FailsOnlyHandled task regs ↔ (Fails task regs signr →
      match task.fate signr with
      | .handled | .exits => True
      | .ignored => ∃ other, task.decisive = some other ∧ task.fate other = .exits
      | .stops => ∃ other, task.decisive = some other) := by
    constructor
    · exact fun only => only signr isNext
    · intro only other isOther
      cases isNext.symm.trans isOther
      exact only
  rw [condition]
  cases isDecisive : task.decisive with
  | none =>
      rw [isDecisive] at isEnding
      cases isEnding
      rw [Restarts, ne_eq, fails]
      rcases fate with ignored | stops
      · simp [ignored, resumed]
      · simp [stops, resumed]
  | some other =>
      rw [isDecisive, endingOf] at isEnding
      split at isEnding
      next handled =>
        cases isEnding
        rw [Restarts, fails]
        rcases fate with ignored | stops
        · simp [ignored, handled, isNext, resumed]
        · simp [stops, isNext, resumed]
      next notHandled =>
        obtain ⟨code, rfl⟩ := isEnding
        have exits : task.fate other = .exits := by
          have decides := List.find?_some isDecisive
          exact (of_decide_eq_true decides).resolve_left notHandled
        rw [Restarts]
        rcases fate with ignored | stops
        · simp [ignored, exits]
        · simp [stops]

theorem Task.pending_length_le (task : Task) : task.pending.length ≤ 32 :=
  (List.length_filter_le _ signals).trans (by decide)

/-- The passes come to an end, and the promise holds exactly on the condition. -/
theorem restarts_iff_failsOnlyHandled (task : Task) (regs : Registers)
    (interrupted : Interrupted task regs) :
    (∃ ending, task.ending 33 regs = some ending ∧ Restarts task regs ending) ↔
      FailsOnlyHandled task regs := by
  obtain ⟨signr, isNext⟩ := Option.ne_none_iff_exists'.mp interrupted.pending
  obtain ⟨rest, isPending⟩ : ∃ rest, task.pending = signr :: rest := by
    rw [Task.next_eq_head?] at isNext
    exact List.head?_eq_some_iff.mp isNext
  have enough : rest.length < 32 := by
    have atMost := task.pending_length_le
    rw [isPending] at atMost
    exact atMost
  have settled := interrupted.settled signr
  have done := (task.taken signr).doSignal_of_fate signr regs
  have sameFate : (task.taken signr).fate signr = task.fate signr := rfl
  rw [sameFate] at done
  have goesOn (fate : task.fate signr = .ignored ∨ task.fate signr = .stops)
      (more : ∃ next : Task, next.Same (task.taken signr) ∧ (task.taken signr).doSignal signr regs =
        (next, restartCall (task.sigaction signr).saFlags signr regs, .more)) :
      (∃ ending, task.ending 33 regs = some ending ∧ Restarts task regs ending) ↔
        FailsOnlyHandled task regs := by
    obtain ⟨next, same, more⟩ := Task.ending_of_more isPending more
    have fates (other : UInt32) : next.fate other = task.fate other := same.fate_eq other
    have notDecisive : ¬(task.fate signr = .handled ∨ task.fate signr = .exits) := by
      rcases fate with isFate | isFate
      · simp [isFate]
      · simp [isFate]
    have shorter : next.pending.length < 32 := by
      rw [same.pending_eq, Task.pending_taken isPending]
      exact enough
    obtain ⟨ending, isEnding, isOf⟩ := ending_of_settled settled shorter
    rw [← Task.decisive_cons_of_not isPending notDecisive same, endingOf_congr fates] at isOf
    rw [← interrupted.restarts_iff isNext fate isOf, more, isEnding]
    simp only [Option.some.injEq, exists_eq_left']
  have condition (met : ∀ signr, task.next = some signr → Fails task regs signr →
      task.fate signr = .handled ∨ task.fate signr = .exits) : FailsOnlyHandled task regs := by
    intro other isOther fails
    rcases met other isOther fails with isFate | isFate
    · simp only [isFate]
    · simp only [isFate]
  cases isFate : task.fate signr with
  | ignored =>
      rw [isFate] at done
      exact goesOn (.inl isFate) done
  | stops =>
      rw [isFate] at done
      exact goesOn (.inr isFate) done
  | handled =>
      rw [isFate] at done
      have restarts : Restarts task regs
          (.handles signr (restartCall (task.sigaction signr).saFlags signr regs)) := by
        refine ⟨interrupted.resumed signr, fun _ other isOther => ?_⟩
        cases isNext.symm.trans isOther
        simp [isFate]
      refine iff_of_true ⟨_, ?_, restarts⟩ (condition fun other isOther _ => ?_)
      · simp only [Task.ending, isNext, done]
      · cases isNext.symm.trans isOther
        exact .inl isFate
  | exits =>
      rw [isFate] at done
      obtain ⟨next, after, code, done⟩ := done
      refine iff_of_true ⟨.exits code, ?_, trivial⟩ (condition fun other isOther _ => ?_)
      · simp only [Task.ending, isNext, done]
      · cases isNext.symm.trans isOther
        exact .inr isFate

theorem Task.passes_of_not_kernel (notKernel : ∀ regs, task.mode ≠ .kernel regs) (left : Nat) :
    task.passes left = task := by
  cases left with
  | zero => rfl
  | succ left =>
      rw [passes]
      split
      next regs isKernel => exact absurd isKernel (notKernel regs)
      next => rfl

theorem Task.retFromSysCall_of_next_eq_none (regs : Registers) (isNext : task.next = none) :
    task.retFromSysCall regs = { task with mode := .user regs } := by
  simp only [retFromSysCall, isNext]

theorem Task.retFromSysCall_of_doSignal {next : Task} {after : Registers} {outcome : Outcome}
    (isNext : task.next = some signr)
    (done : (task.taken signr).doSignal signr regs = (next, after, outcome)) :
    task.retFromSysCall regs = { next with mode :=
      match outcome with
      | .more => .kernel after
      | .handler => .user after
      | .exits code => .exited code } := by
  rw [taken] at done
  simp only [retFromSysCall, isNext, done]
  cases outcome with
  | more => rfl
  | handler => rfl
  | exits code => rfl

/-- The task is back in its program with these registers, in a handler with the context on its
stack, or has exited. -/
def Task.HasEnded (task : Task) : Ending → Prop
  | .resumes context => task.mode = .user context
  | .handles signr context => ∃ before : Task,
      task.mode = .user (before.invoke (before.sigaction signr) signr context).2 ∧
        task.memory = (before.invoke (before.sigaction signr) signr context).1.memory
  | .exits code => task.mode = .exited code

/-- The passes are the steps of the task. -/
theorem Task.passes_of_ending {left : Nat} {ending : Ending} (isKernel : task.mode = .kernel regs)
    (isEnding : task.ending left regs = some ending) : (task.passes left).HasEnded ending := by
  induction left generalizing task regs with
  | zero => cases isEnding
  | succ left ih =>
      simp only [passes, isKernel]
      rw [Task.ending] at isEnding
      cases isNext : task.next with
      | none =>
          simp only [isNext, Option.some.injEq] at isEnding
          cases isEnding
          rw [retFromSysCall_of_next_eq_none regs isNext]
          rw [passes_of_not_kernel (by simp)]
          rfl
      | some signr =>
          simp only [isNext] at isEnding
          have done := (task.taken signr).doSignal_of_fate signr regs
          have sameFate : (task.taken signr).fate signr = task.fate signr := rfl
          rw [sameFate] at done
          have goesOn (more : ∃ next : Task, next.Same (task.taken signr) ∧
              (task.taken signr).doSignal signr regs =
                (next, restartCall (task.sigaction signr).saFlags signr regs, .more)) :
              ((task.retFromSysCall regs).passes left).HasEnded ending := by
            obtain ⟨next, -, more⟩ := more
            rw [more] at isEnding
            rw [retFromSysCall_of_doSignal isNext more]
            exact ih rfl isEnding
          cases isFate : task.fate signr with
          | ignored =>
              rw [isFate] at done
              exact goesOn done
          | stops =>
              rw [isFate] at done
              exact goesOn done
          | handled =>
              rw [isFate] at done
              rw [done] at isEnding
              cases isEnding
              rw [retFromSysCall_of_doSignal isNext done, passes_of_not_kernel (by simp)]
              exact ⟨task.taken signr, rfl, rfl⟩
          | exits =>
              rw [isFate] at done
              obtain ⟨next, after, code, done⟩ := done
              rw [done] at isEnding
              cases isEnding
              rw [retFromSysCall_of_doSignal isNext done, passes_of_not_kernel (by simp)]
              rfl

/-! ## An ignored signal -/

/-- A child has ended, and `SIGCHLD` has its default action. -/
def childEnded : Task := { init with signal := sigBit sigChld }

/-- `sys_waitpid` returned `-ERESTARTSYS`. -/
def interruptedCall : Registers := ⟨0, 0, 0, -eRestartSys, 28, 100, 0, 0⟩

theorem interrupted_childEnded : Interrupted childEnded interruptedCall :=
  ⟨by decide, .inl rfl, by decide⟩

/-- The call fails with `EINTR` though no handler has run. -/
theorem not_restarts_childEnded : ¬∀ task regs, Interrupted task regs →
    ∃ ending, task.ending 33 regs = some ending ∧ Restarts task regs ending := by
  intro always
  obtain ⟨ending, isEnding, restarts⟩ := always childEnded interruptedCall interrupted_childEnded
  have resumes : childEnded.ending 33 interruptedCall =
      some (.resumes { interruptedCall with eax := -eIntr }) := by decide
  cases resumes.symm.trans isEnding
  exact restarts.2 rfl

/-- The same signal with a handler. -/
def childHandled : Task :=
  { childEnded with sigaction := fun _ => ⟨0x1000, 0, 0, 0⟩ }

theorem restarts_iff_childHandled :
    (∃ ending, childHandled.ending 33 interruptedCall = some ending ∧
      Restarts childHandled interruptedCall ending) ↔
      FailsOnlyHandled childHandled interruptedCall :=
  restarts_iff_failsOnlyHandled childHandled interruptedCall ⟨by decide, .inl rfl, by decide⟩

end Linux012.Kernel.Signal
