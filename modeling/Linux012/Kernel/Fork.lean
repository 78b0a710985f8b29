import Mathlib.Data.Fintype.Card
import Mathlib.Logic.Function.Iterate
import Mathlib.Logic.Function.Basic
import Mathlib.Data.List.FinRange
import Mathlib.Data.Finset.Card
import Mathlib.Data.Finset.Image
import Mathlib.Data.Finset.Range
import Mathlib.Algebra.Group.Nat.Defs
import Mathlib.Algebra.Group.Int.Defs
import Linux012.Lib.Sizes

/-!
# fork

`find_empty_process` and `copy_process` of `fork.c`, called by `sys_fork` in this
order, together with the parts of `do_exit` and `release` that change `task[]`.
`copy_process` can be descheduled in `get_free_page` and in `copy_mem`, so a call
is a sequence of steps, and the steps of different calls interleave.

A `task_struct` lives in a page; `task[]` and `current` are pointers to it.  Of
the structure only the fields that this file reads are kept.
-/

namespace Linux012.Kernel

/-- `NR_TASKS`. -/
abbrev nrTasks : Nat := 64

/-- The address of the page of a `task_struct`. -/
abbrev Page := Nat

inductive TaskState where
  | running
  | interruptible
  | uninterruptible
  | zombie
  | stopped
  deriving DecidableEq, Repr

/-- The fields of `task_struct` that choosing a slot and a pid depends on. -/
structure TaskStruct where
  state : TaskState
  pid : Nat
  pgrp : Nat
  deriving DecidableEq, Repr

/-- Where a task is inside `sys_fork`. -/
inductive ForkPhase where
  /-- Not inside `sys_fork`. -/
  | outside
  /-- In `get_free_page`, called by `copy_process (nr, ..)`. -/
  | gettingPage (nr : Fin nrTasks)
  /-- In `copy_mem (nr, p)`, after `task[nr] = p`. -/
  | copyingMem (nr : Fin nrTasks) (p : Page)
  deriving DecidableEq, Repr

/-- A successful `sys_fork`: the value returned to the parent, and the pid stored
in the `task_struct` that the call filled in. -/
structure ForkReturn where
  value : Nat
  childPid : Nat
  deriving DecidableEq, Repr

/-- The process table, `last_pid`, the `task_struct` pages in use, and the
progress and results of the calls of `sys_fork`. -/
structure State where
  task : Fin nrTasks → Option Page
  lastPid : Nat
  taskStruct : Page → Option TaskStruct
  phase : Page → ForkPhase
  returns : List ForkReturn

/-- The `task_struct` in a slot of the table. -/
def State.inSlot (s : State) (i : Fin nrTasks) : Option TaskStruct :=
  (s.task i).bind s.taskStruct

/-! ## find_empty_process -/

/-- `if ((++last_pid)<0) last_pid=1`, for a 32-bit `int`. -/
def nextPid (lastPid : Nat) : Nat :=
  if lastPid + 1 < 2 ^ 31 then lastPid + 1 else 1

/-- Whether some task has the number as its pid or its process group. -/
def State.pidUsed (s : State) (pid : Nat) : Bool :=
  (List.finRange nrTasks).any fun i =>
    match s.inSlot i with
    | some p => p.pid == pid || p.pgrp == pid
    | none => false

/-- The `repeat:` loop.  It passes over at most two numbers for each task. -/
def pickPid (used : Nat → Bool) : (fuel : Nat) → (lastPid : Nat) → Nat
  | 0, lastPid => lastPid
  | fuel + 1, lastPid =>
      if used (nextPid lastPid) then pickPid used fuel (nextPid lastPid)
      else nextPid lastPid

/-- The new value of `last_pid` and the first empty slot from 1 on; `-EAGAIN` is
`none`. -/
def findEmptyProcess (s : State) : Nat × Option (Fin nrTasks) :=
  (pickPid s.pidUsed (2 * nrTasks + 1) s.lastPid,
    (List.finRange nrTasks).find? fun i => i != 0 && (s.task i).isNone)

/-! ## Steps -/

/-- A task that `schedule` can pick: it is in the table. -/
def State.scheduled (s : State) (current : Page) : Bool :=
  (List.finRange nrTasks).any fun i => s.task i == some current

/-- The steps between two points where the kernel can switch tasks.  The first
argument is `current`. -/
inductive ForkAction where
  /-- `find_empty_process`, and `copy_process` up to `get_free_page`. -/
  | findEmptyProcess (current : Page)
  /-- `get_free_page` returns 0: `-EAGAIN`. -/
  | noPage (current : Page)
  /-- `get_free_page` returns `p`; `copy_process` up to `copy_mem`. -/
  | fillSlot (current p : Page)
  /-- `copy_mem` fails: the slot and the page are given back, `-EAGAIN`. -/
  | noMem (current : Page)
  /-- `copy_mem` succeeds, and `copy_process` returns. -/
  | finish (current : Page)
  /-- `do_exit` by a task that is not inside a fork. -/
  | exit (current : Page)
  /-- `release`, called by `sys_waitpid` for a zombie. -/
  | release (i : Fin nrTasks)
  deriving DecidableEq, Repr

def setPhase (s : State) (current : Page) (phase : ForkPhase) : State :=
  { s with phase := Function.update s.phase current phase }

/-- `sys_fork` up to the call of `get_free_page`. -/
def stepFindEmptyProcess (s : State) (current : Page) : Option State :=
  if s.scheduled current ∧ s.phase current = .outside ∧
      (s.taskStruct current).map TaskStruct.state = some .running then
    match findEmptyProcess s with
    | (lastPid, none) => some { s with lastPid := lastPid }
    | (lastPid, some nr) =>
        some (setPhase { s with lastPid := lastPid } current (.gettingPage nr))
  else none

/-- `copy_process` from `task[nr] = p` to `copy_mem`: the child is a copy of the
parent with the pid that `last_pid` has now. -/
def stepFillSlot (s : State) (current p : Page) : Option State :=
  match s.phase current, s.taskStruct current, s.taskStruct p with
  | .gettingPage nr, some parent, none =>
      some {
        s with
        task := Function.update s.task nr (some p)
        taskStruct := Function.update s.taskStruct p
          (some { parent with state := .uninterruptible, pid := s.lastPid })
        phase := Function.update (Function.update s.phase p .outside) current
          (.copyingMem nr p) }
  | _, _, _ => none

/-- `copy_process` after `copy_mem` succeeded; it returns `last_pid`. -/
def stepFinish (s : State) (current : Page) : Option State :=
  match s.phase current with
  | .copyingMem _ p =>
      match s.taskStruct p with
      | some child =>
          some {
            s with
            taskStruct := Function.update s.taskStruct p
              (some { child with state := .running })
            phase := Function.update s.phase current .outside
            returns := ⟨s.lastPid, child.pid⟩ :: s.returns }
      | none => none
  | _ => none

/-- `task[nr] = NULL; free_page((int) p); return -EAGAIN`. -/
def stepNoMem (s : State) (current : Page) : Option State :=
  match s.phase current with
  | .copyingMem nr p =>
      some {
        s with
        task := Function.update s.task nr none
        taskStruct := Function.update s.taskStruct p none
        phase := Function.update s.phase current .outside }
  | _ => none

def stepNoPage (s : State) (current : Page) : Option State :=
  match s.phase current with
  | .gettingPage _ => some (setPhase s current .outside)
  | _ => none

/-- `current->state = TASK_ZOMBIE`. -/
def stepExit (s : State) (current : Page) : Option State :=
  match s.phase current, s.taskStruct current with
  | .outside, some p =>
      if s.scheduled current ∧ p.state = .running then
        some { s with taskStruct :=
          Function.update s.taskStruct current (some { p with state := .zombie }) }
      else none
  | _, _ => none

/-- `release` looks for the task from slot 1 on. -/
def stepRelease (s : State) (i : Fin nrTasks) : Option State :=
  match s.task i with
  | none => none
  | some p =>
      if i ≠ 0 ∧ (s.taskStruct p).map TaskStruct.state = some .zombie then
        some {
          s with
          task := Function.update s.task i none
          taskStruct := Function.update s.taskStruct p none }
      else none

def forkStep (s : State) : ForkAction → Option State
  | .findEmptyProcess current => stepFindEmptyProcess s current
  | .noPage current => stepNoPage s current
  | .fillSlot current p => stepFillSlot s current p
  | .noMem current => stepNoMem s current
  | .finish current => stepFinish s current
  | .exit current => stepExit s current
  | .release i => stepRelease s i

/-! ## The number that is picked -/

theorem nextPid_pos (lastPid : Nat) : 0 < nextPid lastPid := by
  unfold nextPid
  split <;> omega

theorem nextPid_lt (lastPid : Nat) : nextPid lastPid < 2 ^ 31 := by
  unfold nextPid
  split <;> omega

/-- The candidates after `lastPid` go round the positive 32-bit numbers. -/
theorem iterate_nextPid (lastPid count : Nat) (bounded : lastPid < 2 ^ 31) :
    nextPid^[count + 1] lastPid = (lastPid + count) % (2 ^ 31 - 1) + 1 := by
  induction count with
  | zero =>
      simp only [Nat.zero_add, Function.iterate_one, Nat.add_zero, nextPid]
      split <;> omega
  | succ count ih =>
      rw [Function.iterate_succ_apply', ih, nextPid]
      split <;> omega

theorem pickPid_lt (used : Nat → Bool) (fuel lastPid : Nat)
    (bounded : lastPid < 2 ^ 31) : pickPid used fuel lastPid < 2 ^ 31 := by
  induction fuel generalizing lastPid with
  | zero => exact bounded
  | succ fuel ih =>
      unfold pickPid
      split
      · exact ih _ (nextPid_lt lastPid)
      · exact nextPid_lt lastPid

/-- When the search fails, all its candidates are in use. -/
theorem iterate_used_of_pickPid_used (used : Nat → Bool) (fuel lastPid : Nat)
    (found : used (pickPid used fuel lastPid) = true) :
    ∀ count < fuel, used (nextPid^[count + 1] lastPid) = true := by
  induction fuel generalizing lastPid with
  | zero => intro count impossible; omega
  | succ fuel ih =>
      unfold pickPid at found
      split at found
      next candidateUsed =>
        intro count countLt
        cases count with
        | zero => exact candidateUsed
        | succ count =>
            rw [Function.iterate_succ_apply]
            exact ih _ found count (by omega)
      next candidateFree => exact absurd found candidateFree

/-- The numbers in use: two for each slot of the table. -/
def State.usedPids (s : State) : Finset Nat :=
  (Finset.univ.image fun i => ((s.inSlot i).map TaskStruct.pid).getD 0) ∪
    Finset.univ.image fun i => ((s.inSlot i).map TaskStruct.pgrp).getD 0

theorem card_usedPids_le (s : State) : s.usedPids.card ≤ 2 * nrTasks := by
  have union := Finset.card_union_le
    (Finset.univ.image fun i => ((s.inSlot i).map TaskStruct.pid).getD 0)
    (Finset.univ.image fun i => ((s.inSlot i).map TaskStruct.pgrp).getD 0)
  have pids := Finset.card_image_le (s := Finset.univ)
    (f := fun i => ((s.inSlot i).map TaskStruct.pid).getD 0)
  have pgrps := Finset.card_image_le (s := Finset.univ)
    (f := fun i => ((s.inSlot i).map TaskStruct.pgrp).getD 0)
  simp only [Finset.card_univ, Fintype.card_fin] at pids pgrps
  unfold State.usedPids
  omega

theorem pidUsed_iff (s : State) (pid : Nat) :
    s.pidUsed pid = true ↔
      ∃ i p, s.inSlot i = some p ∧ (p.pid = pid ∨ p.pgrp = pid) := by
  simp only [State.pidUsed, List.any_eq_true, List.mem_finRange, true_and]
  constructor
  · rintro ⟨i, found⟩
    cases slot : s.inSlot i with
    | none => simp [slot] at found
    | some p => exact ⟨i, p, slot, by simpa [slot] using found⟩
  · rintro ⟨i, p, slot, found⟩
    exact ⟨i, by simpa [slot] using found⟩

theorem mem_usedPids_of_pidUsed (s : State) (pid : Nat)
    (used : s.pidUsed pid = true) : pid ∈ s.usedPids := by
  obtain ⟨i, p, slot, found⟩ := (pidUsed_iff s pid).mp used
  simp only [State.usedPids, Finset.mem_union, Finset.mem_image, Finset.mem_univ,
    true_and]
  rcases found with samePid | samePgrp
  · exact .inl ⟨i, by simp [slot, samePid]⟩
  · exact .inr ⟨i, by simp [slot, samePgrp]⟩

/-- The `repeat:` loop ends: among its `2 * NR_TASKS + 1` first candidates there is
one that no task uses. -/
theorem pickPid_unused (s : State) (bounded : s.lastPid < 2 ^ 31) :
    s.pidUsed (pickPid s.pidUsed (2 * nrTasks + 1) s.lastPid) = false := by
  by_contra found
  rw [Bool.not_eq_false] at found
  have candidates := iterate_used_of_pickPid_used _ _ _ found
  have maps : ∀ count ∈ Finset.range (2 * nrTasks + 1),
      nextPid^[count + 1] s.lastPid ∈ s.usedPids := by
    intro count membership
    exact mem_usedPids_of_pidUsed s _ (candidates count (Finset.mem_range.mp membership))
  have injective : Set.InjOn (fun count => nextPid^[count + 1] s.lastPid)
      (Finset.range (2 * nrTasks + 1)) := by
    intro first firstMem second secondMem equal
    simp only [Finset.coe_range, Set.mem_Iio, nrTasks] at firstMem secondMem
    simp only [iterate_nextPid _ _ bounded, Nat.add_right_cancel_iff] at equal
    omega
  have tooMany := Finset.card_le_card_of_injOn _ maps injective
  have few := card_usedPids_le s
  simp only [Finset.card_range] at tooMany
  omega

/-- The slot that is picked is empty, and is not slot 0. -/
theorem findEmptyProcess_slot {s : State} {lastPid : Nat} {nr : Fin nrTasks}
    (found : findEmptyProcess s = (lastPid, some nr)) : nr ≠ 0 ∧ s.task nr = none := by
  simp only [findEmptyProcess, Prod.mk.injEq] at found
  simpa using List.find?_some found.2

end Linux012.Kernel
