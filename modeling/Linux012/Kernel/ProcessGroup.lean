import Linux012.Lib.Run
import Linux012.Kernel.Fork

/-!
# Process groups and sessions

`fork`, `sys_setpgid` and `sys_setsid` copy or set the process group and the session of a
task, each with checks of its own.  Calls are not interleaved here: `find_empty_process`
and the `copy_process` after it are one step.
-/

namespace Linux012.Kernel

/-- The fields of `task_struct` that this file is about.  The parent is the slot of its
`task_struct`. -/
structure Process where
  state : TaskState
  pid : Nat
  pgrp : Nat
  session : Nat
  leader : Bool
  pPptr : Option (Fin nrTasks)
  deriving DecidableEq, Repr

/-- `task[]` and `last_pid`.  `reused` says that a pid was chosen that was the group or the
session of a task. -/
structure ProcessTable where
  task : Fin nrTasks → Option Process
  lastPid : Nat
  reused : Bool

/-- What the null pointer of an empty slot reads as `pgrp` and as `session`. -/
structure NullTask where
  pgrp : Int
  session : Int
  deriving DecidableEq, Repr

namespace ProcessTable

/-! ## fork -/

/-- The table as `find_empty_process` sees it. -/
def view (t : ProcessTable) : State where
  task i := (t.task i).map fun _ => i.val
  lastPid := t.lastPid
  taskStruct p :=
    if inside : p < nrTasks then
      (t.task ⟨p, inside⟩).map fun q => ⟨q.state, q.pid, q.pgrp⟩
    else none
  phase _ := .outside
  returns := []

/-- `find_empty_process` and `copy_process`; the latter may fail. -/
def fork (t : ProcessTable) (current : Fin nrTasks) (parent : Process) (copied : Bool) :
    ProcessTable :=
  match findEmptyProcess t.view with
  | (lastPid, none) => { t with lastPid := lastPid }
  | (lastPid, some nr) =>
      let clash := (List.finRange nrTasks).any fun i =>
        (t.task i).any fun p => p.pgrp == lastPid || p.session == lastPid
      let t := { t with lastPid := lastPid, reused := t.reused || clash }
      if copied then
        { t with task := Function.update t.task nr (some { parent with
            state := .running, pid := lastPid, leader := false, pPptr := some current }) }
      else t

/-! ## sys_setpgid and sys_setsid -/

/-- `(*p)->pgrp` and `(*p)->session`, also where `*p` is null. -/
def read (t : ProcessTable) (null : NullTask) (i : Fin nrTasks) : NullTask :=
  match t.task i with
  | some p => ⟨p.pgrp, p.session⟩
  | none => null

/-- `session_of_pgrp`. -/
def sessionOfPgrp (t : ProcessTable) (null : NullTask) (pgrp : Int) : Int :=
  match (List.finRange nrTasks).reverse.find? fun i =>
      i ≠ 0 && (t.read null i).pgrp == pgrp with
  | some i => (t.read null i).session
  | none => -1

abbrev ePerm : Int := 1

abbrev eSrch : Int := 3

abbrev eInval : Int := 22

/-- The loop of `sys_setpgid`, after the defaults have been filled in. -/
def setpgidIn (t : ProcessTable) (null : NullTask) (current : Fin nrTasks) (caller : Process)
    (pid pgid : Int) : ProcessTable × Int :=
  match (List.finRange nrTasks).find? fun i =>
      (t.task i).any fun p => p.pid == pid && (p.pPptr == some current || i == current) with
  | none => (t, -eSrch)
  | some i =>
      match t.task i with
      | none => (t, -eSrch)
      | some p =>
          if p.leader then (t, -ePerm)
          else if p.session ≠ caller.session ∨
              (pgid ≠ pid ∧ t.sessionOfPgrp null pgid ≠ caller.session) then
            (t, -ePerm)
          else
            ({ t with task := Function.update t.task i (some { p with pgrp := pgid.toNat }) },
              0)

/-- `if (!pid) pid = current->pid`. -/
def orOwn (caller : Process) (pid : Int) : Int := if pid = 0 then caller.pid else pid

/-- `sys_setpgid`. -/
def sysSetpgid (t : ProcessTable) (null : NullTask) (current : Fin nrTasks) (caller : Process)
    (pid pgid : Int) : ProcessTable × Int :=
  if orOwn caller pgid < 0 then (t, -eInval)
  else t.setpgidIn null current caller (orOwn caller pid) (orOwn caller pgid)

/-- `sys_setsid`. -/
def sysSetsid (t : ProcessTable) (current : Fin nrTasks) (caller : Process) (suser : Bool) :
    ProcessTable × Int :=
  if caller.leader ∧ ¬ suser then (t, -ePerm)
  else
    ({ t with task := Function.update t.task current (some { caller with
        leader := true, session := caller.pid, pgrp := caller.pid }) }, caller.pid)

/-! ## Exits -/

/-- `do_exit`: the children go to init. -/
def doExit (t : ProcessTable) (current : Fin nrTasks) (caller : Process) : ProcessTable :=
  { t with task := fun i =>
      if i = current then some { caller with state := .zombie }
      else (t.task i).map fun p =>
        if p.pPptr = some current then { p with pPptr := some 1 } else p }

/-! ## Runs -/

/-- A call with its arguments.  `current` is the slot of the caller. -/
inductive Action where
  | fork (current : Fin nrTasks) (copied : Bool)
  | setpgid (current : Fin nrTasks) (null : NullTask) (pid pgid : Int)
  | setsid (current : Fin nrTasks) (suser : Bool)
  | exit (current : Fin nrTasks)
  /-- `sys_waitpid` releases a zombie. -/
  | waitpid (current zombie : Fin nrTasks)

/-- The `task_struct` of a task that runs. -/
def running (t : ProcessTable) (current : Fin nrTasks) : Option Process :=
  (t.task current).filter fun p => p.state = .running

/-- One step. -/
def step (t : ProcessTable) : Action → Option ProcessTable
  | .fork current copied => (t.running current).map fun parent => t.fork current parent copied
  | .setpgid current null pid pgid =>
      (t.running current).map fun caller => (t.sysSetpgid null current caller pid pgid).1
  | .setsid current suser =>
      (t.running current).map fun caller => (t.sysSetsid current caller suser).1
  | .exit current =>
      if current = 0 then none else (t.running current).map fun caller => t.doExit current caller
  | .waitpid current zombie =>
      if (t.running current).isSome ∧ zombie ≠ 0 ∧ (t.task zombie).any fun p =>
          p.state = .zombie ∧ p.pPptr = some current then
        some { t with task := Function.update t.task zombie none }
      else none

/-- The table as `sched_init` leaves it. -/
def start : ProcessTable where
  task i := if i = 0 then some ⟨.running, 0, 0, 0, false, none⟩ else none
  lastPid := 0
  reused := false

/-- What groups and sessions are meant to be. -/
structure GroupsOk (t : ProcessTable) : Prop where
  /-- The tasks of a group are in one session. -/
  sameSession : ∀ i j p q, i ≠ 0 → j ≠ 0 → t.task i = some p → t.task j = some q →
    p.pgrp = q.pgrp → p.session = q.session
  /-- No pid was chosen that was the group or the session of a task. -/
  notReused : t.reused = false
  /-- `session_of_pgrp` has only one answer, the tasks' own session. -/
  answer : ∀ (null : NullTask) i p, i ≠ 0 → t.task i = some p →
    (∀ j, t.task j = none → null.pgrp ≠ (p.pgrp : Int)) → t.sessionOfPgrp null p.pgrp = p.session

/-- The condition on a call.  `fork`: a session that no task has as its pid or group is not
the first such number after `last_pid`.  `setsid`: every other task of the group that the
caller founds is in the caller's session-to-be.  `setpgid`: the group that it looks up is
not what an empty slot reads. -/
def Allowed (t : ProcessTable) : Action → Prop
  | .fork _ _ => ∀ i p, t.task i = some p → t.view.pidUsed p.session = false →
      ∀ count, nextPid^[count + 1] t.lastPid = p.session →
        ∃ earlier < count, t.view.pidUsed (nextPid^[earlier + 1] t.lastPid) = false
  | .setsid current suser => ∀ caller, t.task current = some caller →
      caller.leader = false ∨ suser →
        ∀ i p, i ≠ current → t.task i = some p → p.pgrp = caller.pid → p.session = caller.pid
  | .setpgid current null pid pgid => ∀ caller, t.task current = some caller →
      orOwn caller pgid ≠ orOwn caller pid →
        ∀ i, t.task i = none → null.pgrp ≠ orOwn caller pgid
  | _ => True

/-! ## The number that is picked -/

/-- All numbers between `last_pid` and the one that is picked are in use. -/
theorem pickPid_first (used : Nat → Bool) (fuel lastPid : Nat) :
    ∃ count, pickPid used (fuel + 1) lastPid = nextPid^[count + 1] lastPid ∧
      ∀ earlier < count, used (nextPid^[earlier + 1] lastPid) = true := by
  induction fuel generalizing lastPid with
  | zero =>
      refine ⟨0, ?_, nofun⟩
      simp [pickPid]
  | succ fuel ih =>
      by_cases inUse : used (nextPid lastPid) = true
      · obtain ⟨count, picked, passed⟩ := ih (nextPid lastPid)
        refine ⟨count + 1, ?_, ?_⟩
        · rw [pickPid, if_pos inUse, picked, ← Function.iterate_succ_apply]
        · intro earlier before
          cases earlier with
          | zero => exact inUse
          | succ earlier =>
              rw [Function.iterate_succ_apply]
              exact passed earlier (Nat.lt_of_succ_lt_succ before)
      · refine ⟨0, ?_, nofun⟩
        rw [pickPid, if_neg inUse]
        rfl

variable {t next : ProcessTable} {i j nr current : Fin nrTasks} {p q caller : Process}

theorem inSlot_view (t : ProcessTable) (i : Fin nrTasks) :
    t.view.inSlot i = (t.task i).map fun q => ⟨q.state, q.pid, q.pgrp⟩ := by
  cases slot : t.task i with
  | none => simp [State.inSlot, view, slot]
  | some q => simp [State.inSlot, view, slot]

theorem pidUsed_view {pid : Nat} : t.view.pidUsed pid = false ↔
    ∀ i p, t.task i = some p → p.pid ≠ pid ∧ p.pgrp ≠ pid := by
  rw [← Bool.not_eq_true, pidUsed_iff]
  constructor
  · intro unused i p slot
    have shown : t.view.inSlot i = some ⟨p.state, p.pid, p.pgrp⟩ := by
      rw [inSlot_view, slot]
      rfl
    exact ⟨fun same => unused ⟨i, _, shown, .inl same⟩,
      fun same => unused ⟨i, _, shown, .inr same⟩⟩
  · intro unused found
    obtain ⟨i, q, shown, same⟩ := found
    rw [inSlot_view, Option.map_eq_some_iff] at shown
    obtain ⟨p, slot, rfl⟩ := shown
    exact same.elim (unused i p slot).1 (unused i p slot).2

/-! ## The invariant -/

/-- Besides the tasks of one group being in one session, the session is that of the group's
founder, as long as the founder is there. -/
structure Inv (t : ProcessTable) : Prop where
  sameSession : ∀ i j p q, t.task i = some p → t.task j = some q → p.pgrp = q.pgrp →
    p.session = q.session
  founder : ∀ i j p q, t.task i = some p → t.task j = some q → q.pgrp = p.pid →
    q.session = p.session
  pidsDistinct : ∀ i j p q, t.task i = some p → t.task j = some q → p.pid = q.pid → i = j
  lastPid_lt : t.lastPid < 2 ^ 31
  notReused : t.reused = false

theorem inv_start : start.Inv := by
  have only {i : Fin nrTasks} {p : Process} (slot : start.task i = some p) :
      i = 0 ∧ p = ⟨.running, 0, 0, 0, false, none⟩ := by
    simp only [start] at slot
    split at slot
    · rename_i first
      exact ⟨first, (Option.some.inj slot).symm⟩
    · cases slot
  refine ⟨?_, ?_, ?_, by decide, rfl⟩
  · intro i j p q slotI slotJ _
    rw [(only slotI).2, (only slotJ).2]
  · intro i j p q slotI slotJ _
    rw [(only slotI).2, (only slotJ).2]
  · intro i j p q slotI slotJ _
    rw [(only slotI).1, (only slotJ).1]

/-- A table with fewer tasks, whose numbers are those that the tasks had. -/
theorem Inv.of_le (inv : t.Inv)
    (kept : ∀ i p, next.task i = some p → ∃ q, t.task i = some q ∧ q.pid = p.pid ∧
      q.pgrp = p.pgrp ∧ q.session = p.session)
    (sameLast : next.lastPid = t.lastPid) (sameReused : next.reused = t.reused) : next.Inv := by
  refine ⟨?_, ?_, ?_, sameLast ▸ inv.lastPid_lt, sameReused ▸ inv.notReused⟩
  · intro i j p q slotI slotJ same
    obtain ⟨p', slotI', -, pgrpI, sessionI⟩ := kept i p slotI
    obtain ⟨q', slotJ', -, pgrpJ, sessionJ⟩ := kept j q slotJ
    rw [← sessionI, ← sessionJ]
    exact inv.sameSession i j p' q' slotI' slotJ' (pgrpI.trans (same.trans pgrpJ.symm))
  · intro i j p q slotI slotJ same
    obtain ⟨p', slotI', pidI, -, sessionI⟩ := kept i p slotI
    obtain ⟨q', slotJ', -, pgrpJ, sessionJ⟩ := kept j q slotJ
    rw [← sessionI, ← sessionJ]
    exact inv.founder i j p' q' slotI' slotJ' (pgrpJ.trans (same.trans pidI.symm))
  · intro i j p q slotI slotJ same
    obtain ⟨p', slotI', pidI, -⟩ := kept i p slotI
    obtain ⟨q', slotJ', pidJ, -⟩ := kept j q slotJ
    exact inv.pidsDistinct i j p' q' slotI' slotJ' (pidI.trans (same.trans pidJ.symm))

/-- One task gets another group or session, or a new task comes with a new pid. -/
theorem Inv.update (inv : t.Inv) (p : Process)
    (samePid : ∀ j q, j ≠ i → t.task j = some q → q.pid ≠ p.pid)
    (group : ∀ j q, j ≠ i → t.task j = some q → q.pgrp = p.pgrp → q.session = p.session)
    (founded : ∀ j q, j ≠ i → t.task j = some q → q.pgrp = p.pid → q.session = p.session)
    (joined : ∀ j q, j ≠ i → t.task j = some q → p.pgrp = q.pid → p.session = q.session) :
    Inv { t with task := Function.update t.task i (some p) } := by
  have cases_slot {j : Fin nrTasks} {q : Process}
      (slot : Function.update t.task i (some p) j = some q) :
      (j = i ∧ q = p) ∨ (j ≠ i ∧ t.task j = some q) := by
    by_cases same : j = i
    · rw [same, Function.update_self] at slot
      exact .inl ⟨same, (Option.some.inj slot).symm⟩
    · rw [Function.update_of_ne same] at slot
      exact .inr ⟨same, slot⟩
  refine ⟨?_, ?_, ?_, inv.lastPid_lt, inv.notReused⟩
  · intro j k q r slotJ slotK same
    rcases cases_slot slotJ with ⟨-, rfl⟩ | ⟨otherJ, keptJ⟩ <;>
      rcases cases_slot slotK with ⟨-, rfl⟩ | ⟨otherK, keptK⟩
    · rfl
    · exact (group k r otherK keptK same.symm).symm
    · exact group j q otherJ keptJ same
    · exact inv.sameSession j k q r keptJ keptK same
  · intro j k q r slotJ slotK same
    rcases cases_slot slotJ with ⟨-, rfl⟩ | ⟨otherJ, keptJ⟩ <;>
      rcases cases_slot slotK with ⟨-, rfl⟩ | ⟨otherK, keptK⟩
    · rfl
    · exact founded k r otherK keptK same
    · exact joined j q otherJ keptJ same
    · exact inv.founder j k q r keptJ keptK same
  · intro j k q r slotJ slotK same
    rcases cases_slot slotJ with ⟨rfl, rfl⟩ | ⟨otherJ, keptJ⟩ <;>
      rcases cases_slot slotK with ⟨rfl, rfl⟩ | ⟨otherK, keptK⟩
    · rfl
    · exact absurd same.symm (samePid k r otherK keptK)
    · exact absurd same (samePid j q otherJ keptJ)
    · exact inv.pidsDistinct j k q r keptJ keptK same

/-- `session_of_pgrp` answers with the session of a task of the group, if no empty slot
seems to be in it. -/
theorem sessionOfPgrp_eq {null : NullTask} {pgrp : Int}
    (notNull : ∀ j, t.task j = none → null.pgrp ≠ pgrp) :
    (∃ i p, i ≠ 0 ∧ t.task i = some p ∧ (p.pgrp : Int) = pgrp ∧
      t.sessionOfPgrp null pgrp = p.session) ∨
    (t.sessionOfPgrp null pgrp = -1 ∧
      ∀ i p, i ≠ 0 → t.task i = some p → (p.pgrp : Int) ≠ pgrp) := by
  rw [sessionOfPgrp]
  cases found : (List.finRange nrTasks).reverse.find? fun i =>
      i ≠ 0 && (t.read null i).pgrp == pgrp with
  | none =>
      right
      refine ⟨rfl, fun i p notFirst slot same => ?_⟩
      rw [List.find?_eq_none] at found
      have passed := found i (by simp)
      simp [notFirst, read, slot, same] at passed
  | some i =>
      left
      have matched := List.find?_some found
      simp only [ne_eq, decide_not, Bool.and_eq_true, Bool.not_eq_true', decide_eq_false_iff_not,
        beq_iff_eq] at matched
      cases slot : t.task i with
      | none =>
          simp only [read, slot] at matched
          exact absurd matched.2 (notNull i slot)
      | some p =>
          simp only [read, slot] at matched
          exact ⟨i, p, matched.1, slot, matched.2, by simp [read, slot]⟩

theorem Inv.groupsOk (inv : t.Inv) : t.GroupsOk := by
  refine ⟨fun i j p q _ _ slotI slotJ => inv.sameSession i j p q slotI slotJ, inv.notReused, ?_⟩
  intro null i p notFirst slot notNull
  rcases sessionOfPgrp_eq notNull with ⟨j, q, -, slotJ, same, answer⟩ | ⟨-, nobody⟩
  · rw [answer, inv.sameSession j i q p slotJ slot (Int.ofNat.inj same)]
  · exact absurd rfl (nobody i p notFirst slot)

/-! ## The calls -/

theorem running_eq_some (runs : t.running current = some caller) :
    t.task current = some caller ∧ caller.state = .running := by
  rw [running, Option.filter_eq_some_iff, decide_eq_true_eq] at runs
  exact runs

/-- Under its condition, `find_empty_process` picks no group and no session of a task. -/
theorem Inv.pick {copied : Bool} {pid : Nat} {free : Option (Fin nrTasks)} (inv : t.Inv)
    (allowed : t.Allowed (.fork current copied)) (found : findEmptyProcess t.view = (pid, free)) :
    pid < 2 ^ 31 ∧
      ∀ i p, t.task i = some p → p.pid ≠ pid ∧ p.pgrp ≠ pid ∧ p.session ≠ pid := by
  have picks : pickPid t.view.pidUsed (2 * nrTasks + 1) t.lastPid = pid :=
    congrArg Prod.fst found
  have unused := pickPid_unused t.view inv.lastPid_lt
  have bounded := pickPid_lt t.view.pidUsed (2 * nrTasks + 1) t.lastPid inv.lastPid_lt
  obtain ⟨count, first, passed⟩ := pickPid_first t.view.pidUsed (2 * nrTasks) t.lastPid
  change t.view.pidUsed (pickPid t.view.pidUsed (2 * nrTasks + 1) t.lastPid) = false at unused
  rw [picks] at unused bounded first
  refine ⟨bounded, fun i p slot => ?_⟩
  have notUsed := pidUsed_view.mp unused i p slot
  refine ⟨notUsed.1, notUsed.2, fun same => ?_⟩
  obtain ⟨earlier, before, skipped⟩ :=
    allowed i p slot (same ▸ unused) count (first.symm.trans same.symm)
  rw [passed earlier before] at skipped
  cases skipped

theorem Inv.fork {copied : Bool} (inv : t.Inv) (slot : t.task current = some caller)
    (allowed : t.Allowed (.fork current copied)) : (t.fork current caller copied).Inv := by
  cases found : findEmptyProcess t.view with
  | mk pid free =>
      obtain ⟨bounded, fresh⟩ := inv.pick allowed found
      have counted : Inv { t with lastPid := pid } :=
        ⟨inv.sameSession, inv.founder, inv.pidsDistinct, bounded, inv.notReused⟩
      rw [ProcessTable.fork, found]
      cases free with
      | none => exact counted
      | some nr =>
          have clash : ((List.finRange nrTasks).any fun i =>
              (t.task i).any fun p => p.pgrp == pid || p.session == pid) = false := by
            rw [List.any_eq_false]
            intro i _
            cases slotI : t.task i with
            | none => simp
            | some p => simp [(fresh i p slotI).2.1, (fresh i p slotI).2.2]
          dsimp only
          rw [clash, Bool.or_false]
          cases copied with
          | false => exact counted
          | true =>
              apply counted.update
              · intro j q _ slotJ
                exact (fresh j q slotJ).1
              · intro j q _ slotJ same
                exact inv.sameSession j current q caller slotJ slot same
              · intro j q _ slotJ same
                exact absurd same (fresh j q slotJ).2.1
              · intro j q _ slotJ same
                exact inv.founder j current q caller slotJ slot same

theorem Inv.setsid {suser : Bool} (inv : t.Inv) (slot : t.task current = some caller)
    (allowed : t.Allowed (.setsid current suser)) :
    (t.sysSetsid current caller suser).1.Inv := by
  rw [sysSetsid]
  by_cases refused : caller.leader = true ∧ ¬ suser = true
  · rw [if_pos refused]
    exact inv
  · rw [if_neg refused]
    have admitted : caller.leader = false ∨ suser = true := by
      cases leads : caller.leader with
      | false => exact .inl rfl
      | true => exact .inr (by simpa [leads] using refused)
    have others := allowed caller slot admitted
    apply inv.update
    · intro j q other slotJ same
      exact other (inv.pidsDistinct j current q caller slotJ slot same)
    · exact others
    · exact others
    · intro j q other slotJ same
      exact absurd (inv.pidsDistinct current j caller q slot slotJ same) other.symm

theorem Inv.setpgid {null : NullTask} {pid pgid : Int} (inv : t.Inv)
    (slot : t.task current = some caller) (allowed : t.Allowed (.setpgid current null pid pgid)) :
    (t.sysSetpgid null current caller pid pgid).1.Inv := by
  rw [sysSetpgid]
  by_cases negative : orOwn caller pgid < 0
  · rw [if_pos negative]
    exact inv
  · rw [if_neg negative]
    have seen := allowed caller slot
    generalize orOwn caller pid = pid' at *
    generalize orOwn caller pgid = pgid' at *
    obtain ⟨group, rfl⟩ := Int.eq_ofNat_of_zero_le (Int.not_lt.mp negative)
    rw [setpgidIn]
    split
    · exact inv
    · rename_i i found
      have matched := List.find?_some found
      cases slotI : t.task i with
      | none => exact inv
      | some p =>
          dsimp only
          split
          · exact inv
          · split
            · exact inv
            · rename_i checked
              simp only [slotI, Option.any_some, Bool.and_eq_true, beq_iff_eq] at matched
              simp only [ne_eq, not_or, not_and, Decidable.not_not] at checked
              obtain ⟨sameSession, lookedUp⟩ := checked
              -- The group is the task's own, or one that has a member in its session.
              have target : group = p.pid ∨ ∃ k r, t.task k = some r ∧ r.pgrp = group ∧
                  r.session = p.session := by
                by_cases own : (group : Int) = pid'
                · exact .inl (by omega)
                · right
                  have answer := lookedUp own
                  rcases sessionOfPgrp_eq (seen own) with
                    ⟨k, r, -, slotK, member, found⟩ | ⟨nothing, -⟩
                  · refine ⟨k, r, slotK, Int.ofNat.inj member, ?_⟩
                    rw [found] at answer
                    exact (Int.ofNat.inj answer).trans sameSession.symm
                  · rw [nothing] at answer
                    omega
              rw [Int.toNat_natCast]
              apply inv.update
              · intro j q other slotJ same
                exact other (inv.pidsDistinct j i q p slotJ slotI same)
              · intro j q other slotJ same
                rcases target with founded | ⟨k, r, slotK, member, session⟩
                · exact inv.founder i j p q slotI slotJ (same.trans founded)
                · exact (inv.sameSession j k q r slotJ slotK (same.trans member.symm)).trans session
              · intro j q _ slotJ same
                exact inv.founder i j p q slotI slotJ same
              · intro j q other slotJ same
                rcases target with founded | ⟨k, r, slotK, member, session⟩
                · have samePid : p.pid = q.pid := founded.symm.trans same
                  exact absurd (inv.pidsDistinct i j p q slotI slotJ samePid) other.symm
                · exact session.symm.trans (inv.founder j k q r slotJ slotK (member.trans same))

theorem Inv.exit (inv : t.Inv) (slot : t.task current = some caller) :
    (t.doExit current caller).Inv := by
  refine inv.of_le ?_ rfl rfl
  intro i p slotI
  simp only [doExit] at slotI
  split at slotI
  · rename_i same
    cases slotI
    exact ⟨caller, same ▸ slot, rfl, rfl, rfl⟩
  · rw [Option.map_eq_some_iff] at slotI
    obtain ⟨q, slotI, rfl⟩ := slotI
    refine ⟨q, slotI, ?_⟩
    split <;> exact ⟨rfl, rfl, rfl⟩

theorem Inv.waitpid (inv : t.Inv) (zombie : Fin nrTasks) :
    Inv { t with task := Function.update t.task zombie none } := by
  refine inv.of_le ?_ rfl rfl
  intro i p slot
  change Function.update t.task zombie none i = some p at slot
  by_cases same : i = zombie
  · rw [same, Function.update_self] at slot
    cases slot
  · rw [Function.update_of_ne same] at slot
    exact ⟨p, slot, rfl, rfl, rfl⟩

theorem Inv.step {action : Action} (inv : t.Inv) (allowed : t.Allowed action)
    (taken : t.step action = some next) : next.Inv := by
  cases action with
  | fork current copied =>
      obtain ⟨parent, runs, rfl⟩ := Option.map_eq_some_iff.mp taken
      exact inv.fork (running_eq_some runs).1 allowed
  | setpgid current null pid pgid =>
      obtain ⟨caller, runs, rfl⟩ := Option.map_eq_some_iff.mp taken
      exact inv.setpgid (running_eq_some runs).1 allowed
  | setsid current suser =>
      obtain ⟨caller, runs, rfl⟩ := Option.map_eq_some_iff.mp taken
      exact inv.setsid (running_eq_some runs).1 allowed
  | exit current =>
      simp only [ProcessTable.step, Option.ite_none_left_eq_some] at taken
      obtain ⟨caller, runs, rfl⟩ := Option.map_eq_some_iff.mp taken.2
      exact inv.exit (running_eq_some runs).1
  | waitpid current zombie =>
      simp only [ProcessTable.step, Option.ite_none_right_eq_some, Option.some.injEq] at taken
      obtain ⟨-, rfl⟩ := taken
      exact inv.waitpid zombie

/-- Groups stay within sessions as long as `setsid` is not called in a group that has others
in it, no pid comes up that is still a session, and no empty slot is taken for a task. -/
theorem groupsOk_of_allowed {final : ProcessTable}
    (reached : Lib.ReachedBy ProcessTable.step Allowed start final) : final.GroupsOk :=
  (reached.invariant Inv (fun _ _ _ inv allowed taken => inv.step allowed taken)
    inv_start).groupsOk

/-- A check that implies the condition. -/
def checkAllowed (t : ProcessTable) : Action → Bool
  | .fork _ _ => (List.finRange nrTasks).all fun i =>
      (t.task i).all fun p => t.view.pidUsed p.session
  | .setsid current _ => (t.task current).all fun caller => (List.finRange nrTasks).all fun i =>
      i == current || (t.task i).all fun p => p.pgrp != caller.pid || p.session == caller.pid
  | .setpgid current null _ pgid => (t.task current).all fun caller =>
      null.pgrp != orOwn caller pgid
  | _ => true

theorem allowed_of_check {action : Action} (checked : t.checkAllowed action = true) :
    t.Allowed action := by
  cases action with
  | fork current copied =>
      intro i p slot unused
      simp only [checkAllowed, List.all_eq_true, Option.all_eq_true] at checked
      rw [checked i (List.mem_finRange i) p slot] at unused
      cases unused
  | setpgid current null pid pgid =>
      intro caller slot _ _ _
      simpa [checkAllowed, slot] using checked
  | setsid current suser =>
      intro caller slot _ i p other slotI same
      simp only [checkAllowed, slot, Option.all_some, List.all_eq_true] at checked
      have passed := checked i (List.mem_finRange i)
      simpa [other, slotI, same] using passed
  | exit current => trivial
  | waitpid current zombie => trivial

/-- Init starts a session, and a shell in another one puts a child into a group. -/
def sessionRun : List Action :=
  [.fork 0 true, .setsid 1 true, .fork 1 true, .setsid 2 false, .fork 2 true,
    .setpgid 2 ⟨0, 0⟩ 3 3, .exit 3, .waitpid 2 3]

theorem groupsOk_of_allowed_session : (Lib.exec step start sessionRun).isSome ∧
    ∀ final, Lib.exec step start sessionRun = some final → final.GroupsOk := by
  refine ⟨by decide +kernel, fun final reached => groupsOk_of_allowed ⟨sessionRun, reached, ?_⟩⟩
  exact Lib.everyStep_of_checkSteps checkAllowed (fun _ _ => allowed_of_check) (by decide +kernel)

/-- A task founds a group, forks, and calls `setsid`: its child stays in the group and in the
old session. -/
def splitRun : List Action :=
  [.fork 0 true, .fork 1 true, .setpgid 2 ⟨0, 0⟩ 0 0, .fork 2 true, .setsid 2 false]

theorem group_in_two_sessions : ¬ ∀ (actions : List Action) (final : ProcessTable),
    Lib.exec step start actions = some final → final.GroupsOk := by
  intro ok
  have run : ((Lib.exec step start splitRun).bind fun t => (t.task 2).bind fun p =>
      (t.task 3).map fun q => p.pgrp == q.pgrp && p.session != q.session) = some true := by
    decide +kernel
  obtain ⟨final, reached, shows⟩ := Option.bind_eq_some_iff.mp run
  obtain ⟨p, slotP, shows⟩ := Option.bind_eq_some_iff.mp shows
  obtain ⟨q, slotQ, shows⟩ := Option.map_eq_some_iff.mp shows
  have same := (ok splitRun final reached).sameSession 2 3 p q (by decide) (by decide) slotP slotQ
  simp only [Bool.and_eq_true, beq_iff_eq, bne_iff_ne] at shows
  exact shows.2 (same shows.1)

end ProcessTable

end Linux012.Kernel
