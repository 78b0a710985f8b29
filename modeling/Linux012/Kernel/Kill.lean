import Linux012.Kernel.Signal

/-!
# Signals to tasks and groups

`send_sig`, `kill_pg`, `kill_proc` and `sys_kill` of `exit.c`.  A call keeps a record of
the slots whose `task_struct` it has read, for some of the pointers may be null.
-/

namespace Linux012.Kernel.Kill

open Signal (sigIgn sigCont sigTstp sigTtin sigTtou)

/-- The fields of `task_struct` that sending a signal depends on.  `saHandler` is indexed
by the number of the signal. -/
structure Job where
  pid : Int
  pgrp : Int
  euid : UInt16
  state : TaskState
  exitCode : UInt32
  signal : UInt32
  saHandler : UInt32 → UInt32

/-- What the null pointer of an empty slot reads as `pid` and as `pgrp`. -/
structure NullJob where
  pid : Int
  pgrp : Int
  deriving DecidableEq, Repr

/-- `task[]`, with the slots that have been read. -/
structure Jobs where
  task : Nat → Option Job
  read : List Nat

abbrev ePerm : Int := 1
abbrev eSrch : Int := 3
abbrev eInval : Int := 22

/-! ## The calls -/

/-- `priv || current->euid == p->euid || suser ()`. -/
def Permitted (caller : Job) (priv : Bool) (p : Job) : Prop :=
  priv = true ∨ caller.euid = p.euid ∨ caller.euid = 0

instance (caller : Job) (priv : Bool) (p : Job) : Decidable (Permitted caller priv p) :=
  inferInstanceAs (Decidable (_ ∨ _))

/-- `SIGKILL` and `SIGCONT` let a stopped task run. -/
def restart (sig : UInt32) (p : Job) : Job :=
  if sig = sigKill ∨ sig = sigCont then
    { p with
      state := if p.state = .stopped then .running else p.state
      exitCode := 0
      signal := p.signal &&&
        ~~~(sigBit sigStop ||| sigBit sigTstp ||| sigBit sigTtin ||| sigBit sigTtou) }
  else p

/-- "Actually deliver the signal", unless it will be ignored. -/
def deliver (sig : UInt32) (p : Job) : Job :=
  if p.saHandler sig = sigIgn then p
  else
    let signal :=
      if sig ≥ sigStop ∧ sig ≤ sigTtou then p.signal &&& ~~~sigBit sigCont else p.signal
    { p with signal := signal ||| sigBit sig }

/-- `send_sig`, to a task. -/
def sendSig (sig : UInt32) (caller : Job) (priv : Bool) (p : Job) : Job × Int :=
  if ¬ Permitted caller priv p then (p, -ePerm) else (deliver sig (restart sig p), 0)

namespace Jobs

/-- `send_sig`, to what a slot points to. -/
def sendTo (t : Jobs) (sig : UInt32) (caller : Job) (priv : Bool) (i : Nat) : Jobs × Int :=
  match t.task i with
  | none => (t, -eInval)
  | some p =>
      ({ task := Function.update t.task i (some (sendSig sig caller priv p).1)
         read := i :: t.read },
        (sendSig sig caller priv p).2)

/-- `(*p)->pid` and `(*p)->pgrp`. -/
def look (t : Jobs) (null : NullJob) (i : Nat) : Jobs × NullJob :=
  ({ t with read := i :: t.read },
    match t.task i with
    | none => null
    | some p => ⟨p.pid, p.pgrp⟩)

section Loops

variable (null : NullJob) (caller : Job) (sig : UInt32)

/-- The loop of `kill_pg`, from slot `i` on. -/
def killPgFrom (pgrp : Int) (priv : Bool) :
    (i found : Nat) → (retval : Int) → Jobs → Jobs × Int
  | 0, found, retval, t => (t, if found ≠ 0 then 0 else retval)
  | i + 1, found, retval, t =>
      let (t, fields) := t.look null (i + 1)
      if fields.pgrp = pgrp then
        let (t, err) := t.sendTo sig caller priv (i + 1)
        if err ≠ 0 then killPgFrom pgrp priv i found err t
        else killPgFrom pgrp priv i (found + 1) retval t
      else killPgFrom pgrp priv i found retval t

/-- `kill_pg`. -/
def killPg (pgrp : Int) (priv : Bool) (t : Jobs) : Jobs × Int :=
  if sig.toInt32 < 1 ∨ sig.toInt32 > 32 ∨ pgrp ≤ 0 then (t, -eInval)
  else killPgFrom null caller sig pgrp priv (nrTasks - 1) 0 (-eSrch) t

/-- The loop of `kill_proc`, from slot `i` on. -/
def killProcFrom (pid : Int) (priv : Bool) : (i : Nat) → Jobs → Jobs × Int
  | 0, t => (t, -eSrch)
  | i + 1, t =>
      let (t, fields) := t.look null (i + 1)
      if fields.pid = pid then t.sendTo sig caller priv (i + 1)
      else killProcFrom pid priv i t

/-- `kill_proc`. -/
def killProc (pid : Int) (priv : Bool) (t : Jobs) : Jobs × Int :=
  if sig.toInt32 < 1 ∨ sig.toInt32 > 32 then (t, -eInval)
  else killProcFrom null caller sig pid priv (nrTasks - 1) t

/-- The loop of `sys_kill` over all tasks, from slot `i` on. -/
def killAllFrom : (i : Nat) → (retval : Int) → Jobs → Jobs × Int
  | 0, retval, t => (t, retval)
  | i + 1, retval, t =>
      let (t, err) := t.sendTo sig caller false (i + 1)
      if err ≠ 0 then killAllFrom i err t else killAllFrom i retval t

/-- `sys_kill`. -/
def sysKill (pid : Int) (t : Jobs) : Jobs × Int :=
  if pid = 0 then t.killPg null caller sig caller.pid false
  else if pid = -1 then t.killAllFrom caller sig (nrTasks - 1) 0
  else if pid < 0 then t.killPg null caller sig (Int.bmod (-pid) (2 ^ 32)) false
  else t.killProc null caller sig pid false

end Loops

end Jobs

/-! ## Who gets a signal -/

/-- Exactly the tasks that `names` holds of were sent the signal. -/
structure Posts (sig : UInt32) (caller : Job) (priv : Bool) (names : Nat → Job → Prop)
    (task final : Nat → Option Job) : Prop where
  empty : ∀ i, task i = none → final i = none
  named : ∀ i p, task i = some p → names i p →
    final i = some (sendSig sig caller priv p).1
  others : ∀ i p, task i = some p → ¬ names i p → final i = some p

namespace Posts

variable {sig : UInt32} {caller : Job} {priv : Bool} {names more : Nat → Job → Prop}
variable {task middle final : Nat → Option Job}

theorem refl (nobody : ∀ i p, task i = some p → ¬ names i p) :
    Posts sig caller priv names task task where
  empty _ empty := empty
  named i p occupied named := absurd named (nobody i p occupied)
  others _ _ occupied _ := occupied

theorem congr (posts : Posts sig caller priv names task final)
    (same : ∀ i p, task i = some p → (names i p ↔ more i p)) :
    Posts sig caller priv more task final where
  empty := posts.empty
  named i p occupied named := posts.named i p occupied ((same i p occupied).mpr named)
  others i p occupied other :=
    posts.others i p occupied fun named => other ((same i p occupied).mp named)

/-- Two sets of slots that do not meet, one after the other. -/
theorem trans (first : Posts sig caller priv names task middle)
    (second : Posts sig caller priv more middle final)
    (apart : ∀ i p q, names i p → ¬ more i q) :
    Posts sig caller priv (fun i p => names i p ∨ more i p) task final where
  empty i empty := second.empty i (first.empty i empty)
  named i p occupied named := by
    by_cases here : names i p
    · exact second.others i _ (first.named i p occupied here) (apart i p _ here)
    · exact second.named i p (first.others i p occupied here) (named.resolve_left here)
  others i p occupied other := by
    rw [not_or] at other
    exact second.others i p (first.others i p occupied other.1) other.2

end Posts

section Send

namespace Jobs

variable (null : NullJob) (t : Jobs) (i : Nat)

@[simp] theorem look_task : (t.look null i).1.task = t.task := rfl

@[simp] theorem look_read : (t.look null i).1.read = i :: t.read := rfl

variable {t i}

theorem look_snd {p : Job} (occupied : t.task i = some p) :
    (t.look null i).2 = ⟨p.pid, p.pgrp⟩ := by
  simp [look, occupied]

end Jobs

variable {sig : UInt32} {caller : Job} {priv : Bool} {null : NullJob}

/-- `send_sig` refuses, or leaves the numbers of the task alone. -/
theorem sendSig_snd (p : Job) :
    (sendSig sig caller priv p).2 = 0 ↔ Permitted caller priv p := by
  rw [sendSig]
  by_cases permitted : Permitted caller priv p <;> simp [permitted]

variable (sig caller priv) (t : Jobs) (i : Nat)

theorem posts_sendTo :
    Posts sig caller priv (fun j _ => j = i) t.task (t.sendTo sig caller priv i).1.task := by
  rw [Jobs.sendTo]
  cases occupied : t.task i with
  | none =>
      refine Posts.refl fun j p other same => ?_
      rw [same, occupied] at other
      cases other
  | some p =>
      constructor
      · rintro j empty
        have ne : j ≠ i := by
          rintro rfl
          cases occupied.symm.trans empty
        simpa only [Function.update_of_ne ne] using empty
      · rintro j q there rfl
        obtain rfl : p = q := Option.some.inj (occupied.symm.trans there)
        exact Function.update_self ..
      · rintro j q there ne
        simpa only [Function.update_of_ne ne] using there

/-- The signal arrives, and it does so only in a slot with a task. -/
theorem sendTo_snd :
    (t.sendTo sig caller priv i).2 = 0 ↔ ∃ p, t.task i = some p ∧ Permitted caller priv p := by
  rw [Jobs.sendTo]
  cases occupied : t.task i with
  | none => simp [eInval]
  | some p => simpa using sendSig_snd p

theorem sendTo_task_of_ne {j : Nat} (ne : j ≠ i) :
    (t.sendTo sig caller priv i).1.task j = t.task j := by
  rw [Jobs.sendTo]
  cases t.task i with
  | none => rfl
  | some p => exact Function.update_of_ne ne ..

theorem mem_read_sendTo (j : Nat) :
    j ∈ (t.sendTo sig caller priv i).1.read ↔
      j ∈ t.read ∨ j = i ∧ (t.task i).isSome := by
  rw [Jobs.sendTo]
  cases occupied : t.task i with
  | none => simp
  | some p => simp [or_comm]

end Send

/-! ## The loops -/

section Loops

variable (sig : UInt32) (caller : Job) (priv : Bool) (null : NullJob)

/-- The tasks of a group, up to slot `i`. -/
def InGroup (pgrp : Int) (i j : Nat) (p : Job) : Prop := 1 ≤ j ∧ j ≤ i ∧ p.pgrp = pgrp

/-- One slot of `kill_pg`. -/
theorem killPgFrom_step (pgrp : Int) (i found : Nat) (retval : Int) (t : Jobs) :
    ∃ (middle : Jobs) (found' : Nat) (retval' : Int),
      t.killPgFrom null caller sig pgrp priv (i + 1) found retval =
        middle.killPgFrom null caller sig pgrp priv i found' retval' ∧
      Posts sig caller priv (fun j p => j = i + 1 ∧ p.pgrp = pgrp) t.task middle.task ∧
      (∀ j, j ∈ middle.read ↔ j ∈ t.read ∨ j = i + 1) ∧
      (∀ j, j ≠ i + 1 → middle.task j = t.task j) ∧
      (retval ≠ 0 → retval' ≠ 0) ∧
      (found' ≠ 0 ↔ found ≠ 0 ∨
        ∃ p, t.task (i + 1) = some p ∧ p.pgrp = pgrp ∧ Permitted caller priv p) := by
  have looked {p : Job} (occupied : t.task (i + 1) = some p) :
      (t.look null (i + 1)).2.pgrp = p.pgrp := by
    rw [Jobs.look_snd null occupied]
  by_cases member : (t.look null (i + 1)).2.pgrp = pgrp
  · have posts : Posts sig caller priv (fun j p => j = i + 1 ∧ p.pgrp = pgrp) t.task
        ((t.look null (i + 1)).1.sendTo sig caller priv (i + 1)).1.task := by
      refine (posts_sendTo sig caller priv (t.look null (i + 1)).1 (i + 1)).congr fun j p occupied => ?_
      rw [iff_self_and]
      rintro rfl
      exact (looked occupied).symm.trans member
    have read (j : Nat) :
        j ∈ ((t.look null (i + 1)).1.sendTo sig caller priv (i + 1)).1.read ↔
          j ∈ t.read ∨ j = i + 1 := by
      rw [mem_read_sendTo, Jobs.look_read, List.mem_cons]
      tauto
    have others (j : Nat) (ne : j ≠ i + 1) :=
      sendTo_task_of_ne sig caller priv (t.look null (i + 1)).1 (i + 1) ne
    have arrives := sendTo_snd sig caller priv (t.look null (i + 1)).1 (i + 1)
    rw [Jobs.look_task] at arrives
    by_cases sent : ((t.look null (i + 1)).1.sendTo sig caller priv (i + 1)).2 = 0
    · refine ⟨_, found + 1, retval, ?_, posts, read, others, id, ?_⟩
      · simp only [Jobs.killPgFrom, if_pos member, sent, ne_eq, not_true, if_false]
      · obtain ⟨p, occupied, permitted⟩ := arrives.mp sent
        have := (looked occupied).symm.trans member
        exact iff_of_true (Nat.succ_ne_zero _) (Or.inr ⟨p, occupied, this, permitted⟩)
    · refine ⟨_, found, _, ?_, posts, read, others, fun _ => sent, ?_⟩
      · simp only [Jobs.killPgFrom, if_pos member, ne_eq, if_pos sent]
      · have refused : ¬ ∃ p, t.task (i + 1) = some p ∧ p.pgrp = pgrp ∧
            Permitted caller priv p := by
          rintro ⟨p, occupied, -, permitted⟩
          exact sent (arrives.mpr ⟨p, occupied, permitted⟩)
        simp only [refused, or_false]
  · have other {p : Job} (occupied : t.task (i + 1) = some p) : p.pgrp ≠ pgrp :=
      fun same => member ((looked occupied).trans same)
    refine ⟨(t.look null (i + 1)).1, found, retval, ?_, ?_, fun j => ?_, fun _ _ => rfl, id, ?_⟩
    · simp only [Jobs.killPgFrom, if_neg member]
    · refine Posts.refl fun j p occupied named => ?_
      obtain ⟨rfl, same⟩ := named
      exact other occupied same
    · rw [Jobs.look_read, List.mem_cons, or_comm]
    · have nobody : ¬ ∃ p, t.task (i + 1) = some p ∧ p.pgrp = pgrp ∧
          Permitted caller priv p := by
        rintro ⟨p, occupied, same, -⟩
        exact other occupied same
      simp only [nobody, or_false]

/-- The whole loop of `kill_pg`. -/
theorem killPgFrom_spec (pgrp : Int) (i found : Nat) (retval : Int) (t : Jobs) :
    Posts sig caller priv (InGroup pgrp i) t.task
        (t.killPgFrom null caller sig pgrp priv i found retval).1.task ∧
      (∀ j, j ∈ (t.killPgFrom null caller sig pgrp priv i found retval).1.read ↔
        j ∈ t.read ∨ 1 ≤ j ∧ j ≤ i) ∧
      (retval ≠ 0 →
        ((t.killPgFrom null caller sig pgrp priv i found retval).2 = 0 ↔
          found ≠ 0 ∨ ∃ j p, t.task j = some p ∧ InGroup pgrp i j p ∧
            Permitted caller priv p)) := by
  induction i generalizing found retval t with
  | zero =>
      have nowhere (j : Nat) : ¬ (1 ≤ j ∧ j ≤ 0) := by omega
      refine ⟨Posts.refl fun j p _ inside => nowhere j ⟨inside.1, inside.2.1⟩, fun j => ?_,
        fun failed => ?_⟩
      · simp only [Jobs.killPgFrom, nowhere, or_false]
      · have nobody : ¬ ∃ j p, t.task j = some p ∧ InGroup pgrp 0 j p ∧
            Permitted caller priv p := by
          rintro ⟨j, p, -, inside, -⟩
          exact nowhere j ⟨inside.1, inside.2.1⟩
        simp only [Jobs.killPgFrom, nobody, or_false]
        by_cases none_found : found = 0 <;> simp [none_found, failed]
  | succ i ih =>
      obtain ⟨middle, found', retval', next, posts, read, others, stays, counts⟩ :=
        killPgFrom_step sig caller priv null pgrp i found retval t
      obtain ⟨restPosts, restRead, restReturns⟩ := ih found' retval' middle
      rw [next]
      refine ⟨?_, fun j => ?_, fun failed => ?_⟩
      · refine (posts.trans restPosts ?_).congr fun j p _ => ?_
        · rintro j p q ⟨rfl, -⟩ ⟨-, le, -⟩
          omega
        · simp only [InGroup]
          constructor
          · rintro (⟨rfl, same⟩ | ⟨pos, le, same⟩)
            · exact ⟨by omega, le_rfl, same⟩
            · exact ⟨pos, by omega, same⟩
          · rintro ⟨pos, le, same⟩
            rcases Nat.lt_or_eq_of_le le with below | rfl
            · exact Or.inr ⟨pos, by omega, same⟩
            · exact Or.inl ⟨rfl, same⟩
      · rw [restRead, read, or_assoc]
        refine or_congr_right ?_
        omega
      · rw [restReturns (stays failed), counts, or_assoc]
        refine or_congr_right ?_
        constructor
        · rintro (⟨p, occupied, same, permitted⟩ | ⟨j, p, occupied, inside, permitted⟩)
          · exact ⟨i + 1, p, occupied, ⟨by omega, le_rfl, same⟩, permitted⟩
          · obtain ⟨pos, le, same⟩ := inside
            rw [others j (by omega)] at occupied
            exact ⟨j, p, occupied, ⟨pos, by omega, same⟩, permitted⟩
        · rintro ⟨j, p, occupied, ⟨pos, le, same⟩, permitted⟩
          rcases Nat.lt_or_eq_of_le le with below | rfl
          · rw [← others j (by omega)] at occupied
            exact Or.inr ⟨j, p, occupied, ⟨pos, by omega, same⟩, permitted⟩
          · exact Or.inl ⟨p, occupied, same, permitted⟩

/-- What `kill_proc` finds, from slot `i` on: the first slot that reads `pid`, or none. -/
theorem killProcFrom_spec (pid : Int) (i : Nat) (t : Jobs) :
    (∃ j, 1 ≤ j ∧ j ≤ i ∧ (t.look null j).2.pid = pid ∧
        (∀ k, j < k → k ≤ i → (t.look null k).2.pid ≠ pid) ∧
        Posts sig caller priv (fun k _ => k = j) t.task
          (t.killProcFrom null caller sig pid priv i).1.task ∧
        (∀ k, k ∈ (t.killProcFrom null caller sig pid priv i).1.read ↔
          k ∈ t.read ∨ j ≤ k ∧ k ≤ i) ∧
        ((t.killProcFrom null caller sig pid priv i).2 = 0 ↔
          ∃ p, t.task j = some p ∧ Permitted caller priv p)) ∨
      (∀ k, 1 ≤ k → k ≤ i → (t.look null k).2.pid ≠ pid) ∧
        (t.killProcFrom null caller sig pid priv i).1.task = t.task ∧
        (∀ k, k ∈ (t.killProcFrom null caller sig pid priv i).1.read ↔
          k ∈ t.read ∨ 1 ≤ k ∧ k ≤ i) := by
  induction i generalizing t with
  | zero =>
      refine Or.inr ⟨fun k pos le => by omega, rfl, fun k => ?_⟩
      have nowhere : ¬ (1 ≤ k ∧ k ≤ 0) := by omega
      simp only [Jobs.killProcFrom, nowhere, or_false]
  | succ i ih =>
      by_cases found : (t.look null (i + 1)).2.pid = pid
      · refine Or.inl ⟨i + 1, by omega, le_rfl, found, fun k above le => by omega, ?_⟩
        simp only [Jobs.killProcFrom, if_pos found]
        refine ⟨posts_sendTo sig caller priv (t.look null (i + 1)).1 (i + 1), fun k => ?_,
          sendTo_snd sig caller priv (t.look null (i + 1)).1 (i + 1)⟩
        rw [mem_read_sendTo, Jobs.look_read, List.mem_cons]
        have here : i + 1 ≤ k ∧ k ≤ i + 1 ↔ k = i + 1 := by omega
        rw [here]
        tauto
      · have same (k : Nat) :
            ((t.look null (i + 1)).1.look null k).2 = (t.look null k).2 := rfl
        simp only [Jobs.killProcFrom, if_neg found]
        rcases ih (t.look null (i + 1)).1 with
          ⟨j, pos, le, reads, first, posts, read, returns⟩ | ⟨none_found, task, read⟩
        · refine Or.inl ⟨j, pos, by omega, reads, fun k above below => ?_, posts,
            fun k => ?_, returns⟩
          · rcases Nat.lt_or_eq_of_le below with below | rfl
            · exact first k above (by omega)
            · exact found
          · rw [read, Jobs.look_read, List.mem_cons]
            have here : k = i + 1 ∨ j ≤ k ∧ k ≤ i ↔ j ≤ k ∧ k ≤ i + 1 := by omega
            tauto
        · refine Or.inr ⟨fun k pos below => ?_, task, fun k => ?_⟩
          · rcases Nat.lt_or_eq_of_le below with below | rfl
            · exact none_found k pos (by omega)
            · exact found
          · rw [read, Jobs.look_read, List.mem_cons]
            have here : k = i + 1 ∨ 1 ≤ k ∧ k ≤ i ↔ 1 ≤ k ∧ k ≤ i + 1 := by omega
            tauto

/-- The loop over all tasks returns 0 if nothing went wrong. -/
theorem killAllFrom_spec (i : Nat) (retval : Int) (t : Jobs) :
    Posts sig caller false (fun j _ => 1 ≤ j ∧ j ≤ i) t.task
        (t.killAllFrom caller sig i retval).1.task ∧
      (∀ j, j ∈ (t.killAllFrom caller sig i retval).1.read →
        j ∈ t.read ∨ (t.task j).isSome) ∧
      ((t.killAllFrom caller sig i retval).2 = 0 ↔
        retval = 0 ∧ ∀ j, 1 ≤ j → j ≤ i →
          ∃ p, t.task j = some p ∧ Permitted caller false p) := by
  induction i generalizing retval t with
  | zero =>
      refine ⟨Posts.refl fun j p _ inside => by omega, fun j old => Or.inl old, ?_⟩
      constructor
      · exact fun zero => ⟨zero, fun j pos le => by omega⟩
      · exact fun zero => zero.1
  | succ i ih =>
      have posts : Posts sig caller false (fun j _ => j = i + 1) t.task
          (t.sendTo sig caller false (i + 1)).1.task := posts_sendTo sig caller false t (i + 1)
      have arrives : (t.sendTo sig caller false (i + 1)).2 = 0 ↔ _ :=
        sendTo_snd sig caller false t (i + 1)
      have next : t.killAllFrom caller sig (i + 1) retval =
          (t.sendTo sig caller false (i + 1)).1.killAllFrom caller sig i
            (if (t.sendTo sig caller false (i + 1)).2 ≠ 0 then
              (t.sendTo sig caller false (i + 1)).2 else retval) := by
        simp only [Jobs.killAllFrom]
        split <;> rfl
      obtain ⟨restPosts, restRead, restReturns⟩ := ih
        (if (t.sendTo sig caller false (i + 1)).2 ≠ 0 then
          (t.sendTo sig caller false (i + 1)).2 else retval)
        (t.sendTo sig caller false (i + 1)).1
      have others (j : Nat) (le : j ≤ i) :
          (t.sendTo sig caller false (i + 1)).1.task j = t.task j :=
        sendTo_task_of_ne sig caller false t (i + 1) (by omega)
      rw [next]
      refine ⟨?_, fun j read => ?_, ?_⟩
      · refine (posts.trans restPosts ?_).congr fun j p _ => ?_
        · rintro j p q rfl ⟨-, le⟩
          omega
        · omega
      · rcases restRead j read with earlier | occupied
        · rcases (mem_read_sendTo sig caller false t (i + 1) j).mp earlier with old | ⟨rfl, occupied⟩
          · exact Or.inl old
          · exact Or.inr occupied
        · refine Or.inr ?_
          by_contra empty
          rw [Option.not_isSome_iff_eq_none] at empty
          rw [posts.empty j empty] at occupied
          cases occupied
      · rw [restReturns]
        have passed : (if (t.sendTo sig caller false (i + 1)).2 ≠ 0 then
              (t.sendTo sig caller false (i + 1)).2 else retval) = 0 ↔
            retval = 0 ∧ (t.sendTo sig caller false (i + 1)).2 = 0 := by
          split
          case isTrue failed => simp [failed]
          case isFalse sent => simp [not_not.mp sent]
        rw [passed, arrives]
        constructor
        · rintro ⟨⟨zero, here⟩, rest⟩
          refine ⟨zero, fun j pos le => ?_⟩
          rcases Nat.lt_or_eq_of_le le with below | rfl
          · rw [← others j (by omega)]
            exact rest j pos (by omega)
          · exact here
        · rintro ⟨zero, all⟩
          refine ⟨⟨zero, all (i + 1) (by omega) le_rfl⟩, fun j pos le => ?_⟩
          rw [others j le]
          exact all j pos (by omega)

end Loops

/-! ## sys_kill -/

/-- A table as the kernel keeps it: 64 slots, with one pid for each task, task 0 in group
0, and numbers that are an `int`. -/
structure Proper (t : Jobs) : Prop where
  fresh : t.read = []
  slots : ∀ i p, t.task i = some p → i < nrTasks
  idle : ∀ p, t.task 0 = some p → p.pid = 0 ∧ p.pgrp = 0
  pid_inj : ∀ i j p q, t.task i = some p → t.task j = some q → p.pid = q.pid → i = j
  pgrp_lt : ∀ i p, t.task i = some p → p.pgrp < 2 ^ 31

/-- The tasks that `pid` names: the task with that pid, the caller's group, all tasks but
task 0, or a group. -/
def Named (caller : Job) (pid : Int) (i : Nat) (p : Job) : Prop :=
  (0 < pid ∧ p.pid = pid) ∨ (pid = 0 ∧ p.pgrp = caller.pgrp) ∨ (pid = -1 ∧ i ≠ 0) ∨
    (pid < -1 ∧ p.pgrp = -pid)

/-- The signal is sent to exactly the named tasks, no empty slot is read, and the call
returns 0 if a named task could be signalled. -/
structure Routes (null : NullJob) (caller : Job) (sig : UInt32) (pid : Int) (t : Jobs) :
    Prop where
  posts : Posts sig caller false (Named caller pid) t.task
    (t.sysKill null caller sig pid).1.task
  read : ∀ i ∈ (t.sysKill null caller sig pid).1.read, (t.task i).isSome
  returns : (∃ i p, t.task i = some p ∧ Named caller pid i p ∧ Permitted caller false p) →
    (t.sysKill null caller sig pid).2 = 0

/-- No slot but perhaps that of task 0 is empty. -/
def Full (t : Jobs) : Prop := ∀ i, 1 ≤ i → i < nrTasks → (t.task i).isSome

/-- The group that the call for pid 0 looks for: the caller's pid, taken as a group. -/
def InOwn (caller : Job) (i : Nat) (p : Job) : Prop :=
  1 ≤ i ∧ 0 < caller.pid ∧ p.pgrp = caller.pid

/-- When a call does what its pid says. -/
structure Reaches (caller : Job) (sig : UInt32) (pid : Int) (t : Jobs) : Prop where
  /-- Every empty slot is below the slot of the task. -/
  single : 0 < pid → ∀ i, 1 ≤ i → i < nrTasks → t.task i = none →
    ∃ j p, i < j ∧ t.task j = some p ∧ p.pid = pid
  /-- The table is full, and the group with the number of the caller's pid is the caller's
  group, as far as the signal changes or reaches anything in them. -/
  ownGroup : pid = 0 →
    (0 < caller.pid → Full t) ∧
      (∀ i p, t.task i = some p → ¬ (p.pgrp = caller.pgrp ↔ InOwn caller i p) →
        (sendSig sig caller false p).1 = p) ∧
      ((∃ i p, t.task i = some p ∧ p.pgrp = caller.pgrp ∧ Permitted caller false p) →
        ∃ i p, t.task i = some p ∧ InOwn caller i p ∧ Permitted caller false p)
  /-- No task may be signalled, or all slots have a task that may be. -/
  all : pid = -1 → (∃ i p, i ≠ 0 ∧ t.task i = some p ∧ Permitted caller false p) →
    ∀ i, 1 ≤ i → i < nrTasks → ∃ p, t.task i = some p ∧ Permitted caller false p
  /-- The table is full, or the group is no `int`. -/
  group : pid < -1 → pid = -2 ^ 31 ∨ Full t

section Routing

variable {null : NullJob} {caller : Job} {sig : UInt32} {pid : Int} {t : Jobs}

theorem Posts.eq_of_iff {names : Nat → Job → Prop} {task final : Nat → Option Job}
    (posts : Posts sig caller false names task final) (more : Nat → Job → Prop) :
    Posts sig caller false more task final ↔
      ∀ i p, task i = some p → ¬ (more i p ↔ names i p) →
        (sendSig sig caller false p).1 = p := by
  constructor
  · intro also i p occupied differ
    by_cases named : names i p
    · have other : ¬ more i p := fun here => differ ⟨fun _ => named, fun _ => here⟩
      exact Option.some.inj
        ((posts.named i p occupied named).symm.trans (also.others i p occupied other))
    · have here : more i p := by
        by_contra other
        exact differ ⟨fun here => absurd here other, fun here => absurd here named⟩
      exact Option.some.inj
        ((also.named i p occupied here).symm.trans (posts.others i p occupied named))
  · intro same
    refine ⟨posts.empty, fun i p occupied here => ?_, fun i p occupied other => ?_⟩
    · by_cases named : names i p
      · exact posts.named i p occupied named
      · rw [same i p occupied fun iff => named (iff.mp here)]
        exact posts.others i p occupied named
    · by_cases named : names i p
      · rw [posts.named i p occupied named,
          same i p occupied fun iff => other (iff.mpr named)]
      · exact posts.others i p occupied named

theorem not_badSignal (signal : 1 ≤ sig ∧ sig ≤ 32) :
    ¬ (sig.toInt32 < 1 ∨ sig.toInt32 > 32) := by
  rw [UInt32.le_iff_toNat_le, UInt32.le_iff_toNat_le] at signal
  simp only [UInt32.reduceToNat] at signal
  have value : sig.toInt32.toInt = sig.toNat := by
    refine (BitVec.toInt_eq_toNat_bmod sig.toBitVec).trans ?_
    exact Int.bmod_eq_of_le (by simp) (by simp; omega)
  have one : (1 : Int32).toInt = 1 := rfl
  have last : (32 : Int32).toInt = 32 := rfl
  simp only [gt_iff_lt, Int32.lt_iff_toInt_lt, value, one, last]
  omega

theorem killPg_of_pos (signal : ¬ (sig.toInt32 < 1 ∨ sig.toInt32 > 32)) {pgrp : Int}
    (pos : 0 < pgrp) :
    t.killPg null caller sig pgrp false =
      t.killPgFrom null caller sig pgrp false (nrTasks - 1) 0 (-eSrch) := by
  rw [Jobs.killPg, if_neg]
  rintro (low | high | zero)
  · exact signal (Or.inl low)
  · exact signal (Or.inr high)
  · omega

theorem killPg_of_not_pos {pgrp : Int} (notPos : ¬ 0 < pgrp) :
    t.killPg null caller sig pgrp false = (t, -eInval) := by
  rw [Jobs.killPg, if_pos (Or.inr (Or.inr (not_lt.mp notPos)))]

variable (null caller) in
theorem killPg_spec (proper : Proper t) (signal : ¬ (sig.toInt32 < 1 ∨ sig.toInt32 > 32))
    {pgrp : Int} (pos : 0 < pgrp) :
    Posts sig caller false (fun i p => 1 ≤ i ∧ p.pgrp = pgrp) t.task
        (t.killPg null caller sig pgrp false).1.task ∧
      ((∀ i ∈ (t.killPg null caller sig pgrp false).1.read, (t.task i).isSome) ↔ Full t) ∧
      ((t.killPg null caller sig pgrp false).2 = 0 ↔
        ∃ i p, t.task i = some p ∧ (1 ≤ i ∧ p.pgrp = pgrp) ∧ Permitted caller false p) := by
  rw [killPg_of_pos signal pos]
  obtain ⟨posts, read, returns⟩ := killPgFrom_spec sig caller false null pgrp
    (nrTasks - 1) 0 (-eSrch) t
  have inside {i : Nat} {p : Job} (occupied : t.task i = some p) :
      InGroup pgrp (nrTasks - 1) i p ↔ 1 ≤ i ∧ p.pgrp = pgrp := by
    have := proper.slots i p occupied
    have : i ≤ nrTasks - 1 := by omega
    simp only [InGroup, this, true_and]
  refine ⟨posts.congr fun i p occupied => inside occupied, ?_, ?_⟩
  · simp only [read, proper.fresh, List.not_mem_nil, false_or]
    constructor
    · intro all i first last
      exact all i ⟨first, by omega⟩
    · rintro full i ⟨first, last⟩
      exact full i first (by simp only [nrTasks] at last ⊢; omega)
  · rw [returns (by decide)]
    simp only [ne_eq, not_true, false_or]
    refine exists_congr fun i => exists_congr fun p => and_congr_right fun occupied => ?_
    rw [inside occupied]

/-- A positive pid. -/
theorem routes_iff_single (proper : Proper t)
    (signal : ¬ (sig.toInt32 < 1 ∨ sig.toInt32 > 32)) (pos : 0 < pid) :
    Routes null caller sig pid t ↔
      ∀ i, 1 ≤ i → i < nrTasks → t.task i = none →
        ∃ j p, i < j ∧ t.task j = some p ∧ p.pid = pid := by
  have call : t.sysKill null caller sig pid =
      t.killProcFrom null caller sig pid false (nrTasks - 1) := by
    rw [Jobs.sysKill, if_neg (by omega), if_neg (by omega), if_neg (by omega), Jobs.killProc,
      if_neg signal]
  have named (i : Nat) (p : Job) : Named caller pid i p ↔ p.pid = pid := by
    simp only [Named]
    constructor
    · rintro (⟨-, same⟩ | ⟨zero, -⟩ | ⟨minus, -⟩ | ⟨below, -⟩)
      · exact same
      all_goals omega
    · exact fun same => Or.inl ⟨pos, same⟩
  have last {i : Nat} {p : Job} (occupied : t.task i = some p) : i ≤ nrTasks - 1 := by
    have := proper.slots i p occupied
    omega
  have looked {i : Nat} {p : Job} (occupied : t.task i = some p) :
      (t.look null i).2.pid = p.pid := by
    rw [Jobs.look_snd null occupied]
  have found := killProcFrom_spec sig caller false null pid (nrTasks - 1) t
  simp only [proper.fresh, List.not_mem_nil, false_or] at found
  constructor
  · intro routes i first below empty
    have notRead : i ∉ (t.sysKill null caller sig pid).1.read := fun read => by
      have := routes.read i read
      rw [empty] at this
      cases this
    rw [call] at notRead
    rcases found with ⟨j, jPos, jLe, same, -, -, read, -⟩ | ⟨-, -, read⟩
    · have above : i < j := by
        by_contra le
        exact notRead ((read i).mpr ⟨by omega, by omega⟩)
      have occupied := routes.read j (by rw [call]; exact (read j).mpr ⟨le_rfl, jLe⟩)
      obtain ⟨p, occupied⟩ := Option.isSome_iff_exists.mp occupied
      exact ⟨j, p, above, occupied, (looked occupied).symm.trans same⟩
    · exact absurd ((read i).mpr ⟨first, by omega⟩) notRead
  · intro covered
    rcases found with ⟨j, jPos, jLe, same, highest, posts, read, returns⟩ | ⟨nobody, task, read⟩
    · have occupied (k : Nat) (le : j ≤ k) (kLe : k ≤ nrTasks - 1) : (t.task k).isSome := by
        by_contra empty
        rw [Option.not_isSome_iff_eq_none] at empty
        obtain ⟨i, p, above, there, samePid⟩ :=
          covered k (by omega) (by simp only [nrTasks] at kLe ⊢; omega) empty
        exact highest i (by omega) (last there) ((looked there).trans samePid)
      obtain ⟨p, here⟩ := Option.isSome_iff_exists.mp (occupied j le_rfl jLe)
      have unique {i : Nat} {q : Job} (there : t.task i = some q) : i = j ↔ q.pid = pid := by
        rw [looked here] at same
        constructor
        · rintro rfl
          rw [Option.some.inj (there.symm.trans here), same]
        · exact fun samePid => proper.pid_inj i j q p there here (samePid.trans same.symm)
      constructor
      · rw [call]
        exact posts.congr fun i q there => (unique there).trans (named i q).symm
      · rw [call]
        exact fun i inRead => occupied i ((read i).mp inRead).1 ((read i).mp inRead).2
      · rintro ⟨i, q, there, isNamed, permitted⟩
        obtain rfl := (unique there).mpr ((named i q).mp isNamed)
        rw [call]
        exact returns.mpr ⟨q, there, permitted⟩
    · have unnamed {i : Nat} {q : Job} (there : t.task i = some q) : q.pid ≠ pid := by
        rintro rfl
        have first : 1 ≤ i := by
          by_contra zero
          obtain rfl : i = 0 := by omega
          have := (proper.idle q there).1
          omega
        exact nobody i first (last there) (looked there)
      constructor
      · rw [call, task]
        exact Posts.refl fun i q there isNamed => unnamed there ((named i q).mp isNamed)
      · rw [call]
        intro i inRead
        obtain ⟨first, iLe⟩ := (read i).mp inRead
        by_contra empty
        rw [Option.not_isSome_iff_eq_none] at empty
        obtain ⟨j, p, above, there, samePid⟩ :=
          covered i first (by simp only [nrTasks] at iLe ⊢; omega) empty
        exact unnamed there samePid
      · rintro ⟨i, q, there, isNamed, -⟩
        exact absurd ((named i q).mp isNamed) (unnamed there)

/-- Pid 0. -/
theorem routes_iff_own (proper : Proper t)
    (signal : ¬ (sig.toInt32 < 1 ∨ sig.toInt32 > 32)) (zero : pid = 0) :
    Routes null caller sig pid t ↔
      (0 < caller.pid → Full t) ∧
        (∀ i p, t.task i = some p → ¬ (p.pgrp = caller.pgrp ↔ InOwn caller i p) →
          (sendSig sig caller false p).1 = p) ∧
        ((∃ i p, t.task i = some p ∧ p.pgrp = caller.pgrp ∧ Permitted caller false p) →
          ∃ i p, t.task i = some p ∧ InOwn caller i p ∧ Permitted caller false p) := by
  have call : t.sysKill null caller sig pid = t.killPg null caller sig caller.pid false := by
    rw [Jobs.sysKill, if_pos zero]
  have named (i : Nat) (p : Job) : Named caller pid i p ↔ p.pgrp = caller.pgrp := by
    simp only [Named]
    constructor
    · rintro (⟨pos, -⟩ | ⟨-, same⟩ | ⟨minus, -⟩ | ⟨below, -⟩)
      · omega
      · exact same
      all_goals omega
    · exact fun same => Or.inr (Or.inl ⟨zero, same⟩)
  -- What the call does, in both cases of the caller's pid.
  have does : Posts sig caller false (InOwn caller) t.task
        (t.killPg null caller sig caller.pid false).1.task ∧
      ((∀ i ∈ (t.killPg null caller sig caller.pid false).1.read, (t.task i).isSome) ↔
        (0 < caller.pid → Full t)) ∧
      ((t.killPg null caller sig caller.pid false).2 = 0 ↔
        ∃ i p, t.task i = some p ∧ InOwn caller i p ∧ Permitted caller false p) := by
    by_cases pos : 0 < caller.pid
    · have inOwn : InOwn caller = fun i p => 1 ≤ i ∧ p.pgrp = caller.pid := by
        funext i p
        simp only [InOwn, pos, true_and]
      simpa only [inOwn, pos, forall_const] using
        killPg_spec null caller proper signal pos
    · have nobody (i : Nat) (p : Job) : ¬ InOwn caller i p := fun own => pos own.2.1
      rw [killPg_of_not_pos pos]
      refine ⟨Posts.refl fun i p _ => nobody i p, ?_, ?_⟩
      · simp only [proper.fresh, List.not_mem_nil, false_implies, implies_true, pos]
      · simp [nobody, eInval]
  obtain ⟨posts, read, returns⟩ := does
  have same := posts.eq_of_iff (Named caller pid)
  simp only [named] at same
  have reformulated : Routes null caller sig pid t ↔
      Posts sig caller false (Named caller pid) t.task
          (t.killPg null caller sig caller.pid false).1.task ∧
        (∀ i ∈ (t.killPg null caller sig caller.pid false).1.read, (t.task i).isSome) ∧
        ((∃ i p, t.task i = some p ∧ Named caller pid i p ∧ Permitted caller false p) →
          (t.killPg null caller sig caller.pid false).2 = 0) := by
    rw [← call]
    exact ⟨fun ⟨a, b, c⟩ => ⟨a, b, c⟩, fun ⟨a, b, c⟩ => ⟨a, b, c⟩⟩
  rw [reformulated, same, read, returns]
  simp only [named]
  tauto

/-- A group. -/
theorem routes_iff_group (proper : Proper t)
    (signal : ¬ (sig.toInt32 < 1 ∨ sig.toInt32 > 32)) (isInt : -2 ^ 31 ≤ pid)
    (below : pid < -1) :
    Routes null caller sig pid t ↔ pid = -2 ^ 31 ∨ Full t := by
  have call : t.sysKill null caller sig pid =
      t.killPg null caller sig (Int.bmod (-pid) (2 ^ 32)) false := by
    rw [Jobs.sysKill, if_neg (by omega), if_neg (by omega), if_pos (by omega)]
  have named (i : Nat) (p : Job) : Named caller pid i p ↔ p.pgrp = -pid := by
    simp only [Named]
    constructor
    · rintro (⟨pos, -⟩ | ⟨zero, -⟩ | ⟨minus, -⟩ | ⟨-, same⟩)
      · omega
      · omega
      · omega
      · exact same
    · exact fun same => Or.inr (Or.inr (Or.inr ⟨below, same⟩))
  by_cases least : pid = -2 ^ 31
  · have overflow : Int.bmod (-pid) (2 ^ 32) = -2 ^ 31 := by
      rw [least]
      decide
    have unnamed {i : Nat} {p : Job} (occupied : t.task i = some p) : ¬ Named caller pid i p := by
      rw [named]
      have := proper.pgrp_lt i p occupied
      omega
    refine iff_of_true ?_ (Or.inl least)
    rw [overflow, killPg_of_not_pos (by decide)] at call
    constructor
    · rw [call]
      exact Posts.refl fun i p => unnamed
    · rw [call]
      simp [proper.fresh]
    · rintro ⟨i, p, occupied, isNamed, -⟩
      exact absurd isNamed (unnamed occupied)
  · have negated : Int.bmod (-pid) (2 ^ 32) = -pid := by
      simp only [Int.bmod]
      split <;> omega
    rw [negated] at call
    obtain ⟨posts, read, returns⟩ := killPg_spec null caller proper signal
      (show 0 < -pid by omega)
    rw [← call] at posts read returns
    have group {i : Nat} {p : Job} (occupied : t.task i = some p) :
        1 ≤ i ∧ p.pgrp = -pid ↔ Named caller pid i p := by
      rw [named, and_iff_right_iff_imp]
      intro same
      by_contra zero
      obtain rfl : i = 0 := by omega
      have := (proper.idle p occupied).2
      omega
    simp only [least, false_or]
    constructor
    · exact fun routes => read.mp routes.read
    · intro full
      refine ⟨posts.congr fun i p occupied => group occupied, read.mpr full, ?_⟩
      rintro ⟨i, p, occupied, isNamed, permitted⟩
      exact returns.mpr ⟨i, p, occupied, (group occupied).mpr isNamed, permitted⟩

/-- Pid -1. -/
theorem routes_iff_all (proper : Proper t) (minus : pid = -1) :
    Routes null caller sig pid t ↔
      ((∃ i p, i ≠ 0 ∧ t.task i = some p ∧ Permitted caller false p) →
        ∀ i, 1 ≤ i → i < nrTasks → ∃ p, t.task i = some p ∧ Permitted caller false p) := by
  have call : t.sysKill null caller sig pid =
      t.killAllFrom caller sig (nrTasks - 1) 0 := by
    rw [Jobs.sysKill, if_neg (by omega), if_pos minus]
  have named (i : Nat) (p : Job) : Named caller pid i p ↔ i ≠ 0 := by
    simp only [Named]
    constructor
    · rintro (⟨pos, -⟩ | ⟨zero, -⟩ | ⟨-, ne⟩ | ⟨below, -⟩)
      · omega
      · omega
      · exact ne
      · omega
    · exact fun ne => Or.inr (Or.inr (Or.inl ⟨minus, ne⟩))
  obtain ⟨posts, read, returns⟩ := killAllFrom_spec sig caller (nrTasks - 1) 0 t
  rw [← call] at posts read returns
  constructor
  · rintro routes ⟨i, p, ne, occupied, permitted⟩ j first last
    have zero := routes.returns ⟨i, p, occupied, (named i p).mpr ne, permitted⟩
    exact (returns.mp zero).2 j first (by omega)
  · intro all
    refine ⟨posts.congr fun i p occupied => ?_, fun i inRead => ?_, ?_⟩
    · rw [named]
      have := proper.slots i p occupied
      omega
    · rcases read i inRead with old | occupied
      · rw [proper.fresh] at old
        cases old
      · exact occupied
    · rintro ⟨i, p, occupied, isNamed, permitted⟩
      refine returns.mpr ⟨rfl, fun j first le => ?_⟩
      exact all ⟨i, p, (named i p).mp isNamed, occupied, permitted⟩ j first
        (by simp only [nrTasks] at le ⊢; omega)

/-- `sys_kill` does what its pid says on exactly the tables that `Reaches` describes. -/
theorem routes_iff (null : NullJob) (caller : Job) (sig : UInt32) (pid : Int) (t : Jobs)
    (proper : Proper t) (signal : 1 ≤ sig ∧ sig ≤ 32) (isInt : -2 ^ 31 ≤ pid) :
    Routes null caller sig pid t ↔ Reaches caller sig pid t := by
  have signal := not_badSignal signal
  rcases lt_trichotomy pid 0 with negative | zero | pos
  · by_cases minus : pid = -1
    · rw [routes_iff_all proper minus]
      constructor
      · intro all
        exact ⟨fun pos => by omega, fun zero => by omega, fun _ => all, fun below => by omega⟩
      · exact fun reaches => reaches.all minus
    · rw [routes_iff_group proper signal isInt (by omega)]
      constructor
      · intro group
        exact ⟨fun pos => by omega, fun zero => by omega, fun same => absurd same minus,
          fun _ => group⟩
      · exact fun reaches => reaches.group (by omega)
  · rw [routes_iff_own proper signal zero]
    constructor
    · intro own
      exact ⟨fun pos => by omega, fun _ => own, fun minus => by omega, fun below => by omega⟩
    · exact fun reaches => reaches.ownGroup zero
  · rw [routes_iff_single proper signal pos]
    constructor
    · intro single
      exact ⟨fun _ => single, fun zero => by omega, fun minus => by omega,
        fun below => by omega⟩
    · exact fun reaches => reaches.single pos

end Routing

/-- A task that has nothing special about it. -/
def plain (pid pgrp : Int) : Job where
  pid := pid
  pgrp := pgrp
  euid := 0
  state := .running
  exitCode := 0
  signal := 0
  saHandler _ := 0

/-- A full table, with all tasks but task 0 in the group of init. -/
def family : Jobs where
  task i := if i < nrTasks then some (plain i (if i = 0 then 0 else 1)) else none
  read := []

theorem family_proper : Proper family := by
  have members {i : Nat} {p : Job} (occupied : family.task i = some p) :
      i < nrTasks ∧ p = plain i (if i = 0 then 0 else 1) := by
    simp only [family] at occupied
    split at occupied
    case isTrue inside => exact ⟨inside, (Option.some.inj occupied).symm⟩
    case isFalse => cases occupied
  refine ⟨rfl, fun i p occupied => (members occupied).1, fun p occupied => ?_,
    fun i j p q here there same => ?_, fun i p occupied => ?_⟩
  · obtain ⟨-, rfl⟩ := members occupied
    exact ⟨rfl, rfl⟩
  · obtain ⟨-, rfl⟩ := members here
    obtain ⟨-, rfl⟩ := members there
    exact Int.ofNat.inj same
  · obtain ⟨-, rfl⟩ := members occupied
    simp only [plain]
    split <;> decide

/-- One task of it is sent `SIGTERM`. -/
theorem routes_iff_family :
    Proper family ∧ (Routes ⟨0, 0⟩ (plain 2 1) 15 7 family ↔ Reaches (plain 2 1) 15 7 family) :=
  ⟨family_proper,
    routes_iff ⟨0, 0⟩ (plain 2 1) 15 7 family family_proper ⟨by decide, by decide⟩ (by decide)⟩

/-- A task that is not the leader of its group signals nobody with pid 0. -/
theorem not_routes_family :
    Proper family ∧ family.task 2 = some (plain 2 1) ∧
      ¬ Routes ⟨0, 0⟩ (plain 2 1) 15 0 family := by
  refine ⟨family_proper, rfl, fun routes => ?_⟩
  have own := (routes_iff_own family_proper (not_badSignal ⟨by decide, by decide⟩) rfl).mp routes
  obtain ⟨i, p, occupied, ⟨-, -, group⟩, -⟩ := own.2.2 ⟨1, plain 1 1, rfl, rfl, by decide⟩
  simp only [family] at occupied
  split at occupied
  case isTrue =>
    cases occupied
    simp only [plain] at group
    split at group <;> omega
  case isFalse => cases occupied

end Linux012.Kernel.Kill
