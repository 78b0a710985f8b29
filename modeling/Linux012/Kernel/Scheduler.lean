import Linux012.Kernel.WaitQueue

/-!
# The choice of the next task

`schedule` of `sched.c`, and what `do_timer` does to the counter of the current task.
-/

namespace Linux012.Kernel

/-- What `schedule` reads of a task.  Both numbers are an `int`. -/
structure Runner extends Sleeper where
  counter : Int
  priority : Int
  deriving DecidableEq, Repr

/-- `task[]`, by the number of the slot, with `current` and `jiffies`. -/
structure Schedule where
  task : Nat → Option Runner
  current : Nat
  jiffies : UInt32

/-- An `int`, from what an addition gives. -/
def toInt32 (value : Int) : Int := Int.bmod value (2 ^ 32)

namespace Schedule

/-- Each of the tasks but task 0. -/
def mapTasks (change : Runner → Runner) (t : Schedule) : Schedule :=
  { t with task := fun i => if 1 ≤ i ∧ i < nrTasks then (t.task i).map change else t.task i }

/-- "check alarm, wake up any interruptible tasks that have got a signal". -/
def check (t : Schedule) : Schedule :=
  t.mapTasks fun p => { p with toSleeper := p.toSleeper.check t.jiffies }

/-- The search from slot `i` down to slot 1. -/
def search (t : Schedule) : (i : Nat) → (c : Int) → (next : Nat) → Int × Nat
  | 0, c, next => (c, next)
  | i + 1, c, next =>
      match t.task (i + 1) with
      | none => t.search i c next
      | some p =>
          if p.state = .running ∧ p.counter > c then t.search i p.counter (i + 1)
          else t.search i c next

/-- `counter = (counter >> 1) + priority`, for all tasks. -/
def recharge (t : Schedule) : Schedule :=
  t.mapTasks fun p => { p with counter := toInt32 (p.counter / 2 + p.priority) }

/-- "the scheduler proper", for as many rounds of it. -/
def select (t : Schedule) : (rounds : Nat) → Option (Nat × Schedule)
  | 0 => none
  | rounds + 1 =>
      let (c, next) := t.search (nrTasks - 1) (-1) 0
      if c ≠ 0 then some (next, t) else t.recharge.select rounds

/-- `schedule`. -/
def schedule (t : Schedule) (rounds : Nat) : Option Schedule :=
  (t.check.select rounds).map fun (next, t) => { t with current := next }

/-- The current task becomes `p`. -/
def setCurrent (t : Schedule) (p : Runner) : Schedule :=
  { t with task := Function.update t.task t.current (some p) }

/-- What `do_timer` does behind the timers, with `cpl` not 0 when the program runs. -/
def doTimer (t : Schedule) (cpl : Bool) (rounds : Nat) : Option Schedule :=
  match t.task t.current with
  | none => none
  | some p =>
      if toInt32 (p.counter - 1) > 0 then
        some (t.setCurrent { p with counter := toInt32 (p.counter - 1) })
      else
        let t := t.setCurrent { p with counter := 0 }
        if cpl then t.schedule rounds else some t

/-- What `copy_process` puts into the slot that `find_empty_process` found: a copy of
the current task with `counter = priority`. -/
def fork (t : Schedule) (nr : Nat) (fields : Sleeper) : Option Schedule :=
  match t.task t.current with
  | none => none
  | some p =>
      if 1 ≤ nr ∧ nr < nrTasks ∧ t.task nr = none then
        some { t with
          task := Function.update t.task nr
            (some { p with toSleeper := fields, counter := p.priority }) }
      else none

/-- `task[nr] = NULL` of `release`. -/
def release (t : Schedule) (nr : Nat) : Schedule :=
  { t with task := Function.update t.task nr none }

/-- The fields of a task that others write: signals, alarms, its state. -/
def elsewhere (t : Schedule) (nr : Nat) (fields : Sleeper) : Schedule :=
  { t with
    task := Function.update t.task nr
      ((t.task nr).map fun p => { p with toSleeper := fields }) }

end Schedule

/-- What happens to a task table. -/
inductive ScheduleAction where
  | schedule (rounds : Nat)
  | tick (cpl : Bool) (rounds : Nat)
  | fork (nr : Nat) (fields : Sleeper)
  | release (nr : Nat)
  | elsewhere (nr : Nat) (fields : Sleeper)
  | clock (jiffies : UInt32)

namespace Schedule

def step (t : Schedule) : ScheduleAction → Option Schedule
  | .schedule rounds => t.schedule rounds
  | .tick cpl rounds => t.doTimer cpl rounds
  | .fork nr fields => t.fork nr fields
  | .release nr => some (t.release nr)
  | .elsewhere nr fields => some (t.elsewhere nr fields)
  | .clock jiffies => some { t with jiffies }

/-! ### What the choice is meant to be -/

/-- A counter within twice the priority; both are an `int`. -/
structure Fair (p : Runner) : Prop where
  priority_pos : 1 ≤ p.priority
  priority_lt : p.priority < 2 ^ 31
  counter_nonneg : 0 ≤ p.counter
  counter_lt : p.counter < 2 ^ 31
  counter_le : p.counter ≤ 2 * p.priority

/-- Every task has a priority and a counter within twice of it. -/
def Valid (t : Schedule) : Prop :=
  ∀ i p, t.task i = some p → Fair p

/-- Task `p` of slot `i` is not task 0 and can run. -/
def Runnable (t : Schedule) (i : Nat) (p : Runner) : Prop :=
  1 ≤ i ∧ i < nrTasks ∧ t.task i = some p ∧ p.state = .running

/-- Task 0 if no other can run, else the highest slot with the largest counter. -/
def Selected (t : Schedule) (next : Nat) : Prop :=
  (next = 0 ∧ ∀ i p, ¬ t.Runnable i p) ∨
    ∃ p, t.Runnable next p ∧ ∀ i q, t.Runnable i q →
      q.counter ≤ p.counter ∧ (q.counter = p.counter → i ≤ next)

/-- The selection ends after at most one recharge, picks the right task and keeps the
counters within their bounds. -/
def SelectsRight (t : Schedule) : Prop :=
  ∃ next table, t.check.select 2 = some (next, table) ∧
    (table = t.check ∨ table = t.check.recharge) ∧
    table.Selected next ∧ table.Valid

/-- Tasks can run, but their time is up. -/
def TimeUp (t : Schedule) : Prop :=
  (∃ i p, t.Runnable i p) ∧ ∀ i p, t.Runnable i p → p.counter = 0

/-- If there is a recharge, then every new counter is an `int`. -/
def Fits (t : Schedule) : Prop :=
  t.check.TimeUp → ∀ i p, 1 ≤ i → i < nrTasks → t.task i = some p →
    p.counter / 2 + p.priority < 2 ^ 31

/-- The calls of `schedule` in a step find a table that fits. -/
def FitsStep (t : Schedule) : ScheduleAction → Prop
  | .schedule _ => t.Fits
  | .tick cpl _ =>
      cpl = true → ∀ p, t.task t.current = some p → p.counter ≤ 1 →
        (t.setCurrent { p with counter := 0 }).Fits
  | _ => True

/-! ### The search -/

section Search

variable {t : Schedule}

/-- The best runnable task of the slots up to `i` is found, if it beats `c`. -/
theorem search_spec (i : Nat) (c : Int) (next : Nat) (inTable : i < nrTasks) :
    (t.search i c next = (c, next) ∧
        ∀ j p, j ≤ i → t.Runnable j p → p.counter ≤ c) ∨
      ∃ best p, best ≤ i ∧ t.Runnable best p ∧ c < p.counter ∧
        t.search i c next = (p.counter, best) ∧
        ∀ j q, j ≤ i → t.Runnable j q →
          q.counter ≤ p.counter ∧ (q.counter = p.counter → j ≤ best) := by
  induction i generalizing c next with
  | zero =>
      refine Or.inl ⟨rfl, fun j p jLe runnable => ?_⟩
      have := runnable.1
      omega
  | succ i ih =>
      rw [search]
      split
      case h_1 empty =>
        have last : ∀ j p, j ≤ i + 1 → t.Runnable j p → j ≤ i := by
          rintro j p jLe ⟨-, -, occupied, -⟩
          by_contra beyond
          obtain rfl : j = i + 1 := by omega
          rw [empty] at occupied
          cases occupied
        rcases ih c next (by omega) with ⟨found, rest⟩ | ⟨best, p, bestLe, runs, beats, found, rest⟩
        · exact Or.inl ⟨found, fun j p jLe runs => rest j p (last j p jLe runs) runs⟩
        · exact Or.inr ⟨best, p, by omega, runs, beats, found,
            fun j q jLe runs => rest j q (last j q jLe runs) runs⟩
      case h_2 p occupied =>
        split
        case isTrue better =>
          have runs : t.Runnable (i + 1) p := ⟨by omega, inTable, occupied, better.1⟩
          refine Or.inr ?_
          rcases ih p.counter (i + 1) (by omega) with
            ⟨found, rest⟩ | ⟨best, q, bestLe, bestRuns, beats, found, rest⟩
          · refine ⟨i + 1, p, le_rfl, runs, better.2, found, fun j q jLe qRuns => ?_⟩
            rcases Nat.lt_or_ge i j with above | below
            · obtain rfl : j = i + 1 := by omega
              obtain rfl : p = q := Option.some.inj (occupied.symm.trans qRuns.2.2.1)
              exact ⟨le_rfl, fun _ => le_rfl⟩
            · exact ⟨rest j q below qRuns, fun _ => by omega⟩
          · refine ⟨best, q, by omega, bestRuns, lt_trans better.2 beats, found,
              fun j r jLe rRuns => ?_⟩
            rcases Nat.lt_or_ge i j with above | below
            · obtain rfl : j = i + 1 := by omega
              obtain rfl : p = r := Option.some.inj (occupied.symm.trans rRuns.2.2.1)
              exact ⟨beats.le, fun same => absurd same beats.ne⟩
            · exact rest j r below rRuns
        case isFalse worse =>
          have last : ∀ q, t.Runnable (i + 1) q → q.counter ≤ c := by
            intro q qRuns
            obtain rfl : p = q := Option.some.inj (occupied.symm.trans qRuns.2.2.1)
            exact not_lt.mp fun beats => worse ⟨qRuns.2.2.2, beats⟩
          rcases ih c next (by omega) with
            ⟨found, rest⟩ | ⟨best, q, bestLe, bestRuns, beats, found, rest⟩
          · refine Or.inl ⟨found, fun j q jLe qRuns => ?_⟩
            rcases Nat.lt_or_ge i j with above | below
            · obtain rfl : j = i + 1 := by omega
              exact last q qRuns
            · exact rest j q below qRuns
          · refine Or.inr ⟨best, q, by omega, bestRuns, beats, found, fun j r jLe rRuns => ?_⟩
            rcases Nat.lt_or_ge i j with above | below
            · obtain rfl : j = i + 1 := by omega
              have := last r rRuns
              exact ⟨by omega, fun same => by omega⟩
            · exact rest j r below rRuns

/-- With no counter below 0, the search finds no task or the right one. -/
theorem search_selects (nonneg : ∀ i p, t.Runnable i p → 0 ≤ p.counter) :
    t.Selected (t.search (nrTasks - 1) (-1) 0).2 ∧
      ((t.search (nrTasks - 1) (-1) 0).1 = 0 ↔ t.TimeUp) := by
  rcases t.search_spec (nrTasks - 1) (-1) 0 (by decide) with
    ⟨found, rest⟩ | ⟨best, p, -, runs, beats, found, rest⟩
  · have idle : ∀ i p, ¬ t.Runnable i p := by
      intro i p runs
      have := rest i p (by have := runs.2.1; simp only [nrTasks] at this ⊢; omega) runs
      have := nonneg i p runs
      omega
    rw [found]
    refine ⟨Or.inl ⟨rfl, idle⟩, ?_⟩
    constructor
    · intro absurd'
      cases absurd'
    · rintro ⟨⟨i, p, runs⟩, -⟩
      exact absurd runs (idle i p)
  · have rest : ∀ j q, t.Runnable j q →
        q.counter ≤ p.counter ∧ (q.counter = p.counter → j ≤ best) :=
      fun j q qRuns => rest j q
        (by have := qRuns.2.1; simp only [nrTasks] at this ⊢; omega) qRuns
    rw [found]
    refine ⟨Or.inr ⟨p, runs, rest⟩, ?_⟩
    constructor
    · intro zero
      refine ⟨⟨best, p, runs⟩, fun j q qRuns => le_antisymm ?_ (nonneg j q qRuns)⟩
      exact (rest j q qRuns).1.trans_eq zero
    · rintro ⟨-, zero⟩
      exact zero best p runs

theorem select_of_timeUp (nonneg : ∀ i p, t.Runnable i p → 0 ≤ p.counter)
    (timeUp : t.TimeUp) (rounds : Nat) :
    t.select (rounds + 1) = t.recharge.select rounds := by
  have zero := (search_selects nonneg).2.mpr timeUp
  simp only [select]
  rw [if_neg (not_not.mpr zero)]

theorem select_of_not_timeUp (nonneg : ∀ i p, t.Runnable i p → 0 ≤ p.counter)
    (timeLeft : ¬ t.TimeUp) (rounds : Nat) :
    t.select (rounds + 1) = some ((t.search (nrTasks - 1) (-1) 0).2, t) := by
  have left := mt (search_selects nonneg).2.mp timeLeft
  simp only [select]
  rw [if_pos left]

/-- More rounds do not change what was selected. -/
theorem select_add {rounds : Nat} {selected : Nat × Schedule}
    (ends : t.select rounds = some selected) (more : Nat) :
    t.select (rounds + more) = some selected := by
  induction rounds generalizing t with
  | zero => cases ends
  | succ rounds ih =>
      rw [Nat.succ_add]
      simp only [select] at ends ⊢
      split
      case isTrue left =>
        rw [if_pos left] at ends
        exact ends
      case isFalse zero =>
        rw [if_neg zero] at ends
        exact ih ends

end Search

/-! ### The recharge -/

section Recharge

variable {t : Schedule}

theorem mapTasks_eq_some {change : Runner → Runner} {i : Nat} {q : Runner}
    (some_task : 1 ≤ i) (inTable : i < nrTasks) :
    (t.mapTasks change).task i = some q ↔ ∃ p, t.task i = some p ∧ change p = q := by
  simp [mapTasks, some_task, inTable]

theorem Valid.mapTasks {change : Runner → Runner} (valid : t.Valid)
    (fair : ∀ i p, 1 ≤ i → i < nrTasks → t.task i = some p → Fair (change p)) :
    (t.mapTasks change).Valid := by
  intro i q occupied
  by_cases slot : 1 ≤ i ∧ i < nrTasks
  · obtain ⟨p, old, rfl⟩ := (mapTasks_eq_some slot.1 slot.2).mp occupied
    exact fair i p slot.1 slot.2 old
  · refine valid i q ?_
    simpa only [Schedule.mapTasks, if_neg slot] using occupied

theorem Fair.of_eq {p q : Runner} (fair : Fair p) (counter : q.counter = p.counter)
    (priority : q.priority = p.priority) : Fair q where
  priority_pos := priority ▸ fair.priority_pos
  priority_lt := priority ▸ fair.priority_lt
  counter_nonneg := counter ▸ fair.counter_nonneg
  counter_lt := counter ▸ fair.counter_lt
  counter_le := counter ▸ priority ▸ fair.counter_le

theorem Valid.check (valid : t.Valid) : t.check.Valid :=
  valid.mapTasks fun i p _ _ occupied => (valid i p occupied).of_eq rfl rfl

theorem Valid.nonneg (valid : t.Valid) (i : Nat) (p : Runner) (runs : t.Runnable i p) :
    0 ≤ p.counter :=
  (valid i p runs.2.2.1).counter_nonneg

/-- The new counter is a sum, or negative where the sum is no `int`. -/
theorem toInt32_recharge {p : Runner} (fair : Fair p) :
    (p.counter / 2 + p.priority < 2 ^ 31 →
        toInt32 (p.counter / 2 + p.priority) = p.counter / 2 + p.priority) ∧
      (¬ p.counter / 2 + p.priority < 2 ^ 31 →
        toInt32 (p.counter / 2 + p.priority) < 0) := by
  obtain ⟨priorityPos, priorityLt, counterNonneg, counterLt, counterLe⟩ := fair
  constructor
  · intro fits
    simp only [toInt32, Int.bmod]
    split <;> omega
  · intro exceeds
    simp only [toInt32, Int.bmod]
    split <;> omega

theorem recharge_eq_some {i : Nat} {q : Runner} (pos : 1 ≤ i) (inTable : i < nrTasks) :
    t.recharge.task i = some q ↔
      ∃ p, t.task i = some p ∧
        { p with counter := toInt32 (p.counter / 2 + p.priority) } = q :=
  mapTasks_eq_some pos inTable

/-- A recharge that fits keeps every counter within its bounds. -/
theorem Valid.recharge (valid : t.Valid)
    (fits : ∀ i p, 1 ≤ i → i < nrTasks → t.task i = some p →
      p.counter / 2 + p.priority < 2 ^ 31) : t.recharge.Valid := by
  refine valid.mapTasks fun i p pos inTable occupied => ?_
  have fair := valid i p occupied
  have fit := fits i p pos inTable occupied
  rw [(toInt32_recharge fair).1 fit]
  obtain ⟨priorityPos, priorityLt, counterNonneg, counterLt, counterLe⟩ := fair
  constructor <;> simp only <;> omega

/-- Behind a recharge that fits, nobody's time is up. -/
theorem not_timeUp_recharge (valid : t.Valid)
    (fits : ∀ i p, 1 ≤ i → i < nrTasks → t.task i = some p →
      p.counter / 2 + p.priority < 2 ^ 31) : ¬ t.recharge.TimeUp := by
  rintro ⟨⟨i, q, runs⟩, zero⟩
  obtain ⟨p, occupied, rfl⟩ := (recharge_eq_some runs.1 runs.2.1).mp runs.2.2.1
  have fair := valid i p occupied
  have spent : toInt32 (p.counter / 2 + p.priority) = 0 := zero i _ runs
  rw [(toInt32_recharge fair).1 (fits i p runs.1 runs.2.1 occupied)] at spent
  have := fair.priority_pos
  have := fair.counter_nonneg
  omega

/-- `check` changes no counter and no priority. -/
theorem fits_check :
    t.Fits ↔ (t.check.TimeUp → ∀ i p, 1 ≤ i → i < nrTasks → t.check.task i = some p →
      p.counter / 2 + p.priority < 2 ^ 31) := by
  refine imp_congr_right fun _ => forall_congr' fun i => ?_
  constructor
  · intro fits q pos inTable occupied
    obtain ⟨p, old, rfl⟩ := (mapTasks_eq_some pos inTable).mp occupied
    exact fits p pos inTable old
  · intro fits p pos inTable old
    have checked : t.check.task i =
        some { p with toSleeper := p.toSleeper.check t.jiffies } :=
      (mapTasks_eq_some pos inTable).mpr ⟨p, old, rfl⟩
    have fit := fits _ pos inTable checked
    exact fit

end Recharge

/-! ### The selection -/

section Selection

variable {t : Schedule}

theorem selectsRight_of_fits (valid : t.Valid) (fits : t.Fits) : t.SelectsRight := by
  have checked := valid.check
  by_cases timeUp : t.check.TimeUp
  · have fits := fits_check.mp fits timeUp
    have charged := checked.recharge fits
    have left := not_timeUp_recharge checked fits
    refine ⟨_, t.check.recharge, ?_, Or.inr rfl, (search_selects charged.nonneg).1, charged⟩
    rw [select_of_timeUp checked.nonneg timeUp, select_of_not_timeUp charged.nonneg left]
  · refine ⟨_, t.check, select_of_not_timeUp checked.nonneg timeUp 1, Or.inl rfl,
      (search_selects checked.nonneg).1, checked⟩

theorem fits_of_selectsRight (valid : t.Valid) (right : t.SelectsRight) : t.Fits := by
  refine fits_check.mpr fun timeUp i p pos inTable occupied => ?_
  obtain ⟨next, table, ends, -, -, tableValid⟩ := right
  rw [select_of_timeUp valid.check.nonneg timeUp] at ends
  have recharged : table = t.check.recharge := by
    simp only [select] at ends
    split at ends
    case isTrue => exact (congrArg Prod.snd (Option.some.inj ends)).symm
    case isFalse => cases ends
  subst recharged
  by_contra exceeds
  have negative := (toInt32_recharge (valid.check i p occupied)).2 exceeds
  have fair := tableValid i _ ((recharge_eq_some pos inTable).mpr ⟨p, occupied, rfl⟩)
  exact absurd fair.counter_nonneg (not_le.mpr negative)

/-! ### Runs -/

theorem Valid.schedule (valid : t.Valid) (fits : t.Fits) {rounds : Nat} {t' : Schedule}
    (ends : t.schedule rounds = some t') : t'.Valid := by
  obtain ⟨next, table, selected, -, -, tableValid⟩ := selectsRight_of_fits valid fits
  simp only [Schedule.schedule, Option.map_eq_some_iff] at ends
  obtain ⟨⟨next', table'⟩, selected', rfl⟩ := ends
  have same := (select_add selected rounds).symm.trans
    ((Nat.add_comm rounds 2 ▸ select_add selected' 2))
  cases same
  exact tableValid

theorem Valid.update (valid : t.Valid) {nr : Nat} {p : Option Runner}
    (fair : ∀ q, p = some q → Fair q) :
    Valid { t with task := Function.update t.task nr p } := by
  intro i q occupied
  simp only [Function.update_apply] at occupied
  split at occupied
  case isTrue => exact fair q occupied
  case isFalse => exact valid i q occupied

theorem Valid.doTimer (valid : t.Valid) {cpl : Bool} {rounds : Nat} {t' : Schedule}
    (fits : t.FitsStep (.tick cpl rounds)) (ends : t.doTimer cpl rounds = some t') :
    t'.Valid := by
  simp only [Schedule.doTimer] at ends
  split at ends
  case h_1 => cases ends
  case h_2 p occupied =>
    have fair := valid _ p occupied
    obtain ⟨priorityPos, priorityLt, counterNonneg, counterLt, counterLe⟩ := fair
    have tick : toInt32 (p.counter - 1) = p.counter - 1 := by
      simp only [toInt32, Int.bmod]
      split <;> omega
    rw [tick] at ends
    split at ends
    case isTrue left =>
      cases ends
      refine valid.update ?_
      rintro q ⟨rfl⟩
      constructor <;> simp only <;> omega
    case isFalse spent =>
      have spentValid : (t.setCurrent { p with counter := 0 }).Valid := by
        refine valid.update ?_
        rintro q ⟨rfl⟩
        constructor <;> simp only <;> omega
      cases cpl with
      | false =>
          cases ends
          exact spentValid
      | true => exact spentValid.schedule (fits rfl p occupied (by omega)) ends

theorem Valid.step (valid : t.Valid) {action : ScheduleAction} {t' : Schedule}
    (fits : t.FitsStep action) (ends : t.step action = some t') : t'.Valid := by
  cases action with
  | schedule rounds => exact valid.schedule fits ends
  | tick cpl rounds => exact valid.doTimer fits ends
  | fork nr fields =>
      simp only [Schedule.step, fork] at ends
      split at ends
      case h_1 => cases ends
      case h_2 p occupied =>
        split at ends
        case isFalse => cases ends
        case isTrue =>
          cases ends
          refine valid.update ?_
          rintro q ⟨rfl⟩
          obtain ⟨priorityPos, priorityLt, -, -, -⟩ := valid _ p occupied
          constructor <;> simp only <;> omega
  | release nr =>
      cases ends
      exact valid.update fun q occupied => by cases occupied
  | elsewhere nr fields =>
      cases ends
      refine valid.update fun q occupied => ?_
      obtain ⟨p, old, rfl⟩ := Option.map_eq_some_iff.mp occupied
      exact (valid nr p old).of_eq rfl rfl
  | clock jiffies =>
      cases ends
      exact valid

end Selection

/-- A task that can run and has no time left, beside a sleeping one. -/
def beside (counter priority : Int) : Schedule where
  task i :=
    if i = 1 then some ⟨⟨.running, 0, 0, 0, 0⟩, 0, 15⟩
    else if i = 2 then some ⟨⟨.uninterruptible, 0, 0, 0, 0⟩, counter, priority⟩
    else none
  current := 1
  jiffies := 0

theorem beside_valid {counter priority : Int} (fair : Fair ⟨⟨.uninterruptible, 0, 0, 0, 0⟩,
    counter, priority⟩) : (beside counter priority).Valid := by
  intro i p occupied
  simp only [beside] at occupied
  split at occupied
  case isTrue =>
    cases occupied
    constructor <;> decide
  case isFalse =>
    split at occupied
    case isTrue =>
      cases occupied
      exact fair
    case isFalse => cases occupied

end Schedule

end Linux012.Kernel
