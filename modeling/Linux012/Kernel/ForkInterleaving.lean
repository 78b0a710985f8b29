import Linux012.Lib.Run
import Linux012.Kernel.Fork

/-!
# Interleavings of forks and exits

`find_empty_process` hands the new pid to `copy_process` through the global
`last_pid`, and the slot it returns is filled only after `get_free_page`, which
sleeps when it has to write a page to the swap device.  A second
`find_empty_process` in between picks the same slot and moves `last_pid` on.
Without such an overlap the choice is still valid when it is used.
-/

namespace Linux012.Kernel

/-- The slot that a fork has picked and not yet given a running child. -/
def ForkPhase.slot? : ForkPhase → Option (Fin nrTasks)
  | .outside => none
  | .gettingPage nr => some nr
  | .copyingMem nr _ => some nr

/-- What forks are meant to guarantee, whatever they are interleaved with. -/
structure ForkOk (s : State) : Prop where
  /-- No two forks are about to fill, or are filling, the same slot. -/
  slotsDistinct : ∀ c d nr, (s.phase c).slot? = some nr → (s.phase d).slot? = some nr → c = d
  /-- The slot of a fork that waits for its page has not been filled by anyone. -/
  slotEmpty : ∀ c nr, s.phase c = .gettingPage nr → s.task nr = none
  /-- No two tasks have the same pid. -/
  pidsDistinct : ∀ i j p q, s.inSlot i = some p → s.inSlot j = some q → p.pid = q.pid → i = j
  /-- A fork returns the pid of the child that it created. -/
  returnsOwn : ∀ r ∈ s.returns, r.value = r.childPid

/-- No fork starts while another one is between its `find_empty_process` and the
return of its `copy_process`. -/
def NoOverlap (s : State) : ForkAction → Prop
  | .findEmptyProcess _ => ∀ c, s.phase c = .outside
  | _ => True

/-- A process table at rest: no fork is under way, every slot points to a
`task_struct` of its own, and the pids are distinct. -/
structure Settled (s : State) : Prop where
  outside : ∀ c, s.phase c = .outside
  allocated : ∀ i p, s.task i = some p → s.taskStruct p ≠ none
  injective : ∀ i j p, s.task i = some p → s.task j = some p → i = j
  pidsDistinct : ∀ i j p q, s.inSlot i = some p → s.inSlot j = some q → p.pid = q.pid → i = j
  lastPid_lt : s.lastPid < 2 ^ 31
  noReturns : s.returns = []

/-! ## The invariant -/

/-- What the progress of a fork says about the table. -/
def PhaseOk (s : State) : ForkPhase → Prop
  | .outside => True
  | .gettingPage nr => s.task nr = none ∧ s.pidUsed s.lastPid = false
  | .copyingMem nr p =>
      s.task nr = some p ∧ ∃ child, s.taskStruct p = some child ∧
        child.pid = s.lastPid ∧ child.state = .uninterruptible

/-- The invariant of the runs without overlap. -/
structure Inv (s : State) : Prop where
  single : ∀ c d, s.phase c ≠ .outside → s.phase d ≠ .outside → c = d
  phaseOk : ∀ c, PhaseOk s (s.phase c)
  allocated : ∀ i p, s.task i = some p → s.taskStruct p ≠ none
  injective : ∀ i j p, s.task i = some p → s.task j = some p → i = j
  pidsDistinct : ∀ i j p q, s.inSlot i = some p → s.inSlot j = some q → p.pid = q.pid → i = j
  lastPid_lt : s.lastPid < 2 ^ 31
  returnsOwn : ∀ r ∈ s.returns, r.value = r.childPid

theorem Settled.inv {s : State} (settled : Settled s) : Inv s where
  single c d busy _ := absurd (settled.outside c) busy
  phaseOk c := by
    rw [settled.outside c]
    trivial
  allocated := settled.allocated
  injective := settled.injective
  pidsDistinct := settled.pidsDistinct
  lastPid_lt := settled.lastPid_lt
  returnsOwn := by simp [settled.noReturns]

theorem Inv.forkOk {s : State} (inv : Inv s) : ForkOk s where
  slotsDistinct c d nr atC atD := by
    apply inv.single
    · intro outside
      simp [outside, ForkPhase.slot?] at atC
    · intro outside
      simp [outside, ForkPhase.slot?] at atD
  slotEmpty c nr waiting := by
    have ok := inv.phaseOk c
    rw [waiting] at ok
    exact ok.1
  pidsDistinct := inv.pidsDistinct
  returnsOwn := inv.returnsOwn

/-- While one fork is under way, every other task is outside. -/
theorem Inv.outside_of_ne {s : State} (inv : Inv s) {c d : Page}
    (busy : s.phase c ≠ .outside) (different : d ≠ c) : s.phase d = .outside := by
  by_contra other
  exact different (inv.single d c other busy)

/-- A table that shows the same `task_struct`s shows the same numbers in use. -/
theorem pidUsed_congr {s t : State} (same : ∀ i, s.inSlot i = t.inSlot i) (pid : Nat) :
    s.pidUsed pid = t.pidUsed pid := by
  simp [State.pidUsed, same]

/-- Removing a task from the table frees numbers and takes none. -/
theorem pidUsed_eq_false_of_le {s t : State} {pid : Nat}
    (fewer : ∀ i p, t.inSlot i = some p →
      ∃ q, s.inSlot i = some q ∧ q.pid = p.pid ∧ q.pgrp = p.pgrp)
    (unused : s.pidUsed pid = false) : t.pidUsed pid = false := by
  by_contra used
  rw [Bool.not_eq_false] at used
  obtain ⟨i, p, slot, found⟩ := (pidUsed_iff t pid).mp used
  obtain ⟨q, sourceSlot, samePid, samePgrp⟩ := fewer i p slot
  have : s.pidUsed pid = true :=
    (pidUsed_iff s pid).mpr ⟨i, q, sourceSlot, by rw [samePid, samePgrp]; exact found⟩
  simp [this] at unused

/-! ## Steps that only change what the table shows -/

/-- A step that keeps the table and changes `task_struct`s without touching the pids
and groups in the table. -/
theorem Inv.of_relabel {s t : State} (inv : Inv s)
    (sameTask : t.task = s.task) (samePid : t.lastPid = s.lastPid)
    (allocated : ∀ p, s.taskStruct p ≠ none → t.taskStruct p ≠ none)
    (samePids : ∀ p, (t.taskStruct p).map (fun q => (q.pid, q.pgrp)) =
      (s.taskStruct p).map fun q => (q.pid, q.pgrp))
    (phases : ∀ c, t.phase c = s.phase c ∨ t.phase c = .outside)
    (sameChild : ∀ c nr p, t.phase c = .copyingMem nr p → t.taskStruct p = s.taskStruct p)
    (returnsOwn : ∀ r ∈ t.returns, r.value = r.childPid) : Inv t := by
  have shown : ∀ i p, t.inSlot i = some p →
      ∃ q, s.inSlot i = some q ∧ q.pid = p.pid ∧ q.pgrp = p.pgrp := by
    intro i p slot
    simp only [State.inSlot, sameTask, Option.bind_eq_some_iff] at slot
    obtain ⟨page, pointer, here⟩ := slot
    have same := samePids page
    rw [here] at same
    cases source : s.taskStruct page with
    | none => simp [source] at same
    | some q =>
        simp only [source, Option.map_some, Option.some.injEq, Prod.mk.injEq] at same
        exact ⟨q, by simp [State.inSlot, pointer, source], same.1.symm, same.2.symm⟩
  refine ⟨?_, ?_, ?_, ?_, ?_, ?_, returnsOwn⟩
  · intro c d busyC busyD
    refine inv.single c d ?_ ?_
    · rcases phases c with same | outside
      · rwa [same] at busyC
      · exact absurd outside busyC
    · rcases phases d with same | outside
      · rwa [same] at busyD
      · exact absurd outside busyD
  · intro c
    rcases phases c with same | outside
    · have ok := inv.phaseOk c
      rw [same]
      cases phase : s.phase c with
      | outside => trivial
      | gettingPage nr =>
          rw [phase] at ok
          refine ⟨by rw [sameTask]; exact ok.1, ?_⟩
          rw [samePid]
          exact pidUsed_eq_false_of_le shown ok.2
      | copyingMem nr p =>
          rw [phase] at ok
          refine ⟨by rw [sameTask]; exact ok.1, ?_⟩
          rw [sameChild c nr p (same.trans phase), samePid]
          exact ok.2
    · rw [outside]
      trivial
  · intro i p pointer
    rw [sameTask] at pointer
    exact allocated p (inv.allocated i p pointer)
  · intro i j p atI atJ
    rw [sameTask] at atI atJ
    exact inv.injective i j p atI atJ
  · intro i j p q atI atJ equal
    obtain ⟨p', sourceI, pidI, _⟩ := shown i p atI
    obtain ⟨q', sourceJ, pidJ, _⟩ := shown j q atJ
    exact inv.pidsDistinct i j p' q' sourceI sourceJ (by rw [pidI, pidJ, equal])
  · rw [samePid]
    exact inv.lastPid_lt

/-- A step that empties one slot and frees its page. -/
theorem Inv.of_remove {s t : State} (inv : Inv s) {i : Fin nrTasks} {p : Page}
    (occupied : s.task i = some p)
    (removed : t.task = Function.update s.task i none)
    (freed : t.taskStruct = Function.update s.taskStruct p none)
    (samePid : t.lastPid = s.lastPid)
    (phases : ∀ c, t.phase c = .outside ∨
      t.phase c = s.phase c ∧ ∀ nr, s.phase c ≠ .copyingMem nr p)
    (sameReturns : t.returns = s.returns) : Inv t := by
  have others : ∀ j q, t.task j = some q → s.task j = some q ∧ q ≠ p := by
    intro j q pointer
    rw [removed] at pointer
    by_cases here : j = i
    · simp [here] at pointer
    · rw [Function.update_of_ne here] at pointer
      refine ⟨pointer, ?_⟩
      rintro rfl
      exact here (inv.injective j i q pointer occupied)
  have shown : ∀ j q, t.inSlot j = some q → s.inSlot j = some q := by
    intro j q slot
    simp only [State.inSlot, Option.bind_eq_some_iff] at slot
    obtain ⟨page, pointer, here⟩ := slot
    obtain ⟨source, different⟩ := others j page pointer
    rw [freed, Function.update_of_ne different] at here
    simp [State.inSlot, source, here]
  refine ⟨?_, ?_, ?_, ?_, ?_, ?_, ?_⟩
  · intro c d busyC busyD
    refine inv.single c d ?_ ?_
    · rcases phases c with outside | ⟨same, _⟩
      · exact absurd outside busyC
      · rwa [same] at busyC
    · rcases phases d with outside | ⟨same, _⟩
      · exact absurd outside busyD
      · rwa [same] at busyD
  · intro c
    rcases phases c with outside | ⟨same, notHere⟩
    · rw [outside]
      trivial
    · have ok := inv.phaseOk c
      rw [same]
      cases phase : s.phase c with
      | outside => trivial
      | gettingPage nr =>
          rw [phase] at ok
          refine ⟨?_, ?_⟩
          · rw [removed]
            by_cases here : nr = i
            · simp [here]
            · rw [Function.update_of_ne here]
              exact ok.1
          · rw [samePid]
            exact pidUsed_eq_false_of_le
              (fun j q slot => ⟨q, shown j q slot, rfl, rfl⟩) ok.2
      | copyingMem nr q =>
          rw [phase] at ok
          have different : q ≠ p := by
            rintro rfl
            exact notHere nr phase
          have elsewhere : nr ≠ i := by
            rintro rfl
            exact different (by simpa [occupied] using ok.1.symm)
          refine ⟨?_, ?_⟩
          · rw [removed, Function.update_of_ne elsewhere]
            exact ok.1
          · rw [freed, Function.update_of_ne different, samePid]
            exact ok.2
  · intro j q pointer
    obtain ⟨source, different⟩ := others j q pointer
    rw [freed, Function.update_of_ne different]
    exact inv.allocated j q source
  · intro j k q atJ atK
    exact inv.injective j k q (others j q atJ).1 (others k q atK).1
  · intro j k q r atJ atK
    exact inv.pidsDistinct j k q r (shown j q atJ) (shown k r atK)
  · rw [samePid]
    exact inv.lastPid_lt
  · rw [sameReturns]
    exact inv.returnsOwn

/-! ## The step lemmas -/

theorem Inv.stepFindEmptyProcess {s t : State} {current : Page} (inv : Inv s)
    (noOverlap : ∀ c, s.phase c = .outside)
    (taken : stepFindEmptyProcess s current = some t) : Inv t := by
  unfold Kernel.stepFindEmptyProcess at taken
  split at taken
  next enabled =>
    have fresh := pickPid_unused s inv.lastPid_lt
    have bounded := pickPid_lt s.pidUsed (2 * nrTasks + 1) s.lastPid inv.lastPid_lt
    split at taken
    next lastPid found =>
      cases taken
      simp only [findEmptyProcess, Prod.mk.injEq] at found
      refine ⟨inv.single, ?_, inv.allocated, inv.injective, inv.pidsDistinct, ?_,
        inv.returnsOwn⟩
      · intro c
        rw [show ({ s with lastPid := lastPid } : State).phase c = .outside from noOverlap c]
        trivial
      · rw [← found.1]
        exact bounded
    next lastPid nr found =>
      cases taken
      have slot := findEmptyProcess_slot found
      simp only [findEmptyProcess, Prod.mk.injEq] at found
      refine ⟨?_, ?_, inv.allocated, inv.injective, inv.pidsDistinct, ?_, inv.returnsOwn⟩
      · have onlyCurrent : ∀ c, (setPhase { s with lastPid := lastPid } current
            (.gettingPage nr)).phase c ≠ .outside → c = current := by
          intro c busy
          by_contra different
          simp only [setPhase, Function.update_of_ne different] at busy
          exact busy (noOverlap c)
        intro c d busyC busyD
        rw [onlyCurrent c busyC, onlyCurrent d busyD]
      · intro c
        by_cases here : c = current
        · subst c
          simp only [setPhase, Function.update_self]
          refine ⟨slot.2, ?_⟩
          rw [← found.1]
          exact fresh
        · simp only [setPhase, Function.update_of_ne here, noOverlap c]
          trivial
      · change lastPid < 2 ^ 31
        rw [← found.1]
        exact bounded
  next => cases taken

theorem Inv.stepNoPage {s t : State} {current : Page} (inv : Inv s)
    (taken : stepNoPage s current = some t) : Inv t := by
  unfold Kernel.stepNoPage at taken
  split at taken
  next nr waiting =>
    cases taken
    refine inv.of_relabel rfl rfl (fun _ => id) (fun _ => rfl) ?_ (fun _ _ _ _ => rfl)
      inv.returnsOwn
    intro c
    by_cases here : c = current
    · exact .inr (by simp [setPhase, here])
    · exact .inl (by simp [setPhase, Function.update_of_ne here])
  next => cases taken

theorem Inv.stepFillSlot {s t : State} {current p : Page} (inv : Inv s)
    (taken : stepFillSlot s current p = some t) : Inv t := by
  unfold Kernel.stepFillSlot at taken
  split at taken
  next nr parent waiting parentStruct free =>
    cases taken
    have ok := inv.phaseOk current
    rw [waiting] at ok
    obtain ⟨empty, unused⟩ := ok
    have busy : s.phase current ≠ .outside := by simp [waiting]
    have oldPointer : ∀ j q, s.task j = some q → q ≠ p := by
      rintro j q pointer rfl
      exact inv.allocated j q pointer free
    have oldPid : ∀ j q, s.inSlot j = some q → q.pid ≠ s.lastPid := by
      intro j q slot equal
      have used : s.pidUsed s.lastPid = true :=
        (pidUsed_iff s s.lastPid).mpr ⟨j, q, slot, .inl equal⟩
      simp [used] at unused
    -- the new table shows the child in `nr` and the old tasks elsewhere
    have shown : ∀ j q,
        (if j = nr then some { parent with state := .uninterruptible, pid := s.lastPid }
          else s.inSlot j) = some q →
        (j = nr ∧ q.pid = s.lastPid) ∨ (j ≠ nr ∧ s.inSlot j = some q) := by
      intro j q slot
      by_cases here : j = nr
      · rw [if_pos here] at slot
        cases slot
        exact .inl ⟨here, rfl⟩
      · rw [if_neg here] at slot
        exact .inr ⟨here, slot⟩
    have inSlot_eq : ∀ j,
        State.inSlot {
          s with
          task := Function.update s.task nr (some p)
          taskStruct := Function.update s.taskStruct p
            (some { parent with state := .uninterruptible, pid := s.lastPid })
          phase := Function.update (Function.update s.phase p .outside) current
            (.copyingMem nr p) } j =
          if j = nr then some { parent with state := .uninterruptible, pid := s.lastPid }
          else s.inSlot j := by
      intro j
      by_cases here : j = nr
      · simp [State.inSlot, here]
      · rw [if_neg here]
        simp only [State.inSlot, Function.update_of_ne here]
        cases pointer : s.task j with
        | none => rfl
        | some q => simp [Function.update_of_ne (oldPointer j q pointer)]
    refine ⟨?_, ?_, ?_, ?_, ?_, inv.lastPid_lt, inv.returnsOwn⟩
    · have onlyCurrent : ∀ c, Function.update (Function.update s.phase p .outside) current
          (.copyingMem nr p) c ≠ .outside → c = current := by
        intro c busyC
        by_contra different
        rw [Function.update_of_ne different] at busyC
        by_cases child : c = p
        · simp [child] at busyC
        · rw [Function.update_of_ne child] at busyC
          exact different (inv.single c current busyC busy)
      intro c d busyC busyD
      rw [onlyCurrent c busyC, onlyCurrent d busyD]
    · intro c
      by_cases here : c = current
      · subst c
        simp only [Function.update_self]
        exact ⟨by simp, { parent with state := .uninterruptible, pid := s.lastPid },
          by simp, rfl, rfl⟩
      · simp only [Function.update_of_ne here]
        by_cases child : c = p
        · simp only [child, Function.update_self]
          trivial
        · rw [Function.update_of_ne child, inv.outside_of_ne busy here]
          trivial
    · intro j q pointer
      by_cases same : q = p
      · simp [same]
      · simp only [Function.update_of_ne same]
        by_cases here : j = nr
        · simp only [here, Function.update_self, Option.some.injEq] at pointer
          exact absurd pointer.symm same
        · simp only [Function.update_of_ne here] at pointer
          exact inv.allocated j q pointer
    · intro j k q atJ atK
      by_cases hereJ : j = nr <;> by_cases hereK : k = nr
      · rw [hereJ, hereK]
      · simp only [hereJ, Function.update_self, Option.some.injEq,
          Function.update_of_ne hereK] at atJ atK
        exact absurd atJ.symm (oldPointer k q atK)
      · simp only [hereK, Function.update_self, Option.some.injEq,
          Function.update_of_ne hereJ] at atJ atK
        exact absurd atK.symm (oldPointer j q atJ)
      · simp only [Function.update_of_ne hereJ, Function.update_of_ne hereK] at atJ atK
        exact inv.injective j k q atJ atK
    · intro j k q r atJ atK equal
      rw [inSlot_eq] at atJ atK
      rcases shown j q atJ with ⟨hereJ, pidJ⟩ | ⟨_, oldJ⟩ <;>
        rcases shown k r atK with ⟨hereK, pidK⟩ | ⟨_, oldK⟩
      · rw [hereJ, hereK]
      · exact absurd (equal ▸ pidJ) (oldPid k r oldK)
      · exact absurd (equal.symm ▸ pidK) (oldPid j q oldJ)
      · exact inv.pidsDistinct j k q r oldJ oldK equal
  next => cases taken

theorem Inv.stepNoMem {s t : State} {current : Page} (inv : Inv s)
    (taken : stepNoMem s current = some t) : Inv t := by
  unfold Kernel.stepNoMem at taken
  split at taken
  next nr p copying =>
    cases taken
    have ok := inv.phaseOk current
    rw [copying] at ok
    refine inv.of_remove ok.1 rfl rfl rfl ?_ rfl
    intro c
    by_cases here : c = current
    · exact .inl (by simp [here])
    · have outside := inv.outside_of_ne (by simp [copying]) here
      exact .inl (by simp [Function.update_of_ne here, outside])
  next => cases taken

theorem Inv.stepFinish {s t : State} {current : Page} (inv : Inv s)
    (taken : stepFinish s current = some t) : Inv t := by
  unfold Kernel.stepFinish at taken
  split at taken
  next nr p copying =>
    split at taken
    next child childStruct =>
      cases taken
      have ok := inv.phaseOk current
      rw [copying] at ok
      have own : child.pid = s.lastPid := by
        obtain ⟨found, foundStruct, foundPid, _⟩ := ok.2
        rw [childStruct] at foundStruct
        cases foundStruct
        exact foundPid
      refine inv.of_relabel rfl rfl ?_ ?_ ?_ ?_ ?_
      · intro q allocated
        by_cases here : q = p
        · simp [here]
        · simpa [Function.update_of_ne here] using allocated
      · intro q
        by_cases here : q = p
        · simp [here, childStruct]
        · simp [Function.update_of_ne here]
      · intro c
        by_cases here : c = current
        · exact .inr (by simp [here])
        · exact .inl (by simp [Function.update_of_ne here])
      · intro c slot q copyingC
        by_cases here : c = current
        · simp [here] at copyingC
        · have outside := inv.outside_of_ne (by simp [copying]) here
          simp [Function.update_of_ne here, outside] at copyingC
      · intro r membership
        rcases List.mem_cons.mp membership with rfl | old
        · exact own.symm
        · exact inv.returnsOwn r old
    next => cases taken
  next => cases taken

theorem Inv.stepExit {s t : State} {current : Page} (inv : Inv s)
    (taken : stepExit s current = some t) : Inv t := by
  unfold Kernel.stepExit at taken
  split at taken
  next p outside found =>
    split at taken
    next enabled =>
      cases taken
      refine inv.of_relabel rfl rfl ?_ ?_ (fun _ => .inl rfl) ?_ inv.returnsOwn
      · intro q allocated
        by_cases here : q = current
        · simp [here]
        · simpa [Function.update_of_ne here] using allocated
      · intro q
        by_cases here : q = current
        · simp [here, found]
        · simp [Function.update_of_ne here]
      · -- a running task is not the child that a fork is still building
        intro c nr q copying
        have ok := inv.phaseOk c
        rw [show s.phase c = .copyingMem nr q from copying] at ok
        obtain ⟨child, childStruct, _, building⟩ := ok.2
        refine Function.update_of_ne ?_ _ _
        rintro rfl
        rw [found] at childStruct
        cases childStruct
        simp [enabled.2] at building
    next => cases taken
  next => cases taken

theorem Inv.stepRelease {s t : State} {i : Fin nrTasks} (inv : Inv s)
    (taken : stepRelease s i = some t) : Inv t := by
  unfold Kernel.stepRelease at taken
  split at taken
  next => cases taken
  next p occupied =>
    split at taken
    next enabled =>
      cases taken
      refine inv.of_remove occupied rfl rfl rfl ?_ rfl
      refine fun c => .inr ⟨rfl, ?_⟩
      -- a child under construction is not a zombie
      intro nr copying
      have ok := inv.phaseOk c
      rw [copying] at ok
      obtain ⟨child, childStruct, _, building⟩ := ok.2
      have zombie := enabled.2
      rw [childStruct, Option.map_some, building] at zombie
      cases zombie
    next => cases taken

/-- The step lemma: without overlap, the invariant is kept. -/
theorem Inv.forkStep {s t : State} {action : ForkAction} (inv : Inv s)
    (noOverlap : NoOverlap s action) (taken : forkStep s action = some t) : Inv t := by
  cases action with
  | findEmptyProcess current => exact inv.stepFindEmptyProcess noOverlap taken
  | noPage current => exact inv.stepNoPage taken
  | fillSlot current p => exact inv.stepFillSlot taken
  | noMem current => exact inv.stepNoMem taken
  | finish current => exact inv.stepFinish taken
  | exit current => exact inv.stepExit taken
  | release i => exact inv.stepRelease taken

/-- In every state of every run whose forks do not overlap, forks do what they are
meant to. -/
theorem forkOk_of_noOverlap {start final : State} (settled : Settled start)
    (reached : Lib.ReachedBy forkStep NoOverlap start final) : ForkOk final :=
  (reached.invariant Inv (fun _ _ _ inv noOverlap taken => inv.forkStep noOverlap taken)
    settled.inv).forkOk

/-! ## Forks that overlap -/

/-- Whatever state allowed runs lead to: if another task runs `find_empty_process`
while a fork is inside `copy_mem`, that fork returns a pid that is not its child's. -/
theorem returns_other_pid_of_overlap {s t u : State} {c d : Page} {nr : Fin nrTasks}
    {p : Page} (inv : Inv s) (copying : s.phase c = .copyingMem nr p) (different : d ≠ c)
    (overlap : stepFindEmptyProcess s d = some t) (finished : stepFinish t c = some u) :
    ∃ r ∈ u.returns, r.value ≠ r.childPid := by
  have ok := inv.phaseOk c
  rw [copying] at ok
  obtain ⟨pointer, child, childStruct, childPid, _⟩ := ok
  have used : s.pidUsed s.lastPid = true :=
    (pidUsed_iff s s.lastPid).mpr
      ⟨nr, child, by simp [State.inSlot, pointer, childStruct], .inl childPid⟩
  have fresh := pickPid_unused s inv.lastPid_lt
  have moved : pickPid s.pidUsed (2 * nrTasks + 1) s.lastPid ≠ s.lastPid := by
    intro same
    rw [same, used] at fresh
    cases fresh
  have after : t.lastPid = pickPid s.pidUsed (2 * nrTasks + 1) s.lastPid ∧
      t.phase c = s.phase c ∧ t.taskStruct = s.taskStruct := by
    unfold stepFindEmptyProcess at overlap
    split at overlap
    · split at overlap
      next lastPid found =>
        cases overlap
        simp only [findEmptyProcess, Prod.mk.injEq] at found
        exact ⟨found.1.symm, rfl, rfl⟩
      next lastPid slot found =>
        cases overlap
        simp only [findEmptyProcess, Prod.mk.injEq] at found
        exact ⟨found.1.symm, Function.update_of_ne different.symm _ _, rfl⟩
    · cases overlap
  obtain ⟨newPid, samePhase, sameStructs⟩ := after
  simp only [stepFinish, samePhase, copying, sameStructs, childStruct,
    Option.some.injEq] at finished
  subst u
  refine ⟨⟨t.lastPid, child.pid⟩, by simp, ?_⟩
  simp only [newPid, childPid]
  exact moved

/-- The process table that `sched_init` sets up: task 0 alone. -/
def schedInit : State where
  task i := if i = 0 then some 0x12 else none
  lastPid := 0
  taskStruct p := if p = 0x12 then some ⟨.running, 0, 0⟩ else none
  phase _ := .outside
  returns := []

theorem settled_schedInit : Settled schedInit where
  outside _ := rfl
  allocated i p pointer := by
    simp only [schedInit, Option.ite_none_right_eq_some, Option.some.injEq] at pointer
    simp [schedInit, ← pointer.2]
  injective i j p atI atJ := by
    simp only [schedInit, Option.ite_none_right_eq_some] at atI atJ
    rw [atI.1, atJ.1]
  pidsDistinct i j p q atI atJ _ := by
    have onlyFirst : ∀ k r, schedInit.inSlot k = some r → k = 0 := by
      intro k r slot
      simp only [State.inSlot, schedInit, Option.bind_eq_some_iff,
        Option.ite_none_right_eq_some] at slot
      obtain ⟨_, ⟨first, _⟩, _⟩ := slot
      exact first
    rw [onlyFirst i p atI, onlyFirst j q atJ]
  lastPid_lt := by decide
  noReturns := rfl

/-- Task 0 forks `init`, which forks in turn; neither fork overlaps another. -/
def forksInTurn : List ForkAction :=
  [.findEmptyProcess 0x12, .fillSlot 0x12 0x800, .finish 0x12,
    .findEmptyProcess 0x800, .fillSlot 0x800 0x801, .finish 0x800]

theorem forkOk_of_noOverlap_inTurn :
    ∃ final, Lib.exec forkStep schedInit forksInTurn = some final ∧ ForkOk final := by
  refine ⟨_, rfl, forkOk_of_noOverlap settled_schedInit ⟨forksInTurn, rfl, ?_⟩⟩
  refine ⟨fun _ => rfl, fun started first => ⟨trivial, fun filled second =>
    ⟨trivial, fun back third => ⟨?_, fun _ _ => ⟨trivial, fun _ _ =>
      ⟨trivial, fun _ _ => trivial⟩⟩⟩⟩⟩⟩
  obtain rfl := Option.some.inj first
  obtain rfl := Option.some.inj second
  obtain rfl := Option.some.inj third
  intro c
  by_cases parent : c = 0x12
  · subst c
    rfl
  · by_cases child : c = 0x800
    · subst c
      rfl
    · simp [setPhase, Function.update_of_ne parent, Function.update_of_ne child, schedInit]

/-- After the first fork, task 0 and `init` fork at the same time: both wait in
`get_free_page` with slot 2, and both fill it. -/
def forksTogether : List ForkAction :=
  [.findEmptyProcess 0x12, .fillSlot 0x12 0x800, .finish 0x12,
    .findEmptyProcess 0x12, .findEmptyProcess 0x800, .fillSlot 0x12 0x801,
    .fillSlot 0x800 0x802]

theorem overlapping_forks_fill_one_slot :
    ¬ ∀ (start final : State) (actions : List ForkAction), Settled start →
      Lib.exec forkStep start actions = some final → ForkOk final := by
  intro always
  have bad := (always schedInit _ forksTogether settled_schedInit rfl).slotsDistinct
    0x12 0x800 2 (by decide) (by decide)
  exact absurd bad (by decide)

end Linux012.Kernel
