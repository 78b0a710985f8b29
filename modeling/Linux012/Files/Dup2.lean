import Linux012.Files.Counts

/-!
# dup2

`sys_dup2` closes the new descriptor before it looks at the old one.  It is all or nothing if there
is nothing to close, or the old descriptor is an open one other than the new one.
-/

namespace Linux012.Files

open Table

variable {s next : Table} {current : TaskNr} {p : Task} {fd old : Fd} {f g : FileNr}
variable {oldfd newfd : Nat}

/-! ## What the calls return -/

/-- The descriptors, `close_on_exec` and the counts are those of before. -/
structure Table.SameFiles (s next : Table) : Prop where
  task : next.task = s.task
  count : ∀ f, (next.file f).fCount = (s.file f).fCount

/-- The bit of the descriptor in `close_on_exec` is clear. -/
def Task.KeptOnExec (p : Task) (fd : Fd) : Prop := p.closeOnExec &&& 1 <<< UInt32.ofNat fd = 0

/-- Clearing bits that are clear. -/
theorem and_not_eq_self_of_and_eq_zero {bits bit : UInt32} (clear : bits &&& bit = 0) :
    bits &&& ~~~bit = bits := by
  refine UInt32.eq_of_toBitVec_eq ?_
  ext i inRange
  have clearBit := congrArg (fun bits => bits.toBitVec.getLsbD i) clear
  simp only [UInt32.toBitVec_and, BitVec.getLsbD_and] at clearBit
  simpa [← BitVec.getLsbD_eq_getElem, inRange] using clearBit

theorem Task.keptOnExec_iff :
    p.KeptOnExec fd ↔ p.closeOnExec &&& ~~~(1 <<< UInt32.ofNat fd) = p.closeOnExec := by
  rw [KeptOnExec]
  generalize (1 <<< UInt32.ofNat fd : UInt32) = bit
  generalize p.closeOnExec = bits
  constructor
  · intro clear
    exact and_not_eq_self_of_and_eq_zero clear
  · intro same
    rw [← same, UInt32.and_assoc, UInt32.and_comm (~~~bit)]
    simp

/-- Clearing a clear bit. -/
theorem keepOnExec_task_iff (isTask : s.task current = some p) :
    (s.keepOnExec current fd).task = s.task ↔ p.KeptOnExec fd := by
  rw [Task.keptOnExec_iff, keepOnExec, isTask]
  dsimp only [setTask]
  constructor
  · intro same
    have here := congrFun same current
    rw [Function.update_self, isTask] at here
    exact congrArg Task.closeOnExec (Option.some.inj here)
  · intro same
    rw [same]
    funext nr
    by_cases isCurrent : nr = current
    · subst isCurrent
      rw [Function.update_self, isTask]
    · rw [Function.update_of_ne isCurrent]

theorem file?_eq_some : s.file? current oldfd = some (old, f) ↔
    oldfd = old ∧ s.filps current old = some f := by
  rw [file?]
  split
  next inRange =>
    rw [Option.map_eq_some_iff]
    constructor
    · rintro ⟨g, points, same⟩
      cases same
      exact ⟨rfl, points⟩
    · rintro ⟨rfl, points⟩
      exact ⟨f, points, rfl⟩
  next outOfRange =>
    refine iff_of_false (fun isSome => ?_) fun both => outOfRange (both.1 ▸ old.isLt)
    cases isSome

/-- A free descriptor is the first one from itself on. -/
theorem freeFds_self (free : s.filps current fd = none) :
    ∃ rest, s.freeFds current fd = fd :: rest := by
  have member : fd ∈ s.freeFds current fd := by
    rw [freeFds, List.mem_filter]
    exact ⟨List.mem_finRange fd, by simp [free]⟩
  cases isFree : s.freeFds current fd with
  | nil =>
      rw [isFree] at member
      cases member
  | cons first rest =>
      have ascending : (s.freeFds current fd).Pairwise (· < ·) :=
        (List.pairwise_lt_finRange nrOpen).filter _
      have lowest : fd ≤ first := by
        have isFirst : first ∈ s.freeFds current fd := isFree ▸ List.mem_cons_self
        rw [freeFds, List.mem_filter, Bool.and_eq_true, decide_eq_true_iff] at isFirst
        exact isFirst.2.1
      rw [isFree] at member ascending
      rcases List.mem_cons.mp member with rfl | later
      · exact ⟨rest, rfl⟩
      · exact absurd ((List.pairwise_cons.mp ascending).1 fd later) (not_lt_of_ge lowest)

theorem dupfd_closed {arg : Nat} (closed : s.file? current oldfd = none) :
    dupfd s current oldfd arg = (s, ebadf) := by
  rw [dupfd, closed]

/-- The new descriptor is free. -/
theorem dupfd_free (isOpen : s.file? current oldfd = some (old, f))
    (free : s.filps current fd = none) :
    dupfd s current oldfd fd =
      (((s.keepOnExec current fd).setFilp current fd (some f)).setCount f
        (((s.keepOnExec current fd).file f).fCount + 1), ((fd : Nat) : Int)) := by
  obtain ⟨rest, isFree⟩ := freeFds_self free
  rw [dupfd, isOpen]
  dsimp only
  rw [if_neg (not_le_of_gt fd.isLt), isFree]

/-! ## Closing the new descriptor -/

/-- Another descriptor stays open. -/
theorem closeFilp_file? (points : s.filps current fd = some g) (other : oldfd ≠ fd) :
    (closeFilp s current fd g).file? current oldfd = s.file? current oldfd := by
  rw [file?, file?]
  split
  next inRange =>
    have differs : (⟨oldfd, inRange⟩ : Fd) ≠ fd := fun same => other (congrArg Fin.val same)
    rw [closeFilp_filps, setFilp_filps (kind_ne_none points), Function.update_self,
      Function.update_of_ne differs]
  · rfl

theorem closeFilp_panicked (calm : s.panicked = false) :
    (closeFilp s current fd g).panicked = true ↔ (s.file g).fCount = 0 := by
  rw [closeFilp]
  dsimp only
  rw [setFilp_file]
  split
  next zero => exact iff_of_true rfl zero
  next counted =>
    refine iff_of_false ?_ counted
    split
    · simp [setCount, setFile_panicked, setFilp_panicked, calm]
    · simp [setCount, setFile_panicked, setFilp_panicked, calm]

/-! ## All or nothing -/

/-- A call that fails changes nothing, and one that succeeds returns the new descriptor for the
file of the old one; to copy an open descriptor to itself succeeds and changes nothing.  A call
that panics does not return. -/
structure AllOrNothing (s : Table) (current : TaskNr) (oldfd newfd : Nat) : Prop where
  fails : (sysDup2 s current oldfd newfd).1.panicked = false →
    (sysDup2 s current oldfd newfd).2 < 0 → s.SameFiles (sysDup2 s current oldfd newfd).1
  succeeds : (sysDup2 s current oldfd newfd).1.panicked = false →
    0 ≤ (sysDup2 s current oldfd newfd).2 →
      (sysDup2 s current oldfd newfd).2 = newfd ∧ ∃ old new f,
        s.file? current oldfd = some (old, f) ∧
          (sysDup2 s current oldfd newfd).1.file? current newfd = some (new, f)
  same : (s.file? current oldfd).isSome = true → oldfd = newfd →
    (sysDup2 s current oldfd newfd).1.panicked = false ∧
      0 ≤ (sysDup2 s current oldfd newfd).2 ∧ s.SameFiles (sysDup2 s current oldfd newfd).1

/-- The new descriptor is too large; or it is free, and the old one is open or there is no bit to
clear; or it is open, and the old one is another one that is open.  With an open descriptor for a
file of count 0 the call panics. -/
def DupSafe (s : Table) (current : TaskNr) (p : Task) (oldfd newfd : Nat) : Prop :=
  ∀ inRange : newfd < nrOpen,
    match s.filps current ⟨newfd, inRange⟩ with
    | none => (s.file? current oldfd).isSome = true ∨ p.KeptOnExec ⟨newfd, inRange⟩
    | some g =>
        oldfd ≠ newfd ∧ ((s.file? current oldfd).isSome = true ∨ (s.file g).fCount = 0)

/-- The new descriptor is too large. -/
theorem sysDup2_of_large (large : nrOpen ≤ newfd) :
    (sysDup2 s current oldfd newfd).1 = s ∧ (sysDup2 s current oldfd newfd).2 < 0 := by
  have closed : (sysClose s current newfd).1 = s := by
    rw [sysClose, dif_neg (not_lt_of_ge large)]
  rw [sysDup2, closed, dupfd]
  cases s.file? current oldfd with
  | none => exact ⟨rfl, show ebadf < 0 by decide⟩
  | some found =>
      dsimp only
      rw [if_pos large]
      exact ⟨rfl, show einval < 0 by decide⟩

/-- The new descriptor is free. -/
theorem sysDup2_of_free (free : s.filps current fd = none) :
    sysDup2 s current oldfd fd = dupfd (s.keepOnExec current fd) current oldfd fd := by
  have closed : (sysClose s current fd).1 = s.keepOnExec current fd := by
    rw [sysClose, dif_pos fd.isLt]
    dsimp only
    rw [keepOnExec_filps, free]
  rw [sysDup2, closed]

/-- The new descriptor is open. -/
theorem sysDup2_of_open (points : s.filps current fd = some g) :
    sysDup2 s current oldfd fd =
      dupfd (closeFilp (s.keepOnExec current fd) current fd g) current oldfd fd := by
  have closed : (sysClose s current fd).1 =
      closeFilp (s.keepOnExec current fd) current fd g := by
    rw [sysClose, dif_pos fd.isLt]
    dsimp only
    rw [keepOnExec_filps, points]
  rw [sysDup2, closed]

/-- A closed descriptor is not found. -/
theorem file?_self : s.file? current fd = (s.filps current fd).map fun f => (fd, f) := by
  rw [file?, dif_pos fd.isLt]

theorem negative_ebadf : ebadf < 0 := by decide

theorem not_nonneg_ebadf : ¬0 ≤ ebadf := by decide

/-- A copy to a free descriptor. -/
theorem dupfd_free_spec (isOpen : s.file? current oldfd = some (old, f))
    (free : s.filps current fd = none) (present : s.kind current ≠ none) :
    (dupfd s current oldfd fd).2 = ((fd : Nat) : Int) ∧
      (dupfd s current oldfd fd).1.panicked = s.panicked ∧
        (dupfd s current oldfd fd).1.file? current fd = some (fd, f) := by
  rw [dupfd_free isOpen free]
  have present' : (s.keepOnExec current fd).kind current ≠ none := by rwa [keepOnExec_kind]
  refine ⟨rfl, ?_, ?_⟩
  · rw [setCount, setFile_panicked, setFilp_panicked, keepOnExec_panicked]
  · rw [file?_self, setCount, setFile_filps, setFilp_filps present', Function.update_self,
      Function.update_self]
    rfl

/-- A copy to a free descriptor is all or nothing, except that the bit is cleared. -/
theorem allOrNothing_of_free (isTask : s.task current = some p) (calm : s.panicked = false)
    (free : s.filps current fd = none) : AllOrNothing s current oldfd fd ↔
      ((s.file? current oldfd).isSome = true ∨ p.KeptOnExec fd) := by
  have free' : (s.keepOnExec current fd).filps current fd = none := by rwa [keepOnExec_filps]
  have found : (s.keepOnExec current fd).file? current oldfd = s.file? current oldfd := by
    rw [file?, file?, keepOnExec_filps]
  have present : (s.keepOnExec current fd).kind current ≠ none := by
    rw [keepOnExec_kind, kind, isTask]
    exact Option.some_ne_none _
  cases isOld : s.file? current oldfd with
  | none =>
      have called : sysDup2 s current oldfd fd = (s.keepOnExec current fd, ebadf) := by
        rw [sysDup2_of_free free, dupfd_closed (found.trans isOld)]
      have same : s.SameFiles (s.keepOnExec current fd) ↔ p.KeptOnExec fd := by
        rw [← keepOnExec_task_iff isTask]
        exact ⟨SameFiles.task, fun task => ⟨task, fun f => by rw [keepOnExec_file]⟩⟩
      simp only [Option.isSome_none, Bool.false_eq_true, false_or]
      rw [← same]
      constructor
      · intro all
        have fails := all.fails
        rw [called] at fails
        exact fails (by rw [keepOnExec_panicked, calm]) negative_ebadf
      · intro same
        refine ⟨fun _ _ => ?_, fun _ nonneg => ?_, fun isOpen => ?_⟩
        · rwa [called]
        · rw [called] at nonneg
          exact absurd nonneg not_nonneg_ebadf
        · rw [isOld] at isOpen
          cases isOpen
  | some place =>
      obtain ⟨old, f⟩ := place
      refine iff_of_true ?_ (.inl rfl)
      obtain ⟨result, -, isNew⟩ := dupfd_free_spec (found.trans isOld) free' present
      rw [← sysDup2_of_free free] at result isNew
      refine ⟨fun _ negative => ?_, fun _ _ => ?_, fun _ same => ?_⟩
      · rw [result] at negative
        omega
      · exact ⟨result, old, fd, f, isOld, isNew⟩
      · rw [same, file?_self, free] at isOld
        cases isOld

/-- An open descriptor is closed first. -/
theorem allOrNothing_of_open (calm : s.panicked = false)
    (points : s.filps current fd = some g) : AllOrNothing s current oldfd fd ↔
      oldfd ≠ fd ∧ ((s.file? current oldfd).isSome = true ∨ (s.file g).fCount = 0) := by
  have points' : (s.keepOnExec current fd).filps current fd = some g := by rwa [keepOnExec_filps]
  have present : (s.keepOnExec current fd).kind current ≠ none := kind_ne_none points'
  have free : (closeFilp (s.keepOnExec current fd) current fd g).filps current fd = none := by
    rw [closeFilp_filps, setFilp_filps present, Function.update_self, Function.update_self]
  have panics : (closeFilp (s.keepOnExec current fd) current fd g).panicked = true ↔
      (s.file g).fCount = 0 := by
    rw [closeFilp_panicked (by rw [keepOnExec_panicked, calm]), keepOnExec_file]
  by_cases same : oldfd = fd
  · subst same
    refine iff_of_false (fun all => ?_) fun safe => safe.1 rfl
    have gone : (closeFilp (s.keepOnExec current fd) current fd g).file? current fd = none := by
      rw [file?_self, free]
      rfl
    have called := @sysDup2_of_open s current fd g fd points
    rw [dupfd_closed gone] at called
    have nonneg := (all.same (by rw [file?_self, points]; rfl) rfl).2.1
    rw [called] at nonneg
    exact not_nonneg_ebadf nonneg
  have found : (closeFilp (s.keepOnExec current fd) current fd g).file? current oldfd =
      s.file? current oldfd := by
    rw [closeFilp_file? points' same, file?, file?, keepOnExec_filps]
  cases isOld : s.file? current oldfd with
  | none =>
      have called : sysDup2 s current oldfd fd =
          (closeFilp (s.keepOnExec current fd) current fd g, ebadf) := by
        rw [sysDup2_of_open points, dupfd_closed (found.trans isOld)]
      simp only [Option.isSome_none, Bool.false_eq_true, false_or]
      rw [and_iff_right same, ← panics]
      constructor
      · intro all
        by_contra returns
        have fails := all.fails
        rw [called] at fails
        have sameFiles := fails (Bool.eq_false_iff.mpr returns) negative_ebadf
        have kept : (closeFilp (s.keepOnExec current fd) current fd g).filps current fd =
            some g := by
          rw [filps, sameFiles.task]
          exact points
        rw [free] at kept
        cases kept
      · intro panicked
        refine ⟨fun returns => ?_, fun returns => ?_, fun isOpen => ?_⟩
        · rw [called, panicked] at returns
          cases returns
        · rw [called, panicked] at returns
          cases returns
        · rw [isOld] at isOpen
          cases isOpen
  | some place =>
      obtain ⟨old, f⟩ := place
      refine iff_of_true ?_ ⟨same, .inl rfl⟩
      have present' : (closeFilp (s.keepOnExec current fd) current fd g).kind current ≠ none := by
        rwa [closeFilp_kind]
      obtain ⟨result, -, isNew⟩ := dupfd_free_spec (found.trans isOld) free present'
      rw [← sysDup2_of_open points] at result isNew
      refine ⟨fun _ negative => ?_, fun _ _ => ?_, fun _ isSame => absurd isSame same⟩
      · rw [result] at negative
        omega
      · exact ⟨result, old, fd, f, isOld, isNew⟩

/-- `sys_dup2` is all or nothing if and only if there is nothing to close, or the old descriptor
is another one that is open. -/
theorem allOrNothing_iff (isTask : s.task current = some p) (calm : s.panicked = false) :
    AllOrNothing s current oldfd newfd ↔ DupSafe s current p oldfd newfd := by
  rw [DupSafe]
  by_cases inRange : newfd < nrOpen
  · have atRange : (∀ inRange : newfd < nrOpen,
        match s.filps current ⟨newfd, inRange⟩ with
        | none => (s.file? current oldfd).isSome = true ∨ p.KeptOnExec ⟨newfd, inRange⟩
        | some g => oldfd ≠ newfd ∧
            ((s.file? current oldfd).isSome = true ∨ (s.file g).fCount = 0)) ↔ _ :=
      ⟨fun all => all inRange, fun holds _ => holds⟩
    rw [atRange]
    cases points : s.filps current ⟨newfd, inRange⟩ with
    | none => exact @allOrNothing_of_free s current p ⟨newfd, inRange⟩ oldfd isTask calm points
    | some g => exact @allOrNothing_of_open s current ⟨newfd, inRange⟩ g oldfd calm points
  · obtain ⟨unchanged, negative⟩ :=
      @sysDup2_of_large s current oldfd newfd (not_lt.mp inRange)
    refine iff_of_true ⟨fun _ _ => ?_, fun _ nonneg => ?_, fun isOpen same => ?_⟩
      fun small => absurd small inRange
    · rw [unchanged]
      exact ⟨rfl, fun _ => rfl⟩
    · exact absurd nonneg (not_le_of_gt negative)
    · subst same
      rw [file?, dif_neg inRange] at isOpen
      cases isOpen

/-- Task 1 has descriptor 0 open. -/
def oneOpen : Table where
  file _ := ⟨0, 0, 1, some 0, 0⟩
  task nr := if nr = 1 then some ⟨false, 0, fun fd => if fd = 0 then some 0 else none⟩ else none
  events _ := []
  panicked := false

theorem allOrNothing_oneOpen : AllOrNothing oneOpen 1 0 5 :=
  (allOrNothing_iff (show oneOpen.task 1 = some _ from rfl) rfl).mpr fun _ => .inl (by decide)

/-- To copy a descriptor to itself closes it. -/
theorem not_allOrNothing_oneOpen : ¬AllOrNothing oneOpen 1 0 0 := by
  intro all
  have succeeds := (all.same (by decide) rfl).2.1
  revert succeeds
  decide

end Linux012.Files
