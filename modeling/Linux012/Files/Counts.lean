import Linux012.Files.Table
import Linux012.Lib.References
import Linux012.Lib.Run

/-!
# The counts of the open files

`f_count` is the number of descriptors for an entry of `file_table`, and each time the
last of them is closed the inode of the entry is put, once.
-/

namespace Linux012.Files

/-! ## What is promised -/

/-- The life of an entry of `file_table`. -/
inductive Life where
  | closed
  | taken
  | opened (inode : Option InodeNr)
  deriving DecidableEq, Repr

/-- What may happen to an entry: it is taken, bound to an inode and in the end this
inode is put; or it is given back before it has one. -/
def Life.next : Life → Event → Option Life
  | .closed, .taken => some .taken
  | .taken, .freed => some .closed
  | .taken, .bound inode => some (.opened (some inode))
  | .opened inode, .put other => if other = inode then some .closed else none
  | _, _ => none

/-- The life after these events, if they may happen in this order. -/
def Life.after (events : List Event) : Option Life :=
  events.foldl (fun life event => life.bind fun life => life.next event) (some .closed)

theorem Life.after_concat (events : List Event) (event : Event) :
    Life.after (events ++ [event]) = (Life.after events).bind fun life => life.next event := by
  rw [Life.after, List.foldl_append]
  rfl

/-- An open entry has an inode. -/
theorem Life.after_ne_opened_none (events : List Event) :
    Life.after events ≠ some (.opened none) := by
  induction events using List.reverseRecOn with
  | nil => nofun
  | append_singleton events event ih =>
      rw [Life.after_concat]
      intro isOpen
      obtain ⟨life, _, turns⟩ := Option.bind_eq_some_iff.mp isOpen
      cases life <;> cases event <;> simp [Life.next] at turns

/-- The number of descriptors of all tasks for an entry. -/
def Table.refs (s : Table) (f : FileNr) : Nat := Lib.refsIn s.filps f

/-- The life that the descriptors for an entry ask for: it is open as long as there is
one. -/
def Table.life (s : Table) (f : FileNr) : Life :=
  if s.refs f = 0 then .closed else .opened (s.file f).fInode

/-- The promise. -/
structure Accounted (s : Table) : Prop where
  count : ∀ f, (s.file f).fCount.toNat = s.refs f
  unused : ∀ f, (s.file f).fCount = 0 → ∀ nr fd, s.filps nr fd ≠ some f
  lives : ∀ f, Life.after (s.events f) = some (s.life f)
  calm : s.panicked = false

/-- The promise holds behind the call. -/
def KeepsAccounts (s : Table) (action : TaskNr × Call) : Prop :=
  ∀ next, step s action = some next → Accounted next

/-! ## What the parts of a call change -/

/-- Whether there is a task, and if it is a zombie. -/
def Table.kind (s : Table) (nr : TaskNr) : Option Bool := (s.task nr).map Task.zombie

variable {s next : Table} {current nr : TaskNr} {fd : Fd} {f g : FileNr}

namespace Table

@[simp] theorem setFile_filps {file : File} : (s.setFile f file).filps = s.filps := rfl

@[simp] theorem setFile_kind {file : File} : (s.setFile f file).kind = s.kind := rfl

@[simp] theorem setFile_events {file : File} : (s.setFile f file).events = s.events := rfl

@[simp] theorem setFile_panicked {file : File} :
    (s.setFile f file).panicked = s.panicked := rfl

@[simp] theorem setFile_file_self {file : File} : (s.setFile f file).file f = file :=
  Function.update_self ..

theorem setFile_file_of_ne {file : File} (differs : g ≠ f) :
    (s.setFile f file).file g = s.file g :=
  Function.update_of_ne differs ..

@[simp] theorem record_filps {event : Event} : (s.record f event).filps = s.filps := rfl

@[simp] theorem record_kind {event : Event} : (s.record f event).kind = s.kind := rfl

@[simp] theorem record_file {event : Event} : (s.record f event).file = s.file := rfl

@[simp] theorem record_panicked {event : Event} :
    (s.record f event).panicked = s.panicked := rfl

@[simp] theorem record_events_self {event : Event} :
    (s.record f event).events f = s.events f ++ [event] :=
  Function.update_self ..

theorem record_events_of_ne {event : Event} (differs : g ≠ f) :
    (s.record f event).events g = s.events g :=
  Function.update_of_ne differs ..

@[simp] theorem setTask_file {p : Option Task} : (s.setTask nr p).file = s.file := rfl

@[simp] theorem setTask_events {p : Option Task} : (s.setTask nr p).events = s.events := rfl

@[simp] theorem setTask_panicked {p : Option Task} :
    (s.setTask nr p).panicked = s.panicked := rfl

theorem setTask_filps {p : Option Task} :
    (s.setTask nr p).filps =
      Function.update s.filps nr ((p.map Task.filp).getD fun _ => none) := by
  funext other
  by_cases same : other = nr
  · rw [same, Function.update_self, filps, setTask]
    simp only [Function.update_self]
    cases p <;> rfl
  · rw [Function.update_of_ne same, filps, setTask]
    simp only [Function.update_of_ne same]
    rfl

theorem setTask_kind {p : Option Task} :
    (s.setTask nr p).kind = Function.update s.kind nr (p.map Task.zombie) := by
  funext other
  by_cases same : other = nr
  · rw [same, Function.update_self]
    exact congrArg (Option.map Task.zombie) (Function.update_self ..)
  · rw [Function.update_of_ne same]
    exact congrArg (Option.map Task.zombie) (Function.update_of_ne same ..)

theorem filps_of_task {p : Task} (isTask : s.task nr = some p) : s.filps nr = p.filp := by
  rw [filps, isTask]

theorem filps_of_no_task (noTask : s.task nr = none) : s.filps nr = fun _ => none := by
  rw [filps, noTask]

/-- Only the descriptors of the task change. -/
theorem setTask_same_filps {p p' : Task} (isTask : s.task nr = some p)
    (filp : p'.filp = p.filp) : (s.setTask nr (some p')).filps = s.filps := by
  rw [setTask_filps, Option.map_some, Option.getD_some, filp, ← filps_of_task isTask,
    Function.update_eq_self]

theorem setTask_same_kind {p p' : Task} (isTask : s.task nr = some p)
    (zombie : p'.zombie = p.zombie) : (s.setTask nr (some p')).kind = s.kind := by
  have isKind : s.kind nr = some p.zombie := by rw [kind, isTask, Option.map_some]
  rw [setTask_kind, Option.map_some, zombie, ← isKind, Function.update_eq_self]

@[simp] theorem keepOnExec_filps : (s.keepOnExec current fd).filps = s.filps := by
  rw [keepOnExec]
  split
  next => rfl
  next p isTask => exact setTask_same_filps isTask rfl

@[simp] theorem keepOnExec_kind : (s.keepOnExec current fd).kind = s.kind := by
  rw [keepOnExec]
  split
  next => rfl
  next p isTask => exact setTask_same_kind isTask rfl

@[simp] theorem keepOnExec_file : (s.keepOnExec current fd).file = s.file := by
  rw [keepOnExec]
  split <;> rfl

@[simp] theorem keepOnExec_events : (s.keepOnExec current fd).events = s.events := by
  rw [keepOnExec]
  split <;> rfl

@[simp] theorem keepOnExec_panicked : (s.keepOnExec current fd).panicked = s.panicked := by
  rw [keepOnExec]
  split <;> rfl

@[simp] theorem setFilp_kind {file : Option FileNr} :
    (s.setFilp current fd file).kind = s.kind := by
  rw [setFilp]
  split
  next => rfl
  next p isTask => exact setTask_same_kind isTask rfl

@[simp] theorem setFilp_file {file : Option FileNr} :
    (s.setFilp current fd file).file = s.file := by
  rw [setFilp]
  split <;> rfl

@[simp] theorem setFilp_events {file : Option FileNr} :
    (s.setFilp current fd file).events = s.events := by
  rw [setFilp]
  split <;> rfl

@[simp] theorem setFilp_panicked {file : Option FileNr} :
    (s.setFilp current fd file).panicked = s.panicked := by
  rw [setFilp]
  split <;> rfl

theorem setFilp_filps {file : Option FileNr} (present : s.kind current ≠ none) :
    (s.setFilp current fd file).filps =
      Function.update s.filps current (Function.update (s.filps current) fd file) := by
  rw [setFilp]
  split
  next noTask =>
    rw [kind, noTask] at present
    exact absurd rfl present
  next p isTask =>
    rw [setTask_filps, filps_of_task isTask]
    rfl

/-- A descriptor is overwritten. -/
theorem setFilp_refs {file : Option FileNr} (present : s.kind current ≠ none) :
    (s.setFilp current fd file).refs g + Lib.refOf (s.filps current fd) g =
      s.refs g + Lib.refOf file g := by
  rw [refs, setFilp_filps present]
  exact Lib.refsIn_update current fd file

theorem refs_lt (s : Table) (f : FileNr) : s.refs f < 65535 := by
  have most : s.refs f ≤ Fintype.card TaskNr * Fintype.card Fd := Lib.refsIn_le_card
  rw [Fintype.card_fin, Fintype.card_fin, nrTasks, nrOpen] at most
  omega

end Table

/-! ## Entries that are accounted for -/

/-- What the promise says of one entry. -/
structure Table.Fine (s : Table) (f : FileNr) : Prop where
  count : (s.file f).fCount.toNat = s.refs f
  life : Life.after (s.events f) = some (s.life f)

/-- What has exited has no descriptors. -/
def Table.ZombiesClosed (s : Table) : Prop :=
  ∀ nr, s.kind nr = some true → ∀ fd, s.filps nr fd = none

/-- The invariant. -/
structure Balanced (s : Table) : Prop where
  fine : ∀ f, s.Fine f
  zombies : s.ZombiesClosed
  calm : s.panicked = false

theorem Balanced.accounted (balanced : Balanced s) : Accounted s where
  count f := (balanced.fine f).count
  unused f zero nr fd points := by
    have counted := (balanced.fine f).count
    rw [zero] at counted
    exact absurd counted.symm (Nat.ne_of_gt (Lib.refsIn_pos points))
  lives f := (balanced.fine f).life
  calm := balanced.calm

/-- Nothing happens to the entry. -/
structure Table.Unchanged (s next : Table) (f : FileNr) : Prop where
  refs : next.refs f = s.refs f
  file : next.file f = s.file f
  events : next.events f = s.events f

theorem Table.Unchanged.fine (unchanged : s.Unchanged next f) (fine : s.Fine f) :
    next.Fine f where
  count := by rw [unchanged.file, unchanged.refs, fine.count]
  life := by
    rw [unchanged.events, fine.life, Table.life, Table.life, unchanged.refs, unchanged.file]

/-- An entry with a descriptor. -/
theorem Table.Fine.count_ne_zero (fine : s.Fine f) (points : s.filps nr fd = some f) :
    (s.file f).fCount ≠ 0 := by
  intro zero
  have counted := fine.count
  rw [zero] at counted
  exact absurd counted.symm (Nat.ne_of_gt (Lib.refsIn_pos points))

/-- A free entry. -/
theorem Table.Fine.free (fine : s.Fine f) (free : (s.file f).fCount = 0) :
    s.refs f = 0 ∧ Life.after (s.events f) = some .closed := by
  have noRef : s.refs f = 0 := by
    rw [← fine.count, free]
    rfl
  have closed := fine.life
  rw [Table.life, if_pos noRef] at closed
  exact ⟨noRef, closed⟩

/-- There is a task where there is a descriptor. -/
theorem Table.kind_ne_none (points : s.filps current fd = some f) : s.kind current ≠ none := by
  intro noKind
  rw [kind, Option.map_eq_none_iff] at noKind
  rw [filps_of_no_task noKind] at points
  cases points

theorem Table.ZombiesClosed.setFilp {file : Option FileNr} (closed : s.ZombiesClosed)
    (present : s.kind current ≠ none) (live : file = none ∨ s.kind current ≠ some true) :
    (s.setFilp current fd file).ZombiesClosed := by
  intro nr isZombie other
  rw [setFilp_kind] at isZombie
  rw [setFilp_filps present]
  by_cases same : nr = current
  · rw [same, Function.update_self]
    rw [same] at isZombie
    rcases live with isNone | live
    · by_cases here : other = fd
      · rw [here, Function.update_self, isNone]
      · rw [Function.update_of_ne here]
        exact closed current isZombie other
    · exact absurd isZombie live
  · rw [Function.update_of_ne same]
    exact closed nr isZombie other

theorem Table.ZombiesClosed.of_eq (closed : s.ZombiesClosed) (kind : next.kind = s.kind)
    (filps : next.filps = s.filps) : next.ZombiesClosed := by
  intro nr isZombie fd
  rw [kind] at isZombie
  rw [filps]
  exact closed nr isZombie fd

/-- Neither a descriptor nor an entry changes. -/
theorem Balanced.of_eq (balanced : Balanced s) (kind : next.kind = s.kind)
    (filps : next.filps = s.filps) (file : next.file = s.file)
    (events : next.events = s.events) (panicked : next.panicked = s.panicked) :
    Balanced next where
  fine f := by
    have unchanged : s.Unchanged next f :=
      ⟨by rw [Table.refs, Table.refs, filps], by rw [file], by rw [events]⟩
    exact unchanged.fine (balanced.fine f)
  zombies := balanced.zombies.of_eq kind filps
  calm := panicked.trans balanced.calm

theorem Balanced.keepOnExec (balanced : Balanced s) : Balanced (s.keepOnExec current fd) :=
  balanced.of_eq Table.keepOnExec_kind Table.keepOnExec_filps Table.keepOnExec_file
    Table.keepOnExec_events Table.keepOnExec_panicked

/-! ## Closing -/

/-- One descriptor less. -/
theorem Table.setFilp_none_refs (points : s.filps current fd = some f) :
    (s.setFilp current fd none).refs g + Lib.refOf (some f) g = s.refs g := by
  have change : (s.setFilp current fd none).refs g + Lib.refOf (s.filps current fd) g =
      s.refs g + Lib.refOf none g :=
    setFilp_refs (kind_ne_none points)
  rw [points, Lib.refOf_none, Nat.add_zero] at change
  exact change

/-- The entry of a descriptor that is closed: it has one less, and with the last one its
inode is put. -/
theorem Table.Fine.closeFilp (fine : s.Fine f) (points : s.filps current fd = some f) :
    (closeFilp s current fd f).Fine f := by
  have used := fine.count_ne_zero points
  have less := setFilp_none_refs (g := f) points
  rw [Lib.refOf_self] at less
  have counted := fine.count
  have lowered : ((s.file f).fCount - 1).toNat = (s.setFilp current fd none).refs f := by
    rw [UInt16.toNat_sub_of_le]
    · rw [counted, ← less, UInt16.toNat_one, Nat.add_sub_cancel]
    · rw [UInt16.le_iff_toNat_le, counted, ← less]
      exact Nat.le_add_left 1 _
  have life := fine.life
  rw [Table.life, if_neg (by omega)] at life
  simp only [Files.closeFilp, setFilp_file, if_neg used, setCount, setFile_file_self]
  split
  next more =>
    constructor
    · rw [setFile_file_self]
      exact lowered
    · have others : (s.setFilp current fd none).refs f ≠ 0 := by
        rw [← lowered]
        intro zero
        exact more (UInt16.toNat_inj.mp zero)
      rw [setFile_events, setFilp_events, life, Table.life, setFile_file_self]
      exact congrArg some (if_neg others).symm
  next last =>
    have noneLeft : (s.setFilp current fd none).refs f = 0 := by
      rw [← lowered, not_not.mp last]
      rfl
    constructor
    · rw [record_file, setFile_file_self]
      exact lowered
    · rw [record_events_self, Life.after_concat, setFile_events, setFilp_events, life,
        Table.life]
      exact (if_pos rfl).trans (congrArg some (if_pos noneLeft).symm)

theorem closeFilp_filps : (closeFilp s current fd f).filps = (s.setFilp current fd none).filps := by
  simp only [closeFilp]
  split
  next => rfl
  next => split <;> rfl

theorem closeFilp_kind : (closeFilp s current fd f).kind = s.kind := by
  simp only [closeFilp]
  split
  next => exact Table.setFilp_kind
  next => split <;> exact Table.setFilp_kind

theorem Table.Unchanged.closeFilp (points : s.filps current fd = some f) (differs : g ≠ f) :
    s.Unchanged (closeFilp s current fd f) g where
  refs := by
    have same := setFilp_none_refs (g := g) points
    rw [Lib.refOf_of_ne differs.symm, Nat.add_zero] at same
    rw [Table.refs, closeFilp_filps]
    exact same
  file := by
    have same : ((s.setFilp current fd none).file g) = s.file g := by rw [setFilp_file]
    simp only [Files.closeFilp]
    split
    next => exact same
    next => split <;> exact (setFile_file_of_ne differs).trans same
  events := by
    have same : ((s.setFilp current fd none).events g) = s.events g := by rw [setFilp_events]
    simp only [Files.closeFilp]
    split
    next => exact same
    next =>
      split
      next => exact same
      next => exact (record_events_of_ne differs).trans same

theorem Balanced.closeFilp (balanced : Balanced s) (points : s.filps current fd = some f) :
    Balanced (closeFilp s current fd f) where
  fine g := by
    by_cases same : g = f
    · rw [same]
      exact (balanced.fine f).closeFilp points
    · exact (Table.Unchanged.closeFilp points same).fine (balanced.fine g)
  zombies :=
    (balanced.zombies.setFilp (Table.kind_ne_none points) (.inl rfl)).of_eq
      (closeFilp_kind.trans Table.setFilp_kind.symm) closeFilp_filps
  calm := by
    have used := (balanced.fine f).count_ne_zero points
    simp only [Files.closeFilp, Table.setFilp_file, if_neg used]
    split <;> exact Table.setFilp_panicked.trans balanced.calm

theorem Balanced.sysClose {fd : Nat} (balanced : Balanced s) :
    Balanced (sysClose s current fd).1 := by
  rw [Files.sysClose]
  split
  next =>
    simp only
    split
    next => exact balanced.keepOnExec
    next points => exact balanced.keepOnExec.closeFilp points
  next => exact balanced

theorem sysClose_filps :
    (sysClose s current fd).1.filps =
      Function.update s.filps current (Function.update (s.filps current) fd none) := by
  rw [Files.sysClose, dif_pos fd.isLt]
  simp only [Fin.eta, Table.keepOnExec_filps]
  split
  next noFile => rw [← noFile, Function.update_eq_self, Function.update_eq_self,
    Table.keepOnExec_filps]
  next f points =>
    rw [closeFilp_filps, Table.setFilp_filps, Table.keepOnExec_filps]
    rw [Table.keepOnExec_kind]
    exact Table.kind_ne_none points

theorem sysClose_kind {fd : Nat} : (sysClose s current fd).1.kind = s.kind := by
  rw [Files.sysClose]
  split
  next =>
    simp only
    split
    next => exact Table.keepOnExec_kind
    next => exact closeFilp_kind.trans Table.keepOnExec_kind
  next => rfl

/-! ## Copies of descriptors -/

theorem Table.not_pointing_of_mem {arg : Nat} (member : fd ∈ s.freeFds current arg) :
    s.filps current fd = none := by
  rw [freeFds, List.mem_filter, Bool.and_eq_true, Option.isNone_iff_eq_none] at member
  exact member.2.2

theorem Table.not_pointing_of_free {arg : Nat} {rest : List Fd}
    (free : s.freeFds current arg = fd :: rest) : s.filps current fd = none := by
  apply not_pointing_of_mem
  rw [free]
  exact List.mem_cons_self

/-- A free descriptor is used. -/
theorem Table.setFilp_some_refs (present : s.kind current ≠ none)
    (free : s.filps current fd = none) :
    (s.setFilp current fd (some f)).refs g = s.refs g + Lib.refOf (some f) g := by
  have change : (s.setFilp current fd (some f)).refs g + Lib.refOf (s.filps current fd) g =
      s.refs g + Lib.refOf (some f) g :=
    setFilp_refs present
  rw [free, Lib.refOf_none, Nat.add_zero] at change
  exact change

/-- One descriptor more for an entry that has some. -/
theorem Balanced.share (balanced : Balanced s) (live : s.kind current = some false)
    (free : s.filps current fd = none) (used : s.refs f ≠ 0) :
    Balanced ((s.setFilp current fd (some f)).setCount f ((s.file f).fCount + 1)) := by
  have present : s.kind current ≠ none := by
    rw [live]
    nofun
  have more (g : FileNr) := Table.setFilp_some_refs (f := f) (g := g) present free
  constructor
  · intro g
    by_cases same : g = f
    · subst same
      have counted := (balanced.fine g).count
      have below := s.refs_lt g
      have now := more g
      rw [Lib.refOf_self] at now
      have life := (balanced.fine g).life
      rw [Table.life, if_neg used] at life
      constructor
      · rw [Table.setCount, Table.setFile_file_self]
        calc ((s.file g).fCount + 1).toNat = (s.file g).fCount.toNat + 1 := by
              rw [UInt16.toNat_add, UInt16.toNat_one, Nat.mod_eq_of_lt (by omega)]
          _ = s.refs g + 1 := by rw [counted]
          _ = (s.setFilp current fd (some g)).refs g := now.symm
      · have usedNow : (s.setFilp current fd (some g)).refs g ≠ 0 := by omega
        rw [Table.setCount, Table.setFile_events, Table.setFilp_events, life, Table.life,
          Table.setFile_file_self, Table.setFilp_file]
        exact congrArg some (if_neg usedNow).symm
    · have unchanged : s.Unchanged
          ((s.setFilp current fd (some f)).setCount f ((s.file f).fCount + 1)) g := by
        constructor
        · have now := more g
          rw [Lib.refOf_of_ne (Ne.symm same), Nat.add_zero] at now
          exact now
        · rw [Table.setCount, Table.setFile_file_of_ne same, Table.setFilp_file]
        · rw [Table.setCount, Table.setFile_events, Table.setFilp_events]
      exact unchanged.fine (balanced.fine g)
  · have closed : (s.setFilp current fd (some f)).ZombiesClosed := by
      apply balanced.zombies.setFilp present
      rw [live]
      exact .inr (by nofun)
    exact closed.of_eq rfl rfl
  · exact Table.setFilp_panicked.trans balanced.calm

theorem Table.used_of_file? {fd : Nat} {place : Fd × FileNr}
    (isFile : s.file? current fd = some place) : s.filps current place.1 = some place.2 := by
  rw [file?] at isFile
  split at isFile
  next =>
    obtain ⟨f, points, rfl⟩ := Option.map_eq_some_iff.mp isFile
    exact points
  next => cases isFile

theorem Table.refs_ne_zero (points : s.filps current fd = some f) : s.refs f ≠ 0 :=
  Nat.ne_of_gt (Lib.refsIn_pos points)

theorem Balanced.dupfd {fd arg : Nat} (balanced : Balanced s)
    (live : s.kind current = some false) : Balanced (dupfd s current fd arg).1 := by
  rw [Files.dupfd]
  split
  next => exact balanced
  next old f isFile =>
    split
    next => exact balanced
    next =>
      split
      next => exact balanced
      next new _ free =>
        apply balanced.keepOnExec.share
        · rw [Table.keepOnExec_kind, live]
        · rw [Table.keepOnExec_filps]
          exact Table.not_pointing_of_free free
        · rw [Table.refs, Table.keepOnExec_filps]
          exact Table.refs_ne_zero (Table.used_of_file? isFile)

theorem Balanced.sysDup2 {oldfd newfd : Nat} (balanced : Balanced s)
    (live : s.kind current = some false) : Balanced (sysDup2 s current oldfd newfd).1 := by
  apply balanced.sysClose.dupfd
  rw [sysClose_kind, live]

/-- The other fields of an entry do not matter. -/
theorem Balanced.setFile {file : File} (balanced : Balanced s)
    (count : file.fCount = (s.file f).fCount) (inode : file.fInode = (s.file f).fInode) :
    Balanced (s.setFile f file) where
  fine g := by
    by_cases same : g = f
    · subst same
      constructor
      · rw [Table.setFile_file_self, count]
        exact (balanced.fine g).count
      · rw [Table.setFile_events, Table.life, Table.setFile_file_self, inode]
        exact (balanced.fine g).life
    · have unchanged : s.Unchanged (s.setFile f file) g :=
        ⟨rfl, Table.setFile_file_of_ne same, rfl⟩
      exact unchanged.fine (balanced.fine g)
  zombies := balanced.zombies
  calm := balanced.calm

theorem Balanced.sysFcntl {fd cmd arg : Nat} (balanced : Balanced s)
    (live : s.kind current = some false) : Balanced (sysFcntl s current fd cmd arg).1 := by
  rw [Files.sysFcntl]
  split
  next fd f p isFile isTask =>
    simp only
    split
    next => exact balanced.dupfd live
    next => exact balanced
    next =>
      split
      next =>
        exact balanced.of_eq (Table.setTask_same_kind isTask rfl)
          (Table.setTask_same_filps isTask rfl) rfl rfl rfl
      next => exact balanced.keepOnExec
    next => exact balanced
    next => exact balanced.setFile rfl rfl
    next => exact balanced
  next => exact balanced

/-! ## Opening -/

theorem Table.count_eq_zero_of_mem (member : f ∈ s.freeFiles) : (s.file f).fCount = 0 := by
  rw [freeFiles, List.mem_filter] at member
  exact beq_iff_eq.mp member.2

theorem Table.count_eq_zero_of_free {rest : List FileNr} (free : s.freeFiles = f :: rest) :
    (s.file f).fCount = 0 := by
  apply count_eq_zero_of_mem
  rw [free]
  exact List.mem_cons_self

/-- An entry that a call has taken and that has a descriptor, or none yet. -/
structure Table.Taken (s : Table) (f : FileNr) : Prop where
  count : (s.file f).fCount = 1
  life : Life.after (s.events f) = some .taken

theorem Table.Fine.takeFile (fine : s.Fine f) (free : (s.file f).fCount = 0) :
    (s.takeFile f).Taken f where
  count := by
    rw [Table.takeFile, record_file, setCount, setFile_file_self, free]
    rfl
  life := by
    rw [Table.takeFile, record_events_self, Life.after_concat]
    exact congrArg (fun life => life.bind fun life => life.next .taken) (fine.free free).2

/-- The entry is given back. -/
theorem Table.Taken.freeFile (taken : s.Taken f) (noRef : s.refs f = 0) :
    (s.freeFile f).Fine f where
  count := by
    rw [Table.freeFile, record_file, setCount, setFile_file_self]
    exact noRef.symm
  life := by
    rw [Table.freeFile, record_events_self, Life.after_concat]
    have given : Life.after ((s.setCount f 0).events f) = some .taken := taken.life
    rw [given, Table.life]
    exact congrArg some (if_pos noRef).symm

/-- The entry gets its inode. -/
theorem Table.Taken.bound {file : File} {inode : InodeNr} (taken : s.Taken f)
    (oneRef : s.refs f = 1) (count : file.fCount = 1) (isInode : file.fInode = some inode) :
    ((s.setFile f file).record f (.bound inode)).Fine f where
  count := by
    rw [record_file, setFile_file_self, count]
    exact oneRef.symm
  life := by
    rw [record_events_self, Life.after_concat, setFile_events, taken.life, Table.life,
      record_file, setFile_file_self, isInode]
    have used : ((s.setFile f file).record f (.bound inode)).refs f ≠ 0 := by
      have same : ((s.setFile f file).record f (.bound inode)).refs f = 1 := oneRef
      rw [same]
      exact one_ne_zero
    exact congrArg some (if_neg used).symm

/-- In the middle of a call: it has taken the `pending` entries. -/
structure Pending (s : Table) (pending : Set FileNr) : Prop where
  fine : ∀ f ∉ pending, s.Fine f
  taken : ∀ f ∈ pending, s.Taken f
  zombies : s.ZombiesClosed
  calm : s.panicked = false

variable {pending : Set FileNr}

theorem Balanced.toPending (balanced : Balanced s) : Pending s ∅ where
  fine f _ := balanced.fine f
  taken _ none := none.elim
  zombies := balanced.zombies
  calm := balanced.calm

theorem Pending.balanced (here : Pending s ∅) : Balanced s where
  fine f := here.fine f (Set.notMem_empty f)
  zombies := here.zombies
  calm := here.calm

theorem Pending.keepOnExec (here : Pending s pending) :
    Pending (s.keepOnExec current fd) pending where
  fine f notPending := by
    have unchanged : s.Unchanged (s.keepOnExec current fd) f :=
      ⟨by rw [Table.refs, Table.refs, Table.keepOnExec_filps], by rw [Table.keepOnExec_file],
        by rw [Table.keepOnExec_events]⟩
    exact unchanged.fine (here.fine f notPending)
  taken f isPending := by
    constructor
    · rw [Table.keepOnExec_file, (here.taken f isPending).count]
    · rw [Table.keepOnExec_events, (here.taken f isPending).life]
  zombies := here.zombies.of_eq Table.keepOnExec_kind Table.keepOnExec_filps
  calm := Table.keepOnExec_panicked.trans here.calm

/-- A free entry is taken. -/
theorem Pending.takeFile (here : Pending s pending) (free : (s.file f).fCount = 0)
    (notPending : f ∉ pending) : Pending (s.takeFile f) (insert f pending) where
  fine g other := by
    have differs : g ≠ f := fun same => other (same ▸ Set.mem_insert _ _)
    have unchanged : s.Unchanged (s.takeFile f) g :=
      ⟨rfl, Table.setFile_file_of_ne differs, Table.record_events_of_ne differs⟩
    exact unchanged.fine (here.fine g fun member => other (Set.mem_insert_of_mem _ member))
  taken g member := by
    by_cases same : g = f
    · rw [same]
      exact (here.fine f notPending).takeFile free
    · have before := here.taken g (Set.mem_of_mem_insert_of_ne member same)
      constructor
      · rw [Table.takeFile, Table.record_file, Table.setCount, Table.setFile_file_of_ne same,
          before.count]
      · rw [Table.takeFile, Table.record_events_of_ne same]
        exact before.life
  zombies := here.zombies
  calm := here.calm

/-- A descriptor is set or cleared that is for no other entries than those taken. -/
theorem Pending.setFilp {file : Option FileNr} (here : Pending s pending)
    (live : s.kind current = some false)
    (before : ∀ f, s.filps current fd = some f → f ∈ pending)
    (behind : ∀ f, file = some f → f ∈ pending) :
    Pending (s.setFilp current fd file) pending where
  fine f notPending := by
    have present : s.kind current ≠ none := by
      rw [live]
      nofun
    have change : (s.setFilp current fd file).refs f + Lib.refOf (s.filps current fd) f =
        s.refs f + Lib.refOf file f :=
      Table.setFilp_refs present
    have unchanged : s.Unchanged (s.setFilp current fd file) f := by
      constructor
      · rw [Lib.refOf, if_neg fun points => notPending (before f points), Nat.add_zero,
          Lib.refOf, if_neg fun points => notPending (behind f points), Nat.add_zero] at change
        exact change
      · rw [Table.setFilp_file]
      · rw [Table.setFilp_events]
    exact unchanged.fine (here.fine f notPending)
  taken f isPending := by
    constructor
    · rw [Table.setFilp_file, (here.taken f isPending).count]
    · rw [Table.setFilp_events, (here.taken f isPending).life]
  zombies := by
    apply here.zombies.setFilp
    · rw [live]
      nofun
    · rw [live]
      exact .inr (by nofun)
  calm := Table.setFilp_panicked.trans here.calm

/-- One of the entries taken is settled, and the others stay as they are. -/
theorem Pending.settle {remaining : Set FileNr} (here : Pending s pending)
    (pendingEq : pending = insert f remaining) (notRemaining : f ∉ remaining)
    (fine : next.Fine f) (filps : next.filps = s.filps) (kind : next.kind = s.kind)
    (file : ∀ g ≠ f, next.file g = s.file g) (events : ∀ g ≠ f, next.events g = s.events g)
    (panicked : next.panicked = s.panicked) : Pending next remaining where
  fine g other := by
    by_cases same : g = f
    · rw [same]
      exact fine
    · have unchanged : s.Unchanged next g :=
        ⟨by rw [Table.refs, Table.refs, filps], file g same, events g same⟩
      apply unchanged.fine (here.fine g _)
      rw [pendingEq]
      exact fun member => other (Set.mem_of_mem_insert_of_ne member same)
  taken g member := by
    have differs : g ≠ f := fun same => notRemaining (same ▸ member)
    have before : s.Taken g := by
      apply here.taken
      rw [pendingEq]
      exact Set.mem_insert_of_mem _ member
    constructor
    · rw [file g differs, before.count]
    · rw [events g differs, before.life]
  zombies := here.zombies.of_eq kind filps
  calm := panicked.trans here.calm

/-- An entry is given back. -/
theorem Pending.freeFile (here : Pending s (insert f pending)) (notPending : f ∉ pending)
    (noRef : s.refs f = 0) : Pending (s.freeFile f) pending :=
  here.settle rfl notPending ((here.taken f (Set.mem_insert _ _)).freeFile noRef) rfl rfl
    (fun _ differs => Table.setFile_file_of_ne differs)
    (fun _ differs => Table.record_events_of_ne differs) rfl

/-- An entry gets its inode. -/
theorem Pending.bound {file : File} {inode : InodeNr} (here : Pending s (insert f pending))
    (notPending : f ∉ pending) (oneRef : s.refs f = 1) (count : file.fCount = 1)
    (isInode : file.fInode = some inode) :
    Pending ((s.setFile f file).record f (.bound inode)) pending :=
  here.settle rfl notPending
    ((here.taken f (Set.mem_insert _ _)).bound oneRef count isInode) rfl rfl
    (fun _ differs => Table.setFile_file_of_ne differs)
    (fun _ differs => Table.record_events_of_ne differs) rfl

/-- It does not matter if the count or the descriptor comes first. -/
theorem Table.takeFile_setFilp {file : Option FileNr} :
    (s.setFilp current fd file).takeFile f = (s.takeFile f).setFilp current fd file := by
  have isTask : (s.takeFile f).task = s.task := rfl
  rw [setFilp, setFilp, isTask]
  split <;> rfl

/-- `sys_open` has an entry and a descriptor for it. -/
structure Opening (s : Table) (current : TaskNr) (fd : Fd) (f : FileNr) : Prop where
  pending : Pending s (insert f ∅)
  live : s.kind current = some false
  points : s.filps current fd = some f
  oneRef : s.refs f = 1

theorem Balanced.opening (balanced : Balanced s) (live : s.kind current = some false)
    (freeFd : s.filps current fd = none) (free : (s.file f).fCount = 0) :
    Opening ((s.setFilp current fd (some f)).takeFile f) current fd f := by
  have present : s.kind current ≠ none := by
    rw [live]
    nofun
  have noRef := ((balanced.fine f).free free).1
  constructor
  · rw [Table.takeFile_setFilp]
    apply (balanced.toPending.takeFile free (Set.notMem_empty f)).setFilp live
    · intro g points
      rw [Table.takeFile, Table.record_filps, Table.setCount, Table.setFile_filps, freeFd]
        at points
      cases points
    · intro g same
      cases same
      exact Set.mem_insert _ _
  · rw [Table.takeFile_setFilp, Table.setFilp_kind]
    exact live
  · have filps : ((s.setFilp current fd (some f)).takeFile f).filps =
        (s.setFilp current fd (some f)).filps := rfl
    rw [filps, Table.setFilp_filps present, Function.update_self, Function.update_self]
  · have change := Table.setFilp_some_refs (f := f) (g := f) present freeFd
    rw [noRef, Lib.refOf_self] at change
    exact change

theorem Opening.abandon (here : Opening s current fd f) :
    Balanced ((s.setFilp current fd none).freeFile f) := by
  have change := Table.setFilp_none_refs (g := f) here.points
  rw [Lib.refOf_self, here.oneRef] at change
  apply Pending.balanced
  apply Pending.freeFile
  · apply here.pending.setFilp here.live
    · intro g points
      rw [here.points] at points
      cases points
      exact Set.mem_insert _ _
    · nofun
  · exact Set.notMem_empty f
  · exact Nat.succ_injective change

theorem Balanced.sysOpen {flag : UInt16} {openNamei : Except Int Found} {checkCharDev : Bool}
    (balanced : Balanced s) (live : s.kind current = some false) :
    Balanced (sysOpen s current flag openNamei checkCharDev).1 := by
  rw [Files.sysOpen]
  split
  next => exact balanced
  next fd _ freeFd =>
    simp only
    split
    next => exact balanced.keepOnExec
    next f _ freeFile =>
      have here : Opening (((s.keepOnExec current fd).setFilp current fd (some f)).takeFile f)
          current fd f := by
        apply balanced.keepOnExec.opening
        · rw [Table.keepOnExec_kind, live]
        · rw [Table.keepOnExec_filps]
          exact Table.not_pointing_of_free freeFd
        · exact Table.count_eq_zero_of_free freeFile
      split
      next => exact here.abandon
      next =>
        split
        next => exact here.abandon
        next =>
          exact (here.pending.bound (Set.notMem_empty f) here.oneRef rfl rfl).balanced

/-! ## Pipes -/

theorem Table.freeFiles_nodup (s : Table) : s.freeFiles.Nodup :=
  (List.nodup_finRange _).filter _

theorem Table.freeFds_nodup (s : Table) (current : TaskNr) (arg : Nat) :
    (s.freeFds current arg).Nodup :=
  (List.nodup_finRange _).filter _

/-- `sys_pipe` has two entries. -/
structure PipeOpening (s : Table) (current : TaskNr) (f : FileNr × FileNr) : Prop where
  pending : Pending s {f.1, f.2}
  live : s.kind current = some false
  differ : f.1 ≠ f.2
  noRef1 : s.refs f.1 = 0
  noRef2 : s.refs f.2 = 0

variable {fs : FileNr × FileNr}

theorem PipeOpening.abandon (here : PipeOpening s current fs) :
    Balanced ((s.freeFile fs.1).freeFile fs.2) := by
  have notSecond : fs.1 ∉ ({fs.2} : Set FileNr) := here.differ
  have second : Pending (s.freeFile fs.1) (insert fs.2 ∅) := by
    have rest := here.pending.freeFile notSecond here.noRef1
    rwa [← insert_empty_eq] at rest
  exact (second.freeFile (Set.notMem_empty _) here.noRef2).balanced

theorem Balanced.pipeOpening {rest : List FileNr} (balanced : Balanced s)
    (live : s.kind current = some false) (free : s.freeFiles = fs.1 :: fs.2 :: rest) :
    PipeOpening ((s.takeFile fs.1).takeFile fs.2) current fs := by
  have distinct := s.freeFiles_nodup
  rw [free] at distinct
  have differ : fs.1 ≠ fs.2 := fun same =>
    (List.nodup_cons.mp distinct).1 (same ▸ List.mem_cons_self)
  have free1 := Table.count_eq_zero_of_free free
  have free2 : (s.file fs.2).fCount = 0 := by
    apply Table.count_eq_zero_of_mem
    rw [free]
    exact List.mem_cons_of_mem _ List.mem_cons_self
  have stillFree : ((s.takeFile fs.1).file fs.2).fCount = 0 := by
    rw [Table.takeFile, Table.record_file, Table.setCount,
      Table.setFile_file_of_ne differ.symm, free2]
  have first := balanced.toPending.takeFile free1 (Set.notMem_empty _)
  have notFirst : fs.2 ∉ insert fs.1 (∅ : Set FileNr) := by
    rw [insert_empty_eq]
    exact differ.symm
  constructor
  · have both := first.takeFile stillFree notFirst
    rwa [insert_empty_eq, Set.pair_comm] at both
  · exact live
  · exact differ
  · exact ((balanced.fine fs.1).free free1).1
  · exact ((balanced.fine fs.2).free free2).1

theorem Table.setFilp_points {file : Option FileNr} (present : s.kind current ≠ none) :
    (s.setFilp current fd file).filps current fd = file := by
  rw [setFilp_filps present, Function.update_self, Function.update_self]

theorem Table.setFilp_points_of_ne {other : Fd} {file : Option FileNr}
    (present : s.kind current ≠ none) (differs : other ≠ fd) :
    (s.setFilp current fd file).filps current other = s.filps current other := by
  rw [setFilp_filps present, Function.update_self, Function.update_of_ne differs]

theorem Table.setFilp_present {file : Option FileNr} (present : s.kind current ≠ none) :
    (s.setFilp current fd file).kind current ≠ none := by
  rw [setFilp_kind]
  exact present

theorem PipeOpening.present (here : PipeOpening s current fs) : s.kind current ≠ none := by
  rw [here.live]
  nofun

/-- One of the two entries gets a descriptor. -/
theorem PipeOpening.pendingSet (here : PipeOpening s current fs)
    (free : s.filps current fd = none) :
    Pending (s.setFilp current fd (some fs.1)) {fs.1, fs.2} := by
  apply here.pending.setFilp here.live
  · intro g points
    rw [free] at points
    cases points
  · intro g same
    cases same
    exact Set.mem_insert _ _

/-- With one free descriptor nothing is gained. -/
theorem PipeOpening.oneFd (here : PipeOpening s current fs)
    (free : s.filps current fd = none) :
    PipeOpening ((s.setFilp current fd (some fs.1)).setFilp current fd none) current fs := by
  have present := here.present
  have points : (s.setFilp current fd (some fs.1)).filps current fd = some fs.1 :=
    Table.setFilp_points present
  have refs (g : FileNr) :
      ((s.setFilp current fd (some fs.1)).setFilp current fd none).refs g = s.refs g := by
    have more := Table.setFilp_some_refs (f := fs.1) (g := g) present free
    have less := Table.setFilp_none_refs (g := g) points
    omega
  constructor
  · apply (here.pendingSet free).setFilp
    · rw [Table.setFilp_kind, here.live]
    · intro g isSet
      rw [points] at isSet
      cases isSet
      exact Set.mem_insert _ _
    · nofun
  · rw [Table.setFilp_kind, Table.setFilp_kind, here.live]
  · exact here.differ
  · exact (refs _).trans here.noRef1
  · exact (refs _).trans here.noRef2

/-- `sys_pipe` has two entries and two descriptors. -/
structure PipeFilled (s : Table) (current : TaskNr) (f : FileNr × FileNr) (fd : Fd × Fd) :
    Prop where
  pending : Pending s {f.1, f.2}
  live : s.kind current = some false
  differ : f.1 ≠ f.2
  fdsDiffer : fd.1 ≠ fd.2
  points1 : s.filps current fd.1 = some f.1
  points2 : s.filps current fd.2 = some f.2
  oneRef1 : s.refs f.1 = 1
  oneRef2 : s.refs f.2 = 1

variable {fds : Fd × Fd}

theorem PipeOpening.filled (here : PipeOpening s current fs) (fdsDiffer : fds.1 ≠ fds.2)
    (free1 : s.filps current fds.1 = none) (free2 : s.filps current fds.2 = none) :
    PipeFilled ((s.setFilp current fds.1 (some fs.1)).setFilp current fds.2 (some fs.2)) current
      fs fds := by
  have present := here.present
  have presentNow : (s.setFilp current fds.1 (some fs.1)).kind current ≠ none :=
    Table.setFilp_present present
  have stillFree : (s.setFilp current fds.1 (some fs.1)).filps current fds.2 = none := by
    rw [Table.setFilp_points_of_ne present fdsDiffer.symm, free2]
  have refs (g : FileNr) :
      ((s.setFilp current fds.1 (some fs.1)).setFilp current fds.2 (some fs.2)).refs g =
        s.refs g + Lib.refOf (some fs.1) g + Lib.refOf (some fs.2) g := by
    rw [Table.setFilp_some_refs presentNow stillFree, Table.setFilp_some_refs present free1]
  constructor
  · apply (here.pendingSet free1).setFilp
    · rw [Table.setFilp_kind, here.live]
    · intro g points
      rw [stillFree] at points
      cases points
    · intro g same
      cases same
      exact Set.mem_insert_of_mem _ rfl
  · rw [Table.setFilp_kind, Table.setFilp_kind, here.live]
  · exact here.differ
  · exact fdsDiffer
  · rw [Table.setFilp_points_of_ne presentNow fdsDiffer, Table.setFilp_points present]
  · exact Table.setFilp_points presentNow
  · rw [refs, here.noRef1, Lib.refOf_self, Lib.refOf_of_ne here.differ.symm]
  · rw [refs, here.noRef2, Lib.refOf_self, Lib.refOf_of_ne here.differ]

/-- Without an inode the descriptors are cleared again. -/
theorem PipeFilled.cleared (here : PipeFilled s current fs fds) :
    PipeOpening ((s.setFilp current fds.1 none).setFilp current fds.2 none) current fs := by
  have present := Table.kind_ne_none here.points1
  have stillSet : (s.setFilp current fds.1 none).filps current fds.2 = some fs.2 := by
    rw [Table.setFilp_points_of_ne present here.fdsDiffer.symm, here.points2]
  have refs (g : FileNr) :
      ((s.setFilp current fds.1 none).setFilp current fds.2 none).refs g +
        Lib.refOf (some fs.2) g + Lib.refOf (some fs.1) g = s.refs g := by
    rw [Table.setFilp_none_refs stillSet, Table.setFilp_none_refs here.points1]
  constructor
  · apply Pending.setFilp
    · apply here.pending.setFilp here.live
      · intro g points
        rw [here.points1] at points
        cases points
        exact Set.mem_insert _ _
      · nofun
    · rw [Table.setFilp_kind, here.live]
    · intro g points
      rw [stillSet] at points
      cases points
      exact Set.mem_insert_of_mem _ rfl
    · nofun
  · rw [Table.setFilp_kind, Table.setFilp_kind, here.live]
  · exact here.differ
  · have cleared := refs fs.1
    rw [here.oneRef1, Lib.refOf_self] at cleared
    omega
  · have cleared := refs fs.2
    rw [here.oneRef2, Lib.refOf_self] at cleared
    omega

/-- Both entries get the inode. -/
theorem PipeFilled.bound {file1 file2 : File} {inode : InodeNr}
    (here : PipeFilled s current fs fds) (count1 : file1.fCount = 1) (count2 : file2.fCount = 1)
    (inode1 : file1.fInode = some inode) (inode2 : file2.fInode = some inode) :
    Balanced ((((s.setFile fs.1 file1).record fs.1 (.bound inode)).setFile fs.2 file2).record fs.2
      (.bound inode)) := by
  have notSecond : fs.1 ∉ ({fs.2} : Set FileNr) := here.differ
  have first := here.pending.bound notSecond here.oneRef1 count1 inode1
  rw [← insert_empty_eq] at first
  exact (first.bound (Set.notMem_empty _) here.oneRef2 count2 inode2).balanced

theorem Balanced.openPipe {inode : Option InodeNr} (here : PipeOpening s current fs)
    (fdsDiffer : fds.1 ≠ fds.2) (free1 : s.filps current fds.1 = none)
    (free2 : s.filps current fds.2 = none) :
    Balanced (openPipe s current fs fds inode).1 := by
  have filled := here.filled fdsDiffer free1 free2
  cases inode with
  | none => exact filled.cleared.abandon
  | some inode =>
      apply filled.bound
      · exact (filled.pending.taken fs.1 (Set.mem_insert _ _)).count
      · apply (congrArg File.fCount (Table.setFile_file_of_ne here.differ.symm)).trans
        exact (filled.pending.taken fs.2 (Set.mem_insert_of_mem _ rfl)).count
      · rfl
      · rfl

theorem Balanced.sysPipe {inode : Option InodeNr} (balanced : Balanced s)
    (live : s.kind current = some false) : Balanced (sysPipe s current inode).1 := by
  rw [Files.sysPipe]
  split
  next f0 f1 _ free =>
    have here : PipeOpening ((s.takeFile f0).takeFile f1) current (f0, f1) :=
      @Balanced.pipeOpening s current (f0, f1) _ balanced live free
    simp only
    split
    next fd0 fd1 _ freeFds =>
      have distinct := Table.freeFds_nodup ((s.takeFile f0).takeFile f1) current 0
      rw [freeFds] at distinct
      have fdsDiffer : fd0 ≠ fd1 := fun same =>
        (List.nodup_cons.mp distinct).1 (same ▸ List.mem_cons_self)
      have free2 : ((s.takeFile f0).takeFile f1).filps current fd1 = none := by
        apply Table.not_pointing_of_mem
        rw [freeFds]
        exact List.mem_cons_of_mem _ List.mem_cons_self
      exact Balanced.openPipe here fdsDiffer (Table.not_pointing_of_free freeFds) free2
    next fd0 freeFds => exact (here.oneFd (Table.not_pointing_of_free freeFds)).abandon
    next => exact here.abandon
  next f0 free =>
    have isFree := Table.count_eq_zero_of_free free
    have taken := balanced.toPending.takeFile isFree (Set.notMem_empty f0)
    exact (taken.freeFile (Set.notMem_empty f0) ((balanced.fine f0).free isFree).1).balanced
  next => exact balanced

/-! ## Tasks -/

/-- What `fds` add to the count of an entry. -/
def Task.uses (p : Task) (fds : List Fd) (f : FileNr) : Nat :=
  fds.countP fun fd => p.filp fd = some f

theorem Task.uses_finRange (p : Task) (f : FileNr) :
    p.uses (List.finRange nrOpen) f = Lib.refs p.filp f := by
  rw [uses, Lib.refs, List.countP_eq_length_filter]
  rfl

/-- The loop of `countFiles` over some descriptors. -/
theorem countFile_foldl (p : Task) (fds : List Fd) (s : Table) :
    fds.foldl (countFile p) s = { s with file := fun f => { s.file f with
      fCount := (s.file f).fCount + UInt16.ofNat (p.uses fds f) } } := by
  induction fds generalizing s with
  | nil => simp [Task.uses]
  | cons fd fds ih =>
      rw [List.foldl_cons, ih, countFile]
      cases isFile : p.filp fd with
      | none =>
          have uses (f : FileNr) : p.uses (fd :: fds) f = p.uses fds f := by
            rw [Task.uses, Task.uses, List.countP_cons_of_neg]
            simp [isFile]
          simp only [uses]
      | some f =>
          have more : p.uses (fd :: fds) f = p.uses fds f + 1 := by
            rw [Task.uses, Task.uses, List.countP_cons_of_pos]
            simp [isFile]
          simp only [Table.setCount, Table.setFile, Table.mk.injEq, and_true]
          funext g
          by_cases same : g = f
          · subst same
            rw [Function.update_self, more, UInt16.ofNat_add, UInt16.add_assoc,
              UInt16.add_comm (UInt16.ofNat _)]
            rfl
          · have uses : p.uses (fd :: fds) g = p.uses fds g := by
              rw [Task.uses, Task.uses, List.countP_cons_of_neg]
              simp [isFile, Ne.symm same]
            rw [Function.update_of_ne same, uses]

theorem countFiles_eq (p : Task) :
    countFiles s p = { s with file := fun f => { s.file f with
      fCount := (s.file f).fCount + UInt16.ofNat (Lib.refs p.filp f) } } := by
  rw [countFiles, countFile_foldl]
  simp only [Task.uses_finRange]

/-- A new task with the descriptors of `p`. -/
theorem Balanced.fork {p : Task} (balanced : Balanced s) (live : p.zombie = false)
    (isTask : s.task current = some p) (unused : s.task nr = none) :
    Balanced (countFiles (s.setTask nr (some p)) p) := by
  rw [countFiles_eq]
  have filps : (s.setTask nr (some p)).filps = Function.update s.filps nr p.filp :=
    Table.setTask_filps
  have refs (f : FileNr) :
      (s.setTask nr (some p)).refs f = s.refs f + Lib.refs p.filp f := by
    have noRef : Lib.refs (s.filps nr) f = 0 := by
      rw [Lib.refs_eq_zero_iff, Table.filps_of_no_task unused]
      nofun
    have change : Lib.refsIn (Function.update s.filps nr p.filp) f + Lib.refs (s.filps nr) f =
        Lib.refsIn s.filps f + Lib.refs p.filp f :=
      Lib.refsIn_update_row nr p.filp
    rw [noRef, Nat.add_zero] at change
    rw [Table.refs, filps, change, Table.refs]
  have within (f : FileNr) : Lib.refs p.filp f ≤ s.refs f := by
    rw [← Table.filps_of_task isTask, Table.refs]
    exact Lib.refs_le_refsIn current
  constructor
  · intro f
    have counted := (balanced.fine f).count
    have total := refs f
    have below := (s.setTask nr (some p)).refs_lt f
    constructor
    · calc ((s.file f).fCount + UInt16.ofNat (Lib.refs p.filp f)).toNat =
          s.refs f + Lib.refs p.filp f := by
            rw [UInt16.toNat_add, UInt16.toNat_ofNat', counted, Nat.add_mod_mod,
              Nat.mod_eq_of_lt (by omega)]
        _ = (s.setTask nr (some p)).refs f := total.symm
    · have life := (balanced.fine f).life
      rw [Table.life] at life
      have same : (s.setTask nr (some p)).refs f = 0 ↔ s.refs f = 0 := by
        have part := within f
        omega
      exact life.trans (congrArg some (if_congr same rfl rfl).symm)
  · have closed : (s.setTask nr (some p)).ZombiesClosed := by
      intro other isZombie fd
      rw [Table.setTask_kind] at isZombie
      rw [filps]
      by_cases same : other = nr
      · rw [same, Function.update_self, Option.map_some, live] at isZombie
        cases isZombie
      · rw [Function.update_of_ne same] at isZombie ⊢
        exact balanced.zombies other isZombie fd
    exact closed.of_eq rfl rfl
  · exact balanced.calm

theorem Balanced.sysFork {copyMem : Bool} (balanced : Balanced s)
    (live : s.kind current = some false) : Balanced (sysFork s current copyMem).1 := by
  rw [Files.sysFork]
  split
  next nr p found isTask =>
    split
    next =>
      have unused := List.find?_some found
      rw [Bool.and_eq_true, Option.isNone_iff_eq_none] at unused
      rw [Table.kind, isTask] at live
      exact balanced.fork (Option.some.inj live) isTask unused.2
    next => exact balanced
  next => exact balanced

/-- Closing one descriptor after the other. -/
theorem Balanced.foldl {body : Table → Fd → Table} (balanced : Balanced s) (fds : List Fd)
    (closes : ∀ s fd, Balanced s → Balanced (body s fd)) : Balanced (fds.foldl body s) := by
  induction fds generalizing s with
  | nil => exact balanced
  | cons fd fds ih => exact ih (closes s fd balanced)

/-- The descriptors of the tasks stay, and no task with one becomes a zombie. -/
theorem Balanced.setTask {p : Option Task} (balanced : Balanced s)
    (filps : (s.setTask nr p).filps = s.filps)
    (noFile : p.map Task.zombie = some true → ∀ fd, s.filps nr fd = none) :
    Balanced (s.setTask nr p) where
  fine f := by
    have unchanged : s.Unchanged (s.setTask nr p) f :=
      ⟨congrArg (fun filps => Lib.refsIn filps f) filps, rfl, rfl⟩
    exact unchanged.fine (balanced.fine f)
  zombies other isZombie fd := by
    rw [filps]
    rw [Table.setTask_kind] at isZombie
    by_cases same : other = nr
    · rw [same, Function.update_self] at isZombie
      rw [same]
      exact noFile isZombie fd
    · rw [Function.update_of_ne same] at isZombie
      exact balanced.zombies other isZombie fd
  calm := balanced.calm

theorem Balanced.clearOnExec (balanced : Balanced s) : Balanced (s.clearOnExec current) := by
  rw [Table.clearOnExec]
  split
  next => exact balanced
  next p isTask =>
    apply balanced.setTask
    · exact Table.setTask_same_filps isTask rfl
    · intro isZombie
      apply balanced.zombies
      rw [Table.kind, isTask]
      exact isZombie

theorem Balanced.closeOnExec (balanced : Balanced s) : Balanced (closeOnExec current s fd) := by
  rw [Files.closeOnExec]
  split
  next => exact balanced
  next =>
    split
    next => exact balanced.sysClose
    next => exact balanced

theorem Balanced.doExecve (balanced : Balanced s) : Balanced (doExecve s current) :=
  (balanced.foldl (List.finRange nrOpen) fun _ _ => Balanced.closeOnExec).clearOnExec

theorem closeIfOpen_filps :
    (closeIfOpen current s fd).filps =
      Function.update s.filps current (Function.update (s.filps current) fd none) := by
  rw [closeIfOpen]
  split
  next => exact sysClose_filps
  next isClosed =>
    rw [Option.not_isSome_iff_eq_none] at isClosed
    rw [← isClosed, Function.update_eq_self, Function.update_eq_self]

theorem closeIfOpen_kind : (closeIfOpen current s fd).kind = s.kind := by
  rw [closeIfOpen]
  split
  next => exact sysClose_kind
  next => rfl

/-- Behind the loop of `do_exit` the descriptors are closed that it has come to, and those
that were before. -/
theorem closeIfOpen_foldl (fds : List Fd) (isClosed : fd ∈ fds ∨ s.filps current fd = none) :
    (fds.foldl (closeIfOpen current) s).filps current fd = none := by
  induction fds generalizing s with
  | nil => exact isClosed.resolve_left List.not_mem_nil
  | cons first fds ih =>
      apply ih
      rw [closeIfOpen_filps, Function.update_self]
      by_cases same : fd = first
      · rw [same, Function.update_self]
        exact .inr rfl
      · rw [Function.update_of_ne same]
        exact isClosed.imp_left fun member => (List.mem_cons.mp member).resolve_left same

theorem Balanced.setZombie (balanced : Balanced s) (noFile : ∀ fd, s.filps current fd = none) :
    Balanced (s.setZombie current) := by
  rw [Table.setZombie]
  split
  next => exact balanced
  next p isTask => exact balanced.setTask (Table.setTask_same_filps isTask rfl) fun _ => noFile

theorem Balanced.closeIfOpen (balanced : Balanced s) : Balanced (closeIfOpen current s fd) := by
  rw [Files.closeIfOpen]
  split
  next => exact balanced.sysClose
  next => exact balanced

theorem Balanced.doExit (balanced : Balanced s) : Balanced (doExit s current) :=
  (balanced.foldl (List.finRange nrOpen) fun _ _ => Balanced.closeIfOpen).setZombie
    fun fd => closeIfOpen_foldl _ (.inl (List.mem_finRange fd))

theorem Balanced.release (balanced : Balanced s) (isZombie : s.kind nr = some true) :
    Balanced (release s nr) := by
  rw [Files.release]
  split
  next => exact balanced
  next =>
    have noFile : s.filps nr = fun _ => none := funext (balanced.zombies nr isZombie)
    apply balanced.setTask
    · rw [Table.setTask_filps, Option.map_none, Option.getD_none, ← noFile,
        Function.update_eq_self]
    · nofun

/-! ## Whole runs -/

theorem Balanced.call {call : Call} (balanced : Balanced s)
    (live : s.kind current = some false) : Balanced (s.call current call) := by
  cases call with
  | sysOpen => exact balanced.sysOpen live
  | sysClose => exact balanced.sysClose
  | sysDup => exact balanced.dupfd live
  | sysDup2 => exact balanced.sysDup2 live
  | sysFcntl => exact balanced.sysFcntl live
  | sysPipe => exact balanced.sysPipe live
  | sysFork => exact balanced.sysFork live
  | doExecve => exact balanced.doExecve
  | doExit => exact balanced.doExit
  | release child =>
      simp only [Table.call]
      split
      next p isTask =>
        split
        next isZombie =>
          apply balanced.release
          rw [Table.kind, isTask, Option.map_some, isZombie]
        next => exact balanced
      next => exact balanced

theorem Balanced.step {action : TaskNr × Call} (balanced : Balanced s)
    (taken : step s action = some next) : Balanced next := by
  rw [Files.step] at taken
  split at taken
  next p isTask =>
    split at taken
    next => cases taken
    next live =>
      cases taken
      apply balanced.call
      rw [Bool.or_eq_true, not_or, Bool.not_eq_true] at live
      rw [Table.kind, isTask, Option.map_some, live.1]
  next => cases taken

theorem balanced_boot (file : FileNr → File) : Balanced (boot file) := by
  have filps (nr : TaskNr) (fd : Fd) : (boot file).filps nr fd = none := by
    by_cases first : nr = 0 <;> simp [Table.filps, boot, first]
  have noRef (f : FileNr) : (boot file).refs f = 0 := by
    rw [Table.refs, Lib.refsIn_eq_zero_iff]
    intro nr fd points
    rw [filps] at points
    cases points
  constructor
  · intro f
    constructor
    · exact (noRef f).symm
    · exact congrArg some (if_pos (noRef f)).symm
  · intro nr _ fd
    exact filps nr fd
  · rfl

/-- Every call of every run of tasks leaves each entry with the number of its descriptors
as its count, and puts the inode of an entry once, with its last descriptor. -/
theorem keepsAccounts (file : FileNr → File) (calls : List (TaskNr × Call)) :
    Lib.EveryStep step KeepsAccounts (boot file) calls := by
  have meets : Lib.EveryStep step (fun _ _ => True) (boot file) calls :=
    Lib.everyStep_of_forall (fun _ _ => trivial) _ _
  exact Lib.everyStep_of_invariant Balanced
    (fun _ _ balanced _ _ taken => (balanced.step taken).accounted)
    (fun _ _ _ balanced _ taken => balanced.step taken) (balanced_boot file) meets

end Linux012.Files
