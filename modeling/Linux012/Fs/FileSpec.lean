import Linux012.Fs.File
import Linux012.Fs.InodeSpec

/-!
# What opening and writing do to the open files

`open_namei` checks the permissions that the flags ask for, and only `sys_open` gives a
`struct file` its flags.
-/

namespace Linux012.Fs

open Lib (Triple)

/-! ## What a sys_open asked for and was allowed -/

/-- `O_WRONLY` or `O_RDWR`. -/
def AsksWriting (flag : UInt16) : Prop :=
  flag &&& oAccmode = oWronly ∨ flag &&& oAccmode = oRdwr

instance (flag : UInt16) : Decidable (AsksWriting flag) :=
  inferInstanceAs (Decidable (_ ∨ _))

/-- The search of `open_namei` finds no entry: if it succeeds, it makes the file. -/
def entryMissing (current : Task) (pathname : List UInt8) (fs : FileSys) : Bool :=
  let search : FsM Bool := do
    let some (dir, basename) ← dirNamei current pathname | return false
    if basename = [] then return false
    let (_, de) ← findEntry current dir basename
    return de.isNone
  (search.run' fs).getD false

/-! ## open_namei -/

variable {current : Task} {n : Ino} {node : Inode} {flag : UInt16}

theorem truncFlag_of_asksWriting (asks : AsksWriting flag) : truncFlag flag = flag := by
  rw [truncFlag, if_neg]
  rintro ⟨_, reading⟩
  rw [AsksWriting, reading] at asks
  exact absurd asks (by decide)

/-- What opens a directory by a path that ends in a slash asks for no writing. -/
theorem asksWriting_not_reading (asks : AsksWriting flag) :
    truncFlag flag &&& (oAccmode ||| oCreat ||| oTrunc) ≠ 0 := by
  rw [truncFlag_of_asksWriting asks]
  intro none
  have noMode : flag &&& oAccmode = 0 := by
    calc flag &&& oAccmode = (flag &&& (oAccmode ||| oCreat ||| oTrunc)) &&& oAccmode := by
          rw [UInt16.and_assoc]
          rfl
      _ = 0 := by
          rw [none]
          rfl
  rw [AsksWriting, noMode] at asks
  exact absurd asks (by decide)

/-- Permission to read and write is permission to write. -/
theorem permission_mayWrite (asks : AsksWriting flag)
    (allowed : permission current n node (accMode flag) = true) :
    permission current n node mayWrite = true := by
  rcases asks with wronly | rdwr
  · rw [accMode, wronly] at allowed
    exact allowed
  · have both (mode : UInt16) (bits : mode &&& 6 &&& 7 = 6) :
        mode &&& mayWrite &&& 7 = mayWrite := by
      calc mode &&& mayWrite &&& 7 = (mode &&& 6 &&& 7) &&& mayWrite := by
            rw [UInt16.and_assoc, UInt16.and_assoc, UInt16.and_assoc]
            rfl
        _ = mayWrite := by
            rw [bits]
            rfl
    rw [accMode, rdwr] at allowed
    unfold permission at allowed ⊢
    split at allowed
    next => cases allowed
    next live =>
      rw [if_neg live]
      simp only [Bool.or_eq_true, beq_iff_eq] at allowed ⊢
      exact allowed.imp_left (both _)

theorem openExisting_permission {dir : Ino} {inr : Nat} :
    Triple (fun _ => True) (openExisting current dir inr flag) fun result t =>
      ∀ n, result = .ok n → permission current n (t.inode n) (accMode flag) = true := by
  rw [openExisting]
  apply Triple.ite
  · intro _
    apply Triple.bind Triple.trivial
    intro _
    exact Triple.pure fun _ _ n equal => nomatch equal
  · intro _
    apply Triple.bind Triple.trivial
    intro inode
    apply Triple.bind Triple.trivial
    intro followed
    cases followed with
    | none => exact Triple.pure fun _ _ n equal => nomatch equal
    | some inode =>
        apply Triple.get_bind
        intro fs _
        apply Triple.ite
        · intro _
          apply Triple.bind Triple.trivial
          intro _
          exact Triple.pure fun _ _ n equal => nomatch equal
        · intro checked
          have allowed : permission current inode (fs.inode inode) (accMode flag) = true := by
            by_contra refused
            exact checked (.inr (by simpa using refused))
          apply Triple.ite
          · intro _
            apply Triple.bind truncate_spec
            intro _
            apply Triple.pure
            intro t truncated n equal
            cases equal
            rcases truncated with ⟨rfl, _⟩ | rfl
            · simpa [FileSys.setInode, permission] using allowed
            · exact allowed
          · intro _
            apply Triple.pure_at
            intro n equal
            cases equal
            exact allowed

theorem openNamei_permission {fs : FileSys} {pathname : List UInt8} {mode : UInt16} :
    Triple (· = fs) (openNamei current pathname flag mode) fun result t =>
      ∀ n, result = .ok n → AsksWriting flag →
        permission current n (t.inode n) mayWrite = true ∨
          entryMissing current pathname fs = true := by
  rw [openNamei]
  apply Triple.bind Triple.run_eq
  intro place
  cases place with
  | none => exact Triple.pure fun _ _ n equal => nomatch equal
  | some place =>
      rcases place with ⟨dir, basename⟩
      apply Triple.of_pre
      intro found searched
      apply Triple.ite
      · intro noName
        apply Triple.ite
        · intro reading
          apply Triple.pure
          intro _ _ n _ asks
          exact absurd reading (asksWriting_not_reading asks)
        · intro _
          apply Triple.bind Triple.trivial
          intro _
          exact Triple.pure fun _ _ n equal => nomatch equal
      · intro named
        apply Triple.bind Triple.run_eq
        rintro ⟨place, slot⟩
        cases slot with
        | none =>
            apply Triple.of_pre
            intro t missing
            apply Triple.trivial.conseq (fun _ => id)
            intro _ _ _ n _ _
            right
            simp [entryMissing, StateT.run'_eq, searched, named, missing]
        | some slot =>
            apply Triple.get_bind
            intro t _
            apply openExisting_permission.conseq (fun _ _ => trivial)
            intro result next checked n opened asks
            have allowed := checked n opened
            rw [truncFlag_of_asksWriting asks] at allowed
            exact .inl (permission_mayWrite asks allowed)

/-! ## The table of open files -/

variable {sys next : Files} {nr fd f : Nat}

/-- No `struct file` is opened: the flags stay, and every descriptor is for a file that
some descriptor was for. -/
structure Files.Unopened (sys next : Files) : Prop where
  flags : ∀ f, (next.fileTable f).fFlags = (sys.fileTable f).fFlags
  filp : ∀ nr fd f, next.filp nr fd = some f → ∃ nr' fd', sys.filp nr' fd' = some f

/-- The descriptor `fd` is for `f`, which is not opened yet. -/
structure Files.Claims (sys : Files) (nr fd f : Nat) (next : Files) : Prop where
  flags : ∀ f, (next.fileTable f).fFlags = (sys.fileTable f).fFlags
  here : next.filp nr fd = some f
  filp : ∀ nr' fd' g, next.filp nr' fd' = some g →
    (nr' = nr ∧ fd' = fd ∧ g = f) ∨ ∃ nr' fd', sys.filp nr' fd' = some g

theorem Files.Unopened.refl : sys.Unopened sys where
  flags _ := rfl
  filp nr fd _ used := ⟨nr, fd, used⟩

theorem Files.Unopened.from {α : Type} {call : FilesM α} {post : α → Files → Prop}
    (quiet : sys.Unopened next) (spec : Triple sys.Unopened call post) :
    Triple (· = next) call post := by
  apply spec.before
  intro _ same
  rw [same]
  exact quiet

theorem Files.filp_setTask {p : Process} {nr' fd' : Nat} :
    (sys.setTask nr p).filp nr' fd' = if nr' = nr then p.filp fd' else sys.filp nr' fd' := by
  by_cases same : nr' = nr
  · simp [Files.filp, Files.setTask, same]
  · simp [Files.filp, Files.setTask, same]

theorem Files.setFile_flags {file : File} (flags : file.fFlags = (sys.fileTable f).fFlags)
    (g : Nat) : ((sys.setFile f file).fileTable g).fFlags = (sys.fileTable g).fFlags := by
  by_cases same : g = f
  · rw [same, ← flags]
    simp [Files.setFile]
  · simp [Files.setFile, same]

theorem Files.Unopened.setFile {file : File} (quiet : sys.Unopened next)
    (flags : file.fFlags = (next.fileTable f).fFlags) : sys.Unopened (next.setFile f file) where
  flags g := (Files.setFile_flags flags g).trans (quiet.flags g)
  filp := quiet.filp

theorem Files.Unopened.setFilp {p : Process} {file : Option Nat} (quiet : sys.Unopened next)
    (task : next.task nr = some p)
    (used : ∀ f, file = some f → ∃ nr' fd', sys.filp nr' fd' = some f) :
    sys.Unopened (next.setTask nr (p.setFilp fd file)) where
  flags := quiet.flags
  filp nr' fd' f points := by
    rw [Files.filp_setTask] at points
    split at points
    next same =>
      by_cases here : fd' = fd
      · rw [here] at points
        exact used f (by simpa [Process.setFilp] using points)
      · apply quiet.filp nr fd' f
        simpa [Files.filp, task, Process.setFilp, here] using points
    next => exact quiet.filp nr' fd' f points

theorem getTask_spec {pre : Files → Prop} :
    Triple pre (getTask nr) fun p next => next.task nr = some p ∧ pre next := by
  apply Triple.get_bind
  intro next holds
  split
  next p task => exact Triple.pure_at ⟨task, holds⟩
  next => exact Triple.failure

theorem setCount_unopened {count : UInt16} :
    Triple sys.Unopened (setCount f count) fun _ => sys.Unopened :=
  Triple.modify fun _ quiet => quiet.setFile rfl

theorem setFilp_unopened {file : Option Nat}
    (used : ∀ f, file = some f → ∃ nr' fd', sys.filp nr' fd' = some f) :
    Triple sys.Unopened (setFilp nr fd file) fun _ => sys.Unopened := by
  apply Triple.bind getTask_spec
  intro p
  exact Triple.modify fun _ ⟨task, quiet⟩ => quiet.setFilp task used

/-- Work on the file systems leaves the rest alone. -/
theorem onFs_spec {α : Type} {prog : FsM α} {post : α → FileSys → Prop}
    (spec : Triple (· = sys.fs) prog post) :
    Triple (· = sys) (onFs prog) fun result next =>
      ∃ fs, post result fs ∧ next = { sys with fs := fs } := by
  constructor
  intro start same result next ran
  rw [same] at ran
  change (prog.run sys.fs).map _ = some _ at ran
  rw [Option.map_eq_some_iff] at ran
  rcases ran with ⟨⟨value, fs⟩, ranFs, equal⟩
  cases equal
  exact ⟨fs, spec.returns _ rfl _ _ ranFs, rfl⟩

theorem onFs_unopened {α : Type} {prog : FsM α} :
    Triple sys.Unopened (onFs prog) fun _ => sys.Unopened := by
  apply Triple.of_pre
  intro start quiet
  apply (onFs_spec Triple.trivial).after
  rintro _ _ ⟨fs, _, rfl⟩
  exact ⟨quiet.flags, quiet.filp⟩

theorem Files.Unopened.of_filp {p : Process} (quiet : sys.Unopened next)
    (task : next.task nr = some p) (points : p.filp fd = some f) :
    ∃ nr' fd', sys.filp nr' fd' = some f := by
  apply quiet.filp nr fd f
  rw [Files.filp, task]
  exact points

/-! ## The calls that open nothing -/

/-- The call goes on to `file_write` or `block_write` with this `struct file`. -/
structure Files.Stores (files : Files) (current fd : Nat) (count : Int) (f : Nat) : Prop where
  some_bytes : 0 < count
  filp : files.filp current fd = some f
  storage : ∃ inode, (files.fileTable f).fInode = some inode ∧
    ((files.fs.inode inode).isReg = true ∨ (files.fs.inode inode).isBlk = true)

theorem sysClose_unopened : Triple (· = sys) (sysClose nr fd) fun _ => sys.Unopened := by
  apply Files.Unopened.refl.from
  rw [sysClose]
  apply Triple.ite
  · intro _
    exact Triple.pure fun _ => id
  · intro _
    apply Triple.bind getTask_spec
    intro p
    split
    next f _ =>
      apply Triple.bind ((setFilp_unopened (by simp)).before fun _ => And.right)
      intro _
      apply Triple.get_bind
      intro start quiet
      apply Triple.ite
      · intro _
        exact Triple.failure
      · intro _
        apply Triple.bind (quiet.from setCount_unopened)
        intro _
        apply Triple.ite
        · intro _
          exact Triple.pure fun _ => id
        · intro _
          split
          next => exact Triple.pure fun _ => id
          next inode _ =>
            apply Triple.bind onFs_unopened
            intro _
            exact Triple.pure fun _ => id
    next => exact Triple.pure fun _ => And.right

theorem dupfd_unopened {arg : Nat} :
    Triple (· = sys) (dupfd nr fd arg) fun _ => sys.Unopened := by
  apply Files.Unopened.refl.from
  rw [dupfd]
  apply Triple.bind getTask_spec
  intro p
  apply Triple.ite
  · intro _
    exact Triple.pure fun _ => And.right
  · intro _
    split
    next f points =>
      apply Triple.ite
      · intro _
        exact Triple.pure fun _ => And.right
      · intro _
        split
        next free _ =>
          apply Triple.of_pre
          rintro start ⟨task, quiet⟩
          have used : ∀ g, some f = some g → ∃ nr' fd', sys.filp nr' fd' = some g := by
            intro g equal
            rw [← Option.some.inj equal]
            exact quiet.of_filp task points
          apply Triple.bind (quiet.from (setFilp_unopened used))
          intro _
          apply Triple.get_bind
          intro between quiet
          apply Triple.bind (quiet.from setCount_unopened)
          intro _
          exact Triple.pure fun _ => id
        next => exact Triple.pure fun _ => And.right
    next => exact Triple.pure fun _ => And.right

theorem copyProcess_unopened {child : Nat} :
    Triple (· = sys) (copyProcess nr child) fun _ => sys.Unopened := by
  apply Files.Unopened.refl.from
  rw [copyProcess]
  apply Triple.bind getTask_spec
  intro p
  apply Triple.bind _ fun _ => onFs_unopened
  apply Triple.modify
  rintro start ⟨task, quiet⟩
  refine ⟨quiet.flags, fun nr' fd f points => ?_⟩
  change (start.setTask child p).filp nr' fd = some f at points
  rw [Files.filp_setTask] at points
  split at points
  next => exact quiet.of_filp task points
  next => exact quiet.filp nr' fd f points

/-- Moving `f_pos` opens nothing. -/
theorem setPos_unopened {α : Type} {pos : Nat} {value : α} :
    Triple sys.Unopened
      (do
        setFile f { sys.fileTable f with fPos := pos }
        pure value)
      fun _ => sys.Unopened := by
  apply Triple.through fun _ => sys.Unopened
  · exact Triple.modify fun _ quiet => quiet.setFile (quiet.flags f).symm
  · intro _
    exact Triple.pure fun _ => id

/-- Only a write that is passed on to `file_write` or `block_write` changes a file. -/
theorem sysWrite_spec {buf : Nat → UInt8} {count : Int} {device : DeviceWrite} :
    Triple (· = sys) (sysWrite nr fd buf count device) fun _ next =>
      sys.Unopened next ∧
        (next.fs.toTree = sys.fs.toTree ∨ ∃ f, sys.Stores nr fd count f) := by
  rw [sysWrite]
  apply Triple.bind getTask_spec
  intro p
  apply Triple.of_pre
  intro start ⟨task, same⟩
  rw [same] at task ⊢
  have unchanged {value : Except Errno Nat} :
      Triple (· = sys) (pure value : FilesM (Except Errno Nat)) fun _ next =>
        sys.Unopened next ∧
          (next.fs.toTree = sys.fs.toTree ∨ ∃ f, sys.Stores nr fd count f) :=
    Triple.pure_at ⟨.refl, .inl rfl⟩
  apply Triple.ite
  · intro _
    exact unchanged
  · intro inRange
    cases points : p.filp fd with
    | none => exact unchanged
    | some f =>
        apply Triple.ite
        · intro _
          exact unchanged
        · intro nonzero
          apply Triple.get_bind_at
          dsimp only
          split
          next inode inodeOf =>
            have stores (storage : (sys.fs.inode inode).isReg = true ∨
                (sys.fs.inode inode).isBlk = true) : ∃ f, sys.Stores nr fd count f :=
              ⟨f, by omega, by rw [Files.filp, task]; exact points, inode, inodeOf, storage⟩
            apply Triple.ite
            · intro _
              apply Triple.through fun _ next => next = sys.setFile f
                { sys.fileTable f with fPos := device.fPos }
              · exact Triple.modify_at rfl
              · intro _
                apply Triple.pure
                intro next moved
                rw [moved]
                exact ⟨Files.Unopened.refl.setFile rfl, .inl rfl⟩
            · intro _
              apply Triple.ite
              · intro isBlk
                apply Triple.after _ fun _ _ quiet => ⟨quiet, .inr (stores (.inr isBlk))⟩
                apply Triple.bind (Files.Unopened.refl.from onFs_unopened)
                intro _
                exact setPos_unopened
              · intro _
                apply Triple.ite
                · intro isReg
                  apply Triple.after _ fun _ _ quiet => ⟨quiet, .inr (stores (.inl isReg))⟩
                  apply Triple.bind (Files.Unopened.refl.from onFs_unopened)
                  intro _
                  exact setPos_unopened
                · intro _
                  exact unchanged
          next => exact Triple.failure

/-! ## sys_open -/

theorem Files.Unopened.claim {p : Process} (quiet : sys.Unopened next)
    (task : next.task nr = some p) :
    sys.Claims nr fd f (next.setTask nr (p.setFilp fd (some f))) where
  flags := quiet.flags
  here := by simp [Files.filp_setTask, Process.setFilp]
  filp nr' fd' g points := by
    rw [Files.filp_setTask] at points
    split at points
    next same =>
      by_cases here : fd' = fd
      · rw [here] at points
        exact .inl ⟨same, here, by simpa [Process.setFilp, eq_comm] using points⟩
      · right
        apply quiet.filp nr fd' g
        simpa [Files.filp, task, Process.setFilp, here] using points
    next => exact .inr (quiet.filp nr' fd' g points)

theorem Files.Claims.setFile {file : File} {g : Nat} (claims : sys.Claims nr fd f next)
    (flags : file.fFlags = (next.fileTable g).fFlags) :
    sys.Claims nr fd f (next.setFile g file) where
  flags h := (Files.setFile_flags flags h).trans (claims.flags h)
  here := claims.here
  filp := claims.filp

/-- What a `sys_open` that returns a descriptor has done. -/
structure Files.Opened (sys : Files) (nr : Nat) (filename : List UInt8) (flag : UInt16)
    (fd : Nat) (next : Files) (f : Nat) (inode : Ino) (p : Process) : Prop where
  task : sys.task nr = some p
  here : next.filp nr fd = some f
  flags : (next.fileTable f).fFlags = flag
  opened : (next.fileTable f).fInode = some inode
  others : ∀ g, g ≠ f → (next.fileTable g).fFlags = (sys.fileTable g).fFlags
  filp : ∀ nr fd g, next.filp nr fd = some g → g = f ∨ ∃ nr fd, sys.filp nr fd = some g
  permission : AsksWriting flag →
    permission p.toTask inode (next.fs.inode inode) mayWrite = true ∨
      entryMissing p.toTask filename sys.fs = true

/-- `sys_open` opens nothing, or returns a descriptor for a new `struct file`. -/
def OpenResult (sys : Files) (nr : Nat) (filename : List UInt8) (flag : UInt16)
    (result : Except Errno Nat) (next : Files) : Prop :=
  match result with
  | .error _ => sys.Unopened next
  | .ok fd => ∃ f inode p, sys.Opened nr filename flag fd next f inode p

variable {filename : List UInt8}

theorem setFilp_abandoned : Triple (sys.Claims nr fd f) (setFilp nr fd none) fun _ =>
    sys.Unopened := by
  apply Triple.bind getTask_spec
  intro p
  apply Triple.modify
  rintro start ⟨task, claims⟩
  refine ⟨claims.flags, fun nr' fd' g points => ?_⟩
  rw [Files.filp_setTask] at points
  split at points
  next same =>
    have other : fd' ≠ fd := by
      intro here
      simp [here, Process.setFilp] at points
    have before : start.filp nr fd' = some g := by
      simpa [Files.filp, task, Process.setFilp, other] using points
    exact (claims.filp nr fd' g before).resolve_left fun here => other here.2.1
  next different =>
    exact (claims.filp nr' fd' g points).resolve_left fun here => different here.1

theorem abandon_spec {errno : Errno} :
    Triple (sys.Claims nr fd f)
      (do
        setFilp nr fd none
        setCount f 0
        return .error errno)
      (OpenResult sys nr filename flag) := by
  apply Triple.bind setFilp_abandoned
  intro _
  apply Triple.bind setCount_unopened
  intro _
  exact Triple.pure fun _ => id

theorem Files.Claims.fill {p : Process} {inode : Ino} {mode : UInt16}
    (claims : sys.Claims nr fd f next) (task : sys.task nr = some p)
    (allowed : AsksWriting flag →
      permission p.toTask inode (next.fs.inode inode) mayWrite = true ∨
        entryMissing p.toTask filename sys.fs = true) :
    sys.Opened nr filename flag fd (next.setFile f ⟨mode, flag, 1, some inode, 0⟩)
      f inode p where
  task := task
  here := claims.here
  flags := by simp [Files.setFile]
  opened := by simp [Files.setFile]
  others g other := by
    rw [← claims.flags]
    simp [Files.setFile, other]
  filp nr fd g points := (claims.filp nr fd g points).imp_left fun here => here.2.2
  permission := allowed

theorem sysOpen_spec {mode : UInt16} {checkCharDev : Bool} :
    Triple (· = sys) (sysOpen nr filename flag mode checkCharDev)
      (OpenResult sys nr filename flag) := by
  rw [sysOpen]
  apply Triple.bind getTask_spec
  intro p
  apply Triple.of_pre
  intro start ⟨task, same⟩
  rw [same] at task ⊢
  cases p.freeFd 0 with
  | none => exact Triple.pure_at .refl
  | some fd =>
      apply Triple.get_bind_at
      cases sys.freeFile with
      | none => exact Triple.pure_at .refl
      | some f =>
          apply Triple.through fun _ next => sys.Claims nr fd f next ∧ next.fs = sys.fs
          · apply Triple.bind getTask_spec
            intro holder
            apply Triple.modify
            intro start ⟨task, same⟩
            rw [same] at task ⊢
            exact ⟨Files.Unopened.refl.claim task, rfl⟩
          · intro _
            apply Triple.through fun _ next => sys.Claims nr fd f next ∧ next.fs = sys.fs
            · exact Triple.modify fun _ ⟨claims, fs⟩ => ⟨claims.setFile rfl, fs⟩
            · intro _
              apply Triple.of_pre
              intro start ⟨claims, fs⟩
              apply Triple.bind (onFs_spec openNamei_permission)
              intro result
              apply Triple.of_pre
              rintro _ ⟨fs', allowed, rfl⟩
              rw [fs] at allowed
              have claims : sys.Claims nr fd f { start with fs := fs' } :=
                ⟨claims.flags, claims.here, claims.filp⟩
              cases result with
              | error errno => exact abandon_spec.before fun _ same => same.symm ▸ claims
              | ok inode =>
                  apply Triple.get_bind_at
                  apply Triple.ite
                  · intro _
                    apply Triple.bind (onFs_spec Triple.trivial)
                    intro _
                    apply abandon_spec.before
                    rintro _ ⟨_, _, rfl⟩
                    exact ⟨claims.flags, claims.here, claims.filp⟩
                  · intro _
                    apply Triple.through fun _ next =>
                      ∃ f inode p, sys.Opened nr filename flag fd next f inode p
                    · apply Triple.modify
                      rintro _ rfl
                      exact ⟨f, inode, p, claims.fill task (allowed inode rfl)⟩
                    · intro _
                      exact Triple.pure fun _ => id

end Linux012.Fs
