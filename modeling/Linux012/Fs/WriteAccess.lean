import Linux012.Lib.Run
import Linux012.Fs.FileSpec
import Linux012.Fs.LinkCounts

/-!
# Write access

`open_namei` checks the permissions, once; `sys_write` takes any descriptor for a file
or a block device and does not look at how it was opened.  Each `struct file` is
watched with what is known of the `sys_open` that made it.
-/

namespace Linux012.Fs

open Lib (Triple)

/-! ## Openings -/

/-- What is remembered of a `sys_open`. -/
structure Opening where
  flag : UInt16
  /-- `permission(inode, MAY_WRITE)` held for the opener. -/
  permitted : Bool
  /-- The file was made by it. -/
  created : Bool

/-- A file may be written through a `struct file` that was opened so. -/
def Opening.Writable (opening : Opening) : Prop :=
  AsksWriting opening.flag ∧ (opening.permitted = true ∨ opening.created = true)

/-! ## Runs -/

/-- The files with the openings of the entries of `file_table`. -/
structure Watched where
  files : Files
  opening : Nat → Option Opening

inductive FileCall where
  | sysOpen (current : Nat) (filename : List UInt8) (flag mode : UInt16) (checkCharDev : Bool)
  | sysDup (current fildes : Nat)
  | sysFork (current nr : Nat)
  | sysClose (current fd : Nat)
  | sysWrite (current fd : Nat) (buf : Nat → UInt8) (count : Int) (device : DeviceWrite)

/-- The opening that led from `before` to `after` for the task `current`. -/
def openingOf (before after : Files) (current : Nat) (filename : List UInt8) (flag : UInt16)
    (f : Nat) : Option Opening := do
  let p ← before.task current
  let inode ← (after.fileTable f).fInode
  return {
    flag := flag
    permitted := permission p.toTask inode (after.fs.inode inode) mayWrite
    created := entryMissing p.toTask filename before.fs }

/-- The call is made and the openings stay. -/
def Watched.after {α : Type} (w : Watched) (call : FilesM α) : Option Watched :=
  (call.run w.files).map fun (_, files) => { w with files := files }

/-- A successful `sys_open` is remembered for the entry of `file_table` that it fills. -/
def Watched.openFile (w : Watched) (current : Nat) (filename : List UInt8)
    (flag mode : UInt16) (checkCharDev : Bool) : Option Watched := do
  let (result, files) ← (sysOpen current filename flag mode checkCharDev).run w.files
  match result with
  | .error _ => return { w with files := files }
  | .ok fd =>
      let f ← files.filp current fd
      return {
        files := files
        opening := Function.update w.opening f
          (openingOf w.files files current filename flag f) }

def fileStep (w : Watched) : FileCall → Option Watched
  | .sysOpen current filename flag mode checkCharDev =>
      w.openFile current filename flag mode checkCharDev
  | .sysDup current fildes => w.after (sysDup current fildes)
  | .sysFork current nr =>
      if (w.files.task nr).isNone then w.after (copyProcess current nr) else none
  | .sysClose current fd => w.after (sysClose current fd)
  | .sysWrite current fd buf count device =>
      w.after (sysWrite current fd buf count device)

/-- No file is open. -/
structure Watched.NoneOpen (w : Watched) : Prop where
  filp : ∀ current fd, w.files.filp current fd = none
  opening : ∀ f, w.opening f = none

/-- The bytes of a file as they are read; a missing block reads as zeros. -/
def Inode.contents (node : Inode) : List UInt8 :=
  (List.range node.size).map fun pos => if node.zone (pos / 1024) then node.bytes pos else 0

/-- The bytes or the size of a regular file are not what they were. -/
def ChangesFile (before after : Tree) : Prop :=
  ∃ n, (before.inode n).isReg = true ∧
    (after.inode n).contents ≠ (before.inode n).contents

/-- A `sys_write` that changes a regular file goes through a `struct file` that was
opened for that. -/
def WriteAccess (w : Watched) (call : FileCall) : Prop :=
  ∀ next, fileStep w call = some next →
    match call with
    | .sysWrite current fd _ _ _ =>
        ChangesFile w.files.fs.toTree next.files.fs.toTree →
          ∃ f opening, w.files.filp current fd = some f ∧ w.opening f = some opening ∧
            opening.Writable
    | _ => True

/-- What `sys_write` does not look at. -/
def WritesAsOpened (w : Watched) (call : FileCall) : Prop :=
  match call with
  | .sysWrite current fd _ count _ =>
      ∀ f, w.files.Stores current fd count f → AsksWriting (w.files.fileTable f).fFlags
  | _ => True

/-! ## Runs of calls -/

/-- Every open `struct file` has the flags of its opening, and its opening checked what
the flags ask for. -/
structure Watched.Recorded (w : Watched) : Prop where
  known : ∀ nr fd f, w.files.filp nr fd = some f → ∃ opening, w.opening f = some opening
  flags : ∀ f opening, w.opening f = some opening →
    (w.files.fileTable f).fFlags = opening.flag
  checked : ∀ f opening, w.opening f = some opening → AsksWriting opening.flag →
    opening.permitted = true ∨ opening.created = true

variable {sys next : Files} {nr fd f : Nat} {flag : UInt16} {filename : List UInt8}
variable {w w' : Watched}

theorem Watched.NoneOpen.recorded (none : w.NoneOpen) : w.Recorded where
  known nr fd f points := by
    rw [none.filp] at points
    cases points
  flags f opening there := by
    rw [none.opening] at there
    cases there
  checked f opening there := by
    rw [none.opening] at there
    cases there

theorem Watched.Recorded.unopened (recorded : w.Recorded) (quiet : w.files.Unopened next) :
    ({ w with files := next } : Watched).Recorded where
  known nr fd f points := by
    rcases quiet.filp nr fd f points with ⟨nr', fd', before⟩
    exact recorded.known nr' fd' f before
  flags f opening there := (quiet.flags f).trans (recorded.flags f opening there)
  checked := recorded.checked

theorem Watched.Recorded.opened {inode : Ino} {p : Process} (recorded : w.Recorded)
    (opens : w.files.Opened nr filename flag fd next f inode p) :
    ({ files := next
       opening := Function.update w.opening f
         (openingOf w.files next nr filename flag f) } : Watched).Recorded := by
  have opening : openingOf w.files next nr filename flag f = some
      ⟨flag, permission p.toTask inode (next.fs.inode inode) mayWrite,
        entryMissing p.toTask filename w.files.fs⟩ := by
    simp [openingOf, opens.task, opens.opened]
  constructor
  · intro nr fd g points
    by_cases same : g = f
    · rw [same]
      exact ⟨_, by simpa using opening⟩
    · rcases (opens.filp nr fd g points).resolve_left same with ⟨nr', fd', before⟩
      simpa [same] using recorded.known nr' fd' g before
  · intro g made there
    dsimp only at there
    by_cases same : g = f
    · rw [same] at there ⊢
      rw [Function.update_self, opening] at there
      cases there
      exact opens.flags
    · rw [Function.update_of_ne same] at there
      exact (opens.others g same).trans (recorded.flags g made there)
  · intro g made there
    dsimp only at there
    by_cases same : g = f
    · rw [same, Function.update_self, opening] at there
      cases there
      exact opens.permission
    · rw [Function.update_of_ne same] at there
      exact recorded.checked g made there

theorem Watched.after_eq_some {α : Type} {call : FilesM α} (ran : w.after call = some w') :
    ∃ result, call.run w.files = some (result, w'.files) ∧ w'.opening = w.opening := by
  rw [Watched.after, Option.map_eq_some_iff] at ran
  rcases ran with ⟨⟨result, files⟩, ranCall, rfl⟩
  exact ⟨result, ranCall, rfl⟩

/-- A call that opens nothing. -/
theorem Watched.Recorded.after {α : Type} {call : FilesM α} (recorded : w.Recorded)
    (quiet : Triple (· = w.files) call fun _ => w.files.Unopened)
    (ran : w.after call = some w') : w'.Recorded := by
  rcases Watched.after_eq_some ran with ⟨result, ranCall, same⟩
  have kept := recorded.unopened (quiet.returns _ rfl _ _ ranCall)
  rwa [← same] at kept

theorem Watched.Recorded.step {call : FileCall} (recorded : w.Recorded)
    (taken : fileStep w call = some w') : w'.Recorded := by
  cases call with
  | sysOpen nr filename flag mode checkCharDev =>
      simp only [fileStep, Watched.openFile, Option.bind_eq_bind,
        Option.bind_eq_some_iff] at taken
      rcases taken with ⟨⟨result, files⟩, ran, taken⟩
      have opens := sysOpen_spec.returns _ rfl _ _ ran
      cases result with
      | error errno =>
          cases taken
          exact recorded.unopened opens
      | ok fd =>
          rcases opens with ⟨f, inode, p, opens⟩
          simp only [opens.here, Option.bind_some] at taken
          cases taken
          exact recorded.opened opens
  | sysDup nr fildes => exact recorded.after dupfd_unopened taken
  | sysFork nr child =>
      simp only [fileStep] at taken
      split at taken
      next => exact recorded.after copyProcess_unopened taken
      next => cases taken
  | sysClose nr fd => exact recorded.after sysClose_unopened taken
  | sysWrite nr fd buf count device =>
      exact recorded.after (sysWrite_spec.after fun _ _ => And.left) taken

theorem Watched.Recorded.writeAccess {call : FileCall} (recorded : w.Recorded)
    (asOpened : WritesAsOpened w call) : WriteAccess w call := by
  intro w' taken
  cases call with
  | sysWrite nr fd buf count device =>
      intro changes
      rcases Watched.after_eq_some taken with ⟨result, ran, _⟩
      rcases (sysWrite_spec.returns _ rfl _ _ ran).2 with unchanged | ⟨f, stores⟩
      · rcases changes with ⟨n, _, differ⟩
        rw [unchanged] at differ
        exact absurd rfl differ
      · rcases recorded.known nr fd f stores.filp with ⟨opening, there⟩
        have asks : AsksWriting opening.flag := by
          rw [← recorded.flags f opening there]
          exact asOpened f stores
        exact ⟨f, opening, stores.filp, there, asks, recorded.checked f opening there asks⟩
  | _ => trivial

/-- Along every run that starts with no file open, and in which `sys_write` is called for
a file or a block device only with descriptors that were opened for writing, every
`sys_write` that changes a regular file has the permission to. -/
theorem writeAccess_of_writesAsOpened {start : Watched} {calls : List FileCall}
    (none : start.NoneOpen) (meets : Lib.EveryStep fileStep WritesAsOpened start calls) :
    Lib.EveryStep fileStep WriteAccess start calls := by
  have recorded := none.recorded
  clear none
  induction calls generalizing start with
  | nil => trivial
  | cons call calls ih =>
      constructor
      · exact recorded.writeAccess meets.1
      · intro next taken
        exact ih (meets.2 next taken) (recorded.step taken)

/-! ## A descriptor for reading -/

/-- One task, of user 5, and one file of user 0 with the name `ac`. -/
def oneUser (mode : UInt16) : Watched where
  files := {
    fs := { (linkedFile 1).setInode onlyFile
        { freshInode 0 0 with mode := sIfreg ||| mode } with newBlocks := [true] }
    fileTable := fun _ => ⟨0, 0, 0, none, 0⟩
    task := fun nr =>
      if nr = 1 then
        some ⟨⟨5, 5, [], 0, rootDir, rootDir⟩, none, none, fun _ => none⟩
      else none }
  opening := fun _ => none

theorem oneUser_noneOpen {mode : UInt16} : (oneUser mode).NoneOpen where
  filp nr fd := by
    simp only [oneUser, Files.filp]
    split <;> rfl
  opening _ := rfl

/-- The task opens the file. -/
def openFile (flag : UInt16) : FileCall := .sysOpen 1 [97, 99] flag 0 true

/-- The task writes a byte through its first descriptor. -/
def writeByte : FileCall :=
  .sysWrite 1 0 (fun _ => 88) 1 ⟨.ok 0, 0, ⟨∅, fun _ => freshInode 0 0⟩⟩

/-- A user writes a file that everyone may write. -/
theorem writeAccess_of_writesAsOpened_oneUser :
    Lib.EveryStep fileStep WriteAccess (oneUser 0o666) [openFile oWronly, writeByte] := by
  apply writeAccess_of_writesAsOpened oneUser_noneOpen
  have flags : (fileStep (oneUser 0o666) (openFile oWronly)).map (fun opened =>
      ((opened.files.fileTable 0).fFlags, opened.files.filp 1 0)) =
        some (oWronly, some 0) := by
    decide +kernel
  refine ⟨trivial, fun opened ran => ⟨?_, fun _ _ => trivial⟩⟩
  intro f stores
  rw [ran, Option.map_some, Option.some.injEq, Prod.mk.injEq] at flags
  rw [stores.filp, Option.some.injEq] at flags
  rw [flags.2, flags.1]
  decide

/-- A file that its user may only read is opened for reading, and written. -/
theorem write_through_a_reader :
    ¬∀ (start : Watched) (calls : List FileCall), start.NoneOpen →
      (∀ nr p, start.files.task nr = some p → p.suser = false) →
      Lib.EveryStep fileStep WriteAccess start calls := by
  intro always
  have noSuser (nr : Nat) (p : Process) (task : (oneUser 0o644).files.task nr = some p) :
      p.suser = false := by
    simp only [oneUser] at task
    split at task
    · cases task
      rfl
    · cases task
  have safe := always (oneUser 0o644) [openFile 0, writeByte] oneUser_noneOpen noSuser
  have facts : ((fileStep (oneUser 0o644) (openFile 0)).bind fun opened =>
      (fileStep opened writeByte).map fun written =>
        (opened.files.filp 1 0, (opened.opening 0).map Opening.flag,
          (opened.files.fs.inode onlyFile).isReg, (opened.files.fs.inode onlyFile).contents,
          (written.files.fs.inode onlyFile).contents)) =
        some (some 0, some 0, true, [], [88]) := by
    decide +kernel
  simp only [Option.bind_eq_some_iff, Option.map_eq_some_iff, Prod.mk.injEq] at facts
  rcases facts with ⟨opened, ranOpen, written, ranWrite, filp, flag, isReg, before, after⟩
  have changes : ChangesFile opened.files.fs.toTree written.files.fs.toTree := by
    refine ⟨onlyFile, isReg, ?_⟩
    rw [after, before]
    decide
  rcases (safe.2 opened ranOpen).1 written ranWrite changes with ⟨f, opening, uses, there, can⟩
  rw [filp] at uses
  cases uses
  rcases flag with ⟨_, same, flag⟩
  rw [there, Option.some.injEq] at same
  have asks := can.1
  rw [AsksWriting, same, flag] at asks
  exact absurd asks (by decide)

end Linux012.Fs
