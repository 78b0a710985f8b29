import Mathlib.Data.Fintype.Basic
import Mathlib.Data.List.FinRange
import Mathlib.Logic.Function.Basic
import Linux012.Lib.Sizes

/-!
# The table of open files

`file_table` with the descriptors of all tasks, and the calls that open, copy and
close them: `open.c`, `fcntl.c`, `sys_pipe`, the files of a task in `copy_process`,
`do_execve` and `do_exit`.  Each call is taken as atomic and as running to its end; a
task that is killed in the middle of one is not considered.  Inodes are slots of
`inode_table`, and what `open_namei`, `check_char_dev` and `get_pipe_inode` answer is
given with a call.
-/

namespace Linux012.Files

/-- `NR_TASKS`. -/
abbrev nrTasks : Nat := 64

/-- `NR_OPEN`. -/
abbrev nrOpen : Nat := 20

/-- `NR_FILE`. -/
abbrev nrFile : Nat := 64

/-- An entry of `task[]`. -/
abbrev TaskNr := Fin nrTasks

/-- A descriptor that is not too large. -/
abbrev Fd := Fin nrOpen

/-- A `struct file` is its index in `file_table`. -/
abbrev FileNr := Fin nrFile

/-- A slot of `inode_table`. -/
abbrev InodeNr := Nat

/-- `struct file`. -/
structure File where
  fMode : UInt16
  fFlags : UInt16
  fCount : UInt16
  fInode : Option InodeNr
  fPos : Nat
  deriving DecidableEq, Repr

/-- The fields of `struct task_struct` that the calls use. -/
structure Task where
  /-- `state == TASK_ZOMBIE`. -/
  zombie : Bool
  closeOnExec : UInt32
  filp : Fd → Option FileNr

/-- What happens to an entry of `file_table`. -/
inductive Event where
  /-- It is counted up from 0. -/
  | taken
  /-- `f->f_inode=inode`. -/
  | bound (inode : InodeNr)
  /-- `f->f_count=0`. -/
  | freed
  /-- `iput(filp->f_inode)`. -/
  | put (inode : Option InodeNr)
  deriving DecidableEq, Repr

/-- `file_table`, `task` and what has happened to the entries of `file_table`. -/
structure Table where
  file : FileNr → File
  task : TaskNr → Option Task
  events : FileNr → List Event
  panicked : Bool

namespace Table

/-- The descriptors of an entry of `task[]`. -/
def filps (s : Table) (nr : TaskNr) : Fd → Option FileNr :=
  match s.task nr with
  | none => fun _ => none
  | some p => p.filp

def setFile (s : Table) (f : FileNr) (file : File) : Table :=
  { s with file := Function.update s.file f file }

def setTask (s : Table) (nr : TaskNr) (p : Option Task) : Table :=
  { s with task := Function.update s.task nr p }

def record (s : Table) (f : FileNr) (event : Event) : Table :=
  { s with events := Function.update s.events f (s.events f ++ [event]) }

/-- `current->filp[fd] = f`. -/
def setFilp (s : Table) (current : TaskNr) (fd : Fd) (f : Option FileNr) : Table :=
  match s.task current with
  | none => s
  | some p => s.setTask current (some { p with filp := Function.update p.filp fd f })

/-- `f->f_count = count`. -/
def setCount (s : Table) (f : FileNr) (count : UInt16) : Table :=
  s.setFile f { s.file f with fCount := count }

/-- `f->f_count++` for a free entry. -/
def takeFile (s : Table) (f : FileNr) : Table :=
  (s.setCount f ((s.file f).fCount + 1)).record f .taken

/-- `f->f_count=0`. -/
def freeFile (s : Table) (f : FileNr) : Table :=
  (s.setCount f 0).record f .freed

/-- `current->close_on_exec &= ~(1<<fd)`. -/
def keepOnExec (s : Table) (current : TaskNr) (fd : Fd) : Table :=
  match s.task current with
  | none => s
  | some p =>
      s.setTask current
        (some { p with closeOnExec := p.closeOnExec &&& ~~~(1 <<< UInt32.ofNat fd) })

/-- The free entries of `file_table`, from the first one on. -/
def freeFiles (s : Table) : List FileNr :=
  (List.finRange nrFile).filter fun f => (s.file f).fCount == 0

/-- The free descriptors of the task from `arg` on. -/
def freeFds (s : Table) (current : TaskNr) (arg : Nat) : List Fd :=
  (List.finRange nrOpen).filter fun fd => arg ≤ fd && (s.filps current fd).isNone

/-- The entry that an existing descriptor is for. -/
def file? (s : Table) (current : TaskNr) (fd : Nat) : Option (Fd × FileNr) :=
  if inRange : fd < nrOpen then
    (s.filps current ⟨fd, inRange⟩).map fun f => (⟨fd, inRange⟩, f)
  else none

end Table

/-! ## Opening and closing -/

/-- `-EINVAL` and its like. -/
abbrev einval : Int := -22
abbrev ebadf : Int := -9
abbrev emfile : Int := -24
abbrev eagain : Int := -11

/-- What `open_namei` finds. -/
structure Found where
  inode : InodeNr
  iMode : UInt16
  deriving DecidableEq, Repr

/-- `S_ISCHR`. -/
def isChr (mode : UInt16) : Bool := mode &&& 0o170000 == 0o020000

/-- `sys_open`, with the answers of `open_namei` and of `check_char_dev`. -/
def sysOpen (s : Table) (current : TaskNr) (flag : UInt16) (openNamei : Except Int Found)
    (checkCharDev : Bool) : Table × Int :=
  match s.freeFds current 0 with
  | [] => (s, einval)
  | fd :: _ =>
      let s := s.keepOnExec current fd
      match s.freeFiles with
      | [] => (s, einval)
      | f :: _ =>
          let s := (s.setFilp current fd (some f)).takeFile f
          match openNamei with
          | .error errno => ((s.setFilp current fd none).freeFile f, errno)
          | .ok found =>
              if isChr found.iMode && checkCharDev then
                ((s.setFilp current fd none).freeFile f, eagain)
              else
                ((s.setFile f ⟨found.iMode, flag, 1, some found.inode, 0⟩).record f
                  (.bound found.inode), fd)

/-- What `sys_close` does about an existing descriptor. -/
def closeFilp (s : Table) (current : TaskNr) (fd : Fd) (f : FileNr) : Table :=
  let s := s.setFilp current fd none
  if (s.file f).fCount = 0 then
    -- "Close: file count is 0"
    { s with panicked := true }
  else
    let s := s.setCount f ((s.file f).fCount - 1)
    if (s.file f).fCount ≠ 0 then s else s.record f (.put (s.file f).fInode)

def sysClose (s : Table) (current : TaskNr) (fd : Nat) : Table × Int :=
  if inRange : fd < nrOpen then
    let s := s.keepOnExec current ⟨fd, inRange⟩
    match s.filps current ⟨fd, inRange⟩ with
    | none => (s, einval)
    | some f => (closeFilp s current ⟨fd, inRange⟩ f, 0)
  else (s, einval)

/-! ## Copies of descriptors -/

def dupfd (s : Table) (current : TaskNr) (fd arg : Nat) : Table × Int :=
  match s.file? current fd with
  | none => (s, ebadf)
  | some (_, f) =>
      if arg ≥ nrOpen then (s, einval)
      else
        match s.freeFds current arg with
        | [] => (s, emfile)
        | new :: _ =>
            let s := s.keepOnExec current new
            ((s.setFilp current new (some f)).setCount f ((s.file f).fCount + 1), new)

def sysDup2 (s : Table) (current : TaskNr) (oldfd newfd : Nat) : Table × Int :=
  dupfd (sysClose s current newfd).1 current oldfd newfd

def sysDup (s : Table) (current : TaskNr) (fildes : Nat) : Table × Int :=
  dupfd s current fildes 0

/-- `O_APPEND | O_NONBLOCK`. -/
def settableFlags : UInt16 := 0o2000 ||| 0o4000

def sysFcntl (s : Table) (current : TaskNr) (fd cmd arg : Nat) : Table × Int :=
  match s.file? current fd, s.task current with
  | some (fd, f), some p =>
      let file := s.file f
      match cmd with
      | 0 => dupfd s current fd arg
      | 1 => (s, ((p.closeOnExec >>> UInt32.ofNat fd) &&& 1).toNat)
      | 2 =>
          if arg % 2 = 1 then
            (s.setTask current
              (some { p with closeOnExec := p.closeOnExec ||| 1 <<< UInt32.ofNat fd }), 0)
          else (s.keepOnExec current fd, 0)
      | 3 => (s, file.fFlags.toNat)
      | 4 =>
          (s.setFile f { file with
            fFlags := file.fFlags &&& ~~~settableFlags |||
              UInt16.ofNat arg &&& settableFlags }, 0)
      | _ => (s, -1)
  | _, _ => (s, ebadf)

/-! ## Pipes -/

/-- `sys_pipe` with two free entries and two free descriptors, and with the answer of
`get_pipe_inode`. -/
def openPipe (s : Table) (current : TaskNr) (f : FileNr × FileNr) (fd : Fd × Fd)
    (inode : Option InodeNr) : Table × Int :=
  let s := (s.setFilp current fd.1 (some f.1)).setFilp current fd.2 (some f.2)
  match inode with
  | none =>
      let s := (s.setFilp current fd.1 none).setFilp current fd.2 none
      ((s.freeFile f.1).freeFile f.2, -1)
  | some inode =>
      let reader := { s.file f.1 with fInode := some inode, fPos := 0, fMode := 1 }
      let s := (s.setFile f.1 reader).record f.1 (.bound inode)
      let writer := { s.file f.2 with fInode := some inode, fPos := 0, fMode := 2 }
      let s := (s.setFile f.2 writer).record f.2 (.bound inode)
      (s, 0)

def sysPipe (s : Table) (current : TaskNr) (inode : Option InodeNr) : Table × Int :=
  match s.freeFiles with
  | f0 :: f1 :: _ =>
      let s := (s.takeFile f0).takeFile f1
      match s.freeFds current 0 with
      | fd0 :: fd1 :: _ => openPipe s current (f0, f1) (fd0, fd1) inode
      | [fd0] =>
          let s := (s.setFilp current fd0 (some f0)).setFilp current fd0 none
          ((s.freeFile f0).freeFile f1, -1)
      | [] => ((s.freeFile f0).freeFile f1, -1)
  | [f0] => ((s.takeFile f0).freeFile f0, -1)
  | [] => (s, -1)

/-! ## Tasks -/

/-- `find_empty_process`. -/
def Table.findEmptyProcess (s : Table) : Option TaskNr :=
  (List.finRange nrTasks).find? fun nr => nr ≠ 0 && (s.task nr).isNone

/-- `if (f=p->filp[i]) f->f_count++`. -/
def countFile (p : Task) (s : Table) (fd : Fd) : Table :=
  match p.filp fd with
  | none => s
  | some f => s.setCount f ((s.file f).fCount + 1)

/-- One more reference for each descriptor. -/
def countFiles (s : Table) (p : Task) : Table := (List.finRange nrOpen).foldl (countFile p) s

/-- `sys_fork`: `copyMem` says that `get_free_page` and `copy_mem` succeed. -/
def sysFork (s : Table) (current : TaskNr) (copyMem : Bool) : Table × Int :=
  match s.findEmptyProcess, s.task current with
  | some nr, some p =>
      if copyMem then (countFiles (s.setTask nr (some p)) p, nr) else (s, eagain)
  | _, _ => (s, eagain)

/-- `if ((current->close_on_exec>>i)&1) sys_close(i)`. -/
def closeOnExec (current : TaskNr) (s : Table) (fd : Fd) : Table :=
  match s.task current with
  | none => s
  | some p =>
      if (p.closeOnExec >>> UInt32.ofNat fd) &&& 1 ≠ 0 then (sysClose s current fd).1 else s

/-- `current->close_on_exec = 0`. -/
def Table.clearOnExec (s : Table) (current : TaskNr) : Table :=
  match s.task current with
  | none => s
  | some p => s.setTask current (some { p with closeOnExec := 0 })

/-- `do_execve` as far as files go. -/
def doExecve (s : Table) (current : TaskNr) : Table :=
  ((List.finRange nrOpen).foldl (closeOnExec current) s).clearOnExec current

/-- `if (current->filp[i]) sys_close(i)`. -/
def closeIfOpen (current : TaskNr) (s : Table) (fd : Fd) : Table :=
  if (s.filps current fd).isSome then (sysClose s current fd).1 else s

/-- `current->state = TASK_ZOMBIE`. -/
def Table.setZombie (s : Table) (current : TaskNr) : Table :=
  match s.task current with
  | none => s
  | some p => s.setTask current (some { p with zombie := true })

/-- `do_exit` as far as files go. -/
def doExit (s : Table) (current : TaskNr) : Table :=
  ((List.finRange nrOpen).foldl (closeIfOpen current) s).setZombie current

/-- `release`, for a child that `sys_waitpid` has found. -/
def release (s : Table) (nr : TaskNr) : Table :=
  if nr = 0 then s else s.setTask nr none

/-! ## Runs -/

/-- The calls of a task. -/
inductive Call where
  | sysOpen (flag : UInt16) (openNamei : Except Int Found) (checkCharDev : Bool)
  | sysClose (fd : Nat)
  | sysDup (fildes : Nat)
  | sysDup2 (oldfd newfd : Nat)
  | sysFcntl (fd cmd arg : Nat)
  | sysPipe (inode : Option InodeNr)
  | sysFork (copyMem : Bool)
  | doExecve
  | doExit
  /-- `sys_waitpid` finds the zombie `child`. -/
  | release (child : TaskNr)

/-- What a call does. -/
def Table.call (s : Table) (current : TaskNr) : Call → Table
  | .sysOpen flag openNamei checkCharDev =>
      (Files.sysOpen s current flag openNamei checkCharDev).1
  | .sysClose fd => (Files.sysClose s current fd).1
  | .sysDup fildes => (Files.sysDup s current fildes).1
  | .sysDup2 oldfd newfd => (Files.sysDup2 s current oldfd newfd).1
  | .sysFcntl fd cmd arg => (Files.sysFcntl s current fd cmd arg).1
  | .sysPipe inode => (Files.sysPipe s current inode).1
  | .sysFork copyMem => (Files.sysFork s current copyMem).1
  | .doExecve => Files.doExecve s current
  | .doExit => Files.doExit s current
  | .release child =>
      match s.task child with
      | some p => if p.zombie then Files.release s child else s
      | none => s

/-- A live task makes a call. -/
def step (s : Table) (action : TaskNr × Call) : Option Table :=
  match s.task action.1 with
  | some p => if p.zombie || s.panicked then none else some (s.call action.1 action.2)
  | none => none

/-- After `sched_init`: task 0 has no files. -/
def boot (file : FileNr → File) : Table where
  file f := { file f with fCount := 0 }
  task nr := if nr = 0 then some ⟨false, 0, fun _ => none⟩ else none
  events _ := []
  panicked := false

end Linux012.Files
