import Linux012.Fs.Namei

/-!
# Open files

`file_table`, the descriptors of the tasks, and the calls on them: `open.c`,
`fcntl.c`, `read_write.c` and `file_dev.c`, with what `copy_process` does about the
files of a task.  A `struct file` is its index in `file_table`.
-/

namespace Linux012.Fs

/-- `NR_OPEN`. -/
abbrev nrOpen : Nat := 20

/-- `NR_FILE`. -/
abbrev nrFile : Nat := 64

def oAppend : UInt16 := 0o2000

/-- `struct file`. -/
structure File where
  fMode : UInt16
  fFlags : UInt16
  fCount : UInt16
  fInode : Option Ino
  fPos : Nat

/-- The fields of `struct task_struct` that have to do with files. -/
structure Process extends Task where
  executable : Option Ino
  library : Option Ino
  filp : Nat → Option Nat

/-- The file systems, `file_table` and `task`. -/
structure Files where
  fs : FileSys
  fileTable : Nat → File
  task : Nat → Option Process

/-- System calls. -/
abbrev FilesM := StateT Files Option

def Files.setFile (sys : Files) (f : Nat) (file : File) : Files :=
  { sys with fileTable := Function.update sys.fileTable f file }

def Files.setTask (sys : Files) (nr : Nat) (p : Process) : Files :=
  { sys with task := Function.update sys.task nr (some p) }

def Process.setFilp (p : Process) (fd : Nat) (f : Option Nat) : Process :=
  { p with filp := Function.update p.filp fd f }

/-- `current->filp[fd]`. -/
def Files.filp (sys : Files) (current fd : Nat) : Option Nat :=
  (sys.task current).bind fun p => p.filp fd

/-- The task that makes the call. -/
def getTask (current : Nat) : FilesM Process := do
  let sys ← get
  let some p := sys.task current | failure
  return p

def setFile (f : Nat) (file : File) : FilesM Unit := modify fun sys => sys.setFile f file

/-- `current->filp[fd] = f`. -/
def setFilp (current fd : Nat) (f : Option Nat) : FilesM Unit := do
  let p ← getTask current
  modify fun sys => sys.setTask current (p.setFilp fd f)

/-- `f->f_count = count`. -/
def setCount (f : Nat) (count : UInt16) : FilesM Unit :=
  modify fun sys => sys.setFile f { sys.fileTable f with fCount := count }

/-- Work on the file systems. -/
def onFs {α : Type} (prog : FsM α) : FilesM α := fun sys =>
  (prog.run sys.fs).map fun (result, fs) => (result, { sys with fs := fs })

/-! ## Descriptors -/

/-- The first free descriptor from `arg` on. -/
def Process.freeFd (p : Process) (arg : Nat) : Option Nat :=
  (List.range' arg (nrOpen - arg)).find? fun fd => (p.filp fd).isNone

/-- The first free entry of `file_table`. -/
def Files.freeFile (sys : Files) : Option Nat :=
  (List.range nrFile).find? fun f => (sys.fileTable f).fCount == 0

/-- `sys_open`.  The answer of `check_char_dev`, which is about the terminals, is
given. -/
def sysOpen (current : Nat) (filename : List UInt8) (flag mode : UInt16)
    (checkCharDev : Bool) : FilesM (Except Errno Nat) := do
  let p ← getTask current
  let mode := mode &&& 0o777 &&& ~~~p.umask
  let some fd := p.freeFd 0 | return .error .einval
  let sys ← get
  let some f := sys.freeFile | return .error .einval
  setFilp current fd (some f)
  setCount f ((sys.fileTable f).fCount + 1)
  match ← onFs (openNamei p.toTask filename flag mode) with
  | .error errno =>
      setFilp current fd none
      setCount f 0
      return .error errno
  | .ok inode =>
      let sys ← get
      if (sys.fs.inode inode).isChr ∧ !checkCharDev then
        onFs (iput inode)
        setFilp current fd none
        setCount f 0
        return .error .eagain
      setFile f ⟨(sys.fs.inode inode).mode, flag, 1, some inode, 0⟩
      return .ok fd

def sysClose (current fd : Nat) : FilesM (Except Errno Nat) := do
  if fd ≥ nrOpen then return .error .einval
  let p ← getTask current
  let some f := p.filp fd | return .error .einval
  setFilp current fd none
  let sys ← get
  let file := sys.fileTable f
  -- "Close: file count is 0"
  if file.fCount = 0 then failure
  setCount f (file.fCount - 1)
  if file.fCount - 1 ≠ 0 then return .ok 0
  match file.fInode with
  | none => return .ok 0
  | some inode =>
      onFs (iput inode)
      return .ok 0

def dupfd (current fd arg : Nat) : FilesM (Except Errno Nat) := do
  let p ← getTask current
  if fd ≥ nrOpen then return .error .ebadf
  let some f := p.filp fd | return .error .ebadf
  if arg ≥ nrOpen then return .error .einval
  let some arg := p.freeFd arg | return .error .emfile
  setFilp current arg (some f)
  let sys ← get
  setCount f ((sys.fileTable f).fCount + 1)
  return .ok arg

def sysDup (current fildes : Nat) : FilesM (Except Errno Nat) := dupfd current fildes 0

/-- One more reference for each descriptor. -/
def Files.countFiles (sys : Files) (p : Process) : Files :=
  let uses (f : Nat) : Nat := (List.range nrOpen).countP fun fd => p.filp fd == some f
  { sys with
    fileTable := fun f =>
      let file := sys.fileTable f
      { file with fCount := file.fCount + UInt16.ofNat (uses f) } }

/-- One more reference to an inode, if there is one. -/
def holdSome (n : Option Ino) : FsM Unit :=
  match n with
  | none => return ()
  | some n => hold n

/-- `copy_process` as far as files go, for the free slot `nr`. -/
def copyProcess (current nr : Nat) : FilesM Unit := do
  let p ← getTask current
  modify fun sys => (sys.setTask nr p).countFiles p
  onFs do
    hold p.pwd
    hold p.root
    holdSome p.executable
    holdSome p.library

/-! ## Writing -/

/-- `c` bytes at `pos` are overwritten, and `i_size` grows with them. -/
def Inode.withBytes (node : Inode) (pos c : Nat) (buf : Nat → UInt8) : Inode :=
  { node with
    size := max node.size (pos + c)
    bytes := fun at_ =>
      if pos ≤ at_ ∧ at_ < pos + c then buf (at_ - pos) else node.bytes at_ }

/-- The loop of `file_write` after `i` of the bytes, for at most `left` rounds. -/
def fileWriteLoop (inode : Ino) (buf : Nat → UInt8) (count : Nat) :
    (left : Nat) → (pos i : Nat) → FsM (Nat × Nat)
  | 0, pos, i => return (pos, i)
  | left + 1, pos, i => do
      if i ≥ count then return (pos, i)
      if !(← createBlock inode (pos / 1024)) then return (pos, i)
      let c := min (1024 - pos % 1024) (count - i)
      let fs ← get
      setInode inode ((fs.inode inode).withBytes pos c fun k => buf (i + k))
      fileWriteLoop inode buf count left (pos + c) (i + c)

/-- A round more than there are bytes left does not matter. -/
theorem fileWriteLoop_succ {inode : Ino} {buf : Nat → UInt8} {count : Nat} (left pos i : Nat)
    (enough : count ≤ i + left) :
    fileWriteLoop inode buf count (left + 1) pos i =
      fileWriteLoop inode buf count left pos i := by
  induction left generalizing pos i with
  | zero =>
      rw [fileWriteLoop, fileWriteLoop, if_pos (by omega)]
  | succ left ih =>
      rw [fileWriteLoop]
      conv_rhs => rw [fileWriteLoop]
      have further : i < count →
          fileWriteLoop inode buf count (left + 1) (pos + min (1024 - pos % 1024) (count - i))
              (i + min (1024 - pos % 1024) (count - i)) =
            fileWriteLoop inode buf count left (pos + min (1024 - pos % 1024) (count - i))
              (i + min (1024 - pos % 1024) (count - i)) := by
        intro more
        have inBlock : pos % 1024 < 1024 := Nat.mod_lt pos (by decide)
        exact ih _ _ (by omega)
      by_cases done : i ≥ count
      · rw [if_pos done, if_pos done]
      · simp only [if_neg done, further (by omega)]

/-- `file_write`: the result and `f_pos`. -/
def fileWrite (inode : Ino) (filp : File) (buf : Nat → UInt8) (count : Nat) :
    FsM (Except Errno Nat × Nat) := do
  let fs ← get
  let append := filp.fFlags &&& oAppend ≠ 0
  let pos := if append then (fs.inode inode).size else filp.fPos
  let (pos, i) ← fileWriteLoop inode buf count count pos 0
  return (if i ≠ 0 then .ok i else .error .eperm, if append then filp.fPos else pos)

/-- What comes of a write to a device: the result, `f_pos`, and the file systems if
the device holds some. -/
structure DeviceWrite where
  result : Except Errno Nat
  fPos : Nat
  tree : Tree

/-- `sys_write`.  `buf` is the memory of the user from the address `buf` on.  Pipes are
left out. -/
def sysWrite (current fd : Nat) (buf : Nat → UInt8) (count : Int) (device : DeviceWrite) :
    FilesM (Except Errno Nat) := do
  let p ← getTask current
  if fd ≥ nrOpen ∨ count < 0 then return .error .einval
  let some f := p.filp fd | return .error .einval
  if count = 0 then return .ok 0
  let sys ← get
  let file := sys.fileTable f
  let some inode := file.fInode | failure
  let node := sys.fs.inode inode
  if node.isChr then
    setFile f { file with fPos := device.fPos }
    return device.result
  if node.isBlk then
    -- below the file systems: any contents may be on the device after it
    onFs (modify fun fs => { fs with toTree := device.tree })
    setFile f { file with fPos := device.fPos }
    return device.result
  if node.isReg then
    let (result, pos) ← onFs (fileWrite inode file buf count.toNat)
    setFile f { file with fPos := pos }
    return result
  return .error .einval

end Linux012.Fs
