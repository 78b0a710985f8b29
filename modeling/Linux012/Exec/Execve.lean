import Linux012.Exec.Strings

/-!
# `do_execve`

The new image, the lines that begin with `#!`, and `do_execve` of `exec.c`.
-/

namespace Linux012.Exec

open Lib (longOf longBytes)

/-- `LIBRARY_SIZE`. -/
abbrev librarySize : Nat := 0x400000

/-- `-ENOENT`. -/
abbrev enoent : Int := -2

/-- `-ENOEXEC`. -/
abbrev enoexec : Int := -8

/-- `-ENOMEM`. -/
abbrev enomem : Int := -12

/-- `-EACCES`. -/
abbrev eacces : Int := -13

/-- `SIG_IGN`. -/
abbrev sigIgn : UInt32 := 1

/-- `NR_OPEN`. -/
abbrev nrOpen : Nat := 20

/-- What `execve` reads of an inode in memory.  The first block is what `bread` finds for
`i_zone[0]`. -/
structure Inode where
  mode : UInt16
  uid : UInt16
  gid : UInt8
  size : UInt32
  firstBlock : Option (List UInt8)

/-- What a call of `execve` finds: the memory of the program that calls it, the memory of the kernel
below the frame of `do_execve`, the inodes and their names, the pages that belong to the old image
alone, and what `do_no_page` brings in for a page that is not there, with or without a new page. -/
structure World where
  user : List UInt8
  userLimit : user.length ≤ taskSize
  kernel : List UInt8
  kernelLimit : kernel.length ≤ taskSize
  namei : List UInt8 → Option Nat
  inode : Nat → Inode
  released : Nat
  shared : Nat → Bool
  content : Nat → Page

/-! ## The new image -/

section Image

variable (w : World)

/-- A page from `get_free_page`, or the end in `oom`. -/
def takeFree : ExecM Unit := do
  let machine ← get
  match machine.free with
  | 0 => throw .oom
  | free + 1 => set { machine with free }

/-- The page table with the number `t`. -/
def ensureTable (t : Nat) : ExecM Unit := do
  if (← get).table t then return ()
  takeFree
  modify fun machine => { machine with table := Function.update machine.table t true }

/-- `get_free_page()`, unless `share_page` has found a page. -/
def takeUnless (shared : Bool) : ExecM Unit := if shared then pure () else takeFree

/-- `do_no_page`, for the page with the number `n`. -/
def doNoPage (n : Nat) : ExecM Page := do
  ensureTable (n / 1024)
  takeUnless (w.shared n)
  modify fun machine =>
    { machine with mapped := Function.update machine.mapped n (some (w.content n)) }
  return w.content n

/-- The page with the number `n`, which may have to be brought in. -/
def presentPage (n : Nat) : ExecM Page := do
  match (← get).mapped n with
  | some page => return page
  | none => doNoPage w n

/-- `get_fs_byte`, in the new image. -/
def getNewByte (address : UInt32) : ExecM UInt8 := do
  if taskSize ≤ address.toNat then throw .fault
  let page ← presentPage w (address.toNat / pageSize)
  return page (address.toNat % pageSize)

def putNewByte (byte : UInt8) (address : UInt32) : ExecM Unit := do
  if taskSize ≤ address.toNat then throw .fault
  let page ← presentPage w (address.toNat / pageSize)
  modify fun machine =>
    { machine with
      mapped := Function.update machine.mapped (address.toNat / pageSize)
        (some (Function.update page (address.toNat % pageSize) byte)) }

def putNewBytes : List UInt8 → UInt32 → ExecM Unit
  | [], _ => return ()
  | byte :: bytes, address => do
      putNewByte w byte address
      putNewBytes bytes (address + 1)

/-- `put_fs_long`, in the new image. -/
def putFsLong (value address : UInt32) : ExecM Unit := putNewBytes w (longBytes value) address

/-- `while (get_fs_byte(p++))`, where the segment has `left` bytes from `p` on. -/
def skipString : (left : Nat) → (p : UInt32) → ExecM UInt32
  | 0, _ => throw .fault
  | left + 1, p => do
      if (← getNewByte w p) = 0 then return p + 1
      skipString left (p + 1)

/-- The pointers to `argc` strings from `p` on are stored from `argv` on, and what follows the
strings and the pointers is returned. -/
def pointerLoop : (argc : Nat) → (p argv : UInt32) → ExecM (UInt32 × UInt32)
  | 0, p, argv => return (p, argv)
  | argc + 1, p, argv => do
      putFsLong w p argv
      let p ← skipString w (taskSize - p.toNat) p
      pointerLoop argc p (argv + 4)

def createTables (p : UInt32) (argc envc : Int) : ExecM UInt32 := do
  let sp := 0xfffffffc &&& p
  let sp := sp - 4 * UInt32.ofInt (envc + 1)
  let envp := sp
  let sp := sp - 4 * UInt32.ofInt (argc + 1)
  let argv := sp
  let sp := sp - 4
  putFsLong w envp sp
  let sp := sp - 4
  putFsLong w argv sp
  let sp := sp - 4
  putFsLong w (UInt32.ofInt argc) sp
  let (p, argv) ← pointerLoop w argc.toNat p argv
  putFsLong w 0 argv
  let (_, envp) ← pointerLoop w envc.toNat p envp
  putFsLong w 0 envp
  return sp

/-- `put_dirty_page`, for the page with the number `n`.  Without a page for the page table the page
is left out. -/
def putDirtyPage (page : Page) (n : Nat) : ExecM Unit := do
  let machine ← get
  if machine.table (n / 1024) then
    set { machine with mapped := Function.update machine.mapped n (some page) }
  else
    match machine.free with
    | 0 => return ()
    | free + 1 =>
        set { machine with
          free
          table := Function.update machine.table (n / 1024) true
          mapped := Function.update machine.mapped n (some page) }

/-- The number of the page behind the argument pages. -/
abbrev argumentsEnd : Nat := (taskSize - librarySize) / pageSize

/-- The loop of `change_ldt`, over the first `i` argument pages from the last one on. -/
def mapPages : (i : Nat) → ExecM Unit
  | 0 => return ()
  | i + 1 => do
      match (← get).page i with
      | some page => putDirtyPage page (argumentsEnd - maxArgPages + i)
      | none => pure ()
      mapPages i

/-- `change_ldt`.  It returns the limit of the data segment. -/
def changeLdt : ExecM UInt32 := do
  setFs .user
  mapPages maxArgPages
  return UInt32.ofNat taskSize

end Image

/-! ## The first line of a script -/

/-- `strncpy`. -/
def strncpy (src : List UInt8) (count : Nat) : List UInt8 :=
  let copied := (src.take count).takeWhile (· ≠ 0)
  copied ++ List.replicate (count - copied.length) 0

/-- `strchr`, as the index in the string. -/
def strchr : List UInt8 → UInt8 → Option Nat
  | byte :: rest, c =>
      if byte = c then some 0
      else if byte = 0 then none
      else (strchr rest c).map (· + 1)
  | [], _ => none

/-- `' '` or `'\t'`. -/
def isBlank (byte : UInt8) : Bool := byte = 32 || byte = 9

/-- What is found in the first line of a script, by its indices in `buf`. -/
structure Line where
  buf : List UInt8
  interp : Nat
  iName : Nat
  iArg : Option Nat
  deriving DecidableEq, Repr

/-- The loop over the name of the interpreter, over `buf` from `cp` on: where it ends, and where the
part behind the last `'/'` begins. -/
def nameLoop : List UInt8 → (cp iName : Nat) → Nat × Nat
  | byte :: rest, cp, iName =>
      if byte = 0 ∨ isBlank byte then (cp, iName)
      else nameLoop rest (cp + 1) (if byte = 47 then cp + 1 else iName)
  | [], cp, iName => (cp, iName)

/-- The first line of the block of a script, with its end as the end of a string. -/
def cutLine (block : List UInt8) : Option (List UInt8) :=
  let buf := strncpy (block.drop 2) 127 ++ [0]
  (strchr buf 10).map fun newline => buf.set newline 0

/-- The name of the interpreter and the argument, or nothing when there is no name. -/
def parseBuf (buf : List UInt8) : Option Line :=
  let cp := (buf.takeWhile isBlank).length
  if buf[cp]? = some 0 then none
  else
    let (behind, iName) := nameLoop (buf.drop cp) cp cp
    if buf[behind]? = some 0 then some { buf, interp := cp, iName, iArg := none }
    else some { buf := buf.set behind 0, interp := cp, iName, iArg := some (behind + 1) }

def parseLine (block : List UInt8) : Option Line := (cutLine block).bind parseBuf

/-! ## The call -/

section Call

variable (w : World)

/-- The memory of the kernel with the frame of `do_execve` in it: the pointers `filename`, `i_arg`
and `i_name`, and `buf`. -/
def kernelMemory (filename : UInt32) (line : Line) : List UInt8 :=
  let buf := w.kernel.length + 12
  w.kernel ++ longBytes filename ++
    longBytes (UInt32.ofNat ((line.iArg.map (buf + ·)).getD 0)) ++
    longBytes (UInt32.ofNat (buf + line.iName)) ++ line.buf

/-- The memory that `fs` selects. -/
def segments (filename : UInt32) (line : Line) : Fs → List UInt8
  | .user => w.user
  | .kernel => kernelMemory w filename line

/-- The frame before the first line of a script has been read. -/
def noLine : Line := { buf := [], interp := 0, iName := 0, iArg := none }

/-- `namei`, of the path at `address` of a segment. -/
def nameiAt (segment : List UInt8) (address : Nat) : ExecM (Option Nat) := do
  match lengthLoop (segment.drop address) with
  | none => throw .fault
  | some len =>
      match w.namei ((segment.drop address).take (len - 1)) with
      | none => return none
      | some inode =>
          modify fun machine =>
            { machine with count := Function.update machine.count inode (machine.count inode + 1) }
          return some inode

def iput (inode : Nat) : ExecM Unit :=
  modify fun machine =>
    { machine with count := Function.update machine.count inode (machine.count inode - 1) }

/-- `in_group_p`. -/
def Task.inGroupP (task : Task) (grp : UInt8) : Bool :=
  grp.toNat = task.egid.toNat ||
    ((task.groups.takeWhile (· ≠ -1)).any fun group => group = grp.toNat)

/-- `suser()`. -/
def Task.suser (task : Task) : Bool := task.euid = 0

/-- `S_ISREG`. -/
def Inode.isReg (inode : Inode) : Bool := inode.mode &&& 0o170000 = 0o100000

/-- The test of the execute permission. -/
def Task.mayExecute (task : Task) (inode : Inode) : Bool :=
  let i :=
    if task.euid = inode.uid then inode.mode >>> 6
    else if task.inGroupP inode.gid then inode.mode >>> 3
    else inode.mode
  i &&& 1 ≠ 0 || (inode.mode &&& 0o111 ≠ 0 && task.suser)

/-- `e_uid`. -/
def Task.eUid (task : Task) (inode : Inode) : UInt16 :=
  if inode.mode &&& 0o4000 ≠ 0 then inode.uid else task.euid

/-- `e_gid`. -/
def Task.eGid (task : Task) (inode : Inode) : UInt16 :=
  if inode.mode &&& 0o2000 ≠ 0 then inode.gid.toUInt16 else task.egid

/-- From `restart_interp` to the reading of the first block, or the error. -/
def openImage (task : Task) (inode : Inode) : Except Int (List UInt8) :=
  if !inode.isReg then .error eacces
  else if !task.mayExecute inode then .error enoexec
  else
    match inode.firstBlock with
    | none => .error eacces
    | some block => .ok block

/-- The block begins with `#!`. -/
def isScript (block : List UInt8) : Bool := block[0]? = some 35 && block[1]? = some 33

/-- The header of a block, a word of it at a time. -/
def readHeader (block : List UInt8) : Header :=
  let byte (i : Nat) : UInt8 := block.getD i 0
  let long (i : Nat) : UInt32 :=
    longOf (byte (4 * i)) (byte (4 * i + 1)) (byte (4 * i + 2)) (byte (4 * i + 3))
  { magic := long 0, text := long 1, data := long 2, bss := long 3, syms := long 4,
    entry := long 5, trsize := long 6, drsize := long 7 }

/-- `exec_error1`: the argument pages are freed. -/
def execError1 (retval : Int) : ExecM Int := do
  modify fun machine =>
    { machine with
      free := machine.free + (List.range maxArgPages).countP fun i => (machine.page i).isSome
      page := fun _ => none }
  return retval

/-- `exec_error2`. -/
def execError2 (inode : Nat) (retval : Int) : ExecM Int := do
  iput inode
  execError1 retval

/-- The task for which the signals, the open files and the math processor are reset. -/
def Task.reset (task : Task) : Task :=
  { task with
    signal := 0
    sigaction := task.sigaction.map fun action =>
      { mask := 0, flags := 0, handler := if action.handler = sigIgn then sigIgn else 0 }
    filp := fun i => if i < nrOpen ∧ (task.closeOnExec >>> UInt32.ofNat i) &&& 1 = 1 then none
      else task.filp i
    closeOnExec := 0
    usedMath := false
    lastUsedMath := false }

def iputIfAny : Option Nat → ExecM Unit
  | some inode => iput inode
  | none => pure ()

/-- The old image goes, with its page tables and the pages that only it has. -/
def freeOldImage : ExecM Unit :=
  modify fun machine =>
    { machine with
      free := machine.free + w.released
      table := fun _ => false
      mapped := fun _ => none }

/-- What is stored at the end. -/
def finish (old : Task) (inode : Nat) (ex : Header) (p : UInt32) : ExecM Unit :=
  modify fun machine =>
    { machine with
      task := { machine.task with
        endCode := ex.endCode
        endData := ex.endData
        brk := ex.brk
        startStack := p &&& 0xfffff000
        euid := old.eUid (w.inode inode)
        suid := old.eUid (w.inode inode)
        egid := old.eGid (w.inode inode)
        sgid := old.eGid (w.inode inode) }
      frame := { machine.frame with eip := ex.entry, esp := p } }

/-- From the point of no return on. -/
def startImage (inode : Nat) (ex : Header) (p : UInt32) (argc envc : Int) : ExecM Int := do
  let old := (← get).task
  iputIfAny old.executable
  modify fun machine =>
    { machine with task := { machine.task with executable := some inode }.reset }
  freeOldImage w
  let limit ← changeLdt
  let p := p + limit
  let p := p - UInt32.ofNat (librarySize + maxArgPages * pageSize)
  let p ← createTables w p argc envc
  finish w old inode ex p
  return 0

/-- The initial `p`. -/
abbrev initialP : UInt32 := UInt32.ofNat (pageSize * maxArgPages - 4)

/-- The arguments of a program: what `copy_strings` leaves of `p`, and `argc`. -/
def copyPlain (filename argv envp : UInt32) (argc envc : Int) : ExecM (UInt32 × Int) := do
  let memory := segments w filename noLine
  let p ← copyStrings memory envc envp initialP .neither
  let p ← copyStrings memory argc argv p .neither
  return (p, argc)

/-- The arguments of a script: what `copy_strings` leaves of `p`, and `argc`. -/
def copyScript (filename argv envp : UInt32) (argc envc : Int) (line : Line) :
    ExecM (UInt32 × Int) := do
  let memory := segments w filename line
  let stack (i : Nat) : UInt32 := UInt32.ofNat (w.kernel.length + i)
  let p ← copyStrings memory envc envp initialP .neither
  let argc := argc - 1
  let p ← copyStrings memory argc (argv + 4) p .neither
  let p ← copyStrings memory 1 (stack 0) p .array
  let argc := argc + 1
  match line.iArg with
  | some _ =>
      let p ← copyStrings memory 1 (stack 4) p .both
      let argc := argc + 1
      let p ← copyStrings memory 1 (stack 8) p .both
      return (p, argc + 1)
  | none =>
      let p ← copyStrings memory 1 (stack 8) p .both
      return (p, argc + 1)

/-- The tests of the header, and then the new image. -/
def checkImage (inode : Nat) (block : List UInt8) (copy : ExecM (UInt32 × Int)) (envc : Int) :
    ExecM Int := do
  let ex := readHeader block
  if ¬ex.Accepted (w.inode inode).size then execError2 inode enoexec
  else
    let (p, argc) ← copy
    if p = 0 then execError2 inode enomem
    else startImage w inode ex p argc envc

/-- From the arguments of a script on, with the interpreter of its line. -/
def startScript (filename argv envp : UInt32) (argc envc : Int) (line : Line) : ExecM Int := do
  let (p, argc) ← copyScript w filename argv envp argc envc line
  if p = 0 then execError1 enomem
  else
    match ← nameiAt w (kernelMemory w filename line) (w.kernel.length + 12 + line.interp) with
    | none => execError1 enoent
    | some inode =>
        match openImage (← get).task (w.inode inode) with
        | .error retval => execError2 inode retval
        | .ok block => checkImage w inode block (return (p, argc)) envc

/-- From `restart_interp` on, for the file that is called. -/
def startFile (filename argv envp : UInt32) (argc envc : Int) (inode : Nat) : ExecM Int := do
  match openImage (← get).task (w.inode inode) with
  | .error retval => execError2 inode retval
  | .ok block =>
      if isScript block then
        iput inode
        match parseLine block with
        | none => execError1 enoexec
        | some line => startScript w filename argv envp argc envc line
      else checkImage w inode block (copyPlain w filename argv envp argc envc) envc

/-- `do_execve`. -/
def doExecve (filename argv envp : UInt32) : ExecM Int := do
  if (← get).frame.cs &&& 0xffff ≠ 0xf then throw .panic
  modify fun machine => { machine with page := fun _ => none }
  match ← nameiAt w w.user filename.toNat with
  | none => return enoent
  | some inode =>
      let argc ← count (segments w filename noLine) argv
      let envc ← count (segments w filename noLine) envp
      startFile w filename argv envp argc envc inode

end Call

end Linux012.Exec
