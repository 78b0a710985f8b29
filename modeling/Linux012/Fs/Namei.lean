import Linux012.Fs.Inode

/-!
# namei

The lookup of path names and the calls that make and remove directory entries, from
`namei.c`.  A path is its bytes before the terminating NUL.
-/

namespace Linux012.Fs

/-- Error numbers, without the sign that a return value gives them. -/
inductive Errno where
  | eperm
  | enoent
  | eio
  | ebadf
  | eagain
  | eacces
  | eexist
  | exdev
  | enodev
  | enotdir
  | eisdir
  | einval
  | emfile
  | enospc
  | enotempty
  deriving DecidableEq, Repr

/-- The fields of the current task that `namei.c` reads; `groups` ends before the
first `NOGROUP`. -/
structure Task where
  euid : UInt16
  egid : UInt16
  groups : List Nat
  umask : UInt16
  pwd : Ino
  root : Ino

def Task.suser (current : Task) : Bool := current.euid == 0

def Task.inGroupP (current : Task) (grp : UInt16) : Bool :=
  grp == current.egid || current.groups.contains grp.toNat

def mayExec : UInt16 := 1
def mayWrite : UInt16 := 2
def mayRead : UInt16 := 4

/-- `NAME_LEN`. -/
abbrev nameLen : Nat := 14

/-- `'/'`. -/
abbrev slash : UInt8 := 47

/-! ## Permission and directory search -/

def permission (current : Task) (n : Ino) (inode : Inode) (mask : UInt16) : Bool :=
  if n.dev ≠ 0 ∧ inode.nlinks = 0 then false
  else
    let mode :=
      if current.euid = inode.uid then inode.mode >>> 6
      else if current.inGroupP (UInt16.ofNat inode.gid.toNat) then inode.mode >>> 3
      else inode.mode
    mode &&& mask &&& 0o007 == mask || current.suser

/-- `match`, with a name that is already cut to `NAME_LEN`. -/
def matchName (name : Name) (de : DirEntry) : Bool :=
  de.inode != 0 && (de.name == name || (name == [] && de.name == [dot]))

/-- The search of `find_entry`: the first slot within `i_size` that matches. -/
def Inode.findSlot (node : Inode) (name : Name) : Option Nat :=
  if node.zone 0 then
    (List.range (node.size / dirEntrySize)).find? fun slot =>
      node.zone (slot / dirEntriesPerBlock) && matchName name (node.entry slot)
  else none

/-- `..` over a mount point: the root of a file system is exchanged for the directory
that it is mounted on. -/
def crossMount (dir : Ino) : FsM Ino := do
  if dir.num ≠ rootIno then return dir
  let fs ← get
  let some sb := fs.getSuper dir.dev | failure
  match sb.sImount with
  | some mounted =>
      iput dir
      hold mounted
      return mounted
  | none => return dir

/-- `find_entry`: the directory, which `..` can exchange, and the slot found. -/
def findEntry (current : Task) (dir : Ino) (name : Name) : FsM (Ino × Option Nat) := do
  let name := name.take nameLen
  if name = [dot, dot] then
    if dir = current.root then
      -- in a pseudo-root, `..` is a faked `.`
      let fs ← get
      return (dir, (fs.inode dir).findSlot [dot])
    else
      let dir ← crossMount dir
      let fs ← get
      return (dir, (fs.inode dir).findSlot name)
  else
    let fs ← get
    return (dir, (fs.inode dir).findSlot name)

/-- `de->inode = num`. -/
def Inode.withEntry (node : Inode) (slot : Nat) (de : DirEntry) : Inode :=
  { node with entry := Function.update node.entry slot de }

/-- The block of slot `i`.  At each boundary behind the first block it is created if it
is missing. -/
def slotBlock (dir : Ino) (i : Nat) : FsM Bool :=
  if i % dirEntriesPerBlock = 0 ∧ i ≠ 0 then createBlock dir (i / dirEntriesPerBlock)
  else pure true

/-- The loop of `add_entry` from slot `i` on; `left` is the number of slots between
`i` and the end of the directory, so with none left `i*sizeof(struct dir_entry)` is at
least `i_size`. -/
def addEntryLoop (dir : Ino) (name : Name) : (left : Nat) → (i : Nat) → FsM (Option Nat)
  | 0, i => do
      if !(← slotBlock dir i) then return none
      let fs ← get
      setInode dir {
        (fs.inode dir).withEntry i ⟨0, name⟩ with size := (i + 1) * dirEntrySize }
      return some i
  | left + 1, i => do
      if !(← slotBlock dir i) then return none
      let fs ← get
      if ((fs.inode dir).entry i).inode = 0 then
        setInode dir ((fs.inode dir).withEntry i ⟨0, name⟩)
        return some i
      else
        addEntryLoop dir name left (i + 1)

/-- `add_entry`: the slot of the new entry, whose inode number is still 0. -/
def addEntry (dir : Ino) (name : Name) : FsM (Option Nat) := do
  let name := name.take nameLen
  if name = [] then return none
  let fs ← get
  if !(fs.inode dir).zone 0 then return none
  addEntryLoop dir name (((fs.inode dir).size + (dirEntrySize - 1)) / dirEntrySize) 0

/-- `de->inode = num` for the slot `de` of the directory. -/
def setEntry (dir : Ino) (slot num : Nat) : FsM Unit := do
  let fs ← get
  let node := fs.inode dir
  setInode dir (node.withEntry slot { node.entry slot with inode := num })

/-! ## Path names -/

/-- The bytes before the first NUL of a block, as a string. -/
def Inode.text (node : Inode) : List UInt8 :=
  ((List.range 1024).map node.bytes).takeWhile (· ≠ 0)

/-- Whether a path starts at the root, and its components after that. -/
def splitPath (path : List UInt8) : Bool × List Name :=
  match path with
  | c :: rest => if c = slash then (true, rest.splitOn slash) else (false, path.splitOn slash)
  | [] => (false, [[]])

/-- `follow_link` with `fs` = 0x10, as for the text of a link: a link in it is not
followed. -/
def followLinkInKernel (dir inode : Ino) : FsM (Option Ino) := do
  let fs ← get
  iput dir
  if !(fs.inode inode).isLnk then return some inode
  iput inode
  return none

/-- The loop of `get_dir` over the components that are followed by a slash. -/
def walk (current : Task) (followLink : Ino → Ino → FsM (Option Ino)) :
    List Name → Ino → FsM (Option Ino)
  | [], inode => do
      let fs ← get
      if !(fs.inode inode).isDir || !permission current inode (fs.inode inode) mayExec then
        iput inode
        return none
      return some inode
  | thisname :: rest, inode => do
      let fs ← get
      if !(fs.inode inode).isDir || !permission current inode (fs.inode inode) mayExec then
        iput inode
        return none
      match ← findEntry current inode thisname with
      | (dir, none) =>
          iput dir
          return none
      | (dir, some de) =>
          let fs ← get
          let inode ← iget dir.dev ((fs.inode dir).entry de).inode
          let some inode ← followLink dir inode | return none
          walk current followLink rest inode

/-- Where a relative path starts; the caller already holds a base that it gives. -/
def startDir (current : Task) (base : Option Ino) : FsM Ino := do
  match base with
  | some inode => return inode
  | none =>
      hold current.pwd
      return current.pwd

/-- `get_dir`: the directory that the last component is to be looked up in. -/
def getDir (current : Task) (followLink : Ino → Ino → FsM (Option Ino))
    (pathname : List UInt8) (base : Option Ino) : FsM (Option Ino) := do
  let inode ← startDir current base
  let (absolute, components) := splitPath pathname
  if absolute then
    iput inode
    hold current.root
    walk current followLink components.dropLast current.root
  else
    walk current followLink components.dropLast inode

/-- `dir_namei`: the directory, and the last component. -/
def dirNameiFrom (current : Task) (followLink : Ino → Ino → FsM (Option Ino))
    (pathname : List UInt8) (base : Option Ino) : FsM (Option (Ino × Name)) := do
  let some dir ← getDir current followLink pathname base | return none
  return some (dir, (splitPath pathname).2.getLast?.getD [])

/-- `_namei`.  Where `follow_link` returns NULL the source goes on to set the times of
an inode at address 0; here the call just returns NULL. -/
def nameiFrom (current : Task) (followLink : Ino → Ino → FsM (Option Ino))
    (pathname : List UInt8) (base : Option Ino) (followLinks : Bool) :
    FsM (Option Ino) := do
  let some (base, basename) ← dirNameiFrom current followLink pathname base | return none
  if basename = [] then return some base
  match ← findEntry current base basename with
  | (base, none) =>
      iput base
      return none
  | (base, some de) =>
      let fs ← get
      let inode ← iget base.dev ((fs.inode base).entry de).inode
      if followLinks then
        followLink base inode
      else
        iput base
        return some inode

/-- `follow_link` for a path of the user. -/
def followLink (current : Task) (dir inode : Ino) : FsM (Option Ino) := do
  let fs ← get
  if !(fs.inode inode).isLnk then
    iput dir
    return some inode
  if !(fs.inode inode).zone 0 then
    iput dir
    iput inode
    return none
  let text := (fs.inode inode).text
  iput inode
  nameiFrom current followLinkInKernel text (some dir) false

def dirNamei (current : Task) (pathname : List UInt8) : FsM (Option (Ino × Name)) :=
  dirNameiFrom current (followLink current) pathname none

def namei (current : Task) (pathname : List UInt8) : FsM (Option Ino) :=
  nameiFrom current (followLink current) pathname none true

/-! ## open -/

def oAccmode : UInt16 := 0o003
def oWronly : UInt16 := 0o001
def oRdwr : UInt16 := 0o002
def oCreat : UInt16 := 0o100
def oExcl : UInt16 := 0o200
def oTrunc : UInt16 := 0o1000

/-- `ACC_MODE`, from the table `ACC_MODE_INFO`. -/
def accMode (flag : UInt16) : UInt16 :=
  if flag &&& oAccmode = 0 then 0o004
  else if flag &&& oAccmode = 1 then 0o002
  else if flag &&& oAccmode = 2 then 0o006
  else 0o377

/-- `O_TRUNC` alone asks for writing. -/
def truncFlag (flag : UInt16) : UInt16 :=
  if flag &&& oTrunc ≠ 0 ∧ flag &&& oAccmode = 0 then flag ||| oWronly else flag

/-- The creation of a file by `open_namei`, in a directory without an entry for it. -/
def openCreate (current : Task) (dir : Ino) (basename : Name) (flag mode : UInt16) :
    FsM (Except Errno Ino) := do
  if flag &&& oCreat = 0 then
    iput dir
    return .error .enoent
  let fs ← get
  if !permission current dir (fs.inode dir) mayWrite then
    iput dir
    return .error .eacces
  let some inode ← newInode dir.dev current.euid current.egid
    | iput dir
      return .error .enospc
  let fs ← get
  setInode inode { fs.inode inode with uid := current.euid, mode := mode }
  let some de ← addEntry dir basename
    | let fs ← get
      setInode inode { fs.inode inode with nlinks := (fs.inode inode).nlinks - 1 }
      iput inode
      iput dir
      return .error .enospc
  setEntry dir de inode.num
  iput dir
  return .ok inode

/-- The opening of the file that an entry of `dir` leads to, by `open_namei`. -/
def openExisting (current : Task) (dir : Ino) (inr : Nat) (flag : UInt16) :
    FsM (Except Errno Ino) := do
  if flag &&& oExcl ≠ 0 then
    iput dir
    return .error .eexist
  let inode ← iget dir.dev inr
  let some inode ← followLink current dir inode | return .error .eacces
  let fs ← get
  if ((fs.inode inode).isDir ∧ flag &&& oAccmode ≠ 0) ∨
      !permission current inode (fs.inode inode) (accMode flag) then
    iput inode
    return .error .eperm
  if flag &&& oTrunc ≠ 0 then
    truncate inode
  return .ok inode

def openNamei (current : Task) (pathname : List UInt8) (flag mode : UInt16) :
    FsM (Except Errno Ino) := do
  let flag := truncFlag flag
  let mode := mode &&& 0o777 &&& ~~~current.umask ||| sIfreg
  let some (dir, basename) ← dirNamei current pathname | return .error .enoent
  if basename = [] then
    if flag &&& (oAccmode ||| oCreat ||| oTrunc) = 0 then return .ok dir
    iput dir
    return .error .eisdir
  match ← findEntry current dir basename with
  | (dir, none) => openCreate current dir basename flag mode
  | (dir, some de) =>
      let fs ← get
      openExisting current dir ((fs.inode dir).entry de).inode flag

/-! ## Making entries -/

/-- The way in of the calls that make or remove an entry: the directory that the entry
is in, which must be writable, and the name of the entry.  The calls differ in the
errors that they return. -/
def placeOf (current : Task) (pathname : List UInt8) (noDir noName noWrite : Errno) :
    FsM (Except Errno (Ino × Name)) := do
  let some (dir, basename) ← dirNamei current pathname | return .error noDir
  if basename = [] then
    iput dir
    return .error noName
  let fs ← get
  if !permission current dir (fs.inode dir) mayWrite then
    iput dir
    return .error noWrite
  return .ok (dir, basename)

def sysMknod (current : Task) (filename : List UInt8) (mode dev : UInt16) :
    FsM (Except Errno Unit) := do
  if !current.suser then return .error .eperm
  match ← placeOf current filename .enoent .enoent .eperm with
  | .error errno => return .error errno
  | .ok (dir, basename) =>
      match ← findEntry current dir basename with
      | (dir, some _) =>
          iput dir
          return .error .eexist
      | (dir, none) =>
          let some inode ← newInode dir.dev current.euid current.egid
            | iput dir
              return .error .enospc
          let fs ← get
          let node := { fs.inode inode with mode := mode }
          setInode inode (if node.isBlk || node.isChr then { node with rdev := dev } else node)
          let some de ← addEntry dir basename
            | iput dir
              let fs ← get
              setInode inode { fs.inode inode with nlinks := 0 }
              iput inode
              return .error .enospc
          setEntry dir de inode.num
          iput dir
          iput inode
          return .ok ()

/-- The contents of a new directory: `.` and `..` in a new block. -/
def Inode.asNewDir (node : Inode) (self up : Nat) : Inode :=
  { (node.withBlock 0).withEntry 0 ⟨self, [dot]⟩ |>.withEntry 1 ⟨up, [dot, dot]⟩ with
    size := 32, nlinks := 2 }

/-- `sys_mkdir` up to the increment of `dir->i_nlinks`: the directory that the new one
is made in and the new one, with the new entry. -/
def makeDir (current : Task) (pathname : List UInt8) (mode : UInt16) :
    FsM (Except Errno (Ino × Ino)) := do
  match ← placeOf current pathname .enoent .enoent .eperm with
  | .error errno => return .error errno
  | .ok (dir, basename) =>
      match ← findEntry current dir basename with
      | (dir, some _) =>
          iput dir
          return .error .eexist
      | (dir, none) =>
          let some inode ← newInode dir.dev current.euid current.egid
            | iput dir
              return .error .enospc
          let fs ← get
          setInode inode { fs.inode inode with size := 32 }
          if !(← newBlock) then
            iput dir
            let fs ← get
            setInode inode { fs.inode inode with nlinks := (fs.inode inode).nlinks - 1 }
            iput inode
            return .error .enospc
          let fs ← get
          setInode inode { (fs.inode inode).asNewDir inode.num dir.num with
            mode := sIfdir ||| (mode &&& 0o777 &&& ~~~current.umask) }
          let some de ← addEntry dir basename
            | iput dir
              let fs ← get
              setInode inode { fs.inode inode with nlinks := 0 }
              iput inode
              return .error .enospc
          setEntry dir de inode.num
          return .ok (dir, inode)

def sysMkdir (current : Task) (pathname : List UInt8) (mode : UInt16) :
    FsM (Except Errno Unit) := do
  match ← makeDir current pathname mode with
  | .error errno => return .error errno
  | .ok (dir, inode) =>
      let fs ← get
      setInode dir { fs.inode dir with nlinks := (fs.inode dir).nlinks + 1 }
      iput dir
      iput inode
      return .ok ()

/-- The bytes that `sys_symlink` copies into the new block: up to 1023, and a NUL. -/
def Inode.asSymlink (node : Inode) (oldname : List UInt8) : Inode :=
  let text := oldname.take 1023
  { node.withBlock 0 with
    bytes := fun pos => if pos < 1024 then text.getD pos 0 else (node.withBlock 0).bytes pos
    size := text.length }

def sysSymlink (current : Task) (oldname newname : List UInt8) :
    FsM (Except Errno Unit) := do
  match ← placeOf current newname .eacces .eperm .eacces with
  | .error errno => return .error errno
  | .ok (dir, basename) =>
      let some inode ← newInode dir.dev current.euid current.egid
        | iput dir
          return .error .enospc
      let fs ← get
      setInode inode { fs.inode inode with
        mode := sIflnk ||| (0o777 &&& ~~~current.umask) }
      if !(← newBlock) then
        iput dir
        let fs ← get
        setInode inode { fs.inode inode with nlinks := (fs.inode inode).nlinks - 1 }
        iput inode
        return .error .enospc
      let fs ← get
      setInode inode ((fs.inode inode).asSymlink oldname)
      match ← findEntry current dir basename with
      | (dir, some _) =>
          let fs ← get
          setInode inode { fs.inode inode with nlinks := (fs.inode inode).nlinks - 1 }
          iput inode
          iput dir
          return .error .eexist
      | (dir, none) =>
          let some de ← addEntry dir basename
            | let fs ← get
              setInode inode { fs.inode inode with nlinks := (fs.inode inode).nlinks - 1 }
              iput inode
              iput dir
              return .error .enospc
          setEntry dir de inode.num
          iput dir
          iput inode
          return .ok ()

/-- `sys_link` up to the increment of `oldinode->i_nlinks`: the old inode, with the new
entry for it. -/
def makeLink (current : Task) (oldname newname : List UInt8) :
    FsM (Except Errno Ino) := do
  let some oldinode ← namei current oldname | return .error .enoent
  let fs ← get
  if (fs.inode oldinode).isDir then
    iput oldinode
    return .error .eperm
  let some (dir, basename) ← dirNamei current newname
    | iput oldinode
      return .error .eacces
  if basename = [] then
    iput oldinode
    iput dir
    return .error .eperm
  if dir.dev ≠ oldinode.dev then
    iput dir
    iput oldinode
    return .error .exdev
  let fs ← get
  if !permission current dir (fs.inode dir) mayWrite then
    iput dir
    iput oldinode
    return .error .eacces
  match ← findEntry current dir basename with
  | (dir, some _) =>
      iput dir
      iput oldinode
      return .error .eexist
  | (dir, none) =>
      let some de ← addEntry dir basename
        | iput dir
          iput oldinode
          return .error .enospc
      setEntry dir de oldinode.num
      iput dir
      return .ok oldinode

def sysLink (current : Task) (oldname newname : List UInt8) :
    FsM (Except Errno Unit) := do
  match ← makeLink current oldname newname with
  | .error errno => return .error errno
  | .ok oldinode =>
      let fs ← get
      setInode oldinode {
        fs.inode oldinode with nlinks := (fs.inode oldinode).nlinks + 1 }
      iput oldinode
      return .ok ()

/-! ## Removing entries -/

/-- `empty_dir`.  A slot of a missing block holds no entry. -/
def emptyDir (n : Ino) (inode : Inode) : Bool :=
  let len := inode.size / dirEntrySize
  if len < 2 || !inode.zone 0 then false
  else if (inode.entry 0).inode ≠ n.num || (inode.entry 1).inode = 0 ||
      (inode.entry 0).name ≠ [dot] || (inode.entry 1).name ≠ [dot, dot] then false
  else (List.range' 2 (len - 2)).all fun nr =>
    !inode.zone (nr / dirEntriesPerBlock) || (inode.entry nr).inode == 0

def sysRmdir (current : Task) (name : List UInt8) : FsM (Except Errno Unit) := do
  match ← placeOf current name .enoent .enoent .eperm with
  | .error errno => return .error errno
  | .ok (dir, basename) =>
      match ← findEntry current dir basename with
      | (dir, none) =>
          iput dir
          return .error .enoent
      | (dir, some de) =>
          let fs ← get
          let inode ← iget dir.dev ((fs.inode dir).entry de).inode
          let fs ← get
          if (fs.inode dir).mode &&& sIsvtx ≠ 0 ∧ current.euid ≠ 0 ∧
              (fs.inode inode).uid ≠ current.euid then
            iput dir
            iput inode
            return .error .eperm
          if inode.dev ≠ dir.dev ∨ fs.iCount inode > 1 then
            iput dir
            iput inode
            return .error .eperm
          if inode = dir then
            iput inode
            iput dir
            return .error .eperm
          if !(fs.inode inode).isDir then
            iput inode
            iput dir
            return .error .enotdir
          if !emptyDir inode (fs.inode inode) then
            iput inode
            iput dir
            return .error .enotempty
          setEntry dir de 0
          let fs ← get
          setInode inode { fs.inode inode with nlinks := 0 }
          let fs ← get
          setInode dir { fs.inode dir with nlinks := (fs.inode dir).nlinks - 1 }
          iput dir
          iput inode
          return .ok ()

/-- "Deleting nonexistent file": a link count of 0 is taken for 1. -/
def liveLinks (nlinks : UInt8) : UInt8 := if nlinks = 0 then 1 else nlinks

def sysUnlink (current : Task) (name : List UInt8) : FsM (Except Errno Unit) := do
  match ← placeOf current name .enoent .enoent .eperm with
  | .error errno => return .error errno
  | .ok (dir, basename) =>
      match ← findEntry current dir basename with
      | (dir, none) =>
          iput dir
          return .error .enoent
      | (dir, some de) =>
          let fs ← get
          let inode ← iget dir.dev ((fs.inode dir).entry de).inode
          let fs ← get
          if (fs.inode dir).mode &&& sIsvtx ≠ 0 ∧ !current.suser ∧
              current.euid ≠ (fs.inode inode).uid ∧ current.euid ≠ (fs.inode dir).uid then
            iput dir
            iput inode
            return .error .eperm
          if (fs.inode inode).isDir then
            iput inode
            iput dir
            return .error .eperm
          setEntry dir de 0
          let fs ← get
          setInode inode {
            fs.inode inode with nlinks := liveLinks (fs.inode inode).nlinks - 1 }
          iput inode
          iput dir
          return .ok ()

end Linux012.Fs
