import Linux012.Fs.Namei

/-!
# Path names and the segment of their text

`get_dir`, `follow_link` and `_namei` call one another, and what keeps them from doing so for ever
is the segment in `fs`: the text of a link is read from the kernel's, and a link that is found
there is not followed.  Here the calls are bounded, and one that would exceed its bound stops as
`exhausted`; so does the search of `iget` behind too many mount points.  The inode that `iget` sets
aside at first counts as referred to, and it has the device and the number 0.
-/

namespace Linux012.Fs.PathWalk

/-- How a call can end without a return. -/
inductive Stop where
  /-- A panic of another kind than the next one. -/
  | panic
  /-- `iput: trying to free free inode`. -/
  | freesFree
  /-- A write through a null inode. -/
  | nullInode
  | exhausted
  deriving DecidableEq, Repr

abbrev WalkM := StateT FileSys (Except Stop)

/-- An operation of the file system, the failure of which is a panic. -/
def lift {α : Type} (prog : FsM α) : WalkM α := fun fs =>
  match prog fs with
  | none => .error .panic
  | some result => .ok result

/-! An operation of the file system is lifted step by step. -/

@[simp] theorem lift_bind {α β : Type} {first : FsM β} {rest : β → FsM α} :
    lift (first >>= rest) = lift first >>= fun value => lift (rest value) := by
  funext fs
  cases ran : first fs with
  | none => simp [lift, bind, StateT.bind, ran, Except.bind]
  | some reached => simp [lift, bind, StateT.bind, ran, Except.bind]

@[simp] theorem lift_get : lift (get : FsM FileSys) = get := rfl

@[simp] theorem lift_set {fs : FileSys} : lift (set fs : FsM PUnit) = set fs := rfl

@[simp] theorem lift_pure {α : Type} {value : α} : lift (pure value : FsM α) = pure value := rfl

@[simp] theorem lift_failure {α : Type} : lift (failure : FsM α) = throw .panic := rfl

@[simp] theorem lift_setInode {n : Ino} {node : Inode} :
    lift (setInode n node) = (do let fs ← get; set (fs.setInode n node)) := rfl

theorem lift_ite {α : Type} {condition : Prop} [Decidable condition] {first second : FsM α} :
    lift (if condition then first else second) =
      if condition then lift first else lift second :=
  apply_ite ..

/-- The segments that `fs` selects for user and kernel memory. -/
abbrev userSegment : UInt16 := 0x17
abbrev kernelSegment : UInt16 := 0x10

def iput (n : Ino) : WalkM Unit := do
  let fs ← get
  if fs.iCount n = 0 then throw .freesFree
  lift (Fs.iput n)

/-! ## iget -/

/-- What `i_dev` and `i_num` of an empty inode are. -/
abbrev emptyIno : Ino := ⟨0, 0⟩

def getEmptyInode : WalkM Unit := do
  lift Fs.getEmptyInode
  lift (hold emptyIno)

/-- `iput(empty)`. -/
def putEmpty : WalkM Unit := do
  let fs ← get
  if fs.iCount emptyIno = 0 then throw .freesFree
  set { fs with refs := fs.refs.erase emptyIno }

/-- `inode=empty`, with `read_inode(inode)`. -/
def fillEmpty (inode : Ino) : WalkM Unit := do
  let fs ← get
  if (fs.getSuper inode.dev).isNone then throw .panic
  putEmpty
  lift (hold inode)

/-- The search of `iget`, behind at most `mounts` mount points.  An inode without a reference that
is still in the table is treated as one that is not, which comes to the same. -/
def igetLoop : (mounts : Nat) → (dev nr : Nat) → WalkM Ino
  | mounts, dev, nr => do
      let inode : Ino := ⟨dev, nr⟩
      let fs ← get
      if inode ∈ fs.refs then
        lift (hold inode)
        if fs.iMount inode then
          match fs.superBlock.find? fun sb => sb.sImount == some inode with
          | none =>
              -- "Mounted inode hasn't got sb"
              putEmpty
              return inode
          | some sb =>
              iput inode
              match mounts with
              | 0 => throw .exhausted
              | mounts + 1 => igetLoop mounts sb.sDev rootIno
        else
          putEmpty
          return inode
      else
        fillEmpty inode
        return inode

def iget (mounts dev nr : Nat) : WalkM Ino := do
  if dev = 0 then throw .panic
  getEmptyInode
  igetLoop mounts dev nr

/-! ## find_entry -/

/-- `..` over a mount point. -/
def crossMount (dir : Ino) : WalkM Ino := do
  if dir.num ≠ rootIno then return dir
  let fs ← get
  match fs.getSuper dir.dev with
  | none => throw .panic
  | some sb =>
      match sb.sImount with
      | some mounted =>
          iput dir
          lift (hold mounted)
          return mounted
      | none => return dir

/-- `find_entry`: the directory, which `..` can exchange, and the slot found. -/
def findEntry (current : Task) (dir : Ino) (name : Name) : WalkM (Ino × Option Nat) := do
  let name := name.take nameLen
  if name = [dot, dot] then
    if dir = current.root then
      -- in a pseudo-root, `..` is a faked `.`
      let fs ← get
      return (dir, (fs.inode dir).findSlot [dot])
    else
      let dir ← crossMount dir
      let fs ← get
      return (dir, (fs.inode dir).findSlot name)
  else
    let fs ← get
    return (dir, (fs.inode dir).findSlot name)

/-! ## Paths -/

section Follow

variable (current : Task) (mounts : Nat) (followLink : Ino → Ino → WalkM (Option Ino))

/-- The loop of `get_dir` over the components that are followed by a slash. -/
def walk : List Name → Ino → WalkM (Option Ino)
  | components, inode => do
      let fs ← get
      if !(fs.inode inode).isDir || !permission current inode (fs.inode inode) mayExec then
        iput inode
        return none
      match components with
      | [] => return some inode
      | thisname :: rest =>
          match ← findEntry current inode thisname with
          | (dir, none) =>
              iput dir
              return none
          | (dir, some de) =>
              let fs ← get
              let inode ← iget mounts dir.dev ((fs.inode dir).entry de).inode
              match ← followLink dir inode with
              | none => return none
              | some inode => walk rest inode

/-- The start of `get_dir`. -/
def startDir (base : Option Ino) : WalkM Ino :=
  match base with
  | some inode => return inode
  | none => do
      lift (hold current.pwd)
      return current.pwd

def getDir (pathname : List UInt8) (base : Option Ino) : WalkM (Option Ino) := do
  let inode ← startDir current base
  if (splitPath pathname).1 then
    iput inode
    lift (hold current.root)
    walk current mounts followLink (splitPath pathname).2.dropLast current.root
  else
    walk current mounts followLink (splitPath pathname).2.dropLast inode

/-- `dir_namei`: the directory, and the last component. -/
def dirNamei (pathname : List UInt8) (base : Option Ino) : WalkM (Option (Ino × Name)) := do
  match ← getDir current mounts followLink pathname base with
  | none => return none
  | some dir => return some (dir, (splitPath pathname).2.getLast?.getD [])

/-- What `_namei` has found before it follows a link: nothing, a directory without a last component,
or an inode and the directory of its entry. -/
inductive Place where
  | nothing
  | directory (base : Ino)
  | entry (base inode : Ino)
  deriving DecidableEq, Repr

/-- `_namei` up to its `iget`. -/
def findPlace (pathname : List UInt8) (base : Option Ino) : WalkM Place := do
  match ← dirNamei current mounts followLink pathname base with
  | none => return .nothing
  | some (base, basename) =>
      if basename = [] then return .directory base
      match ← findEntry current base basename with
      | (base, none) =>
          iput base
          return .nothing
      | (base, some de) =>
          let fs ← get
          let inode ← iget mounts base.dev ((fs.inode base).entry de).inode
          return .entry base inode

/-- `inode->i_atime=CURRENT_TIME` and `inode->i_dirt=1`; times are left out. -/
def setAtime (inode : Option Ino) : WalkM Unit :=
  match inode with
  | none => throw .nullInode
  | some _ => return ()

/-- `_namei`. -/
def namei (pathname : List UInt8) (base : Option Ino) (followLinks : Bool) :
    WalkM (Option Ino) := do
  match ← findPlace current mounts followLink pathname base with
  | .nothing => return none
  | .directory base => return some base
  | .entry base inode =>
      if followLinks then
        let inode ← followLink base inode
        setAtime inode
        return inode
      else
        iput base
        setAtime (some inode)
        return some inode

end Follow

/-- `follow_link`, with the segment in `fs`, and at most `links` links inside one another.  Its
callers always have a directory and an inode. -/
def followLink (current : Task) (mounts : Nat) :
    (links : Nat) → (segment : UInt16) → Ino → Ino → WalkM (Option Ino)
  | links, segment, dir, inode => do
      let fs ← get
      if !(fs.inode inode).isLnk then
        iput dir
        return some inode
      if segment ≠ userSegment || !(fs.inode inode).zone 0 then
        iput dir
        iput inode
        return none
      iput inode
      match links with
      | 0 => throw .exhausted
      | links + 1 =>
          namei current mounts (followLink current mounts links kernelSegment)
            (fs.inode inode).text (some dir) false

/-- `namei` of the source, which follows a link at the end. -/
def nameiFollow (current : Task) (mounts links : Nat) (segment : UInt16)
    (pathname : List UInt8) : WalkM (Option Ino) :=
  namei current mounts (followLink current mounts links segment) pathname none true

/-- `lnamei`. -/
def lnamei (current : Task) (mounts links : Nat) (segment : UInt16) (pathname : List UInt8) :
    WalkM (Option Ino) :=
  namei current mounts (followLink current mounts links segment) pathname none false

end Linux012.Fs.PathWalk
