import Linux012.Zones.Calls
import Linux012.Zones.Slots

/-!
# Creating names under any schedule

`sys_mkdir`, `sys_mknod`, `sys_symlink`, `sys_link` and `open_namei` with `O_CREAT`, of any
number of tasks that have come to the same directory, cut at the places where they can
sleep: `getblk`, `bread` and `brelse`, `new_inode`, and the page faults of `get_fs_byte` and
of `match`.  Each of these places counts as one where other tasks run, and so does each round
of a loop.

Of a new inode only its number, its size and its first block are here; what a device node
holds in `i_zone[0]` is no block.
-/

namespace Linux012.Zones.Creates

/-- `NR_TASKS`. -/
abbrev nrTasks : Nat := 64

/-! ## From block to block -/

/-- The way of `find_entry` and `add_entry` to block `n` of the directory. -/
inductive Walk where
  /-- At `i_zone[0]`. -/
  | first
  /-- `getblk` in `bread` of the block. -/
  | getting (zone n : Nat)
  /-- `bread` with a reference to the block. -/
  | reading (zone n : Nat)
  /-- `brelse` of the block before. -/
  | leaving (zone n : Nat)
  /-- `bmap` or `create_block`. -/
  | mapping (b : Bmap) (wait : BmapWait) (n : Nat)
  /-- At the block, without a buffer. -/
  | skipped (n : Nat)
  deriving DecidableEq

inductive WalkOutcome where
  | goes (walk : Walk)
  /-- There is a reference to the block. -/
  | arrives (zone n : Nat)
  /-- The search is over, or there is no block to add to. -/
  | ends

namespace Walk

variable (s : Shared) (task dir : Nat) (limit : Option Nat)

def mapped (n : Nat) : Shared × BmapOutcome → Shared × WalkOutcome
  | (s, .sleeps b wait) => (s, .goes (.mapping b wait n))
  | (s, .returns 0) => (s, if limit.isNone then .ends else .goes (.skipped (n + 1)))
  | (s, .returns zone) => (s, .goes (.getting zone n))

/-- `bmap` for `find_entry`, which stops at a limit, and `create_block` for `add_entry`. -/
def map (n : Nat) : Option (Shared × WalkOutcome) :=
  (Bmap.start s task limit.isNone dir n).map (mapped limit n)

def resume (ok : Bool) : Walk → Option (Shared × WalkOutcome)
  | .first =>
      match s.device.iZone dir 0 with
      | 0 => some (s, .ends)
      | zone => some (s, .goes (.getting zone 0))
  | .getting zone n => some (s.take task zone, .goes (.reading zone n))
  | .reading zone n =>
      if ok then some (s, .arrives zone n)
      else some (s.drop task zone, if n = 0 then .ends else .goes (.skipped (n + 1)))
  | .leaving zone n => map (s.drop task zone) task dir limit n
  | .mapping b wait n => (b.resume s task ok wait).map (mapped limit n)
  | .skipped n =>
      match limit with
      | some entries =>
          if entries ≤ entriesPerBlock * n then some (s, .ends) else map s task dir limit n
      | none => map s task dir limit n

end Walk

/-! ## The calls -/

inductive Kind where
  | mkdir | mknod | symlink | link | openCreat
  deriving DecidableEq

/-- Where a call is. -/
inductive Phase where
  /-- At the beginning of `find_entry`. -/
  | searching
  | finding (entries : Nat) (walk : Walk)
  /-- `find_entry` at entry `j` of block `n`. -/
  | looking (entries zone n j : Nat)
  /-- `match` of the entry, after `c` bytes. -/
  | matching (entries zone n j c : Nat)
  /-- `brelse` at the end of `find_entry` without an entry. -/
  | missing (entries zone : Nat)
  /-- `brelse` with an entry. -/
  | found (zone : Nat)
  /-- `permission` and `new_inode`. -/
  | makingInode
  /-- `new_block` for the new inode. -/
  | makingBlock
  /-- `getblk` in `new_block`. -/
  | clearing (zone : Nat)
  /-- `getblk` in `bread` of the new block. -/
  | getting (zone : Nat)
  /-- `bread` with a reference to the new block. -/
  | reading (zone : Nat)
  /-- Bytes are left to be stored in the new block. -/
  | filling (zone : Nat) (writes : List (Nat × UInt8))
  | adding (walk : Walk)
  /-- `add_entry` at entry `j` of block `n`. -/
  | choosing (zone n j : Nat)
  /-- `add_entry` has copied `c` bytes of the name. -/
  | copying (zone n j c : Nat)
  /-- `brelse` after the entry is made. -/
  | releasing (zone : Nat)
  /-- `iput` of an inode without a name; `truncates` says whether its mode is set. -/
  | undoing (truncates : Bool)
  /-- `free_block` with a reference to the block of the inode. -/
  | freeing (zone : Nat)
  deriving DecidableEq

/-- A call with the name that it makes, up to 14 bytes, and the name that `find_entry` looks
for; `inr` is the number of its inode, and `text` what a symbolic link holds. -/
structure Call where
  kind : Kind
  name : List UInt8
  lookup : List UInt8
  inr : Nat
  text : List UInt8
  phase : Phase
  deriving DecidableEq

/-- An entry that a call has made. -/
structure Made where
  slot : Nat
  name : List UInt8
  inr : Nat

/-- The bitmap of the inodes. -/
structure InodeMap where
  imapBits : Nat
  sNinodes : Nat
  ninodes_lt : sNinodes < 65536
  imap : Nat → Bool

/-- `made` is not known to the code. -/
structure System extends Shared where
  inodes : InodeMap
  made : List Made
  call : Nat → Option Call

inductive Action where
  /-- A call comes to the directory; `root` says whether it is the root of the task. -/
  | create (task : Nat) (kind : Kind) (basename : List UInt8) (root : Bool) (inr : Nat)
      (text : List UInt8)
  /-- A task goes on; `ok` says whether what it waited for was done. -/
  | resume (task : Nat) (ok : Bool)

/-- What is left of a call, and what it did to the inodes. -/
structure Outcome where
  shared : Shared
  inodes : InodeMap
  made : List Made
  call : Option Call

/-- The dot of `.` and `..`. -/
abbrev dot : UInt8 := 46

namespace Call

variable (call : Call) (s : System) (task dir : Nat)

/-- `find_entry` came to the end. -/
def notFound : Call :=
  match call.kind with
  | .symlink | .link => { call with phase := .adding .first }
  | .mkdir | .mknod | .openCreat => { call with phase := .makingInode }

/-- The new inode has what it holds. -/
def prepared : Call :=
  match call.kind with
  | .symlink => { call with phase := .searching }
  | .mkdir | .mknod | .openCreat | .link => { call with phase := .adding .first }

/-- A call without an entry returns, or gives its inode back. -/
def fail : Option Call :=
  match call.kind with
  | .link => none
  | .mkdir | .mknod | .symlink | .openCreat => some { call with phase := .undoing true }

/-- What is stored in the block of a new inode. -/
def writes : List (Nat × UInt8) :=
  match call.kind with
  | .mkdir =>
      [(0, UInt8.ofNat call.inr), (1, UInt8.ofNat (call.inr / 256)), (2, dot), (3, 0),
        (16, UInt8.ofNat dir), (17, UInt8.ofNat (dir / 256)), (18, dot), (19, dot), (20, 0)]
  | .symlink => ((call.text.takeWhile (· ≠ 0)).take 1023 ++ [0]).zipIdx.map Prod.swap
  | .mknod | .link | .openCreat => []

def finds (entries : Nat) : Shared × WalkOutcome → Shared × Option Call
  | (s, .goes walk) => (s, some { call with phase := .finding entries walk })
  | (s, .arrives zone n) => (s, some { call with phase := .looking entries zone n 0 })
  | (s, .ends) => (s, some call.notFound)

def adds : Shared × WalkOutcome → Shared × Option Call
  | (s, .goes walk) => (s, some { call with phase := .adding walk })
  | (s, .arrives zone n) => (s, some { call with phase := .choosing zone n 0 })
  | (s, .ends) => (s, call.fail)

/-- A step that leaves the inodes and makes no entry. -/
def leaves (result : Shared × Option Call) : Outcome := ⟨result.1, s.inodes, s.made, result.2⟩

/-- `new_inode`. -/
def newInode : Outcome :=
  match Device.findFirstZero s.inodes.imap s.inodes.imapBits 0 with
  | none => leaves s (s.toShared, none)
  | some inr =>
      if inr > s.inodes.sNinodes then leaves s (s.toShared, none)
      else
        let size := if call.kind = .mkdir then 32 else 0
        let device := { s.device with
          iZone := Function.update s.device.iZone inr fun _ => 0
          iSize := Function.update s.device.iSize inr size }
        let call := { call with inr := inr }
        { shared := { s.toShared with device := device }
          inodes := { s.inodes with imap := Function.update s.inodes.imap inr true }
          made := s.made
          call := match call.kind with
            | .mkdir | .symlink => some { call with phase := .makingBlock }
            | .mknod | .openCreat | .link => some call.prepared }

/-- The loop of `find_entry` at an entry. -/
def look (entries zone n j : Nat) : Call :=
  if entries ≤ entriesPerBlock * n + j then { call with phase := .missing entries zone }
  else if j = entriesPerBlock then
    { call with phase := .finding entries (.leaving zone (n + 1)) }
  else if s.device.deInode zone j = 0 ∨ call.lookup.length < nameLen ∧
      s.device.deName zone j call.lookup.length ≠ 0 then
    { call with phase := .looking entries zone n (j + 1) }
  else { call with phase := .matching entries zone n j 0 }

/-- The loop of `add_entry` at an entry. -/
def choose (zone n j : Nat) : Shared × Option Call :=
  if j = entriesPerBlock then
    (s.toShared, some { call with phase := .adding (.leaving zone (n + 1)) })
  else
    let k := entriesPerBlock * n + j
    let device :=
      if 16 * k ≥ s.device.iSize dir then
        (s.device.setDeInode zone j 0).setSize dir (16 * (k + 1))
      else s.device
    let phase := if device.deInode zone j = 0 then .copying zone n j 0 else .choosing zone n (j + 1)
    ({ s.toShared with device := device }, some { call with phase := phase })

/-- The loop of `add_entry` over the name, and the number of the inode at last. -/
def copy (zone n j c : Nat) : Outcome :=
  if c < nameLen then
    leaves s ({ s.toShared with
      device := s.device.setDeName zone j c (call.name.getD c 0) },
      some { call with phase := .copying zone n j (c + 1) })
  else
    { shared := { s.toShared with device := s.device.setDeInode zone j call.inr }
      inodes := s.inodes
      made := ⟨entriesPerBlock * n + j, call.name, call.inr⟩ :: s.made
      call := some { call with phase := .releasing zone } }

/-- `iput` of an inode without a name, up to `free_block`. -/
def undo (truncates : Bool) : Option Outcome :=
  let zone := s.device.iZone call.inr 0
  if zone = 0 ∨ truncates = false then
    some { shared := s.toShared
           inodes := { s.inodes with imap := Function.update s.inodes.imap call.inr false }
           made := s.made
           call := none }
  else if s.device.InZones zone then
    some (leaves s (s.take task zone, some { call with phase := .freeing zone }))
  else none -- "trying to free block not in datazone"

/-- A call goes on; none is left when it returns. -/
def resume (ok : Bool) : Option Outcome :=
  match call.phase with
  | .searching =>
      let entries := s.device.iSize dir / 16
      some (leaves s (s.toShared, some { call with phase := .finding entries .first }))
  | .finding entries walk =>
      (walk.resume s.toShared task dir (some entries) ok).map fun result =>
        leaves s (call.finds entries result)
  | .looking entries zone n j => some (leaves s (s.toShared, some (call.look s entries zone n j)))
  | .matching entries zone n j c =>
      match call.lookup[c]? with
      | none => some (leaves s (s.toShared, some { call with phase := .found zone }))
      | some byte =>
          let phase :=
            if s.device.deName zone j c = byte then .matching entries zone n j (c + 1)
            else .looking entries zone n (j + 1)
          some (leaves s (s.toShared, some { call with phase := phase }))
  | .missing _ zone => some (leaves s (s.drop task zone, some call.notFound))
  | .found zone =>
      some (leaves s (s.drop task zone, if call.kind = .symlink then call.fail else none))
  | .makingInode => some (if ok then call.newInode s else leaves s (s.toShared, none))
  | .makingBlock =>
      match s.takeZone task with
      | (shared, 0) => some (leaves s (shared, call.fail))
      | (shared, zone) => some (leaves s (shared, some { call with phase := .clearing zone }))
  | .clearing zone =>
      if s.bCount zone = 0 then
        some (leaves s (s.store call.inr 0 (.zone call.inr 0) zone,
          some { call with phase := .getting zone }))
      else none -- "new block: count is != 1"
  | .getting zone => some (leaves s (s.take task zone, some { call with phase := .reading zone }))
  | .reading zone =>
      if ok then
        some (leaves s (s.toShared, some { call with phase := .filling zone (call.writes dir) }))
      else
        -- the mode of a new directory is not yet set
        let truncates := call.kind ≠ .mkdir
        some (leaves s (s.drop task zone, some { call with phase := .undoing truncates }))
  | .filling zone [] =>
      let size := if call.kind = .symlink then (call.writes dir).length - 1
        else s.device.iSize call.inr
      let dropped := s.drop task zone
      some (leaves s ({ dropped with device := dropped.device.setSize call.inr size },
        some call.prepared))
  | .filling zone ((offset, byte) :: writes) =>
      some (leaves s ({ s.toShared with device := s.device.setByte zone offset byte },
        some { call with phase := .filling zone writes }))
  | .adding walk =>
      (walk.resume s.toShared task dir none ok).map fun result => leaves s (call.adds result)
  | .choosing zone n j => some (leaves s (call.choose s dir zone n j))
  | .copying zone n j c => some (call.copy s zone n j c)
  | .releasing zone => some (leaves s (s.drop task zone, none))
  | .undoing truncates => call.undo s task truncates
  | .freeing zone =>
      if s.bCount zone > 1 then
        some (leaves s (s.drop task zone, some { call with phase := .undoing true }))
      else
        some (leaves s ((s.drop task zone).free (.zone call.inr 0) zone,
          some { call with phase := .undoing true }))

end Call

namespace System

variable (s : System)

def withCall (task : Nat) (outcome : Outcome) : System :=
  ⟨outcome.shared, outcome.inodes, outcome.made, Function.update s.call task outcome.call⟩

/-- `..` in a root is looked for as `.`. -/
def lookupOf (root : Bool) (name : List UInt8) : List UInt8 :=
  if root = true ∧ name = [dot, dot] then [dot] else name

def step (dir : Nat) (s : System) : Action → Option System
  | .create task kind basename root inr text =>
      let name := basename.take nameLen
      -- the base name ends at a NUL, and an empty one is refused
      if task < nrTasks ∧ s.call task = none ∧ basename ≠ [] ∧ 0 ∉ basename ∧
          (kind = .link → 0 < inr ∧ inr < 65536) then
        let phase := if kind = .symlink then .makingInode else .searching
        some (s.withCall task ⟨s.toShared, s.inodes, s.made,
          some ⟨kind, name, lookupOf root name, inr, text, phase⟩⟩)
      else none
  | .resume task ok =>
      match s.call task with
      | none => none
      | some call => (call.resume s task dir ok).map (s.withCall task)

end System

end Linux012.Zones.Creates
