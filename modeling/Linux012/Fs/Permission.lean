import Linux012.Exec.Execve

/-!
# Permissions

`permission` of `namei.c`, `sys_access` of `open.c` and the test of `do_execve` each select the bits
of a file for the owner, the group or the others.
-/

namespace Linux012.Fs.Permission

/-- What is read of a task: also its real ids. -/
structure Subject extends Exec.Task where
  uid : UInt16
  gid : UInt16

/-- What is read of an inode: also its device and its links. -/
structure Inode extends Exec.Inode where
  dev : UInt16
  nlinks : UInt8

/-- `MAY_EXEC`. -/
abbrev mayExec : UInt32 := 1

def permission (current : Exec.Task) (inode : Inode) (mask : UInt32) : Bool :=
  let mode := inode.mode.toUInt32
  if inode.dev ≠ 0 ∧ inode.nlinks = 0 then false
  else
    let mode :=
      if current.euid = inode.uid then mode >>> 6
      else if current.inGroupP inode.gid then mode >>> 3
      else mode
    mode &&& mask &&& 0o007 = mask || current.suser

/-- `sys_access`, for what `namei` has found. -/
def sysAccess (current : Subject) (inode : Option Inode) (mode : UInt32) : Int :=
  let mode := mode &&& 0o007
  match inode with
  | none => Exec.eacces
  | some inode =>
      let iMode := inode.mode.toUInt32 &&& 0o777
      let res := iMode
      let res :=
        if current.uid = inode.uid then res >>> 6
        else if current.gid = inode.gid.toUInt16 then res >>> 6
        else res
      if res &&& 0o007 &&& mode = mode then 0
      else if current.uid = 0 ∧ (mode &&& 1 = 0 ∨ iMode &&& 0o111 ≠ 0) then 0
      else Exec.eacces

/-! ## The bits that are selected -/

/-- The three bits of a mode from a bit on. -/
def triple (mode : UInt16) (bit : UInt32) : UInt32 := mode.toUInt32 >>> bit &&& 0o007

/-- The bits that `permission` and `do_execve` look at. -/
def selected (current : Exec.Task) (inode : Inode) : UInt32 :=
  if current.euid = inode.uid then triple inode.mode 6
  else if current.inGroupP inode.gid then triple inode.mode 3
  else triple inode.mode 0

/-- The bits that `sys_access` looks at. -/
def accessed (current : Subject) (inode : Inode) : UInt32 :=
  if current.uid = inode.uid then triple inode.mode 6
  else if current.gid = inode.gid.toUInt16 then triple inode.mode 6
  else triple inode.mode 0

theorem and_mask (word : UInt32) (bits : Nat) (small : bits < 32) :
    (word &&& UInt32.ofNat (2 ^ bits - 1)).toNat = word.toNat % 2 ^ bits := by
  have le : 2 ^ bits ≤ 2 ^ 31 := Nat.pow_le_pow_right (by decide) (by omega)
  have inWord : (2 ^ bits - 1) % 2 ^ 32 = 2 ^ bits - 1 := Nat.mod_eq_of_lt (by omega)
  rw [UInt32.toNat_and, UInt32.toNat_ofNat', inWord]
  exact Nat.and_two_pow_sub_one_eq_mod _ _

theorem triple_toNat {mode : UInt16} {bit : UInt32} (small : bit.toNat < 32) :
    (triple mode bit).toNat = mode.toNat / 2 ^ bit.toNat % 8 := by
  have seven := and_mask (mode.toUInt32 >>> bit) 3 (by decide)
  change (triple mode bit).toNat = _ at seven
  rw [seven, UInt32.toNat_shiftRight, Nat.mod_eq_of_lt small, Nat.shiftRight_eq_div_pow,
    UInt16.toNat_toUInt32]
  rfl

/-- `0777` cuts off nothing of the three bits. -/
theorem triple_of_res (mode : UInt16) {bit : UInt32} (isBit : bit = 6 ∨ bit = 0) :
    (mode.toUInt32 &&& 0o777) >>> bit &&& 0o007 = triple mode bit := by
  have seven := and_mask ((mode.toUInt32 &&& 0o777) >>> bit) 3 (by decide)
  have mask := and_mask mode.toUInt32 9 (by decide)
  change ((mode.toUInt32 &&& 0o777) >>> bit &&& 0o007).toNat = _ at seven
  change (mode.toUInt32 &&& 0o777).toNat = _ at mask
  rw [UInt16.toNat_toUInt32] at mask
  apply UInt32.toNat.inj
  rcases isBit with rfl | rfl
  · have shift : (UInt32.toNat 6) % 32 = 6 := rfl
    rw [triple_toNat (by decide), seven, UInt32.toNat_shiftRight, shift,
      Nat.shiftRight_eq_div_pow, mask]
    simp only [UInt32.reduceToNat]
    omega
  · have shift : (UInt32.toNat 0) % 32 = 0 := rfl
    rw [triple_toNat (by decide), seven, UInt32.toNat_shiftRight, shift,
      Nat.shiftRight_eq_div_pow, mask]
    simp only [UInt32.reduceToNat]
    omega

theorem shiftRight_zero (word : UInt32) : word >>> 0 = word := by
  apply UInt32.toNat.inj
  have shift : (UInt32.toNat 0) % 32 = 0 := rfl
  rw [UInt32.toNat_shiftRight, shift, Nat.shiftRight_zero]

section Checks

variable {current : Subject} {inode : Inode}

/-- The mask is that of three bits in both checks. -/
theorem covers_iff (word mode : UInt32) :
    word &&& (mode &&& 0o007) &&& 0o007 = mode &&& 0o007 ↔
      word &&& 0o007 &&& (mode &&& 0o007) = mode &&& 0o007 := by
  rw [UInt32.and_assoc, UInt32.and_comm (mode &&& 0o007), ← UInt32.and_assoc]

theorem permission_iff (links : inode.nlinks ≠ 0) (notRoot : current.euid ≠ 0) (mode : UInt32) :
    permission current.toTask inode (mode &&& 0o007) = true ↔
      selected current.toTask inode &&& (mode &&& 0o007) = mode &&& 0o007 := by
  have notSuper : current.suser = false := decide_eq_false notRoot
  rw [permission, if_neg fun deleted => links deleted.2, notSuper, Bool.or_false, decide_eq_true_iff,
    covers_iff, selected]
  have others : triple inode.mode 0 = inode.mode.toUInt32 &&& 0o007 := by
    rw [triple, shiftRight_zero]
  rw [others]
  split
  · rfl
  · split <;> rfl

theorem sysAccess_iff (notRoot : current.uid ≠ 0) (mode : UInt32) :
    sysAccess current (some inode) mode = 0 ↔
      accessed current inode &&& (mode &&& 0o007) = mode &&& 0o007 := by
  have isAccessed : (if current.uid = inode.uid then (inode.mode.toUInt32 &&& 0o777) >>> 6
      else if current.gid = inode.gid.toUInt16 then (inode.mode.toUInt32 &&& 0o777) >>> 6
      else inode.mode.toUInt32 &&& 0o777) &&& 0o007 = accessed current inode := by
    have others : (inode.mode.toUInt32 &&& 0o777) >>> 0 &&& 0o007 = triple inode.mode 0 :=
      triple_of_res inode.mode (.inr rfl)
    rw [shiftRight_zero] at others
    rw [accessed, ← triple_of_res inode.mode (.inl rfl), ← others]
    split
    · rfl
    · split <;> rfl
  rw [sysAccess, isAccessed]
  split
  next covers => exact iff_of_true rfl covers
  next covers =>
    rw [if_neg fun root => notRoot root.1]
    exact iff_of_false (by decide) covers

theorem lowest_iff (mode : UInt16) {bit : UInt32} {shift : UInt16} (isBit : bit.toNat < 16)
    (same : shift.toNat = bit.toNat) : mode >>> shift &&& 1 ≠ 0 ↔ triple mode bit &&& 1 = 1 := by
  have one := and_mask (triple mode bit) 1 (by decide)
  change (triple mode bit &&& 1).toNat = _ at one
  rw [triple_toNat (by omega)] at one
  have low : (mode >>> shift &&& 1).toNat = mode.toNat / 2 ^ bit.toNat % 2 := by
    rw [UInt16.toNat_and, UInt16.toNat_shiftRight, same, Nat.mod_eq_of_lt isBit,
      Nat.shiftRight_eq_div_pow]
    exact Nat.and_two_pow_sub_one_eq_mod _ 1
  rw [Ne, ← UInt16.toNat_inj, ← UInt32.toNat_inj, one, low]
  simp only [UInt16.toNat_zero, UInt32.toNat_one]
  omega

/-- The execute permission is the lowest of the bits. -/
theorem mayExecute_iff (notRoot : current.euid ≠ 0) :
    current.mayExecute inode.toInode = true ↔ selected current.toTask inode &&& 1 = 1 := by
  have notSuper : current.suser = false := decide_eq_false notRoot
  have unshifted : inode.mode >>> 0 = inode.mode := by
    apply UInt16.toNat.inj
    rw [UInt16.toNat_shiftRight]
    rfl
  have others : inode.mode >>> 0 &&& 1 ≠ 0 ↔ triple inode.mode 0 &&& 1 = 1 :=
    lowest_iff inode.mode (by decide) rfl
  rw [unshifted] at others
  rw [Exec.Task.mayExecute, notSuper, Bool.and_false, Bool.or_false, decide_eq_true_iff, selected]
  split
  · exact lowest_iff inode.mode (by decide) rfl
  · split
    · exact lowest_iff inode.mode (by decide) rfl
    · exact others

end Checks

/-! ## Agreement -/

/-- `sys_access` grants what `permission` allows, and so does the test of `do_execve` for a regular
file. -/
def Agree (current : Subject) (inode : Inode) : Prop :=
  (∀ mode, sysAccess current (some inode) mode = 0 ↔
    permission current.toTask inode (mode &&& 0o007) = true) ∧
  (inode.isReg = true → (current.mayExecute inode.toInode = true ↔
    permission current.toTask inode mayExec = true))

/-- The bits of the owner stand in for those of the group, or those of the others do. -/
def SameBits (current : Subject) (inode : Inode) : Prop :=
  current.uid = inode.uid ∨ current.inGroupP inode.gid = false ∨
    if current.gid = inode.gid.toUInt16 then triple inode.mode 6 = triple inode.mode 3
    else triple inode.mode 0 = triple inode.mode 3

/-- Three bits are known by the masks that they cover. -/
theorem eq_of_covers {first second : UInt32} (firstBits : first &&& 0o007 = first)
    (secondBits : second &&& 0o007 = second)
    (covers : ∀ mode, first &&& (mode &&& 0o007) = mode &&& 0o007 ↔
      second &&& (mode &&& 0o007) = mode &&& 0o007) : first = second := by
  have forth := (covers first).mp (by rw [firstBits, UInt32.and_self])
  have back := (covers second).mpr (by rw [secondBits, UInt32.and_self])
  rw [firstBits] at forth
  rw [secondBits] at back
  rw [← forth, UInt32.and_comm, back]

theorem triple_bits (mode : UInt16) (bit : UInt32) : triple mode bit &&& 0o007 = triple mode bit := by
  rw [triple, UInt32.and_assoc, UInt32.and_self]

section Agreement

variable {current : Subject} {inode : Inode}

theorem selected_bits : selected current.toTask inode &&& 0o007 = selected current.toTask inode := by
  unfold selected
  split
  · exact triple_bits _ _
  · split <;> exact triple_bits _ _

theorem accessed_bits : accessed current inode &&& 0o007 = accessed current inode := by
  unfold accessed
  split
  · exact triple_bits _ _
  · split <;> exact triple_bits _ _

theorem accessed_eq_iff (sameUid : current.uid = current.euid) (sameGid : current.gid = current.egid) :
    accessed current inode = selected current.toTask inode ↔ SameBits current inode := by
  rw [accessed, selected, SameBits, ← sameUid]
  by_cases isOwner : current.uid = inode.uid
  · rw [if_pos isOwner, if_pos isOwner]
    exact iff_of_true rfl (.inl isOwner)
  rw [if_neg isOwner, if_neg isOwner]
  have inGroup (isGroup : current.gid = inode.gid.toUInt16) :
      current.inGroupP inode.gid = true := by
    rw [Exec.Task.inGroupP, ← sameGid, isGroup, UInt8.toNat_toUInt16]
    simp
  by_cases isGroup : current.gid = inode.gid.toUInt16
  · rw [if_pos isGroup, if_pos isGroup, if_pos (inGroup isGroup), inGroup isGroup]
    simp [isOwner]
  · rw [if_neg isGroup, if_neg isGroup]
    cases current.inGroupP inode.gid with
    | false => simp
    | true => simp [isOwner]

/-- The three checks agree exactly when the bits of the group do not matter. -/
theorem agree_iff (links : inode.nlinks ≠ 0) (notRoot : current.euid ≠ 0)
    (sameUid : current.uid = current.euid) (sameGid : current.gid = current.egid) :
    Agree current inode ↔ SameBits current inode := by
  rw [← accessed_eq_iff sameUid sameGid]
  have notRootUid : current.uid ≠ 0 := by rw [sameUid]; exact notRoot
  constructor
  · rintro ⟨agree, _⟩
    refine eq_of_covers accessed_bits selected_bits fun mode => ?_
    rw [← sysAccess_iff notRootUid, ← permission_iff links notRoot]
    exact agree mode
  · intro same
    refine ⟨fun mode => ?_, fun _ => ?_⟩
    · rw [sysAccess_iff notRootUid, permission_iff links notRoot, same]
    · rw [mayExecute_iff notRoot]
      exact (permission_iff links notRoot 1).symm

end Agreement

/-! ## A file of the group -/

/-- `-rw-r-----`, of the user 1 and the group 5. -/
def groupFile : Inode where
  mode := 0o100640
  uid := 1
  gid := 5
  size := 0
  firstBlock := none
  dev := 0x301
  nlinks := 1

/-- A user of the group 5. -/
def member : Subject where
  executable := none
  signal := 0
  sigaction := []
  closeOnExec := 0
  filp := fun _ => none
  usedMath := false
  lastUsedMath := false
  endCode := 0
  endData := 0
  brk := 0
  startStack := 0
  euid := 2
  suid := 2
  egid := 5
  sgid := 5
  groups := []
  uid := 2
  gid := 5

theorem agree_iff_member : Agree member groupFile ↔ SameBits member groupFile :=
  agree_iff (by decide) (by decide) rfl rfl

/-- `sys_access` grants writing, with the bits of the owner. -/
theorem not_agree_member : ¬Agree member groupFile := by
  rintro ⟨agree, _⟩
  have writes := (agree 2).mp (by decide)
  exact absurd writes (by decide)

end Linux012.Fs.Permission
