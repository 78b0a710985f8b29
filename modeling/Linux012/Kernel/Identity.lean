import Mathlib.Data.UInt
import Mathlib.Data.List.Basic
import Mathlib.Algebra.Group.Nat.Defs
import Mathlib.Algebra.Group.Int.Defs
import Linux012.Lib.Sizes

/-!
# The ids of a task

`sys_setregid`, `sys_setgid`, `sys_setreuid` and `sys_setuid` of `sys.c`.  The six ids have
16 bits, and the arguments are any `int`.
-/

namespace Linux012.Kernel.Identity

/-- The ids in `struct task_struct`. -/
structure Ids where
  uid : UInt16
  euid : UInt16
  suid : UInt16
  gid : UInt16
  egid : UInt16
  sgid : UInt16
  deriving DecidableEq, Repr

/-- `suser()`. -/
def Ids.suser (ids : Ids) : Bool := ids.euid == 0

/-- `-EPERM`. -/
abbrev eperm : Int := -1

/-- An id compared with an `int`. -/
def IsId (id : UInt16) (arg : Int) : Prop := (id.toNat : Int) = arg

instance (id : UInt16) (arg : Int) : Decidable (IsId id arg) :=
  inferInstanceAs (Decidable (_ = _))

def sysSetregid (ids : Ids) (rgid egid : Int) : Ids × Int :=
  if 0 < rgid ∧ ¬(IsId ids.gid rgid ∨ ids.suser) then (ids, eperm)
  else
    let ids := if 0 < rgid then { ids with gid := UInt16.ofInt rgid } else ids
    if 0 < egid then
      if IsId ids.gid egid ∨ IsId ids.egid egid ∨ ids.suser then
        ({ ids with egid := UInt16.ofInt egid, sgid := UInt16.ofInt egid }, 0)
      else (ids, eperm)
    else (ids, 0)

def sysSetgid (ids : Ids) (gid : Int) : Ids × Int :=
  if ids.suser then
    let id := UInt16.ofInt gid
    ({ ids with gid := id, egid := id, sgid := id }, 0)
  else if IsId ids.gid gid ∨ IsId ids.sgid gid then
    ({ ids with egid := UInt16.ofInt gid }, 0)
  else (ids, eperm)

def sysSetreuid (ids : Ids) (ruid euid : Int) : Ids × Int :=
  let oldRuid := ids.uid
  if 0 < ruid ∧ ¬(IsId ids.euid ruid ∨ IsId oldRuid ruid ∨ ids.suser) then (ids, eperm)
  else
    let ids := if 0 < ruid then { ids with uid := UInt16.ofInt ruid } else ids
    if 0 < euid then
      if IsId oldRuid euid ∨ IsId ids.euid euid ∨ ids.suser then
        ({ ids with euid := UInt16.ofInt euid, suid := UInt16.ofInt euid }, 0)
      else ({ ids with uid := oldRuid }, eperm)
    else (ids, 0)

def sysSetuid (ids : Ids) (uid : Int) : Ids × Int :=
  if ids.suser then
    let id := UInt16.ofInt uid
    ({ ids with uid := id, euid := id, suid := id }, 0)
  else if IsId ids.uid uid ∨ IsId ids.suid uid then
    ({ ids with euid := UInt16.ofInt uid }, 0)
  else (ids, eperm)

inductive Call where
  | setregid (rgid egid : Int)
  | setgid (gid : Int)
  | setreuid (ruid euid : Int)
  | setuid (uid : Int)
  deriving DecidableEq, Repr

/-- The ids behind a call, and what it returns. -/
def Call.run (call : Call) (ids : Ids) : Ids × Int :=
  match call with
  | .setregid rgid egid => sysSetregid ids rgid egid
  | .setgid gid => sysSetgid ids gid
  | .setreuid ruid euid => sysSetreuid ids ruid euid
  | .setuid uid => sysSetuid ids uid

/-- The ids behind some calls. -/
def after (ids : Ids) (calls : List Call) : Ids :=
  calls.foldl (fun ids call => (call.run ids).1) ids

/-! ## One call -/

def Ids.users (ids : Ids) : List UInt16 := [ids.uid, ids.euid, ids.suid]

def Ids.groups (ids : Ids) : List UInt16 := [ids.gid, ids.egid, ids.sgid]

/-- What a task without privilege may have got from other ids. -/
structure Within (ids start : Ids) : Prop where
  users : ids.users ⊆ start.users
  groups : ids.groups ⊆ start.groups

theorem Within.refl (ids : Ids) : Within ids ids :=
  ⟨List.Subset.refl _, List.Subset.refl _⟩

theorem Within.trans {ids middle start : Ids} (first : Within ids middle)
    (second : Within middle start) : Within ids start :=
  ⟨List.Subset.trans first.users second.users, List.Subset.trans first.groups second.groups⟩

/-- An argument that is an id is stored as this id. -/
theorem IsId.ofInt_eq {id : UInt16} {arg : Int} (isId : IsId id arg) :
    UInt16.ofInt arg = id := by
  rw [IsId] at isId
  subst isId
  have small : ((id.toNat : Int) % 2 ^ 16).toNat = id.toNat := by
    have below := id.toNat_lt
    omega
  rw [UInt16.ofInt, small, UInt16.ofNat_toNat]

namespace Ids

variable (ids : Ids)

theorem uid_mem : ids.uid ∈ ids.users := List.mem_cons_self

theorem euid_mem : ids.euid ∈ ids.users := List.mem_cons_of_mem _ List.mem_cons_self

theorem suid_mem : ids.suid ∈ ids.users :=
  List.mem_cons_of_mem _ (List.mem_cons_of_mem _ List.mem_cons_self)

theorem gid_mem : ids.gid ∈ ids.groups := List.mem_cons_self

theorem egid_mem : ids.egid ∈ ids.groups := List.mem_cons_of_mem _ List.mem_cons_self

theorem sgid_mem : ids.sgid ∈ ids.groups :=
  List.mem_cons_of_mem _ (List.mem_cons_of_mem _ List.mem_cons_self)

end Ids

/-- The user ids change within what they were. -/
theorem Within.of_users {ids : Ids} {uid euid suid : UInt16} (uidMem : uid ∈ ids.users)
    (euidMem : euid ∈ ids.users) (suidMem : suid ∈ ids.users) :
    Within { ids with uid := uid, euid := euid, suid := suid } ids where
  users id member := by
    simp only [Ids.users, List.mem_cons, List.not_mem_nil, or_false] at member
    rcases member with rfl | rfl | rfl
    · exact uidMem
    · exact euidMem
    · exact suidMem
  groups := List.Subset.refl _

/-- The group ids change within what they were. -/
theorem Within.of_groups {ids : Ids} {gid egid sgid : UInt16} (gidMem : gid ∈ ids.groups)
    (egidMem : egid ∈ ids.groups) (sgidMem : sgid ∈ ids.groups) :
    Within { ids with gid := gid, egid := egid, sgid := sgid } ids where
  users := List.Subset.refl _
  groups id member := by
    simp only [Ids.groups, List.mem_cons, List.not_mem_nil, or_false] at member
    rcases member with rfl | rfl | rfl
    · exact gidMem
    · exact egidMem
    · exact sgidMem

/-- What a call without privilege does: the ids stay within what they were, and stay as they
were where it fails. -/
structure Keeps (ids : Ids) (result : Ids × Int) : Prop where
  within : Within result.1 ids
  failed : result.2 = eperm → result.1 = ids

theorem Keeps.unchanged {ids : Ids} {value : Int} : Keeps ids (ids, value) :=
  ⟨.refl ids, fun _ => rfl⟩

variable {ids : Ids}

theorem keeps_sysSetregid (rgid egid : Int) (notRoot : ids.suser = false) :
    Keeps ids (sysSetregid ids rgid egid) := by
  simp only [sysSetregid, notRoot, Bool.false_eq_true, or_false]
  split
  next => exact .unchanged
  next admitted =>
    -- the real id is set to what it is
    have same : (if 0 < rgid then { ids with gid := UInt16.ofInt rgid } else ids) = ids := by
      split
      next positive =>
        have isGid : IsId ids.gid rgid := by_contra fun differs => admitted ⟨positive, differs⟩
        rw [isGid.ofInt_eq]
      next => rfl
    rw [same]
    simp only [notRoot, Bool.false_eq_true, or_false]
    split
    next =>
      split
      next isOwn =>
        have member : UInt16.ofInt egid ∈ ids.groups := by
          rcases isOwn with isGid | isEgid
          · exact isGid.ofInt_eq ▸ ids.gid_mem
          · exact isEgid.ofInt_eq ▸ ids.egid_mem
        exact ⟨Within.of_groups ids.gid_mem member member, nofun⟩
      next => exact .unchanged
    next => exact .unchanged

theorem keeps_sysSetgid (gid : Int) (notRoot : ids.suser = false) :
    Keeps ids (sysSetgid ids gid) := by
  simp only [sysSetgid, notRoot, Bool.false_eq_true, if_false]
  split
  next isOwn =>
    have member : UInt16.ofInt gid ∈ ids.groups := by
      rcases isOwn with isGid | isSgid
      · exact isGid.ofInt_eq ▸ ids.gid_mem
      · exact isSgid.ofInt_eq ▸ ids.sgid_mem
    exact ⟨Within.of_groups ids.gid_mem member ids.sgid_mem, nofun⟩
  next => exact .unchanged

theorem keeps_sysSetreuid (ruid euid : Int) (notRoot : ids.suser = false) :
    Keeps ids (sysSetreuid ids ruid euid) := by
  simp only [sysSetreuid, notRoot, Bool.false_eq_true, or_false]
  split
  next => exact .unchanged
  next admitted =>
    obtain ⟨uid, member, isReal⟩ : ∃ uid ∈ ids.users,
        (if 0 < ruid then { ids with uid := UInt16.ofInt ruid } else ids) =
          { ids with uid := uid } := by
      split
      next positive =>
        have isOwn : IsId ids.euid ruid ∨ IsId ids.uid ruid :=
          by_contra fun differs => admitted ⟨positive, differs⟩
        refine ⟨_, ?_, rfl⟩
        rcases isOwn with isEuid | isUid
        · exact isEuid.ofInt_eq ▸ ids.euid_mem
        · exact isUid.ofInt_eq ▸ ids.uid_mem
      next => exact ⟨ids.uid, ids.uid_mem, rfl⟩
    rw [isReal]
    have stillNot : Ids.suser { ids with uid := uid } = false := notRoot
    simp only [stillNot, Bool.false_eq_true, or_false]
    split
    next =>
      split
      next isOwn =>
        have effective : UInt16.ofInt euid ∈ ids.users := by
          rcases isOwn with isUid | isEuid
          · exact isUid.ofInt_eq ▸ ids.uid_mem
          · exact isEuid.ofInt_eq ▸ ids.euid_mem
        exact ⟨Within.of_users member effective effective, nofun⟩
      next => exact ⟨.refl ids, fun _ => rfl⟩ -- the roll-back
    next => exact ⟨Within.of_users member ids.euid_mem ids.suid_mem, nofun⟩

theorem keeps_sysSetuid (uid : Int) (notRoot : ids.suser = false) :
    Keeps ids (sysSetuid ids uid) := by
  simp only [sysSetuid, notRoot, Bool.false_eq_true, if_false]
  split
  next isOwn =>
    have member : UInt16.ofInt uid ∈ ids.users := by
      rcases isOwn with isUid | isSuid
      · exact isUid.ofInt_eq ▸ ids.uid_mem
      · exact isSuid.ofInt_eq ▸ ids.suid_mem
    exact ⟨Within.of_users ids.uid_mem member ids.suid_mem, nofun⟩
  next => exact .unchanged

theorem Call.keeps (call : Call) (notRoot : ids.suser = false) : Keeps ids (call.run ids) := by
  cases call with
  | setregid rgid egid => exact keeps_sysSetregid rgid egid notRoot
  | setgid gid => exact keeps_sysSetgid gid notRoot
  | setreuid ruid euid => exact keeps_sysSetreuid ruid euid notRoot
  | setuid uid => exact keeps_sysSetuid uid notRoot

/-! ## Runs of calls -/

/-- No user id is root's. -/
def Ids.Unprivileged (ids : Ids) : Prop := ∀ id ∈ ids.users, id ≠ 0

instance (ids : Ids) : Decidable ids.Unprivileged :=
  inferInstanceAs (Decidable (∀ id ∈ ids.users, id ≠ 0))

theorem Ids.Unprivileged.suser_eq (unprivileged : ids.Unprivileged) : ids.suser = false :=
  beq_false_of_ne (unprivileged ids.euid ids.euid_mem)

theorem Within.unprivileged {start : Ids} (within : Within ids start)
    (unprivileged : start.Unprivileged) : ids.Unprivileged :=
  fun id member => unprivileged id (within.users member)

theorem within_after (unprivileged : ids.Unprivileged) (calls : List Call) :
    Within (after ids calls) ids := by
  induction calls generalizing ids with
  | nil => exact .refl ids
  | cons call calls ih =>
      have first := (call.keeps unprivileged.suser_eq).within
      exact (ih (first.unprivileged unprivileged)).trans first

/-- Calls of a task without privilege leave the ids within the initial ones, and root's is not
among them; a call that fails leaves them as they are. -/
theorem ids_closed (ids : Ids) (unprivileged : ids.Unprivileged) (calls : List Call) :
    Within (after ids calls) ids ∧ (after ids calls).Unprivileged ∧
      ∀ call : Call, (call.run (after ids calls)).2 = eperm →
        (call.run (after ids calls)).1 = after ids calls := by
  have within := within_after unprivileged calls
  have still := within.unprivileged unprivileged
  exact ⟨within, still, fun call => (call.keeps still.suser_eq).failed⟩

/-- A set-user-id program swaps its ids, tries others and gives one up. -/
def dropsIds : List Call := [.setreuid 5 7, .setreuid 3 (-1), .setuid 5, .setuid 7]

theorem ids_closed_dropsIds :
    Within (after ⟨7, 5, 5, 2, 2, 2⟩ dropsIds) ⟨7, 5, 5, 2, 2, 2⟩ ∧
      (after ⟨7, 5, 5, 2, 2, 2⟩ dropsIds).Unprivileged ∧
      ∀ call : Call, (call.run (after ⟨7, 5, 5, 2, 2, 2⟩ dropsIds)).2 = eperm →
        (call.run (after ⟨7, 5, 5, 2, 2, 2⟩ dropsIds)).1 = after ⟨7, 5, 5, 2, 2, 2⟩ dropsIds :=
  ids_closed ⟨7, 5, 5, 2, 2, 2⟩ (by simp [Ids.Unprivileged, Ids.users]) dropsIds

end Linux012.Kernel.Identity
