import Linux012.Mm.WriteVerify

/-!
# What `verify_area` has verified

The pages of a range may be written and are not shared, when the size is not too large.
-/

namespace Linux012.Mm.Pager

open Kernel

variable {pager after : Pager} {dirEntry pageEntry : Nat} {address : UInt32}

/-! ## One page -/

/-- The number of the directory entry of an address. -/
def dirOf (address : UInt32) : Nat := address.toNat / 0x400000

/-- The number of the entry of an address in its page table. -/
def entryOf (address : UInt32) : Nat := address.toNat / 4096 % 1024

theorem dirOf_lt (address : UInt32) : dirOf address < 1024 := by
  have small := address.toNat_lt
  rw [dirOf]
  omega

theorem entryOf_lt (address : UInt32) : entryOf address < 1024 := Nat.mod_lt _ (by decide)

/-- `un_wp_page` comes to a copy of the page. -/
def NeedsCopy (kernel : Kernel) (dirEntry pageEntry : Nat) : Prop :=
  kernel.DirPresent dirEntry ∧ 3 &&& kernel.word dirEntry pageEntry = 1 ∧
    ¬(lowMem ≤ kernel.word dirEntry pageEntry &&& frameMask ∧
      kernel.memMap (mapNr (kernel.word dirEntry pageEntry &&& frameMask)) = 1)

/-- When `get_free_page` swaps pages out to find one for a copy, the page that is to be copied is
not one of them. -/
def KeepsEntry (pager : Pager) (address : UInt32) : Prop :=
  NeedsCopy pager.kernel (dirOf address) (entryOf address) →
    ∀ page after, pager.getFreePage = .ok (some page, after) →
      after.kernel.word (dirOf address) (entryOf address) =
        pager.kernel.word (dirOf address) (entryOf address)

/-- The entry may be written behind `un_wp_page`. -/
theorem opens_unWpPage (sound : pager.Sound) (isEntry : pager.kernel.UserEntry dirEntry pageEntry)
    (mapped : pagePresent &&& pager.kernel.word dirEntry pageEntry ≠ 0)
    (keeps : ¬(lowMem ≤ pager.kernel.word dirEntry pageEntry &&& frameMask ∧
        pager.kernel.memMap (mapNr (pager.kernel.word dirEntry pageEntry &&& frameMask)) = 1) →
      ∀ page next, pager.getFreePage = .ok (some page, next) →
        next.kernel.word dirEntry pageEntry = pager.kernel.word dirEntry pageEntry)
    (ran : pager.unWpPage (pager.kernel.entry dirEntry pageEntry) = .ok after) :
    Opens pager after ∧ Open after.kernel dirEntry pageEntry := by
  rw [unWpPage] at ran
  split at ran
  next only =>
    cases ran
    obtain ⟨isPage, one⟩ := only
    rw [mapNr_frame] at one
    exact opens_of_only sound isEntry (lowMem_le_frame.mp isPage) one
  next notOnly =>
    split at ran
    next => cases ran
    next => cases ran
    next newPage next isFound =>
      cases ran
      have finds := finds_of_getFreePage sound isFound
      have same := keeps notOnly newPage next isFound
      have isEntry' := finds.swaps.userEntry.mpr isEntry
      have isPtr : next.kernel.entry dirEntry pageEntry = pager.kernel.entry dirEntry pageEntry :=
        congrArg (fun dir => entryPtr (dir &&& frameMask) pageEntry)
          (finds.swaps.dirs dirEntry isEntry.isUser.2)
      have swapped : Opens pager next :=
        ⟨finds.sound, finds.swaps.dirs, fun _ _ => Swaps.open finds.swaps⟩
      have isWord : pager.kernel.memory (pager.kernel.entry dirEntry pageEntry) =
          pager.kernel.word dirEntry pageEntry := rfl
      rw [isWord, ← isPtr]
      obtain ⟨opens, isOpen⟩ := opens_of_copy finds.sound isEntry' finds.unused
        (by rw [same]; exact mapped) (congrArg (· &&& frameMask) same.symm)
      exact ⟨swapped.trans opens, isOpen⟩

/-- The address of the directory entry. -/
theorem dirPtr_eq (address : UInt32) :
    (address >>> 20) &&& 0xffc = 4 * UInt32.ofNat (dirOf address) := by
  have four : (4 : UInt32).toNat = 4 := rfl
  have mask : UInt32.toNat 0xffc = (2 ^ 10 - 1) * 2 ^ 2 := by decide
  have shift : (UInt32.toNat 20) % 32 = 20 := rfl
  have small := address.toNat_lt
  apply UInt32.toNat_inj.mp
  rw [UInt32.toNat_and, UInt32.toNat_shiftRight, shift, mask, and_mask, UInt32.toNat_mul,
    UInt32.toNat_ofNat', four, dirOf, Nat.shiftRight_eq_div_pow]
  omega

/-- The offset of the entry in its page table. -/
theorem entryOffset_eq (address : UInt32) :
    (address >>> 10) &&& 0xffc = 4 * UInt32.ofNat (entryOf address) := by
  have four : (4 : UInt32).toNat = 4 := rfl
  have mask : UInt32.toNat 0xffc = (2 ^ 10 - 1) * 2 ^ 2 := by decide
  have shift : (UInt32.toNat 10) % 32 = 10 := rfl
  have small := address.toNat_lt
  apply UInt32.toNat_inj.mp
  rw [UInt32.toNat_and, UInt32.toNat_shiftRight, shift, mask, and_mask, UInt32.toNat_mul,
    UInt32.toNat_ofNat', four, entryOf, Nat.shiftRight_eq_div_pow]
  omega

/-- `write_verify`, by the numbers of the entries. -/
theorem writeVerify_eq (pager : Pager) (address : UInt32) :
    pager.writeVerify address =
      if pager.kernel.pgDir (dirOf address) &&& 1 = 0 then .ok pager
      else if 3 &&& pager.kernel.word (dirOf address) (entryOf address) = 1 then
        pager.unWpPage (pager.kernel.entry (dirOf address) (entryOf address))
      else .ok pager := by
  rw [writeVerify]
  dsimp only
  rw [dirPtr_eq, entryOffset_eq]
  rfl

theorem opens_writeVerify (sound : pager.Sound) (keeps : pager.KeepsEntry address)
    (ran : pager.writeVerify address = .ok after) :
    Opens pager after ∧ (pager.kernel.UserEntry (dirOf address) (entryOf address) →
      Open after.kernel (dirOf address) (entryOf address)) := by
  rw [writeVerify_eq] at ran
  split at ran
  next absent =>
    cases ran
    exact ⟨.refl sound, fun isEntry => absurd absent isEntry.present⟩
  next present =>
    split at ran
    next isProtected =>
      by_cases isUser : firstDir ≤ dirOf address
      · obtain ⟨opens, isOpen⟩ := opens_unWpPage sound
          ⟨⟨isUser, dirOf_lt address⟩, present, entryOf_lt address⟩
          ((writeProtected_iff _).mp isProtected).1
          (fun notOnly => keeps ⟨present, isProtected, notOnly⟩) ran
        exact ⟨opens, fun _ => isOpen⟩
      · exact absurd isProtected (sound.kernel.kernelSpace _ (Nat.not_le.mp isUser) present _
          (entryOf_lt address))
    next notProtected =>
      cases ran
      refine ⟨.refl sound, fun _ mapped writes => notProtected ?_⟩
      exact (writeProtected_iff _).mpr ⟨mapped, writes⟩

/-! ## The loop -/

/-- The loop comes to a page. -/
inductive Comes : Pager → Int → UInt32 → Pager → UInt32 → Prop where
  | here {pager : Pager} {size : Int} {start : UInt32} (more : 0 < size) :
      Comes pager size start pager start
  | next {pager next last : Pager} {size : Int} {start address : UInt32} (more : 0 < size)
      (ran : pager.writeVerify start = .ok next)
      (comes : Comes next (size - 4096) (start + 4096) last address) :
      Comes pager size start last address

theorem opens_verifyLoop {size : Int} {start : UInt32} (sound : pager.Sound)
    (keeps : ∀ last address, Comes pager size start last address → last.KeepsEntry address)
    (ran : pager.verifyLoop size start = .ok after) :
    Opens pager after ∧ ∀ k : Nat, 4096 * (k : Int) < size →
      pager.kernel.UserEntry (dirOf (start + 4096 * UInt32.ofNat k))
        (entryOf (start + 4096 * UInt32.ofNat k)) →
      Open after.kernel (dirOf (start + 4096 * UInt32.ofNat k))
        (entryOf (start + 4096 * UInt32.ofNat k)) := by
  fun_induction verifyLoop pager size start with
  | case1 pager size start more stop stopped => cases ran
  | case2 pager size start more next isNext ih =>
      obtain ⟨opens, isOpen⟩ := opens_writeVerify sound (keeps pager start (.here more)) isNext
      obtain ⟨opens', areOpen⟩ := ih opens.sound
        (fun last address comes => keeps last address (.next more isNext comes)) ran
      refine ⟨opens.trans opens', fun k inside isEntry => ?_⟩
      cases k with
      | zero =>
          have here : start + 4096 * UInt32.ofNat 0 = start := UInt32.add_zero _
          rw [here] at isEntry ⊢
          exact opens'.keeps _ _ (opens.userEntry.mpr isEntry) (isOpen isEntry)
      | succ k =>
          have there : start + 4096 * UInt32.ofNat (k + 1) = start + 4096 + 4096 * UInt32.ofNat k := by
            rw [UInt32.ofNat_add, UInt32.mul_add, UInt32.add_assoc, UInt32.add_comm (4096 * _)]
            rfl
          rw [there] at isEntry ⊢
          exact areOpen k (by omega) (opens.userEntry.mpr isEntry)
  | case3 pager size start none =>
      cases ran
      exact ⟨.refl sound, fun k inside => absurd inside (by omega)⟩

/-! ## The range -/

/-- The page of a task overlaps the range. -/
def Overlaps (addr : UInt32) (size page : Nat) : Prop :=
  addr.toNat < 4096 * (page + 1) ∧ 4096 * page < addr.toNat + size

/-- All pages of the task that are present and overlap the range may be written, and nobody shares
them. -/
def Verified (kernel : Kernel) (task : Nat) (addr : UInt32) (size : Nat) : Prop :=
  ∀ page < 16384, Overlaps addr size page →
    kernel.UserEntry (16 * task + page / 1024) (page % 1024) →
    pagePresent &&& kernel.word (16 * task + page / 1024) (page % 1024) ≠ 0 →
    pageRw &&& kernel.word (16 * task + page / 1024) (page % 1024) ≠ 0 ∧
      (lowMem ≤ kernel.word (16 * task + page / 1024) (page % 1024) →
        kernel.memMap (mapNr (kernel.word (16 * task + page / 1024) (page % 1024))) = 1) ∧
      ∀ other otherEntry, kernel.UserEntry other otherEntry →
        pagePresent &&& kernel.word other otherEntry ≠ 0 →
        kernel.word other otherEntry &&& frameMask =
          kernel.word (16 * task + page / 1024) (page % 1024) &&& frameMask →
        (other, otherEntry) = (16 * task + page / 1024, page % 1024)

/-- All pages of the task that are present and overlap the range may be written. -/
def AllOpen (kernel : Kernel) (task : Nat) (addr : UInt32) (size : Nat) : Prop :=
  ∀ page < 16384, Overlaps addr size page →
    kernel.UserEntry (16 * task + page / 1024) (page % 1024) →
    Open kernel (16 * task + page / 1024) (page % 1024)

theorem verified_iff_allOpen {kernel : Kernel} (sound : kernel.Sound) (task : Nat) (addr : UInt32)
    (size : Nat) : Verified kernel task addr size ↔ AllOpen kernel task addr size := by
  constructor
  · intro verified page inTask overlaps isEntry present
    exact (verified page inTask overlaps isEntry present).1
  · intro allOpen page inTask overlaps isEntry present
    have writes := allOpen page inTask overlaps isEntry present
    obtain ⟨isPage, one⟩ := sound.writable _ _ isEntry present writes
    refine ⟨writes, fun _ => one, fun other otherEntry isOther mapped same => ?_⟩
    by_contra differs
    have isNr : mapNr (kernel.word other otherEntry) =
        mapNr (kernel.word (16 * task + page / 1024) (page % 1024)) := by
      rw [← mapNr_frame, same, mapNr_frame]
    have isOtherPage : lowMem ≤ kernel.word other otherEntry := by
      rw [← lowMem_le_frame, same, lowMem_le_frame]
      exact isPage
    have two := sound.two_le ⟨isEntry, present, isPage, rfl⟩ ⟨isOther, mapped, isOtherPage, isNr⟩
      differs
    rw [one] at two
    exact absurd two (by decide)

/-- The base of the data segment of a task. -/
def baseOf (task : Nat) : UInt32 := UInt32.ofNat (0x4000000 * task)

/-- No page that `verify_area` is about to copy is swapped out for its own copy. -/
def Steady (pager : Pager) (base addr : UInt32) (size : Int) : Prop :=
  ∀ last address, Comes pager (Int.bmod (size + (addr &&& 0xfff).toNat) (2 ^ 32))
    ((addr &&& frameMask) + base) last address → last.KeepsEntry address

theorem offset_toNat (addr : UInt32) : (addr &&& 0xfff).toNat = addr.toNat % 4096 := by
  rw [UInt32.toNat_and]
  exact Nat.and_two_pow_sub_one_eq_mod addr.toNat 12

/-- The address at which the loop comes to a page of the range. -/
theorem address_of_page {task page : Nat} {addr : UInt32} (isTask : task < 64)
    (inTask : page < 16384) (above : addr.toNat / 4096 ≤ page) :
    dirOf ((addr &&& frameMask) + baseOf task +
        4096 * UInt32.ofNat (page - addr.toNat / 4096)) = 16 * task + page / 1024 ∧
      entryOf ((addr &&& frameMask) + baseOf task +
        4096 * UInt32.ofNat (page - addr.toNat / 4096)) = page % 1024 := by
  have four : (4096 : UInt32).toNat = 4096 := rfl
  have isAddress : ((addr &&& frameMask) + baseOf task +
      4096 * UInt32.ofNat (page - addr.toNat / 4096)).toNat = 0x4000000 * task + 4096 * page := by
    rw [UInt32.toNat_add, UInt32.toNat_add, UInt32.toNat_mul, UInt32.toNat_ofNat', four, frame_toNat,
      baseOf, UInt32.toNat_ofNat']
    omega
  rw [dirOf, entryOf, isAddress]
  omega

theorem bmod_eq {size offset : Nat} (small : size < 2 ^ 31) (inPage : offset < 4096) :
    (size + offset < 2 ^ 31 → Int.bmod ((size : Int) + offset) (2 ^ 32) = size + offset) ∧
      (2 ^ 31 ≤ size + offset → Int.bmod ((size : Int) + offset) (2 ^ 32) ≤ 0) := by
  have bmod (sum : Int) : Int.bmod sum (2 ^ 32) =
      if sum % 4294967296 < 2147483648 then sum % 4294967296 else sum % 4294967296 - 4294967296 :=
    rfl
  rw [bmod]
  constructor
  · intro below
    rw [if_pos (by omega)]
    omega
  · intro above
    rw [if_neg (by omega)]
    omega

/-- The first page of task 1 has lost its right to be written. -/
def taskOne : Pager := ⟨onePage 16, .init⟩

theorem eq_of_present_taskOne (isEntry : taskOne.kernel.UserEntry dirEntry pageEntry)
    (present : pagePresent &&& taskOne.kernel.word dirEntry pageEntry ≠ 0) :
    dirEntry = 16 ∧ pageEntry = 0 := by
  obtain rfl : dirEntry = 16 :=
    eq_of_dirPresent_onePage (by decide) isEntry.isUser.2 isEntry.present
  refine ⟨rfl, ?_⟩
  by_contra other
  have table : (onePage 16).pgDir 16 &&& frameMask = 0x400000 := by decide
  apply present
  have absent : taskOne.kernel.word 16 pageEntry = 0 := by
    rw [word, entry, taskOne, table]
    exact memory_onePage_table (by decide) isEntry.inTable other
  rw [absent]
  rfl

theorem word_taskOne : taskOne.kernel.word 16 0 = 0x401005 := by decide

theorem sound_taskOne : taskOne.Sound := by
  have isDir {dirEntry : Nat} (inDir : dirEntry < 1024)
      (present : taskOne.kernel.DirPresent dirEntry) : dirEntry = 16 :=
    eq_of_dirPresent_onePage (by decide) inDir present
  refine ⟨⟨?_, ?_, ?_, ?_, ?_⟩, ⟨by decide, by decide⟩⟩
  · intro dirEntry inDir present
    rw [isDir inDir present]
    decide
  · intro first firstIn second secondIn firstPresent secondPresent _
    rw [isDir firstIn firstPresent, isDir secondIn secondPresent]
  · intro nr
    have mapped : taskOne.kernel.mappers nr ⊆ if nr = 0x101 then {(16, 0)} else ∅ := by
      rintro ⟨dirEntry, pageEntry⟩ inside
      have maps := mem_mappers.mp inside
      obtain ⟨rfl, rfl⟩ := eq_of_present_taskOne maps.toUserEntry maps.mapped
      have isNr := maps.isNr
      rw [word_taskOne] at isNr
      have isPage : mapNr 0x401005 = 0x101 := by decide
      rw [if_pos (isNr.symm.trans isPage)]
      exact Finset.mem_singleton_self _
    have tables : taskOne.kernel.tablesAt nr ⊆ if nr = 0x100 then {16} else ∅ := by
      intro dirEntry inside
      obtain ⟨inDir, present, _, isNr⟩ := mem_tablesAt.mp inside
      obtain rfl := isDir inDir present
      have isTable : mapNr (taskOne.kernel.pgDir 16) = 0x100 := by decide
      rw [if_pos (isNr.symm.trans isTable)]
      exact Finset.mem_singleton_self _
    have one : (taskOne.kernel.memMap nr).toNat = 1 := rfl
    rw [one]
    refine (Nat.add_le_add (Finset.card_le_card mapped) (Finset.card_le_card tables)).trans ?_
    by_cases isPage : nr = 0x101
    · subst isPage
      decide
    · rw [if_neg isPage, Finset.card_empty, Nat.zero_add]
      split <;> simp
  · intro dirEntry pageEntry isEntry mapped writes
    obtain ⟨rfl, rfl⟩ := eq_of_present_taskOne isEntry mapped
    rw [word_taskOne] at writes
    exact absurd rfl writes
  · intro dirEntry isKernel present
    have isTask := isDir (lt_trans isKernel (by decide)) present
    exact absurd isKernel (by rw [isTask]; decide)

/-- `write_verify` gives the page its right back, for it has one reference. -/
theorem writeVerify_taskOne : taskOne.writeVerify 0x4000000 =
    .ok { taskOne with kernel := taskOne.kernel.store 0x400000 0x401007 } := by
  have isEntry : taskOne.kernel.entry 16 0 = 0x400000 := by decide
  have isWord : taskOne.kernel.memory 0x400000 = 0x401005 := by decide
  rw [writeVerify_eq]
  change (if taskOne.kernel.pgDir 16 &&& 1 = 0 then _ else if 3 &&& taskOne.kernel.word 16 0 = 1
    then taskOne.unWpPage (taskOne.kernel.entry 16 0) else _) = _
  rw [if_neg (by decide), word_taskOne, if_pos (by decide), isEntry, unWpPage, isWord,
    if_pos (by decide)]
  rfl

end Linux012.Mm.Pager
