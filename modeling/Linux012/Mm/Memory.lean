import Mathlib.Data.UInt
import Mathlib.Logic.Function.Basic
import Mathlib.Data.List.Basic
import Mathlib.Data.List.Range
import Mathlib.Data.Finset.Card
import Mathlib.Data.Finset.Range
import Mathlib.Algebra.Group.Nat.Defs
import Linux012.Lib.Sizes

/-!
# Physical memory

The longs that the kernel reads and writes by their address, `mem_map`, the bit map of the swap
device, and the functions of `memory.c` and `swap.c` that take and release a page.
-/

namespace Linux012.Mm

abbrev lowMem : UInt32 := 0x300000
abbrev totalMemory : UInt32 := 0x4000000
abbrev pagingMemory : UInt32 := totalMemory - lowMem
abbrev pagingPages : Nat := 0x3d00

abbrev pageDirty : UInt32 := 0x40
abbrev pageUser : UInt32 := 0x04
abbrev pageRw : UInt32 := 0x02
abbrev pagePresent : UInt32 := 0x01

/-- The address of the page in an entry. -/
abbrev frameMask : UInt32 := 0xfffff000

/-- `MAP_NR`. -/
def mapNr (addr : UInt32) : UInt32 := (addr - lowMem) >>> 12

/-- The page with a number. -/
def pageAddr (nr : Nat) : UInt32 := (UInt32.ofNat nr <<< 12) + lowMem

/-- The address of an entry of a page table. -/
def entryPtr (table : UInt32) (nr : Nat) : UInt32 := table + 4 * UInt32.ofNat nr

/-- What `mm` reads and writes. -/
structure Kernel where
  /-- The long at an address; `pg_dir` is at 0. -/
  memory : UInt32 → UInt32
  /-- `mem_map`, by the number of the page. -/
  memMap : UInt32 → UInt8
  highMemory : UInt32
  /-- `swap_bitmap`; a set bit is a free page of the device. -/
  swapBitmap : Option (Nat → Bool)
  /-- The longs of the pages of the swap device. -/
  swapPages : Nat → UInt32 → UInt32

namespace Kernel

/-- `*table_ptr = value`. -/
def store (kernel : Kernel) (ptr value : UInt32) : Kernel :=
  { kernel with memory := Function.update kernel.memory ptr value }

/-- `pg_dir[dir_entry]`. -/
def pgDir (kernel : Kernel) (dirEntry : Nat) : UInt32 := kernel.memory (4 * UInt32.ofNat dirEntry)

/-- `free_page`; it panics for a page that does not exist or is free. -/
def freePage (kernel : Kernel) (addr : UInt32) : Option Kernel :=
  if addr < lowMem then some kernel
  else if addr ≥ kernel.highMemory then none
  else if kernel.memMap (mapNr addr) = 0 then none
  else some { kernel with
    memMap := Function.update kernel.memMap (mapNr addr) (kernel.memMap (mapNr addr) - 1) }

/-- `get_swap_page`; 0 when there is none. -/
def getSwapPage (kernel : Kernel) : Nat × Kernel :=
  match kernel.swapBitmap with
  | none => (0, kernel)
  | some bitmap =>
      match (List.range' 1 32767).find? bitmap with
      | none => (0, kernel)
      | some nr => (nr, { kernel with swapBitmap := some (Function.update bitmap nr false) })

/-- `write_swap_page`. -/
def writeSwapPage (kernel : Kernel) (nr : Nat) (page : UInt32) : Kernel :=
  { kernel with
    swapPages := Function.update kernel.swapPages nr fun offset => kernel.memory (page + offset) }

/-- `read_swap_page`. -/
def readSwapPage (kernel : Kernel) (nr : Nat) (page : UInt32) : Kernel :=
  { kernel with memory := fun ptr =>
      if ptr &&& frameMask = page then kernel.swapPages nr (ptr - page) else kernel.memory ptr }

/-- The page with the number, marked in `mem_map` and filled with zeros. -/
def take (kernel : Kernel) (nr : Nat) : Kernel :=
  { kernel with
    memMap := Function.update kernel.memMap (UInt32.ofNat nr) 1
    memory := fun ptr => if ptr &&& frameMask = pageAddr nr then 0 else kernel.memory ptr }

/-- The search of `get_free_page` among the pages below a number.  A page behind the end of the
memory is marked and passed over. -/
def getFreePageBelow (kernel : Kernel) : Nat → Option (UInt32 × Kernel)
  | 0 => none
  | nr + 1 =>
      if kernel.memMap (UInt32.ofNat nr) = 0 then
        if pageAddr nr ≥ kernel.highMemory then (kernel.take nr).getFreePageBelow nr
        else some (pageAddr nr, kernel.take nr)
      else kernel.getFreePageBelow nr

/-- `get_free_page`; `none` where it calls `swap_out`. -/
def getFreePage (kernel : Kernel) : Option (UInt32 × Kernel) := kernel.getFreePageBelow pagingPages

end Kernel

/-! ## Pages and their numbers -/

theorem and_mask (number width low : Nat) :
    number &&& ((2 ^ width - 1) * 2 ^ low) = number % 2 ^ (low + width) / 2 ^ low * 2 ^ low := by
  apply Nat.eq_of_testBit_eq
  intro bit
  rw [Nat.testBit_and, Nat.testBit_mul_two_pow, Nat.testBit_two_pow_sub_one,
    Nat.testBit_mul_two_pow, Nat.testBit_div_two_pow, Nat.testBit_mod_two_pow]
  by_cases high : low ≤ bit
  · have inside : bit - low < width ↔ bit < low + width := by omega
    simp [high, inside, Bool.and_comm]
  · simp [high]

theorem frame_toNat (word : UInt32) : (word &&& frameMask).toNat = word.toNat / 4096 * 4096 := by
  have mask : frameMask.toNat = (2 ^ 20 - 1) * 2 ^ 12 := by decide
  rw [UInt32.toNat_and, mask, and_mask, Nat.mod_eq_of_lt word.toNat_lt]
  rfl

theorem mapNr_toNat (word : UInt32) :
    (mapNr word).toNat = (4294967296 - 0x300000 + word.toNat) % 4294967296 / 4096 := by
  rw [mapNr, UInt32.toNat_shiftRight, UInt32.toNat_sub]
  exact Nat.shiftRight_eq_div_pow _ _

theorem mapNr_frame (word : UInt32) : mapNr (word &&& frameMask) = mapNr word := by
  apply UInt32.toNat_inj.mp
  rw [mapNr_toNat, mapNr_toNat, frame_toNat]
  omega
/-- The address is below the end of the memory that `mem_map` describes, and not below its
start. -/
theorem lowMem_le_of_paging {page : UInt32} (paging : ¬page - lowMem > pagingMemory) :
    lowMem ≤ page ∧ lowMem ≤ page &&& frameMask := by
  rw [UInt32.not_lt, UInt32.le_iff_toNat_le, UInt32.toNat_sub] at paging
  have small := page.toNat_lt
  have low : lowMem.toNat = 0x300000 := rfl
  have memory : pagingMemory.toNat = 0x3d00000 := rfl
  rw [UInt32.le_iff_toNat_le, UInt32.le_iff_toNat_le, frame_toNat]
  omega

theorem frame_le (page : UInt32) : page &&& frameMask ≤ page := by
  rw [UInt32.le_iff_toNat_le, frame_toNat]
  exact Nat.div_mul_le_self _ _

variable {kernel after : Kernel} {addr : UInt32}

namespace Kernel

/-- A page that `free_page` does not release. -/
def BadPage (kernel : Kernel) (addr : UInt32) : Prop :=
  addr ≥ kernel.highMemory ∨ kernel.memMap (mapNr addr) = 0

theorem freePage_eq_none (panics : kernel.freePage addr = none) : kernel.BadPage addr := by
  rw [freePage] at panics
  split at panics
  next => cases panics
  next =>
    split at panics
    next tooHigh => exact .inl tooHigh
    next =>
      split at panics
      next isFree => exact .inr isFree
      next => cases panics

theorem freePage_eq_some (isPage : lowMem ≤ addr) (isFreed : kernel.freePage addr = some after) :
    kernel.memMap (mapNr addr) ≠ 0 ∧ after = { kernel with
      memMap := Function.update kernel.memMap (mapNr addr)
        (kernel.memMap (mapNr addr) - 1) } := by
  rw [freePage, if_neg (UInt32.not_lt.mpr isPage)] at isFreed
  split at isFreed
  next => cases isFreed
  next =>
    split at isFreed
    next => cases isFreed
    next inUse =>
      cases isFreed
      exact ⟨inUse, rfl⟩

/-- The page of the swap device was free and is taken. -/
theorem getSwapPage_spec {nr : Nat} (isSlot : kernel.getSwapPage = (nr, after)) (found : nr ≠ 0) :
    ∃ bitmap, kernel.swapBitmap = some bitmap ∧ bitmap nr = true ∧ nr < 32768 ∧
      after = { kernel with swapBitmap := some (Function.update bitmap nr false) } := by
  rw [getSwapPage] at isSlot
  split at isSlot
  next => cases isSlot; exact absurd rfl found
  next bitmap isBitmap =>
    split at isSlot
    next => cases isSlot; exact absurd rfl found
    next first isFirst =>
      cases isSlot
      have member := List.mem_range'_1.mp (List.mem_of_find?_eq_some isFirst)
      exact ⟨bitmap, isBitmap, List.find?_some isFirst, by omega, rfl⟩

end Kernel

/-! ## Fresh pages -/

theorem entryPtr_toNat (table : UInt32) (nr : Nat) :
    (entryPtr table nr).toNat = (table.toNat + 4 * nr) % 4294967296 := by
  have four : (4 : UInt32).toNat = 4 := rfl
  rw [entryPtr, UInt32.toNat_add, UInt32.toNat_mul, UInt32.toNat_ofNat', four]
  omega

/-- The address is that of a page. -/
abbrev PageAligned (page : UInt32) : Prop := page &&& frameMask = page

theorem PageAligned.toNat {page : UInt32} (aligned : PageAligned page) :
    page.toNat / 4096 * 4096 = page.toNat := by
  rw [← frame_toNat, aligned]

theorem pageAligned_frame (word : UInt32) : PageAligned (word &&& frameMask) := by
  rw [PageAligned, UInt32.and_assoc, UInt32.and_self]

/-- The entries of a table are in its page. -/
theorem entryPtr_frame {table : UInt32} (aligned : PageAligned table) {nr : Nat}
    (inTable : nr < 1024) : entryPtr table nr &&& frameMask = table := by
  have base := aligned.toNat
  have small := table.toNat_lt
  apply UInt32.toNat_inj.mp
  rw [frame_toNat, entryPtr_toNat]
  obtain ⟨page, isPage⟩ : ∃ page, table.toNat = 4096 * page := ⟨table.toNat / 4096, by omega⟩
  have noCarry : table.toNat + 4 * nr < 4294967296 := by omega
  have inPage : 4 * nr / 4096 = 0 := Nat.div_eq_of_lt (by omega)
  rw [Nat.mod_eq_of_lt noCarry, isPage, Nat.mul_add_div (by decide), inPage, Nat.add_zero,
    Nat.mul_comm]

theorem entryPtr_inj {table : UInt32} {nr other : Nat} (inTable : nr < 1024)
    (otherInTable : other < 1024) (same : entryPtr table nr = entryPtr table other) :
    nr = other := by
  have same := congrArg UInt32.toNat same
  rw [entryPtr_toNat, entryPtr_toNat] at same
  omega

theorem pageAddr_toNat {nr : Nat} (isPage : nr < pagingPages) :
    (pageAddr nr).toNat = 0x300000 + 4096 * nr := by
  have low : lowMem.toNat = 0x300000 := rfl
  have shift : (UInt32.toNat 12 % 32) = 12 := rfl
  rw [pageAddr, UInt32.toNat_add, UInt32.toNat_shiftLeft, UInt32.toNat_ofNat', low, shift,
    Nat.shiftLeft_eq]
  rw [pagingPages] at isPage
  omega

theorem pageAddr_aligned {nr : Nat} (isPage : nr < pagingPages) : PageAligned (pageAddr nr) := by
  apply UInt32.toNat_inj.mp
  rw [frame_toNat, pageAddr_toNat isPage]
  omega

theorem lowMem_le_pageAddr {nr : Nat} (isPage : nr < pagingPages) : lowMem ≤ pageAddr nr := by
  rw [UInt32.le_iff_toNat_le, pageAddr_toNat isPage]
  exact Nat.le_add_right _ _

theorem mapNr_pageAddr {nr : Nat} (isPage : nr < pagingPages) :
    mapNr (pageAddr nr) = UInt32.ofNat nr := by
  apply UInt32.toNat_inj.mp
  rw [mapNr_toNat, pageAddr_toNat isPage, UInt32.toNat_ofNat']
  rw [pagingPages] at isPage
  omega

namespace Kernel

/-- The pages that `get_free_page` can hand out. -/
def free (kernel : Kernel) : Finset Nat :=
  (Finset.range pagingPages).filter fun nr =>
    kernel.memMap (UInt32.ofNat nr) = 0 ∧ pageAddr nr < kernel.highMemory

/-- The address is in the memory of the kernel or in a page that is in use. -/
def Occupied (kernel : Kernel) (ptr : UInt32) : Prop :=
  ptr < lowMem ∨ kernel.memMap (mapNr ptr) ≠ 0

/-- A page that `get_free_page` has handed out. -/
structure Fresh (before after : Kernel) (page : UInt32) : Prop where
  aligned : PageAligned page
  isPage : lowMem ≤ page
  wasFree : before.memMap (mapNr page) = 0
  taken : after.memMap (mapNr page) = 1
  cleared : ∀ ptr, ptr &&& frameMask = page → after.memory ptr = 0
  inUse : ∀ nr, before.memMap nr ≠ 0 → after.memMap nr = before.memMap nr
  others : ∀ ptr, before.Occupied ptr → after.memory ptr = before.memory ptr
  high : after.highMemory = before.highMemory
  one : after.free.card + 1 = before.free.card

theorem mapNr_eq_of_frame {ptr page : UInt32} (inPage : ptr &&& frameMask = page) :
    mapNr ptr = mapNr page := by
  rw [← inPage, mapNr_frame]

theorem not_occupied {kernel : Kernel} {ptr page : UInt32} (isPage : lowMem ≤ page)
    (isFree : kernel.memMap (mapNr page) = 0) (inPage : ptr &&& frameMask = page) :
    ¬kernel.Occupied ptr := by
  rintro (isLow | inUse)
  · have atMost := frame_le ptr
    rw [inPage] at atMost
    exact absurd isLow (UInt32.not_lt.mpr (UInt32.le_trans isPage atMost))
  · exact inUse ((mapNr_eq_of_frame inPage).symm ▸ isFree)

/-- What is in an occupied page is occupied. -/
theorem Occupied.of_frame {kernel : Kernel} {ptr page : UInt32} (occupied : kernel.Occupied page)
    (inPage : ptr &&& frameMask = page) : kernel.Occupied ptr := by
  rcases occupied with isLow | inUse
  · left
    have low : lowMem.toNat = 0x300000 := rfl
    rw [UInt32.lt_iff_toNat_lt, ← inPage, frame_toNat] at isLow
    rw [UInt32.lt_iff_toNat_lt]
    omega
  · exact .inr ((mapNr_eq_of_frame inPage).symm ▸ inUse)

theorem take_memMap_of_ne {kernel : Kernel} {nr : Nat} {other : UInt32}
    (isFree : kernel.memMap (UInt32.ofNat nr) = 0) (inUse : kernel.memMap other ≠ 0) :
    (kernel.take nr).memMap other = kernel.memMap other :=
  Function.update_of_ne (fun same => inUse (by rw [same, isFree])) _ _

theorem take_memory {kernel : Kernel} {nr : Nat} (isPage : nr < pagingPages)
    (isFree : kernel.memMap (UInt32.ofNat nr) = 0) {ptr : UInt32} (occupied : kernel.Occupied ptr) :
    (kernel.take nr).memory ptr = kernel.memory ptr :=
  if_neg fun inPage => not_occupied (lowMem_le_pageAddr isPage)
    ((mapNr_pageAddr isPage).symm ▸ isFree) inPage occupied

theorem take_free {kernel : Kernel} {nr : Nat} (isPage : nr < pagingPages) :
    (kernel.take nr).free = kernel.free.erase nr := by
  ext other
  simp only [free, Finset.mem_filter, Finset.mem_range, Finset.mem_erase]
  by_cases same : other = nr
  · subst same
    simp [take]
  · have differs (less : other < pagingPages) : UInt32.ofNat other ≠ UInt32.ofNat nr := by
      intro equal
      have equal := congrArg UInt32.toNat equal
      rw [UInt32.toNat_ofNat', UInt32.toNat_ofNat'] at equal
      rw [pagingPages] at less isPage
      omega
    constructor
    · rintro ⟨less, isFree, below⟩
      exact ⟨same, less, (Function.update_of_ne (differs less) _ _).symm.trans isFree, below⟩
    · rintro ⟨-, less, isFree, below⟩
      exact ⟨less, (Function.update_of_ne (differs less) _ _).trans isFree, below⟩

theorem getFreePageBelow_fresh {kernel after : Kernel} {nr : Nat} {page : UInt32}
    (atMost : nr ≤ pagingPages) (isFound : kernel.getFreePageBelow nr = some (page, after)) :
    Fresh kernel after page := by
  induction nr generalizing kernel with
  | zero => cases isFound
  | succ nr ih =>
      rw [getFreePageBelow] at isFound
      split at isFound
      next isFree =>
        split at isFound
        next tooHigh =>
          have fresh := ih (Nat.le_of_succ_le atMost) isFound
          have occupied {ptr : UInt32} (occupied : kernel.Occupied ptr) :
              (kernel.take nr).Occupied ptr := occupied.imp_right fun inUse =>
            (take_memMap_of_ne isFree inUse).symm ▸ inUse
          exact {
            aligned := fresh.aligned
            isPage := fresh.isPage
            wasFree := by
              by_contra inUse
              exact inUse ((take_memMap_of_ne isFree inUse).symm.trans fresh.wasFree)
            taken := fresh.taken
            cleared := fresh.cleared
            inUse := fun other inUse => by
              have same := take_memMap_of_ne isFree inUse
              exact (fresh.inUse other (same.symm ▸ inUse)).trans same
            others := fun ptr isOccupied =>
              (fresh.others ptr (occupied isOccupied)).trans
                (take_memory atMost isFree isOccupied)
            high := fresh.high
            one := by
              have notFree : nr ∉ kernel.free := fun member =>
                absurd (Finset.mem_filter.mp member).2.2 (UInt32.not_lt.mpr tooHigh)
              rw [← Finset.erase_eq_of_notMem notFree, ← take_free atMost]
              exact fresh.one }
        next isBelow =>
          simp only [Option.some.injEq, Prod.mk.injEq] at isFound
          obtain ⟨rfl, rfl⟩ := isFound
          have isNr := mapNr_pageAddr atMost
          exact {
            aligned := pageAddr_aligned atMost
            isPage := lowMem_le_pageAddr atMost
            wasFree := isNr.symm ▸ isFree
            taken := isNr.symm ▸ Function.update_self _ _ _
            cleared := fun ptr inPage => if_pos inPage
            inUse := fun other inUse => take_memMap_of_ne isFree inUse
            others := fun ptr occupied => take_memory atMost isFree occupied
            high := rfl
            one := by
              have member : nr ∈ kernel.free := Finset.mem_filter.mpr
                ⟨Finset.mem_range.mpr atMost, isFree, UInt32.not_le.mp isBelow⟩
              rw [← Finset.card_erase_add_one member, ← take_free atMost] }
      next => exact ih (Nat.le_of_succ_le atMost) isFound

/-- There is a page to hand out as long as one is free. -/
theorem exists_getFreePageBelow {kernel : Kernel} {nr : Nat} (atMost : nr ≤ pagingPages)
    {page : Nat} (below : page < nr) (isFree : page ∈ kernel.free) :
    ∃ fresh after, kernel.getFreePageBelow nr = some (fresh, after) := by
  induction nr generalizing kernel with
  | zero => exact absurd below (Nat.not_lt_zero page)
  | succ nr ih =>
      rw [getFreePageBelow]
      split
      next =>
        split
        next tooHigh =>
          have other : page ≠ nr := fun same =>
            absurd (Finset.mem_filter.mp isFree).2.2 (UInt32.not_lt.mpr (same ▸ tooHigh))
          refine ih (Nat.le_of_succ_le atMost) (by omega) ?_
          have still : page ∈ (kernel.take nr).free := by
            rw [take_free atMost]
            exact Finset.mem_erase.mpr ⟨other, isFree⟩
          exact still
        next => exact ⟨_, _, rfl⟩
      next inUse =>
        have other : page ≠ nr := fun same =>
          inUse (same ▸ (Finset.mem_filter.mp isFree).2.1)
        exact ih (Nat.le_of_succ_le atMost) (by omega) isFree

theorem exists_getFreePage {kernel : Kernel} (available : 0 < kernel.free.card) :
    ∃ page after, kernel.getFreePage = some (page, after) ∧ Fresh kernel after page := by
  obtain ⟨nr, isFree⟩ := Finset.card_pos.mp available
  have isPage := Finset.mem_range.mp (Finset.mem_filter.mp isFree).1
  obtain ⟨page, after, isFound⟩ := exists_getFreePageBelow le_rfl isPage isFree
  exact ⟨page, after, isFound, getFreePageBelow_fresh le_rfl isFound⟩

end Kernel

end Linux012.Mm
