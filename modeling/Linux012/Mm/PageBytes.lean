import Linux012.Mm.Memory
import Linux012.Lib.LittleEndian
import Linux012.Zones.Device

/-!
# The bytes of a page

The memory is one of longs; `bread_page` copies blocks into a page, and `do_no_page` clears its last
bytes one after the other.
-/

namespace Linux012.Mm

open Lib

/-! ## Bytes -/

namespace Kernel

/-- `*(char *)addr`. -/
def byte (kernel : Kernel) (addr : UInt32) : UInt8 :=
  byteOf (kernel.memory (addr &&& 0xfffffffc)) (addr.toNat % 4)

/-- `*(char *)addr = value`. -/
def storeByte (kernel : Kernel) (addr : UInt32) (value : UInt8) : Kernel :=
  let ptr := addr &&& 0xfffffffc
  kernel.store ptr (wordOf fun i =>
    if i = addr.toNat % 4 then value else byteOf (kernel.memory ptr) i)

/-- `COPYBLK`: the longs of a buffer. -/
def copyBlk (kernel : Kernel) (data : Nat → UInt8) (target : UInt32) : Kernel :=
  { kernel with memory := fun ptr =>
      if ptr - target < 1024 then wordOf fun i => data ((ptr - target).toNat + i)
      else kernel.memory ptr }

/-- `bread_page`, of a device whose transfers are all done: the blocks from one of the four on. -/
def breadPage (kernel : Kernel) (device : Zones.Device) (address : UInt32) : List Nat → Kernel
  | [] => kernel
  | b :: rest =>
      (if b = 0 then kernel else kernel.copyBlk (device.data b) address).breadPage device
        (address + 1024) rest

/-- The last loop of `do_no_page`. -/
def clearTail (kernel : Kernel) (tmp : UInt32) : Nat → Kernel
  | 0 => kernel
  | i + 1 => (kernel.storeByte (tmp - 1) 0).clearTail (tmp - 1) i

end Kernel

/-! ## Addresses in a page -/

section Addresses

variable {page : UInt32} {o m : Nat}

theorem long_toNat (addr : UInt32) : (addr &&& 0xfffffffc).toNat = addr.toNat / 4 * 4 := by
  have mask : UInt32.toNat 0xfffffffc = (2 ^ 30 - 1) * 2 ^ 2 := by decide
  rw [UInt32.toNat_and, mask, and_mask, Nat.mod_eq_of_lt addr.toNat_lt]
  rfl

theorem PageAligned.exists_mul (aligned : PageAligned page) : ∃ nr, page.toNat = 4096 * nr :=
  ⟨page.toNat / 4096, by rw [Nat.mul_comm, aligned.toNat]⟩

/-- The address of a byte of a page. -/
theorem inPage_toNat (aligned : PageAligned page) (small : o < 4096) :
    (page + UInt32.ofNat o).toNat = page.toNat + o := by
  obtain ⟨nr, isNr⟩ := aligned.exists_mul
  have lt := page.toNat_lt
  rw [UInt32.toNat_add, UInt32.toNat_ofNat', isNr]
  omega

theorem inPage_frame (aligned : PageAligned page) (small : o < 4096) :
    (page + UInt32.ofNat o) &&& frameMask = page := by
  have below : o / 4096 = 0 := Nat.div_eq_of_lt small
  obtain ⟨nr, isNr⟩ := aligned.exists_mul
  apply UInt32.toNat_inj.mp
  rw [frame_toNat, inPage_toNat aligned small, isNr, Nat.mul_add_div (by decide), below,
    Nat.add_zero, Nat.mul_comm]

/-- The long of a byte is in the page, too. -/
theorem long_inPage (aligned : PageAligned page) (small : o < 4096) :
    (page + UInt32.ofNat o) &&& 0xfffffffc = page + UInt32.ofNat (o / 4 * 4) := by
  obtain ⟨nr, isNr⟩ := aligned.exists_mul
  apply UInt32.toNat_inj.mp
  rw [long_toNat, inPage_toNat aligned small, inPage_toNat aligned (by omega), isNr]
  omega

theorem inPage_mod (aligned : PageAligned page) (small : o < 4096) :
    (page + UInt32.ofNat o).toNat % 4 = o % 4 := by
  obtain ⟨nr, isNr⟩ := aligned.exists_mul
  rw [inPage_toNat aligned small, isNr]
  omega

theorem inPage_inj (aligned : PageAligned page) (small : o < 4096) (small' : m < 4096)
    (same : page + UInt32.ofNat o = page + UInt32.ofNat m) : o = m := by
  have same := congrArg UInt32.toNat same
  rw [inPage_toNat aligned small, inPage_toNat aligned small'] at same
  omega

/-- One byte down. -/
theorem inPage_pred (page : UInt32) (m : Nat) :
    page + UInt32.ofNat (m + 1) - 1 = page + UInt32.ofNat m := by
  rw [UInt32.ofNat_add, ← UInt32.add_assoc]
  exact UInt32.add_sub_cancel _ _

end Addresses

/-! ## What a page holds -/

namespace Kernel

variable {kernel before after : Kernel} {page : UInt32} {o m : Nat}

/-- A byte of a page. -/
def pageByte (kernel : Kernel) (page : UInt32) (o : Nat) : UInt8 :=
  kernel.byte (page + UInt32.ofNat o)

theorem pageByte_eq (kernel : Kernel) (aligned : PageAligned page) (small : o < 4096) :
    kernel.pageByte page o = byteOf (kernel.memory (page + UInt32.ofNat (o / 4 * 4))) (o % 4) := by
  rw [pageByte, byte, long_inPage aligned small, inPage_mod aligned small]

/-- A page that is all zeros. -/
theorem pageByte_cleared (aligned : PageAligned page)
    (cleared : ∀ ptr, ptr &&& frameMask = page → kernel.memory ptr = 0) (small : o < 4096) :
    kernel.pageByte page o = 0 := by
  rw [pageByte_eq kernel aligned small, cleared _ (inPage_frame aligned (by omega)), byteOf_zero]

/-- A page that is left alone. -/
theorem pageByte_congr (aligned : PageAligned page)
    (same : ∀ ptr, ptr &&& frameMask = page → after.memory ptr = before.memory ptr)
    (small : o < 4096) : after.pageByte page o = before.pageByte page o := by
  rw [pageByte_eq after aligned small, pageByte_eq before aligned small,
    same _ (inPage_frame aligned (by omega))]

theorem pageByte_storeByte (kernel : Kernel) (aligned : PageAligned page) (value : UInt8)
    (small : o < 4096) (small' : m < 4096) :
    (kernel.storeByte (page + UInt32.ofNat m) value).pageByte page o =
      if o = m then value else kernel.pageByte page o := by
  rw [pageByte_eq _ aligned small, pageByte_eq _ aligned small, storeByte,
    long_inPage aligned small', inPage_mod aligned small']
  dsimp only [store]
  by_cases sameLong : o / 4 * 4 = m / 4 * 4
  · rw [sameLong, Function.update_self, byteOf_wordOf _ (Nat.mod_lt o (by decide))]
    by_cases same : o = m
    · rw [if_pos (congrArg (· % 4) same), if_pos same]
    · rw [if_neg (by omega), if_neg same]
  · have other : page + UInt32.ofNat (o / 4 * 4) ≠ page + UInt32.ofNat (m / 4 * 4) := fun same =>
      sameLong (inPage_inj aligned (by omega) (by omega) same)
    have differs : o ≠ m := fun same => sameLong (congrArg (· / 4 * 4) same)
    rw [Function.update_of_ne other, if_neg differs]

/-- The bytes from the end of the page down are cleared. -/
theorem pageByte_clearTail (kernel : Kernel) (aligned : PageAligned page) {count : Nat}
    (atMost : count ≤ m) (inPage : m ≤ 4096) (small : o < 4096) :
    (kernel.clearTail (page + UInt32.ofNat m) count).pageByte page o =
      if m - count ≤ o ∧ o < m then 0 else kernel.pageByte page o := by
  induction count generalizing kernel m with
  | zero => rw [clearTail, if_neg (by omega)]
  | succ count ih =>
      obtain ⟨m, rfl⟩ : ∃ less, m = less + 1 := ⟨m - 1, by omega⟩
      rw [clearTail, inPage_pred, ih _ (by omega) (by omega),
        pageByte_storeByte kernel aligned 0 small (by omega)]
      by_cases inside : m + 1 - (count + 1) ≤ o ∧ o < m
      · rw [if_pos (by omega), if_pos (by omega)]
      · rw [if_neg (by omega)]
        by_cases last : o = m
        · rw [if_pos last, if_pos (by omega)]
        · rw [if_neg last, if_neg (by omega)]

theorem pageByte_copyBlk (kernel : Kernel) (data : Nat → UInt8) (aligned : PageAligned page)
    {j : Nat} (inPage : j < 4) (small : o < 4096) :
    (kernel.copyBlk data (page + UInt32.ofNat (1024 * j))).pageByte page o =
      if o / 1024 = j then data (o % 1024) else kernel.pageByte page o := by
  have distance : (page + UInt32.ofNat (o / 4 * 4) - (page + UInt32.ofNat (1024 * j))).toNat =
      (4294967296 + o / 4 * 4 - 1024 * j) % 4294967296 := by
    obtain ⟨nr, isNr⟩ := aligned.exists_mul
    have lt := page.toNat_lt
    rw [UInt32.toNat_sub, inPage_toNat aligned (by omega), inPage_toNat aligned (by omega), isNr]
    omega
  have size : UInt32.toNat 1024 = 1024 := rfl
  rw [pageByte_eq _ aligned small, pageByte_eq _ aligned small, copyBlk]
  dsimp only
  by_cases here : o / 1024 = j
  · have inBlock : (4294967296 + o / 4 * 4 - 1024 * j) % 4294967296 = o % 1024 / 4 * 4 := by omega
    rw [if_pos here, if_pos (by rw [UInt32.lt_iff_toNat_lt, distance, size]; omega),
      byteOf_wordOf _ (Nat.mod_lt o (by decide)), distance, inBlock]
    congr 1
    omega
  · rw [if_neg here, if_neg (by rw [UInt32.lt_iff_toNat_lt, distance, size]; omega)]

/-- What is in the page behind `bread_page`: the blocks that there are. -/
theorem pageByte_breadPage (kernel : Kernel) (device : Zones.Device) (aligned : PageAligned page)
    {nr : List Nat} {j : Nat} (inPage : j + nr.length ≤ 4) (small : o < 4096) :
    (kernel.breadPage device (page + UInt32.ofNat (1024 * j)) nr).pageByte page o =
      if j ≤ o / 1024 ∧ nr.getD (o / 1024 - j) 0 ≠ 0 then
        device.data (nr.getD (o / 1024 - j) 0) (o % 1024)
      else kernel.pageByte page o := by
  induction nr generalizing kernel j with
  | nil =>
      rw [breadPage, if_neg]
      rintro ⟨_, there⟩
      exact there rfl
  | cons b rest ih =>
      have next : page + UInt32.ofNat (1024 * j) + 1024 = page + UInt32.ofNat (1024 * (j + 1)) := by
        rw [Nat.mul_succ, UInt32.ofNat_add, ← UInt32.add_assoc]
        rfl
      rw [List.length_cons] at inPage
      have unchanged (other : o / 1024 ≠ j) : (if b = 0 then kernel
          else kernel.copyBlk (device.data b) (page + UInt32.ofNat (1024 * j))).pageByte page o =
          kernel.pageByte page o := by
        split
        next => rfl
        next => rw [pageByte_copyBlk _ _ aligned (by omega) small, if_neg other]
      rw [breadPage, next, ih _ (by omega)]
      rcases Nat.lt_trichotomy (o / 1024) j with before | here | behind
      · rw [if_neg fun both => absurd both.1 (by omega), unchanged (by omega),
          if_neg fun both => absurd both.1 (by omega)]
      · rw [if_neg fun both => absurd both.1 (by omega), here, Nat.sub_self, List.getD_cons_zero]
        by_cases isHole : b = 0
        · rw [if_pos isHole, if_neg fun both => both.2 isHole]
        · rw [if_neg isHole, pageByte_copyBlk _ _ aligned (by omega) small, if_pos here,
            if_pos ⟨Nat.le_refl j, isHole⟩]
      · have later : o / 1024 - j = o / 1024 - (j + 1) + 1 := by omega
        have fromNext : j + 1 ≤ o / 1024 ↔ j ≤ o / 1024 := by omega
        rw [later, List.getD_cons_succ, unchanged (by omega)]
        exact if_congr (and_congr_left' fromNext) rfl rfl

/-- The four blocks of a page that was all zeros. -/
theorem pageByte_breadPage_cleared (device : Zones.Device) (aligned : PageAligned page)
    (cleared : ∀ ptr, ptr &&& frameMask = page → kernel.memory ptr = 0) {nr : List Nat}
    (four : nr.length = 4) (small : o < 4096) :
    (kernel.breadPage device page nr).pageByte page o =
      if nr.getD (o / 1024) 0 = 0 then 0 else device.data (nr.getD (o / 1024) 0) (o % 1024) := by
  have start : page + UInt32.ofNat (1024 * 0) = page := UInt32.add_zero page
  have read := kernel.pageByte_breadPage device aligned (by omega : 0 + nr.length ≤ 4) small
  rw [start, Nat.sub_zero, pageByte_cleared aligned cleared small] at read
  rw [read]
  by_cases isHole : nr.getD (o / 1024) 0 = 0
  · rw [if_pos isHole, if_neg fun both => both.2 isHole]
  · rw [if_neg isHole, if_pos ⟨Nat.zero_le _, isHole⟩]

/-- The end of the page is cleared. -/
theorem pageByte_clearTail_end (kernel : Kernel) (aligned : PageAligned page) {count : Nat}
    (atMost : count ≤ 4096) (small : o < 4096) :
    (kernel.clearTail (page + 4096) count).pageByte page o =
      if 4096 - count ≤ o then 0 else kernel.pageByte page o := by
  have isEnd : page + 4096 = page + UInt32.ofNat 4096 := rfl
  rw [isEnd, kernel.pageByte_clearTail aligned atMost le_rfl small]
  exact if_congr (and_iff_left small) rfl rfl

end Kernel

/-! ## What stays as it is -/

namespace Kernel

variable {kernel before after last : Kernel} {page : UInt32} {o m : Nat}

/-- Only the contents of one page are changed. -/
structure Fills (before after : Kernel) (page : UInt32) : Prop where
  memMap : after.memMap = before.memMap
  others : ∀ ptr, ptr &&& frameMask ≠ page → after.memory ptr = before.memory ptr

theorem Fills.refl (kernel : Kernel) (page : UInt32) : Fills kernel kernel page :=
  ⟨rfl, fun _ _ => rfl⟩

theorem Fills.trans (first : Fills before after page) (second : Fills after last page) :
    Fills before last page where
  memMap := second.memMap.trans first.memMap
  others ptr outside := (second.others ptr outside).trans (first.others ptr outside)

theorem fills_storeByte (kernel : Kernel) (aligned : PageAligned page) (value : UInt8)
    (small : m < 4096) : Fills kernel (kernel.storeByte (page + UInt32.ofNat m) value) page where
  memMap := rfl
  others ptr outside := by
    refine Function.update_of_ne (fun same => outside ?_) _ _
    rw [same, long_inPage aligned small, inPage_frame aligned (by omega)]

theorem fills_clearTail (kernel : Kernel) (aligned : PageAligned page) {count : Nat}
    (atMost : count ≤ m) (inPage : m ≤ 4096) :
    Fills kernel (kernel.clearTail (page + UInt32.ofNat m) count) page := by
  induction count generalizing kernel m with
  | zero => exact .refl kernel page
  | succ count ih =>
      obtain ⟨m, rfl⟩ : ∃ less, m = less + 1 := ⟨m - 1, by omega⟩
      rw [clearTail, inPage_pred]
      exact (fills_storeByte kernel aligned 0 (by omega)).trans (ih _ (by omega) (by omega))

theorem fills_copyBlk (kernel : Kernel) (data : Nat → UInt8) (aligned : PageAligned page) {j : Nat}
    (inPage : j < 4) :
    Fills kernel (kernel.copyBlk data (page + UInt32.ofNat (1024 * j))) page where
  memMap := rfl
  others ptr outside := by
    refine if_neg fun inBlock => outside (UInt32.toNat_inj.mp ?_)
    have size : UInt32.toNat 1024 = 1024 := rfl
    obtain ⟨nr, isNr⟩ := aligned.exists_mul
    have lt := page.toNat_lt
    have ptrLt := ptr.toNat_lt
    rw [UInt32.lt_iff_toNat_lt, UInt32.toNat_sub, inPage_toNat aligned (by omega), size, isNr]
      at inBlock
    have atLeast : nr * 4096 ≤ ptr.toNat := by omega
    have below : ptr.toNat < (nr + 1) * 4096 := by omega
    rw [frame_toNat, isNr, Nat.div_eq_of_lt_le atLeast below, Nat.mul_comm]

theorem fills_breadPage (kernel : Kernel) (device : Zones.Device) (aligned : PageAligned page)
    {nr : List Nat} {j : Nat} (inPage : j + nr.length ≤ 4) :
    Fills kernel (kernel.breadPage device (page + UInt32.ofNat (1024 * j)) nr) page := by
  induction nr generalizing kernel j with
  | nil => exact .refl kernel page
  | cons b rest ih =>
      have next : page + UInt32.ofNat (1024 * j) + 1024 = page + UInt32.ofNat (1024 * (j + 1)) := by
        rw [Nat.mul_succ, UInt32.ofNat_add, ← UInt32.add_assoc]
        rfl
      rw [List.length_cons] at inPage
      have first : Fills kernel (if b = 0 then kernel
          else kernel.copyBlk (device.data b) (page + UInt32.ofNat (1024 * j))) page := by
        split
        next => exact .refl kernel page
        next => exact fills_copyBlk kernel _ aligned (by omega)
      rw [breadPage, next]
      exact first.trans (ih _ (by omega))

/-- `bread_page` and the last loop of `do_no_page` change nothing but the page. -/
theorem fills_loaded (kernel : Kernel) (device : Zones.Device) (aligned : PageAligned page)
    {nr : List Nat} (four : nr.length = 4) {count : Nat} (atMost : count ≤ 4096) :
    Fills kernel ((kernel.breadPage device page nr).clearTail (page + 4096) count) page := by
  have start : page + UInt32.ofNat (1024 * 0) = page := UInt32.add_zero page
  have isEnd : page + 4096 = page + UInt32.ofNat 4096 := rfl
  have read := fills_breadPage kernel device aligned (by omega : 0 + nr.length ≤ 4)
  rw [start] at read
  rw [isEnd]
  exact read.trans (fills_clearTail _ aligned atMost le_rfl)

end Kernel

end Linux012.Mm
