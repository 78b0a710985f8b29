import Linux012.Mm.PageRuns
import Linux012.Mm.ShowMem

/-!
# The memory at the start

`mem_init` and `init_swapping` open the books: before the first fork all pages of main memory are
free, and a page of the swap device is available when its bit is set on the device.
-/

namespace Linux012.Mm

/-! ## `mem_init` -/

/-- The last loop of `mem_init`. -/
def freeFrom (memMap : UInt32 → UInt8) (i : UInt32) : Nat → UInt32 → UInt8
  | 0 => memMap
  | left + 1 => freeFrom (Function.update memMap i 0) (i + 1) left

/-- `mem_init`. -/
def Kernel.memInit (kernel : Kernel) (startMem endMem : Nat) : Kernel :=
  let allUsed := fun nr : UInt32 => if nr.toNat < pagingPages then used else kernel.memMap nr
  { kernel with
    highMemory := UInt32.ofNat endMem
    memMap := freeFrom allUsed (mapNr (UInt32.ofNat startMem)) ((endMem - startMem) >>> 12) }

theorem freeFrom_apply (memMap : UInt32 → UInt8) (i nr : UInt32) (left : Nat)
    (small : i.toNat + left < 4294967296) :
    freeFrom memMap i left nr =
      if i.toNat ≤ nr.toNat ∧ nr.toNat < i.toNat + left then 0 else memMap nr := by
  induction left generalizing memMap i with
  | zero => exact (if_neg (by omega)).symm
  | succ left ih =>
      have next : (i + 1).toNat = i.toNat + 1 := by
        rw [UInt32.toNat_add, UInt32.toNat_one]
        omega
      rw [freeFrom, ih _ _ (by omega), next]
      by_cases isFirst : nr = i
      · subst isFirst
        rw [if_neg (by omega), Function.update_self, if_pos (by omega)]
      · have differs : nr.toNat ≠ i.toNat := fun same => isFirst (UInt32.toNat_inj.mp same)
        rw [Function.update_of_ne isFirst]
        exact if_congr (by omega) rfl rfl

namespace Kernel

variable {kernel : Kernel} {startMem endMem : Nat}

/-- The page tables of the kernel are below the memory that is counted, and there are no others. -/
structure KernelTables (kernel : Kernel) : Prop where
  noUser : ∀ dirEntry < 1024, firstDir ≤ dirEntry → ¬kernel.DirPresent dirEntry
  below : ∀ dirEntry < 1024, kernel.DirPresent dirEntry →
    kernel.pgDir dirEntry &&& frameMask ≠ 0 ∧ kernel.pgDir dirEntry &&& frameMask < lowMem
  apart : ∀ first < 1024, ∀ second < 1024, kernel.DirPresent first → kernel.DirPresent second →
    kernel.pgDir first &&& frameMask = kernel.pgDir second &&& frameMask → first = second
  writable : ∀ dirEntry < firstDir, kernel.DirPresent dirEntry → ∀ pageEntry < 1024,
    3 &&& kernel.word dirEntry pageEntry ≠ 1
  lowSpace : kernel.LowSpace

/-- The bounds of main memory. -/
structure MainMemory (startMem endMem : Nat) : Prop where
  low : lowMem.toNat ≤ startMem
  order : startMem ≤ endMem
  high : endMem ≤ totalMemory.toNat
  startAligned : startMem % 4096 = 0
  endAligned : endMem % 4096 = 0

theorem MainMemory.mapNr_start (main : MainMemory startMem endMem) :
    (mapNr (UInt32.ofNat startMem)).toNat = startMem / 4096 - 768 := by
  have low : lowMem.toNat = 0x300000 := rfl
  have total : totalMemory.toNat = 0x4000000 := rfl
  have lower := main.low
  have order := main.order
  have high := main.high
  rw [mapNr_toNat, UInt32.toNat_ofNat']
  omega

/-- `mem_map` behind `mem_init`. -/
theorem memInit_memMap (kernel : Kernel) (main : MainMemory startMem endMem) (nr : UInt32) :
    (kernel.memInit startMem endMem).memMap nr =
      if startMem / 4096 ≤ nr.toNat + 768 ∧ nr.toNat + 768 < endMem / 4096 then 0
      else if nr.toNat < pagingPages then used else kernel.memMap nr := by
  have low : lowMem.toNat = 0x300000 := rfl
  have total : totalMemory.toNat = 0x4000000 := rfl
  have lower := main.low
  have order := main.order
  have high := main.high
  have startAligned := main.startAligned
  have endAligned := main.endAligned
  have count : (endMem - startMem) >>> 12 = endMem / 4096 - startMem / 4096 := by
    rw [Nat.shiftRight_eq_div_pow]
    omega
  rw [memInit]
  dsimp only
  rw [freeFrom_apply _ _ _ _ (by rw [main.mapNr_start, count]; omega), main.mapNr_start, count]
  exact if_congr (by omega) rfl rfl

/-- Before the first fork the books are right when `mem_init` is done. -/
theorem books_memInit (tables : kernel.KernelTables) (noSwap : kernel.swapBitmap = none)
    (main : MainMemory startMem endMem)
    (outside : ∀ nr : UInt32, pagingPages ≤ nr.toNat → kernel.memMap nr ≠ 0) :
    (kernel.memInit startMem endMem).Books
      (fun nr => ((kernel.memInit startMem endMem).memMap nr).toNat) 0 fun _ => False := by
  generalize isStart : kernel.memInit startMem endMem = start
  have isMap := isStart ▸ kernel.memInit_memMap main
  have isHigh : start.highMemory = UInt32.ofNat endMem := isStart ▸ rfl
  have sameMemory : start.memory = kernel.memory := isStart ▸ rfl
  have isBitmap : start.swapBitmap = none := by
    rw [← isStart]
    exact noSwap
  clear isStart
  have low : lowMem.toNat = 0x300000 := rfl
  have total : totalMemory.toNat = 0x4000000 := rfl
  have lower := main.low
  have order := main.order
  have high := main.high
  have dirs (dirEntry : Nat) : start.pgDir dirEntry = kernel.pgDir dirEntry :=
    pgDir_of_memory sameMemory dirEntry
  have words (dirEntry pageEntry : Nat) :
      start.word dirEntry pageEntry = kernel.word dirEntry pageEntry :=
    word_of_memory sameMemory dirEntry pageEntry
  have present (dirEntry : Nat) : start.DirPresent dirEntry ↔ kernel.DirPresent dirEntry := by
    rw [DirPresent, DirPresent, dirs]
  have noEntry (dirEntry pageEntry : Nat) : ¬start.UserEntry dirEntry pageEntry := fun isEntry =>
    tables.noUser dirEntry isEntry.isUser.2 isEntry.isUser.1 ((present dirEntry).mp isEntry.present)
  have mappers (nr : UInt32) : start.mappers nr = ∅ :=
    Finset.eq_empty_of_forall_notMem fun _ member => noEntry _ _ (mem_mappers.mp member).toUserEntry
  have tablesAt (nr : UInt32) : start.tablesAt nr = ∅ :=
    Finset.eq_empty_of_forall_notMem fun dirEntry member => by
      obtain ⟨inDir, isPresent, isPage, -⟩ := mem_tablesAt.mp member
      rw [dirs] at isPage
      have isLow := (tables.below dirEntry inDir ((present dirEntry).mp isPresent)).2
      exact UInt32.not_lt.mpr isPage isLow
  have noOwner {slot : Nat} (at' : Nat × Nat) : ¬start.Stores slot at'.1 at'.2 := fun stores =>
    noEntry _ _ stores.1
  refine {
    sound := ⟨fun dirEntry inDir isPresent => ?_, fun first firstIn second secondIn => ?_,
      fun nr => ?_, fun dirEntry pageEntry isEntry => absurd isEntry (noEntry _ _),
      fun dirEntry isKernel isPresent pageEntry inTable => ?_⟩
    exact' := fun nr => ?_
    kept := fun nr _ => ⟨mappers nr, tablesAt nr⟩
    tables := fun nr _ => mappers nr
    offsets := fun nr dirEntry pageEntry _ _ maps => absurd maps.toUserEntry (noEntry _ _)
    ends := ?_
    behind := fun page isPage tooHigh => ?_
    pages := fun _ member => absurd member (Multiset.notMem_zero _)
    once := Multiset.nodup_zero
    slots := {
      owners := ⟨fun slot => ⟨fun used => used.1.elim,
        fun has => has.elim fun at' stores => absurd stores (noOwner at')⟩,
        fun at' _ _ stores => absurd stores (noOwner at')⟩
      free := fun bitmap slot is => ?_
      inDevice := fun _ => False.elim }
    lowSpace := fun isPresent pageEntry inTable => ?_ }
  · rw [dirs]
    exact (tables.below dirEntry inDir ((present dirEntry).mp isPresent)).1
  · rw [present, present, dirs, dirs]
    exact tables.apart first firstIn second secondIn
  · rw [mappers, tablesAt]
    exact Nat.zero_le _
  · rw [words]
    exact tables.writable dirEntry isKernel ((present dirEntry).mp isPresent) pageEntry inTable
  · rw [mappers, tablesAt, own, Multiset.map_zero, Multiset.count_zero]
    simp
  · have endAligned := main.endAligned
    rw [isHigh, PageAligned]
    apply UInt32.toNat_inj.mp
    rw [frame_toNat, UInt32.toNat_ofNat']
    omega
  · have small := page.toNat_lt
    rw [UInt32.le_iff_toNat_le, low] at isPage
    rw [isHigh, UInt32.le_iff_toNat_le, UInt32.toNat_ofNat'] at tooHigh
    have isNr : (mapNr page).toNat = page.toNat / 4096 - 768 := by
      rw [mapNr_toNat]
      omega
    have inUse : start.memMap (mapNr page) ≠ 0 := by
      rw [isMap, if_neg (by omega)]
      split
      · decide
      · exact outside _ (by omega)
    exact fun isZero => inUse (UInt8.toNat_inj.mp isZero)
  · rw [isBitmap] at is
    cases is
  · rw [words]
    exact tables.lowSpace ((present 0).mp isPresent) pageEntry inTable

end Kernel

/-! ## `init_swapping` -/

/-- `"SWAP-SPACE"`. -/
def swapSignature : List UInt8 := [0x53, 0x57, 0x41, 0x50, 0x2d, 0x53, 0x50, 0x41, 0x43, 0x45]

/-- `bit(addr, nr)`. -/
def Kernel.bit (kernel : Kernel) (addr : UInt32) (nr : Nat) : Bool :=
  (kernel.memory (addr + 4 * UInt32.ofNat (nr / 32))).toNat.testBit (nr % 32)

/-- The bits that the first loop of `init_swapping` looks at: those of the pages that the device
does not have.  It passes over the end of the bit map when the device has all of them. -/
def badBits (swapSize : Nat) : List Nat :=
  0 :: swapSize :: List.range' (swapSize + 1) (swapBits - (swapSize + 1))

namespace Memory

open Pager

/-- `free_page` of the page that was for the bit map. -/
def giveBack (memory : Memory) (page : UInt32) : Except Stop Memory :=
  match memory.pager.kernel.freePage page with
  | none => .error .panics
  | some kernel => .ok { memory with pager := { memory.pager with kernel } }

/-- `init_swapping`, with the number of blocks of the swap device, 0 where there is none.  The page
of the bit map is the kernel's from then on. -/
def initSwapping (memory : Memory) (blocks : Nat) : Except Stop Memory :=
  if blocks < 100 then .ok memory
  else
    let swapSize := min (blocks >>> 2) swapBits
    match memory.pager.getFreePage with
    | .error stop => .error stop
    | .ok (none, pager) => .ok { memory with pager }
    | .ok (some page, pager) =>
        let kernel := pager.kernel.readSwapPage 0 page
        let memory := { memory with pager := { pager with kernel } }
        if (List.range 10).map (fun i => kernel.byte (page + 4086 + UInt32.ofNat i)) ≠ swapSignature
        then memory.giveBack page
        else
          -- `memset(swap_bitmap+4086,0,10)`
          let kernel := kernel.clearTail (page + 4096) 10
          let memory := { memory with pager := { pager with kernel } }
          if (badBits swapSize).any (kernel.bit page) then memory.giveBack page
          else if ¬(List.range' 1 (swapSize - 1)).any (kernel.bit page) then memory.giveBack page
          else
            let bitmap := fun nr => decide (nr < swapBits) && kernel.bit page nr
            .ok ⟨{ pager with kernel := { kernel with swapBitmap := some bitmap } },
              page ::ₘ memory.held⟩

variable {memory after : Memory} {reserved : UInt32 → Nat}

/-- What `init_swapping` does to the memory that it does not keep is not in the books. -/
theorem ends_giveBack {page : UInt32} {available : Nat → Prop}
    (books : memory.pager.Books reserved (page ::ₘ memory.held) available) :
    Ends reserved available (memory.giveBack page) := by
  obtain ⟨freed, isFreed, freedBooks⟩ := books.kernel.frees
  rw [giveBack, isFreed]
  exact ⟨freedBooks, books.cursors⟩

/-- The pages of the swap device that are available: those with a bit in the bit map. -/
def Available (memory : Memory) (slot : Nat) : Prop :=
  ∃ bitmap, memory.pager.kernel.swapBitmap = some bitmap ∧ bitmap slot = true

/-- There are no pages on the swap device before there is a bit map. -/
theorem books_available {kernel : Kernel} {held : Multiset UInt32}
    (books : kernel.Books reserved held fun _ => False) {available : Nat → Prop}
    {bitmap : Nat → Bool} (isAvailable : ∀ slot, available slot ↔ bitmap slot = true)
    (inDevice : ∀ slot, bitmap slot = true → 0 < slot ∧ slot < 32768) :
    Kernel.Books { kernel with swapBitmap := some bitmap } reserved held available := by
  have noOwner (slot : Nat) (at' : Nat × Nat) : ¬kernel.Stores slot at'.1 at'.2 := fun stores =>
    (books.slots.used_of_stores stores).1
  have changes : Kernel.Changes kernel { kernel with swapBitmap := some bitmap } 0 1024 :=
    ⟨fun _ _ => rfl, fun _ _ _ _ _ _ => rfl⟩
  refine books.quiet_of_slots changes (fun _ => rfl) books.kept books.pages books.once rfl {
    owners := ⟨fun slot => ⟨fun ⟨has, other, isOther, taken⟩ => ?_, fun ⟨at', stores⟩ => ?_⟩,
      fun at' _ slot stores => ?_⟩
    free := fun other slot isOther isFree => ?_
    inDevice := fun slot has => inDevice slot ((isAvailable slot).mp has) }
  · rw [Option.some.injEq] at isOther
    rw [← isOther, (isAvailable slot).mp has] at taken
    cases taken
  · rw [changes.stores_eq] at stores
    exact absurd stores (noOwner slot at')
  · rw [changes.stores_eq] at stores
    exact absurd stores (noOwner slot at')
  · rw [Option.some.injEq] at isOther
    rw [isAvailable, isOther]
    exact isFree

theorem available_eq {available : Nat → Prop} (books : memory.Books reserved available)
    (isNone : ∀ slot, ¬available slot) : memory.Available = available := by
  funext slot
  refine propext ⟨fun ⟨bitmap, isBitmap, isFree⟩ => ?_, fun has => absurd has (isNone slot)⟩
  exact books.kernel.slots.free bitmap slot isBitmap isFree

/-- How `init_swapping` ends. -/
def SwappingEnds (reserved : UInt32 → Nat) : Except Stop Memory → Prop
  | .error stop => stop = .oom
  | .ok after => after.Books reserved after.Available

theorem Ends.swapping {result : Except Stop Memory}
    (ends : Ends reserved (fun _ => False) result) : SwappingEnds reserved result := by
  cases result with
  | error stop => exact ends
  | ok after =>
      have isBooks : after.Books reserved fun _ => False := ends
      rw [SwappingEnds, available_eq isBooks fun _ => id]
      exact ends

/-- `init_swapping` ends with right books, of the pages that are available then. -/
theorem books_initSwapping (books : memory.Books reserved fun _ => False) (blocks : Nat) :
    SwappingEnds reserved (memory.initSwapping blocks) := by
  have gets := gets_getFreePage books
  rw [initSwapping]
  by_cases small : blocks < 100
  · rw [if_pos small]
    exact Ends.swapping (show Ends reserved _ (.ok memory) from books)
  rw [if_neg small]
  dsimp only
  generalize min (blocks >>> 2) swapBits = swapSize
  generalize memory.pager.getFreePage = result at gets ⊢
  rcases result with stop | ⟨page, next⟩
  · exact gets.elim
  cases page with
  | none => exact Ends.swapping (show Ends reserved _ (.ok ⟨next, memory.held⟩) from gets.1)
  | some page =>
    have isBooks := gets.1
    have isHeld : page ∈ page ::ₘ memory.held := Multiset.mem_cons_self page _
    have aligned := (isBooks.kernel.pages page isHeld).1
    have reads : Kernel.Fills next.kernel (next.kernel.readSwapPage 0 page) page :=
      ⟨rfl, fun _ outside => if_neg outside⟩
    have filled := (isBooks.kernel.fills isHeld reads rfl rfl).1
    dsimp only
    generalize next.kernel.readSwapPage 0 page = kernel at filled
    have cleared := Kernel.fills_clearTail kernel aligned (by decide : 10 ≤ 4096) le_rfl
    obtain ⟨sameHigh, sameBitmap⟩ := clearTail_others kernel (page + 4096) 10
    have emptied := (filled.fills isHeld cleared sameHigh sameBitmap).1
    have isEnd : page + UInt32.ofNat 4096 = page + 4096 := rfl
    rw [isEnd] at emptied
    by_cases noSignature :
        (List.range 10).map (fun i => kernel.byte (page + 4086 + UInt32.ofNat i)) ≠ swapSignature
    · rw [if_pos noSignature]
      have back : Ends reserved (fun _ => False)
          (giveBack ⟨⟨kernel, next.cursors⟩, memory.held⟩ page) :=
        ends_giveBack ⟨filled, isBooks.cursors⟩
      exact back.swapping
    rw [if_neg noSignature]
    generalize kernel.clearTail (page + 4096) 10 = kernel at emptied
    have back : Ends reserved (fun _ => False)
        (giveBack ⟨⟨kernel, next.cursors⟩, memory.held⟩ page) :=
      ends_giveBack ⟨emptied, isBooks.cursors⟩
    have back := back.swapping
    by_cases bad : (badBits swapSize).any (kernel.bit page) = true
    · rw [if_pos bad]
      exact back
    rw [if_neg bad]
    by_cases nothing : ¬(List.range' 1 (swapSize - 1)).any (kernel.bit page) = true
    · rw [if_pos nothing]
      exact back
    rw [if_neg nothing]
    -- The page stays the kernel's.
    have notFirst : kernel.bit page 0 = false := by
      rw [badBits, List.any_cons, Bool.or_eq_true, not_or] at bad
      exact Bool.eq_false_iff.mpr bad.1
    refine ⟨books_available emptied (fun slot => ⟨fun ⟨bitmap, isBitmap, isFree⟩ => ?_,
      fun isFree => ⟨_, rfl, isFree⟩⟩) fun slot isFree => ?_, isBooks.cursors⟩
    · rw [Option.some.injEq] at isBitmap
      exact (congrFun isBitmap slot).trans isFree
    · obtain ⟨below, isFree⟩ := Bool.and_eq_true_iff.mp isFree
      refine ⟨Nat.pos_of_ne_zero fun isZero => ?_, of_decide_eq_true below⟩
      rw [isZero, notFirst] at isFree
      cases isFree

/-- The memory at the first fork: `mem_init` and `init_swapping` are done. -/
theorem books_start {kernel : Kernel} {cursors : Cursors} {startMem endMem : Nat}
    (tables : kernel.KernelTables) (noSwap : kernel.swapBitmap = none)
    (main : Kernel.MainMemory startMem endMem) (inRange : cursors.InRange)
    (outside : ∀ nr : UInt32, pagingPages ≤ nr.toNat → kernel.memMap nr ≠ 0) (blocks : Nat) :
    SwappingEnds (fun nr => ((kernel.memInit startMem endMem).memMap nr).toNat)
      (initSwapping ⟨⟨kernel.memInit startMem endMem, cursors⟩, 0⟩ blocks) :=
  books_initSwapping ⟨Kernel.books_memInit tables noSwap main outside, inRange⟩ blocks

end Memory

/-! ## The first page of a task -/

namespace Kernel

theorem boot_noUser {dirEntry : Nat} (inDir : dirEntry < 1024) (isUser : firstDir ≤ dirEntry) :
    boot.pgDir dirEntry = 0 := by
  have four : (4 : UInt32).toNat = 4 := rfl
  have first : firstDir = 16 := rfl
  have dirEnd : (64 : UInt32).toNat = 64 := rfl
  have tables : (0x1000 : UInt32).toNat = 0x1000 := rfl
  have isPtr : (4 * UInt32.ofNat dirEntry).toNat = 4 * dirEntry := by
    rw [UInt32.toNat_mul, UInt32.toNat_ofNat', four]
    omega
  rw [pgDir, boot]
  dsimp only
  rw [if_neg (by rw [UInt32.lt_iff_toNat_lt, isPtr, dirEnd]; omega), if_neg]
  rintro ⟨inTables, -⟩
  rw [UInt32.le_iff_toNat_le, isPtr, tables] at inTables
  omega

theorem boot_tables : boot.KernelTables := by
  have noUser (dirEntry : Nat) (inDir : dirEntry < 1024) (isUser : firstDir ≤ dirEntry) :
      ¬boot.DirPresent dirEntry := by
    rw [DirPresent, boot_noUser inDir isUser]
    exact fun present => present rfl
  have isKernel {dirEntry : Nat} (inDir : dirEntry < 1024) (present : boot.DirPresent dirEntry) :
      dirEntry < firstDir := Nat.not_le.mp fun isUser => noUser dirEntry inDir isUser present
  have isFrame {dirEntry : Nat} (isKernel : dirEntry < firstDir) :
      (boot.pgDir dirEntry &&& frameMask).toNat = 0x1000 * (dirEntry + 1) := by
    have first : firstDir = 16 := rfl
    rw [boot_frame dirEntry isKernel, UInt32.toNat_ofNat']
    omega
  have low : lowMem.toNat = 0x300000 := rfl
  have first : firstDir = 16 := rfl
  refine ⟨noUser, fun dirEntry inDir present => ⟨fun isZero => ?_, ?_⟩,
    fun dir dirIn other otherIn dirPresent otherPresent same => ?_,
    fun dirEntry inKernel _ pageEntry inTable => ?_, fun _ pageEntry inTable => .inr ⟨?_, ?_⟩⟩
  · have frame := isFrame (isKernel inDir present)
    rw [isZero, UInt32.toNat_zero] at frame
    omega
  · have inKernel := isKernel inDir present
    rw [UInt32.lt_iff_toNat_lt, isFrame inKernel, low]
    omega
  · have dirFrame := isFrame (isKernel dirIn dirPresent)
    have otherFrame := isFrame (isKernel otherIn otherPresent)
    rw [same] at dirFrame
    omega
  · intro isOne
    have isWord := boot_word inKernel inTable
    have isOne := congrArg UInt32.toNat isOne
    have mask : UInt32.toNat 3 = 2 ^ 2 - 1 := rfl
    rw [UInt32.toNat_and, isWord, Nat.and_comm, mask, Nat.and_two_pow_sub_one_eq_mod,
      UInt32.toNat_one] at isOne
    omega
  · intro absent
    have isWord := boot_word (by decide : 0 < firstDir) (by omega : pageEntry < 1024)
    have absent := congrArg UInt32.toNat absent
    rw [UInt32.toNat_and, isWord, Nat.and_comm, UInt32.toNat_one, Nat.and_one_is_mod,
      UInt32.toNat_zero] at absent
    omega
  · rw [UInt32.lt_iff_toNat_lt, boot_word (by decide : 0 < firstDir) (by omega), low]
    omega

/-- The last free page is the one that is found. -/
theorem getFreePageBelow_eq {kernel : Kernel} {below nr : Nat} (less : nr < below)
    (isFree : kernel.memMap (UInt32.ofNat nr) = 0) (inMemory : pageAddr nr < kernel.highMemory)
    (others : ∀ other, nr < other → other < below → kernel.memMap (UInt32.ofNat other) ≠ 0) :
    kernel.getFreePageBelow below = some (pageAddr nr, kernel.take nr) := by
  induction below with
  | zero => exact absurd less (Nat.not_lt_zero nr)
  | succ last ih =>
      rw [getFreePageBelow]
      by_cases isLast : nr = last
      · subst isLast
        rw [if_pos isFree, if_neg (UInt32.not_le.mpr inMemory)]
      · rw [if_neg (others last (by omega) (Nat.lt_succ_self last))]
        exact ih (by omega) fun other above inRange => others other above (by omega)

end Kernel

namespace Memory

open Kernel Pager

/-- What `setup_paging` leaves, with nothing free behind the end of `mem_map`. -/
def setUp : Kernel := { boot with memMap := fun _ => used }

theorem setUp_tables : setUp.KernelTables :=
  ⟨boot_tables.noUser, boot_tables.below, boot_tables.apart, boot_tables.writable,
    boot_tables.lowSpace⟩

/-- The memory behind `mem_init`, without a swap device. -/
def start (startMem endMem : Nat) : Memory := ⟨⟨setUp.memInit startMem endMem, .init⟩, 0⟩

/-- What is not main memory. -/
def startReserved (startMem endMem : Nat) (nr : UInt32) : Nat :=
  ((setUp.memInit startMem endMem).memMap nr).toNat

theorem books_memory {startMem endMem : Nat} (main : MainMemory startMem endMem) :
    (start startMem endMem).Books (startReserved startMem endMem) fun _ => False := by
  have inUse (nr : UInt32) : setUp.memMap nr ≠ 0 := (by decide : used ≠ 0)
  exact ⟨books_memInit setUp_tables rfl main fun nr _ => inUse nr,
    ⟨(by decide : firstDir ≤ Cursors.init.dirEntry ∧ Cursors.init.dirEntry < 1024),
      (by decide : -1 ≤ Cursors.init.pageEntry ∧ Cursors.init.pageEntry ≤ 1023)⟩⟩

/-- Two pages of main memory. -/
theorem two_pages : MainMemory 0x300000 0x302000 :=
  ⟨by decide, by decide, by decide, by decide, by decide⟩

theorem start_memMap (nr : UInt32) : (setUp.memInit 0x300000 0x302000).memMap nr =
    if nr.toNat < 2 then 0 else used := by
  refine (setUp.memInit_memMap two_pages nr).trans ?_
  by_cases isFree : nr.toNat < 2
  · rw [if_pos (by omega), if_pos isFree]
  · rw [if_neg (by omega), if_neg isFree]
    split <;> rfl

/-- A task gets its first page: the last one of the memory, and its page table the one before. -/
def second : Memory :=
  ⟨⟨((((setUp.memInit 0x300000 0x302000).take 1).take 0).store 64 (0x300000 ||| 7)).store
    0x300000 (0x301000 ||| (pageDirty ||| 7)), .init⟩, 0⟩

theorem getFreePage_first : (start 0x300000 0x302000).pager.getFreePage =
    .ok (some 0x301000, ⟨(setUp.memInit 0x300000 0x302000).take 1, .init⟩) := by
  have isPage : pageAddr 1 = 0x301000 := by decide
  have isLess : 1 < pagingPages := by decide
  rw [← isPage]
  refine getFreePage_of_found .init (getFreePageBelow_eq isLess ?_ (by decide)
    fun other above below => ?_)
  · rw [start_memMap]
    decide
  · have small : other < 15616 := below
    rw [start_memMap, if_neg (by rw [UInt32.toNat_ofNat']; omega)]
    decide

theorem getFreePage_second :
    getFreePage ⟨(setUp.memInit 0x300000 0x302000).take 1, .init⟩ = .ok (some 0x300000,
      ⟨((setUp.memInit 0x300000 0x302000).take 1).take 0, .init⟩) := by
  have marked (nr : UInt32) : ((setUp.memInit 0x300000 0x302000).take 1).memMap nr =
      if nr = 1 then 1 else (setUp.memInit 0x300000 0x302000).memMap nr :=
    Function.update_apply _ _ _ _
  have isPage : pageAddr 0 = 0x300000 := by decide
  have isLess : 0 < pagingPages := by decide
  rw [← isPage]
  refine getFreePage_of_found .init (getFreePageBelow_eq isLess ?_ (by decide)
    fun other above below => ?_)
  · rw [marked, if_neg (by decide), start_memMap]
    decide
  · have small : other < 15616 := below
    rw [marked]
    split
    · decide
    · next notOne =>
      have notOne : other ≠ 1 := fun isOne => notOne (isOne ▸ rfl)
      rw [start_memMap, if_neg (by rw [UInt32.toNat_ofNat']; omega)]
      decide

/-- A page is put where there is no page table yet. -/
theorem putEntry_of_absent {pager next : Pager} {address value table : UInt32}
    (absent : ¬pager.kernel.memory ((address >>> 20) &&& 0xffc) &&& 1 ≠ 0)
    (isFound : pager.getFreePage = .ok (some table, next)) :
    pager.putEntry address value = .ok (true,
      let pageEntry : UInt32 := (address >>> 12) &&& 0x3ff
      ⟨(next.kernel.store ((address >>> 20) &&& 0xffc) (table ||| 7)).store
        (table + 4 * pageEntry) value, next.cursors⟩) := by
  rw [putEntry]
  dsimp only
  rw [if_neg absent, isFound]

theorem run_second : Run (start 0x300000 0x302000) second := by
  have isFirst : (start 0x300000 0x302000).step .getFreePage =
      some ⟨⟨(setUp.memInit 0x300000 0x302000).take 1, .init⟩, {0x301000}⟩ := by
    rw [step, call, getFreePage_first]
    rfl
  have isSecond : step ⟨⟨(setUp.memInit 0x300000 0x302000).take 1, .init⟩, {0x301000}⟩
      (.putDirtyPage 0x301000 0x4000000) = some second := by
    rw [step, call, putDirtyPage, putEntry_of_absent (by decide) getFreePage_second]
    rfl
  refine ⟨[.getFreePage, .putDirtyPage 0x301000 0x4000000], ?_, ⟨trivial, trivial⟩,
    fun next isNext => ⟨⟨?_, trivial⟩, fun _ _ => trivial⟩⟩
  · rw [Lib.exec, isFirst]
    exact Lib.exec_cons_eq_some.mpr ⟨second, isSecond, rfl⟩
  · rw [isFirst] at isNext
    cases isNext
    exact ⟨Multiset.mem_singleton_self _, by decide, fun present => absurd present (by decide)⟩

theorem writable_second : Writable second.pager.kernel 0x4000000 :=
  ⟨⟨1, ⟨⟨by decide, by decide, by decide⟩, by decide, by decide, by decide⟩⟩, by decide⟩

theorem no_memory : MainMemory 0x300000 0x300000 :=
  ⟨by decide, by decide, by decide, by decide, by decide⟩

/-- Where there is no main memory, there is no page for anybody. -/
theorem getFreePage_of_reserved {memory : Memory} {reserved : UInt32 → Nat}
    {available : Nat → Prop} (books : memory.Books reserved available)
    (all : ∀ nr, reserved nr ≠ 0) : ∃ pager, memory.pager.getFreePage = .ok (none, pager) ∧
      Evicts memory.pager.kernel pager.kernel := by
  have gets := gets_getFreePage books
  rcases isFound : memory.pager.getFreePage with stop | ⟨page, pager⟩
  · rw [isFound] at gets
    exact gets.elim
  rw [isFound] at gets
  cases page with
  | none => exact ⟨pager, rfl, gets.2⟩
  | some page =>
    obtain ⟨-, -, none⟩ := gets.1.kernel.pages page (Multiset.mem_cons_self _ _)
    exact absurd none (all _)

theorem startReserved_empty (nr : UInt32) : startReserved 0x300000 0x300000 nr ≠ 0 := by
  have inUse : (setUp.memInit 0x300000 0x300000).memMap nr ≠ 0 := by
    rw [setUp.memInit_memMap no_memory, if_neg (by omega)]
    split <;> exact (by decide : used ≠ 0)
  exact fun isZero => inUse (UInt8.toNat_inj.mp isZero)

theorem fork_fails_empty : ∃ last, (start 0x300000 0x300000).pager.copyMem (baseOf 0) (baseOf 1)
    (dataLimit 0) = .ok (false, last) := by
  obtain ⟨pager, isFound, evicts⟩ :=
    getFreePage_of_reserved (books_memory no_memory) startReserved_empty
  have toDir : ((baseOf 1 >>> 20) &&& 0xffc) = 64 := by decide
  have fromDir : ((baseOf 0 >>> 20) &&& 0xffc) = 0 := by decide
  have tail : copyTail (dataLimit 0) = 160 := by decide
  have count : tableCount (dataLimit 0) = 1 := by decide
  have copied : (start 0x300000 0x300000).pager.copyPageTables (baseOf 0) (baseOf 1)
      (dataLimit 0) = .ok (false, pager) := by
    rw [Pager.copyPageTables, if_neg (by decide), toDir, fromDir, tail, count, copySlots,
      if_neg (by decide), if_neg (by decide), copyTable, isFound]
  have isAbsent : pager.kernel.memory 64 = 0 := (evicts.dirs 16 (by decide)).trans (by decide)
  have freed : pager.kernel.freePageTables (baseOf 1) (dataLimit 0) = some pager.kernel := by
    have size : ((dataLimit 0 + 0x3fffff) >>> 22).toNat = 1 := by decide
    rw [freePageTables, if_neg (by decide), if_neg (by decide), toDir, size, freeSlots, isAbsent,
      if_pos (by decide), freeSlots]
  refine ⟨pager, ?_⟩
  rw [copyMem, copied]
  dsimp only
  rw [freed]

end Memory

end Linux012.Mm
