import Linux012.Mm.Reclaim

/-!
# The calls that change page tables

`un_wp_page`, `swap_in`, `put_page`, `put_dirty_page` and `do_no_page` keep the books.
-/

namespace Linux012.Mm

namespace Kernel

variable {kernel before after : Kernel} {nr : UInt32} {dirEntry pageEntry : Nat}
variable {reserved : UInt32 → Nat} {held : Multiset UInt32} {available : Nat → Prop}

@[simp] theorem release_highMemory (kernel : Kernel) (page : UInt32) :
    (kernel.release page).highMemory = kernel.highMemory := by
  rw [release]
  split <;> rfl

@[simp] theorem release_swapBitmap (kernel : Kernel) (page : UInt32) :
    (kernel.release page).swapBitmap = kernel.swapBitmap := by
  rw [release]
  split <;> rfl

/-- One reference less to the page of an entry, if it has one. -/
theorem release_toNat {word : UInt32} (present : pagePresent &&& word ≠ 0)
    (inUse : lowMem ≤ word → kernel.memMap (mapNr word) ≠ 0) (nr : UInt32) :
    ((kernel.release (word &&& frameMask)).memMap nr).toNat + Lib.refOf (pageNr word) nr =
      (kernel.memMap nr).toNat := by
  rw [release]
  by_cases isPage : lowMem ≤ word
  · rw [if_pos (lowMem_le_frame.mpr isPage), mapNr_frame, pageNr_of_mapped present isPage]
    exact released_toNat (inUse isPage) nr
  · rw [if_neg fun high => isPage (lowMem_le_frame.mp high), pageNr, if_neg fun both =>
      isPage both.2]
    rfl

theorem pageNr_or_two (word : UInt32) : pageNr (word ||| 2) = pageNr word := by
  have isPage : lowMem ≤ word ||| 2 ↔ lowMem ≤ word := by
    rw [← lowMem_le_frame, frame_or_two, lowMem_le_frame]
  rw [pageNr, pageNr, present_or_two, mapNr_or_two]
  simp only [isPage]

/-! ## Values of entries -/

/-- The value that an entry gets with a page: it is present and may be written. -/
structure Entry (page value : UInt32) : Prop where
  frame : value &&& frameMask = page
  present : pagePresent &&& value ≠ 0

theorem entry_or_seven {page : UInt32} (aligned : PageAligned page) : Entry page (page ||| 7) where
  frame := frame_or_seven aligned
  present := by
    rw [and_or_distrib]
    exact or_ne_zero (by decide)

theorem entry_or_dirty {page : UInt32} (aligned : PageAligned page) :
    Entry page (page ||| (pageDirty ||| 7)) where
  frame := by
    rw [UInt32.and_comm, and_or_distrib]
    have none : frameMask &&& (pageDirty ||| 7) = 0 := by decide
    rw [none, UInt32.or_zero, UInt32.and_comm, aligned]
  present := by
    rw [and_or_distrib]
    exact or_ne_zero (by decide)

namespace Entry

variable {page value : UInt32} (isEntry : Entry page value)
include isEntry

theorem lowMem_le (isPage : lowMem ≤ page) : lowMem ≤ value := by
  rw [← lowMem_le_frame, isEntry.frame]
  exact isPage

theorem mapNr_eq : mapNr value = mapNr page := by rw [← mapNr_frame, isEntry.frame]

theorem pageNr_eq (isPage : lowMem ≤ page) : pageNr value = some (mapNr page) := by
  rw [pageNr_of_mapped isEntry.present (isEntry.lowMem_le isPage), isEntry.mapNr_eq]

end Entry

/-! ## An entry gets a page that the kernel has kept -/

/-- A page that the kernel has kept goes into the place of what the entry had before. -/
theorem Books.replace {page value : UInt32}
    (books : before.Books reserved (page ::ₘ held) available)
    (changes : Changes before after dirEntry pageEntry)
    (isEntry : before.UserEntry dirEntry pageEntry)
    (isWord : after.word dirEntry pageEntry = value) (isValue : Entry page value)
    (released : ∀ nr, (after.memMap nr).toNat +
      Lib.refOf (pageNr (before.word dirEntry pageEntry)) nr = (before.memMap nr).toNat)
    (sameHigh : after.highMemory = before.highMemory) (slots : after.Slots available) :
    after.Books reserved held available := by
  have isHeld : page ∈ page ::ₘ held := Multiset.mem_cons_self page held
  obtain ⟨-, isPage, -⟩ := books.pages page isHeld
  obtain ⟨isOwn, taken, notMapped, noTable⟩ := books.of_mem isHeld
  subst isWord
  have isNr := isValue.pageNr_eq isPage
  rw [own_cons, Lib.refOf_self] at isOwn
  refine books.change changes isEntry (Multiset.le_cons_self held page) (fun nr => ?_)
    (fun nr isNew _ => ?_) (fun _ _ => ⟨isValue.lowMem_le isPage, ?_⟩) sameHigh slots
  · rw [own_cons, isNr]
    have released := released nr
    omega
  · rw [isNr, Option.some.injEq] at isNew
    subst isNew
    refine ⟨by omega, noTable, fun other otherEntry maps => ?_⟩
    have member := mem_mappers.mpr maps
    rw [notMapped] at member
    cases member
  · rw [isValue.mapNr_eq]
    have released := released (mapNr page)
    have notNr : pageNr (before.word dirEntry pageEntry) ≠ some (mapNr page) := fun wasNr => by
      have member := mem_mappers.mpr (maps_iff.mpr ⟨isEntry, wasNr⟩)
      rw [notMapped] at member
      cases member
    rw [Lib.refOf, if_neg notNr, taken, Nat.add_zero] at released
    exact UInt8.toNat_inj.mp released

/-! ## A new page table -/

theorem dirPtr_inj {other : Nat} (inDir : dirEntry < 1024) (otherIn : other < 1024)
    (same : 4 * UInt32.ofNat dirEntry = 4 * UInt32.ofNat other) : dirEntry = other := by
  have four : (4 : UInt32).toNat = 4 := rfl
  have same := congrArg UInt32.toNat same
  rw [UInt32.toNat_mul, UInt32.toNat_mul, UInt32.toNat_ofNat', UInt32.toNat_ofNat', four] at same
  omega

/-- A store in the page directory changes the one directory entry. -/
theorem dirChanges_of_store (sound : kernel.Sound) (inDir : dirEntry < 1024) (value : UInt32) :
    DirChanges kernel (kernel.store (4 * UInt32.ofNat dirEntry) value) dirEntry ∧
      (kernel.store (4 * UInt32.ofNat dirEntry) value).pgDir dirEntry = value := by
  have dirs (other : Nat) (otherIn : other < 1024) (differs : other ≠ dirEntry) :
      (kernel.store (4 * UInt32.ofNat dirEntry) value).pgDir other = kernel.pgDir other :=
    Function.update_of_ne (fun same => differs (dirPtr_inj otherIn inDir same)) _ _
  refine ⟨⟨dirs, fun other otherIn differs present pageEntry inTable => ?_⟩,
    Function.update_self _ _ _⟩
  rw [word, word, entry, entry, dirs other otherIn differs]
  refine Function.update_of_ne (fun same => sound.tables other otherIn present ?_) _ _
  have inFrame := entryPtr_frame (pageAligned_frame (kernel.pgDir other)) inTable
  rw [same, dir_frame inDir] at inFrame
  exact inFrame.symm

/-- A page that the kernel has cleared becomes a page table. -/
theorem Books.addTable {table : UInt32} (books : kernel.Books reserved (table ::ₘ held) available)
    (isUser : firstDir ≤ dirEntry ∧ dirEntry < 1024) (absent : ¬kernel.DirPresent dirEntry)
    (cleared : ∀ ptr, ptr &&& frameMask = table → kernel.memory ptr = 0) :
    let after := kernel.store (4 * UInt32.ofNat dirEntry) (table ||| 7)
    after.Books reserved held available ∧ DirChanges kernel after dirEntry ∧
      after.pgDir dirEntry = table ||| 7 ∧ after.DirPresent dirEntry ∧
      ∀ pageEntry < 1024, after.word dirEntry pageEntry = 0 := by
  intro after
  have isHeld : table ∈ table ::ₘ held := Multiset.mem_cons_self table held
  obtain ⟨aligned, isPage, -⟩ := books.pages table isHeld
  obtain ⟨isOwn, taken, notMapped, noTable⟩ := books.of_mem isHeld
  obtain ⟨changes, isDir⟩ := dirChanges_of_store books.sound isUser.2 (table ||| 7)
  change after.pgDir dirEntry = _ at isDir
  have isTable : after.pgDir dirEntry &&& frameMask = table := isDir ▸ frame_or_seven aligned
  have present : after.DirPresent dirEntry := by
    rw [DirPresent, isDir, UInt32.and_comm, and_or_distrib]
    exact or_ne_zero (by decide)
  have isNr : tableNr (after.pgDir dirEntry) = some (mapNr table) :=
    tableNr_eq_some.mpr ⟨present, isTable.symm ▸ isPage, by rw [← mapNr_frame, isTable]⟩
  have notDir : table ≠ 0 := by
    rintro rfl
    exact absurd isPage (by decide)
  have isEmpty (pageEntry : Nat) (inTable : pageEntry < 1024) :
      after.word dirEntry pageEntry = 0 := by
    rw [word, entry, isTable]
    have inFrame := entryPtr_frame aligned inTable
    refine (Function.update_of_ne (fun same => notDir ?_) _ _).trans (cleared _ inFrame)
    rw [← inFrame, same, dir_frame isUser.2]
  have wasNone : tableNr (kernel.pgDir dirEntry) = none := if_neg fun both => absent both.1
  rw [own_cons, Lib.refOf_self] at isOwn
  refine ⟨books.changeDir changes isUser (fun isPresent => absurd isPresent absent)
    (fun _ => isEmpty) (Multiset.le_cons_self held table) (fun nr => ?_)
    (fun _ => isTable.symm ▸ isPage) (fun nr isNew => ?_) rfl rfl, changes, isDir, present, isEmpty⟩
  · have sameMap : after.memMap nr = kernel.memMap nr := rfl
    rw [own_cons, isNr, wasNone, Lib.refOf_none, sameMap]
    omega
  · rw [isNr, Option.some.injEq] at isNew
    subst isNew
    exact ⟨by omega, notMapped, noTable⟩

end Kernel

namespace Pager

open Kernel

variable {pager after : Pager} {reserved : UInt32 → Nat} {held : Multiset UInt32}
variable {available : Nat → Prop} {dirEntry pageEntry : Nat}

/-- A call returns with the books kept, or there is no memory left for the task. -/
def Ends (reserved : UInt32 → Nat) (held : Multiset UInt32) (available : Nat → Prop) :
    Except Stop Pager → Prop
  | .error stop => stop = .oom
  | .ok after => after.Books reserved held available

/-! ## `un_wp_page` -/

/-- When `un_wp_page` copies a page, its entry is still there behind `get_free_page`. -/
def KeepsCopy (pager : Pager) (dirEntry pageEntry : Nat) : Prop :=
  ¬(lowMem ≤ pager.kernel.word dirEntry pageEntry &&& frameMask ∧
      pager.kernel.memMap (mapNr (pager.kernel.word dirEntry pageEntry &&& frameMask)) = 1) →
    ∀ page next, pager.getFreePage = .ok (some page, next) →
      next.kernel.word dirEntry pageEntry = pager.kernel.word dirEntry pageEntry

/-- `un_wp_page` keeps the books when the entry that it copies is still there. -/
theorem books_unWpPage (books : pager.Books reserved held available)
    (isEntry : pager.kernel.UserEntry dirEntry pageEntry)
    (mapped : pagePresent &&& pager.kernel.word dirEntry pageEntry ≠ 0)
    (keeps : pager.KeepsCopy dirEntry pageEntry) :
    Ends reserved held available (pager.unWpPage (pager.kernel.entry dirEntry pageEntry)) := by
  have isWord : pager.kernel.memory (pager.kernel.entry dirEntry pageEntry) =
      pager.kernel.word dirEntry pageEntry := rfl
  have gets := gets_getFreePage books
  rw [unWpPage, isWord]
  by_cases only : lowMem ≤ pager.kernel.word dirEntry pageEntry &&& frameMask ∧
      pager.kernel.memMap (mapNr (pager.kernel.word dirEntry pageEntry &&& frameMask)) = 1
  · rw [if_pos only]
    obtain ⟨changes, isNew⟩ := changes_of_store books.kernel.sound isEntry
      (pager.kernel.word dirEntry pageEntry ||| 2)
    obtain ⟨isPage, one⟩ := only
    rw [mapNr_frame] at one
    have sameNr := pageNr_or_two (pager.kernel.word dirEntry pageEntry)
    refine ⟨books.kernel.change changes isEntry le_rfl (fun nr => ?_)
      (fun nr isNr wasNot => ?_) (fun _ _ => ?_) rfl ?_, books.cursors⟩
    · rw [isNew, sameNr]
      rfl
    · rw [isNew, sameNr] at isNr
      exact absurd isNr wasNot
    · rw [isNew, mapNr_or_two, ← lowMem_le_frame, frame_or_two]
      exact ⟨isPage, one⟩
    · refine books.kernel.slots.change changes ?_ rfl
      rw [isNew, slotNr_of_present mapped, slotNr_of_present (by rwa [present_or_two])]
  · rw [if_neg only]
    rcases isFound : pager.getFreePage with stop | ⟨page, next⟩
    · rw [isFound] at gets
      exact gets.elim
    cases page with
    | none => rfl
    | some page =>
      rw [isFound] at gets
      obtain ⟨books', evicts, -⟩ := gets
      have same := keeps only page next isFound
      have isEntry' := evicts.userEntry.mpr isEntry
      rw [← evicts.entry isEntry.isUser.2, ← same]
      rw [← same] at mapped
      have unused := books'.kernel.unused (Multiset.mem_cons_self page held)
      obtain ⟨changes, isNew⟩ := changes_of_copy (next.kernel.word dirEntry pageEntry &&& frameMask)
        books'.kernel.sound isEntry' unused
      have isValue := entry_or_seven unused.aligned
      refine ⟨books'.kernel.replace changes isEntry' isNew isValue (fun nr => ?_)
        (release_highMemory _ _) ?_, books'.cursors⟩
      · exact release_toNat mapped (fun isPage =>
          (books'.kernel.of_maps ⟨isEntry', mapped, isPage, rfl⟩).2.2.1) nr
      · refine books'.kernel.slots.change changes ?_ (release_swapBitmap _ _)
        rw [isNew, slotNr_of_present mapped, slotNr_of_present isValue.present]

/-- `TASK_SIZE`. -/
abbrev taskSize : UInt32 := 0x4000000

/-- `do_wp_page`, with the start of the code of the current task; `none` where the task ends. -/
def doWpPage (pager : Pager) (startCode address : UInt32) : Except Stop (Option Pager) :=
  if address - startCode > taskSize then .ok none
  else
    let pageTable := frameMask &&& pager.kernel.memory ((address >>> 20) &&& 0xffc)
    (pager.unWpPage (((address >>> 10) &&& (0xffc : UInt32)) + pageTable)).map some

/-- How `do_wp_page` ends. -/
def WpEnds (reserved : UInt32 → Nat) (held : Multiset UInt32) (available : Nat → Prop) :
    Except Stop (Option Pager) → Prop
  | .error stop => stop = .oom
  | .ok none => True
  | .ok (some after) => after.Books reserved held available

/-- `do_wp_page` keeps the books, for an entry that has its page. -/
theorem books_doWpPage {address : UInt32} (books : pager.Books reserved held available)
    (startCode : UInt32) (isEntry : pager.kernel.UserEntry (dirOf address) (entryOf address))
    (mapped : pagePresent &&& pager.kernel.word (dirOf address) (entryOf address) ≠ 0)
    (keeps : pager.KeepsCopy (dirOf address) (entryOf address)) :
    WpEnds reserved held available (pager.doWpPage startCode address) := by
  have ends := books_unWpPage books isEntry mapped keeps
  rw [doWpPage]
  by_cases outside : address - startCode > taskSize
  · rw [if_pos outside]
    trivial
  rw [if_neg outside, dirPtr_eq, entryOffset_eq, UInt32.and_comm frameMask]
  dsimp only
  have isPtr : 4 * UInt32.ofNat (entryOf address) +
      (pager.kernel.memory (4 * UInt32.ofNat (dirOf address)) &&& frameMask) =
        pager.kernel.entry (dirOf address) (entryOf address) := UInt32.add_comm _ _
  rw [isPtr]
  generalize pager.unWpPage (pager.kernel.entry (dirOf address) (entryOf address)) = result
    at ends ⊢
  cases result with
  | error stop => exact ends
  | ok after => exact ends

/-- `write_verify` keeps the books. -/
theorem books_writeVerify {address : UInt32} (books : pager.Books reserved held available)
    (keeps : pager.KeepsEntry address) :
    Ends reserved held available (pager.writeVerify address) := by
  rw [writeVerify_eq]
  by_cases absent : pager.kernel.pgDir (dirOf address) &&& 1 = 0
  · rw [if_pos absent]
    exact books
  rw [if_neg absent]
  by_cases isProtected : 3 &&& pager.kernel.word (dirOf address) (entryOf address) = 1
  · rw [if_pos isProtected]
    have isUser : firstDir ≤ dirOf address := Nat.not_lt.mp fun isKernel =>
      books.kernel.sound.kernelSpace _ isKernel absent _ (entryOf_lt address) isProtected
    have mapped : pagePresent &&& pager.kernel.word (dirOf address) (entryOf address) ≠ 0 := by
      have bit : (1 : UInt32) = 1 &&& 3 := by decide
      rw [pagePresent, bit, UInt32.and_assoc, isProtected]
      decide
    exact books_unWpPage books ⟨⟨isUser, dirOf_lt address⟩, absent, entryOf_lt address⟩ mapped
      fun notOnly => keeps ⟨absent, isProtected, notOnly⟩
  · rw [if_neg isProtected]
    exact books

/-! ## `swap_in` -/

/-- `swap_in` keeps the books. -/
theorem books_swapIn (books : pager.Books reserved held available)
    (isEntry : pager.kernel.UserEntry dirEntry pageEntry) :
    Ends reserved held available (pager.swapIn (pager.kernel.entry dirEntry pageEntry)) := by
  have isWord : pager.kernel.memory (pager.kernel.entry dirEntry pageEntry) =
      pager.kernel.word dirEntry pageEntry := rfl
  have gets := gets_getFreePage books
  rw [swapIn, isWord]
  dsimp only
  by_cases noBitmap : pager.kernel.swapBitmap.isNone = true
  · rw [if_pos noBitmap]
    exact books
  rw [if_neg noBitmap]
  by_cases present : 1 &&& pager.kernel.word dirEntry pageEntry ≠ 0
  · rw [if_pos present]
    exact books
  rw [if_neg present]
  by_cases noSlot : pager.kernel.word dirEntry pageEntry >>> 1 = 0
  · rw [if_pos noSlot]
    exact books
  rw [if_neg noSlot]
  rcases isFound : pager.getFreePage with stop | ⟨page, next⟩
  · rw [isFound] at gets
    exact gets.elim
  cases page with
  | none => rfl
  | some page =>
    rw [isFound] at gets
    obtain ⟨books', evicts, -⟩ := gets
    have absent : pagePresent &&& pager.kernel.word dirEntry pageEntry = 0 :=
      Decidable.not_not.mp present
    have same := evicts.word_of_absent isEntry absent
    have isHeld : page ∈ page ::ₘ held := Multiset.mem_cons_self page held
    have aligned := (books'.kernel.pages page isHeld).1
    generalize isSlot : (pager.kernel.word dirEntry pageEntry >>> 1).toNat = slot
    dsimp only
    -- The page is read, and then goes into the entry.
    have fills : Fills next.kernel (next.kernel.readSwapPage slot page) page :=
      ⟨rfl, fun _ outside => if_neg outside⟩
    obtain ⟨filled, quiet⟩ := books'.kernel.fills isHeld fills rfl rfl
    have evicts := evicts.trans quiet
    have isEntry' := evicts.userEntry.mpr isEntry
    have same := evicts.word_of_absent isEntry absent
    rw [← evicts.entry isEntry.isUser.2]
    generalize next.kernel.readSwapPage slot page = filledKernel at filled isEntry' same ⊢
    obtain ⟨changes, isNew⟩ := changes_of_store filled.sound isEntry'
      (page ||| (pageDirty ||| 7))
    have isValue := entry_or_dirty aligned
    have hasSlot : slotNr (filledKernel.word dirEntry pageEntry) = some slot := by
      rw [same, slotNr_eq_some]
      exact ⟨absent, noSlot, isSlot⟩
    obtain ⟨-, bitmap, isBitmap, -⟩ := filled.slots.used_of_stores ⟨isEntry', hasSlot⟩
    let last : Kernel := (filledKernel.setSwapBit slot).store
      (filledKernel.entry dirEntry pageEntry) (page ||| (pageDirty ||| 7))
    have changes : Changes filledKernel last dirEntry pageEntry := ⟨changes.dirs, changes.words⟩
    have isNew : last.word dirEntry pageEntry = page ||| (pageDirty ||| 7) := isNew
    have released : last.swapBitmap = some (Function.update bitmap slot true) := by
      change filledKernel.swapBitmap.map (fun bitmap => Function.update bitmap slot true) = _
      rw [isBitmap]
      rfl
    have isNone : slotNr (last.word dirEntry pageEntry) = none :=
      isNew ▸ slotNr_of_present isValue.present
    refine ⟨filled.replace changes isEntry' isNew isValue (fun nr => ?_) rfl
      (filled.slots.release changes isEntry' hasSlot isNone isBitmap released), books'.cursors⟩
    rw [same, pageNr_of_absent absent]
    rfl

/-! ## `put_page` and `put_dirty_page` -/

/-- What `put_page` and `put_dirty_page` do with the value of the entry; `false` where they
return 0. -/
def putEntry (pager : Pager) (address value : UInt32) : Except Stop (Bool × Pager) :=
  let dir := (address >>> 20) &&& 0xffc
  let pageEntry := (address >>> 12) &&& 0x3ff
  if pager.kernel.memory dir &&& 1 ≠ 0 then
    let pageTable := pager.kernel.memory dir &&& frameMask
    .ok (true, { pager with kernel := pager.kernel.store (pageTable + 4 * pageEntry) value })
  else
    match pager.getFreePage with
    | .error stop => .error stop
    | .ok (none, pager) => .ok (false, pager)
    | .ok (some pageTable, pager) =>
        let kernel := pager.kernel.store dir (pageTable ||| 7)
        .ok (true, { pager with kernel := kernel.store (pageTable + 4 * pageEntry) value })

/-- `put_dirty_page`; `false` where it returns 0. -/
def putDirtyPage (pager : Pager) (page address : UInt32) : Except Stop (Bool × Pager) :=
  pager.putEntry address (page ||| (pageDirty ||| 7))

theorem putPage_eq (pager : Pager) (page address : UInt32) :
    pager.putPage page address = pager.putEntry address (page ||| 7) := rfl

/-- The page is in the entry, or still the kernel's. -/
def Puts (reserved : UInt32 → Nat) (held : Multiset UInt32) (page : UInt32)
    (available : Nat → Prop) : Except Stop (Bool × Pager) → Prop
  | .error _ => False
  | .ok (true, after) => after.Books reserved held available
  | .ok (false, after) => after.Books reserved (page ::ₘ held) available

/-- The page of an address is neither in memory nor on the swap device. -/
def Vacant (kernel : Kernel) (address : UInt32) : Prop :=
  kernel.DirPresent (dirOf address) → kernel.word (dirOf address) (entryOf address) = 0

theorem Vacant.of_evicts {before after : Kernel} {address : UInt32} (vacant : Vacant before address)
    (isUser : firstDir ≤ dirOf address) (evicts : Evicts before after) : Vacant after address := by
  intro present
  have wasPresent := (evicts.dirPresent (dirOf_lt address)).mp present
  have isZero := vacant wasPresent
  rw [evicts.word_of_absent ⟨⟨isUser, dirOf_lt address⟩, wasPresent, entryOf_lt address⟩
    (by rw [isZero]; rfl), isZero]

/-- An empty entry gets a page that the kernel has kept. -/
theorem books_of_put {kernel : Kernel} {page value : UInt32}
    (books : kernel.Books reserved (page ::ₘ held) available)
    (isEntry : kernel.UserEntry dirEntry pageEntry) (isZero : kernel.word dirEntry pageEntry = 0)
    (isValue : Entry page value) :
    (kernel.store (kernel.entry dirEntry pageEntry) value).Books reserved held available := by
  obtain ⟨changes, isNew⟩ := changes_of_store books.sound isEntry value
  refine books.replace changes isEntry isNew isValue (fun nr => ?_) rfl
    (books.slots.change changes ?_ rfl)
  · rw [isZero, pageNr_zero]
    rfl
  · rw [isNew, isZero, slotNr_zero, slotNr_of_present isValue.present]

/-- A page is put into a vacant place. -/
theorem puts_putEntry {page value address : UInt32}
    (books : pager.Books reserved (page ::ₘ held) available) (isUser : firstDir ≤ dirOf address)
    (vacant : Vacant pager.kernel address) (isValue : Entry page value) :
    Puts reserved held page available (pager.putEntry address value) := by
  have inDir := dirOf_lt address
  have inTable := entryOf_lt address
  have gets := gets_getFreePage books
  rw [putEntry, dirPtr_eq, entryNr_eq]
  dsimp only
  by_cases present : pager.kernel.DirPresent (dirOf address)
  · have isDir : pager.kernel.memory (4 * UInt32.ofNat (dirOf address)) &&& 1 ≠ 0 := present
    rw [if_pos isDir]
    exact ⟨books_of_put books.kernel ⟨⟨isUser, inDir⟩, present, inTable⟩ (vacant present) isValue,
      books.cursors⟩
  · have isDir : ¬pager.kernel.memory (4 * UInt32.ofNat (dirOf address)) &&& 1 ≠ 0 := present
    rw [if_neg isDir]
    rcases isFound : pager.getFreePage with stop | ⟨table, next⟩
    · rw [isFound] at gets
      exact gets.elim
    rw [isFound] at gets
    cases table with
    | none => exact gets.1
    | some table =>
      obtain ⟨books', evicts, cleared⟩ := gets
      have absent := (evicts.dirPresent inDir).not.mpr present
      have aligned := (books'.kernel.pages table (Multiset.mem_cons_self _ _)).1
      obtain ⟨hasTable, -, isTable, isPresent, isZero⟩ :=
        books'.kernel.addTable ⟨isUser, inDir⟩ absent cleared
      have put := books_of_put hasTable ⟨⟨isUser, inDir⟩, isPresent, inTable⟩
        (isZero _ inTable) isValue
      rw [entry, isTable, frame_or_seven aligned] at put
      exact ⟨put, books'.cursors⟩

/-- `put_page` in `get_empty_page` and `do_no_page`. -/
theorem books_putOrGiveUp {page address : UInt32}
    (books : pager.Books reserved (page ::ₘ held) available) (isUser : firstDir ≤ dirOf address)
    (vacant : Vacant pager.kernel address) :
    Ends reserved held available (pager.putOrGiveUp page address) := by
  have aligned := (books.kernel.pages page (Multiset.mem_cons_self page held)).1
  have puts := puts_putEntry books isUser vacant (entry_or_seven aligned)
  rw [← putPage_eq] at puts
  rw [putOrGiveUp]
  rcases isPut : pager.putPage page address with stop | ⟨put, next⟩
  · rw [isPut] at puts
    exact puts.elim
  rw [isPut] at puts
  cases put with
  | true => exact puts
  | false =>
    obtain ⟨last, isFreed, -⟩ := puts.kernel.frees
    simp only [isFreed, Option.isSome_some, if_true]
    rfl

theorem books_getEmptyPage {address : UInt32} (books : pager.Books reserved held available)
    (isUser : firstDir ≤ dirOf address) (vacant : Vacant pager.kernel address) :
    Ends reserved held available (pager.getEmptyPage address) := by
  have gets := gets_getFreePage books
  rw [getEmptyPage]
  rcases isFound : pager.getFreePage with stop | ⟨page, next⟩
  · rw [isFound] at gets
    exact gets.elim
  rw [isFound] at gets
  cases page with
  | none => rfl
  | some page =>
    obtain ⟨books', evicts, -⟩ := gets
    exact books_putOrGiveUp books' isUser (vacant.of_evicts isUser evicts)

end Pager

end Linux012.Mm
