import Linux012.Mm.TableRange

/-!
# A fork when memory is short

`copy_page_tables` with the pages that `get_free_page` swaps out for it keeps the books, also when
it gives up; `free_page_tables` then takes back what it has done.
-/

namespace Linux012.Mm

namespace Pager

open Kernel

/-! ## The functions -/

/-- The inner loop of `copy_page_tables`, for one entry; `false` where it returns -1. -/
def copyEntry (pager : Pager) (fromPtr toPtr : UInt32) : Except Stop (Bool × Pager) :=
  let thisPage := pager.kernel.memory fromPtr
  if thisPage = 0 then .ok (true, pager)
  else if 1 &&& thisPage = 0 then
    match pager.getFreePage with
    | .error stop => .error stop
    | .ok (none, pager) => .ok (false, pager)
    | .ok (some newPage, pager) =>
        let kernel := pager.kernel.readSwapPage (thisPage >>> 1).toNat newPage
        let kernel := kernel.store toPtr thisPage
        .ok (true, { pager with kernel := kernel.store fromPtr (newPage ||| (pageDirty ||| 7)) })
  else
    let thisPage := writeProtected thisPage
    let kernel := pager.kernel.store toPtr thisPage
    if thisPage > lowMem then
      .ok (true, { pager with kernel := (kernel.store fromPtr thisPage).count (mapNr thisPage) })
    else .ok (true, { pager with kernel })

/-- The inner loop of `copy_page_tables`. -/
def copyEntries (pager : Pager) (fromTable toTable : UInt32) :
    (left nr : Nat) → Except Stop (Bool × Pager)
  | 0, _ => .ok (true, pager)
  | left + 1, nr =>
      match pager.copyEntry (entryPtr fromTable nr) (entryPtr toTable nr) with
      | .ok (true, pager) => pager.copyEntries fromTable toTable left (nr + 1)
      | other => other

/-- The outer loop of `copy_page_tables`, for a page table that is there. -/
def copyTable (pager : Pager) (fromTable toDir : UInt32) (nr : Nat) :
    Except Stop (Bool × Pager) :=
  match pager.getFreePage with
  | .error stop => .error stop
  | .ok (none, pager) => .ok (false, pager)
  | .ok (some toTable, pager) =>
      copyEntries { pager with kernel := pager.kernel.store toDir (toTable ||| 7) }
        fromTable toTable nr 0

/-- The outer loop of `copy_page_tables`. -/
def copySlots (pager : Pager) (tmp : Nat) :
    (size : Nat) → (fromDir toDir : UInt32) → Except Stop (Bool × Pager)
  | 0, _, _ => .ok (true, pager)
  | size + 1, fromDir, toDir =>
      if 1 &&& pager.kernel.memory toDir ≠ 0 then .error .panics
      else if 1 &&& pager.kernel.memory fromDir = 0 then
        pager.copySlots tmp size (fromDir + 4) (toDir + 4)
      else
        match pager.copyTable (frameMask &&& pager.kernel.memory fromDir) toDir
          (if size = 0 then tmp else 1024) with
        | .ok (true, pager) => pager.copySlots tmp size (fromDir + 4) (toDir + 4)
        | other => other

/-- The number of entries of the last page table. -/
def copyTail (size : UInt32) : Nat :=
  let tmp := ((size + 0x1000 - 1) >>> 12) &&& (0x1000 - 1)
  if tmp = 0 ∧ size ≠ 0 then 1024 else tmp.toNat

/-- The number of page tables of a size. -/
def tableCount (size : UInt32) : Nat := ((size + 0x3fffff) >>> 22).toNat

/-- `copy_page_tables`; `false` where it returns -1. -/
def copyPageTables (pager : Pager) (fromAddr toAddr size : UInt32) : Except Stop (Bool × Pager) :=
  if fromAddr &&& 0x3fffff ≠ 0 ∨ toAddr &&& 0x3fffff ≠ 0 then .error .panics
  else pager.copySlots (copyTail size) (tableCount size) ((fromAddr >>> 20) &&& 0xffc)
    ((toAddr >>> 20) &&& 0xffc)

/-- `copy_mem`, with the bases and the limit that it reads from the descriptors; `false` where it
returns `-ENOMEM`. -/
def copyMem (pager : Pager) (oldDataBase newDataBase dataLimit : UInt32) :
    Except Stop (Bool × Pager) :=
  match pager.copyPageTables oldDataBase newDataBase dataLimit with
  | .ok (false, pager) =>
      match pager.kernel.freePageTables newDataBase dataLimit with
      | some kernel => .ok (false, { pager with kernel })
      | none => .error .panics
  | other => other

end Pager

namespace Kernel

variable {kernel before after : Kernel} {fromDir toDir pageEntry slot : Nat}
variable {reserved : UInt32 → Nat} {held : Multiset UInt32} {available : Nat → Prop}

/-! ## One entry -/

/-- What may be copied: an entry of a user, or one of the kernel that has no page of the memory
that is counted. -/
structure Source (kernel : Kernel) (dirEntry pageEntry : Nat) : Prop where
  inDir : dirEntry < 1024
  present : kernel.DirPresent dirEntry
  inTable : pageEntry < 1024
  low : dirEntry < firstDir → Low (kernel.word dirEntry pageEntry)

/-- An empty entry gets a page of the swap device that is free. -/
theorem Books.takeSlot {dirEntry : Nat} {value : UInt32}
    (books : kernel.Books reserved held available) (isEntry : kernel.UserEntry dirEntry pageEntry)
    (isZero : kernel.word dirEntry pageEntry = 0) (isSlot : slotNr value = some slot)
    {bitmap : Nat → Bool} (isBitmap : kernel.swapBitmap = some bitmap)
    (wasFree : bitmap slot = true) :
    Books { kernel.store (kernel.entry dirEntry pageEntry) value with
      swapBitmap := some (Function.update bitmap slot false) } reserved held available := by
  obtain ⟨changes, isNew⟩ := Pager.changes_of_store books.sound isEntry value
  let last : Kernel := { kernel.store (kernel.entry dirEntry pageEntry) value with
    swapBitmap := some (Function.update bitmap slot false) }
  have changes : Changes kernel last dirEntry pageEntry := ⟨changes.dirs, changes.words⟩
  have isNew : last.word dirEntry pageEntry = value := isNew
  have absent := (slotNr_eq_some.mp isSlot).1
  refine books.change changes isEntry le_rfl (fun nr => ?_) (fun nr isNr => ?_)
    (fun mapped => ?_) rfl ?_
  · rw [isNew, isZero, pageNr_zero, pageNr_of_absent absent]
    rfl
  · rw [isNew, pageNr_of_absent absent] at isNr
    cases isNr
  · rw [isNew] at mapped
    exact absurd absent mapped
  · exact books.slots.take changes isEntry (by rw [isZero, slotNr_zero]) (isNew.symm ▸ isSlot)
      isBitmap wasFree rfl

/-- The page that an entry has on the swap device goes to an empty entry, and a page that the
kernel has kept goes into its place. -/
theorem Books.moveSlot {page value : UInt32}
    (books : kernel.Books reserved (page ::ₘ held) available)
    (isFrom : kernel.UserEntry fromDir pageEntry) (isTo : kernel.UserEntry toDir pageEntry)
    (differs : fromDir ≠ toDir) (isZero : kernel.word toDir pageEntry = 0)
    (isSlot : slotNr (kernel.word fromDir pageEntry) = some slot) (isValue : Entry page value) :
    ((kernel.store (kernel.entry toDir pageEntry) (kernel.word fromDir pageEntry)).store
      (kernel.entry fromDir pageEntry) value).Books reserved held available := by
  obtain ⟨-, bitmap, isBitmap, isUsed⟩ := books.slots.used_of_stores ⟨isFrom, isSlot⟩
  -- The page of the device is free between the two entries.
  obtain ⟨changes, isNew⟩ := Pager.changes_of_store books.sound isFrom value
  let middle : Kernel := { kernel.store (kernel.entry fromDir pageEntry) value with
    swapBitmap := some (Function.update bitmap slot true) }
  have changes : Changes kernel middle fromDir pageEntry := ⟨changes.dirs, changes.words⟩
  have isNew : middle.word fromDir pageEntry = value := isNew
  have absent := (slotNr_eq_some.mp isSlot).1
  have middleBooks : middle.Books reserved held available := by
    refine books.replace changes isFrom isNew isValue (fun nr => ?_) rfl
      (books.slots.release changes isFrom isSlot ?_ isBitmap rfl)
    · rw [pageNr_of_absent absent]
      rfl
    · rw [isNew, slotNr_of_present isValue.present]
  have isTo' := changes.userEntry.mpr isTo
  have stillZero : middle.word toDir pageEntry = 0 :=
    (changes.words toDir isTo.isUser.2 isTo.present pageEntry isTo.inTable fun same =>
      differs (Prod.mk.inj same).1.symm).trans isZero
  have moved := middleBooks.takeSlot isTo' stillZero isSlot rfl (Function.update_self _ _ _)
  have isBack : Function.update (Function.update bitmap slot true) slot false = bitmap := by
    rw [Function.update_idem, ← isUsed, Function.update_eq_self]
  have apart : kernel.entry toDir pageEntry ≠ kernel.entry fromDir pageEntry := fun same =>
    differs (books.sound.entry_inj isTo.isUser.2 isTo.present isTo.inTable isFrom.isUser.2
      isFrom.present isFrom.inTable same).1.symm
  rw [changes.entry isTo.isUser.2, isBack, ← isBitmap] at moved
  have same : (kernel.store (kernel.entry toDir pageEntry) (kernel.word fromDir pageEntry)).store
      (kernel.entry fromDir pageEntry) value =
        { middle.store (kernel.entry toDir pageEntry) (kernel.word fromDir pageEntry) with
          swapBitmap := kernel.swapBitmap } := by
    simp only [store, middle]
    rw [Function.update_comm apart]
  rw [same]
  exact moved

/-- An entry that has its page is shared with an empty one. -/
theorem Books.share {word : UInt32} (books : kernel.Books reserved held available)
    (isFrom : kernel.UserEntry fromDir pageEntry) (isTo : kernel.UserEntry toDir pageEntry)
    (differs : fromDir ≠ toDir) (sameOffset : fromDir % 16 = toDir % 16)
    (isZero : kernel.word toDir pageEntry = 0) (isWord : kernel.word fromDir pageEntry = word)
    (mapped : pagePresent &&& word ≠ 0) (isPage : lowMem ≤ word) :
    (((kernel.store (kernel.entry toDir pageEntry) (writeProtected word)).store
      (kernel.entry fromDir pageEntry) (writeProtected word)).count (mapNr word)).Books
        reserved held available := by
  subst isWord
  have guarded := books.protect isFrom mapped
  obtain ⟨changes, isNew⟩ := Pager.changes_of_store books.sound isFrom
    (writeProtected (kernel.word fromDir pageEntry))
  let guard := kernel.store (kernel.entry fromDir pageEntry)
    (writeProtected (kernel.word fromDir pageEntry))
  have isTo' : guard.UserEntry toDir pageEntry := changes.userEntry.mpr isTo
  have stillZero : guard.word toDir pageEntry = 0 :=
    (changes.words toDir isTo.isUser.2 isTo.present pageEntry isTo.inTable fun same =>
      differs (Prod.mk.inj same).1.symm).trans isZero
  have maps : guard.Maps (mapNr (kernel.word fromDir pageEntry)) fromDir pageEntry :=
    maps_iff.mpr ⟨changes.userEntry.mpr isFrom, (congrArg pageNr isNew).trans
      ((pageNr_writeProtected _).trans (pageNr_of_mapped mapped isPage))⟩
  have notWrites : pageRw &&& guard.word fromDir pageEntry = 0 :=
    (congrArg (pageRw &&& ·) isNew).trans (not_writes_writeProtected _)
  have shared := guarded.addSharer isTo' stillZero maps sameOffset notWrites
  have apart : kernel.entry toDir pageEntry ≠ kernel.entry fromDir pageEntry := fun same =>
    differs (books.sound.entry_inj isTo.isUser.2 isTo.present isTo.inTable isFrom.isUser.2
      isFrom.present isFrom.inTable same).1.symm
  have toPtr : guard.entry toDir pageEntry = kernel.entry toDir pageEntry :=
    changes.entry isTo.isUser.2 pageEntry
  change (guard.store (guard.entry toDir pageEntry) (guard.word fromDir pageEntry)).count _ |>.Books
    reserved held available at shared
  have isGuard : guard.word fromDir pageEntry = writeProtected (kernel.word fromDir pageEntry) :=
    isNew
  rw [toPtr, isGuard] at shared
  have same : (kernel.store (kernel.entry toDir pageEntry)
      (writeProtected (kernel.word fromDir pageEntry))).store (kernel.entry fromDir pageEntry)
        (writeProtected (kernel.word fromDir pageEntry)) =
      guard.store (kernel.entry toDir pageEntry)
        (writeProtected (kernel.word fromDir pageEntry)) := by
    simp only [store, guard]
    rw [Function.update_comm apart]
  rw [same]
  exact shared

/-- A page of an entry that is present is above `LOW_MEM`. -/
theorem lowMem_lt_writeProtected {word : UInt32} (present : pagePresent &&& word ≠ 0)
    (isPage : lowMem ≤ word) : writeProtected word > lowMem := by
  refine UInt32.lt_of_le_of_ne (lowMem_le_writeProtected.mpr isPage) fun same => ?_
  rw [← present_writeProtected, ← same] at present
  exact absurd rfl present

end Kernel

namespace Pager

open Kernel

variable {pager : Pager} {before after : Kernel} {fromDir toDir pageEntry : Nat}
variable {reserved : UInt32 → Nat} {held : Multiset UInt32} {available : Nat → Prop}

/-- The page directory is as it was, and so are the entries of the kernel.  In the new table, what
was empty is, from a number on. -/
structure Copies (before after : Kernel) (toDir first : Nat) : Prop where
  dirs : ∀ other < 1024, after.pgDir other = before.pgDir other
  empty : ∀ pageEntry < 1024, first ≤ pageEntry → before.word toDir pageEntry = 0 →
    after.word toDir pageEntry = 0
  kernelWords : ∀ other < firstDir, before.DirPresent other → ∀ pageEntry < 1024,
    after.word other pageEntry = before.word other pageEntry

namespace Copies

theorem dirPresent {first other : Nat} (copies : Copies before after toDir first)
    (inDir : other < 1024) : after.DirPresent other ↔ before.DirPresent other := by
  rw [DirPresent, DirPresent, copies.dirs other inDir]

theorem trans {last : Kernel} {first : Nat} (head : Copies before after toDir first)
    (tail : Copies after last toDir first) : Copies before last toDir first where
  dirs other inDir := (tail.dirs other inDir).trans (head.dirs other inDir)
  empty pageEntry inTable atLeast wasZero :=
    tail.empty pageEntry inTable atLeast (head.empty pageEntry inTable atLeast wasZero)
  kernelWords other isKernel present pageEntry inTable :=
    (tail.kernelWords other isKernel
      ((head.dirPresent (lt_trans isKernel (by decide))).mpr present) pageEntry inTable).trans
      (head.kernelWords other isKernel present pageEntry inTable)

theorem mono {first next : Nat} (copies : Copies before after toDir first)
    (atLeast : first ≤ next) : Copies before after toDir next :=
  ⟨copies.dirs, fun pageEntry inTable above => copies.empty pageEntry inTable (atLeast.trans above),
    copies.kernelWords⟩

theorem refl (kernel : Kernel) (toDir first : Nat) : Copies kernel kernel toDir first :=
  ⟨fun _ _ => rfl, fun _ _ _ same => same, fun _ _ _ _ _ => rfl⟩

theorem of_evicts {first : Nat} (evicts : Evicts before after)
    (isUser : firstDir ≤ toDir ∧ toDir < 1024) (present : before.DirPresent toDir) :
    Copies before after toDir first where
  dirs := evicts.dirs
  empty pageEntry inTable _ wasZero := by
    rw [evicts.word_of_absent ⟨isUser, present, inTable⟩ (by rw [wasZero]; rfl), wasZero]
  kernelWords other isKernel isPresent pageEntry inTable :=
    evicts.word_of_kernel isKernel isPresent inTable

/-- A user's entry of another table, or the one that is copied to, is changed. -/
theorem of_changes {dirEntry : Nat} (changes : Changes before after dirEntry pageEntry)
    (isUser : firstDir ≤ dirEntry) (toUser : toDir < 1024) (present : before.DirPresent toDir)
    {first : Nat} (done : dirEntry = toDir → pageEntry < first) :
    Copies before after toDir first where
  dirs := changes.dirs
  empty otherEntry inTable atLeast wasZero := by
    rw [changes.words toDir toUser present otherEntry inTable fun same => ?_, wasZero]
    obtain ⟨rfl, rfl⟩ := Prod.mk.inj same
    exact absurd (done rfl) (Nat.not_lt.mpr atLeast)
  kernelWords other isKernel isPresent otherEntry inTable := by
    refine changes.words other (lt_trans isKernel (by decide)) isPresent otherEntry inTable
      fun same => absurd isUser (Nat.not_le.mpr ?_)
    rw [← (Prod.mk.inj same).1]
    exact isKernel

/-- Nothing is written but the two entries. -/
theorem of_two (sound : before.Sound) (isFrom : before.UserEntry fromDir pageEntry)
    (isTo : before.UserEntry toDir pageEntry) (differs : fromDir ≠ toDir)
    (others : ∀ ptr, ptr ≠ before.entry toDir pageEntry → ptr ≠ before.entry fromDir pageEntry →
      after.memory ptr = before.memory ptr) : Copies before after toDir (pageEntry + 1) := by
  have dirs (other : Nat) (inDir : other < 1024) : after.pgDir other = before.pgDir other :=
    others _ (sound.entry_ne_dir isTo.isUser.2 isTo.present isTo.inTable inDir)
      (sound.entry_ne_dir isFrom.isUser.2 isFrom.present isFrom.inTable inDir)
  have words (other otherEntry : Nat) (inDir : other < 1024) (present : before.DirPresent other)
      (inTable : otherEntry < 1024) (notTo : (other, otherEntry) ≠ (toDir, pageEntry))
      (notFrom : (other, otherEntry) ≠ (fromDir, pageEntry)) :
      after.word other otherEntry = before.word other otherEntry := by
    have isPtr : after.entry other otherEntry = before.entry other otherEntry :=
      congrArg (fun dir => entryPtr (dir &&& frameMask) otherEntry) (dirs other inDir)
    rw [word, word, isPtr]
    refine others _ (fun same => notTo ?_) (fun same => notFrom ?_)
    · obtain ⟨rfl, rfl⟩ := sound.entry_inj inDir present inTable isTo.isUser.2 isTo.present
        isTo.inTable same
      rfl
    · obtain ⟨rfl, rfl⟩ := sound.entry_inj inDir present inTable isFrom.isUser.2 isFrom.present
        isFrom.inTable same
      rfl
  refine ⟨dirs, fun otherEntry inTable above wasZero => ?_,
    fun other isKernel present otherEntry inTable => ?_⟩
  · refine (words toDir otherEntry isTo.isUser.2 isTo.present inTable (fun same => ?_)
      fun same => differs (Prod.mk.inj same).1.symm).trans wasZero
    have same := (Prod.mk.inj same).2
    omega
  · have notUser {dirEntry : Nat} (isUser : firstDir ≤ dirEntry) :
        (other, otherEntry) ≠ (dirEntry, pageEntry) := fun same =>
      absurd isUser (Nat.not_le.mpr ((Prod.mk.inj same).1 ▸ isKernel))
    exact words other otherEntry (lt_trans isKernel (by decide)) present inTable
      (notUser isTo.isUser.1) (notUser isFrom.isUser.1)

end Copies

/-- How the copying ends, or a part of it: with the books kept, and without a panic. -/
def CopyEnds (before : Kernel) (reserved : UInt32 → Nat) (held : Multiset UInt32)
    (available : Nat → Prop) (toDir first : Nat) : Except Stop (Bool × Pager) → Prop
  | .error _ => False
  | .ok (_, after) =>
      after.Books reserved held available ∧ Copies before after.kernel toDir first

/-- One entry is copied. -/
theorem ends_copyEntry (books : pager.Books reserved held available)
    (source : Source pager.kernel fromDir pageEntry)
    (isTo : pager.kernel.UserEntry toDir pageEntry) (differs : fromDir ≠ toDir)
    (sameOffset : firstDir ≤ fromDir → fromDir % 16 = toDir % 16)
    (isZero : pager.kernel.word toDir pageEntry = 0) :
    CopyEnds pager.kernel reserved held available toDir (pageEntry + 1)
      (pager.copyEntry (pager.kernel.entry fromDir pageEntry)
        (pager.kernel.entry toDir pageEntry)) := by
  have isWord : pager.kernel.memory (pager.kernel.entry fromDir pageEntry) =
      pager.kernel.word fromDir pageEntry := rfl
  have gets := gets_getFreePage books
  rw [copyEntry, isWord]
  dsimp only
  by_cases empty : pager.kernel.word fromDir pageEntry = 0
  · rw [if_pos empty]
    exact ⟨books, .refl _ _ _⟩
  rw [if_neg empty]
  by_cases absent : 1 &&& pager.kernel.word fromDir pageEntry = 0
  · -- It is on the swap device, so that it is a user's.
    rw [if_pos absent]
    have isUser : firstDir ≤ fromDir := Nat.not_lt.mp fun isKernel =>
      (source.low isKernel).elim empty fun isLow => isLow.1 absent
    have isFrom : pager.kernel.UserEntry fromDir pageEntry :=
      ⟨⟨isUser, source.inDir⟩, source.present, source.inTable⟩
    rcases isFound : pager.getFreePage with stop | ⟨page, next⟩
    · rw [isFound] at gets
      exact gets.elim
    rw [isFound] at gets
    cases page with
    | none => exact ⟨gets.1, .of_evicts gets.2 isTo.isUser isTo.present⟩
    | some page =>
      obtain ⟨books', evicts, -⟩ := gets
      have isHeld : page ∈ page ::ₘ held := Multiset.mem_cons_self page held
      have aligned := (books'.kernel.pages page isHeld).1
      generalize isSlot : (pager.kernel.word fromDir pageEntry >>> 1).toNat = slot
      dsimp only
      have fills : Fills next.kernel (next.kernel.readSwapPage slot page) page :=
        ⟨rfl, fun _ outside => if_neg outside⟩
      obtain ⟨filled, quiet⟩ := books'.kernel.fills isHeld fills rfl rfl
      have evicts := evicts.trans quiet
      have sameWord := evicts.word_of_absent isFrom absent
      have stillZero : (next.kernel.readSwapPage slot page).word toDir pageEntry = 0 := by
        rw [evicts.word_of_absent isTo (by rw [isZero]; rfl), isZero]
      rw [← evicts.entry isFrom.isUser.2, ← evicts.entry isTo.isUser.2, ← sameWord]
      have isFrom' := evicts.userEntry.mpr isFrom
      have isTo' := evicts.userEntry.mpr isTo
      have hasSlot : slotNr ((next.kernel.readSwapPage slot page).word fromDir pageEntry) =
          some slot := by
        rw [sameWord]
        exact slotNr_eq_some.mpr ⟨absent, shiftRight_ne_zero empty absent, isSlot⟩
      generalize next.kernel.readSwapPage slot page = kernel at *
      refine ⟨⟨filled.moveSlot isFrom' isTo' differs stillZero hasSlot (entry_or_dirty aligned),
        books'.cursors⟩, (Copies.of_evicts evicts isTo.isUser isTo.present).trans
          (.of_two filled.sound isFrom' isTo' differs fun ptr notTo notFrom => ?_)⟩
      exact (Function.update_of_ne notFrom _ _).trans (Function.update_of_ne notTo _ _)
  · rw [if_neg absent]
    have present : pagePresent &&& pager.kernel.word fromDir pageEntry ≠ 0 := absent
    by_cases isPage : lowMem ≤ pager.kernel.word fromDir pageEntry
    · have isUser : firstDir ≤ fromDir := Nat.not_lt.mp fun isKernel =>
        (source.low isKernel).elim empty fun isLow => UInt32.not_lt.mpr isPage isLow.2
      have isFrom : pager.kernel.UserEntry fromDir pageEntry :=
        ⟨⟨isUser, source.inDir⟩, source.present, source.inTable⟩
      rw [if_pos (lowMem_lt_writeProtected present isPage), mapNr_writeProtected]
      refine ⟨⟨books.kernel.share isFrom isTo differs (sameOffset isUser) isZero rfl present isPage,
        books.cursors⟩, .of_two books.kernel.sound isFrom isTo differs fun ptr notTo notFrom => ?_⟩
      exact (Function.update_of_ne notFrom _ _).trans (Function.update_of_ne notTo _ _)
    · have isLow : writeProtected (pager.kernel.word fromDir pageEntry) < lowMem :=
        UInt32.not_le.mp fun high => isPage (lowMem_le_writeProtected.mp high)
      rw [if_neg fun high => UInt32.lt_irrefl _ (UInt32.lt_trans isLow high)]
      obtain ⟨changes, -⟩ := changes_of_store books.kernel.sound isTo
        (writeProtected (pager.kernel.word fromDir pageEntry))
      exact ⟨⟨books.kernel.putLow isTo isZero (by rwa [present_writeProtected]) isLow
        (not_writes_writeProtected _), books.cursors⟩,
        .of_changes changes isTo.isUser.1 isTo.isUser.2 isTo.present
          fun _ => Nat.lt_succ_self pageEntry⟩

/-! ## One table -/

theorem source_of_copies {first : Nat} (source : Source before fromDir pageEntry)
    (copies : Copies before after toDir first) : Source after fromDir pageEntry where
  inDir := source.inDir
  present := (copies.dirPresent source.inDir).mpr source.present
  inTable := source.inTable
  low isKernel := by
    rw [copies.kernelWords fromDir isKernel source.present pageEntry source.inTable]
    exact source.low isKernel

/-- The inner loop of `copy_page_tables` keeps the books. -/
theorem ends_copyEntries {left first : Nat} (books : pager.Books reserved held available)
    (inTable : first + left ≤ 1024)
    (sources : ∀ pageEntry, first ≤ pageEntry → pageEntry < first + left →
      Source pager.kernel fromDir pageEntry)
    (isUser : firstDir ≤ toDir ∧ toDir < 1024) (present : pager.kernel.DirPresent toDir)
    (differs : fromDir ≠ toDir) (sameOffset : fromDir % 16 = toDir % 16)
    (isEmpty : ∀ pageEntry < 1024, first ≤ pageEntry → pager.kernel.word toDir pageEntry = 0) :
    CopyEnds pager.kernel reserved held available toDir (first + left)
      (pager.copyEntries (pager.kernel.pgDir fromDir &&& frameMask)
        (pager.kernel.pgDir toDir &&& frameMask) left first) := by
  induction left generalizing pager first with
  | zero => exact ⟨books, .refl _ _ _⟩
  | succ left ih =>
      have source := sources first le_rfl (by omega)
      have ends := ends_copyEntry books source ⟨isUser, present, by omega⟩ differs
        (fun _ => sameOffset) (isEmpty first (by omega) le_rfl)
      have isFrom : entryPtr (pager.kernel.pgDir fromDir &&& frameMask) first =
          pager.kernel.entry fromDir first := rfl
      have isTo : entryPtr (pager.kernel.pgDir toDir &&& frameMask) first =
          pager.kernel.entry toDir first := rfl
      rw [copyEntries, isFrom, isTo]
      rcases isDone : pager.copyEntry (pager.kernel.entry fromDir first)
        (pager.kernel.entry toDir first) with stop | ⟨done, next⟩
      · rw [isDone] at ends
        exact ends.elim
      rw [isDone] at ends
      obtain ⟨nextBooks, copies⟩ := ends
      cases done with
      | false => exact ⟨nextBooks, copies.mono (by omega)⟩
      | true =>
        have ih := ih nextBooks (by omega : first + 1 + left ≤ 1024)
          (fun pageEntry above below =>
            source_of_copies (sources pageEntry (by omega) (by omega)) copies)
          ((copies.dirPresent isUser.2).mpr present)
          (fun pageEntry inTable above =>
            copies.empty pageEntry inTable above (isEmpty pageEntry inTable (by omega)))
        rw [copies.dirs fromDir source.inDir, copies.dirs toDir isUser.2, Nat.add_assoc,
          Nat.add_comm 1 left] at ih
        dsimp only
        generalize next.copyEntries (pager.kernel.pgDir fromDir &&& frameMask)
          (pager.kernel.pgDir toDir &&& frameMask) left (first + 1) = result at ih ⊢
        match result, ih with
        | .ok (_, last), ⟨lastBooks, lastCopies⟩ =>
          exact ⟨lastBooks, (copies.mono (by omega)).trans lastCopies⟩

/-! ## The range -/

/-- Only the directory entries of a range are changed, and the entries of the kernel are as they
were. -/
structure RangeCopied (before after : Kernel) (first count : Nat) : Prop where
  dirs : ∀ other < 1024, (other < first ∨ first + count ≤ other) →
    after.pgDir other = before.pgDir other
  kernelWords : ∀ other < firstDir, before.DirPresent other → ∀ pageEntry < 1024,
    after.word other pageEntry = before.word other pageEntry

namespace RangeCopied

theorem dirPresent {first count other : Nat} (copied : RangeCopied before after first count)
    (inDir : other < 1024) (outside : other < first ∨ first + count ≤ other) :
    after.DirPresent other ↔ before.DirPresent other := by
  rw [DirPresent, DirPresent, copied.dirs other inDir outside]

theorem append {last : Kernel} {first count : Nat} (isUser : firstDir ≤ first)
    (head : RangeCopied before after first 1) (tail : RangeCopied after last (first + 1) count) :
    RangeCopied before last first (count + 1) where
  dirs other inDir outside :=
    (tail.dirs other inDir (by omega)).trans (head.dirs other inDir (by omega))
  kernelWords other isKernel present pageEntry inTable :=
    (tail.kernelWords other isKernel ((head.dirPresent (lt_trans isKernel (by decide))
      (.inl (Nat.lt_of_lt_of_le isKernel isUser))).mpr present) pageEntry inTable).trans
        (head.kernelWords other isKernel present pageEntry inTable)

theorem refl (kernel : Kernel) (first count : Nat) : RangeCopied kernel kernel first count :=
  ⟨fun _ _ _ => rfl, fun _ _ _ _ _ => rfl⟩

theorem mono {first count more : Nat} (copied : RangeCopied before after first count)
    (atMost : count ≤ more) : RangeCopied before after first more :=
  ⟨fun other inDir outside => copied.dirs other inDir (by omega), copied.kernelWords⟩

theorem of_evicts {first count : Nat} (evicts : Evicts before after) :
    RangeCopied before after first count :=
  ⟨fun other inDir _ => evicts.dirs other inDir,
    fun _ isKernel present _ inTable => evicts.word_of_kernel isKernel present inTable⟩

end RangeCopied

/-- How `copy_page_tables` ends. -/
def RangeEnds (before : Kernel) (reserved : UInt32 → Nat) (held : Multiset UInt32)
    (available : Nat → Prop) (first count : Nat) : Except Stop (Bool × Pager) → Prop
  | .error _ => False
  | .ok (_, after) =>
      after.Books reserved held available ∧ RangeCopied before after.kernel first count

/-- What a fork may copy: in the range the entries of the kernel have no page of the memory that is
counted, and the ranges are apart. -/
structure Range (kernel : Kernel) (tmp fromFirst toFirst count : Nat) : Prop where
  fromEnd : fromFirst + count ≤ 1024
  toStart : firstDir ≤ toFirst
  toEnd : toFirst + count ≤ 1024
  apart : fromFirst + count ≤ toFirst ∨ toFirst + count ≤ fromFirst
  sameOffset : fromFirst % 16 = toFirst % 16
  inTable : tmp ≤ 1024
  absent : ∀ dirEntry, toFirst ≤ dirEntry → dirEntry < toFirst + count →
    ¬kernel.DirPresent dirEntry
  low : ∀ dirEntry < firstDir, fromFirst ≤ dirEntry → dirEntry < fromFirst + count →
    kernel.DirPresent dirEntry →
      ∀ pageEntry < (if dirEntry + 1 = fromFirst + count then tmp else 1024),
        Low (kernel.word dirEntry pageEntry)

theorem Range.succ {tmp fromFirst toFirst count : Nat}
    (range : Range before tmp fromFirst toFirst (count + 1))
    (copied : RangeCopied before after toFirst 1) :
    Range after tmp (fromFirst + 1) (toFirst + 1) count where
  fromEnd := by have fromEnd := range.fromEnd; omega
  toStart := Nat.le_succ_of_le range.toStart
  toEnd := by have toEnd := range.toEnd; omega
  apart := by have apart := range.apart; omega
  sameOffset := by have sameOffset := range.sameOffset; omega
  inTable := range.inTable
  absent dirEntry above below := by
    have toEnd := range.toEnd
    rw [copied.dirPresent (by omega) (by omega)]
    exact range.absent dirEntry (by omega) (by omega)
  low dirEntry isKernel above below present pageEntry inTable := by
    have inDir : dirEntry < 1024 := lt_trans isKernel (by decide)
    have outside : dirEntry < toFirst ∨ toFirst + 1 ≤ dirEntry :=
      .inl (Nat.lt_of_lt_of_le isKernel range.toStart)
    have wasPresent := (copied.dirPresent inDir outside).mp present
    have sameEnd : fromFirst + 1 + count = fromFirst + (count + 1) := by omega
    rw [sameEnd] at inTable
    have small : pageEntry < 1024 := by
      have tmpSmall := range.inTable
      split at inTable <;> omega
    rw [copied.kernelWords dirEntry isKernel wasPresent pageEntry small]
    exact range.low dirEntry isKernel (by omega) (by omega) wasPresent pageEntry inTable

/-- One page table is copied. -/
theorem ends_copyTable {nr : Nat} (books : pager.Books reserved held available)
    (inTable : nr ≤ 1024) (fromIn : fromDir < 1024) (present : pager.kernel.DirPresent fromDir)
    (toUser : firstDir ≤ toDir ∧ toDir < 1024) (absent : ¬pager.kernel.DirPresent toDir)
    (differs : fromDir ≠ toDir) (sameOffset : fromDir % 16 = toDir % 16)
    (sources : ∀ pageEntry < nr, Source pager.kernel fromDir pageEntry) :
    RangeEnds pager.kernel reserved held available toDir 1
      (pager.copyTable (pager.kernel.pgDir fromDir &&& frameMask) (4 * UInt32.ofNat toDir) nr) := by
  have gets := gets_getFreePage books
  rw [copyTable]
  rcases isFound : pager.getFreePage with stop | ⟨table, taken⟩
  · rw [isFound] at gets
    exact gets.elim
  rw [isFound] at gets
  cases table with
  | none => exact ⟨gets.1, .of_evicts gets.2⟩
  | some table =>
    obtain ⟨takenBooks, evicts, cleared⟩ := gets
    have stillAbsent := (evicts.dirPresent toUser.2).not.mpr absent
    have aligned := (takenBooks.kernel.pages table (Multiset.mem_cons_self _ _)).1
    obtain ⟨hasTable, changes, isTable, isPresent, isZero⟩ :=
      takenBooks.kernel.addTable toUser stillAbsent cleared
    dsimp only
    generalize taken.kernel.store (4 * UInt32.ofNat toDir) (table ||| 7) = added
      at hasTable changes isTable isPresent isZero ⊢
    have sameFrom : added.pgDir fromDir = pager.kernel.pgDir fromDir :=
      (changes.dirs fromDir fromIn differs).trans (evicts.dirs fromDir fromIn)
    have isKept (other : Nat) (isKernel : other < firstDir)
        (isPresent : pager.kernel.DirPresent other) : added.DirPresent other ∧ ∀ pageEntry < 1024,
          added.word other pageEntry = pager.kernel.word other pageEntry := by
      have inDir : other < 1024 := lt_trans isKernel (by decide)
      have notTo : other ≠ toDir := (Nat.lt_of_lt_of_le isKernel toUser.1).ne
      have isPresent' := (evicts.dirPresent inDir).mpr isPresent
      refine ⟨(changes.dirPresent inDir notTo).mpr isPresent', fun pageEntry inTable => ?_⟩
      rw [changes.words other inDir notTo isPresent' pageEntry inTable,
        evicts.word_of_kernel isKernel isPresent inTable]
    have newSource (pageEntry : Nat) (inNr : pageEntry < 0 + nr) :
        Source added fromDir pageEntry := by
      have source := sources pageEntry (by omega)
      refine ⟨fromIn, by rwa [DirPresent, sameFrom], source.inTable, fun isKernel => ?_⟩
      rw [(isKept fromDir isKernel present).2 pageEntry source.inTable]
      exact source.low isKernel
    have isBooks : Books ⟨added, taken.cursors⟩ reserved held available :=
      ⟨hasTable, takenBooks.cursors⟩
    have ends := ends_copyEntries isBooks (by omega : 0 + nr ≤ 1024)
      (fun pageEntry _ => newSource pageEntry) toUser isPresent differs sameOffset
      fun pageEntry inTable _ => isZero pageEntry inTable
    have isTableAddr : added.pgDir toDir &&& frameMask = table := by
      rw [isTable, frame_or_seven aligned]
    rw [isTableAddr, sameFrom] at ends
    generalize copyEntries ⟨added, taken.cursors⟩ (pager.kernel.pgDir fromDir &&& frameMask)
      table nr 0 = result at ends ⊢
    rcases result with stop | ⟨missing, last⟩
    · exact False.elim ends
    obtain ⟨lastBooks, copies⟩ := ends
    refine ⟨lastBooks, fun other inDir outside => ?_,
      fun other isKernel isPresent pageEntry inTable => ?_⟩
    · rw [copies.dirs other inDir, changes.dirs other inDir (by omega), evicts.dirs other inDir]
    · obtain ⟨isPresent', sameWords⟩ := isKept other isKernel isPresent
      rw [copies.kernelWords other isKernel isPresent' pageEntry inTable,
        sameWords pageEntry inTable]

/-- The outer loop of `copy_page_tables` keeps the books. -/
theorem ends_copySlots {tmp fromFirst toFirst count : Nat}
    (books : pager.Books reserved held available)
    (range : Range pager.kernel tmp fromFirst toFirst count) :
    RangeEnds pager.kernel reserved held available toFirst count
      (pager.copySlots tmp count (4 * UInt32.ofNat fromFirst) (4 * UInt32.ofNat toFirst)) := by
  induction count generalizing pager fromFirst toFirst with
  | zero => exact ⟨books, .refl _ _ _⟩
  | succ count ih =>
      have next (first : Nat) : 4 * UInt32.ofNat first + 4 = 4 * UInt32.ofNat (first + 1) := by
        rw [UInt32.ofNat_add, UInt32.mul_add]
        rfl
      have step {middle : Pager} (isBooks : middle.Books reserved held available)
          (head : RangeCopied pager.kernel middle.kernel toFirst 1) :
          RangeEnds pager.kernel reserved held available toFirst (count + 1)
            (middle.copySlots tmp count (4 * UInt32.ofNat fromFirst + 4)
              (4 * UInt32.ofNat toFirst + 4)) := by
        have ih := ih isBooks (range.succ head)
        rw [next, next]
        generalize middle.copySlots tmp count (4 * UInt32.ofNat (fromFirst + 1))
          (4 * UInt32.ofNat (toFirst + 1)) = result at ih ⊢
        match result, ih with
        | .ok (_, last), ⟨lastBooks, tail⟩ => exact ⟨lastBooks, head.append range.toStart tail⟩
      have fromEnd := range.fromEnd
      have toEnd := range.toEnd
      have apart := range.apart
      have tmpSmall := range.inTable
      have absent := range.absent toFirst le_rfl (by omega)
      have isTo : pager.kernel.memory (4 * UInt32.ofNat toFirst) = pager.kernel.pgDir toFirst := rfl
      have isFrom : pager.kernel.memory (4 * UInt32.ofNat fromFirst) =
          pager.kernel.pgDir fromFirst := rfl
      rw [copySlots, isTo, isFrom, UInt32.and_comm 1, UInt32.and_comm 1,
        UInt32.and_comm frameMask, if_neg absent]
      by_cases noTable : pager.kernel.pgDir fromFirst &&& 1 = 0
      · rw [if_pos noTable]
        exact step books (.refl _ _ _)
      rw [if_neg noTable]
      have isEnd : fromFirst + 1 = fromFirst + (count + 1) ↔ count = 0 := by omega
      have inTable : (if count = 0 then tmp else 1024) ≤ 1024 := by split <;> omega
      have ends := ends_copyTable books inTable (by omega) noTable
        ⟨range.toStart, by omega⟩ absent (by omega) range.sameOffset fun pageEntry inNr =>
          ⟨by omega, noTable, by omega, fun isKernel => range.low fromFirst isKernel le_rfl
            (by omega) noTable pageEntry (by simpa only [isEnd] using inNr)⟩
      rcases isDone : pager.copyTable (pager.kernel.pgDir fromFirst &&& frameMask)
        (4 * UInt32.ofNat toFirst) (if count = 0 then tmp else 1024) with stop | ⟨done, last⟩
      · rw [isDone] at ends
        exact ends.elim
      rw [isDone] at ends
      obtain ⟨lastBooks, head⟩ := ends
      cases done with
      | false => exact ⟨lastBooks, head.mono (by omega)⟩
      | true => exact step lastBooks head

/-! ## `copy_mem` -/

/-- `copy_page_tables` keeps the books, and it does not panic. -/
theorem ends_copyPageTables {fromAddr toAddr size : UInt32}
    (books : pager.Books reserved held available) (fromAligned : fromAddr &&& 0x3fffff = 0)
    (toAligned : toAddr &&& 0x3fffff = 0)
    (range : Range pager.kernel (copyTail size) (dirOf fromAddr) (dirOf toAddr) (tableCount size)) :
    RangeEnds pager.kernel reserved held available (dirOf toAddr) (tableCount size)
      (pager.copyPageTables fromAddr toAddr size) := by
  have aligned : ¬(fromAddr &&& 0x3fffff ≠ 0 ∨ toAddr &&& 0x3fffff ≠ 0) := fun notAligned =>
    notAligned.elim (fun bad => bad fromAligned) fun bad => bad toAligned
  rw [copyPageTables, if_neg aligned, dirPtr_eq, dirPtr_eq]
  exact ends_copySlots books range

/-- How `copy_mem` ends: where there is no memory, the new task has no page table. -/
def ForkEnds (before : Kernel) (reserved : UInt32 → Nat) (held : Multiset UInt32)
    (available : Nat → Prop) (first count : Nat) : Except Stop (Bool × Pager) → Prop
  | .error _ => False
  | .ok (done, after) => after.Books reserved held available ∧
      RangeCopied before after.kernel first count ∧ (done = false →
        ∀ dirEntry, first ≤ dirEntry → dirEntry < first + count → ¬after.kernel.DirPresent dirEntry)

/-- `copy_mem` keeps the books, and what a copy has taken that fails is given back. -/
theorem ends_copyMem {oldDataBase newDataBase dataLimit : UInt32}
    (books : pager.Books reserved held available) (oldAligned : oldDataBase &&& 0x3fffff = 0)
    (newAligned : newDataBase &&& 0x3fffff = 0)
    (range : Range pager.kernel (copyTail dataLimit) (dirOf oldDataBase) (dirOf newDataBase)
      (tableCount dataLimit)) :
    ForkEnds pager.kernel reserved held available (dirOf newDataBase) (tableCount dataLimit)
      (pager.copyMem oldDataBase newDataBase dataLimit) := by
  have ends := ends_copyPageTables books oldAligned newAligned range
  rw [copyMem]
  rcases isDone : pager.copyPageTables oldDataBase newDataBase dataLimit with stop | ⟨done, last⟩
  · rw [isDone] at ends
    exact ends.elim
  rw [isDone] at ends
  obtain ⟨lastBooks, copied⟩ := ends
  cases done with
  | true => exact ⟨lastBooks, copied, Bool.noConfusion⟩
  | false =>
    obtain ⟨freed, isFreed, freedBooks, cleared⟩ :=
      lastBooks.kernel.freesPageTables newAligned range.toStart range.toEnd
    dsimp only
    rw [isFreed]
    refine ⟨⟨freedBooks, lastBooks.cursors⟩, ⟨fun other inDir outside => ?_,
      fun other isKernel present pageEntry inTable => ?_⟩, fun _ => cleared.absent⟩
    · exact (cleared.dirs other inDir outside).trans (copied.dirs other inDir outside)
    · have inDir : other < 1024 := lt_trans isKernel (by decide)
      have outside : other < dirOf newDataBase ∨ dirOf newDataBase + tableCount dataLimit ≤ other :=
        .inl (Nat.lt_of_lt_of_le isKernel range.toStart)
      exact (cleared.words other inDir outside ((copied.dirPresent inDir outside).mpr present)
        pageEntry inTable).trans (copied.kernelWords other isKernel present pageEntry inTable)

/-! ## A fork that finds its pages free -/

theorem getFreePage_of_found {kernel taken : Kernel} {page : UInt32} (cursors : Cursors)
    (isFound : kernel.getFreePage = some (page, taken)) :
    getFreePage ⟨kernel, cursors⟩ = .ok (some page, ⟨taken, cursors⟩) := by
  rw [getFreePage, isFound]

variable {state after : Copying} {fromTable toTable : UInt32} {nr : Nat}

theorem copyEntry_of_done (cursors : Cursors)
    (isDone : state.copyEntry fromTable toTable nr = .done after) :
    copyEntry ⟨state.kernel, cursors⟩ (entryPtr fromTable nr) (entryPtr toTable nr) =
      .ok (true, ⟨after.kernel, cursors⟩) := by
  rw [Copying.copyEntry] at isDone
  rw [copyEntry]
  dsimp only at isDone ⊢
  by_cases empty : state.kernel.memory (entryPtr fromTable nr) = 0
  · rw [if_pos empty, Copied.done.injEq] at isDone
    rw [if_pos empty, ← isDone]
    rfl
  rw [if_neg empty] at isDone ⊢
  rw [UInt32.and_comm 1]
  by_cases absent : state.kernel.memory (entryPtr fromTable nr) &&& 1 = 0
  · rw [if_pos absent] at isDone ⊢
    rcases isFound : state.kernel.getFreePage with _ | ⟨page, taken⟩
    · rw [Copying.touch_kernel, isFound] at isDone
      cases isDone
    · rw [Copying.touch_kernel, isFound] at isDone
      rw [getFreePage_of_found cursors isFound, ← Copied.done.inj isDone]
      rfl
  · rw [if_neg absent] at isDone ⊢
    by_cases isPage : writeProtected (state.kernel.memory (entryPtr fromTable nr)) > lowMem
    · rw [if_pos isPage] at isDone ⊢
      rw [← Copied.done.inj isDone]
      rfl
    · rw [if_neg isPage] at isDone ⊢
      rw [← Copied.done.inj isDone]
      rfl

theorem copyEntries_of_done (cursors : Cursors) {left : Nat}
    (isDone : state.copyEntries fromTable toTable left nr = .done after) :
    copyEntries ⟨state.kernel, cursors⟩ fromTable toTable left nr =
      .ok (true, ⟨after.kernel, cursors⟩) := by
  induction left generalizing state nr with
  | zero =>
      rw [← Copied.done.inj isDone]
      rfl
  | succ left ih =>
      rw [Copying.copyEntries] at isDone
      rcases isEntry : state.copyEntry fromTable toTable nr with next | next | _
      · rw [isEntry] at isDone
        rw [copyEntries, copyEntry_of_done cursors isEntry]
        exact ih isDone
      · rw [isEntry] at isDone
        cases isDone
      · rw [isEntry] at isDone
        cases isDone

theorem copySlots_of_done (cursors : Cursors) {tmp size : Nat} {fromDir toDir : UInt32}
    (isDone : state.copySlots tmp size fromDir toDir = .done after) :
    copySlots ⟨state.kernel, cursors⟩ tmp size fromDir toDir =
      .ok (true, ⟨after.kernel, cursors⟩) := by
  induction size generalizing state fromDir toDir with
  | zero =>
      rw [← Copied.done.inj isDone]
      rfl
  | succ size ih =>
      rw [Copying.copySlots] at isDone
      rw [copySlots]
      by_cases exists' : 1 &&& state.kernel.memory toDir ≠ 0
      · rw [if_pos exists'] at isDone
        cases isDone
      rw [if_neg exists'] at isDone ⊢
      by_cases noTable : 1 &&& state.kernel.memory fromDir = 0
      · rw [if_pos noTable] at isDone ⊢
        exact ih isDone
      rw [if_neg noTable] at isDone ⊢
      rw [copyTable]
      dsimp only at isDone
      rcases isFound : state.kernel.getFreePage with _ | ⟨table, taken⟩
      · rw [isFound] at isDone
        cases isDone
      rw [isFound] at isDone
      rw [getFreePage_of_found cursors isFound]
      dsimp only at isDone ⊢
      rcases isTable : Copying.copyEntries { state with kernel := taken.store toDir (table ||| 7) }
        (frameMask &&& state.kernel.memory fromDir) table (if size = 0 then tmp else 1024) 0 with
        next | next | _
      · rw [isTable] at isDone
        have copied := copyEntries_of_done cursors isTable
        dsimp only at copied
        rw [copied]
        exact ih isDone
      · rw [isTable] at isDone
        cases isDone
      · rw [isTable] at isDone
        cases isDone

theorem tableCount_toNat {size : UInt32} (small : size.toNat + 0x3fffff < 4294967296) :
    tableCount size = (size.toNat + 0x3fffff) >>> 22 := by
  have shift : UInt32.toNat 22 % 32 = 22 := rfl
  have add : UInt32.toNat 0x3fffff = 0x3fffff := rfl
  rw [tableCount, UInt32.toNat_shiftRight, shift, UInt32.toNat_add, add, Nat.mod_eq_of_lt small]

theorem copyTail_toNat {size : UInt32} (small : size.toNat + 0x3fffff < 4294967296) :
    copyTail size =
      let tmp := (size.toNat + 0x1000 - 1) >>> 12 &&& (0x1000 - 1)
      if tmp = 0 ∧ size.toNat ≠ 0 then 1024 else tmp := by
  have shift : UInt32.toNat 12 % 32 = 12 := rfl
  have page : UInt32.toNat 0x1000 = 0x1000 := rfl
  have mask : UInt32.toNat (0x1000 - 1) = 0x1000 - 1 := rfl
  have isTmp : (((size + 0x1000 - 1) >>> 12) &&& (0x1000 - 1)).toNat =
      (size.toNat + 0x1000 - 1) >>> 12 &&& (0x1000 - 1) := by
    rw [UInt32.toNat_and, UInt32.toNat_shiftRight, shift, mask, UInt32.toNat_sub_of_le,
      UInt32.toNat_add, page, UInt32.toNat_one, Nat.mod_eq_of_lt (by omega)]
    rw [UInt32.le_iff_toNat_le, UInt32.toNat_add, page, UInt32.toNat_one]
    omega
  simp only [copyTail, ← UInt32.toNat_inj, isTmp, ne_eq, UInt32.toNat_zero]

/-- Where the pages that a fork asks for are free, nothing is swapped out for it. -/
theorem copyPageTables_of_done {kernel : Kernel} (cursors : Cursors)
    {fromAddr toAddr size : UInt32} (small : size.toNat + 0x3fffff < 4294967296)
    (isDone : Mm.copyPageTables kernel fromAddr toAddr size.toNat = .done after) :
    copyPageTables ⟨kernel, cursors⟩ fromAddr toAddr size =
      .ok (true, ⟨after.kernel, cursors⟩) := by
  rw [Mm.copyPageTables] at isDone
  rw [copyPageTables, copyTail_toNat small, tableCount_toNat small]
  by_cases notAligned : fromAddr &&& 0x3fffff ≠ 0 ∨ toAddr &&& 0x3fffff ≠ 0
  · rw [if_pos notAligned] at isDone
    cases isDone
  · rw [if_neg notAligned] at isDone ⊢
    exact copySlots_of_done cursors isDone

end Pager

end Linux012.Mm
