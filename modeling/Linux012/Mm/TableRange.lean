import Linux012.Mm.SharedPages

/-!
# A range of page tables is freed

`free_page_tables` keeps the books: each page that an entry of the range maps loses one reference,
each page of the swap device is free again, and the page tables go.  It never comes to the panic of
`free_page`.
-/

namespace Linux012.Mm

/-- `SWAP_BITS`. -/
abbrev swapBits : Nat := 4096 <<< 3

namespace Kernel

/-! ## The functions -/

/-- `swap_free`. -/
def swapFree (kernel : Kernel) (swapNr : Nat) : Kernel :=
  if swapNr = 0 then kernel
  else if swapNr < swapBits then kernel.setSwapBit swapNr
  else kernel

/-- The inner loop of `free_page_tables`, for one entry. -/
def freeEntry (kernel : Kernel) (pgTable : UInt32) : Option Kernel :=
  let entry := kernel.memory pgTable
  if entry = 0 then some kernel
  else
    let freed := if 1 &&& entry ≠ 0 then kernel.freePage (frameMask &&& entry)
      else some (kernel.swapFree (entry >>> 1).toNat)
    freed.map fun kernel => kernel.store pgTable 0

/-- The inner loop of `free_page_tables`. -/
def freeEntries (kernel : Kernel) (table : UInt32) : (left nr : Nat) → Option Kernel
  | 0, _ => some kernel
  | left + 1, nr =>
      (kernel.freeEntry (entryPtr table nr)).bind fun kernel =>
        kernel.freeEntries table left (nr + 1)

/-- The outer loop of `free_page_tables`. -/
def freeSlots (kernel : Kernel) : (size : Nat) → (dir : UInt32) → Option Kernel
  | 0, _ => some kernel
  | size + 1, dir =>
      if 1 &&& kernel.memory dir = 0 then kernel.freeSlots size (dir + 4)
      else
        (kernel.freeEntries (frameMask &&& kernel.memory dir) 1024 0).bind fun kernel =>
          (kernel.freePage (frameMask &&& kernel.memory dir)).bind fun kernel =>
            (kernel.store dir 0).freeSlots size (dir + 4)

/-- `free_page_tables`; `none` where it panics. -/
def freePageTables (kernel : Kernel) (fromAddr size : UInt32) : Option Kernel :=
  if fromAddr &&& 0x3fffff ≠ 0 then none
  else if fromAddr = 0 then none
  else kernel.freeSlots ((size + 0x3fffff) >>> 22).toNat ((fromAddr >>> 20) &&& 0xffc)

/-! ## One entry -/

variable {kernel before after : Kernel} {nr : UInt32} {dirEntry pageEntry : Nat}
variable {reserved : UInt32 → Nat} {held : Multiset UInt32} {available : Nat → Prop}

theorem shiftRight_ne_zero {word : UInt32} (notZero : word ≠ 0) (absent : 1 &&& word = 0) :
    word >>> 1 ≠ 0 := by
  intro isZero
  have isZero := congrArg UInt32.toNat isZero
  have absent := congrArg UInt32.toNat absent
  have one : UInt32.toNat 1 % 32 = 1 := rfl
  rw [UInt32.toNat_shiftRight, one, Nat.shiftRight_eq_div_pow, UInt32.toNat_zero] at isZero
  rw [UInt32.toNat_and, UInt32.toNat_one, UInt32.toNat_zero, Nat.and_comm, Nat.and_one_is_mod]
    at absent
  refine notZero (UInt32.toNat_inj.mp ?_)
  rw [UInt32.toNat_zero]
  omega

/-- `free_page` of the page of an entry. -/
theorem freePage_frame {word : UInt32}
    (inMemory : lowMem ≤ word → word < kernel.highMemory ∧ kernel.memMap (mapNr word) ≠ 0) :
    kernel.freePage (word &&& frameMask) = some (kernel.release (word &&& frameMask)) := by
  rw [freePage, release]
  by_cases isPage : lowMem ≤ word
  · obtain ⟨below, inUse⟩ := inMemory isPage
    have frameLe : word &&& frameMask ≤ word := by
      rw [UInt32.le_iff_toNat_le, frame_toNat]
      exact Nat.div_mul_le_self _ _
    have below := UInt32.lt_of_le_of_lt frameLe below
    have isPage := lowMem_le_frame.mpr isPage
    rw [if_neg (UInt32.not_lt.mpr isPage), if_neg (UInt32.not_le.mpr below), mapNr_frame,
      if_neg inUse, if_pos isPage]
  · have isLow : ¬lowMem ≤ word &&& frameMask := fun high => isPage (lowMem_le_frame.mp high)
    rw [if_pos (UInt32.not_le.mp isLow), if_neg isLow]

/-- What is in the page tables is in the memory. -/
theorem pgDir_of_memory (same : after.memory = before.memory) (dirEntry : Nat) :
    after.pgDir dirEntry = before.pgDir dirEntry := congrFun same _

theorem word_of_memory (same : after.memory = before.memory) (dirEntry pageEntry : Nat) :
    after.word dirEntry pageEntry = before.word dirEntry pageEntry := by
  rw [word, word, entry, entry, pgDir_of_memory same, same]

/-- An entry is cleared when its page is released. -/
theorem changes_of_clear (sound : kernel.Sound) (isEntry : kernel.UserEntry dirEntry pageEntry)
    {freed : Kernel} (sameMemory : freed.memory = kernel.memory) :
    Changes kernel (freed.store (kernel.entry dirEntry pageEntry) 0) dirEntry pageEntry ∧
      (freed.store (kernel.entry dirEntry pageEntry) 0).word dirEntry pageEntry = 0 := by
  obtain ⟨changes, isNew⟩ := Pager.changes_of_store sound isEntry 0
  have same : (freed.store (kernel.entry dirEntry pageEntry) 0).memory =
      (kernel.store (kernel.entry dirEntry pageEntry) 0).memory :=
    congrArg (Function.update · _ 0) sameMemory
  exact ⟨⟨fun other inDir => (pgDir_of_memory same other).trans (changes.dirs other inDir),
    fun other inDir present otherEntry inTable differs =>
      (word_of_memory same other otherEntry).trans
        (changes.words other inDir present otherEntry inTable differs)⟩,
    (word_of_memory same dirEntry pageEntry).trans isNew⟩

/-- What `free_page_tables` does to one entry keeps the books. -/
theorem Books.freesEntry (books : kernel.Books reserved held available)
    (isEntry : kernel.UserEntry dirEntry pageEntry) :
    ∃ after, kernel.freeEntry (kernel.entry dirEntry pageEntry) = some after ∧
      after.Books reserved held available ∧ Changes kernel after dirEntry pageEntry ∧
      after.word dirEntry pageEntry = 0 := by
  have isWord : kernel.memory (kernel.entry dirEntry pageEntry) =
      kernel.word dirEntry pageEntry := rfl
  rw [freeEntry, isWord]
  dsimp only
  by_cases isZero : kernel.word dirEntry pageEntry = 0
  · rw [if_pos isZero]
    exact ⟨kernel, rfl, books, ⟨fun _ _ => rfl, fun _ _ _ _ _ _ => rfl⟩, isZero⟩
  rw [if_neg isZero]
  by_cases present : 1 &&& kernel.word dirEntry pageEntry ≠ 0
  · rw [if_pos present, UInt32.and_comm frameMask]
    have maps (isPage : lowMem ≤ kernel.word dirEntry pageEntry) :=
      books.of_maps ⟨isEntry, present, isPage, rfl⟩
    rw [freePage_frame fun isPage => ⟨(maps isPage).2.2.2, (maps isPage).2.2.1⟩]
    obtain ⟨changes, isNew⟩ := changes_of_clear books.sound isEntry
      (Pager.release_memory kernel (kernel.word dirEntry pageEntry &&& frameMask))
    refine ⟨_, rfl, books.change changes isEntry le_rfl (fun nr => ?_) (fun nr isNr => ?_)
      (fun mapped => ?_) (release_highMemory _ _) ?_, changes, isNew⟩
    · rw [isNew, pageNr_zero, Lib.refOf_none]
      have released := release_toNat present (fun isPage => (maps isPage).2.2.1) nr
      exact congrArg (· + own reserved held nr) released
    · rw [isNew, pageNr_zero] at isNr
      cases isNr
    · rw [isNew] at mapped
      exact absurd rfl mapped
    · refine books.slots.change changes ?_ (release_swapBitmap _ _)
      rw [isNew, slotNr_zero, slotNr_of_present present]
  · rw [if_neg present]
    have absent : pagePresent &&& kernel.word dirEntry pageEntry = 0 :=
      Decidable.not_not.mp present
    obtain ⟨slot, isSlot⟩ : ∃ slot, slotNr (kernel.word dirEntry pageEntry) = some slot :=
      ⟨_, slotNr_eq_some.mpr ⟨absent, shiftRight_ne_zero isZero absent, rfl⟩⟩
    obtain ⟨isAvailable, bitmap, isBitmap, -⟩ := books.slots.used_of_stores ⟨isEntry, isSlot⟩
    obtain ⟨positive, below⟩ := books.slots.inDevice slot isAvailable
    rw [(slotNr_eq_some.mp isSlot).2.2, swapFree, if_neg positive.ne',
      if_pos (show slot < swapBits from below)]
    obtain ⟨changes, isNew⟩ := changes_of_clear books.sound isEntry
      (rfl : (kernel.setSwapBit slot).memory = kernel.memory)
    have released :
        ((kernel.setSwapBit slot).store (kernel.entry dirEntry pageEntry) 0).swapBitmap =
          some (Function.update bitmap slot true) := by
      change kernel.swapBitmap.map (fun bitmap => Function.update bitmap slot true) = _
      rw [isBitmap]
      rfl
    refine ⟨_, rfl, books.change changes isEntry le_rfl (fun nr => ?_) (fun nr isNr => ?_)
      (fun mapped => ?_) rfl (books.slots.release changes isEntry isSlot ?_ isBitmap released),
      changes, isNew⟩
    · rw [isNew, pageNr_of_absent absent, pageNr_zero]
      rfl
    · rw [isNew, pageNr_zero] at isNr
      cases isNr
    · rw [isNew] at mapped
      exact absurd rfl mapped
    · rw [isNew, slotNr_zero]

/-! ## The entries of a table -/

/-- The entries of one table, from a number on, are cleared, and no others. -/
structure Clears (before after : Kernel) (dirEntry first count : Nat) : Prop where
  dirs : ∀ other < 1024, after.pgDir other = before.pgDir other
  cleared : ∀ pageEntry, first ≤ pageEntry → pageEntry < first + count →
    after.word dirEntry pageEntry = 0
  words : ∀ other < 1024, before.DirPresent other → ∀ pageEntry < 1024,
    (other = dirEntry → pageEntry < first ∨ first + count ≤ pageEntry) →
      after.word other pageEntry = before.word other pageEntry

/-- The inner loop of `free_page_tables` keeps the books. -/
theorem Books.freesEntries (books : kernel.Books reserved held available)
    (isUser : firstDir ≤ dirEntry ∧ dirEntry < 1024) (present : kernel.DirPresent dirEntry)
    {left first : Nat} (inTable : first + left ≤ 1024) :
    ∃ after, kernel.freeEntries (kernel.pgDir dirEntry &&& frameMask) left first = some after ∧
      after.Books reserved held available ∧ Clears kernel after dirEntry first left := by
  induction left generalizing kernel first with
  | zero =>
      refine ⟨kernel, rfl, books, fun _ _ => rfl, fun pageEntry atLeast below => ?_,
        fun _ _ _ _ _ _ => rfl⟩
      omega
  | succ left ih =>
      have isEntry : kernel.UserEntry dirEntry first := ⟨isUser, present, by omega⟩
      obtain ⟨next, isFreed, nextBooks, changes, isZero⟩ := books.freesEntry isEntry
      have isTable := changes.dirs dirEntry isUser.2
      have nextPresent := (changes.dirPresent isUser.2).mpr present
      obtain ⟨last, isLast, lastBooks, clears⟩ :=
        ih nextBooks nextPresent (by omega : first + 1 + left ≤ 1024)
      rw [isTable] at isLast
      refine ⟨last, ?_, lastBooks, fun other inDir => ?_, fun pageEntry atLeast below => ?_,
        fun other inDir isPresent pageEntry inTable outside => ?_⟩
      · have isFreed : kernel.freeEntry (entryPtr (kernel.pgDir dirEntry &&& frameMask) first) =
            some next := isFreed
        rw [freeEntries, isFreed]
        exact isLast
      · exact (clears.dirs other inDir).trans (changes.dirs other inDir)
      · by_cases isFirst : pageEntry = first
        · rw [isFirst, clears.words dirEntry isUser.2 nextPresent first (by omega)
            (fun _ => .inl (Nat.lt_succ_self first)), isZero]
        · exact clears.cleared pageEntry (by omega) (by omega)
      · rw [clears.words other inDir ((changes.dirPresent inDir).mpr isPresent) pageEntry inTable
          (fun same => by have outside := outside same; omega)]
        refine changes.words other inDir isPresent pageEntry inTable fun same => ?_
        cases same
        have outside := outside rfl
        omega

/-- An empty page table goes. -/
theorem Books.dropsTable (books : kernel.Books reserved held available)
    (isUser : firstDir ≤ dirEntry ∧ dirEntry < 1024) (present : kernel.DirPresent dirEntry)
    (isEmpty : EmptyTable kernel dirEntry) :
    ∃ freed, kernel.freePage (kernel.pgDir dirEntry &&& frameMask) = some freed ∧
      (freed.store (4 * UInt32.ofNat dirEntry) 0).Books reserved held available ∧
      DirChanges kernel (freed.store (4 * UInt32.ofNat dirEntry) 0) dirEntry ∧
      ¬(freed.store (4 * UInt32.ofNat dirEntry) 0).DirPresent dirEntry := by
  have isTable (isPage : lowMem ≤ kernel.pgDir dirEntry) :
      dirEntry ∈ kernel.tablesAt (mapNr (kernel.pgDir dirEntry)) :=
    mem_tablesAt.mpr ⟨isUser.2, present, lowMem_le_frame.mpr isPage, rfl⟩
  have inMemory (isPage : lowMem ≤ kernel.pgDir dirEntry) :
      kernel.pgDir dirEntry < kernel.highMemory ∧
        kernel.memMap (mapNr (kernel.pgDir dirEntry)) ≠ 0 := by
    have member := isTable isPage
    have none : own reserved held (mapNr (kernel.pgDir dirEntry)) = 0 :=
      Decidable.byContradiction fun keeps => by
        rw [(books.kept _ keeps).2] at member
        cases member
    refine ⟨books.below_of_free isPage none, fun isFree => ?_⟩
    have exactly := books.exact' (mapNr (kernel.pgDir dirEntry))
    have positive := Finset.card_pos.mpr ⟨_, member⟩
    rw [isFree, UInt8.toNat_zero] at exactly
    omega
  refine ⟨_, freePage_frame inMemory, ?_⟩
  generalize isFreed : kernel.release (kernel.pgDir dirEntry &&& frameMask) = freed
  have sameMemory : freed.memory = kernel.memory := isFreed ▸ Pager.release_memory _ _
  obtain ⟨changes, isDir⟩ := dirChanges_of_store books.sound isUser.2 0
  have same : (freed.store (4 * UInt32.ofNat dirEntry) 0).memory =
      (kernel.store (4 * UInt32.ofNat dirEntry) 0).memory :=
    congrArg (Function.update · _ 0) sameMemory
  have changes : DirChanges kernel (freed.store (4 * UInt32.ofNat dirEntry) 0) dirEntry :=
    ⟨fun other inDir differs => (pgDir_of_memory same other).trans
        (changes.dirs other inDir differs),
      fun other inDir differs isPresent pageEntry inTable =>
        (word_of_memory same other pageEntry).trans
          (changes.words other inDir differs isPresent pageEntry inTable)⟩
  have isDir : (freed.store (4 * UInt32.ofNat dirEntry) 0).pgDir dirEntry = 0 :=
    (pgDir_of_memory same dirEntry).trans isDir
  have absent : ¬(freed.store (4 * UInt32.ofNat dirEntry) 0).DirPresent dirEntry := by
    rw [DirPresent, isDir]
    exact fun present => present rfl
  have noTable : tableNr ((freed.store (4 * UInt32.ofNat dirEntry) 0).pgDir dirEntry) = none := by
    rw [isDir]
    decide
  refine ⟨books.changeDir changes isUser isEmpty (fun isPresent => absurd isPresent absent) le_rfl
    (fun nr => ?_) (fun isPresent => absurd isPresent absent) (fun nr isNr => ?_)
    (isFreed ▸ release_highMemory _ _) (isFreed ▸ release_swapBitmap _ _), changes, absent⟩
  · rw [noTable, Lib.refOf_none, Nat.add_zero, ← isFreed]
    refine congrArg (· + own reserved held nr) ?_
    by_cases isPage : lowMem ≤ kernel.pgDir dirEntry
    · have isFrame := lowMem_le_frame.mpr isPage
      rw [tableNr_eq_some.mpr ⟨present, isFrame, rfl⟩]
      have released := released_toNat (inMemory isPage).2 nr
      rw [← mapNr_frame] at released ⊢
      have isRelease : (kernel.release (kernel.pgDir dirEntry &&& frameMask)).memMap =
          Function.update kernel.memMap (mapNr (kernel.pgDir dirEntry &&& frameMask))
            (kernel.memMap (mapNr (kernel.pgDir dirEntry &&& frameMask)) - 1) := by
        rw [release, if_pos isFrame]
      change ((kernel.release (kernel.pgDir dirEntry &&& frameMask)).memMap nr).toNat + _ = _
      rw [isRelease]
      exact released
    · have isLow : ¬lowMem ≤ kernel.pgDir dirEntry &&& frameMask := fun high =>
        isPage (lowMem_le_frame.mp high)
      have isNone : tableNr (kernel.pgDir dirEntry) = none := if_neg fun both => isLow both.2
      rw [isNone, release, if_neg isLow]
      rfl
  · rw [noTable] at isNr
    cases isNr

/-! ## The range -/

/-- The directory entries of a range are absent, and nothing else is changed. -/
structure RangeCleared (before after : Kernel) (first count : Nat) : Prop where
  absent : ∀ dirEntry, first ≤ dirEntry → dirEntry < first + count → ¬after.DirPresent dirEntry
  dirs : ∀ other < 1024, (other < first ∨ first + count ≤ other) →
    after.pgDir other = before.pgDir other
  words : ∀ other < 1024, (other < first ∨ first + count ≤ other) → before.DirPresent other →
    ∀ pageEntry < 1024, after.word other pageEntry = before.word other pageEntry

theorem RangeCleared.dirPresent {first count other : Nat}
    (cleared : RangeCleared before after first count) (inDir : other < 1024)
    (outside : other < first ∨ first + count ≤ other) :
    after.DirPresent other ↔ before.DirPresent other := by
  rw [DirPresent, DirPresent, cleared.dirs other inDir outside]

/-- A cleared table and the directory entry that goes with it. -/
theorem RangeCleared.of_table (clears : Clears kernel before dirEntry 0 1024)
    (changes : DirChanges before after dirEntry) (absent : ¬after.DirPresent dirEntry) :
    RangeCleared kernel after dirEntry 1 where
  absent other atLeast below := by
    have same : other = dirEntry := by omega
    exact same ▸ absent
  dirs other otherIn outside :=
    (changes.dirs other otherIn (by omega)).trans (clears.dirs other otherIn)
  words other otherIn outside present pageEntry inTable := by
    have differs : other ≠ dirEntry := by omega
    have isPresent : before.DirPresent other := by
      rw [DirPresent, clears.dirs other otherIn]
      exact present
    rw [changes.words other otherIn differs isPresent pageEntry inTable]
    exact clears.words other otherIn present pageEntry inTable fun same => absurd same differs

theorem RangeCleared.append {last : Kernel} {first count : Nat}
    (head : RangeCleared before after first 1) (tail : RangeCleared after last (first + 1) count)
    (inDir : first < 1024) : RangeCleared before last first (count + 1) where
  absent dirEntry atLeast below := by
    by_cases isFirst : dirEntry = first
    · subst isFirst
      rw [tail.dirPresent inDir (.inl (Nat.lt_succ_self _))]
      exact head.absent dirEntry le_rfl (Nat.lt_succ_self _)
    · exact tail.absent dirEntry (by omega) (by omega)
  dirs other otherIn outside :=
    (tail.dirs other otherIn (by omega)).trans (head.dirs other otherIn (by omega))
  words other otherIn outside present pageEntry inTable := by
    have isPresent := (head.dirPresent otherIn (by omega)).mpr present
    rw [tail.words other otherIn (by omega) isPresent pageEntry inTable]
    exact head.words other otherIn (by omega) present pageEntry inTable

theorem RangeCleared.of_absent (absent : ¬kernel.DirPresent dirEntry) :
    RangeCleared kernel kernel dirEntry 1 where
  absent other atLeast below := by
    have same : other = dirEntry := by omega
    exact same ▸ absent
  dirs _ _ _ := rfl
  words _ _ _ _ _ _ := rfl

/-- The outer loop of `free_page_tables` keeps the books. -/
theorem Books.freesSlots (books : kernel.Books reserved held available) {count first : Nat}
    (isUser : firstDir ≤ first) (inDir : first + count ≤ 1024) :
    ∃ after, kernel.freeSlots count (4 * UInt32.ofNat first) = some after ∧
      after.Books reserved held available ∧ RangeCleared kernel after first count := by
  induction count generalizing kernel first with
  | zero =>
      refine ⟨kernel, rfl, books, fun dirEntry atLeast below => ?_, fun _ _ _ => rfl,
        fun _ _ _ _ _ _ => rfl⟩
      omega
  | succ count ih =>
      have isDir : firstDir ≤ first ∧ first < 1024 := ⟨isUser, by omega⟩
      have next : 4 * UInt32.ofNat first + 4 = 4 * UInt32.ofNat (first + 1) := by
        rw [UInt32.ofNat_add, UInt32.mul_add]
        rfl
      have step {middle : Kernel} (isBooks : middle.Books reserved held available)
          (head : RangeCleared kernel middle first 1) :
          ∃ after, middle.freeSlots count (4 * UInt32.ofNat first + 4) = some after ∧
            after.Books reserved held available ∧ RangeCleared kernel after first (count + 1) := by
        obtain ⟨last, isLast, lastBooks, tail⟩ :=
          ih isBooks (Nat.le_succ_of_le isUser) (by omega : first + 1 + count ≤ 1024)
        exact ⟨last, next ▸ isLast, lastBooks, head.append tail isDir.2⟩
      have isPgDir : kernel.memory (4 * UInt32.ofNat first) = kernel.pgDir first := rfl
      rw [freeSlots, isPgDir, UInt32.and_comm 1, UInt32.and_comm frameMask]
      by_cases absent : kernel.pgDir first &&& 1 = 0
      · rw [if_pos absent]
        exact step books (.of_absent fun present => present absent)
      · rw [if_neg absent]
        obtain ⟨emptied, isEmptied, emptyBooks, clears⟩ :=
          books.freesEntries isDir absent (le_rfl : 0 + 1024 ≤ 1024)
        have isEmpty : EmptyTable emptied first := fun _ pageEntry inTable =>
          clears.cleared pageEntry (Nat.zero_le _) (by omega)
        have present : emptied.DirPresent first := by
          rw [DirPresent, clears.dirs first isDir.2]
          exact absent
        obtain ⟨freed, isFreed, freedBooks, changes, gone⟩ :=
          emptyBooks.dropsTable isDir present isEmpty
        have isDropped : emptied.freePage (frameMask &&& emptied.memory (4 * UInt32.ofNat first)) =
            some freed := by
          rw [UInt32.and_comm]
          exact isFreed
        rw [isEmptied, Option.bind_some, isDropped, Option.bind_some]
        exact step freedBooks (.of_table clears changes gone)

/-- `free_page_tables` keeps the books, and clears the range. -/
theorem Books.freesPageTables {fromAddr size : UInt32}
    (books : kernel.Books reserved held available) (aligned : fromAddr &&& 0x3fffff = 0)
    (isUser : firstDir ≤ Pager.dirOf fromAddr)
    (inDir : Pager.dirOf fromAddr + ((size + 0x3fffff) >>> 22).toNat ≤ 1024) :
    ∃ after, kernel.freePageTables fromAddr size = some after ∧
      after.Books reserved held available ∧
      RangeCleared kernel after (Pager.dirOf fromAddr) ((size + 0x3fffff) >>> 22).toNat := by
  have notZero : fromAddr ≠ 0 := by
    rintro rfl
    exact absurd isUser (by decide)
  rw [freePageTables, if_neg (Decidable.not_not.mpr aligned), if_neg notZero, Pager.dirPtr_eq]
  exact books.freesSlots isUser inDir

end Kernel

end Linux012.Mm
