import Linux012.Mm.Books
import Linux012.Mm.DemandLoading

/-!
# Pages for the kernel

`get_free_page` with the pages that it swaps out keeps the books: the page that it returns is the
kernel's, each page that is swapped out loses one reference, and a page of the swap device has one
owner.  It never comes to a panic of `free_page`.
-/

namespace Linux012.Mm

namespace Kernel

variable {kernel before after : Kernel} {nr : UInt32} {dirEntry pageEntry : Nat}
variable {reserved : UInt32 → Nat} {held : Multiset UInt32} {available : Nat → Prop}

/-! ## What is swapped out -/

/-- Entries are kept, or they are those of users and have lost the page that they had in memory. -/
structure Evicts (before after : Kernel) : Prop where
  dirs : ∀ dirEntry < 1024, after.pgDir dirEntry = before.pgDir dirEntry
  words : ∀ dirEntry < 1024, before.DirPresent dirEntry → ∀ pageEntry < 1024,
    after.word dirEntry pageEntry = before.word dirEntry pageEntry ∨
      firstDir ≤ dirEntry ∧ pagePresent &&& before.word dirEntry pageEntry ≠ 0 ∧
        pagePresent &&& after.word dirEntry pageEntry = 0

namespace Evicts

theorem refl (kernel : Kernel) : Evicts kernel kernel :=
  ⟨fun _ _ => rfl, fun _ _ _ _ _ => .inl rfl⟩

theorem dirPresent (evicts : Evicts before after) (inDir : dirEntry < 1024) :
    after.DirPresent dirEntry ↔ before.DirPresent dirEntry := by
  rw [DirPresent, DirPresent, evicts.dirs dirEntry inDir]

theorem userEntry (evicts : Evicts before after) :
    after.UserEntry dirEntry pageEntry ↔ before.UserEntry dirEntry pageEntry := by
  constructor
  · exact fun isEntry => ⟨isEntry.isUser, (evicts.dirPresent isEntry.isUser.2).mp isEntry.present,
      isEntry.inTable⟩
  · exact fun isEntry => ⟨isEntry.isUser,
      (evicts.dirPresent isEntry.isUser.2).mpr isEntry.present, isEntry.inTable⟩

theorem trans {last : Kernel} (first : Evicts before after) (second : Evicts after last) :
    Evicts before last where
  dirs dirEntry inDir := (second.dirs dirEntry inDir).trans (first.dirs dirEntry inDir)
  words dirEntry inDir present pageEntry inTable := by
    have isPresent := (first.dirPresent inDir).mpr present
    rcases first.words dirEntry inDir present pageEntry inTable with same | ⟨isUser, had, lost⟩
    · rw [← same]
      exact second.words dirEntry inDir isPresent pageEntry inTable
    · rcases second.words dirEntry inDir isPresent pageEntry inTable with same | ⟨-, isHere, -⟩
      · exact .inr ⟨isUser, had, same ▸ lost⟩
      · exact absurd lost isHere

/-- An entry without a page in memory is not touched. -/
theorem word_of_absent (evicts : Evicts before after)
    (isEntry : before.UserEntry dirEntry pageEntry)
    (absent : pagePresent &&& before.word dirEntry pageEntry = 0) :
    after.word dirEntry pageEntry = before.word dirEntry pageEntry :=
  (evicts.words dirEntry isEntry.isUser.2 isEntry.present pageEntry isEntry.inTable).resolve_right
    fun lost => lost.2.1 absent

/-- The entries of the kernel are not touched. -/
theorem word_of_kernel (evicts : Evicts before after) (isKernel : dirEntry < firstDir)
    (present : before.DirPresent dirEntry) (inTable : pageEntry < 1024) :
    after.word dirEntry pageEntry = before.word dirEntry pageEntry :=
  (evicts.words dirEntry (lt_trans isKernel (by decide)) present pageEntry inTable).resolve_right
    fun lost => absurd lost.1 (Nat.not_le.mpr isKernel)

theorem entry (evicts : Evicts before after) (inDir : dirEntry < 1024) (pageEntry : Nat) :
    after.entry dirEntry pageEntry = before.entry dirEntry pageEntry :=
  congrArg (fun dir => entryPtr (dir &&& frameMask) pageEntry) (evicts.dirs dirEntry inDir)

end Evicts

theorem evicts_of_quiet (changes : Changes before after 0 1024) : Evicts before after where
  dirs := changes.dirs
  words other inDir present otherEntry inTable := .inl (changes.words other inDir present
    otherEntry inTable fun same => absurd (Prod.mk.inj same).2 inTable.ne)

/-- What is written in a page that the kernel keeps is not in the books. -/
theorem Books.fills {page : UInt32} (books : before.Books reserved held available)
    (isHeld : page ∈ held) (fills : Fills before after page)
    (sameHigh : after.highMemory = before.highMemory)
    (sameBitmap : after.swapBitmap = before.swapBitmap) :
    after.Books reserved held available ∧ Evicts before after := by
  have changes := Pager.changes_of_fills fills (books.unused isHeld)
  exact ⟨books.quiet changes (fun nr => by rw [fills.memMap]) books.kept books.pages books.once
    sameHigh sameBitmap, evicts_of_quiet changes⟩

/-! ## One page is swapped out -/

theorem highMemory_of_freePage {addr : UInt32} (isFreed : kernel.freePage addr = some after) :
    after.highMemory = kernel.highMemory := by
  rw [freePage] at isFreed
  split_ifs at isFreed
  · cases isFreed
    rfl
  · cases isFreed
    rfl

theorem getSwapPage_highMemory (kernel : Kernel) :
    kernel.getSwapPage.2.highMemory = kernel.highMemory := by
  rw [getSwapPage]
  split
  · rfl
  · split <;> rfl

theorem highMemory_of_freed {last : Kernel} {page : UInt32}
    (isOut : (match last.freePage page with
      | some kernel => Outcome.evicted kernel
      | none => .panics) = .evicted after) : after.highMemory = last.highMemory := by
  split at isOut
  next next isFreed =>
    cases isOut
    exact highMemory_of_freePage isFreed
  next => cases isOut

theorem highMemory_of_evicted {ptr : UInt32} (evicted : kernel.tryToSwapOut ptr = .evicted after) :
    after.highMemory = kernel.highMemory := by
  rw [tryToSwapOut] at evicted
  dsimp only at evicted
  split_ifs at evicted
  · exact (highMemory_of_freed evicted).trans kernel.getSwapPage_highMemory
  · have sameHigh := highMemory_of_freed evicted
    exact sameHigh

/-- The page of the swap device of an entry that `try_to_swap_out` has written. -/
theorem slotNr_shiftLeft {slot : Nat} (positive : 0 < slot) (below : slot < 32768) :
    slotNr (UInt32.ofNat slot <<< 1) = some slot := by
  have one : UInt32.toNat 1 % 32 = 1 := rfl
  have back : (UInt32.ofNat slot <<< 1 >>> 1).toNat = slot := by
    rw [UInt32.toNat_shiftRight, UInt32.toNat_shiftLeft, one, Nat.shiftLeft_eq,
      Nat.shiftRight_eq_div_pow, UInt32.toNat_ofNat']
    omega
  refine slotNr_eq_some.mpr ⟨present_and_shiftLeft _, fun isZero => ?_, back⟩
  rw [isZero, UInt32.toNat_zero] at back
  omega

theorem pageNr_of_mapped {word : UInt32} (mapped : pagePresent &&& word ≠ 0)
    (isPage : lowMem ≤ word) : pageNr word = some (mapNr word) := if_pos ⟨mapped, isPage⟩

/-- One reference to a page less. -/
theorem released_toNat {memMap : UInt32 → UInt8} {page : UInt32} (inUse : memMap page ≠ 0)
    (nr : UInt32) : (Function.update memMap page (memMap page - 1) nr).toNat +
      Lib.refOf (some page) nr = (memMap nr).toNat := by
  by_cases same : nr = page
  · subst same
    have one : (1 : UInt8) ≤ memMap nr := by
      rw [UInt8.le_iff_toNat_le, UInt8.toNat_one]
      exact Nat.pos_of_ne_zero fun isZero => inUse (UInt8.toNat_inj.mp isZero)
    rw [Function.update_self, Lib.refOf_self, UInt8.toNat_sub_of_le _ _ one, UInt8.toNat_one]
    rw [UInt8.le_iff_toNat_le, UInt8.toNat_one] at one
    omega
  · rw [Function.update_of_ne same, Lib.refOf_of_ne (Ne.symm same), Nat.add_zero]

/-- Swapping a page out keeps the books. -/
theorem books_of_evicted (books : kernel.Books reserved held available)
    (isEntry : kernel.UserEntry dirEntry pageEntry)
    (evicted : kernel.tryToSwapOut (kernel.entry dirEntry pageEntry) = .evicted after) :
    after.Books reserved held available ∧ Evicts kernel after := by
  have evicts := kernel.tryToSwapOut_spec (kernel.entry dirEntry pageEntry)
  rw [evicted] at evicts
  have isPage : lowMem ≤ kernel.word dirEntry pageEntry := lowMem_le_of_evicted evicted
  have changes := changes_of_evicts evicts books.sound isEntry rfl
  have isWord : after.word dirEntry pageEntry =
      after.memory (kernel.entry dirEntry pageEntry) := by
    rw [word, changes.entry isEntry.isUser.2]
  have absent : pagePresent &&& after.word dirEntry pageEntry = 0 := isWord ▸ evicts.absent
  have present : pagePresent &&& kernel.word dirEntry pageEntry ≠ 0 := evicts.present
  have wasNr : pageNr (kernel.word dirEntry pageEntry) =
      some (mapNr (kernel.word dirEntry pageEntry)) := pageNr_of_mapped present isPage
  have freed : after.memMap = Function.update kernel.memMap (mapNr (kernel.word dirEntry pageEntry))
      (kernel.memMap (mapNr (kernel.word dirEntry pageEntry)) - 1) := evicts.freed
  have wasNone : slotNr (kernel.word dirEntry pageEntry) = none := slotNr_of_present present
  refine ⟨books.change changes isEntry le_rfl (fun nr => ?_) (fun nr isNr => ?_)
    (fun mapped => absurd absent mapped) (highMemory_of_evicted evicted) ?_, changes.dirs,
    fun other inDir isPresent otherEntry inTable => ?_⟩
  · rw [freed, wasNr, pageNr_of_absent absent, Lib.refOf_none]
    have released := released_toNat evicts.inUse nr
    exact congrArg (· + own reserved held nr) released
  · rw [pageNr_of_absent absent] at isNr
    cases isNr
  · by_cases dirty : pageDirty &&& kernel.word dirEntry pageEntry ≠ 0
    · obtain ⟨bitmap, slot, isBitmap, wasFree, below, taken, entry, -⟩ := evicts.saved dirty
      have positive := (books.slots.inDevice slot (books.slots.free _ _ isBitmap wasFree)).1
      exact books.slots.take changes isEntry wasNone
        (by rw [isWord, entry, slotNr_shiftLeft positive below]) isBitmap wasFree taken
    · obtain ⟨sameBitmap, entry, -⟩ := evicts.clean (Decidable.not_not.mp dirty)
      exact books.slots.change changes (by rw [isWord, entry, wasNone, slotNr_zero]) sameBitmap
  · by_cases same : (other, otherEntry) = (dirEntry, pageEntry)
    · cases same
      exact .inr ⟨isEntry.isUser.1, present, absent⟩
    · exact .inl (changes.words other inDir isPresent otherEntry inTable same)

/-- `free_page` does not panic for a page that is mapped. -/
theorem Books.not_panics (books : kernel.Books reserved held available)
    (isEntry : kernel.UserEntry dirEntry pageEntry) :
    kernel.tryToSwapOut (kernel.entry dirEntry pageEntry) ≠ .panics := by
  intro panics
  have bad := kernel.tryToSwapOut_spec (kernel.entry dirEntry pageEntry)
  rw [panics] at bad
  have isWord : kernel.memory (kernel.entry dirEntry pageEntry) =
      kernel.word dirEntry pageEntry := rfl
  rw [tryToSwapOut] at panics
  dsimp only at panics
  rw [isWord] at panics
  by_cases absent : pagePresent &&& kernel.word dirEntry pageEntry = 0
  · rw [if_pos absent] at panics
    cases panics
  by_cases outside : kernel.word dirEntry pageEntry - lowMem > pagingMemory
  · rw [if_neg absent, if_pos outside] at panics
    cases panics
  have maps : kernel.Maps (mapNr (kernel.word dirEntry pageEntry)) dirEntry pageEntry :=
    ⟨isEntry, absent, (lowMem_le_of_paging outside).1, rfl⟩
  obtain ⟨-, -, inUse, below⟩ := books.of_maps maps
  rcases bad with tooHigh | isFree
  · exact absurd tooHigh (UInt32.not_le.mpr below)
  · exact inUse isFree

/-! ## The search for a free page -/

theorem Books.memMap_of_behind {page : Nat} (books : kernel.Books reserved held available)
    (isPage : page < pagingPages) (tooHigh : kernel.highMemory ≤ pageAddr page) :
    kernel.memMap (UInt32.ofNat page) ≠ 0 := by
  intro isFree
  have none := books.own_of_free isFree
  have notFree := books.behind (pageAddr page) (lowMem_le_pageAddr isPage) tooHigh
  rw [mapNr_pageAddr isPage] at notFree
  exact notFree (Nat.eq_zero_of_add_eq_zero_right none)

/-- What is found is the only page that is taken. -/
theorem Books.eq_take {below : Nat} {page : UInt32} (books : kernel.Books reserved held available)
    (atMost : below ≤ pagingPages) (isFound : kernel.getFreePageBelow below = some (page, after)) :
    ∃ nr < below, page = pageAddr nr ∧ after = kernel.take nr ∧
      kernel.memMap (UInt32.ofNat nr) = 0 := by
  induction below with
  | zero => cases isFound
  | succ nr ih =>
      rw [getFreePageBelow] at isFound
      split at isFound
      next isFree =>
        have inMemory : ¬pageAddr nr ≥ kernel.highMemory := fun tooHigh =>
          books.memMap_of_behind (Nat.lt_of_succ_le atMost) tooHigh isFree
        rw [if_neg inMemory] at isFound
        simp only [Option.some.injEq, Prod.mk.injEq] at isFound
        obtain ⟨rfl, rfl⟩ := isFound
        exact ⟨nr, Nat.lt_succ_self nr, rfl, rfl, isFree⟩
      next =>
        obtain ⟨found, less, isAddr, isTaken, isFree⟩ := ih (Nat.le_of_succ_le atMost) isFound
        exact ⟨found, Nat.lt_succ_of_lt less, isAddr, isTaken, isFree⟩

/-- Where nothing is found, nothing is marked. -/
theorem Books.passOver_eq {below : Nat} (books : kernel.Books reserved held available)
    (atMost : below ≤ pagingPages) (isNone : kernel.getFreePageBelow below = none) :
    kernel.passOver below = kernel := by
  induction below with
  | zero => rfl
  | succ nr ih =>
      rw [getFreePageBelow] at isNone
      split at isNone
      next isFree =>
        have inMemory : ¬pageAddr nr ≥ kernel.highMemory := fun tooHigh =>
          books.memMap_of_behind (Nat.lt_of_succ_le atMost) tooHigh isFree
        rw [if_neg inMemory] at isNone
        cases isNone
      next inUse =>
        rw [passOver, if_neg inUse]
        exact ih (Nat.le_of_succ_le atMost) isNone

end Kernel

namespace Pager

open Kernel

variable {pager after : Pager} {reserved : UInt32 → Nat} {held : Multiset UInt32}
variable {available : Nat → Prop}

/-- The books are right, and so are the cursors. -/
structure Books (pager : Pager) (reserved : UInt32 → Nat) (held : Multiset UInt32)
    (available : Nat → Prop) : Prop where
  kernel : pager.kernel.Books reserved held available
  cursors : pager.cursors.InRange

theorem Books.isSound (books : pager.Books reserved held available) : pager.Sound :=
  ⟨books.kernel.sound, books.cursors⟩

/-- How `get_free_page` ends. -/
def Gets (before : Pager) (reserved : UInt32 → Nat) (held : Multiset UInt32)
    (available : Nat → Prop) : Except Stop (Option UInt32 × Pager) → Prop
  | .error _ => False
  | .ok (none, after) =>
      after.Books reserved held available ∧ Evicts before.kernel after.kernel
  | .ok (some page, after) =>
      after.Books reserved (page ::ₘ held) available ∧ Evicts before.kernel after.kernel ∧
        ∀ ptr, ptr &&& frameMask = page → after.kernel.memory ptr = 0

theorem Gets.of_evicts {first second : Pager} {result : Except Stop (Option UInt32 × Pager)}
    (evicts : Evicts first.kernel second.kernel)
    (gets : Gets second reserved held available result) : Gets first reserved held available result := by
  match result, gets with
  | .ok (none, _), ⟨books, evicts'⟩ => exact ⟨books, evicts.trans evicts'⟩
  | .ok (some _, _), ⟨books, evicts', cleared⟩ => exact ⟨books, evicts.trans evicts', cleared⟩

theorem gets_of_search {kernel : Kernel} {page : UInt32}
    (books : pager.Books reserved held available)
    (isFound : pager.kernel.getFreePage = some (page, kernel)) :
    Gets pager reserved held available (.ok (some page, { pager with kernel })) := by
  obtain ⟨nr, isPage, rfl, rfl, isFree⟩ := books.kernel.eq_take le_rfl isFound
  have keeps : Keeps pager.kernel (pager.kernel.take nr) :=
    ⟨fun _ inUse => take_memMap_of_ne isFree inUse, fun _ => take_memory isPage isFree⟩
  exact ⟨⟨books.kernel.takes isPage isFree, books.cursors⟩,
    evicts_of_quiet (keeps.changes books.kernel.sound 0 1024), fun ptr inPage => if_pos inPage⟩

theorem exists_userEntry_of_not_kept {cursors : Cursors} {kernel : Kernel}
    (inRange : cursors.InRange) (notKept : (kernel.swapOut cursors).1 ≠ .kept) :
    ∃ dirEntry pageEntry, kernel.UserEntry dirEntry pageEntry ∧
      kernel.tryToSwapOut (kernel.entry dirEntry pageEntry) = (kernel.swapOut cursors).1 := by
  rcases kernel.swapOut_searches inRange with
    ⟨found, below, absent, present, searches⟩ | ⟨absent, isKept⟩
  · rcases searches with ⟨isKept, _⟩ | ⟨_, passed, pageEntry, tried, gives⟩
    · exact absurd isKept notKept
    · exact ⟨_, pageEntry, ⟨dirAt_range _ _, tried.present, tried.inTable⟩, gives⟩
  · exact absurd isKept notKept

/-- `get_free_page` from a search on that has found nothing. -/
theorem gets_swapForPage (books : pager.Books reserved held available) :
    Gets pager reserved held available pager.swapForPage := by
  fun_induction Pager.swapForPage pager with
  | case1 pager kernel cursors isOut page taken isFound =>
      obtain ⟨dirEntry, pageEntry, isEntry, evicted⟩ := exists_userEntry_of_not_kept books.cursors
        (by rw [isOut]; exact Outcome.noConfusion)
      rw [isOut] at evicted
      obtain ⟨isBooks, evicts⟩ := books_of_evicted books.kernel isEntry evicted
      have inRange := swapOut_inRange pager.kernel books.cursors
      rw [isOut] at inRange
      have found : Gets ⟨kernel, cursors⟩ _ _ _ _ := gets_of_search ⟨isBooks, inRange⟩ isFound
      exact found.of_evicts evicts
  | case2 pager kernel cursors isOut isNone ih =>
      obtain ⟨dirEntry, pageEntry, isEntry, evicted⟩ := exists_userEntry_of_not_kept books.cursors
        (by rw [isOut]; exact Outcome.noConfusion)
      rw [isOut] at evicted
      obtain ⟨isBooks, evicts⟩ := books_of_evicted books.kernel isEntry evicted
      have inRange := swapOut_inRange pager.kernel books.cursors
      rw [isOut] at inRange
      have searched : kernel.searched = kernel := by
        unfold searched
        exact isBooks.passOver_eq le_rfl isNone
      rw [searched] at ih ⊢
      exact (ih ⟨isBooks, inRange⟩).of_evicts evicts
  | case3 pager cursors isKept =>
      have inRange := swapOut_inRange pager.kernel books.cursors
      rw [isKept] at inRange
      exact ⟨⟨books.kernel, inRange⟩, .refl _⟩
  | case4 pager cursors panics =>
      obtain ⟨dirEntry, pageEntry, isEntry, isPanic⟩ := exists_userEntry_of_not_kept books.cursors
        (by rw [panics]; exact Outcome.noConfusion)
      rw [panics] at isPanic
      exact books.kernel.not_panics isEntry isPanic

/-- `get_free_page` keeps the books. -/
theorem gets_getFreePage (books : pager.Books reserved held available) :
    Gets pager reserved held available pager.getFreePage := by
  rw [getFreePage]
  split
  next page kernel isFound => exact gets_of_search books isFound
  next isNone =>
    have searched : pager.kernel.searched = pager.kernel := by
      unfold searched
      exact books.kernel.passOver_eq le_rfl isNone
    rw [searched]
    exact gets_swapForPage books

end Pager

end Linux012.Mm
