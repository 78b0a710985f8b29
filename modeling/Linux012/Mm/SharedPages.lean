import Linux012.Mm.PageCalls
import Linux012.Mm.CopyPageTables

/-!
# Pages that tasks share

`try_to_share` and `do_no_page` keep the books.  A page has at most one entry in each task, so
that `mem_map` cannot overflow.
-/

namespace Linux012.Mm

namespace Kernel

variable {kernel before after : Kernel} {nr : UInt32} {dirEntry pageEntry : Nat}
variable {reserved : UInt32 → Nat} {held : Multiset UInt32} {available : Nat → Prop}

/-! ## The number of references -/

/-- Each task has a page once. -/
theorem Books.memMap_le (books : kernel.Books reserved held available)
    (maps : kernel.Maps nr dirEntry pageEntry) : (kernel.memMap nr).toNat ≤ 64 := by
  obtain ⟨none, noTable, -, -⟩ := books.of_maps maps
  have exactly := books.exact' nr
  rw [none, noTable, Finset.card_empty] at exactly
  have inTasks : kernel.mappers nr ⊆
      (Finset.range 64).image fun task => (16 * task + dirEntry % 16, pageEntry) := by
    rintro ⟨other, otherEntry⟩ member
    have isOther := mem_mappers.mp member
    obtain ⟨sameDir, rfl⟩ := books.offsets nr _ _ _ _ isOther maps
    have inDir := isOther.isUser.2
    refine Finset.mem_image.mpr ⟨other / 16, Finset.mem_range.mpr (by omega), ?_⟩
    rw [← sameDir, Nat.div_add_mod]
  have atMost := (Finset.card_le_card inTasks).trans Finset.card_image_le
  rw [Finset.card_range] at atMost
  omega

/-- An entry that may be written is the only one of its page. -/
theorem Books.only_of_writes (books : kernel.Books reserved held available)
    (maps : kernel.Maps nr dirEntry pageEntry)
    (writes : pageRw &&& kernel.word dirEntry pageEntry ≠ 0) {other otherEntry : Nat}
    (isOther : kernel.Maps nr other otherEntry) :
    (other, otherEntry) = (dirEntry, pageEntry) := by
  by_contra differs
  have two := books.sound.two_le maps isOther differs
  have one := (books.sound.writable dirEntry pageEntry maps.toUserEntry maps.mapped writes).2
  rw [maps.isNr] at one
  rw [one] at two
  exact absurd two (by decide)

/-! ## Entries that are write-protected -/

theorem present_writeProtected (word : UInt32) :
    pagePresent &&& writeProtected word = pagePresent &&& word := by
  have bit : ~~~pageRw &&& pagePresent = pagePresent := by decide
  rw [writeProtected, UInt32.and_comm, UInt32.and_assoc, bit, UInt32.and_comm]

theorem frame_writeProtected (word : UInt32) :
    writeProtected word &&& frameMask = word &&& frameMask := by
  have mask : ~~~pageRw &&& frameMask = frameMask := by decide
  rw [writeProtected, UInt32.and_assoc, mask]

theorem not_writes_writeProtected (word : UInt32) : pageRw &&& writeProtected word = 0 := by
  have none : ~~~pageRw &&& pageRw = 0 := by decide
  rw [writeProtected, UInt32.and_comm, UInt32.and_assoc, none, UInt32.and_zero]

theorem lowMem_le_writeProtected {word : UInt32} :
    lowMem ≤ writeProtected word ↔ lowMem ≤ word := by
  rw [← lowMem_le_frame, frame_writeProtected, lowMem_le_frame]

theorem pageNr_writeProtected (word : UInt32) : pageNr (writeProtected word) = pageNr word := by
  rw [pageNr, pageNr, present_writeProtected, mapNr_writeProtected]
  simp only [lowMem_le_writeProtected]

/-- An entry that has its page loses the right to be written. -/
theorem Books.protect (books : kernel.Books reserved held available)
    (isEntry : kernel.UserEntry dirEntry pageEntry)
    (present : pagePresent &&& kernel.word dirEntry pageEntry ≠ 0) :
    (kernel.store (kernel.entry dirEntry pageEntry)
      (writeProtected (kernel.word dirEntry pageEntry))).Books reserved held available := by
  obtain ⟨changes, isNew⟩ := Pager.changes_of_store books.sound isEntry
    (writeProtected (kernel.word dirEntry pageEntry))
  have sameNr := pageNr_writeProtected (kernel.word dirEntry pageEntry)
  refine books.change changes isEntry le_rfl (fun nr => ?_) (fun nr isNr wasNot => ?_)
    (fun _ writes => ?_) rfl (books.slots.change changes ?_ rfl)
  · rw [isNew, sameNr]
    rfl
  · rw [isNew, sameNr] at isNr
    exact absurd isNr wasNot
  · rw [isNew, not_writes_writeProtected] at writes
    exact absurd rfl writes
  · rw [isNew, slotNr_of_present present,
      slotNr_of_present (by rwa [present_writeProtected])]

/-- An empty entry gets a page below the memory that is counted, which it may not write. -/
theorem Books.putLow {value : UInt32} (books : kernel.Books reserved held available)
    (isEntry : kernel.UserEntry dirEntry pageEntry) (isZero : kernel.word dirEntry pageEntry = 0)
    (present : pagePresent &&& value ≠ 0) (isLow : value < lowMem)
    (protected' : pageRw &&& value = 0) :
    (kernel.store (kernel.entry dirEntry pageEntry) value).Books reserved held available := by
  obtain ⟨changes, isNew⟩ := Pager.changes_of_store books.sound isEntry value
  have noPage : pageNr value = none := if_neg fun both => UInt32.not_le.mpr isLow both.2
  refine books.change changes isEntry le_rfl (fun nr => ?_) (fun nr isNr => ?_)
    (fun _ writes => ?_) rfl (books.slots.change changes ?_ rfl)
  · rw [isNew, isZero, noPage, pageNr_zero]
    rfl
  · rw [isNew, noPage] at isNr
    cases isNr
  · rw [isNew, protected'] at writes
    exact absurd rfl writes
  · rw [isNew, isZero, slotNr_zero, slotNr_of_present present]

/-- `mem_map[...]++`. -/
def count (kernel : Kernel) (nr : UInt32) : Kernel :=
  { kernel with memMap := Function.update kernel.memMap nr (kernel.memMap nr + 1) }

/-- An empty entry gets the page of an entry of another task, at the same offset.  Neither may
write it. -/
theorem Books.addSharer {otherDir : Nat}
    (books : kernel.Books reserved held available)
    (isEntry : kernel.UserEntry dirEntry pageEntry) (isZero : kernel.word dirEntry pageEntry = 0)
    (maps : kernel.Maps nr otherDir pageEntry) (sameOffset : otherDir % 16 = dirEntry % 16)
    (protected' : pageRw &&& kernel.word otherDir pageEntry = 0) :
    ((kernel.store (kernel.entry dirEntry pageEntry) (kernel.word otherDir pageEntry)).count
      nr).Books reserved held available := by
  obtain ⟨changes, isNew⟩ :=
    Pager.changes_of_store books.sound isEntry (kernel.word otherDir pageEntry)
  let after := (kernel.store (kernel.entry dirEntry pageEntry)
    (kernel.word otherDir pageEntry)).count nr
  have changes : Changes kernel after dirEntry pageEntry := ⟨changes.dirs, changes.words⟩
  have isNew : after.word dirEntry pageEntry = kernel.word otherDir pageEntry := isNew
  have isNr := (maps_iff.mp maps).2
  obtain ⟨none, noTable, -, -⟩ := books.of_maps maps
  have small := books.memMap_le maps
  have counted : (after.memMap nr).toNat = (kernel.memMap nr).toNat + 1 := by
    have one : after.memMap nr = kernel.memMap nr + 1 := Function.update_self _ _ _
    rw [one, UInt8.toNat_add, UInt8.toNat_one]
    omega
  refine books.change changes isEntry le_rfl (fun other => ?_) (fun other isOther _ => ?_)
    (fun _ writes => ?_) rfl (books.slots.change changes ?_ rfl)
  · rw [isNew, isZero, pageNr_zero, isNr, Lib.refOf_none]
    by_cases same : other = nr
    · subst same
      rw [counted, Lib.refOf_self]
    · have kept : after.memMap other = kernel.memMap other := Function.update_of_ne same _ _
      rw [kept, Lib.refOf_of_ne (Ne.symm same)]
  · rw [isNew, isNr, Option.some.injEq] at isOther
    subst isOther
    refine ⟨none, noTable, fun last lastEntry isLast => ?_⟩
    obtain ⟨sameDir, sameEntry⟩ := books.offsets nr _ _ _ _ isLast maps
    refine ⟨sameDir.trans sameOffset, sameEntry, ?_⟩
    by_contra writes
    cases books.only_of_writes isLast writes maps
    exact writes protected'
  · rw [isNew, protected'] at writes
    exact absurd rfl writes
  · rw [isNew, isZero, slotNr_zero, slotNr_of_present maps.mapped]

end Kernel

/-- The tasks are in their places, and `current` is not the first one. -/
structure Tasks.Placed (tasks : Tasks) : Prop where
  currentNr : 0 < tasks.currentNr ∧ tasks.currentNr < 64
  current : tasks.current.startCode = Pager.baseOf tasks.currentNr
  others : ∀ nr < 64, ∀ p, tasks.task nr = some p → p.startCode = Pager.baseOf nr

namespace Pager

open Kernel

variable {pager after : Pager} {reserved : UInt32 → Nat} {held : Multiset UInt32}
variable {available : Nat → Prop}

/-! ## `try_to_share` -/

theorem dirOf_baseOf {task : Nat} (isTask : task < 64) : dirOf (baseOf task) = 16 * task := by
  rw [dirOf, baseOf, UInt32.toNat_ofNat']
  omega

/-- The directory entry of an address in a task, by its address in the task. -/
theorem dirPtr_add {task : Nat} (isTask : task < 64) (tmp : UInt32) :
    ((tmp >>> 20) &&& (0xffc : UInt32)) + ((baseOf task >>> 20) &&& (0xffc : UInt32)) =
      4 * UInt32.ofNat (16 * task + dirOf tmp) := by
  rw [dirPtr_eq, dirPtr_eq, dirOf_baseOf isTask, ← UInt32.mul_add, ← UInt32.ofNat_add,
    Nat.add_comm]

/-- `try_to_share` returns with the books kept. -/
def Shares (reserved : UInt32 → Nat) (held : Multiset UInt32) (available : Nat → Prop) :
    Except Stop (Option Pager) → Prop
  | .error stop => stop = .oom
  | .ok none => True
  | .ok (some after) => after.Books reserved held available

/-- When a page table is taken for the entry, the entry that is to be shared keeps its page. -/
def KeepsSource (pager : Pager) (fromDir toDir pageEntry : Nat) : Prop :=
  pager.kernel.word fromDir pageEntry &&& 0x41 = 1 → ¬pager.kernel.DirPresent toDir →
    ∀ table next, pager.getFreePage = .ok (some table, next) →
      next.kernel.word fromDir pageEntry = pager.kernel.word fromDir pageEntry

/-- There is a page table for an empty entry, and the entry that is to be shared is as it was. -/
theorem books_tableAt {fromDir toDir pageEntry : Nat} (books : pager.Books reserved held available)
    (isUser : firstDir ≤ toDir ∧ toDir < 1024) (inTable : pageEntry < 1024)
    (vacant : pager.kernel.DirPresent toDir → pager.kernel.word toDir pageEntry = 0)
    (differs : fromDir ≠ toDir) (isFrom : pager.kernel.UserEntry fromDir pageEntry)
    (keeps : ¬pager.kernel.DirPresent toDir →
      ∀ table next, pager.getFreePage = .ok (some table, next) →
        next.kernel.word fromDir pageEntry = pager.kernel.word fromDir pageEntry) :
    match pager.tableAt (4 * UInt32.ofNat toDir) with
    | .error stop => stop = .oom
    | .ok (table, next) => next.Books reserved held available ∧
        next.kernel.UserEntry toDir pageEntry ∧ next.kernel.word toDir pageEntry = 0 ∧
        next.kernel.pgDir toDir &&& frameMask = table &&& frameMask ∧
        next.kernel.UserEntry fromDir pageEntry ∧
        next.kernel.word fromDir pageEntry = pager.kernel.word fromDir pageEntry ∧
        next.kernel.entry fromDir pageEntry = pager.kernel.entry fromDir pageEntry := by
  have gets := gets_getFreePage books
  rw [tableAt]
  by_cases present : pager.kernel.DirPresent toDir
  · have isDir : pager.kernel.memory (4 * UInt32.ofNat toDir) &&& 1 ≠ 0 := present
    rw [if_pos isDir]
    exact ⟨books, ⟨isUser, present, inTable⟩, vacant present, rfl, isFrom, rfl, rfl⟩
  · have isDir : ¬pager.kernel.memory (4 * UInt32.ofNat toDir) &&& 1 ≠ 0 := present
    rw [if_neg isDir]
    rcases isFound : pager.getFreePage with stop | ⟨table, next⟩
    · rw [isFound] at gets
      exact gets.elim
    rw [isFound] at gets
    cases table with
    | none => rfl
    | some table =>
      obtain ⟨books', evicts, cleared⟩ := gets
      have absent := (evicts.dirPresent isUser.2).not.mpr present
      have aligned := (books'.kernel.pages table (Multiset.mem_cons_self _ _)).1
      obtain ⟨hasTable, changes, isTable, isPresent, isZero⟩ :=
        books'.kernel.addTable isUser absent cleared
      have isFrom' := evicts.userEntry.mpr isFrom
      refine ⟨⟨hasTable, books'.cursors⟩, ⟨isUser, isPresent, inTable⟩, isZero _ inTable, ?_,
        (changes.userEntry differs).mpr isFrom', ?_, ?_⟩
      · rw [isTable, frame_or_seven aligned, aligned]
      · rw [changes.words fromDir isFrom.isUser.2 differs isFrom'.present pageEntry inTable]
        exact keeps present table next isFound
      · rw [← evicts.entry isFrom.isUser.2, entry, entry, changes.dirs _ isFrom.isUser.2 differs]

/-- A page that is clean is in memory. -/
theorem present_of_clean {word : UInt32} (clean : word &&& 0x41 = 1) :
    pagePresent &&& word ≠ 0 := by
  intro absent
  have bits : (0x41 : UInt32) &&& 1 = 1 := by decide
  have one : word &&& 1 = 1 := by
    rw [← bits, ← UInt32.and_assoc, clean, bits]
    decide
  rw [UInt32.and_comm] at absent
  rw [absent] at one
  exact absurd one (by decide)

/-- `try_to_share` keeps the books when the entry that it shares is still there. -/
theorem shares_tryToShare {current p : TaskStruct} {currentNr task : Nat} {tmp : UInt32}
    (books : pager.Books reserved held available) (inTask : dirOf tmp < 16)
    (isTask : 0 < task ∧ task < 64) (isStart : p.startCode = baseOf task)
    (isCurrent : 0 < currentNr ∧ currentNr < 64) (isBase : current.startCode = baseOf currentNr)
    (differs : task ≠ currentNr)
    (vacant : pager.kernel.DirPresent (16 * currentNr + dirOf tmp) →
      pager.kernel.word (16 * currentNr + dirOf tmp) (entryOf tmp) = 0)
    (keeps : pager.KeepsSource (16 * task + dirOf tmp) (16 * currentNr + dirOf tmp)
      (entryOf tmp)) :
    Shares reserved held available (pager.tryToShare current p tmp) := by
  have inTable := entryOf_lt tmp
  have first : firstDir = 16 := rfl
  have fromDir : firstDir ≤ 16 * task + dirOf tmp ∧ 16 * task + dirOf tmp < 1024 := by omega
  have toDir : firstDir ≤ 16 * currentNr + dirOf tmp ∧ 16 * currentNr + dirOf tmp < 1024 := by
    omega
  have notSame : 16 * task + dirOf tmp ≠ 16 * currentNr + dirOf tmp := by omega
  have sameOffset : (16 * task + dirOf tmp) % 16 = (16 * currentNr + dirOf tmp) % 16 := by omega
  rw [tryToShare, isStart, isBase, dirPtr_add isTask.2, dirPtr_add isCurrent.2, entryOffset_eq]
  dsimp only
  generalize 16 * task + dirOf tmp = fromNr at fromDir notSame sameOffset keeps ⊢
  generalize 16 * currentNr + dirOf tmp = toNr at toDir notSame sameOffset vacant keeps ⊢
  generalize entryOf tmp = pageEntry at inTable vacant keeps ⊢
  by_cases absent : pager.kernel.memory (4 * UInt32.ofNat fromNr) &&& 1 = 0
  · rw [if_pos absent]
    trivial
  rw [if_neg absent]
  have isFrom : pager.kernel.UserEntry fromNr pageEntry := ⟨fromDir, absent, inTable⟩
  have isWord : pager.kernel.memory ((pager.kernel.memory (4 * UInt32.ofNat fromNr) &&& frameMask) +
      4 * UInt32.ofNat pageEntry) = pager.kernel.word fromNr pageEntry := rfl
  rw [isWord]
  by_cases notClean : pager.kernel.word fromNr pageEntry &&& 0x41 ≠ 1
  · rw [if_pos notClean]
    trivial
  rw [if_neg notClean]
  have keeps := keeps (Decidable.not_not.mp notClean)
  have mapped := present_of_clean (Decidable.not_not.mp notClean)
  by_cases outside : pager.kernel.word fromNr pageEntry &&& frameMask ≥ pager.kernel.highMemory ∨
      pager.kernel.word fromNr pageEntry &&& frameMask < lowMem
  · rw [if_pos outside]
    trivial
  rw [if_neg outside]
  have isPage := lowMem_le_frame.mp (UInt32.not_lt.mp fun isLow => outside (.inr isLow))
  have hasTable := books_tableAt books toDir inTable vacant notSame isFrom keeps
  rcases isTaken : pager.tableAt (4 * UInt32.ofNat toNr) with stop | ⟨table, next⟩
  · rw [isTaken] at hasTable
    exact hasTable
  rw [isTaken] at hasTable
  obtain ⟨books', isTo, isZero, isTable, isFrom', sameWord, sameEntry⟩ := hasTable
  dsimp only
  have isToPtr : (table &&& frameMask) + 4 * UInt32.ofNat pageEntry =
      next.kernel.entry toNr pageEntry := by
    rw [← isTable]
    rfl
  have isFromPtr : (pager.kernel.memory (4 * UInt32.ofNat fromNr) &&& frameMask) +
      4 * UInt32.ofNat pageEntry = next.kernel.entry fromNr pageEntry := sameEntry.symm
  have isToWord : next.kernel.memory (next.kernel.entry toNr pageEntry) = 0 := isZero
  have empty : ¬1 &&& (0 : UInt32) ≠ 0 := by decide
  rw [isToPtr, isFromPtr, isToWord, if_neg empty, mapNr_frame, ← sameWord]
  rw [← sameWord] at mapped isPage
  have guarded := books'.kernel.protect isFrom' mapped
  obtain ⟨changes, isNew⟩ := changes_of_store books'.kernel.sound isFrom'
    (writeProtected (next.kernel.word fromNr pageEntry))
  -- The entry is write-protected, and then shared.
  let guard := next.kernel.store (next.kernel.entry fromNr pageEntry)
    (writeProtected (next.kernel.word fromNr pageEntry))
  have isTo' : guard.UserEntry toNr pageEntry := changes.userEntry.mpr isTo
  have stillZero : guard.word toNr pageEntry = 0 :=
    (changes.words toNr toDir.2 isTo.present pageEntry inTable fun same =>
      notSame (Prod.mk.inj same).1.symm).trans isZero
  have maps : guard.Maps (mapNr (next.kernel.word fromNr pageEntry)) fromNr pageEntry :=
    maps_iff.mpr ⟨changes.userEntry.mpr isFrom', (congrArg pageNr isNew).trans
      ((pageNr_writeProtected _).trans (pageNr_of_mapped mapped isPage))⟩
  have notWrites : pageRw &&& guard.word fromNr pageEntry = 0 :=
    (congrArg (pageRw &&& ·) isNew).trans (not_writes_writeProtected _)
  have shared := guarded.addSharer isTo' stillZero maps sameOffset notWrites
  have toPtr : guard.entry toNr pageEntry = next.kernel.entry toNr pageEntry :=
    changes.entry toDir.2 pageEntry
  have fromWord : guard.memory (next.kernel.entry fromNr pageEntry) = guard.word fromNr pageEntry :=
    congrArg guard.memory (changes.entry fromDir.2 pageEntry).symm
  change (guard.store (guard.entry toNr pageEntry) (guard.word fromNr pageEntry)).count _ |>.Books
    reserved held available at shared
  rw [toPtr, ← fromWord] at shared
  exact ⟨shared, books'.cursors⟩

/-! ## `do_no_page` -/

/-- When `do_no_page` takes a page table, no page that it is about to share is swapped out. -/
def KeepsSources (pager : Pager) (tasks : Tasks) (address : UInt32) : Prop :=
  ∀ task < 64, task ≠ tasks.currentNr → (tasks.task task).isSome →
    pager.KeepsSource (16 * task + dirOf address % 16) (dirOf address) (entryOf address)

variable {tasks : Tasks} {address : UInt32} {inode : Nat}

theorem baseOf_toNat {task : Nat} (isTask : task < 64) :
    (baseOf task).toNat = 0x4000000 * task := by
  rw [baseOf, UInt32.toNat_ofNat']
  omega

/-- The address in the task of a page that is in it. -/
theorem tmp_toNat (placed : tasks.Placed) (inTask : dirOf address / 16 = tasks.currentNr) :
    (tasks.tmp address).toNat = address.toNat / 4096 * 4096 - 0x4000000 * tasks.currentNr ∧
      0x4000000 * tasks.currentNr ≤ address.toNat / 4096 * 4096 ∧
      (tasks.tmp address).toNat < 0x4000000 := by
  have small := address.toNat_lt
  rw [dirOf] at inTask
  have atLeast : 0x4000000 * tasks.currentNr ≤ address.toNat / 4096 * 4096 := by omega
  have isTmp : (tasks.tmp address).toNat =
      address.toNat / 4096 * 4096 - 0x4000000 * tasks.currentNr := by
    rw [Tasks.tmp, placed.current, UInt32.toNat_sub, frame_toNat, baseOf_toNat placed.currentNr.2]
    omega
  exact ⟨isTmp, atLeast, by omega⟩

theorem dirOf_tmp (placed : tasks.Placed) (inTask : dirOf address / 16 = tasks.currentNr) :
    dirOf (tasks.tmp address) = dirOf address % 16 ∧
      entryOf (tasks.tmp address) = entryOf address := by
  obtain ⟨isTmp, atLeast, -⟩ := tmp_toNat placed inTask
  rw [dirOf] at inTask ⊢
  rw [entryOf, entryOf, dirOf, isTmp]
  omega

/-- The loop of `share_page` keeps the books. -/
theorem shares_shareFrom (books : pager.Books reserved held available) (placed : tasks.Placed)
    (inTask : dirOf address / 16 = tasks.currentNr) (vacant : Vacant pager.kernel address)
    (keeps : pager.KeepsSources tasks address) {nr : Nat} (isTask : nr < 64) :
    Shares reserved held available (pager.shareFrom tasks inode (tasks.tmp address) nr) := by
  obtain ⟨sameDir, sameEntry⟩ := dirOf_tmp placed inTask
  have isDir : 16 * tasks.currentNr + dirOf (tasks.tmp address) = dirOf address := by
    rw [sameDir]
    omega
  induction nr with
  | zero => trivial
  | succ nr ih =>
      have ih := ih (Nat.lt_of_succ_lt isTask)
      rw [shareFrom]
      cases isP : tasks.task (nr + 1) with
      | none => exact ih
      | some p =>
        dsimp only
        by_cases isCurrent : tasks.currentNr = nr + 1
        · rw [if_pos isCurrent]
          exact ih
        rw [if_neg isCurrent]
        by_cases isOther :
            (if tasks.tmp address < libraryOffset then p.executable else p.library) ≠ some inode
        · rw [if_pos isOther]
          exact ih
        rw [if_neg isOther]
        have shares : Shares reserved held available
            (pager.tryToShare tasks.current p (tasks.tmp address)) :=
          shares_tryToShare books (sameDir ▸ Nat.mod_lt _ (by decide)) ⟨Nat.succ_pos nr, isTask⟩
            (placed.others _ isTask p isP) placed.currentNr placed.current (Ne.symm isCurrent)
            (by rw [isDir, sameEntry]; exact vacant)
            (by
              rw [isDir, sameDir, sameEntry]
              exact keeps (nr + 1) isTask (Ne.symm isCurrent) (isP ▸ rfl))
        rcases isShared : pager.tryToShare tasks.current p (tasks.tmp address) with stop | shared
        · rw [isShared] at shares
          exact shares
        rw [isShared] at shares
        cases shared with
        | none => exact ih
        | some last => exact shares

theorem breadPage_others (kernel : Kernel) (device : Zones.Device) (page : UInt32) (nr : List Nat) :
    (kernel.breadPage device page nr).highMemory = kernel.highMemory ∧
      (kernel.breadPage device page nr).swapBitmap = kernel.swapBitmap := by
  induction nr generalizing kernel page with
  | nil => exact ⟨rfl, rfl⟩
  | cons b rest ih =>
      rw [breadPage]
      obtain ⟨sameHigh, sameBitmap⟩ :=
        ih (if b = 0 then kernel else kernel.copyBlk (device.data b) page) (page + 1024)
      rw [sameHigh, sameBitmap]
      split <;> exact ⟨rfl, rfl⟩

theorem clearTail_others (kernel : Kernel) (tmp : UInt32) (count : Nat) :
    (kernel.clearTail tmp count).highMemory = kernel.highMemory ∧
      (kernel.clearTail tmp count).swapBitmap = kernel.swapBitmap := by
  induction count generalizing kernel tmp with
  | zero => exact ⟨rfl, rfl⟩
  | succ count ih =>
      rw [clearTail]
      exact ih (kernel.storeByte (tmp - 1) 0) (tmp - 1)

theorem clamp_le (i : Int) : (if i > 4095 then 0 else i).toNat ≤ 4096 := by
  split <;> omega

theorem tailCount_le (tmp endData : UInt32) : (tailCount tmp endData).toNat ≤ 4096 := by
  unfold tailCount
  exact clamp_le (Int.bmod _ _)

/-- How `do_no_page` and its parts end. -/
def EndsWith {α : Type} (reserved : UInt32 → Nat) (held : Multiset UInt32)
    (available : Nat → Prop) : Except Stop (α × Pager) → Prop
  | .error stop => stop = .oom
  | .ok (_, after) => after.Books reserved held available

theorem Ends.map {α : Type} {result : Except Stop Pager}
    (ends : Ends reserved held available result) (value : α) : EndsWith reserved held available (result.map fun pager => (value, pager)) := by
  cases result with
  | error stop => exact ends
  | ok after => exact ends

/-- A page of the program is loaded. -/
theorem ends_loadPage (books : pager.Books reserved held available) (placed : tasks.Placed)
    (inTask : dirOf address / 16 = tasks.currentNr) (vacant : Vacant pager.kernel address)
    {block : Nat} (small : block + 4 ≤ Zones.maxBlocks) :
    EndsWith reserved held available
      (pager.loadPage tasks inode block (tasks.tmp address) (address &&& frameMask)) := by
  have first : firstDir = 16 := rfl
  have isUser : firstDir ≤ dirOf (address &&& frameMask) := by
    rw [dirOf_frame]
    have positive := placed.currentNr.1
    omega
  have vacant : Vacant pager.kernel (address &&& frameMask) := by
    rw [Vacant, dirOf_frame, entryOf_frame]
    exact vacant
  have gets := gets_getFreePage books
  have isNr : bmaps (tasks.device (tasks.iDev inode)) inode block 4 = _ := bmaps_eq small
  rw [loadPage]
  rcases isFound : pager.getFreePage with stop | ⟨page, next⟩
  · rw [isFound] at gets
    exact gets.elim
  rw [isFound] at gets
  cases page with
  | none => rfl
  | some page =>
    obtain ⟨books', evicts, -⟩ := gets
    have isHeld : page ∈ page ::ₘ held := Multiset.mem_cons_self page held
    have aligned := (books'.kernel.pages page isHeld).1
    dsimp only
    rw [isNr]
    dsimp only
    have atMost := tailCount_le (tasks.tmp address) tasks.current.endData
    generalize (tailCount (tasks.tmp address) tasks.current.endData).toNat = count at atMost ⊢
    have fills := fills_loaded next.kernel (tasks.device (tasks.iDev inode)) aligned
      (length_bmaps isNr) atMost
    generalize (List.range 4).map (fun i => (tasks.device (tasks.iDev inode)).zoneAt inode
      (block + i)) = nr at fills ⊢
    obtain ⟨sameHigh, sameBitmap⟩ := clearTail_others
      (next.kernel.breadPage (tasks.device (tasks.iDev inode)) page nr) (page + 4096) count
    obtain ⟨readHigh, readBitmap⟩ :=
      breadPage_others next.kernel (tasks.device (tasks.iDev inode)) page nr
    obtain ⟨filled, quiet⟩ := books'.kernel.fills isHeld fills (sameHigh.trans readHigh)
      (sameBitmap.trans readBitmap)
    have filled : Books ⟨_, next.cursors⟩ reserved (page ::ₘ held) available :=
      ⟨filled, books'.cursors⟩
    exact (books_putOrGiveUp filled isUser
      (vacant.of_evicts isUser (evicts.trans quiet))).map (NoPage.loaded page)

/-- `do_no_page` keeps the books, for a page of the task that is not in memory. -/
theorem ends_doNoPage (books : pager.Books reserved held available) (placed : tasks.Placed)
    (inTask : dirOf address / 16 = tasks.currentNr)
    (fault : pager.kernel.DirPresent (dirOf address) →
      pagePresent &&& pager.kernel.word (dirOf address) (entryOf address) = 0)
    (keeps : pager.KeepsSources tasks address) :
    EndsWith reserved held available (pager.doNoPage tasks address) := by
  have first : firstDir = 16 := rfl
  have positive := placed.currentNr.1
  have inDir := dirOf_lt address
  have isUser : firstDir ≤ dirOf address := by omega
  rw [doNoPage]
  split
  next => exact books
  next =>
    rw [dirPtr_eq, entryOffset_eq]
    dsimp only
    have isWord : pager.kernel.memory ((pager.kernel.memory (4 * UInt32.ofNat (dirOf address)) &&&
        frameMask) + 4 * UInt32.ofNat (entryOf address)) =
          pager.kernel.word (dirOf address) (entryOf address) := rfl
    rw [isWord]
    split
    next swapped =>
      exact (books_swapIn books ⟨⟨isUser, inDir⟩, swapped.1, entryOf_lt address⟩).map
        NoPage.swappedIn
    next notSwapped =>
      have vacant : Vacant pager.kernel address := fun present => by
        by_contra notZero
        exact notSwapped ⟨present, notZero, fault present⟩
      have vacant' : Vacant pager.kernel (address &&& frameMask) := by
        rw [Vacant, dirOf_frame, entryOf_frame]
        exact vacant
      obtain ⟨-, -, below⟩ := tmp_toNat placed inTask
      rw [newPage]
      have isTmp : (address &&& frameMask) - tasks.current.startCode = tasks.tmp address := rfl
      rw [isTmp]
      cases isSource : tasks.current.source (tasks.tmp address) with
      | none =>
        exact (books_getEmptyPage books (by rwa [dirOf_frame]) vacant').map NoPage.empty
      | some source =>
        obtain ⟨inode, block⟩ := source
        dsimp only
        have small : block + 4 ≤ Zones.maxBlocks := by
          have isMax : Zones.maxBlocks = 262663 := rfl
          rw [TaskStruct.source] at isSource
          split at isSource
          next inLibrary =>
            obtain ⟨_, -, same⟩ := Option.map_eq_some_iff.mp isSource
            have isBlock := (Prod.mk.inj same).2
            rw [UInt32.toNat_sub_of_le _ _ inLibrary] at isBlock
            omega
          next =>
            split at isSource
            next =>
              obtain ⟨_, -, same⟩ := Option.map_eq_some_iff.mp isSource
              have isBlock := (Prod.mk.inj same).2
              omega
            next => cases isSource
        have shares : Shares reserved held available
            (pager.sharePage tasks inode (tasks.tmp address)) := by
          rw [sharePage]
          split
          next => trivial
          next => exact shares_shareFrom books placed inTask vacant keeps (by decide)
        rcases isShared : pager.sharePage tasks inode (tasks.tmp address) with stop | shared
        · rw [isShared] at shares
          exact shares
        rw [isShared] at shares
        cases shared with
        | none => exact ends_loadPage books placed inTask vacant small
        | some last => exact shares

end Pager

end Linux012.Mm
