import Linux012.Lib.Run
import Linux012.Mm.ForkTables

/-!
# Runs of the memory manager

The calls of all tasks, one after the other, with what the processor does in the entries and pages
in between.  In every run the books stay right, so that `mem_map` is exact, a page of the swap
device has one owner, and `free_page` does not panic.
-/

namespace Linux012.Mm

/-- The memory, and the pages that the kernel keeps for itself. -/
structure Memory where
  pager : Pager
  held : Multiset UInt32

/-- A call of the memory manager, or an access of the processor.  A call that ends in `oom` stands
in a run as the calls of `get_free_page` and `free_page` that it has made. -/
inductive Call where
  | getFreePage
  | freePage (page : UInt32)
  | putDirtyPage (page address : UInt32)
  | doNoPage (tasks : Tasks) (address : UInt32)
  | doWpPage (startCode address : UInt32)
  | writeVerify (address : UInt32)
  /-- `copy_mem` of a task for a new one. -/
  | copyMem (task nr : Nat)
  | freePageTables (fromAddr size : UInt32)
  /-- The long at an address is read. -/
  | read (address : UInt32)
  /-- The long at an address is written. -/
  | write (address value : UInt32)

/-! ## Accesses of the processor -/

abbrev pageAccessed : UInt32 := 0x20

namespace Kernel

open Pager

/-- The physical address of a long. -/
def physical (kernel : Kernel) (address : UInt32) : UInt32 :=
  (kernel.word (dirOf address) (entryOf address) &&& frameMask) + (address &&& 0xffc)

/-- The processor sets bits of the entry of an address. -/
def mark (kernel : Kernel) (address bits : UInt32) : Kernel :=
  kernel.store (kernel.entry (dirOf address) (entryOf address))
    (kernel.word (dirOf address) (entryOf address) ||| bits)

/-- The processor writes a long. -/
def write (kernel : Kernel) (address value : UInt32) : Kernel :=
  (kernel.store (kernel.physical address) value).mark address (pageAccessed ||| pageDirty)

variable {kernel : Kernel} {dirEntry pageEntry : Nat} {nr word bits address : UInt32}
variable {reserved : UInt32 → Nat} {held : Multiset UInt32} {available : Nat → Prop}

theorem frame_or_mark (noFrame : bits &&& frameMask = 0) :
    (word ||| bits) &&& frameMask = word &&& frameMask := by
  rw [UInt32.and_comm, and_or_distrib, UInt32.and_comm frameMask bits, noFrame, UInt32.or_zero,
    UInt32.and_comm]

theorem pageNr_or_mark (noFrame : bits &&& frameMask = 0) (notPresent : pagePresent &&& bits = 0) :
    pageNr (word ||| bits) = pageNr word := by
  have isFrame : (word ||| bits) &&& frameMask = word &&& frameMask := frame_or_mark noFrame
  have isPage : lowMem ≤ word ||| bits ↔ lowMem ≤ word := by
    rw [← lowMem_le_frame, isFrame, lowMem_le_frame]
  rw [pageNr, pageNr, ← mapNr_frame (word ||| bits), isFrame, mapNr_frame, and_or_distrib,
    notPresent, UInt32.or_zero]
  simp only [isPage]

/-- The marks of the processor are not in the books. -/
theorem Books.marks (books : kernel.Books reserved held available)
    (isEntry : kernel.UserEntry (dirOf address) (entryOf address))
    (mapped : pagePresent &&& kernel.word (dirOf address) (entryOf address) ≠ 0)
    (noFrame : bits &&& frameMask = 0) (noRights : 3 &&& bits = 0) :
    (kernel.mark address bits).Books reserved held available := by
  have notPresent : pagePresent &&& bits = 0 := by
    have bit : (1 : UInt32) = 1 &&& 3 := by decide
    rw [pagePresent, bit, UInt32.and_assoc, noRights]
    rfl
  have notRw : pageRw &&& bits = 0 := by
    have bit : (2 : UInt32) = 2 &&& 3 := by decide
    rw [pageRw, bit, UInt32.and_assoc, noRights]
    rfl
  obtain ⟨changes, isNew⟩ := changes_of_store books.sound isEntry
    (kernel.word (dirOf address) (entryOf address) ||| bits)
  change Changes kernel (kernel.mark address bits) _ _ at changes
  change (kernel.mark address bits).word _ _ = _ at isNew
  have sameNr : pageNr (kernel.word (dirOf address) (entryOf address) ||| bits) =
      pageNr (kernel.word (dirOf address) (entryOf address)) := pageNr_or_mark noFrame notPresent
  have samePresent : pagePresent &&& (kernel.word (dirOf address) (entryOf address) ||| bits) =
      pagePresent &&& kernel.word (dirOf address) (entryOf address) := by
    rw [and_or_distrib, notPresent, UInt32.or_zero]
  refine books.change changes isEntry le_rfl (fun nr => ?_) (fun nr isNr wasNot => ?_)
    (fun _ writes => ?_) rfl (books.slots.change changes ?_ rfl)
  · rw [isNew, sameNr]
    rfl
  · rw [isNew, sameNr] at isNr
    exact absurd isNr wasNot
  · rw [isNew, and_or_distrib, notRw, UInt32.or_zero] at writes
    obtain ⟨isPage, one⟩ := books.sound.writable _ _ isEntry mapped writes
    rw [isNew, ← lowMem_le_frame, ← mapNr_frame, frame_or_mark noFrame, mapNr_frame,
      lowMem_le_frame]
    exact ⟨isPage, one⟩
  · rw [isNew, slotNr_of_present mapped, slotNr_of_present (by rwa [samePresent])]

/-- A page that is mapped is neither the page directory nor a page table. -/
theorem Books.changes_of_poke (books : kernel.Books reserved held available)
    (maps : kernel.Maps nr dirEntry pageEntry) {ptr value : UInt32}
    (inPage : ptr &&& frameMask = kernel.word dirEntry pageEntry &&& frameMask) :
    Changes kernel (kernel.store ptr value) 0 1024 := by
  have isPage := lowMem_le_frame.mpr maps.isPage
  have noTable := (books.of_maps maps).2.1
  have dirs (other : Nat) (inDir : other < 1024) :
      (kernel.store ptr value).pgDir other = kernel.pgDir other := by
    refine Function.update_of_ne (fun same => ?_) _ _
    rw [← inPage, ← same, dir_frame inDir] at isPage
    exact absurd isPage (by decide)
  refine ⟨dirs, fun other inDir present otherEntry inTable _ => ?_⟩
  have isPtr : (kernel.store ptr value).entry other otherEntry = kernel.entry other otherEntry :=
    congrArg (fun dir => entryPtr (dir &&& frameMask) otherEntry) (dirs other inDir)
  rw [Kernel.word, Kernel.word, isPtr]
  refine Function.update_of_ne (fun same => ?_) _ _
  have isTable :
      kernel.pgDir other &&& frameMask = kernel.word dirEntry pageEntry &&& frameMask := by
    rw [← inPage, ← same, entry_frame inTable]
  have member : other ∈ kernel.tablesAt nr := mem_tablesAt.mpr
    ⟨inDir, present, isTable ▸ isPage, by rw [← mapNr_frame, isTable, mapNr_frame, maps.isNr]⟩
  rw [noTable] at member
  cases member

theorem frame_add_offset (word address : UInt32) :
    ((word &&& frameMask) + (address &&& 0xffc)) &&& frameMask = word &&& frameMask := by
  have mask : UInt32.toNat 0xffc = (2 ^ 10 - 1) * 2 ^ 2 := by decide
  have small := word.toNat_lt
  apply UInt32.toNat_inj.mp
  rw [frame_toNat, UInt32.toNat_add, frame_toNat, UInt32.toNat_and, mask, and_mask]
  omega

/-- What the processor writes in a page is not in the books. -/
theorem Books.writes (books : kernel.Books reserved held available) (value : UInt32)
    (maps : kernel.Maps nr (dirOf address) (entryOf address)) :
    (kernel.write address value).Books reserved held available := by
  have changes : Changes kernel (kernel.store (kernel.physical address) value) 0 1024 :=
    books.changes_of_poke maps
      (frame_add_offset (kernel.word (dirOf address) (entryOf address)) address)
  have poked : (kernel.store (kernel.physical address) value).Books reserved held available :=
    books.quiet changes (fun _ => rfl) books.kept books.pages books.once rfl rfl
  have isEntry : (kernel.store (kernel.physical address) value).UserEntry (dirOf address)
      (entryOf address) := changes.userEntry.mpr maps.toUserEntry
  refine poked.marks isEntry ?_ (by decide) (by decide)
  have same : (kernel.store (kernel.physical address) value).word (dirOf address)
      (entryOf address) = kernel.word (dirOf address) (entryOf address) :=
    changes.words _ (dirOf_lt address) maps.present _ (entryOf_lt address) fun same =>
      absurd (Prod.mk.inj same).2 (entryOf_lt address).ne
  rw [same]
  exact maps.mapped

end Kernel

/-! ## The calls -/

open Kernel Pager

/-- The limit of the data segment of a task: `INIT_TASK` has 640 kB, and the other tasks have all
that is theirs. -/
def dataLimit (task : Nat) : UInt32 := if task = 0 then 0xa0000 else taskSize

namespace Memory

/-- A call, or an access. -/
def call (memory : Memory) : Call → Except Stop Memory
  | .getFreePage =>
      memory.pager.getFreePage.map fun (page, pager) =>
        match page with
        | none => { memory with pager }
        | some page => ⟨pager, page ::ₘ memory.held⟩
  | .freePage page =>
      match memory.pager.kernel.freePage page with
      | none => .error .panics
      | some kernel => .ok ⟨{ memory.pager with kernel }, memory.held.erase page⟩
  | .putDirtyPage page address =>
      (memory.pager.putDirtyPage page address).map fun (done, pager) =>
        if done then ⟨pager, memory.held.erase page⟩ else { memory with pager }
  | .doNoPage tasks address =>
      (memory.pager.doNoPage tasks address).map fun (_, pager) => { memory with pager }
  | .doWpPage startCode address =>
      (memory.pager.doWpPage startCode address).map fun pager =>
        { memory with pager := pager.getD memory.pager }
  | .writeVerify address =>
      (memory.pager.writeVerify address).map fun pager => { memory with pager }
  | .copyMem task nr =>
      (memory.pager.copyMem (baseOf task) (baseOf nr) (dataLimit task)).map fun (_, pager) =>
        { memory with pager }
  | .freePageTables fromAddr size =>
      match memory.pager.kernel.freePageTables fromAddr size with
      | none => .error .panics
      | some kernel => .ok { memory with pager := { memory.pager with kernel } }
  | .read address =>
      .ok { memory with pager := { memory.pager with
        kernel := memory.pager.kernel.mark address pageAccessed } }
  | .write address value =>
      .ok { memory with pager := { memory.pager with
        kernel := memory.pager.kernel.write address value } }

/-- A call that returns, for runs. -/
def step (memory : Memory) (call : Call) : Option Memory := (memory.call call).toOption

/-- The entry of an address has a page of the memory that is counted. -/
def Mapped (kernel : Kernel) (address : UInt32) : Prop :=
  ∃ nr, kernel.Maps nr (dirOf address) (entryOf address)

/-- What the callers see to. -/
def Fits (memory : Memory) : Call → Prop
  | .getFreePage => True
  | .freePage page => page ∈ memory.held
  | .putDirtyPage page address =>
      page ∈ memory.held ∧ firstDir ≤ dirOf address ∧ Vacant memory.pager.kernel address
  | .doNoPage tasks address =>
      tasks.Placed ∧ dirOf address / 16 = tasks.currentNr ∧
        (memory.pager.kernel.DirPresent (dirOf address) →
          pagePresent &&& memory.pager.kernel.word (dirOf address) (entryOf address) = 0)
  | .doWpPage _ address =>
      memory.pager.kernel.UserEntry (dirOf address) (entryOf address) ∧
        pagePresent &&& memory.pager.kernel.word (dirOf address) (entryOf address) ≠ 0
  | .writeVerify _ => True
  | .copyMem task nr =>
      task < 64 ∧ 0 < nr ∧ nr < 64 ∧ task ≠ nr ∧
        ∀ dirEntry, dirEntry / 16 = nr → ¬memory.pager.kernel.DirPresent dirEntry
  | .freePageTables fromAddr size =>
      fromAddr &&& 0x3fffff = 0 ∧ firstDir ≤ dirOf fromAddr ∧
        dirOf fromAddr + tableCount size ≤ 1024
  | .read address =>
      memory.pager.kernel.UserEntry (dirOf address) (entryOf address) ∧
        pagePresent &&& memory.pager.kernel.word (dirOf address) (entryOf address) ≠ 0
  | .write address _ => Mapped memory.pager.kernel address

/-- A page that a call is about to copy or to share is not swapped out when the call takes a page
for it. -/
def Keeps (memory : Memory) : Call → Prop
  | .doNoPage tasks address => memory.pager.KeepsSources tasks address
  | .doWpPage _ address => memory.pager.KeepsCopy (dirOf address) (entryOf address)
  | .writeVerify address => memory.pager.KeepsEntry address
  | _ => True

/-- The books are right. -/
def Books (memory : Memory) (reserved : UInt32 → Nat) (available : Nat → Prop) : Prop :=
  memory.pager.Books reserved memory.held available

variable {memory after : Memory} {reserved : UInt32 → Nat} {available : Nat → Prop}

/-- What a fork copies. -/
theorem range_of_fork (books : memory.Books reserved available) {task nr : Nat}
    (fits : memory.Fits (.copyMem task nr)) :
    Range memory.pager.kernel (copyTail (dataLimit task)) (dirOf (baseOf task)) (dirOf (baseOf nr))
      (tableCount (dataLimit task)) := by
  obtain ⟨isTask, positive, isNr, differs, absent⟩ := fits
  have first : firstDir = 16 := rfl
  rw [dirOf_baseOf isTask, dirOf_baseOf isNr]
  by_cases isFirst : task = 0
  · subst isFirst
    have tail : copyTail (dataLimit 0) = 160 := by decide
    have count : tableCount (dataLimit 0) = 1 := by decide
    rw [tail, count]
    refine ⟨by decide, by omega, by omega, by omega, by omega, by decide,
      fun dirEntry above below => absent dirEntry (by omega),
      fun dirEntry isKernel above below present pageEntry inTable => ?_⟩
    have isDir : dirEntry = 0 := by omega
    subst isDir
    exact books.kernel.lowSpace present pageEntry inTable
  · have limit : dataLimit task = taskSize := if_neg isFirst
    have tail : copyTail taskSize = 1024 := by decide
    have count : tableCount taskSize = 16 := by decide
    rw [limit, tail, count]
    exact ⟨by omega, by omega, by omega, by omega, by omega, le_rfl,
      fun dirEntry above below => absent dirEntry (by omega),
      fun dirEntry isKernel above _ _ _ _ => by omega⟩

theorem baseOf_aligned {task : Nat} (isTask : task < 64) : baseOf task &&& 0x3fffff = 0 := by
  have mask : UInt32.toNat 0x3fffff = 2 ^ 22 - 1 := by decide
  apply UInt32.toNat_inj.mp
  rw [UInt32.toNat_and, mask, Nat.and_two_pow_sub_one_eq_mod, baseOf_toNat isTask,
    UInt32.toNat_zero]
  omega

/-- How a call ends: with the books kept, or for want of memory. -/
def Ends (reserved : UInt32 → Nat) (available : Nat → Prop) : Except Stop Memory → Prop
  | .error stop => stop = .oom
  | .ok after => after.Books reserved available

/-- Every call keeps the books, and does not panic. -/
theorem ends_call (books : memory.Books reserved available) {call : Call}
    (fits : memory.Fits call) (keeps : memory.Keeps call) :
    Ends reserved available (memory.call call) := by
  cases call with
  | getFreePage =>
      have gets := gets_getFreePage books
      rw [Memory.call]
      generalize memory.pager.getFreePage = result at gets ⊢
      rcases result with stop | ⟨page, next⟩
      · exact gets.elim
      cases page with
      | none => exact gets.1
      | some page => exact gets.1
  | freePage page =>
      have isHeld : page ::ₘ memory.held.erase page = memory.held := Multiset.cons_erase fits
      have isBooks : memory.pager.kernel.Books reserved (page ::ₘ memory.held.erase page)
        available := isHeld.symm ▸ books.kernel
      obtain ⟨freed, isFreed, freedBooks⟩ := isBooks.frees
      rw [Memory.call, isFreed]
      exact ⟨freedBooks, books.cursors⟩
  | putDirtyPage page address =>
      obtain ⟨isMember, isUser, vacant⟩ := fits
      have isHeld : page ::ₘ memory.held.erase page = memory.held := Multiset.cons_erase isMember
      have isBooks : memory.pager.Books reserved (page ::ₘ memory.held.erase page) available :=
        isHeld.symm ▸ books
      have aligned := (books.kernel.pages page isMember).1
      have puts := puts_putEntry isBooks isUser vacant (entry_or_dirty aligned)
      rw [Memory.call, putDirtyPage]
      generalize memory.pager.putEntry address (page ||| (pageDirty ||| 7)) = result at puts ⊢
      rcases result with stop | ⟨done, next⟩
      · exact puts.elim
      cases done with
      | true => exact puts
      | false =>
        change next.Books reserved memory.held available
        rw [← isHeld]
        exact puts
  | doNoPage tasks address =>
      obtain ⟨placed, inTask, fault⟩ := fits
      have ends := ends_doNoPage books placed inTask fault keeps
      rw [Memory.call]
      generalize memory.pager.doNoPage tasks address = result at ends ⊢
      rcases result with stop | ⟨kind, next⟩
      · exact ends
      · exact ends
  | doWpPage startCode address =>
      obtain ⟨isEntry, mapped⟩ := fits
      have ends := books_doWpPage books startCode isEntry mapped keeps
      rw [Memory.call]
      generalize memory.pager.doWpPage startCode address = result at ends ⊢
      rcases result with stop | next
      · exact ends
      cases next with
      | none => exact books
      | some next => exact ends
  | writeVerify address =>
      have ends := books_writeVerify books keeps
      rw [Memory.call]
      generalize memory.pager.writeVerify address = result at ends ⊢
      rcases result with stop | next
      · exact ends
      · exact ends
  | copyMem task nr =>
      have range := range_of_fork books fits
      obtain ⟨isTask, -, isNr, -, -⟩ := fits
      have ends := ends_copyMem books (baseOf_aligned isTask) (baseOf_aligned isNr) range
      rw [Memory.call]
      generalize memory.pager.copyMem (baseOf task) (baseOf nr) (dataLimit task) = result at ends ⊢
      rcases result with stop | ⟨done, next⟩
      · exact ends.elim
      · exact ends.1
  | freePageTables fromAddr size =>
      obtain ⟨aligned, isUser, inDir⟩ := fits
      obtain ⟨freed, isFreed, freedBooks, -⟩ := books.kernel.freesPageTables aligned isUser inDir
      rw [Memory.call, isFreed]
      exact ⟨freedBooks, books.cursors⟩
  | read address =>
      obtain ⟨isEntry, mapped⟩ := fits
      exact ⟨books.kernel.marks isEntry mapped (by decide) (by decide), books.cursors⟩
  | write address value =>
      obtain ⟨nr, maps⟩ := fits
      exact ⟨books.kernel.writes value maps, books.cursors⟩

/-- A run of the memory manager. -/
def Run (start final : Memory) : Prop :=
  Lib.ReachedBy step (fun memory call => memory.Fits call ∧ memory.Keeps call) start final

theorem books_of_run (run : Run memory after) (books : memory.Books reserved available) :
    after.Books reserved available := by
  refine Lib.ReachedBy.invariant (fun memory => memory.Books reserved available) ?_ run books
  intro memory call next isBooks meets taken
  have ends := ends_call isBooks meets.1 meets.2
  rw [step] at taken
  rcases isCall : memory.call call with stop | result
  · rw [isCall] at taken
    cases taken
  · rw [isCall] at taken ends
    cases taken
    exact ends

/-! ## What the books say -/

/-- The entry of an address may be written. -/
def Writable (kernel : Kernel) (address : UInt32) : Prop :=
  Mapped kernel address ∧ pageRw &&& kernel.word (dirOf address) (entryOf address) ≠ 0

/-- The addresses are in one page. -/
def SamePage (address other : UInt32) : Prop :=
  (dirOf address, entryOf address) = (dirOf other, entryOf other)

end Memory

end Linux012.Mm
