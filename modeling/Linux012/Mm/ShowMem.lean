import Linux012.Mm.Accounts
import Mathlib.Algebra.BigOperators.Intervals
import Mathlib.Algebra.Order.BigOperators.Group.Finset

/-!
# The audit of the memory

`sys_show_mem` of `memory.c`.  It takes the page directory from its fourth entry on for that of the
processes, but `setup_paging` gives the kernel sixteen entries.
-/

namespace Linux012.Mm

open Finset (range Ico)

/-- What has one of the values is counted once. -/
theorem sum_fibres_le {α β : Type} [DecidableEq β] (parts : Finset α) (value : α → β)
    {numbers : Finset Nat} {ofNumber : Nat → β} (apart : Set.InjOn ofNumber numbers) :
    ∑ nr ∈ numbers, (parts.filter fun part => value part = ofNumber nr).card ≤ parts.card := by
  have fibres : ∑ nr ∈ numbers, (parts.filter fun part => value part = ofNumber nr).card =
      ∑ one ∈ numbers.image ofNumber, (parts.filter fun part => value part = one).card :=
    (Finset.sum_image (f := fun one => (parts.filter fun part => value part = one).card)
      apart).symm
  rw [fibres, Finset.sum_card_fiberwise_eq_card_filter]
  exact Finset.card_filter_le _ _

/-- `USED`. -/
def used : UInt8 := 100

namespace Kernel

variable (kernel : Kernel)

/-! ## The loops -/

/-- `free`, `total` and `shared`. -/
structure Tally where
  free : Nat
  total : Nat
  shared : Nat
  deriving DecidableEq, Repr

/-- One page of the first loop. -/
def mapStep (tally : Tally) (nr : Nat) : Tally :=
  let count := kernel.memMap (UInt32.ofNat nr)
  if count = used then tally
  else if count = 0 then { tally with total := tally.total + 1, free := tally.free + 1 }
  else { tally with total := tally.total + 1, shared := tally.shared + (count.toNat - 1) }

/-- The loop over `mem_map`. -/
def mapTally : Tally := (List.range pagingPages).foldl kernel.mapStep ⟨0, 0, 0⟩

/-- An entry of a page table that is counted. -/
def counts (word : UInt32) : Bool :=
  word &&& 1 ≠ 0 && lowMem < word && !(kernel.highMemory < word)

/-- The loop over a page table: `k` and `free`. -/
def tableLoop (dirEntry : Nat) (k free : Nat) : Nat × Nat :=
  (List.range 1024).foldl (fun (k, free) nr =>
    if kernel.counts (kernel.word dirEntry nr) then (k + 1, free + 1) else (k, free)) (k, free)

/-- One round of the loop over the page directory: `i`, `k` and `free` behind it.  A page table
above the memory is printed again and again. -/
def dirRound (i k free : Nat) : Nat × Nat × Nat :=
  if kernel.DirPresent i ∧ kernel.highMemory < kernel.pgDir i then (i, k, free)
  else
    let (k, free) :=
      if kernel.DirPresent i then
        if lowMem < kernel.pgDir i then kernel.tableLoop i (k + 1) (free + 1)
        else kernel.tableLoop i k free
      else (k, free)
    let i := i + 1
    if i &&& 15 = 0 ∧ k ≠ 0 then (i, 0, free + 1) else (i, k, free)

/-- The loop over the page directory; there is no result when it does not end in this many
rounds. -/
def dirLoop : (fuel : Nat) → Nat → Nat → Nat → Option Nat
  | 0, _, _, _ => none
  | fuel + 1, i, k, free =>
      if i < 1024 then
        let (i, k, free) := kernel.dirRound i k free
        dirLoop fuel i k free
      else some free

/-- `sys_show_mem`: the two numbers of its last line. -/
def sysShowMem : Option (Int × Int) := do
  let tally := kernel.mapTally
  let free ← kernel.dirLoop 1024 4 0 tally.free
  return ((free : Int) - tally.shared, (tally.total : Int))

/-! ## What the loops count -/

/-- The pages that have owners. -/
def ownedPages : Finset Nat :=
  (range pagingPages).filter fun nr =>
    kernel.memMap (UInt32.ofNat nr) ≠ used ∧ kernel.memMap (UInt32.ofNat nr) ≠ 0

/-- The entries of a page table that are counted. -/
def tableCount (dirEntry : Nat) : Nat :=
  ((range 1024).filter fun nr => kernel.counts (kernel.word dirEntry nr)).card

/-- What an entry of the page directory adds to `free`. -/
def dirCount (dirEntry : Nat) : Nat :=
  if kernel.DirPresent dirEntry then
    (if lowMem < kernel.pgDir dirEntry then 1 else 0) + kernel.tableCount dirEntry
  else 0

/-- The entries of user page tables that the loop counts. -/
def countedEntries : Finset (Nat × Nat) :=
  (Ico firstDir 1024 ×ˢ range 1024).filter fun at' =>
    kernel.DirPresent at'.1 ∧ kernel.counts (kernel.word at'.1 at'.2)

/-- The user page tables that the loop counts. -/
def countedTables : Finset Nat :=
  (Ico firstDir 1024).filter fun dirEntry =>
    kernel.DirPresent dirEntry ∧ lowMem < kernel.pgDir dirEntry

theorem sum_dirCount : ∑ dirEntry ∈ Ico firstDir 1024, kernel.dirCount dirEntry =
    kernel.countedEntries.card + kernel.countedTables.card := by
  rw [countedEntries, countedTables, Finset.card_filter, Finset.card_filter, Finset.sum_product,
    ← Finset.sum_add_distrib]
  refine Finset.sum_congr rfl fun dirEntry _ => ?_
  rw [dirCount, tableCount, Finset.card_filter]
  by_cases present : kernel.DirPresent dirEntry
  · simp only [eq_true present, if_true, true_and]
    exact Nat.add_comm _ _
  · simp only [eq_false present, if_false, false_and, Finset.sum_const_zero]

variable {kernel}

theorem mem_ownedPages {nr : Nat} (inside : nr ∈ kernel.ownedPages) : nr < pagingPages :=
  Finset.mem_range.mp (Finset.mem_filter.mp inside).1

/-- Of the pages that have owners, those below a number. -/
theorem mapTally_below (below : Nat) :
    let tally := (List.range below).foldl kernel.mapStep ⟨0, 0, 0⟩
    let owned := (range below).filter fun nr =>
      kernel.memMap (UInt32.ofNat nr) ≠ used ∧ kernel.memMap (UInt32.ofNat nr) ≠ 0
    tally.total = tally.free + owned.card ∧
      tally.shared + owned.card = ∑ nr ∈ owned, (kernel.memMap (UInt32.ofNat nr)).toNat := by
  induction below with
  | zero => simp
  | succ below ih =>
      obtain ⟨totals, shares⟩ := ih
      rw [List.range_succ, List.foldl_append, List.foldl_cons, List.foldl_nil,
        Finset.range_add_one, Finset.filter_insert]
      by_cases isUsed : kernel.memMap (UInt32.ofNat below) = used
      · rw [if_neg fun owned => owned.1 isUsed, mapStep, if_pos isUsed]
        exact ⟨totals, shares⟩
      · by_cases isFree : kernel.memMap (UInt32.ofNat below) = 0
        · rw [if_neg fun owned => owned.2 isFree, mapStep, if_neg isUsed, if_pos isFree]
          exact ⟨by dsimp only; omega, shares⟩
        · have positive : 0 < (kernel.memMap (UInt32.ofNat below)).toNat := by
            rw [Nat.pos_iff_ne_zero]
            exact fun none => isFree (UInt8.toNat_inj.mp none)
          have fresh : below ∉ (range below).filter fun nr =>
              kernel.memMap (UInt32.ofNat nr) ≠ used ∧ kernel.memMap (UInt32.ofNat nr) ≠ 0 := by
            simp
          rw [if_pos ⟨isUsed, isFree⟩, mapStep, if_neg isUsed, if_neg isFree]
          dsimp only
          rw [Finset.card_insert_of_notMem fresh, Finset.sum_insert fresh]
          exact ⟨by omega, by omega⟩

theorem mapTally_total : kernel.mapTally.total = kernel.mapTally.free + kernel.ownedPages.card :=
  (mapTally_below pagingPages).1

theorem mapTally_shared : kernel.mapTally.shared + kernel.ownedPages.card =
    ∑ nr ∈ kernel.ownedPages, (kernel.memMap (UInt32.ofNat nr)).toNat :=
  (mapTally_below pagingPages).2

theorem tableLoop_eq (dirEntry k free : Nat) : kernel.tableLoop dirEntry k free =
    (k + kernel.tableCount dirEntry, free + kernel.tableCount dirEntry) := by
  rw [tableLoop, tableCount]
  induction 1024 with
  | zero => simp
  | succ below ih =>
      rw [List.range_succ, List.foldl_append, ih, List.foldl_cons, List.foldl_nil,
        Finset.range_add_one, Finset.filter_insert]
      cases kernel.counts (kernel.word dirEntry below) with
      | true =>
          simp only [if_true]
          rw [Finset.card_insert_of_notMem (by simp), ← Nat.add_assoc, ← Nat.add_assoc]
      | false => rfl

/-- A round that is not stuck goes on to the next entry, and counts at least what this one has. -/
theorem dirRound_counts {i : Nat} (notAbove : ¬(kernel.DirPresent i ∧
    kernel.highMemory < kernel.pgDir i)) (k free : Nat) :
    (kernel.dirRound i k free).1 = i + 1 ∧
      free + kernel.dirCount i ≤ (kernel.dirRound i k free).2.2 := by
  -- the last page of a process is that of its `task_struct`
  have closing (k free : Nat) :
      let behind := if i + 1 &&& 15 = 0 ∧ k ≠ 0 then (i + 1, 0, free + 1) else (i + 1, k, free)
      behind.1 = i + 1 ∧ free ≤ behind.2.2 := by
    dsimp only
    split
    · exact ⟨rfl, Nat.le_succ _⟩
    · exact ⟨rfl, le_rfl⟩
  rw [dirRound, dirCount, if_neg notAbove]
  by_cases present : kernel.DirPresent i
  · rw [if_pos present, if_pos present]
    by_cases isPage : lowMem < kernel.pgDir i
    · rw [if_pos isPage, if_pos isPage, tableLoop_eq, ← Nat.add_assoc]
      exact closing _ _
    · rw [if_neg isPage, if_neg isPage, tableLoop_eq, Nat.zero_add]
      exact closing _ _
  · rw [if_neg present, if_neg present]
    exact closing _ _

/-- Where it ends, the loop has counted all entries. -/
theorem dirLoop_counts {fuel i k free found : Nat}
    (ends : kernel.dirLoop fuel i k free = some found) :
    free + ∑ dirEntry ∈ Ico i 1024, kernel.dirCount dirEntry ≤ found := by
  induction fuel generalizing i k free with
  | zero => exact nomatch ends
  | succ fuel ih =>
      rw [dirLoop] at ends
      by_cases more : i < 1024
      · rw [if_pos more] at ends
        by_cases above : kernel.DirPresent i ∧ kernel.highMemory < kernel.pgDir i
        · rw [dirRound, if_pos above] at ends
          exact ih ends
        · have atLeast := dirRound_counts above k free
          rcases isRound : kernel.dirRound i k free with ⟨next, k', free'⟩
          rw [isRound] at atLeast ends
          obtain ⟨rfl, atLeast⟩ := atLeast
          have rest := ih ends
          dsimp only at atLeast
          rw [Finset.sum_eq_sum_Ico_succ_bot more]
          omega
      · rw [if_neg more, Option.some.injEq] at ends
        rw [Finset.Ico_eq_empty_of_le (Nat.le_of_not_lt more), Finset.sum_empty, ends]
        exact le_rfl

/-- The loop ends where no page table is above the memory. -/
theorem dirLoop_ends {fuel i : Nat} (inDir : i ≤ 1024) (enough : 1024 < fuel + i)
    (notAbove : ∀ dirEntry < 1024,
      ¬(kernel.DirPresent dirEntry ∧ kernel.highMemory < kernel.pgDir dirEntry)) (k free : Nat) :
    ∃ found, kernel.dirLoop fuel i k free = some found := by
  induction fuel generalizing i k free with
  | zero => omega
  | succ fuel ih =>
      rw [dirLoop]
      by_cases more : i < 1024
      · rw [if_pos more]
        have isNext := (dirRound_counts (notAbove i more) k free).1
        rcases isRound : kernel.dirRound i k free with ⟨next, k', free'⟩
        rw [isRound] at isNext
        obtain rfl : next = i + 1 := isNext
        exact ih more (by omega) k' free'
      · exact ⟨free, if_neg more⟩

/-! ## The owners of the pages -/

/-- The accounts of the main memory: what `start_kernel` and `setup_paging` leave, and a number of
owners for each page.  The `tasks` are those other than task 0. -/
structure Audited (kernel : Kernel) (tasks : Finset Nat) (taskPage : Nat → UInt32) : Prop where
  high : kernel.highMemory = totalMemory
  kernelTables : ∀ dirEntry < firstDir, kernel.DirPresent dirEntry ∧
    kernel.pgDir dirEntry &&& frameMask = UInt32.ofNat (0x1000 * (dirEntry + 1))
  kernelPages : ∀ dirEntry < firstDir, ∀ nr < 1024, pagePresent &&& kernel.word dirEntry nr ≠ 0 ∧
    kernel.word dirEntry nr &&& frameMask = UInt32.ofNat (0x1000 * (1024 * dirEntry + nr))
  few : ∀ task ∈ tasks, 0 < task ∧ task < 64
  owned : ∀ nr ∈ kernel.ownedPages, (kernel.memMap (UInt32.ofNat nr)).toNat =
    (kernel.mappers (UInt32.ofNat nr)).card + (kernel.tablesAt (UInt32.ofNat nr)).card +
      (tasks.filter fun task => mapNr (taskPage task) = UInt32.ofNat nr).card

namespace Audited

variable {tasks : Finset Nat} {taskPage : Nat → UInt32}

theorem present_iff (word : UInt32) : word &&& 1 ≠ 0 ↔ word.toNat % 2 = 1 := by
  have low : (word &&& 1).toNat = word.toNat % 2 := by
    rw [UInt32.toNat_and]
    exact Nat.and_one_is_mod _
  have isZero : word &&& 1 = 0 ↔ word.toNat % 2 = 0 := by
    rw [← low]
    exact UInt32.toNat_inj.symm
  rw [Ne, isZero]
  exact Nat.mod_two_ne_zero

/-- Every page of main memory that is mapped is counted. -/
theorem counts_of_frame (high : kernel.highMemory = totalMemory) {word : UInt32}
    (present : word &&& 1 ≠ 0) (isPage : lowMem ≤ word &&& frameMask)
    (inMemory : word &&& frameMask < totalMemory) : kernel.counts word = true := by
  have odd := (present_iff _).mp present
  rw [UInt32.le_iff_toNat_le, frame_toNat] at isPage
  rw [UInt32.lt_iff_toNat_lt, frame_toNat] at inMemory
  have low : lowMem.toNat = 0x300000 := rfl
  have total : totalMemory.toNat = 0x4000000 := rfl
  rw [counts, high]
  simp only [Bool.and_eq_true, Bool.not_eq_true', decide_eq_true_eq, decide_eq_false_iff_not]
  refine ⟨⟨present, ?_⟩, ?_⟩
  · rw [UInt32.lt_iff_toNat_lt]
    omega
  · rw [UInt32.lt_iff_toNat_lt]
    omega

/-- The page with a number of `mem_map` is in main memory. -/
theorem frame_of_mapNr {word : UInt32} {nr : Nat} (inMap : nr < pagingPages)
    (isPage : lowMem ≤ word) (isNr : mapNr word = UInt32.ofNat nr) :
    lowMem ≤ word &&& frameMask ∧ word &&& frameMask < totalMemory := by
  have small := word.toNat_lt
  have same := congrArg UInt32.toNat isNr
  rw [pagingPages] at inMap
  rw [mapNr_toNat, UInt32.toNat_ofNat', Nat.mod_eq_of_lt (by omega : nr < 2 ^ 32)] at same
  rw [UInt32.le_iff_toNat_le] at isPage ⊢
  rw [UInt32.lt_iff_toNat_lt, frame_toNat]
  have low : lowMem.toNat = 0x300000 := rfl
  have total : totalMemory.toNat = 0x4000000 := rfl
  omega

variable (audited : kernel.Audited tasks taskPage)
include audited

theorem dirCount_kernel {dirEntry : Nat} (isKernel : dirEntry < firstDir) (behind : 4 ≤ dirEntry) :
    1024 ≤ kernel.dirCount dirEntry := by
  obtain ⟨present, -⟩ := audited.kernelTables dirEntry isKernel
  have all : (range 1024).filter (fun nr => kernel.counts (kernel.word dirEntry nr)) =
      range 1024 := by
    refine Finset.filter_true_of_mem fun nr inTable => ?_
    rw [Finset.mem_range] at inTable
    rw [firstDir] at isKernel
    obtain ⟨mapped, isFrame⟩ := audited.kernelPages dirEntry isKernel nr inTable
    have frame : (kernel.word dirEntry nr &&& frameMask).toNat =
        0x1000 * (1024 * dirEntry + nr) := by
      rw [isFrame, UInt32.toNat_ofNat', Nat.mod_eq_of_lt (by omega)]
    have low : lowMem.toNat = 0x300000 := rfl
    have total : totalMemory.toNat = 0x4000000 := rfl
    refine counts_of_frame audited.high (by rwa [UInt32.and_comm]) ?_ ?_
    · rw [UInt32.le_iff_toNat_le]
      omega
    · rw [UInt32.lt_iff_toNat_lt]
      omega
  rw [dirCount, if_pos present, tableCount, all, Finset.card_range]
  exact Nat.le_add_left _ _

theorem mappers_subset {nr : Nat} (inMap : nr < pagingPages) :
    kernel.mappers (UInt32.ofNat nr) ⊆ kernel.countedEntries.filter fun at' =>
      mapNr (kernel.word at'.1 at'.2) = UInt32.ofNat nr := by
  rintro ⟨dirEntry, pageEntry⟩ inside
  have maps := mem_mappers.mp inside
  have inMemory := frame_of_mapNr inMap maps.isPage maps.isNr
  have counted := counts_of_frame audited.high (by rw [UInt32.and_comm]; exact maps.mapped)
    inMemory.1 inMemory.2
  rw [Finset.mem_filter, countedEntries, Finset.mem_filter, Finset.mem_product, Finset.mem_Ico,
    Finset.mem_range]
  exact ⟨⟨⟨maps.isUser, maps.inTable⟩, maps.present, counted⟩, maps.isNr⟩

theorem tablesAt_subset (nr : UInt32) : kernel.tablesAt nr ⊆
    kernel.countedTables.filter fun dirEntry => mapNr (kernel.pgDir dirEntry) = nr := by
  intro dirEntry inside
  obtain ⟨inDir, present, isPage, isNr⟩ := mem_tablesAt.mp inside
  have isUser : firstDir ≤ dirEntry := by
    by_contra isKernel
    rw [firstDir] at isKernel
    have isFrame := (audited.kernelTables dirEntry (Nat.lt_of_not_le isKernel)).2
    have low : lowMem.toNat = 0x300000 := rfl
    rw [isFrame, UInt32.le_iff_toNat_le, UInt32.toNat_ofNat', Nat.mod_eq_of_lt (by omega)] at isPage
    omega
  have above : lowMem < kernel.pgDir dirEntry := by
    have odd := (present_iff _).mp present
    have low : lowMem.toNat = 0x300000 := rfl
    rw [UInt32.le_iff_toNat_le, frame_toNat] at isPage
    rw [UInt32.lt_iff_toNat_lt]
    omega
  rw [Finset.mem_filter, countedTables, Finset.mem_filter, Finset.mem_Ico]
  exact ⟨⟨⟨isUser, inDir⟩, present, above⟩, isNr⟩

/-- The owners are among what the loop over the page directory counts, and the tasks. -/
theorem sum_owned_le : ∑ nr ∈ kernel.ownedPages, (kernel.memMap (UInt32.ofNat nr)).toNat ≤
    (∑ dirEntry ∈ Ico firstDir 1024, kernel.dirCount dirEntry) + tasks.card := by
  have apart : Set.InjOn UInt32.ofNat kernel.ownedPages := by
    intro first inFirst second inSecond same
    have ltFirst := mem_ownedPages inFirst
    have ltSecond := mem_ownedPages inSecond
    rw [pagingPages] at ltFirst ltSecond
    have numbers := congrArg UInt32.toNat same
    rwa [UInt32.toNat_ofNat', UInt32.toNat_ofNat', Nat.mod_eq_of_lt (by omega),
      Nat.mod_eq_of_lt (by omega)] at numbers
  calc ∑ nr ∈ kernel.ownedPages, (kernel.memMap (UInt32.ofNat nr)).toNat
      = ∑ nr ∈ kernel.ownedPages, ((kernel.mappers (UInt32.ofNat nr)).card +
          (kernel.tablesAt (UInt32.ofNat nr)).card +
          (tasks.filter fun task => mapNr (taskPage task) = UInt32.ofNat nr).card) :=
        Finset.sum_congr rfl audited.owned
    _ ≤ ∑ nr ∈ kernel.ownedPages, ((kernel.countedEntries.filter fun at' =>
            mapNr (kernel.word at'.1 at'.2) = UInt32.ofNat nr).card +
          (kernel.countedTables.filter fun dirEntry =>
            mapNr (kernel.pgDir dirEntry) = UInt32.ofNat nr).card +
          (tasks.filter fun task => mapNr (taskPage task) = UInt32.ofNat nr).card) := by
        refine Finset.sum_le_sum fun nr inside => ?_
        have entries := Finset.card_le_card (audited.mappers_subset (mem_ownedPages inside))
        have tables := Finset.card_le_card (audited.tablesAt_subset (UInt32.ofNat nr))
        omega
    _ ≤ kernel.countedEntries.card + kernel.countedTables.card + tasks.card := by
        rw [Finset.sum_add_distrib, Finset.sum_add_distrib]
        have entries := sum_fibres_le kernel.countedEntries
          (fun at' => mapNr (kernel.word at'.1 at'.2)) apart
        have tables := sum_fibres_le kernel.countedTables
          (fun dirEntry => mapNr (kernel.pgDir dirEntry)) apart
        have pages := sum_fibres_le tasks (fun task => mapNr (taskPage task)) apart
        omega
    _ = (∑ dirEntry ∈ Ico firstDir 1024, kernel.dirCount dirEntry) + tasks.card := by
        rw [sum_dirCount]

/-- The audit finds the pages that the kernel maps for itself. -/
theorem exceeds {fuel found : Nat}
    (ends : kernel.dirLoop fuel 4 0 kernel.mapTally.free = some found) :
    kernel.mapTally.total + kernel.mapTally.shared + 12 * 1024 ≤ found + tasks.card := by
  have counted := dirLoop_counts ends
  have owners := audited.sum_owned_le
  have kernelPart : ∑ _dirEntry ∈ Ico 4 firstDir, 1024 ≤
      ∑ dirEntry ∈ Ico 4 firstDir, kernel.dirCount dirEntry := by
    refine Finset.sum_le_sum fun dirEntry inside => ?_
    obtain ⟨behind, isKernel⟩ := Finset.mem_Ico.mp inside
    exact audited.dirCount_kernel isKernel behind
  rw [← Finset.sum_Ico_consecutive _ (by decide : 4 ≤ firstDir) (by decide : firstDir ≤ 1024)]
    at counted
  have totals := kernel.mapTally_total
  have shares := kernel.mapTally_shared
  rw [Finset.sum_const, Nat.card_Ico, Nat.nsmul_eq_mul] at kernelPart
  rw [firstDir] at *
  omega

/-- The two numbers of the last line are apart by the pages that the kernel maps for itself. -/
theorem sysShowMem_exceeds {found total : Int} (ends : kernel.sysShowMem = some (found, total)) :
    total + 12 * 1024 ≤ found + tasks.card := by
  rcases walked : kernel.dirLoop 1024 4 0 kernel.mapTally.free with _ | free
  · rw [sysShowMem, walked] at ends
    exact nomatch ends
  · rw [sysShowMem, walked] at ends
    obtain ⟨rfl, rfl⟩ := Prod.mk.inj (Option.some.inj ends)
    have atLeast := audited.exceeds walked
    omega

theorem card_tasks : tasks.card ≤ 63 := by
  have few : tasks ⊆ Ico 1 64 := fun task inside =>
    Finset.mem_Ico.mpr (audited.few task inside)
  exact (Finset.card_le_card few).trans_eq (Nat.card_Ico 1 64)

end Audited

/-- The audit ends, and its last line has one number twice. -/
def MemoryFound (kernel : Kernel) : Prop := ∃ pages : Int, kernel.sysShowMem = some (pages, pages)

theorem sysShowMem_ends (notAbove : ∀ dirEntry < 1024,
    ¬(kernel.DirPresent dirEntry ∧ kernel.highMemory < kernel.pgDir dirEntry)) :
    ∃ found total, kernel.sysShowMem = some (found, total) := by
  obtain ⟨free, walked⟩ := dirLoop_ends (by decide : 4 ≤ 1024) (by decide : 1024 < 1024 + 4)
    notAbove 0 kernel.mapTally.free
  exact ⟨_, _, by rw [sysShowMem, walked]; rfl⟩

/-- The audit never finds the memory there is: the kernel's own entries are taken for those of
processes. -/
theorem Audited.not_memoryFound {tasks : Finset Nat} {taskPage : Nat → UInt32}
    (audited : kernel.Audited tasks taskPage) : ¬kernel.MemoryFound := by
  rintro ⟨pages, ends⟩
  have atLeast := audited.sysShowMem_exceeds ends
  have few := audited.card_tasks
  omega

/-! ## The kernel before the first fork -/

/-- What `setup_paging` and `mem_init` leave. -/
def boot : Kernel where
  memory ptr :=
    if ptr < 64 then 0x1000 * (ptr / 4 + 1) + 7
    else if 0x1000 ≤ ptr ∧ ptr < 0x11000 then 0x1000 * ((ptr - 0x1000) / 4) + 7
    else 0
  memMap nr := if nr < mapNr 0xD00000 then used else 0
  highMemory := totalMemory
  swapBitmap := none
  swapPages _ _ := 0

theorem boot_frame : ∀ dirEntry < firstDir,
    boot.pgDir dirEntry &&& frameMask = UInt32.ofNat (0x1000 * (dirEntry + 1)) := by
  decide

theorem boot_word {dirEntry nr : Nat} (isKernel : dirEntry < firstDir) (inTable : nr < 1024) :
    (boot.word dirEntry nr).toNat = 0x1000 * (1024 * dirEntry + nr) + 7 := by
  have isFrame := boot_frame dirEntry isKernel
  have four : (4 : UInt32).toNat = 4 := rfl
  have seven : (7 : UInt32).toNat = 7 := rfl
  have dirEnd : (64 : UInt32).toNat = 64 := rfl
  have first : (0x1000 : UInt32).toNat = 0x1000 := rfl
  have last : (0x11000 : UInt32).toNat = 0x11000 := rfl
  rw [firstDir] at isKernel
  have isPtr : (boot.entry dirEntry nr).toNat = 0x1000 * (dirEntry + 1) + 4 * nr := by
    rw [entry, entryPtr, isFrame, UInt32.toNat_add, UInt32.toNat_mul, UInt32.toNat_ofNat',
      UInt32.toNat_ofNat', four]
    omega
  rw [word]
  generalize boot.entry dirEntry nr = ptr at isPtr ⊢
  have isTable : 0x1000 ≤ ptr ∧ ptr < 0x11000 := by
    rw [UInt32.le_iff_toNat_le, UInt32.lt_iff_toNat_lt, isPtr, first, last]
    omega
  have notDir : ¬ptr < 64 := by
    rw [UInt32.lt_iff_toNat_lt, isPtr, dirEnd]
    omega
  rw [boot]
  dsimp only
  rw [if_neg notDir, if_pos isTable, UInt32.toNat_add, UInt32.toNat_mul, UInt32.toNat_div,
    UInt32.toNat_sub_of_le _ _ isTable.1, isPtr, first, four, seven]
  omega

theorem boot_audited (taskPage : Nat → UInt32) : boot.Audited ∅ taskPage where
  high := rfl
  kernelTables := by decide
  kernelPages dirEntry isKernel nr inTable := by
    have isWord := boot_word isKernel inTable
    rw [firstDir] at isKernel
    refine ⟨?_, UInt32.toNat_inj.mp ?_⟩
    · rw [UInt32.and_comm, Audited.present_iff, isWord]
      omega
    · rw [frame_toNat, isWord, UInt32.toNat_ofNat', Nat.mod_eq_of_lt (by omega)]
      omega
  few := by simp
  owned nr inside := by
    obtain ⟨-, notUsed, notFree⟩ := Finset.mem_filter.mp inside
    rw [boot] at notUsed notFree
    dsimp only at notUsed notFree
    split at notUsed
    · exact absurd rfl notUsed
    · rename_i above
      exact absurd (if_neg above) notFree

/-- Before the first fork the audit finds more than there is. -/
theorem not_memoryFound_boot : boot.Audited ∅ (fun _ => 0) ∧ ¬boot.MemoryFound := by
  have audited := boot_audited fun _ => 0
  refine ⟨audited, fun ⟨pages, ends⟩ => ?_⟩
  have atLeast := audited.sysShowMem_exceeds ends
  rw [Finset.card_empty] at atLeast
  omega

theorem not_memoryFound_noTasks : boot.Audited ∅ (fun _ => 0) ∧ ¬boot.MemoryFound :=
  ⟨boot_audited _, Audited.not_memoryFound (boot_audited fun _ => 0)⟩

end Kernel

end Linux012.Mm
