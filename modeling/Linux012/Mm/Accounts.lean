import Linux012.Mm.Pager

/-!
# The accounts of the pages

`mem_map` has at least one reference for each entry of a user page table that maps a page, and for
each entry of the page directory that has it as its page table.  A page that may be written has no
other reference.  The functions that take pages and swap them out keep these accounts.
-/

namespace Linux012.Mm

namespace Kernel

variable (kernel : Kernel)

/-- An entry of a page table, by its directory entry. -/
def word (dirEntry pageEntry : Nat) : UInt32 := kernel.memory (kernel.entry dirEntry pageEntry)

/-- The entry of a user page table maps the page with the number. -/
structure Maps (nr : UInt32) (dirEntry pageEntry : Nat) : Prop extends
    kernel.UserEntry dirEntry pageEntry where
  mapped : pagePresent &&& kernel.word dirEntry pageEntry ≠ 0
  isPage : lowMem ≤ kernel.word dirEntry pageEntry
  isNr : mapNr (kernel.word dirEntry pageEntry) = nr

instance (nr : UInt32) (at' : Nat × Nat) : Decidable (kernel.Maps nr at'.1 at'.2) :=
  decidable_of_iff (((firstDir ≤ at'.1 ∧ at'.1 < 1024) ∧ kernel.DirPresent at'.1 ∧ at'.2 < 1024) ∧
      pagePresent &&& kernel.word at'.1 at'.2 ≠ 0 ∧ lowMem ≤ kernel.word at'.1 at'.2 ∧
      mapNr (kernel.word at'.1 at'.2) = nr)
    ⟨fun ⟨⟨isUser, present, inTable⟩, mapped, isPage, isNr⟩ =>
        ⟨⟨isUser, present, inTable⟩, mapped, isPage, isNr⟩,
      fun ⟨⟨isUser, present, inTable⟩, mapped, isPage, isNr⟩ =>
        ⟨⟨isUser, present, inTable⟩, mapped, isPage, isNr⟩⟩

/-- The entries that map a page. -/
def mappers (nr : UInt32) : Finset (Nat × Nat) :=
  (Finset.range 1024 ×ˢ Finset.range 1024).filter fun at' => kernel.Maps nr at'.1 at'.2

/-- The directory entries that have the page as their page table. -/
def tablesAt (nr : UInt32) : Finset Nat :=
  (Finset.range 1024).filter fun dirEntry => kernel.DirPresent dirEntry ∧
    lowMem ≤ kernel.pgDir dirEntry &&& frameMask ∧ mapNr (kernel.pgDir dirEntry) = nr

/-- The accounts are right. -/
structure Sound : Prop where
  tables : ∀ dirEntry < 1024, kernel.DirPresent dirEntry → kernel.pgDir dirEntry &&& frameMask ≠ 0
  apart : ∀ first < 1024, ∀ second < 1024, kernel.DirPresent first → kernel.DirPresent second →
    kernel.pgDir first &&& frameMask = kernel.pgDir second &&& frameMask → first = second
  counted : ∀ nr, (kernel.mappers nr).card + (kernel.tablesAt nr).card ≤ (kernel.memMap nr).toNat
  /-- A page that may be written has one reference. -/
  writable : ∀ dirEntry pageEntry, kernel.UserEntry dirEntry pageEntry →
    pagePresent &&& kernel.word dirEntry pageEntry ≠ 0 →
    pageRw &&& kernel.word dirEntry pageEntry ≠ 0 →
    lowMem ≤ kernel.word dirEntry pageEntry ∧
      kernel.memMap (mapNr (kernel.word dirEntry pageEntry)) = 1
  /-- The kernel maps all memory for itself, and may write it. -/
  kernelSpace : ∀ dirEntry < firstDir, kernel.DirPresent dirEntry → ∀ pageEntry < 1024,
    3 &&& kernel.word dirEntry pageEntry ≠ 1

variable {kernel} {nr : UInt32} {dirEntry pageEntry : Nat}

theorem mem_mappers : (dirEntry, pageEntry) ∈ kernel.mappers nr ↔
    kernel.Maps nr dirEntry pageEntry := by
  rw [mappers, Finset.mem_filter, Finset.mem_product, Finset.mem_range, Finset.mem_range]
  exact ⟨fun inside => inside.2, fun maps => ⟨⟨maps.isUser.2, maps.inTable⟩, maps⟩⟩

theorem mem_tablesAt : dirEntry ∈ kernel.tablesAt nr ↔ dirEntry < 1024 ∧
    kernel.DirPresent dirEntry ∧ lowMem ≤ kernel.pgDir dirEntry &&& frameMask ∧
    mapNr (kernel.pgDir dirEntry) = nr := by
  rw [tablesAt, Finset.mem_filter, Finset.mem_range]

attribute [irreducible] mappers tablesAt

theorem entry_frame (inTable : pageEntry < 1024) :
    kernel.entry dirEntry pageEntry &&& frameMask = kernel.pgDir dirEntry &&& frameMask :=
  entryPtr_frame (pageAligned_frame _) inTable

/-- The page directory is the first page. -/
theorem dir_frame (inDir : dirEntry < 1024) : 4 * UInt32.ofNat dirEntry &&& frameMask = 0 := by
  have four : (4 : UInt32).toNat = 4 := rfl
  apply UInt32.toNat_inj.mp
  rw [frame_toNat, UInt32.toNat_mul, UInt32.toNat_ofNat', four]
  exact Nat.mul_eq_zero.mpr (.inl (Nat.div_eq_of_lt (by omega)))

namespace Sound

variable (sound : kernel.Sound)
include sound

theorem occupied (inDir : dirEntry < 1024) (present : kernel.DirPresent dirEntry) :
    kernel.Occupied (kernel.pgDir dirEntry &&& frameMask) := by
  by_cases isLow : kernel.pgDir dirEntry &&& frameMask < lowMem
  · exact .inl isLow
  · right
    intro isFree
    rw [mapNr_frame] at isFree
    have counted := sound.counted (mapNr (kernel.pgDir dirEntry))
    rw [isFree] at counted
    have member := mem_tablesAt.mpr ⟨inDir, present, UInt32.not_lt.mp isLow, rfl⟩
    have some := Finset.card_pos.mpr ⟨dirEntry, member⟩
    exact absurd counted (by simp only [UInt8.toNat_zero]; omega)

/-- An entry is in memory that is in use. -/
theorem occupied_entry (inDir : dirEntry < 1024) (present : kernel.DirPresent dirEntry)
    (inTable : pageEntry < 1024) : kernel.Occupied (kernel.entry dirEntry pageEntry) :=
  (sound.occupied inDir present).of_frame (entry_frame inTable)

theorem entry_ne_dir {other : Nat} (inDir : dirEntry < 1024) (present : kernel.DirPresent dirEntry)
    (inTable : pageEntry < 1024) (otherInDir : other < 1024) :
    4 * UInt32.ofNat other ≠ kernel.entry dirEntry pageEntry := by
  intro same
  have isDir := dir_frame otherInDir
  rw [same, entry_frame inTable] at isDir
  exact sound.tables dirEntry inDir present isDir

theorem entry_inj {other otherEntry : Nat} (inDir : dirEntry < 1024)
    (present : kernel.DirPresent dirEntry) (inTable : pageEntry < 1024) (otherInDir : other < 1024)
    (otherPresent : kernel.DirPresent other) (otherInTable : otherEntry < 1024)
    (same : kernel.entry dirEntry pageEntry = kernel.entry other otherEntry) :
    dirEntry = other ∧ pageEntry = otherEntry := by
  have sameTable := congrArg (· &&& frameMask) same
  simp only [entry_frame inTable, entry_frame otherInTable] at sameTable
  obtain rfl := sound.apart _ inDir _ otherInDir present otherPresent sameTable
  exact ⟨rfl, entryPtr_inj inTable otherInTable same⟩

end Sound

/-! ## Changes of one entry -/

/-- No entry of a page table is changed but one, and the page directory is not changed. -/
structure Changes (before after : Kernel) (dirEntry pageEntry : Nat) : Prop where
  dirs : ∀ other < 1024, after.pgDir other = before.pgDir other
  words : ∀ other < 1024, before.DirPresent other → ∀ otherEntry < 1024,
    (other, otherEntry) ≠ (dirEntry, pageEntry) →
      after.word other otherEntry = before.word other otherEntry

variable {before after : Kernel}

theorem Changes.dirPresent (changes : Changes before after dirEntry pageEntry) {other : Nat}
    (inDir : other < 1024) : after.DirPresent other ↔ before.DirPresent other := by
  rw [DirPresent, DirPresent, changes.dirs other inDir]

theorem Changes.entry (changes : Changes before after dirEntry pageEntry) {other : Nat}
    (inDir : other < 1024) (otherEntry : Nat) :
    after.entry other otherEntry = before.entry other otherEntry := by
  rw [Kernel.entry, Kernel.entry, changes.dirs other inDir]

theorem Changes.userEntry (changes : Changes before after dirEntry pageEntry)
    {other otherEntry : Nat} :
    after.UserEntry other otherEntry ↔ before.UserEntry other otherEntry := by
  constructor
  · exact fun isEntry => ⟨isEntry.isUser, (changes.dirPresent isEntry.isUser.2).mp isEntry.present,
      isEntry.inTable⟩
  · exact fun isEntry => ⟨isEntry.isUser, (changes.dirPresent isEntry.isUser.2).mpr isEntry.present,
      isEntry.inTable⟩

theorem Changes.tablesAt (changes : Changes before after dirEntry pageEntry) (nr : UInt32) :
    after.tablesAt nr = before.tablesAt nr := by
  ext other
  rw [mem_tablesAt, mem_tablesAt]
  constructor
  · rintro ⟨inDir, present, isPage, isNr⟩
    rw [changes.dirs other inDir] at isPage isNr
    exact ⟨inDir, (changes.dirPresent inDir).mp present, isPage, isNr⟩
  · rintro ⟨inDir, present, isPage, isNr⟩
    rw [← changes.dirs other inDir] at isPage isNr
    exact ⟨inDir, (changes.dirPresent inDir).mpr present, isPage, isNr⟩

/-- Another entry maps what it mapped. -/
theorem Changes.maps (changes : Changes before after dirEntry pageEntry) {other otherEntry : Nat}
    (differs : (other, otherEntry) ≠ (dirEntry, pageEntry)) :
    after.Maps nr other otherEntry ↔ before.Maps nr other otherEntry := by
  constructor
  · rintro ⟨isEntry, mapped, isPage, isNr⟩
    have isEntry := changes.userEntry.mp isEntry
    have same := changes.words other isEntry.isUser.2 isEntry.present otherEntry isEntry.inTable
      differs
    rw [same] at mapped isPage isNr
    exact ⟨isEntry, mapped, isPage, isNr⟩
  · rintro ⟨isEntry, mapped, isPage, isNr⟩
    have same := changes.words other isEntry.isUser.2 isEntry.present otherEntry isEntry.inTable
      differs
    rw [← same] at mapped isPage isNr
    exact ⟨changes.userEntry.mpr isEntry, mapped, isPage, isNr⟩

theorem Changes.erase_mappers (changes : Changes before after dirEntry pageEntry) (nr : UInt32) :
    (after.mappers nr).erase (dirEntry, pageEntry) =
      (before.mappers nr).erase (dirEntry, pageEntry) := by
  ext ⟨other, otherEntry⟩
  rw [Finset.mem_erase, Finset.mem_erase, mem_mappers, mem_mappers]
  exact and_congr_right fun differs => changes.maps differs

/-- When the entry maps another page behind the change, or none, this page has one entry less, if it
was mapped. -/
theorem Changes.mappers_of_not (changes : Changes before after dirEntry pageEntry)
    (notMaps : ¬after.Maps nr dirEntry pageEntry) :
    after.mappers nr = (before.mappers nr).erase (dirEntry, pageEntry) := by
  rw [← changes.erase_mappers, Finset.erase_eq_of_notMem fun member =>
    notMaps (mem_mappers.mp member)]

theorem Changes.mappers_of_maps (changes : Changes before after dirEntry pageEntry)
    (maps : after.Maps nr dirEntry pageEntry) :
    after.mappers nr = insert (dirEntry, pageEntry) (before.mappers nr) := by
  ext ⟨other, otherEntry⟩
  rw [Finset.mem_insert, mem_mappers, mem_mappers]
  by_cases same : (other, otherEntry) = (dirEntry, pageEntry)
  · cases same
    exact iff_of_true maps (.inl rfl)
  · exact (changes.maps same).trans (or_iff_right same).symm

/-! ## Pages that are taken -/

/-- What is in use is as it was. -/
structure Keeps (before after : Kernel) : Prop where
  inUse : ∀ nr, before.memMap nr ≠ 0 → after.memMap nr = before.memMap nr
  others : ∀ ptr, before.Occupied ptr → after.memory ptr = before.memory ptr

theorem Keeps.refl (kernel : Kernel) : Keeps kernel kernel := ⟨fun _ _ => rfl, fun _ _ => rfl⟩

theorem Keeps.occupied (keeps : Keeps before after) {ptr : UInt32} (occupied : before.Occupied ptr) :
    after.Occupied ptr :=
  occupied.imp_right fun inUse => by rw [keeps.inUse _ inUse]; exact inUse

theorem Keeps.trans {last : Kernel} (first : Keeps before after) (second : Keeps after last) :
    Keeps before last where
  inUse nr inUse := by
    have same := first.inUse nr inUse
    rw [second.inUse nr (by rw [same]; exact inUse), same]
  others ptr occupied := (second.others ptr (first.occupied occupied)).trans (first.others ptr occupied)

theorem Fresh.keeps {page : UInt32} (fresh : Fresh before after page) : Keeps before after :=
  ⟨fresh.inUse, fresh.others⟩

theorem keeps_passOver (kernel : Kernel) {nr : Nat} (atMost : nr ≤ pagingPages) :
    Keeps kernel (kernel.passOver nr) := by
  induction nr generalizing kernel with
  | zero => exact .refl kernel
  | succ nr ih =>
      rw [passOver]
      split
      next isFree =>
        have taken : Keeps kernel (kernel.take nr) :=
          ⟨fun _ inUse => take_memMap_of_ne isFree inUse,
            fun _ occupied => take_memory atMost isFree occupied⟩
        exact taken.trans (ih _ (Nat.le_of_succ_le atMost))
      next => exact ih _ (Nat.le_of_succ_le atMost)

theorem keeps_searched (kernel : Kernel) : Keeps kernel kernel.searched := by
  unfold searched
  exact keeps_passOver kernel le_rfl

/-- What is taken changes no table. -/
theorem Keeps.changes (keeps : Keeps before after) (sound : before.Sound) (dirEntry pageEntry : Nat) :
    Changes before after dirEntry pageEntry := by
  have dirs (other : Nat) (inDir : other < 1024) : after.pgDir other = before.pgDir other := by
    refine keeps.others _ (.inl ?_)
    have four : (4 : UInt32).toNat = 4 := rfl
    have low : lowMem.toNat = 0x300000 := rfl
    rw [UInt32.lt_iff_toNat_lt, UInt32.toNat_mul, UInt32.toNat_ofNat', four, low]
    omega
  refine ⟨dirs, fun other inDir present otherEntry inTable _ => ?_⟩
  rw [word, word, entry, entry, dirs other inDir]
  exact keeps.others _ (sound.occupied_entry inDir present inTable)

/-- No entry is changed. -/
theorem Keeps.word (keeps : Keeps before after) (sound : before.Sound) {other otherEntry : Nat}
    (inDir : other < 1024) (present : before.DirPresent other) (inTable : otherEntry < 1024) :
    after.word other otherEntry = before.word other otherEntry :=
  (keeps.changes sound other (otherEntry + 1)).words other inDir present otherEntry inTable
    (by simp)

/-- No entry at all is changed. -/
theorem Changes.mappers_eq (changes : Changes before after 0 1024) (nr : UInt32) :
    after.mappers nr = before.mappers nr := by
  have notMaps : ¬after.Maps nr 0 1024 := fun maps => absurd maps.inTable (by omega)
  have notMapped : (0, 1024) ∉ before.mappers nr := fun member =>
    absurd (mem_mappers.mp member).inTable (by omega)
  rw [changes.mappers_of_not notMaps, Finset.erase_eq_of_notMem notMapped]

theorem Keeps.mappers (keeps : Keeps before after) (sound : before.Sound) (nr : UInt32) :
    after.mappers nr = before.mappers nr := (keeps.changes sound 0 1024).mappers_eq nr

/-- A page that is not in use is not mapped, and is no page table. -/
theorem Sound.unused (sound : kernel.Sound) (isFree : kernel.memMap nr = 0) :
    kernel.mappers nr = ∅ ∧ kernel.tablesAt nr = ∅ := by
  have counted := sound.counted nr
  rw [isFree, UInt8.toNat_zero] at counted
  exact ⟨Finset.card_eq_zero.mp (by omega), Finset.card_eq_zero.mp (by omega)⟩

/-- When no table is changed, and no reference to a page, the accounts stay right. -/
theorem Changes.sound_of_inUse (changes : Changes before after 0 1024)
    (inUse : ∀ nr, before.memMap nr ≠ 0 → after.memMap nr = before.memMap nr)
    (sound : before.Sound) : after.Sound := by
  have words {other otherEntry : Nat} (inDir : other < 1024) (present : before.DirPresent other)
      (inTable : otherEntry < 1024) : after.word other otherEntry = before.word other otherEntry :=
    changes.words other inDir present otherEntry inTable fun same =>
      absurd (Prod.mk.inj same).2 inTable.ne
  constructor
  · intro dirEntry inDir present
    rw [changes.dirs dirEntry inDir]
    exact sound.tables dirEntry inDir ((changes.dirPresent inDir).mp present)
  · intro first firstIn second secondIn firstPresent secondPresent same
    rw [changes.dirs first firstIn, changes.dirs second secondIn] at same
    exact sound.apart first firstIn second secondIn ((changes.dirPresent firstIn).mp firstPresent)
      ((changes.dirPresent secondIn).mp secondPresent) same
  · intro nr
    rw [changes.mappers_eq, changes.tablesAt]
    by_cases isFree : before.memMap nr = 0
    · obtain ⟨notMapped, noTable⟩ := sound.unused isFree
      rw [notMapped, noTable]
      exact Nat.zero_le _
    · rw [inUse nr isFree]
      exact sound.counted nr
  · intro dirEntry pageEntry isEntry mapped writes
    have isEntry := changes.userEntry.mp isEntry
    rw [words isEntry.isUser.2 isEntry.present isEntry.inTable] at mapped writes ⊢
    obtain ⟨isPage, one⟩ := sound.writable _ _ isEntry mapped writes
    exact ⟨isPage, by rw [inUse _ (by rw [one]; decide), one]⟩
  · intro dirEntry isKernel present pageEntry inTable
    have inDir : dirEntry < 1024 := lt_trans isKernel (by decide)
    have present := (changes.dirPresent inDir).mp present
    rw [words inDir present inTable]
    exact sound.kernelSpace dirEntry isKernel present pageEntry inTable

theorem Keeps.sound (keeps : Keeps before after) (sound : before.Sound) : after.Sound :=
  (keeps.changes sound 0 1024).sound_of_inUse keeps.inUse sound

/-! ## Pages that go -/

/-- A change of one entry keeps the accounts when `mem_map` follows it. -/
theorem Changes.sound (changes : Changes before after dirEntry pageEntry) (sound : before.Sound)
    (isEntry : before.UserEntry dirEntry pageEntry)
    (counted : ∀ nr, (after.mappers nr).card + (before.tablesAt nr).card ≤ (after.memMap nr).toNat)
    (ones : ∀ nr other otherEntry, (other, otherEntry) ≠ (dirEntry, pageEntry) →
      before.Maps nr other otherEntry → before.memMap nr = 1 → after.memMap nr = 1)
    (here : pagePresent &&& after.word dirEntry pageEntry ≠ 0 →
      pageRw &&& after.word dirEntry pageEntry ≠ 0 → lowMem ≤ after.word dirEntry pageEntry ∧
        after.memMap (mapNr (after.word dirEntry pageEntry)) = 1) : after.Sound := by
  constructor
  · intro other inDir present
    rw [changes.dirs other inDir]
    exact sound.tables other inDir ((changes.dirPresent inDir).mp present)
  · intro first firstIn second secondIn firstPresent secondPresent same
    rw [changes.dirs first firstIn, changes.dirs second secondIn] at same
    exact sound.apart first firstIn second secondIn ((changes.dirPresent firstIn).mp firstPresent)
      ((changes.dirPresent secondIn).mp secondPresent) same
  · intro nr
    rw [changes.tablesAt]
    exact counted nr
  · intro other otherEntry isOther mapped writes
    by_cases same : (other, otherEntry) = (dirEntry, pageEntry)
    · cases same
      exact here mapped writes
    have isOther := changes.userEntry.mp isOther
    rw [changes.words other isOther.isUser.2 isOther.present otherEntry isOther.inTable same]
      at mapped writes ⊢
    obtain ⟨isPage, one⟩ := sound.writable _ _ isOther mapped writes
    exact ⟨isPage, ones _ other otherEntry same ⟨isOther, mapped, isPage, rfl⟩ one⟩
  · intro other isKernel present otherEntry inTable
    have inDir : other < 1024 := lt_trans isKernel (by decide)
    have present := (changes.dirPresent inDir).mp present
    have differs : (other, otherEntry) ≠ (dirEntry, pageEntry) := by
      intro same
      cases same
      exact absurd isEntry.isUser.1 (Nat.not_le.mpr isKernel)
    rw [changes.words other inDir present otherEntry inTable differs]
    exact sound.kernelSpace other isKernel present otherEntry inTable

/-- Two entries that map a page are two references. -/
theorem Sound.two_le (sound : kernel.Sound) {other otherEntry : Nat}
    (maps : kernel.Maps nr dirEntry pageEntry) (otherMaps : kernel.Maps nr other otherEntry)
    (differs : (other, otherEntry) ≠ (dirEntry, pageEntry)) : 2 ≤ (kernel.memMap nr).toNat := by
  have subset : {(dirEntry, pageEntry), (other, otherEntry)} ⊆ kernel.mappers nr := by
    intro pair inside
    rcases Finset.mem_insert.mp inside with rfl | inside
    · exact mem_mappers.mpr maps
    · rw [Finset.mem_singleton.mp inside]
      exact mem_mappers.mpr otherMaps
  have two := Finset.card_le_card subset
  rw [Finset.card_pair differs.symm] at two
  exact (two.trans (Nat.le_add_right _ _)).trans (sound.counted nr)

/-- One reference less, for a page that has lost an entry. -/
theorem Sound.counted_released (sound : kernel.Sound) (changes : Changes kernel after dirEntry pageEntry)
    (maps : kernel.Maps nr dirEntry pageEntry) (notMaps : ¬after.Maps nr dirEntry pageEntry) :
    (after.mappers nr).card + (kernel.tablesAt nr).card ≤ (kernel.memMap nr - 1).toNat := by
  have counted := sound.counted nr
  have positive := Finset.card_pos.mpr ⟨_, mem_mappers.mpr maps⟩
  rw [changes.mappers_of_not notMaps, Finset.card_erase_of_mem (mem_mappers.mpr maps)]
  have one : (1 : UInt8) ≤ kernel.memMap nr := by
    rw [UInt8.le_iff_toNat_le, UInt8.toNat_one]
    omega
  rw [UInt8.toNat_sub_of_le _ _ one, UInt8.toNat_one]
  omega

theorem lowMem_le_of_evicted {ptr : UInt32} (evicted : kernel.tryToSwapOut ptr = .evicted after) :
    lowMem ≤ kernel.memory ptr := by
  rw [tryToSwapOut] at evicted
  dsimp only at evicted
  by_contra isLow
  have outside : kernel.memory ptr - lowMem > pagingMemory :=
    Decidable.not_not.mp fun paging => isLow (lowMem_le_of_paging paging).1
  rw [if_pos outside, ite_self] at evicted
  cases evicted

theorem changes_of_evicts {ptr : UInt32} (evicts : EvictsAt before after ptr) (sound : before.Sound)
    (isEntry : before.UserEntry dirEntry pageEntry) (isPtr : before.entry dirEntry pageEntry = ptr) :
    Changes before after dirEntry pageEntry := by
  have dirs (other : Nat) (inDir : other < 1024) : after.pgDir other = before.pgDir other :=
    evicts.others _ (isPtr ▸ sound.entry_ne_dir isEntry.isUser.2 isEntry.present isEntry.inTable inDir)
  refine ⟨dirs, fun other inDir present otherEntry inTable differs => ?_⟩
  rw [word, word, entry, entry, dirs other inDir]
  refine evicts.others _ fun same => differs ?_
  rw [← isPtr] at same
  obtain ⟨rfl, rfl⟩ := sound.entry_inj inDir present inTable isEntry.isUser.2 isEntry.present
    isEntry.inTable same
  rfl

/-- An eviction keeps the accounts. -/
theorem sound_of_evicts (evicts : EvictsAt before after (before.entry dirEntry pageEntry))
    (sound : before.Sound) (isEntry : before.UserEntry dirEntry pageEntry)
    (isPage : lowMem ≤ before.word dirEntry pageEntry) :
    after.Sound ∧ pagePresent &&& after.word dirEntry pageEntry = 0 := by
  have changes := changes_of_evicts evicts sound isEntry rfl
  have maps : before.Maps (mapNr (before.word dirEntry pageEntry)) dirEntry pageEntry :=
    ⟨isEntry, evicts.present, isPage, rfl⟩
  have absent : pagePresent &&& after.word dirEntry pageEntry = 0 := by
    rw [word, changes.entry isEntry.isUser.2]
    exact evicts.absent
  have notMaps (nr : UInt32) : ¬after.Maps nr dirEntry pageEntry := fun maps => maps.mapped absent
  have freed : after.memMap = Function.update before.memMap
      (mapNr (before.word dirEntry pageEntry))
      (before.memMap (mapNr (before.word dirEntry pageEntry)) - 1) := evicts.freed
  refine ⟨changes.sound sound isEntry (fun nr => ?_) (fun nr other otherEntry differs isOther one => ?_)
    fun mapped => absurd absent mapped, absent⟩
  · by_cases isNr : nr = mapNr (before.word dirEntry pageEntry)
    · rw [isNr, freed, Function.update_self]
      exact sound.counted_released changes maps (notMaps _)
    · rw [freed, Function.update_of_ne isNr, changes.mappers_of_not (notMaps nr)]
      exact (Nat.add_le_add_right (Finset.card_le_card (Finset.erase_subset _ _)) _).trans
        (sound.counted nr)
  · rw [freed, Function.update_of_ne, one]
    intro isNr
    have two := sound.two_le maps (isNr ▸ isOther) differs
    rw [← isNr, one] at two
    exact absurd two (by decide)

end Kernel

/-! ## What `get_free_page` does -/

namespace Pager

open Kernel

/-- The accounts are right, and so are the cursors. -/
structure Sound (pager : Pager) : Prop where
  kernel : pager.kernel.Sound
  cursors : pager.cursors.InRange

/-- Entries are kept, or their pages are swapped out. -/
structure Swaps (before after : Kernel) : Prop where
  dirs : ∀ dirEntry < 1024, after.pgDir dirEntry = before.pgDir dirEntry
  words : ∀ dirEntry pageEntry, before.UserEntry dirEntry pageEntry →
    after.word dirEntry pageEntry = before.word dirEntry pageEntry ∨
      pagePresent &&& after.word dirEntry pageEntry = 0

variable {before after last : Kernel}

theorem Swaps.dirPresent (swaps : Swaps before after) {dirEntry : Nat} (inDir : dirEntry < 1024) :
    after.DirPresent dirEntry ↔ before.DirPresent dirEntry := by
  rw [DirPresent, DirPresent, swaps.dirs dirEntry inDir]

theorem Swaps.userEntry (swaps : Swaps before after) {dirEntry pageEntry : Nat} :
    after.UserEntry dirEntry pageEntry ↔ before.UserEntry dirEntry pageEntry := by
  constructor
  · exact fun isEntry => ⟨isEntry.isUser, (swaps.dirPresent isEntry.isUser.2).mp isEntry.present,
      isEntry.inTable⟩
  · exact fun isEntry => ⟨isEntry.isUser, (swaps.dirPresent isEntry.isUser.2).mpr isEntry.present,
      isEntry.inTable⟩

theorem Swaps.trans (first : Swaps before after) (second : Swaps after last) : Swaps before last where
  dirs dirEntry inDir := (second.dirs dirEntry inDir).trans (first.dirs dirEntry inDir)
  words dirEntry pageEntry isEntry := by
    rcases second.words dirEntry pageEntry (first.userEntry.mpr isEntry) with same | absent
    · rw [same]
      exact first.words dirEntry pageEntry isEntry
    · exact .inr absent

theorem swaps_of_keeps (keeps : Keeps before after) (sound : before.Sound) : Swaps before after where
  dirs := (keeps.changes sound 0 1024).dirs
  words _ _ isEntry := .inl (keeps.word sound isEntry.isUser.2 isEntry.present isEntry.inTable)

theorem swaps_of_changes {dirEntry pageEntry : Nat} (changes : Changes before after dirEntry pageEntry)
    (absent : pagePresent &&& after.word dirEntry pageEntry = 0) : Swaps before after where
  dirs := changes.dirs
  words other otherEntry isEntry := by
    by_cases same : (other, otherEntry) = (dirEntry, pageEntry)
    · cases same
      exact .inr absent
    · exact .inl (changes.words other isEntry.isUser.2 isEntry.present otherEntry isEntry.inTable same)

/-- A page that nobody has. -/
structure Unused (kernel : Kernel) (page : UInt32) : Prop where
  aligned : PageAligned page
  isPage : lowMem ≤ page
  taken : kernel.memMap (mapNr page) = 1
  notMapped : kernel.mappers (mapNr page) = ∅
  noTable : kernel.tablesAt (mapNr page) = ∅

theorem unused_of_fresh {page : UInt32} (fresh : Fresh before after page) (sound : before.Sound) :
    Unused after page := by
  obtain ⟨notMapped, noTable⟩ := sound.unused fresh.wasFree
  refine ⟨fresh.aligned, fresh.isPage, fresh.taken, ?_, ?_⟩
  · rw [fresh.keeps.mappers sound, notMapped]
  · rw [(fresh.keeps.changes sound 0 1024).tablesAt, noTable]

/-- What `get_free_page` returns when it finds a page. -/
structure Finds (before after : Pager) (page : UInt32) : Prop where
  sound : after.Sound
  swaps : Swaps before.kernel after.kernel
  unused : Unused after.kernel page

theorem finds_of_search {before : Pager} {kernel : Kernel} {page : UInt32} (sound : before.Sound)
    (found : before.kernel.getFreePage = some (page, kernel)) :
    Finds before { before with kernel } page :=
  have fresh := getFreePageBelow_fresh le_rfl found
  ⟨⟨fresh.keeps.sound sound.kernel, sound.cursors⟩, swaps_of_keeps fresh.keeps sound.kernel,
    unused_of_fresh fresh sound.kernel⟩

theorem Finds.of_swaps {first second last : Pager} {page : UInt32}
    (swaps : Swaps first.kernel second.kernel) (finds : Finds second last page) :
    Finds first last page := ⟨finds.sound, swaps.trans finds.swaps, finds.unused⟩

theorem swapOut_inRange (kernel : Kernel) {cursors : Cursors} (inRange : cursors.InRange) :
    (kernel.swapOut cursors).2.InRange :=
  kernel.scan_inRange _ _ ⟨kernel.findDir_range _ _ _ inRange.dirEntry, inRange.pageEntry⟩

/-- A page has been swapped out. -/
theorem swapOut_swaps {pager : Pager} {kernel : Kernel} {cursors : Cursors} (sound : pager.Sound)
    (isOut : pager.kernel.swapOut pager.cursors = (.evicted kernel, cursors)) :
    Sound ⟨kernel, cursors⟩ ∧ Swaps pager.kernel kernel := by
  obtain ⟨dirEntry, pageEntry, isEntry, evicted⟩ :=
    exists_userEntry_of_evicted sound.cursors (congrArg Prod.fst isOut)
  have evicts := pager.kernel.tryToSwapOut_spec (pager.kernel.entry dirEntry pageEntry)
  rw [evicted] at evicts
  obtain ⟨isSound, absent⟩ :=
    sound_of_evicts evicts sound.kernel isEntry (lowMem_le_of_evicted evicted)
  have inRange := swapOut_inRange pager.kernel sound.cursors
  rw [isOut] at inRange
  exact ⟨⟨isSound, inRange⟩,
    swaps_of_changes (changes_of_evicts evicts sound.kernel isEntry rfl) absent⟩

theorem searched_swaps {pager : Pager} (sound : pager.Sound) :
    Sound { pager with kernel := pager.kernel.searched } ∧
      Swaps pager.kernel pager.kernel.searched :=
  have keeps := keeps_searched pager.kernel
  ⟨⟨keeps.sound sound.kernel, sound.cursors⟩, swaps_of_keeps keeps sound.kernel⟩

theorem finds_of_swapForPage {before after : Pager} {page : UInt32} (sound : before.Sound)
    (found : before.swapForPage = .ok (some page, after)) : Finds before after page := by
  fun_induction Pager.swapForPage before with
  | case1 pager kernel cursors isOut page' taken isFound =>
      cases found
      obtain ⟨isSound, swaps⟩ := swapOut_swaps sound isOut
      exact (finds_of_search isSound isFound).of_swaps swaps
  | case2 pager kernel cursors isOut isNone ih =>
      obtain ⟨isSound, swaps⟩ := swapOut_swaps sound isOut
      obtain ⟨isSearched, marks⟩ := searched_swaps isSound
      exact (ih isSearched found).of_swaps (swaps.trans marks)
  | case3 => cases found
  | case4 => cases found

/-- A page that is handed out is nobody else's, and on the way to it pages may have been swapped
out. -/
theorem finds_of_getFreePage {before after : Pager} {page : UInt32} (sound : before.Sound)
    (found : before.getFreePage = .ok (some page, after)) : Finds before after page := by
  rw [getFreePage] at found
  split at found
  next page' kernel isFound =>
    cases found
    exact finds_of_search sound isFound
  next =>
    obtain ⟨isSearched, marks⟩ := searched_swaps sound
    exact (finds_of_swapForPage isSearched found).of_swaps marks

end Pager

end Linux012.Mm
