import Linux012.Mm.WriteVerify
import Linux012.Lib.Ownership
import Linux012.Lib.References
import Mathlib.Data.Multiset.Count

/-!
# The books of the memory

`mem_map` is exact: what it counts for a page are the entries of user page tables that map it, the
directory entry that has it as its page table, and the references that the kernel keeps itself.
A page of the swap device is taken when one entry has it, and no two entries have the same.  What
keeps the books is stated for the change of one entry, of one directory entry, and for a page that
is taken or released.
-/

namespace Linux012.Mm

/-! ## What an entry stands for -/

/-- The number of the page that an entry maps. -/
def pageNr (word : UInt32) : Option UInt32 :=
  if pagePresent &&& word ≠ 0 ∧ lowMem ≤ word then some (mapNr word) else none

/-- The page of the swap device that an entry has. -/
def slotNr (word : UInt32) : Option Nat :=
  if pagePresent &&& word = 0 ∧ word >>> 1 ≠ 0 then some (word >>> 1).toNat else none

theorem pageNr_eq_some {word nr : UInt32} : pageNr word = some nr ↔
    pagePresent &&& word ≠ 0 ∧ lowMem ≤ word ∧ mapNr word = nr := by
  rw [pageNr]
  split
  next maps => simp [maps]
  next mapsNot =>
    simp only [reduceCtorEq, false_iff]
    exact fun maps => mapsNot ⟨maps.1, maps.2.1⟩

theorem slotNr_eq_some {word : UInt32} {slot : Nat} : slotNr word = some slot ↔
    pagePresent &&& word = 0 ∧ word >>> 1 ≠ 0 ∧ (word >>> 1).toNat = slot := by
  rw [slotNr]
  split
  next has => simp [has]
  next hasNot =>
    simp only [reduceCtorEq, false_iff]
    exact fun has => hasNot ⟨has.1, has.2.1⟩

theorem pageNr_of_absent {word : UInt32} (absent : pagePresent &&& word = 0) :
    pageNr word = none := if_neg fun maps => maps.1 absent

theorem slotNr_of_present {word : UInt32} (present : pagePresent &&& word ≠ 0) :
    slotNr word = none := if_neg fun has => present has.1

@[simp] theorem pageNr_zero : pageNr 0 = none := by decide

@[simp] theorem slotNr_zero : slotNr 0 = none := by decide

/-- The references to a page that are in no table. -/
def own (reserved : UInt32 → Nat) (held : Multiset UInt32) (nr : UInt32) : Nat :=
  reserved nr + (held.map mapNr).count nr

theorem own_le {reserved : UInt32 → Nat} {held held' : Multiset UInt32} (fewer : held' ≤ held)
    (nr : UInt32) : own reserved held' nr ≤ own reserved held nr :=
  Nat.add_le_add_left (Multiset.count_le_of_le nr (Multiset.map_le_map fewer)) _

theorem own_cons (reserved : UInt32 → Nat) (held : Multiset UInt32) (page nr : UInt32) :
    own reserved (page ::ₘ held) nr =
      own reserved held nr + Lib.refOf (some (mapNr page)) nr := by
  rw [own, own, Multiset.map_cons, Multiset.count_cons, Lib.refOf, Nat.add_assoc]
  simp only [Option.some.injEq, eq_comm]

namespace Kernel

variable (kernel : Kernel)

/-- The entry of a user page table has its page on the swap device. -/
def Stores (slot dirEntry pageEntry : Nat) : Prop :=
  kernel.UserEntry dirEntry pageEntry ∧ slotNr (kernel.word dirEntry pageEntry) = some slot

/-- The page of the swap device was available at first, and is taken. -/
def SlotUsed (available : Nat → Prop) (slot : Nat) : Prop :=
  available slot ∧ ∃ bitmap, kernel.swapBitmap = some bitmap ∧ bitmap slot = false

/-- The taken pages of the swap device have one owner each. -/
structure Slots (available : Nat → Prop) : Prop where
  owners : Lib.Exclusive (kernel.SlotUsed available)
    fun (at' : Nat × Nat) slot => kernel.Stores slot at'.1 at'.2
  free : ∀ bitmap slot, kernel.swapBitmap = some bitmap → bitmap slot = true → available slot
  inDevice : ∀ slot, available slot → 0 < slot ∧ slot < 32768

/-- The entry is empty, or its page is below the memory that is counted. -/
def Low (word : UInt32) : Prop := word = 0 ∨ pagePresent &&& word ≠ 0 ∧ word < lowMem

/-- The first 640 kB of the kernel's addresses, which the first fork copies. -/
def LowSpace : Prop := kernel.DirPresent 0 → ∀ pageEntry < 160, Low (kernel.word 0 pageEntry)

/-- The books are right.  The kernel keeps the pages `held`, and for other purposes than a page of
main memory it has the references `reserved`. -/
structure Books (reserved : UInt32 → Nat) (held : Multiset UInt32) (available : Nat → Prop) :
    Prop where
  sound : kernel.Sound
  exact' : ∀ nr, (kernel.memMap nr).toNat = (kernel.mappers nr).card + (kernel.tablesAt nr).card +
    own reserved held nr
  /-- A page that the kernel keeps is in no table, and is none. -/
  kept : ∀ nr, own reserved held nr ≠ 0 → kernel.mappers nr = ∅ ∧ kernel.tablesAt nr = ∅
  /-- A page table is not mapped. -/
  tables : ∀ nr, kernel.tablesAt nr ≠ ∅ → kernel.mappers nr = ∅
  /-- A page is mapped at one offset in all tasks that share it. -/
  offsets : ∀ nr dirEntry pageEntry other otherEntry, kernel.Maps nr dirEntry pageEntry →
    kernel.Maps nr other otherEntry → dirEntry % 16 = other % 16 ∧ pageEntry = otherEntry
  ends : PageAligned kernel.highMemory
  behind : ∀ page, lowMem ≤ page → kernel.highMemory ≤ page → reserved (mapNr page) ≠ 0
  pages : ∀ page ∈ held, PageAligned page ∧ lowMem ≤ page ∧ reserved (mapNr page) = 0
  once : (held.map mapNr).Nodup
  slots : kernel.Slots available
  lowSpace : kernel.LowSpace

variable {kernel} {before after : Kernel} {nr : UInt32} {dirEntry pageEntry slot : Nat}
variable {reserved : UInt32 → Nat} {held : Multiset UInt32} {available : Nat → Prop}

theorem maps_iff : kernel.Maps nr dirEntry pageEntry ↔
    kernel.UserEntry dirEntry pageEntry ∧ pageNr (kernel.word dirEntry pageEntry) = some nr := by
  rw [pageNr_eq_some]
  exact ⟨fun ⟨isEntry, mapped, isPage, isNr⟩ => ⟨isEntry, mapped, isPage, isNr⟩,
    fun ⟨isEntry, mapped, isPage, isNr⟩ => ⟨isEntry, mapped, isPage, isNr⟩⟩

/-! ## Changes of one entry -/

/-- The entries that map a page change by what the one entry has mapped, and maps. -/
theorem Changes.card_mappers (changes : Changes before after dirEntry pageEntry)
    (isEntry : before.UserEntry dirEntry pageEntry) (nr : UInt32) :
    (after.mappers nr).card + Lib.refOf (pageNr (before.word dirEntry pageEntry)) nr =
      (before.mappers nr).card + Lib.refOf (pageNr (after.word dirEntry pageEntry)) nr := by
  have card (kernel : Kernel) (isEntry : kernel.UserEntry dirEntry pageEntry) :
      (kernel.mappers nr).card = ((kernel.mappers nr).erase (dirEntry, pageEntry)).card +
        Lib.refOf (pageNr (kernel.word dirEntry pageEntry)) nr := by
    by_cases maps : kernel.Maps nr dirEntry pageEntry
    · rw [(maps_iff.mp maps).2, Lib.refOf_self, Finset.card_erase_add_one (mem_mappers.mpr maps)]
    · have notNr : pageNr (kernel.word dirEntry pageEntry) ≠ some nr := fun isNr =>
        maps (maps_iff.mpr ⟨isEntry, isNr⟩)
      rw [Finset.erase_eq_of_notMem fun member => maps (mem_mappers.mp member), Lib.refOf,
        if_neg notNr, Nat.add_zero]
  rw [card before isEntry, card after (changes.userEntry.mpr isEntry), changes.erase_mappers]
  omega

theorem Changes.stores (changes : Changes before after dirEntry pageEntry) {other otherEntry : Nat}
    (differs : (other, otherEntry) ≠ (dirEntry, pageEntry)) :
    after.Stores slot other otherEntry ↔ before.Stores slot other otherEntry := by
  rw [Stores, Stores, changes.userEntry]
  refine and_congr_right fun isEntry => ?_
  rw [changes.words other isEntry.isUser.2 isEntry.present otherEntry isEntry.inTable differs]

theorem Slots.used_of_stores (slots : kernel.Slots available)
    (has : kernel.Stores slot dirEntry pageEntry) : kernel.SlotUsed available slot :=
  (slots.owners.used_iff slot).mpr ⟨(dirEntry, pageEntry), has⟩

/-- What an entry has of the swap device stays, and so does the bit map. -/
theorem Slots.change (slots : before.Slots available)
    (changes : Changes before after dirEntry pageEntry)
    (same : slotNr (after.word dirEntry pageEntry) = slotNr (before.word dirEntry pageEntry))
    (sameBitmap : after.swapBitmap = before.swapBitmap) : after.Slots available where
  owners := by
    refine slots.owners.congr (fun slot => ?_) (fun at' slot => ?_)
    · rw [SlotUsed, SlotUsed, sameBitmap]
    · obtain ⟨other, otherEntry⟩ := at'
      by_cases isIt : (other, otherEntry) = (dirEntry, pageEntry)
      · cases isIt
        rw [Stores, Stores, changes.userEntry, same]
      · exact changes.stores isIt
  free bitmap slot := by
    rw [sameBitmap]
    exact slots.free bitmap slot
  inDevice := slots.inDevice

/-- A page of the swap device is taken for an entry. -/
theorem Slots.take (slots : before.Slots available)
    (changes : Changes before after dirEntry pageEntry)
    (isEntry : before.UserEntry dirEntry pageEntry)
    (isNone : slotNr (before.word dirEntry pageEntry) = none)
    (isSlot : slotNr (after.word dirEntry pageEntry) = some slot) {bitmap : Nat → Bool}
    (isBitmap : before.swapBitmap = some bitmap) (wasFree : bitmap slot = true)
    (taken : after.swapBitmap = some (Function.update bitmap slot false)) :
    after.Slots available where
  owners := by
    have notUsed : ¬before.SlotUsed available slot := by
      rintro ⟨-, bitmap', isBitmap', isUsed⟩
      rw [isBitmap] at isBitmap'
      cases isBitmap'
      rw [wasFree] at isUsed
      cases isUsed
    refine slots.owners.take (dirEntry, pageEntry) notUsed (fun other => ?_) fun at' other => ?_
    · rw [SlotUsed, SlotUsed, isBitmap, taken]
      by_cases same : other = slot
      · subst same
        simp [slots.free bitmap other isBitmap wasFree]
      · simp [same]
    · obtain ⟨other', otherEntry⟩ := at'
      by_cases isIt : (other', otherEntry) = (dirEntry, pageEntry)
      · cases isIt
        rw [Stores, Stores, changes.userEntry, isSlot, isNone]
        simp [isEntry, eq_comm]
      · rw [changes.stores isIt]
        simp [isIt]
  free bitmap' other isBitmap' isFree := by
    rw [taken] at isBitmap'
    cases isBitmap'
    refine slots.free bitmap other isBitmap ?_
    by_cases same : other = slot
    · rw [same, wasFree]
    · rwa [Function.update_of_ne same] at isFree
  inDevice := slots.inDevice

/-- The page of the swap device of an entry is released. -/
theorem Slots.release (slots : before.Slots available)
    (changes : Changes before after dirEntry pageEntry)
    (isEntry : before.UserEntry dirEntry pageEntry)
    (isSlot : slotNr (before.word dirEntry pageEntry) = some slot)
    (isNone : slotNr (after.word dirEntry pageEntry) = none) {bitmap : Nat → Bool}
    (isBitmap : before.swapBitmap = some bitmap)
    (released : after.swapBitmap = some (Function.update bitmap slot true)) :
    after.Slots available where
  owners := by
    refine slots.owners.release (fun other =>
      (?_ : after.SlotUsed available other ↔ before.SlotUsed available other ∧ other ≠ slot))
      fun at' other => ?_
    · rw [SlotUsed, SlotUsed, isBitmap, released]
      by_cases same : other = slot
      · subst same
        simp
      · simp [same]
    · obtain ⟨other', otherEntry⟩ := at'
      by_cases isIt : (other', otherEntry) = (dirEntry, pageEntry)
      · cases isIt
        rw [Stores, Stores, changes.userEntry, isSlot, isNone]
        simp [isEntry, eq_comm]
      · rw [changes.stores isIt]
        refine (and_iff_left_of_imp fun has same => ?_).symm
        subst same
        exact isIt (slots.owners.unique (other', otherEntry) (dirEntry, pageEntry) other has
          ⟨isEntry, isSlot⟩)
  free bitmap' other isBitmap' isFree := by
    rw [released] at isBitmap'
    cases isBitmap'
    by_cases same : other = slot
    · exact same ▸ (slots.used_of_stores ⟨isEntry, isSlot⟩).1
    · rw [Function.update_of_ne same] at isFree
      exact slots.free bitmap other isBitmap isFree
  inDevice := slots.inDevice

/-- When an entry of a user page table is changed, the accounts are right if the new references
are. -/
theorem Changes.sound_of_writable (changes : Changes before after dirEntry pageEntry)
    (sound : before.Sound) (isUser : firstDir ≤ dirEntry ∨ 1024 ≤ pageEntry)
    (counted : ∀ nr, (after.mappers nr).card + (after.tablesAt nr).card ≤ (after.memMap nr).toNat)
    (writable : ∀ other otherEntry, after.UserEntry other otherEntry →
      pagePresent &&& after.word other otherEntry ≠ 0 →
      pageRw &&& after.word other otherEntry ≠ 0 →
      lowMem ≤ after.word other otherEntry ∧
        after.memMap (mapNr (after.word other otherEntry)) = 1) : after.Sound where
  tables other inDir present := by
    rw [changes.dirs other inDir]
    exact sound.tables other inDir ((changes.dirPresent inDir).mp present)
  apart first firstIn second secondIn firstPresent secondPresent same := by
    rw [changes.dirs first firstIn, changes.dirs second secondIn] at same
    exact sound.apart first firstIn second secondIn ((changes.dirPresent firstIn).mp firstPresent)
      ((changes.dirPresent secondIn).mp secondPresent) same
  counted := counted
  writable := writable
  kernelSpace other isKernel present otherEntry inTable := by
    have inDir : other < 1024 := lt_trans isKernel (by decide)
    have present := (changes.dirPresent inDir).mp present
    have differs : (other, otherEntry) ≠ (dirEntry, pageEntry) := by
      intro same
      cases same
      rcases isUser with isUser | outside
      · exact absurd isUser (Nat.not_le.mpr isKernel)
      · exact absurd inTable (Nat.not_lt.mpr outside)
    rw [changes.words other inDir present otherEntry inTable differs]
    exact sound.kernelSpace other isKernel present otherEntry inTable

/-- The change of one entry keeps the books when `mem_map` follows it. -/
theorem Books.change {held' : Multiset UInt32} (books : before.Books reserved held available)
    (changes : Changes before after dirEntry pageEntry)
    (isEntry : before.UserEntry dirEntry pageEntry) (fewer : held' ≤ held)
    (counts : ∀ nr, (after.memMap nr).toNat +
        Lib.refOf (pageNr (before.word dirEntry pageEntry)) nr + own reserved held nr =
      (before.memMap nr).toNat + Lib.refOf (pageNr (after.word dirEntry pageEntry)) nr +
        own reserved held' nr)
    (maps : ∀ nr, pageNr (after.word dirEntry pageEntry) = some nr →
      pageNr (before.word dirEntry pageEntry) ≠ some nr →
        own reserved held' nr = 0 ∧ before.tablesAt nr = ∅ ∧
          ∀ other otherEntry, before.Maps nr other otherEntry → other % 16 = dirEntry % 16 ∧
            otherEntry = pageEntry ∧ pageRw &&& before.word other otherEntry = 0)
    (writes : pagePresent &&& after.word dirEntry pageEntry ≠ 0 →
      pageRw &&& after.word dirEntry pageEntry ≠ 0 → lowMem ≤ after.word dirEntry pageEntry ∧
        after.memMap (mapNr (after.word dirEntry pageEntry)) = 1)
    (sameHigh : after.highMemory = before.highMemory) (slots : after.Slots available) :
    after.Books reserved held' available := by
  have cards := changes.card_mappers isEntry
  have exact' (nr : UInt32) : (after.memMap nr).toNat =
      (after.mappers nr).card + (after.tablesAt nr).card + own reserved held' nr := by
    have counts := counts nr
    have cards := cards nr
    have exact' := books.exact' nr
    rw [changes.tablesAt]
    omega
  -- Where nothing maps the page before, only the new entry can.
  have empty {nr : UInt32} (none : before.mappers nr = ∅)
      (apart : ¬(own reserved held' nr = 0 ∧ before.tablesAt nr = ∅)) : after.mappers nr = ∅ := by
    have cards := cards nr
    have notBefore : pageNr (before.word dirEntry pageEntry) ≠ some nr := fun isNr => by
      have member := mem_mappers.mpr (maps_iff.mpr ⟨isEntry, isNr⟩)
      rw [none] at member
      cases member
    have notAfter : pageNr (after.word dirEntry pageEntry) ≠ some nr := fun isNr =>
      apart ⟨(maps nr isNr notBefore).1, (maps nr isNr notBefore).2.1⟩
    rw [Lib.refOf, Lib.refOf, if_neg notBefore, if_neg notAfter, none, Finset.card_empty,
      Nat.add_zero, Nat.add_zero] at cards
    exact Finset.card_eq_zero.mp cards
  -- A new mapping has the offset of the others.
  have offset {nr : UInt32} {other otherEntry : Nat} (isNew : after.Maps nr dirEntry pageEntry)
      (isOther : after.Maps nr other otherEntry) :
      other % 16 = dirEntry % 16 ∧ otherEntry = pageEntry := by
    by_cases same : (other, otherEntry) = (dirEntry, pageEntry)
    · cases same
      exact ⟨rfl, rfl⟩
    have before' := (changes.maps same).mp isOther
    by_cases wasNr : pageNr (before.word dirEntry pageEntry) = some nr
    · exact books.offsets nr _ _ _ _ before' (maps_iff.mpr ⟨isEntry, wasNr⟩)
    · obtain ⟨-, -, others⟩ := maps nr (maps_iff.mp isNew).2 wasNr
      exact ⟨(others _ _ before').1, (others _ _ before').2.1⟩
  refine {
    sound := ?_
    exact' := exact'
    kept := fun nr keeps => ?_
    tables := fun nr isTable => ?_
    offsets := fun nr other otherEntry last lastEntry isOther isLast => ?_
    ends := sameHigh ▸ books.ends
    behind := sameHigh ▸ books.behind
    pages := fun page member => books.pages page (Multiset.mem_of_le fewer member)
    once := Multiset.nodup_of_le (Multiset.map_le_map fewer) books.once
    slots := slots
    lowSpace := fun present pageEntry inTable => ?_ }
  · refine changes.sound_of_writable books.sound (.inl isEntry.isUser.1) (fun nr => ?_)
      fun other otherEntry isOther mapped isWritable => ?_
    · rw [exact' nr]
      exact Nat.le_add_right _ _
    by_cases same : (other, otherEntry) = (dirEntry, pageEntry)
    · cases same
      exact writes mapped isWritable
    have isOther := changes.userEntry.mp isOther
    rw [changes.words other isOther.isUser.2 isOther.present otherEntry isOther.inTable same]
      at mapped isWritable ⊢
    obtain ⟨isPage, one⟩ := books.sound.writable _ _ isOther mapped isWritable
    refine ⟨isPage, ?_⟩
    have otherMaps : before.Maps (mapNr (before.word other otherEntry)) other otherEntry :=
      ⟨isOther, mapped, isPage, rfl⟩
    generalize mapNr (before.word other otherEntry) = nr at one otherMaps
    -- The entry is the only reference before, and the new entry does not add one.
    have exactly := books.exact' nr
    have positive := Finset.card_pos.mpr ⟨_, mem_mappers.mpr otherMaps⟩
    rw [one, UInt8.toNat_one] at exactly
    have notBefore : pageNr (before.word dirEntry pageEntry) ≠ some nr := fun isNr => by
      have two := books.sound.two_le (maps_iff.mpr ⟨isEntry, isNr⟩) otherMaps same
      rw [one] at two
      exact absurd two (by decide)
    have notAfter : pageNr (after.word dirEntry pageEntry) ≠ some nr := fun isNr =>
      isWritable ((maps nr isNr notBefore).2.2 _ _ otherMaps).2.2
    have counts := counts nr
    have fewer : own reserved held' nr ≤ own reserved held nr := own_le fewer nr
    rw [Lib.refOf, Lib.refOf, if_neg notBefore, if_neg notAfter, one, UInt8.toNat_one] at counts
    apply UInt8.toNat_inj.mp
    rw [UInt8.toNat_one]
    omega
  · have keptBefore : own reserved held nr ≠ 0 :=
      (Nat.lt_of_lt_of_le (Nat.pos_of_ne_zero keeps) (own_le fewer nr)).ne'
    obtain ⟨none, noTable⟩ := books.kept nr keptBefore
    exact ⟨empty none fun both => keeps both.1, by rw [changes.tablesAt, noTable]⟩
  · rw [changes.tablesAt] at isTable
    exact empty (books.tables nr isTable) fun both => isTable both.2
  · by_cases first : (other, otherEntry) = (dirEntry, pageEntry)
    · cases first
      obtain ⟨sameDir, sameEntry⟩ := offset isOther isLast
      exact ⟨sameDir.symm, sameEntry.symm⟩
    by_cases second : (last, lastEntry) = (dirEntry, pageEntry)
    · cases second
      exact offset isLast isOther
    · exact books.offsets nr _ _ _ _ ((changes.maps first).mp isOther)
        ((changes.maps second).mp isLast)
  · have isPresent := (changes.dirPresent (by decide)).mp present
    rw [changes.words 0 (by decide) isPresent pageEntry (by omega) fun same =>
      absurd isEntry.isUser.1 ((Prod.mk.inj same).1 ▸ by decide)]
    exact books.lowSpace isPresent pageEntry inTable

/-! ## Pages that are in no table -/

theorem Changes.stores_eq (changes : Changes before after 0 1024) (slot : Nat) :
    after.Stores slot = before.Stores slot := by
  funext other otherEntry
  by_cases isIt : (other, otherEntry) = (0, 1024)
  · cases isIt
    exact propext ⟨fun has => absurd has.1.inTable (by decide),
      fun has => absurd has.1.inTable (by decide)⟩
  · exact propext (changes.stores isIt)

/-- Where no entry is changed, the books follow the pages that the kernel takes and releases, and
the bit map of the swap device. -/
theorem Books.quiet_of_slots {held' : Multiset UInt32} {available' : Nat → Prop}
    (books : before.Books reserved held available)
    (changes : Changes before after 0 1024)
    (counts : ∀ nr, (after.memMap nr).toNat + own reserved held nr =
      (before.memMap nr).toNat + own reserved held' nr)
    (kept : ∀ nr, own reserved held' nr ≠ 0 → before.mappers nr = ∅ ∧ before.tablesAt nr = ∅)
    (pages : ∀ page ∈ held', PageAligned page ∧ lowMem ≤ page ∧ reserved (mapNr page) = 0)
    (once : (held'.map mapNr).Nodup) (sameHigh : after.highMemory = before.highMemory)
    (slots : after.Slots available') : after.Books reserved held' available' := by
  have exact' (nr : UInt32) : (after.memMap nr).toNat =
      (after.mappers nr).card + (after.tablesAt nr).card + own reserved held' nr := by
    have counts := counts nr
    have exact' := books.exact' nr
    rw [changes.tablesAt, changes.mappers_eq]
    omega
  refine {
    sound := ?_
    exact' := exact'
    kept := fun nr keeps => by
      rw [changes.tablesAt, changes.mappers_eq]
      exact kept nr keeps
    tables := fun nr isTable => by
      rw [changes.tablesAt] at isTable
      rw [changes.mappers_eq]
      exact books.tables nr isTable
    offsets := fun nr other otherEntry last lastEntry isOther isLast => ?_
    ends := sameHigh ▸ books.ends
    behind := sameHigh ▸ books.behind
    pages := pages
    once := once
    slots := slots
    lowSpace := fun present pageEntry inTable => ?_ }
  · refine changes.sound_of_writable books.sound (.inr le_rfl) (fun nr => ?_)
      fun other otherEntry isOther mapped isWritable => ?_
    · rw [exact' nr]
      exact Nat.le_add_right _ _
    have isOther := changes.userEntry.mp isOther
    have differs : (other, otherEntry) ≠ (0, 1024) := fun same =>
      absurd (Prod.mk.inj same).2 isOther.inTable.ne
    rw [changes.words other isOther.isUser.2 isOther.present otherEntry isOther.inTable differs]
      at mapped isWritable ⊢
    obtain ⟨isPage, one⟩ := books.sound.writable _ _ isOther mapped isWritable
    have member := mem_mappers.mpr
      (show before.Maps (mapNr (before.word other otherEntry)) other otherEntry from
        ⟨isOther, mapped, isPage, rfl⟩)
    have notKept {pages : Multiset UInt32} (kept : own reserved pages
        (mapNr (before.word other otherEntry)) ≠ 0 →
          before.mappers (mapNr (before.word other otherEntry)) = ∅) :
        own reserved pages (mapNr (before.word other otherEntry)) = 0 :=
      Decidable.byContradiction fun keeps => by
        rw [kept keeps] at member
        cases member
    have counts := counts (mapNr (before.word other otherEntry))
    rw [notKept fun keeps => (books.kept _ keeps).1, notKept fun keeps => (kept _ keeps).1, one]
      at counts
    exact ⟨isPage, UInt8.toNat_inj.mp counts⟩
  · have differs {other otherEntry : Nat} (isOther : after.Maps nr other otherEntry) :
        (other, otherEntry) ≠ (0, 1024) := fun same =>
      absurd (Prod.mk.inj same).2 isOther.inTable.ne
    exact books.offsets nr _ _ _ _ ((changes.maps (differs isOther)).mp isOther)
      ((changes.maps (differs isLast)).mp isLast)
  · have isPresent := (changes.dirPresent (by decide)).mp present
    rw [changes.words 0 (by decide) isPresent pageEntry (by omega) fun same => by
      have same := (Prod.mk.inj same).2
      omega]
    exact books.lowSpace isPresent pageEntry inTable

/-- The books follow the pages that the kernel takes and releases. -/
theorem Books.quiet {held' : Multiset UInt32} (books : before.Books reserved held available)
    (changes : Changes before after 0 1024)
    (counts : ∀ nr, (after.memMap nr).toNat + own reserved held nr =
      (before.memMap nr).toNat + own reserved held' nr)
    (kept : ∀ nr, own reserved held' nr ≠ 0 → before.mappers nr = ∅ ∧ before.tablesAt nr = ∅)
    (pages : ∀ page ∈ held', PageAligned page ∧ lowMem ≤ page ∧ reserved (mapNr page) = 0)
    (once : (held'.map mapNr).Nodup) (sameHigh : after.highMemory = before.highMemory)
    (sameBitmap : after.swapBitmap = before.swapBitmap) :
    after.Books reserved held' available := by
  refine books.quiet_of_slots changes counts kept pages once sameHigh {
    owners := books.slots.owners.congr (fun slot => ?_) fun at' slot => ?_
    free := fun bitmap slot => sameBitmap ▸ books.slots.free bitmap slot
    inDevice := books.slots.inDevice }
  · rw [SlotUsed, SlotUsed, sameBitmap]
  · rw [changes.stores_eq]

namespace Books

/-- A page that the kernel keeps is nobody else's. -/
theorem of_mem {page : UInt32} (books : kernel.Books reserved held available)
    (isHeld : page ∈ held) : own reserved held (mapNr page) = 1 ∧
      kernel.memMap (mapNr page) = 1 ∧ kernel.mappers (mapNr page) = ∅ ∧
      kernel.tablesAt (mapNr page) = ∅ := by
  have count := Multiset.count_eq_one_of_mem books.once (Multiset.mem_map_of_mem mapNr isHeld)
  have isOwn : own reserved held (mapNr page) = 1 := by
    rw [own, (books.pages page isHeld).2.2, count]
  obtain ⟨notMapped, noTable⟩ := books.kept (mapNr page) (by rw [isOwn]; decide)
  have exactly := books.exact' (mapNr page)
  rw [isOwn, notMapped, noTable] at exactly
  exact ⟨isOwn, UInt8.toNat_inj.mp exactly, notMapped, noTable⟩

theorem unused {page : UInt32} (books : kernel.Books reserved held available)
    (isHeld : page ∈ held) : Pager.Unused kernel page :=
  have ⟨aligned, isPage, _⟩ := books.pages page isHeld
  have ⟨_, taken, notMapped, noTable⟩ := books.of_mem isHeld
  ⟨aligned, isPage, taken, notMapped, noTable⟩

/-- A page without references is in the memory that there is. -/
theorem below_of_free {page : UInt32} (books : kernel.Books reserved held available)
    (isPage : lowMem ≤ page) (none : own reserved held (mapNr page) = 0) :
    page < kernel.highMemory :=
  UInt32.not_le.mp fun tooHigh =>
    books.behind page isPage tooHigh (Nat.eq_zero_of_add_eq_zero_right none)

theorem own_of_free (books : kernel.Books reserved held available)
    (isFree : kernel.memMap nr = 0) : own reserved held nr = 0 := by
  have exactly := books.exact' nr
  rw [isFree, UInt8.toNat_zero] at exactly
  omega

/-- Where a page is mapped, it is in memory, and the kernel does not keep it. -/
theorem of_maps (books : kernel.Books reserved held available)
    (maps : kernel.Maps nr dirEntry pageEntry) :
    own reserved held nr = 0 ∧ kernel.tablesAt nr = ∅ ∧ kernel.memMap nr ≠ 0 ∧
      kernel.word dirEntry pageEntry < kernel.highMemory := by
  have member := mem_mappers.mpr maps
  have none : own reserved held nr = 0 := Decidable.byContradiction fun keeps => by
    rw [(books.kept nr keeps).1] at member
    cases member
  have noTable : kernel.tablesAt nr = ∅ := Decidable.byContradiction fun isTable => by
    rw [books.tables nr isTable] at member
    cases member
  have exactly := books.exact' nr
  have positive := Finset.card_pos.mpr ⟨_, member⟩
  refine ⟨none, noTable, fun isZero => ?_, books.below_of_free maps.isPage (maps.isNr ▸ none)⟩
  rw [isZero, UInt8.toNat_zero] at exactly
  omega

/-- The kernel takes a page. -/
theorem takes {nr : Nat} (books : kernel.Books reserved held available) (isPage : nr < pagingPages)
    (isFree : kernel.memMap (UInt32.ofNat nr) = 0) :
    (kernel.take nr).Books reserved (pageAddr nr ::ₘ held) available := by
  have isNr := mapNr_pageAddr isPage
  have keeps : Keeps kernel (kernel.take nr) :=
    ⟨fun _ inUse => take_memMap_of_ne isFree inUse, fun _ => take_memory isPage isFree⟩
  have none := books.own_of_free isFree
  have unused := books.sound.unused isFree
  have marked : (kernel.take nr).memMap = Function.update kernel.memMap (UInt32.ofNat nr) 1 := rfl
  refine books.quiet (keeps.changes books.sound 0 1024) (fun other => ?_) (fun other keeps => ?_)
    (fun page member => ?_) ?_ rfl rfl
  · rw [own_cons, isNr]
    by_cases same : other = UInt32.ofNat nr
    · rw [same, marked, Function.update_self, isFree, Lib.refOf_self, UInt8.toNat_one,
        UInt8.toNat_zero]
      omega
    · rw [marked, Function.update_of_ne same, Lib.refOf_of_ne (Ne.symm same), Nat.add_zero]
  · rw [own_cons, isNr] at keeps
    by_cases same : other = UInt32.ofNat nr
    · rw [same]
      exact unused
    · rw [Lib.refOf_of_ne (Ne.symm same), Nat.add_zero] at keeps
      exact books.kept other keeps
  · rcases Multiset.mem_cons.mp member with rfl | isHeld
    · exact ⟨pageAddr_aligned isPage, lowMem_le_pageAddr isPage,
        isNr ▸ Nat.eq_zero_of_add_eq_zero_right none⟩
    · exact books.pages page isHeld
  · rw [Multiset.map_cons, Multiset.nodup_cons, isNr]
    exact ⟨Multiset.count_eq_zero.mp (Nat.eq_zero_of_add_eq_zero_left none), books.once⟩

/-- `free_page` of a page that the kernel keeps. -/
theorem frees {page : UInt32} (books : kernel.Books reserved (page ::ₘ held) available) :
    ∃ after, kernel.freePage page = some after ∧ after.Books reserved held available := by
  have isHeld : page ∈ page ::ₘ held := Multiset.mem_cons_self page held
  obtain ⟨-, isPage, notReserved⟩ := books.pages page isHeld
  obtain ⟨isOwn, taken, notMapped, noTable⟩ := books.of_mem isHeld
  have below : page < kernel.highMemory := UInt32.not_le.mp fun tooHigh =>
    books.behind page isPage tooHigh notReserved
  have inUse : kernel.memMap (mapNr page) ≠ 0 := by
    rw [taken]
    decide
  refine ⟨_, by rw [freePage, if_neg (UInt32.not_lt.mpr isPage),
    if_neg (UInt32.not_le.mpr below), if_neg inUse], ?_⟩
  refine books.quiet ⟨fun _ _ => rfl, fun _ _ _ _ _ _ => rfl⟩ (fun other => ?_)
    (fun other keeps => books.kept other fun none => keeps ?_)
    (fun other member => books.pages other (Multiset.mem_cons_of_mem member)) ?_ rfl rfl
  · rw [own_cons]
    dsimp only
    by_cases same : other = mapNr page
    · have zero : ((1 : UInt8) - 1).toNat = 0 := rfl
      rw [same, Function.update_self, taken, Lib.refOf_self, zero, UInt8.toNat_one]
      omega
    · rw [Function.update_of_ne same, Lib.refOf_of_ne (Ne.symm same), Nat.add_zero]
  · rw [own_cons] at none
    exact Nat.eq_zero_of_add_eq_zero_right none
  · exact (Multiset.nodup_cons.mp (Multiset.map_cons mapNr page held ▸ books.once)).2

end Books

/-! ## Changes of one directory entry -/

/-- The number of the page table of a directory entry. -/
def tableNr (dir : UInt32) : Option UInt32 :=
  if dir &&& 1 ≠ 0 ∧ lowMem ≤ dir &&& frameMask then some (mapNr dir) else none

theorem tableNr_eq_some {dir : UInt32} : tableNr dir = some nr ↔
    dir &&& 1 ≠ 0 ∧ lowMem ≤ dir &&& frameMask ∧ mapNr dir = nr := by
  rw [tableNr]
  split
  next has => simp [has]
  next hasNot =>
    simp only [reduceCtorEq, false_iff]
    exact fun has => hasNot ⟨has.1, has.2.1⟩

theorem mem_tablesAt_iff (inDir : dirEntry < 1024) :
    dirEntry ∈ kernel.tablesAt nr ↔ tableNr (kernel.pgDir dirEntry) = some nr := by
  rw [mem_tablesAt, tableNr_eq_some]
  exact and_iff_right inDir

/-- No other directory entry is changed, and no entry of another page table. -/
structure DirChanges (before after : Kernel) (dirEntry : Nat) : Prop where
  dirs : ∀ other < 1024, other ≠ dirEntry → after.pgDir other = before.pgDir other
  words : ∀ other < 1024, other ≠ dirEntry → before.DirPresent other → ∀ pageEntry < 1024,
    after.word other pageEntry = before.word other pageEntry

/-- There is no page table, or there is nothing in it. -/
def EmptyTable (kernel : Kernel) (dirEntry : Nat) : Prop :=
  kernel.DirPresent dirEntry → ∀ pageEntry < 1024, kernel.word dirEntry pageEntry = 0

namespace DirChanges

variable (changes : DirChanges before after dirEntry)
include changes

theorem dirPresent {other : Nat} (inDir : other < 1024) (differs : other ≠ dirEntry) :
    after.DirPresent other ↔ before.DirPresent other := by
  rw [DirPresent, DirPresent, changes.dirs other inDir differs]

theorem userEntry {other otherEntry : Nat} (differs : other ≠ dirEntry) :
    after.UserEntry other otherEntry ↔ before.UserEntry other otherEntry := by
  constructor
  · exact fun isEntry => ⟨isEntry.isUser,
      (changes.dirPresent isEntry.isUser.2 differs).mp isEntry.present, isEntry.inTable⟩
  · exact fun isEntry => ⟨isEntry.isUser,
      (changes.dirPresent isEntry.isUser.2 differs).mpr isEntry.present, isEntry.inTable⟩

variable (wasEmpty : EmptyTable before dirEntry) (isEmpty : EmptyTable after dirEntry)
include wasEmpty isEmpty

/-- An entry that is not empty is as it was. -/
theorem entry_iff {other otherEntry : Nat} (holds : UInt32 → Prop) (notZero : ¬holds 0) :
    after.UserEntry other otherEntry ∧ holds (after.word other otherEntry) ↔
      before.UserEntry other otherEntry ∧ holds (before.word other otherEntry) := by
  by_cases differs : other = dirEntry
  · subst differs
    constructor
    · rintro ⟨isEntry, has⟩
      rw [isEmpty isEntry.present otherEntry isEntry.inTable] at has
      exact absurd has notZero
    · rintro ⟨isEntry, has⟩
      rw [wasEmpty isEntry.present otherEntry isEntry.inTable] at has
      exact absurd has notZero
  · rw [changes.userEntry differs]
    refine and_congr_right fun isEntry => ?_
    rw [changes.words other isEntry.isUser.2 differs isEntry.present otherEntry isEntry.inTable]

theorem maps {other otherEntry : Nat} :
    after.Maps nr other otherEntry ↔ before.Maps nr other otherEntry := by
  rw [maps_iff, maps_iff]
  exact changes.entry_iff wasEmpty isEmpty (fun word => pageNr word = some nr) (by simp)

theorem mappers (nr : UInt32) : after.mappers nr = before.mappers nr := by
  ext ⟨other, otherEntry⟩
  rw [mem_mappers, mem_mappers, changes.maps wasEmpty isEmpty]

theorem stores {other otherEntry : Nat} :
    after.Stores slot other otherEntry ↔ before.Stores slot other otherEntry :=
  changes.entry_iff wasEmpty isEmpty (fun word => slotNr word = some slot) (by simp)

omit wasEmpty isEmpty in
theorem card_tablesAt (inDir : dirEntry < 1024) (nr : UInt32) :
    (after.tablesAt nr).card + Lib.refOf (tableNr (before.pgDir dirEntry)) nr =
      (before.tablesAt nr).card + Lib.refOf (tableNr (after.pgDir dirEntry)) nr := by
  have card (kernel : Kernel) : (kernel.tablesAt nr).card =
      ((kernel.tablesAt nr).erase dirEntry).card +
        Lib.refOf (tableNr (kernel.pgDir dirEntry)) nr := by
    by_cases isTable : dirEntry ∈ kernel.tablesAt nr
    · rw [(mem_tablesAt_iff inDir).mp isTable, Lib.refOf_self, Finset.card_erase_add_one isTable]
    · have notNr : tableNr (kernel.pgDir dirEntry) ≠ some nr := fun isNr =>
        isTable ((mem_tablesAt_iff inDir).mpr isNr)
      rw [Finset.erase_eq_of_notMem isTable, Lib.refOf, if_neg notNr, Nat.add_zero]
  have others : (after.tablesAt nr).erase dirEntry = (before.tablesAt nr).erase dirEntry := by
    ext other
    rw [Finset.mem_erase, Finset.mem_erase]
    refine and_congr_right fun differs => ?_
    by_cases otherIn : other < 1024
    · rw [mem_tablesAt_iff otherIn, mem_tablesAt_iff otherIn, changes.dirs other otherIn differs]
    · exact iff_of_false (fun isTable => otherIn (mem_tablesAt.mp isTable).1)
        fun isTable => otherIn (mem_tablesAt.mp isTable).1
  rw [card before, card after, others]
  omega

end DirChanges

/-- An empty page table comes or goes, and the books follow it. -/
theorem Books.changeDir {held' : Multiset UInt32} (books : before.Books reserved held available)
    (changes : DirChanges before after dirEntry) (isUser : firstDir ≤ dirEntry ∧ dirEntry < 1024)
    (wasEmpty : EmptyTable before dirEntry) (isEmpty : EmptyTable after dirEntry)
    (fewer : held' ≤ held)
    (counts : ∀ nr, (after.memMap nr).toNat + Lib.refOf (tableNr (before.pgDir dirEntry)) nr +
        own reserved held nr =
      (before.memMap nr).toNat + Lib.refOf (tableNr (after.pgDir dirEntry)) nr +
        own reserved held' nr)
    (inMemory : after.DirPresent dirEntry → lowMem ≤ after.pgDir dirEntry &&& frameMask)
    (unused : ∀ nr, tableNr (after.pgDir dirEntry) = some nr → own reserved held' nr = 0 ∧
      before.mappers nr = ∅ ∧ before.tablesAt nr = ∅)
    (sameHigh : after.highMemory = before.highMemory)
    (sameBitmap : after.swapBitmap = before.swapBitmap) :
    after.Books reserved held' available := by
  have cards := changes.card_tablesAt isUser.2
  have mappers := changes.mappers wasEmpty isEmpty
  have exact' (nr : UInt32) : (after.memMap nr).toNat =
      (after.mappers nr).card + (after.tablesAt nr).card + own reserved held' nr := by
    have counts := counts nr
    have cards := cards nr
    have exact' := books.exact' nr
    rw [mappers]
    omega
  -- A page that is no table before is one only if it is the new one.
  have noTable {nr : UInt32} (none : before.tablesAt nr = ∅)
      (notNew : tableNr (after.pgDir dirEntry) ≠ some nr) : after.tablesAt nr = ∅ := by
    have cards := cards nr
    rw [none, Finset.card_empty, Lib.refOf, Lib.refOf, if_neg notNew] at cards
    exact Finset.card_eq_zero.mp (by omega)
  have differs {other : Nat} (inDir : other < 1024) (present : after.DirPresent other)
      (isDir : other ≠ dirEntry) (isHere : after.DirPresent dirEntry) :
      after.pgDir other &&& frameMask ≠ after.pgDir dirEntry &&& frameMask := by
    intro same
    have isPage := inMemory isHere
    have isNr : tableNr (after.pgDir dirEntry) = some (mapNr (after.pgDir dirEntry)) :=
      tableNr_eq_some.mpr ⟨isHere, isPage, rfl⟩
    have member : other ∈ before.tablesAt (mapNr (after.pgDir dirEntry)) := by
      rw [mem_tablesAt_iff inDir, ← changes.dirs other inDir isDir, tableNr_eq_some]
      exact ⟨present, same ▸ isPage, by rw [← mapNr_frame, same, mapNr_frame]⟩
    rw [(unused _ isNr).2.2] at member
    cases member
  refine {
    sound := ?_
    exact' := exact'
    kept := fun nr keeps => ?_
    tables := fun nr isTable => ?_
    offsets := fun nr other otherEntry last lastEntry isOther isLast =>
      books.offsets nr _ _ _ _ ((changes.maps wasEmpty isEmpty).mp isOther)
        ((changes.maps wasEmpty isEmpty).mp isLast)
    ends := sameHigh ▸ books.ends
    behind := sameHigh ▸ books.behind
    pages := fun page member => books.pages page (Multiset.mem_of_le fewer member)
    once := Multiset.nodup_of_le (Multiset.map_le_map fewer) books.once
    slots := ?_
    lowSpace := fun present pageEntry inTable => ?_ }
  · constructor
    · intro other inDir present
      by_cases isDir : other = dirEntry
      · subst isDir
        intro isZero
        have isPage := inMemory present
        rw [isZero] at isPage
        exact absurd isPage (by decide)
      · rw [changes.dirs other inDir isDir]
        exact books.sound.tables other inDir ((changes.dirPresent inDir isDir).mp present)
    · intro first firstIn second secondIn firstPresent secondPresent same
      by_cases isFirst : first = dirEntry
      · by_cases isSecond : second = dirEntry
        · rw [isFirst, isSecond]
        · exact absurd same.symm (isFirst ▸ differs secondIn secondPresent isSecond
            (isFirst ▸ firstPresent))
      · by_cases isSecond : second = dirEntry
        · exact absurd same (isSecond ▸ differs firstIn firstPresent isFirst
            (isSecond ▸ secondPresent))
        · rw [changes.dirs first firstIn isFirst, changes.dirs second secondIn isSecond] at same
          exact books.sound.apart first firstIn second secondIn
            ((changes.dirPresent firstIn isFirst).mp firstPresent)
            ((changes.dirPresent secondIn isSecond).mp secondPresent) same
    · intro nr
      rw [exact' nr]
      exact Nat.le_add_right _ _
    · intro other otherEntry isOther mapped isWritable
      have isDir : other ≠ dirEntry := fun same => by
        subst same
        rw [isEmpty isOther.present otherEntry isOther.inTable] at mapped
        exact mapped rfl
      have isOther := (changes.userEntry isDir).mp isOther
      rw [changes.words other isOther.isUser.2 isDir isOther.present otherEntry isOther.inTable]
        at mapped isWritable ⊢
      obtain ⟨isPage, one⟩ := books.sound.writable _ _ isOther mapped isWritable
      refine ⟨isPage, ?_⟩
      have maps : before.Maps (mapNr (before.word other otherEntry)) other otherEntry :=
        ⟨isOther, mapped, isPage, rfl⟩
      obtain ⟨none, notTable, -, -⟩ := books.of_maps maps
      generalize mapNr (before.word other otherEntry) = nr at one maps none notTable
      have notNew : tableNr (after.pgDir dirEntry) ≠ some nr := fun isNr => by
        have member := mem_mappers.mpr maps
        rw [(unused nr isNr).2.1] at member
        cases member
      have wasNot : tableNr (before.pgDir dirEntry) ≠ some nr := fun isNr => by
        have member := (mem_tablesAt_iff isUser.2).mpr isNr
        rw [notTable] at member
        cases member
      have counts := counts nr
      have fewer : own reserved held' nr ≤ own reserved held nr := own_le fewer nr
      rw [Lib.refOf, Lib.refOf, if_neg notNew, if_neg wasNot, one, UInt8.toNat_one] at counts
      apply UInt8.toNat_inj.mp
      rw [UInt8.toNat_one]
      omega
    · intro other isKernel present otherEntry inTable
      have inDir : other < 1024 := lt_trans isKernel (by decide)
      have isDir : other ≠ dirEntry := fun same =>
        absurd isUser.1 (Nat.not_le.mpr (same ▸ isKernel))
      have present := (changes.dirPresent inDir isDir).mp present
      rw [changes.words other inDir isDir present otherEntry inTable]
      exact books.sound.kernelSpace other isKernel present otherEntry inTable
  · have keptBefore : own reserved held nr ≠ 0 :=
      (Nat.lt_of_lt_of_le (Nat.pos_of_ne_zero keeps) (own_le fewer nr)).ne'
    obtain ⟨none, notTable⟩ := books.kept nr keptBefore
    exact ⟨by rw [mappers, none], noTable notTable fun isNr => keeps (unused nr isNr).1⟩
  · rw [mappers]
    by_cases isNew : tableNr (after.pgDir dirEntry) = some nr
    · exact (unused nr isNew).2.1
    · exact books.tables nr fun none => isTable (noTable none isNew)
  · exact {
      owners := books.slots.owners.congr (fun slot => by rw [SlotUsed, SlotUsed, sameBitmap])
        fun at' slot => changes.stores wasEmpty isEmpty
      free := fun bitmap slot => sameBitmap ▸ books.slots.free bitmap slot
      inDevice := books.slots.inDevice }
  · have differs : 0 ≠ dirEntry := fun same => absurd isUser.1 (same ▸ by decide)
    have isPresent := (changes.dirPresent (by decide) differs).mp present
    rw [changes.words 0 (by decide) differs isPresent pageEntry (by omega)]
    exact books.lowSpace isPresent pageEntry inTable

end Kernel

end Linux012.Mm
