import Linux012.Mm.Accounts

/-!
# Pages that are copied before they are written

`un_wp_page` and `write_verify` of `memory.c`, and `verify_area` of `fork.c`.
-/

namespace Linux012.Mm

open Kernel

/-! ## The functions -/

/-- `copy_page`. -/
def Kernel.copyPage (kernel : Kernel) (source target : UInt32) : Kernel :=
  { kernel with memory := fun ptr =>
      if ptr &&& frameMask = target then kernel.memory (source + (ptr - target))
      else kernel.memory ptr }

/-- `mem_map[MAP_NR(page)]--`, for a page that `mem_map` has. -/
def Kernel.release (kernel : Kernel) (page : UInt32) : Kernel :=
  if lowMem ≤ page then
    { kernel with
      memMap := Function.update kernel.memMap (mapNr page) (kernel.memMap (mapNr page) - 1) }
  else kernel

namespace Pager

def unWpPage (pager : Pager) (tableEntry : UInt32) : Except Stop Pager :=
  let oldPage := pager.kernel.memory tableEntry &&& frameMask
  if lowMem ≤ oldPage ∧ pager.kernel.memMap (mapNr oldPage) = 1 then
    .ok { pager with
      kernel := pager.kernel.store tableEntry (pager.kernel.memory tableEntry ||| 2) }
  else
    match pager.getFreePage with
    | .error stop => .error stop
    | .ok (none, _) => .error .oom
    | .ok (some newPage, pager) => .ok { pager with
        kernel := ((pager.kernel.release oldPage).copyPage oldPage newPage).store tableEntry
          (newPage ||| 7) }

def writeVerify (pager : Pager) (address : UInt32) : Except Stop Pager :=
  let page := pager.kernel.memory ((address >>> 20) &&& 0xffc)
  if page &&& 1 = 0 then .ok pager
  else
    let page := (page &&& frameMask) + ((address >>> 10) &&& 0xffc)
    if 3 &&& pager.kernel.memory page = 1 then pager.unWpPage page else .ok pager

/-- The loop of `verify_area`. -/
def verifyLoop (pager : Pager) (size : Int) (start : UInt32) : Except Stop Pager :=
  if 0 < size then
    match pager.writeVerify start with
    | .error stop => .error stop
    | .ok pager => pager.verifyLoop (size - 4096) (start + 4096)
  else .ok pager
termination_by size.toNat

/-- `verify_area`, of a task with its data segment at `base`.  The sum that the loop starts with is
an `int`. -/
def verifyArea (pager : Pager) (base addr : UInt32) (size : Int) : Except Stop Pager :=
  pager.verifyLoop (Int.bmod (size + (addr &&& 0xfff).toNat) (2 ^ 32)) ((addr &&& frameMask) + base)

end Pager

/-! ## Words of the tables -/

theorem and_or_distrib (mask word bits : UInt32) :
    mask &&& (word ||| bits) = mask &&& word ||| mask &&& bits :=
  UInt32.toBitVec_inj.mp BitVec.and_or_distrib_left

theorem frame_or_two (word : UInt32) : (word ||| 2) &&& frameMask = word &&& frameMask := by
  rw [UInt32.and_comm, and_or_distrib]
  have none : frameMask &&& 2 = 0 := by decide
  rw [none, UInt32.or_zero, UInt32.and_comm]

theorem mapNr_or_two (word : UInt32) : mapNr (word ||| 2) = mapNr word := by
  rw [← mapNr_frame, frame_or_two, mapNr_frame]

theorem lowMem_le_frame {word : UInt32} : lowMem ≤ word &&& frameMask ↔ lowMem ≤ word := by
  have low : lowMem.toNat = 0x300000 := rfl
  rw [UInt32.le_iff_toNat_le, UInt32.le_iff_toNat_le, frame_toNat, low]
  omega

theorem present_or_two (word : UInt32) : pagePresent &&& (word ||| 2) = pagePresent &&& word := by
  have none : pagePresent &&& 2 = 0 := by decide
  rw [and_or_distrib, none, UInt32.or_zero]

theorem or_ne_zero {word bits : UInt32} (isBit : bits ≠ 0) : word ||| bits ≠ 0 := fun isZero =>
  isBit (UInt32.or_eq_zero_iff.mp isZero).2

theorem writes_or_two (word : UInt32) : pageRw &&& (word ||| 2) ≠ 0 := by
  rw [and_or_distrib]
  exact or_ne_zero (by decide)

theorem frame_or_seven {page : UInt32} (aligned : PageAligned page) :
    (page ||| 7) &&& frameMask = page := by
  rw [UInt32.and_comm, and_or_distrib]
  have none : frameMask &&& 7 = 0 := by decide
  rw [none, UInt32.or_zero, UInt32.and_comm, aligned]

/-- An entry that is present and not writable. -/
theorem writeProtected_iff (word : UInt32) :
    3 &&& word = 1 ↔ pagePresent &&& word ≠ 0 ∧ pageRw &&& word = 0 := by
  have three : (3 &&& word).toNat = word.toNat % 4 := by
    rw [UInt32.toNat_and, Nat.and_comm]
    exact Nat.and_two_pow_sub_one_eq_mod word.toNat 2
  have one : (pagePresent &&& word).toNat = word.toNat % 2 := by
    rw [UInt32.toNat_and, Nat.and_comm]
    exact Nat.and_two_pow_sub_one_eq_mod word.toNat 1
  have two : (pageRw &&& word).toNat = word.toNat / 2 % 2 * 2 := by
    rw [UInt32.toNat_and, Nat.and_comm]
    refine (and_mask word.toNat 1 1).trans ?_
    omega
  rw [Ne, ← UInt32.toNat_inj, ← UInt32.toNat_inj, ← UInt32.toNat_inj, three, one, two]
  simp only [UInt32.toNat_zero, UInt32.toNat_one]
  omega

/-! ## One page -/

namespace Pager

variable {before after : Kernel} {dirEntry pageEntry : Nat}

/-- The entry is absent or may be written. -/
def Open (kernel : Kernel) (dirEntry pageEntry : Nat) : Prop :=
  pagePresent &&& kernel.word dirEntry pageEntry ≠ 0 →
    pageRw &&& kernel.word dirEntry pageEntry ≠ 0

/-- The accounts are still right, and no entry has lost the right to be written. -/
structure Opens (before after : Pager) : Prop where
  sound : after.Sound
  dirs : ∀ dirEntry < 1024, after.kernel.pgDir dirEntry = before.kernel.pgDir dirEntry
  keeps : ∀ dirEntry pageEntry, before.kernel.UserEntry dirEntry pageEntry →
    Open before.kernel dirEntry pageEntry → Open after.kernel dirEntry pageEntry

theorem Opens.refl {pager : Pager} (sound : pager.Sound) : Opens pager pager :=
  ⟨sound, fun _ _ => rfl, fun _ _ _ isOpen => isOpen⟩

theorem Opens.userEntry {first second : Pager} (opens : Opens first second) :
    second.kernel.UserEntry dirEntry pageEntry ↔ first.kernel.UserEntry dirEntry pageEntry := by
  have present (inDir : dirEntry < 1024) :
      second.kernel.DirPresent dirEntry ↔ first.kernel.DirPresent dirEntry := by
    rw [DirPresent, DirPresent, opens.dirs dirEntry inDir]
  constructor
  · exact fun isEntry => ⟨isEntry.isUser, (present isEntry.isUser.2).mp isEntry.present,
      isEntry.inTable⟩
  · exact fun isEntry => ⟨isEntry.isUser, (present isEntry.isUser.2).mpr isEntry.present,
      isEntry.inTable⟩

theorem Opens.trans {first second third : Pager} (opens : Opens first second)
    (opens' : Opens second third) : Opens first third where
  sound := opens'.sound
  dirs dirEntry inDir := (opens'.dirs dirEntry inDir).trans (opens.dirs dirEntry inDir)
  keeps _ _ isEntry isOpen :=
    opens'.keeps _ _ (opens.userEntry.mpr isEntry) (opens.keeps _ _ isEntry isOpen)

/-- What is swapped out may be written when it comes back. -/
theorem Swaps.open (swaps : Swaps before after) (isEntry : before.UserEntry dirEntry pageEntry)
    (isOpen : Open before dirEntry pageEntry) : Open after dirEntry pageEntry := by
  intro present
  rcases swaps.words _ _ isEntry with same | absent
  · rw [same] at present ⊢
    exact isOpen present
  · exact absurd absent present

theorem Changes.open (changes : Changes before after dirEntry pageEntry)
    (here : Open after dirEntry pageEntry) {other otherEntry : Nat}
    (isEntry : before.UserEntry other otherEntry) (isOpen : Open before other otherEntry) :
    Open after other otherEntry := by
  by_cases same : (other, otherEntry) = (dirEntry, pageEntry)
  · cases same
    exact here
  · rw [Open, changes.words other isEntry.isUser.2 isEntry.present otherEntry isEntry.inTable same]
    exact isOpen

/-- A store in an entry changes this entry. -/
theorem changes_of_store (sound : before.Sound) (isEntry : before.UserEntry dirEntry pageEntry)
    (value : UInt32) :
    Changes before (before.store (before.entry dirEntry pageEntry) value) dirEntry pageEntry ∧
      (before.store (before.entry dirEntry pageEntry) value).word dirEntry pageEntry = value := by
  have dirs (other : Nat) (inDir : other < 1024) :
      (before.store (before.entry dirEntry pageEntry) value).pgDir other = before.pgDir other :=
    Function.update_of_ne
      (sound.entry_ne_dir isEntry.isUser.2 isEntry.present isEntry.inTable inDir) _ _
  have entries (other otherEntry : Nat) (inDir : other < 1024) :
      (before.store (before.entry dirEntry pageEntry) value).entry other otherEntry =
        before.entry other otherEntry :=
    congrArg (fun dir => entryPtr (dir &&& frameMask) otherEntry) (dirs other inDir)
  refine ⟨⟨dirs, fun other inDir present otherEntry inTable differs => ?_⟩, ?_⟩
  · rw [word, entries other otherEntry inDir]
    refine Function.update_of_ne (fun same => differs ?_) _ _
    obtain ⟨rfl, rfl⟩ := sound.entry_inj inDir present inTable isEntry.isUser.2 isEntry.present
      isEntry.inTable same
    rfl
  · rw [word, entries dirEntry pageEntry isEntry.isUser.2]
    exact Function.update_self _ _ _

/-- The only reference to a page may write it. -/
theorem opens_of_only {pager : Pager} (sound : pager.Sound)
    (isEntry : pager.kernel.UserEntry dirEntry pageEntry)
    (isPage : lowMem ≤ pager.kernel.word dirEntry pageEntry)
    (one : pager.kernel.memMap (mapNr (pager.kernel.word dirEntry pageEntry)) = 1) :
    let after : Pager := { pager with
      kernel := pager.kernel.store (pager.kernel.entry dirEntry pageEntry)
        (pager.kernel.word dirEntry pageEntry ||| 2) }
    Opens pager after ∧ Open after.kernel dirEntry pageEntry := by
  intro after
  obtain ⟨changes, isWord⟩ := changes_of_store sound.kernel isEntry
    (pager.kernel.word dirEntry pageEntry ||| 2)
  change after.kernel.word dirEntry pageEntry = _ at isWord
  have isPage' : lowMem ≤ after.kernel.word dirEntry pageEntry := by
    rw [isWord, ← lowMem_le_frame, frame_or_two, lowMem_le_frame]
    exact isPage
  have sameNr : mapNr (after.kernel.word dirEntry pageEntry) =
      mapNr (pager.kernel.word dirEntry pageEntry) := by rw [isWord, mapNr_or_two]
  have here : Open after.kernel dirEntry pageEntry := fun _ => by
    rw [isWord]
    exact writes_or_two _
  have isSound : after.kernel.Sound := by
    refine changes.sound sound.kernel isEntry (fun nr => ?_) (fun _ _ _ _ _ one => one)
      fun _ _ => ⟨isPage', by rw [sameNr]; exact one⟩
    refine (Nat.add_le_add_right (Finset.card_le_card fun pair inside => ?_) _).trans
      (sound.kernel.counted nr)
    obtain ⟨other, otherEntry⟩ := pair
    have maps := mem_mappers.mp inside
    refine mem_mappers.mpr ?_
    by_cases same : (other, otherEntry) = (dirEntry, pageEntry)
    · cases same
      have mapped := maps.mapped
      rw [isWord, present_or_two] at mapped
      exact ⟨isEntry, mapped, isPage, by rw [← sameNr]; exact maps.isNr⟩
    · exact (changes.maps same).mp maps
  exact ⟨⟨⟨isSound, sound.cursors⟩, changes.dirs, fun _ _ => Changes.open changes here⟩, here⟩

/-- An unused page is not that of a table. -/
theorem Unused.ne_table {kernel : Kernel} {page : UInt32} (unused : Unused kernel page)
    (inDir : dirEntry < 1024) (present : kernel.DirPresent dirEntry) :
    kernel.pgDir dirEntry &&& frameMask ≠ page := by
  intro same
  have member : dirEntry ∈ kernel.tablesAt (mapNr page) :=
    mem_tablesAt.mpr ⟨inDir, present, same ▸ unused.isPage, by rw [← same, mapNr_frame]⟩
  rw [unused.noTable] at member
  cases member

theorem release_memory (kernel : Kernel) (page : UInt32) :
    (kernel.release page).memory = kernel.memory := by
  rw [release]
  split <;> rfl

/-- An unused page gets the contents of another one, and goes into its place. -/
theorem changes_of_copy {kernel : Kernel} (oldPage : UInt32) {newPage : UInt32}
    (sound : kernel.Sound) (isEntry : kernel.UserEntry dirEntry pageEntry) (unused : Unused kernel newPage) :
    let after := ((kernel.release oldPage).copyPage oldPage newPage).store
      (kernel.entry dirEntry pageEntry) (newPage ||| 7)
    Changes kernel after dirEntry pageEntry ∧ after.word dirEntry pageEntry = newPage ||| 7 := by
  intro after
  have copied (ptr : UInt32) (outside : ptr &&& frameMask ≠ newPage) :
      ((kernel.release oldPage).copyPage oldPage newPage).memory ptr = kernel.memory ptr :=
    (if_neg outside).trans (congrFun (release_memory kernel oldPage) ptr)
  have notLow : newPage ≠ 0 := by
    intro isZero
    have isPage := unused.isPage
    rw [isZero] at isPage
    exact absurd isPage (by decide)
  have dirs (other : Nat) (inDir : other < 1024) : after.pgDir other = kernel.pgDir other :=
    (Function.update_of_ne
      (sound.entry_ne_dir isEntry.isUser.2 isEntry.present isEntry.inTable inDir) _ _).trans
      (copied _ (by rw [dir_frame inDir]; exact notLow.symm))
  have entries (other otherEntry : Nat) (inDir : other < 1024) :
      after.entry other otherEntry = kernel.entry other otherEntry :=
    congrArg (fun dir => entryPtr (dir &&& frameMask) otherEntry) (dirs other inDir)
  refine ⟨⟨dirs, fun other inDir present otherEntry inTable differs => ?_⟩, ?_⟩
  · rw [word, entries other otherEntry inDir]
    refine (Function.update_of_ne (fun same => differs ?_) _ _).trans (copied _ ?_)
    · obtain ⟨rfl, rfl⟩ := sound.entry_inj inDir present inTable isEntry.isUser.2 isEntry.present
        isEntry.inTable same
      rfl
    · rw [entry_frame inTable]
      exact unused.ne_table inDir present
  · rw [word, entries dirEntry pageEntry isEntry.isUser.2]
    exact Function.update_self _ _ _

/-- A copy may be written, and the accounts are right when the entry is still there. -/
theorem opens_of_copy {pager : Pager} {oldPage newPage : UInt32} (sound : pager.Sound)
    (isEntry : pager.kernel.UserEntry dirEntry pageEntry) (unused : Unused pager.kernel newPage)
    (mapped : pagePresent &&& pager.kernel.word dirEntry pageEntry ≠ 0)
    (isOld : oldPage = pager.kernel.word dirEntry pageEntry &&& frameMask) :
    let after : Pager := { pager with
      kernel := ((pager.kernel.release oldPage).copyPage oldPage newPage).store
        (pager.kernel.entry dirEntry pageEntry) (newPage ||| 7) }
    Opens pager after ∧ Open after.kernel dirEntry pageEntry := by
  intro after
  obtain ⟨changes, isWord⟩ := changes_of_copy oldPage sound.kernel isEntry unused
  change after.kernel.word dirEntry pageEntry = _ at isWord
  have isPage : lowMem ≤ after.kernel.word dirEntry pageEntry := by
    rw [isWord, ← lowMem_le_frame, frame_or_seven unused.aligned]
    exact unused.isPage
  have isNr : mapNr (after.kernel.word dirEntry pageEntry) = mapNr newPage := by
    rw [isWord, ← mapNr_frame, frame_or_seven unused.aligned]
  have mapsNew : after.kernel.Maps (mapNr newPage) dirEntry pageEntry := by
    refine ⟨(Changes.userEntry changes).mpr isEntry, ?_, isPage, isNr⟩
    rw [isWord, and_or_distrib]
    exact or_ne_zero (by decide)
  have notMaps {nr : UInt32} (other : nr ≠ mapNr newPage) :
      ¬after.kernel.Maps nr dirEntry pageEntry := fun maps => other (maps.isNr.symm.trans isNr)
  have writes : pageRw &&& after.kernel.word dirEntry pageEntry ≠ 0 := by
    rw [isWord, and_or_distrib]
    exact or_ne_zero (by decide)
  have mapsOld (isOldPage : lowMem ≤ oldPage) :
      pager.kernel.Maps (mapNr oldPage) dirEntry pageEntry := by
    rw [isOld] at isOldPage ⊢
    exact ⟨isEntry, mapped, lowMem_le_frame.mp isOldPage, (mapNr_frame _).symm⟩
  have differ (isOldPage : lowMem ≤ oldPage) : mapNr newPage ≠ mapNr oldPage := by
    intro same
    have member := mem_mappers.mpr (mapsOld isOldPage)
    rw [← same, unused.notMapped] at member
    cases member
  have released : after.kernel.memMap = (pager.kernel.release oldPage).memMap := rfl
  have kept {nr : UInt32} (other : lowMem ≤ oldPage → nr ≠ mapNr oldPage) :
      after.kernel.memMap nr = pager.kernel.memMap nr := by
    rw [released, release]
    split
    next isOldPage => exact Function.update_of_ne (other isOldPage) _ _
    next => rfl
  have one : after.kernel.memMap (mapNr newPage) = 1 := by rw [kept differ, unused.taken]
  have isSound : after.kernel.Sound := by
    refine changes.sound sound.kernel isEntry (fun nr => ?_)
      (fun nr other otherEntry differs isOther isOne => ?_)
      fun _ _ => ⟨isPage, by rw [isNr]; exact one⟩
    · by_cases isNew : nr = mapNr newPage
      · rw [isNew, changes.mappers_of_maps mapsNew, unused.notMapped, unused.noTable, one]
        simp
      rw [changes.mappers_of_not (notMaps isNew)]
      by_cases isOldNr : lowMem ≤ oldPage ∧ nr = mapNr oldPage
      · obtain ⟨isOldPage, rfl⟩ := isOldNr
        have fewer : after.kernel.memMap (mapNr oldPage) =
            pager.kernel.memMap (mapNr oldPage) - 1 := by
          rw [released, release, if_pos isOldPage]
          exact Function.update_self _ _ _
        rw [fewer, ← changes.mappers_of_not (notMaps isNew)]
        exact sound.kernel.counted_released changes (mapsOld isOldPage) (notMaps isNew)
      · rw [kept fun isOldPage same => isOldNr ⟨isOldPage, same⟩]
        exact (Nat.add_le_add_right (Finset.card_le_card (Finset.erase_subset _ _)) _).trans
          (sound.kernel.counted nr)
    · rw [kept, isOne]
      intro isOldPage same
      have two := sound.kernel.two_le (mapsOld isOldPage) (same ▸ isOther) differs
      rw [← same, isOne] at two
      exact absurd two (by decide)
  exact ⟨⟨⟨isSound, sound.cursors⟩, changes.dirs, fun _ _ => Changes.open changes fun _ => writes⟩,
    fun _ => writes⟩

end Pager

end Linux012.Mm
