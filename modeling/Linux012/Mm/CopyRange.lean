import Linux012.Mm.CopyPageTables

/-!
# The range that a fork copies

What `copy_page_tables` owes to a range of linear addresses, and when it keeps it: the number of
entries for the last directory entry is taken from the size by masks, and is too large where the
pages fill two or three tables behind a multiple of four.
-/

namespace Linux012.Mm

/-! ## What is promised -/

/-- A range of linear addresses that is copied: both ends are at a directory entry. -/
structure CopyRequest where
  fromAddr : UInt32
  toAddr : UInt32
  size : Nat
  fromAligned : fromAddr &&& 0x3fffff = 0
  toAligned : toAddr &&& 0x3fffff = 0
  sizeRange : 0 < size ∧ size ≤ 0x4000000
  fromRange : fromAddr.toNat + size ≤ 0x100000000
  toRange : toAddr.toNat + size ≤ 0x100000000

namespace CopyRequest

variable (request : CopyRequest)

/-- The directory entries of the range. -/
def slots : Nat := (request.size + 0x3fffff) / 0x400000

/-- The pages of the range. -/
def pages : Nat := (request.size + 0xfff) / 0x1000

def fromDir (slot : Nat) : UInt32 := entryPtr ((request.fromAddr >>> 20) &&& 0xffc) slot
def toDir (slot : Nat) : UInt32 := entryPtr ((request.toAddr >>> 20) &&& 0xffc) slot

/-- The directory entry of the source is present. -/
def Present (kernel : Kernel) (slot : Nat) : Prop :=
  1 &&& kernel.memory (request.fromDir slot) ≠ 0

instance (kernel : Kernel) (slot : Nat) : Decidable (request.Present kernel slot) :=
  inferInstanceAs (Decidable (_ ≠ _))

/-- The page table of the source. -/
def table (kernel : Kernel) (slot : Nat) : UInt32 :=
  frameMask &&& kernel.memory (request.fromDir slot)

/-- The entry of the source for a page, 0 where there is no table. -/
def source (kernel : Kernel) (page : Nat) : UInt32 :=
  if request.Present kernel (page / 1024) then
    kernel.memory (entryPtr (request.table kernel (page / 1024)) (page % 1024))
  else 0

/-- The pages of the source, among the first ones, that are the physical page with a number. -/
def sharers (kernel : Kernel) (nr : UInt32) (pages : Nat) : Nat :=
  Nat.count (fun page => Shares (request.source kernel page) nr) pages

/-- The source has no swapped entries, the directory entries of the destination are empty and
pages are available.  The tables of the source are pages of their own, apart from the directory,
and `mem_map` counts what is mapped. -/
structure Ready (kernel : Kernel) : Prop where
  resident : ∀ slot < request.slots, request.Present kernel slot → ∀ nr < 1024,
    Resident (kernel.memory (entryPtr (request.table kernel slot) nr))
  empty : ∀ slot < request.slots, kernel.memory (request.toDir slot) = 0
  available : request.slots ≤ kernel.free.card
  ahead : ∀ slot other, slot < other → other < request.slots → request.Present kernel slot →
    request.toDir slot ≠ request.fromDir other
  isTable : ∀ slot < request.slots, request.Present kernel slot →
    request.table kernel slot ≠ 0 ∧ kernel.Occupied (request.table kernel slot)
  distinct : ∀ slot < request.slots, ∀ other < request.slots, request.Present kernel slot →
    request.Present kernel other → request.table kernel slot = request.table kernel other →
      slot = other
  mapped : ∀ page < request.pages, Shared (request.source kernel page) →
    kernel.memMap (mapNr (request.source kernel page)) ≠ 0
  counts : ∀ nr, (kernel.memMap nr).toNat + request.sharers kernel nr request.pages < 256

/-- The first directory entries have been copied. -/
structure Copies (before : Kernel) (slots : Nat) (after : Kernel) : Prop where
  /-- A fresh table maps the pages of the range that are present, and nothing else. -/
  target : ∀ slot < slots, request.Present before slot → ∃ table,
    PageAligned table ∧ lowMem ≤ table ∧ before.memMap (mapNr table) = 0 ∧
    after.memMap (mapNr table) = 1 ∧ after.memory (request.toDir slot) = table ||| 7 ∧
    ∀ nr < 1024, after.memory (entryPtr table nr) =
      if 1024 * slot + nr < request.pages then
        writeProtected (request.source before (1024 * slot + nr))
      else 0
  absent : ∀ slot < request.slots, slots ≤ slot ∨ ¬request.Present before slot →
    after.memory (request.toDir slot) = 0
  source : ∀ slot < request.slots, request.Present before slot → ∀ nr < 1024,
    after.memory (entryPtr (request.table before slot) nr) =
      if slot < slots ∧ 1024 * slot + nr < request.pages ∧
        Shared (request.source before (1024 * slot + nr)) then
        writeProtected (request.source before (1024 * slot + nr))
      else request.source before (1024 * slot + nr)
  memMap : ∀ nr, before.memMap nr ≠ 0 → after.memMap nr = before.memMap nr +
    UInt8.ofNat (request.sharers before nr (min request.pages (1024 * slots)))
  others : ∀ ptr, before.Occupied ptr → (∀ slot < request.slots, ptr ≠ request.toDir slot) →
    (∀ slot < request.slots, request.Present before slot →
      ptr &&& frameMask ≠ request.table before slot) → after.memory ptr = before.memory ptr

/-- No entry outside the tables is read or written, and on the return of 0 the range has been
copied. -/
def CopiesExactly (kernel : Kernel) : Prop :=
  match copyPageTables kernel request.fromAddr request.toAddr request.size with
  | .done state => (∀ access ∈ state.touched, access.2 < 1024) ∧
      request.Copies kernel request.slots state.kernel
  | .noMemory state => ∀ access ∈ state.touched, access.2 < 1024
  | .panics => False

/-- The condition: the number of pages, modulo four tables, is at most that of one table, or the
last directory entry of the source is absent. -/
def LastFits (kernel : Kernel) : Prop :=
  request.pages % 4096 ≤ 1024 ∨ ¬request.Present kernel (request.slots - 1)

/-! ## The directory entries -/

variable {request : CopyRequest}

theorem dirBase_toNat (addr : UInt32) :
    ((addr >>> 20) &&& 0xffc).toNat = addr.toNat / 4194304 * 4 := by
  have small := addr.toNat_lt
  have mask : (0xffc : UInt32).toNat = (2 ^ 10 - 1) * 2 ^ 2 := by decide
  have shift : addr.toNat >>> (UInt32.toNat 20 % 32) = addr.toNat / 2 ^ 20 :=
    Nat.shiftRight_eq_div_pow _ _
  rw [UInt32.toNat_and, UInt32.toNat_shiftRight, mask, and_mask, shift]
  omega

theorem aligned_toNat {addr : UInt32} (aligned : addr &&& 0x3fffff = 0) :
    addr.toNat % 4194304 = 0 := by
  have word := congrArg UInt32.toNat aligned
  rw [UInt32.toNat_and] at word
  rw [← Nat.and_two_pow_sub_one_eq_mod addr.toNat 22]
  exact word

theorem fromDir_toNat {slot : Nat} (inRange : slot < request.slots) :
    (request.fromDir slot).toNat = 4 * (request.fromAddr.toNat / 4194304 + slot) ∧
      request.fromAddr.toNat / 4194304 + slot < 1024 := by
  have aligned := aligned_toNat request.fromAligned
  have range := request.fromRange
  rw [fromDir, entryPtr_toNat, dirBase_toNat]
  rw [slots] at inRange
  omega

theorem toDir_toNat {slot : Nat} (inRange : slot < request.slots) :
    (request.toDir slot).toNat = 4 * (request.toAddr.toNat / 4194304 + slot) ∧
      request.toAddr.toNat / 4194304 + slot < 1024 := by
  have aligned := aligned_toNat request.toAligned
  have range := request.toRange
  rw [toDir, entryPtr_toNat, dirBase_toNat]
  rw [slots] at inRange
  omega

theorem frame_eq_zero {ptr : UInt32} (inDir : ptr.toNat < 4096) : ptr &&& frameMask = 0 := by
  apply UInt32.toNat_inj.mp
  rw [frame_toNat, Nat.div_eq_of_lt inDir]
  rfl

theorem fromDir_frame {slot : Nat} (inRange : slot < request.slots) :
    request.fromDir slot &&& frameMask = 0 := by
  have place := fromDir_toNat inRange
  exact frame_eq_zero (by omega)

theorem toDir_frame {slot : Nat} (inRange : slot < request.slots) :
    request.toDir slot &&& frameMask = 0 := by
  have place := toDir_toNat inRange
  exact frame_eq_zero (by omega)

theorem toDir_inj {slot other : Nat} (inRange : slot < request.slots)
    (otherInRange : other < request.slots) (same : request.toDir slot = request.toDir other) :
    slot = other := by
  have place := toDir_toNat inRange
  have otherPlace := toDir_toNat otherInRange
  rw [same] at place
  omega

/-! ## One directory entry -/

variable {before : Kernel} {state after : Copying} {slot : Nat}

theorem page_div_mod {nr : Nat} (inTable : nr < 1024) (slot : Nat) :
    (1024 * slot + nr) / 1024 = slot ∧ (1024 * slot + nr) % 1024 = nr := by
  omega

theorem source_of_present {nr : Nat} (inTable : nr < 1024)
    (present : request.Present before slot) : request.source before (1024 * slot + nr) =
      before.memory (entryPtr (request.table before slot) nr) := by
  obtain ⟨div, mod⟩ := page_div_mod inTable slot
  rw [source, div, mod, if_pos present]

theorem source_of_absent {nr : Nat} (inTable : nr < 1024)
    (absent : ¬request.Present before slot) : request.source before (1024 * slot + nr) = 0 := by
  rw [source, (page_div_mod inTable slot).1, if_neg absent]

theorem table_aligned (request : CopyRequest) (kernel : Kernel) (slot : Nat) :
    PageAligned (request.table kernel slot) := by
  rw [table, UInt32.and_comm]
  exact pageAligned_frame _

/-- The pages of the range that are in a directory entry. -/
def inSlot (request : CopyRequest) (slot : Nat) : Nat := min 1024 (request.pages - 1024 * slot)

theorem pages_range (inRange : slot < request.slots) :
    1024 * slot < request.pages ∧ request.pages ≤ 1024 * request.slots := by
  rw [slots] at inRange ⊢
  rw [pages]
  omega

theorem min_pages (inRange : slot < request.slots) :
    min request.pages (1024 * slot) = 1024 * slot ∧
      min request.pages (1024 * (slot + 1)) = 1024 * slot + request.inSlot slot := by
  have range := pages_range inRange
  rw [inSlot]
  omega

theorem sharers_succ (inRange : slot < request.slots) (nr : UInt32) :
    request.sharers before nr (min request.pages (1024 * (slot + 1))) =
      request.sharers before nr (min request.pages (1024 * slot)) +
        Nat.count (fun entry => Shares (request.source before (1024 * slot + entry)) nr)
          (request.inSlot slot) := by
  rw [(min_pages inRange).1, (min_pages inRange).2, sharers, Nat.count_add]
  rfl

/-- The counts do not run over: a page that is in use stays in use. -/
theorem Copies.inUse {after : Kernel} (copies : request.Copies before slot after)
    (ready : request.Ready before) {nr : UInt32} (isUsed : before.memMap nr ≠ 0) :
    after.memMap nr ≠ 0 := by
  intro isFree
  have counts := ready.counts nr
  have fewer : request.sharers before nr (min request.pages (1024 * slot)) ≤
      request.sharers before nr request.pages := Nat.count_monotone _ (Nat.min_le_left _ _)
  have sum := congrArg UInt8.toNat (isFree.symm.trans (copies.memMap nr isUsed))
  rw [UInt8.toNat_add, UInt8.toNat_ofNat', UInt8.toNat_zero] at sum
  have positive : (before.memMap nr).toNat ≠ 0 := fun zero =>
    isUsed (UInt8.toNat_inj.mp zero)
  omega

theorem Copies.occupied {after : Kernel} (copies : request.Copies before slot after)
    (ready : request.Ready before) {ptr : UInt32} (isOccupied : before.Occupied ptr) :
    after.Occupied ptr :=
  isOccupied.imp_right (copies.inUse ready)

theorem Copies.start (ready : request.Ready before) : request.Copies before 0 before where
  target slot less := absurd less (Nat.not_lt_zero slot)
  absent slot inRange _ := ready.empty slot inRange
  source slot inRange present nr inTable := by
    rw [if_neg fun copied => absurd copied.1 (Nat.not_lt_zero slot),
      source_of_present inTable present]
  memMap nr _ := by
    rw [Nat.mul_zero, Nat.min_zero, sharers, Nat.count_zero]
    exact (UInt8.add_zero _).symm
  others ptr _ _ _ := rfl

/-- A directory entry that is absent is passed over. -/
theorem Copies.skip {after : Kernel} (copies : request.Copies before slot after)
    (inRange : slot < request.slots) (absent : ¬request.Present before slot) :
    request.Copies before (slot + 1) after where
  target other less present := by
    have differs : other ≠ slot := fun same => absent (same ▸ present)
    exact copies.target other (by omega) present
  absent other otherInRange isAbsent := by
    refine copies.absent other otherInRange ?_
    by_cases same : other = slot
    · exact .inr (same ▸ absent)
    · exact isAbsent.imp_left fun atLeast => by omega
  source other otherInRange present nr inTable := by
    have differs : other ≠ slot := fun same => absent (same ▸ present)
    have upTo : other < slot + 1 ↔ other < slot := by omega
    rw [copies.source other otherInRange present nr inTable]
    simp only [upTo]
  memMap nr isUsed := by
    have none : Nat.count (fun entry =>
        Shares (request.source before (1024 * slot + entry)) nr) (request.inSlot slot) = 0 := by
      refine Nat.count_iff_forall_not.mpr fun entry less shares => ?_
      have inTable : entry < 1024 := less.trans_le (Nat.min_le_left _ _)
      rw [source_of_absent inTable absent] at shares
      exact not_shared_zero shares.1
    rw [sharers_succ inRange, none, Nat.add_zero]
    exact copies.memMap nr isUsed
  others := copies.others

/-- A fresh page for the table of a directory entry. -/
structure SlotStart (request : CopyRequest) (before : Kernel) (slot : Nat) (state : Copying)
    (taken : Kernel) (toTable : UInt32) : Prop where
  copies : request.Copies before slot state.kernel
  inRange : slot < request.slots
  present : request.Present before slot
  fresh : Kernel.Fresh state.kernel taken toTable

namespace SlotStart

variable {taken : Kernel} {toTable : UInt32}

theorem not_occupied (start : SlotStart request before slot state taken toTable) {ptr : UInt32}
    (inPage : ptr &&& frameMask = toTable) : ¬state.kernel.Occupied ptr :=
  Kernel.not_occupied start.fresh.isPage start.fresh.wasFree inPage

theorem toTable_ne (start : SlotStart request before slot state taken toTable)
    (ready : request.Ready before) {other : Nat} (inRange : other < request.slots)
    (present : request.Present before other) : request.table before other ≠ toTable := by
  intro same
  have occupied := start.copies.occupied ready (ready.isTable other inRange present).2
  exact start.not_occupied ((table_aligned request before other).trans same) occupied

theorem toTable_ne_zero (start : SlotStart request before slot state taken toTable) :
    toTable ≠ 0 := by
  rintro rfl
  exact absurd start.fresh.isPage (by decide)

/-- The table of the source is untouched before its entries are copied. -/
theorem entry_eq (start : SlotStart request before slot state taken toTable)
    (ready : request.Ready before) {nr : Nat} (inTable : nr < 1024) :
    (taken.store (request.toDir slot) (toTable ||| 7)).memory
      (entryPtr (request.table before slot) nr) = request.source before (1024 * slot + nr) := by
  have inPage := entryPtr_frame (table_aligned request before slot) inTable
  have isTable := ready.isTable slot start.inRange start.present
  have notDir : entryPtr (request.table before slot) nr ≠ request.toDir slot := by
    intro same
    rw [same, toDir_frame start.inRange] at inPage
    exact isTable.1 inPage.symm
  have occupied : state.kernel.Occupied (entryPtr (request.table before slot) nr) :=
    start.copies.occupied ready (isTable.2.of_frame inPage)
  calc (taken.store (request.toDir slot) (toTable ||| 7)).memory
        (entryPtr (request.table before slot) nr)
      = taken.memory (entryPtr (request.table before slot) nr) := Function.update_of_ne notDir _ _
    _ = state.kernel.memory (entryPtr (request.table before slot) nr) :=
        start.fresh.others _ occupied
    _ = request.source before (1024 * slot + nr) := by
        rw [start.copies.source slot start.inRange start.present nr inTable,
          if_neg fun copied => absurd copied.1 (Nat.lt_irrefl slot)]

/-- The inner loop copies entries of the table. -/
theorem copyEntries (start : SlotStart request before slot state taken toTable)
    (ready : request.Ready before) {count : Nat} (inTable : count ≤ 1024) :
    ∃ next, ({ state with kernel := taken.store (request.toDir slot) (toTable ||| 7) } :
        Copying).copyEntries (request.table before slot) toTable count 0 = .done next ∧
      Copying.EntriesDone
        { state with kernel := taken.store (request.toDir slot) (toTable ||| 7) } next
        (request.table before slot) toTable count := by
  refine Copying.copyEntries_done _ inTable (start.toTable_ne ready start.inRange start.present)
    (table_aligned request before slot) start.fresh.aligned fun nr less => ?_
  have resident := ready.resident slot start.inRange start.present nr less
  dsimp only
  rw [start.entry_eq ready less, source_of_present less start.present]
  exact resident

end SlotStart

/-- The fresh table is stored in the directory, and the entries are copied. -/
structure SlotDone (request : CopyRequest) (before : Kernel) (slot : Nat) (state : Copying)
    (taken : Kernel) (toTable : UInt32) (after : Copying) : Prop extends
    SlotStart request before slot state taken toTable where
  entries : Copying.EntriesDone
    { state with kernel := taken.store (request.toDir slot) (toTable ||| 7) } after
    (request.table before slot) toTable (request.inSlot slot)

namespace SlotDone

variable {taken : Kernel} {toTable : UInt32}

/-- A long of a page that was in use is as before, unless it is the directory entry or in the
table of the source. -/
theorem kept (done : SlotDone request before slot state taken toTable after) {ptr : UInt32}
    (occupied : state.kernel.Occupied ptr) (notDir : ptr ≠ request.toDir slot)
    (notTable : ptr &&& frameMask ≠ request.table before slot) :
    after.kernel.memory ptr = state.kernel.memory ptr := by
  have notFresh : ptr &&& frameMask ≠ toTable := fun same => done.not_occupied same occupied
  rw [done.entries.others ptr notTable notFresh]
  exact (Function.update_of_ne notDir _ _).trans (done.fresh.others ptr occupied)

/-- The counts of the pages, with the ones that the entries add. -/
theorem memMap_eq (done : SlotDone request before slot state taken toTable after)
    (ready : request.Ready before) (nr : UInt32) :
    after.kernel.memMap nr = taken.memMap nr + UInt8.ofNat (Nat.count
      (fun entry => Shares (request.source before (1024 * slot + entry)) nr)
      (request.inSlot slot)) := by
  have same : Nat.count (fun entry => Shares ((taken.store (request.toDir slot)
        (toTable ||| 7)).memory (entryPtr (request.table before slot) entry)) nr)
        (request.inSlot slot) =
      Nat.count (fun entry => Shares (request.source before (1024 * slot + entry)) nr)
        (request.inSlot slot) := by
    apply le_antisymm
    · refine Nat.count_mono_left fun entry less shares => ?_
      rwa [done.entry_eq ready (less.trans_le (Nat.min_le_left _ _))] at shares
    · refine Nat.count_mono_left fun entry less shares => ?_
      rwa [done.entry_eq ready (less.trans_le (Nat.min_le_left _ _))]
  rw [done.entries.memMap, ← same]
  rfl

/-- A page that was free gets no user from the entries. -/
theorem memMap_of_free (done : SlotDone request before slot state taken toTable after)
    (ready : request.Ready before) {nr : UInt32} (wasFree : before.memMap nr = 0) :
    after.kernel.memMap nr = taken.memMap nr := by
  have none : Nat.count (fun entry =>
      Shares (request.source before (1024 * slot + entry)) nr) (request.inSlot slot) = 0 := by
    refine Nat.count_iff_forall_not.mpr fun entry less shares => ?_
    have inPages : 1024 * slot + entry < request.pages := by
      rw [inSlot] at less
      omega
    exact ready.mapped _ inPages shares.1 (shares.2.symm ▸ wasFree)
  rw [done.memMap_eq ready, none]
  exact UInt8.add_zero _

/-- The fresh table maps the pages of the range, and nothing else. -/
theorem target (done : SlotDone request before slot state taken toTable after)
    (ready : request.Ready before) {nr : Nat} (inTable : nr < 1024) :
    after.kernel.memory (entryPtr toTable nr) =
      if 1024 * slot + nr < request.pages then
        writeProtected (request.source before (1024 * slot + nr))
      else 0 := by
  have inPage := entryPtr_frame done.fresh.aligned inTable
  have notDir : entryPtr toTable nr ≠ request.toDir slot := by
    intro same
    rw [same, toDir_frame done.inRange] at inPage
    exact done.toTable_ne_zero inPage.symm
  have cleared : (taken.store (request.toDir slot) (toTable ||| 7)).memory
      (entryPtr toTable nr) = 0 :=
    (Function.update_of_ne notDir _ _).trans (done.fresh.cleared _ inPage)
  have covered : nr < request.inSlot slot ↔ 1024 * slot + nr < request.pages := by
    rw [inSlot]
    omega
  have copied := done.entries.target nr inTable
  dsimp only at copied
  rw [copied, done.entry_eq ready inTable, cleared]
  by_cases inPages : 1024 * slot + nr < request.pages
  · by_cases isEmpty : request.source before (1024 * slot + nr) = 0
    · simp [isEmpty, writeProtected_zero]
    · simp [isEmpty, inPages, covered]
  · simp [inPages, covered]

theorem entry_occupied (done : SlotDone request before slot state taken toTable after)
    (ready : request.Ready before) {other nr : Nat} (inRange : other < request.slots)
    (present : request.Present before other) (inTable : nr < 1024) :
    state.kernel.Occupied (entryPtr (request.table before other) nr) :=
  done.copies.occupied ready ((ready.isTable other inRange present).2.of_frame
    (entryPtr_frame (table_aligned request before other) inTable))

theorem dir_occupied (kernel : Kernel) {ptr : UInt32} (inDir : ptr &&& frameMask = 0) :
    kernel.Occupied ptr := by
  have isLow : kernel.Occupied 0 := .inl (by decide)
  exact isLow.of_frame inDir

/-- The other directory entries of the destination stay as they are. -/
theorem toDir_kept (done : SlotDone request before slot state taken toTable after)
    (ready : request.Ready before) {other : Nat} (inRange : other < request.slots)
    (differs : other ≠ slot) :
    after.kernel.memory (request.toDir other) = state.kernel.memory (request.toDir other) := by
  have inDir := toDir_frame inRange
  have isTable := (ready.isTable slot done.inRange done.present).1
  exact done.kept (dir_occupied _ inDir)
    (fun same => differs (toDir_inj inRange done.inRange same)) (inDir ▸ isTable.symm)

/-- The tables that were made for other directory entries stay as they are. -/
theorem target_kept (done : SlotDone request before slot state taken toTable after)
    (ready : request.Ready before) {table : UInt32} (aligned : PageAligned table)
    (isPage : lowMem ≤ table) (wasFree : before.memMap (mapNr table) = 0)
    (isTaken : state.kernel.memMap (mapNr table) = 1) {nr : Nat} (inTable : nr < 1024) :
    after.kernel.memory (entryPtr table nr) = state.kernel.memory (entryPtr table nr) := by
  have inPage := entryPtr_frame aligned inTable
  have inUse : state.kernel.Occupied table := .inr (by rw [isTaken]; decide)
  refine done.kept (inUse.of_frame inPage) ?_ ?_
  · intro same
    rw [same, toDir_frame done.inRange] at inPage
    exact absurd (inPage ▸ isPage) (by decide)
  · intro same
    have isTable := (ready.isTable slot done.inRange done.present).2
    rw [← same, inPage] at isTable
    exact Kernel.not_occupied isPage wasFree aligned isTable

/-- With the directory entry copied, one more is. -/
theorem copy (done : SlotDone request before slot state taken toTable after)
    (ready : request.Ready before) : request.Copies before (slot + 1) after.kernel where
  target other less present := by
    by_cases same : other = slot
    · subst same
      have wasFree : before.memMap (mapNr toTable) = 0 := by
        by_contra isUsed
        exact done.copies.inUse ready isUsed done.fresh.wasFree
      have stored : after.kernel.memory (request.toDir other) = toTable ||| 7 := by
        have inDir := toDir_frame done.inRange
        have isTable := (ready.isTable other done.inRange present).1
        rw [done.entries.others _ (inDir ▸ isTable.symm) (inDir ▸ done.toTable_ne_zero.symm)]
        exact Function.update_self _ _ _
      exact ⟨toTable, done.fresh.aligned, done.fresh.isPage, wasFree,
        (done.memMap_of_free ready wasFree).trans done.fresh.taken, stored,
        fun nr inTable => done.target ready inTable⟩
    · obtain ⟨table, aligned, isPage, wasFree, isTaken, stored, maps⟩ :=
        done.copies.target other (by omega) present
      have isUsed : state.kernel.memMap (mapNr table) ≠ 0 := by rw [isTaken]; decide
      have inRange : other < request.slots := (by omega : other < slot).trans done.inRange
      refine ⟨table, aligned, isPage, wasFree, ?_, ?_, fun nr inTable => ?_⟩
      · rw [done.memMap_of_free ready wasFree, done.fresh.inUse _ isUsed, isTaken]
      · rw [done.toDir_kept ready inRange same, stored]
      · rw [done.target_kept ready aligned isPage wasFree isTaken inTable, maps nr inTable]
  absent other inRange isAbsent := by
    have differs : other ≠ slot := by
      rintro rfl
      exact isAbsent.elim (fun atLeast => by omega) fun absent => absent done.present
    rw [done.toDir_kept ready inRange differs]
    exact done.copies.absent other inRange (isAbsent.imp_left fun atLeast => by omega)
  source other inRange present nr inTable := by
    have inPage := entryPtr_frame (table_aligned request before other) inTable
    by_cases same : other = slot
    · subst same
      have covered : nr < request.inSlot other ↔ 1024 * other + nr < request.pages := by
        rw [inSlot]
        omega
      have copied := done.entries.source nr inTable
      dsimp only at copied
      rw [copied, done.entry_eq ready inTable]
      simp [covered]
    · have upTo : other < slot + 1 ↔ other < slot := by omega
      rw [done.kept (done.entry_occupied ready inRange present inTable),
        done.copies.source other inRange present nr inTable]
      · simp only [upTo]
      · intro equal
        rw [equal, toDir_frame done.inRange] at inPage
        exact (ready.isTable other inRange present).1 inPage.symm
      · intro equal
        exact same (ready.distinct other inRange slot done.inRange present done.present
          (inPage.symm.trans equal))
  memMap nr isUsed := by
    rw [done.memMap_eq ready, done.fresh.inUse nr (done.copies.inUse ready isUsed),
      done.copies.memMap nr isUsed, sharers_succ done.inRange, UInt8.add_assoc, UInt8.ofNat_add]
  others ptr occupied notDir notTable := by
    rw [done.kept (done.copies.occupied ready occupied) (notDir slot done.inRange)
      (notTable slot done.inRange done.present)]
    exact done.copies.others ptr occupied notDir notTable

end SlotDone

/-! ## All directory entries -/

/-- The state before a directory entry. -/
structure Progress (request : CopyRequest) (before : Kernel) (slot : Nat) (state : Copying) :
    Prop where
  copies : request.Copies before slot state.kernel
  available : request.slots - slot ≤ state.kernel.free.card
  touched : ∀ access ∈ state.touched, access.2 < 1024

/-- The directory entry of the source is still the same. -/
theorem Progress.fromDir_eq (progress : request.Progress before slot state)
    (ready : request.Ready before) (inRange : slot < request.slots) :
    state.kernel.memory (request.fromDir slot) = before.memory (request.fromDir slot) := by
  have inDir := fromDir_frame inRange
  by_cases isTarget : ∃ other < request.slots, request.fromDir slot = request.toDir other
  · obtain ⟨other, otherInRange, same⟩ := isTarget
    rw [same, ready.empty other otherInRange]
    apply progress.copies.absent other otherInRange
    by_contra isCopied
    obtain ⟨earlier, present⟩ := not_or.mp isCopied
    exact ready.ahead other slot (Nat.lt_of_not_le earlier) inRange (not_not.mp present) same.symm
  · refine progress.copies.others _ (SlotDone.dir_occupied _ inDir) ?_ ?_
    · exact fun other otherInRange same => isTarget ⟨other, otherInRange, same⟩
    · intro other otherInRange present same
      exact (ready.isTable other otherInRange present).1 (same.symm.trans inDir)

/-- The entries of one directory entry have been copied. -/
theorem SlotDone.progress {taken : Kernel} {toTable : UInt32}
    (done : SlotDone request before slot state taken toTable after)
    (ready : request.Ready before) (progress : request.Progress before slot state) :
    request.Progress before (slot + 1) after where
  copies := done.copy ready
  available := by
    have stillFree : taken.free ⊆ after.kernel.free := by
      intro nr member
      simp only [Kernel.free, Finset.mem_filter] at member ⊢
      have wasFree : before.memMap (UInt32.ofNat nr) = 0 := by
        by_contra isUsed
        have isUsed := done.copies.inUse ready isUsed
        exact isUsed ((done.fresh.inUse _ isUsed).symm.trans member.2.1)
      refine ⟨member.1, (done.memMap_of_free ready wasFree).trans member.2.1, ?_⟩
      rw [done.entries.high]
      exact member.2.2
    have one := done.fresh.one
    have atLeast := progress.available
    have more := Finset.card_le_card stillFree
    omega
  touched access member :=
    (done.entries.touched access member).elim (progress.touched access) fun inside => inside

theorem entryPtr_succ (table : UInt32) (nr : Nat) :
    entryPtr table nr + 4 = entryPtr table (nr + 1) := by
  have four : (4 : UInt32).toNat = 4 := rfl
  apply UInt32.toNat_inj.mp
  rw [UInt32.toNat_add, entryPtr_toNat, entryPtr_toNat, four]
  omega

/-- One pass of the outer loop, when it copies the entries of the range. -/
theorem Progress.step (progress : request.Progress before slot state)
    (ready : request.Ready before) (inRange : slot < request.slots) {tmp left : Nat}
    (fits : request.Present before slot → (if left = 0 then tmp else 1024) = request.inSlot slot) :
    ∃ next, request.Progress before (slot + 1) next ∧
      state.copySlots tmp (left + 1) (request.fromDir slot) (request.toDir slot) =
        next.copySlots tmp left (request.fromDir (slot + 1)) (request.toDir (slot + 1)) := by
  have isEmpty : 1 &&& state.kernel.memory (request.toDir slot) = 0 := by
    rw [progress.copies.absent slot inRange (.inl le_rfl)]
    rfl
  have sameDir := progress.fromDir_eq ready inRange
  have fromNext : request.fromDir slot + 4 = request.fromDir (slot + 1) := entryPtr_succ _ _
  have toNext : request.toDir slot + 4 = request.toDir (slot + 1) := entryPtr_succ _ _
  rw [Copying.copySlots, if_neg (not_not.mpr isEmpty), sameDir, fromNext, toNext]
  by_cases present : request.Present before slot
  · rw [if_neg present]
    have available : 0 < state.kernel.free.card := by
      have atLeast := progress.available
      omega
    obtain ⟨toTable, taken, isTaken, fresh⟩ := Kernel.exists_getFreePage available
    have start : SlotStart request before slot state taken toTable :=
      ⟨progress.copies, inRange, present, fresh⟩
    have inTable : request.inSlot slot ≤ 1024 := Nat.min_le_left _ _
    obtain ⟨next, isNext, entries⟩ := start.copyEntries ready inTable
    have done : SlotDone request before slot state taken toTable next := ⟨start, entries⟩
    refine ⟨next, done.progress ready progress, ?_⟩
    dsimp only
    rw [isTaken, fits present]
    dsimp only
    rw [← table, isNext]
  · have absent : 1 &&& before.memory (request.fromDir slot) = 0 := not_not.mp present
    rw [if_pos absent]
    have available := progress.available
    exact ⟨state, ⟨progress.copies.skip inRange present, by omega, progress.touched⟩, rfl⟩

/-- The passes of the outer loop from one directory entry to another. -/
theorem Progress.steps (progress : request.Progress before slot state)
    (ready : request.Ready before) {tmp left count : Nat} (inRange : slot + count ≤ request.slots)
    (fits : ∀ other, slot ≤ other → other < slot + count → request.Present before other →
      (if slot + count + left = other + 1 then tmp else 1024) = request.inSlot other) :
    ∃ next, request.Progress before (slot + count) next ∧
      state.copySlots tmp (count + left) (request.fromDir slot) (request.toDir slot) =
        next.copySlots tmp left (request.fromDir (slot + count))
          (request.toDir (slot + count)) := by
  induction count generalizing slot state with
  | zero =>
      refine ⟨state, progress, ?_⟩
      rw [Nat.zero_add, Nat.add_zero]
  | succ count ih =>
      have first : request.Present before slot →
          (if count + left = 0 then tmp else 1024) = request.inSlot slot := by
        intro present
        rw [← fits slot le_rfl (by omega) present]
        have last : count + left = 0 ↔ slot + (count + 1) + left = slot + 1 := by omega
        simp only [last]
      obtain ⟨next, isNext, same⟩ := progress.step ready (by omega) first
      have others : ∀ other, slot + 1 ≤ other → other < slot + 1 + count →
          request.Present before other →
            (if slot + 1 + count + left = other + 1 then tmp else 1024) =
              request.inSlot other := by
        intro other atLeast below present
        rw [← fits other (by omega) (by omega) present]
        have shift : slot + 1 + count + left = slot + (count + 1) + left := by omega
        rw [shift]
      obtain ⟨after, isAfter, rest⟩ := ih isNext (by omega) others
      have shift : slot + 1 + count = slot + (count + 1) := by omega
      have total : count + 1 + left = count + left + 1 := by omega
      rw [shift] at isAfter rest
      exact ⟨after, isAfter, by rw [total, same, rest]⟩

/-- The entries that are copied in the last directory entry. -/
def lastCount (request : CopyRequest) : Nat :=
  if request.pages % 4096 = 0 then 1024 else request.pages % 4096

theorem copyPageTables_eq (request : CopyRequest) (kernel : Kernel) :
    copyPageTables kernel request.fromAddr request.toAddr request.size =
      (Copying.mk kernel []).copySlots request.lastCount request.slots (request.fromDir 0)
        (request.toDir 0) := by
  have aligned : ¬(request.fromAddr &&& 0x3fffff ≠ 0 ∨ request.toAddr &&& 0x3fffff ≠ 0) :=
    not_or.mpr ⟨not_not.mpr request.fromAligned, not_not.mpr request.toAligned⟩
  have pages : (request.size + 0x1000 - 1) >>> 12 &&& (0x1000 - 1) = request.pages % 4096 := by
    rw [Nat.shiftRight_eq_div_pow, Nat.and_two_pow_sub_one_eq_mod _ 12]
    rfl
  have slots : (request.size + 0x3fffff) >>> 22 = request.slots := Nat.shiftRight_eq_div_pow _ _
  have notEmpty : request.size ≠ 0 := Nat.ne_of_gt request.sizeRange.1
  have first (base : UInt32) : entryPtr base 0 = base := UInt32.add_zero _
  rw [copyPageTables, if_neg aligned]
  dsimp only
  rw [pages, slots, lastCount, fromDir, toDir, first, first]
  simp only [notEmpty, ne_eq, not_false_eq_true, and_true]

theorem slots_pos (request : CopyRequest) : 0 < request.slots := by
  have positive := request.sizeRange.1
  rw [slots]
  omega

/-- The last directory entry has as many entries copied as it has pages of the range, when the
pages do not fill more than one table behind a multiple of four. -/
theorem lastCount_eq_iff (request : CopyRequest) :
    request.lastCount = request.inSlot (request.slots - 1) ↔ request.pages % 4096 ≤ 1024 := by
  have positive := request.sizeRange.1
  rw [lastCount, inSlot, slots, pages]
  split <;> omega

/-- In the last directory entry the inner loop runs over the end of the table. -/
theorem Progress.overruns (progress : request.Progress before slot state)
    (ready : request.Ready before) (isLast : slot + 1 = request.slots)
    (present : request.Present before slot) {tmp : Nat} (tooMany : 1024 < tmp)
    (isAfter : (state.copySlots tmp 1 (request.fromDir slot) (request.toDir slot)).state? =
      some after) :
    ∃ access ∈ after.touched, ¬access.2 < 1024 := by
  have inRange : slot < request.slots := by omega
  have isEmpty : 1 &&& state.kernel.memory (request.toDir slot) = 0 := by
    rw [progress.copies.absent slot inRange (.inl le_rfl)]
    rfl
  have available : 0 < state.kernel.free.card := by
    have atLeast := progress.available
    omega
  obtain ⟨toTable, taken, isTaken, fresh⟩ := Kernel.exists_getFreePage available
  have start : SlotStart request before slot state taken toTable :=
    ⟨progress.copies, inRange, present, fresh⟩
  obtain ⟨next, isNext, -⟩ := start.copyEntries ready le_rfl
  obtain ⟨more, isMore⟩ := Nat.exists_eq_add_of_lt tooMany
  have count : tmp = 1024 + (more + 1) := by omega
  rw [Copying.copySlots, if_neg (not_not.mpr isEmpty), progress.fromDir_eq ready inRange,
    if_neg present, isTaken] at isAfter
  dsimp only at isAfter
  rw [if_pos rfl, ← table, count, Copying.copyEntries_append, isNext] at isAfter
  dsimp only at isAfter
  rw [Nat.zero_add] at isAfter
  have rest : (next.copyEntries (request.table before slot) toTable (more + 1) 1024).state? =
      some after := by
    cases isRest : next.copyEntries (request.table before slot) toTable (more + 1) 1024 with
    | done last =>
        rw [isRest] at isAfter
        exact isAfter
    | noMemory last =>
        rw [isRest] at isAfter
        exact isAfter
    | panics =>
        rw [isRest] at isAfter
        exact isAfter
  exact ⟨_, Copying.mem_touched_succ rest, Nat.lt_irrefl 1024⟩

theorem lastCount_gt (request : CopyRequest) (tooMany : ¬request.pages % 4096 ≤ 1024) :
    1024 < request.lastCount := by
  rw [lastCount]
  split <;> omega

theorem inSlot_of_not_last (request : CopyRequest) {last : Nat}
    (isLast : request.slots = last + 1) (other : Nat) (_ : 0 ≤ other) (below : other < 0 + last)
    (_ : request.Present before other) :
    (if 0 + last + 1 = other + 1 then request.lastCount else 1024) = request.inSlot other := by
  have inRange : other + 1 < request.slots := by omega
  have range := (pages_range inRange).1
  rw [if_neg (by omega), inSlot]
  omega

/-- Every directory entry has its pages of the range copied. -/
theorem inSlot_of_fits (request : CopyRequest) (fits : request.LastFits before) (other : Nat)
    (_ : 0 ≤ other) (below : other < 0 + request.slots) (present : request.Present before other) :
    (if 0 + request.slots + 0 = other + 1 then request.lastCount else 1024) =
      request.inSlot other := by
  by_cases isLast : request.slots = other + 1
  · have count := request.lastCount_eq_iff.mpr (fits.resolve_right fun absent => by
      rw [isLast, Nat.add_one_sub_one] at absent
      exact absent present)
    rw [isLast, Nat.add_one_sub_one] at count
    rw [if_pos (by omega), count]
  · have inRange : other + 1 < request.slots := by omega
    have range := (pages_range inRange).1
    rw [if_neg (by omega), inSlot]
    omega

/-- `copy_page_tables` copies exactly the range when the last directory entry fits. -/
theorem copiesExactly_iff_lastFits (request : CopyRequest) (kernel : Kernel)
    (ready : request.Ready kernel) :
    request.CopiesExactly kernel ↔ request.LastFits kernel := by
  have first : request.Progress kernel 0 ⟨kernel, []⟩ :=
    ⟨.start ready, ready.available, fun access member => absurd member List.not_mem_nil⟩
  have positive := request.slots_pos
  rw [CopiesExactly, copyPageTables_eq]
  by_cases fits : request.LastFits kernel
  · refine iff_of_true ?_ fits
    obtain ⟨after, progress, isAfter⟩ :=
      first.steps ready (Nat.zero_add _).le (request.inSlot_of_fits fits)
    rw [Nat.zero_add] at progress isAfter
    rw [Nat.add_zero] at isAfter
    rw [isAfter, Copying.copySlots]
    exact ⟨progress.touched, progress.copies⟩
  · refine iff_of_false ?_ fits
    obtain ⟨tooMany, present⟩ := not_or.mp fits
    obtain ⟨last, isLast⟩ : ∃ last, request.slots = last + 1 := ⟨request.slots - 1, by omega⟩
    rw [isLast, Nat.add_one_sub_one, not_not] at present
    obtain ⟨next, progress, isNext⟩ := first.steps ready (by omega)
      (request.inSlot_of_not_last isLast)
    rw [Nat.zero_add] at progress isNext
    rw [isLast, isNext]
    have overruns {after : Copying} (isAfter : (next.copySlots request.lastCount 1
        (request.fromDir last) (request.toDir last)).state? = some after) :
        ∃ access ∈ after.touched, ¬access.2 < 1024 :=
      progress.overruns ready isLast.symm present (request.lastCount_gt tooMany) isAfter
    split
    next after isDone =>
      obtain ⟨access, member, outside⟩ := overruns (congrArg Copied.state? isDone)
      exact fun exactly => outside (exactly.1 access member)
    next after isDone =>
      obtain ⟨access, member, outside⟩ := overruns (congrArg Copied.state? isDone)
      exact fun exactly => outside (exactly access member)
    next => exact id

/-- `copy_page_tables` copies exactly the range when the last directory entry fits. -/
theorem copiesExactly_iff (request : CopyRequest) (kernel : Kernel)
    (ready : request.Ready kernel) :
    request.CopiesExactly kernel ↔ request.LastFits kernel :=
  copiesExactly_iff_lastFits request kernel ready

/-- The first five megabytes of task 1, for task 2. -/
def fiveMegabytes : CopyRequest where
  fromAddr := 0x4000000
  toAddr := 0x8000000
  size := 0x500000
  fromAligned := by decide
  toAligned := by decide
  sizeRange := by decide
  fromRange := by decide
  toRange := by decide

/-- Task 1 has two page tables, without entries. -/
def twoTables : Kernel where
  memory ptr := if ptr = 64 then 0x400007 else if ptr = 68 then 0x401007 else 0
  memMap nr := if nr = 0x100 ∨ nr = 0x101 then 1 else 0
  highMemory := 0x1000000
  swapBitmap := none
  swapPages _ _ := 0

theorem eq_of_lt_slots {slot : Nat} (inRange : slot < fiveMegabytes.slots) :
    slot = 0 ∨ slot = 1 := by
  have two : fiveMegabytes.slots = 2 := by decide
  omega

theorem ready_fiveMegabytes : fiveMegabytes.Ready twoTables := by
  have entries (table : UInt32) (aligned : PageAligned table) (notDir : table ≠ 0) (nr : Nat)
      (inTable : nr < 1024) : twoTables.memory (entryPtr table nr) = 0 := by
    have inPage := entryPtr_frame aligned inTable
    have notFirst : entryPtr table nr ≠ 64 := fun same => by
      rw [same] at inPage
      exact notDir (inPage.symm.trans (by decide))
    have notSecond : entryPtr table nr ≠ 68 := fun same => by
      rw [same] at inPage
      exact notDir (inPage.symm.trans (by decide))
    exact (if_neg notFirst).trans (if_neg notSecond)
  have isTable (slot : Nat) (inRange : slot < fiveMegabytes.slots) :
      fiveMegabytes.table twoTables slot ≠ 0 ∧
        twoTables.Occupied (fiveMegabytes.table twoTables slot) := by
    rcases eq_of_lt_slots inRange with rfl | rfl
    · exact ⟨by decide, .inr (by decide)⟩
    · exact ⟨by decide, .inr (by decide)⟩
  have source (page : Nat) : page < fiveMegabytes.pages →
      fiveMegabytes.source twoTables page = 0 := by
    intro inPages
    have inRange : page / 1024 < fiveMegabytes.slots := by
      have pages : fiveMegabytes.pages = 1280 := by decide
      have slots : fiveMegabytes.slots = 2 := by decide
      omega
    rw [CopyRequest.source]
    split
    · exact entries _ (table_aligned _ _ _) (isTable _ inRange).1 _ (Nat.mod_lt _ (by decide))
    · rfl
  have none (nr : UInt32) : fiveMegabytes.sharers twoTables nr fiveMegabytes.pages = 0 := by
    refine Nat.count_iff_forall_not.mpr fun page inPages shares => ?_
    rw [source page inPages] at shares
    exact not_shared_zero shares.1
  refine ⟨?_, ?_, ?_, ?_, ?_, ?_, ?_, ?_⟩
  · intro slot inRange _ nr inTable
    exact .inl (entries _ (table_aligned _ _ _) (isTable slot inRange).1 nr inTable)
  · intro slot inRange
    rcases eq_of_lt_slots inRange with rfl | rfl
    · decide
    · decide
  · have twoFree : {0, 1} ⊆ twoTables.free := by
      intro nr member
      simp only [Finset.mem_insert, Finset.mem_singleton] at member
      rcases member with rfl | rfl
      · exact Finset.mem_filter.mpr ⟨Finset.mem_range.mpr (by decide), by decide⟩
      · exact Finset.mem_filter.mpr ⟨Finset.mem_range.mpr (by decide), by decide⟩
    exact Finset.card_le_card twoFree
  · intro slot other less inRange _
    rcases eq_of_lt_slots (less.trans inRange) with rfl | rfl
    · rcases eq_of_lt_slots inRange with rfl | rfl
      · decide
      · decide
    · rcases eq_of_lt_slots inRange with rfl | rfl
      · decide
      · decide
  · exact fun slot inRange _ => isTable slot inRange
  · intro slot inRange other otherInRange _ _ same
    rcases eq_of_lt_slots inRange with rfl | rfl
    · rcases eq_of_lt_slots otherInRange with rfl | rfl
      · rfl
      · exact absurd same (by decide)
    · rcases eq_of_lt_slots otherInRange with rfl | rfl
      · exact absurd same (by decide)
      · rfl
  · intro page inPages shared
    rw [source page inPages] at shared
    exact absurd shared not_shared_zero
  · intro nr
    rw [none nr]
    exact (twoTables.memMap nr).toNat_lt

theorem copiesExactly_iff_fiveMegabytes :
    fiveMegabytes.CopiesExactly twoTables ↔ fiveMegabytes.LastFits twoTables :=
  copiesExactly_iff fiveMegabytes twoTables ready_fiveMegabytes

/-- Of the fifth megabyte 1280 entries are copied, out of a table of 1024. -/
theorem not_copiesExactly_fiveMegabytes :
    ¬∀ (request : CopyRequest) (kernel : Kernel), request.Ready kernel →
      request.CopiesExactly kernel := by
  intro always
  have ready := ready_fiveMegabytes
  generalize isRequest : fiveMegabytes = request at ready
  generalize isKernel : twoTables = kernel at ready
  have fits := (copiesExactly_iff_lastFits request kernel ready).mp (always request kernel ready)
  subst isRequest isKernel
  rcases fits with few | absent
  · have pages : fiveMegabytes.pages = 1280 := by decide
    omega
  · exact absent (by decide)

end CopyRequest

end Linux012.Mm
