import Linux012.Mm.Memory
import Mathlib.Data.Nat.Count

/-!
# The page tables of a fork

`copy_page_tables` copies a range of linear addresses, one page table for each directory entry.
In the last one it goes as far as the size asks for.
-/

namespace Linux012.Mm

/-- The kernel, and the entries of page tables that have been read or written, each by the table
and its number. -/
structure Copying where
  kernel : Kernel
  touched : List (UInt32 × Nat)

/-- How the copying ends, or an entry of it. -/
inductive Copied where
  /-- It returns 0, or goes on. -/
  | done (state : Copying)
  /-- It returns -1. -/
  | noMemory (state : Copying)
  | panics

/-- The state behind an end. -/
def Copied.state? : Copied → Option Copying
  | done state => some state
  | noMemory state => some state
  | panics => none

/-- `this_page &= ~2`. -/
def writeProtected (entry : UInt32) : UInt32 := entry &&& ~~~pageRw

namespace Copying

/-- An entry of a table is read or written. -/
def touch (state : Copying) (table : UInt32) (nr : Nat) : Copying :=
  { state with touched := (table, nr) :: state.touched }

/-- `*ptr = value` in a table. -/
def storeEntry (state : Copying) (table : UInt32) (nr : Nat) (value : UInt32) : Copying :=
  { state with kernel := state.kernel.store (entryPtr table nr) value }.touch table nr

/-- `mem_map[this_page]++`. -/
def share (state : Copying) (page : UInt32) : Copying :=
  { state with kernel := { state.kernel with
      memMap := Function.update state.kernel.memMap (mapNr page)
        (state.kernel.memMap (mapNr page) + 1) } }

/-- The inner loop, for one entry. -/
def copyEntry (state : Copying) (fromTable toTable : UInt32) (nr : Nat) : Copied :=
  let thisPage := state.kernel.memory (entryPtr fromTable nr)
  let state := state.touch fromTable nr
  if thisPage = 0 then .done state
  else if thisPage &&& 1 = 0 then
    match state.kernel.getFreePage with
    | none => .noMemory state
    | some (newPage, kernel) =>
        let state := { state with
          kernel := kernel.readSwapPage (thisPage >>> 1).toNat newPage }
        let state := state.storeEntry toTable nr thisPage
        .done (state.storeEntry fromTable nr (newPage ||| (pageDirty ||| 7)))
  else
    let thisPage := writeProtected thisPage
    let state := state.storeEntry toTable nr thisPage
    if thisPage > lowMem then
      .done ((state.storeEntry fromTable nr thisPage).share thisPage)
    else .done state

/-- The inner loop. -/
def copyEntries (state : Copying) (fromTable toTable : UInt32) : (left nr : Nat) → Copied
  | 0, _ => .done state
  | left + 1, nr =>
      match state.copyEntry fromTable toTable nr with
      | .done state => state.copyEntries fromTable toTable left (nr + 1)
      | other => other

/-- The outer loop. -/
def copySlots (state : Copying) (tmp : Nat) : (size : Nat) → (fromDir toDir : UInt32) → Copied
  | 0, _, _ => .done state
  | size + 1, fromDir, toDir =>
      if 1 &&& state.kernel.memory toDir ≠ 0 then .panics
      else if 1 &&& state.kernel.memory fromDir = 0 then
        state.copySlots tmp size (fromDir + 4) (toDir + 4)
      else
        let fromTable := frameMask &&& state.kernel.memory fromDir
        match state.kernel.getFreePage with
        | none => .noMemory state
        | some (toTable, kernel) =>
            let state := { state with kernel := kernel.store toDir (toTable ||| 7) }
            let nr := if size = 0 then tmp else 1024
            match state.copyEntries fromTable toTable nr 0 with
            | .done state => state.copySlots tmp size (fromDir + 4) (toDir + 4)
            | other => other

end Copying

/-- `copy_page_tables`. -/
def copyPageTables (kernel : Kernel) (fromAddr toAddr : UInt32) (size : Nat) : Copied :=
  if fromAddr &&& 0x3fffff ≠ 0 ∨ toAddr &&& 0x3fffff ≠ 0 then .panics
  else
    let fromDir := (fromAddr >>> 20) &&& 0xffc
    let toDir := (toAddr >>> 20) &&& 0xffc
    let tmp := (size + 0x1000 - 1) >>> 12 &&& (0x1000 - 1)
    let tmp := if tmp = 0 ∧ size ≠ 0 then 1024 else tmp
    (Copying.mk kernel []).copySlots tmp ((size + 0x3fffff) >>> 22) fromDir toDir

/-! ## The entries of one table -/

/-- The page of the entry is above `LOW_MEM`. -/
def Shared (entry : UInt32) : Prop := writeProtected entry > lowMem

instance (entry : UInt32) : Decidable (Shared entry) := inferInstanceAs (Decidable (_ > _))

/-- The page of the entry is above `LOW_MEM` and has the number. -/
def Shares (entry nr : UInt32) : Prop := Shared entry ∧ mapNr entry = nr

instance (entry nr : UInt32) : Decidable (Shares entry nr) := inferInstanceAs (Decidable (_ ∧ _))

/-- The entry is empty or present. -/
def Resident (entry : UInt32) : Prop := entry = 0 ∨ entry &&& 1 ≠ 0

theorem mapNr_writeProtected (entry : UInt32) : mapNr (writeProtected entry) = mapNr entry := by
  have mask : ~~~pageRw &&& frameMask = frameMask := by decide
  rw [← mapNr_frame, writeProtected, UInt32.and_assoc, mask, mapNr_frame]

theorem writeProtected_zero : writeProtected 0 = 0 := by decide

theorem not_shared_zero : ¬Shared 0 := by decide

namespace Copying

variable {state after : Copying} {fromTable toTable : UInt32} {nr : Nat}

@[simp] theorem touch_kernel (state : Copying) (table : UInt32) (nr : Nat) :
    (state.touch table nr).kernel = state.kernel := rfl

@[simp] theorem touch_touched (state : Copying) (table : UInt32) (nr : Nat) :
    (state.touch table nr).touched = (table, nr) :: state.touched := rfl

@[simp] theorem storeEntry_memory (state : Copying) (table : UInt32) (nr : Nat) (value : UInt32)
    (ptr : UInt32) : (state.storeEntry table nr value).kernel.memory ptr =
      if ptr = entryPtr table nr then value else state.kernel.memory ptr :=
  Function.update_apply _ _ _ _

@[simp] theorem storeEntry_memMap (state : Copying) (table : UInt32) (nr : Nat)
    (value : UInt32) : (state.storeEntry table nr value).kernel.memMap = state.kernel.memMap := rfl

@[simp] theorem storeEntry_touched (state : Copying) (table : UInt32) (nr : Nat)
    (value : UInt32) :
    (state.storeEntry table nr value).touched = (table, nr) :: state.touched := rfl

@[simp] theorem share_memory (state : Copying) (page : UInt32) :
    (state.share page).kernel.memory = state.kernel.memory := rfl

@[simp] theorem share_memMap (state : Copying) (page nr : UInt32) :
    (state.share page).kernel.memMap nr =
      state.kernel.memMap nr + if mapNr page = nr then 1 else 0 := by
  rw [share]
  dsimp only
  by_cases same : mapNr page = nr
  · rw [if_pos same, ← same, Function.update_self]
  · rw [if_neg same, Function.update_of_ne (Ne.symm same), UInt8.add_zero]

@[simp] theorem share_touched (state : Copying) (page : UInt32) :
    (state.share page).touched = state.touched := rfl

/-- The first entries of the one table have been copied to the other. -/
structure EntriesDone (before after : Copying) (fromTable toTable : UInt32) (count : Nat) :
    Prop where
  target : ∀ nr < 1024, after.kernel.memory (entryPtr toTable nr) =
    if nr < count ∧ before.kernel.memory (entryPtr fromTable nr) ≠ 0 then
      writeProtected (before.kernel.memory (entryPtr fromTable nr))
    else before.kernel.memory (entryPtr toTable nr)
  source : ∀ nr < 1024, after.kernel.memory (entryPtr fromTable nr) =
    if nr < count ∧ Shared (before.kernel.memory (entryPtr fromTable nr)) then
      writeProtected (before.kernel.memory (entryPtr fromTable nr))
    else before.kernel.memory (entryPtr fromTable nr)
  others : ∀ ptr, ptr &&& frameMask ≠ fromTable → ptr &&& frameMask ≠ toTable →
    after.kernel.memory ptr = before.kernel.memory ptr
  memMap : ∀ page, after.kernel.memMap page = before.kernel.memMap page +
    UInt8.ofNat (Nat.count
      (fun nr => Shares (before.kernel.memory (entryPtr fromTable nr)) page) count)
  high : after.kernel.highMemory = before.kernel.highMemory
  touched : ∀ access ∈ after.touched, access ∈ before.touched ∨ access.2 < 1024

theorem EntriesDone.refl (state : Copying) (fromTable toTable : UInt32) :
    EntriesDone state state fromTable toTable 0 where
  target nr inTable := (if_neg fun copied => absurd copied.1 (Nat.not_lt_zero nr)).symm
  source nr inTable := (if_neg fun copied => absurd copied.1 (Nat.not_lt_zero nr)).symm
  others ptr _ _ := rfl
  memMap page := by
    rw [Nat.count_zero]
    exact (UInt8.add_zero _).symm
  high := rfl
  touched access member := .inl member

/-- The last entry is copied behind the others. -/
theorem copyEntries_succ (state : Copying) (fromTable toTable : UInt32) (left nr : Nat) :
    state.copyEntries fromTable toTable (left + 1) nr =
      match state.copyEntries fromTable toTable left nr with
      | .done state => state.copyEntry fromTable toTable (nr + left)
      | other => other := by
  induction left generalizing state nr with
  | zero =>
      simp only [copyEntries, Nat.add_zero]
      cases state.copyEntry fromTable toTable nr <;> rfl
  | succ left ih =>
      cases first : state.copyEntry fromTable toTable nr with
      | done next =>
          have unfold (left : Nat) : state.copyEntries fromTable toTable (left + 1) nr =
              next.copyEntries fromTable toTable left (nr + 1) := by
            rw [copyEntries, first]
          rw [unfold, unfold, ih, Nat.add_right_comm, Nat.add_assoc]
      | noMemory next => simp only [copyEntries, first]
      | panics => simp only [copyEntries, first]

/-- One more entry, when what the step does is known. -/
theorem EntriesDone.of_step {before : Copying} {count : Nat} {entry : UInt32}
    (done : EntriesDone before state fromTable toTable count) (inTable : count < 1024)
    (apart : fromTable ≠ toTable) (fromAligned : PageAligned fromTable)
    (toAligned : PageAligned toTable)
    (isEntry : before.kernel.memory (entryPtr fromTable count) = entry)
    (memory : ∀ ptr, after.kernel.memory ptr =
      if ptr = entryPtr toTable count ∧ entry ≠ 0 then writeProtected entry
      else if ptr = entryPtr fromTable count ∧ Shared entry then writeProtected entry
      else state.kernel.memory ptr)
    (memMap : ∀ page, after.kernel.memMap page =
      state.kernel.memMap page + if Shares entry page then 1 else 0)
    (high : after.kernel.highMemory = state.kernel.highMemory)
    (touched : ∀ access ∈ after.touched, access ∈ state.touched ∨ access.2 = count) :
    EntriesDone before after fromTable toTable (count + 1) := by
  have differ {nr other : Nat} (less : nr < 1024) (otherLess : other < 1024) :
      entryPtr toTable nr ≠ entryPtr fromTable other := by
    intro same
    have inPage := entryPtr_frame toAligned less
    rw [same, entryPtr_frame fromAligned otherLess] at inPage
    exact apart inPage
  refine ⟨fun nr less => ?_, fun nr less => ?_, fun ptr notFrom notTo => ?_, fun page => ?_,
    high.trans done.high, fun access member => ?_⟩
  · rw [memory]
    by_cases same : nr = count
    · subst same
      simp [isEntry, done.target nr less, differ less less]
    · have other : entryPtr toTable nr ≠ entryPtr toTable count := fun equal =>
        same (entryPtr_inj less inTable equal)
      rw [if_neg fun copied => other copied.1, if_neg fun copied => differ less inTable copied.1,
        done.target nr less]
      have upTo : nr < count + 1 ↔ nr < count := by omega
      simp only [upTo]
  · rw [memory, if_neg fun copied => differ inTable less copied.1.symm]
    by_cases same : nr = count
    · subst same
      simp [isEntry, done.source nr less]
    · have other : entryPtr fromTable nr ≠ entryPtr fromTable count := fun equal =>
        same (entryPtr_inj less inTable equal)
      rw [if_neg fun copied => other copied.1, done.source nr less]
      have upTo : nr < count + 1 ↔ nr < count := by omega
      simp only [upTo]
  · rw [memory, if_neg, if_neg, done.others ptr notFrom notTo]
    · rintro ⟨rfl, -⟩
      exact notFrom (entryPtr_frame fromAligned inTable)
    · rintro ⟨rfl, -⟩
      exact notTo (entryPtr_frame toAligned inTable)
  · rw [memMap, done.memMap, Nat.count_succ, isEntry, UInt8.add_assoc]
    congr 1
    split
    · exact (UInt8.ofNat_add _ _).symm
    · exact UInt8.add_zero _
  · rcases touched access member with isOld | isNew
    · exact done.touched access isOld
    · exact .inr (isNew ▸ inTable)

/-- The inner loop copies an entry that is not swapped out. -/
theorem EntriesDone.succ {before : Copying} {count : Nat}
    (done : EntriesDone before state fromTable toTable count) (inTable : count < 1024)
    (apart : fromTable ≠ toTable) (fromAligned : PageAligned fromTable)
    (toAligned : PageAligned toTable)
    (resident : Resident (before.kernel.memory (entryPtr fromTable count))) :
    ∃ after, state.copyEntry fromTable toTable count = .done after ∧
      EntriesDone before after fromTable toTable (count + 1) := by
  obtain ⟨entry, isEntry⟩ : ∃ entry, before.kernel.memory (entryPtr fromTable count) = entry :=
    ⟨_, rfl⟩
  have same : state.kernel.memory (entryPtr fromTable count) = entry := by
    rw [done.source count inTable, if_neg fun copied => absurd copied.1 (Nat.lt_irrefl count),
      isEntry]
  have apartEntries : entryPtr fromTable count ≠ entryPtr toTable count := by
    intro equal
    have inPage := entryPtr_frame fromAligned inTable
    rw [equal, entryPtr_frame toAligned inTable] at inPage
    exact apart inPage.symm
  rw [copyEntry]
  dsimp only
  rw [same]
  by_cases empty : entry = 0
  · rw [if_pos empty]
    refine ⟨_, rfl, done.of_step inTable apart fromAligned toAligned isEntry ?_ ?_ rfl ?_⟩
    · simp [empty, not_shared_zero]
    · simp [empty, Shares, not_shared_zero]
    · simp +contextual
  · rw [if_neg empty]
    have present : entry &&& 1 ≠ 0 := (isEntry ▸ resident).resolve_left empty
    rw [if_neg present]
    by_cases shared : writeProtected entry > lowMem
    · rw [if_pos shared]
      have isShared : Shared entry := shared
      refine ⟨_, rfl, done.of_step inTable apart fromAligned toAligned isEntry ?_ ?_ rfl ?_⟩
      · intro ptr
        by_cases isFrom : ptr = entryPtr fromTable count
        · simp [isFrom, isShared, apartEntries]
        · simp [isFrom, empty]
      · simp [Shares, isShared, mapNr_writeProtected]
      · simp +contextual
    · rw [if_neg shared]
      have notShared : ¬Shared entry := shared
      refine ⟨_, rfl, done.of_step inTable apart fromAligned toAligned isEntry ?_ ?_ rfl ?_⟩
      · simp [notShared, empty]
      · simp [Shares, notShared]
      · simp +contextual

/-- The inner loop copies the entries. -/
theorem copyEntries_done (state : Copying) {count : Nat} (inTable : count ≤ 1024)
    (apart : fromTable ≠ toTable) (fromAligned : PageAligned fromTable)
    (toAligned : PageAligned toTable)
    (resident : ∀ nr < 1024, Resident (state.kernel.memory (entryPtr fromTable nr))) :
    ∃ after, state.copyEntries fromTable toTable count 0 = .done after ∧
      EntriesDone state after fromTable toTable count := by
  induction count with
  | zero => exact ⟨state, rfl, .refl state fromTable toTable⟩
  | succ count ih =>
      obtain ⟨next, isNext, done⟩ := ih (Nat.le_of_succ_le inTable)
      obtain ⟨after, isAfter, doneAfter⟩ :=
        done.succ inTable apart fromAligned toAligned (resident count inTable)
      refine ⟨after, ?_, doneAfter⟩
      rw [copyEntries_succ, isNext]
      simpa only [Nat.zero_add] using isAfter

end Copying

/-! ## Entries behind the table -/

namespace Copying

variable {state after : Copying} {fromTable toTable : UInt32} {nr : Nat}

theorem copyEntries_append (state : Copying) (fromTable toTable : UInt32) (first more nr : Nat) :
    state.copyEntries fromTable toTable (first + more) nr =
      match state.copyEntries fromTable toTable first nr with
      | .done state => state.copyEntries fromTable toTable more (nr + first)
      | other => other := by
  induction first generalizing state nr with
  | zero => rw [Nat.zero_add, copyEntries, Nat.add_zero]
  | succ first ih =>
      rw [Nat.add_right_comm, copyEntries, copyEntries]
      cases state.copyEntry fromTable toTable nr with
      | done next =>
          dsimp only
          rw [ih, Nat.add_right_comm, Nat.add_assoc]
      | noMemory next => rfl
      | panics => rfl

/-- The entry is read, whatever is in it. -/
theorem copyEntry_touches (isAfter : (state.copyEntry fromTable toTable nr).state? = some after) :
    (fromTable, nr) ∈ after.touched ∧ state.touched ⊆ after.touched := by
  rw [copyEntry] at isAfter
  dsimp only at isAfter
  split at isAfter
  next => cases isAfter; simp
  next =>
    split at isAfter
    next =>
      split at isAfter
      next => cases isAfter; simp
      next =>
        cases isAfter
        exact ⟨by simp, fun access member => by simp [member]⟩
    next =>
      split at isAfter
      next =>
        cases isAfter
        exact ⟨by simp, fun access member => by simp [member]⟩
      next =>
        cases isAfter
        exact ⟨by simp, fun access member => by simp [member]⟩

theorem touched_subset {left : Nat}
    (isAfter : (state.copyEntries fromTable toTable left nr).state? = some after) :
    state.touched ⊆ after.touched := by
  induction left generalizing state nr with
  | zero => cases isAfter; exact List.Subset.refl _
  | succ left ih =>
      rw [copyEntries] at isAfter
      cases isFirst : state.copyEntry fromTable toTable nr with
      | done next =>
          rw [isFirst] at isAfter
          exact List.Subset.trans (copyEntry_touches (congrArg Copied.state? isFirst)).2 (ih isAfter)
      | noMemory next =>
          rw [isFirst] at isAfter
          cases isAfter
          exact (copyEntry_touches (congrArg Copied.state? isFirst)).2
      | panics =>
          rw [isFirst] at isAfter
          cases isAfter

theorem mem_touched_succ {left : Nat}
    (isAfter : (state.copyEntries fromTable toTable (left + 1) nr).state? = some after) :
    (fromTable, nr) ∈ after.touched := by
  rw [copyEntries] at isAfter
  cases isFirst : state.copyEntry fromTable toTable nr with
  | done next =>
      rw [isFirst] at isAfter
      exact touched_subset isAfter (copyEntry_touches (congrArg Copied.state? isFirst)).1
  | noMemory next =>
      rw [isFirst] at isAfter
      cases isAfter
      exact (copyEntry_touches (congrArg Copied.state? isFirst)).1
  | panics =>
      rw [isFirst] at isAfter
      cases isAfter

end Copying

end Linux012.Mm
