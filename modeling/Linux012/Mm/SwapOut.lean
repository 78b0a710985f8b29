import Linux012.Mm.Memory

/-!
# The search for a page to swap out

`swap_out` goes round the user page tables from its two static cursors until an entry gives its
page up.  A position in the round is the number of directories passed and the entry.
-/

namespace Linux012.Mm

/-- What `try_to_swap_out` and `swap_out` do. -/
inductive Outcome where
  /-- They return 0. -/
  | kept
  /-- They return 1. -/
  | evicted (kernel : Kernel)
  /-- `free_page` panics. -/
  | panics

/-- `try_to_swap_out`. -/
def Kernel.tryToSwapOut (kernel : Kernel) (tablePtr : UInt32) : Outcome :=
  let page := kernel.memory tablePtr
  if pagePresent &&& page = 0 then .kept
  else if page - lowMem > pagingMemory then .kept
  else if pageDirty &&& page ≠ 0 then
    let page := page &&& frameMask
    if kernel.memMap (mapNr page) ≠ 1 then .kept
    else
      let (swapNr, kernel) := kernel.getSwapPage
      if swapNr = 0 then .kept
      else
        let kernel := kernel.store tablePtr (UInt32.ofNat swapNr <<< 1)
        match (kernel.writeSwapPage swapNr page).freePage page with
        | some kernel => .evicted kernel
        | none => .panics
  else
    match (kernel.store tablePtr 0).freePage page with
    | some kernel => .evicted kernel
    | none => .panics

/-! ## The loops -/

/-- `FIRST_VM_PAGE>>10`. -/
abbrev firstDir : Nat := 16
/-- `VM_PAGES`. -/
abbrev vmPages : Int := 1008 * 1024

/-- The static variables `dir_entry` and `page_entry`. -/
structure Cursors where
  dirEntry : Nat
  pageEntry : Int
  deriving DecidableEq, Repr

/-- The values that they are initialised with. -/
def Cursors.init : Cursors := ⟨firstDir, -1⟩

def nextDir (dirEntry : Nat) : Nat :=
  if dirEntry + 1 ≥ 1024 then firstDir else dirEntry + 1

namespace Kernel

abbrev DirPresent (kernel : Kernel) (dirEntry : Nat) : Prop := kernel.pgDir dirEntry &&& 1 ≠ 0

/-- The first loop: `counter`, `dir_entry` and `pg_table` behind it. -/
def findDir (kernel : Kernel) (counter : Int) (dirEntry : Nat) (pgTable : UInt32) :
    Int × Nat × UInt32 :=
  if 0 < counter then
    let pgTable := kernel.pgDir dirEntry
    if pgTable &&& 1 ≠ 0 then (counter, dirEntry, pgTable)
    else kernel.findDir (counter - 1024) (nextDir dirEntry) pgTable
  else (counter, dirEntry, pgTable)
termination_by counter.toNat

/-- From `repeat:` to the `break` or to the next table: `counter` and `pg_table` there. -/
def nextTable (kernel : Kernel) (counter : Int) (dirEntry : Nat) :
    Option (Int × UInt32) × Nat :=
  let dirEntry := nextDir dirEntry
  let pgTable := kernel.pgDir dirEntry
  if pgTable &&& 1 = 0 then
    if counter - 1024 > 0 then kernel.nextTable (counter - 1024) dirEntry
    else (none, dirEntry)
  else (some (counter, pgTable &&& frameMask), dirEntry)
termination_by counter.toNat

theorem nextTable_counter_le {kernel : Kernel} {counter left : Int} {dirEntry next : Nat}
    {pgTable : UInt32}
    (isNext : kernel.nextTable counter dirEntry = (some (left, pgTable), next)) :
    left ≤ counter := by
  fun_induction kernel.nextTable counter dirEntry with
  | case1 counter dirEntry dir table absent more ih =>
      have fewer := ih isNext
      omega
  | case2 => simp at isNext
  | case3 =>
      simp only [Prod.mk.injEq, Option.some.injEq] at isNext
      omega

/-- The second loop. -/
def scan (kernel : Kernel) (counter : Int) (cursors : Cursors) (pgTable : UInt32) :
    Outcome × Cursors :=
  if 0 < counter then
    let counter := counter - 1
    let pageEntry := cursors.pageEntry + 1
    if pageEntry ≥ 1024 then
      match _isNext : kernel.nextTable counter cursors.dirEntry with
      | (none, dirEntry) => (.kept, ⟨dirEntry, 0⟩)
      | (some (left, pgTable), dirEntry) =>
          match kernel.tryToSwapOut pgTable with
          | .kept => kernel.scan left ⟨dirEntry, 0⟩ pgTable
          | outcome => (outcome, ⟨dirEntry, 0⟩)
    else
      match kernel.tryToSwapOut (pgTable + 4 * UInt32.ofInt pageEntry) with
      | .kept => kernel.scan counter ⟨cursors.dirEntry, pageEntry⟩ pgTable
      | outcome => (outcome, ⟨cursors.dirEntry, pageEntry⟩)
  else (.kept, cursors)
termination_by counter.toNat
decreasing_by
  · have fewer := nextTable_counter_le _isNext
    omega
  · omega

/-- `swap_out`. -/
def swapOut (kernel : Kernel) (cursors : Cursors) : Outcome × Cursors :=
  let (counter, dirEntry, pgTable) := kernel.findDir vmPages cursors.dirEntry 0
  kernel.scan counter { cursors with dirEntry } (pgTable &&& frameMask)

end Kernel

/-! ## The round -/

/-- The directory entry behind `passed` others. -/
def dirAt (start passed : Nat) : Nat := firstDir + (start - firstDir + passed) % 1008

theorem dirAt_range (start passed : Nat) :
    firstDir ≤ dirAt start passed ∧ dirAt start passed < 1024 := by
  rw [dirAt, firstDir]
  omega

theorem dirAt_zero {start : Nat} (inRange : firstDir ≤ start ∧ start < 1024) :
    dirAt start 0 = start := by
  rw [dirAt]
  rw [firstDir] at inRange ⊢
  omega

@[simp] theorem nextDir_dirAt (start passed : Nat) :
    nextDir (dirAt start passed) = dirAt start (passed + 1) := by
  rw [nextDir, dirAt, dirAt, firstDir]
  split <;> omega

theorem dirAt_add_round (start passed : Nat) : dirAt start (passed + 1008) = dirAt start passed := by
  rw [dirAt, dirAt, ← Nat.add_assoc, Nat.add_mod_right]

/-- Every directory entry is met once in a round. -/
theorem exists_dirAt {start dirEntry : Nat} (inRange : firstDir ≤ start ∧ start < 1024)
    (isUser : firstDir ≤ dirEntry ∧ dirEntry < 1024) :
    ∃ passed < 1008, dirAt start passed = dirEntry := by
  refine ⟨(dirEntry + 1008 - start) % 1008, Nat.mod_lt _ (by decide), ?_⟩
  rw [dirAt]
  rw [firstDir] at *
  omega

theorem dirAt_inj {start first second : Nat} (ltFirst : first < 1008) (ltSecond : second < 1008)
    (same : dirAt start first = dirAt start second) : first = second := by
  rw [dirAt, dirAt] at same
  omega

variable {kernel : Kernel} {start passed : Nat}

/-- All directory entries from the first position to behind the second are absent. -/
def Kernel.AbsentBetween (kernel : Kernel) (start first last : Nat) : Prop :=
  ∀ passed, first ≤ passed → passed < last → ¬kernel.DirPresent (dirAt start passed)

theorem Kernel.AbsentBetween.cons {last : Nat}
    (absent : ¬kernel.DirPresent (dirAt start passed))
    (others : kernel.AbsentBetween start (passed + 1) last) :
    kernel.AbsentBetween start passed last := by
  intro other atLeast below
  rcases Nat.eq_or_lt_of_le atLeast with rfl | later
  · exact absent
  · exact others other later below

/-- The first loop goes to the first table that is present, or round. -/
theorem Kernel.findDir_spec (kernel : Kernel) (start passed : Nat) (atMost : passed ≤ 1008)
    (pgTable : UInt32) :
    (∃ found, passed ≤ found ∧ found < 1008 ∧ kernel.AbsentBetween start passed found ∧
      kernel.DirPresent (dirAt start found) ∧
      kernel.findDir (1024 * (1008 - passed)) (dirAt start passed) pgTable =
        (1024 * (1008 - (found : Int)), dirAt start found, kernel.pgDir (dirAt start found))) ∨
    kernel.AbsentBetween start passed 1008 ∧
      ∃ pgTable', kernel.findDir (1024 * (1008 - passed)) (dirAt start passed) pgTable =
        (0, dirAt start 1008, pgTable') := by
  induction left : 1008 - passed generalizing passed pgTable with
  | zero =>
      have all : passed = 1008 := by omega
      subst all
      refine .inr ⟨fun other atLeast below => absurd below (by omega), pgTable, ?_⟩
      rw [findDir, if_neg (by decide)]
      rfl
  | succ left ih =>
      rw [findDir, if_pos (by omega)]
      by_cases present : kernel.DirPresent (dirAt start passed)
      · refine .inl ⟨passed, le_rfl, by omega, fun other atLeast below => by omega, present, ?_⟩
        dsimp only
        rw [if_pos present]
      · dsimp only
        rw [if_neg present, nextDir_dirAt]
        have counter : (1024 * (1008 - passed) - 1024 : Int) =
            1024 * (1008 - (passed + 1 : Nat)) := by omega
        rw [counter]
        rcases ih (passed + 1) (by omega) (kernel.pgDir (dirAt start passed)) (by omega) with
          ⟨found, atLeast, below, absent, isPresent, same⟩ | ⟨absent, table, same⟩
        · exact .inl ⟨found, by omega, below, .cons present absent, isPresent, same⟩
        · exact .inr ⟨.cons present absent, table, same⟩

/-- From `repeat:` to the next table that is present, or to the `break`. -/
theorem Kernel.nextTable_spec (kernel : Kernel) (start passed : Nat) (counter : Int) :
    (∃ found left, passed < found ∧ kernel.AbsentBetween start (passed + 1) found ∧
      kernel.DirPresent (dirAt start found) ∧
      left = counter - 1024 * (found - passed - 1) ∧ (found = passed + 1 ∨ 0 < left) ∧
      kernel.nextTable counter (dirAt start passed) =
        (some (left, kernel.pgDir (dirAt start found) &&& frameMask), dirAt start found)) ∨
    ∃ last, passed < last ∧ kernel.AbsentBetween start (passed + 1) (last + 1) ∧
      counter ≤ 1024 * (last - passed) ∧
      kernel.nextTable counter (dirAt start passed) = (none, dirAt start last) := by
  induction bound : counter.toNat using Nat.strong_induction_on generalizing counter passed with
  | _ bound ih =>
      rw [nextTable, nextDir_dirAt]
      by_cases present : kernel.DirPresent (dirAt start (passed + 1))
      · rw [if_neg present]
        exact .inl ⟨passed + 1, counter, by omega, fun other atLeast below => by omega, present,
          by omega, .inl rfl, rfl⟩
      · have isZero : kernel.pgDir (dirAt start (passed + 1)) &&& 1 = 0 := not_not.mp present
        rw [if_pos isZero]
        by_cases more : counter - 1024 > 0
        · rw [if_pos more]
          rcases ih (counter - 1024).toNat (by omega) (passed + 1) (counter - 1024) rfl with
            ⟨found, left, above, absent, isPresent, isLeft, stays, same⟩ |
            ⟨last, above, absent, low, same⟩
          · refine .inl ⟨found, left, by omega, .cons present absent, isPresent, ?_, ?_, same⟩
            · omega
            · right
              rcases stays with isNext | positive
              · omega
              · exact positive
          · refine .inr ⟨last, by omega, .cons present absent, ?_, same⟩
            omega
        · rw [if_neg more]
          refine .inr ⟨passed + 1, by omega, ?_, by omega, rfl⟩
          intro other atLeast below
          have same : other = passed + 1 := by omega
          exact same ▸ present

/-! ## What is tried -/

namespace Kernel

/-- The address of an entry, by its directory entry. -/
def entry (kernel : Kernel) (dirEntry pageEntry : Nat) : UInt32 :=
  entryPtr (kernel.pgDir dirEntry &&& frameMask) pageEntry

theorem entry_zero (kernel : Kernel) (dirEntry : Nat) :
    kernel.entry dirEntry 0 = kernel.pgDir dirEntry &&& frameMask := by
  rw [entry]
  exact UInt32.add_zero _

/-- The entries of present tables behind a position, as far as the counter goes.  The last
position is not reached from an absent directory entry, where the counter is compared first. -/
structure Behind (kernel : Kernel) (start : Nat) (limit : Int) (passed : Nat) (pageEntry : Int)
    (other otherEntry : Nat) : Prop where
  present : kernel.DirPresent (dirAt start other)
  inTable : otherEntry < 1024
  behind : 1024 * passed + pageEntry < 1024 * (other : Int) + otherEntry
  before : 1024 * (other : Int) + otherEntry ≤ limit
  reached : otherEntry = 0 → 1024 * (other : Int) = limit →
    kernel.DirPresent (dirAt start (other - 1))

/-- The first of the entries that is not kept gives the result. -/
def Searches (kernel : Kernel) (start : Nat) (result : Outcome) (tried : Nat → Nat → Prop) :
    Prop :=
  (result = .kept ∧ ∀ passed pageEntry, tried passed pageEntry →
    kernel.tryToSwapOut (kernel.entry (dirAt start passed) pageEntry) = .kept) ∨
  result ≠ .kept ∧ ∃ passed pageEntry, tried passed pageEntry ∧
    kernel.tryToSwapOut (kernel.entry (dirAt start passed) pageEntry) = result

variable {result : Outcome} {tried others : Nat → Nat → Prop}

theorem Searches.none (nothing : ∀ passed pageEntry, ¬tried passed pageEntry) :
    kernel.Searches start .kept tried :=
  .inl ⟨rfl, fun passed pageEntry isTried => absurd isTried (nothing passed pageEntry)⟩

/-- One entry is tried, and then the others. -/
theorem Searches.cons {pageEntry : Nat} {rest : Outcome × Cursors} {cursors : Cursors}
    (searches : kernel.Searches start rest.1 others)
    (isOr : ∀ other otherEntry, tried other otherEntry ↔
      (other = passed ∧ otherEntry = pageEntry) ∨ others other otherEntry) :
    kernel.Searches start
      (match kernel.tryToSwapOut (kernel.entry (dirAt start passed) pageEntry) with
        | .kept => rest
        | outcome => (outcome, cursors)).1 tried := by
  have isTried : tried passed pageEntry := (isOr passed pageEntry).mpr (.inl ⟨rfl, rfl⟩)
  split
  next isKept =>
    rcases searches with ⟨gives, allKept⟩ | ⟨notKept, other, otherEntry, isOther, gives⟩
    · refine .inl ⟨gives, fun other otherEntry isTried => ?_⟩
      rcases (isOr other otherEntry).mp isTried with ⟨rfl, rfl⟩ | isOther
      · exact isKept
      · exact allKept other otherEntry isOther
    · exact .inr ⟨notKept, other, otherEntry, (isOr other otherEntry).mpr (.inr isOther), gives⟩
  next notKept => exact .inr ⟨notKept, passed, pageEntry, isTried, rfl⟩

/-- Behind an entry come the next one of the table and those behind it. -/
theorem behind_iff_inTable {limit : Int} {pageEntry other otherEntry : Nat}
    (present : kernel.DirPresent (dirAt start passed)) (inTable : pageEntry < 1024)
    (within : 1024 * passed + (pageEntry : Int) ≤ limit)
    (notLast : pageEntry = 0 → 1024 * (passed : Int) ≠ limit) :
    kernel.Behind start limit passed (pageEntry - 1) other otherEntry ↔
      (other = passed ∧ otherEntry = pageEntry) ∨
        kernel.Behind start limit passed pageEntry other otherEntry := by
  constructor
  · intro tried
    by_cases same : other = passed ∧ otherEntry = pageEntry
    · exact .inl same
    · have behind := tried.behind
      have inOther := tried.inTable
      exact .inr ⟨tried.present, inOther, by omega, tried.before, tried.reached⟩
  · rintro (⟨rfl, rfl⟩ | tried)
    · exact ⟨present, inTable, by omega, within, fun isFirst isLast =>
        absurd isLast (notLast isFirst)⟩
    · have behind := tried.behind
      exact ⟨tried.present, tried.inTable, by omega, tried.before, tried.reached⟩

/-- Behind a table come the first entry of the next one and those behind it. -/
theorem behind_iff_nextTable {limit : Int} {found other otherEntry : Nat} (above : passed < found)
    (absent : kernel.AbsentBetween start (passed + 1) found)
    (present : kernel.DirPresent (dirAt start found))
    (within : 1024 * (found : Int) ≤ limit)
    (reached : 1024 * (found : Int) = limit → kernel.DirPresent (dirAt start (found - 1))) :
    kernel.Behind start limit passed 1023 other otherEntry ↔
      (other = found ∧ otherEntry = 0) ∨
        kernel.Behind start limit found (0 : Nat) other otherEntry := by
  constructor
  · intro tried
    by_cases same : other = found ∧ otherEntry = 0
    · exact .inl same
    · have behind := tried.behind
      have inOther := tried.inTable
      have notBetween : ¬(passed + 1 ≤ other ∧ other < found) := fun between =>
        absent other between.1 between.2 tried.present
      exact .inr ⟨tried.present, inOther, by omega, tried.before, tried.reached⟩
  · rintro (⟨rfl, rfl⟩ | tried)
    · exact ⟨present, by decide, by omega, by omega, fun _ => reached⟩
    · have behind := tried.behind
      exact ⟨tried.present, tried.inTable, by omega, tried.before, tried.reached⟩

theorem ofInt_eq_ofNat {number : Nat} (small : number < 1024) :
    UInt32.ofInt (number : Int) = UInt32.ofNat number := by
  rw [UInt32.ofInt, Int.emod_eq_of_lt (by omega) (by omega)]
  rfl

/-- The second loop tries the entries behind its position. -/
theorem scan_searches (kernel : Kernel) (start passed : Nat) (pageEntry counter limit : Int)
    (present : kernel.DirPresent (dirAt start passed))
    (inTable : -1 ≤ pageEntry ∧ pageEntry ≤ 1023)
    (isLimit : 1024 * passed + pageEntry + counter = limit) (notNegative : 0 ≤ counter)
    (notLast : pageEntry = -1 → 1024 * (passed : Int) ≠ limit) :
    kernel.Searches start
      (kernel.scan counter ⟨dirAt start passed, pageEntry⟩
        (kernel.pgDir (dirAt start passed) &&& frameMask)).1
      (kernel.Behind start limit passed pageEntry) := by
  induction bound : counter.toNat using Nat.strong_induction_on
    generalizing passed pageEntry counter with
  | _ bound ih =>
      rw [scan]
      by_cases more : 0 < counter
      · rw [if_pos more]
        dsimp only
        by_cases last : pageEntry + 1 ≥ 1024
        · rw [if_pos last]
          obtain rfl : pageEntry = 1023 := by omega
          rcases kernel.nextTable_spec start passed (counter - 1) with
            ⟨found, left, above, absent, isPresent, isLeft, stays, isNext⟩ |
            ⟨last, above, absent, low, isNext⟩
          · have searches := ih left.toNat (by omega) found (0 : Nat) left isPresent (by simp)
              (by omega) (by omega) (by simp) rfl
            split
            next isNone => simp [isNext] at isNone
            next table next isFound =>
              simp only [isNext, Prod.mk.injEq, Option.some.injEq] at isFound
              obtain ⟨⟨rfl, rfl⟩, rfl⟩ := isFound
              rw [← entry_zero] at searches ⊢
              refine Searches.cons searches fun other otherEntry =>
                behind_iff_nextTable above absent isPresent (by omega) fun isLast => ?_
              obtain rfl : found = passed + 1 := by omega
              exact present
          · split
            next isNone =>
              refine .none fun other otherEntry tried => ?_
              have behind := tried.behind
              have before := tried.before
              have inOther := tried.inTable
              have notBetween : ¬other ≤ last := fun atMost =>
                absent other (by omega) (by omega) tried.present
              obtain rfl : other = last + 1 := by omega
              exact absent last (by omega) (by omega) (tried.reached (by omega) (by omega))
            next isFound => simp [isNext] at isFound
        · rw [if_neg last]
          obtain ⟨next, isNext⟩ := Int.eq_ofNat_of_zero_le (by omega : 0 ≤ pageEntry + 1)
          obtain rfl : pageEntry = (next : Int) - 1 := by omega
          rw [isNext, ofInt_eq_ofNat (by omega)]
          have searches := ih (counter - 1).toNat (by omega) passed next (counter - 1) present
            (by omega) (by omega) (by omega) (by omega) rfl
          exact Searches.cons searches fun other otherEntry =>
            behind_iff_inTable present (by omega) (by omega) (by omega)
      · rw [if_neg more]
        refine .none fun other otherEntry tried => ?_
        have behind := tried.behind
        have before := tried.before
        omega

end Kernel

/-! ## One page is evicted -/

/-- The page of the entry is swapped out, and nothing else changes. -/
structure EvictsAt (before after : Kernel) (ptr : UInt32) : Prop where
  present : pagePresent &&& before.memory ptr ≠ 0
  absent : pagePresent &&& after.memory ptr = 0
  others : ∀ other ≠ ptr, after.memory other = before.memory other
  inUse : before.memMap (mapNr (before.memory ptr)) ≠ 0
  freed : after.memMap = Function.update before.memMap (mapNr (before.memory ptr))
    (before.memMap (mapNr (before.memory ptr)) - 1)
  /-- A dirty page is on the swap device, on a page that was free. -/
  saved : pageDirty &&& before.memory ptr ≠ 0 → ∃ bitmap nr,
    before.swapBitmap = some bitmap ∧ bitmap nr = true ∧ nr < 32768 ∧
    after.swapBitmap = some (Function.update bitmap nr false) ∧
    after.memory ptr = UInt32.ofNat nr <<< 1 ∧
    after.swapPages = Function.update before.swapPages nr
      fun offset => after.memory ((before.memory ptr &&& frameMask) + offset)
  clean : pageDirty &&& before.memory ptr = 0 → after.swapBitmap = before.swapBitmap ∧
    after.memory ptr = 0 ∧ after.swapPages = before.swapPages

theorem present_and_shiftLeft (word : UInt32) : pagePresent &&& (word <<< 1) = 0 := by
  apply UInt32.toNat_inj.mp
  rw [UInt32.toNat_and, UInt32.toNat_shiftLeft, UInt32.toNat_one, Nat.one_and_eq_mod_two,
    UInt32.toNat_zero]
  have shift : word.toNat <<< (1 % 32) = word.toNat * 2 := Nat.shiftLeft_eq _ _
  rw [shift]
  omega

/-- What is promised of the result for one entry. -/
def EvictsOne (kernel : Kernel) (ptr : UInt32) : Outcome → Prop
  | .kept => True
  | .evicted after => EvictsAt kernel after ptr
  | .panics => kernel.BadPage (kernel.memory ptr)

/-- A page is released behind its entry. -/
theorem Kernel.evictsOne_of_freePage {before : Kernel} {ptr page : UInt32}
    (isPage : lowMem ≤ page) (sameNr : mapNr page = mapNr (before.memory ptr))
    (atMost : page ≤ before.memory ptr) (sameMap : kernel.memMap = before.memMap)
    (sameHigh : kernel.highMemory = before.highMemory)
    (evicts : ∀ after : Kernel, after.memory = kernel.memory →
      after.swapBitmap = kernel.swapBitmap → after.swapPages = kernel.swapPages →
      before.memMap (mapNr (before.memory ptr)) ≠ 0 →
      after.memMap = Function.update before.memMap (mapNr (before.memory ptr))
        (before.memMap (mapNr (before.memory ptr)) - 1) → EvictsAt before after ptr) :
    EvictsOne before ptr (match kernel.freePage page with
      | some kernel => .evicted kernel
      | none => .panics) := by
  split
  next after isFreed =>
    obtain ⟨inUse, rfl⟩ := freePage_eq_some isPage isFreed
    rw [sameMap, sameNr] at inUse
    refine evicts _ rfl rfl rfl inUse ?_
    simp only [sameMap, sameNr]
  next panics =>
    have bad := freePage_eq_none panics
    rw [BadPage, sameMap, sameNr, sameHigh] at bad
    exact bad.imp_left fun tooHigh => UInt32.le_trans tooHigh atMost

/-- `try_to_swap_out` keeps the page, evicts it, or panics for a page that is not in use. -/
theorem Kernel.tryToSwapOut_spec (kernel : Kernel) (ptr : UInt32) :
    EvictsOne kernel ptr (kernel.tryToSwapOut ptr) := by
  rw [tryToSwapOut]
  dsimp only
  by_cases absent : pagePresent &&& kernel.memory ptr = 0
  · rw [if_pos absent]
    trivial
  rw [if_neg absent]
  by_cases outside : kernel.memory ptr - lowMem > pagingMemory
  · rw [if_pos outside]
    trivial
  rw [if_neg outside]
  obtain ⟨isPage, isFrame⟩ := lowMem_le_of_paging outside
  by_cases dirty : pageDirty &&& kernel.memory ptr ≠ 0
  · rw [if_pos dirty]
    by_cases shared : kernel.memMap (mapNr (kernel.memory ptr &&& frameMask)) ≠ 1
    · rw [if_pos shared]
      trivial
    rw [if_neg shared]
    generalize isSlot : kernel.getSwapPage = slot
    obtain ⟨nr, taken⟩ := slot
    dsimp only
    by_cases noSlot : nr = 0
    · rw [if_pos noSlot]
      trivial
    rw [if_neg noSlot]
    obtain ⟨bitmap, isBitmap, wasFree, below, rfl⟩ := getSwapPage_spec isSlot noSlot
    refine evictsOne_of_freePage isFrame (mapNr_frame _) (frame_le _) rfl rfl ?_
    intro after sameMemory sameBitmap samePages inUse freed
    have entry : after.memory ptr = UInt32.ofNat nr <<< 1 :=
      (congrFun sameMemory ptr).trans (Function.update_self ptr _ _)
    exact {
      present := absent
      absent := entry ▸ present_and_shiftLeft _
      others := fun other differs =>
        (congrFun sameMemory other).trans (Function.update_of_ne differs _ _)
      inUse := inUse
      freed := freed
      saved := fun _ => ⟨bitmap, _, isBitmap, wasFree, below, sameBitmap, entry, by
        rw [samePages, sameMemory]
        rfl⟩
      clean := fun isClean => absurd isClean dirty }
  · rw [if_neg dirty]
    refine evictsOne_of_freePage isPage rfl UInt32.le_rfl rfl rfl ?_
    intro after sameMemory sameBitmap samePages inUse freed
    have entry : after.memory ptr = 0 :=
      (congrFun sameMemory ptr).trans (Function.update_self ptr _ _)
    exact {
      present := absent
      absent := by rw [entry]; rfl
      others := fun other differs =>
        (congrFun sameMemory other).trans (Function.update_of_ne differs _ _)
      inUse := inUse
      freed := freed
      saved := fun isDirty => absurd isDirty dirty
      clean := fun _ => ⟨sameBitmap, entry, samePages⟩ }

/-! ## The cursors -/

/-- The values that the static variables have. -/
inductive Reachable : Cursors → Prop where
  | init : Reachable .init
  | call (kernel : Kernel) {cursors : Cursors} (reachable : Reachable cursors) :
      Reachable (kernel.swapOut cursors).2

structure Cursors.InRange (cursors : Cursors) : Prop where
  dirEntry : firstDir ≤ cursors.dirEntry ∧ cursors.dirEntry < 1024
  pageEntry : -1 ≤ cursors.pageEntry ∧ cursors.pageEntry ≤ 1023

theorem nextDir_range {dirEntry : Nat} (inRange : firstDir ≤ dirEntry ∧ dirEntry < 1024) :
    firstDir ≤ nextDir dirEntry ∧ nextDir dirEntry < 1024 := by
  rw [nextDir]
  rw [firstDir] at *
  split <;> omega

namespace Kernel

theorem findDir_range (kernel : Kernel) (counter : Int) (dirEntry : Nat) (pgTable : UInt32)
    (inRange : firstDir ≤ dirEntry ∧ dirEntry < 1024) :
    firstDir ≤ (kernel.findDir counter dirEntry pgTable).2.1 ∧
      (kernel.findDir counter dirEntry pgTable).2.1 < 1024 := by
  fun_induction kernel.findDir counter dirEntry pgTable with
  | case1 => exact inRange
  | case2 counter dirEntry pgTable more table absent ih => exact ih (nextDir_range inRange)
  | case3 => exact inRange

theorem nextTable_range (kernel : Kernel) (counter : Int) (dirEntry : Nat)
    (inRange : firstDir ≤ dirEntry ∧ dirEntry < 1024) :
    firstDir ≤ (kernel.nextTable counter dirEntry).2 ∧
      (kernel.nextTable counter dirEntry).2 < 1024 := by
  fun_induction kernel.nextTable counter dirEntry with
  | case1 counter dirEntry dir table absent more ih => exact ih (nextDir_range inRange)
  | case2 => exact nextDir_range inRange
  | case3 => exact nextDir_range inRange

theorem scan_inRange (kernel : Kernel) (counter : Int) {cursors : Cursors} (pgTable : UInt32)
    (inRange : cursors.InRange) : (kernel.scan counter cursors pgTable).2.InRange := by
  fun_induction kernel.scan counter cursors pgTable with
  | case1 counter cursors pgTable more fewer pageEntry last dirEntry isNone =>
      have next := kernel.nextTable_range fewer cursors.dirEntry inRange.dirEntry
      rw [isNone] at next
      exact ⟨next, by simp⟩
  | case2 counter cursors pgTable more fewer pageEntry last left table dirEntry isNext kept ih =>
      have next := kernel.nextTable_range fewer cursors.dirEntry inRange.dirEntry
      rw [isNext] at next
      exact ih ⟨next, by simp⟩
  | case3 counter cursors pgTable more fewer pageEntry last left table dirEntry isNext =>
      have next := kernel.nextTable_range fewer cursors.dirEntry inRange.dirEntry
      rw [isNext] at next
      exact ⟨next, by simp⟩
  | case4 counter cursors pgTable more fewer pageEntry inTable kept ih =>
      have bounds := inRange.pageEntry
      exact ih ⟨inRange.dirEntry, by dsimp only; omega, by dsimp only; omega⟩
  | case5 counter cursors pgTable more fewer pageEntry inTable =>
      have bounds := inRange.pageEntry
      exact ⟨inRange.dirEntry, by dsimp only; omega, by dsimp only; omega⟩
  | case6 => exact inRange

end Kernel

theorem Reachable.inRange {cursors : Cursors} (reachable : Reachable cursors) :
    cursors.InRange := by
  induction reachable with
  | init => exact ⟨by decide, by decide⟩
  | call kernel reachable inRange =>
      exact kernel.scan_inRange _ _
        ⟨kernel.findDir_range _ _ _ inRange.dirEntry, inRange.pageEntry⟩

/-! ## The search is complete -/

def prevDir (dirEntry : Nat) : Nat := if dirEntry = firstDir then 1023 else dirEntry - 1

namespace Kernel

/-- An entry of a present user page table. -/
structure UserEntry (kernel : Kernel) (dirEntry pageEntry : Nat) : Prop where
  isUser : firstDir ≤ dirEntry ∧ dirEntry < 1024
  present : kernel.DirPresent dirEntry
  inTable : pageEntry < 1024

/-- `try_to_swap_out` would not return 0 for the entry. -/
structure Swappable (kernel : Kernel) (dirEntry pageEntry : Nat) : Prop extends
    kernel.UserEntry dirEntry pageEntry where
  swaps : kernel.tryToSwapOut (kernel.entry dirEntry pageEntry) ≠ .kept

/-- `swap_out` returns 0 only if no entry is swappable; otherwise it evicts one page. -/
def SearchesAll (kernel : Kernel) (cursors : Cursors) : Prop :=
  ((kernel.swapOut cursors).1 = .kept →
    ∀ dirEntry pageEntry, ¬kernel.Swappable dirEntry pageEntry) ∧
  ((kernel.swapOut cursors).1 ≠ .kept → ∃ dirEntry pageEntry,
    kernel.UserEntry dirEntry pageEntry ∧
      EvictsOne kernel (kernel.entry dirEntry pageEntry) (kernel.swapOut cursors).1)

/-- The first directory entry from a position on that is present. -/
def FirstPresent (kernel : Kernel) (start dirEntry : Nat) : Prop :=
  ∃ passed < 1008, dirAt start passed = dirEntry ∧ kernel.AbsentBetween start 0 passed ∧
    kernel.DirPresent dirEntry

/-- The entries that are left out.  Where the directory entry of the cursor is absent, the page
cursor is not set back, and the entries up to it in the next table are passed over.  Where it is
present and the page cursor is 0, its first entry is the last of the round, and is not reached
across an absent table. -/
def Missed (kernel : Kernel) (cursors : Cursors) (dirEntry pageEntry : Nat) : Prop :=
  if kernel.DirPresent cursors.dirEntry then
    dirEntry = cursors.dirEntry ∧ pageEntry = 0 ∧ cursors.pageEntry = 0 ∧
      ¬kernel.DirPresent (prevDir cursors.dirEntry)
  else kernel.FirstPresent cursors.dirEntry dirEntry ∧ (pageEntry : Int) ≤ cursors.pageEntry

variable {cursors : Cursors} {dirEntry pageEntry : Nat}

theorem swapOut_searches_of_found (inRange : cursors.InRange) {found : Nat} (below : found < 1008)
    (present : kernel.DirPresent (dirAt cursors.dirEntry found))
    (isFound : kernel.findDir vmPages cursors.dirEntry 0 = (1024 * (1008 - (found : Int)),
      dirAt cursors.dirEntry found, kernel.pgDir (dirAt cursors.dirEntry found))) :
    kernel.Searches cursors.dirEntry (kernel.swapOut cursors).1
      (kernel.Behind cursors.dirEntry (1024 * 1008 + cursors.pageEntry) found
        cursors.pageEntry) := by
  have bounds := inRange.pageEntry
  rw [swapOut, isFound]
  have searches := kernel.scan_searches cursors.dirEntry found cursors.pageEntry
    (1024 * (1008 - (found : Int))) (1024 * 1008 + cursors.pageEntry) present bounds (by omega)
    (by omega) (by omega)
  exact searches

/-- The first directory entry that is present is the one that the first loop finds. -/
theorem FirstPresent.eq_found {start found : Nat}
    (absent : kernel.AbsentBetween start 0 found)
    (present : kernel.DirPresent (dirAt start found))
    (first : kernel.FirstPresent start dirEntry) : dirAt start found = dirEntry := by
  obtain ⟨passed, below, same, isAbsent, isPresent⟩ := first
  rcases lt_trichotomy passed found with less | equal | more
  · exact absurd (same ▸ isPresent) (absent passed (Nat.zero_le _) less)
  · rw [← equal, same]
  · exact absurd present (isAbsent found (Nat.zero_le _) more)

theorem dirAt_1007 {start : Nat} (inRange : firstDir ≤ start ∧ start < 1024) :
    dirAt start 1007 = prevDir start := by
  rw [dirAt, prevDir]
  rw [firstDir] at *
  split <;> omega

/-- An entry that is tried is not left out. -/
theorem Behind.not_missed (inRange : cursors.InRange) {found : Nat}
    (below : found < 1008) (absent : kernel.AbsentBetween cursors.dirEntry 0 found)
    (present : kernel.DirPresent (dirAt cursors.dirEntry found))
    (tried : kernel.Behind cursors.dirEntry (1024 * 1008 + cursors.pageEntry) found
      cursors.pageEntry passed pageEntry) :
    ¬kernel.Missed cursors (dirAt cursors.dirEntry passed) pageEntry := by
  have bounds := inRange.pageEntry
  have behind := tried.behind
  have before := tried.before
  have start := dirAt_zero inRange.dirEntry
  have round : dirAt cursors.dirEntry 1008 = cursors.dirEntry := (dirAt_add_round _ 0).trans start
  have atMost : passed ≤ 1008 := by omega
  intro missed
  rw [Missed] at missed
  split at missed
  next isPresent =>
    obtain ⟨isStart, isFirst, isZero, isAbsent⟩ := missed
    have isFound : found = 0 := by
      by_contra later
      exact absent 0 le_rfl (Nat.pos_of_ne_zero later) (start.symm ▸ isPresent)
    have again : passed = 1008 := by
      by_contra less
      have isZero := dirAt_inj (by omega) (by decide) (isStart.trans start.symm)
      omega
    subst again
    have isLast := tried.reached isFirst (by omega)
    exact isAbsent (dirAt_1007 inRange.dirEntry ▸ isLast)
  next isAbsent =>
    have same := missed.1.eq_found absent present
    have upTo := missed.2
    rcases Nat.lt_or_eq_of_le atMost with less | again
    · have isFound := dirAt_inj below less same
      omega
    · have isPresent := tried.present
      rw [again, round] at isPresent
      exact isAbsent isPresent

/-- An entry that is not left out is tried. -/
theorem exists_behind_of_not_missed (inRange : cursors.InRange) {found : Nat}
    (below : found < 1008) (absent : kernel.AbsentBetween cursors.dirEntry 0 found)
    (present : kernel.DirPresent (dirAt cursors.dirEntry found))
    (isEntry : kernel.UserEntry dirEntry pageEntry)
    (notMissed : ¬kernel.Missed cursors dirEntry pageEntry) :
    ∃ passed, dirAt cursors.dirEntry passed = dirEntry ∧
      kernel.Behind cursors.dirEntry (1024 * 1008 + cursors.pageEntry) found cursors.pageEntry
        passed pageEntry := by
  have bounds := inRange.pageEntry
  have start := dirAt_zero inRange.dirEntry
  have round : dirAt cursors.dirEntry 1008 = cursors.dirEntry := (dirAt_add_round _ 0).trans start
  have inTable := isEntry.inTable
  obtain ⟨passed, less, rfl⟩ := exists_dirAt inRange.dirEntry isEntry.isUser
  have atLeast : found ≤ passed := by
    by_contra earlier
    exact absent passed (Nat.zero_le _) (Nat.lt_of_not_le earlier) isEntry.present
  by_cases behind : 1024 * found + cursors.pageEntry < 1024 * (passed : Int) + pageEntry
  · exact ⟨passed, rfl, isEntry.present, inTable, behind, by omega, by omega⟩
  · -- the entries of the table where the search starts, up to the page cursor
    obtain rfl : passed = found := by omega
    have upTo : (pageEntry : Int) ≤ cursors.pageEntry := by omega
    by_cases isPresent : kernel.DirPresent cursors.dirEntry
    · have isFirst : passed = 0 := by
        by_contra later
        exact absent 0 le_rfl (Nat.pos_of_ne_zero later) (start.symm ▸ isPresent)
      subst isFirst
      rw [Missed, if_pos isPresent] at notMissed
      refine ⟨1008, round.trans start.symm, round.symm ▸ isPresent, inTable, by omega, by omega,
        fun isZero isLast => ?_⟩
      by_contra isAbsent
      rw [Nat.add_one_sub_one, dirAt_1007 inRange.dirEntry] at isAbsent
      exact notMissed ⟨start, isZero, by omega, not_not.mpr isAbsent⟩
    · rw [Missed, if_neg isPresent] at notMissed
      exact absurd ⟨⟨passed, less, rfl, absent, present⟩, upTo⟩ notMissed

/-- When the entries that are tried are those that are not left out, the search finds what is
swappable among them. -/
theorem searchesAll_iff_of_searches {tried : Nat → Nat → Prop}
    (searches : kernel.Searches cursors.dirEntry (kernel.swapOut cursors).1 tried)
    (isEntry : ∀ passed pageEntry, tried passed pageEntry →
      kernel.UserEntry (dirAt cursors.dirEntry passed) pageEntry ∧
        ¬kernel.Missed cursors (dirAt cursors.dirEntry passed) pageEntry)
    (isTried : ∀ dirEntry pageEntry, kernel.UserEntry dirEntry pageEntry →
      ¬kernel.Missed cursors dirEntry pageEntry →
        ∃ passed, dirAt cursors.dirEntry passed = dirEntry ∧ tried passed pageEntry) :
    kernel.SearchesAll cursors ↔
      ((∃ dirEntry pageEntry, kernel.Swappable dirEntry pageEntry) →
        ∃ dirEntry pageEntry, kernel.Swappable dirEntry pageEntry ∧
          ¬kernel.Missed cursors dirEntry pageEntry) := by
  rcases searches with ⟨isKept, allKept⟩ | ⟨notKept, passed, pageEntry, wasTried, gives⟩
  · constructor
    · rintro all ⟨dirEntry, pageEntry, swappable⟩
      exact absurd swappable (all.1 isKept dirEntry pageEntry)
    · intro some
      refine ⟨fun _ dirEntry pageEntry swappable => ?_, fun notKept => absurd isKept notKept⟩
      obtain ⟨other, otherEntry, isSwappable, notMissed⟩ := some ⟨dirEntry, pageEntry, swappable⟩
      obtain ⟨passed, rfl, wasTried⟩ := isTried _ _ isSwappable.toUserEntry notMissed
      exact isSwappable.swaps (allKept passed otherEntry wasTried)
  · obtain ⟨isUser, notMissed⟩ := isEntry passed pageEntry wasTried
    refine iff_of_true ⟨fun isKept => absurd isKept notKept, fun _ => ?_⟩ fun _ => ?_
    · exact ⟨_, pageEntry, isUser, gives ▸ kernel.tryToSwapOut_spec _⟩
    · exact ⟨_, pageEntry, ⟨isUser, gives ▸ notKept⟩, notMissed⟩

variable (kernel) in
/-- From the first directory entry that is present on, all entries are tried that come before the
end of the round; without one, nothing is. -/
theorem swapOut_searches (inRange : cursors.InRange) :
    (∃ found < 1008, kernel.AbsentBetween cursors.dirEntry 0 found ∧
      kernel.DirPresent (dirAt cursors.dirEntry found) ∧
      kernel.Searches cursors.dirEntry (kernel.swapOut cursors).1
        (kernel.Behind cursors.dirEntry (1024 * 1008 + cursors.pageEntry) found
          cursors.pageEntry)) ∨
    (kernel.AbsentBetween cursors.dirEntry 0 1008 ∧ (kernel.swapOut cursors).1 = .kept) := by
  have start := dirAt_zero inRange.dirEntry
  have first := kernel.findDir_spec cursors.dirEntry 0 (by decide) 0
  rw [start] at first
  rcases first with ⟨found, -, below, absent, present, isFound⟩ | ⟨absent, table, isFound⟩
  · exact .inl ⟨found, below, absent, present, swapOut_searches_of_found inRange below present isFound⟩
  · refine .inr ⟨absent, ?_⟩
    have counter : (1024 * (1008 - ((0 : Nat) : Int)) : Int) = vmPages := by decide
    rw [counter] at isFound
    rw [swapOut, isFound]
    dsimp only
    rw [scan, if_neg (by decide)]

/-- `swap_out` searches everything exactly when something that is swappable is not left out. -/
theorem searchesAll_iff_of_inRange (inRange : cursors.InRange) :
    kernel.SearchesAll cursors ↔
      ((∃ dirEntry pageEntry, kernel.Swappable dirEntry pageEntry) →
        ∃ dirEntry pageEntry, kernel.Swappable dirEntry pageEntry ∧
          ¬kernel.Missed cursors dirEntry pageEntry) := by
  rcases kernel.swapOut_searches inRange with
    ⟨found, below, absent, present, searches⟩ | ⟨absent, isKept⟩
  · refine searchesAll_iff_of_searches searches ?_ ?_
    · intro passed pageEntry tried
      exact ⟨⟨dirAt_range _ _, tried.present, tried.inTable⟩,
        tried.not_missed inRange below absent present⟩
    · intro dirEntry pageEntry isEntry notMissed
      exact exists_behind_of_not_missed inRange below absent present isEntry notMissed
  · have nothing (dirEntry pageEntry : Nat) : ¬kernel.UserEntry dirEntry pageEntry := by
      intro isEntry
      obtain ⟨passed, less, rfl⟩ := exists_dirAt inRange.dirEntry isEntry.isUser
      exact absent passed (Nat.zero_le _) less isEntry.present
    have searches : kernel.Searches cursors.dirEntry (kernel.swapOut cursors).1
        fun _ _ => False := .inl ⟨isKept, fun _ _ => False.elim⟩
    refine searchesAll_iff_of_searches searches ?_ ?_
    · exact fun _ _ => False.elim
    · exact fun dirEntry pageEntry isEntry => absurd isEntry (nothing dirEntry pageEntry)

/-- What is evicted is the page of an entry of a user page table. -/
theorem exists_userEntry_of_evicted (inRange : cursors.InRange) {after : Kernel}
    (isOut : (kernel.swapOut cursors).1 = .evicted after) :
    ∃ dirEntry pageEntry, kernel.UserEntry dirEntry pageEntry ∧
      kernel.tryToSwapOut (kernel.entry dirEntry pageEntry) = .evicted after := by
  rcases kernel.swapOut_searches inRange with
    ⟨found, below, absent, present, searches⟩ | ⟨absent, isKept⟩
  · rw [isOut] at searches
    rcases searches with ⟨isKept, _⟩ | ⟨_, passed, pageEntry, tried, evicted⟩
    · cases isKept
    · exact ⟨_, pageEntry, ⟨dirAt_range _ _, tried.present, tried.inTable⟩, evicted⟩
  · rw [isKept] at isOut
    cases isOut

/-- `swap_out` searches everything exactly when something that is swappable is not left out. -/
theorem searchesAll_iff (kernel : Kernel) (cursors : Cursors) (reachable : Reachable cursors) :
    kernel.SearchesAll cursors ↔
      ((∃ dirEntry pageEntry, kernel.Swappable dirEntry pageEntry) →
        ∃ dirEntry pageEntry, kernel.Swappable dirEntry pageEntry ∧
          ¬kernel.Missed cursors dirEntry pageEntry) :=
  searchesAll_iff_of_inRange reachable.inRange

/-- One clean page at the first address of a task, with its table in the page behind. -/
def onePage (dirEntry : UInt32) : Kernel where
  memory ptr := if ptr = 4 * dirEntry then 0x400007 else if ptr = 0x400000 then 0x401005 else 0
  memMap _ := 1
  highMemory := 0x1000000
  swapBitmap := none
  swapPages _ _ := 0

theorem searchesAll_iff_onePage :
    (onePage 16).SearchesAll .init ↔
      ((∃ dirEntry pageEntry, (onePage 16).Swappable dirEntry pageEntry) →
        ∃ dirEntry pageEntry, (onePage 16).Swappable dirEntry pageEntry ∧
          ¬(onePage 16).Missed .init dirEntry pageEntry) :=
  searchesAll_iff (onePage 16) .init .init

/-! ## A page that is passed over -/

theorem tryToSwapOut_onePage {dirEntry : UInt32} (other : 4 * dirEntry ≠ 0x400000) :
    (onePage dirEntry).tryToSwapOut 0x400000 ≠ .kept := by
  have entry : (onePage dirEntry).memory 0x400000 = 0x401005 := by
    simp only [onePage, if_neg other.symm, if_true]
  rw [tryToSwapOut, entry]
  dsimp only
  rw [if_neg (by decide), if_neg (by decide), if_neg (by decide)]
  split
  next => exact Outcome.noConfusion
  next => exact Outcome.noConfusion

/-- The page of task 1 is swapped out, and the cursors stay at its entry. -/
theorem swapOut_onePage : ((onePage 16).swapOut .init).2 = ⟨16, 0⟩ := by
  have present : (onePage 16).DirPresent firstDir := by decide
  have table : ((onePage 16).pgDir firstDir &&& frameMask) + 4 * UInt32.ofInt (-1 + 1) =
      0x400000 := by decide
  rw [swapOut, Cursors.init, findDir, if_pos (by decide)]
  dsimp only
  rw [if_pos present]
  dsimp only
  rw [scan, if_pos (by decide)]
  dsimp only
  rw [if_neg (by decide), table]
  split
  next isKept => exact absurd isKept (tryToSwapOut_onePage (by decide))
  next => rfl

theorem memory_onePage_eq_zero {dirEntry ptr : UInt32} (notDir : ptr ≠ 4 * dirEntry)
    (notTable : ptr ≠ 0x400000) : (onePage dirEntry).memory ptr = 0 := by
  rw [onePage]
  exact (if_neg notDir).trans (if_neg notTable)

theorem add_four_ne (number : Nat) (base value : UInt32)
    (other : (base.toNat + 4 * number) % 4294967296 ≠ value.toNat) :
    base + 4 * UInt32.ofNat number ≠ value := by
  intro same
  have same := congrArg UInt32.toNat same
  have four : (4 : UInt32).toNat = 4 := rfl
  rw [UInt32.toNat_add, UInt32.toNat_mul, UInt32.toNat_ofNat', four] at same
  omega

/-- There is one page table. -/
theorem eq_of_dirPresent_onePage {first : UInt32} {dirEntry : Nat} (small : first.toNat < 1024)
    (inDir : dirEntry < 1024) (present : (onePage first).DirPresent dirEntry) :
    dirEntry = first.toNat := by
  by_contra other
  have four : (4 : UInt32).toNat = 4 := rfl
  have notDir := add_four_ne dirEntry 0 (4 * first) (by
    rw [UInt32.toNat_mul, four, UInt32.toNat_zero]
    omega)
  have notTable := add_four_ne dirEntry 0 0x400000 (by simp; omega)
  rw [UInt32.zero_add] at notDir notTable
  apply present
  rw [pgDir, memory_onePage_eq_zero notDir notTable]
  rfl

/-- It has one entry. -/
theorem memory_onePage_table {first : UInt32} {pageEntry : Nat} (small : first.toNat < 1024)
    (inTable : pageEntry < 1024) (other : pageEntry ≠ 0) :
    (onePage first).memory (0x400000 + 4 * UInt32.ofNat pageEntry) = 0 := by
  have four : (4 : UInt32).toNat = 4 := rfl
  refine memory_onePage_eq_zero (add_four_ne pageEntry 0x400000 (4 * first) ?_)
    (add_four_ne pageEntry 0x400000 0x400000 ?_)
  · rw [UInt32.toNat_mul, four]
    simp only [UInt32.reduceToNat]
    omega
  · simp only [UInt32.reduceToNat]
    omega

/-- Nothing else is swappable. -/
theorem eq_of_swappable_onePage {dirEntry pageEntry : Nat}
    (swappable : (onePage 32).Swappable dirEntry pageEntry) : dirEntry = 32 ∧ pageEntry = 0 := by
  obtain rfl : dirEntry = 32 :=
    eq_of_dirPresent_onePage (by decide) swappable.isUser.2 swappable.present
  refine ⟨rfl, ?_⟩
  by_contra other
  have table : (onePage 32).pgDir 32 &&& frameMask = 0x400000 := by decide
  apply swappable.swaps
  rw [entry, table, tryToSwapOut, entryPtr, memory_onePage_table (by decide) swappable.inTable other]
  rfl

/-- When task 1 is gone, the page of task 2 is at the page cursor, and is passed over. -/
theorem not_searchesAll_onePage :
    ¬∀ (kernel : Kernel) cursors, Reachable cursors → kernel.SearchesAll cursors := by
  intro always
  have reachable : Reachable ⟨16, 0⟩ := by
    have called := Reachable.call (onePage 16) .init
    rwa [swapOut_onePage] at called
  have all := (searchesAll_iff_of_inRange reachable.inRange).mp (always (onePage 32) _ reachable)
  have swappable : (onePage 32).Swappable 32 0 := by
    refine ⟨⟨by decide, by decide, by decide⟩, ?_⟩
    rw [entry_zero]
    exact tryToSwapOut_onePage (by decide)
  obtain ⟨dirEntry, pageEntry, isOther, notMissed⟩ := all ⟨32, 0, swappable⟩
  obtain ⟨rfl, rfl⟩ := eq_of_swappable_onePage isOther
  apply notMissed
  rw [Missed, if_neg (by decide)]
  refine ⟨⟨16, by decide, by decide, fun passed _ less => ?_, by decide⟩, le_rfl⟩
  have absent : ∀ passed < 16, ¬(onePage 32).DirPresent (dirAt 16 passed) := by decide
  exact absent passed less

end Kernel

end Linux012.Mm
