import Linux012.Mm.PageBytes
import Linux012.Mm.VerifyArea
import Linux012.Zones.FileSpec

/-!
# Demand loading

`do_no_page`: a page that a task has not got is swapped in, is shared with a task of the same
program, is loaded from the program, or is empty.  While it waits for the disk nobody else changes
the tables.
-/

namespace Linux012.Mm

open Kernel

/-- `TASK_SIZE`. -/
abbrev taskSize : UInt32 := 0x4000000

/-- `LIBRARY_OFFSET`. -/
abbrev libraryOffset : UInt32 := taskSize - 0x400000

/-- What `do_no_page` reads of a `task_struct`.  An inode is its number in `inode_table`. -/
structure TaskStruct where
  startCode : UInt32
  endData : UInt32
  executable : Option Nat
  library : Option Nat

/-- The tasks and the inodes. -/
structure Tasks where
  task : Nat → Option TaskStruct
  /-- The number of `current`. -/
  currentNr : Nat
  current : TaskStruct
  iCount : Nat → Nat
  iDev : Nat → Nat
  device : Nat → Zones.Device

/-- The address of the page of an address in the task. -/
def Tasks.tmp (tasks : Tasks) (address : UInt32) : UInt32 :=
  (address &&& frameMask) - tasks.current.startCode

/-- How `do_no_page` ends. -/
inductive NoPage where
  /-- `do_exit` is called. -/
  | exits
  | swappedIn
  | empty
  | shared
  | loaded (page : UInt32)
  deriving DecidableEq

/-! ## The functions -/

/-- `setbit` of `swap_bitmap`. -/
def Kernel.setSwapBit (kernel : Kernel) (nr : Nat) : Kernel :=
  { kernel with swapBitmap := kernel.swapBitmap.map fun bitmap => Function.update bitmap nr true }

/-- `_bmap` of the blocks of a page, from one on. -/
def bmaps (device : Zones.Device) (inode block : Nat) : Nat → Option (List Nat)
  | 0 => some []
  | left + 1 =>
      match device.bmap inode block with
      | none => none
      | some (_, nr) => (bmaps device inode (block + 1) left).map (nr :: ·)

/-- The `int` that `do_no_page` counts down when it clears the end of a page. -/
def tailCount (tmp endData : UInt32) : Int :=
  let i := Int.bmod (tmp + 4096 - endData).toNat (2 ^ 32)
  if i > 4095 then 0 else i

namespace TaskStruct

/-- The inode that has the page, and the first block of the page in it. -/
def source (task : TaskStruct) (tmp : UInt32) : Option (Nat × Nat) :=
  if tmp ≥ libraryOffset then
    task.library.map fun inode => (inode, 1 + (tmp - libraryOffset).toNat / 1024)
  else if tmp < task.endData then
    task.executable.map fun inode => (inode, 1 + tmp.toNat / 1024)
  else none

end TaskStruct

namespace Pager

/-- `swap_in`. -/
def swapIn (pager : Pager) (tablePtr : UInt32) : Except Stop Pager :=
  if pager.kernel.swapBitmap.isNone then .ok pager
  else if 1 &&& pager.kernel.memory tablePtr ≠ 0 then .ok pager
  else
    let swapNr := pager.kernel.memory tablePtr >>> 1
    if swapNr = 0 then .ok pager
    else
      match pager.getFreePage with
      | .error stop => .error stop
      | .ok (none, _) => .error .oom
      | .ok (some page, pager) =>
          let kernel := (pager.kernel.readSwapPage swapNr.toNat page).setSwapBit swapNr.toNat
          .ok { pager with kernel := kernel.store tablePtr (page ||| (pageDirty ||| 7)) }

/-- `put_page`; `false` where it returns 0. -/
def putPage (pager : Pager) (page address : UInt32) : Except Stop (Bool × Pager) :=
  let dir := (address >>> 20) &&& 0xffc
  let pageEntry := (address >>> 12) &&& 0x3ff
  if pager.kernel.memory dir &&& 1 ≠ 0 then
    let pageTable := pager.kernel.memory dir &&& frameMask
    .ok (true, { pager with kernel := pager.kernel.store (pageTable + 4 * pageEntry) (page ||| 7) })
  else
    match pager.getFreePage with
    | .error stop => .error stop
    | .ok (none, pager) => .ok (false, pager)
    | .ok (some pageTable, pager) =>
        let kernel := pager.kernel.store dir (pageTable ||| 7)
        .ok (true, { pager with kernel := kernel.store (pageTable + 4 * pageEntry) (page ||| 7) })

/-- `put_page`, with `free_page` and `oom` where it returns 0. -/
def putOrGiveUp (pager : Pager) (page address : UInt32) : Except Stop Pager :=
  match pager.putPage page address with
  | .error stop => .error stop
  | .ok (true, pager) => .ok pager
  | .ok (false, pager) => .error (if (pager.kernel.freePage page).isSome then .oom else .panics)

/-- `get_empty_page`. -/
def getEmptyPage (pager : Pager) (address : UInt32) : Except Stop Pager :=
  match pager.getFreePage with
  | .error stop => .error stop
  | .ok (none, _) => .error .oom
  | .ok (some page, pager) => pager.putOrGiveUp page address

/-- The page table of `try_to_share`, which is taken when there is none. -/
def tableAt (pager : Pager) (dir : UInt32) : Except Stop (UInt32 × Pager) :=
  if pager.kernel.memory dir &&& 1 ≠ 0 then .ok (pager.kernel.memory dir, pager)
  else
    match pager.getFreePage with
    | .error stop => .error stop
    | .ok (none, _) => .error .oom
    | .ok (some page, pager) =>
        .ok (page, { pager with kernel := pager.kernel.store dir (page ||| 7) })

/-- `try_to_share`; `none` where it returns 0, and has changed nothing. -/
def tryToShare (pager : Pager) (current p : TaskStruct) (address : UInt32) :
    Except Stop (Option Pager) :=
  let dir := (address >>> 20) &&& 0xffc
  let fromDir := dir + ((p.startCode >>> 20) &&& (0xffc : UInt32))
  let toDir := dir + ((current.startCode >>> 20) &&& (0xffc : UInt32))
  let offset := (address >>> 10) &&& 0xffc
  if pager.kernel.memory fromDir &&& 1 = 0 then .ok none
  else
    let fromPage := (pager.kernel.memory fromDir &&& frameMask) + offset
    let physAddr := pager.kernel.memory fromPage
    if physAddr &&& 0x41 ≠ 1 then .ok none
    else
      let physAddr := physAddr &&& frameMask
      if physAddr ≥ pager.kernel.highMemory ∨ physAddr < lowMem then .ok none
      else
        match pager.tableAt toDir with
        | .error stop => .error stop
        | .ok (table, pager) =>
            let toPage := (table &&& frameMask) + offset
            if 1 &&& pager.kernel.memory toPage ≠ 0 then .error .panics
            else
              let kernel := pager.kernel.store fromPage (pager.kernel.memory fromPage &&& ~~~2)
              let kernel := kernel.store toPage (kernel.memory fromPage)
              .ok (some { pager with kernel := { kernel with
                memMap := Function.update kernel.memMap (mapNr physAddr)
                  (kernel.memMap (mapNr physAddr) + 1) } })

/-- The loop of `share_page`, from a task on down to the second one. -/
def shareFrom (pager : Pager) (tasks : Tasks) (inode : Nat) (address : UInt32) :
    Nat → Except Stop (Option Pager)
  | 0 => .ok none
  | nr + 1 =>
      match tasks.task (nr + 1) with
      | none => pager.shareFrom tasks inode address nr
      | some p =>
          if tasks.currentNr = nr + 1 then pager.shareFrom tasks inode address nr
          else if (if address < libraryOffset then p.executable else p.library) ≠ some inode then
            pager.shareFrom tasks inode address nr
          else
            match pager.tryToShare tasks.current p address with
            | .error stop => .error stop
            | .ok (some pager) => .ok (some pager)
            | .ok none => pager.shareFrom tasks inode address nr

/-- `share_page`; `none` where it returns 0. -/
def sharePage (pager : Pager) (tasks : Tasks) (inode : Nat) (address : UInt32) :
    Except Stop (Option Pager) :=
  if tasks.iCount inode < 2 then .ok none else pager.shareFrom tasks inode address 63

/-- `do_no_page` from the first `get_free_page` on. -/
def loadPage (pager : Pager) (tasks : Tasks) (inode block : Nat) (tmp address : UInt32) :
    Except Stop (NoPage × Pager) :=
  match pager.getFreePage with
  | .error stop => .error stop
  | .ok (none, _) => .error .oom
  | .ok (some page, pager) =>
      let device := tasks.device (tasks.iDev inode)
      match bmaps device inode block 4 with
      | none => .error .panics
      | some nr =>
          let kernel := pager.kernel.breadPage device page nr
          let kernel := kernel.clearTail (page + 4096) (tailCount tmp tasks.current.endData).toNat
          ({ pager with kernel }.putOrGiveUp page address).map fun pager => (.loaded page, pager)

/-- `do_no_page` behind the test for a page that is swapped out. -/
def newPage (pager : Pager) (tasks : Tasks) (address : UInt32) : Except Stop (NoPage × Pager) :=
  let tmp := address - tasks.current.startCode
  match tasks.current.source tmp with
  | none => (pager.getEmptyPage address).map fun pager => (.empty, pager)
  | some (inode, block) =>
      match pager.sharePage tasks inode tmp with
      | .error stop => .error stop
      | .ok (some pager) => .ok (.shared, pager)
      | .ok none => pager.loadPage tasks inode block tmp address

/-- `do_no_page`. -/
def doNoPage (pager : Pager) (tasks : Tasks) (address : UInt32) : Except Stop (NoPage × Pager) :=
  if address - tasks.current.startCode > taskSize then .ok (.exits, pager)
  else
    let page := pager.kernel.memory ((address >>> 20) &&& 0xffc)
    let ptr := (page &&& frameMask) + ((address >>> 10) &&& 0xffc)
    if page &&& 1 ≠ 0 ∧ pager.kernel.memory ptr ≠ 0 ∧ 1 &&& pager.kernel.memory ptr = 0 then
      (pager.swapIn ptr).map fun pager => (.swappedIn, pager)
    else pager.newPage tasks (address &&& frameMask)

end Pager

/-! ## Pages that `get_free_page` leaves alone -/

namespace Pager

variable {before after : Kernel} {page : UInt32} {dirEntry pageEntry : Nat}

/-- A page that nobody has stays that way, and keeps its contents. -/
structure Spares (before after : Kernel) (page : UInt32) : Prop where
  unused : Unused after page
  memory : ∀ ptr, ptr &&& frameMask = page → after.memory ptr = before.memory ptr

theorem Spares.trans {last : Kernel} (first : Spares before after page)
    (second : Spares after last page) : Spares before last page where
  unused := second.unused
  memory ptr inPage := (second.memory ptr inPage).trans (first.memory ptr inPage)

theorem spares_of_keeps (keeps : Keeps before after) (sound : before.Sound)
    (unused : Unused before page) : Spares before after page := by
  have inUse : before.memMap (mapNr page) ≠ 0 := by
    rw [unused.taken]
    decide
  refine ⟨⟨unused.aligned, unused.isPage, ?_, ?_, ?_⟩, fun ptr inPage => ?_⟩
  · rw [keeps.inUse _ inUse, unused.taken]
  · rw [keeps.mappers sound, unused.notMapped]
  · rw [(keeps.changes sound 0 1024).tablesAt, unused.noTable]
  · exact keeps.others ptr (.inr ((mapNr_eq_of_frame inPage).symm ▸ inUse))

/-- Only pages that are mapped are swapped out. -/
theorem spares_of_swapOut {pager : Pager} {kernel : Kernel} {cursors : Cursors}
    (sound : pager.Sound) (unused : Unused pager.kernel page)
    (isOut : pager.kernel.swapOut pager.cursors = (.evicted kernel, cursors)) :
    Spares pager.kernel kernel page := by
  obtain ⟨dirEntry, pageEntry, isEntry, evicted⟩ :=
    exists_userEntry_of_evicted sound.cursors (congrArg Prod.fst isOut)
  have evicts := pager.kernel.tryToSwapOut_spec (pager.kernel.entry dirEntry pageEntry)
  rw [evicted] at evicts
  have changes := changes_of_evicts evicts sound.kernel isEntry rfl
  have maps : pager.kernel.Maps (mapNr (pager.kernel.word dirEntry pageEntry)) dirEntry pageEntry :=
    ⟨isEntry, evicts.present, lowMem_le_of_evicted evicted, rfl⟩
  have other : mapNr page ≠ mapNr (pager.kernel.word dirEntry pageEntry) := by
    intro same
    have member := mem_mappers.mpr (same ▸ maps)
    rw [unused.notMapped] at member
    cases member
  refine ⟨⟨unused.aligned, unused.isPage, ?_, ?_, ?_⟩, fun ptr inPage => ?_⟩
  · rw [evicts.freed]
    exact (Function.update_of_ne other _ _).trans unused.taken
  · have absent : ¬kernel.Maps (mapNr page) dirEntry pageEntry := fun still => still.mapped (by
      rw [word, changes.entry isEntry.isUser.2]
      exact evicts.absent)
    rw [changes.mappers_of_not absent, unused.notMapped]
    rfl
  · rw [changes.tablesAt, unused.noTable]
  · refine evicts.others ptr fun same => ?_
    have isTable := @entry_frame pager.kernel dirEntry pageEntry isEntry.inTable
    rw [← same, inPage] at isTable
    exact unused.ne_table isEntry.isUser.2 isEntry.present isTable.symm

/-- A page that is found by the search is not one that was taken. -/
theorem spares_of_search {pager : Pager} {kernel : Kernel} {fresh : UInt32} (sound : pager.Sound)
    (unused : Unused pager.kernel page) (found : pager.kernel.getFreePage = some (fresh, kernel)) :
    Spares pager.kernel kernel page ∧ fresh ≠ page := by
  have isFresh := getFreePageBelow_fresh le_rfl found
  refine ⟨spares_of_keeps isFresh.keeps sound.kernel unused, fun same => ?_⟩
  have wasFree := isFresh.wasFree
  rw [same, unused.taken] at wasFree
  exact absurd wasFree (by decide)

theorem spares_of_swapForPage {pager after : Pager} {fresh : UInt32} (sound : pager.Sound)
    (unused : Unused pager.kernel page) (found : pager.swapForPage = .ok (some fresh, after)) :
    Spares pager.kernel after.kernel page ∧ fresh ≠ page := by
  fun_induction Pager.swapForPage pager with
  | case1 pager kernel cursors isOut page' taken isFound =>
      cases found
      have spares := spares_of_swapOut sound unused isOut
      obtain ⟨isSound, -⟩ := swapOut_swaps sound isOut
      obtain ⟨spares', differs⟩ := spares_of_search isSound spares.unused isFound
      exact ⟨spares.trans spares', differs⟩
  | case2 pager kernel cursors isOut isNone ih =>
      have spares := spares_of_swapOut sound unused isOut
      obtain ⟨isSound, -⟩ := swapOut_swaps sound isOut
      have searched := spares_of_keeps (keeps_searched kernel) isSound.kernel spares.unused
      obtain ⟨isSearched, -⟩ := searched_swaps isSound
      obtain ⟨spares', differs⟩ := ih isSearched searched.unused found
      exact ⟨(spares.trans searched).trans spares', differs⟩
  | case3 => cases found
  | case4 => cases found

theorem spares_of_getFreePage {pager after : Pager} {fresh : UInt32} (sound : pager.Sound)
    (unused : Unused pager.kernel page) (found : pager.getFreePage = .ok (some fresh, after)) :
    Spares pager.kernel after.kernel page ∧ fresh ≠ page := by
  rw [getFreePage] at found
  split at found
  next page' kernel isFound =>
    cases found
    exact spares_of_search sound unused isFound
  next =>
    have searched := spares_of_keeps (keeps_searched pager.kernel) sound.kernel unused
    obtain ⟨isSearched, -⟩ := searched_swaps sound
    obtain ⟨spares, differs⟩ := spares_of_swapForPage isSearched searched.unused found
    exact ⟨searched.trans spares, differs⟩

/-- A page that is handed out is all zeros. -/
theorem cleared_of_swapForPage {pager after : Pager}
    (found : pager.swapForPage = .ok (some page, after)) :
    ∀ ptr, ptr &&& frameMask = page → after.kernel.memory ptr = 0 := by
  fun_induction Pager.swapForPage pager with
  | case1 pager kernel cursors isOut page' taken isFound =>
      cases found
      exact (getFreePageBelow_fresh le_rfl isFound).cleared
  | case2 pager kernel cursors isOut isNone ih => exact ih found
  | case3 => cases found
  | case4 => cases found

theorem cleared_of_getFreePage {pager after : Pager}
    (found : pager.getFreePage = .ok (some page, after)) :
    ∀ ptr, ptr &&& frameMask = page → after.kernel.memory ptr = 0 := by
  rw [getFreePage] at found
  split at found
  next page' kernel isFound =>
    cases found
    exact (getFreePageBelow_fresh le_rfl isFound).cleared
  next => exact cleared_of_swapForPage found

/-! ## The page before it is put -/

theorem changes_of_fills (fills : Fills before after page) (unused : Unused before page) :
    Changes before after 0 1024 := by
  have notDir : page ≠ 0 := by
    intro isZero
    have isPage := unused.isPage
    rw [isZero] at isPage
    exact absurd isPage (by decide)
  have dirs (other : Nat) (inDir : other < 1024) : after.pgDir other = before.pgDir other :=
    fills.others _ (by rw [dir_frame inDir]; exact notDir.symm)
  refine ⟨dirs, fun other inDir present otherEntry inTable _ => ?_⟩
  rw [word, word, entry, entry, dirs other inDir]
  refine fills.others _ ?_
  rw [entryPtr_frame (pageAligned_frame _) inTable]
  exact unused.ne_table inDir present

/-- The accounts do not know what is in a page that nobody has. -/
theorem sound_of_fills (fills : Fills before after page) (unused : Unused before page)
    (sound : before.Sound) : after.Sound ∧ Unused after page := by
  have changes := changes_of_fills fills unused
  refine ⟨changes.sound_of_inUse (fun nr _ => by rw [fills.memMap]) sound, unused.aligned,
    unused.isPage, ?_, ?_, ?_⟩
  · rw [fills.memMap, unused.taken]
  · rw [changes.mappers_eq, unused.notMapped]
  · rw [changes.tablesAt, unused.noTable]

/-! ## `put_page` -/

theorem dirOf_frame (address : UInt32) : dirOf (address &&& frameMask) = dirOf address := by
  rw [dirOf, dirOf, frame_toNat]
  omega

theorem entryOf_frame (address : UInt32) : entryOf (address &&& frameMask) = entryOf address := by
  rw [entryOf, entryOf, frame_toNat, Nat.mul_div_cancel _ (by decide)]

/-- The number of the entry in its page table. -/
theorem entryNr_eq (address : UInt32) :
    (address >>> 12) &&& 0x3ff = UInt32.ofNat (entryOf address) := by
  have shift : (UInt32.toNat 12) % 32 = 12 := rfl
  have small := address.toNat_lt
  apply UInt32.toNat_inj.mp
  rw [UInt32.toNat_and, UInt32.toNat_shiftRight, shift, UInt32.toNat_ofNat', entryOf,
    Nat.shiftRight_eq_div_pow]
  refine (Nat.and_two_pow_sub_one_eq_mod _ 10).trans ?_
  omega

/-- The entry of the address is written in its table, and nothing else of the page. -/
theorem word_of_store {kernel : Kernel} {address table value : UInt32}
    (isTable : kernel.pgDir (dirOf address) &&& frameMask = table) (notDir : table ≠ 0) :
    (kernel.store (entryPtr table (entryOf address)) value).word (dirOf address)
      (entryOf address) = value := by
  have aligned : PageAligned table := isTable ▸ pageAligned_frame _
  have dir : (kernel.store (entryPtr table (entryOf address)) value).pgDir (dirOf address) =
      kernel.pgDir (dirOf address) := by
    refine Function.update_of_ne (fun same => notDir ?_) _ _
    rw [← entryPtr_frame aligned (entryOf_lt address), ← same, dir_frame (dirOf_lt address)]
  rw [word, entry, dir, isTable]
  exact Function.update_self _ _ _

theorem memory_of_store {kernel : Kernel} {table value ptr : UInt32} (aligned : PageAligned table)
    (inTable : pageEntry < 1024) (other : table ≠ page) (inPage : ptr &&& frameMask = page) :
    (kernel.store (entryPtr table pageEntry) value).memory ptr = kernel.memory ptr := by
  refine Function.update_of_ne (fun same => other ?_) _ _
  rw [← entryPtr_frame aligned inTable, ← same, inPage]

/-- The page is mapped, and is as it was. -/
theorem putPage_spec {pager after : Pager} {address : UInt32}
    (ran : pager.putPage page address = .ok (true, after)) (sound : pager.Sound)
    (unused : Unused pager.kernel page) :
    after.kernel.word (dirOf address) (entryOf address) = page ||| 7 ∧
      ∀ ptr, ptr &&& frameMask = page → after.kernel.memory ptr = pager.kernel.memory ptr := by
  rw [putPage, dirPtr_eq, entryNr_eq] at ran
  dsimp only at ran
  split at ran
  next present =>
    cases ran
    refine ⟨word_of_store rfl (sound.kernel.tables _ (dirOf_lt address) present), ?_⟩
    intro ptr inPage
    exact memory_of_store (pageAligned_frame _) (entryOf_lt address)
      (unused.ne_table (dirOf_lt address) present) inPage
  next =>
    split at ran
    next => cases ran
    next => cases ran
    next table next isFound =>
      cases ran
      obtain ⟨spares, differs⟩ := spares_of_getFreePage sound unused isFound
      have finds := finds_of_getFreePage sound isFound
      have high := UInt32.le_iff_toNat_le.mp finds.unused.isPage
      have high' := UInt32.le_iff_toNat_le.mp unused.isPage
      have low : lowMem.toNat = 0x300000 := rfl
      have notDir : table ≠ 0 := fun isZero => by
        rw [isZero, UInt32.toNat_zero] at high
        omega
      have isTable : (next.kernel.store (4 * UInt32.ofNat (dirOf address)) (table ||| 7)).pgDir
          (dirOf address) &&& frameMask = table :=
        (congrArg (· &&& frameMask) (Function.update_self _ _ _)).trans
          (frame_or_seven finds.unused.aligned)
      refine ⟨word_of_store isTable notDir, fun ptr inPage => ?_⟩
      refine (memory_of_store finds.unused.aligned (entryOf_lt address) differs inPage).trans ?_
      refine (Function.update_of_ne (fun same => ?_) _ _).trans (spares.memory ptr inPage)
      rw [same, dir_frame (dirOf_lt address)] at inPage
      rw [← inPage, UInt32.toNat_zero] at high'
      omega

theorem putPage_of_putOrGiveUp {pager after : Pager} {address : UInt32}
    (ran : pager.putOrGiveUp page address = .ok after) :
    pager.putPage page address = .ok (true, after) := by
  rw [putOrGiveUp] at ran
  split at ran
  next => cases ran
  next put isPut =>
    cases ran
    exact isPut
  next => cases ran

theorem exists_of_map {ran : Except Stop Pager} {end' : NoPage} {result : NoPage × Pager}
    (isOk : (ran.map fun pager => (end', pager)) = .ok result) :
    ∃ pager, ran = .ok pager ∧ result = (end', pager) := by
  cases ran with
  | error stop => cases isOk
  | ok pager =>
      cases isOk
      exact ⟨pager, rfl, rfl⟩

/-! ## The blocks of a page -/

theorem bmaps_eq {device : Zones.Device} {inode block left : Nat}
    (small : block + left ≤ Zones.maxBlocks) : bmaps device inode block left =
      some ((List.range left).map fun i => device.zoneAt inode (block + i)) := by
  induction left generalizing block with
  | zero => rfl
  | succ left ih =>
      rw [bmaps, Zones.bmap_eq (by omega)]
      dsimp only
      rw [ih (by omega), Option.map_some, List.range_succ_eq_map, List.map_cons, List.map_map,
        Nat.add_zero]
      congr 2
      exact List.map_congr_left fun i _ => by
        rw [Function.comp_apply, Nat.succ_eq_add_one, Nat.add_right_comm, Nat.add_assoc]

theorem length_bmaps {device : Zones.Device} {inode block left : Nat} {nr : List Nat}
    (isNr : bmaps device inode block left = some nr) : nr.length = left := by
  induction left generalizing block nr with
  | zero =>
      cases isNr
      rfl
  | succ left ih =>
      rw [bmaps] at isNr
      split at isNr
      next => cases isNr
      next =>
        obtain ⟨rest, isRest, rfl⟩ := Option.map_eq_some_iff.mp isNr
        rw [List.length_cons, ih isRest]

/-- What `do_no_page` counts down from is what is behind the end of the data. -/
theorem tailCount_toNat {tmp endData : UInt32} (below : tmp < endData)
    (notLibrary : tmp < libraryOffset) :
    (tailCount tmp endData).toNat = tmp.toNat + 4096 - endData.toNat := by
  have four : UInt32.toNat 4096 = 4096 := rfl
  have offset : libraryOffset.toNat = 0x3c00000 := rfl
  have bmod (sum : Int) : Int.bmod sum (2 ^ 32) =
      if sum % 4294967296 < 2147483648 then sum % 4294967296 else sum % 4294967296 - 4294967296 :=
    rfl
  have small := endData.toNat_lt
  rw [UInt32.lt_iff_toNat_lt] at below notLibrary
  rw [offset] at notLibrary
  have difference : (tmp + 4096 - endData).toNat =
      (4294967296 + tmp.toNat + 4096 - endData.toNat) % 4294967296 := by
    rw [UInt32.toNat_sub, UInt32.toNat_add, four]
    omega
  unfold tailCount
  simp only [bmod, difference]
  split <;> split <;> omega

/-- The page is filled from the program up to the end of the data. -/
theorem pageByte_loaded {kernel : Kernel} {device : Zones.Device} {inode o : Nat}
    {tmp endData : UInt32} {nr : List Nat} (aligned : PageAligned page)
    (cleared : ∀ ptr, ptr &&& frameMask = page → kernel.memory ptr = 0)
    (tmpAligned : PageAligned tmp) (below : tmp < endData) (notLibrary : tmp < libraryOffset)
    (isNr : bmaps device inode (1 + tmp.toNat / 1024) 4 = some nr) {count : Nat}
    (isCount : count = tmp.toNat + 4096 - endData.toNat) (small : o < 4096) :
    ((kernel.breadPage device page nr).clearTail (page + 4096) count).pageByte page o =
      if tmp.toNat + o < endData.toNat then device.contents inode (1024 + tmp.toNat + o)
      else 0 := by
  have offset : libraryOffset.toNat = 0x3c00000 := rfl
  have isMax : Zones.maxBlocks = 262663 := rfl
  have isMaxSize : Zones.maxSize = 268966912 := rfl
  rw [UInt32.lt_iff_toNat_lt] at below notLibrary
  rw [offset] at notLibrary
  obtain ⟨nrPage, isPage⟩ := tmpAligned.exists_mul
  have read := kernel.pageByte_breadPage_cleared device aligned cleared
    (length_bmaps isNr) small
  rw [bmaps_eq (by omega)] at isNr
  cases isNr
  rw [List.getD_eq_getElem?_getD, List.getElem?_map, List.getElem?_range (by omega)] at read
  rw [pageByte_clearTail_end _ aligned (by omega) small, isCount, read,
    Zones.contents_eq_data (by omega)]
  have isBlock : (1024 + tmp.toNat + o) / 1024 = 1 + tmp.toNat / 1024 + o / 1024 := by omega
  have inBlock : (1024 + tmp.toNat + o) % 1024 = o % 1024 := by omega
  rw [isBlock, inBlock]
  by_cases inData : tmp.toNat + o < endData.toNat
  · rw [if_neg (by omega), if_pos inData]
    rfl
  · rw [if_pos (by omega), if_neg inData]

/-! ## `do_no_page` -/

/-- What is behind `do_no_page` when it has loaded a page of the program. -/
structure Loads (tasks : Tasks) (inode : Nat) (address page : UInt32) (after : Kernel) : Prop where
  mapped : after.word (dirOf address) (entryOf address) = page ||| 7
  bytes : ∀ o < 4096, after.pageByte page o =
    if (tasks.tmp address).toNat + o < tasks.current.endData.toNat then
      (tasks.device (tasks.iDev inode)).contents inode (1024 + (tasks.tmp address).toNat + o)
    else 0

variable {tasks : Tasks} {pager last : Pager} {address : UInt32} {inode : Nat} {outcome : NoPage}

/-- The page is filled and put. -/
theorem loads_of_putPage {next : Pager} {nr : List Nat} {count : Nat} (sound : next.Sound)
    (unused : Unused next.kernel page)
    (cleared : ∀ ptr, ptr &&& frameMask = page → next.kernel.memory ptr = 0)
    (tmpAligned : PageAligned (tasks.tmp address))
    (below : tasks.tmp address < tasks.current.endData)
    (notLibrary : tasks.tmp address < libraryOffset)
    (isNr : bmaps (tasks.device (tasks.iDev inode)) inode
      (1 + (tasks.tmp address).toNat / 1024) 4 = some nr)
    (isCount : count = (tasks.tmp address).toNat + 4096 - tasks.current.endData.toNat)
    (isPut : { next with
      kernel := (next.kernel.breadPage (tasks.device (tasks.iDev inode)) page nr).clearTail
        (page + 4096) count }.putPage page (address &&& frameMask) = .ok (true, last)) :
    Loads tasks inode address page last.kernel := by
  have atMost : count ≤ 4096 := by
    rw [UInt32.lt_iff_toNat_lt] at below
    omega
  have filled := fills_loaded next.kernel (tasks.device (tasks.iDev inode)) unused.aligned
    (length_bmaps isNr) atMost
  obtain ⟨isSound, stillUnused⟩ := sound_of_fills filled unused sound.kernel
  obtain ⟨isWord, same⟩ := putPage_spec isPut ⟨isSound, sound.cursors⟩ stillUnused
  rw [dirOf_frame, entryOf_frame] at isWord
  refine ⟨isWord, fun o small => ?_⟩
  rw [pageByte_congr unused.aligned same small]
  exact pageByte_loaded unused.aligned cleared tmpAligned below notLibrary isNr isCount small

theorem loads_of_loadPage (sound : pager.Sound)
    (tmpAligned : PageAligned (tasks.tmp address))
    (below : tasks.tmp address < tasks.current.endData)
    (notLibrary : tasks.tmp address < libraryOffset)
    (ran : pager.loadPage tasks inode (1 + (tasks.tmp address).toNat / 1024) (tasks.tmp address)
      (address &&& frameMask) = .ok (outcome, last)) :
    ∃ page, outcome = .loaded page ∧ Loads tasks inode address page last.kernel := by
  have isCount := tailCount_toNat below notLibrary
  rw [loadPage] at ran
  split at ran
  next => cases ran
  next => cases ran
  next page next isFound =>
    have finds := finds_of_getFreePage sound isFound
    dsimp only at ran
    cases isNr : bmaps (tasks.device (tasks.iDev inode)) inode
      (1 + (tasks.tmp address).toNat / 1024) 4 with
    | none =>
      rw [isNr] at ran
      cases ran
    | some nr =>
      rw [isNr] at ran
      dsimp only at ran
      obtain ⟨put, isPut, isResult⟩ := exists_of_map ran
      cases isResult
      exact ⟨page, rfl, loads_of_putPage finds.sound finds.unused
        (cleared_of_getFreePage isFound) tmpAligned below notLibrary isNr isCount
        (putPage_of_putOrGiveUp isPut)⟩

/-- When `do_no_page` neither swaps a page of the program in nor shares one, it loads it. -/
theorem doNoPage_loads (sound : pager.Sound) (aligned : PageAligned tasks.current.startCode)
    (isExecutable : tasks.current.executable = some inode)
    (below : tasks.tmp address < tasks.current.endData)
    (notLibrary : tasks.tmp address < libraryOffset)
    (ran : pager.doNoPage tasks address = .ok (outcome, last))
    (notSwapped : outcome ≠ .swappedIn) (notShared : outcome ≠ .shared) :
    ∃ page, outcome = .loaded page ∧ Loads tasks inode address page last.kernel := by
  obtain ⟨nr, isNr⟩ := aligned.exists_mul
  have isTmp : (tasks.tmp address).toNat =
      (4294967296 - 4096 * nr + address.toNat / 4096 * 4096) % 4294967296 := by
    rw [Tasks.tmp, UInt32.toNat_sub, frame_toNat, isNr]
  have tmpAligned : PageAligned (tasks.tmp address) := by
    apply UInt32.toNat_inj.mp
    rw [frame_toNat, isTmp]
    omega
  have notExits : ¬address - tasks.current.startCode > taskSize := by
    have offset : libraryOffset.toNat = 0x3c00000 := rfl
    have size : taskSize.toNat = 0x4000000 := rfl
    have small := address.toNat_lt
    rw [UInt32.lt_iff_toNat_lt, isTmp, offset] at notLibrary
    rw [gt_iff_lt, UInt32.lt_iff_toNat_lt, UInt32.toNat_sub, isNr, size]
    omega
  rw [doNoPage, if_neg notExits] at ran
  dsimp only at ran
  split at ran
  next =>
    obtain ⟨_, _, isResult⟩ := exists_of_map ran
    cases isResult
    exact absurd rfl notSwapped
  next =>
    have isSource : tasks.current.source ((address &&& frameMask) - tasks.current.startCode) =
        some (inode, 1 + (tasks.tmp address).toNat / 1024) := by
      change tasks.current.source (tasks.tmp address) = _
      rw [TaskStruct.source, if_neg (UInt32.not_le.mpr notLibrary), if_pos below, isExecutable]
      rfl
    rw [newPage, isSource] at ran
    dsimp only at ran
    split at ran
    next => cases ran
    next =>
      cases ran
      exact absurd rfl notShared
    next => exact loads_of_loadPage sound tmpAligned below notLibrary ran

/-! ## A task of two pages -/

/-- The first page of task 1 is on the swap device, and one page is free. -/
def sleeping : Pager where
  kernel := { (onePage 16).store 0x400000 10 with
    memMap := fun nr => if nr = 0x3cff then 0 else 1
    highMemory := 0x4000000
    swapBitmap := some fun _ => false
    swapPages := fun _ _ => 0x01010101 }
  cursors := .init

/-- A program of 5 blocks that has 6 KiB of code and data, all of them sevens. -/
def sevens : Zones.Device where
  sFirstdatazone := 2
  sNzones := 3
  firstdatazone_pos := by decide
  nzones_lt := by decide
  zmapBits := 2
  zmap _ := true
  data _ _ := 7
  iZone _ _ := 2
  iSize _ := 5120

/-- Task 1 runs the program. -/
def running : Tasks where
  task _ := none
  currentNr := 1
  current := ⟨0x4000000, 0x1800, some 0, none⟩
  iCount _ := 1
  iDev _ := 0x301
  device _ := sevens

theorem pgDir_sleeping {other : Nat} (inDir : other < 1024) :
    sleeping.kernel.pgDir other = (onePage 16).pgDir other := by
  refine Function.update_of_ne (fun same => ?_) _ _
  have same := congrArg UInt32.toNat same
  have four : (4 : UInt32).toNat = 4 := rfl
  have table : UInt32.toNat 0x400000 = 0x400000 := rfl
  rw [UInt32.toNat_mul, UInt32.toNat_ofNat', four, table] at same
  omega

theorem eq_of_dirPresent_sleeping {other : Nat} (inDir : other < 1024)
    (present : sleeping.kernel.DirPresent other) : other = 16 := by
  rw [DirPresent, pgDir_sleeping inDir] at present
  exact eq_of_dirPresent_onePage (by decide) inDir present

/-- No page is mapped. -/
theorem absent_sleeping {otherEntry : Nat} (inTable : otherEntry < 1024) :
    pagePresent &&& sleeping.kernel.word 16 otherEntry = 0 := by
  have table : sleeping.kernel.pgDir 16 &&& frameMask = 0x400000 := by decide
  rw [word, entry, table]
  by_cases first : otherEntry = 0
  · rw [first]
    decide
  · have isZero : sleeping.kernel.memory (entryPtr 0x400000 otherEntry) = 0 := by
      refine (Function.update_of_ne (fun same => first ?_) _ _).trans
        (memory_onePage_table (by decide) inTable first)
      exact entryPtr_inj inTable (by decide) (same.trans (UInt32.add_zero _).symm)
    rw [isZero]
    rfl

theorem sound_sleeping : sleeping.Sound := by
  refine ⟨⟨?_, ?_, ?_, ?_, ?_⟩, ⟨by decide, by decide⟩⟩
  · intro dirEntry inDir present
    rw [eq_of_dirPresent_sleeping inDir present]
    decide
  · intro first firstIn second secondIn firstPresent secondPresent _
    rw [eq_of_dirPresent_sleeping firstIn firstPresent,
      eq_of_dirPresent_sleeping secondIn secondPresent]
  · intro nr
    have notMapped : sleeping.kernel.mappers nr = ∅ := by
      refine Finset.eq_empty_of_forall_notMem ?_
      rintro ⟨dirEntry, pageEntry⟩ inside
      have maps := mem_mappers.mp inside
      obtain rfl := eq_of_dirPresent_sleeping maps.isUser.2 maps.present
      exact maps.mapped (absent_sleeping maps.inTable)
    have tables : sleeping.kernel.tablesAt nr ⊆ if nr = 0x100 then {16} else ∅ := by
      intro dirEntry inside
      obtain ⟨inDir, present, _, isNr⟩ := mem_tablesAt.mp inside
      obtain rfl := eq_of_dirPresent_sleeping inDir present
      have isTable : mapNr (sleeping.kernel.pgDir 16) = 0x100 := by decide
      rw [if_pos (isNr.symm.trans isTable)]
      exact Finset.mem_singleton_self _
    rw [notMapped, Finset.card_empty, Nat.zero_add]
    refine (Finset.card_le_card tables).trans ?_
    by_cases isTable : nr = 0x100
    · subst isTable
      decide
    · rw [if_neg isTable]
      exact Nat.zero_le _
  · intro dirEntry pageEntry isEntry mapped _
    obtain rfl := eq_of_dirPresent_sleeping isEntry.isUser.2 isEntry.present
    exact absurd (absent_sleeping isEntry.inTable) mapped
  · intro dirEntry isKernel present
    have isTask := eq_of_dirPresent_sleeping (lt_trans isKernel (by decide)) present
    exact absurd isKernel (by rw [isTask]; decide)

theorem getFreePage_sleeping : sleeping.getFreePage =
    .ok (some 0x3fff000, { sleeping with kernel := sleeping.kernel.take 0x3cff }) := by
  have found : sleeping.kernel.getFreePage = some (0x3fff000, sleeping.kernel.take 0x3cff) := by
    change sleeping.kernel.getFreePageBelow (0x3cff + 1) = _
    rw [getFreePageBelow, if_pos (by decide), if_neg (by decide)]
    have isPage : pageAddr 0x3cff = 0x3fff000 := by decide
    rw [isPage]
  rw [getFreePage, found]

theorem exists_putOrGiveUp {pager : Pager} (page : UInt32) {address : UInt32}
    (present : pager.kernel.DirPresent (dirOf address)) :
    ∃ last, pager.putOrGiveUp page address = .ok last := by
  have isThere : pager.kernel.memory (4 * UInt32.ofNat (dirOf address)) &&& 1 ≠ 0 := present
  rw [putOrGiveUp, putPage, dirPtr_eq]
  dsimp only
  rw [if_pos isThere]
  exact ⟨_, rfl⟩

/-- A page is loaded when there is a page table for it. -/
theorem exists_loadPage {next : Pager} {nr : List Nat} {block : Nat} {tmp : UInt32}
    (sound : pager.Sound) (isFound : pager.getFreePage = .ok (some page, next))
    (present : next.kernel.DirPresent (dirOf address))
    (isNr : bmaps (tasks.device (tasks.iDev inode)) inode block 4 = some nr)
    (atMost : (tailCount tmp tasks.current.endData).toNat ≤ 4096) :
    ∃ last, pager.loadPage tasks inode block tmp address = .ok (.loaded page, last) := by
  have unused := (finds_of_getFreePage sound isFound).unused
  have filled := fills_loaded next.kernel (tasks.device (tasks.iDev inode)) unused.aligned
    (length_bmaps isNr) atMost
  rw [loadPage, isFound]
  dsimp only
  rw [isNr]
  dsimp only
  generalize (next.kernel.breadPage (tasks.device (tasks.iDev inode)) page nr).clearTail
    (page + 4096) (tailCount tmp tasks.current.endData).toNat = kernel at filled
  have isThere : kernel.DirPresent (dirOf address) :=
    ((changes_of_fills filled unused).dirPresent (dirOf_lt address)).mpr present
  obtain ⟨last, isPut⟩ := @exists_putOrGiveUp { next with kernel } page address isThere
  rw [isPut]
  exact ⟨last, rfl⟩

/-- The second page of the task comes from the program. -/
theorem exists_doNoPage_sleeping :
    ∃ last, sleeping.doNoPage running 0x4001000 = .ok (.loaded 0x3fff000, last) := by
  have isSource : running.current.source ((0x4001000 &&& frameMask) - running.current.startCode) =
      some (0, 5) := by decide
  obtain ⟨nr, isNr⟩ : ∃ nr, bmaps (running.device (running.iDev 0)) 0 5 4 = some nr :=
    ⟨_, bmaps_eq (by decide)⟩
  obtain ⟨last, ran⟩ := exists_loadPage sound_sleeping getFreePage_sleeping
    (by decide : DirPresent _ (dirOf 0x4001000)) isNr (by decide : (tailCount 0x1000 _).toNat ≤ _)
  refine ⟨last, ?_⟩
  rw [doNoPage, if_neg (by decide)]
  dsimp only
  rw [if_neg (by decide), newPage, isSource]
  dsimp only
  rw [sharePage, if_pos (by decide)]
  exact ran

theorem doNoPage_loads_second : ∃ last page,
    sleeping.doNoPage running 0x4001000 = .ok (.loaded 0x3fff000, last) ∧
      NoPage.loaded 0x3fff000 = .loaded page ∧ Loads running 0 0x4001000 page last.kernel := by
  obtain ⟨last, ran⟩ := exists_doNoPage_sleeping
  obtain ⟨page, isLoaded, loads⟩ := doNoPage_loads sound_sleeping (by decide) rfl (by decide)
    (by decide) ran (by decide) (by decide)
  exact ⟨last, page, ran, isLoaded, loads⟩

/-- The first page comes from the swap device, and its bytes are not those of the program. -/
theorem swappedIn_differs : sleeping.Sound ∧ PageAligned running.current.startCode ∧
    running.current.executable = some 0 ∧
    running.tmp 0x4000000 < running.current.endData ∧ running.tmp 0x4000000 < libraryOffset ∧
    ∃ outcome last, sleeping.doNoPage running 0x4000000 = .ok (outcome, last) ∧
      outcome ≠ .shared ∧
      ¬∀ o < 4096, last.kernel.pageByte
          (last.kernel.word (dirOf 0x4000000) (entryOf 0x4000000) &&& frameMask) o =
        if (running.tmp 0x4000000).toNat + o < running.current.endData.toNat then
          (running.device (running.iDev 0)).contents 0 (1024 + (running.tmp 0x4000000).toNat + o)
        else 0 := by
  refine ⟨sound_sleeping, by decide, rfl, by decide, by decide, .swappedIn, ?_⟩
  rw [doNoPage, if_neg (by decide)]
  dsimp only
  rw [if_pos (by decide), swapIn, if_neg (by decide), if_neg (by decide)]
  dsimp only
  rw [if_neg (by decide), getFreePage_sleeping]
  refine ⟨_, rfl, by decide, fun same => ?_⟩
  have first := same 0 (by decide)
  revert first
  decide

end Pager

end Linux012.Mm
