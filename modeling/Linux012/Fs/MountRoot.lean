import Mathlib.Algebra.Order.Interval.Finset.SuccPred
import Mathlib.Data.Nat.SuccPred
import Mathlib.Order.Interval.Finset.Nat
import Linux012.Fs.ReadSuper

/-!
# mount_root

`mount_root` of `super.c`, with the counts that it prints.  A buffer of the disk has the number of
its block.  A pointer of a map that is null when it is followed stops the call here.
-/

namespace Linux012.Fs.MountRoot

open ReadSuper (DSuperBlock Map Buffer mapSlots superMagic)

/-- The bits of a block of a map. -/
abbrev mapBits : Nat := 8192

/-- `ROOT_INO`. -/
abbrev rootIno : UInt16 := 1

/-- `struct d_inode`. -/
structure DInode where
  iMode : UInt16
  iUid : UInt16
  iSize : UInt32
  iTime : UInt32
  iGid : UInt8
  iNlinks : UInt8
  iZone : Fin 9 → UInt16

/-- The fields of `struct m_inode` that are filled in for the root. -/
structure MInode where
  iMode : UInt16
  iUid : UInt16
  iSize : UInt32
  iMtime : UInt32
  iGid : UInt8
  iNlinks : UInt8
  iZone : Fin 9 → UInt16
  iDev : UInt16
  iNum : UInt16
  iCount : Nat

/-- The disk `ROOT_DEV`: the super block, the first inode, the blocks that can be read, and what is
in them. -/
structure Disk where
  superBlock : DSuperBlock
  root : DInode
  readable : Nat → Bool
  bData : Buffer → Nat → UInt8

/-- How the call ends early. -/
inductive Stop where
  | panic
  /-- A pointer behind the end of a map is followed. -/
  | overrun
  /-- A pointer of a map is null when it is followed. -/
  | nullBuffer
  deriving DecidableEq, Repr

/-- What the call leaves and prints; `pwd` and `root` are entries of `inode_table`. -/
structure Mounted where
  superBlock : ReadSuper.SuperBlock
  inode : MInode
  pwd : Nat
  root : Nat
  bData : Buffer → Nat → UInt8
  freeBlocks : Nat
  freeInodes : Nat

/-! ## The call -/

/-- `set_bit` of `super.c`, which only tests the bit. -/
def setBit (bitnr : Nat) (addr : Nat → UInt8) : Bool :=
  (addr (bitnr / 8)).toNat.testBit (bitnr % 8)

/-- An entry of `super_block` behind `super_block_init`. -/
def superBlockInit : ReadSuper.SuperBlock where
  sNinodes := 0
  sNzones := 0
  sImapBlocks := 0
  sZmapBlocks := 0
  sFirstdatazone := 0
  sLogZoneSize := 0
  sMaxSize := 0
  sMagic := 0
  sImap := fun _ => none
  sZmap := fun _ => none
  sDev := 0
  sIsup := none
  sImount := none
  sTime := 0
  sLock := false
  sRdOnly := 0
  sDirt := 0

namespace Disk

variable (disk : Disk)

/-- The loop that loads a map, from `i` on. -/
def loadMap : (left i blockNr : Nat) → Map → Except Stop Map
  | 0, _, _, map => .ok map
  | left + 1, i, blockNr, map =>
      if disk.readable blockNr then
        if inRange : i < mapSlots then
          loadMap left (i + 1) (blockNr + 1) (Function.update map ⟨i, inRange⟩ (some blockNr))
        else .error .overrun
      else .error .panic -- "Unable to mount root"

/-- Blocks that are read and given back. -/
def touch : (left blockNr : Nat) → Except Stop Nat
  | 0, blockNr => .ok blockNr
  | left + 1, blockNr => if disk.readable blockNr then touch left (blockNr + 1) else .error .panic

end Disk

/-- `p->s_imap[0]->b_data[0] |= 3`. -/
def markFirst (map : Map) (bData : Buffer → Nat → UInt8) :
    Except Stop (Buffer → Nat → UInt8) :=
  match map 0 with
  | none => .error .nullBuffer
  | some bh => .ok (Function.update bData bh (Function.update (bData bh) 0 (bData bh 0 ||| 3)))

/-- The loops that count, from `i` down. -/
def countClear (bData : Buffer → Nat → UInt8) (map : Map) : (i free : Nat) → Except Stop Nat
  | 0, free => .ok free
  | i + 1, free =>
      if inRange : (i + 1) / mapBits < mapSlots then
        match map ⟨(i + 1) / mapBits, inRange⟩ with
        | none => .error .nullBuffer
        | some bh =>
            countClear bData map i
              (if setBit ((i + 1) % mapBits) (bData bh) then free else free + 1)
      else .error .overrun

/-- The root inode, as `mount_root` fills it in; it is in use four times. -/
def DInode.toRoot (di : DInode) (rootDev : UInt16) : MInode where
  iMode := di.iMode
  iUid := di.iUid
  iSize := di.iSize
  iMtime := di.iTime
  iGid := di.iGid
  iNlinks := di.iNlinks
  iZone := di.iZone
  iDev := rootDev
  iNum := rootIno
  iCount := 1 + 3

/-- `mount_root`. -/
def mountRoot (rootDev : UInt16) (disk : Disk) : Except Stop Mounted := do
  if rootDev ≠ 0x301 then throw .panic -- "root dev num error."
  let _ ← disk.touch 1 1
  let p : ReadSuper.SuperBlock :=
    { superBlockInit with toDSuperBlock := disk.superBlock, sDev := rootDev, sLock := true }
  if p.sMagic ≠ superMagic then throw .panic -- "file system type error."
  let imap ← disk.loadMap p.sImapBlocks.toNat 0 2 p.sImap
  let zmap ← disk.loadMap p.sZmapBlocks.toNat 0 (2 + p.sImapBlocks.toNat) p.sZmap
  let bData ← markFirst imap disk.bData
  let bData ← markFirst zmap bData
  let blockNr ← disk.touch 1 (2 + p.sImapBlocks.toNat + p.sZmapBlocks.toNat)
  let blockNr ← disk.touch (p.sFirstdatazone.toNat - blockNr) blockNr
  let _ ← disk.touch 1 blockNr
  let freeBlocks ← countClear bData zmap p.sNzones.toNat 0
  let freeInodes ← countClear bData imap p.sNinodes.toNat 0
  return {
    superBlock :=
      { p with sImap := imap, sZmap := zmap, sLock := false, sIsup := some 0, sImount := some 0 }
    inode := disk.root.toRoot rootDev
    pwd := 0
    root := 0
    bData := bData
    freeBlocks := freeBlocks
    freeInodes := freeInodes }

/-! ## What it is to print -/

/-- A bit of a map is there and clear. -/
def clearAt (bData : Buffer → Nat → UInt8) (map : Map) (nr : Nat) : Bool :=
  if inRange : nr / mapBits < mapSlots then
    match map ⟨nr / mapBits, inRange⟩ with
    | none => false
    | some bh => !setBit (nr % mapBits) (bData bh)
  else false

/-- The zones whose bit is clear; `free_block` and `new_block` use this bit for a zone. -/
def Mounted.clearZones (m : Mounted) : Finset Nat :=
  (Finset.Ico m.superBlock.sFirstdatazone.toNat m.superBlock.sNzones.toNat).filter fun zone =>
    clearAt m.bData m.superBlock.sZmap (zone + 1 - m.superBlock.sFirstdatazone.toNat)

/-- The inodes whose bit is clear. -/
def Mounted.clearInodes (m : Mounted) : Finset Nat :=
  (Finset.Icc 1 m.superBlock.sNinodes.toNat).filter fun ino =>
    clearAt m.bData m.superBlock.sImap ino

/-- The maps have as many blocks as there are bits, and they fit. -/
structure WellFormed (sb : DSuperBlock) : Prop where
  zmap : sb.sZmapBlocks.toNat =
    (sb.sNzones.toNat + 1 - sb.sFirstdatazone.toNat + (mapBits - 1)) / mapBits
  imap : sb.sImapBlocks.toNat = (sb.sNinodes.toNat + 1 + (mapBits - 1)) / mapBits
  zmapFits : sb.sZmapBlocks.toNat ≤ mapSlots
  imapFits : sb.sImapBlocks.toNat ≤ mapSlots

/-- The call panics, or it follows no null pointer of a map and prints the right numbers. -/
def CountsRight (rootDev : UInt16) (disk : Disk) : Prop :=
  match mountRoot rootDev disk with
  | .error stop => stop = .panic
  | .ok m => m.freeBlocks = m.clearZones.card ∧ m.freeInodes = m.clearInodes.card

/-! ## The loops -/

/-- All of the blocks can be read. -/
def Disk.Readable (disk : Disk) (blockNr blocks : Nat) : Prop :=
  ∀ j < blocks, disk.readable (blockNr + j) = true

/-- A map of the first blocks from `base` on. -/
def mapOf (base blocks : Nat) : Map := fun k => if k < blocks then some (base + k) else none

section Loops

variable {disk : Disk} {bData : Buffer → Nat → UInt8} {map : Map}
variable {left left' i base blocks blockNr free nr : Nat}

theorem Disk.readable_succ : disk.Readable blockNr (left + 1) ↔
    disk.readable blockNr = true ∧ disk.Readable (blockNr + 1) left := by
  rw [Readable, Readable, Nat.forall_lt_succ_left]
  simp only [Nat.add_zero, Nat.add_comm, Nat.add_left_comm]

theorem touch_spec :
    (disk.Readable blockNr left → disk.touch left blockNr = .ok (blockNr + left)) ∧
      (¬disk.Readable blockNr left → disk.touch left blockNr = .error .panic) := by
  induction left generalizing blockNr with
  | zero => exact ⟨fun _ => rfl, fun not => absurd (fun _ => nofun) not⟩
  | succ left ih =>
      rw [Disk.readable_succ, Disk.touch]
      cases disk.readable blockNr with
      | false => exact ⟨fun both => absurd both.1 nofun, fun _ => rfl⟩
      | true =>
          rw [if_pos rfl, and_iff_right rfl, Nat.add_comm left, ← Nat.add_assoc]
          exact ih

theorem touch_add :
    (disk.touch left blockNr >>= disk.touch left') = disk.touch (left + left') blockNr := by
  induction left generalizing blockNr with
  | zero => rw [Nat.zero_add]; rfl
  | succ left ih =>
      rw [Nat.succ_add, Disk.touch, Disk.touch]
      split
      · exact ih
      · rfl

theorem update_mapOf (inRange : i < mapSlots) :
    Function.update (mapOf base i) ⟨i, inRange⟩ (some (base + i)) = mapOf base (i + 1) := by
  funext k
  by_cases same : k = ⟨i, inRange⟩
  · subst same
    rw [Function.update_self, mapOf, if_pos (Nat.lt_succ_self i)]
  · have different : k.val ≠ i := fun equal => same (Fin.ext equal)
    rw [Function.update_of_ne same, mapOf, mapOf]
    exact if_congr (by omega) rfl rfl

theorem loadMap_from (fits : i + left ≤ mapSlots) :
    (disk.Readable (base + i) left →
      disk.loadMap left i (base + i) (mapOf base i) = .ok (mapOf base (i + left))) ∧
    (¬disk.Readable (base + i) left →
      disk.loadMap left i (base + i) (mapOf base i) = .error .panic) := by
  induction left generalizing i with
  | zero => exact ⟨fun _ => rfl, fun not => absurd (fun _ => nofun) not⟩
  | succ left ih =>
      rw [Disk.readable_succ, Disk.loadMap]
      cases disk.readable (base + i) with
      | false => exact ⟨fun both => absurd both.1 nofun, fun _ => rfl⟩
      | true =>
          have inRange : i < mapSlots := by omega
          rw [if_pos rfl, and_iff_right rfl, dif_pos inRange, update_mapOf,
            ← Nat.add_assoc i left, Nat.add_right_comm i left]
          exact @ih (i + 1) (by omega)

/-- A map is loaded, or the call panics. -/
theorem loadMap_spec (fits : blocks ≤ mapSlots) :
    (disk.Readable base blocks →
      disk.loadMap blocks 0 base (fun _ => none) = .ok (mapOf base blocks)) ∧
    (¬disk.Readable base blocks →
      disk.loadMap blocks 0 base (fun _ => none) = .error .panic) := by
  have loop := @loadMap_from disk blocks 0 base (by omega)
  rwa [Nat.zero_add] at loop

theorem clearAt_mapOf (inMap : nr / mapBits < blocks) (fits : blocks ≤ mapSlots) :
    clearAt bData (mapOf base blocks) nr =
      !setBit (nr % mapBits) (bData (base + nr / mapBits)) := by
  rw [clearAt, dif_pos (Nat.lt_of_lt_of_le inMap fits), mapOf, if_pos inMap]

/-- The loop counts the bits that are clear, if all of them are there. -/
theorem countClear_ok (inMap : i / mapBits < blocks) (fits : blocks ≤ mapSlots) :
    countClear bData (mapOf base blocks) i free =
      .ok (free + ((Finset.Icc 1 i).filter (clearAt bData (mapOf base blocks) ·)).card) := by
  induction i generalizing free with
  | zero => rfl
  | succ i ih =>
      have below : i / mapBits < blocks :=
        Nat.lt_of_le_of_lt (Nat.div_le_div_right (Nat.le_succ i)) inMap
      have isBit := @clearAt_mapOf bData base blocks (i + 1) inMap fits
      rw [countClear, dif_pos (Nat.lt_of_lt_of_le inMap fits), mapOf, if_pos inMap]
      dsimp only
      rw [ih below, ← Finset.insert_Icc_right_eq_Icc_add_one (Nat.le_add_left 1 i),
        Finset.filter_insert, isBit]
      cases setBit ((i + 1) % mapBits) (bData (base + (i + 1) / mapBits)) with
      | true => rfl
      | false =>
          have fresh : i + 1 ∉ (Finset.Icc 1 i).filter
              (clearAt bData (mapOf base blocks) ·) := by
            rw [Finset.mem_filter, Finset.mem_Icc]
            omega
          rw [if_neg Bool.false_ne_true, if_pos Bool.not_false,
            Finset.card_insert_of_notMem fresh]
          congr 1
          omega

/-- The loop follows a null pointer if the map has no block for the first bit. -/
theorem countClear_error (pos : i ≠ 0) (beyond : blocks ≤ i / mapBits) :
    ∃ stop ≠ .panic, countClear bData (mapOf base blocks) i free = .error stop := by
  obtain ⟨i, rfl⟩ := Nat.exists_eq_succ_of_ne_zero pos
  rw [countClear]
  split
  next inRange =>
    rw [mapOf, if_neg (Nat.not_lt.mpr beyond)]
    exact ⟨.nullBuffer, nofun, rfl⟩
  next => exact ⟨.overrun, nofun, rfl⟩

end Loops

/-! ## When the numbers are right -/

/-- What has been done before the maps are used. -/
structure Disk.Loads (rootDev : UInt16) (disk : Disk) : Prop where
  dev : rootDev = 0x301
  first : disk.Readable 1 1
  magic : disk.superBlock.sMagic = superMagic
  imap : disk.Readable 2 disk.superBlock.sImapBlocks.toNat
  zmap : disk.Readable (2 + disk.superBlock.sImapBlocks.toNat) disk.superBlock.sZmapBlocks.toNat

/-- The block behind the maps. -/
def Disk.inodeBlock (disk : Disk) : Nat :=
  2 + disk.superBlock.sImapBlocks.toNat + disk.superBlock.sZmapBlocks.toNat

/-- The other blocks that are read before the loops that count. -/
def Disk.ReadsOn (disk : Disk) : Prop :=
  disk.Readable disk.inodeBlock
    (1 + (disk.superBlock.sFirstdatazone.toNat - (disk.inodeBlock + 1)) + 1)

/-- The map of the inodes. -/
def Disk.imap (disk : Disk) : Map := mapOf 2 disk.superBlock.sImapBlocks.toNat

/-- The map of the zones. -/
def Disk.zmap (disk : Disk) : Map :=
  mapOf (2 + disk.superBlock.sImapBlocks.toNat) disk.superBlock.sZmapBlocks.toNat

/-- A buffer with the first two bits set. -/
def markOf (bData : Buffer → Nat → UInt8) (bh : Buffer) : Buffer → Nat → UInt8 :=
  Function.update bData bh (Function.update (bData bh) 0 (bData bh 0 ||| 3))

/-- The buffers when the loops count. -/
def Disk.marked (disk : Disk) : Buffer → Nat → UInt8 :=
  markOf (markOf disk.bData 2) (2 + disk.superBlock.sImapBlocks.toNat)

/-- What the call leaves, with the numbers that it has counted. -/
def Disk.mounted (disk : Disk) (rootDev : UInt16) (freeBlocks freeInodes : Nat) : Mounted where
  superBlock :=
    { superBlockInit with
      toDSuperBlock := disk.superBlock
      sImap := disk.imap
      sZmap := disk.zmap
      sDev := rootDev
      sIsup := some 0
      sImount := some 0 }
  inode := disk.root.toRoot rootDev
  pwd := 0
  root := 0
  bData := disk.marked
  freeBlocks := freeBlocks
  freeInodes := freeInodes

/-- A bit of the zone map, where the first two are set by the mount. -/
def Disk.zoneBit (disk : Disk) (nr : Nat) : Bool :=
  decide (nr < 2) || setBit (nr % mapBits)
    (disk.bData (2 + disk.superBlock.sImapBlocks.toNat + nr / mapBits))

/-- The block that holds a zone's bit is there for the number of the last zone, too, and the bits
behind the last one in use are set. -/
structure Disk.ZonesFit (disk : Disk) : Prop where
  inMap : disk.superBlock.sNzones.toNat / mapBits < disk.superBlock.sZmapBlocks.toNat
  padded : ∀ nr, disk.superBlock.sNzones.toNat - disk.superBlock.sFirstdatazone.toNat < nr →
    nr ≤ disk.superBlock.sNzones.toNat → disk.zoneBit nr = true

section Mount

variable {rootDev : UInt16} {disk : Disk} {bData : Buffer → Nat → UInt8}
variable {base blocks nr first last : Nat}

/-- The bits that are set in a byte by `|= 3`. -/
theorem setBit_mark {data : Nat → UInt8} :
    setBit nr (Function.update data 0 (data 0 ||| 3)) = (decide (nr < 2) || setBit nr data) := by
  by_cases first : nr / 8 = 0
  · have three : (3 : Nat).testBit (nr % 8) = decide (nr < 2) := by
      rw [Nat.mod_eq_of_lt (by omega), show (3 : Nat) = 2 ^ 2 - 1 from rfl,
        Nat.testBit_two_pow_sub_one]
    rw [setBit, first, Function.update_self, UInt8.toNat_or, Nat.testBit_or, setBit, first,
      Bool.or_comm]
    exact congrArg (· || _) three
  · rw [setBit, Function.update_of_ne first, decide_eq_false (by omega), Bool.false_or, setBit]

theorem WellFormed.imap_ne_zero {sb : DSuperBlock} (wellFormed : WellFormed sb) :
    sb.sImapBlocks.toNat ≠ 0 := by
  have blocks := wellFormed.imap
  dsimp only [mapBits] at blocks
  omega

/-- The call gives up before the maps are used. -/
theorem mountRoot_of_not_loads (wellFormed : WellFormed disk.superBlock)
    (not : ¬disk.Loads rootDev) : mountRoot rootDev disk = .error .panic := by
  by_cases dev : rootDev = 0x301
  swap
  · rw [mountRoot, if_pos dev]
    rfl
  by_cases first : disk.Readable 1 1
  swap
  · simp only [mountRoot, dev, touch_spec.2 first]
    rfl
  by_cases magic : disk.superBlock.sMagic = superMagic
  swap
  · simp only [mountRoot, dev, touch_spec.1 first, ne_eq, magic]
    rfl
  by_cases imap : disk.Readable 2 disk.superBlock.sImapBlocks.toNat
  swap
  · simp only [mountRoot, dev, touch_spec.1 first, ne_eq, magic, superBlockInit,
      (loadMap_spec wellFormed.imapFits).2 imap]
    rfl
  by_cases zmap : disk.Readable (2 + disk.superBlock.sImapBlocks.toNat)
      disk.superBlock.sZmapBlocks.toNat
  swap
  · simp only [mountRoot, dev, touch_spec.1 first, ne_eq, magic, superBlockInit,
      (loadMap_spec wellFormed.imapFits).1 imap, (loadMap_spec wellFormed.zmapFits).2 zmap]
    rfl
  exact absurd ⟨dev, first, magic, imap, zmap⟩ not

theorem markFirst_mapOf (some : blocks ≠ 0) :
    markFirst (mapOf base blocks) bData = .ok (markOf bData base) := by
  rw [markFirst, mapOf, if_pos (show (0 : Fin mapSlots).val < blocks from Nat.pos_of_ne_zero some)]
  rfl

/-- With the maps loaded, the call reads on and counts. -/
theorem mountRoot_of_loads (wellFormed : WellFormed disk.superBlock) (loads : disk.Loads rootDev)
    (some : disk.superBlock.sZmapBlocks.toNat ≠ 0) :
    mountRoot rootDev disk =
      (disk.touch (1 + (disk.superBlock.sFirstdatazone.toNat - (disk.inodeBlock + 1)) + 1)
        disk.inodeBlock >>= fun _ =>
      countClear disk.marked disk.zmap disk.superBlock.sNzones.toNat 0 >>= fun freeBlocks =>
      countClear disk.marked disk.imap disk.superBlock.sNinodes.toNat 0 >>= fun freeInodes =>
      .ok (disk.mounted rootDev freeBlocks freeInodes)) := by
  have isMount : mountRoot rootDev disk =
      (disk.touch 1 disk.inodeBlock >>= fun blockNr =>
        disk.touch (disk.superBlock.sFirstdatazone.toNat - blockNr) blockNr >>= fun blockNr =>
        disk.touch 1 blockNr >>= fun _ =>
        countClear disk.marked disk.zmap disk.superBlock.sNzones.toNat 0 >>= fun freeBlocks =>
        countClear disk.marked disk.imap disk.superBlock.sNinodes.toNat 0 >>= fun freeInodes =>
        .ok (disk.mounted rootDev freeBlocks freeInodes)) := by
    simp only [mountRoot, loads.dev, touch_spec.1 loads.first, ne_eq, loads.magic, superBlockInit,
      (loadMap_spec wellFormed.imapFits).1 loads.imap,
      (loadMap_spec wellFormed.zmapFits).1 loads.zmap, bind, Except.bind, not_true_eq_false,
      if_false, markFirst_mapOf wellFormed.imap_ne_zero, markFirst_mapOf some]
    rfl
  rw [isMount, ← touch_add, ← touch_add, bind_assoc, bind_assoc]
  by_cases inode : disk.Readable disk.inodeBlock 1
  · rw [touch_spec.1 inode]
    rfl
  · rw [touch_spec.2 inode]
    rfl

/-- Without a block in the zone map, its first byte is not there. -/
theorem mountRoot_of_loads_noZmap (wellFormed : WellFormed disk.superBlock)
    (loads : disk.Loads rootDev) (noZmap : disk.superBlock.sZmapBlocks = 0) :
    mountRoot rootDev disk = .error .nullBuffer := by
  simp only [mountRoot, loads.dev, touch_spec.1 loads.first, ne_eq, loads.magic, superBlockInit,
    (loadMap_spec wellFormed.imapFits).1 loads.imap, bind, Except.bind, not_true_eq_false,
    if_false, markFirst_mapOf wellFormed.imap_ne_zero, noZmap]
  rfl

/-- A null pointer is followed if there is no block for the number of the last zone. -/
theorem mountRoot_of_beyond (wellFormed : WellFormed disk.superBlock)
    (loads : disk.Loads rootDev) (some : disk.superBlock.sZmapBlocks.toNat ≠ 0)
    (reads : disk.ReadsOn)
    (beyond : disk.superBlock.sZmapBlocks.toNat ≤ disk.superBlock.sNzones.toNat / mapBits) :
    ∃ stop ≠ .panic, mountRoot rootDev disk = .error stop := by
  have zones : disk.superBlock.sNzones.toNat ≠ 0 := by
    intro zero
    rw [zero, Nat.zero_div] at beyond
    exact some (Nat.le_zero.mp beyond)
  obtain ⟨stop, notPanic, stops⟩ := @countClear_error disk.marked
    disk.superBlock.sNzones.toNat (2 + disk.superBlock.sImapBlocks.toNat)
    disk.superBlock.sZmapBlocks.toNat 0 zones beyond
  refine ⟨stop, notPanic, ?_⟩
  rw [mountRoot_of_loads wellFormed loads some, touch_spec.1 reads, Disk.zmap, stops]
  rfl

/-- A bit of the zone map, in the buffers when the loops count. -/
theorem clearAt_marked (wellFormed : WellFormed disk.superBlock)
    (inMap : nr / mapBits < disk.superBlock.sZmapBlocks.toNat) :
    clearAt disk.marked disk.zmap nr = !disk.zoneBit nr := by
  have imapSome := wellFormed.imap_ne_zero
  rw [Disk.zmap, clearAt_mapOf inMap wellFormed.zmapFits, Disk.zoneBit, Disk.marked, markOf]
  by_cases first : nr / mapBits = 0
  · have small : nr % mapBits = nr :=
      Nat.mod_eq_of_lt (by dsimp only [mapBits] at first ⊢; omega)
    have other : 2 + disk.superBlock.sImapBlocks.toNat ≠ 2 := by omega
    rw [first, Nat.add_zero, Function.update_self, setBit_mark, markOf,
      Function.update_of_ne other, small]
  · have high : decide (nr < 2) = false :=
      decide_eq_false (by dsimp only [mapBits] at first; omega)
    have pos : 0 < nr / mapBits := Nat.pos_of_ne_zero first
    have notZmap : 2 + disk.superBlock.sImapBlocks.toNat + nr / mapBits ≠
        2 + disk.superBlock.sImapBlocks.toNat := by omega
    have notImap : 2 + disk.superBlock.sImapBlocks.toNat + nr / mapBits ≠ 2 := by omega
    rw [Function.update_of_ne notZmap, markOf, Function.update_of_ne notImap, high,
      Bool.false_or]

/-- The zones of a mount are as many as the clear bits that belong to them. -/
theorem card_clearZones {freeBlocks freeInodes : Nat} :
    (disk.mounted rootDev freeBlocks freeInodes).clearZones.card =
      ((Finset.Icc 1 (disk.superBlock.sNzones.toNat - disk.superBlock.sFirstdatazone.toNat)).filter
        (clearAt disk.marked disk.zmap ·)).card := by
  refine Finset.card_bij' (fun zone _ => zone + 1 - disk.superBlock.sFirstdatazone.toNat)
    (fun nr _ => nr + disk.superBlock.sFirstdatazone.toNat - 1) ?_ ?_ ?_ ?_
  · intro zone isClear
    rw [Mounted.clearZones, Finset.mem_filter, Finset.mem_Ico] at isClear
    obtain ⟨⟨low, high⟩, clear⟩ := isClear
    change disk.superBlock.sFirstdatazone.toNat ≤ zone at low
    change zone < disk.superBlock.sNzones.toNat at high
    rw [Finset.mem_filter, Finset.mem_Icc]
    exact ⟨by omega, clear⟩
  · intro nr isClear
    rw [Finset.mem_filter, Finset.mem_Icc] at isClear
    obtain ⟨range, clear⟩ := isClear
    rw [Mounted.clearZones, Finset.mem_filter, Finset.mem_Ico]
    have back : nr + disk.superBlock.sFirstdatazone.toNat - 1 + 1 -
        disk.superBlock.sFirstdatazone.toNat = nr := by omega
    refine ⟨⟨?_, ?_⟩, ?_⟩
    · change disk.superBlock.sFirstdatazone.toNat ≤ _
      omega
    · change _ < disk.superBlock.sNzones.toNat
      omega
    · change clearAt disk.marked disk.zmap (nr + disk.superBlock.sFirstdatazone.toNat - 1 + 1 -
        disk.superBlock.sFirstdatazone.toNat) = true
      rwa [back]
  · intro zone isClear
    rw [Mounted.clearZones, Finset.mem_filter, Finset.mem_Ico] at isClear
    have low := isClear.1.1
    change disk.superBlock.sFirstdatazone.toNat ≤ zone at low
    omega
  · intro nr isClear
    rw [Finset.mem_filter, Finset.mem_Icc] at isClear
    omega

/-- Two counts agree if and only if the bits between their ends are not counted. -/
theorem card_filter_Icc_eq_iff {counted : Nat → Bool} (ordered : first ≤ last) :
    ((Finset.Icc 1 last).filter (counted ·)).card =
        ((Finset.Icc 1 first).filter (counted ·)).card ↔
      ∀ nr, first < nr → nr ≤ last → counted nr = false := by
  have within :
      (Finset.Icc 1 first).filter (counted ·) ⊆ (Finset.Icc 1 last).filter (counted ·) :=
    Finset.filter_subset_filter _ (Finset.Icc_subset_Icc_right ordered)
  constructor
  · intro same nr above below
    have equal := Finset.eq_of_subset_of_card_le within (le_of_eq same)
    by_contra isCounted
    have mem : nr ∈ (Finset.Icc 1 last).filter (counted ·) :=
      Finset.mem_filter.mpr
        ⟨Finset.mem_Icc.mpr ⟨by omega, below⟩, Bool.eq_true_of_not_eq_false isCounted⟩
    rw [← equal, Finset.mem_filter, Finset.mem_Icc] at mem
    omega
  · intro notCounted
    refine congrArg Finset.card (Finset.Subset.antisymm (fun nr mem => ?_) within)
    rw [Finset.mem_filter, Finset.mem_Icc] at mem ⊢
    refine ⟨⟨mem.1.1, ?_⟩, mem.2⟩
    by_contra above
    exact absurd (notCounted nr (by omega) mem.1.2) (by rw [mem.2]; nofun)

/-- The numbers that `mount_root` prints are right for a well-formed super block if and only if
the bits behind the last zone are set and its last number has a block of the zone map, where the
call comes to the counts. -/
theorem countsRight_iff (wellFormed : WellFormed disk.superBlock) :
    CountsRight rootDev disk ↔
      (disk.Loads rootDev → disk.superBlock.sZmapBlocks ≠ 0 ∧
        (disk.ReadsOn → disk.ZonesFit)) := by
  by_cases loads : disk.Loads rootDev
  swap
  · rw [CountsRight, mountRoot_of_not_loads wellFormed loads]
    exact iff_of_true rfl fun is => absurd is loads
  rw [forall_prop_of_true loads, CountsRight]
  by_cases noZmap : disk.superBlock.sZmapBlocks = 0
  · rw [mountRoot_of_loads_noZmap wellFormed loads noZmap]
    exact iff_of_false nofun fun both => both.1 noZmap
  have some : disk.superBlock.sZmapBlocks.toNat ≠ 0 := by
    rwa [ne_eq, ← UInt16.toNat_zero, UInt16.toNat_inj]
  rw [and_iff_right noZmap]
  by_cases reads : disk.ReadsOn
  swap
  · rw [mountRoot_of_loads wellFormed loads some, touch_spec.2 reads]
    exact iff_of_true rfl fun is => absurd is reads
  rw [forall_prop_of_true reads]
  have inodes : disk.superBlock.sNinodes.toNat / mapBits < disk.superBlock.sImapBlocks.toNat := by
    rw [wellFormed.imap]
    dsimp only [mapBits]
    omega
  by_cases inMap : disk.superBlock.sNzones.toNat / mapBits < disk.superBlock.sZmapBlocks.toNat
  · have counted : mountRoot rootDev disk = .ok (disk.mounted rootDev
          (0 + ((Finset.Icc 1 disk.superBlock.sNzones.toNat).filter
            (clearAt disk.marked disk.zmap ·)).card)
          (0 + ((Finset.Icc 1 disk.superBlock.sNinodes.toNat).filter
            (clearAt disk.marked disk.imap ·)).card)) := by
      rw [mountRoot_of_loads wellFormed loads some, touch_spec.1 reads, Disk.zmap, Disk.imap,
        countClear_ok inMap wellFormed.zmapFits, countClear_ok inodes wellFormed.imapFits]
      rfl
    rw [counted]
    dsimp only
    rw [card_clearZones, Nat.zero_add, Nat.zero_add]
    -- The inodes are counted by their own numbers.
    refine (and_iff_left rfl).trans ((card_filter_Icc_eq_iff (Nat.sub_le ..)).trans ?_)
    have isBit (nr : Nat) (below : nr ≤ disk.superBlock.sNzones.toNat) :
        clearAt disk.marked disk.zmap nr = false ↔ disk.zoneBit nr = true := by
      rw [clearAt_marked wellFormed
        (Nat.lt_of_le_of_lt (Nat.div_le_div_right below) inMap), Bool.not_eq_false']
    exact ⟨
      fun clear => ⟨inMap, fun nr above below => (isBit nr below).mp (clear nr above below)⟩,
      fun fit nr above below => (isBit nr below).mpr (fit.padded nr above below)⟩
  · obtain ⟨stop, notPanic, stops⟩ := mountRoot_of_beyond wellFormed loads some reads
      (Nat.not_lt.mp inMap)
    rw [stops]
    exact iff_of_false notPanic fun fit => inMap fit.inMap

end Mount

/-! ## Two disks -/

/-- A disk on which all blocks can be read, with the same byte everywhere in its maps. -/
def diskOf (nzones firstdatazone : UInt16) (byte : UInt8) : Disk where
  superBlock := { ReadSuper.diskOf 1 1 with sNzones := nzones, sFirstdatazone := firstdatazone }
  root := ⟨0o40755, 0, 64, 0, 0, 3, fun _ => firstdatazone⟩
  readable := fun _ => true
  bData := fun _ _ => byte

theorem wellFormed_diskOf {nzones firstdatazone : UInt16} {byte : UInt8}
    (few : nzones.toNat ≤ 8192) (most : firstdatazone.toNat ≤ nzones.toNat)
    (pos : 1 < firstdatazone.toNat) : WellFormed (diskOf nzones firstdatazone byte).superBlock := by
  refine ⟨?_, show 1 = (32 + 1 + 8191) / 8192 by decide, show 1 ≤ mapSlots by decide,
    show 1 ≤ mapSlots by decide⟩
  change 1 = (nzones.toNat + 1 - firstdatazone.toNat + 8191) / 8192
  omega

theorem setBit_full {nr : Nat} : setBit nr (fun _ => 0xFF) = true := by
  rw [setBit, show (0xFF : UInt8).toNat = 2 ^ 8 - 1 from rfl, Nat.testBit_two_pow_sub_one]
  exact decide_eq_true (Nat.mod_lt _ (by decide))

/-- With all bits set, no zone is free. -/
theorem countsRight_full : CountsRight 0x301 (diskOf 360 16 0xFF) := by
  have wellFormed : WellFormed (diskOf 360 16 0xFF).superBlock :=
    wellFormed_diskOf (by decide) (by decide) (by decide)
  have fits : (diskOf 360 16 0xFF).ZonesFit := by
    refine ⟨by decide, fun nr _ _ => ?_⟩
    change (decide (nr < 2) || setBit (nr % mapBits) fun _ => 0xFF) = true
    rw [setBit_full, Bool.or_true]
  rw [countsRight_iff wellFormed]
  exact fun _ => ⟨by decide, fun _ => fits⟩

/-- With 8192 zones, the bit of the last number is not in the map. -/
theorem not_countsRight_fullMap : ¬CountsRight 0x301 (diskOf 8192 16 0xFF) := by
  have loads : (diskOf 8192 16 0xFF).Loads 0x301 :=
    ⟨rfl, fun _ _ => rfl, rfl, fun _ _ => rfl, fun _ _ => rfl⟩
  obtain ⟨stop, notPanic, stops⟩ := mountRoot_of_beyond
    (wellFormed_diskOf (by decide) (by decide) (by decide)) loads
    (by decide) (fun _ _ => rfl) (by decide)
  rw [CountsRight, stops]
  exact notPanic

end Linux012.Fs.MountRoot
