import Linux012.Zones.FileSpec

/-!
# The slots of a directory

A directory is a file of slots of 16 bytes: an inode number, 0 for a free slot, and the 14
bytes of a name.  The slots are seen through the contents of the file, and written through
the block that they are in.
-/

namespace Linux012.Zones

/-- `NAME_LEN`. -/
abbrev nameLen : Nat := 14

/-- `DIR_ENTRIES_PER_BLOCK`. -/
abbrev entriesPerBlock : Nat := 64

namespace Device

variable (d : Device)

/-- `de->inode` of an entry of a block. -/
def deInode (zone j : Nat) : Nat := d.word zone (8 * j)

/-- `de->name[b]`. -/
def deName (zone j b : Nat) : UInt8 := d.data zone (16 * j + 2 + b)

def setDeInode (zone j inr : Nat) : Device :=
  writeBytes d zone (16 * j) [UInt8.ofNat inr, UInt8.ofNat (inr / 256)]

def setDeName (zone j b : Nat) (byte : UInt8) : Device := d.setByte zone (16 * j + 2 + b) byte

/-- The inode number in a slot of a directory; it is 0 in a hole. -/
def slotInode (dir k : Nat) : Nat :=
  (d.contents dir (16 * k)).toNat + 256 * (d.contents dir (16 * k + 1)).toNat

/-- A byte of the name in a slot. -/
def slotByte (dir k b : Nat) : UInt8 := d.contents dir (16 * k + 2 + b)

/-- The name in a slot, up to the first NUL. -/
def slotName (dir k : Nat) : List UInt8 :=
  ((List.range nameLen).map (d.slotByte dir k)).takeWhile (· ≠ 0)

end Device

variable {d d' : Device} {use : Nat → Option Use} {dir zone n j k b inr : Nat}

/-! ## Names -/

/-- Bytes that are read up to a NUL. -/
theorem takeWhile_eq_iff {bytes : Nat → UInt8} {len : Nat} {name : List UInt8} (noNul : 0 ∉ name) :
    ((List.range len).map bytes).takeWhile (· ≠ 0) = name ↔
      name.length ≤ len ∧ (∀ b < name.length, bytes b = name.getD b 0) ∧
        (name.length < len → bytes name.length = 0) := by
  induction name generalizing len bytes with
  | nil =>
      cases len with
      | zero => simp
      | succ len =>
          by_cases here : bytes 0 = 0
          · simp [List.range_succ_eq_map, here]
          · simp [List.range_succ_eq_map, here]
  | cons first name ih =>
      obtain ⟨notNul, noNul⟩ := not_or.mp (List.mem_cons.not.mp noNul)
      cases len with
      | zero => simp
      | succ len =>
          rw [List.range_succ_eq_map, List.map_cons, List.map_map, List.takeWhile_cons]
          by_cases here : bytes 0 = first
          · have goesOn : decide (bytes 0 ≠ 0) = true := by
              rw [here]
              exact decide_eq_true (Ne.symm notNul)
            rw [if_pos goesOn, here, List.cons.injEq, ih noNul, List.length_cons]
            constructor
            · rintro ⟨-, fits, same, ends⟩
              refine ⟨Nat.succ_le_succ fits, fun b inside => ?_, fun more => ?_⟩
              · cases b with
                | zero => exact here
                | succ b => exact same b (Nat.lt_of_succ_lt_succ inside)
              · exact ends (Nat.lt_of_succ_lt_succ more)
            · rintro ⟨fits, same, ends⟩
              refine ⟨rfl, Nat.le_of_succ_le_succ fits, fun b inside => ?_, fun more => ?_⟩
              · exact same (b + 1) (Nat.succ_lt_succ inside)
              · exact ends (Nat.succ_lt_succ more)
          · constructor
            · intro same
              split at same
              · exact absurd (List.cons.inj same).1 here
              · cases same
            · rintro ⟨-, same, -⟩
              exact absurd (same 0 (Nat.succ_pos _)) here

/-- What `match` compares. -/
theorem slotName_eq_iff {name : List UInt8} (noNul : 0 ∉ name) :
    d.slotName dir k = name ↔ name.length ≤ nameLen ∧
      (∀ b < name.length, d.slotByte dir k b = name.getD b 0) ∧
        (name.length < nameLen → d.slotByte dir k name.length = 0) :=
  takeWhile_eq_iff noNul

/-- A name that is padded with zeros. -/
theorem slotName_eq_of_padded {name : List UInt8} (noNul : 0 ∉ name) (fits : name.length ≤ nameLen)
    (padded : ∀ b < nameLen, d.slotByte dir k b = name.getD b 0) : d.slotName dir k = name := by
  refine (slotName_eq_iff noNul).mpr ⟨fits, fun b inside => padded b (by omega), fun more => ?_⟩
  rw [padded _ more]
  simp

/-! ## Blocks of slots -/

/-- A byte of a block of a file. -/
theorem contents_of_zoneAt {offset : Nat} (at' : d.zoneAt dir n = zone) (notNull : zone ≠ 0)
    (small : n < maxBlocks) (inside : offset < blockSize) :
    d.contents dir (n * blockSize + offset) = d.data zone offset := by
  have block : (n * blockSize + offset) / blockSize = n := by
    rw [Nat.mul_comm, Nat.mul_add_div (by decide), Nat.div_eq_of_lt inside, Nat.add_zero]
  have rest : (n * blockSize + offset) % blockSize = offset := by
    rw [Nat.mul_comm, Nat.mul_add_mod, Nat.mod_eq_of_lt inside]
  rw [Device.contents, if_pos (lt_maxSize_iff.mpr (block.symm ▸ small)), Device.byteAt, block, rest,
    at', if_neg notNull]

theorem contents_of_hole {offset : Nat} (hole : d.zoneAt dir n = 0) (inside : offset < blockSize) :
    d.contents dir (n * blockSize + offset) = 0 := by
  have block : (n * blockSize + offset) / blockSize = n := by
    rw [Nat.mul_comm, Nat.mul_add_div (by decide), Nat.div_eq_of_lt inside, Nat.add_zero]
  unfold Device.contents
  split
  · rw [Device.byteAt, block, if_pos hole]
  · rfl

theorem slotInode_eq (at' : d.zoneAt dir n = zone) (notNull : zone ≠ 0) (small : n < maxBlocks)
    (inside : j < entriesPerBlock) :
    d.slotInode dir (entriesPerBlock * n + j) = d.deInode zone j := by
  have low : 16 * (entriesPerBlock * n + j) = n * blockSize + 2 * (8 * j) := by
    simp only [blockSize, entriesPerBlock]
    omega
  rw [Device.slotInode, low, Nat.add_assoc, contents_of_zoneAt at' notNull small,
    contents_of_zoneAt at' notNull small]
  · rfl
  · simp only [blockSize, entriesPerBlock] at inside ⊢
    omega
  · simp only [blockSize, entriesPerBlock] at inside ⊢
    omega

theorem slotByte_eq (at' : d.zoneAt dir n = zone) (notNull : zone ≠ 0) (small : n < maxBlocks)
    (inside : j < entriesPerBlock) (short : b < nameLen) :
    d.slotByte dir (entriesPerBlock * n + j) b = d.deName zone j b := by
  have place : 16 * (entriesPerBlock * n + j) + 2 + b = n * blockSize + (16 * j + 2 + b) := by
    simp only [blockSize, entriesPerBlock]
    omega
  rw [Device.slotByte, place, contents_of_zoneAt at' notNull small]
  · rfl
  · simp only [blockSize, entriesPerBlock, nameLen] at inside short ⊢
    omega

theorem slotInode_of_hole (hole : d.zoneAt dir n = 0) (inside : j < entriesPerBlock) :
    d.slotInode dir (entriesPerBlock * n + j) = 0 := by
  have low : 16 * (entriesPerBlock * n + j) = n * blockSize + 2 * (8 * j) := by
    simp only [blockSize, entriesPerBlock]
    omega
  rw [Device.slotInode, low, Nat.add_assoc, contents_of_hole hole, contents_of_hole hole]
  · rfl
  · simp only [blockSize, entriesPerBlock] at inside ⊢
    omega
  · simp only [blockSize, entriesPerBlock] at inside ⊢
    omega

/-- The slots are what the contents are. -/
theorem slotInode_congr (same : d'.contents dir = d.contents dir) :
    d'.slotInode dir k = d.slotInode dir k := by
  rw [Device.slotInode, Device.slotInode, same]

theorem slotByte_congr (same : d'.contents dir = d.contents dir) :
    d'.slotByte dir k b = d.slotByte dir k b := by
  rw [Device.slotByte, Device.slotByte, same]

theorem slotName_congr (same : ∀ b < nameLen, d'.slotByte dir k b = d.slotByte dir k b) :
    d'.slotName dir k = d.slotName dir k := by
  have bytes : (List.range nameLen).map (d'.slotByte dir k) =
      (List.range nameLen).map (d.slotByte dir k) :=
    List.map_congr_left fun b member => same b (List.mem_range.mp member)
  rw [Device.slotName, Device.slotName, bytes]

/-! ## Writing to a slot -/

theorem contents_setDeName (byte : UInt8) (order : d.InOrder use) (at' : d.zoneAt dir n = zone)
    (notNull : zone ≠ 0) (small : n < maxBlocks) (inside : j < entriesPerBlock)
    (short : b < nameLen) :
    (d.setDeName zone j b byte).contents dir =
      Function.update (d.contents dir) (16 * (entriesPerBlock * n + j) + 2 + b) byte := by
  have place : 16 * (entriesPerBlock * n + j) + 2 + b = n * blockSize + (16 * j + 2 + b) := by
    simp only [blockSize, entriesPerBlock]
    omega
  have within : 16 * j + 2 + b < blockSize := by
    simp only [blockSize, entriesPerBlock, nameLen] at inside short ⊢
    omega
  subst at'
  rw [place, Device.setDeName, order.contents_setByte small notNull within, Function.update_self]

theorem contents_setDeInode (inr : Nat) (order : d.InOrder use) (at' : d.zoneAt dir n = zone)
    (notNull : zone ≠ 0) (small : n < maxBlocks) (inside : j < entriesPerBlock) :
    (d.setDeInode zone j inr).contents dir =
      Lib.overwrite (d.contents dir) (16 * (entriesPerBlock * n + j))
        [UInt8.ofNat inr, UInt8.ofNat (inr / 256)] := by
  have place : 16 * (entriesPerBlock * n + j) = n * blockSize + 16 * j := by
    simp only [blockSize, entriesPerBlock]
    omega
  have within : 16 * j + [UInt8.ofNat inr, UInt8.ofNat (inr / 256)].length ≤ blockSize := by
    simp only [blockSize, entriesPerBlock, List.length_cons, List.length_nil] at inside ⊢
    omega
  subst at'
  rw [place, Device.setDeInode, (writeBytes_spec order small notNull within).2.2,
    Function.update_self]

section

variable {k' : Nat} {byte : UInt8}

/-- A byte of a name is stored in the slot. -/
theorem slotByte_of_setName (short : b < nameLen) {b' : Nat} (short' : b' < nameLen)
    (stored : d'.contents dir = Function.update (d.contents dir) (16 * k + 2 + b) byte) :
    d'.slotByte dir k' b' = if k' = k ∧ b' = b then byte else d.slotByte dir k' b' := by
  rw [Device.slotByte, Device.slotByte, stored]
  simp only [nameLen] at short short'
  split
  · rename_i here
    rw [here.1, here.2, Function.update_self]
  · refine Function.update_of_ne (fun same => ?_) _ _
    omega

theorem slotInode_of_setName (short : b < nameLen)
    (stored : d'.contents dir = Function.update (d.contents dir) (16 * k + 2 + b) byte) :
    d'.slotInode dir k' = d.slotInode dir k' := by
  simp only [nameLen] at short
  have low : 16 * k' ≠ 16 * k + 2 + b := by omega
  have high : 16 * k' + 1 ≠ 16 * k + 2 + b := by omega
  rw [Device.slotInode, Device.slotInode, stored, Function.update_of_ne low,
    Function.update_of_ne high]

/-- An inode number is stored in the slot. -/
theorem slotByte_of_setInode {bytes : List UInt8} (two : bytes.length = 2) (short : b < nameLen)
    (stored : d'.contents dir = Lib.overwrite (d.contents dir) (16 * k) bytes) :
    d'.slotByte dir k' b = d.slotByte dir k' b := by
  rw [Device.slotByte, Device.slotByte, stored]
  refine Lib.overwrite_outside ?_
  simp only [nameLen] at short
  omega

theorem slotInode_of_setInode
    (stored : d'.contents dir =
      Lib.overwrite (d.contents dir) (16 * k) [UInt8.ofNat inr, UInt8.ofNat (inr / 256)]) :
    d'.slotInode dir k' = if k' = k then inr % 65536 else d.slotInode dir k' := by
  rw [Device.slotInode, Device.slotInode, stored]
  split
  · rename_i here
    have low : Lib.overwrite (d.contents dir) (16 * k) [UInt8.ofNat inr, UInt8.ofNat (inr / 256)]
        (16 * k) = UInt8.ofNat inr := Lib.overwrite_inside (i := 0)
    rw [here, low, Lib.overwrite_inside]
    change (UInt8.ofNat inr).toNat + 256 * (UInt8.ofNat (inr / 256)).toNat = _
    rw [UInt8.toNat_ofNat', UInt8.toNat_ofNat']
    omega
  · rw [Lib.overwrite_outside, Lib.overwrite_outside]
    · simp only [List.length_cons, List.length_nil]
      omega
    · simp only [List.length_cons, List.length_nil]
      omega

end

end Linux012.Zones
