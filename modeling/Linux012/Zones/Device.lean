import Mathlib.Logic.Function.Basic
import Linux012.Lib.Sizes

/-!
# The zones of a device

The bitmap of the zones, the contents of the blocks and the zone pointers of the inodes of
one device, with the parts of `bitmap.c` and `inode.c` that do not sleep.  Inodes and
blocks are numbers; an indirect block holds its pointers as 16-bit words.
-/

namespace Linux012.Zones

/-- `BLOCK_SIZE`. -/
abbrev blockSize : Nat := 1024

/-- What `_bmap` can map: `7+512+512*512`. -/
abbrev maxBlocks : Nat := 7 + 512 + 512 * 512

/-- The maximum size of a file. -/
abbrev maxSize : Nat := maxBlocks * blockSize

/-- Where a zone pointer is: in `i_zone` of an inode, or in an indirect block. -/
inductive Cell where
  | zone (inode k : Nat)
  | entry (block j : Nat)
  deriving DecidableEq

/-- A device.  `zmap` are the bits of `s_zmap`, all its blocks in order. -/
structure Device where
  sFirstdatazone : Nat
  sNzones : Nat
  firstdatazone_pos : 0 < sFirstdatazone
  nzones_lt : sNzones < 65536
  zmapBits : Nat
  zmap : Nat → Bool
  data : Nat → Nat → UInt8
  iZone : Nat → Nat → Nat
  iSize : Nat → Nat

namespace Device

variable (d : Device)

/-! ## Pointers -/

/-- `((unsigned short *) (bh->b_data))[j]`. -/
def word (block j : Nat) : Nat :=
  (d.data block (2 * j)).toNat + 256 * (d.data block (2 * j + 1)).toNat

def setByte (block offset : Nat) (byte : UInt8) : Device :=
  { d with data := Function.update d.data block (Function.update (d.data block) offset byte) }

def ptr : Cell → Nat
  | .zone inode k => d.iZone inode k
  | .entry block j => d.word block j

/-- A pointer is stored as `unsigned short`. -/
def setPtr : Cell → Nat → Device
  | .zone inode k, zone =>
      let zones := Function.update (d.iZone inode) k (zone % 65536)
      { d with iZone := Function.update d.iZone inode zones }
  | .entry block j, zone =>
      (d.setByte block (2 * j) (UInt8.ofNat zone)).setByte block (2 * j + 1)
        (UInt8.ofNat (zone / 256))

/-- The pointers that `_bmap` follows to a block: which one of `i_zone`, and which one of
each indirect block. -/
def route (block : Nat) : Nat × List Nat :=
  if block < 7 then (block, [])
  else if block - 7 < 512 then (7, [block - 7])
  else (8, [(block - 7 - 512) / 512, (block - 7 - 512) % 512])

/-! ## The bitmap -/

/-- The number of the bit of a zone. -/
def bitNr (zone : Nat) : Nat := zone - (d.sFirstdatazone - 1)

def bit (zone : Nat) : Bool := d.zmap (d.bitNr zone)

/-- The zone is behind the inodes and on the device. -/
def InZones (zone : Nat) : Prop := d.sFirstdatazone ≤ zone ∧ zone < d.sNzones

instance (zone : Nat) : Decidable (d.InZones zone) := inferInstanceAs (Decidable (_ ∧ _))

/-- `find_first_zero` over the blocks of the bitmap, from bit `n` on. -/
def findFirstZero (zmap : Nat → Bool) : (left n : Nat) → Option Nat
  | 0, _ => none
  | left + 1, n => if zmap n then findFirstZero zmap left (n + 1) else some n

def setBits (zmap : Nat → Bool) : Device := { d with zmap := zmap }

/-- `new_block` before `getblk`: the bit of a free zone is set.  A bit behind the last zone
is set, too, and there is no zone then. -/
def takeZone : Device × Nat :=
  match findFirstZero d.zmap d.zmapBits 0 with
  | none => (d, 0)
  | some j =>
      let taken := d.setBits (Function.update d.zmap j true)
      let zone := j + d.sFirstdatazone - 1
      if zone ≥ d.sNzones then (taken, 0) else (taken, zone)

/-- `clear_block`. -/
def clearBlock (block : Nat) : Device :=
  { d with data := Function.update d.data block fun _ => 0 }

/-- The end of `free_block`. -/
def clearBit (zone : Nat) : Device := d.setBits (Function.update d.zmap (d.bitNr zone) false)

def setSize (inode size : Nat) : Device :=
  { d with iSize := Function.update d.iSize inode size }

/-! ## What the stores change -/

variable {d} {c c' : Cell} {block block' offset offset' j zone zone' v : Nat} {byte : UInt8}

theorem data_setByte_self : (d.setByte block offset byte).data block offset = byte := by
  simp [setByte]

theorem data_setByte_of_ne (different : block' ≠ block ∨ offset' ≠ offset) :
    (d.setByte block offset byte).data block' offset' = d.data block' offset' := by
  by_cases same : block' = block
  · subst same
    simp [setByte, different.resolve_left (fun other => other rfl)]
  · simp [setByte, same]

@[simp] theorem zmap_setBits {zmap : Nat → Bool} : (d.setBits zmap).zmap = zmap := rfl

@[simp] theorem ptr_setBits {zmap : Nat → Bool} : (d.setBits zmap).ptr c = d.ptr c := by
  cases c <;> rfl

theorem word_setByte_of_ne (different : block' ≠ block) :
    (d.setByte block offset byte).word block' j = d.word block' j := by
  simp [word, setByte, different]

theorem data_clearBlock_of_ne (different : block' ≠ block) :
    (d.clearBlock block).data block' = d.data block' := by
  simp [clearBlock, different]

@[simp] theorem word_clearBlock_self : (d.clearBlock block).word block j = 0 := by
  simp [word, clearBlock]

theorem word_clearBlock_of_ne (different : block' ≠ block) :
    (d.clearBlock block).word block' j = d.word block' j := by
  simp [word, clearBlock, different]

/-- A stored pointer is read back. -/
theorem ptr_setPtr_self (small : v < 65536) : (d.setPtr c v).ptr c = v := by
  cases c with
  | zone inode k => simp [ptr, setPtr, Nat.mod_eq_of_lt small]
  | entry block j =>
      have low : (d.setPtr (.entry block j) v).data block (2 * j) = UInt8.ofNat v := by
        rw [setPtr, data_setByte_of_ne (.inr (by omega)), data_setByte_self]
      have high : (d.setPtr (.entry block j) v).data block (2 * j + 1) = UInt8.ofNat (v / 256) := by
        rw [setPtr, data_setByte_self]
      rw [ptr, word, low, high, UInt8.toNat_ofNat', UInt8.toNat_ofNat']
      omega

/-- A pointer that is not stored to stays. -/
theorem ptr_setPtr_of_ne (different : c' ≠ c) : (d.setPtr c v).ptr c' = d.ptr c' := by
  cases c with
  | zone inode k =>
      cases c' with
      | zone inode' k' =>
          by_cases same : inode' = inode
          · subst same
            have other : k' ≠ k := fun equal => different (equal ▸ rfl)
            simp [ptr, setPtr, other]
          · simp [ptr, setPtr, same]
      | entry block' j' => rfl
  | entry block j =>
      cases c' with
      | zone inode' k' => rfl
      | entry block' j' =>
          by_cases same : block' = block
          · subst same
            have other : j' ≠ j := fun equal => different (equal ▸ rfl)
            have low : (d.setPtr (.entry block' j) v).data block' (2 * j') =
                d.data block' (2 * j') := by
              rw [setPtr, data_setByte_of_ne (.inr (by omega)),
                data_setByte_of_ne (.inr (by omega))]
            have high : (d.setPtr (.entry block' j) v).data block' (2 * j' + 1) =
                d.data block' (2 * j' + 1) := by
              rw [setPtr, data_setByte_of_ne (.inr (by omega)),
                data_setByte_of_ne (.inr (by omega))]
            rw [ptr, ptr, word, word, low, high]
          · rw [ptr, ptr, setPtr, word_setByte_of_ne same, word_setByte_of_ne same]

@[simp] theorem sFirstdatazone_setPtr : (d.setPtr c v).sFirstdatazone = d.sFirstdatazone := by
  cases c <;> rfl

@[simp] theorem sNzones_setPtr : (d.setPtr c v).sNzones = d.sNzones := by
  cases c <;> rfl

@[simp] theorem zmap_setPtr : (d.setPtr c v).zmap = d.zmap := by
  cases c <;> rfl

@[simp] theorem bit_setPtr : (d.setPtr c v).bit zone = d.bit zone := by
  rw [bit, bitNr, zmap_setPtr, sFirstdatazone_setPtr]
  rfl

@[simp] theorem inZones_setPtr : (d.setPtr c v).InZones zone ↔ d.InZones zone := by
  rw [InZones, InZones, sFirstdatazone_setPtr, sNzones_setPtr]

/-- A zone behind the inodes is no null pointer. -/
theorem InZones.ne_zero (inside : d.InZones zone) : zone ≠ 0 := by
  have pos := d.firstdatazone_pos
  have above := inside.1
  omega

theorem InZones.bitNr_ne_zero (inside : d.InZones zone) : d.bitNr zone ≠ 0 := by
  have pos := d.firstdatazone_pos
  have above := inside.1
  unfold bitNr
  omega

/-- Two zones have two bits. -/
theorem InZones.bitNr_ne (inside : d.InZones zone) (inside' : d.InZones zone')
    (different : zone' ≠ zone) : d.bitNr zone' ≠ d.bitNr zone := by
  have pos := d.firstdatazone_pos
  have above := inside.1
  have above' := inside'.1
  unfold bitNr
  omega

theorem bit_clearBit_of_ne (inside : d.InZones zone) (inside' : d.InZones zone')
    (different : zone' ≠ zone) : (d.clearBit zone).bit zone' = d.bit zone' := by
  have apart := inside.bitNr_ne inside' different
  exact Function.update_of_ne apart false d.zmap

theorem findFirstZero_spec {zmap : Nat → Bool} {left n j : Nat}
    (found : findFirstZero zmap left n = some j) : zmap j = false := by
  induction left generalizing n with
  | zero => cases found
  | succ left ih =>
      rw [findFirstZero] at found
      split at found
      · exact ih found
      · rename_i clear
        cases found
        simpa using clear

/-- What `takeZone` does: it finds nothing, or a zone whose bit was clear. -/
theorem takeZone_cases (reserved : d.zmap 0 = true) :
    (∃ zmap, d.takeZone = (d.setBits zmap, 0) ∧ zmap 0 = true ∧
      ∀ zone, d.InZones zone → zmap (d.bitNr zone) = d.bit zone) ∨
    ∃ zone, d.takeZone = (d.setBits (Function.update d.zmap (d.bitNr zone) true), zone) ∧
      d.InZones zone ∧ d.bit zone = false := by
  have pos := d.firstdatazone_pos
  unfold takeZone
  cases search : findFirstZero d.zmap d.zmapBits 0 with
  | none => exact .inl ⟨d.zmap, rfl, reserved, fun _ _ => rfl⟩
  | some j =>
      have clear := findFirstZero_spec search
      have notFirst : j ≠ 0 := by
        intro first
        rw [first, reserved] at clear
        cases clear
      have number : d.bitNr (j + d.sFirstdatazone - 1) = j := by
        unfold bitNr
        omega
      dsimp only
      split
      · rename_i behind
        refine .inl ⟨_, rfl, ?_, fun zone inside => Function.update_of_ne ?_ true d.zmap⟩
        · exact (Function.update_of_ne notFirst.symm true d.zmap).trans reserved
        have := inside.1
        have := inside.2
        unfold bitNr
        omega
      · refine .inr ⟨j + d.sFirstdatazone - 1, by rw [number], ⟨?_, ?_⟩, ?_⟩
        · omega
        · omega
        · rw [bit, number]
          exact clear

end Device

end Linux012.Zones
