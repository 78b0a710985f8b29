import Mathlib.Data.UInt
import Mathlib.Algebra.Group.Nat.Defs
import Mathlib.Algebra.Group.Int.Defs
import Mathlib.Algebra.GroupWithZero.Nat
import Linux012.Lib.Sizes

/-!
# The header of an executable

`struct exec` of `a.out.h`, the tests of `do_execve` on it, and the limits that it stores from it.
All fields have 32 bits, and so have their sums.
-/

namespace Linux012.Exec

/-- `struct exec`. -/
structure Header where
  magic : UInt32
  text : UInt32
  data : UInt32
  bss : UInt32
  syms : UInt32
  entry : UInt32
  trsize : UInt32
  drsize : UInt32
  deriving DecidableEq, Repr

/-- `ZMAGIC`. -/
abbrev zmagic : UInt32 := 0o413

/-- `BLOCK_SIZE`. -/
abbrev blockSize : UInt32 := 1024

/-- `SEGMENT_SIZE`. -/
abbrev segmentSize : UInt32 := 1024

/-- `sizeof (struct exec)`. -/
abbrev headerSize : UInt32 := 32

namespace Header

/-- `N_TXTOFF`. -/
def nTxtoff (ex : Header) : UInt32 :=
  if ex.magic = zmagic then segmentSize - headerSize + headerSize else headerSize

/-- The header passes both tests of `do_execve`, for a file of `iSize` bytes. -/
def Accepted (ex : Header) (iSize : UInt32) : Prop :=
  ¬(ex.magic ≠ zmagic ∨ ex.trsize ≠ 0 ∨ ex.drsize ≠ 0 ∨
    ex.text + ex.data + ex.bss > 0x3000000 ∨
    iSize < ex.text + ex.data + ex.syms + ex.nTxtoff) ∧
  ¬ex.nTxtoff ≠ blockSize

instance (ex : Header) (iSize : UInt32) : Decidable (ex.Accepted iSize) :=
  inferInstanceAs (Decidable (_ ∧ _))

/-- `end_code`. -/
def endCode (ex : Header) : UInt32 := ex.text

/-- `end_data`. -/
def endData (ex : Header) : UInt32 := ex.data + ex.endCode

/-- `brk`. -/
def brk (ex : Header) : UInt32 := ex.bss + ex.endData

/-- What the two tests are for: the image fits into the space of a task and the file holds it, and
the limits that are stored come one behind the other. -/
structure Bounded (ex : Header) (iSize : UInt32) : Prop where
  image : ex.text.toNat + ex.data.toNat + ex.bss.toNat ≤ 0x3000000
  file : ex.text.toNat + ex.data.toNat + ex.syms.toNat + 1024 ≤ iSize.toNat
  code : ex.endCode ≤ ex.endData
  data : ex.endData ≤ ex.brk
  top : ex.brk ≤ 0x3000000

/-- The sums of the two tests are below `2 ^ 32`. -/
def NoWrap (ex : Header) : Prop :=
  ex.text.toNat + ex.data.toNat + ex.bss.toNat < 2 ^ 32 ∧
    ex.text.toNat + ex.data.toNat + ex.syms.toNat + 1024 < 2 ^ 32

variable {ex : Header} {iSize : UInt32}

theorem Accepted.nTxtoff_eq (accepted : ex.Accepted iSize) : ex.nTxtoff = 1024 :=
  Decidable.not_not.mp accepted.2

theorem Accepted.image_le (accepted : ex.Accepted iSize) :
    ex.text + ex.data + ex.bss ≤ 0x3000000 := by
  have le := accepted.1
  simp only [not_or, gt_iff_lt, UInt32.not_lt] at le
  exact le.2.2.2.1

theorem Accepted.file_le (accepted : ex.Accepted iSize) :
    ex.text + ex.data + ex.syms + 1024 ≤ iSize := by
  have le := accepted.1
  simp only [not_or, gt_iff_lt, UInt32.not_lt, accepted.nTxtoff_eq] at le
  exact le.2.2.2.2

/-- An accepted header is within its bounds exactly when no sum has wrapped. -/
theorem bounded_iff_noWrap (accepted : ex.Accepted iSize) : ex.Bounded iSize ↔ ex.NoWrap := by
  have image := UInt32.le_iff_toNat_le.mp accepted.image_le
  have file := UInt32.le_iff_toNat_le.mp accepted.file_le
  simp only [UInt32.toNat_add, UInt32.reduceToNat] at image file
  constructor
  · intro bounded
    have fileLt := iSize.toNat_lt
    exact ⟨by have := bounded.image; omega, by have := bounded.file; omega⟩
  · rintro ⟨imageLt, fileLt⟩
    constructor
    · omega
    · omega
    all_goals
      rw [UInt32.le_iff_toNat_le]
      simp only [endCode, endData, brk, UInt32.toNat_add, UInt32.reduceToNat]
      omega

/-- A program of one page. -/
def small : Header := ⟨zmagic, 1000, 24, 500, 0, 0, 0, 0⟩

theorem bounded_iff_noWrap_small : small.Bounded 4096 ↔ small.NoWrap :=
  bounded_iff_noWrap (by decide)

/-- Text and data that make `2 ^ 32` bytes. -/
def wrapping : Header := ⟨zmagic, 0xffffffff, 1, 0, 0, 0, 0, 0⟩

theorem not_bounded_wrapping : wrapping.Accepted 1024 ∧ ¬wrapping.Bounded 1024 := by
  refine ⟨by decide, fun bounded => ?_⟩
  have image := bounded.image
  simp [wrapping] at image

end Header

end Linux012.Exec
