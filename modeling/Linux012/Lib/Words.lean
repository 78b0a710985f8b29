import Mathlib.Data.UInt
import Mathlib.Data.Int.Lemmas
import Mathlib.Algebra.Group.Nat.Defs
import Mathlib.Algebra.Group.Int.Defs

/-!
# Words with and without a sign

A word of 32 bits as an `int` and as an `unsigned int`, and what wraps.
-/

namespace Linux012.Lib

theorem toInt_toInt32 (value : UInt32) :
    value.toInt32.toInt = (value.toNat : Int).bmod 4294967296 :=
  BitVec.toInt_eq_toNat_bmod _

theorem toNat_toUInt32 (value : Int32) :
    (value.toUInt32.toNat : Int) = value.toInt % 4294967296 := by
  have size := value.toUInt32.toNat_lt
  have isInt : value.toInt = (value.toUInt32.toNat : Int).bmod 4294967296 :=
    BitVec.toInt_eq_toNat_bmod _
  have same := @Int.bmod_emod value.toUInt32.toNat 4294967296
  rw [isInt]
  omega

theorem int32_pos_iff {value : Int32} : 0 < value ↔ 0 < value.toInt :=
  Int32.lt_iff_toInt_lt

theorem int32_neg_iff {value : Int32} : value < 0 ↔ value.toInt < 0 :=
  Int32.lt_iff_toInt_lt

theorem toInt_sub_one {value : Int32} (low : -2147483648 < value.toInt) :
    (value - 1).toInt = value.toInt - 1 := by
  have high := value.toInt_lt
  have isOne : (1 : Int32).toInt = 1 := by decide
  rw [Int32.toInt_sub, isOne]
  exact Int.bmod_eq_of_le (by omega) (by omega)

/-- The least `int` has the greatest one below it. -/
theorem toInt_sub_one_of_least {value : Int32} (least : value.toInt = -2147483648) :
    (value - 1).toInt = 2147483647 := by
  have isLeast : value = -2147483648 := Int32.toInt_inj.mp least
  rw [isLeast]
  decide

/-- A difference, up to turns around the word. -/
theorem toInt_sub_turns (value other : Int32) :
    ∃ turns, (value - other).toInt = value.toInt - other.toInt + 4294967296 * turns := by
  have isBmod : (value - other).toInt = (value.toInt - other.toInt).bmod 4294967296 :=
    Int32.toInt_sub value other
  have same := @Int.bmod_emod (value.toInt - other.toInt) 4294967296
  exact ⟨(value - other).toInt / 4294967296 - (value.toInt - other.toInt) / 4294967296, by omega⟩

theorem toInt_ofNat_of_lt {count : Nat} (few : count < 2147483648) :
    (Int32.ofNat count).toInt = count :=
  Int32.toInt_ofNat_of_lt few

/-- The magnitude of an `int`, as negating it leaves it. -/
theorem toNat_neg_toUInt32 {value : Int32} (negative : value.toInt < 0) :
    (-value).toUInt32.toNat = value.toInt.natAbs := by
  have low := value.le_toInt
  have isNat := toNat_toUInt32 (-value)
  have isNeg : (-value).toInt = (-value.toInt).bmod 4294967296 := Int32.toInt_neg value
  have same := @Int.bmod_emod (-value.toInt) 4294967296
  omega

theorem toNat_toUInt32_of_nonneg {value : Int32} (nonneg : 0 ≤ value.toInt) :
    value.toUInt32.toNat = value.toInt.natAbs := by
  have high := value.toInt_lt
  have isNat := toNat_toUInt32 value
  omega

end Linux012.Lib
