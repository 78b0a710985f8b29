import Mathlib.Data.UInt
import Mathlib.Data.List.Basic
import Mathlib.Algebra.Group.Nat.Defs

/-!
# Words in a list of bytes

A word of 32 bits is four bytes, the lowest one first.  A list of bytes lies at a position of a
longer one when it is a prefix of what follows there.
-/

namespace Linux012.Lib

/-- The word that four bytes make. -/
def longOf (b0 b1 b2 b3 : UInt8) : UInt32 :=
  UInt32.ofNat (b0.toNat + b1.toNat * 256 + b2.toNat * 65536 + b3.toNat * 16777216)

/-- The four bytes of a word. -/
def longBytes (word : UInt32) : List UInt8 :=
  [UInt8.ofNat word.toNat, UInt8.ofNat (word.toNat / 256), UInt8.ofNat (word.toNat / 65536),
    UInt8.ofNat (word.toNat / 16777216)]

@[simp] theorem length_longBytes (word : UInt32) : (longBytes word).length = 4 := rfl

theorem longOf_longBytes (word : UInt32) :
    longOf (UInt8.ofNat word.toNat) (UInt8.ofNat (word.toNat / 256))
      (UInt8.ofNat (word.toNat / 65536)) (UInt8.ofNat (word.toNat / 16777216)) = word := by
  apply UInt32.toNat.inj
  have lt := word.toNat_lt
  simp only [longOf, UInt32.toNat_ofNat', UInt8.toNat_ofNat']
  omega

/-- Different words have different bytes. -/
theorem longBytes_inj {word word' : UInt32} (same : longBytes word = longBytes word') :
    word = word' := by
  simp only [longBytes, List.cons.injEq, and_true] at same
  rw [← longOf_longBytes word, ← longOf_longBytes word', same.1, same.2.1, same.2.2.1, same.2.2.2]

/-- The byte of a word with a number. -/
def byteOf (word : UInt32) (i : Nat) : UInt8 := UInt8.ofNat (word.toNat / 256 ^ i)

/-- The word with the bytes. -/
def wordOf (bytes : Nat → UInt8) : UInt32 := longOf (bytes 0) (bytes 1) (bytes 2) (bytes 3)

@[simp] theorem byteOf_zero (i : Nat) : byteOf 0 i = 0 := by
  rw [byteOf, UInt32.toNat_zero, Nat.zero_div]
  rfl

theorem byteOf_wordOf (bytes : Nat → UInt8) {i : Nat} (inWord : i < 4) :
    byteOf (wordOf bytes) i = bytes i := by
  have lt (j : Nat) := (bytes j).toNat_lt
  have lt0 := lt 0
  have lt1 := lt 1
  have lt2 := lt 2
  have lt3 := lt 3
  apply UInt8.toNat.inj
  rw [byteOf, UInt8.toNat_ofNat', wordOf, longOf, UInt32.toNat_ofNat']
  match i, inWord with
  | 0, _ => omega
  | 1, _ => omega
  | 2, _ => omega
  | 3, _ => omega

/-- `part` lies at `pos` in `bytes`. -/
def LiesAt (bytes : List UInt8) (pos : Nat) (part : List UInt8) : Prop := part <+: bytes.drop pos

variable {bytes part part' : List UInt8} {pos : Nat} {byte : UInt8} {word : UInt32}

theorem LiesAt.end_le (lies : LiesAt bytes pos part) (nonempty : part ≠ []) :
    pos + part.length ≤ bytes.length := by
  have le := lies.length_le
  have positive := List.length_pos_iff.mpr nonempty
  rw [List.length_drop] at le
  omega

theorem LiesAt.getElem? (lies : LiesAt bytes pos part) {i : Nat} (inside : i < part.length) :
    bytes[pos + i]? = part[i]? := by
  obtain ⟨rest, split⟩ := lies
  rw [← List.getElem?_drop, ← split, List.getElem?_append_left inside]

theorem LiesAt.left (lies : LiesAt bytes pos (part ++ part')) : LiesAt bytes pos part :=
  (List.prefix_append part part').trans lies

theorem LiesAt.tail (lies : LiesAt bytes pos (byte :: part)) : LiesAt bytes (pos + 1) part := by
  obtain ⟨rest, split⟩ := lies
  refine ⟨rest, ?_⟩
  rw [← List.drop_drop, ← split]
  rfl

/-- A word lies at the front of what follows its position. -/
theorem LiesAt.drop_eq (lies : LiesAt bytes pos (longBytes word)) :
    ∃ b0 b1 b2 b3, bytes.drop pos = b0 :: b1 :: b2 :: b3 :: bytes.drop (pos + 4) ∧
      longOf b0 b1 b2 b3 = word := by
  obtain ⟨rest, split⟩ := lies
  refine ⟨_, _, _, _, ?_, longOf_longBytes word⟩
  rw [← List.drop_drop, ← split]
  rfl

end Linux012.Lib
