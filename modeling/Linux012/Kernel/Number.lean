import Linux012.Kernel.Vsprintf
import Linux012.Lib.Words
import Mathlib.Data.Nat.Digits.Lemmas

/-!
# Numbers in a format

`number` of `vsprintf.c` with its loops and its `int`s, which wrap.  One `size` is counted down by
all the loops that pad, each of which takes one more away when it ends.
-/

namespace Linux012.Kernel.Number

open Vsprintf (Flags ch digit tmpDigits)
open Lib (int32_pos_iff int32_neg_iff toInt_sub_one toInt_sub_one_of_least)

/-! ## The loops -/

/-- `while (size-->0) *str++ = c`, and what `size` is behind it. -/
def padWhile (c : UInt8) (size : Int32) : List UInt8 × Int32 :=
  if 0 < size then
    let (str, left) := padWhile c (size - 1)
    (c :: str, left)
  else ([], size - 1)
termination_by size.toInt.toNat
decreasing_by
  have positive : 0 < size.toInt := int32_pos_iff.mp ‹0 < size›
  rw [toInt_sub_one (by omega)]
  omega

/-- `while (i<precision--) *str++ = '0'`. -/
def zerosWhile (i precision : Int32) : List UInt8 :=
  if i < precision then ch '0' :: zerosWhile i (precision - 1) else []
termination_by (precision.toInt - i.toInt).toNat
decreasing_by
  have less : i.toInt < precision.toInt := Int32.lt_iff_toInt_lt.mp ‹i < precision›
  have low := i.le_toInt
  rw [toInt_sub_one (by omega)]
  omega

/-- `sign`, when it is a character. -/
def signOf (num : Int32) (type : Flags) : Option UInt8 :=
  if type.sign && decide (num < 0) then some (ch '-')
  else if type.plus then some (ch '+')
  else if type.space then some (ch ' ')
  else none

/-- What stands between the sign and the digits. -/
def specialOf (base : Nat) (type : Flags) : List UInt8 :=
  if type.special then
    if base = 8 then [ch '0'] else if base = 16 then [ch '0', digit type.small 33] else []
  else []

/-- `size` without the sign and the prefix. -/
def sizeBehind (num : Int32) (base : Nat) (size : Int32) (type : Flags) : Int32 :=
  let size := if (signOf num type).isSome then size - 1 else size
  if type.special then if base = 16 then size - 2 else if base = 8 then size - 1 else size
  else size

/-- `tmp`: `do_div` takes `num` for unsigned, also when it was negated. -/
def tmpOf (num : Int32) (base : Nat) (type : Flags) : List Nat :=
  let num := if type.sign && decide (num < 0) then -num else num
  if num = 0 then [0] else tmpDigits base 36 num.toUInt32.toNat

/-- What is padded in front of the sign, between the prefix and the digits, and behind them. -/
def padding (type : Flags) (size : Int32) : List UInt8 × List UInt8 × List UInt8 :=
  let c := if type.zeropad then ch '0' else ch ' '
  let (before, size) :=
    if !(type.zeropad || type.left) then padWhile (ch ' ') size else ([], size)
  let (middle, size) := if !type.left then padWhile c size else ([], size)
  let (behind, _) := padWhile (ch ' ') size
  (before, middle, behind)

/-- `type &= ~ZEROPAD`, for `LEFT`. -/
def leftWins (type : Flags) : Flags := if type.left then { type with zeropad := false } else type

/-- `number`; it returns 0 for a base that is none. -/
def number (num : Int32) (base : Nat) (size precision : Int32) (type : Flags) :
    Option (List UInt8) :=
  let type := leftWins type
  if base < 2 ∨ 36 < base then none
  else
    let tmp := tmpOf num base type
    let i := Int32.ofNat tmp.length
    let precision := if precision < i then i else precision
    let (before, middle, behind) := padding type (sizeBehind num base size type - precision)
    some (before ++ (signOf num type).toList ++ specialOf base type ++ middle ++
      zerosWhile i precision ++ (tmp.map (digit type.small)).reverse ++ behind)

/-! ## What the loops pad -/

section Loops

variable {c : UInt8} {size i precision : Int32}

/-- What `size` is behind a loop. -/
def behindWhile (size : Int32) : Int32 := if 0 < size then -1 else size - 1

theorem behindWhile_of_pos (positive : 0 < size.toInt) : behindWhile size = -1 :=
  if_pos (int32_pos_iff.mpr positive)

theorem behindWhile_of_not_pos (notPositive : size.toInt ≤ 0) : behindWhile size = size - 1 :=
  if_neg fun positive => absurd (int32_pos_iff.mp positive) (by omega)

/-- The last round before the end leaves what the first one does. -/
theorem behindWhile_sub_one (positive : 0 < size.toInt) : behindWhile (size - 1) = -1 := by
  have isPred := @toInt_sub_one size (by omega)
  by_cases more : 0 < (size - 1).toInt
  · exact behindWhile_of_pos more
  · have isOne : size = 1 := Int32.toInt_inj.mp (by show size.toInt = 1; omega)
    rw [behindWhile_of_not_pos (by omega), isOne]
    decide

theorem padWhile_eq :
    padWhile c size = (List.replicate size.toInt.toNat c, behindWhile size) := by
  fun_induction padWhile c size with
  | case1 size positive str left isRest ih =>
      have isPositive : 0 < size.toInt := int32_pos_iff.mp positive
      have isPred := @toInt_sub_one size (by omega)
      obtain ⟨rfl, rfl⟩ := Prod.mk.inj (isRest.symm.trans ih)
      have length : size.toInt.toNat = (size - 1).toInt.toNat + 1 := by omega
      rw [length, List.replicate_succ, behindWhile_sub_one isPositive,
        behindWhile_of_pos isPositive]
  | case2 size notPositive =>
      have none : size.toInt.toNat = 0 := by
        have := mt int32_pos_iff.mpr notPositive
        omega
      rw [none, behindWhile, if_neg notPositive]
      rfl

theorem zerosWhile_eq :
    zerosWhile i precision =
      List.replicate (precision.toInt - i.toInt).toNat (ch '0') := by
  fun_induction zerosWhile i precision with
  | case1 precision less ih =>
      have isLess : i.toInt < precision.toInt := Int32.lt_iff_toInt_lt.mp less
      have low := i.le_toInt
      have isPred := @toInt_sub_one precision (by omega)
      have length : (precision.toInt - i.toInt).toNat =
          ((precision - 1).toInt - i.toInt).toNat + 1 := by omega
      rw [length, List.replicate_succ, ih]
  | case2 precision notLess =>
      have none : (precision.toInt - i.toInt).toNat = 0 := by
        have := mt Int32.lt_iff_toInt_lt.mpr notLess
        omega
      rw [none]
      rfl

/-- What this many loops pad one behind the other, and one more. -/
def padded : (loops : Nat) → Int32 → Nat
  | 0, size => size.toInt.toNat
  | loops + 1, size => size.toInt.toNat + padded loops (behindWhile size)

/-- Each loop needs one more below what is left, or the next one pads for the greatest `int`. -/
theorem padded_eq {loops : Nat} (few : loops < 2147483648) :
    (padded loops size : Int) =
      if -2147483648 + loops ≤ size.toInt then max 0 size.toInt else 2147483647 := by
  have low := size.le_toInt
  induction loops generalizing size with
  | zero =>
      rw [if_pos (by omega), padded]
      omega
  | succ loops ih =>
      have rest := @ih (behindWhile size) (by omega) (behindWhile size).le_toInt
      rw [padded, Nat.cast_add, rest]
      by_cases positive : 0 < size.toInt
      · have isLast : (behindWhile size).toInt = -1 := by
          rw [behindWhile_of_pos positive]
          decide
        rw [isLast, if_pos (by omega), if_pos (by omega)]
        omega
      · rw [behindWhile_of_not_pos (by omega)]
        by_cases least : size.toInt = -2147483648
        · rw [toInt_sub_one_of_least least, if_pos (by omega), if_neg (by omega)]
          omega
        · rw [toInt_sub_one (by omega)]
          split
          · rw [if_pos (by omega)]
            omega
          · rw [if_neg (by omega)]
            omega

end Loops

/-! ## The characters -/

section Characters

variable {num : Int32} {base : Nat} {size precision : Int32} {type : Flags}

/-- What the digits stand for. -/
def magnitude (num : Int32) (type : Flags) : Nat :=
  if type.sign then num.toInt.natAbs else num.toUInt32.toNat

/-- The digits of a number, from the lowest one on; zero has one. -/
def digitsOf (base value : Nat) : List Nat := if value = 0 then [0] else Nat.digits base value

/-- The characters that are no padding. -/
def needed (num : Int32) (base : Nat) (precision : Int32) (type : Flags) : Int :=
  (signOf num type).toList.length + (specialOf base type).length +
    max precision.toInt (digitsOf base (magnitude num type)).length

/-- How many loops come before the last one that pads. -/
def loopsOf (type : Flags) : Nat := if type.left then 0 else if type.zeropad then 1 else 2

theorem magnitude_eq :
    (if type.sign && decide (num < 0) then -num else num).toUInt32.toNat = magnitude num type := by
  rw [magnitude]
  cases type.sign with
  | false => rfl
  | true =>
      by_cases negative : num < 0
      · rw [if_pos (by simpa using negative), if_pos rfl]
        exact Lib.toNat_neg_toUInt32 (int32_neg_iff.mp negative)
      · rw [if_neg (by simpa using negative), if_pos rfl]
        have nonneg := mt int32_neg_iff.mpr negative
        exact Lib.toNat_toUInt32_of_nonneg (by omega)

theorem magnitude_lt : magnitude num type < 2 ^ 32 := by
  rw [← magnitude_eq]
  exact UInt32.toNat_lt _

/-- `tmp` has the digits. -/
theorem tmpOf_eq (large : 1 < base) : tmpOf num base type = digitsOf base (magnitude num type) := by
  rw [tmpOf, ← magnitude_eq]
  obtain ⟨value, isValue⟩ :
    ∃ value, (if type.sign && decide (num < 0) then -num else num) = value := ⟨_, rfl⟩
  have size := value.toUInt32.toNat_lt
  have zero : value = 0 ↔ value.toUInt32.toNat = 0 := by
    refine ⟨fun isZero => by rw [isZero]; rfl, fun isZero => ?_⟩
    have word : value.toUInt32 = 0 := UInt32.toNat_inj.mp isZero
    rw [← value.toInt32_toUInt32, word]
    rfl
  rw [isValue, digitsOf, Vsprintf.tmpDigits_eq_digits large (by omega)]
  simp only [zero]

section Digits

variable {value : Nat}

theorem digitsOf_length_le (large : 1 < base) (few : value < 2 ^ 36) :
    (digitsOf base value).length ≤ 36 := by
  rw [digitsOf]
  split
  · decide
  · refine (Nat.digits_length_le_iff large value).mpr (few.trans_le ?_)
    exact Nat.pow_le_pow_left large 36

theorem digitsOf_ne_nil : digitsOf base value ≠ [] := by
  rw [digitsOf]
  split
  · exact List.cons_ne_nil _ _
  · exact Nat.digits_ne_nil_iff_ne_zero.mpr ‹value ≠ 0›

theorem digitsOf_lt (large : 1 < base) {k : Nat} (member : k ∈ digitsOf base value) :
    k < base := by
  rw [digitsOf] at member
  split at member
  · rw [List.mem_singleton.mp member]
    omega
  · exact Nat.digits_lt_base large member

theorem ofDigits_digitsOf : Nat.ofDigits base (digitsOf base value) = value := by
  rw [digitsOf]
  split
  next zero => rw [zero, Nat.ofDigits_singleton]
  next => exact Nat.ofDigits_digits base value

end Digits

/-! ## What is written -/

/-- The precision, when there are not more digits. -/
def precisionOf (num : Int32) (base : Nat) (precision : Int32) (type : Flags) : Int32 :=
  let i := Int32.ofNat (digitsOf base (magnitude num type)).length
  if precision < i then i else precision

/-- What is left to pad. -/
def leftOf (num : Int32) (base : Nat) (size precision : Int32) (type : Flags) : Int32 :=
  sizeBehind num base size type - precisionOf num base precision type

theorem toInt_length (large : 1 < base) :
    (Int32.ofNat (digitsOf base (magnitude num type)).length).toInt =
      (digitsOf base (magnitude num type)).length := by
  have few := @digitsOf_length_le base (magnitude num type) large
    (magnitude_lt.trans (by decide))
  exact Lib.toInt_ofNat_of_lt (by omega)

/-- `LEFT` matters to `ZEROPAD` alone. -/
theorem leftWins_eq : ∃ zeropad, leftWins type = { type with zeropad := zeropad } := by
  rw [leftWins]
  split
  · exact ⟨false, rfl⟩
  · exact ⟨type.zeropad, rfl⟩

theorem number_eq (large : 1 < base) (high : base ≤ 36) :
    number num base size precision type =
      some ((padding (leftWins type) (leftOf num base size precision type)).1 ++
        (signOf num type).toList ++ specialOf base type ++
        (padding (leftWins type) (leftOf num base size precision type)).2.1 ++
        List.replicate ((precisionOf num base precision type).toInt -
          (digitsOf base (magnitude num type)).length).toNat (ch '0') ++
        ((digitsOf base (magnitude num type)).map (digit type.small)).reverse ++
        (padding (leftWins type) (leftOf num base size precision type)).2.2) := by
  obtain ⟨zeropad, isWins⟩ := @leftWins_eq type
  have isTmp : tmpOf num base { type with zeropad := zeropad } =
      digitsOf base (magnitude num type) := tmpOf_eq large
  have isZeros := @zerosWhile_eq (Int32.ofNat (digitsOf base (magnitude num type)).length)
    (precisionOf num base precision type)
  rw [toInt_length large] at isZeros
  rw [number, isWins, if_neg (by omega), ← isZeros]
  dsimp only
  rw [isTmp]
  rfl

/-- The padding by the three loops; spaces stand in the middle only when the first loop has found
nothing to pad. -/
theorem padding_eq :
    ∃ before middle behind c, padding (leftWins type) size =
        (List.replicate before (ch ' '), List.replicate middle c, List.replicate behind (ch ' ')) ∧
      before + middle + behind = padded (loopsOf type) size ∧
      (c = ch '0' ∨ (0 < size.toInt → middle = 0)) := by
  rw [loopsOf]
  cases isLeft : type.left with
  | true =>
      refine ⟨0, 0, size.toInt.toNat, ch '0', ?_, Nat.zero_add _, Or.inl rfl⟩
      simp [padding, leftWins, isLeft, padWhile_eq]
  | false =>
      cases isZero : type.zeropad with
      | true =>
          refine ⟨0, size.toInt.toNat, (behindWhile size).toInt.toNat, ch '0', ?_, ?_, Or.inl rfl⟩
          · simp [padding, leftWins, isLeft, isZero, padWhile_eq]
          · exact congrArg (· + _) (Nat.zero_add _)
      | false =>
          refine ⟨size.toInt.toNat, (behindWhile size).toInt.toNat,
            (behindWhile (behindWhile size)).toInt.toNat, ch ' ', ?_, Nat.add_assoc _ _ _,
            Or.inr fun positive => ?_⟩
          · simp [padding, leftWins, isLeft, isZero, padWhile_eq]
          · rw [behindWhile_of_pos positive]
            decide

theorem precisionOf_toInt (large : 1 < base) :
    (precisionOf num base precision type).toInt =
      max precision.toInt (digitsOf base (magnitude num type)).length := by
  have isLength := @toInt_length num base type large
  rw [precisionOf]
  by_cases less : precision < Int32.ofNat (digitsOf base (magnitude num type)).length
  · have lessInt := Int32.lt_iff_toInt_lt.mp less
    rw [if_pos less]
    omega
  · have notLess := mt Int32.lt_iff_toInt_lt.mpr less
    rw [if_neg less]
    omega

theorem sizeBehind_turns :
    ∃ turns, (sizeBehind num base size type).toInt =
      size.toInt - (signOf num type).toList.length - (specialOf base type).length +
        4294967296 * turns := by
  have isOne : (1 : Int32).toInt = 1 := by decide
  have isTwo : (2 : Int32).toInt = 2 := by decide
  have behindSign : ∃ turns, (if (signOf num type).isSome then size - 1 else size).toInt =
      size.toInt - (signOf num type).toList.length + 4294967296 * turns := by
    cases signOf num type with
    | none => exact ⟨0, by simp⟩
    | some c =>
        obtain ⟨turns, isDiff⟩ := Lib.toInt_sub_turns size 1
        refine ⟨turns, ?_⟩
        show (size - 1).toInt = size.toInt - 1 + 4294967296 * turns
        rw [isDiff, isOne]
  obtain ⟨turns, isBehind⟩ := behindSign
  rw [sizeBehind, specialOf]
  obtain ⟨rest, isRest⟩ :
    ∃ rest, (if (signOf num type).isSome then size - 1 else size) = rest := ⟨_, rfl⟩
  rw [isRest] at isBehind ⊢
  cases type.special with
  | false => exact ⟨turns, by simp [isBehind]⟩
  | true =>
      by_cases isHex : base = 16
      · obtain ⟨more, isDiff⟩ := Lib.toInt_sub_turns rest 2
        rw [isTwo] at isDiff
        exact ⟨turns + more, by simp [isHex, isDiff, isBehind]; ring⟩
      · by_cases isOctal : base = 8
        · obtain ⟨more, isDiff⟩ := Lib.toInt_sub_turns rest 1
          rw [isOne] at isDiff
          exact ⟨turns + more, by simp [isOctal, isDiff, isBehind]; ring⟩
        · exact ⟨turns, by simp [isHex, isOctal, isBehind]⟩

theorem leftOf_turns (large : 1 < base) :
    ∃ turns, (leftOf num base size precision type).toInt =
      size.toInt - needed num base precision type + 4294967296 * turns := by
  obtain ⟨turns, isSize⟩ := @sizeBehind_turns num base size type
  obtain ⟨more, isLeft⟩ := Lib.toInt_sub_turns (sizeBehind num base size type)
    (precisionOf num base precision type)
  rw [precisionOf_toInt large, isSize] at isLeft
  exact ⟨turns + more, by rw [leftOf, isLeft, needed]; ring⟩

end Characters

/-! ## The length and the value -/

section Formatted

variable {num : Int32} {base : Nat} {size precision : Int32} {type : Flags} {out : List UInt8}

/-- A number in its field: as long as it has to be, and without the padding, the sign and the prefix
there are digits that stand for the number. -/
structure Formatted (num : Int32) (base : Nat) (size precision : Int32) (type : Flags)
    (out : List UInt8) : Prop where
  length : (out.length : Int) = max size.toInt (needed num base precision type)
  stripped : ∃ before zeros digits behind,
    out = List.replicate before (ch ' ') ++ (signOf num type).toList ++ specialOf base type ++
      List.replicate zeros (ch '0') ++ List.map (digit type.small) digits ++
      List.replicate behind (ch ' ') ∧
    digits.length = (digitsOf base (magnitude num type)).length ∧ (∀ k ∈ digits, k < base) ∧
    Nat.ofDigits base digits.reverse = magnitude num type

/-- The `size` counts down to what can be padded, or turns around to nothing. -/
def Fits (num : Int32) (base : Nat) (size precision : Int32) (type : Flags) : Prop :=
  -2147483648 + (loopsOf type : Int) ≤ size.toInt - needed num base precision type ∨
    size.toInt - needed num base precision type ≤ -4294967296

instance : Decidable (Fits num base size precision type) := inferInstanceAs (Decidable (_ ∨ _))

theorem loopsOf_le : loopsOf type ≤ 2 := by
  rw [loopsOf]
  split
  · decide
  · split <;> decide

theorem sign_length_le : (signOf num type).toList.length ≤ 1 := by
  cases signOf num type with
  | none => exact Nat.zero_le 1
  | some c => exact le_refl 1

theorem special_length_le : (specialOf base type).length ≤ 2 := by
  rw [specialOf]
  split
  · split
    · decide
    · split
      · exact le_refl 2
      · decide
  · decide

/-- There is room for nothing but a few characters less than all `int`s. -/
theorem room_bounds (large : 1 < base) :
    -4294967300 < size.toInt - needed num base precision type ∧
      size.toInt - needed num base precision type < 2147483647 := by
  have low := size.le_toInt
  have high := size.toInt_lt
  have precisionHigh := precision.toInt_lt
  have sign := @sign_length_le num type
  have special := @special_length_le base type
  have digits : 0 < (digitsOf base (magnitude num type)).length :=
    List.length_pos_iff.mpr digitsOf_ne_nil
  have few := @digitsOf_length_le base (magnitude num type) large (magnitude_lt.trans (by decide))
  rw [needed]
  omega

/-- The loops pad what there is room for. -/
theorem padded_room_iff {loops : Nat} {left room turns : Int} (few : loops ≤ 2)
    (low : -2147483648 ≤ left) (high : left < 2147483648)
    (isLeft : left = room + 4294967296 * turns) (roomLow : -4294967300 < room)
    (roomHigh : room < 2147483647) :
    (if -2147483648 + (loops : Int) ≤ left then max 0 left else 2147483647) = max 0 room ↔
      -2147483648 + (loops : Int) ≤ room ∨ room ≤ -4294967296 := by
  split
  · omega
  · omega

/-- The characters, when the loops pad this much in front, in the middle and behind. -/
def written (num : Int32) (base : Nat) (precision : Int32) (type : Flags) (c : UInt8)
    (before middle behind : Nat) : List UInt8 :=
  List.replicate before (ch ' ') ++ (signOf num type).toList ++ specialOf base type ++
    List.replicate middle c ++
    List.replicate ((precisionOf num base precision type).toInt -
      (digitsOf base (magnitude num type)).length).toNat (ch '0') ++
    ((digitsOf base (magnitude num type)).map (digit type.small)).reverse ++
    List.replicate behind (ch ' ')

theorem number_written (large : 1 < base) (high : base ≤ 36) :
    ∃ before middle behind c,
      number num base size precision type =
        some (written num base precision type c before middle behind) ∧
      before + middle + behind = padded (loopsOf type) (leftOf num base size precision type) ∧
      (c = ch '0' ∨ (0 < (leftOf num base size precision type).toInt → middle = 0)) := by
  obtain ⟨before, middle, behind, c, isPadding, sum, isMiddle⟩ :=
    @padding_eq (leftOf num base size precision type) type
  have isNumber := @number_eq num base size precision type large high
  rw [isPadding] at isNumber
  exact ⟨before, middle, behind, c, isNumber, sum, isMiddle⟩

theorem written_length {before middle behind : Nat} {c : UInt8} (large : 1 < base) :
    ((written num base precision type c before middle behind).length : Int) =
      needed num base precision type + (before + middle + behind : Nat) := by
  have isPrecision := @precisionOf_toInt num base precision type large
  simp only [written, List.length_append, List.length_replicate, List.length_reverse,
    List.length_map, isPrecision, needed]
  omega

theorem padded_leftOf_iff (large : 1 < base) :
    (padded (loopsOf type) (leftOf num base size precision type) : Int) =
        max 0 (size.toInt - needed num base precision type) ↔
      Fits num base size precision type := by
  obtain ⟨turns, isLeft⟩ := @leftOf_turns num base size precision type large
  obtain ⟨roomLow, roomHigh⟩ := @room_bounds num base size precision type large
  have few := @loopsOf_le type
  have low := (leftOf num base size precision type).le_toInt
  have high := (leftOf num base size precision type).toInt_lt
  rw [padded_eq (by omega)]
  exact padded_room_iff few low high isLeft roomLow roomHigh

/-- When there is nothing to pad for the first loop, there is nothing for the others. -/
theorem padded_eq_zero (large : 1 < base)
    (total : (padded (loopsOf type) (leftOf num base size precision type) : Int) =
      max 0 (size.toInt - needed num base precision type))
    (nothing : (leftOf num base size precision type).toInt ≤ 0) :
    padded (loopsOf type) (leftOf num base size precision type) = 0 := by
  obtain ⟨-, roomHigh⟩ := @room_bounds num base size precision type large
  have few := @loopsOf_le type
  have padded := @padded_eq (leftOf num base size precision type) (loopsOf type) (by omega)
  split at padded
  · omega
  · omega

theorem fits_of_formatted (large : 1 < base) (high : base ≤ 36)
    (isOut : number num base size precision type = some out)
    (formatted : Formatted num base size precision type out) :
    Fits num base size precision type := by
  obtain ⟨before, middle, behind, c, isNumber, sum, -⟩ :=
    @number_written num base size precision type large high
  obtain rfl := Option.some.inj (isNumber.symm.trans isOut)
  have length := formatted.length
  rw [written_length large, sum] at length
  exact (padded_leftOf_iff large).mp (by omega)

theorem formatted_of_fits (large : 1 < base) (high : base ≤ 36)
    (fits : Fits num base size precision type) :
    ∃ out, number num base size precision type = some out ∧
      Formatted num base size precision type out := by
  obtain ⟨before, middle, behind, c, isNumber, sum, isMiddle⟩ :=
    @number_written num base size precision type large high
  have total := (padded_leftOf_iff large).mpr fits
  refine ⟨_, isNumber, by rw [written_length large, sum, total]; omega, ?_⟩
  have zeros : List.replicate middle c = List.replicate middle (ch '0') := by
    rcases isMiddle with rfl | isMiddle
    · rfl
    · have none : middle = 0 := by
        by_cases positive : 0 < (leftOf num base size precision type).toInt
        · exact isMiddle positive
        · have nothing := padded_eq_zero large total (by omega)
          omega
      rw [none]
      rfl
  refine ⟨before, middle + ((precisionOf num base precision type).toInt -
      (digitsOf base (magnitude num type)).length).toNat,
    (digitsOf base (magnitude num type)).reverse, behind, ?_, List.length_reverse,
    fun k member => digitsOf_lt large (List.mem_reverse.mp member), ?_⟩
  · rw [written, zeros, List.replicate_add, List.map_reverse]
    simp only [List.append_assoc]
  · rw [List.reverse_reverse, ofDigits_digitsOf]

/-- The number is written as it has to be, if and only if its `size` fits. -/
theorem number_formatted_iff (isBase : base = 8 ∨ base = 10 ∨ base = 16) :
    (∃ out, number num base size precision type = some out ∧
      Formatted num base size precision type out) ↔ Fits num base size precision type := by
  constructor
  · rintro ⟨out, isOut, formatted⟩
    exact fits_of_formatted (by omega) (by omega) isOut formatted
  · intro fits
    exact formatted_of_fits (by omega) (by omega) fits

/-- `"%#08x"` of 255. -/
theorem number_formatted_iff_hex :
    ∃ out, number 255 16 8 (-1) { zeropad := true, special := true, small := true } = some out ∧
      Formatted 255 16 8 (-1) { zeropad := true, special := true, small := true } out :=
  (number_formatted_iff (Or.inr (Or.inr rfl))).mpr (Or.inl (by decide))

/-- A width that is the least `int`: 7 is followed by as many spaces as an `int` can count. -/
theorem number_leastWidth :
    ¬∃ out, number 7 10 (-2147483648) (-1) { sign := true, left := true } = some out ∧
      Formatted 7 10 (-2147483648) (-1) { sign := true, left := true } out := by
  rintro ⟨out, isOut, formatted⟩
  have fits := fits_of_formatted (by decide) (by decide) isOut formatted
  revert fits
  decide

/-! ## Without the wrapping -/

/-- Where there is room, the first loop that pads takes all of it. -/
theorem leftOf_toNat (large : 1 < base) (fits : Fits num base size precision type) :
    (leftOf num base size precision type).toInt.toNat =
        (size.toInt - needed num base precision type).toNat ∧
      padded (loopsOf type) (leftOf num base size precision type) =
        (size.toInt - needed num base precision type).toNat := by
  have total := (padded_leftOf_iff large).mpr fits
  obtain ⟨-, roomHigh⟩ := @room_bounds num base size precision type large
  have few := @loopsOf_le type
  have isPadded := @padded_eq (leftOf num base size precision type) (loopsOf type) (by omega)
  split at isPadded
  · omega
  · omega

/-- Only one of the loops pads. -/
theorem padding_of_first {pad : Nat} (isFirst : size.toInt.toNat = pad)
    (isTotal : padded (loopsOf type) size = pad) :
    padding (leftWins type) size =
      (if !(type.zeropad && !type.left) && !type.left then List.replicate pad (ch ' ') else [],
        if type.zeropad && !type.left then List.replicate pad (ch '0') else [],
        if type.left then List.replicate pad (ch ' ') else []) := by
  subst isFirst
  rw [loopsOf] at isTotal
  cases isLeft : type.left with
  | true => simp [padding, leftWins, isLeft, padWhile_eq]
  | false =>
      cases isZero : type.zeropad with
      | true =>
          rw [isLeft, isZero, if_neg (by decide), if_pos rfl, padded, padded] at isTotal
          have none : (behindWhile size).toInt.toNat = 0 := by omega
          simp [padding, leftWins, isLeft, isZero, padWhile_eq, none]
      | false =>
          rw [isLeft, isZero, if_neg (by decide), if_neg (by decide), padded, padded, padded]
            at isTotal
          have none : (behindWhile size).toInt.toNat = 0 := by omega
          have noneBehind : (behindWhile (behindWhile size)).toInt.toNat = 0 := by omega
          simp [padding, leftWins, isLeft, isZero, padWhile_eq, none, noneBehind]

theorem special_eq :
    specialOf base type =
      if type.special then
        if base = 8 then [ch '0'] else if base = 16 then [ch '0', digit type.small 33] else []
      else [] := rfl

theorem sign_eq :
    (signOf num type).toList =
      if type.sign && decide (num < 0) then [ch '-']
      else if type.plus then [ch '+'] else if type.space then [ch ' '] else [] := by
  rw [signOf]
  split
  · rfl
  · split
    · rfl
    · split <;> rfl

/-- The digits of the `unsigned int`. -/
theorem digits_eq (large : 1 < base) {value : UInt32} (isValue : value.toNat = magnitude num type) :
    (if value = 0 then [0] else tmpDigits base 36 value.toNat) =
      digitsOf base (magnitude num type) := by
  have size := value.toNat_lt
  have zero : value = 0 ↔ value.toNat = 0 := UInt32.toNat_inj.symm
  rw [digitsOf, Vsprintf.tmpDigits_eq_digits large (by omega), ← isValue]
  simp only [zero]

/-- As long as the `size` fits, the wrapping is never seen. -/
theorem number_eq_unbounded (large : 1 < base) (high : base ≤ 36)
    (fits : Fits num base size precision type) :
    number num base size precision type =
      some (Vsprintf.number num.toUInt32 base size.toInt precision.toInt type) := by
  obtain ⟨isFirst, isTotal⟩ := leftOf_toNat large fits
  have isMagnitude : (if type.sign && decide (num < 0) then -num.toUInt32
      else num.toUInt32).toNat = magnitude num type := by
    rw [← magnitude_eq]
    split <;> rfl
  rw [number_eq large high, padding_of_first isFirst isTotal, precisionOf_toInt large,
    Vsprintf.number]
  dsimp only
  have isRoom : size.toInt - (signOf num type).toList.length - (specialOf base type).length -
      max ((digitsOf base (magnitude num type)).length : Int) precision.toInt =
        size.toInt - needed num base precision type := by
    rw [needed, max_comm precision.toInt]
    ring
  rw [num.toInt32_toUInt32, digits_eq large isMagnitude, ← sign_eq, ← special_eq, isRoom,
    max_comm precision.toInt, List.map_reverse]

end Formatted

end Linux012.Kernel.Number
