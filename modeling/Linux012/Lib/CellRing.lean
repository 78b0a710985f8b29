import Mathlib.Data.Fin.Basic
import Mathlib.Data.List.Basic
import Mathlib.Data.List.Range
import Mathlib.Logic.Function.Basic
import Mathlib.Algebra.GroupWithZero.Nat

/-!
# A ring of cells

Entries are put at the head and got at the tail.  One cell is always left free, so that the ring
is empty exactly when the head is the tail.
-/

namespace Linux012.Lib

universe u

/-- A ring with two positions among its cells. -/
structure CellRing (α : Type u) (size : Nat) where
  head : Fin size
  tail : Fin size
  cell : Fin size → α

namespace CellRing

theorem mod_eq_ite {number size : Nat} (less : number < 2 * size) :
    number % size = if number < size then number else number - size := by
  split
  next small => exact Nat.mod_eq_of_lt small
  next large =>
    rw [Nat.mod_eq_sub_mod (Nat.le_of_not_lt large)]
    exact Nat.mod_eq_of_lt (by omega)

theorem val_sub_eq {size : Nat} (left right : Fin size) :
    (left - right).val = if right.val ≤ left.val then left.val - right.val
      else size - right.val + left.val := by
  have leftLt := left.isLt
  have rightLt := right.isLt
  rw [Fin.val_sub, mod_eq_ite (by omega)]
  split <;> split <;> omega

variable {α : Type u} {size : Nat} [NeZero size]

/-- The number of the entries. -/
def chars (ring : CellRing α size) : Nat := (ring.head - ring.tail).val

/-- The number of the entries that there is room for. -/
def left (ring : CellRing α size) : Nat := (ring.tail - ring.head - 1).val

abbrev Empty (ring : CellRing α size) : Prop := ring.head = ring.tail

abbrev Full (ring : CellRing α size) : Prop := ring.left = 0

/-- The entry that was put last. -/
def last (ring : CellRing α size) : α := ring.cell (ring.head - 1)

/-- The entry that is got next. -/
def first (ring : CellRing α size) : α := ring.cell ring.tail

/-- The ring with one entry more. -/
def put (ring : CellRing α size) (entry : α) : CellRing α size :=
  { ring with cell := Function.update ring.cell ring.head entry, head := ring.head + 1 }

/-- The ring without its first entry. -/
def drop (ring : CellRing α size) : CellRing α size := { ring with tail := ring.tail + 1 }

/-- The ring without its last entry. -/
def unput (ring : CellRing α size) : CellRing α size := { ring with head := ring.head - 1 }

/-- The entries, the first one first. -/
def entries (ring : CellRing α size) : List α :=
  (List.range ring.chars).map fun index => ring.cell (ring.tail + Fin.ofNat size index)

variable {ring : CellRing α size}

theorem val_one_eq (two : 2 ≤ size) : (1 : Fin size).val = 1 := by
  rw [Fin.val_one']
  exact Nat.mod_eq_of_lt two

theorem val_add_one_eq (two : 2 ≤ size) (position : Fin size) :
    (position + 1).val = if position.val + 1 < size then position.val + 1 else 0 := by
  have less := position.isLt
  rw [Fin.val_add, val_one_eq two, mod_eq_ite (by omega)]
  split
  · rfl
  · omega

theorem val_sub_one_eq (two : 2 ≤ size) (position : Fin size) :
    (position - 1).val = if 1 ≤ position.val then position.val - 1 else size - 1 := by
  have less := position.isLt
  rw [val_sub_eq, val_one_eq two]
  split
  · rfl
  · omega

/-- All cells but one are for entries. -/
theorem left_add_chars (two : 2 ≤ size) (ring : CellRing α size) :
    ring.left + ring.chars = size - 1 := by
  have headLt := ring.head.isLt
  have tailLt := ring.tail.isLt
  rw [left, chars, val_sub_one_eq two, val_sub_eq, val_sub_eq]
  split <;> split <;> split <;> omega

omit [NeZero size] in
theorem empty_iff : ring.Empty ↔ ring.chars = 0 := by
  have headLt := ring.head.isLt
  have tailLt := ring.tail.isLt
  rw [Empty, chars, val_sub_eq, Fin.ext_iff]
  split <;> omega

theorem full_iff (two : 2 ≤ size) : ring.Full ↔ ring.chars = size - 1 := by
  have total := left_add_chars two ring
  rw [Full]
  omega

theorem length_entries (ring : CellRing α size) : ring.entries.length = ring.chars := by
  rw [entries, List.length_map, List.length_range]

theorem entries_eq_nil : ring.entries = [] ↔ ring.Empty := by
  rw [← List.length_eq_zero_iff, length_entries, empty_iff]

theorem chars_put (two : 2 ≤ size) {entry : α} (room : ¬ring.Full) :
    (ring.put entry).chars = ring.chars + 1 := by
  have headLt := ring.head.isLt
  have tailLt := ring.tail.isLt
  rw [full_iff two] at room
  rw [chars, val_sub_eq] at room ⊢
  rw [put, chars, val_sub_eq, val_add_one_eq two]
  dsimp only
  split at room <;> split <;> split <;> omega

theorem chars_drop (two : 2 ≤ size) (notEmpty : ¬ring.Empty) :
    ring.drop.chars + 1 = ring.chars := by
  have headLt := ring.head.isLt
  have tailLt := ring.tail.isLt
  rw [Empty, Fin.ext_iff] at notEmpty
  rw [drop, chars, chars, val_sub_eq, val_sub_eq, val_add_one_eq two]
  dsimp only
  split <;> split <;> split <;> omega

theorem chars_unput (two : 2 ≤ size) (notEmpty : ¬ring.Empty) :
    ring.unput.chars + 1 = ring.chars := by
  have headLt := ring.head.isLt
  have tailLt := ring.tail.isLt
  rw [Empty, Fin.ext_iff] at notEmpty
  have isChars : ring.unput.chars = (ring.head - 1 - ring.tail).val := rfl
  rw [isChars, chars, val_sub_eq (ring.head - 1), val_sub_one_eq two, val_sub_eq]
  split <;> split <;> split <;> omega

/-- The cell of an entry. -/
theorem val_position {index : Nat} (ring : CellRing α size) (less : index < size) :
    (ring.tail + Fin.ofNat size index).val =
      if ring.tail.val + index < size then ring.tail.val + index
      else ring.tail.val + index - size := by
  have tailLt := ring.tail.isLt
  have index_val : (Fin.ofNat size index).val = index := Nat.mod_eq_of_lt less
  rw [Fin.val_add, index_val, mod_eq_ite (by omega)]

theorem position_chars (ring : CellRing α size) :
    ring.tail + Fin.ofNat size ring.chars = ring.head := by
  have headLt := ring.head.isLt
  have tailLt := ring.tail.isLt
  have charsLt : ring.chars < size := Fin.isLt _
  rw [Fin.ext_iff, val_position ring charsLt]
  rw [chars, val_sub_eq]
  split <;> split <;> omega

/-- The head is not the cell of an entry. -/
theorem position_ne_head {index : Nat} (less : index < ring.chars) :
    ring.tail + Fin.ofNat size index ≠ ring.head := by
  have charsLt : ring.chars < size := Fin.isLt _
  intro same
  have same := congrArg Fin.val (same.trans ring.position_chars.symm)
  have tailLt := ring.tail.isLt
  rw [val_position ring (by omega), val_position ring charsLt] at same
  split at same <;> split at same <;> omega

/-- An entry is put behind the others. -/
theorem entries_put (two : 2 ≤ size) {entry : α} (room : ¬ring.Full) :
    (ring.put entry).entries = ring.entries ++ [entry] := by
  rw [entries, chars_put two room, List.range_succ, List.map_append, List.map_singleton]
  congr 1
  · apply List.map_congr_left
    intro index member
    exact Function.update_of_ne (position_ne_head (List.mem_range.mp member)) _ _
  · have atHead : (ring.put entry).tail + Fin.ofNat size ring.chars = ring.head :=
      ring.position_chars
    rw [atHead]
    exact congrArg (fun last => [last]) (Function.update_self _ _ _)

/-- The first entry is got. -/
theorem entries_eq_first_cons (two : 2 ≤ size) (notEmpty : ¬ring.Empty) :
    ring.entries = ring.first :: ring.drop.entries := by
  have fewer := chars_drop two notEmpty
  rw [entries, ← fewer, List.range_succ_eq_map, List.map_cons, List.map_map]
  congr 1
  · have zero : Fin.ofNat size 0 = 0 := rfl
    rw [zero, Fin.add_zero]
    rfl
  · apply List.map_congr_left
    intro index member
    have less := List.mem_range.mp member
    have charsLt : ring.chars < size := Fin.isLt _
    have next : ring.tail + Fin.ofNat size (index + 1) =
        ring.drop.tail + Fin.ofNat size index := by
      have tailLt := ring.tail.isLt
      rw [Fin.ext_iff, val_position ring (by omega), val_position ring.drop (by omega)]
      rw [drop, val_add_one_eq two]
      split <;> split <;> split <;> omega
    exact congrArg ring.cell next

/-- The last entry is taken back. -/
theorem entries_eq_append_last (two : 2 ≤ size) (notEmpty : ¬ring.Empty) :
    ring.entries = ring.unput.entries ++ [ring.last] := by
  have fewer := chars_unput two notEmpty
  have charsLt : ring.chars < size := Fin.isLt _
  rw [entries, ← fewer, List.range_succ, List.map_append, List.map_singleton]
  congr 1
  have atLast : ring.tail + Fin.ofNat size ring.unput.chars = ring.head - 1 :=
    ring.unput.position_chars
  rw [atLast]
  rfl

theorem left_put (two : 2 ≤ size) {entry : α} (room : ¬ring.Full) :
    (ring.put entry).left + 1 = ring.left := by
  have before := left_add_chars two ring
  have after := left_add_chars two (ring.put entry)
  have more : (ring.put entry).chars = ring.chars + 1 := chars_put two room
  omega

/-- The head comes round to the tail when an entry is put into a full ring. -/
theorem put_wraps_iff (two : 2 ≤ size) {entry : α} :
    (ring.put entry).head = (ring.put entry).tail ↔ ring.Full := by
  have headLt := ring.head.isLt
  have tailLt := ring.tail.isLt
  have isHead : (ring.put entry).head = ring.head + 1 := rfl
  have isTail : (ring.put entry).tail = ring.tail := rfl
  rw [isHead, isTail, Full, left, val_sub_one_eq two, val_sub_eq, Fin.ext_iff, val_add_one_eq two]
  split <;> split <;> split <;> omega

/-- Something has been put behind the entries of the first ring, or nothing. -/
structure Extends (ring after : CellRing α size) : Prop where
  tail : after.tail = ring.tail
  more : ring.chars ≤ after.chars
  kept : ∀ index < ring.chars,
    after.cell (ring.tail + Fin.ofNat size index) = ring.cell (ring.tail + Fin.ofNat size index)

theorem Extends.refl (ring : CellRing α size) : ring.Extends ring := ⟨rfl, le_refl _, fun _ _ => rfl⟩

/-- The cells of the first entries stay, also when the ring is full. -/
theorem Extends.cell_put {after : CellRing α size} (extended : ring.Extends after) (entry : α)
    {index : Nat} (less : index < ring.chars) :
    (after.put entry).cell (ring.tail + Fin.ofNat size index) =
      ring.cell (ring.tail + Fin.ofNat size index) := by
  have more := extended.more
  have isEntry : ring.tail + Fin.ofNat size index ≠ after.head := by
    rw [← extended.tail]
    exact position_ne_head (by omega)
  exact (Function.update_of_ne isEntry _ _).trans (extended.kept index less)

theorem Extends.put (two : 2 ≤ size) {after : CellRing α size} (extended : ring.Extends after)
    (room : ¬after.Full) (entry : α) : ring.Extends (after.put entry) where
  tail := extended.tail
  more := by
    rw [chars_put two room]
    exact Nat.le_succ_of_le extended.more
  kept _ less := extended.cell_put entry less

/-- With its old head, a ring has its old entries. -/
theorem entries_of_kept {after : CellRing α size} (tail : after.tail = ring.tail)
    (kept : ∀ index < ring.chars, after.cell (ring.tail + Fin.ofNat size index) =
      ring.cell (ring.tail + Fin.ofNat size index)) :
    ({ after with head := ring.head } : CellRing α size).entries = ring.entries := by
  have isChars : ({ after with head := ring.head } : CellRing α size).chars = ring.chars := by
    rw [chars, chars, ← tail]
  rw [entries, entries, isChars]
  apply List.map_congr_left
  intro index member
  dsimp only
  rw [tail]
  exact kept index (List.mem_range.mp member)

end CellRing

end Linux012.Lib
