import Mathlib.Data.Nat.ModEq
import Mathlib.Data.Set.Insert
import Mathlib.Data.Set.Lattice
import Mathlib.Order.Interval.Set.Basic

/-!
# A stream through a ring of cells

The positions of a stream use the cells of a ring in turn.  A position is placed before its
entry is stored, and taken before its entry is loaded; stores and loads are done later and in
any order.  As long as a cell is stored and loaded in the order in which its positions were
placed and taken, every load gets the entry of its own position.
-/

namespace Linux012.Lib

universe u

/-- A ring of `size` cells that a stream goes through.  The positions up to `stream.length` are
placed and the positions up to `taken` are taken; `unstored` and `unloaded` are those that
still have to be stored and loaded. -/
structure StreamRing (α : Type u) where
  size : Nat
  stream : List α
  taken : Nat
  unstored : Set Nat
  unloaded : Set Nat
  cell : Nat → α

namespace StreamRing

variable {α : Type u}

/-- The ring of a stream that is used in order. -/
structure Good (ring : StreamRing α) : Prop where
  taken_le : ring.taken ≤ ring.stream.length
  room : ring.stream.length < ring.taken + ring.size
  unstored_lt : ∀ position ∈ ring.unstored, position < ring.stream.length
  unloaded_lt : ∀ position ∈ ring.unloaded, position < ring.taken
  /-- Behind an unstored position, the same cell has not been stored again. -/
  inOrder : ∀ position ∈ ring.unstored, ∀ later, position < later →
    later % ring.size = position % ring.size → later < ring.stream.length →
    later ∈ ring.unstored
  /-- A stored position that still has to be loaded is in its cell. -/
  holds : ∀ position < ring.stream.length, position ∉ ring.unstored →
    ring.taken ≤ position ∨ position ∈ ring.unloaded →
    ring.stream[position]? = some (ring.cell (position % ring.size))

/-- New entries are placed at the end of the stream. -/
def place (ring : StreamRing α) (entries : List α) : StreamRing α :=
  { ring with
    stream := ring.stream ++ entries
    unstored := ring.unstored ∪
      Set.Ico ring.stream.length (ring.stream.length + entries.length) }

/-- The next positions are taken. -/
def take (ring : StreamRing α) (count : Nat) : StreamRing α :=
  { ring with
    taken := ring.taken + count
    unloaded := ring.unloaded ∪ Set.Ico ring.taken (ring.taken + count) }

/-- The entry of a position is stored in its cell. -/
def store (ring : StreamRing α) (position : Nat) (entry : α) : StreamRing α :=
  { ring with
    unstored := ring.unstored \ {position}
    cell := Function.update ring.cell (position % ring.size) entry }

/-- A position has been loaded. -/
def load (ring : StreamRing α) (position : Nat) : StreamRing α :=
  { ring with unloaded := ring.unloaded \ {position} }

variable {ring : StreamRing α}

/-- Positions of one cell are apart by the size of the ring. -/
theorem add_size_le_of_lt {size position later : Nat} (before : position < later)
    (sameCell : later % size = position % size) : position + size ≤ later := by
  have divides : size ∣ later - position :=
    (Nat.modEq_iff_dvd' before.le).mp sameCell.symm
  have positive : 0 < later - position := Nat.sub_pos_of_lt before
  have far := Nat.le_of_dvd positive divides
  omega

theorem Good.place (good : ring.Good) (entries : List α)
    (room : ring.stream.length + entries.length < ring.taken + ring.size) :
    (ring.place entries).Good where
  taken_le := by
    have taken_le := good.taken_le
    simp only [StreamRing.place, List.length_append]
    omega
  room := by
    simp only [StreamRing.place, List.length_append]
    exact room
  unstored_lt position member := by
    simp only [StreamRing.place, List.length_append]
    rcases member with old | new
    · exact Nat.lt_add_right _ (good.unstored_lt position old)
    · exact new.2
  unloaded_lt := good.unloaded_lt
  inOrder position member later before sameCell placed := by
    simp only [StreamRing.place, List.length_append] at placed
    by_cases old : later < ring.stream.length
    · rcases member with member | new
      · exact .inl (good.inOrder position member later before sameCell old)
      · have above := new.1
        omega
    · exact .inr ⟨Nat.le_of_not_lt old, placed⟩
  holds position placed stored needed := by
    simp only [StreamRing.place, List.length_append] at placed
    have old : position < ring.stream.length := by
      by_contra new
      exact stored (.inr ⟨Nat.le_of_not_lt new, placed⟩)
    have here := good.holds position old (fun member => stored (.inl member)) needed
    simp only [StreamRing.place]
    rw [List.getElem?_append_left old]
    exact here

theorem Good.take (good : ring.Good) {count : Nat}
    (placed : ring.taken + count ≤ ring.stream.length) : (ring.take count).Good where
  taken_le := placed
  room := by
    have room := good.room
    simp only [StreamRing.take]
    omega
  unstored_lt := good.unstored_lt
  unloaded_lt position member := by
    simp only [StreamRing.take]
    rcases member with old | new
    · exact Nat.lt_add_right _ (good.unloaded_lt position old)
    · exact new.2
  inOrder := good.inOrder
  holds position isPlaced stored needed := by
    refine good.holds position isPlaced stored ?_
    simp only [StreamRing.take] at needed
    rcases needed with above | old | new
    · exact .inl (le_trans (Nat.le_add_right _ _) above)
    · exact .inr old
    · exact .inl new.1

/-- A store in its turn: no older position of the cell is still to be stored or loaded. -/
theorem Good.store (good : ring.Good) {position : Nat} {entry : α}
    (isEntry : ring.stream[position]? = some entry) (unstored : position ∈ ring.unstored)
    (storesInOrder : ∀ older ∈ ring.unstored, older < position →
      older % ring.size ≠ position % ring.size)
    (loadsInOrder : ∀ older ∈ ring.unloaded, older + ring.size ≤ position →
      older % ring.size ≠ position % ring.size) :
    (ring.store position entry).Good where
  taken_le := good.taken_le
  room := good.room
  unstored_lt other member := good.unstored_lt other member.1
  unloaded_lt := good.unloaded_lt
  inOrder other member later before sameCell placed := by
    refine ⟨good.inOrder other member.1 later before sameCell placed, ?_⟩
    rintro rfl
    exact storesInOrder other member.1 before sameCell.symm
  holds other placed stored needed := by
    simp only [StreamRing.store] at placed stored needed ⊢
    by_cases same : other = position
    · subst same
      rw [Function.update_self]
      exact isEntry
    · have storedBefore : other ∉ ring.unstored := fun member => stored ⟨member, same⟩
      have otherCell : other % ring.size ≠ position % ring.size := by
        intro sameCell
        rcases Nat.lt_or_gt_of_ne same with before | behind
        · -- the position would be stored over one that is still needed
          have apart := add_size_le_of_lt before sameCell.symm
          have room := good.room
          have isPlaced := good.unstored_lt position unstored
          rcases needed with above | unloaded
          · omega
          · exact loadsInOrder other unloaded apart sameCell
        · exact storedBefore (good.inOrder position unstored other behind sameCell placed)
      rw [Function.update_of_ne otherCell]
      exact good.holds other placed storedBefore needed

/-- A load of a stored position gets its entry. -/
theorem Good.getElem?_of_load (good : ring.Good) {position : Nat}
    (unloaded : position ∈ ring.unloaded) (stored : position ∉ ring.unstored) :
    ring.stream[position]? = some (ring.cell (position % ring.size)) :=
  good.holds position (lt_of_lt_of_le (good.unloaded_lt position unloaded) good.taken_le)
    stored (.inr unloaded)

theorem Good.load (good : ring.Good) (position : Nat) : (ring.load position).Good where
  taken_le := good.taken_le
  room := good.room
  unstored_lt := good.unstored_lt
  unloaded_lt other member := good.unloaded_lt other member.1
  inOrder := good.inOrder
  holds other placed stored needed :=
    good.holds other placed stored (needed.imp_right fun member => member.1)

end StreamRing

end Linux012.Lib
