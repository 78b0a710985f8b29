import Mathlib.Algebra.Order.BigOperators.Group.Finset
import Mathlib.Data.Fintype.BigOperators

/-!
# Counted references

Finitely many places, each of which points to an object or to nothing.  The
number of references to an object changes by what is overwritten and by what is
written.  Places may stand in rows, such as one row for each owner.
-/

namespace Linux012.Lib

variable {Place : Type*} [Fintype Place] [DecidableEq Place]
variable {Object : Type*} [DecidableEq Object]

/-- A sum changes by what is overwritten and by what is written. -/
theorem sum_update {Value : Type*} (values : Place → Value) (place : Place) (new : Value)
    (weight : Value → Nat) :
    ∑ other, weight (Function.update values place new other) + weight (values place) =
      ∑ other, weight (values other) + weight new := by
  have others : ∀ other ∈ Finset.univ.erase place,
      weight (Function.update values place new other) = weight (values other) := by
    intro other member
    rw [Function.update_of_ne (Finset.ne_of_mem_erase member)]
  have before := Finset.add_sum_erase Finset.univ (fun other => weight (values other))
    (Finset.mem_univ place)
  have behind := Finset.add_sum_erase Finset.univ
    (fun other => weight (Function.update values place new other)) (Finset.mem_univ place)
  rw [Finset.sum_congr rfl others, Function.update_self] at behind
  rw [← before, ← behind]
  omega

/-- The number of places that point to an object. -/
@[irreducible] def refs (pointer : Place → Option Object) (object : Object) : Nat :=
  (Finset.univ.filter fun place => pointer place = some object).card

/-- What a pointer counts for. -/
def refOf (pointer : Option Object) (object : Object) : Nat :=
  if pointer = some object then 1 else 0

variable {pointer : Place → Option Object} {object : Object}

@[simp] theorem refOf_none : refOf none object = 0 := rfl

@[simp] theorem refOf_self : refOf (some object) object = 1 := if_pos rfl

theorem refOf_of_ne {other : Object} (differs : other ≠ object) :
    refOf (some other) object = 0 :=
  if_neg fun same => differs (Option.some.inj same)

omit [DecidableEq Place] in
theorem refs_eq_sum (pointer : Place → Option Object) (object : Object) :
    refs pointer object = ∑ place, refOf (pointer place) object := by
  rw [refs, Finset.card_filter]
  rfl

omit [DecidableEq Place] in
theorem refs_eq_zero_iff :
    refs pointer object = 0 ↔ ∀ place, pointer place ≠ some object := by
  rw [refs, Finset.card_eq_zero, Finset.filter_eq_empty_iff]
  exact ⟨fun none place => none (Finset.mem_univ place), fun none place _ => none place⟩

omit [DecidableEq Place] in
theorem refs_pos {place : Place} (points : pointer place = some object) :
    0 < refs pointer object := by
  apply Nat.pos_of_ne_zero
  intro zero
  exact refs_eq_zero_iff.mp zero place points

omit [DecidableEq Place] in
theorem refs_le_card : refs pointer object ≤ Fintype.card Place := by
  rw [refs]
  exact Finset.card_le_univ _

/-- One pointer is overwritten. -/
theorem refs_update (place : Place) (new : Option Object) :
    refs (Function.update pointer place new) object + refOf (pointer place) object =
      refs pointer object + refOf new object := by
  rw [refs_eq_sum, refs_eq_sum]
  exact sum_update pointer place new fun pointer => refOf pointer object

/-! ## Rows of places -/

variable {Row : Type*} [Fintype Row] [DecidableEq Row]

/-- The number of places in all rows that point to an object. -/
@[irreducible] def refsIn (table : Row → Place → Option Object) (object : Object) : Nat :=
  ∑ row, refs (table row) object

variable {table : Row → Place → Option Object} {row : Row}

omit [DecidableEq Place] [DecidableEq Row] in
theorem refsIn_eq_zero_iff :
    refsIn table object = 0 ↔ ∀ row place, table row place ≠ some object := by
  rw [refsIn, Finset.sum_eq_zero_iff]
  exact ⟨fun none row => refs_eq_zero_iff.mp (none row (Finset.mem_univ row)),
    fun none row _ => refs_eq_zero_iff.mpr (none row)⟩

omit [DecidableEq Place] [DecidableEq Row] in
theorem refsIn_pos {place : Place} (points : table row place = some object) :
    0 < refsIn table object := by
  apply Nat.pos_of_ne_zero
  intro zero
  exact refsIn_eq_zero_iff.mp zero row place points

omit [DecidableEq Place] [DecidableEq Row] in
theorem refsIn_le_card : refsIn table object ≤ Fintype.card Row * Fintype.card Place := by
  rw [refsIn]
  calc ∑ row, refs (table row) object ≤ ∑ _row : Row, Fintype.card Place :=
        Finset.sum_le_sum fun _ _ => refs_le_card
    _ = Fintype.card Row * Fintype.card Place := by
        rw [Finset.sum_const, Finset.card_univ, Nat.nsmul_eq_mul]

omit [DecidableEq Place] [DecidableEq Row] in
theorem refs_le_refsIn (row : Row) : refs (table row) object ≤ refsIn table object := by
  rw [refsIn]
  exact Finset.single_le_sum (f := fun row => refs (table row) object)
    (fun _ _ => Nat.zero_le _) (Finset.mem_univ row)

omit [DecidableEq Place] in
/-- A row is overwritten. -/
theorem refsIn_update_row (row : Row) (new : Place → Option Object) :
    refsIn (Function.update table row new) object + refs (table row) object =
      refsIn table object + refs new object := by
  rw [refsIn, refsIn]
  exact sum_update table row new fun pointer => refs pointer object

/-- One pointer of a row is overwritten. -/
theorem refsIn_update (row : Row) (place : Place) (new : Option Object) :
    refsIn (Function.update table row (Function.update (table row) place new)) object +
        refOf (table row place) object =
      refsIn table object + refOf new object := by
  have rows : refsIn (Function.update table row (Function.update (table row) place new)) object +
      refs (table row) object = refsIn table object +
        refs (Function.update (table row) place new) object :=
    refsIn_update_row row _
  have places : refs (Function.update (table row) place new) object +
      refOf (table row place) object = refs (table row) object + refOf new object :=
    refs_update place new
  omega

end Linux012.Lib
