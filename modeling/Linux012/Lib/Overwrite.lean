import Mathlib.Logic.Function.Basic
import Mathlib.Data.List.Basic

/-!
# Storing a list into an array

An array without bounds is a function of the position.
-/

namespace Linux012.Lib

universe u

variable {α : Type u} {array : Nat → α} {pos : Nat} {value : α} {values values' : List α}

/-- `values` are stored from `pos` on. -/
def overwrite (array : Nat → α) (pos : Nat) (values : List α) (p : Nat) : α :=
  if pos ≤ p then values[p - pos]?.getD (array p) else array p

@[simp] theorem overwrite_nil : overwrite array pos [] = array := by
  funext p
  simp [overwrite]

theorem overwrite_inside {i : Nat} :
    overwrite array pos values (pos + i) = values[i]?.getD (array (pos + i)) := by
  rw [overwrite, if_pos (Nat.le_add_right pos i), Nat.add_sub_cancel_left]

theorem overwrite_outside {p : Nat} (outside : p < pos ∨ pos + values.length ≤ p) :
    overwrite array pos values p = array p := by
  unfold overwrite
  split
  · rw [List.getElem?_eq_none (by omega)]
    rfl
  · rfl

/-- Storing two lists one behind the other. -/
theorem overwrite_append : overwrite (overwrite array pos values) (pos + values.length) values' =
    overwrite array pos (values ++ values') := by
  funext p
  unfold overwrite
  by_cases first : p - pos < values.length
  · by_cases behind : pos ≤ p
    · rw [if_neg (by omega), if_pos behind, if_pos behind, List.getElem?_append_left first]
    · rw [if_neg (by omega), if_neg behind, if_neg behind]
  · by_cases behind : pos ≤ p
    · have outside : values[p - pos]? = none := List.getElem?_eq_none (by omega)
      have shifted : p - (pos + values.length) = p - pos - values.length := by omega
      rw [if_pos (by omega), if_pos behind, if_pos behind,
        List.getElem?_append_right (by omega), outside, shifted]
      rfl
    · rw [if_neg (by omega), if_neg behind, if_neg behind]

theorem overwrite_singleton : overwrite array pos [value] = Function.update array pos value := by
  funext p
  unfold overwrite
  by_cases here : p = pos
  · simp [here]
  · by_cases behind : pos ≤ p
    · rw [if_pos behind, List.getElem?_eq_none (by simp; omega), Function.update_of_ne here]
      rfl
    · rw [if_neg behind, Function.update_of_ne here]

/-- Storing two lists one before the other. -/
theorem overwrite_prepend : overwrite (overwrite array (pos + values.length) values') pos values =
    overwrite array pos (values ++ values') := by
  rw [← overwrite_append]
  funext p
  by_cases first : pos ≤ p ∧ p < pos + values.length
  · have before : p < pos + values.length ∨ pos + values.length + values'.length ≤ p := .inl first.2
    have here : (values[p - pos]?).isSome := by
      rw [List.getElem?_eq_getElem (by omega)]
      rfl
    obtain ⟨value, isValue⟩ := Option.isSome_iff_exists.mp here
    have kept : overwrite (overwrite array pos values) (pos + values.length) values' p =
        overwrite array pos values p := overwrite_outside before
    rw [kept]
    simp only [overwrite, if_pos first.1, isValue, Option.getD_some]
  · have outside : p < pos ∨ pos + values.length ≤ p := by omega
    rw [overwrite_outside outside]
    unfold overwrite
    split
    · rw [if_pos (by omega), List.getElem?_eq_none (l := values) (by omega), Option.getD_none]
    · split
      · rw [List.getElem?_eq_none (by omega)]
        rfl
      · rfl

/-- Storing a list is storing its values one by one. -/
theorem overwrite_cons : overwrite (Function.update array pos value) (pos + 1) values =
    overwrite array pos (value :: values) := by
  rw [← overwrite_singleton]
  exact overwrite_append

/-! ## What lies in an array -/

/-- `values` lie in the array from `pos` on. -/
def Holds (array : Nat → α) (pos : Nat) (values : List α) : Prop :=
  ∀ i (inside : i < values.length), array (pos + i) = values[i]

theorem holds_overwrite : Holds (overwrite array pos values) pos values := by
  intro i inside
  rw [overwrite_inside, List.getElem?_eq_getElem inside, Option.getD_some]

/-- What is stored elsewhere changes nothing. -/
theorem Holds.overwrite {pos' : Nat} (holds : Holds array pos values)
    (apart : pos + values.length ≤ pos' ∨ pos' + values'.length ≤ pos) :
    Holds (overwrite array pos' values') pos values := by
  intro i inside
  rw [overwrite_outside (by omega)]
  exact holds i inside

theorem Holds.left (holds : Holds array pos (values ++ values')) : Holds array pos values := by
  intro i inside
  rw [holds i (by rw [List.length_append]; omega), List.getElem_append_left inside]

theorem Holds.right (holds : Holds array pos (values ++ values')) :
    Holds array (pos + values.length) values' := by
  intro i inside
  rw [Nat.add_assoc, holds (values.length + i) (by rw [List.length_append]; omega),
    List.getElem_append_right (Nat.le_add_right _ _)]
  congr 1
  omega

/-- Two arrays that agree where the list lies. -/
theorem Holds.congr {array' : Nat → α} (holds : Holds array pos values)
    (same : ∀ p, pos ≤ p → p < pos + values.length → array' p = array p) :
    Holds array' pos values := by
  intro i inside
  rw [same _ (by omega) (by omega)]
  exact holds i inside

/-- One list lies at a position. -/
theorem Holds.unique (holds : Holds array pos values) (holds' : Holds array pos values')
    (same : values.length = values'.length) : values = values' := by
  apply List.ext_getElem same
  intro i inside inside'
  rw [← holds i inside, holds' i inside']

end Linux012.Lib
