import Mathlib.Order.Defs.LinearOrder
import Mathlib.Data.List.Chain
import Mathlib.Order.Lattice

/-!
# The elevator

A queue is served in sweeps: its keys rise, and start again from below.  A new entry goes to
the first place where it fits between two neighbours, or where the keys start again, if it is
below the first key of the next sweep.  With pairwise distinct keys there are never more than
two sweeps.
-/

namespace Linux012.Lib

universe u v

variable {α : Type u} {κ : Type v} [LinearOrder κ] (key : α → κ)

/-- The entry goes behind `tmp`, which is followed by the rest of the queue. -/
def elevate (entry : α) : α → List α → List α
  | tmp, [] => [tmp, entry]
  | tmp, next :: rest =>
      if (key tmp < key entry ∨ ¬ key tmp < key next) ∧ key entry < key next then
        tmp :: entry :: next :: rest
      else
        tmp :: elevate entry next rest

/-- The keys of one sweep. -/
def Rising (run : List α) : Prop := run.IsChain fun first second => key first < key second

/-- At most two sweeps. -/
def TwoSweeps (queue : List α) : Prop :=
  ∃ first second, queue = first ++ second ∧ Rising key first ∧ Rising key second

variable {key} {entry tmp next : α} {rest run : List α}

/-- The first entry stays the first. -/
theorem exists_elevate (tmp : α) (rest : List α) :
    ∃ behind, elevate key entry tmp rest = tmp :: behind := by
  cases rest with
  | nil => exact ⟨[entry], rfl⟩
  | cons next rest =>
      rw [elevate]
      split
      · exact ⟨_, rfl⟩
      · exact ⟨_, rfl⟩

/-- An entry behind the first one of a sweep keeps it one sweep. -/
theorem Rising.elevate (rising : Rising key (tmp :: rest)) (behind : key tmp < key entry)
    (distinct : ∀ other ∈ rest, key other ≠ key entry) :
    Rising key (Lib.elevate key entry tmp rest) := by
  induction rest generalizing tmp with
  | nil => exact List.isChain_pair.mpr behind
  | cons next rest ih =>
      obtain ⟨up, rising⟩ := List.isChain_cons_cons.mp rising
      rw [Lib.elevate]
      split
      · rename_i fits
        exact .cons_cons behind (.cons_cons fits.2 rising)
      · rename_i passes
        have above : key next < key entry := by
          refine lt_of_le_of_ne (le_of_not_gt fun fits => passes ⟨.inl behind, fits⟩) ?_
          exact distinct next List.mem_cons_self
        have further := ih rising above fun other member =>
          distinct other (List.mem_cons_of_mem _ member)
        obtain ⟨behind, isCons⟩ : ∃ behind, elevate key entry next rest = next :: behind :=
          exists_elevate next rest
        rw [isCons] at further ⊢
        exact .cons_cons up further

/-- An entry below a whole sweep goes behind it. -/
theorem elevate_below (rising : Rising key (tmp :: rest)) (below : key entry < key tmp) :
    elevate key entry tmp rest = tmp :: (rest ++ [entry]) := by
  induction rest generalizing tmp with
  | nil => rfl
  | cons next rest ih =>
      obtain ⟨up, rising⟩ := List.isChain_cons_cons.mp rising
      have passes : ¬((key tmp < key entry ∨ ¬ key tmp < key next) ∧ key entry < key next) := by
        intro fits
        rcases fits.1 with above | down
        · exact lt_asymm above below
        · exact down up
      rw [elevate, if_neg passes, ih rising (lt_trans below up)]
      rfl

/-- An entry is taken into one of two sweeps. -/
theorem elevate_sweeps {second : List α} (rising : Rising key (tmp :: run))
    (rising' : Rising key second)
    (distinct : ∀ other ∈ tmp :: (run ++ second), key other ≠ key entry) :
    ∃ first last, elevate key entry tmp (run ++ second) = tmp :: (first ++ last) ∧
      Rising key (tmp :: first) ∧ Rising key last := by
  induction run generalizing tmp with
  | nil =>
      have notTmp : key tmp ≠ key entry := distinct tmp List.mem_cons_self
      cases second with
      | nil =>
          by_cases above : key tmp < key entry
          · exact ⟨[entry], [], rfl, List.isChain_pair.mpr above, .nil⟩
          · exact ⟨[], [entry], rfl, .singleton tmp, .singleton entry⟩
      | cons next second =>
          rw [List.nil_append] at distinct ⊢
          have notNext : key next ≠ key entry :=
            distinct next (List.mem_cons_of_mem _ List.mem_cons_self)
          by_cases fits : (key tmp < key entry ∨ ¬ key tmp < key next) ∧ key entry < key next
          · rw [elevate, if_pos fits]
            exact ⟨[], entry :: next :: second, rfl, .singleton tmp, .cons_cons fits.2 rising'⟩
          by_cases below : key entry < key next
          · -- the two sweeps are one, and the entry is below it
            have up : key tmp < key next := by
              by_contra down
              exact fits ⟨.inr down, below⟩
            have first : key entry < key tmp :=
              lt_of_le_of_ne (le_of_not_gt fun above => fits ⟨.inl above, below⟩) notTmp.symm
            have whole : Rising key (tmp :: next :: second) := .cons_cons up rising'
            exact ⟨next :: second, [entry], elevate_below whole first, whole, .singleton entry⟩
          · rw [elevate, if_neg fits]
            have above : key next < key entry := lt_of_le_of_ne (le_of_not_gt below) notNext
            have further := rising'.elevate above fun other member =>
              distinct other (List.mem_cons_of_mem _ (List.mem_cons_of_mem _ member))
            exact ⟨[], _, rfl, .singleton tmp, further⟩
  | cons next run ih =>
      obtain ⟨up, rising⟩ := List.isChain_cons_cons.mp rising
      rw [List.cons_append, elevate]
      split
      · rename_i fits
        refine ⟨entry :: next :: run, second, rfl, ?_, rising'⟩
        rcases fits.1 with above | down
        · exact .cons_cons above (.cons_cons fits.2 rising)
        · exact absurd up down
      · obtain ⟨first, last, split, rising, rising'⟩ :=
          ih rising fun other member => distinct other (List.mem_cons_of_mem _ member)
        exact ⟨next :: first, last, by rw [split]; rfl, .cons_cons up rising, rising'⟩

theorem TwoSweeps.elevate (sweeps : TwoSweeps key (tmp :: rest))
    (distinct : ∀ other ∈ tmp :: rest, key other ≠ key entry) :
    TwoSweeps key (Lib.elevate key entry tmp rest) := by
  obtain ⟨first, second, split, rising, rising'⟩ := sweeps
  cases first with
  | nil =>
      cases second with
      | nil => cases split
      | cons head second =>
          obtain ⟨rfl, rfl⟩ := List.cons.inj split
          have found : ∃ first last, Lib.elevate key entry tmp (rest ++ []) =
              tmp :: (first ++ last) ∧ Rising key (tmp :: first) ∧ Rising key last :=
            elevate_sweeps rising' .nil (by simpa using distinct)
          rw [List.append_nil] at found
          obtain ⟨first, last, split, rising, rising'⟩ := found
          exact ⟨tmp :: first, last, split, rising, rising'⟩
  | cons head first =>
      obtain ⟨rfl, rfl⟩ := List.cons.inj split
      obtain ⟨first, last, split, rising, rising'⟩ := elevate_sweeps rising rising' distinct
      exact ⟨tmp :: first, last, split, rising, rising'⟩

/-- The head of the queue is removed. -/
theorem TwoSweeps.tail (sweeps : TwoSweeps key (tmp :: rest)) : TwoSweeps key rest := by
  obtain ⟨first, second, split, rising, rising'⟩ := sweeps
  cases first with
  | nil =>
      cases second with
      | nil => cases split
      | cons head second =>
          obtain ⟨rfl, rfl⟩ := List.cons.inj split
          exact ⟨[], rest, rfl, .nil, rising'.tail⟩
  | cons head first =>
      obtain ⟨rfl, rfl⟩ := List.cons.inj split
      exact ⟨first, second, rfl, rising.tail, rising'⟩

end Linux012.Lib
