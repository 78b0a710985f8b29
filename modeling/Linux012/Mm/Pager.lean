import Linux012.Mm.SwapOut
import Mathlib.Data.Finset.Prod

/-!
# Pages when memory is short

`get_free_page` with the calls of `swap_out` that it makes, and the accounts of the pages, which
these calls keep.
-/

namespace Linux012.Mm

/-- The memory, and the static cursors of `swap_out`. -/
structure Pager where
  kernel : Kernel
  cursors : Cursors

/-- How a call ends that does not return. -/
inductive Stop where
  /-- `oom`. -/
  | oom
  | panics

namespace Kernel

/-- The memory behind a search of `get_free_page` among the pages below a number that has found
nothing. -/
def passOver (kernel : Kernel) : Nat → Kernel
  | 0 => kernel
  | nr + 1 => (if kernel.memMap (UInt32.ofNat nr) = 0 then kernel.take nr else kernel).passOver nr

/-- The memory when `get_free_page` has found nothing. -/
def searched (kernel : Kernel) : Kernel := kernel.passOver pagingPages

/-- The longs with the bit of a present page. -/
def presentLongs (kernel : Kernel) : Finset Nat :=
  (Finset.range UInt32.size).filter fun ptr => pagePresent &&& kernel.memory (UInt32.ofNat ptr) ≠ 0

theorem passOver_memory (kernel : Kernel) (nr : Nat) (ptr : UInt32) :
    (kernel.passOver nr).memory ptr = kernel.memory ptr ∨ (kernel.passOver nr).memory ptr = 0 := by
  induction nr generalizing kernel with
  | zero => exact .inl rfl
  | succ nr ih =>
      rw [passOver]
      split
      · refine (ih (kernel.take nr)).elim (fun same => ?_) .inr
        rw [same]
        exact (ite_eq_or_eq _ _ _).symm
      · exact ih kernel

theorem presentLongs_passOver (kernel : Kernel) (nr : Nat) :
    (kernel.passOver nr).presentLongs ⊆ kernel.presentLongs := by
  intro ptr member
  obtain ⟨inRange, present⟩ := Finset.mem_filter.mp member
  refine Finset.mem_filter.mpr ⟨inRange, ?_⟩
  rcases kernel.passOver_memory nr (UInt32.ofNat ptr) with same | isZero
  · exact same ▸ present
  · rw [isZero] at present
    exact absurd rfl present

theorem presentLongs_of_evicts {before after : Kernel} {ptr : UInt32}
    (evicts : EvictsAt before after ptr) : after.presentLongs ⊂ before.presentLongs := by
  refine Finset.ssubset_iff_of_subset (fun other member => ?_) |>.mpr ⟨ptr.toNat, ?_, ?_⟩
  · obtain ⟨inRange, present⟩ := Finset.mem_filter.mp member
    refine Finset.mem_filter.mpr ⟨inRange, ?_⟩
    by_cases same : UInt32.ofNat other = ptr
    · rw [same] at present
      exact absurd evicts.absent present
    · exact evicts.others _ same ▸ present
  · refine Finset.mem_filter.mpr ⟨Finset.mem_range.mpr ptr.toNat_lt, ?_⟩
    rw [UInt32.ofNat_toNat]
    exact evicts.present
  · intro member
    have present := (Finset.mem_filter.mp member).2
    rw [UInt32.ofNat_toNat] at present
    exact present evicts.absent

/-- What is evicted is evicted by `try_to_swap_out`. -/
theorem scan_evicted {kernel after : Kernel} {counter : Int} {cursors : Cursors} {pgTable : UInt32}
    (isOut : (kernel.scan counter cursors pgTable).1 = .evicted after) :
    ∃ ptr, kernel.tryToSwapOut ptr = .evicted after := by
  fun_induction kernel.scan counter cursors pgTable with
  | case1 => cases isOut
  | case2 counter cursors pgTable more fewer pageEntry last left table next isNext kept ih =>
      exact ih isOut
  | case3 counter cursors pgTable more fewer pageEntry last left table next isNext outcome =>
      exact ⟨_, isOut⟩
  | case4 counter cursors pgTable more fewer pageEntry inTable kept ih => exact ih isOut
  | case5 counter cursors pgTable more fewer pageEntry inTable => exact ⟨_, isOut⟩
  | case6 => cases isOut

theorem presentLongs_swapOut {kernel after : Kernel} {cursors : Cursors}
    (isOut : (kernel.swapOut cursors).1 = .evicted after) :
    after.presentLongs ⊂ kernel.presentLongs := by
  obtain ⟨ptr, evicted⟩ := scan_evicted isOut
  have spec := kernel.tryToSwapOut_spec ptr
  rw [evicted] at spec
  exact presentLongs_of_evicts spec

/-- The number of longs with the bit of a present page. -/
def presentCount (kernel : Kernel) : Nat := kernel.presentLongs.card

theorem presentCount_swapOut {kernel after : Kernel} {cursors : Cursors}
    (isOut : (kernel.swapOut cursors).1 = .evicted after) :
    after.searched.presentCount < kernel.presentCount :=
  (Finset.card_le_card (presentLongs_passOver after pagingPages)).trans_lt
    (Finset.card_lt_card (presentLongs_swapOut isOut))

attribute [irreducible] searched

end Kernel

/-- `get_free_page` from a search on that has found nothing. -/
def Pager.swapForPage (pager : Pager) : Except Stop (Option UInt32 × Pager) :=
  match _isOut : pager.kernel.swapOut pager.cursors with
  | (.evicted kernel, cursors) =>
      match kernel.getFreePage with
      | some (page, kernel) => .ok (some page, ⟨kernel, cursors⟩)
      | none => Pager.swapForPage ⟨kernel.searched, cursors⟩
  | (.kept, cursors) => .ok (none, { pager with cursors })
  | (.panics, _) => .error .panics
termination_by pager.kernel.presentCount
decreasing_by exact Kernel.presentCount_swapOut (congrArg Prod.fst _isOut)

/-- `get_free_page`; `none` where it returns 0. -/
def Pager.getFreePage (pager : Pager) : Except Stop (Option UInt32 × Pager) :=
  match pager.kernel.getFreePage with
  | some (page, kernel) => .ok (some page, { pager with kernel })
  | none => Pager.swapForPage { pager with kernel := pager.kernel.searched }

end Linux012.Mm
