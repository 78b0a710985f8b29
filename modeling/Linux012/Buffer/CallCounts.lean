import Mathlib.Data.List.Count
import Linux012.Buffer.Calls

/-!
# The counts that getblk changes

Each step of `getblk` changes `b_count` by the buffers that the call takes and gives back, whatever
the counts are: a buffer that is taken for another block had the count 0.
-/

namespace Linux012.Buffer

variable {c c' : Cache} {pool : Pool} {task : Nat} {dev : UInt16} {block : UInt32} {bh : Bh}
variable {wait : Wait} {result : Pool × Outcome}

/-- How often a list has a buffer, as `b_count` counts. -/
def tally (held : List Bh) (bh : Bh) : UInt8 := UInt8.ofNat (held.count bh)

@[simp] theorem tally_nil : tally [] bh = 0 := rfl

theorem tally_cons {first : Bh} {held : List Bh} :
    tally (first :: held) bh = tally held bh + if first = bh then 1 else 0 := by
  rw [tally, tally, List.count_cons, UInt8.ofNat_add]
  by_cases same : first = bh
  · rw [if_pos same, if_pos (beq_iff_eq.mpr same)]
    rfl
  · rw [if_neg same, if_neg (fun equal => same (beq_iff_eq.mp equal))]
    rfl

theorem tally_singleton {first : Bh} : tally [first] bh = if first = bh then 1 else 0 := by
  rw [tally_cons, tally_nil, UInt8.zero_add]

/-! ## The count of a buffer that is used again -/

theorem removeFromQueues_bCount (removed : c.removeFromQueues bh = some c') :
    c'.bCount = c.bCount := by
  have sameHash : (c.removeFromHash bh).bCount = c.bCount := by
    rw [Cache.removeFromHash_same]
  rw [Cache.removeFromQueues, Cache.removeFromFree] at removed
  split at removed
  · dsimp only at removed
    split at removed
    · cases removed
      exact sameHash
    · cases removed
      exact sameHash
  · cases removed

theorem assign_bCount (assigned : c.assign bh dev block = some c') :
    c'.bCount = Function.update c.bCount bh 1 := by
  simp only [Cache.assign, Option.bind_eq_bind, Option.bind_eq_some_iff, Option.pure_def,
    Option.some.injEq] at assigned
  obtain ⟨mid, removed, rfl⟩ := assigned
  have sameCount := removeFromQueues_bCount removed
  rw [Cache.insertIntoQueues, Cache.insertIntoHash_same]
  exact sameCount

/-! ## getblk -/

/-- A place in `getblk` where a task sleeps. -/
def Wait.InGetblk : Wait → Prop
  | .found caller .. | .noBuffer caller .. | .victim caller .. | .syncing caller ..
  | .synced caller .. => caller = .getblk
  | .reading _ | .read _ | .releasing _ => False

/-- The buffers that the call holds there. -/
def Wait.held : Wait → List Bh
  | .found _ _ _ bh | .reading bh | .read bh | .releasing bh => [bh]
  | .noBuffer .. | .victim .. | .syncing .. | .synced .. => []

def Outcome.held : Outcome → List Bh
  | .sleeps wait => wait.held
  | .returns result => result.toList

/-- `getblk` sleeps again or returns a buffer. -/
def Outcome.OfGetblk : Outcome → Prop
  | .sleeps wait => wait.InGetblk
  | .returns result => result ≠ none

/-- A step of `getblk`: the counts change as what the call holds. -/
structure GetblkStep (pool : Pool) (held : List Bh) (result : Pool × Outcome) : Prop where
  outcome : result.2.OfGetblk
  counts : ∀ bh, result.1.cache.bCount bh + tally held bh =
    pool.cache.bCount bh + tally result.2.held bh

theorem lookUp_counts : GetblkStep pool [] (pool.lookUp task .getblk dev block) := by
  rw [Pool.lookUp]
  cases pool.cache.findBuffer dev block with
  | none =>
      simp only [Pool.notFound]
      cases pool.cache.victim with
      | none => exact ⟨rfl, fun _ => rfl⟩
      | some bh => exact ⟨rfl, fun _ => rfl⟩
  | some bh =>
      refine ⟨rfl, fun other => ?_⟩
      change Function.update pool.cache.bCount bh (pool.cache.bCount bh + 1) other + 0 =
        pool.cache.bCount other + tally [bh] other
      rw [tally_singleton]
      by_cases same : bh = other
      · subst same
        rw [Function.update_self, if_pos rfl, UInt8.add_zero]
      · rw [Function.update_of_ne (Ne.symm same), if_neg same]

theorem lookUp_sleeps : ∃ wait, (pool.lookUp task .getblk dev block).2 = .sleeps wait := by
  rw [Pool.lookUp]
  cases pool.cache.findBuffer dev block with
  | none =>
      simp only [Pool.notFound]
      cases pool.cache.victim with
      | none => exact ⟨_, rfl⟩
      | some bh => exact ⟨_, rfl⟩
  | some bh => exact ⟨_, rfl⟩

theorem drop_counts {other : Bh} :
    (pool.drop task bh).cache.bCount other + tally [bh] other = pool.cache.bCount other := by
  change Function.update pool.cache.bCount bh (pool.cache.bCount bh - 1) other + tally [bh] other =
    pool.cache.bCount other
  rw [tally_singleton]
  by_cases same : bh = other
  · subst same
    rw [Function.update_self, if_pos rfl, UInt8.sub_add_cancel]
  · rw [Function.update_of_ne (Ne.symm same), if_neg same, UInt8.add_zero]

theorem checkVictim_counts (taken : pool.checkVictim task .getblk dev block bh = some result) :
    GetblkStep pool [] result := by
  rw [Pool.checkVictim] at taken
  split at taken
  · cases taken
    exact lookUp_counts
  next unused =>
    split at taken
    · cases taken
      exact ⟨rfl, fun _ => rfl⟩
    · rw [Pool.useVictim] at taken
      split at taken
      · cases taken
        exact lookUp_counts
      · simp only [Option.bind_eq_bind, Option.bind_eq_some_iff, Option.pure_def,
          Option.some.injEq] at taken
        obtain ⟨cache, assigned, rfl⟩ := taken
        refine ⟨nofun, fun other => ?_⟩
        change cache.bCount other + 0 = pool.cache.bCount other + tally [bh] other
        rw [assign_bCount assigned, tally_singleton]
        by_cases same : bh = other
        · subst same
          rw [Function.update_self, if_pos rfl, not_not.mp unused]
          rfl
        · rw [Function.update_of_ne (Ne.symm same), if_neg same]

/-- A step of `getblk` behind a sleep. -/
theorem resume_counts (inGetblk : wait.InGetblk) (taken : pool.resume task wait = some result) :
    GetblkStep pool wait.held result := by
  unfold Pool.resume at taken
  split at taken
  · cases taken
  · cases wait with
    | found caller dev block bh =>
        cases inGetblk
        dsimp only at taken
        split at taken
        · cases taken
          exact ⟨nofun, fun _ => rfl⟩
        · cases taken
          have looked := @lookUp_counts (pool.drop task bh) task dev block
          refine ⟨looked.outcome, fun other => ?_⟩
          have dropped := @drop_counts pool task bh other
          have counted := looked.counts other
          rw [tally_nil, UInt8.add_zero] at counted
          rw [counted, ← dropped]
          change _ + tally [bh] other = _
          rw [UInt8.add_assoc, UInt8.add_assoc, UInt8.add_comm (tally _ _)]
    | noBuffer caller dev block =>
        cases inGetblk
        cases taken
        exact lookUp_counts
    | victim caller dev block bh =>
        cases inGetblk
        exact checkVictim_counts taken
    | syncing caller dev block bh =>
        cases inGetblk
        cases taken
        exact ⟨rfl, fun _ => rfl⟩
    | synced caller dev block bh =>
        cases inGetblk
        exact checkVictim_counts taken
    | reading | read | releasing => exact inGetblk.elim

end Linux012.Buffer
