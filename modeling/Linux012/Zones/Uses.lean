import Linux012.Zones.Device
import Mathlib.Data.List.Induction

/-!
# What each zone is used for

A zone is data of an inode, or an indirect block of it whose pointers lead to blocks one
level lower.  A device is in order if every pointer leads to a zone with the use that its
place asks for, no zone has two pointers to it, and the bit of every used zone is set.
-/

namespace Linux012.Zones

/-- What a zone is used for.  The height of a data block is 0, of an indirect block 1 and
of a double indirect block 2. -/
inductive Use where
  /-- A task has taken it in `new_block` and not yet stored its number. -/
  | allocating (task : Nat)
  | block (inode height : Nat)
  deriving DecidableEq

/-- The inode that a pointer belongs to, and the height of the block it leads to. -/
def Cell.owner (use : Nat → Option Use) : Cell → Option (Nat × Nat)
  | .zone inode k => if k < 9 then some (inode, k - 6) else none
  | .entry block j =>
      match use block with
      | some (.block inode (height + 1)) => if j < 512 then some (inode, height) else none
      | _ => none

/-- The zones are used as the pointers say. -/
structure Device.InOrder (d : Device) (use : Nat → Option Use) : Prop where
  /-- `read_super` sets the first bit, which stands for no zone. -/
  reserved : d.zmap 0 = true
  points : ∀ c inode height, c.owner use = some (inode, height) → d.ptr c ≠ 0 →
    use (d.ptr c) = some (.block inode height)
  once : ∀ c c', (c.owner use).isSome → (c'.owner use).isSome → d.ptr c = d.ptr c' →
    d.ptr c ≠ 0 → c = c'
  marked : ∀ zone, (use zone).isSome → d.InZones zone ∧ d.bit zone = true

variable {d d' : Device} {use use' : Nat → Option Use} {c c' : Cell}
variable {inode height block j zone k : Nat}

theorem owner_entry (used : use block = some (.block inode (height + 1))) (inside : j < 512) :
    (Cell.entry block j).owner use = some (inode, height) := by
  simp [Cell.owner, used, inside]

theorem owner_zone (inside : k < 9) : (Cell.zone inode k).owner use = some (inode, k - 6) := by
  simp [Cell.owner, inside]

/-- An entry with an owner is in an indirect block of it. -/
theorem of_owner_entry (owned : (Cell.entry block j).owner use = some (inode, height)) :
    use block = some (.block inode (height + 1)) ∧ j < 512 := by
  rw [Cell.owner] at owned
  split at owned
  · rename_i used
    split at owned
    · rename_i inside
      cases owned
      exact ⟨used, inside⟩
    · cases owned
  · cases owned

theorem owner_entry_eq_none (leaf : ∀ inode height, use block ≠ some (.block inode (height + 1))) :
    (Cell.entry block j).owner use = none := by
  cases owned : (Cell.entry block j).owner use with
  | none => rfl
  | some owner => exact absurd (of_owner_entry owned).1 (leaf owner.1 owner.2)

/-- The use of a zone that is not an indirect block says nothing about pointers. -/
theorem owner_update {new : Option Use}
    (leaf : ∀ inode height, use zone ≠ some (.block inode (height + 1)))
    (leaf' : ∀ inode height, new ≠ some (.block inode (height + 1))) :
    c.owner (Function.update use zone new) = c.owner use := by
  cases c with
  | zone inode k => rfl
  | entry block j =>
      by_cases here : block = zone
      · rw [here, owner_entry_eq_none leaf, owner_entry_eq_none]
        simpa using leaf'
      · simp [Cell.owner, here]

namespace Device.InOrder

/-- The order is about the pointers and the bits of the used zones only. -/
theorem congr (order : d.InOrder use) (reserved : d'.zmap 0 = true)
    (first : d'.sFirstdatazone = d.sFirstdatazone) (last : d'.sNzones = d.sNzones)
    (bits : ∀ zone, (use zone).isSome → d'.bit zone = d.bit zone)
    (pointers : ∀ c, (c.owner use).isSome → d'.ptr c = d.ptr c) : d'.InOrder use where
  reserved := reserved
  points c inode height owned points := by
    have same := pointers c (by simp [owned])
    rw [same] at points ⊢
    exact order.points c inode height owned points
  once c c' owned owned' same points := by
    rw [pointers c owned] at same points
    rw [pointers c' owned'] at same
    exact order.once c c' owned owned' same points
  marked zone used := by
    obtain ⟨⟨above, below⟩, set⟩ := order.marked zone used
    exact ⟨⟨first ▸ above, last ▸ below⟩, (bits zone used).trans set⟩

/-- A used zone is no null pointer. -/
theorem ne_zero (order : d.InOrder use) (used : (use zone).isSome) : zone ≠ 0 :=
  (order.marked zone used).1.ne_zero

theorem lt_65536 (order : d.InOrder use) (used : (use zone).isSome) : zone < 65536 := by
  have small := d.nzones_lt
  have inside := (order.marked zone used).1.2
  omega

/-- A zone whose bit is clear is not used. -/
theorem unused_of_clear (order : d.InOrder use) (clear : d.bit zone = false) :
    use zone = none := by
  cases used : use zone with
  | none => rfl
  | some old =>
      have set := (order.marked zone (by simp [used])).2
      rw [clear] at set
      cases set

/-- Data is not read as pointers. -/
theorem data (order : d.InOrder use) {new : Nat → UInt8}
    (leaf : ∀ inode height, use zone ≠ some (.block inode (height + 1))) :
    { d with data := Function.update d.data zone new }.InOrder use := by
  refine order.congr order.reserved rfl rfl (fun _ _ => rfl) fun c owned => ?_
  cases c with
  | zone inode k => rfl
  | entry block j =>
      obtain ⟨⟨inode, height⟩, owned⟩ := Option.isSome_iff_exists.mp owned
      have different : block ≠ zone := by
        intro same
        exact leaf inode (height + 1 - 1) (same ▸ (of_owner_entry owned).1)
      simp [ptr, word, different]

/-- A zone whose bit was clear is taken. -/
theorem take (order : d.InOrder use) {new : Use} (inside : d.InZones zone)
    (clear : d.bit zone = false) (leaf : ∀ inode height, new ≠ .block inode (height + 1)) :
    (d.setBits (Function.update d.zmap (d.bitNr zone) true)).InOrder
      (Function.update use zone (some new)) := by
  have unused := order.unused_of_clear clear
  have owners (c : Cell) : c.owner (Function.update use zone (some new)) = c.owner use :=
    owner_update (by simp [unused]) (by simpa using leaf)
  refine ⟨?_, fun c inode height owned points => ?_, fun c c' owned owned' => ?_,
    fun other used => ?_⟩
  · by_cases first : 0 = d.bitNr zone
    · simp [← first]
    · simpa [Function.update_of_ne first] using order.reserved
  · rw [owners] at owned
    have used := order.points c inode height owned points
    have different : d.ptr c ≠ zone := by
      intro same
      rw [same, unused] at used
      cases used
    exact (Function.update_of_ne different _ _).trans used
  · rw [owners] at owned owned'
    exact order.once c c' owned owned'
  · by_cases same : other = zone
    · subst same
      exact ⟨inside, Function.update_self _ _ _⟩
    · rw [Function.update_of_ne same] at used
      obtain ⟨inside', set⟩ := order.marked other used
      refine ⟨inside', ?_⟩
      by_cases sameBit : d.bitNr other = d.bitNr zone
      · exact (congrArg (Function.update d.zmap (d.bitNr zone) true) sameBit).trans
          (Function.update_self _ _ _)
      · exact (Function.update_of_ne sameBit _ _).trans set

/-- A zone that nothing points to becomes the block that a pointer leads to. -/
theorem attach (order : d.InOrder use) (owned : c.owner use = some (inode, height))
    (used : (use zone).isSome) (fresh : ∀ inode height, use zone ≠ some (.block inode height))
    (empty : ∀ j, d.word zone j = 0) :
    (d.setPtr c zone).InOrder (Function.update use zone (some (.block inode height))) := by
  have self : (d.setPtr c zone).ptr c = zone := ptr_setPtr_self (order.lt_65536 used)
  have other {c' : Cell} (different : c' ≠ c) : (d.setPtr c zone).ptr c' = d.ptr c' :=
    ptr_setPtr_of_ne different
  -- a pointer with an owner had it before, or is one of the new block and 0
  have old (c' : Cell) (owner : Nat × Nat)
      (owned' : c'.owner (Function.update use zone (some (.block inode height))) = some owner)
      (points : (d.setPtr c zone).ptr c' ≠ 0) : c'.owner use = some owner := by
    cases c' with
    | zone => exact owned'
    | entry block j =>
        by_cases here : block = zone
        · subst here
          refine absurd ?_ points
          rw [other fun same => ?_]
          · exact empty j
          · rw [← same] at owned
            exact fresh _ _ (of_owner_entry owned).1
        · simpa [Cell.owner, here] using owned'
  have notZone {c' : Cell} (owned' : (c'.owner use).isSome) : d.ptr c' ≠ zone := by
    intro same
    obtain ⟨⟨inode', height'⟩, owned'⟩ := Option.isSome_iff_exists.mp owned'
    have points := order.points c' inode' height' owned' (same ▸ order.ne_zero used)
    rw [same] at points
    exact fresh _ _ points
  refine ⟨(congrFun zmap_setPtr 0).trans order.reserved, fun c' inode' height' owned' points => ?_,
    fun c₁ c₂ owned₁ owned₂ same points => ?_, fun zone' used' => ?_⟩
  · have before := old c' _ owned' points
    by_cases here : c' = c
    · subst here
      rw [owned] at before
      cases before
      rw [self, Function.update_self]
    · rw [other here] at points ⊢
      rw [Function.update_of_ne (notZone (by simp [before]))]
      exact order.points c' inode' height' before points
  · obtain ⟨owner₁, owned₁⟩ := Option.isSome_iff_exists.mp owned₁
    obtain ⟨owner₂, owned₂⟩ := Option.isSome_iff_exists.mp owned₂
    have before₁ := old c₁ _ owned₁ points
    have before₂ := old c₂ _ owned₂ (same ▸ points)
    by_cases here₁ : c₁ = c
    · by_cases here₂ : c₂ = c
      · exact here₁.trans here₂.symm
      · rw [here₁, self, other here₂] at same
        exact absurd same.symm (notZone (by simp [before₂]))
    · rw [other here₁] at same points
      by_cases here₂ : c₂ = c
      · rw [here₂, self] at same
        exact absurd same (notZone (by simp [before₁]))
      · rw [other here₂] at same
        exact order.once c₁ c₂ (by simp [before₁]) (by simp [before₂]) same points
  · have used : (use zone').isSome := by
      by_cases here : zone' = zone
      · rwa [here]
      · rwa [Function.update_of_ne here] at used'
    obtain ⟨inside, set⟩ := order.marked zone' used
    exact ⟨Device.inZones_setPtr.mpr inside, Device.bit_setPtr.trans set⟩

/-- A zone is given back, and the only pointer that may lead to it is cleared. -/
theorem detach (order : d.InOrder use) (used : use zone = some (.block inode height))
    (only : ∀ c', (c'.owner use).isSome → d.ptr c' = zone → c' = c) :
    ((d.clearBit zone).setPtr c 0).InOrder (Function.update use zone none) := by
  have self : ((d.clearBit zone).setPtr c 0).ptr c = 0 := ptr_setPtr_self (by decide)
  have other {c' : Cell} (different : c' ≠ c) :
      ((d.clearBit zone).setPtr c 0).ptr c' = d.ptr c' := ptr_setPtr_of_ne different
  have old {c' : Cell} {owner : Nat × Nat}
      (owned : c'.owner (Function.update use zone none) = some owner) :
      c'.owner use = some owner := by
    cases c' with
    | zone => exact owned
    | entry block j =>
        by_cases here : block = zone
        · subst here
          simp [Cell.owner] at owned
        · simpa [Cell.owner, here] using owned
  have inside := (order.marked zone (by simp [used])).1
  refine ⟨?_, fun c' inode' height' owned points => ?_,
    fun c₁ c₂ owned₁ owned₂ same points => ?_, fun zone' used' => ?_⟩
  · rw [Device.zmap_setPtr]
    exact (Function.update_of_ne inside.bitNr_ne_zero.symm _ _).trans order.reserved
  · have before := old owned
    have different : c' ≠ c := by
      intro here
      rw [here, self] at points
      exact points rfl
    rw [other different] at points ⊢
    have notZone : d.ptr c' ≠ zone := fun same => different (only c' (by simp [before]) same)
    rw [Function.update_of_ne notZone]
    exact order.points c' inode' height' before points
  · obtain ⟨owner₁, owned₁⟩ := Option.isSome_iff_exists.mp owned₁
    obtain ⟨owner₂, owned₂⟩ := Option.isSome_iff_exists.mp owned₂
    have different₁ : c₁ ≠ c := by
      intro here
      rw [here, self] at points
      exact points rfl
    have different₂ : c₂ ≠ c := by
      intro here
      rw [here, self] at same
      exact points same
    rw [other different₁] at same points
    rw [other different₂] at same
    exact order.once c₁ c₂ (by simp [old owned₁]) (by simp [old owned₂]) same points
  · have notZone : zone' ≠ zone := by
      intro here
      simp [here] at used'
    rw [Function.update_of_ne notZone] at used'
    obtain ⟨inside', set⟩ := order.marked zone' used'
    refine ⟨Device.inZones_setPtr.mpr inside', ?_⟩
    exact (Device.bit_setPtr.trans (bit_clearBit_of_ne inside inside' notZone)).trans set

end Device.InOrder

/-- The owner of the pointers in an indirect block. -/
theorem Device.InOrder.owner_next (order : d.InOrder use)
    (owned : c.owner use = some (inode, height + 1)) (points : d.ptr c ≠ 0) (inside : j < 512) :
    (Cell.entry (d.ptr c) j).owner use = some (inode, height) :=
  owner_entry (order.points c inode (height + 1) owned points) inside

/-! ## Consistent devices -/

/-- The pointers of an inode, with the height of the block that each of them leads to. -/
inductive Device.Live (d : Device) (inode : Nat) : Nat → Cell → Prop where
  | zone (k : Nat) (inside : k < 9) : Live d inode (k - 6) (.zone inode k)
  | entry {height : Nat} {c : Cell} (j : Nat) (live : Live d inode (height + 1) c)
      (points : d.ptr c ≠ 0) (inside : j < 512) : Live d inode height (.entry (d.ptr c) j)

/-- The zones of all inodes are pairwise distinct, and their bits are set, as is the first
bit, which stands for no zone. -/
structure Device.Consistent (d : Device) : Prop where
  reserved : d.zmap 0 = true
  distinct : ∀ inode height c inode' height' c', d.Live inode height c →
    d.Live inode' height' c' → d.ptr c = d.ptr c' → d.ptr c ≠ 0 → c = c'
  marked : ∀ inode height c, d.Live inode height c → d.ptr c ≠ 0 →
    d.InZones (d.ptr c) ∧ d.bit (d.ptr c) = true

/-- On a consistent device a pointer belongs to one inode and leads to one height. -/
theorem Device.Consistent.owner_unique (consistent : d.Consistent) {inode inode' height height' : Nat}
    {c : Cell} (live : d.Live inode height c) (live' : d.Live inode' height' c) :
    inode = inode' ∧ height = height' := by
  induction live generalizing inode' height' with
  | zone k inside =>
      cases live' with
      | zone k' inside' => exact ⟨rfl, rfl⟩
  | @entry height parent j live points inside ih =>
      generalize same : Cell.entry (d.ptr parent) j = c at live'
      cases live' with
      | zone => cases same
      | entry j' above points' inside' =>
          have equal := consistent.distinct _ _ _ _ _ _ live above (Cell.entry.inj same).1 points
          subst equal
          obtain ⟨sameInode, sameHeight⟩ := ih above
          exact ⟨sameInode, Nat.succ.inj sameHeight⟩

open Classical in
/-- The use of every zone of a consistent device. -/
noncomputable def Device.uses (d : Device) (zone : Nat) : Option Use :=
  if used : ∃ owner : Nat × Nat, zone ≠ 0 ∧ ∃ c, d.Live owner.1 owner.2 c ∧ d.ptr c = zone then
    some (.block used.choose.1 used.choose.2)
  else none

theorem Device.Consistent.uses_eq (consistent : d.Consistent) {inode height : Nat} {c : Cell}
    (live : d.Live inode height c) (points : d.ptr c ≠ 0) :
    d.uses (d.ptr c) = some (.block inode height) := by
  have used : ∃ owner : Nat × Nat, d.ptr c ≠ 0 ∧
      ∃ c', d.Live owner.1 owner.2 c' ∧ d.ptr c' = d.ptr c := ⟨(inode, height), points, c, live, rfl⟩
  rw [uses, dif_pos used]
  obtain ⟨-, c', live', same⟩ := used.choose_spec
  have equal := consistent.distinct _ _ _ _ _ _ live' live same (same ▸ points)
  subst equal
  obtain ⟨sameInode, sameHeight⟩ := consistent.owner_unique live live'
  rw [← sameInode, ← sameHeight]

theorem Device.of_uses_eq {zone inode height : Nat}
    (used : d.uses zone = some (.block inode height)) :
    zone ≠ 0 ∧ ∃ c, d.Live inode height c ∧ d.ptr c = zone := by
  unfold uses at used
  split at used
  · rename_i isUsed
    cases used
    exact isUsed.choose_spec
  · cases used

/-- The pointers with an owner are the live ones. -/
theorem Device.live_of_owner {c : Cell} {inode height : Nat}
    (owned : c.owner d.uses = some (inode, height)) : d.Live inode height c := by
  cases c with
  | zone inode' k =>
      by_cases inside : k < 9
      · rw [owner_zone inside] at owned
        cases owned
        exact .zone k inside
      · simp [Cell.owner, inside] at owned
  | entry block j =>
      obtain ⟨used, inside⟩ := of_owner_entry owned
      obtain ⟨points, c, live, same⟩ := of_uses_eq used
      subst same
      exact .entry j live points inside

theorem Device.Consistent.inOrder (consistent : d.Consistent) : d.InOrder d.uses where
  reserved := consistent.reserved
  points _ _ _ owned points := consistent.uses_eq (live_of_owner owned) points
  once c c' owned owned' same points := by
    obtain ⟨_, owned⟩ := Option.isSome_iff_exists.mp owned
    obtain ⟨_, owned'⟩ := Option.isSome_iff_exists.mp owned'
    exact consistent.distinct _ _ _ _ _ _ (live_of_owner owned) (live_of_owner owned') same points
  marked zone used := by
    unfold uses at used
    split at used
    · rename_i isUsed
      obtain ⟨points, c, live, same⟩ := isUsed.choose_spec
      subst same
      exact consistent.marked _ _ c live points
    · cases used

theorem Device.InOrder.owner_of_live (order : d.InOrder use) (live : d.Live inode height c) :
    c.owner use = some (inode, height) := by
  induction live with
  | zone k inside => exact owner_zone inside
  | entry j live points inside ih => exact order.owner_next ih points inside

/-- A device in order is consistent. -/
theorem Device.InOrder.consistent (order : d.InOrder use) : d.Consistent := by
  have owned {inode height : Nat} {c : Cell} (live : d.Live inode height c) :
      c.owner use = some (inode, height) := order.owner_of_live live
  refine ⟨order.reserved, fun _ _ c _ _ c' live live' same points => ?_,
    fun inode height c live points => ?_⟩
  · exact order.once c c' (by simp [owned live]) (by simp [owned live']) same points
  · have used := order.points c inode height (owned live) points
    exact order.marked _ (by simp [used])

end Linux012.Zones
