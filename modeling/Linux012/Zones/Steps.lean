import Linux012.Zones.Calls

/-!
# What one task does to the others

A task may rely on a block that it has a reference to: as long as it has it, no other task
frees the block or makes a new pointer to it.
-/

namespace Linux012.Zones

namespace Shared

/-- The task has a reference to the block, which is in use. -/
def Pins (s : Shared) (task inode height zone : Nat) : Prop :=
  (task, zone) ∈ s.refs ∧ s.use zone = some (.block inode height)

/-- No other pointer than `c` leads to the zone. -/
def Only (s : Shared) (c : Cell) (zone : Nat) : Prop :=
  ∀ c', (c'.owner s.use).isSome → s.device.ptr c' = zone → c' = c

end Shared

/-- The pointer belongs to the inode and stays: it is in `i_zone`, or in an indirect block
that the task has a reference to. -/
def Cell.Pinned (s : Shared) (task inode height : Nat) : Cell → Prop
  | .zone inode' k => inode' = inode ∧ k < 9 ∧ k - 6 = height
  | .entry block j => j < 512 ∧ s.Pins task inode (height + 1) block

/-- A step of `mover`, or of no task, as the other tasks see it. -/
structure Shared.Step (s : Shared) (mover : Option Nat) (s' : Shared) : Prop where
  order : s'.device.InOrder s'.use
  refs : ∀ task zone, some task ≠ mover → (task, zone) ∈ s.refs → (task, zone) ∈ s'.refs
  uses : ∀ zone inode height, s.use zone = some (.block inode height) →
    s'.use zone = some (.block inode height) ∨ ∀ task, some task ≠ mover → (task, zone) ∉ s.refs
  allocating : ∀ zone task, some task ≠ mover → s.use zone = some (.allocating task) →
    s'.use zone = some (.allocating task)
  only : ∀ zone inode height c, s.use zone = some (.block inode height) →
    s'.use zone = some (.block inode height) → s.Only c zone → s'.Only c zone

variable {s s' : Shared} {mover : Option Nat} {task inode height zone zone' : Nat} {c c' : Cell}

theorem Cell.Pinned.owner (pinned : c.Pinned s task inode height) :
    c.owner s.use = some (inode, height) := by
  cases c with
  | zone inode' k =>
      obtain ⟨same, inside, level⟩ := pinned
      rw [owner_zone inside, same, level]
  | entry block j => exact owner_entry pinned.2.2 pinned.1

/-! ## What others rely on stays -/

namespace Shared.Step

theorem pins (step : s.Step mover s') (other : some task ≠ mover)
    (pins : s.Pins task inode height zone) : s'.Pins task inode height zone := by
  refine ⟨step.refs task zone other pins.1, ?_⟩
  rcases step.uses zone inode height pins.2 with same | unreferenced
  · exact same
  · exact absurd pins.1 (unreferenced task other)

theorem pinned (step : s.Step mover s') (other : some task ≠ mover)
    (pinned : c.Pinned s task inode height) : c.Pinned s' task inode height := by
  cases c with
  | zone inode' k => exact pinned
  | entry block j => exact ⟨pinned.1, step.pins other pinned.2⟩

theorem stillOnly (step : s.Step mover s') (other : some task ≠ mover)
    (pins : s.Pins task inode height zone) (only : s.Only c zone) : s'.Only c zone :=
  step.only zone inode height c pins.2 (step.pins other pins).2 only

end Shared.Step

/-! ## The steps -/

namespace Shared

/-- The pointers and the uses stay, and other tasks keep their references. -/
theorem step_of_same (order : s'.device.InOrder s'.use)
    (refs : ∀ task zone, some task ≠ mover → (task, zone) ∈ s.refs → (task, zone) ∈ s'.refs)
    (use : s'.use = s.use) (pointers : ∀ c, (c.owner s.use).isSome → s'.device.ptr c = s.device.ptr c) :
    s.Step mover s' where
  order := order
  refs := refs
  uses zone inode height used := .inl (by rw [use, used])
  allocating zone task _ used := by rw [use, used]
  only zone _ _ c _ _ only c' owned points := by
    rw [use] at owned
    rw [pointers c' owned] at points
    exact only c' owned points

theorem Step.refl (order : s.device.InOrder s.use) : s.Step mover s :=
  step_of_same order (fun _ _ _ there => there) rfl fun _ _ => rfl

theorem mem_drop_of_ne {other : Nat} (different : other ≠ task) (there : (other, zone') ∈ s.refs) :
    (other, zone') ∈ (s.drop task zone).refs := by
  refine (List.mem_erase_of_ne fun same => ?_).mpr there
  exact different (congrArg Prod.fst same)

theorem ne_of_some_ne {other : Nat} (different : some other ≠ some task) : other ≠ task :=
  fun same => different (congrArg some same)

/-- A step that changes only the references of the task, after one that does not. -/
theorem Step.withRefs (step : s.Step (some task) s') {refs : List (Nat × Nat)}
    (kept : ∀ other zone, other ≠ task → (other, zone) ∈ s'.refs → (other, zone) ∈ refs) :
    s.Step (some task) { s' with refs := refs } where
  order := step.order
  refs other zone different there :=
    kept other zone (ne_of_some_ne different) (step.refs other zone different there)
  uses := step.uses
  allocating := step.allocating
  only := step.only

theorem Step.take (step : s.Step (some task) s') : s.Step (some task) (s'.take task zone) :=
  step.withRefs fun _ _ _ there => List.mem_cons_of_mem _ there

theorem Step.drop (step : s.Step (some task) s') : s.Step (some task) (s'.drop task zone) :=
  step.withRefs fun _ _ different there => mem_drop_of_ne different there

theorem Step.withPos (step : s.Step mover s') {fPos : Nat → Nat} :
    s.Step mover { s' with fPos := fPos } :=
  ⟨step.order, step.refs, step.uses, step.allocating, step.only⟩

theorem setSize_step {size : Nat} (order : s.device.InOrder s.use) :
    s.Step mover { s with device := s.device.setSize inode size } := by
  refine step_of_same ?_ (fun _ _ _ there => there) rfl fun c _ => by cases c <;> rfl
  exact order.congr order.reserved rfl rfl (fun _ _ => rfl) fun c _ => by cases c <;> rfl

/-- The data of a block that is no indirect block changes. -/
theorem data_step {data : Nat → UInt8} (order : s.device.InOrder s.use)
    (leaf : ∀ inode height, s.use zone ≠ some (.block inode (height + 1))) :
    s.Step mover
      { s with device := { s.device with data := Function.update s.device.data zone data } } := by
  refine step_of_same (order.data leaf) (fun _ _ _ there => there) rfl fun c owned => ?_
  cases c with
  | zone inode k => rfl
  | entry block j =>
      obtain ⟨owner, owned⟩ := Option.isSome_iff_exists.mp owned
      have different : block ≠ zone := by
        intro same
        exact leaf owner.1 owner.2 (same ▸ (of_owner_entry owned).1)
      simp [Device.ptr, Device.word, different]

/-- `new_block` finds nothing, or takes a zone. -/
theorem takeZone_step (task : Nat) (order : s.device.InOrder s.use) :
    (∃ s', s.takeZone task = (s', 0) ∧ s.Step (some task) s' ∧ s'.use = s.use ∧
      s'.refs = s.refs) ∨
    ∃ s' zone, s.takeZone task = (s', zone) ∧ zone ≠ 0 ∧ s.Step (some task) s' ∧
      s'.use = Function.update s.use zone (some (.allocating task)) ∧ s.use zone = none ∧
      s'.refs = s.refs := by
  have kept (other zone : Nat) (_ : some other ≠ some task) (there : (other, zone) ∈ s.refs) :
      (other, zone) ∈ s.refs := there
  rcases Device.takeZone_cases order.reserved with ⟨zmap, taken, reserved, bits⟩ |
      ⟨zone, taken, inside, clear⟩
  · refine .inl ⟨{ s with device := s.device.setBits zmap }, by rw [Shared.takeZone, taken]; rfl,
      ?_, rfl, rfl⟩
    refine step_of_same ?_ kept rfl fun _ _ => Device.ptr_setBits
    exact order.congr reserved rfl rfl (fun zone used => bits zone (order.marked zone used).1)
      fun _ _ => Device.ptr_setBits
  · have notZero := inside.ne_zero
    have unused := order.unused_of_clear clear
    have different {zone' : Nat} {u : Use} (used : s.use zone' = some u) : zone' ≠ zone := by
      intro same
      rw [same, unused] at used
      cases used
    refine .inr ⟨{ s with
        device := s.device.setBits (Function.update s.device.zmap (s.device.bitNr zone) true)
        use := Function.update s.use zone (some (.allocating task)) },
      zone, ?_, notZero, ⟨order.take inside clear (by simp), kept, ?_, ?_, ?_⟩, rfl, unused, rfl⟩
    · rw [Shared.takeZone, taken]
      split
      · rename_i same
        exact absurd (Prod.mk.inj same).2 notZero
      · rename_i same
        cases same
        rfl
    · intro zone' inode height used
      exact .inl ((Function.update_of_ne (different used) _ _).trans used)
    · intro zone' other _ used
      exact (Function.update_of_ne (different used) _ _).trans used
    · intro zone' inode height c _ _ only c' owned points
      have same : c'.owner (Function.update s.use zone (some (.allocating task))) =
          c'.owner s.use := owner_update (by simp [unused]) (by simp)
      exact only c' (same ▸ owned) (Device.ptr_setBits.symm.trans points)

/-- The zone that the task has taken becomes the block of a pointer. -/
theorem store_step (order : s.device.InOrder s.use) (owned : c.owner s.use = some (inode, height))
    (used : s.use zone = some (.allocating task)) :
    s.Step (some task) (s.store inode height c zone) := by
  have fresh (inode height : Nat) : s.use zone ≠ some (.block inode height) := by simp [used]
  have different {zone' : Nat} {u : Use} (used' : s.use zone' = some u)
      (other : u ≠ .allocating task) : zone' ≠ zone := by
    intro same
    rw [same, used] at used'
    exact other (Option.some.inj used').symm
  refine ⟨order.store owned (by simp [used]) fresh, fun _ _ _ there => there, ?_, ?_, ?_⟩
  · intro zone' inode' height' used'
    exact .inl ((Function.update_of_ne (different used' (by simp)) _ _).trans used')
  · intro zone' other notMover used'
    have notOwn : Use.allocating other ≠ .allocating task := by
      intro same
      cases same
      exact notMover rfl
    exact (Function.update_of_ne (different used' notOwn) _ _).trans used'
  · intro zone' inode' height' c' used' _ only c₁ owned₁ points
    have notZone := different used' (by simp)
    have notNull : zone' ≠ 0 := order.ne_zero (by simp [used'])
    -- only an old pointer leads to a zone that was in use before
    have self : (s.device.store c zone).ptr c = zone :=
      Device.ptr_setPtr_self (order.lt_65536 (by simp [used]))
    have notNew : c₁ ≠ c := by
      intro same
      rw [same] at points
      exact notZone (points.symm.trans self)
    have points' : (s.device.clearBlock zone).ptr c₁ = zone' :=
      (Device.ptr_setPtr_of_ne notNew).symm.trans points
    have notEntry (j : Nat) : c₁ ≠ .entry zone j := by
      intro same
      rw [same] at points'
      exact notNull (points'.symm.trans Device.word_clearBlock_self)
    have old : c₁.owner s.use = c₁.owner (Function.update s.use zone (some (.block inode height))) := by
      cases c₁ with
      | zone => rfl
      | entry block j =>
          have elsewhere : block ≠ zone := fun same => notEntry j (by rw [same])
          simp [Cell.owner, elsewhere]
    have owned' : (c₁.owner s.use).isSome := by
      rw [old]
      exact owned₁
    obtain ⟨owner, isOwner⟩ := Option.isSome_iff_exists.mp owned'
    exact only c₁ owned' ((Device.ptr_clearBlock isOwner fresh).symm.trans points')

/-- The task's reference is the only one. -/
theorem bCount_le_one (mine : (task, zone) ∈ s.refs) (single : s.bCount zone ≤ 1) {other : Nat}
    (different : other ≠ task) : (other, zone) ∉ s.refs := by
  intro there
  obtain ⟨before, behind, split⟩ := List.append_of_mem mine
  rw [split, List.mem_append, List.mem_cons] at there
  have inRest : (other, zone) ∈ before ++ behind := by
    rcases there with inFront | same | inBack
    · exact List.mem_append_left _ inFront
    · exact absurd (congrArg Prod.fst same) different
    · exact List.mem_append_right _ inBack
  have one : 0 < (before ++ behind).countP fun ref => ref.2 == zone :=
    List.countP_pos_iff.mpr ⟨_, inRest, beq_self_eq_true zone⟩
  rw [bCount, split, List.countP_append, List.countP_cons] at single
  rw [List.countP_append] at one
  simp only [beq_self_eq_true, if_true] at single
  omega

/-- A block that no other task has a reference to is freed. -/
theorem free_step (order : s.device.InOrder s.use) (pins : s.Pins task inode height zone)
    (only : s.Only c zone) (single : s.bCount zone ≤ 1) :
    s.Step (some task) ((s.drop task zone).free c zone) := by
  obtain ⟨mine, used⟩ := pins
  have detached := order.detach used only
  refine ⟨detached, fun other zone' different there => ?_, ?_, ?_, ?_⟩
  · exact mem_drop_of_ne (ne_of_some_ne different) there
  · intro zone' inode' height' used'
    by_cases same : zone' = zone
    · right
      intro other different
      rw [same]
      exact bCount_le_one mine single (ne_of_some_ne different)
    · exact .inl ((Function.update_of_ne same _ _).trans used')
  · intro zone' other _ used'
    have different : zone' ≠ zone := by
      intro same
      rw [same, used] at used'
      cases used'
    exact (Function.update_of_ne different _ _).trans used'
  · intro zone' inode' height' c' used' _ only' c₁ owned₁ points
    have old : (c₁.owner s.use).isSome := by
      cases c₁ with
      | zone => exact owned₁
      | entry block j =>
          by_cases here : block = zone
          · rw [here] at owned₁
            change ((Cell.entry zone j).owner (Function.update s.use zone none)).isSome at owned₁
            simp [Cell.owner] at owned₁
          · change ((Cell.entry block j).owner (Function.update s.use zone none)).isSome at owned₁
            simpa [Cell.owner, here] using owned₁
    have notCleared : c₁ ≠ c := by
      intro same
      rw [same] at points
      have null : ((s.device.clearBit zone).setPtr c 0).ptr c = 0 :=
        Device.ptr_setPtr_self (by decide)
      exact order.ne_zero (by simp [used']) (points.symm.trans null)
    have kept : ((s.device.clearBit zone).setPtr c 0).ptr c₁ = s.device.ptr c₁ :=
      (Device.ptr_setPtr_of_ne notCleared).trans Device.ptr_setBits
    exact only' c₁ old (kept.symm.trans points)

end Shared

end Linux012.Zones
