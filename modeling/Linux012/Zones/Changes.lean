import Linux012.Zones.Owned

/-!
# What becomes of the zones

A step of a task takes a zone, stores the number of the zone that it has taken, frees a block,
or leaves the uses of the zones.  As long as a new block is stored where the pointer is still
null, and an indirect block is freed when it has no pointers any more, every used zone has a
pointer to it.
-/

namespace Linux012.Zones

variable {s s' : Shared} {task inode height zone : Nat} {c : Cell} {strict : Bool}

/-! ## What a step of a task can do -/

/-- A step of a task leaves the uses of the zones, takes a zone, stores the number of the zone
taken where the pointer is null, or frees an emptied block to which a pointer leads. -/
inductive Shared.Change (s : Shared) (task : Nat) : Shared → Prop where
  | quiet (s' : Shared) (use : s'.use = s.use)
      (first : s'.device.sFirstdatazone = s.device.sFirstdatazone)
      (last : s'.device.sNzones = s.device.sNzones)
      (bits : ∀ zone, s.device.InZones zone → s'.device.bit zone = s.device.bit zone)
      (pointers : ∀ c, (c.owner s.use).isSome → s'.device.ptr c = s.device.ptr c) : Change s task s'
  | takes (zone : Nat) (inside : s.device.InZones zone) (unused : s.use zone = none) :
      Change s task { s with
        device := s.device.setBits (Function.update s.device.zmap (s.device.bitNr zone) true)
        use := Function.update s.use zone (some (.allocating task)) }
  | stores (inode height : Nat) (c : Cell) (zone : Nat)
      (owned : c.owner s.use = some (inode, height))
      (used : s.use zone = some (.allocating task)) (null : s.device.ptr c = 0) :
      Change s task (s.store inode height c zone)
  | frees (inode height : Nat) (c : Cell) (zone : Nat) (pins : s.Pins task inode height zone)
      (leads : s.device.ptr c = zone) (single : s.bCount zone ≤ 1)
      (emptied : 0 < height → ∀ j < 512, s.device.word zone j = 0) :
      Change s task ((s.drop task zone).free c zone)

/-- Every zone that is used has a pointer to it, and every bit that is set is of a zone that
is used. -/
structure Shared.Exact (s : Shared) : Prop where
  low : ∀ zone inode height, s.use zone = some (.block inode height) → height ≤ 2
  reached : ∀ zone inode height, s.use zone = some (.block inode height) →
    ∃ c, c.owner s.use = some (inode, height) ∧ s.device.ptr c = zone
  used : ∀ zone, s.device.InZones zone → s.device.bit zone = true → (s.use zone).isSome

theorem Device.inZones_congr {d d' : Device} (first : d'.sFirstdatazone = d.sFirstdatazone)
    (last : d'.sNzones = d.sNzones) : d'.InZones zone ↔ d.InZones zone := by
  rw [InZones, InZones, first, last]

/-- No block is above a double indirect one. -/
theorem Shared.Exact.low_of_owner (exact : s.Exact) (owned : c.owner s.use = some (inode, height)) :
    height ≤ 2 := by
  cases c with
  | zone inode' k =>
      by_cases inside : k < 9
      · rw [owner_zone inside] at owned
        cases owned
        omega
      · simp [Cell.owner, inside] at owned
  | entry block j =>
      have above := exact.low block inode (height + 1) (of_owner_entry owned).1
      omega

/-- An indirect block keeps its owner while a block that is new gets one. -/
theorem owner_update_of_fresh {use : Nat → Option Use} {new : Option Use} {owner : Nat × Nat}
    (owned : c.owner use = some owner)
    (fresh : ∀ inode height, use zone ≠ some (.block inode height)) :
    c.owner (Function.update use zone new) = some owner := by
  cases c with
  | zone => exact owned
  | entry block j =>
      obtain ⟨used, small⟩ := of_owner_entry owned
      have different : block ≠ zone := fun same => fresh _ _ (same ▸ used)
      exact owner_entry ((Function.update_of_ne different _ _).trans used) small

namespace Shared.Exact

theorem takes (exact : s.Exact) (inside : s.device.InZones zone) (unused : s.use zone = none) :
    Exact { s with
      device := s.device.setBits (Function.update s.device.zmap (s.device.bitNr zone) true)
      use := Function.update s.use zone (some (.allocating task)) } := by
  have old {zone' inode height : Nat}
      (used : Function.update s.use zone (some (.allocating task)) zone' =
        some (.block inode height)) : s.use zone' = some (.block inode height) := by
    by_cases same : zone' = zone
    · rw [same, Function.update_self] at used
      cases used
    · rwa [Function.update_of_ne same] at used
  refine ⟨fun zone' inode height used => exact.low zone' inode height (old used),
    fun zone' inode height used => ?_, fun zone' inside' set => ?_⟩
  · obtain ⟨c, owned, leads⟩ := exact.reached zone' inode height (old used)
    exact ⟨c, owner_update_of_fresh owned (by simp [unused]), Device.ptr_setBits.trans leads⟩
  · change s.device.InZones zone' at inside'
    change (Function.update s.use zone (some (.allocating task)) zone').isSome
    by_cases same : zone' = zone
    · simp [same]
    · have apart := inside.bitNr_ne inside' same
      have before : s.device.bit zone' = true := (Function.update_of_ne apart _ _).symm.trans set
      rw [Function.update_of_ne same]
      exact exact.used zone' inside' before

theorem stores (exact : s.Exact) (order : s.device.InOrder s.use)
    (owned : c.owner s.use = some (inode, height)) (used : s.use zone = some (.allocating task))
    (null : s.device.ptr c = 0) : (s.store inode height c zone).Exact := by
  have fresh (inode height : Nat) : s.use zone ≠ some (.block inode height) := by simp [used]
  refine ⟨fun zone' inode' height' used' => ?_, fun zone' inode' height' used' => ?_,
    fun zone' inside' set => ?_⟩
  · change Function.update s.use zone (some (.block inode height)) zone' = _ at used'
    by_cases same : zone' = zone
    · rw [same, Function.update_self] at used'
      cases used'
      exact exact.low_of_owner owned
    · rw [Function.update_of_ne same] at used'
      exact exact.low zone' inode' height' used'
  · change Function.update s.use zone (some (.block inode height)) zone' = _ at used'
    by_cases same : zone' = zone
    · rw [same, Function.update_self] at used'
      cases used'
      exact ⟨c, owner_update_of_fresh owned fresh,
        (Device.ptr_setPtr_self (order.lt_65536 (by simp [used]))).trans same.symm⟩
    · rw [Function.update_of_ne same] at used'
      obtain ⟨c', owned', leads⟩ := exact.reached zone' inode' height' used'
      have notNew : c' ≠ c := by
        intro equal
        rw [equal, null] at leads
        exact order.ne_zero (by simp [used']) leads.symm
      refine ⟨c', owner_update_of_fresh owned' fresh, ?_⟩
      exact ((Device.ptr_setPtr_of_ne notNew).trans (Device.ptr_clearBlock owned' fresh)).trans
        leads
  · change ((s.device.clearBlock zone).setPtr c zone).InZones zone' at inside'
    change ((s.device.clearBlock zone).setPtr c zone).bit zone' = true at set
    rw [Device.inZones_setPtr] at inside'
    rw [Device.bit_setPtr] at set
    change (Function.update s.use zone (some (.block inode height)) zone').isSome
    by_cases same : zone' = zone
    · simp [same]
    · rw [Function.update_of_ne same]
      exact exact.used zone' inside' set

theorem frees (exact : s.Exact) (order : s.device.InOrder s.use)
    (used : s.use zone = some (.block inode height)) (leads : s.device.ptr c = zone)
    (emptied : 0 < height → ∀ j < 512, s.device.word zone j = 0) :
    ((s.drop task zone).free c zone).Exact := by
  have old {zone' : Nat} {u : Use} (used' : Function.update s.use zone none zone' = some u) :
      zone' ≠ zone ∧ s.use zone' = some u := by
    have different : zone' ≠ zone := by
      intro same
      simp [same] at used'
    exact ⟨different, (Function.update_of_ne different _ _).symm.trans used'⟩
  refine ⟨fun zone' inode' height' used' => ?_, fun zone' inode' height' used' => ?_,
    fun zone' inside' set => ?_⟩
  · exact exact.low zone' inode' height' (old used').2
  · obtain ⟨different, used'⟩ := old used'
    obtain ⟨c', owned, leads'⟩ := exact.reached zone' inode' height' used'
    have notCleared : c' ≠ c := by
      intro equal
      rw [equal, leads] at leads'
      exact different leads'.symm
    -- the freed block has no pointers left
    have keepOwner : c'.owner (Function.update s.use zone none) = some (inode', height') := by
      cases c' with
      | zone => exact owned
      | entry block j =>
          obtain ⟨usedBlock, small⟩ := of_owner_entry owned
          have elsewhere : block ≠ zone := by
            intro same
            rw [same, used] at usedBlock
            cases usedBlock
            rw [same] at leads'
            have empty : s.device.ptr (.entry zone j) = 0 := emptied (Nat.succ_pos height') j small
            exact order.ne_zero (by simp [used']) (leads'.symm.trans empty)
          exact owner_entry ((Function.update_of_ne elsewhere _ _).trans usedBlock) small
    exact ⟨c', keepOwner,
      ((Device.ptr_setPtr_of_ne notCleared).trans Device.ptr_setBits).trans leads'⟩
  · have inside : s.device.InZones zone := (order.marked zone (by simp [used])).1
    change ((s.device.clearBit zone).setPtr c 0).InZones zone' at inside'
    change ((s.device.clearBit zone).setPtr c 0).bit zone' = true at set
    rw [Device.inZones_setPtr] at inside'
    rw [Device.bit_setPtr] at set
    have different : zone' ≠ zone := by
      intro same
      rw [same] at set
      have cleared : (s.device.clearBit zone).bit zone = false := Function.update_self _ _ _
      rw [cleared] at set
      cases set
    change (Function.update s.use zone none zone').isSome
    rw [Function.update_of_ne different]
    exact exact.used zone' inside'
      ((Device.bit_clearBit_of_ne inside inside' different).symm.trans set)

end Shared.Exact

theorem Shared.Change.exact (change : s.Change task s') (order : s.device.InOrder s.use)
    (exact : s.Exact) : s'.Exact := by
  cases change with
  | quiet s' use first last bits pointers =>
      refine ⟨use ▸ exact.low, fun zone inode height used => ?_, fun zone inside set => ?_⟩
      · rw [use] at used
        obtain ⟨c, owned, leads⟩ := exact.reached zone inode height used
        exact ⟨c, use ▸ owned, (pointers c (by simp [owned])).trans leads⟩
      · have inside := (Device.inZones_congr first last).mp inside
        rw [use]
        exact exact.used zone inside ((bits zone inside).symm.trans set)
  | takes zone inside unused => exact exact.takes inside unused
  | stores inode height c zone owned used null => exact exact.stores order owned used null
  | frees inode height c zone pins leads single emptied =>
      exact exact.frees order pins.2 leads emptied

/-- A pointer stays as long as it leads to a block that another task has a reference to. -/
theorem Shared.Change.leads (change : s.Change task s') (order : s.device.InOrder s.use)
    {other inode' height' : Nat} {c' : Cell} (different : other ≠ task)
    (pinned : c'.Pinned s other inode' height') (pins : s.Pins other inode' height' zone)
    (leads : s.device.ptr c' = zone) : s'.device.ptr c' = zone := by
  have notNull : zone ≠ 0 := order.ne_zero (by simp [pins.2])
  cases change with
  | quiet s' use first last bits pointers =>
      exact (pointers c' (by simp [pinned.owner])).trans leads
  | takes => exact Device.ptr_setBits.trans leads
  | stores inode₀ height₀ c₀ zone₀ owned₀ used₀ null =>
      have notNew : c' ≠ c₀ := by
        intro equal
        rw [equal, null] at leads
        exact notNull leads.symm
      have fresh (inode height : Nat) : s.use zone₀ ≠ some (.block inode height) := by simp [used₀]
      exact ((Device.ptr_setPtr_of_ne notNew).trans
        (Device.ptr_clearBlock pinned.owner fresh)).trans leads
  | frees inode₀ height₀ c₀ zone₀ pins₀ leads₀ single emptied =>
      have notCleared : c' ≠ c₀ := by
        intro equal
        rw [equal, leads₀] at leads
        rw [← leads] at pins
        exact Shared.bCount_le_one pins₀.1 single different pins.1
      exact ((Device.ptr_setPtr_of_ne notCleared).trans Device.ptr_setBits).trans leads

/-! ## The calls -/

/-- The calls do not disturb one another: a new block is stored where the pointer is still
null, and an indirect block is freed when all its pointers are null. -/
def FileCall.Undisturbed (s : Shared) : FileCall → Prop
  | .read _ => True
  | .write w =>
      match w.phase with
      | .mapping b (.alloc _) => s.device.ptr b.c = 0
      | _ => True
  | .truncate t =>
      match t.phase with
      | .freeing _ zone => 0 < t.height → s.bCount zone ≤ 1 → ∀ j < 512, s.device.word zone j = 0
      | _ => True

/-- The zone that `_bmap` has taken where it sleeps. -/
def BmapWait.allocates : BmapWait → Option Nat
  | .alloc zone => some zone
  | _ => none

def BmapOutcome.allocates : BmapOutcome → Option Nat
  | .sleeps _ wait => wait.allocates
  | .returns _ => none

def FilePhase.allocates : FilePhase → Option Nat
  | .mapping _ wait => wait.allocates
  | _ => none

/-- The zones that a task has taken and not yet stored are the one of its call. -/
def Shared.Allocates (s : Shared) (task : Nat) (allocates : Option Nat) : Prop :=
  ∀ zone, s.use zone = some (.allocating task) → allocates = some zone

theorem Shared.Change.ofDevice (device : s'.device = s.device) (use : s'.use = s.use) :
    s.Change task s' :=
  .quiet s' use (by rw [device]) (by rw [device]) (fun _ _ => by rw [device])
    fun _ _ => by rw [device]

/-- A change, and any change of references and file positions. -/
def Shared.Changes (s : Shared) (task : Nat) (s' : Shared) : Prop :=
  ∃ s₁, s.Change task s₁ ∧ s'.device = s₁.device ∧ s'.use = s₁.use

theorem Shared.Change.changes (change : s.Change task s') : s.Changes task s' :=
  ⟨s', change, rfl, rfl⟩

theorem Shared.Changes.refl : s.Changes task s := (Shared.Change.ofDevice rfl rfl).changes

theorem Shared.setSize_change {size : Nat} :
    s.Change task { s with device := s.device.setSize inode size } := by
  refine .quiet _ rfl rfl rfl (fun _ _ => rfl) fun c _ => ?_
  cases c <;> rfl

/-- The data of a block that is no indirect block changes. -/
theorem Shared.data_change {data : Nat → UInt8}
    (leaf : ∀ inode height, s.use zone ≠ some (.block inode (height + 1))) :
    s.Change task
      { s with device := { s.device with data := Function.update s.device.data zone data } } := by
  refine .quiet _ rfl rfl rfl (fun _ _ => rfl) fun c owned => ?_
  cases c with
  | zone inode k => rfl
  | entry block j =>
      obtain ⟨owner, owned⟩ := Option.isSome_iff_exists.mp owned
      have different : block ≠ zone := by
        intro same
        exact leaf owner.1 owner.2 (same ▸ (of_owner_entry owned).1)
      simp [Device.ptr, Device.word, different]

namespace Bmap

variable {b : Bmap}

theorem look_change (order : s.device.InOrder s.use) (allocates : s.Allocates task none) :
    s.Change task (b.look s task).1 ∧
      (b.look s task).1.Allocates task (b.look s task).2.allocates := by
  have free (zone : Nat) : s.use zone ≠ some (.allocating task) := by
    intro used
    cases allocates zone used
  unfold look
  split
  · unfold Shared.takeZone
    rcases Device.takeZone_cases order.reserved with ⟨zmap, taken, reserved, bits⟩ |
        ⟨zone, taken, inside, clear⟩
    · rw [taken]
      refine ⟨.quiet _ rfl rfl rfl bits fun _ _ => Device.ptr_setBits, fun zone used => ?_⟩
      exact absurd used (free zone)
    · rw [taken]
      cases zone with
      | zero => exact absurd rfl inside.ne_zero
      | succ zone =>
          refine ⟨.takes (zone + 1) inside (order.unused_of_clear clear), fun other used => ?_⟩
          change Function.update s.use (zone + 1) (some (.allocating task)) other = _ at used
          by_cases same : other = zone + 1
          · rw [same]
            rfl
          · rw [Function.update_of_ne same] at used
            exact absurd used (free other)
  · exact ⟨.ofDevice rfl rfl, fun zone used => absurd used (free zone)⟩

theorem resume_change {wait : BmapWait} {ok : Bool} {result : Shared × BmapOutcome}
    (order : s.device.InOrder s.use) (keeps : b.Keeps s task strict wait)
    (allocates : s.Allocates task wait.allocates)
    (null : ∀ zone, wait = .alloc zone → s.device.ptr b.c = 0)
    (resumed : b.resume s task ok wait = some result) :
    s.Change task result.1 ∧ result.1.Allocates task result.2.allocates := by
  cases wait with
  | alloc zone =>
      rw [resume] at resumed
      split at resumed
      · cases resumed
        refine ⟨.stores _ _ _ _ keeps.2.2.1.owner keeps.2.2.2 (null zone rfl), fun other used => ?_⟩
        change Function.update s.use zone _ other = _ at used
        by_cases same : other = zone
        · rw [same, Function.update_self] at used
          cases used
        · rw [Function.update_of_ne same] at used
          exact absurd (Option.some.inj (allocates other used)).symm same
      · cases resumed
  | release zone =>
      rw [resume] at resumed
      split at resumed
      · cases resumed
        exact ⟨.ofDevice rfl rfl, fun zone used => by cases allocates zone used⟩
      · cases resumed
  | getting zone =>
      cases resumed
      exact ⟨.ofDevice rfl rfl, allocates⟩
  | reading zone =>
      rw [resume] at resumed
      split at resumed
      · cases resumed
        exact look_change order allocates
      · cases resumed
        exact ⟨.ofDevice rfl rfl, allocates⟩

theorem start_change {create : Bool} {block : Nat} {result : Shared × BmapOutcome}
    (order : s.device.InOrder s.use) (allocates : s.Allocates task none)
    (started : start s task create inode block = some result) :
    s.Change task result.1 ∧ result.1.Allocates task result.2.allocates := by
  unfold start at started
  split at started
  · cases started
    exact look_change order allocates
  · cases started

end Bmap

namespace ReadCall

variable {r : ReadCall}

def allocates (r : ReadCall) : Option Nat := r.phase.allocates

theorem mapped_changes {outcome : Shared × BmapOutcome} (change : s.Changes task outcome.1)
    (allocates : outcome.1.Allocates task outcome.2.allocates) :
    s.Changes task (r.mapped outcome).1 ∧ (r.mapped outcome).1.Allocates task
      ((r.mapped outcome).2.bind ReadCall.allocates) := by
  obtain ⟨s₁, outcome⟩ := outcome
  cases outcome with
  | sleeps b wait => exact ⟨change, allocates⟩
  | returns zone =>
      cases zone with
      | zero => exact ⟨change, allocates⟩
      | succ zone => exact ⟨change, allocates⟩

theorem resume_changes {ok : Bool} {result : Shared × Option ReadCall}
    (order : s.device.InOrder s.use) (keeps : r.Keeps s task strict)
    (allocates : s.Allocates task r.phase.allocates) (resumed : r.resume s task ok = some result) :
    s.Changes task result.1 ∧
      result.1.Allocates task (result.2.bind ReadCall.allocates) := by
  obtain ⟨inode, filp, left, out, phase⟩ := r
  cases phase with
  | next =>
      dsimp only [resume] at resumed
      split at resumed
      · cases resumed
        exact ⟨.refl, allocates⟩
      · obtain ⟨outcome, started, built⟩ := Option.map_eq_some_iff.mp resumed
        obtain ⟨change, allocates⟩ := Bmap.start_change order allocates started
        exact built ▸ mapped_changes change.changes allocates
  | mapping b wait =>
      obtain ⟨outcome, went, built⟩ := Option.map_eq_some_iff.mp resumed
      have null (zone : Nat) (isAlloc : wait = .alloc zone) : s.device.ptr b.c = 0 := by
        have creates := keeps.1.2
        rw [isAlloc] at creates
        rw [keeps.2.1] at creates
        cases creates.1
      obtain ⟨change, allocates⟩ := Bmap.resume_change order keeps.1 allocates null went
      exact built ▸ mapped_changes change.changes allocates
  | getting zone =>
      cases resumed
      exact ⟨(Shared.Change.ofDevice rfl rfl).changes, allocates⟩
  | reading zone =>
      dsimp only [resume] at resumed
      split at resumed
      · cases resumed
        exact ⟨(Shared.Change.ofDevice rfl rfl).changes, allocates⟩
      · cases resumed
        exact ⟨(Shared.Change.ofDevice rfl rfl).changes, allocates⟩
  | copying zone offset chars =>
      cases chars with
      | zero =>
          dsimp only [resume] at resumed
          by_cases hole : zone = 0
          · rw [if_pos hole] at resumed
            cases resumed
            exact ⟨.refl, allocates⟩
          · rw [if_neg hole] at resumed
            cases resumed
            exact ⟨.refl, allocates⟩
      | succ chars =>
          cases resumed
          exact ⟨.refl, allocates⟩
  | releasing zone =>
      cases resumed
      exact ⟨(Shared.Change.ofDevice rfl rfl).changes, allocates⟩

end ReadCall

namespace WriteCall

variable {w : WriteCall}

def allocates (w : WriteCall) : Option Nat := w.phase.allocates

theorem finish_changes (change : s.Changes task s') (allocates : s'.Allocates task none) :
    s.Changes task (w.finish s').1 ∧ (w.finish s').1.Allocates task
      ((w.finish s').2.bind WriteCall.allocates) := by
  unfold finish
  split
  · exact ⟨change, allocates⟩
  · exact ⟨change, allocates⟩

theorem mapped_changes {outcome : Shared × BmapOutcome} (change : s.Changes task outcome.1)
    (allocates : outcome.1.Allocates task outcome.2.allocates) :
    s.Changes task (w.mapped outcome).1 ∧ (w.mapped outcome).1.Allocates task
      ((w.mapped outcome).2.bind WriteCall.allocates) := by
  obtain ⟨s₁, outcome⟩ := outcome
  cases outcome with
  | sleeps b wait => exact ⟨change, allocates⟩
  | returns zone =>
      cases zone with
      | zero => exact finish_changes change allocates
      | succ zone => exact ⟨change, allocates⟩

theorem resume_changes {ok : Bool} {result : Shared × Option WriteCall}
    (order : s.device.InOrder s.use) (keeps : w.Keeps s task strict)
    (allocates : s.Allocates task w.phase.allocates)
    (undisturbed : (FileCall.write w).Undisturbed s) (resumed : w.resume s task ok = some result) :
    s.Changes task result.1 ∧
      result.1.Allocates task (result.2.bind WriteCall.allocates) := by
  obtain ⟨inode, filp, append, pos, buf, phase⟩ := w
  cases phase with
  | next =>
      cases buf with
      | nil =>
          cases resumed
          exact finish_changes .refl allocates
      | cons byte buf =>
          obtain ⟨outcome, started, built⟩ := Option.map_eq_some_iff.mp resumed
          obtain ⟨change, allocates⟩ := Bmap.start_change order allocates started
          exact built ▸ mapped_changes change.changes allocates
  | mapping b wait =>
      obtain ⟨outcome, went, built⟩ := Option.map_eq_some_iff.mp resumed
      have null (zone : Nat) (isAlloc : wait = .alloc zone) : s.device.ptr b.c = 0 := by
        rw [isAlloc] at undisturbed
        exact undisturbed
      obtain ⟨change, allocates⟩ := Bmap.resume_change order keeps.1 allocates null went
      exact built ▸ mapped_changes change.changes allocates
  | getting zone =>
      cases resumed
      exact ⟨(Shared.Change.ofDevice rfl rfl).changes, allocates⟩
  | reading zone =>
      dsimp only [resume] at resumed
      split at resumed
      · cases resumed
        exact ⟨Shared.setSize_change.changes, allocates⟩
      · cases resumed
        exact finish_changes (Shared.Change.ofDevice rfl rfl).changes allocates
  | copying zone offset chars =>
      cases chars with
      | zero =>
          cases resumed
          exact ⟨.refl, allocates⟩
      | succ chars =>
          cases buf with
          | nil => cases resumed
          | cons byte buf =>
              cases resumed
              have used : s.use zone = some (.block inode 0) := keeps.2
              have change : s.Change task { s with device := s.device.setByte zone offset byte } :=
                Shared.data_change fun inode' height' indirect => by
                  rw [used] at indirect
                  cases indirect
              exact ⟨change.changes, allocates⟩
  | releasing zone =>
      cases resumed
      exact ⟨(Shared.Change.ofDevice rfl rfl).changes, allocates⟩

end WriteCall

/-! ## `truncate` -/

/-- The pointers that `truncate` came through still lead to the blocks that it is in. -/
def Trunc.Leads (s : Shared) (t : Trunc) : Prop :=
  (∀ scan ∈ t.scans, s.device.ptr scan.c = scan.zone) ∧
    match t.phase with
    | .freeing c zone | .reading c zone => s.device.ptr c = zone
    | .scanning | .getting .. | .releasing => True

/-- Each block that `truncate` is in, with its height. -/
theorem ScansKeep.mem {k : Nat} {scans : List Scan} {scan : Scan}
    (keeps : ScansKeep s task inode k scans) (member : scan ∈ scans) :
    ∃ height, k - 6 - scans.length < height ∧ scan.c.Pinned s task inode height ∧
      s.Pins task inode height scan.zone := by
  induction scans with
  | nil => cases member
  | cons first scans ih =>
      obtain ⟨inside, pinned, pins, only, rest⟩ := keeps
      cases member with
      | head =>
          refine ⟨k - 6 - scans.length, ?_, pinned, pins⟩
          rw [List.length_cons]
          omega
      | tail _ member =>
          obtain ⟨height, above, pinned, pins⟩ := ih rest member
          refine ⟨height, ?_, pinned, pins⟩
          rw [List.length_cons]
          omega

namespace Trunc

variable {t : Trunc}

theorem freed_leads {ok : Bool} (leads : ∀ scan ∈ t.scans, s.device.ptr scan.c = scan.zone) :
    (t.freed ok).Leads s := by
  obtain ⟨inode, k, blockBusy, scans, phase⟩ := t
  cases scans with
  | nil => exact ⟨leads, trivial⟩
  | cons scan scans =>
      refine ⟨fun other member => ?_, trivial⟩
      cases member with
      | head => exact leads scan List.mem_cons_self
      | tail _ member => exact leads other (List.mem_cons_of_mem _ member)

theorem startFree_leads {result : Shared × Option Trunc}
    (started : t.startFree s' task c zone = some result) (device : s'.device = s.device)
    (use : s'.use = s.use) (leads : ∀ scan ∈ t.scans, s.device.ptr scan.c = scan.zone)
    (lead : s.device.ptr c = zone) :
    s.Change task result.1 ∧ result.1.use = s.use ∧ keepsIf (Leads result.1) result.2 := by
  unfold startFree at started
  split at started
  · cases started
    refine ⟨.ofDevice device use, use, ?_, ?_⟩
    · change ∀ scan ∈ t.scans, s'.device.ptr scan.c = scan.zone
      rwa [device]
    · change s'.device.ptr c = zone
      rwa [device]
  · cases started

theorem visit_leads {result : Shared × Option Trunc}
    (leads : ∀ scan ∈ t.scans, s.device.ptr scan.c = scan.zone)
    (visited : t.visit s task c = some result) :
    s.Change task result.1 ∧ result.1.use = s.use ∧ keepsIf (Leads result.1) result.2 := by
  unfold visit at visited
  dsimp only at visited
  split at visited
  · cases visited
    exact ⟨.ofDevice rfl rfl, rfl, freed_leads leads⟩
  · split at visited
    · exact startFree_leads visited rfl rfl leads rfl
    · cases visited
      exact ⟨.ofDevice rfl rfl, rfl, leads, trivial⟩

/-- What a step of `truncate` does: no zone is taken. -/
theorem resume_change {ok : Bool} {result : Shared × Option Trunc}
    (keeps : t.Keeps s task) (leads : t.Leads s)
    (current : t.phase.Current s) (undisturbed : (FileCall.truncate t).Undisturbed s)
    (resumed : t.resume s task ok = some result) :
    s.Change task result.1 ∧
      (∀ zone, result.1.use zone = some (.allocating task) →
        s.use zone = some (.allocating task)) ∧
      keepsIf (Leads result.1) result.2 := by
  obtain ⟨inode, k, blockBusy, scans, phase⟩ := t
  obtain ⟨scansKeep, keeps⟩ := keeps
  obtain ⟨scansLead, lead⟩ := leads
  have ofUse {result : Shared × Option Trunc} (went : s.Change task result.1 ∧
      result.1.use = s.use ∧ keepsIf (Leads result.1) result.2) : s.Change task result.1 ∧
      (∀ zone, result.1.use zone = some (.allocating task) →
        s.use zone = some (.allocating task)) ∧ keepsIf (Leads result.1) result.2 :=
    ⟨went.1, fun zone used => went.2.1 ▸ used, went.2.2⟩
  cases phase with
  | scanning =>
      cases scans with
      | nil =>
          dsimp only [resume, scan] at resumed
          split at resumed
          · exact ofUse (visit_leads scansLead resumed)
          · split at resumed
            · cases resumed
              exact ofUse ⟨.ofDevice rfl rfl, rfl, scansLead, trivial⟩
            · cases resumed
              exact ofUse ⟨Shared.setSize_change, rfl, trivial⟩
      | cons scan scans =>
          dsimp only [resume, Trunc.scan] at resumed
          split at resumed
          · exact ofUse (visit_leads scansLead resumed)
          · cases resumed
            exact ofUse ⟨.ofDevice rfl rfl, rfl, scansLead, trivial⟩
  | freeing c zone =>
      obtain ⟨pinned, pins, only⟩ := keeps
      dsimp only [resume] at resumed
      split at resumed
      · cases resumed
        exact ofUse ⟨.ofDevice rfl rfl, rfl, freed_leads scansLead⟩
      · rename_i single
        cases resumed
        have single := Nat.le_of_not_gt single
        refine ⟨.frees inode _ c zone pins lead single fun higher => undisturbed higher single,
          fun other used => ?_, freed_leads fun scan member => ?_⟩
        · change Function.update s.use zone none other = _ at used
          by_cases same : other = zone
          · simp [same] at used
          · rwa [Function.update_of_ne same] at used
        · -- the blocks around are other blocks
          obtain ⟨height, above, pinned', pins'⟩ := scansKeep.mem member
          have different : scan.c ≠ c := by
            intro same
            have leadsHere := scansLead scan member
            rw [same, lead] at leadsHere
            exact pins'.ne pins (Nat.ne_of_gt above) leadsHere.symm
          exact ((Device.ptr_setPtr_of_ne different).trans Device.ptr_setBits).trans
            (scansLead scan member)
  | getting c zone =>
      cases resumed
      exact ofUse ⟨.ofDevice rfl rfl, rfl, scansLead, current⟩
  | reading c zone =>
      dsimp only [resume] at resumed
      split at resumed
      · cases resumed
        refine ofUse ⟨.ofDevice rfl rfl, rfl, fun scan member => ?_, trivial⟩
        cases member with
        | head => exact lead
        | tail _ member => exact scansLead scan member
      · exact ofUse (startFree_leads resumed rfl rfl scansLead lead)
  | releasing =>
      cases scans with
      | nil => cases resumed
      | cons scan scans =>
          have lead := scansLead scan List.mem_cons_self
          have around (other : Scan) (member : other ∈ scans) :
              s.device.ptr other.c = other.zone := scansLead other (List.mem_cons_of_mem _ member)
          dsimp only [resume] at resumed
          split at resumed
          · cases resumed
            exact ofUse ⟨.ofDevice rfl rfl, rfl, freed_leads around⟩
          · exact ofUse (startFree_leads resumed rfl rfl around lead)

/-- The steps of other tasks leave the pointers to blocks that `truncate` has references to. -/
theorem Leads.stable {other : Nat} (leads : t.Leads s) (order : s.device.InOrder s.use)
    (keeps : t.Keeps s task) (changes : s.Changes other s') (different : task ≠ other) :
    t.Leads s' := by
  obtain ⟨s₁, change, device, use⟩ := changes
  obtain ⟨inode, k, blockBusy, scans, phase⟩ := t
  obtain ⟨scansKeep, keeps⟩ := keeps
  obtain ⟨scansLead, lead⟩ := leads
  unfold Leads
  rw [device]
  refine ⟨fun scan member => ?_, ?_⟩
  · obtain ⟨height, above, pinned, pins⟩ := scansKeep.mem member
    exact change.leads order different pinned pins (scansLead scan member)
  · cases phase with
    | freeing c zone => exact change.leads order different keeps.1 keeps.2.1 lead
    | reading c zone => exact change.leads order different keeps.2.1 keeps.2.2.1 lead
    | scanning => trivial
    | getting c zone => trivial
    | releasing => trivial

end Trunc

end Linux012.Zones
