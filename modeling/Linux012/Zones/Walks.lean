import Linux012.Zones.Owned
import Linux012.Zones.Creates

/-!
# Walking along a directory

What other tasks do to a directory leaves the blocks that it has.  So `bmap` and
`create_block` find the block that they are asked for, and `find_entry` passes over no slot
that is in use, as long as new blocks are stored where the pointer is still null and no block
of the directory fails to be read.
-/

namespace Linux012.Zones

variable {d d' : Device} {use : Nat → Option Use} {c : Cell} {rest : List Nat}
variable {s s' : Shared} {task dir inode height zone n j k : Nat} {strict : Bool}

/-! ## Routes -/

/-- A pointer on the way to a block of a file, and the rest of the route from there. -/
inductive Device.OnRoute (d : Device) (inode block : Nat) : Cell → List Nat → Prop where
  | root : OnRoute d inode block (.zone inode (route block).1) (route block).2
  | next {c : Cell} {j : Nat} {rest : List Nat} (before : OnRoute d inode block c (j :: rest))
      (points : d.ptr c ≠ 0) : OnRoute d inode block (.entry (d.ptr c) j) rest

/-- The pointers of an inode that are set stay. -/
def Device.PointersStay (d : Device) (use : Nat → Option Use) (d' : Device) (inode : Nat) : Prop :=
  ∀ c height, c.owner use = some (inode, height) → d.ptr c ≠ 0 → d'.ptr c = d.ptr c

namespace Device.OnRoute

theorem value (onRoute : d.OnRoute inode n c rest) : d.value c rest = d.zoneAt inode n := by
  induction onRoute with
  | root => rfl
  | next before points ih =>
      rw [Device.value, if_neg points] at ih
      exact ih

theorem owner (onRoute : d.OnRoute inode n c rest) (order : d.InOrder use) (small : n < maxBlocks) :
    c.owner use = some (inode, rest.length) ∧ ∀ j ∈ rest, j < 512 := by
  have route := route_isRoute small
  induction onRoute with
  | root => exact ⟨route.owner, route.inside⟩
  | next before points ih =>
      obtain ⟨owned, inside⟩ := ih
      exact ⟨order.owner_next owned points (inside _ List.mem_cons_self),
        fun i member => inside i (List.mem_cons_of_mem _ member)⟩

theorem stays (onRoute : d.OnRoute inode n c rest) (order : d.InOrder use) (small : n < maxBlocks)
    (stay : d.PointersStay use d' inode) : d'.OnRoute inode n c rest := by
  induction onRoute with
  | root => exact .root
  | next before points ih =>
      have same := stay _ _ (before.owner order small).1 points
      rw [← same] at points ⊢
      exact .next ih points

end Device.OnRoute

theorem value_stays (order : d.InOrder use) (stay : d.PointersStay use d' inode)
    (owned : c.owner use = some (inode, rest.length)) (inside : ∀ j ∈ rest, j < 512)
    (points : d.value c rest ≠ 0) : d'.value c rest = d.value c rest := by
  induction rest generalizing c with
  | nil => exact stay c _ owned points
  | cons j rest ih =>
      rw [Device.value] at points
      split at points
      · exact absurd rfl points
      · rename_i notNull
        rw [Device.value, Device.value, stay c _ owned notNull, if_neg notNull, if_neg notNull]
        exact ih (order.owner_next owned notNull (inside j List.mem_cons_self))
          (fun i member => inside i (List.mem_cons_of_mem j member)) points

/-- A block of a file stays where it is. -/
theorem zoneAt_stays (order : d.InOrder use) (small : n < maxBlocks)
    (stay : d.PointersStay use d' inode) (points : d.zoneAt inode n ≠ 0) :
    d'.zoneAt inode n = d.zoneAt inode n :=
  value_stays order stay (route_isRoute small).owner (route_isRoute small).inside points

/-! ## What a step leaves -/

/-- The blocks and the pointers of the inode stay. -/
structure Shared.Stays (s s' : Shared) (inode : Nat) : Prop where
  uses : ∀ zone height, s.use zone = some (.block inode height) →
    s'.use zone = some (.block inode height)
  pointers : s.device.PointersStay s.use s'.device inode

/-- And so do its contents. -/
structure Shared.Still (s s' : Shared) (inode : Nat) : Prop extends Shared.Stays s s' inode where
  contents : s'.device.contents inode = s.device.contents inode
  size : s'.device.iSize inode = s.device.iSize inode

namespace Shared

theorem still_of_device (device : s'.device = s.device) (use : s'.use = s.use) :
    s.Still s' inode where
  uses zone height used := use ▸ used
  pointers c height _ _ := by rw [device]
  contents := by rw [device]
  size := by rw [device]

theorem Still.refl : s.Still s inode := still_of_device rfl rfl

/-- Another step that changes only references. -/
theorem Still.then {s'' : Shared} (still : s.Still s' inode) (device : s''.device = s'.device)
    (use : s''.use = s'.use) : s.Still s'' inode where
  uses zone height used := use ▸ still.uses zone height used
  pointers c height owned points := device ▸ still.pointers c height owned points
  contents := device ▸ still.contents
  size := device ▸ still.size

theorem takeZone_still (task inode : Nat) (order : s.device.InOrder s.use) :
    s.Still (s.takeZone task).1 inode := by
  have bits (zmap : Nat → Bool) :
      (s.device.setBits zmap).contents inode = s.device.contents inode := by
    rw [order.contents_setBits]
  rcases Device.takeZone_cases order.reserved with ⟨zmap, taken, -⟩ | ⟨zone, taken, inside, clear⟩
  · rw [takeZone, taken]
    exact ⟨⟨fun _ _ used => used, fun _ _ _ _ => Device.ptr_setBits⟩, bits zmap, rfl⟩
  · rw [takeZone, taken]
    cases zone with
    | zero => exact absurd rfl inside.ne_zero
    | succ zone =>
        refine ⟨⟨fun other height used => ?_, fun _ _ _ _ => Device.ptr_setBits⟩, bits _, rfl⟩
        have different : other ≠ zone + 1 := by
          intro same
          rw [same, order.unused_of_clear clear] at used
          cases used
        exact (Function.update_of_ne different _ _).trans used

/-- A new block is stored where the pointer is null. -/
theorem store_still {owner height : Nat} (inode : Nat) (order : s.device.InOrder s.use)
    (owned : c.owner s.use = some (owner, height)) (used : s.use zone = some (.allocating task))
    (null : s.device.ptr c = 0) : s.Still (s.store owner height c zone) inode := by
  have fresh (inode height : Nat) : s.use zone ≠ some (.block inode height) := by simp [used]
  refine ⟨⟨fun other height' used' => ?_, fun c' height' owned' points => ?_⟩, ?_, ?_⟩
  · have different : other ≠ zone := fun same => fresh _ _ (same ▸ used')
    exact (Function.update_of_ne different _ _).trans used'
  · have notNew : c' ≠ c := fun same => points (same ▸ null)
    exact (Device.ptr_setPtr_of_ne notNew).trans (Device.ptr_clearBlock owned' fresh)
  · change (s.device.store c zone).contents inode = s.device.contents inode
    rw [order.contents_store owned null (by simp [used]) fresh]
  · cases c <;> rfl

end Shared

/-! ## `_bmap` on its way -/

/-- `_bmap` follows the route to block `n` of the inode. -/
def Bmap.OnWay (s : Shared) (inode n : Nat) (b : Bmap) (wait : BmapWait) : Prop :=
  b.inode = inode ∧ n < maxBlocks ∧
    match wait with
    | .release zone => zone ≠ 0 →
        s.device.OnRoute inode n b.c b.rest ∧ s.device.ptr b.c = zone
    | .alloc _ | .getting _ | .reading _ => s.device.OnRoute inode n b.c b.rest

def BmapOutcome.OnWay (s : Shared) (inode n : Nat) : BmapOutcome → Prop
  | .sleeps b wait => b.OnWay s inode n wait
  | .returns zone => zone ≠ 0 → n < maxBlocks ∧ s.device.zoneAt inode n = zone

/-- `_bmap` has come to a null pointer. -/
def BmapOutcome.Missed : BmapOutcome → Prop
  | .returns 0 | .sleeps _ (.release 0) => True
  | .returns _ | .sleeps .. => False

namespace Bmap

variable {b : Bmap}

theorem goOn_onWay (small : n < maxBlocks) (same : b.inode = inode)
    (leads : zone ≠ 0 → s.device.OnRoute inode n b.c b.rest ∧ s.device.ptr b.c = zone) :
    (b.goOn zone).OnWay s inode n ∧ ((b.goOn zone).Missed → zone = 0) := by
  unfold goOn
  cases route : b.rest with
  | nil =>
      refine ⟨fun notNull => ⟨small, ?_⟩, fun missed => ?_⟩
      · obtain ⟨onRoute, points⟩ := leads notNull
        rw [route] at onRoute
        exact onRoute.value.symm.trans points
      · cases zone with
        | zero => rfl
        | succ zone => cases missed
  | cons j rest =>
      dsimp only
      split
      · rename_i null
        exact ⟨fun notNull => absurd rfl notNull, fun _ => null⟩
      · rename_i notNull
        obtain ⟨onRoute, points⟩ := leads notNull
        rw [route] at onRoute
        subst points
        exact ⟨⟨same, small, .next onRoute notNull⟩, fun missed => nomatch missed⟩

theorem found_onWay (small : n < maxBlocks) (same : b.inode = inode)
    (leads : zone ≠ 0 → s.device.OnRoute inode n b.c b.rest ∧ s.device.ptr b.c = zone) :
    (b.found zone).OnWay s inode n ∧ ((b.found zone).Missed → zone = 0) := by
  unfold found
  split
  · exact goOn_onWay small same leads
  · refine ⟨⟨same, small, leads⟩, fun missed => ?_⟩
    cases zone with
    | zero => rfl
    | succ zone => cases missed

theorem look_still (inode : Nat) (order : s.device.InOrder s.use) :
    s.Still (b.look s task).1 inode := by
  have still := Shared.takeZone_still task inode order
  unfold look
  split
  · split
    · rename_i taken
      rwa [taken] at still
    · rename_i taken
      rwa [taken] at still
  · exact .refl

theorem look_onWay (b : Bmap) (order : s.device.InOrder s.use) (small : n < maxBlocks) (same : b.inode = inode)
    (onRoute : s.device.OnRoute inode n b.c b.rest) :
    (b.look s task).2.OnWay (b.look s task).1 inode n ∧
      (b.create = false → (b.look s task).2.Missed → s.device.zoneAt inode n = 0) := by
  have still := Shared.takeZone_still task inode order
  unfold look
  split
  · rename_i creates
    have notCreates : b.create ≠ false := by simp [creates.1]
    split
    · rename_i s₁ taken
      have ended := found_onWay (s := s₁) small same fun notNull => absurd rfl notNull
      exact ⟨ended.1, fun not => absurd not notCreates⟩
    · rename_i s₁ zone notNull taken
      rw [taken] at still
      exact ⟨⟨same, small, onRoute.stays order small still.pointers⟩,
        fun not => absurd not notCreates⟩
  · obtain ⟨onWay, missed⟩ := found_onWay small same fun _ => ⟨onRoute, rfl⟩
    refine ⟨onWay, fun _ isMissed => ?_⟩
    exact onRoute.value.symm.trans (value_of_ptr_zero (missed isMissed))

/-- The indirect block that `bread` gets belongs to the inode. -/
theorem OnWay.current {wait : BmapWait} (onWay : b.OnWay s inode n wait)
    (keeps : b.Keeps s task strict wait) (order : s.device.InOrder s.use) : b.Current s wait := by
  obtain ⟨same, small, onRoute⟩ := onWay
  cases wait with
  | getting zone =>
      obtain ⟨j, inside, isEntry⟩ := keeps.2
      have owned := (Device.OnRoute.owner onRoute order small).1
      rw [isEntry] at owned
      rw [Current, same]
      exact (of_owner_entry owned).1
  | alloc zone => trivial
  | release zone => trivial
  | reading zone => trivial

theorem resume_still {wait : BmapWait} {ok : Bool} {result : Shared × BmapOutcome} (inode : Nat)
    (order : s.device.InOrder s.use) (keeps : b.Keeps s task strict wait)
    (null : ∀ zone, wait = .alloc zone → s.device.ptr b.c = 0)
    (resumed : b.resume s task ok wait = some result) : s.Still result.1 inode := by
  cases wait with
  | alloc zone =>
      rw [resume] at resumed
      split at resumed
      · cases resumed
        obtain ⟨creates, pinned, used⟩ := keeps.2
        exact Shared.store_still inode order pinned.owner used (null zone rfl)
      · cases resumed
  | release zone =>
      rw [resume] at resumed
      split at resumed
      · cases resumed
        exact Shared.still_of_device rfl rfl
      · cases resumed
  | getting zone =>
      cases resumed
      exact Shared.still_of_device rfl rfl
  | reading zone =>
      rw [resume] at resumed
      split at resumed
      · cases resumed
        exact look_still inode order
      · cases resumed
        exact Shared.still_of_device rfl rfl

theorem resume_onWay {wait : BmapWait} {ok : Bool} {result : Shared × BmapOutcome}
    (order : s.device.InOrder s.use) (keeps : b.Keeps s task strict wait)
    (onWay : b.OnWay s inode n wait) (null : ∀ zone, wait = .alloc zone → s.device.ptr b.c = 0)
    (resumed : b.resume s task ok wait = some result) :
    result.2.OnWay result.1 inode n ∧
      (b.create = false → (∀ zone, wait = .reading zone → ok = true) → wait ≠ .release 0 →
        result.2.Missed → s.device.zoneAt inode n = 0) := by
  obtain ⟨same, small, onRoute⟩ := onWay
  cases wait with
  | alloc zone =>
      have still := resume_still inode order keeps null resumed
      rw [resume] at resumed
      split at resumed
      · cases resumed
        obtain ⟨creates, pinned, used⟩ := keeps.2
        have self : (s.device.store b.c zone).ptr b.c = zone :=
          Device.ptr_setPtr_self (order.lt_65536 (by simp [used]))
        have onRoute := Device.OnRoute.stays onRoute order small still.pointers
        refine ⟨(found_onWay small same fun _ => ⟨onRoute, self⟩).1, fun not => ?_⟩
        rw [creates] at not
        cases not
      · cases resumed
  | release zone =>
      rw [resume] at resumed
      split at resumed
      · cases resumed
        have went := goOn_onWay (s := s) small same onRoute
        refine ⟨went.1, fun _ _ notNull missed => ?_⟩
        exact absurd (congrArg BmapWait.release (went.2 missed)) notNull
      · cases resumed
  | getting zone =>
      cases resumed
      exact ⟨⟨same, small, onRoute⟩, fun _ _ _ missed => by cases missed⟩
  | reading zone =>
      rw [resume] at resumed
      split at resumed
      · cases resumed
        exact (look_onWay { b with held := some zone } order small same onRoute).imp id
          fun missed not _ _ isMissed => missed not isMissed
      · rename_i failed
        cases resumed
        refine ⟨fun notNull => absurd rfl notNull, fun _ reads => ?_⟩
        exact absurd (reads zone rfl) failed

theorem start_onWay {create : Bool} {result : Shared × BmapOutcome}
    (order : s.device.InOrder s.use) (started : start s task create inode n = some result) :
    (∀ inode', s.Still result.1 inode') ∧ result.2.OnWay result.1 inode n ∧
      (create = false → result.2.Missed → s.device.zoneAt inode n = 0) := by
  unfold start at started
  split at started
  · rename_i small
    cases started
    exact ⟨fun inode' => look_still inode' order, look_onWay _ order small rfl .root⟩
  · cases started

theorem OnWay.stays {wait : BmapWait} (onWay : b.OnWay s inode n wait)
    (order : s.device.InOrder s.use) (keeps : b.Keeps s task strict wait)
    (stays : s.Stays s' inode) : b.OnWay s' inode n wait := by
  obtain ⟨same, small, onRoute⟩ := onWay
  refine ⟨same, small, ?_⟩
  cases wait with
  | release zone =>
      intro notNull
      obtain ⟨onRoute, points⟩ := onRoute notNull
      have owned := (onRoute.owner order small).1
      refine ⟨onRoute.stays order small stays.pointers, ?_⟩
      rw [stays.pointers b.c _ owned (points ▸ notNull)]
      exact points
  | alloc zone => exact Device.OnRoute.stays onRoute order small stays.pointers
  | getting zone => exact Device.OnRoute.stays onRoute order small stays.pointers
  | reading zone => exact Device.OnRoute.stays onRoute order small stays.pointers

end Bmap

/-! ## From block to block -/

namespace Creates

/-- The zone is block `n` of the directory. -/
def AtBlock (s : Shared) (dir zone n : Nat) : Prop :=
  n < maxBlocks ∧ zone ≠ 0 ∧ s.device.zoneAt dir n = zone

theorem AtBlock.stays (at' : AtBlock s dir zone n) (order : s.device.InOrder s.use)
    (stays : s.Stays s' dir) : AtBlock s' dir zone n := by
  obtain ⟨small, notNull, same⟩ := at'
  have points : s.device.zoneAt dir n ≠ 0 := same ▸ notNull
  exact ⟨small, notNull, (zoneAt_stays order small stays.pointers points).trans same⟩

/-- The block is data of the directory. -/
theorem AtBlock.used (at' : AtBlock s dir zone n) (order : s.device.InOrder s.use) :
    s.use zone = some (.block dir 0) := by
  obtain ⟨small, notNull, same⟩ := at'
  subst same
  exact order.zoneAt_use small notNull

namespace Walk

/-- What `find_entry`, with a limit, and `add_entry` rely on between two blocks. -/
def Ok (s : Shared) (task dir : Nat) (limit : Option Nat) : Walk → Prop
  | .first | .leaving .. | .skipped _ => True
  | .getting zone n | .reading zone n => AtBlock s dir zone n
  | .mapping b wait n =>
      b.Keeps s task false wait ∧ b.create = limit.isNone ∧ b.OnWay s dir n wait

/-- The first slot that is still to be looked at. -/
def ahead : Walk → Nat
  | .first => 0
  | .getting _ n | .reading _ n | .leaving _ n | .skipped n => entriesPerBlock * n
  | .mapping _ (.release 0) n => entriesPerBlock * (n + 1)
  | .mapping _ _ n => entriesPerBlock * n

theorem ahead_mapping {b : Bmap} {wait : BmapWait} (notOver : wait ≠ .release 0) :
    (Walk.mapping b wait n).ahead = entriesPerBlock * n := by
  cases wait with
  | release zone =>
      cases zone with
      | zero => exact absurd rfl notOver
      | succ zone => rfl
  | alloc zone => rfl
  | getting zone => rfl
  | reading zone => rfl

/-- A block of the directory is read without an error. -/
def reads (ok : Bool) : Walk → Bool
  | .reading .. | .mapping _ (.reading _) _ => ok
  | _ => true

/-- A new block is stored where the pointer is null. -/
def storesAtNull (s : Shared) : Walk → Bool
  | .mapping b (.alloc _) _ => s.device.ptr b.c == 0
  | _ => true

theorem Ok.stays {walk : Walk} {limit : Option Nat} {mover : Option Nat}
    (ok : walk.Ok s task dir limit) (order : s.device.InOrder s.use)
    (step : s.Step mover s') (other : some task ≠ mover) (stays : s.Stays s' dir) :
    walk.Ok s' task dir limit := by
  cases walk with
  | first => trivial
  | leaving zone n => trivial
  | skipped n => trivial
  | getting zone n => exact AtBlock.stays ok order stays
  | reading zone n => exact AtBlock.stays ok order stays
  | mapping b wait n =>
      obtain ⟨keeps, creates, onWay⟩ := ok
      exact ⟨keeps.stable step other, creates, onWay.stays order keeps stays⟩

end Walk

def WalkOutcome.Ok (s : Shared) (task dir : Nat) (limit : Option Nat) : WalkOutcome → Prop
  | .goes walk => walk.Ok s task dir limit
  | .arrives zone n => AtBlock s dir zone n
  | .ends => True

def WalkOutcome.ahead (entries : Nat) : WalkOutcome → Nat
  | .goes walk => walk.ahead
  | .arrives _ n => entriesPerBlock * n
  | .ends => entries

/-- The slots between two places of a search are free. -/
def Passes (s : Shared) (dir entries first last : Nat) : Prop :=
  ∀ k, first ≤ k → k < entries → k < last → s.device.slotInode dir k = 0

theorem passes_nothing {entries first last : Nat} (done : last ≤ first ∨ entries ≤ first) :
    Passes s dir entries first last := by
  intro k above inside below
  omega

theorem passes_hole {entries : Nat} (hole : s.device.zoneAt dir n = 0) :
    Passes s dir entries (entriesPerBlock * n) (entriesPerBlock * (n + 1)) := by
  intro k above inside below
  have inBlock : k - entriesPerBlock * n < entriesPerBlock := by
    rw [Nat.mul_succ] at below
    omega
  have place : entriesPerBlock * n + (k - entriesPerBlock * n) = k := by omega
  exact place ▸ slotInode_of_hole hole inBlock

/-- What a step of a walk does. -/
structure Walked (s : Shared) (task dir : Nat) (limit : Option Nat)
    (result : Shared × WalkOutcome) : Prop where
  step : s.Step (some task) result.1
  still : ∀ inode, s.Still result.1 inode
  ok : result.2.Ok result.1 task dir limit

namespace Walk

variable {limit : Option Nat} {walk : Walk} {ok : Bool} {result : Shared × WalkOutcome}

theorem mapped_walked {outcome : Shared × BmapOutcome} (step : s.Step (some task) outcome.1)
    (still : ∀ inode, s.Still outcome.1 inode)
    (keeps : outcome.2.Keeps outcome.1 task false limit.isNone dir)
    (onWay : outcome.2.OnWay outcome.1 dir n) :
    Walked s task dir limit (mapped limit n outcome) := by
  obtain ⟨s₁, outcome⟩ := outcome
  cases outcome with
  | sleeps b wait => exact ⟨step, still, keeps.1, keeps.2.1, onWay⟩
  | returns zone =>
      cases zone with
      | zero =>
          refine ⟨step, still, ?_⟩
          change WalkOutcome.Ok s₁ task dir limit (if limit.isNone then _ else _)
          split
          · trivial
          · trivial
      | succ zone =>
          obtain ⟨small, same⟩ := onWay (Nat.succ_ne_zero zone)
          exact ⟨step, still, small, Nat.succ_ne_zero zone, same⟩

theorem mapped_passes {outcome : Shared × BmapOutcome} {entries : Nat}
    (hole : outcome.2.Missed → s.device.zoneAt dir n = 0) :
    Passes s dir entries (entriesPerBlock * n)
      ((mapped (some entries) n outcome).2.ahead entries) := by
  obtain ⟨s₁, outcome⟩ := outcome
  have rest : Passes s dir entries (entriesPerBlock * n) (entriesPerBlock * n) :=
    passes_nothing (.inl (Nat.le_refl _))
  cases outcome with
  | sleeps b wait =>
      cases wait with
      | release zone =>
          cases zone with
          | zero => exact passes_hole (hole trivial)
          | succ zone => exact rest
      | alloc zone => exact rest
      | getting zone => exact rest
      | reading zone => exact rest
  | returns zone =>
      cases zone with
      | zero => exact passes_hole (hole trivial)
      | succ zone => exact rest

theorem map_walked (order : s.device.InOrder s.use)
    (mapped : map s task dir limit n = some result) : Walked s task dir limit result := by
  obtain ⟨outcome, started, built⟩ := Option.map_eq_some_iff.mp mapped
  obtain ⟨step, keeps⟩ := Bmap.start_step order started
  obtain ⟨still, onWay, -⟩ := Bmap.start_onWay order started
  exact built ▸ mapped_walked step still keeps onWay

theorem map_passes {entries : Nat} (order : s.device.InOrder s.use)
    (mapped : map s task dir (some entries) n = some result) :
    Passes s dir entries (entriesPerBlock * n) (result.2.ahead entries) := by
  obtain ⟨outcome, started, built⟩ := Option.map_eq_some_iff.mp mapped
  obtain ⟨-, -, hole⟩ := Bmap.start_onWay order started
  exact built ▸ mapped_passes (hole rfl)

/-- A step that changes only references comes before. -/
theorem Walked.after {s₁ : Shared} (walked : Walked s₁ task dir limit result)
    (refs : ∀ other zone, other ≠ task → (other, zone) ∈ s.refs → (other, zone) ∈ s₁.refs)
    (device : s₁.device = s.device) (use : s₁.use = s.use) : Walked s task dir limit result where
  step := {
    order := walked.step.order
    refs := fun other zone different there => walked.step.refs other zone different
      (refs other zone (Shared.ne_of_some_ne different) there)
    uses := fun zone inode height used => by
      rcases walked.step.uses zone inode height (use ▸ used) with same | unreferenced
      · exact .inl same
      · refine .inr fun other different there => unreferenced other different ?_
        exact refs other zone (Shared.ne_of_some_ne different) there
    allocating := fun zone other different used =>
      walked.step.allocating zone other different (use ▸ used)
    only := fun zone inode height c used used' only => by
      refine walked.step.only zone inode height c (use ▸ used) used' ?_
      rw [Shared.Only, device, use]
      exact only }
  still := fun inode => {
    uses := fun zone height used => (walked.still inode).uses zone height (use ▸ used)
    pointers := fun c height owned points => by
      rw [← device] at points ⊢
      exact (walked.still inode).pointers c height (use ▸ owned) points
    contents := device ▸ (walked.still inode).contents
    size := device ▸ (walked.still inode).size }
  ok := walked.ok

theorem resume_walked (order : s.device.InOrder s.use) (isOk : walk.Ok s task dir limit)
    (null : walk.storesAtNull s = true) (resumed : walk.resume s task dir limit ok = some result) :
    Walked s task dir limit result := by
  have refl : s.Step (some task) s := .refl order
  cases walk with
  | first =>
      rw [resume] at resumed
      split at resumed
      · cases resumed
        exact ⟨refl, fun _ => .refl, trivial⟩
      · rename_i zone notNull
        cases resumed
        exact ⟨refl, fun _ => .refl, by decide, notNull, rfl⟩
  | getting zone n =>
      cases resumed
      exact ⟨refl.take, fun _ => Shared.still_of_device rfl rfl, isOk⟩
  | reading zone n =>
      rw [resume] at resumed
      split at resumed
      · cases resumed
        exact ⟨refl, fun _ => .refl, isOk⟩
      · cases resumed
        refine ⟨refl.drop, fun _ => Shared.still_of_device rfl rfl, ?_⟩
        dsimp only
        split
        · trivial
        · trivial
  | leaving zone n =>
      refine Walked.after (map_walked (s := s.drop task zone) order resumed) ?_ rfl rfl
      exact fun other zone' different there => Shared.mem_drop_of_ne different there
  | mapping b wait n =>
      obtain ⟨keeps, creates, onWay⟩ := isOk
      obtain ⟨outcome, went, built⟩ := Option.map_eq_some_iff.mp resumed
      have current := onWay.current keeps order
      obtain ⟨step, keeps'⟩ := Bmap.resume_step order keeps (fun _ => current) went
      rw [creates, onWay.1] at keeps'
      have stores (zone : Nat) (isAlloc : wait = .alloc zone) : s.device.ptr b.c = 0 := by
        rw [isAlloc] at null
        exact eq_of_beq null
      obtain ⟨onWay', -⟩ := Bmap.resume_onWay order keeps onWay stores went
      have still (inode : Nat) := Bmap.resume_still inode order keeps stores went
      exact built ▸ mapped_walked step still keeps' onWay'
  | skipped n =>
      unfold resume at resumed
      dsimp only at resumed
      split at resumed
      · split at resumed
        · cases resumed
          exact ⟨refl, fun _ => .refl, trivial⟩
        · exact map_walked order resumed
      · exact map_walked order resumed

/-- `find_entry` passes over no slot that is in use. -/
theorem resume_passes {entries : Nat} (order : s.device.InOrder s.use)
    (rooted : s.device.iZone dir 0 ≠ 0) (isOk : walk.Ok s task dir (some entries))
    (reads : walk.reads ok = true)
    (resumed : walk.resume s task dir (some entries) ok = some result) :
    Passes s dir entries walk.ahead (result.2.ahead entries) := by
  cases walk with
  | first =>
      rw [resume] at resumed
      split at resumed
      · rename_i null
        exact absurd null rooted
      · cases resumed
        exact passes_nothing (.inl (Nat.le_refl _))
  | getting zone n =>
      cases resumed
      exact passes_nothing (.inl (Nat.le_refl _))
  | reading zone n =>
      have done : ok = true := reads
      rw [resume, if_pos done] at resumed
      cases resumed
      exact passes_nothing (.inl (Nat.le_refl _))
  | leaving zone n => exact map_passes (s := s.drop task zone) order resumed
  | mapping b wait n =>
      obtain ⟨keeps, creates, onWay⟩ := isOk
      obtain ⟨outcome, went, built⟩ := Option.map_eq_some_iff.mp resumed
      have stores (zone : Nat) (isAlloc : wait = .alloc zone) : s.device.ptr b.c = 0 := by
        have mayStore := keeps.2
        rw [isAlloc] at mayStore
        rw [creates] at mayStore
        cases mayStore.1
      obtain ⟨-, hole⟩ := Bmap.resume_onWay order keeps onWay stores went
      by_cases past : wait = .release 0
      · subst past
        rw [Bmap.resume] at went
        split at went
        · cases went
          have goes : b.goOn 0 = .returns 0 := by
            unfold Bmap.goOn
            split
            · rfl
            · rfl
          rw [goes] at built
          subst built
          exact passes_nothing (.inl (Nat.le_refl _))
        · cases went
      · have read (zone : Nat) (isReading : wait = .reading zone) : ok = true := by
          rw [isReading] at reads
          exact reads
        rw [ahead_mapping past]
        exact built ▸ mapped_passes (hole creates read past)
  | skipped n =>
      unfold resume at resumed
      dsimp only at resumed
      split at resumed
      · rename_i past
        exact passes_nothing (.inr past)
      · exact map_passes order resumed

end Walk

end Creates

end Linux012.Zones
