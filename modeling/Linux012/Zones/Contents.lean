import Linux012.Zones.Uses

/-!
# The contents of a file

A block of a file is found along the pointers of its route.  On a device that is in order
no two positions of files share a byte, a fresh block of zeros is as good as a hole, and
what is done to the zones of one inode does not change another one.
-/

namespace Linux012.Zones

namespace Device

variable (d : Device)

/-- The zone that a pointer leads to along `rest`, 0 for a hole. -/
def value : Cell → List Nat → Nat
  | c, [] => d.ptr c
  | c, j :: rest => if d.ptr c = 0 then 0 else value (.entry (d.ptr c) j) rest

/-- The zone of a block of a file. -/
def zoneAt (inode block : Nat) : Nat := d.value (.zone inode (route block).1) (route block).2

/-- The byte at a position of a file. -/
def byteAt (inode pos : Nat) : UInt8 :=
  if d.zoneAt inode (pos / blockSize) = 0 then 0
  else d.data (d.zoneAt inode (pos / blockSize)) (pos % blockSize)

/-- The bytes of a file up to the maximum size. -/
def contents (inode pos : Nat) : UInt8 := if pos < maxSize then d.byteAt inode pos else 0

end Device

variable {d d' : Device} {use : Nat → Option Use} {c : Cell}
variable {inode inode' height block block' zone j k k' pos : Nat} {rest rest' : List Nat}

theorem lt_maxSize_iff : pos < maxSize ↔ pos / blockSize < maxBlocks :=
  (Nat.div_lt_iff_lt_mul (by decide)).symm

/-! ## Routes -/

/-- A route begins in `i_zone`, at a pointer as high as the route is long. -/
structure IsRoute (k : Nat) (rest : List Nat) : Prop where
  root : k < 9
  length : k - 6 = rest.length
  inside : ∀ j ∈ rest, j < 512

theorem route_isRoute (small : block < maxBlocks) :
    IsRoute (Device.route block).1 (Device.route block).2 := by
  unfold Device.route
  split
  · rename_i direct
    exact ⟨by dsimp only; omega, by simp; omega, by simp⟩
  · split
    · exact ⟨by simp, rfl, by simpa⟩
    · refine ⟨by simp, rfl, fun j member => ?_⟩
      have bound : (block - 7 - 512) / 512 < 512 ∧ (block - 7 - 512) % 512 < 512 := by
        simp only [maxBlocks] at small
        omega
      simp only [List.mem_cons, List.not_mem_nil, or_false] at member
      rcases member with first | second
      · exact first ▸ bound.1
      · exact second ▸ bound.2

theorem route_injective (same : Device.route block = Device.route block') : block = block' := by
  unfold Device.route at same
  split at same <;> split at same <;> (try split at same) <;> (try split at same) <;>
    simp only [Prod.mk.injEq, List.cons.injEq, List.nil_eq, reduceCtorEq, and_true, and_false] at same <;>
    omega

theorem IsRoute.owner (route : IsRoute k rest) :
    (Cell.zone inode k).owner use = some (inode, rest.length) := by
  rw [owner_zone route.root, route.length]

/-! ## Values -/

theorem value_of_ptr_zero (null : d.ptr c = 0) : d.value c rest = 0 := by
  cases rest with
  | nil => exact null
  | cons j rest => simp [Device.value, null]

theorem value_concat : d.value c (rest ++ [j]) =
    if d.value c rest = 0 then 0 else d.word (d.value c rest) j := by
  induction rest generalizing c with
  | nil => rfl
  | cons i rest ih =>
      rw [List.cons_append, Device.value, Device.value]
      split
      · rfl
      · exact ih

/-- The use of the zone at the end of a route. -/
theorem Device.InOrder.value_use (order : d.InOrder use)
    (owned : c.owner use = some (inode, rest.length + height)) (inside : ∀ j ∈ rest, j < 512)
    (points : d.value c rest ≠ 0) : use (d.value c rest) = some (.block inode height) := by
  induction rest generalizing c with
  | nil =>
      rw [List.length_nil, Nat.zero_add] at owned
      exact order.points c inode height owned points
  | cons j rest ih =>
      rw [Device.value] at points ⊢
      split at points
      · exact absurd rfl points
      · rename_i notNull
        rw [if_neg notNull]
        have owned' : c.owner use = some (inode, rest.length + height + 1) := by
          rw [owned, List.length_cons, Nat.add_right_comm]
        exact ih (order.owner_next owned' notNull (inside j List.mem_cons_self))
          (fun i member => inside i (List.mem_cons_of_mem j member)) points

theorem Device.InOrder.zoneAt_use (order : d.InOrder use) (small : block < maxBlocks)
    (points : d.zoneAt inode block ≠ 0) :
    use (d.zoneAt inode block) = some (.block inode 0) :=
  order.value_use (route_isRoute small).owner (route_isRoute small).inside points

/-- A zone is at the end of one route only. -/
theorem Device.InOrder.value_injective (order : d.InOrder use)
    (owned : (Cell.zone inode k).owner use = some (inode, rest.length + height))
    (owned' : (Cell.zone inode' k').owner use = some (inode', rest'.length + height))
    (inside : ∀ j ∈ rest, j < 512) (inside' : ∀ j ∈ rest', j < 512)
    (points : d.value (.zone inode k) rest ≠ 0)
    (same : d.value (.zone inode k) rest = d.value (.zone inode' k') rest') :
    inode = inode' ∧ k = k' ∧ rest = rest' := by
  -- the last pointers of the routes are the same; backwards from there
  induction rest using List.reverseRecOn generalizing rest' height with
  | nil =>
      induction rest' using List.reverseRecOn with
      | nil =>
          have equal := order.once _ _ (by simp [owned]) (by simp [owned']) same points
          cases equal
          exact ⟨rfl, rfl, rfl⟩
      | append_singleton rest' j' _ =>
          rw [value_concat] at same
          split at same
          · exact absurd same points
          · rename_i points'
            have longer : (Cell.zone inode' k').owner use =
                some (inode', rest'.length + (height + 1)) := by
              rw [owned', List.length_append, List.length_singleton, Nat.add_assoc, Nat.add_comm 1]
            have used := order.value_use longer
              (fun i member => inside' i (List.mem_append_left [j'] member)) points'
            have there := owner_entry used (inside' j' (by simp))
            have equal := order.once (.zone inode k) (.entry _ j') (by simp [owned])
              (by simp [there]) same points
            cases equal
  | append_singleton rest j ih =>
      rw [value_concat] at same points
      split at points
      · exact absurd rfl points
      rename_i before
      rw [if_neg before] at same
      have owned₁ : (Cell.zone inode k).owner use = some (inode, rest.length + (height + 1)) := by
        rw [owned, List.length_append, List.length_singleton, Nat.add_assoc, Nat.add_comm 1]
      have inside₁ : ∀ i ∈ rest, i < 512 := fun i member =>
        inside i (List.mem_append_left [j] member)
      have here := owner_entry (order.value_use owned₁ inside₁ before) (inside j (by simp))
      induction rest' using List.reverseRecOn with
      | nil =>
          have equal := order.once (.entry _ j) (.zone inode' k') (by simp [here])
            (by simp [owned']) same points
          cases equal
      | append_singleton rest' j' _ =>
          rw [value_concat] at same
          split at same
          · exact absurd same points
          rename_i before'
          have owned₂ : (Cell.zone inode' k').owner use =
              some (inode', rest'.length + (height + 1)) := by
            rw [owned', List.length_append, List.length_singleton, Nat.add_assoc, Nat.add_comm 1]
          have inside₂ : ∀ i ∈ rest', i < 512 := fun i member =>
            inside' i (List.mem_append_left [j'] member)
          have there := owner_entry (order.value_use owned₂ inside₂ before')
            (inside' j' (by simp))
          have equal := order.once (.entry _ j) (.entry _ j') (by simp [here]) (by simp [there])
            same points
          obtain ⟨sameBlock, sameEntry⟩ := Cell.entry.inj equal
          obtain ⟨sameInode, sameRoot, sameRest⟩ := ih owned₁ owned₂ inside₁ inside₂ before sameBlock
          exact ⟨sameInode, sameRoot, by rw [sameRest, sameEntry]⟩

/-- Two blocks of files are not in one zone. -/
theorem Device.InOrder.zoneAt_injective (order : d.InOrder use) (small : block < maxBlocks)
    (small' : block' < maxBlocks) (points : d.zoneAt inode block ≠ 0)
    (same : d.zoneAt inode block = d.zoneAt inode' block') :
    inode = inode' ∧ block = block' := by
  have route := route_isRoute small
  have route' := route_isRoute small'
  have owned : (Cell.zone inode (Device.route block).1).owner use =
      some (inode, (Device.route block).2.length + 0) := route.owner
  obtain ⟨sameInode, sameRoot, sameRest⟩ := order.value_injective owned route'.owner
    route.inside route'.inside points same
  exact ⟨sameInode, route_injective (Prod.ext sameRoot sameRest)⟩

/-! ## What changes the contents -/

theorem Device.InOrder.value_congr (order : d.InOrder use)
    (pointers : ∀ c height, c.owner use = some (inode, height) → d'.ptr c = d.ptr c)
    (owned : c.owner use = some (inode, rest.length)) (inside : ∀ j ∈ rest, j < 512) :
    d'.value c rest = d.value c rest := by
  induction rest generalizing c with
  | nil => exact pointers c _ owned
  | cons j rest ih =>
      rw [Device.value, Device.value, pointers c _ owned]
      split
      · rfl
      · rename_i points
        exact ih (order.owner_next owned points (inside j List.mem_cons_self))
          fun i member => inside i (List.mem_cons_of_mem j member)

/-- A file keeps its contents if its pointers and its data blocks stay. -/
theorem Device.InOrder.byteAt_congr (order : d.InOrder use)
    (pointers : ∀ c height, c.owner use = some (inode, height) → d'.ptr c = d.ptr c)
    (data : ∀ zone, use zone = some (.block inode 0) → d'.data zone = d.data zone)
    (small : pos / blockSize < maxBlocks) : d'.byteAt inode pos = d.byteAt inode pos := by
  have route := route_isRoute small
  have same : d'.zoneAt inode (pos / blockSize) = d.zoneAt inode (pos / blockSize) :=
    order.value_congr pointers route.owner route.inside
  rw [byteAt, byteAt, same]
  split
  · rfl
  · rename_i points
    rw [data _ (order.zoneAt_use small points)]

/-- A route leads to the same zone as before, or through the new pointer to the new one. -/
theorem Device.InOrder.value_attach {new : Cell} (order : d.InOrder use) (null : d.ptr new = 0)
    (small : zone < 65536) (empty : ∀ j, d.word zone j = 0)
    (fresh : ∀ j, new ≠ .entry zone j) (owned : c.owner use = some (inode, rest.length))
    (inside : ∀ j ∈ rest, j < 512) :
    (d.setPtr new zone).value c rest = d.value c rest ∨
      d.value c rest = 0 ∧ (d.setPtr new zone).value c rest = zone := by
  induction rest generalizing c with
  | nil =>
      by_cases here : c = new
      · subst here
        exact .inr ⟨null, ptr_setPtr_self small⟩
      · exact .inl (ptr_setPtr_of_ne here)
  | cons j rest ih =>
      by_cases here : c = new
      · subst here
        left
        have next : (d.setPtr c zone).ptr (.entry zone j) = 0 := by
          rw [ptr_setPtr_of_ne fun same => fresh j same.symm]
          exact empty j
        rw [Device.value, Device.value, if_pos null, ptr_setPtr_self small]
        split
        · rfl
        · exact value_of_ptr_zero next
      · rw [Device.value, Device.value, ptr_setPtr_of_ne here]
        split
        · exact .inl rfl
        · rename_i points
          exact ih (order.owner_next owned points (inside j List.mem_cons_self))
            fun i member => inside i (List.mem_cons_of_mem j member)

/-- The data of a block that is no indirect block is not changed with a pointer. -/
theorem Device.data_setPtr {new : Cell} {owner : Nat × Nat} {v : Nat}
    (owned : new.owner use = some owner)
    (leaf : ∀ inode height, use zone ≠ some (.block inode (height + 1))) :
    (d.setPtr new v).data zone = d.data zone := by
  cases new with
  | zone inode k => rfl
  | entry block j =>
      have different : zone ≠ block := by
        intro same
        exact leaf owner.1 owner.2 (same ▸ (of_owner_entry owned).1)
      simp [setPtr, setByte, different]

/-- The task stores the number of the zone that it has cleared. -/
def Device.store (d : Device) (c : Cell) (zone : Nat) : Device :=
  (d.clearBlock zone).setPtr c zone

theorem Device.InOrder.clearBlock (order : d.InOrder use)
    (fresh : ∀ inode height, use zone ≠ some (.block inode height)) :
    (d.clearBlock zone).InOrder use :=
  order.data fun inode height => fresh inode (height + 1)

theorem Device.ptr_clearBlock (owned : c.owner use = some (inode, height))
    (fresh : ∀ inode height, use zone ≠ some (.block inode height)) :
    (d.clearBlock zone).ptr c = d.ptr c := by
  cases c with
  | zone inode k => rfl
  | entry block j =>
      have different : block ≠ zone := by
        intro same
        exact fresh inode (height + 1) (same ▸ (of_owner_entry owned).1)
      exact word_clearBlock_of_ne different

theorem Device.InOrder.store (order : d.InOrder use) (owned : c.owner use = some (inode, height))
    (used : (use zone).isSome) (fresh : ∀ inode height, use zone ≠ some (.block inode height)) :
    (d.store c zone).InOrder (Function.update use zone (some (.block inode height))) :=
  (order.clearBlock fresh).attach owned used fresh fun _ => word_clearBlock_self

theorem Device.data_store {new : Cell} {owner : Nat × Nat} {z : Nat}
    (owned : new.owner use = some owner)
    (fresh : ∀ inode height, use zone ≠ some (.block inode height))
    (used : use z = some (.block inode 0)) : (d.store new zone).data z = d.data z := by
  have different : z ≠ zone := fun same => fresh inode 0 (same ▸ used)
  rw [Device.store, data_setPtr owned (by simp [used]), data_clearBlock_of_ne different]

/-- A fresh block does not change the contents of any file. -/
theorem Device.InOrder.byteAt_store {new : Cell} {owner : Nat × Nat} (order : d.InOrder use)
    (owned : new.owner use = some owner) (null : d.ptr new = 0) (used : (use zone).isSome)
    (fresh : ∀ inode height, use zone ≠ some (.block inode height))
    (small : pos / blockSize < maxBlocks) :
    (d.store new zone).byteAt inode pos = d.byteAt inode pos := by
  have cleared := order.clearBlock fresh
  have route := route_isRoute small
  have before : (d.clearBlock zone).zoneAt inode (pos / blockSize) =
      d.zoneAt inode (pos / blockSize) :=
    order.value_congr (fun c height owned => ptr_clearBlock owned fresh) route.owner
      route.inside
  have notEntry (j : Nat) : new ≠ .entry zone j := by
    intro same
    exact fresh _ _ (of_owner_entry (same ▸ owned)).1
  have start : (Cell.zone inode (Device.route (pos / blockSize)).1).owner use =
      some (inode, (Device.route (pos / blockSize)).2.length) := route.owner
  have led := cleared.value_attach ((ptr_clearBlock owned fresh).trans null)
    (order.lt_65536 used) (fun _ => word_clearBlock_self) notEntry start route.inside
  have zeros : (d.store new zone).data zone = fun _ => 0 := by
    rw [Device.store, data_setPtr owned fun inode height => fresh inode (height + 1)]
    simp [Device.clearBlock]
  rcases led with same | ⟨hole, new⟩
  · have same : (d.store _ zone).zoneAt inode (pos / blockSize) =
        d.zoneAt inode (pos / blockSize) := same.trans before
    rw [byteAt, byteAt, same]
    split
    · rfl
    · rename_i points
      rw [data_store owned fresh (order.zoneAt_use small points)]
  · have hole : d.zoneAt inode (pos / blockSize) = 0 := before.symm.trans hole
    have new : (d.store _ zone).zoneAt inode (pos / blockSize) = zone := new
    rw [byteAt, byteAt, hole, new, zeros]
    simp

/-- A byte that is stored in a data block is the byte at its position, and no other. -/
theorem Device.InOrder.byteAt_setByte {byte : UInt8} {offset : Nat} (order : d.InOrder use)
    (smallBlock : block < maxBlocks) (points : d.zoneAt inode block ≠ 0)
    (insideBlock : offset < blockSize) (small : pos / blockSize < maxBlocks) :
    (d.setByte (d.zoneAt inode block) offset byte).byteAt inode' pos =
      if inode' = inode ∧ pos = block * blockSize + offset then byte
      else d.byteAt inode' pos := by
  have used := order.zoneAt_use smallBlock points
  have pointers (c : Cell) (height : Nat) (owned : c.owner use = some (inode', height)) :
      (d.setByte (d.zoneAt inode block) offset byte).ptr c = d.ptr c := by
    cases c with
    | zone inode k => rfl
    | entry block' j =>
        refine word_setByte_of_ne fun same => ?_
        rw [← same, (of_owner_entry owned).1] at used
        cases used
  have route := route_isRoute small
  have sameZone : (d.setByte (d.zoneAt inode block) offset byte).zoneAt inode' (pos / blockSize) =
      d.zoneAt inode' (pos / blockSize) := order.value_congr pointers route.owner route.inside
  rw [byteAt, byteAt, sameZone]
  by_cases hole : d.zoneAt inode' (pos / blockSize) = 0
  · rw [if_pos hole, if_pos hole, if_neg]
    rintro ⟨sameInode, samePos⟩
    have sameBlock : pos / blockSize = block := by
      simp only [blockSize] at insideBlock samePos ⊢
      omega
    rw [sameInode, sameBlock] at hole
    exact points hole
  · rw [if_neg hole, if_neg hole]
    split
    · rename_i here
      have sameBlock : pos / blockSize = block := by
        have := here.2
        simp only [blockSize] at insideBlock this ⊢
        omega
      have sameOffset : pos % blockSize = offset := by
        have := here.2
        simp only [blockSize] at insideBlock this ⊢
        omega
      rw [here.1, sameBlock, sameOffset]
      exact data_setByte_self
    · rename_i elsewhere
      refine data_setByte_of_ne ?_
      by_contra both
      obtain ⟨sameZone, sameOffset⟩ := not_or.mp both
      obtain ⟨sameInode, sameBlock⟩ := order.zoneAt_injective small smallBlock hole
        (not_not.mp sameZone)
      refine elsewhere ⟨sameInode, ?_⟩
      rw [← sameBlock, ← not_not.mp sameOffset]
      simp only [blockSize]
      omega

theorem Device.contents_congr
    (bytes : ∀ pos, pos / blockSize < maxBlocks → d'.byteAt inode pos = d.byteAt inode' pos) :
    d'.contents inode = d.contents inode' := by
  funext pos
  unfold contents
  split
  · rename_i small
    exact bytes pos (lt_maxSize_iff.mp small)
  · rfl

theorem Device.InOrder.contents_store {new : Cell} {owner : Nat × Nat} (order : d.InOrder use)
    (owned : new.owner use = some owner) (null : d.ptr new = 0) (used : (use zone).isSome)
    (fresh : ∀ inode height, use zone ≠ some (.block inode height)) :
    (d.store new zone).contents = d.contents :=
  funext fun _ => contents_congr fun _ small => order.byteAt_store owned null used fresh small

theorem Device.InOrder.contents_setByte {byte : UInt8} {offset : Nat} (order : d.InOrder use)
    (small : block < maxBlocks) (points : d.zoneAt inode block ≠ 0) (inside : offset < blockSize) :
    (d.setByte (d.zoneAt inode block) offset byte).contents =
      Function.update d.contents inode
        (Function.update (d.contents inode) (block * blockSize + offset) byte) := by
  funext inode' pos
  have within : block * blockSize + offset < maxSize := by
    simp only [maxSize, maxBlocks, blockSize] at small inside ⊢
    omega
  by_cases same : inode' = inode
  · subst same
    rw [Function.update_self]
    by_cases here : pos = block * blockSize + offset
    · rw [here, Function.update_self, contents, if_pos within,
        order.byteAt_setByte small points inside (lt_maxSize_iff.mp within), if_pos ⟨rfl, rfl⟩]
    · rw [Function.update_of_ne here]
      unfold contents
      split
      · rename_i bounded
        rw [order.byteAt_setByte small points inside (lt_maxSize_iff.mp bounded),
          if_neg fun both => here both.2]
      · rfl
  · rw [Function.update_of_ne same]
    unfold contents
    split
    · rename_i bounded
      rw [order.byteAt_setByte small points inside (lt_maxSize_iff.mp bounded),
        if_neg fun both => same both.1]
    · rfl

end Linux012.Zones
