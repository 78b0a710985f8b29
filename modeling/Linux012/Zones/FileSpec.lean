import Linux012.Lib.Overwrite
import Linux012.Zones.File

/-!
# What the functions of a file do to the device

Each function keeps the device in order.  `_bmap` changes no byte of any file and finds the
zone of its block; storing bytes changes those bytes; freeing the blocks of one inode leaves
the other inodes alone.
-/

namespace Linux012.Zones

variable {d d₁ d₂ d' : Device} {use use₁ use₂ use' : Nat → Option Use} {c c' : Cell}
variable {inode inode' height height' block zone offset j left pos : Nat} {rest : List Nat}

/-! ## `_bmap` -/

/-- Zones that are used stay, and so do pointers that are set and the contents of all
files. -/
structure Device.Maps (d : Device) (use : Nat → Option Use) (d' : Device)
    (use' : Nat → Option Use) : Prop where
  order : d'.InOrder use'
  keeps : ∀ zone u, use zone = some u → use' zone = some u
  pointers : ∀ c owner, c.owner use = some owner → d.ptr c ≠ 0 → d'.ptr c = d.ptr c
  contents : d'.contents = d.contents
  size : d'.iSize = d.iSize

theorem owner_of_keeps {owner : Nat × Nat} (keeps : ∀ zone u, use zone = some u → use' zone = some u)
    (owned : c.owner use = some owner) : c.owner use' = some owner := by
  cases c with
  | zone inode k => exact owned
  | entry block j =>
      obtain ⟨used, inside⟩ := of_owner_entry owned
      exact owner_entry (keeps block _ used) inside

theorem Device.InOrder.maps_refl (order : d.InOrder use) : d.Maps use d use :=
  ⟨order, fun _ _ used => used, fun _ _ _ _ => rfl, rfl, rfl⟩

theorem Device.Maps.trans (first : d.Maps use d₁ use₁) (second : d₁.Maps use₁ d₂ use₂) :
    d.Maps use d₂ use₂ where
  order := second.order
  keeps zone u used := second.keeps zone u (first.keeps zone u used)
  pointers c owner owned points := by
    have same := first.pointers c owner owned points
    rw [second.pointers c owner (owner_of_keeps first.keeps owned) (same ▸ points), same]
  contents := second.contents.trans first.contents
  size := second.size.trans first.size

/-- Bits of zones that are not used do not matter. -/
theorem Device.InOrder.withBits {zmap : Nat → Bool} (order : d.InOrder use)
    (reserved : zmap 0 = true)
    (bits : ∀ zone, d.InZones zone → zmap (d.bitNr zone) = d.bit zone) :
    (d.setBits zmap).InOrder use :=
  order.congr reserved rfl rfl (fun zone used => bits zone (order.marked zone used).1)
    fun _ _ => Device.ptr_setBits

theorem Device.InOrder.contents_setBits {zmap : Nat → Bool} (order : d.InOrder use) :
    (d.setBits zmap).contents = d.contents :=
  funext fun _ => contents_congr fun _ small =>
    order.byteAt_congr (fun _ _ _ => ptr_setBits) (fun _ _ => rfl) small

/-- `new_block` finds nothing, or clears a block that nothing uses; the block can then be
stored where a pointer is null. -/
theorem newBlock_maps (order : d.InOrder use) (owned : c.owner use = some (inode, height))
    (null : d.ptr c = 0) :
    (∃ zmap, d.newBlock = (d.setBits zmap, 0) ∧
      d.Maps use (d.setBits zmap) use) ∨
    ∃ zone d₁, d.newBlock = (d₁, zone) ∧ zone ≠ 0 ∧
      (d₁.setPtr c zone).ptr c = zone ∧ ∃ use', d.Maps use (d₁.setPtr c zone) use' := by
  rcases Device.takeZone_cases order.reserved with ⟨zmap, taken, reserved, bits⟩ |
      ⟨zone, taken, inside, clear⟩
  · refine .inl ⟨zmap, by rw [Device.newBlock, taken]; rfl, order.withBits reserved bits,
      fun _ _ used => used, fun _ _ _ _ => Device.ptr_setBits, order.contents_setBits, rfl⟩
  · have notZero := inside.ne_zero
    have unused := order.unused_of_clear clear
    have takenOrder : (d.setBits (Function.update d.zmap (d.bitNr zone) true)).InOrder
        (Function.update use zone (some (.allocating 0))) := order.take inside clear (by simp)
    have owned' : c.owner (Function.update use zone (some (.allocating 0))) =
        some (inode, height) := by
      rw [owner_update (by simp [unused]) (by simp), owned]
    have isUsed : (Function.update use zone (some (Use.allocating 0)) zone).isSome := by simp
    have fresh (inode height : Nat) :
        Function.update use zone (some (Use.allocating 0)) zone ≠ some (.block inode height) := by
      simp
    generalize bits : Function.update d.zmap (d.bitNr zone) true = zmap at taken takenOrder
    have null' : (d.setBits zmap).ptr c = 0 := Device.ptr_setBits.trans null
    have stored := takenOrder.store owned' isUsed fresh
    refine .inr ⟨zone, (d.setBits zmap).clearBlock zone, ?_, notZero, ?_, _, stored, ?_, ?_, ?_, ?_⟩
    · rw [Device.newBlock, taken]
      split
      · rename_i same
        exact absurd (Prod.mk.inj same).2 notZero
      · rename_i same
        cases same
        rfl
    · exact Device.ptr_setPtr_self (takenOrder.lt_65536 isUsed)
    · intro other u used
      have different : other ≠ zone := by
        intro same
        rw [same, unused] at used
        cases used
      simpa [different] using used
    · intro c' owner owned₁ points
      have different : c' ≠ c := by
        intro same
        rw [same] at points
        exact points null
      refine (Device.ptr_setPtr_of_ne different).trans ?_
      have owned₂ : c'.owner (Function.update use zone (some (.allocating 0))) = some owner := by
        rw [owner_update (by simp [unused]) (by simp), owned₁]
      exact (Device.ptr_clearBlock owned₂ fresh).trans Device.ptr_setBits
    · exact (takenOrder.contents_store owned' null' isUsed fresh).trans order.contents_setBits
    · cases c <;> rfl

theorem mapped_maps (create : Bool) (order : d.InOrder use) (owned : c.owner use = some (inode, height)) :
    (d.mapped create c).2 = (d.mapped create c).1.ptr c ∧
      ∃ use', d.Maps use (d.mapped create c).1 use' := by
  by_cases missing : create ∧ d.ptr c = 0
  · rw [Device.mapped, if_pos missing]
    rcases newBlock_maps order owned missing.2 with ⟨zmap, got, maps⟩ |
        ⟨zone, d₁, got, notZero, stored, maps⟩
    · rw [got]
      exact ⟨(Device.ptr_setBits.trans missing.2).symm, use, maps⟩
    · rw [got]
      split
      · rename_i same
        exact absurd (Prod.mk.inj same).2 notZero
      · rename_i same
        cases same
        exact ⟨stored.symm, maps⟩
  · rw [Device.mapped, if_neg missing]
    exact ⟨rfl, use, order.maps_refl⟩

/-- `_bmap` finds the zone that its route leads to afterwards. -/
theorem follow_maps (create : Bool) (order : d.InOrder use) (owned : c.owner use = some (inode, rest.length))
    (inside : ∀ j ∈ rest, j < 512) :
    (d.follow create c rest).2 = (d.follow create c rest).1.value c rest ∧
      ∃ use', d.Maps use (d.follow create c rest).1 use' := by
  induction rest generalizing d use c with
  | nil => exact mapped_maps create order owned
  | cons j rest ih =>
      obtain ⟨found, use₁, maps⟩ := mapped_maps create order owned
      rw [Device.follow]
      split
      · rename_i d₁ same
        rw [same] at found maps
        exact ⟨(value_of_ptr_zero found.symm).symm, use₁, maps⟩
      · rename_i d₁ zone notZero same
        rw [same] at found maps
        have points : d₁.ptr c ≠ 0 := fun null => notZero (found.trans null)
        have owned₁ := owner_of_keeps maps.keeps owned
        have next := maps.order.owner_next owned₁ points (inside j List.mem_cons_self)
        dsimp only at found
        rw [← found] at next points
        obtain ⟨found₂, use₂, maps₂⟩ := ih maps.order next
          fun i member => inside i (List.mem_cons_of_mem j member)
        have kept := maps₂.pointers c _ owned₁ (found ▸ points)
        refine ⟨?_, use₂, maps.trans maps₂⟩
        rw [found₂, Device.value, kept, ← found, if_neg points]

theorem _bmap_maps (inode : Nat) (create : Bool) (order : d.InOrder use) (small : block < maxBlocks) :
    ∃ d' use', d._bmap inode block create = some (d', d'.zoneAt inode block) ∧
      d.Maps use d' use' := by
  have route := route_isRoute small
  have owned : (Cell.zone inode (Device.route block).1).owner use =
      some (inode, (Device.route block).2.length) := route.owner
  obtain ⟨found, use', maps⟩ := follow_maps create order owned route.inside
  refine ⟨_, use', ?_, maps⟩
  rw [Device._bmap, if_pos small]
  exact congrArg some (Prod.ext rfl found)

theorem follow_false : d.follow false c rest = (d, d.value c rest) := by
  induction rest generalizing c with
  | nil => simp [Device.follow, Device.mapped, Device.value]
  | cons j rest ih =>
      have look : d.mapped false c = (d, d.ptr c) := by simp [Device.mapped]
      rw [Device.follow, look, Device.value]
      split
      · rename_i same
        obtain ⟨unchanged, null⟩ := Prod.mk.inj same
        rw [← unchanged, if_pos null]
      · rename_i notZero same
        cases same
        rw [ih, if_neg notZero]

/-- `bmap` changes nothing. -/
theorem bmap_eq (small : block < maxBlocks) :
    d.bmap inode block = some (d, d.zoneAt inode block) := by
  rw [Device.bmap, Device._bmap, if_pos small, follow_false, Device.zoneAt]

/-! ## Bytes -/

theorem Device.InOrder.setSize {size : Nat} (order : d.InOrder use) :
    (d.setSize inode size).InOrder use :=
  order.congr order.reserved rfl rfl (fun _ _ => rfl) fun c _ => by cases c <;> rfl

theorem Device.InOrder.contents_setSize {size : Nat} (order : d.InOrder use) :
    (d.setSize inode size).contents = d.contents :=
  funext fun _ => contents_congr fun _ small =>
    order.byteAt_congr (fun c _ _ => by cases c <;> rfl) (fun _ _ => rfl) small

/-- Storing a byte of data keeps the device in order and its pointers. -/
theorem setByte_inOrder (offset : Nat) (byte : UInt8) (order : d.InOrder use) (small : block < maxBlocks)
    (points : d.zoneAt inode block ≠ 0) :
    (d.setByte (d.zoneAt inode block) offset byte).InOrder use ∧
      (d.setByte (d.zoneAt inode block) offset byte).zoneAt inode block =
        d.zoneAt inode block := by
  have used := order.zoneAt_use small points
  refine ⟨order.data (by simp [used]), ?_⟩
  refine order.value_congr (fun c height owned => ?_) (route_isRoute small).owner
    (route_isRoute small).inside
  cases c with
  | zone inode k => rfl
  | entry block' j =>
      refine Device.word_setByte_of_ne fun same => ?_
      rw [← same, (of_owner_entry owned).1] at used
      cases used

/-- `bytes` are stored at an offset of a block of a file. -/
theorem writeBytes_spec {bytes : List UInt8} (order : d.InOrder use) (small : block < maxBlocks)
    (points : d.zoneAt inode block ≠ 0) (fits : offset + bytes.length ≤ blockSize) :
    (d.writeBytes (d.zoneAt inode block) offset bytes).InOrder use ∧
      (d.writeBytes (d.zoneAt inode block) offset bytes).iSize = d.iSize ∧
      (d.writeBytes (d.zoneAt inode block) offset bytes).contents =
        Function.update d.contents inode
          (Lib.overwrite (d.contents inode) (block * blockSize + offset) bytes) := by
  induction bytes generalizing d offset with
  | nil =>
      refine ⟨order, rfl, ?_⟩
      rw [Lib.overwrite_nil, Function.update_eq_self]
      rfl
  | cons byte bytes ih =>
      rw [List.length_cons] at fits
      obtain ⟨order₁, sameZone⟩ := setByte_inOrder offset byte order small points
      have points₁ : (d.setByte (d.zoneAt inode block) offset byte).zoneAt inode block ≠ 0 := by
        rw [sameZone]
        exact points
      have fits₁ : offset + 1 + bytes.length ≤ blockSize := by omega
      obtain ⟨order₂, size, contents⟩ := ih order₁ points₁ fits₁
      rw [sameZone] at order₂ size contents
      refine ⟨order₂, size, contents.trans ?_⟩
      rw [order.contents_setByte small points (by omega), Function.update_idem,
        Function.update_self, ← Lib.overwrite_cons, Nat.add_assoc]

/-! ## Freeing blocks -/

/-- Blocks of one inode up to a height may be freed; everything else stays. -/
structure Device.Spares (d : Device) (use : Nat → Option Use) (d' : Device)
    (use' : Nat → Option Use) (inode height : Nat) : Prop where
  order : d'.InOrder use'
  uses : ∀ zone inode' height', use zone = some (.block inode' height') →
    inode' ≠ inode ∨ height < height' → use' zone = some (.block inode' height')
  pointers : ∀ c inode' height', c.owner use = some (inode', height') →
    inode' ≠ inode ∨ height < height' → d'.ptr c = d.ptr c
  contents : ∀ inode', inode' ≠ inode → d'.contents inode' = d.contents inode'
  size : d'.iSize = d.iSize

/-- The block that one pointer leads to is freed, and the pointer is cleared. -/
structure Device.Frees (d : Device) (use : Nat → Option Use) (d' : Device)
    (use' : Nat → Option Use) (inode height : Nat) (c : Cell) : Prop
    extends d.Spares use d' use' inode height where
  null : d'.ptr c = 0
  roots : ∀ inode k, .zone inode k ≠ c → d'.iZone inode k = d.iZone inode k

theorem Device.InOrder.spares_refl (order : d.InOrder use) : d.Spares use d use inode height :=
  ⟨order, fun _ _ _ used _ => used, fun _ _ _ _ _ => rfl, fun _ _ => rfl, rfl⟩

theorem Device.Spares.owner (spares : d.Spares use d' use' inode height)
    (owned : c.owner use = some (inode', height')) (spared : inode' ≠ inode ∨ height ≤ height') :
    c.owner use' = some (inode', height') := by
  cases c with
  | zone => exact owned
  | entry block j =>
      obtain ⟨used, inside⟩ := of_owner_entry owned
      exact owner_entry (spares.uses block inode' _ used (spared.imp_right Nat.lt_succ_of_le)) inside

theorem Device.Spares.trans (first : d.Spares use d₁ use₁ inode height)
    (second : d₁.Spares use₁ d₂ use₂ inode height) : d.Spares use d₂ use₂ inode height where
  order := second.order
  uses zone inode' height' used spared :=
    second.uses zone inode' height' (first.uses zone inode' height' used spared) spared
  pointers c inode' height' owned spared := by
    have owned₁ := first.owner owned (spared.imp_right Nat.le_of_lt)
    exact (second.pointers c inode' height' owned₁ spared).trans
      (first.pointers c inode' height' owned spared)
  contents inode' other := (second.contents inode' other).trans (first.contents inode' other)
  size := second.size.trans first.size

theorem Device.Spares.mono (spares : d.Spares use d' use' inode height)
    (higher : height ≤ height') : d.Spares use d' use' inode height' where
  order := spares.order
  uses zone inode' height₁ used spared :=
    spares.uses zone inode' height₁ used (spared.imp_right (Nat.lt_of_le_of_lt higher))
  pointers c inode' height₁ owned spared :=
    spares.pointers c inode' height₁ owned (spared.imp_right (Nat.lt_of_le_of_lt higher))
  contents := spares.contents
  size := spares.size

/-- `free_block` of the block that a pointer leads to, and the clearing of the pointer. -/
theorem freeBlock_frees (order : d.InOrder use) (owned : c.owner use = some (inode, height))
    (points : d.ptr c ≠ 0) :
    d.freeBlock (d.ptr c) = some (d.clearBit (d.ptr c)) ∧
      d.Frees use ((d.clearBit (d.ptr c)).setPtr c 0) (Function.update use (d.ptr c) none)
        inode height c := by
  have used := order.points c inode height owned points
  have only (c' : Cell) (owned' : (c'.owner use).isSome) (same : d.ptr c' = d.ptr c) : c' = c :=
    order.once c' c owned' (by simp [owned]) same (same ▸ points)
  have pointers (c' : Cell) (different : c' ≠ c) :
      ((d.clearBit (d.ptr c)).setPtr c 0).ptr c' = d.ptr c' :=
    (Device.ptr_setPtr_of_ne different).trans Device.ptr_setBits
  have differ {c' : Cell} {inode' height' : Nat} (owned' : c'.owner use = some (inode', height'))
      (spared : inode' ≠ inode ∨ height < height') : c' ≠ c := by
    intro same
    rw [same, owned] at owned'
    cases owned'
    rcases spared with other | higher
    · exact other rfl
    · exact Nat.lt_irrefl _ higher
  refine ⟨if_pos (order.marked _ (by simp [used])).1, ⟨order.detach used only, ?_, ?_, ?_, ?_⟩,
    Device.ptr_setPtr_self (by decide), ?_⟩
  · intro zone inode' height' used' spared
    have different : zone ≠ d.ptr c := by
      intro same
      rw [same, used] at used'
      cases used'
      rcases spared with other | higher
      · exact other rfl
      · exact Nat.lt_irrefl _ higher
    rw [Function.update_of_ne different, used']
  · exact fun c' inode' height' owned' spared => pointers c' (differ owned' spared)
  · intro inode' other
    refine Device.contents_congr fun pos small => order.byteAt_congr
      (fun c' height' owned' => pointers c' (differ owned' (.inl other))) (fun zone used' => ?_) small
    exact Device.data_setPtr owned (by simp [used'])
  · cases c <;> rfl
  · exact fun inode' k different => pointers (.zone inode' k) different

/-- The loop of `free_ind` and `free_dind`. -/
theorem freeEntries_spares {free : Device → Nat → Option Device}
    (frees : ∀ {d use c}, d.InOrder use → c.owner use = some (inode, height) → d.ptr c ≠ 0 →
      ∃ d₁ use', free d (d.ptr c) = some d₁ ∧ d.Frees use (d₁.setPtr c 0) use' inode height c)
    (order : d.InOrder use) (used : use block = some (.block inode (height + 1)))
    (bound : j + left ≤ 512) :
    ∃ d' use', Device.freeEntries free block left j d = some d' ∧
      d.Spares use d' use' inode height ∧ d'.iZone = d.iZone := by
  induction left generalizing d use j with
  | zero => exact ⟨d, use, rfl, order.spares_refl, rfl⟩
  | succ left ih =>
      rw [Device.freeEntries]
      split
      · exact ih order used (by omega)
      · rename_i points
        have inside : j < 512 := by omega
        have owned := owner_entry used inside
        obtain ⟨d₁, use₁, freed, frees₁⟩ := frees order owned points
        have used₁ := frees₁.uses block inode (height + 1) used (.inr (Nat.lt_succ_self height))
        have bound₁ : j + 1 + left ≤ 512 := by omega
        obtain ⟨d₂, use₂, rest, spares₂, roots₂⟩ := ih frees₁.order used₁ bound₁
        refine ⟨d₂, use₂, Option.bind_eq_some_iff.mpr ⟨d₁, freed, rest⟩,
          frees₁.toSpares.trans spares₂, roots₂.trans ?_⟩
        funext inode' k
        exact frees₁.roots inode' k (by simp)

/-- `free_block`, `free_ind` and `free_dind`, and the clearing of the pointer. -/
theorem freeTree_frees (height : Nat) (order : d.InOrder use)
    (owned : c.owner use = some (inode, height)) (points : d.ptr c ≠ 0) :
    ∃ d₁ use', Device.freeTree height d (d.ptr c) = some d₁ ∧
      d.Frees use (d₁.setPtr c 0) use' inode height c := by
  induction height generalizing d use c with
  | zero =>
      obtain ⟨freed, frees⟩ := freeBlock_frees order owned points
      exact ⟨_, _, freed, frees⟩
  | succ height ih =>
      have used := order.points c inode (height + 1) owned points
      obtain ⟨d₁, use₁, emptied, spares, roots⟩ := freeEntries_spares (fun order owned points =>
        ih order owned points) order used (Nat.le_of_eq (Nat.zero_add 512))
      have kept := spares.pointers c inode (height + 1) owned (.inr (Nat.lt_succ_self height))
      have owned₁ := spares.owner owned (.inr (Nat.le_succ height))
      obtain ⟨freed, frees⟩ := freeBlock_frees spares.order owned₁ (kept ▸ points)
      rw [kept] at freed
      refine ⟨d₁.clearBit (d.ptr c), Function.update use₁ (d₁.ptr c) none,
        Option.bind_eq_some_iff.mpr ⟨d₁, emptied, freed⟩, ?_⟩
      rw [← kept]
      refine ⟨(spares.mono (Nat.le_succ height)).trans frees.toSpares, frees.null, ?_⟩
      intro inode' k different
      exact (frees.roots inode' k different).trans (congrFun (congrFun roots inode') k)

/-! ## `truncate` -/

theorem setPtr_null {k : Nat} (null : d.iZone inode k = 0) : d.setPtr (.zone inode k) 0 = d := by
  have same : Function.update (d.iZone inode) k (0 % 65536) = d.iZone inode := by
    rw [Nat.zero_mod, ← null, Function.update_eq_self]
  rw [Device.setPtr, same, Function.update_eq_self]

/-- A pointer in `i_zone` is cleared after what it leads to is freed, if it leads to
anything. -/
theorem freeRoot_frees (inode : Nat) (order : d.InOrder use) {k : Nat} (inside : k < 9) :
    ∃ d₁ use', (if d.iZone inode k = 0 then some d
        else Device.freeTree (k - 6) d (d.iZone inode k)) = some d₁ ∧
      d.Frees use (d₁.setPtr (.zone inode k) 0) use' inode (k - 6) (.zone inode k) := by
  by_cases null : d.iZone inode k = 0
  · refine ⟨d, use, if_pos null, ?_⟩
    rw [setPtr_null null]
    exact ⟨order.spares_refl, null, fun _ _ _ => rfl⟩
  · obtain ⟨d₁, use', freed, frees⟩ := freeTree_frees (k - 6) order (owner_zone inside) null
    exact ⟨d₁, use', (if_neg null).trans freed, frees⟩

theorem freeDirect_spares (inode : Nat) (order : d.InOrder use) (bound : j + left ≤ 7) :
    ∃ d' use', Device.freeDirect inode left j d = some d' ∧ d.Spares use d' use' inode 0 ∧
      ∀ k, d'.iZone inode k = if j ≤ k ∧ k < j + left then 0 else d.iZone inode k := by
  induction left generalizing d use j with
  | zero =>
      refine ⟨d, use, rfl, order.spares_refl, fun k => (if_neg ?_).symm⟩
      omega
  | succ left ih =>
      have bound₁ : j + 1 + left ≤ 7 := by omega
      have inside : j < 9 := by omega
      have height : j - 6 = 0 := by omega
      obtain ⟨d₁, use₁, freed, frees⟩ := freeRoot_frees inode order inside
      rw [height] at freed frees
      have null : (d₁.setPtr (.zone inode j) 0).iZone inode j = 0 := frees.null
      obtain ⟨d₂, use₂, rest, spares, zones⟩ := ih frees.order bound₁
      refine ⟨d₂, use₂, ?_, frees.toSpares.trans spares, fun k => ?_⟩
      · rw [Device.freeDirect]
        split
        · rename_i zero
          rw [if_pos zero] at freed
          cases freed
          rwa [setPtr_null zero] at rest
        · rename_i points
          rw [if_neg points] at freed
          exact Option.bind_eq_some_iff.mpr ⟨d₁, freed, rest⟩
      · rw [zones k]
        by_cases here : k = j
        · rw [here, if_neg (by omega), if_pos (by omega)]
          exact null
        · rw [frees.roots inode k (by simpa using here)]
          by_cases behind : j + 1 ≤ k ∧ k < j + 1 + left
          · rw [if_pos behind, if_pos (by omega)]
          · rw [if_neg behind, if_neg (by omega)]

/-- `truncate` leaves an empty file. -/
theorem truncate_spec (inode : Nat) (order : d.InOrder use) :
    ∃ d' use', d.truncate inode = some d' ∧ d'.InOrder use' ∧
      d'.contents = Function.update d.contents inode (fun _ => 0) ∧
      d'.iSize = Function.update d.iSize inode 0 := by
  have bound : 0 + 7 ≤ 7 := by decide
  obtain ⟨d₁, use₁, freed₁, spares₁, zones₁⟩ := freeDirect_spares inode order bound
  obtain ⟨d₂, use₂, freed₂, frees₂⟩ :=
    freeRoot_frees inode spares₁.order (show 7 < 9 by decide)
  obtain ⟨d₃, use₃, freed₃, frees₃⟩ :=
    freeRoot_frees inode frees₂.order (show 8 < 9 by decide)
  have spares := (spares₁.mono (Nat.zero_le 2)).trans
    ((frees₂.toSpares.mono (by decide : 7 - 6 ≤ 2)).trans frees₃.toSpares)
  -- every pointer in `i_zone` is null
  have null (k : Nat) (inside : k < 9) : (d₃.setPtr (.zone inode 8) 0).iZone inode k = 0 := by
    by_cases last : k = 8
    · rw [last]
      exact frees₃.null
    · rw [frees₃.roots inode k (by simpa using last)]
      by_cases single : k = 7
      · rw [single]
        exact frees₂.null
      · rw [frees₂.roots inode k (by simpa using single), zones₁ k, if_pos (by omega)]
  refine ⟨(d₃.setPtr (.zone inode 8) 0).setSize inode 0, use₃, ?_, ?_, ?_, ?_⟩
  · exact Option.bind_eq_some_iff.mpr ⟨d₁, freed₁, Option.bind_eq_some_iff.mpr ⟨d₂, freed₂,
      Option.bind_eq_some_iff.mpr ⟨d₃, freed₃, rfl⟩⟩⟩
  · exact frees₃.order.setSize
  · rw [frees₃.order.contents_setSize]
    funext inode'
    by_cases same : inode' = inode
    · subst same
      rw [Function.update_self]
      funext pos
      unfold Device.contents
      split
      · rename_i small
        have hole : (d₃.setPtr (.zone inode' 8) 0).zoneAt inode' (pos / blockSize) = 0 :=
          value_of_ptr_zero (null _ (route_isRoute (lt_maxSize_iff.mp small)).root)
        rw [Device.byteAt, if_pos hole]
      · rfl
    · rw [Function.update_of_ne same, spares.contents inode' same]
  · rw [Device.setSize, spares.size]

/-! ## The loops of `file_read` and `file_write` -/

theorem value_setSize {size : Nat} : (d.setSize inode size).value c rest = d.value c rest := by
  have pointers (c : Cell) : (d.setSize inode size).ptr c = d.ptr c := by
    cases c <;> rfl
  induction rest generalizing c with
  | nil => exact pointers c
  | cons j rest ih =>
      rw [Device.value, Device.value, pointers, ih]

theorem contents_eq_data {p : Nat} (small : p < maxSize) : d.contents inode p =
    if d.zoneAt inode (p / blockSize) = 0 then 0
    else d.data (d.zoneAt inode (p / blockSize)) (p % blockSize) :=
  if_pos small

/-- The bytes that are read from one block. -/
theorem readBytes_eq {fPos chars : Nat} (inBlock : fPos % blockSize + chars ≤ blockSize)
    (small : fPos + chars ≤ maxSize) :
    d.readBytes (d.zoneAt inode (fPos / blockSize)) (fPos % blockSize) chars =
      (List.range chars).map fun i => d.contents inode (fPos + i) := by
  refine List.map_congr_left fun i member => ?_
  have inside := List.mem_range.mp member
  have sameBlock : (fPos + i) / blockSize = fPos / blockSize := by
    simp only [blockSize] at inBlock ⊢
    omega
  have sameOffset : (fPos + i) % blockSize = fPos % blockSize + i := by
    simp only [blockSize] at inBlock ⊢
    omega
  rw [contents_eq_data (by omega), sameBlock, sameOffset]

theorem readLoop_eq {rounds fPos : Nat} (enough : left ≤ rounds) (small : fPos + left ≤ maxSize) :
    Device.readLoop inode rounds d fPos left =
      some ((List.range left).map fun i => d.contents inode (fPos + i)) := by
  induction rounds generalizing fPos left with
  | zero =>
      rw [Nat.le_zero.mp enough]
      rfl
  | succ rounds ih =>
      rw [Device.readLoop]
      split
      · rename_i done
        rw [done]
        rfl
      · rename_i more
        have smallBlock : fPos / blockSize < maxBlocks := lt_maxSize_iff.mp (by omega)
        have inBlock : fPos % blockSize < blockSize := Nat.mod_lt _ (by decide)
        obtain ⟨chars, isChars⟩ :
          ∃ chars, chars = min (blockSize - fPos % blockSize) left := ⟨_, rfl⟩
        have progress : 0 < chars ∧ chars ≤ left ∧ fPos % blockSize + chars ≤ blockSize := by
          omega
        have rest : Device.readLoop inode rounds d (fPos + chars) (left - chars) =
            some ((List.range (left - chars)).map fun i => d.contents inode (fPos + chars + i)) :=
          ih (by omega) (by omega)
        rw [bmap_eq smallBlock]
        simp only [Option.bind_eq_bind, Option.bind_some, ← isChars, rest,
          readBytes_eq progress.2.2 (by omega : fPos + chars ≤ maxSize), Option.pure_def]
        have split : left = chars + (left - chars) := by omega
        rw [split, List.range_add, List.map_append, List.map_map, Nat.add_sub_cancel_left]
        simp [Function.comp_def, Nat.add_assoc]

/-- The loop of `file_write` stores the first `n` bytes of the buffer. -/
theorem writeLoop_spec {rounds i : Nat} {buf : List UInt8} (order : d.InOrder use)
    (enough : buf.length ≤ rounds) (small : pos + buf.length ≤ maxSize) :
    ∃ d' use' n, Device.writeLoop inode rounds d pos i buf = some (d', pos + n, i + n) ∧
      d'.InOrder use' ∧ n ≤ buf.length ∧
      d'.contents = Function.update d.contents inode
        (Lib.overwrite (d.contents inode) pos (buf.take n)) ∧
      d'.iSize = Function.update d.iSize inode
        (if n = 0 then d.iSize inode else max (d.iSize inode) (pos + n)) := by
  induction rounds generalizing d use pos i buf with
  | zero =>
      rw [Nat.le_zero, List.length_eq_zero_iff] at enough
      refine ⟨d, use, 0, rfl, order, Nat.zero_le _, ?_, ?_⟩
      · simp
      · simp
  | succ rounds ih =>
      rw [Device.writeLoop]
      split
      · refine ⟨d, use, 0, rfl, order, Nat.zero_le _, ?_, ?_⟩
        · simp
        · simp
      · rename_i more
        have someLeft : 0 < buf.length := List.length_pos_iff.mpr more
        have smallBlock : pos / blockSize < maxBlocks := lt_maxSize_iff.mp (by omega)
        have inBlock : pos % blockSize < blockSize := Nat.mod_lt _ (by decide)
        obtain ⟨d₁, use₁, mapped, maps⟩ := _bmap_maps inode true order smallBlock
        have created : d.createBlock inode (pos / blockSize) =
            some (d₁, d₁.zoneAt inode (pos / blockSize)) := mapped
        rw [created]
        simp only [Option.bind_eq_bind, Option.bind_some]
        by_cases full : d₁.zoneAt inode (pos / blockSize) = 0
        · rw [if_pos full]
          refine ⟨d₁, use₁, 0, rfl, maps.order, Nat.zero_le _, ?_, ?_⟩
          · simp [maps.contents]
          · simp [maps.size]
        · rw [if_neg full]
          obtain ⟨c, isC⟩ : ∃ c, c = min (blockSize - pos % blockSize) buf.length := ⟨_, rfl⟩
          have progress : 0 < c ∧ c ≤ buf.length ∧ pos % blockSize + c ≤ blockSize := by omega
          have sized : (d₁.setSize inode (max (d₁.iSize inode) (pos + c))).InOrder use₁ :=
            maps.order.setSize
          have sameZone : (d₁.setSize inode (max (d₁.iSize inode) (pos + c))).zoneAt inode
              (pos / blockSize) = d₁.zoneAt inode (pos / blockSize) := value_setSize
          have chunk : (buf.take c).length = c := List.length_take_of_le progress.2.1
          have fits : pos % blockSize + (buf.take c).length ≤ blockSize := by
            rw [chunk]
            exact progress.2.2
          obtain ⟨order₂, size₂, contents₂⟩ :=
            writeBytes_spec sized smallBlock (sameZone ▸ full) fits
          rw [sameZone] at order₂ size₂ contents₂
          have start : pos / blockSize * blockSize + pos % blockSize = pos := by
            rw [Nat.mul_comm]
            exact Nat.div_add_mod pos blockSize
          rw [maps.order.contents_setSize, maps.contents, start] at contents₂
          have fewer : (buf.drop c).length = buf.length - c := List.length_drop
          have enough₁ : (buf.drop c).length ≤ rounds := by omega
          have small₁ : pos + c + (buf.drop c).length ≤ maxSize := by omega
          obtain ⟨d₃, use₃, n, looped, order₃, most, contents₃, size₃⟩ :=
            @ih _ _ (pos + c) (i + c) (buf.drop c) order₂ enough₁ small₁
          rw [fewer] at most
          rw [← isC]
          refine ⟨d₃, use₃, c + n, ?_, order₃, by omega, ?_, ?_⟩
          · rw [looped, Nat.add_assoc, Nat.add_assoc]
          · have joined : Lib.overwrite (Lib.overwrite (d.contents inode) pos (buf.take c))
                (pos + c) ((buf.drop c).take n) =
                Lib.overwrite (d.contents inode) pos (buf.take (c + n)) := by
              rw [List.take_add, ← Lib.overwrite_append, chunk]
            rw [contents₃, contents₂, Function.update_self, Function.update_idem, joined]
          · have size : (d₁.setSize inode (max (d₁.iSize inode) (pos + c))).iSize =
                Function.update d.iSize inode (max (d.iSize inode) (pos + c)) := by
              rw [Device.setSize, maps.size]
            rw [size₃, size₂, size, Function.update_self, Function.update_idem,
              if_neg (by omega : c + n ≠ 0)]
            congr 1
            split <;> omega

end Linux012.Zones
