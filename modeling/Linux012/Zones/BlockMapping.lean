import Linux012.Zones.Sparse

/-!
# The mapping of the blocks of one inode

`bmap` and `create_block` of an inode whose zones are pairwise distinct, whatever the other
inodes of the device look like and wherever the zones are.
-/

namespace Linux012.Zones

variable {d d' : Device} {c c' : Cell} {inode height height' zone block j : Nat}
variable {rest rest' : List Nat}

/-! ## The zones of an inode -/

/-- No two pointers of the inode lead to one zone. -/
def Device.Separate (d : Device) (inode : Nat) : Prop :=
  ∀ height c height' c', d.Live inode height c → d.Live inode height' c' →
    d.ptr c = d.ptr c' → d.ptr c ≠ 0 → c = c'

/-- No zone of the inode is free, and the bit that stands for no zone is set. -/
structure Device.Marked (d : Device) (inode : Nat) : Prop where
  reserved : d.zmap 0 = true
  taken : ∀ height c, d.Live inode height c → d.ptr c ≠ 0 → d.InZones (d.ptr c) →
    d.bit (d.ptr c) = true

/-- No zone is left. -/
def Device.Full (d : Device) : Prop :=
  ∀ zone, d.InZones zone → d.bitNr zone < d.zmapBits → d.bit zone = true

/-- `create_block` returned `zone` and left the device `d'`. -/
structure Device.Creates (d : Device) (inode block : Nat) (d' : Device) (zone : Nat) :
    Prop where
  found : zone ≠ 0 → d'.bmap inode block = some (d', zone)
  others : ∀ block' < maxBlocks, zone = 0 ∨ block' ≠ block →
    (d'.bmap inode block').map Prod.snd = (d.bmap inode block').map Prod.snd
  injective : ∀ block₁ < maxBlocks, ∀ block₂ < maxBlocks, d'.zoneAt inode block₁ ≠ 0 →
    d'.zoneAt inode block₁ = d'.zoneAt inode block₂ → block₁ = block₂
  apart : ∀ block' < maxBlocks, ∀ height c, d'.Live inode (height + 1) c →
    d'.zoneAt inode block' ≠ 0 → d'.zoneAt inode block' ≠ d'.ptr c
  full : zone = 0 → d'.Full
  again : zone ≠ 0 → d'.createBlock inode block = some (d', zone)

namespace Device.Separate

/-- A pointer leads to one height. -/
theorem height_unique (separate : d.Separate inode) (live : d.Live inode height c)
    (live' : d.Live inode height' c) : height = height' := by
  induction live generalizing height' with
  | zone k inside =>
      cases live' with
      | zone k' inside' => rfl
  | @entry height parent j live points inside ih =>
      generalize same : Cell.entry (d.ptr parent) j = c at live'
      cases live' with
      | zone => cases same
      | entry j' above points' inside' =>
          have equal := separate _ _ _ _ live above (Cell.entry.inj same).1 points
          subst equal
          exact Nat.succ.inj (ih above)

end Device.Separate

/-- The pointer at the end of a route. -/
theorem Device.Live.value (live : d.Live inode (rest.length + height) c)
    (inside : ∀ j ∈ rest, j < 512) (points : d.value c rest ≠ 0) :
    ∃ last, d.Live inode height last ∧ d.ptr last = d.value c rest := by
  induction rest generalizing c with
  | nil =>
      rw [List.length_nil, Nat.zero_add] at live
      exact ⟨c, live, rfl⟩
  | cons j rest ih =>
      rw [Device.value] at points ⊢
      split at points
      case isTrue => exact absurd rfl points
      case isFalse notNull =>
        rw [if_neg notNull]
        have live' : d.Live inode (rest.length + height + 1) c := by
          rwa [Nat.add_right_comm]
        exact ih (.entry j live' notNull (inside j List.mem_cons_self))
          (fun i member => inside i (List.mem_cons_of_mem j member)) points

/-- The last pointer of a route is in the block that the others lead to. -/
theorem Device.Live.concat (live : d.Live inode ((rest ++ [j]).length + height) c)
    (inside : ∀ i ∈ rest ++ [j], i < 512) (points : d.value c (rest ++ [j]) ≠ 0) :
    d.value c rest ≠ 0 ∧ d.Live inode height (.entry (d.value c rest) j) ∧
      d.ptr (.entry (d.value c rest) j) = d.value c (rest ++ [j]) := by
  rw [value_concat] at points ⊢
  split at points
  case isTrue => exact absurd rfl points
  case isFalse notNull =>
    have above : d.Live inode (rest.length + (height + 1)) c := by
      rwa [List.length_append, List.length_singleton, Nat.add_assoc, Nat.add_comm 1] at live
    obtain ⟨last, lastLive, same⟩ :=
      above.value (fun i member => inside i (List.mem_append_left [j] member)) notNull
    refine ⟨notNull, ?_, by rw [if_neg notNull]; rfl⟩
    rw [← same]
    exact .entry j lastLive (same ▸ notNull) (inside j (by simp))

theorem Device.live_route (small : block < maxBlocks) :
    d.Live inode (Device.route block).2.length (.zone inode (Device.route block).1) := by
  have route := route_isRoute small
  rw [← route.length]
  exact .zone _ route.root

namespace Device.Separate

/-- A zone is at the end of one route only. -/
theorem value_injective (separate : d.Separate inode) {k k' : Nat}
    (live : d.Live inode (rest.length + height) (.zone inode k))
    (live' : d.Live inode (rest'.length + height) (.zone inode k'))
    (inside : ∀ j ∈ rest, j < 512) (inside' : ∀ j ∈ rest', j < 512)
    (points : d.value (.zone inode k) rest ≠ 0)
    (same : d.value (.zone inode k) rest = d.value (.zone inode k') rest') :
    k = k' ∧ rest = rest' := by
  -- the last pointers of the routes are the same; backwards from there
  induction rest using List.reverseRecOn generalizing rest' height with
  | nil =>
      induction rest' using List.reverseRecOn with
      | nil =>
          have equal := separate _ _ _ _ live live' same points
          cases equal
          exact ⟨rfl, rfl⟩
      | append_singleton rest' j' _ =>
          have points' : d.value (.zone inode k') (rest' ++ [j']) ≠ 0 := same ▸ points
          obtain ⟨-, below, atEnd⟩ := live'.concat inside' points'
          have equal := separate _ _ _ _ live below (same.trans atEnd.symm) points
          cases equal
  | append_singleton rest j ih =>
      obtain ⟨before, below, atEnd⟩ := live.concat inside points
      induction rest' using List.reverseRecOn with
      | nil =>
          have equal := separate _ _ _ _ below live' (atEnd.trans same) (atEnd ▸ points)
          cases equal
      | append_singleton rest' j' _ =>
          obtain ⟨-, below', atEnd'⟩ := live'.concat inside' (same ▸ points)
          have equal := separate _ _ _ _ below below' (atEnd.trans (same.trans atEnd'.symm))
            (atEnd ▸ points)
          obtain ⟨sameBlock, sameEntry⟩ := Cell.entry.inj equal
          rw [List.length_append, List.length_singleton, Nat.add_assoc, Nat.add_comm 1]
            at live live'
          obtain ⟨sameRoot, sameRest⟩ := ih live live'
            (fun i member => inside i (List.mem_append_left [j] member))
            (fun i member => inside' i (List.mem_append_left [j'] member)) before sameBlock
          exact ⟨sameRoot, by rw [sameRest, sameEntry]⟩

end Device.Separate

/-! ## A new block -/

/-- What `create_block` keeps, on its way: `zone` is where it has come to. -/
structure Device.Grows (d : Device) (inode : Nat) (d' : Device) (zone : Nat) : Prop where
  separate : d'.Separate inode
  marked : d'.Marked inode
  lives : ∀ height c, d.Live inode height c → d'.Live inode height c
  pointers : ∀ height c, d.Live inode height c → d.ptr c ≠ 0 → d'.ptr c = d.ptr c
  full : zone = 0 → d'.Full

/-- Below what the search finds, and everywhere if it finds nothing, the bits are set. -/
theorem set_of_findFirstZero {zmap : Nat → Bool} {left n k : Nat} (above : n ≤ k)
    (below : k < n + left) (before : ∀ j, Device.findFirstZero zmap left n = some j → k < j) :
    zmap k = true := by
  induction left generalizing n with
  | zero => omega
  | succ left ih =>
      rw [Device.findFirstZero] at before
      split at before
      case isTrue set =>
        rcases Nat.eq_or_lt_of_le above with rfl | beyond
        · exact set
        · exact ih beyond (by omega) before
      case isFalse =>
        have := before n rfl
        omega

/-- `new_block` finds nothing, and then no zone is left, or a zone whose bit was clear. -/
theorem takeZone_full (reserved : d.zmap 0 = true) :
    (∃ zmap, d.takeZone = (d.setBits zmap, 0) ∧ zmap 0 = true ∧
        (∀ zone, d.InZones zone → zmap (d.bitNr zone) = d.bit zone) ∧ (d.setBits zmap).Full) ∨
      ∃ zone, d.takeZone = (d.setBits (Function.update d.zmap (d.bitNr zone) true), zone) ∧
        d.InZones zone ∧ d.bit zone = false := by
  rcases Device.takeZone_cases reserved with ⟨zmap, taken, first, bits⟩ | found
  · refine Or.inl ⟨zmap, taken, first, bits, fun zone inside isBit => ?_⟩
    have isBit : d.bitNr zone < 0 + d.zmapBits := by
      rw [Nat.zero_add]
      exact isBit
    suffices set : d.zmap (d.bitNr zone) = true from (bits zone inside).trans set
    refine set_of_findFirstZero (Nat.zero_le _) isBit fun j search => ?_
    -- what was found is behind the last zone, or it would have been taken
    have pos := d.firstdatazone_pos
    have clear := Device.findFirstZero_spec search
    have notFirst : j ≠ 0 := by
      rintro rfl
      rw [reserved] at clear
      cases clear
    have behind : j + d.sFirstdatazone - 1 ≥ d.sNzones := by
      by_contra onDevice
      rw [Device.takeZone, search] at taken
      simp only [if_neg onDevice] at taken
      have := (Prod.mk.inj taken).2
      omega
    have := inside.2
    have below : d.bitNr zone < j := by
      have := inside.1
      simp only [Device.bitNr, Device.setBits] at *
      omega
    exact below
  · exact Or.inr found

/-! ## Storing the number of a new block -/

section Store

variable {zmap : Nat → Bool} {use : Nat → Option Use}

/-- Nothing leads to the block yet. -/
def Device.Fresh (d : Device) (inode zone : Nat) : Prop :=
  ∀ height c, d.Live inode height c → d.ptr c ≠ zone

theorem Device.Live.ne_entry (live : d.Live inode height c) (fresh : d.Fresh inode zone) :
    c ≠ .entry zone j := by
  cases live with
  | zone k inside => nofun
  | entry j' above points inside =>
      intro same
      exact fresh _ _ above (Cell.entry.inj same).1

theorem ptr_store_self (small : zone < 65536) : (d.store c zone).ptr c = zone :=
  Device.ptr_setPtr_self small

theorem Device.Live.ptr_store_of_ne (live : d.Live inode height c') (fresh : d.Fresh inode zone)
    (different : c' ≠ c) : (d.store c zone).ptr c' = d.ptr c' := by
  refine (Device.ptr_setPtr_of_ne different).trans ?_
  cases live with
  | zone k inside => rfl
  | entry j' above points inside => exact Device.word_clearBlock_of_ne (fresh _ _ above)

theorem ptr_store_entry (different : Cell.entry zone j ≠ c) :
    (d.store c zone).ptr (.entry zone j) = 0 :=
  (Device.ptr_setPtr_of_ne different).trans Device.word_clearBlock_self

/-- The pointers stay those of the inode. -/
theorem live_store (null : d.ptr c = 0) (fresh : d.Fresh inode zone)
    (live' : d.Live inode height' c') :
    (d.store c zone).Live inode height' c' := by
  induction live' with
  | zone k inside => exact .zone k inside
  | @entry height' parent j above points inside ih =>
      have different : parent ≠ c := by
        rintro rfl
        exact points null
      have same := above.ptr_store_of_ne fresh different
      rw [← same]
      exact .entry j ih (same ▸ points) inside

/-- The other pointers are those of the new block, and null. -/
theorem of_live_store (live : d.Live inode height c) (small : zone < 65536)
    (fresh : d.Fresh inode zone) (live' : (d.store c zone).Live inode height' c') :
    d.Live inode height' c' ∨ (d.store c zone).ptr c' = 0 := by
  induction live' with
  | zone k inside => exact Or.inl (.zone k inside)
  | @entry height' parent j above points inside ih =>
      have old := ih.resolve_right points
      by_cases here : parent = c
      · subst here
        rw [ptr_store_self small]
        exact Or.inr (ptr_store_entry (live.ne_entry fresh).symm)
      · have same := old.ptr_store_of_ne fresh here
        rw [same] at points ⊢
        exact Or.inl (.entry j old points inside)

theorem grows_store (null : d.ptr c = 0) (live : d.Live inode height c)
    (small : zone < 65536) (fresh : d.Fresh inode zone) (separate : d.Separate inode)
    (marked : d.Marked inode) (bits : d.bit zone = true) (notZero : zone ≠ 0) :
    d.Grows inode (d.store c zone) zone := by
  -- a pointer of the inode that is not null leads where it led before, or is the new one
  have old {height' : Nat} {c' : Cell} (live' : (d.store c zone).Live inode height' c')
      (points : (d.store c zone).ptr c' ≠ 0) : d.Live inode height' c' :=
    (of_live_store live small fresh live').resolve_right points
  refine ⟨?_, ⟨?_, ?_⟩, fun _ _ live' => live_store null fresh live', ?_,
    fun zero => absurd zero notZero⟩
  · intro height₁ c₁ height₂ c₂ live₁ live₂ same points
    have old₁ := old live₁ points
    have old₂ := old live₂ (same ▸ points)
    by_cases here₁ : c₁ = c
    · by_cases here₂ : c₂ = c
      · exact here₁.trans here₂.symm
      · rw [here₁, ptr_store_self small, old₂.ptr_store_of_ne fresh here₂] at same
        exact absurd same.symm (fresh _ _ old₂)
    · rw [old₁.ptr_store_of_ne fresh here₁] at same points
      by_cases here₂ : c₂ = c
      · rw [here₂, ptr_store_self small] at same
        exact absurd same (fresh _ _ old₁)
      · rw [old₂.ptr_store_of_ne fresh here₂] at same
        exact separate _ _ _ _ old₁ old₂ same points
  · exact (congrFun Device.zmap_setPtr 0).trans marked.reserved
  · intro height' c' live' points inside'
    have old' := old live' points
    rw [Device.store, Device.bit_setPtr, ← Device.store]
    have inside' : (d.clearBlock zone).InZones ((d.store c zone).ptr c') :=
      Device.inZones_setPtr.mp inside'
    change (d.clearBlock zone).bit ((d.store c zone).ptr c') = true
    by_cases here : c' = c
    · rw [here, ptr_store_self small]
      exact bits
    · rw [old'.ptr_store_of_ne fresh here] at points inside' ⊢
      exact marked.taken _ _ old' points inside'
  · intro height' c' live' points
    refine live'.ptr_store_of_ne fresh ?_
    rintro rfl
    exact points null

/-- A route leads to the same zone as before, or through the new pointer to the new one. -/
theorem value_store (null : d.ptr c = 0) (small : zone < 65536) (fresh : d.Fresh inode zone)
    (live' : d.Live inode rest.length c') (inside : ∀ j ∈ rest, j < 512) :
    (d.store c zone).value c' rest = d.value c' rest ∨
      d.Live inode 0 c ∧ (d.store c zone).value c' rest = zone := by
  induction rest generalizing c' with
  | nil =>
      by_cases here : c' = c
      · subst here
        exact Or.inr ⟨live', ptr_store_self small⟩
      · exact Or.inl (live'.ptr_store_of_ne fresh here)
  | cons j rest ih =>
      by_cases here : c' = c
      · subst here
        left
        have next : (d.store c' zone).ptr (.entry zone j) = 0 :=
          ptr_store_entry (live'.ne_entry fresh).symm
        rw [Device.value, Device.value, if_pos null, ptr_store_self small]
        split
        · rfl
        · exact value_of_ptr_zero next
      · rw [Device.value, Device.value, live'.ptr_store_of_ne fresh here]
        split
        · exact Or.inl rfl
        · rename_i points
          exact ih (.entry j live' points (inside j List.mem_cons_self))
            fun i member => inside i (List.mem_cons_of_mem j member)

end Store

/-! ## `create_block` -/

section Creates

variable {zmap : Nat → Bool}

theorem live_setBits :
    (d.setBits zmap).Live inode height c ↔ d.Live inode height c := by
  constructor
  · intro live
    induction live with
    | zone k inside => exact .zone k inside
    | entry j above points inside ih =>
        rw [Device.ptr_setBits] at points ⊢
        exact .entry j ih points inside
  · intro live
    induction live with
    | zone k inside => exact .zone k inside
    | @entry height parent j above points inside ih =>
        have same : (d.setBits zmap).ptr parent = d.ptr parent := Device.ptr_setBits
        rw [← same] at points ⊢
        exact .entry j ih points inside

theorem value_setBits : (d.setBits zmap).value c rest = d.value c rest := by
  induction rest generalizing c with
  | nil => exact Device.ptr_setBits
  | cons j rest ih => rw [Device.value, Device.value, Device.ptr_setBits, ih]

theorem Device.Separate.setBits (separate : d.Separate inode) :
    (d.setBits zmap).Separate inode := by
  intro height c height' c' live live' same points
  rw [ptr_setBits] at same points
  rw [ptr_setBits] at same
  exact separate _ _ _ _ (live_setBits.mp live) (live_setBits.mp live') same points

/-- A zone is taken, or only bits that stand for no zone are set. -/
theorem Device.Marked.setBits (marked : d.Marked inode) (first : zmap 0 = true)
    (bits : ∀ zone, d.InZones zone → d.bit zone = true → zmap (d.bitNr zone) = true) :
    (d.setBits zmap).Marked inode := by
  refine ⟨first, fun height c live points inside => ?_⟩
  rw [ptr_setBits] at points inside ⊢
  exact bits _ inside (marked.taken _ _ (live_setBits.mp live) points inside)

theorem mapped_of_takeZone_zero {d₁ : Device} (null : d.ptr c = 0)
    (taken : d.takeZone = (d₁, 0)) : d.mapped true c = (d₁, 0) := by
  rw [Device.mapped, if_pos ⟨rfl, null⟩, Device.newBlock, taken]
  rfl

theorem mapped_of_takeZone {d₁ : Device} (null : d.ptr c = 0) (taken : d.takeZone = (d₁, zone))
    (notZero : zone ≠ 0) : d.mapped true c = (d₁.store c zone, zone) := by
  obtain ⟨zone, rfl⟩ := Nat.exists_eq_succ_of_ne_zero notZero
  rw [Device.mapped, if_pos ⟨rfl, null⟩, Device.newBlock, taken]
  rfl

/-- One pointer on the way of `create_block`. -/
theorem mapped_grows (separate : d.Separate inode) (marked : d.Marked inode)
    (live : d.Live inode height c) :
    (d.mapped true c).2 = (d.mapped true c).1.ptr c ∧
      d.Grows inode (d.mapped true c).1 (d.mapped true c).2 ∧
      ∀ c' rest, d.Live inode rest.length c' → (∀ j ∈ rest, j < 512) →
        (d.mapped true c).1.value c' rest = d.value c' rest ∨
          d.Live inode 0 c ∧ (d.mapped true c).2 ≠ 0 ∧
            (d.mapped true c).1.value c' rest = (d.mapped true c).2 := by
  by_cases null : d.ptr c = 0
  · rcases takeZone_full marked.reserved with ⟨zmap, taken, first, bits, full⟩ |
      ⟨zone, taken, inside, clear⟩
    · rw [mapped_of_takeZone_zero null taken]
      refine ⟨(Device.ptr_setBits.trans null).symm, ⟨separate.setBits, ?_,
        fun _ _ live => live_setBits.mpr live, fun _ _ _ _ => Device.ptr_setBits,
        fun _ => full⟩, fun _ _ _ _ => Or.inl value_setBits⟩
      exact marked.setBits first fun zone inside set => (bits zone inside).trans set
    · have notZero := inside.ne_zero
      have small : zone < 65536 := Nat.lt_trans inside.2 d.nzones_lt
      generalize set : Function.update d.zmap (d.bitNr zone) true = zmap at taken
      have bits : zmap (d.bitNr zone) = true := by
        rw [← set, Function.update_self]
      have others (nr : Nat) (old : d.zmap nr = true) : zmap nr = true := by
        rw [← set, Function.update_apply]
        split
        · rfl
        · exact old
      have null' : (d.setBits zmap).ptr c = 0 := Device.ptr_setBits.trans null
      have live' : (d.setBits zmap).Live inode height c := live_setBits.mpr live
      have fresh : (d.setBits zmap).Fresh inode zone := by
        intro height' c' live' same
        rw [Device.ptr_setBits] at same
        have taken := marked.taken _ _ (live_setBits.mp live') (same ▸ notZero) (same ▸ inside)
        rw [same, clear] at taken
        cases taken
      have grows := grows_store null' live' small fresh separate.setBits
        (marked.setBits (others 0 marked.reserved) fun zone _ => others (d.bitNr zone)) bits notZero
      rw [mapped_of_takeZone null taken notZero]
      refine ⟨(ptr_store_self small).symm, ⟨grows.separate, grows.marked,
        fun _ _ live => grows.lives _ _ (live_setBits.mpr live), fun height' c' live points => ?_,
        grows.full⟩, fun c' rest live inside => ?_⟩
      · have same : (d.setBits zmap).ptr c' = d.ptr c' := Device.ptr_setBits
        rw [← same] at points ⊢
        exact grows.pointers _ _ (live_setBits.mpr live) points
      · rcases value_store null' small fresh (live_setBits.mpr live) inside with same | ⟨leaf, new⟩
        · exact Or.inl (same.trans value_setBits)
        · exact Or.inr ⟨live_setBits.mp leaf, notZero, new⟩
  · have stays : d.mapped true c = (d, d.ptr c) := by
      rw [Device.mapped, if_neg fun missing => null missing.2]
    rw [stays]
    exact ⟨rfl, ⟨separate, marked, fun _ _ live => live, fun _ _ _ _ => rfl,
      fun zero => absurd zero null⟩, fun _ _ _ _ => Or.inl rfl⟩

/-- All pointers on the way of `create_block`. -/
theorem follow_grows (separate : d.Separate inode) (marked : d.Marked inode)
    (live : d.Live inode rest.length c) (inside : ∀ j ∈ rest, j < 512) :
    (d.follow true c rest).2 = (d.follow true c rest).1.value c rest ∧
      d.Grows inode (d.follow true c rest).1 (d.follow true c rest).2 ∧
      ∀ c' rest', d.Live inode rest'.length c' → (∀ j ∈ rest', j < 512) →
        (d.follow true c rest).1.value c' rest' = d.value c' rest' ∨
          (d.follow true c rest).2 ≠ 0 ∧
            (d.follow true c rest).1.value c' rest' = (d.follow true c rest).2 := by
  induction rest generalizing d c with
  | nil =>
      obtain ⟨found, grows, values⟩ := mapped_grows separate marked live
      refine ⟨found, grows, fun c' rest' live' inside' => ?_⟩
      exact (values c' rest' live' inside').imp_right And.right
  | cons j rest ih =>
      obtain ⟨found, grows, values⟩ := mapped_grows separate marked live
      -- a new indirect block is no zone of a block
      have values {c' : Cell} {rest' : List Nat} (live' : d.Live inode rest'.length c')
          (inside' : ∀ j ∈ rest', j < 512) :
          (d.mapped true c).1.value c' rest' = d.value c' rest' := by
        refine (values c' rest' live' inside').resolve_right fun new => ?_
        have same := separate.height_unique new.1 live
        rw [List.length_cons] at same
        omega
      rw [Device.follow]
      split
      case h_1 d₁ same =>
        rw [same] at found grows values
        refine ⟨(value_of_ptr_zero found.symm).symm, grows, fun c' rest' live' inside' => ?_⟩
        exact Or.inl (values live' inside')
      case h_2 d₁ zone notZero same =>
        rw [same] at found grows values
        have found : zone = d₁.ptr c := found
        have points : d₁.ptr c ≠ 0 := fun null => notZero (found.trans null)
        have next : d₁.Live inode rest.length (.entry zone j) := by
          rw [found]
          exact .entry j (grows.lives _ _ live) points (inside j List.mem_cons_self)
        obtain ⟨found₂, grows₂, values₂⟩ := ih grows.separate grows.marked next
          fun i member => inside i (List.mem_cons_of_mem j member)
        have kept := grows₂.pointers _ _ (grows.lives _ _ live) points
        refine ⟨?_, ⟨grows₂.separate, grows₂.marked,
          fun _ _ live => grows₂.lives _ _ (grows.lives _ _ live),
          fun height' c' live' points' => ?_, grows₂.full⟩, fun c' rest' live' inside' => ?_⟩
        · rw [found₂, Device.value, kept, ← found, if_neg notZero]
        · have stays := grows.pointers _ _ live' points'
          rw [← stays] at points' ⊢
          exact grows₂.pointers _ _ (grows.lives _ _ live') points'
        · rw [← values live' inside']
          exact values₂ c' rest' (grows.lives _ _ live') inside'

/-- Where all pointers lead to a zone, `create_block` is `bmap`. -/
theorem follow_true_of_value (points : d.value c rest ≠ 0) :
    d.follow true c rest = (d, d.value c rest) := by
  induction rest generalizing c with
  | nil => exact if_neg fun missing => points missing.2
  | cons j rest ih =>
      rw [Device.value] at points ⊢
      split at points
      case isTrue => exact absurd rfl points
      case isFalse notNull =>
        have stays : d.mapped true c = (d, d.ptr c) := if_neg fun missing => notNull missing.2
        rw [if_neg notNull, Device.follow, stays]
        split
        · rename_i same
          exact absurd (Prod.mk.inj same).2 notNull
        · rename_i same
          cases same
          exact ih points

theorem Device.Separate.zoneAt_injective {block₁ block₂ : Nat} (separate : d.Separate inode)
    (small₁ : block₁ < maxBlocks) (small₂ : block₂ < maxBlocks)
    (points : d.zoneAt inode block₁ ≠ 0)
    (same : d.zoneAt inode block₁ = d.zoneAt inode block₂) : block₁ = block₂ := by
  have live {block : Nat} (small : block < maxBlocks) : d.Live inode
      ((Device.route block).2.length + 0) (.zone inode (Device.route block).1) :=
    Device.live_route small
  obtain ⟨sameRoot, sameRest⟩ := separate.value_injective (live small₁) (live small₂)
    (route_isRoute small₁).inside (route_isRoute small₂).inside points same
  exact route_injective (Prod.ext sameRoot sameRest)

/-- `create_block` maps its block and no other, from every bitmap in which the zones of the
inode are marked. -/
theorem exists_creates (d : Device) (inode block : Nat) (separate : d.Separate inode)
    (marked : d.Marked inode) (small : block < maxBlocks) :
    ∃ d' zone, d.createBlock inode block = some (d', zone) ∧
      d.Creates inode block d' zone := by
  have route := route_isRoute small
  obtain ⟨found, grows, values⟩ := follow_grows separate marked (Device.live_route small)
    route.inside
  have called : d.createBlock inode block =
      some (d.follow true (.zone inode (Device.route block).1) (Device.route block).2) :=
    if_pos small
  generalize d.follow true (.zone inode (Device.route block).1) (Device.route block).2 = result
    at called found grows values
  obtain ⟨d', zone⟩ := result
  have found : zone = d'.zoneAt inode block := found
  refine ⟨d', zone, called, fun _ => ?_, fun block' small' other => ?_,
    fun block₁ small₁ block₂ small₂ => grows.separate.zoneAt_injective small₁ small₂,
    fun block' small' height c live points same => ?_, grows.full, fun notZero => ?_⟩
  · rw [bmap_eq small, ← found]
  · rw [bmap_eq small', bmap_eq small', Option.map_some, Option.map_some]
    have route' := route_isRoute small'
    rcases values _ _ (Device.live_route small') route'.inside with same | ⟨notZero, new⟩
    · exact congrArg some same
    · have new : d'.zoneAt inode block' = zone := new
      have here := grows.separate.zoneAt_injective small' small (new ▸ notZero) (new.trans found)
      exact absurd here (other.resolve_left notZero)
  · have live' : d'.Live inode ((Device.route block').2.length + 0)
        (.zone inode (Device.route block').1) := Device.live_route small'
    obtain ⟨last, lastLive, atEnd⟩ := live'.value (route_isRoute small').inside points
    have atEnd : d'.ptr last = d'.zoneAt inode block' := atEnd
    have equal := grows.separate _ _ _ _ lastLive live (atEnd.trans same) (atEnd ▸ points)
    subst equal
    exact absurd (grows.separate.height_unique lastLive live) (Nat.succ_ne_zero height).symm
  · have points : d'.zoneAt inode block ≠ 0 := found ▸ notZero
    refine (if_pos small).trans ?_
    rw [follow_true_of_value points]
    exact congrArg (fun zone => some (d', zone)) found.symm

end Creates

theorem exists_creates_threeZones : threeZones.Separate 1 ∧ threeZones.Marked 1 ∧
    600 < maxBlocks ∧ ∃ d' zone, threeZones.createBlock 1 600 = some (d', zone) ∧
      threeZones.Creates 1 600 d' zone := by
  have separate : threeZones.Separate 1 := fun _ _ _ _ live _ _ points =>
    absurd (threeZones_null live) points
  have marked : threeZones.Marked 1 :=
    ⟨rfl, fun _ _ live points => absurd (threeZones_null live) points⟩
  exact ⟨separate, marked, by decide, exists_creates threeZones 1 600 separate marked (by decide)⟩

/-- The only zone of the inodes is free in the bitmap. -/
def freedZone : Device := { threeZones with iZone := fun _ k => if k = 0 then 5 else 0 }

theorem freedZone_live (live : freedZone.Live inode height c) (points : freedZone.ptr c ≠ 0) :
    height = 0 ∧ c = .zone inode 0 := by
  induction live with
  | zone k inside =>
      by_cases first : k = 0
      · subst first
        exact ⟨rfl, rfl⟩
      · exact absurd (if_neg first) points
  | entry j live points' inside ih => exact absurd (ih points').1 (Nat.succ_ne_zero _)

/-- The next block of the file gets the same zone. -/
theorem not_creates_freedZone : freedZone.Separate 1 ∧
    ¬ ∃ d' zone, freedZone.createBlock 1 1 = some (d', zone) ∧
      freedZone.Creates 1 1 d' zone := by
  refine ⟨fun _ c _ c' live live' same points => ?_, ?_⟩
  · exact (freedZone_live live points).2.trans (freedZone_live live' (same ▸ points)).2.symm
  · rintro ⟨d', zone, called, creates⟩
    have zones : (freedZone.createBlock 1 1).map
        (fun result => (result.1.zoneAt 1 0, result.1.zoneAt 1 1)) = some (5, 5) := by
      decide +kernel
    rw [called] at zones
    obtain ⟨first, second⟩ := Prod.mk.inj (Option.some.inj zones)
    have same := creates.injective 0 (by decide) 1 (by decide) (by rw [first]; decide)
      (first.trans second.symm)
    cases same

end Linux012.Zones
