import Linux012.Zones.FileSpec

/-!
# truncate with busy blocks

`free_block` refuses a block whose buffer has other references, and `truncate` then goes
over what is left of the file again.  When a block is busy is left open: `busy` says it for
each call of `free_block`, in the order of the calls.
-/

namespace Linux012.Zones

/-- The device, with the number of calls of `free_block` and the zones that they freed. -/
structure Truncating where
  device : Device
  calls : Nat
  freed : List Nat

namespace Truncating

/-! ## The calls -/

section Calls

variable (busy : Nat → Nat → Bool)

def setPtr (s : Truncating) (c : Cell) (zone : Nat) : Truncating :=
  { s with device := s.device.setPtr c zone }

/-- `free_block`, and whether it has freed the block; `none` when it panics. -/
def freeBlock (s : Truncating) (block : Nat) : Option (Truncating × Bool) :=
  if s.device.InZones block then
    if busy s.calls block then some ({ s with calls := s.calls + 1 }, false)
    else
      some (⟨s.device.clearBit block, s.calls + 1, block :: s.freed⟩, true)
  else none -- "trying to free block not in datazone"

/-- A loop over pointers: what a pointer leads to is freed and the pointer cleared, or
`block_busy` is set. -/
def freeSlots (free : Truncating → Nat → Option (Truncating × Bool)) :
    List Cell → (blockBusy : Bool) → Truncating → Option (Truncating × Bool)
  | [], blockBusy, s => some (s, blockBusy)
  | c :: cells, blockBusy, s =>
      if s.device.ptr c = 0 then freeSlots free cells blockBusy s
      else
        match free s (s.device.ptr c) with
        | none => none
        | some (s, true) => freeSlots free cells blockBusy (s.setPtr c 0)
        | some (s, false) => freeSlots free cells true s

/-- The entries of an indirect block. -/
def entries (block : Nat) : List Cell := (List.range 512).map (.entry block)

/-- `free_block`, `free_ind` and `free_dind` of a block that is not 0. -/
def freeTree : (height : Nat) → Truncating → (block : Nat) → Option (Truncating × Bool)
  | 0, s, block => s.freeBlock busy block
  | height + 1, s, block =>
      match freeSlots (freeTree height) (entries block) false s with
      | none => none
      | some (s, true) => some (s, false)
      | some (s, false) => s.freeBlock busy block

def freeInd (s : Truncating) (block : Nat) : Option (Truncating × Bool) :=
  if block = 0 then some (s, true) else freeTree busy 1 s block

def freeDind (s : Truncating) (block : Nat) : Option (Truncating × Bool) :=
  if block = 0 then some (s, true) else freeTree busy 2 s block

/-- `if (free_ind (..)) inode->i_zone[k] = 0; else block_busy = 1`. -/
def freeRoot (free : Truncating → Nat → Option (Truncating × Bool)) (inode k : Nat)
    (s : Truncating) (blockBusy : Bool) : Option (Truncating × Bool) :=
  match free s (s.device.iZone inode k) with
  | none => none
  | some (s, true) => some (s.setPtr (.zone inode k) 0, blockBusy)
  | some (s, false) => some (s, true)

/-- One round of `truncate`, with its `block_busy`. -/
def round (s : Truncating) (inode : Nat) : Option (Truncating × Bool) := do
  let (s, blockBusy) ← freeSlots (freeBlock busy) ((List.range 7).map (.zone inode)) false s
  let (s, blockBusy) ← freeRoot (freeInd busy) inode 7 s blockBusy
  freeRoot (freeDind busy) inode 8 s blockBusy

/-- `truncate` from `repeat:` on; `none` when it panics or has not returned after so many
rounds. -/
def repeatRounds (inode : Nat) : (rounds : Nat) → Truncating → Option Truncating
  | 0, _ => none
  | rounds + 1, s =>
      match s.round busy inode with
      | none => none
      | some (s, true) => repeatRounds inode rounds s
      | some (s, false) => some { s with device := s.device.setSize inode 0 }

/-- `S_ISREG (mode) || S_ISDIR (mode) || S_ISLNK (mode)`. -/
def HasBlocks (mode : UInt16) : Prop :=
  mode &&& 0o170000 = 0o100000 ∨ mode &&& 0o170000 = 0o040000 ∨ mode &&& 0o170000 = 0o120000

instance (mode : UInt16) : Decidable (HasBlocks mode) :=
  inferInstanceAs (Decidable (_ ∨ _ ∨ _))

/-- `truncate`. -/
def truncate (mode : UInt16) (inode rounds : Nat) (s : Truncating) : Option Truncating :=
  if HasBlocks mode then repeatRounds busy inode rounds s else some s

end Calls

end Truncating

/-! ## The zones of a file -/

namespace Device

variable (d : Device)

/-- The zones that a zone of this height leads to, with the zone itself. -/
def zonesBelow : (height block : Nat) → List Nat
  | 0, block => [block]
  | height + 1, block =>
      (Truncating.entries block).flatMap (fun c =>
        if d.ptr c = 0 then [] else zonesBelow height (d.ptr c)) ++ [block]

/-- The zones that a pointer leads to. -/
def slotZones (height : Nat) (c : Cell) : List Nat :=
  if d.ptr c = 0 then [] else d.zonesBelow height (d.ptr c)

/-- The zones of an inode. -/
def reachable (inode : Nat) : List Nat :=
  (List.range 9).flatMap fun k => d.slotZones (k - 6) (.zone inode k)

end Device

namespace Truncating

/-- The zones `before` were freed but for those of `left`, and nothing else. -/
structure Frees (s s' : Truncating) (before left : List Nat) : Prop where
  freed : ∃ zones, s'.freed = zones ++ s.freed ∧ (zones ++ left).Perm before ∧
    (∀ zone ∈ zones, s'.device.zmap (s.device.bitNr zone) = false) ∧
    ∀ nr, (∀ zone ∈ zones, s.device.bitNr zone ≠ nr) → s'.device.zmap nr = s.device.zmap nr
  first : s'.device.sFirstdatazone = s.device.sFirstdatazone
  last : s'.device.sNzones = s.device.sNzones
  size : s'.device.iSize = s.device.iSize
  calls : s.calls ≤ s'.calls

/-- Only pointers in the blocks `before` and those of `cells` have changed. -/
def Keeps (s s' : Truncating) (cells : List Cell) (before : List Nat) : Prop :=
  ∀ c, c ∉ cells → (∀ block j, c = .entry block j → block ∉ before) →
    s'.device.ptr c = s.device.ptr c

/-- A block of `before` was busy. -/
def Waited (busy : Nat → Nat → Bool) (s s' : Truncating) (before : List Nat) : Prop :=
  ∃ n zone, s.calls ≤ n ∧ n < s'.calls ∧ zone ∈ before ∧ busy n zone = true

/-- What a loop over the pointers `cells` does, which lead to `zones`. -/
structure Loops (busy : Nat → Nat → Bool) (s s' : Truncating) (waits : Bool) (cells : List Cell)
    (zones : Truncating → List Nat) : Prop where
  frees : Frees s s' (zones s) (zones s')
  keeps : Keeps s s' cells (zones s)
  cleared : waits = false → ∀ c ∈ cells, s'.device.ptr c = 0
  waited : waits = true → Waited busy s s' (zones s)

/-- What freeing a block of this height does. -/
def Works (busy : Nat → Nat → Bool) (height : Nat)
    (free : Truncating → Nat → Option (Truncating × Bool)) : Prop :=
  ∀ s block, (s.device.zonesBelow height block).Nodup →
    (∀ zone ∈ s.device.zonesBelow height block, s.device.InZones zone) →
    ∃ s' ok, free s block = some (s', ok) ∧
      Frees s s' (s.device.zonesBelow height block)
        (if ok then [] else s'.device.zonesBelow height block) ∧
      Keeps s s' [] (s.device.zonesBelow height block) ∧
      (ok = false → Waited busy s s' (s.device.zonesBelow height block))

section Frees

variable {busy : Nat → Nat → Bool} {s s₁ s₂ s' : Truncating} {a a' b b' : List Nat}
variable {height block zone : Nat} {c : Cell}

theorem Frees.refl (s : Truncating) (zones : List Nat) : Frees s s zones zones :=
  ⟨⟨[], rfl, List.Perm.refl _, by simp, fun _ _ => rfl⟩, rfl, rfl, rfl, Nat.le_refl _⟩

theorem Frees.bitNr (frees : Frees s s' a b) (zone : Nat) :
    s'.device.bitNr zone = s.device.bitNr zone := by
  rw [Device.bitNr, Device.bitNr, frees.first]

theorem Frees.inZones (frees : Frees s s' a b) :
    s'.device.InZones zone ↔ s.device.InZones zone := by
  rw [Device.InZones, Device.InZones, frees.first, frees.last]

/-- One after the other, on zones that are kept apart by `combine`. -/
theorem Frees.combine {all left : List Nat} (first : Frees s s₁ a a') (second : Frees s₁ s₂ b b')
    (perm : ∀ zones zones' : List Nat, (zones ++ a').Perm a → (zones' ++ b').Perm b →
      (zones' ++ zones ++ left).Perm all) : Frees s s₂ all left := by
  obtain ⟨zones, freed, permA, clear, others⟩ := first.freed
  obtain ⟨zones', freed', permB, clear', others'⟩ := second.freed
  refine ⟨⟨zones' ++ zones, ?_, perm zones zones' permA permB, ?_, ?_⟩,
    second.first.trans first.first, second.last.trans first.last, second.size.trans first.size,
    Nat.le_trans first.calls second.calls⟩
  · rw [freed', freed, List.append_assoc]
  · intro zone member
    by_cases again : ∃ other ∈ zones', s₁.device.bitNr other = s.device.bitNr zone
    · obtain ⟨other, member', same⟩ := again
      rw [← same]
      exact clear' other member'
    · push Not at again
      rw [others' _ again]
      refine clear zone ((List.mem_append.mp member).resolve_left fun member' => ?_)
      exact again zone member' (first.bitNr zone)
  · intro nr different
    rw [others' nr fun zone member => ?_, others nr fun zone member => ?_]
    · exact different zone (List.mem_append_right _ member)
    · rw [first.bitNr]
      exact different zone (List.mem_append_left _ member)

theorem Frees.append (first : Frees s s₁ a a') (second : Frees s₁ s₂ b b') :
    Frees s s₂ (a ++ b) (a' ++ b') := by
  refine first.combine second fun zones zones' permA permB => ?_
  rw [List.perm_iff_count] at permA permB ⊢
  intro zone
  have := permA zone
  have := permB zone
  simp only [List.count_append] at *
  omega

theorem Frees.trans (first : Frees s s₁ a b) (second : Frees s₁ s₂ b b') : Frees s s₂ a b' := by
  refine first.combine second fun zones zones' permA permB => ?_
  rw [List.perm_iff_count] at permA permB ⊢
  intro zone
  have := permA zone
  have := permB zone
  simp only [List.count_append] at *
  omega

theorem frees_setPtr (s : Truncating) (c : Cell) (v : Nat) : Frees s (s.setPtr c v) [] [] := by
  refine ⟨⟨[], rfl, List.Perm.refl _, by simp, fun nr _ => ?_⟩, ?_, ?_, ?_, Nat.le_refl _⟩
  · exact congrFun Device.zmap_setPtr nr
  · exact Device.sFirstdatazone_setPtr
  · exact Device.sNzones_setPtr
  · cases c <;> rfl

theorem Frees.mem_of_left (frees : Frees s s' a b) (member : zone ∈ b) : zone ∈ a := by
  obtain ⟨zones, -, perm, -⟩ := frees.freed
  exact perm.subset (List.mem_append_right _ member)

theorem Frees.nodup (frees : Frees s s' a b) (nodup : a.Nodup) : b.Nodup := by
  obtain ⟨zones, -, perm, -⟩ := frees.freed
  exact (List.nodup_append.mp (perm.nodup_iff.mpr nodup)).2.1

theorem Waited.mono {s₀ s₃ : Truncating} (waited : Waited busy s s' a) (before : s₀.calls ≤ s.calls)
    (behind : s'.calls ≤ s₃.calls) (more : a ⊆ b) : Waited busy s₀ s₃ b := by
  obtain ⟨n, zone, above, below, member, isBusy⟩ := waited
  exact ⟨n, zone, Nat.le_trans before above, Nat.lt_of_lt_of_le below behind, more member, isBusy⟩

end Frees

/-! ## One block -/

section Trees

variable {busy : Nat → Nat → Bool} {s s' : Truncating} {d d' : Device}
variable {height block zone : Nat} {c : Cell}

theorem mem_zonesBelow_self : block ∈ d.zonesBelow height block := by
  cases height with
  | zero => exact List.mem_singleton_self block
  | succ height => simp [Device.zonesBelow]

/-- The zones depend on the pointers in them only. -/
theorem zonesBelow_congr
    (same : ∀ b ∈ d.zonesBelow height block, ∀ j, d'.ptr (.entry b j) = d.ptr (.entry b j)) :
    d'.zonesBelow height block = d.zonesBelow height block := by
  induction height generalizing block with
  | zero => rfl
  | succ height ih =>
      rw [Device.zonesBelow, Device.zonesBelow]
      refine congrArg (· ++ [block]) (List.flatMap_congr fun c member => ?_)
      obtain ⟨j, inside, rfl⟩ := List.mem_map.mp member
      rw [same block mem_zonesBelow_self j]
      split
      · rfl
      · rename_i points
        refine ih fun b below j' => same b ?_ j'
        refine List.mem_append_left _ (List.mem_flatMap.mpr ⟨_, member, ?_⟩)
        rwa [if_neg points]

theorem slotZones_congr (here : d'.ptr c = d.ptr c)
    (same : ∀ b ∈ d.slotZones height c, ∀ j, d'.ptr (.entry b j) = d.ptr (.entry b j)) :
    d'.slotZones height c = d.slotZones height c := by
  rw [Device.slotZones] at same
  rw [Device.slotZones, Device.slotZones, here]
  split
  · rfl
  · rename_i points
    rw [if_neg points] at same
    exact zonesBelow_congr same

theorem freeBlock_works : Works busy 0 (freeBlock busy) := by
  intro s block _ inside
  have inside : s.device.InZones block := inside block mem_zonesBelow_self
  by_cases isBusy : busy s.calls block = true
  · refine ⟨{ s with calls := s.calls + 1 }, false, ?_, ?_, fun _ _ _ => rfl, fun _ => ?_⟩
    · rw [freeBlock, if_pos inside, if_pos isBusy]
    · exact ⟨⟨[], rfl, List.Perm.refl _, by simp, fun _ _ => rfl⟩, rfl, rfl, rfl, Nat.le_succ _⟩
    · exact ⟨s.calls, block, Nat.le_refl _, Nat.lt_succ_self _, mem_zonesBelow_self, isBusy⟩
  · refine ⟨_, true, by rw [freeBlock, if_pos inside, if_neg isBusy], ?_, fun _ _ _ => ?_, nofun⟩
    · refine ⟨⟨[block], rfl, List.Perm.refl _, ?_, ?_⟩, rfl, rfl, rfl, Nat.le_succ _⟩
      · intro zone member
        obtain rfl := List.mem_singleton.mp member
        exact Function.update_self ..
      · intro nr different
        exact Function.update_of_ne (different block (List.mem_singleton_self _)).symm ..
    · exact Device.ptr_setBits

end Trees

/-! ## A loop over pointers -/

section Slots

variable {busy : Nat → Nat → Bool} {s s₁ s' : Truncating} {height : Nat} {c : Cell}
variable {cells : List Cell} {free : Truncating → Nat → Option (Truncating × Bool)}

/-- The zones that the pointers lead to. -/
def zonesOf (s : Truncating) (height : Nat) (cells : List Cell) : List Nat :=
  cells.flatMap (s.device.slotZones height)

/-- No pointer of the loop is in a block that the loop frees. -/
def Apart (s : Truncating) (height : Nat) (cells : List Cell) : Prop :=
  ∀ block j, .entry block j ∈ cells → block ∉ s.zonesOf height cells

theorem mem_zonesOf {zone : Nat} (member : c ∈ cells) (below : zone ∈ s.device.slotZones height c) :
    zone ∈ s.zonesOf height cells :=
  List.mem_flatMap.mpr ⟨c, member, below⟩

theorem zonesOf_congr
    (same : ∀ c ∈ cells, s'.device.slotZones height c = s.device.slotZones height c) :
    s'.zonesOf height cells = s.zonesOf height cells :=
  List.flatMap_congr same

/-- Freeing what one pointer leads to leaves the other pointers of the loop alone. -/
theorem slotZones_of_keeps {gone : List Nat} (keeps : Keeps s s' [c] gone)
    (nodup : (gone ++ s.zonesOf height cells).Nodup) (other : c ∉ cells)
    (apart : ∀ block j, .entry block j ∈ c :: cells →
      block ∉ gone ++ s.zonesOf height cells) :
    ∀ c' ∈ cells, s'.device.slotZones height c' = s.device.slotZones height c' := by
  intro c' member
  have different : c' ≠ c := by
    rintro rfl
    exact other member
  refine slotZones_congr (keeps c' (by simpa using different) ?_) fun b below j => ?_
  · rintro block j rfl gone
    exact apart block j (List.mem_cons_of_mem c member) (List.mem_append_left _ gone)
  · have inRest : b ∈ s.zonesOf height cells := mem_zonesOf member below
    refine keeps _ ?_ ?_
    · intro same
      have same := List.mem_singleton.mp same
      exact apart b j (same ▸ List.mem_cons_self) (List.mem_append_right _ inRest)
    · rintro block j' same isGone
      obtain rfl := (Cell.entry.inj same).1
      exact (List.nodup_append.mp nodup).2.2 b isGone b inRest rfl

/-- What a loop over pointers does. -/
theorem freeSlots_works (works : Works busy height free) (nodupCells : cells.Nodup)
    (blockBusy : Bool) (nodup : (s.zonesOf height cells).Nodup)
    (inside : ∀ zone ∈ s.zonesOf height cells, s.device.InZones zone)
    (apart : s.Apart height cells) :
    ∃ s' waits, freeSlots free cells blockBusy s = some (s', blockBusy || waits) ∧
      Loops busy s s' waits cells (zonesOf · height cells) := by
  induction cells generalizing s blockBusy with
  | nil =>
      exact ⟨s, false, by rw [freeSlots, Bool.or_false], Frees.refl s [], fun _ _ _ => rfl,
        by simp, nofun⟩
  | cons c cells ih =>
      obtain ⟨other, nodupCells⟩ := List.nodup_cons.mp nodupCells
      have split : s.zonesOf height (c :: cells) =
          s.device.slotZones height c ++ s.zonesOf height cells := List.flatMap_cons
      rw [split] at nodup inside
      rw [Apart, split] at apart
      have restApart : s.Apart height cells := fun block j member below =>
        apart block j (List.mem_cons_of_mem c member) (List.mem_append_right _ below)
      have restNodup := (List.nodup_append.mp nodup).2.1
      have restInside : ∀ zone ∈ s.zonesOf height cells, s.device.InZones zone :=
        fun zone member => inside zone (List.mem_append_right _ member)
      have split' (s' : Truncating) : s'.zonesOf height (c :: cells) =
          s'.device.slotZones height c ++ s'.zonesOf height cells := List.flatMap_cons
      have restSub : s.zonesOf height cells ⊆ s.zonesOf height (c :: cells) := by
        rw [split]
        exact List.subset_append_right _ _
      by_cases null : s.device.ptr c = 0
      · obtain ⟨s', waits, called, frees, keeps, cleared, waited⟩ :=
          ih nodupCells blockBusy restNodup restInside restApart
        have stays : s'.device.ptr c = 0 := by
          refine (keeps c other fun block j same below => ?_).trans null
          exact apart block j (same ▸ List.mem_cons_self) (List.mem_append_right _ below)
        refine ⟨s', waits, by rw [freeSlots, if_pos null, called], ?_, ?_, ?_, ?_⟩
        · rw [split, split', Device.slotZones, if_pos null, Device.slotZones, if_pos stays]
          exact frees
        · intro c' notIn away
          exact keeps c' (fun member => notIn (List.mem_cons_of_mem c member))
            fun block j same below => away block j same (restSub below)
        · intro done c' member
          rcases List.mem_cons.mp member with rfl | member
          · exact stays
          · exact cleared done c' member
        · exact fun busy => (waited busy).mono (Nat.le_refl _) (Nat.le_refl _) restSub
      · have here : s.device.slotZones height c = s.device.zonesBelow height (s.device.ptr c) :=
          if_neg null
        rw [here] at nodup inside apart split
        obtain ⟨s₁, ok, freed, frees₁, keeps₁, waited₁⟩ := works s (s.device.ptr c)
          (List.nodup_append.mp nodup).1 fun zone member =>
            inside zone (List.mem_append_left _ member)
        have hereSub : s.device.zonesBelow height (s.device.ptr c) ⊆
            s.zonesOf height (c :: cells) := by
          rw [split]
          exact List.subset_append_left _ _
        cases ok with
        | true =>
            have keeps₂ : Keeps s (s₁.setPtr c 0) [c]
                (s.device.zonesBelow height (s.device.ptr c)) := fun c' different away =>
              (Device.ptr_setPtr_of_ne (List.mem_singleton.not.mp different)).trans
                (keeps₁ c' List.not_mem_nil away)
            have same := zonesOf_congr (slotZones_of_keeps keeps₂ nodup other apart)
            have frees₂ : Frees s (s₁.setPtr c 0)
                (s.device.zonesBelow height (s.device.ptr c)) [] := by
              simpa only [List.append_nil, if_true] using frees₁.append (frees_setPtr s₁ c 0)
            obtain ⟨s', waits, called, frees, keeps, cleared, waited⟩ :=
              @ih (s₁.setPtr c 0) nodupCells blockBusy (same ▸ restNodup)
                (fun zone member => frees₂.inZones.mpr (restInside zone (same ▸ member)))
                fun block j member below => restApart block j member (same ▸ below)
            rw [same] at frees keeps waited
            have stays : s'.device.ptr c = 0 := by
              refine (keeps c other fun block j isEntry below => ?_).trans
                (Device.ptr_setPtr_self (by decide))
              exact apart block j (isEntry ▸ List.mem_cons_self) (List.mem_append_right _ below)
            refine ⟨s', waits, by rw [freeSlots, if_neg null, freed]; exact called, ?_, ?_, ?_, ?_⟩
            · rw [split, split', Device.slotZones, if_pos stays]
              exact frees₂.append frees
            · intro c' notIn away
              refine (keeps c' (fun member => notIn (List.mem_cons_of_mem c member))
                fun block j isEntry below => away block j isEntry (restSub below)).trans ?_
              refine keeps₂ c' (fun member => ?_)
                fun block j isEntry below => away block j isEntry (hereSub below)
              exact notIn (List.mem_singleton.mp member ▸ List.mem_cons_self)
            · intro done c' member
              rcases List.mem_cons.mp member with rfl | member
              · exact stays
              · exact cleared done c' member
            · exact fun busy => (waited busy).mono frees₂.calls (Nat.le_refl _) restSub
        | false =>
            have keeps₂ : Keeps s s₁ [c] (s.device.zonesBelow height (s.device.ptr c)) :=
              fun c' _ away => keeps₁ c' List.not_mem_nil away
            have same := zonesOf_congr (slotZones_of_keeps keeps₂ nodup other apart)
            obtain ⟨s', waits, called, frees, keeps, cleared, waited⟩ :=
              @ih s₁ nodupCells true (same ▸ restNodup)
                (fun zone member => frees₁.inZones.mpr (restInside zone (same ▸ member)))
                fun block j member below => restApart block j member (same ▸ below)
            rw [same] at frees keeps waited
            have pointer : s₁.device.ptr c = s.device.ptr c :=
              keeps₁ c List.not_mem_nil fun block j isEntry below =>
                apart block j (isEntry ▸ List.mem_cons_self) (List.mem_append_left _ below)
            have left : s₁.device.slotZones height c =
                s₁.device.zonesBelow height (s.device.ptr c) := by
              rw [Device.slotZones, pointer, if_neg null]
            -- what is left below the pointer stays as it is
            have stays : s'.device.slotZones height c = s₁.device.slotZones height c := by
              refine slotZones_congr (keeps c other fun block j isEntry below => ?_)
                fun block below j => keeps _ (fun member => ?_) fun block' j' isEntry rest => ?_
              · exact apart block j (isEntry ▸ List.mem_cons_self) (List.mem_append_right _ below)
              · rw [left] at below
                exact apart block j (List.mem_cons_of_mem c member)
                  (List.mem_append_left _ (frees₁.mem_of_left below))
              · rw [left] at below
                obtain rfl := (Cell.entry.inj isEntry).1
                exact (List.nodup_append.mp nodup).2.2 block (frees₁.mem_of_left below) block
                  rest rfl
            refine ⟨s', true, ?_, ?_, ?_, nofun, ?_⟩
            · rw [freeSlots, if_neg null, freed, Bool.or_true]
              exact called
            · rw [split, split', stays, left]
              exact frees₁.append frees
            · intro c' notIn away
              refine (keeps c' (fun member => notIn (List.mem_cons_of_mem c member))
                fun block j isEntry below => away block j isEntry (restSub below)).trans ?_
              exact keeps₁ c' List.not_mem_nil
                fun block j isEntry below => away block j isEntry (hereSub below)
            · exact fun _ => (waited₁ rfl).mono (Nat.le_refl _) frees.calls hereSub

end Slots

/-! ## An indirect block -/

section Blocks

variable {busy : Nat → Nat → Bool} {s s' : Truncating} {height block : Nat}

theorem nodup_entries : (entries block).Nodup :=
  List.pairwise_map.mpr (List.nodup_range.imp fun different same =>
    different (Cell.entry.inj same).2)

/-- Freeing a block changes no pointer. -/
theorem ptr_freeBlock {ok : Bool} {c : Cell} (freed : s.freeBlock busy block = some (s', ok)) :
    s'.device.ptr c = s.device.ptr c := by
  rw [freeBlock] at freed
  split at freed
  · split at freed
    · cases freed
      rfl
    · cases freed
      exact Device.ptr_setBits
  · cases freed

theorem mem_entries {c : Cell} (member : c ∈ entries block) : ∃ j, c = .entry block j := by
  obtain ⟨j, -, same⟩ := List.mem_map.mp member
  exact ⟨j, same.symm⟩

attribute [local irreducible] entries

theorem zonesBelow_succ : s.device.zonesBelow (height + 1) block =
    s.zonesOf height (entries block) ++ [block] := rfl

theorem freeTree_waits
    (waits : freeSlots (freeTree busy height) (entries block) false s = some (s', true)) :
    freeTree busy (height + 1) s block = some (s', false) := by
  change (match freeSlots (freeTree busy height) (entries block) false s with
    | none => none
    | some (s, true) => some (s, false)
    | some (s, false) => s.freeBlock busy block) = _
  rw [waits]

theorem freeTree_freeBlock
    (done : freeSlots (freeTree busy height) (entries block) false s = some (s', false)) :
    freeTree busy (height + 1) s block = s'.freeBlock busy block := by
  change (match freeSlots (freeTree busy height) (entries block) false s with
    | none => none
    | some (s, true) => some (s, false)
    | some (s, false) => s.freeBlock busy block) = _
  rw [done]

theorem zonesOf_null {cells : List Cell} (null : ∀ c ∈ cells, s.device.ptr c = 0) :
    s.zonesOf height cells = [] :=
  List.flatMap_eq_nil_iff.mpr fun c member => if_pos (null c member)

/-- A block is freed after all that its entries lead to is. -/
theorem freeTree_works : Works busy height (freeTree busy height) := by
  induction height with
  | zero => exact freeBlock_works
  | succ height ih =>
      intro s block nodup inside
      rw [zonesBelow_succ] at nodup inside
      obtain ⟨nodupBelow, -, away⟩ := List.nodup_append.mp nodup
      have insideBelow : ∀ zone ∈ s.zonesOf height (entries block), s.device.InZones zone :=
        fun zone member => inside zone (List.mem_append_left _ member)
      have apart : s.Apart height (entries block) := by
        intro block' j member below
        obtain ⟨j', same⟩ := mem_entries member
        obtain rfl := (Cell.entry.inj same).1
        exact away block' below block' (List.mem_singleton_self block') rfl
      obtain ⟨s₁, waits, called, frees₁, keeps₁, cleared, waited⟩ :=
        freeSlots_works ih nodup_entries false nodupBelow insideBelow apart
      have keeps : Keeps s s₁ [] (s.device.zonesBelow (height + 1) block) := by
        rw [zonesBelow_succ]
        refine fun c _ outside => keeps₁ c (fun member => ?_) fun b j isEntry below =>
          outside b j isEntry (List.mem_append_left _ below)
        obtain ⟨j, isEntry⟩ := mem_entries member
        exact outside block j isEntry (List.mem_append_right _ (List.mem_singleton_self block))
      have sub : s.zonesOf height (entries block) ⊆ s.device.zonesBelow (height + 1) block :=
        List.subset_append_left _ _
      rw [Bool.false_or] at called
      cases waits with
      | true =>
          refine ⟨s₁, false, freeTree_waits called, ?_, keeps, fun _ => ?_⟩
          · rw [zonesBelow_succ, if_neg Bool.false_ne_true, zonesBelow_succ]
            exact frees₁.append (Frees.refl s₁ [block])
          · exact (waited rfl).mono (Nat.le_refl _) (Nat.le_refl _) sub
      | false =>
          have null := cleared rfl
          have inside₁ : ∀ zone ∈ s₁.device.zonesBelow 0 block, s₁.device.InZones zone :=
            fun zone member => frees₁.inZones.mpr (inside zone (List.mem_append_right _ member))
          obtain ⟨s₂, ok, freed, frees₂, -, waited₂⟩ :=
            freeBlock_works s₁ block (List.pairwise_singleton _ block) inside₁
          rw [zonesOf_null null] at frees₁
          have all := frees₁.append frees₂
          have pointers : Keeps s s₂ [] (s.device.zonesBelow (height + 1) block) :=
            fun c notIn outside => (ptr_freeBlock freed).trans (keeps c notIn outside)
          refine ⟨s₂, ok, (freeTree_freeBlock called).trans freed, ?_, pointers, fun refused => ?_⟩
          · cases ok with
            | true => exact all
            | false =>
                have null₂ : ∀ c ∈ entries block, s₂.device.ptr c = 0 :=
                  fun c member => (ptr_freeBlock freed).trans (null c member)
                rw [if_neg Bool.false_ne_true, zonesBelow_succ, zonesBelow_succ,
                  zonesOf_null null₂]
                exact all
          · exact (waited₂ refused).mono frees₁.calls (Nat.le_refl _)
              (List.subset_append_right _ _)

end Blocks

/-! ## A round -/

section Rounds

variable {busy : Nat → Nat → Bool} {s s₁ s₂ s' : Truncating} {waits waits' blockBusy : Bool}
variable {cells cells' : List Cell} {zones zones' : Truncating → List Nat}
variable {height inode k : Nat} {c : Cell}

/-- The zones depend on these pointers and on those in the zones only. -/
def Depends (cells : List Cell) (zones : Truncating → List Nat) : Prop :=
  ∀ s s' : Truncating, (∀ c ∈ cells, s'.device.ptr c = s.device.ptr c) →
    (∀ b ∈ zones s, ∀ j, s'.device.ptr (.entry b j) = s.device.ptr (.entry b j)) →
    zones s' = zones s

/-- All these pointers are in `i_zone` of the inode. -/
def Roots (inode : Nat) (cells : List Cell) : Prop := ∀ c ∈ cells, ∃ k, c = .zone inode k

theorem depends_zonesOf : Depends cells (zonesOf · height cells) := fun _ _ here same =>
  zonesOf_congr fun c member => slotZones_congr (here c member)
    fun b below j => same b (mem_zonesOf member below) j

theorem Roots.apart (roots : Roots inode cells) : s.Apart height cells := by
  intro block j member
  obtain ⟨k, isZone⟩ := roots _ member
  cases isZone

/-- A loop leaves alone what other pointers lead to. -/
theorem Loops.kept (loops : Loops busy s s₁ waits cells zones) (depends : Depends cells' zones')
    (roots : Roots inode cells') (entries : ∀ b ∈ zones' s, ∀ j, Cell.entry b j ∉ cells)
    (others : ∀ c ∈ cells', c ∉ cells) (nodup : (zones s ++ zones' s).Nodup) :
    zones' s₁ = zones' s := by
  refine depends s s₁ (fun c member => loops.keeps c (others c member) ?_) fun b below j => ?_
  · rintro block j rfl
    obtain ⟨k, isZone⟩ := roots _ member
    cases isZone
  · refine loops.keeps _ (entries b below j) fun block j' isEntry gone => ?_
    obtain rfl := (Cell.entry.inj isEntry).1
    exact (List.nodup_append.mp nodup).2.2 b gone b below rfl

theorem Roots.entry (roots : Roots inode cells) (b j : Nat) : Cell.entry b j ∉ cells := by
  intro member
  obtain ⟨k, isZone⟩ := roots _ member
  cases isZone

/-- One loop after the other. -/
theorem Loops.append (first : Loops busy s s₁ waits cells zones)
    (second : Loops busy s₁ s₂ waits' cells' zones') (kept : zones' s₁ = zones' s)
    (depends : Depends cells zones) (roots : Roots inode cells) (roots' : Roots inode cells')
    (others : ∀ c ∈ cells, c ∉ cells') (nodup : (zones s ++ zones' s).Nodup) :
    Loops busy s s₂ (waits || waits') (cells ++ cells') fun s => zones s ++ zones' s := by
  obtain ⟨-, -, away⟩ := List.nodup_append.mp nodup
  have stays (c : Cell) (member : c ∈ cells) : s₂.device.ptr c = s₁.device.ptr c := by
    refine second.keeps c (others c member) fun block j isEntry => ?_
    exact absurd (isEntry ▸ member) (roots.entry block j)
  have left : zones s₂ = zones s₁ := by
    refine depends s₁ s₂ stays fun b below j => second.keeps _ (roots'.entry b j) ?_
    intro block j' isEntry gone
    obtain rfl := (Cell.entry.inj isEntry).1
    exact away b (first.frees.mem_of_left below) b (kept ▸ gone) rfl
  have frees := second.frees
  have keeps := second.keeps
  rw [kept] at frees keeps
  refine ⟨?_, ?_, ?_, ?_⟩
  · rw [left]
    exact first.frees.append frees
  · intro c notIn outside
    refine (keeps c (fun member => notIn (List.mem_append_right _ member))
      fun block j isEntry gone => outside block j isEntry (List.mem_append_right _ gone)).trans ?_
    exact first.keeps c (fun member => notIn (List.mem_append_left _ member))
      fun block j isEntry gone => outside block j isEntry (List.mem_append_left _ gone)
  · intro done c member
    obtain ⟨done, done'⟩ := Bool.or_eq_false_iff.mp done
    rcases List.mem_append.mp member with member | member
    · exact (stays c member).trans (first.cleared done c member)
    · exact second.cleared done' c member
  · intro either
    rcases Bool.or_eq_true_iff.mp either with waited | waited
    · exact (first.waited waited).mono (Nat.le_refl _) second.frees.calls
        (List.subset_append_left _ _)
    · refine (second.waited waited).mono first.frees.calls (Nat.le_refl _) ?_
      rw [kept]
      exact List.subset_append_right _ _

/-- A pointer to an indirect block is a loop of its own. -/
theorem freeRoot_eq (free : Truncating → Nat → Option (Truncating × Bool)) :
    freeRoot (fun s block => if block = 0 then some (s, true) else free s block) inode k s
      blockBusy = freeSlots free [.zone inode k] blockBusy s := by
  have pointer : s.device.ptr (.zone inode k) = s.device.iZone inode k := rfl
  rw [freeRoot, freeSlots, pointer]
  by_cases null : s.device.iZone inode k = 0
  · have same : s.setPtr (.zone inode k) 0 = s :=
      congrArg (fun device => { s with device := device }) (setPtr_null null)
    rw [if_pos null, if_pos null, freeSlots]
    exact congrArg (fun s => some (s, blockBusy)) same
  · rw [if_neg null, if_neg null]
    rcases free s (s.device.iZone inode k) with _ | ⟨s', _ | _⟩ <;> rfl

/-- A round is three loops. -/
theorem round_eq : s.round busy inode =
    (freeSlots (freeBlock busy) ((List.range 7).map (.zone inode)) false s).bind fun x =>
      (freeSlots (freeTree busy 1) [.zone inode 7] x.2 x.1).bind fun x =>
        freeSlots (freeTree busy 2) [.zone inode 8] x.2 x.1 := by
  simp only [← freeRoot_eq]
  rfl

/-- The zones that the direct pointers lead to, and those below the indirect blocks. -/
theorem reachable_eq : s.device.reachable inode =
    (s.zonesOf 0 ((List.range 7).map (.zone inode)) ++ s.zonesOf 1 [.zone inode 7]) ++
      s.zonesOf 2 [.zone inode 8] := by
  simp [Device.reachable, zonesOf, List.range_succ]

theorem Depends.append (depends : Depends cells zones) (depends' : Depends cells' zones') :
    Depends (cells ++ cells') fun s => zones s ++ zones' s := by
  intro s s' here same
  refine congrArg₂ (· ++ ·) ?_ ?_
  · exact depends s s' (fun c member => here c (List.mem_append_left _ member))
      fun b below => same b (List.mem_append_left _ below)
  · exact depends' s s' (fun c member => here c (List.mem_append_right _ member))
      fun b below => same b (List.mem_append_right _ below)

theorem Roots.append (roots : Roots inode cells) (roots' : Roots inode cells') :
    Roots inode (cells ++ cells') := by
  intro c member
  rcases List.mem_append.mp member with member | member
  · exact roots c member
  · exact roots' c member

theorem roots_singleton : Roots inode [.zone inode k] :=
  fun _ member => ⟨k, List.mem_singleton.mp member⟩

/-- The next pointer to an indirect block. -/
theorem Loops.next {free : Truncating → Nat → Option (Truncating × Bool)}
    (first : Loops busy s s₁ waits cells zones) (works : Works busy height free)
    (depends : Depends cells zones) (roots : Roots inode cells)
    (other : .zone inode k ∉ cells) (nodup : (zones s ++ s.zonesOf height [.zone inode k]).Nodup)
    (inside : ∀ zone ∈ s.zonesOf height [.zone inode k], s.device.InZones zone) :
    ∃ s₂ waits', freeSlots free [.zone inode k] waits s₁ = some (s₂, waits') ∧
      Loops busy s s₂ waits' (cells ++ [.zone inode k])
        fun s => zones s ++ s.zonesOf height [.zone inode k] := by
  have kept : s₁.zonesOf height [.zone inode k] = s.zonesOf height [.zone inode k] :=
    first.kept depends_zonesOf roots_singleton (fun b _ => roots.entry b)
      (fun c member => List.mem_singleton.mp member ▸ other) nodup
  obtain ⟨s₂, waits', called, second⟩ := @freeSlots_works busy s₁ height [.zone inode k] free
    works (List.pairwise_singleton _ _) waits
    (kept ▸ (List.nodup_append.mp nodup).2.1)
    (fun zone member => first.frees.inZones.mpr (inside zone (kept ▸ member)))
    roots_singleton.apart
  refine ⟨s₂, _, called, first.append second kept depends roots roots_singleton ?_ nodup⟩
  intro c member single
  exact other (List.mem_singleton.mp single ▸ member)

/-- What a round does. -/
theorem round_works (nodup : (s.device.reachable inode).Nodup)
    (inside : ∀ zone ∈ s.device.reachable inode, s.device.InZones zone) :
    ∃ s' waits, s.round busy inode = some (s', waits) ∧
      Loops busy s s' waits ((List.range 9).map (.zone inode))
        (·.device.reachable inode) := by
  have zones : (fun s : Truncating => s.device.reachable inode) = _ :=
    funext fun s => reachable_eq
  rw [zones]
  rw [reachable_eq] at nodup inside
  have nodup₁ := (List.nodup_append.mp nodup).1
  have inside₁ := fun zone member => inside zone (List.mem_append_left _ member)
  have directRoots : Roots inode ((List.range 7).map (.zone inode)) := by
    intro c member
    obtain ⟨k, -, same⟩ := List.mem_map.mp member
    exact ⟨k, same.symm⟩
  have directCells : ((List.range 7).map (Cell.zone inode)).Nodup :=
    List.pairwise_map.mpr (List.nodup_range.imp fun different same =>
      different (Cell.zone.inj same).2)
  obtain ⟨s₁, waits₁, called₁, direct⟩ := @freeSlots_works busy s 0 _ _ freeBlock_works
    directCells false (List.nodup_append.mp nodup₁).1
    (fun zone member => inside₁ zone (List.mem_append_left _ member)) directRoots.apart
  obtain ⟨s₂, waits₂, called₂, ind⟩ := direct.next (@freeTree_works busy 1)
    depends_zonesOf directRoots (by simp : Cell.zone inode 7 ∉ _) nodup₁
    fun zone member => inside₁ zone (List.mem_append_right _ member)
  obtain ⟨s₃, waits₃, called₃, dind⟩ := ind.next (@freeTree_works busy 2)
    (depends_zonesOf.append depends_zonesOf) (directRoots.append roots_singleton)
    (by simp : Cell.zone inode 8 ∉ _) nodup
    fun zone member => inside zone (List.mem_append_right _ member)
  refine ⟨s₃, waits₃, ?_, ?_⟩
  · rw [Bool.false_or] at called₁
    simp only [round_eq, called₁, called₂, called₃, Option.bind_some]
  · have cells : (List.range 9).map (Cell.zone inode) =
        (List.range 7).map (.zone inode) ++ [.zone inode 7] ++ [.zone inode 8] := by
      simp [List.range_succ]
    rw [cells]
    exact dind

end Rounds

/-! ## All rounds -/

section Truncate

variable {busy : Nat → Nat → Bool} {s s' : Truncating} {inode rounds : Nat} {d : Device}

/-- Nothing is freed twice or left, however many rounds it takes. -/
theorem repeatRounds_frees (nodup : (s.device.reachable inode).Nodup)
    (inside : ∀ zone ∈ s.device.reachable inode, s.device.InZones zone)
    (returns : repeatRounds busy inode rounds s = some s') :
    ∃ s₁ : Truncating, s' = { s₁ with device := s₁.device.setSize inode 0 } ∧
      Frees s s₁ (s.device.reachable inode) [] ∧ ∀ k < 9, s₁.device.iZone inode k = 0 := by
  induction rounds generalizing s with
  | zero => cases returns
  | succ rounds ih =>
      obtain ⟨s₁, waits, called, frees, -, cleared, -⟩ := @round_works busy s inode nodup inside
      rw [repeatRounds, called] at returns
      cases waits with
      | true =>
          obtain ⟨s₂, ends, frees₂, null⟩ := ih (frees.nodup nodup)
            (fun zone member => frees.inZones.mpr (inside zone (frees.mem_of_left member))) returns
          exact ⟨s₂, ends, frees.trans frees₂, null⟩
      | false =>
          have null (k : Nat) (small : k < 9) : s₁.device.iZone inode k = 0 :=
            cleared rfl (.zone inode k) (List.mem_map_of_mem (List.mem_range.mpr small))
          have nothing : s₁.device.reachable inode = [] :=
            List.flatMap_eq_nil_iff.mpr fun k member => if_pos (null k (List.mem_range.mp member))
          rw [nothing] at frees
          exact ⟨s₁, (Option.some.inj returns).symm, frees, null⟩

/-- `truncate` returns when the blocks are released at some time: every round that waits has
called `free_block` at least once before. -/
theorem repeatRounds_returns {released : Nat} (nodup : (s.device.reachable inode).Nodup)
    (inside : ∀ zone ∈ s.device.reachable inode, s.device.InZones zone)
    (free : ∀ n, released ≤ n → ∀ zone ∈ s.device.reachable inode, busy n zone = false) :
    ∃ rounds s', repeatRounds busy inode rounds s = some s' := by
  induction ahead : released - s.calls using Nat.strongRecOn generalizing s
  rename_i ahead ih
  obtain ⟨s₁, waits, called, frees, -, -, waited⟩ := @round_works busy s inode nodup inside
  cases waits with
  | false => exact ⟨1, _, by rw [repeatRounds, called]⟩
  | true =>
      obtain ⟨n, zone, above, below, member, isBusy⟩ := waited rfl
      have early : n < released := by
        by_contra late
        rw [free n (Nat.not_lt.mp late) zone member] at isBusy
        cases isBusy
      obtain ⟨rounds, s', returns⟩ := ih (released - s₁.calls) (by omega) (frees.nodup nodup)
        (fun zone member => frees.inZones.mpr (inside zone (frees.mem_of_left member)))
        (fun n late zone member => free n late zone (frees.mem_of_left member)) rfl
      exact ⟨rounds + 1, s', by rw [repeatRounds, called]; exact returns⟩

theorem exists_released (released : ∀ zone, ∃ n, ∀ m, n ≤ m → busy m zone = false)
    (zones : List Nat) : ∃ n, ∀ m, n ≤ m → ∀ zone ∈ zones, busy m zone = false := by
  induction zones with
  | nil => exact ⟨0, fun _ _ _ member => nomatch member⟩
  | cons zone zones ih =>
      obtain ⟨n, later⟩ := released zone
      obtain ⟨n', later'⟩ := ih
      refine ⟨max n n', fun m behind zone' member => ?_⟩
      rcases List.mem_cons.mp member with rfl | member
      · exact later m (Nat.le_trans (Nat.le_max_left n n') behind)
      · exact later' m (Nat.le_trans (Nat.le_max_right n n') behind) zone' member

/-- The file is empty: the bits of its zones were cleared, each of them once, and no other
bit has changed. -/
structure Empties (d : Device) (inode : Nat) (s : Truncating) : Prop where
  zones : ∀ k < 9, s.device.iZone inode k = 0
  size : s.device.iSize inode = 0
  once : s.freed.Perm (d.reachable inode)
  cleared : ∀ zone ∈ d.reachable inode, s.device.zmap (d.bitNr zone) = false
  others : ∀ nr, (∀ zone ∈ d.reachable inode, d.bitNr zone ≠ nr) → s.device.zmap nr = d.zmap nr

/-- Whatever blocks are busy, `truncate` has emptied the file when it returns; it returns
when they are released. -/
theorem truncate_empties {mode : UInt16} (hasBlocks : HasBlocks mode)
    (nodup : (d.reachable inode).Nodup)
    (inside : ∀ zone ∈ d.reachable inode, d.InZones zone) :
    (∀ rounds s, truncate busy mode inode rounds ⟨d, 0, []⟩ = some s → Empties d inode s) ∧
    ((∀ zone, ∃ n, ∀ m, n ≤ m → busy m zone = false) →
      ∃ rounds s, truncate busy mode inode rounds ⟨d, 0, []⟩ = some s) := by
  refine ⟨fun rounds s returns => ?_, fun released => ?_⟩
  · rw [truncate, if_pos hasBlocks] at returns
    obtain ⟨s₁, rfl, frees, null⟩ := repeatRounds_frees nodup inside returns
    obtain ⟨zones, freed, perm, cleared, others⟩ := frees.freed
    rw [List.append_nil] at perm freed
    refine ⟨null, ?_, freed ▸ perm, fun zone member => ?_, fun nr away => ?_⟩
    · exact Function.update_self ..
    · exact cleared zone (perm.symm.subset member)
    · exact others nr fun zone member => away zone (perm.subset member)
  · obtain ⟨n, later⟩ := exists_released released (d.reachable inode)
    obtain ⟨rounds, s, returns⟩ := @repeatRounds_returns busy ⟨d, 0, []⟩ inode n nodup inside later
    exact ⟨rounds, s, by rw [truncate, if_pos hasBlocks]; exact returns⟩

/-- A file of two blocks, one of them behind an indirect block. -/
def twoBlocks : Device where
  sFirstdatazone := 2
  sNzones := 10
  firstdatazone_pos := Nat.zero_lt_two
  nzones_lt := by decide
  zmapBits := 8192
  zmap nr := decide (nr < 5)
  data block offset := if block = 4 ∧ offset = 0 then 5 else 0
  iZone _ k := if k = 0 then 3 else if k = 7 then 4 else 0
  iSize _ := 8000

theorem truncate_empties_twoBlocks :
    ∃ rounds s, truncate (fun n zone => decide (zone = 5 ∧ n < 3)) 0o100644 1 rounds
      ⟨twoBlocks, 0, []⟩ = some s ∧ Empties twoBlocks 1 s := by
  obtain ⟨empties, returns⟩ := @truncate_empties (fun n zone => decide (zone = 5 ∧ n < 3)) 1
    twoBlocks 0o100644 (by decide) (by decide +kernel) (by decide +kernel)
  obtain ⟨rounds, s, returned⟩ := returns fun zone => ⟨3, fun m behind => by
    rw [decide_eq_false_iff_not]
    omega⟩
  exact ⟨rounds, s, returned, empties rounds s returned⟩

end Truncate

end Truncating

end Linux012.Zones
