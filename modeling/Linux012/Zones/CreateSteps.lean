import Linux012.Zones.Isolation
import Linux012.Zones.Walks

/-!
# What the calls that create names rely on

A call in `find_entry` has seen no slot with its name, and every slot with it is still ahead;
a call behind `find_entry` relies on that no slot has its name.  A slot that a call copies
its name to is free, and no other call touches it.
-/

namespace Linux012.Zones

open Creates (dot)

/-- A directory: its first entry is `.`, the slots behind its end are free, and no two entries
have one name. -/
structure Device.IsDirectory (d : Device) (dir : Nat) : Prop where
  whole : d.iSize dir % 16 = 0
  first : d.slotInode dir 0 ≠ 0 ∧ d.slotName dir 0 = [dot]
  inside : ∀ k, d.slotInode dir k ≠ 0 → k < d.iSize dir / 16
  distinct : ∀ k k', d.slotInode dir k ≠ 0 → d.slotInode dir k' ≠ 0 →
    d.slotName dir k = d.slotName dir k' → k = k'

variable {d d' : Device} {use : Nat → Option Use} {c : Cell}
variable {dir inode height zone n j k b inr : Nat} {name lookup : List UInt8}

/-! ## Steps on other inodes -/

namespace Device

/-- `new_inode` clears an inode. -/
def clearInode (d : Device) (inr size : Nat) : Device :=
  { d with
    iZone := Function.update d.iZone inr fun _ => 0
    iSize := Function.update d.iSize inr size }

theorem ptr_clearInode {size : Nat} (points : (d.clearInode inr size).ptr c ≠ 0) :
    (d.clearInode inr size).ptr c = d.ptr c := by
  cases c with
  | zone inode k =>
      by_cases same : inode = inr
      · refine absurd ?_ points
        rw [same]
        exact congrFun (Function.update_self inr _ d.iZone) k
      · exact congrFun (Function.update_of_ne same _ d.iZone) k
  | entry block j => rfl

theorem InOrder.clearInode {size : Nat} (order : d.InOrder use) :
    (d.clearInode inr size).InOrder use where
  reserved := order.reserved
  points c inode height owned points := by
    have same := ptr_clearInode points
    rw [same] at points ⊢
    exact order.points c inode height owned points
  once c c' owned owned' same points := by
    have points' := same ▸ points
    rw [ptr_clearInode points] at same points
    rw [ptr_clearInode points'] at same
    exact order.once c c' owned owned' same points
  marked := order.marked

end Device

namespace Shared

variable {s s' : Shared} {task : Nat} {mover : Option Nat}

theorem clearInode_step {size : Nat} (order : s.device.InOrder s.use) :
    s.Step mover { s with device := s.device.clearInode inr size } where
  order := order.clearInode
  refs _ _ _ there := there
  uses _ _ _ used := .inl used
  allocating _ _ _ used := used
  only zone inode height c used _ only c' owned leads := by
    have notNull : zone ≠ 0 := order.ne_zero (by simp [used])
    have points : (s.device.clearInode inr size).ptr c' ≠ 0 := by
      rw [leads]
      exact notNull
    rw [Device.ptr_clearInode points] at leads
    exact only c' owned leads

theorem clearInode_still {size : Nat} (order : s.device.InOrder s.use) (different : inode ≠ inr) :
    s.Still { s with device := s.device.clearInode inr size } inode := by
  have pointers (c : Cell) (height : Nat) (owned : c.owner s.use = some (inode, height)) :
      (s.device.clearInode inr size).ptr c = s.device.ptr c := by
    cases c with
    | zone inode' k =>
        have same : inode' = inode := by
          by_cases inside : k < 9
          · rw [owner_zone inside] at owned
            exact (Prod.mk.inj (Option.some.inj owned)).1
          · simp [Cell.owner, inside] at owned
        rw [same]
        exact congrFun (Function.update_of_ne different _ s.device.iZone) k
    | entry block j => rfl
  refine ⟨⟨fun _ _ used => used, fun c height owned _ => pointers c height owned⟩, ?_, ?_⟩
  · exact Device.contents_congr fun pos small => order.byteAt_congr pointers (fun _ _ => rfl) small
  · exact Function.update_of_ne different _ _

/-- A new block of another inode, wherever it is stored. -/
theorem store_still_of_ne {owner height : Nat} (order : s.device.InOrder s.use)
    (owned : c.owner s.use = some (owner, height)) (used : s.use zone = some (.allocating task))
    (different : inode ≠ owner) : s.Still (s.store owner height c zone) inode := by
  have fresh (inode height : Nat) : s.use zone ≠ some (.block inode height) := by simp [used]
  obtain ⟨contents, size⟩ := store_leaves order owned used inode different
  refine ⟨⟨fun other height' used' => ?_, fun c' height' owned' _ => ?_⟩, contents, size⟩
  · have notNew : other ≠ zone := fun same => fresh _ _ (same ▸ used')
    exact (Function.update_of_ne notNew _ _).trans used'
  · have notStored : c' ≠ c := by
      intro same
      rw [same, owned] at owned'
      cases owned'
      exact different rfl
    exact (Device.ptr_setPtr_of_ne notStored).trans (Device.ptr_clearBlock owned' fresh)

/-- A block of another inode is freed. -/
theorem free_still_of_ne {owner height : Nat} (order : s.device.InOrder s.use)
    (owned : c.owner s.use = some (owner, 0)) (used : s.use zone = some (.block owner height))
    (isRoot : ∃ k, c = .zone owner k) (different : inode ≠ owner) :
    s.Still ((s.drop task zone).free c zone) inode := by
  have pointers (c' : Cell) (height' : Nat) (owned' : c'.owner s.use = some (inode, height')) :
      ((s.device.clearBit zone).setPtr c 0).ptr c' = s.device.ptr c' := by
    have notCleared : c' ≠ c := by
      intro same
      rw [same, owned] at owned'
      cases owned'
      exact different rfl
    exact (Device.ptr_setPtr_of_ne notCleared).trans Device.ptr_setBits
  have data : ((s.device.clearBit zone).setPtr c 0).data = s.device.data := by
    obtain ⟨k, isRoot⟩ := isRoot
    rw [isRoot]
    rfl
  refine ⟨⟨fun other height' used' => ?_, fun c' height' owned' _ => pointers c' height' owned'⟩,
    ?_, ?_⟩
  · have notFreed : other ≠ zone := by
      intro same
      rw [same, used] at used'
      cases used'
      exact different rfl
    exact (Function.update_of_ne notFreed _ _).trans used'
  · refine Device.contents_congr fun pos small => order.byteAt_congr pointers (fun zone' _ => ?_) small
    exact congrFun data zone'
  · cases c <;> rfl

/-- A byte of a data block of another inode. -/
theorem setByte_still_of_ne {owner offset : Nat} {byte : UInt8} (order : s.device.InOrder s.use)
    (used : s.use zone = some (.block owner 0)) (different : inode ≠ owner) :
    s.Still { s with device := s.device.setByte zone offset byte } inode := by
  have leaves : s.Leaves { s with device := s.device.setByte zone offset byte } owner :=
    setByte_leaves order used
  obtain ⟨contents, size⟩ := leaves inode different
  refine ⟨⟨fun _ _ used => used, fun c height owned _ => ?_⟩, contents, size⟩
  cases c with
  | zone => rfl
  | entry block j =>
      refine Device.word_setByte_of_ne fun same => ?_
      rw [← same, (of_owner_entry owned).1] at used
      cases used

end Shared

namespace Creates

variable {s s' : Shared} {task : Nat} {call : Call}

/-! ## Names that are in use -/

/-- Every slot with the name is still ahead of a search. -/
def Seen (d : Device) (dir : Nat) (lookup : List UInt8) (entries first : Nat) : Prop :=
  ∀ k, d.slotInode dir k ≠ 0 → d.slotName dir k = lookup → first ≤ k ∧ k < entries

/-- No slot has the name. -/
def Absent (d : Device) (dir : Nat) (name : List UInt8) : Prop :=
  ∀ k, d.slotInode dir k ≠ 0 → d.slotName dir k ≠ name

theorem slotName_of_contents (same : d'.contents dir = d.contents dir) :
    d'.slotName dir k = d.slotName dir k :=
  slotName_congr fun _ _ => slotByte_congr same

theorem Seen.congr {entries first : Nat} (seen : Seen d dir lookup entries first)
    (same : d'.contents dir = d.contents dir) : Seen d' dir lookup entries first := by
  intro k live named
  rw [slotInode_congr same] at live
  rw [slotName_of_contents same] at named
  exact seen k live named

theorem Absent.congr (absent : Absent d dir name) (same : d'.contents dir = d.contents dir) :
    Absent d' dir name := by
  intro k live
  rw [slotInode_congr same] at live
  rw [slotName_of_contents same]
  exact absent k live

/-- A search goes on behind a slot that does not have the name. -/
theorem Seen.next {entries : Nat} (seen : Seen d dir lookup entries k)
    (other : d.slotInode dir k ≠ 0 → d.slotName dir k ≠ lookup) :
    Seen d dir lookup entries (k + 1) := by
  intro k' live named
  obtain ⟨ahead, inside⟩ := seen k' live named
  have different : k ≠ k' := fun same => other (same ▸ live) (same ▸ named)
  exact ⟨Nat.lt_of_le_of_ne ahead different, inside⟩

theorem Seen.passes {entries first last : Nat} (seen : Seen d dir lookup entries first)
    (passes : ∀ k, first ≤ k → k < entries → k < last → d.slotInode dir k = 0) :
    Seen d dir lookup entries last := by
  intro k live named
  obtain ⟨ahead, inside⟩ := seen k live named
  refine ⟨?_, inside⟩
  by_contra behind
  exact live (passes k ahead inside (Nat.lt_of_not_le behind))

/-! ## The calls -/

namespace Call

/-- The inode that the call has made and not yet given a name. -/
def owns (call : Call) : Option Nat :=
  match call.phase with
  | .makingInode | .releasing _ => none
  | .makingBlock | .clearing _ | .getting _ | .reading _ | .filling .. | .undoing _ | .freeing _ =>
      some call.inr
  | .adding _ | .choosing .. | .copying .. => if call.kind = .link then none else some call.inr
  | .searching | .finding .. | .looking .. | .matching .. | .missing .. | .found _ =>
      if call.kind = .symlink then some call.inr else none

/-- The slot that the call copies its name to. -/
def copies (call : Call) : Option Nat :=
  match call.phase with
  | .copying _ n j _ => some (entriesPerBlock * n + j)
  | _ => none

/-- The end of a search, and the first slot that is still to be looked at. -/
def searches (call : Call) : Option (Nat × Nat) :=
  match call.phase with
  | .finding entries walk => some (entries, walk.ahead)
  | .looking entries _ n j | .matching entries _ n j _ => some (entries, entriesPerBlock * n + j)
  | .missing entries _ => some (entries, entries)
  | _ => none

/-- The call relies on that its name is not there. -/
def decided (call : Call) : Bool :=
  match call.phase with
  | .adding _ | .choosing .. | .copying .. => true
  | .makingInode | .makingBlock | .clearing _ | .getting _ | .reading _ | .filling .. =>
      call.kind ≠ .symlink
  | _ => false

/-- The call does not see an entry with a name that is made in a slot now. -/
def misses (call : Call) (k : Nat) (name : List UInt8) : Bool :=
  (call.decided && call.name == name) ||
    match call.searches with
    | some (entries, first) => call.lookup == name && !(decide (first ≤ k) && decide (k < entries))
    | none => false

/-- What a call relies on at its place. -/
def AtPlace (s : Shared) (task dir : Nat) (call : Call) : Prop :=
  match call.phase with
  | .finding entries walk => walk.Ok s task dir (some entries)
  | .looking _ zone n j => AtBlock s dir zone n ∧ j ≤ entriesPerBlock
  | .matching _ zone n j _ => AtBlock s dir zone n ∧ j < entriesPerBlock
  | .clearing zone => s.use zone = some (.allocating task)
  | .getting zone | .reading zone | .filling zone _ => s.use zone = some (.block call.inr 0)
  | .adding walk => walk.Ok s task dir none
  | .choosing zone n j => AtBlock s dir zone n ∧ j ≤ entriesPerBlock
  | .copying zone n j c => AtBlock s dir zone n ∧ j < entriesPerBlock ∧ c ≤ nameLen ∧
      s.device.slotInode dir (entriesPerBlock * n + j) = 0 ∧
      entriesPerBlock * n + j < s.device.iSize dir / 16 ∧
      ∀ b < c, s.device.slotByte dir (entriesPerBlock * n + j) b = call.name.getD b 0
  | .freeing zone => s.Pins task call.inr 0 zone ∧ s.Only (.zone call.inr 0) zone
  | .searching | .missing .. | .found _ | .makingInode | .makingBlock | .releasing _
  | .undoing _ => True

structure Ok (s : Shared) (task dir : Nat) (call : Call) : Prop where
  noNul : 0 ∉ call.name
  fits : call.name.length ≤ nameLen
  looksFor : call.lookup = call.name ∨ call.lookup = [dot]
  numbered : call.kind = .link → 0 < call.inr ∧ call.inr < 65536
  seen : ∀ entries first, call.searches = some (entries, first) →
    Seen s.device dir call.lookup entries first
  absent : call.decided = true → Absent s.device dir call.name
  place : call.AtPlace s task dir

/-- A new entry that the call does not miss, or no new entry. -/
def Sees (d d' : Device) (dir : Nat) (call : Call) : Prop :=
  ∀ k, d'.slotInode dir k ≠ 0 →
    (d.slotInode dir k ≠ 0 ∧ d'.slotName dir k = d.slotName dir k) ∨
      call.misses k (d'.slotName dir k) = false

theorem seen_of_sees {entries first : Nat} (seen : Seen d dir call.lookup entries first)
    (isSearch : call.searches = some (entries, first)) (sees : call.Sees d d' dir) :
    Seen d' dir call.lookup entries first := by
  intro k live named
  rcases sees k live with ⟨before, same⟩ | notMissed
  · exact seen k before (same ▸ named)
  · unfold misses at notMissed
    rw [isSearch, named, Bool.or_eq_false_iff] at notMissed
    simpa using notMissed.2

theorem absent_of_sees (absent : Absent d dir call.name) (isDecided : call.decided = true)
    (sees : call.Sees d d' dir) : Absent d' dir call.name := by
  intro k live named
  rcases sees k live with ⟨before, same⟩ | notMissed
  · exact absent k before (same ▸ named)
  · unfold misses at notMissed
    rw [isDecided, named] at notMissed
    simp at notMissed

/-- What a call relies on stays under a step of another task that leaves the directory and
the inode of the call, and that makes no entry that the call does not see. -/
theorem Ok.stable {mover : Option Nat} (ok : call.Ok s task dir) (order : s.device.InOrder s.use)
    (step : s.Step mover s') (other : some task ≠ mover) (stays : s.Stays s' dir)
    (own : ∀ inode, call.owns = some inode → s.Stays s' inode)
    (grows : s.device.iSize dir ≤ s'.device.iSize dir) (sees : call.Sees s.device s'.device dir)
    (copied : ∀ k, call.copies = some k → s.device.slotInode dir k = 0 →
      s'.device.slotInode dir k = 0 ∧
        ∀ b < nameLen, s'.device.slotByte dir k b = s.device.slotByte dir k b) :
    call.Ok s' task dir := by
  refine ⟨ok.noNul, ok.fits, ok.looksFor, ok.numbered, fun entries first isSearch => ?_,
    fun isDecided => ?_, ?_⟩
  · exact seen_of_sees (ok.seen entries first isSearch) isSearch sees
  · exact absent_of_sees (ok.absent isDecided) isDecided sees
  · have place := ok.place
    obtain ⟨kind, name, lookup, inr, text, phase⟩ := call
    cases phase with
    | finding entries walk => exact Walk.Ok.stays place order step other stays
    | looking entries zone n j => exact ⟨place.1.stays order stays, place.2⟩
    | matching entries zone n j c => exact ⟨place.1.stays order stays, place.2⟩
    | clearing zone => exact step.allocating zone task other place
    | getting zone => exact (own inr rfl).uses zone 0 place
    | reading zone => exact (own inr rfl).uses zone 0 place
    | filling zone writes => exact (own inr rfl).uses zone 0 place
    | adding walk => exact Walk.Ok.stays place order step other stays
    | choosing zone n j => exact ⟨place.1.stays order stays, place.2⟩
    | copying zone n j c =>
        obtain ⟨at', inside, short, free, within, bytes⟩ := place
        obtain ⟨free', bytes'⟩ := copied _ rfl free
        refine ⟨at'.stays order stays, inside, short, free', ?_, fun b before => ?_⟩
        · exact Nat.lt_of_lt_of_le within (Nat.div_le_div_right grows)
        · rw [bytes' b (Nat.lt_of_lt_of_le before short)]
          exact bytes b before
    | freeing zone => exact ⟨step.pins other place.1, step.stillOnly other place.1 place.2⟩
    | searching => trivial
    | missing entries zone => trivial
    | found zone => trivial
    | makingInode => trivial
    | makingBlock => trivial
    | releasing zone => trivial
    | undoing truncates => trivial

end Call

end Creates

end Linux012.Zones
