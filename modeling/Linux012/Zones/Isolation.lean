import Linux012.Zones.FileSpec
import Linux012.Zones.Sparse
import Linux012.Zones.Owned

/-!
# Files do not spoil one another

In a run in which every call gets the blocks that it asks for, `file_write` changes no other
file and `file_read` reads no zone of another file, whatever the schedule is.
-/

namespace Linux012.Zones

/-- A pointer of the inode leads to the zone. -/
def Device.BelongsTo (d : Device) (inode zone : Nat) : Prop :=
  zone ≠ 0 ∧ ∃ height c, d.Live inode height c ∧ d.ptr c = zone

/-- `file_write` of one inode changes nothing of another one, and `file_read` of one inode
copies no bytes of a zone of another one. -/
structure System.Isolated (s : System) : Prop where
  writes : ∀ task w ok next, s.call task = some (.write w) →
    s.step (.resume task ok) = some next → ∀ inode, inode ≠ w.inode →
      next.device.contents inode = s.device.contents inode ∧
        next.device.iSize inode = s.device.iSize inode
  reads : ∀ task r zone offset chars, s.call task = some (.read r) →
    r.phase = .copying zone offset chars → zone ≠ 0 → ∀ inode, inode ≠ r.inode →
      ¬ s.device.BelongsTo inode zone

/-- No task is in a call. -/
noncomputable def System.start (d : Device) (fPos : Nat → Nat) : System where
  device := d
  refs := []
  fPos := fPos
  use := d.uses
  call _ := none

variable {s s' : Shared} {task inode height zone : Nat} {c : Cell} {strict : Bool}

/-! ## What a step of `file_write` changes -/

/-- Only the file of the inode changes. -/
def Shared.Leaves (s s' : Shared) (inode : Nat) : Prop :=
  ∀ other, other ≠ inode → s'.device.contents other = s.device.contents other ∧
    s'.device.iSize other = s.device.iSize other

namespace Shared

theorem leaves_of_device (same : s'.device = s.device) : s.Leaves s' inode :=
  fun _ _ => by rw [same]; exact ⟨rfl, rfl⟩

theorem setSize_leaves {size : Nat} (order : s.device.InOrder s.use) :
    s.Leaves { s with device := s.device.setSize inode size } inode :=
  fun _ different => ⟨by rw [order.contents_setSize], Function.update_of_ne different _ _⟩

theorem takeZone_leaves (task inode : Nat) (order : s.device.InOrder s.use) :
    s.Leaves (s.takeZone task).1 inode := by
  have bits (zmap : Nat → Bool) (other : Nat) :
      (s.device.setBits zmap).contents other = s.device.contents other := by
    rw [order.contents_setBits]
  intro other _
  rcases Device.takeZone_cases order.reserved with ⟨zmap, taken, -⟩ | ⟨zone, taken, inside, -⟩
  · rw [takeZone, taken]
    exact ⟨bits zmap other, rfl⟩
  · rw [takeZone, taken]
    cases zone with
    | zero => exact absurd rfl inside.ne_zero
    | succ zone => exact ⟨bits _ other, rfl⟩

/-- A new block of one inode, wherever its number is stored. -/
theorem store_leaves (order : s.device.InOrder s.use)
    (owned : c.owner s.use = some (inode, height)) (used : s.use zone = some (.allocating task)) :
    s.Leaves (s.store inode height c zone) inode := by
  have fresh (inode height : Nat) : s.use zone ≠ some (.block inode height) := by simp [used]
  refine fun other different => ⟨Device.contents_congr fun pos small => ?_, by cases c <;> rfl⟩
  refine order.byteAt_congr (fun c' height' owned' => ?_)
    (fun zone' used' => Device.data_store owned fresh used') small
  have notStored : c' ≠ c := by
    intro same
    rw [same, owned] at owned'
    cases owned'
    exact different rfl
  exact (Device.ptr_setPtr_of_ne notStored).trans (Device.ptr_clearBlock owned' fresh)

theorem setByte_leaves {offset : Nat} {byte : UInt8} (order : s.device.InOrder s.use)
    (used : s.use zone = some (.block inode 0)) :
    s.Leaves { s with device := s.device.setByte zone offset byte } inode := by
  refine fun other different => ⟨Device.contents_congr fun pos small => ?_, rfl⟩
  refine order.byteAt_congr (fun c height owned => ?_) (fun zone' used' => ?_) small
  · cases c with
    | zone => rfl
    | entry block j =>
        refine Device.word_setByte_of_ne fun same => ?_
        rw [← same, (of_owner_entry owned).1] at used
        cases used
  · have notHere : zone' ≠ zone := by
      intro same
      rw [same, used] at used'
      cases used'
      exact different rfl
    exact Function.update_of_ne notHere _ _

end Shared

namespace Bmap

variable {b : Bmap}

theorem look_leaves (order : s.device.InOrder s.use) : s.Leaves (b.look s task).1 b.inode := by
  unfold look
  split
  · have leaves := Shared.takeZone_leaves task b.inode order
    split
    · rename_i taken
      rwa [taken] at leaves
    · rename_i taken
      rwa [taken] at leaves
  · exact Shared.leaves_of_device rfl

theorem resume_leaves {wait : BmapWait} {ok : Bool} {result : Shared × BmapOutcome}
    (order : s.device.InOrder s.use) (keeps : b.Keeps s task strict wait)
    (resumed : b.resume s task ok wait = some result) : s.Leaves result.1 b.inode := by
  cases wait with
  | alloc zone =>
      rw [resume] at resumed
      split at resumed
      · cases resumed
        exact Shared.store_leaves order keeps.2.2.1.owner keeps.2.2.2
      · cases resumed
  | release zone =>
      rw [resume] at resumed
      split at resumed
      · cases resumed
        exact Shared.leaves_of_device rfl
      · cases resumed
  | getting zone =>
      cases resumed
      exact Shared.leaves_of_device rfl
  | reading zone =>
      rw [resume] at resumed
      split at resumed
      · cases resumed
        exact look_leaves order
      · cases resumed
        exact Shared.leaves_of_device rfl

end Bmap

namespace WriteCall

variable {w : WriteCall}

theorem finish_leaves (leaves : s.Leaves s' inode) : s.Leaves (w.finish s').1 inode := by
  unfold finish
  split <;> exact leaves

theorem mapped_leaves {outcome : Shared × BmapOutcome} (leaves : s.Leaves outcome.1 inode) :
    s.Leaves (w.mapped outcome).1 inode := by
  obtain ⟨s₁, outcome⟩ := outcome
  cases outcome with
  | sleeps b wait => exact leaves
  | returns zone =>
      cases zone with
      | zero => exact finish_leaves leaves
      | succ zone => exact leaves

theorem resume_leaves {ok : Bool} {result : Shared × Option WriteCall}
    (order : s.device.InOrder s.use) (keeps : w.Keeps s task strict)
    (resumed : w.resume s task ok = some result) : s.Leaves result.1 w.inode := by
  obtain ⟨inode, filp, append, pos, buf, phase⟩ := w
  have same : s.Leaves s inode := Shared.leaves_of_device rfl
  cases phase with
  | next =>
      cases buf with
      | nil =>
          cases resumed
          exact finish_leaves same
      | cons byte buf =>
          obtain ⟨outcome, started, built⟩ := Option.map_eq_some_iff.mp resumed
          unfold Bmap.start at started
          split at started
          · cases started
            exact built ▸ mapped_leaves (Bmap.look_leaves order)
          · cases started
  | mapping b wait =>
      obtain ⟨outcome, went, built⟩ := Option.map_eq_some_iff.mp resumed
      have leaves := Bmap.resume_leaves order keeps.1 went
      rw [keeps.2.2] at leaves
      exact built ▸ mapped_leaves leaves
  | getting zone =>
      cases resumed
      exact same
  | reading zone =>
      dsimp only [resume] at resumed
      split at resumed
      · cases resumed
        exact Shared.setSize_leaves order
      · cases resumed
        exact finish_leaves same
  | copying zone offset chars =>
      cases chars with
      | zero =>
          cases resumed
          exact same
      | succ chars =>
          cases buf with
          | nil => cases resumed
          | cons byte buf =>
              cases resumed
              exact Shared.setByte_leaves order keeps.2
  | releasing zone =>
      cases resumed
      exact same

end WriteCall

/-! ## Runs -/

namespace System

variable {s : System}

theorem Inv.isolated (inv : s.Inv true) : s.Isolated where
  writes task w ok next isCall taken inode different := by
    simp only [System.step, isCall] at taken
    obtain ⟨result, resumed, built⟩ := Option.map_eq_some_iff.mp taken
    obtain ⟨left, went, mapped⟩ := Option.map_eq_some_iff.mp resumed
    subst built mapped
    exact WriteCall.resume_leaves inv.order (inv.keeps task _ isCall) went inode different
  reads task r zone offset chars isCall phase notZero inode different := by
    have keeps : r.Keeps s.toShared task true := inv.keeps task _ isCall
    rw [ReadCall.Keeps, phase] at keeps
    rintro ⟨points, height, c, live, leads⟩
    subst leads
    have used := inv.order.points c inode height (inv.order.owner_of_live live) points
    rw [(keeps rfl notZero).2] at used
    cases used
    exact different rfl

theorem start_inv {d : Device} {fPos : Nat → Nat} (consistent : d.Consistent) :
    (start d fPos).Inv strict where
  order := consistent.inOrder
  keeps _ _ isCall := by cases isCall

/-- As long as every call gets the blocks that it asks for, no file spoils another one. -/
theorem isolated_of_getsItsBlocks {d : Device} {fPos : Nat → Nat} (consistent : d.Consistent)
    (reached : Lib.ReachedBy step (GetsItsBlocks true) (start d fPos) s) : s.Isolated :=
  (reached.invariant (Inv true) (fun _ _ _ inv current taken => inv.step current taken)
    (start_inv consistent)).isolated

/-- Nothing is used on a device without files. -/
theorem threeZones_uses : threeZones.uses = fun _ => none := by
  funext zone
  unfold Device.uses
  refine dif_neg ?_
  rintro ⟨owner, notZero, c, live, leads⟩
  exact notZero (leads ▸ threeZones_null live)

def emptyStart : System :=
  { device := threeZones, refs := [], fPos := fun _ => 0, use := fun _ => none, call := fun _ => none }

theorem emptyStart_eq : start threeZones (fun _ => 0) = emptyStart := by
  rw [start, threeZones_uses]
  rfl

/-- The steps of a task that goes on `n` times. -/
def goOn (task n : Nat) : List Action := List.replicate n (.resume task true)

/-- Two tasks write to two files in turn, and a third one reads one of them. -/
def writesInTurn : List Action :=
  [.fileWrite 1 1 1 false [9], .fileWrite 2 2 2 false [7], .resume 1 true, .resume 2 true] ++
    goOn 1 7 ++ goOn 2 7 ++ [.fileRead 3 1 3 1] ++ goOn 3 4

theorem isolated_of_getsItsBlocks_inTurn :
    (Lib.exec step (start threeZones fun _ => 0) writesInTurn).isSome ∧
      ∀ s, Lib.exec step (start threeZones fun _ => 0) writesInTurn = some s → s.Isolated := by
  refine ⟨by rw [emptyStart_eq]; decide +kernel, fun s reached => ?_⟩
  refine isolated_of_getsItsBlocks threeZones_consistent ⟨writesInTurn, reached, ?_⟩
  rw [emptyStart_eq]
  exact Lib.everyStep_of_checkSteps (checkBlocks true) (fun _ _ => getsItsBlocks_of_check)
    (by decide +kernel)

/-- File 1 gets a block.  A second task is going to write to it and sleeps in `getblk`; the
file is truncated, and the block goes to file 2. -/
def writesToForeignBlock : List Action :=
  [.fileWrite 1 1 1 false [9]] ++ goOn 1 8 ++ [.fileWrite 2 1 2 false [7], .resume 2 true] ++
    [.truncate 3 1] ++ goOn 3 11 ++ [.fileWrite 4 2 4 false [3]] ++ goOn 4 8 ++ goOn 2 2

theorem write_changes_other_file : ¬ ∀ (d : Device) (fPos : Nat → Nat) (actions : List Action)
    (s : System), d.Consistent → Lib.exec step (start d fPos) actions = some s → s.Isolated := by
  intro isolated
  have run : (Lib.exec step emptyStart writesToForeignBlock).map (fun s =>
      (s.call 2, s.device.contents 2 0,
        (s.step (.resume 2 true)).map fun next => next.device.contents 2 0)) =
      some (some (.write ⟨1, 2, false, 1, [7], .copying 5 0 1⟩), 3, some 7) := by
    decide +kernel
  obtain ⟨s, reached, seen⟩ := Option.map_eq_some_iff.mp run
  simp only [Prod.mk.injEq] at seen
  obtain ⟨isCall, before, after⟩ := seen
  obtain ⟨next, taken, changed⟩ := Option.map_eq_some_iff.mp after
  rw [← emptyStart_eq] at reached
  have kept := ((isolated threeZones _ writesToForeignBlock s threeZones_consistent reached).writes
    2 _ true next isCall taken 2 (by decide)).1
  rw [kept, before] at changed
  exact absurd changed (by decide)

end System

end Linux012.Zones
