import Linux012.Zones.Steps

/-!
# What the tasks rely on

The invariant of all runs in which a task gets the blocks that it asks `bread` for: the
device is in order, and the blocks that a task works on belong to its inode.
-/

namespace Linux012.Zones

variable {s s' : Shared} {mover : Option Nat} {task inode height zone : Nat} {c : Cell}
variable {strict : Bool}

/-! ## `_bmap` -/

/-- What `_bmap` relies on where it sleeps; unless `strict` is set, only if it may store. -/
def Bmap.Keeps (s : Shared) (task : Nat) (strict : Bool) (b : Bmap) (wait : BmapWait) : Prop :=
  (∀ j ∈ b.rest, j < 512) ∧
    match wait with
    | .alloc zone => b.create = true ∧ b.c.Pinned s task b.inode b.rest.length ∧
        s.use zone = some (.allocating task)
    | .release _ => True
    | .getting zone => ∃ j < 512, b.c = .entry zone j
    | .reading zone => (∃ j < 512, b.c = .entry zone j) ∧
        ((b.create || strict) = true → s.Pins task b.inode (b.rest.length + 1) zone)

def BmapOutcome.Keeps (s : Shared) (task : Nat) (strict create : Bool) (inode : Nat) :
    BmapOutcome → Prop
  | .sleeps b wait => b.Keeps s task strict wait ∧ b.create = create ∧ b.inode = inode
  | .returns _ => True

/-- The block still belongs to the inode for which `bread` was called. -/
def Bmap.Current (s : Shared) (b : Bmap) : BmapWait → Prop
  | .getting zone => s.use zone = some (.block b.inode (b.rest.length + 1))
  | _ => True

namespace Bmap

variable {b : Bmap}

theorem goOn_keeps (inside : ∀ j ∈ b.rest, j < 512) :
    (b.goOn zone).Keeps s task strict b.create b.inode := by
  unfold goOn
  cases route : b.rest with
  | nil => trivial
  | cons j rest =>
      rw [route] at inside
      dsimp only
      split
      · trivial
      · exact ⟨⟨fun i member => inside i (List.mem_cons_of_mem j member), j,
          inside j List.mem_cons_self, rfl⟩, rfl, rfl⟩

theorem found_keeps (inside : ∀ j ∈ b.rest, j < 512) :
    (b.found zone).Keeps s task strict b.create b.inode := by
  unfold found
  split
  · exact goOn_keeps inside
  · exact ⟨⟨inside, trivial⟩, rfl, rfl⟩

theorem look_step (order : s.device.InOrder s.use) (inside : ∀ j ∈ b.rest, j < 512)
    (pinned : (b.create || strict) = true → b.c.Pinned s task b.inode b.rest.length) :
    s.Step (some task) (b.look s task).1 ∧
      (b.look s task).2.Keeps (b.look s task).1 task strict b.create b.inode := by
  unfold look
  split
  · rename_i missing
    rcases Shared.takeZone_step task order with ⟨s', taken, step, -, -⟩ |
        ⟨s', zone, taken, notZero, step, use, unused, refs⟩
    · rw [taken]
      exact ⟨step, found_keeps inside⟩
    · rw [taken]
      split
      · rename_i same
        exact absurd (Prod.mk.inj same).2 notZero
      · rename_i same
        cases same
        refine ⟨step, ⟨inside, missing.1, ?_, by rw [use]; exact Function.update_self _ _ _⟩,
          rfl, rfl⟩
        have before := pinned (by simp [missing.1])
        cases isC : b.c with
        | zone inode' k =>
            rw [isC] at before
            exact before
        | entry block j =>
            rw [isC] at before
            refine ⟨before.1, refs ▸ before.2.1, ?_⟩
            have different : block ≠ zone := by
              intro same
              have used := before.2.2
              rw [same, unused] at used
              cases used
            rw [use, Function.update_of_ne different]
            exact before.2.2
  · exact ⟨.refl order, found_keeps inside⟩

theorem resume_step {wait : BmapWait} {ok : Bool} {result : Shared × BmapOutcome}
    (order : s.device.InOrder s.use) (keeps : b.Keeps s task strict wait)
    (current : (b.create || strict) = true → b.Current s wait)
    (resumed : b.resume s task ok wait = some result) :
    s.Step (some task) result.1 ∧ result.2.Keeps result.1 task strict b.create b.inode := by
  obtain ⟨inside, keeps⟩ := keeps
  cases wait with
  | alloc zone =>
      rw [resume] at resumed
      split at resumed
      · cases resumed
        exact ⟨Shared.store_step order keeps.2.1.owner keeps.2.2, found_keeps inside⟩
      · cases resumed
  | release zone =>
      rw [resume] at resumed
      split at resumed
      · cases resumed
        exact ⟨(Shared.Step.refl order).drop, goOn_keeps inside⟩
      · cases resumed
  | getting zone =>
      cases resumed
      refine ⟨(Shared.Step.refl order).take, ⟨inside, keeps, fun watched => ?_⟩, rfl, rfl⟩
      exact ⟨List.mem_cons_self, current watched⟩
  | reading zone =>
      rw [resume] at resumed
      split at resumed
      · cases resumed
        obtain ⟨⟨j, small, isC⟩, pins⟩ := keeps
        refine look_step order inside fun watched => ?_
        rw [isC]
        exact ⟨small, pins watched⟩
      · cases resumed
        exact ⟨(Shared.Step.refl order).drop, trivial⟩

theorem start_step {create : Bool} {block : Nat} {result : Shared × BmapOutcome}
    (order : s.device.InOrder s.use) (started : start s task create inode block = some result) :
    s.Step (some task) result.1 ∧ result.2.Keeps result.1 task strict create inode := by
  unfold start at started
  split at started
  · rename_i small
    cases started
    have route := route_isRoute small
    exact look_step order route.inside fun _ => ⟨rfl, route.root, route.length⟩
  · cases started

theorem Keeps.stable {wait : BmapWait} (keeps : b.Keeps s task strict wait)
    (step : s.Step mover s') (other : some task ≠ mover) : b.Keeps s' task strict wait := by
  obtain ⟨inside, keeps⟩ := keeps
  refine ⟨inside, ?_⟩
  cases wait with
  | alloc zone =>
      exact ⟨keeps.1, step.pinned other keeps.2.1, step.allocating zone task other keeps.2.2⟩
  | release => trivial
  | getting zone => exact keeps
  | reading zone => exact ⟨keeps.1, fun watched => step.pins other (keeps.2 watched)⟩

end Bmap

/-! ## `file_read` and `file_write` -/

def ReadCall.Keeps (s : Shared) (task : Nat) (strict : Bool) (r : ReadCall) : Prop :=
  match r.phase with
  | .mapping b wait => b.Keeps s task strict wait ∧ b.create = false ∧ b.inode = r.inode
  | .reading zone | .copying zone _ _ => strict = true → zone ≠ 0 → s.Pins task r.inode 0 zone
  | _ => True

def WriteCall.Keeps (s : Shared) (task : Nat) (strict : Bool) (w : WriteCall) : Prop :=
  match w.phase with
  | .mapping b wait => b.Keeps s task strict wait ∧ b.create = true ∧ b.inode = w.inode
  | .reading zone | .copying zone _ _ => s.Pins task w.inode 0 zone
  | _ => True

/-- The block that `file_read` or `file_write` of an inode gets still belongs to it. -/
def FilePhase.Current (s : Shared) (inode : Nat) : FilePhase → Prop
  | .mapping b wait => b.Current s wait
  | .getting zone => s.use zone = some (.block inode 0)
  | _ => True

/-- What is left of a call relies on nothing, or on what it says. -/
def keepsIf {Call : Type} (keeps : Call → Prop) : Option Call → Prop
  | none => True
  | some call => keeps call

namespace ReadCall

variable {r : ReadCall}

theorem beginCopy_step (order : s.device.InOrder s.use)
    (pins : strict = true → zone ≠ 0 → s.Pins task r.inode 0 zone) :
    s.Step (some task) (r.beginCopy s zone).1 ∧
      keepsIf (Keeps (r.beginCopy s zone).1 task strict) (r.beginCopy s zone).2 :=
  ⟨(Shared.Step.refl order).withPos, pins⟩

theorem mapped_step {outcome : Shared × BmapOutcome} (step : s.Step (some task) outcome.1)
    (keeps : outcome.2.Keeps outcome.1 task strict false r.inode) :
    s.Step (some task) (r.mapped outcome).1 ∧
      keepsIf (Keeps (r.mapped outcome).1 task strict) (r.mapped outcome).2 := by
  obtain ⟨s₁, outcome⟩ := outcome
  cases outcome with
  | sleeps b wait => exact ⟨step, keeps⟩
  | returns zone =>
      cases zone with
      | zero => exact ⟨step.withPos, fun _ notZero => absurd rfl notZero⟩
      | succ zone => exact ⟨step, trivial⟩

theorem resume_step {ok : Bool} {result : Shared × Option ReadCall}
    (order : s.device.InOrder s.use) (keeps : r.Keeps s task strict)
    (current : strict = true → r.phase.Current s r.inode)
    (resumed : r.resume s task ok = some result) :
    s.Step (some task) result.1 ∧ keepsIf (Keeps result.1 task strict) result.2 := by
  unfold resume at resumed
  unfold Keeps at keeps
  cases phase : r.phase with
  | next =>
      simp only [phase] at resumed
      split at resumed
      · cases resumed
        exact ⟨.refl order, trivial⟩
      · obtain ⟨outcome, started, built⟩ := Option.map_eq_some_iff.mp resumed
        obtain ⟨step, keeps⟩ := Bmap.start_step order started
        exact built ▸ mapped_step step keeps
  | mapping b wait =>
      simp only [phase] at resumed keeps current
      obtain ⟨outcome, went, built⟩ := Option.map_eq_some_iff.mp resumed
      have step := Bmap.resume_step order keeps.1
        (fun watched => current (by simpa [keeps.2.1] using watched)) went
      rw [keeps.2.1, keeps.2.2] at step
      exact built ▸ mapped_step step.1 step.2
  | getting zone =>
      simp only [phase] at resumed current
      cases resumed
      exact ⟨(Shared.Step.refl order).take, fun watched _ => ⟨List.mem_cons_self, current watched⟩⟩
  | reading zone =>
      simp only [phase] at resumed keeps
      split at resumed
      · cases resumed
        exact beginCopy_step order keeps
      · cases resumed
        exact ⟨(Shared.Step.refl order).drop, trivial⟩
  | copying zone offset chars =>
      simp only [phase] at keeps
      cases chars with
      | zero =>
          simp only [phase] at resumed
          by_cases hole : zone = 0
          · rw [if_pos hole] at resumed
            cases resumed
            exact ⟨.refl order, trivial⟩
          · rw [if_neg hole] at resumed
            cases resumed
            exact ⟨.refl order, trivial⟩
      | succ chars =>
          simp only [phase] at resumed
          cases resumed
          exact ⟨.refl order, keeps⟩
  | releasing zone =>
      simp only [phase] at resumed
      cases resumed
      exact ⟨(Shared.Step.refl order).drop, trivial⟩

theorem Keeps.stable (keeps : r.Keeps s task strict) (step : s.Step mover s')
    (other : some task ≠ mover) : r.Keeps s' task strict := by
  unfold Keeps at keeps ⊢
  split at keeps
  · exact ⟨keeps.1.stable step other, keeps.2⟩
  · exact fun watched notZero => step.pins other (keeps watched notZero)
  · exact fun watched notZero => step.pins other (keeps watched notZero)
  · trivial

end ReadCall

namespace WriteCall

variable {w : WriteCall}

theorem finish_step (step : s.Step (some task) s') :
    s.Step (some task) (w.finish s').1 ∧
      keepsIf (Keeps (w.finish s').1 task strict) (w.finish s').2 := by
  unfold finish
  split
  · exact ⟨step, trivial⟩
  · exact ⟨step.withPos, trivial⟩

theorem mapped_step {outcome : Shared × BmapOutcome} (step : s.Step (some task) outcome.1)
    (keeps : outcome.2.Keeps outcome.1 task strict true w.inode) :
    s.Step (some task) (w.mapped outcome).1 ∧
      keepsIf (Keeps (w.mapped outcome).1 task strict) (w.mapped outcome).2 := by
  obtain ⟨s₁, outcome⟩ := outcome
  cases outcome with
  | sleeps b wait => exact ⟨step, keeps⟩
  | returns zone =>
      cases zone with
      | zero => exact finish_step step
      | succ zone => exact ⟨step, trivial⟩

theorem resume_step {ok : Bool} {result : Shared × Option WriteCall}
    (order : s.device.InOrder s.use) (keeps : w.Keeps s task strict)
    (current : w.phase.Current s w.inode) (resumed : w.resume s task ok = some result) :
    s.Step (some task) result.1 ∧ keepsIf (Keeps result.1 task strict) result.2 := by
  unfold resume at resumed
  unfold Keeps at keeps
  cases phase : w.phase with
  | next =>
      cases buf : w.buf with
      | nil =>
          simp only [phase, buf] at resumed
          cases resumed
          exact finish_step (.refl order)
      | cons byte buf' =>
          simp only [phase, buf] at resumed
          obtain ⟨outcome, started, built⟩ := Option.map_eq_some_iff.mp resumed
          obtain ⟨step, keeps⟩ := Bmap.start_step order started
          exact built ▸ mapped_step step keeps
  | mapping b wait =>
      simp only [phase] at resumed keeps current
      obtain ⟨outcome, went, built⟩ := Option.map_eq_some_iff.mp resumed
      have step := Bmap.resume_step order keeps.1 (fun _ => current) went
      rw [keeps.2.1, keeps.2.2] at step
      exact built ▸ mapped_step step.1 step.2
  | getting zone =>
      simp only [phase] at resumed current
      cases resumed
      exact ⟨(Shared.Step.refl order).take, List.mem_cons_self, current⟩
  | reading zone =>
      simp only [phase] at resumed keeps
      split at resumed
      · cases resumed
        exact ⟨Shared.setSize_step order, keeps⟩
      · cases resumed
        exact finish_step (Shared.Step.refl order).drop
  | copying zone offset chars =>
      simp only [phase] at resumed keeps
      cases chars with
      | zero =>
          cases resumed
          exact ⟨.refl order, trivial⟩
      | succ chars =>
          cases buf : w.buf with
          | nil =>
              rw [buf] at resumed
              cases resumed
          | cons byte buf' =>
              rw [buf] at resumed
              cases resumed
              refine ⟨Shared.data_step order fun inode height used => ?_, keeps⟩
              rw [keeps.2] at used
              cases used
  | releasing zone =>
      simp only [phase] at resumed
      cases resumed
      exact ⟨(Shared.Step.refl order).drop, trivial⟩

theorem Keeps.stable (keeps : w.Keeps s task strict) (step : s.Step mover s')
    (other : some task ≠ mover) : w.Keeps s' task strict := by
  unfold Keeps at keeps ⊢
  split at keeps
  · exact ⟨keeps.1.stable step other, keeps.2⟩
  · exact step.pins other keeps
  · exact step.pins other keeps
  · trivial

end WriteCall

/-! ## `truncate` -/

/-- The indirect blocks that `free_dind` and `free_ind` are in belong to the inode, and only
the pointer that they came from leads to each of them. -/
def ScansKeep (s : Shared) (task inode k : Nat) : List Scan → Prop
  | [] => True
  | scan :: scans =>
      0 < k - 6 - scans.length ∧ scan.c.Pinned s task inode (k - 6 - scans.length) ∧
        s.Pins task inode (k - 6 - scans.length) scan.zone ∧ s.Only scan.c scan.zone ∧
        ScansKeep s task inode k scans

def Trunc.Keeps (s : Shared) (task : Nat) (t : Trunc) : Prop :=
  ScansKeep s task t.inode t.k t.scans ∧
    match t.phase with
    | .freeing c zone => c.Pinned s task t.inode t.height ∧ s.Pins task t.inode t.height zone ∧
        s.Only c zone
    | .getting c zone => 0 < t.height ∧ zone ≠ 0 ∧ c.Pinned s task t.inode t.height
    | .reading c zone => 0 < t.height ∧ c.Pinned s task t.inode t.height ∧
        s.Pins task t.inode t.height zone ∧ s.Only c zone
    | .scanning | .releasing => True

/-- The pointer from which `truncate` has the number of an indirect block still leads to
it when `bread` gets it. -/
def TruncPhase.Current (s : Shared) : TruncPhase → Prop
  | .getting c zone => s.device.ptr c = zone
  | _ => True

/-! ### The references of the task itself -/

theorem Shared.Pins.take (pins : s.Pins task inode height zone) {zone' : Nat} :
    (s.take task zone').Pins task inode height zone :=
  ⟨List.mem_cons_of_mem _ pins.1, pins.2⟩

theorem Shared.Pins.drop (pins : s.Pins task inode height zone) {zone' : Nat}
    (different : zone ≠ zone') : (s.drop task zone').Pins task inode height zone :=
  ⟨(List.mem_erase_of_ne fun same => different (congrArg Prod.snd same)).mpr pins.1, pins.2⟩

theorem Shared.Pins.dropTake (pins : s.Pins task inode height zone) {zone' : Nat} :
    ((s.drop task zone').take task zone').Pins task inode height zone := by
  by_cases same : zone = zone'
  · exact ⟨same ▸ List.mem_cons_self, pins.2⟩
  · exact (pins.drop same).take

theorem Shared.Pins.free (pins : s.Pins task inode height zone) {zone' : Nat}
    (different : zone ≠ zone') : ((s.drop task zone').free c zone').Pins task inode height zone :=
  ⟨(pins.drop different).1, (Function.update_of_ne different _ _).trans pins.2⟩

/-- Two blocks of different heights. -/
theorem Shared.Pins.ne {height' zone' : Nat} (pins : s.Pins task inode height zone)
    (pins' : s.Pins task inode height' zone') (different : height ≠ height') : zone ≠ zone' := by
  intro same
  have used := pins.2
  rw [same, pins'.2] at used
  cases used
  exact different rfl

theorem Cell.Pinned.keep {height' : Nat} (pinned : c.Pinned s task inode height)
    (keep : ∀ zone, s.Pins task inode (height + 1) zone → s'.Pins task inode (height + 1) zone)
    (same : height' = height) : c.Pinned s' task inode height' := by
  subst same
  cases c with
  | zone inode' k => exact pinned
  | entry block j => exact ⟨pinned.1, keep block pinned.2⟩

/-- The blocks that the task is in stay if a step of the task leaves the references to
blocks above a height. -/
theorem ScansKeep.keep {k bound : Nat} {scans : List Scan} (keeps : ScansKeep s task inode k scans)
    (step : s.Step mover s')
    (keep : ∀ zone height, bound < height → s.Pins task inode height zone →
      s'.Pins task inode height zone) (above : bound ≤ k - 6 - scans.length) :
    ScansKeep s' task inode k scans := by
  induction scans with
  | nil => trivial
  | cons scan scans ih =>
      obtain ⟨inside, pinned, pins, only, rest⟩ := keeps
      rw [List.length_cons] at above
      have higher : bound < k - 6 - scans.length := by omega
      have pins' := keep scan.zone _ higher pins
      exact ⟨inside, pinned.keep (fun zone => keep zone _ (by omega)) rfl, pins',
        step.only scan.zone _ _ scan.c pins.2 pins'.2 only, ih rest (by omega)⟩

theorem ScansKeep.stable {k : Nat} {scans : List Scan} (keeps : ScansKeep s task inode k scans)
    (step : s.Step mover s') (other : some task ≠ mover) : ScansKeep s' task inode k scans :=
  keeps.keep step (fun _ _ _ pins => step.pins other pins) (Nat.zero_le _)

namespace Trunc

variable {t : Trunc}

theorem freed_keeps {ok : Bool} (keeps : ScansKeep s task t.inode t.k t.scans) :
    (t.freed ok).Keeps s task := by
  obtain ⟨inode, k, blockBusy, scans, phase⟩ := t
  cases scans with
  | nil => exact ⟨trivial, trivial⟩
  | cons scan scans => exact ⟨keeps, trivial⟩

/-- What a pointer leads to belongs to its owner, and no other pointer leads there. -/
theorem leads (order : s.device.InOrder s.use) (pinned : c.Pinned s task inode height)
    (points : s.device.ptr c = zone) (notNull : zone ≠ 0) :
    s.use zone = some (.block inode height) ∧ s.Only c zone := by
  subst points
  refine ⟨order.points c inode height pinned.owner notNull, fun c' owned same => ?_⟩
  exact order.once c' c owned (by simp [pinned.owner]) same (same ▸ notNull)

theorem visit_step {result : Shared × Option Trunc} (order : s.device.InOrder s.use)
    (keeps : ScansKeep s task t.inode t.k t.scans) (pinned : c.Pinned s task t.inode t.height)
    (visited : t.visit s task c = some result) :
    s.Step (some task) result.1 ∧ keepsIf (Keeps result.1 task) result.2 := by
  unfold visit at visited
  dsimp only at visited
  split at visited
  · cases visited
    exact ⟨.refl order, freed_keeps keeps⟩
  · rename_i notNull
    have taken : s.Step (some task) (s.take task (s.device.ptr c)) := (Shared.Step.refl order).take
    split at visited
    · unfold startFree at visited
      split at visited
      · cases visited
        obtain ⟨used, only⟩ := leads order pinned rfl notNull
        exact ⟨taken, keeps.keep taken (fun _ _ _ pins => pins.take) (Nat.zero_le _),
          pinned.keep (fun _ pins => pins.take) rfl, ⟨List.mem_cons_self, used⟩, only⟩
      · cases visited
    · rename_i higher
      cases visited
      exact ⟨.refl order, keeps, Nat.pos_of_ne_zero higher, notNull, pinned⟩

/-- `free_block` of a block to which the task has a reference until then. -/
theorem startFree_step {result : Shared × Option Trunc} (order : s.device.InOrder s.use)
    (keeps : ScansKeep s task t.inode t.k t.scans) (pinned : c.Pinned s task t.inode t.height)
    (pins : s.Pins task t.inode t.height zone) (only : s.Only c zone)
    (started : t.startFree (s.drop task zone) task c zone = some result) :
    s.Step (some task) result.1 ∧ keepsIf (Keeps result.1 task) result.2 := by
  unfold startFree at started
  split at started
  · cases started
    have step : s.Step (some task) ((s.drop task zone).take task zone) :=
      (Shared.Step.refl order).drop.take
    exact ⟨step, keeps.keep step (fun _ _ _ pins => pins.dropTake) (Nat.zero_le _),
      pinned.keep (fun _ pins => pins.dropTake) rfl, pins.dropTake, only⟩
  · cases started

theorem resume_step {ok : Bool} {result : Shared × Option Trunc} (order : s.device.InOrder s.use)
    (keeps : t.Keeps s task) (current : t.phase.Current s)
    (resumed : t.resume s task ok = some result) :
    s.Step (some task) result.1 ∧ keepsIf (Keeps result.1 task) result.2 := by
  obtain ⟨inode, k, blockBusy, scans, phase⟩ := t
  obtain ⟨scansKeep, keeps⟩ := keeps
  cases phase with
  | scanning =>
      cases scans with
      | nil =>
          dsimp only [resume, scan] at resumed
          split at resumed
          · rename_i inside
            have pinned : (Cell.zone inode k).Pinned s task inode (k - 6 - 0) := ⟨rfl, inside, rfl⟩
            exact visit_step order scansKeep pinned resumed
          · split at resumed
            · cases resumed
              exact ⟨.refl order, trivial, trivial⟩
            · cases resumed
              exact ⟨Shared.setSize_step order, trivial⟩
      | cons scan scans =>
          dsimp only [resume, Trunc.scan] at resumed
          split at resumed
          · rename_i inside
            have positive : 0 < k - 6 - scans.length := scansKeep.1
            have level : k - 6 - (scans.length + 1) + 1 = k - 6 - scans.length := by omega
            have pinned : (Cell.entry scan.zone scan.j).Pinned s task inode
                (k - 6 - (scans.length + 1)) := by
              refine ⟨inside, ?_⟩
              rw [level]
              exact scansKeep.2.2.1
            exact visit_step order scansKeep pinned resumed
          · cases resumed
            exact ⟨.refl order, scansKeep, trivial⟩
  | freeing c zone =>
      obtain ⟨pinned, pins, only⟩ := keeps
      dsimp only [resume] at resumed
      split at resumed
      · cases resumed
        have step : s.Step (some task) (s.drop task zone) := (Shared.Step.refl order).drop
        refine ⟨step, freed_keeps (scansKeep.keep step ?_ (Nat.le_refl _))⟩
        intro zone' height' above pins'
        exact pins'.drop (pins'.ne pins (Nat.ne_of_gt above))
      · rename_i single
        cases resumed
        have step := Shared.free_step order pins only (Nat.le_of_not_gt single)
        refine ⟨step, freed_keeps (scansKeep.keep step ?_ (Nat.le_refl _))⟩
        intro zone' height' above pins'
        exact pins'.free (pins'.ne pins (Nat.ne_of_gt above))
  | getting c zone =>
      cases resumed
      obtain ⟨higher, notNull, pinned⟩ := keeps
      have step : s.Step (some task) (s.take task zone) := (Shared.Step.refl order).take
      obtain ⟨used, only⟩ := leads order pinned current notNull
      exact ⟨step, scansKeep.keep step (fun _ _ _ pins => pins.take) (Nat.zero_le _), higher,
        pinned.keep (fun _ pins => pins.take) rfl, ⟨List.mem_cons_self, used⟩, only⟩
  | reading c zone =>
      obtain ⟨higher, pinned, pins, only⟩ := keeps
      dsimp only [resume] at resumed
      split at resumed
      · cases resumed
        exact ⟨.refl order, ⟨higher, pinned, pins, only, scansKeep⟩, trivial⟩
      · exact startFree_step order scansKeep pinned pins only resumed
  | releasing =>
      cases scans with
      | nil => cases resumed
      | cons scan scans =>
          obtain ⟨inside, pinned, pins, only, rest⟩ := scansKeep
          dsimp only [resume] at resumed
          split at resumed
          · cases resumed
            have step : s.Step (some task) (s.drop task scan.zone) := (Shared.Step.refl order).drop
            refine ⟨step, freed_keeps (rest.keep step ?_ (Nat.le_refl _))⟩
            intro zone' height' above pins'
            exact pins'.drop (pins'.ne pins (Nat.ne_of_gt above))
          · exact startFree_step order rest pinned pins only resumed

theorem Keeps.stable (keeps : t.Keeps s task) (step : s.Step mover s')
    (other : some task ≠ mover) : t.Keeps s' task := by
  obtain ⟨inode, k, blockBusy, scans, phase⟩ := t
  obtain ⟨scansKeep, keeps⟩ := keeps
  refine ⟨scansKeep.stable step other, ?_⟩
  cases phase with
  | freeing c zone =>
      obtain ⟨pinned, pins, only⟩ := keeps
      exact ⟨step.pinned other pinned, step.pins other pins, step.stillOnly other pins only⟩
  | getting c zone => exact ⟨keeps.1, keeps.2.1, step.pinned other keeps.2.2⟩
  | reading c zone =>
      obtain ⟨higher, pinned, pins, only⟩ := keeps
      exact ⟨higher, step.pinned other pinned, step.pins other pins, step.stillOnly other pins only⟩
  | scanning => trivial
  | releasing => trivial

end Trunc

/-! ## The system -/

def FileCall.Keeps (s : Shared) (task : Nat) (strict : Bool) : FileCall → Prop
  | .read r => r.Keeps s task strict
  | .write w => w.Keeps s task strict
  | .truncate t => t.Keeps s task

/-- A call that gets a block with `bread` gets the one that it asks for: the block still
belongs to the inode, and for `truncate` the pointer still leads to it.  Of `file_read` this
is asked only if `strict` is set. -/
def FileCall.Current (s : Shared) (strict : Bool) : FileCall → Prop
  | .read r => strict = true → r.phase.Current s r.inode
  | .write w => w.phase.Current s w.inode
  | .truncate t => t.phase.Current s

instance (s : Shared) (b : Bmap) (wait : BmapWait) : Decidable (b.Current s wait) :=
  match wait with
  | .getting _ => inferInstanceAs (Decidable (_ = _))
  | .alloc _ | .release _ | .reading _ => .isTrue trivial

instance (s : Shared) (inode : Nat) (phase : FilePhase) : Decidable (phase.Current s inode) :=
  match phase with
  | .mapping b wait => inferInstanceAs (Decidable (b.Current s wait))
  | .getting _ => inferInstanceAs (Decidable (_ = _))
  | .next | .reading _ | .copying .. | .releasing _ => .isTrue trivial

instance (s : Shared) (phase : TruncPhase) : Decidable (phase.Current s) :=
  match phase with
  | .getting .. => inferInstanceAs (Decidable (_ = _))
  | .scanning | .freeing .. | .reading .. | .releasing => .isTrue trivial

instance (s : Shared) (strict : Bool) (call : FileCall) : Decidable (call.Current s strict) :=
  match call with
  | .read _ => inferInstanceAs (Decidable (_ → _))
  | .write w => inferInstanceAs (Decidable (w.phase.Current s w.inode))
  | .truncate t => inferInstanceAs (Decidable (t.phase.Current s))

namespace System

/-- The condition on a step of a run. -/
def GetsItsBlocks (strict : Bool) (s : System) : Action → Prop
  | .resume task _ => ∀ call, s.call task = some call → call.Current s.toShared strict
  | _ => True

/-- A check of the condition. -/
def checkBlocks (strict : Bool) (s : System) : Action → Bool
  | .resume task _ => (s.call task).all fun call => decide (call.Current s.toShared strict)
  | _ => true

theorem getsItsBlocks_of_check {s : System} {action : Action}
    (checked : s.checkBlocks strict action = true) : s.GetsItsBlocks strict action := by
  cases action with
  | resume task ok =>
      intro call isCall
      simpa [checkBlocks, isCall] using checked
  | _ => trivial

structure Inv (strict : Bool) (s : System) : Prop where
  order : s.device.InOrder s.use
  keeps : ∀ task call, s.call task = some call → call.Keeps s.toShared task strict

variable {s next : System}

/-- A step of one task, whose own call keeps what it relies on. -/
theorem Inv.withCall {result : Shared × Option FileCall} (inv : s.Inv strict)
    (step : s.toShared.Step (some task) result.1)
    (keeps : keepsIf (FileCall.Keeps result.1 task strict) result.2) :
    (s.withCall task result).Inv strict := by
  refine ⟨step.order, fun other call isCall => ?_⟩
  change Function.update s.call task result.2 other = some call at isCall
  by_cases same : other = task
  · rw [same, Function.update_self] at isCall
    rw [isCall] at keeps
    exact same ▸ keeps
  · rw [Function.update_of_ne same] at isCall
    have different : some other ≠ some task := fun equal => same (Option.some.inj equal)
    have kept := inv.keeps other call isCall
    cases call with
    | read r => exact ReadCall.Keeps.stable kept step different
    | write w => exact WriteCall.Keeps.stable kept step different
    | truncate t => exact Trunc.Keeps.stable kept step different

/-- What a call leaves, as a call of a task. -/
theorem keepsIf_map {Call : Type} {keeps : FileCall → Prop} {wrap : Call → FileCall}
    {left : Option Call} :
    keepsIf keeps (left.map wrap) ↔ keepsIf (fun call => keeps (wrap call)) left := by
  cases left <;> exact Iff.rfl

theorem Inv.enter {call : FileCall} (inv : s.Inv strict)
    (keeps : call.Keeps s.toShared task strict) (entered : s.enter task call = some next) :
    next.Inv strict := by
  unfold System.enter at entered
  split at entered
  · cases entered
    exact inv.withCall (.refl inv.order) keeps
  · cases entered

/-- A call that goes on. -/
theorem resume_call {call : FileCall} {ok : Bool} {result : Shared × Option FileCall}
    (order : s.device.InOrder s.use) (keeps : call.Keeps s.toShared task strict)
    (current : call.Current s.toShared strict)
    (resumed : call.resume s.toShared task ok = some result) :
    s.toShared.Step (some task) result.1 ∧
      keepsIf (FileCall.Keeps result.1 task strict) result.2 := by
  cases call with
  | read r =>
      obtain ⟨left, went, built⟩ := Option.map_eq_some_iff.mp resumed
      subst built
      obtain ⟨step, kept⟩ := ReadCall.resume_step order keeps current went
      exact ⟨step, keepsIf_map.mpr kept⟩
  | write w =>
      obtain ⟨left, went, built⟩ := Option.map_eq_some_iff.mp resumed
      subst built
      obtain ⟨step, kept⟩ := WriteCall.resume_step order keeps current went
      exact ⟨step, keepsIf_map.mpr kept⟩
  | truncate t =>
      obtain ⟨left, went, built⟩ := Option.map_eq_some_iff.mp resumed
      subst built
      obtain ⟨step, kept⟩ := Trunc.resume_step order keeps current went
      exact ⟨step, keepsIf_map.mpr kept⟩

theorem Inv.step {action : Action} (inv : s.Inv strict) (current : s.GetsItsBlocks strict action)
    (taken : s.step action = some next) : next.Inv strict := by
  cases action with
  | fileRead task inode filp count =>
      have keeps : (FileCall.read ⟨inode, filp, count, [], .next⟩).Keeps s.toShared task strict :=
        trivial
      exact inv.enter keeps taken
  | fileWrite task inode filp append buf =>
      have keeps (pos : Nat) : (FileCall.write ⟨inode, filp, append, pos, buf, .next⟩).Keeps
          s.toShared task strict := trivial
      exact inv.enter (keeps _) taken
  | truncate task inode =>
      have keeps : (FileCall.truncate ⟨inode, 0, false, [], .scanning⟩).Keeps s.toShared task
          strict := ⟨trivial, trivial⟩
      exact inv.enter keeps taken
  | resume task ok =>
      unfold System.step at taken
      dsimp only at taken
      split at taken
      · cases taken
      · rename_i call isCall
        obtain ⟨result, resumed, built⟩ := Option.map_eq_some_iff.mp taken
        obtain ⟨step, keeps⟩ := resume_call inv.order (inv.keeps task call isCall)
          (current call isCall) resumed
        exact built ▸ inv.withCall step keeps
  | forget block data =>
      unfold System.step at taken
      dsimp only at taken
      split at taken
      · rename_i free
        cases taken
        have step : s.toShared.Step none { s.toShared with
            device := { s.device with data := Function.update s.device.data block data } } := by
          refine Shared.data_step inv.order fun inode height used => ?_
          have set := (inv.order.marked block (by simp [used])).2
          rw [free.2.1] at set
          cases set
        refine ⟨step.order, fun task call isCall => ?_⟩
        have kept := inv.keeps task call isCall
        have different : some task ≠ none := by simp
        cases call with
        | read r => exact ReadCall.Keeps.stable kept step different
        | write w => exact WriteCall.Keeps.stable kept step different
        | truncate t => exact Trunc.Keeps.stable kept step different
      · cases taken

end System

end Linux012.Zones
