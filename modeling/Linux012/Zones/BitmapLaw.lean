import Linux012.Zones.Changes
import Linux012.Zones.Isolation

/-!
# The bitmap and the pointers

While no task is in a call, the bit of a zone is set if and only if exactly one pointer leads
to it.  This needs that the calls do not disturb one another.
-/

namespace Linux012.Zones

/-- The pointer is one of the inode and leads to the zone. -/
def Device.Refers (d : Device) (inode : Nat) (c : Cell) (zone : Nat) : Prop :=
  (∃ height, d.Live inode height c) ∧ d.ptr c = zone

/-- The bit of a zone is set if and only if exactly one pointer of exactly one inode leads
to it. -/
def Device.BitmapLaw (d : Device) : Prop :=
  ∀ zone, d.InZones zone → (d.bit zone = true ↔
    ∃ inode c, d.Refers inode c zone ∧
      ∀ inode' c', d.Refers inode' c' zone → inode' = inode ∧ c' = c)

variable {s s' : Shared} {task inode height zone : Nat} {c : Cell}

/-! ## The system -/

def FileCall.allocates : FileCall → Option Nat
  | .read r => r.allocates
  | .write w => w.allocates
  | .truncate _ => none

def FileCall.Leads (s : Shared) : FileCall → Prop
  | .truncate t => t.Leads s
  | .read _ | .write _ => True

/-- The task that takes a step. -/
def Action.mover : Action → Option Nat
  | .fileRead task .. | .fileWrite task .. | .truncate task _ | .resume task _ => some task
  | .forget .. => none

/-- The transfer that the task waits for is done. -/
def Action.transfers : Action → Bool
  | .resume _ ok => ok
  | .fileRead .. | .fileWrite .. | .truncate .. | .forget .. => true

theorem Shared.Changes.exact (changes : s.Changes task s') (order : s.device.InOrder s.use)
    (exact : s.Exact) : s'.Exact := by
  obtain ⟨s₁, change, device, use⟩ := changes
  have after := change.exact order exact
  refine ⟨use ▸ after.low, ?_, ?_⟩
  · rw [device, use]
    exact after.reached
  · rw [device, use]
    exact after.used

/-- Another task's zone was its zone before. -/
theorem Shared.Changes.allocating {other : Nat} (changes : s.Changes task s')
    (different : other ≠ task) (used : s'.use zone = some (.allocating other)) :
    s.use zone = some (.allocating other) := by
  obtain ⟨s₁, change, device, use⟩ := changes
  rw [use] at used
  cases change with
  | quiet _ same first last bits pointers => rwa [same] at used
  | takes zone₀ inside unused =>
      change Function.update s.use zone₀ (some (.allocating task)) zone = _ at used
      by_cases here : zone = zone₀
      · rw [here, Function.update_self] at used
        cases used
        exact absurd rfl different
      · rwa [Function.update_of_ne here] at used
  | stores inode₀ height₀ c₀ zone₀ =>
      change Function.update s.use zone₀ (some (.block inode₀ height₀)) zone = _ at used
      by_cases here : zone = zone₀
      · rw [here, Function.update_self] at used
        cases used
      · rwa [Function.update_of_ne here] at used
  | frees inode₀ height₀ c₀ zone₀ =>
      change Function.update s.use zone₀ none zone = _ at used
      by_cases here : zone = zone₀
      · rw [here, Function.update_self] at used
        cases used
      · rwa [Function.update_of_ne here] at used

namespace System

variable {s next : System}

/-- The condition on a step of a run: a call gets the blocks that it asks `bread` for, and
no call disturbs another one. -/
def RunsUndisturbed (s : System) (action : Action) : Prop :=
  s.GetsItsBlocks false action ∧
    match action with
    | .resume task _ => ∀ call, s.call task = some call → call.Undisturbed s.toShared
    | _ => True

structure Lawful (s : System) : Prop where
  inv : s.Inv false
  exact : s.toShared.Exact
  allocates : ∀ task, s.toShared.Allocates task ((s.call task).bind FileCall.allocates)
  leads : ∀ task call, s.call task = some call → call.Leads s.toShared

/-- What a call does when it goes on. -/
theorem resume_changes {call : FileCall} {ok : Bool} {result : Shared × Option FileCall}
    (lawful : s.Lawful) (isCall : s.call task = some call)
    (current : call.Current s.toShared false) (undisturbed : call.Undisturbed s.toShared)
    (resumed : call.resume s.toShared task ok = some result) :
    s.toShared.Changes task result.1 ∧
      result.1.Allocates task (result.2.bind FileCall.allocates) ∧
      keepsIf (FileCall.Leads result.1) result.2 := by
  have order := lawful.inv.order
  have keeps := lawful.inv.keeps task call isCall
  have allocates := lawful.allocates task
  have leads := lawful.leads task call isCall
  rw [isCall] at allocates
  cases call with
  | read r =>
      obtain ⟨left, went, built⟩ := Option.map_eq_some_iff.mp resumed
      subst built
      obtain ⟨changes, allocates⟩ := ReadCall.resume_changes order keeps allocates went
      obtain ⟨s₁, left⟩ := left
      cases left with
      | none => exact ⟨changes, allocates, trivial⟩
      | some left => exact ⟨changes, allocates, trivial⟩
  | write w =>
      obtain ⟨left, went, built⟩ := Option.map_eq_some_iff.mp resumed
      subst built
      obtain ⟨changes, allocates⟩ :=
        WriteCall.resume_changes order keeps allocates undisturbed went
      obtain ⟨s₁, left⟩ := left
      cases left with
      | none => exact ⟨changes, allocates, trivial⟩
      | some left => exact ⟨changes, allocates, trivial⟩
  | truncate t =>
      obtain ⟨left, went, built⟩ := Option.map_eq_some_iff.mp resumed
      subst built
      obtain ⟨change, taken, leads⟩ := Trunc.resume_change keeps leads current undisturbed went
      have none (zone : Nat) : left.1.use zone ≠ some (.allocating task) := by
        intro used
        cases allocates zone (taken zone used)
      exact ⟨change.changes, fun zone used => absurd used (none zone), keepsIf_map.mpr leads⟩

/-- A step of one task, as the invariant of all. -/
theorem Lawful.withCall {result : Shared × Option FileCall} (lawful : s.Lawful)
    (inv : (s.withCall task result).Inv false) (changes : s.toShared.Changes task result.1)
    (allocates : result.1.Allocates task (result.2.bind FileCall.allocates))
    (leads : keepsIf (FileCall.Leads result.1) result.2) : (s.withCall task result).Lawful := by
  refine ⟨inv, changes.exact lawful.inv.order lawful.exact, fun other => ?_,
    fun other call isCall => ?_⟩
  · change result.1.Allocates other
      ((Function.update s.call task result.2 other).bind FileCall.allocates)
    by_cases same : other = task
    · rw [same, Function.update_self]
      exact allocates
    · rw [Function.update_of_ne same]
      exact fun zone used => lawful.allocates other zone (changes.allocating same used)
  · change Function.update s.call task result.2 other = some call at isCall
    by_cases same : other = task
    · rw [same, Function.update_self] at isCall
      rw [isCall] at leads
      exact leads
    · rw [Function.update_of_ne same] at isCall
      have keeps := lawful.inv.keeps other call isCall
      have leads := lawful.leads other call isCall
      cases call with
      | read r => trivial
      | write w => trivial
      | truncate t => exact Trunc.Leads.stable leads lawful.inv.order keeps changes same

theorem Lawful.enter {call : FileCall} (lawful : s.Lawful) (entered : s.enter task call = some next)
    (inv : next.Inv false) (leads : call.Leads s.toShared) : next.Lawful := by
  unfold System.enter at entered
  split at entered
  · rename_i idle
    cases entered
    refine lawful.withCall inv .refl ?_ leads
    have before := lawful.allocates task
    rw [idle] at before
    exact fun zone used => nomatch before zone used
  · cases entered

theorem Lawful.step {action : Action} (lawful : s.Lawful) (undisturbed : s.RunsUndisturbed action)
    (taken : s.step action = some next) : next.Lawful := by
  have inv := lawful.inv.step undisturbed.1 taken
  cases action with
  | fileRead task inode filp count => exact lawful.enter taken inv trivial
  | fileWrite task inode filp append buf => exact lawful.enter taken inv trivial
  | truncate task inode => exact lawful.enter taken inv ⟨nofun, trivial⟩
  | resume task ok =>
      unfold System.step at taken
      dsimp only at taken
      split at taken
      · cases taken
      · rename_i call isCall
        obtain ⟨result, resumed, built⟩ := Option.map_eq_some_iff.mp taken
        subst built
        obtain ⟨changes, allocates, leads⟩ := resume_changes lawful isCall
          (undisturbed.1 call isCall) (undisturbed.2 call isCall) resumed
        exact lawful.withCall inv changes allocates leads
  | forget block data =>
      unfold System.step at taken
      dsimp only at taken
      split at taken
      · rename_i free
        cases taken
        have change (task : Nat) : s.toShared.Change task { s.toShared with
            device := { s.device with data := Function.update s.device.data block data } } := by
          refine Shared.data_change fun inode height used => ?_
          have set := (lawful.inv.order.marked block (by simp [used])).2
          rw [free.2.1] at set
          cases set
        refine ⟨inv, (change 0).exact lawful.inv.order lawful.exact, lawful.allocates,
          fun task call isCall => ?_⟩
        have keeps := lawful.inv.keeps task call isCall
        have leads := lawful.leads task call isCall
        cases call with
        | read r => trivial
        | write w => trivial
        | truncate t =>
            exact Trunc.Leads.stable leads lawful.inv.order keeps (change (task + 1)).changes
              (Nat.ne_of_lt (Nat.lt_succ_self task))
      · cases taken

/-! ## Runs -/

/-- The pointers with an owner are the live ones: nothing is used without a pointer to it. -/
theorem live_of_owner {s : Shared} (order : s.device.InOrder s.use) (exact : s.Exact)
    (inode height : Nat) (c : Cell) (owned : c.owner s.use = some (inode, height)) :
    s.device.Live inode height c := by
  cases c with
  | zone inode' k =>
      by_cases inside : k < 9
      · rw [owner_zone inside] at owned
        cases owned
        exact .zone k inside
      · simp [Cell.owner, inside] at owned
  | entry block j =>
      obtain ⟨used, small⟩ := of_owner_entry owned
      have low := exact.low block inode (height + 1) used
      obtain ⟨c', owned', leads⟩ := exact.reached block inode (height + 1) used
      have live := live_of_owner order exact inode (height + 1) c' owned'
      have points : s.device.ptr c' ≠ 0 := leads ▸ order.ne_zero (by simp [used])
      exact leads ▸ .entry j live points small
-- the height of the block above is greater, and at most 2
termination_by 2 - height

theorem Lawful.bitmapLaw (lawful : s.Lawful) (idle : ∀ task, s.call task = none) :
    s.device.BitmapLaw := by
  have order := lawful.inv.order
  intro zone inside
  constructor
  · intro set
    obtain ⟨u, used⟩ := Option.isSome_iff_exists.mp (lawful.exact.used zone inside set)
    cases u with
    | allocating task =>
        have taken := lawful.allocates task zone used
        rw [idle task] at taken
        cases taken
    | block inode height =>
        obtain ⟨c, owned, leads⟩ := lawful.exact.reached zone inode height used
        have live := live_of_owner order lawful.exact inode height c owned
        refine ⟨inode, c, ⟨⟨height, live⟩, leads⟩, fun inode' c' refers => ?_⟩
        obtain ⟨⟨height', live'⟩, leads'⟩ := refers
        have owned' := order.owner_of_live live'
        have points : s.device.ptr c' ≠ 0 := leads' ▸ order.ne_zero (by simp [used])
        have same := order.once c' c (by simp [owned']) (by simp [owned]) (leads'.trans leads.symm)
          points
        rw [same, owned] at owned'
        cases owned'
        exact ⟨rfl, same⟩
  · rintro ⟨inode, c, ⟨⟨height, live⟩, leads⟩, -⟩
    subst leads
    have used := order.points c inode height (order.owner_of_live live) inside.ne_zero
    exact (order.marked _ (by simp [used])).2

theorem start_lawful {d : Device} {fPos : Nat → Nat} (consistent : d.Consistent)
    (law : d.BitmapLaw) : (start d fPos).Lawful := by
  have low {inode height : Nat} {c : Cell} (live : d.Live inode height c) : height ≤ 2 := by
    induction live with
    | zone k inside => omega
    | entry j live points inside ih => omega
  refine ⟨start_inv consistent, ⟨fun zone inode height used => ?_, fun zone inode height used => ?_,
    fun zone inside set => ?_⟩, fun task zone used => ?_, nofun⟩
  · obtain ⟨-, c, live, -⟩ := Device.of_uses_eq used
    exact low live
  · obtain ⟨-, c, live, leads⟩ := Device.of_uses_eq used
    exact ⟨c, consistent.inOrder.owner_of_live live, leads⟩
  · obtain ⟨inode, c, ⟨⟨height, live⟩, leads⟩, -⟩ := (law zone inside).mp set
    subst leads
    change d.InZones (d.ptr c) at inside
    change (d.uses (d.ptr c)).isSome
    simp [consistent.uses_eq live inside.ne_zero]
  · change d.uses zone = _ at used
    unfold Device.uses at used
    split at used
    · cases used
    · cases used

/-- As long as the calls do not disturb one another, the bitmap is right whenever no task is
in a call. -/
theorem bitmapLaw_of_runsUndisturbed {d : Device} {fPos : Nat → Nat} (consistent : d.Consistent)
    (law : d.BitmapLaw) (reached : Lib.ReachedBy step RunsUndisturbed (start d fPos) s)
    (idle : ∀ task, s.call task = none) : s.device.BitmapLaw :=
  (reached.invariant Lawful (fun _ _ _ lawful undisturbed taken => lawful.step undisturbed taken)
    (start_lawful consistent law)).bitmapLaw idle

/-! ### Runs that are evaluated -/

instance (s : Shared) (call : FileCall) : Decidable (call.Undisturbed s) :=
  match call with
  | .read _ => .isTrue trivial
  | .write ⟨_, _, _, _, _, .mapping _ (.alloc _)⟩ => inferInstanceAs (Decidable (_ = _))
  | .write ⟨_, _, _, _, _, .mapping _ (.release _)⟩
  | .write ⟨_, _, _, _, _, .mapping _ (.getting _)⟩
  | .write ⟨_, _, _, _, _, .mapping _ (.reading _)⟩
  | .write ⟨_, _, _, _, _, .next⟩ | .write ⟨_, _, _, _, _, .getting _⟩
  | .write ⟨_, _, _, _, _, .reading _⟩ | .write ⟨_, _, _, _, _, .copying ..⟩
  | .write ⟨_, _, _, _, _, .releasing _⟩ => .isTrue trivial
  | .truncate ⟨_, _, _, _, .freeing ..⟩ => inferInstanceAs (Decidable (_ → _ → _))
  | .truncate ⟨_, _, _, _, .scanning⟩ | .truncate ⟨_, _, _, _, .getting ..⟩
  | .truncate ⟨_, _, _, _, .reading ..⟩ | .truncate ⟨_, _, _, _, .releasing⟩ => .isTrue trivial

def checkUndisturbed (s : System) (action : Action) : Bool :=
  s.checkBlocks false action &&
    match action with
    | .resume task _ => (s.call task).all fun call => decide (call.Undisturbed s.toShared)
    | _ => true

theorem runsUndisturbed_of_check {action : Action} (checked : s.checkUndisturbed action = true) :
    s.RunsUndisturbed action := by
  unfold checkUndisturbed at checked
  rw [Bool.and_eq_true] at checked
  obtain ⟨blocks, checked⟩ := checked
  refine ⟨getsItsBlocks_of_check blocks, ?_⟩
  cases action with
  | resume task ok =>
      intro call isCall
      have checked : (s.call task).all (fun call => decide (call.Undisturbed s.toShared)) = true :=
        checked
      rw [isCall] at checked
      exact of_decide_eq_true checked
  | fileRead => trivial
  | fileWrite => trivial
  | truncate => trivial
  | forget => trivial

theorem step_call {action : Action} (taken : s.step action = some next)
    (other : action.mover ≠ some task) : next.call task = s.call task := by
  have kept {mover : Nat} {result : Shared × Option FileCall} (different : some mover ≠ some task) :
      (s.withCall mover result).call task = s.call task :=
    Function.update_of_ne (fun same => different (congrArg some same).symm) _ _
  have entered {mover : Nat} {call : FileCall} (different : some mover ≠ some task)
      (enters : s.enter mover call = some next) : next.call task = s.call task := by
    unfold enter at enters
    split at enters
    · cases enters
      exact kept different
    · cases enters
  cases action with
  | fileRead mover => exact entered other taken
  | fileWrite mover => exact entered other taken
  | truncate mover => exact entered other taken
  | resume mover ok =>
      unfold System.step at taken
      dsimp only at taken
      split at taken
      · cases taken
      · obtain ⟨result, -, built⟩ := Option.map_eq_some_iff.mp taken
        exact built ▸ kept other
  | forget block data =>
      unfold System.step at taken
      dsimp only at taken
      split at taken
      · cases taken
        rfl
      · cases taken

/-- A task that takes no step stays where it is. -/
theorem exec_call {actions : List Action} (reached : Lib.exec step s actions = some next)
    (others : ∀ action ∈ actions, action.mover ≠ some task) : next.call task = s.call task := by
  induction actions generalizing s with
  | nil =>
      cases reached
      rfl
  | cons action actions ih =>
      obtain ⟨middle, taken, rest⟩ := Lib.exec_cons_eq_some.mp reached
      exact (ih rest fun later member => others later (List.mem_cons_of_mem _ member)).trans
        (step_call taken (others action List.mem_cons_self))

theorem threeZones_bitmapLaw : threeZones.BitmapLaw := by
  rintro zone ⟨above, below⟩
  have pos : zone - 4 ≠ 0 := Nat.sub_ne_zero_of_lt above
  have clear : threeZones.bit zone = false := beq_false_of_ne pos
  constructor
  · intro set
    rw [clear] at set
    cases set
  · rintro ⟨inode, c, ⟨⟨height, live⟩, leads⟩, -⟩
    rw [threeZones_null live] at leads
    rw [← leads] at above
    cases above

/-- No task below a number is in a call. -/
def allIdle (tasks : Nat) (s : System) : Bool := (List.range tasks).all fun task => (s.call task).isNone

theorem idle_of_allIdle {actions : List Action} {tasks : Nat}
    (reached : Lib.exec step emptyStart actions = some s)
    (few : ∀ action ∈ actions, ∀ task ∈ action.mover, task < tasks)
    (returned : allIdle tasks s = true) (task : Nat) : s.call task = none := by
  by_cases inside : task < tasks
  · have idle := List.all_eq_true.mp returned task (List.mem_range.mpr inside)
    exact Option.isNone_iff_eq_none.mp idle
  · refine exec_call reached fun action member same => ?_
    exact inside (few action member task same)

/-- Two tasks write to two files in turn, and one of the files is truncated. -/
def writesThenTruncates : List Action :=
  [.fileWrite 1 1 1 false [9], .fileWrite 2 2 2 false [7], .resume 1 true, .resume 2 true] ++
    goOn 1 7 ++ goOn 2 7 ++ [.truncate 3 1] ++ goOn 3 11

theorem bitmapLaw_of_runsUndisturbed_inTurn :
    (Lib.exec step (start threeZones fun _ => 0) writesThenTruncates).isSome ∧
      ∀ s, Lib.exec step (start threeZones fun _ => 0) writesThenTruncates = some s →
        s.device.BitmapLaw := by
  rw [emptyStart_eq]
  have run : (Lib.exec step emptyStart writesThenTruncates).map (allIdle 4) = some true := by
    decide +kernel
  obtain ⟨s, reached, returned⟩ := Option.map_eq_some_iff.mp run
  refine ⟨by simp [reached], fun s' reached' => ?_⟩
  cases reached.symm.trans reached'
  have idle := idle_of_allIdle reached (by decide) returned
  have undisturbed : Lib.EveryStep step RunsUndisturbed emptyStart writesThenTruncates :=
    Lib.everyStep_of_checkSteps checkUndisturbed (fun _ _ => runsUndisturbed_of_check)
      (by decide +kernel)
  rw [← emptyStart_eq] at reached undisturbed
  exact bitmapLaw_of_runsUndisturbed threeZones_consistent threeZones_bitmapLaw
    ⟨writesThenTruncates, reached, undisturbed⟩ idle

/-- Two tasks write to the first block of one file.  Both see that it has none, and both take
a zone. -/
def bothTakeZones : List Action :=
  [.fileWrite 1 1 1 false [9], .fileWrite 2 1 2 false [7], .resume 1 true, .resume 2 true] ++
    goOn 1 7 ++ goOn 2 7

/-- The zone that the first of them took has its bit set, and no pointer leads to it. -/
theorem zone_lost : ¬ ∀ (d : Device) (fPos : Nat → Nat) (actions : List Action) (s : System),
    d.Consistent → d.BitmapLaw → (∀ action ∈ actions, action.transfers = true) →
      Lib.exec step (start d fPos) actions = some s → (∀ task, s.call task = none) →
        s.device.BitmapLaw := by
  intro lawful
  have run : (Lib.exec step emptyStart bothTakeZones).map (fun s =>
      (allIdle 3 s && s.device.bit 5, (s.device.sFirstdatazone, s.device.sNzones),
        [5, 6, 7].map s.use, (List.range 9).map (s.device.iZone 1))) =
      some (true, (5, 8), [some (.block 1 0), some (.block 1 0), none],
        [6, 0, 0, 0, 0, 0, 0, 0, 0]) := by
    decide +kernel
  obtain ⟨s, reached, seen⟩ := Option.map_eq_some_iff.mp run
  simp only [Prod.mk.injEq, List.map_cons, List.cons.injEq, Bool.and_eq_true] at seen
  obtain ⟨⟨returned, set⟩, ⟨first, last⟩, ⟨use₅, use₆, use₇, -⟩, zones⟩ := seen
  have idle := idle_of_allIdle reached (by decide) returned
  -- every write gets the blocks that it asks for
  have current : Lib.EveryStep step (GetsItsBlocks false) emptyStart bothTakeZones :=
    Lib.everyStep_of_checkSteps (checkBlocks false) (fun _ _ => getsItsBlocks_of_check)
      (by decide +kernel)
  rw [← emptyStart_eq] at reached current
  have order : s.device.InOrder s.use :=
    (Lib.exec_invariant (Inv false) (fun _ _ _ inv current taken => inv.step current taken)
      (start_inv threeZones_consistent) current reached).order
  have law := lawful threeZones _ bothTakeZones s threeZones_consistent threeZones_bitmapLaw
    (by decide) reached idle
  have inside : s.device.InZones 5 := by
    rw [Device.InZones, first, last]
    decide
  obtain ⟨inode, c, ⟨⟨height, live⟩, leads⟩, -⟩ := (law 5 inside).mp set
  have owned := order.owner_of_live live
  have used := order.points c inode height owned (leads ▸ by decide)
  rw [leads, use₅] at used
  cases used
  -- the zone belongs to file 1, so its pointer is in `i_zone` or in an indirect block
  cases c with
  | zone inode' k =>
      by_cases small : k < 9
      · rw [owner_zone small] at owned
        obtain ⟨same, -⟩ := Prod.mk.inj (Option.some.inj owned)
        have member : 5 ∈ (List.range 9).map (s.device.iZone 1) :=
          List.mem_map.mpr ⟨k, List.mem_range.mpr small, same ▸ leads⟩
        rw [zones] at member
        exact absurd member (by decide)
      · simp [Cell.owner, small] at owned
  | entry block j =>
      have above := (of_owner_entry owned).1
      obtain ⟨low, high⟩ := (order.marked block (by simp [above])).1
      rw [first] at low
      rw [last] at high
      have few : block = 5 ∨ block = 6 ∨ block = 7 := by omega
      rcases few with same | same | same
      · simp [same, use₅] at above
      · simp [same, use₆] at above
      · simp [same, use₇] at above

end System

end Linux012.Zones
