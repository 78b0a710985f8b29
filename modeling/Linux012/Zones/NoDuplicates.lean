import Linux012.Zones.CreateMoves

/-!
# No name twice

As long as no call stores its entry while another one that makes the same name has looked for
it already, and no two calls copy to one slot, the names in a directory are distinct and
every entry that was made stays.
-/

namespace Linux012.Zones.Creates

/-- A slot within the directory that is in use. -/
def LiveSlot (d : Device) (dir k : Nat) : Prop := k < d.iSize dir / 16 ∧ d.slotInode dir k ≠ 0

namespace System

/-- No two live entries have one name, and every entry that a call has made is there. -/
structure NamesHold (s : System) (dir : Nat) : Prop where
  distinct : ∀ k k', LiveSlot s.device dir k → LiveSlot s.device dir k' →
    s.device.slotName dir k = s.device.slotName dir k' → k = k'
  kept : ∀ entry ∈ s.made, LiveSlot s.device dir entry.slot ∧
    s.device.slotInode dir entry.slot = entry.inr ∧
    s.device.slotName dir entry.slot = entry.name

/-- No task is in a call. -/
noncomputable def start (d : Device) (inodes : InodeMap) : System where
  device := d
  refs := []
  fPos _ := 0
  use := d.uses
  inodes := inodes
  made := []
  call _ := none

/-! ## The condition -/

/-- The calls of all other tasks. -/
def others (s : System) (task : Nat) (holds : Call → Bool) : Bool :=
  (List.range nrTasks).all fun other => other == task || (s.call other).all holds

end System

/-- `add_entry` does not look at a slot that another call copies to, and when the number of
the inode is stored no other call misses the name. -/
def Call.alone (call : Call) (s : System) (task : Nat) (ok : Bool) : Bool :=
  call.walksWell s.toShared ok &&
    match call.phase with
    | .choosing _ n j => s.others task fun other => other.copies != some (entriesPerBlock * n + j)
    | .copying _ n j c => decide (c < nameLen) ||
        s.others task fun other => !other.misses (entriesPerBlock * n + j) call.name
    | _ => true

namespace System

variable {s next : System} {task dir : Nat} {call : Call}

/-- The condition on a step of a run. -/
def RunsAlone (s : System) : Action → Prop
  | .resume task ok => ∀ call, s.call task = some call → call.alone s task ok = true
  | .create .. => True

/-! ## The invariant -/

structure Inv (dir : Nat) (s : System) : Prop where
  order : s.device.InOrder s.use
  directory : s.device.IsDirectory dir
  marks : s.inodes.Marks dir
  few : ∀ task call, s.call task = some call → task < nrTasks
  owned : ∀ task call inr, s.call task = some call → call.owns = some inr →
    0 < inr ∧ inr < 65536 ∧ inr ≠ dir ∧ s.inodes.imap inr = true
  apart : ∀ task task' call call' inr, s.call task = some call → s.call task' = some call' →
    call.owns = some inr → call'.owns = some inr → task = task'
  slots : ∀ task task' call call' k, s.call task = some call → s.call task' = some call' →
    call.copies = some k → call'.copies = some k → task = task'
  calls : ∀ task call, s.call task = some call → call.Ok s.toShared task dir
  made : ∀ entry ∈ s.made, entry.inr ≠ 0 ∧ s.device.slotInode dir entry.slot = entry.inr ∧
    s.device.slotName dir entry.slot = entry.name

theorem Inv.namesHold (inv : s.Inv dir) : s.NamesHold dir where
  distinct k k' live live' same := inv.directory.distinct k k' live.2 live'.2 same
  kept entry member := by
    obtain ⟨notZero, inode, name⟩ := inv.made entry member
    have live : s.device.slotInode dir entry.slot ≠ 0 := inode ▸ notZero
    exact ⟨⟨inv.directory.inside _ live, live⟩, inode, name⟩

theorem Inv.ready (inv : s.Inv dir) (isCall : s.call task = some call) : Ready s task dir call :=
  ⟨inv.order, inv.directory, inv.marks, fun inr => inv.owned task call inr isCall,
    inv.calls task call isCall⟩

theorem others_spec {holds : Call → Bool} (checked : s.others task holds = true) {other : Nat}
    {call : Call} (inside : other < nrTasks) (isCall : s.call other = some call)
    (different : other ≠ task) : holds call = true := by
  have each := List.all_eq_true.mp checked other (List.mem_range.mpr inside)
  rw [isCall, beq_false_of_ne different] at each
  simpa using each

/-- The slot that a call copies to is free, and its name is nowhere. -/
theorem copies_spec {k : Nat} {shared : Shared} (ok : call.Ok shared task dir)
    (copies : call.copies = some k) :
    shared.device.slotInode dir k = 0 ∧ k < shared.device.iSize dir / 16 ∧
      Absent shared.device dir call.name := by
  obtain ⟨kind, name, lookup, inr, text, phase⟩ := call
  have place := ok.place
  have absent := ok.absent
  cases phase with
  | copying zone n j c =>
      cases copies
      obtain ⟨at', inside, short, free, within, bytes⟩ := place
      exact ⟨free, within, absent rfl⟩
  | _ => cases copies

/-! ## The directory -/

variable {out : Outcome}

/-- After a step the directory is a directory. -/
theorem directory_of_change (inv : s.Inv dir) (ok : call.Ok s.toShared task dir)
    (change : Change s dir call out) : out.shared.device.IsDirectory dir := by
  have directory := inv.directory
  cases change with
  | quiet contents size made =>
      refine ⟨size ▸ directory.whole, ?_, fun k live => ?_, fun k k' live live' same => ?_⟩
      · rw [slotInode_congr contents, slotName_of_contents contents]
        exact directory.first
      · rw [slotInode_congr contents] at live
        exact size ▸ directory.inside k live
      · rw [slotInode_congr contents] at live live'
        rw [slotName_of_contents contents, slotName_of_contents contents] at same
        exact directory.distinct k k' live live' same
  | longer k₀ behind contents size made =>
      refine ⟨?_, ?_, fun k live => ?_, fun k k' live live' same => ?_⟩
      · rw [size]
        omega
      · rw [slotInode_congr contents, slotName_of_contents contents]
        exact directory.first
      · rw [slotInode_congr contents] at live
        have := directory.inside k live
        rw [size]
        omega
      · rw [slotInode_congr contents] at live live'
        rw [slotName_of_contents contents, slotName_of_contents contents] at same
        exact directory.distinct k k' live live' same
  | names k₀ b byte copies short stored size made =>
      obtain ⟨free, within, absent⟩ := copies_spec ok copies
      have inodes (k : Nat) : out.shared.device.slotInode dir k = s.device.slotInode dir k :=
        slotInode_of_setName short stored
      have names (k : Nat) (live : s.device.slotInode dir k ≠ 0) :
          out.shared.device.slotName dir k = s.device.slotName dir k := by
        have elsewhere : k ≠ k₀ := fun same => live (same ▸ free)
        refine slotName_congr fun b' inName => ?_
        rw [slotByte_of_setName short inName stored, if_neg fun both => elsewhere both.1]
      refine ⟨size ▸ directory.whole, ?_, fun k live => ?_, fun k k' live live' same => ?_⟩
      · rw [inodes, names 0 directory.first.1]
        exact directory.first
      · rw [inodes] at live
        exact size ▸ directory.inside k live
      · rw [inodes] at live live'
        rw [names k live, names k' live'] at same
        exact directory.distinct k k' live live' same
  | fills k₀ copies last named positive small stored size made =>
      obtain ⟨free, within, absent⟩ := copies_spec ok copies
      have inodes (k : Nat) : out.shared.device.slotInode dir k =
          if k = k₀ then call.inr % 65536 else s.device.slotInode dir k :=
        slotInode_of_setInode stored
      have names (k : Nat) : out.shared.device.slotName dir k = s.device.slotName dir k :=
        slotName_congr fun b inName => slotByte_of_setInode rfl inName stored
      have live_cases {k : Nat} (live : out.shared.device.slotInode dir k ≠ 0) :
          k = k₀ ∨ s.device.slotInode dir k ≠ 0 := by
        rw [inodes] at live
        split at live
        · exact .inl ‹_›
        · exact .inr live
      refine ⟨size ▸ directory.whole, ?_, fun k live => ?_, fun k k' live live' same => ?_⟩
      · have notNew : 0 ≠ k₀ := fun same => directory.first.1 (same ▸ free)
        rw [inodes, names, if_neg notNew]
        exact directory.first
      · rw [size]
        rcases live_cases live with same | before
        · exact same ▸ within
        · exact directory.inside k before
      · rw [names, names] at same
        rcases live_cases live with here | before
        · rcases live_cases live' with here' | before'
          · exact here.trans here'.symm
          · rw [here, named] at same
            exact absurd same.symm (absent k' before')
        · rcases live_cases live' with here' | before'
          · rw [here', named] at same
            exact absurd same (absent k before)
          · exact directory.distinct k k' before before' same

/-- The entries that were made stay, and the new one is there. -/
theorem made_of_change (inv : s.Inv dir) (ok : call.Ok s.toShared task dir)
    (change : Change s dir call out) : ∀ entry ∈ out.made, entry.inr ≠ 0 ∧
      out.shared.device.slotInode dir entry.slot = entry.inr ∧
      out.shared.device.slotName dir entry.slot = entry.name := by
  intro entry member
  cases change with
  | quiet contents size made =>
      rw [made] at member
      rw [slotInode_congr contents, slotName_of_contents contents]
      exact inv.made entry member
  | longer k₀ behind contents size made =>
      rw [made] at member
      rw [slotInode_congr contents, slotName_of_contents contents]
      exact inv.made entry member
  | names k₀ b byte copies short stored size made =>
      rw [made] at member
      obtain ⟨notZero, inode, name⟩ := inv.made entry member
      obtain ⟨free, within, absent⟩ := copies_spec ok copies
      have elsewhere : entry.slot ≠ k₀ := by
        intro same
        rw [same, free] at inode
        exact notZero inode.symm
      refine ⟨notZero, (slotInode_of_setName short stored).trans inode, ?_⟩
      refine (slotName_congr fun b' inName => ?_).trans name
      rw [slotByte_of_setName short inName stored, if_neg fun both => elsewhere both.1]
  | fills k₀ copies last named positive small stored size made =>
      obtain ⟨free, within, absent⟩ := copies_spec ok copies
      have names (k : Nat) : out.shared.device.slotName dir k = s.device.slotName dir k :=
        slotName_congr fun b inName => slotByte_of_setInode rfl inName stored
      rw [made, List.mem_cons] at member
      rw [slotInode_of_setInode stored, names]
      rcases member with isNew | old
      · subst isNew
        rw [if_pos rfl, Nat.mod_eq_of_lt small]
        exact ⟨Nat.ne_of_gt positive, rfl, named⟩
      · obtain ⟨notZero, inode, name⟩ := inv.made entry old
        have elsewhere : entry.slot ≠ k₀ := by
          intro same
          rw [same, free] at inode
          exact notZero inode.symm
        rw [if_neg elsewhere]
        exact ⟨notZero, inode, name⟩

/-- What the step of one call is to another call: the directory does not shrink, entries that
it would miss do not appear, and the slot that it copies to stays. -/
theorem others_of_change {other : Call} (ok : call.Ok s.toShared task dir)
    (change : Change s dir call out) (apart : ∀ k, call.copies = some k → other.copies ≠ some k)
    (notMissed : ∀ zone n j, call.phase = .copying zone n j nameLen →
      other.misses (entriesPerBlock * n + j) call.name = false) :
    s.device.iSize dir ≤ out.shared.device.iSize dir ∧
      other.Sees s.device out.shared.device dir ∧
      ∀ k, other.copies = some k → s.device.slotInode dir k = 0 →
        out.shared.device.slotInode dir k = 0 ∧
          ∀ b < nameLen, out.shared.device.slotByte dir k b = s.device.slotByte dir k b := by
  have same (contents : out.shared.device.contents dir = s.device.contents dir) :
      other.Sees s.device out.shared.device dir ∧
      ∀ k, other.copies = some k → s.device.slotInode dir k = 0 →
        out.shared.device.slotInode dir k = 0 ∧
          ∀ b < nameLen, out.shared.device.slotByte dir k b = s.device.slotByte dir k b := by
    refine ⟨fun k live => .inl ⟨?_, slotName_of_contents contents⟩, fun k _ free => ⟨?_, ?_⟩⟩
    · rwa [slotInode_congr contents] at live
    · exact (slotInode_congr contents).trans free
    · exact fun b _ => slotByte_congr contents
  cases change with
  | quiet contents size made => exact ⟨Nat.le_of_eq size.symm, same contents⟩
  | longer k₀ behind contents size made =>
      refine ⟨?_, same contents⟩
      rw [size]
      omega
  | names k₀ b byte copies short stored size made =>
      obtain ⟨free₀, within, absent⟩ := copies_spec ok copies
      have inodes (k : Nat) : out.shared.device.slotInode dir k = s.device.slotInode dir k :=
        slotInode_of_setName short stored
      have bytes (k : Nat) (elsewhere : k ≠ k₀) (b' : Nat) (inName : b' < nameLen) :
          out.shared.device.slotByte dir k b' = s.device.slotByte dir k b' := by
        rw [slotByte_of_setName short inName stored, if_neg fun both => elsewhere both.1]
      refine ⟨Nat.le_of_eq size.symm, fun k live => ?_, fun k copies' free => ?_⟩
      · rw [inodes] at live
        have elsewhere : k ≠ k₀ := fun same => live (same ▸ free₀)
        exact .inl ⟨live, slotName_congr (bytes k elsewhere)⟩
      · have elsewhere : k ≠ k₀ := fun same => apart k₀ copies (same ▸ copies')
        exact ⟨(inodes k).trans free, bytes k elsewhere⟩
  | fills k₀ copies last named positive small stored size made =>
      have inodes (k : Nat) : out.shared.device.slotInode dir k =
          if k = k₀ then call.inr % 65536 else s.device.slotInode dir k :=
        slotInode_of_setInode stored
      have bytes (k b : Nat) (inName : b < nameLen) :
          out.shared.device.slotByte dir k b = s.device.slotByte dir k b :=
        slotByte_of_setInode rfl inName stored
      have names (k : Nat) : out.shared.device.slotName dir k = s.device.slotName dir k :=
        slotName_congr (bytes k)
      refine ⟨Nat.le_of_eq size.symm, fun k live => ?_, fun k copies' free => ?_⟩
      · rw [inodes] at live
        split at live
        · rename_i here
          right
          obtain ⟨zone, n, j, isPhase, place⟩ := last
          rw [names, here, named, ← place]
          exact notMissed zone n j isPhase
        · exact .inl ⟨live, names k⟩
      · have elsewhere : k ≠ k₀ := fun same => apart k₀ copies (same ▸ copies')
        rw [inodes, if_neg elsewhere]
        exact ⟨free, bytes k⟩

/-! ## Steps -/

/-- A call comes to the directory. -/
theorem Inv.create {kind : Kind} {basename : List UInt8} {root : Bool} {inr : Nat}
    {text : List UInt8} (inv : s.Inv dir)
    (taken : step dir s (.create task kind basename root inr text) = some next) : next.Inv dir := by
  unfold step at taken
  dsimp only at taken
  split at taken
  · rename_i enabled
    obtain ⟨inside, idle, notEmpty, noNul, numbered⟩ := enabled
    cases taken
    -- the new call relies on nothing yet
    have isNew {other : Nat} {call : Call} (isCall : Function.update s.call task (some
        ⟨kind, basename.take nameLen, lookupOf root (basename.take nameLen), inr, text,
          if kind = .symlink then .makingInode else .searching⟩) other = some call) :
        s.call other = some call ∨ other = task ∧ call.owns = none ∧ call.copies = none ∧
          call.Ok s.toShared task dir := by
      by_cases same : other = task
      · rw [same, Function.update_self] at isCall
        cases isCall
        refine .inr ⟨same, ?_, ?_, ?_⟩
        · cases kind <;> rfl
        · cases kind <;> rfl
        · refine ⟨fun member => noNul (List.mem_of_mem_take member), ?_, ?_, numbered, ?_, ?_, ?_⟩
          · rw [List.length_take]
            exact Nat.min_le_left _ _
          · unfold lookupOf
            split
            · exact .inr rfl
            · exact .inl rfl
          · cases kind <;> exact nofun
          · cases kind <;> exact nofun
          · cases kind <;> trivial
      · rw [Function.update_of_ne same] at isCall
        exact .inl isCall
    refine ⟨inv.order, inv.directory, inv.marks, fun other call isCall => ?_,
      fun other call inr' isCall owned => ?_, fun other other' call call' inr' isCall isCall' owned owned' => ?_,
      fun other other' call call' k isCall isCall' copies copies' => ?_, fun other call isCall => ?_,
      inv.made⟩
    · rcases isNew isCall with before | ⟨same, -⟩
      · exact inv.few other call before
      · exact same ▸ inside
    · rcases isNew isCall with before | ⟨-, none, -⟩
      · exact inv.owned other call inr' before owned
      · rw [none] at owned
        cases owned
    · rcases isNew isCall with before | ⟨-, none, -⟩
      · rcases isNew isCall' with before' | ⟨-, none, -⟩
        · exact inv.apart other other' call call' inr' before before' owned owned'
        · rw [none] at owned'
          cases owned'
      · rw [none] at owned
        cases owned
    · rcases isNew isCall with before | ⟨-, -, none, -⟩
      · rcases isNew isCall' with before' | ⟨-, -, none, -⟩
        · exact inv.slots other other' call call' k before before' copies copies'
        · rw [none] at copies'
          cases copies'
      · rw [none] at copies
        cases copies
    · rcases isNew isCall with before | ⟨same, -, -, ok⟩
      · exact inv.calls other call before
      · exact same ▸ ok
  · cases taken

/-- A call goes on. -/
theorem Inv.resume {ok : Bool} (inv : s.Inv dir) (isCall : s.call task = some call)
    (alone : call.alone s task ok = true) (resumed : call.resume s task dir ok = some out) :
    (s.withCall task out).Inv dir := by
  unfold Call.alone at alone
  rw [Bool.and_eq_true] at alone
  obtain ⟨well, alone⟩ := alone
  have isOk := inv.calls task call isCall
  have moved := Call.resume_moved (inv.ready isCall) well resumed
  have owned := inv.owned task call
  have notDir : call.owns ≠ some dir := (inv.ready isCall).notOwned
  -- the calls after the step: the one that went on, and the others
  have after {other : Nat} {call' : Call} (isCall' : (s.withCall task out).call other = some call') :
      other = task ∧ out.call = some call' ∨ other ≠ task ∧ s.call other = some call' := by
    change Function.update s.call task out.call other = some call' at isCall'
    by_cases same : other = task
    · rw [same, Function.update_self] at isCall'
      exact .inl ⟨same, isCall'⟩
    · rw [Function.update_of_ne same] at isCall'
      exact .inr ⟨same, isCall'⟩
  -- an inode of another call is not the inode of the call
  have apartFrom {other inr : Nat} {call' : Call} (isOther : s.call other = some call')
      (different : other ≠ task) (owned' : call'.owns = some inr) : call.owns ≠ some inr :=
    fun owned => different (inv.apart other task call' call inr isOther isCall owned' owned)
  have ownedAfter {left : Call} {inr : Nat} (isLeft : out.call = some left)
      (owned' : left.owns = some inr) {other : Nat} {call' : Call} (isOther : s.call other = some call')
      (different : other ≠ task) : call'.owns ≠ some inr := by
    intro owned''
    obtain ⟨-, own | ⟨clear, -⟩⟩ := moved.owns left inr isLeft owned'
    · exact apartFrom isOther different owned'' own
    · have set := (inv.owned other call' inr isOther owned'').2.2.2
      rw [clear] at set
      cases set
  have copiesAfter {left : Call} {k : Nat} (isLeft : out.call = some left)
      (copies' : left.copies = some k) {other : Nat} {call' : Call} (isOther : s.call other = some call')
      (different : other ≠ task) : call'.copies ≠ some k := by
    rcases Call.resume_copies resumed isLeft copies' with own | ⟨zone, n, j, isPhase, place⟩
    · exact fun copies => different (inv.slots other task call' call k isOther isCall copies own)
    · rw [isPhase] at alone
      have free := others_spec alone (inv.few other call' isOther) isOther different
      rw [place] at free
      simpa using free
  refine ⟨moved.step.order, directory_of_change inv isOk moved.change, ⟨?_, ?_⟩,
    fun other call' isCall' => ?_, fun other call' inr isCall' owned' => ?_,
    fun other other' call' call'' inr isCall' isCall'' owned' owned'' => ?_,
    fun other other' call' call'' k isCall' isCall'' copies' copies'' => ?_,
    fun other call' isCall' => ?_, made_of_change inv isOk moved.change⟩
  · exact moved.keeps 0 inv.marks.reserved fun same => absurd (owned 0 isCall same).1 (by decide)
  · exact moved.keeps dir inv.marks.directory notDir
  · rcases after isCall' with ⟨same, -⟩ | ⟨-, isOther⟩
    · exact same ▸ inv.few task call isCall
    · exact inv.few other call' isOther
  · rcases after isCall' with ⟨-, isLeft⟩ | ⟨different, isOther⟩
    · obtain ⟨set, own | ⟨clear, positive, small⟩⟩ := moved.owns call' inr isLeft owned'
      · obtain ⟨positive, small, notDir, -⟩ := owned inr isCall own
        exact ⟨positive, small, notDir, set⟩
      · refine ⟨positive, small, fun same => ?_, set⟩
        have marked := inv.marks.directory
        rw [← same, clear] at marked
        cases marked
    · obtain ⟨positive, small, notDir, set⟩ := inv.owned other call' inr isOther owned'
      exact ⟨positive, small, notDir, moved.keeps inr set (apartFrom isOther different owned')⟩
  · rcases after isCall' with ⟨same, isLeft⟩ | ⟨different, isOther⟩
    · rcases after isCall'' with ⟨same', -⟩ | ⟨different', isOther'⟩
      · exact same.trans same'.symm
      · exact absurd owned'' (ownedAfter isLeft owned' isOther' different')
    · rcases after isCall'' with ⟨-, isLeft'⟩ | ⟨-, isOther'⟩
      · exact absurd owned' (ownedAfter isLeft' owned'' isOther different)
      · exact inv.apart other other' call' call'' inr isOther isOther' owned' owned''
  · rcases after isCall' with ⟨same, isLeft⟩ | ⟨different, isOther⟩
    · rcases after isCall'' with ⟨same', -⟩ | ⟨different', isOther'⟩
      · exact same.trans same'.symm
      · exact absurd copies'' (copiesAfter isLeft copies' isOther' different')
    · rcases after isCall'' with ⟨-, isLeft'⟩ | ⟨-, isOther'⟩
      · exact absurd copies' (copiesAfter isLeft' copies'' isOther different)
      · exact inv.slots other other' call' call'' k isOther isOther' copies' copies''
  · rcases after isCall' with ⟨same, isLeft⟩ | ⟨different, isOther⟩
    · have kept := moved.ok
      rw [isLeft] at kept
      exact same ▸ kept
    · have notMissed (zone n j : Nat) (isPhase : call.phase = .copying zone n j nameLen) :
          call'.misses (entriesPerBlock * n + j) call.name = false := by
        rw [isPhase] at alone
        have seen := others_spec alone (inv.few other call' isOther) isOther different
        simpa using seen
      obtain ⟨grows, sees, copied⟩ := others_of_change isOk moved.change
        (fun k copies copies' => different
          (inv.slots other task call' call k isOther isCall copies' copies)) notMissed
      have own (inode : Nat) (owned' : call'.owns = some inode) : s.toShared.Stays out.shared inode :=
        moved.stays inode (inv.owned other call' inode isOther owned').2.2.2
          (apartFrom isOther different owned')
      exact (inv.calls other call' isOther).stable inv.order moved.step
        (fun same => different (Option.some.inj same))
        (moved.stays dir inv.marks.directory notDir) own grows sees copied

theorem Inv.step {action : Action} (inv : s.Inv dir) (alone : s.RunsAlone action)
    (taken : System.step dir s action = some next) : next.Inv dir := by
  cases action with
  | create task kind basename root inr text => exact inv.create taken
  | resume task ok =>
      unfold System.step at taken
      dsimp only at taken
      split at taken
      · cases taken
      · rename_i call isCall
        obtain ⟨out, resumed, built⟩ := Option.map_eq_some_iff.mp taken
        exact built ▸ inv.resume isCall (alone call isCall) resumed

theorem start_inv {d : Device} {inodes : InodeMap} (consistent : d.Consistent)
    (directory : d.IsDirectory dir) (marks : inodes.Marks dir) : (start d inodes).Inv dir where
  order := consistent.inOrder
  directory := directory
  marks := marks
  few _ _ isCall := by cases isCall
  owned _ _ _ isCall := by cases isCall
  apart _ _ _ _ _ isCall := by cases isCall
  slots _ _ _ _ _ isCall := by cases isCall
  calls _ _ isCall := by cases isCall
  made _ member := by cases member

/-- In a run whose calls are alone where it matters no name is there twice. -/
theorem namesHold_of_runsAlone {d : Device} {inodes : InodeMap} (consistent : d.Consistent)
    (directory : d.IsDirectory dir) (marks : inodes.Marks dir)
    (reached : Lib.ReachedBy (System.step dir) RunsAlone (start d inodes) s) : s.NamesHold dir :=
  (reached.invariant (Inv dir) (fun _ _ _ inv alone taken => inv.step alone taken)
    (start_inv consistent directory marks)).namesHold

/-! ## Runs that are evaluated -/

/-- The entries `.` and `..` of directory 1. -/
def dirEntries : List UInt8 :=
  [1, 0, dot] ++ List.replicate 13 0 ++ [1, 0, dot, dot] ++ List.replicate 12 0

theorem five_pos : 0 < 5 := by decide

theorem eight_lt_65536 : 8 < 65536 := by decide

/-- Three zones; the first one holds the entries of a directory. -/
def oneDirectory : Device where
  sFirstdatazone := 5
  sNzones := 8
  firstdatazone_pos := five_pos
  nzones_lt := eight_lt_65536
  zmapBits := 8192
  zmap n := n == 0 || n == 1
  data zone offset := if zone = 5 then dirEntries.getD offset 0 else 7
  iZone inode k := if inode = 1 ∧ k = 0 then 5 else 0
  iSize inode := if inode = 1 then 32 else 0

def fewInodes : InodeMap where
  imapBits := 8192
  sNinodes := 32
  ninodes_lt := by decide
  imap n := n == 0 || n == 1

theorem oneDirectory_live {inode height : Nat} {c : Cell} (live : oneDirectory.Live inode height c) :
    c = .zone 1 0 ∧ inode = 1 ∧ height = 0 ∨ oneDirectory.ptr c = 0 := by
  induction live with
  | zone k inside =>
      by_cases here : inode = 1 ∧ k = 0
      · exact .inl ⟨by rw [here.1, here.2], here.1, by rw [here.2]⟩
      · exact .inr (if_neg here)
  | entry j live points inside ih =>
      rcases ih with ⟨-, -, higher⟩ | null
      · cases higher
      · exact absurd null points

theorem oneDirectory_consistent : oneDirectory.Consistent := by
  refine ⟨rfl, fun _ _ c _ _ c' live live' same points => ?_, fun _ _ c live points => ?_⟩
  · rcases oneDirectory_live live with ⟨here, -⟩ | null
    · rcases oneDirectory_live live' with ⟨here', -⟩ | null'
      · exact here.trans here'.symm
      · exact absurd (same.trans null') points
    · exact absurd null points
  · rcases oneDirectory_live live with ⟨here, -⟩ | null
    · subst here
      exact ⟨by decide, by decide⟩
    · exact absurd null points

/-- Behind the two entries the directory is empty. -/
theorem oneDirectory_contents {pos : Nat} (behind : 32 ≤ pos) : oneDirectory.contents 1 pos = 0 := by
  unfold Device.contents
  split
  · unfold Device.byteAt
    split
    · rfl
    · rename_i notNull
      by_cases firstBlock : pos / blockSize = 0
      · rw [firstBlock] at notNull ⊢
        change dirEntries.getD (pos % blockSize) 0 = 0
        have small : pos % blockSize = pos := by
          simp only [blockSize] at firstBlock ⊢
          omega
        have out : dirEntries.length ≤ pos := behind
        rw [small, List.getD, List.getElem?_eq_none out]
        rfl
      · have null : oneDirectory.ptr (.zone 1 (Device.route (pos / blockSize)).1) = 0 := by
          refine if_neg fun here => ?_
          have first := here.2
          unfold Device.route at first
          split at first
          · exact firstBlock first
          · split at first
            · cases first
            · cases first
        exact absurd (value_of_ptr_zero null) notNull
  · rfl

theorem oneDirectory_isDirectory : oneDirectory.IsDirectory 1 := by
  have inside (k : Nat) (live : oneDirectory.slotInode 1 k ≠ 0) : k < 2 := by
    by_contra outside
    refine live ?_
    rw [Device.slotInode, oneDirectory_contents (by omega), oneDirectory_contents (by omega)]
    rfl
  refine ⟨by decide, by decide +kernel, inside, fun k k' live live' same => ?_⟩
  have small := inside k live
  have small' := inside k' live'
  have names : oneDirectory.slotName 1 0 ≠ oneDirectory.slotName 1 1 := by decide +kernel
  obtain rfl | rfl : k = 0 ∨ k = 1 := by omega
  · obtain rfl | rfl : k' = 0 ∨ k' = 1 := by omega
    · rfl
    · exact absurd same names
  · obtain rfl | rfl : k' = 0 ∨ k' = 1 := by omega
    · exact absurd same.symm names
    · rfl

theorem fewInodes_marks : fewInodes.Marks 1 := ⟨rfl, rfl⟩

def oneStart : System where
  device := oneDirectory
  refs := []
  fPos _ := 0
  use zone := if zone = 5 then some (.block 1 0) else none
  inodes := fewInodes
  made := []
  call _ := none

theorem oneStart_eq : start oneDirectory fewInodes = oneStart := by
  have uses : oneDirectory.uses = fun zone => if zone = 5 then some (.block 1 0) else none := by
    funext zone
    have live : oneDirectory.Live 1 0 (.zone 1 0) := .zone 0 (by decide)
    by_cases here : zone = 5
    · rw [if_pos here, here]
      exact oneDirectory_consistent.uses_eq live (by decide)
    · rw [if_neg here, Device.uses, dif_neg]
      rintro ⟨owner, notNull, c, live, leads⟩
      rcases oneDirectory_live live with ⟨isRoot, -⟩ | null
      · subst isRoot
        exact here leads.symm
      · exact notNull (leads.symm.trans null)
  rw [start, uses]
  rfl

/-- The steps of a task that goes on `n` times. -/
def goOn (task n : Nat) : List Action := List.replicate n (.resume task true)

def checkAlone (s : System) : Action → Bool
  | .resume task ok => (s.call task).all fun call => call.alone s task ok
  | .create .. => true

theorem runsAlone_of_check {action : Action} (checked : s.checkAlone action = true) :
    s.RunsAlone action := by
  cases action with
  | create => trivial
  | resume task ok =>
      intro call isCall
      simpa [checkAlone, isCall] using checked

/-- A file and a directory are made; both names are looked for before one of them is there. -/
def twoNames : List Action :=
  [.create 1 .openCreat [97] false 0 [], .create 2 .mkdir [98] false 0 []] ++
    goOn 1 9 ++ goOn 2 9 ++ goOn 1 23 ++ goOn 2 38

theorem namesHold_of_runsAlone_twoNames :
    (Lib.exec (System.step 1) (start oneDirectory fewInodes) twoNames).isSome ∧
      ∀ s, Lib.exec (System.step 1) (start oneDirectory fewInodes) twoNames = some s →
        s.NamesHold 1 := by
  refine ⟨by rw [oneStart_eq]; decide +kernel, fun s reached => ?_⟩
  refine namesHold_of_runsAlone oneDirectory_consistent oneDirectory_isDirectory fewInodes_marks
    ⟨twoNames, reached, ?_⟩
  rw [oneStart_eq]
  exact Lib.everyStep_of_checkSteps checkAlone (fun _ _ => runsAlone_of_check) (by decide +kernel)

/-- Two tasks make a file with the same name; both look for it before one of them makes it. -/
def sameName : List Action :=
  [.create 1 .openCreat [97] false 0 [], .create 2 .openCreat [97] false 0 []] ++
    goOn 1 9 ++ goOn 2 9 ++ goOn 1 23 ++ goOn 2 24

theorem name_twice : ¬ ∀ (d : Device) (inodes : InodeMap) (dir : Nat) (actions : List Action)
    (s : System), d.Consistent → d.IsDirectory dir → inodes.Marks dir →
      Lib.exec (System.step dir) (start d inodes) actions = some s → s.NamesHold dir := by
  intro holds
  have run : (Lib.exec (System.step 1) oneStart sameName).map (fun s =>
      (s.device.iSize 1, [2, 3].map (s.device.slotInode 1), [2, 3].map (s.device.slotName 1))) =
      some (64, [2, 3], [[97], [97]]) := by
    decide +kernel
  obtain ⟨s, reached, seen⟩ := Option.map_eq_some_iff.mp run
  simp only [Prod.mk.injEq, List.map_cons, List.cons.injEq] at seen
  obtain ⟨size, ⟨inode₂, inode₃, -⟩, name₂, name₃, -⟩ := seen
  rw [← oneStart_eq] at reached
  have names := holds oneDirectory fewInodes 1 sameName s oneDirectory_consistent
    oneDirectory_isDirectory fewInodes_marks reached
  have live₂ : LiveSlot s.device 1 2 := by
    rw [LiveSlot, size, inode₂]
    decide
  have live₃ : LiveSlot s.device 1 3 := by
    rw [LiveSlot, size, inode₃]
    decide
  exact absurd (names.distinct 2 3 live₂ live₃ (name₂.trans name₃.symm)) (by decide)

end System

end Linux012.Zones.Creates
