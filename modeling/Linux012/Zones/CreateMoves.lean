import Linux012.Zones.CreateSteps

/-!
# What a step of a creating call does

A step leaves the contents of the directory, makes the directory longer, stores a byte of the
name in the slot that the call copies to, or the number of its inode.
-/

namespace Linux012.Zones.Creates

variable {s : System} {task dir : Nat} {call : Call}

/-! ## The effect on the directory -/

/-- What a step of a call does to the directory, and which entry it makes. -/
inductive Change (s : System) (dir : Nat) (call : Call) (out : Outcome) : Prop where
  | quiet (contents : out.shared.device.contents dir = s.device.contents dir)
      (size : out.shared.device.iSize dir = s.device.iSize dir) (made : out.made = s.made)
  | longer (k : Nat) (behind : s.device.iSize dir ≤ 16 * k)
      (contents : out.shared.device.contents dir = s.device.contents dir)
      (size : out.shared.device.iSize dir = 16 * (k + 1)) (made : out.made = s.made)
  | names (k b : Nat) (byte : UInt8) (copies : call.copies = some k) (short : b < nameLen)
      (stored : out.shared.device.contents dir =
        Function.update (s.device.contents dir) (16 * k + 2 + b) byte)
      (size : out.shared.device.iSize dir = s.device.iSize dir) (made : out.made = s.made)
  | fills (k : Nat) (copies : call.copies = some k)
      (last : ∃ zone n j, call.phase = .copying zone n j nameLen ∧ entriesPerBlock * n + j = k)
      (named : s.device.slotName dir k = call.name)
      (positive : 0 < call.inr) (small : call.inr < 65536)
      (stored : out.shared.device.contents dir =
        Lib.overwrite (s.device.contents dir) (16 * k)
          [UInt8.ofNat call.inr, UInt8.ofNat (call.inr / 256)])
      (size : out.shared.device.iSize dir = s.device.iSize dir)
      (made : out.made = ⟨k, call.name, call.inr⟩ :: s.made)

/-- What a step of a call does. -/
structure Moved (s : System) (task dir : Nat) (call : Call) (out : Outcome) : Prop where
  step : s.toShared.Step (some task) out.shared
  stays : ∀ inode, s.inodes.imap inode = true → call.owns ≠ some inode →
    s.toShared.Stays out.shared inode
  change : Change s dir call out
  keeps : ∀ inode, s.inodes.imap inode = true → call.owns ≠ some inode →
    out.inodes.imap inode = true
  owns : ∀ left inr, out.call = some left → left.owns = some inr →
    out.inodes.imap inr = true ∧
      (call.owns = some inr ∨ s.inodes.imap inr = false ∧ 0 < inr ∧ inr < 65536)
  ok : keepsIf (Call.Ok out.shared task dir) out.call

/-- The bits of the inodes: the first one stands for no inode. -/
structure InodeMap.Marks (inodes : InodeMap) (dir : Nat) : Prop where
  reserved : inodes.imap 0 = true
  directory : inodes.imap dir = true

/-- What the step of a call may rely on. -/
structure Ready (s : System) (task dir : Nat) (call : Call) : Prop where
  order : s.device.InOrder s.use
  directory : s.device.IsDirectory dir
  marks : s.inodes.Marks dir
  owned : ∀ inr, call.owns = some inr →
    0 < inr ∧ inr < 65536 ∧ inr ≠ dir ∧ s.inodes.imap inr = true
  ok : call.Ok s.toShared task dir

theorem Ready.notOwned (ready : Ready s task dir call) : call.owns ≠ some dir :=
  fun same => (ready.owned dir same).2.2.1 rfl

/-- A step that leaves the inodes, the directory and the other inodes. -/
theorem Moved.quiet {shared : Shared} {left : Option Call} (ready : Ready s task dir call)
    (step : s.toShared.Step (some task) shared)
    (still : ∀ inode, call.owns ≠ some inode → s.toShared.Still shared inode)
    (owns : ∀ after, left = some after → after.owns = none ∨ after.owns = call.owns)
    (ok : keepsIf (Call.Ok shared task dir) left) :
    Moved s task dir call (Call.leaves s (shared, left)) where
  step := step
  stays inode _ notOwned := (still inode notOwned).toStays
  change :=
    .quiet (still dir ready.notOwned).contents (still dir ready.notOwned).size rfl
  keeps _ set _ := set
  owns after inr isLeft owned := by
    rcases owns after isLeft with none | same
    · rw [none] at owned
      cases owned
    · rw [same] at owned
      exact ⟨(ready.owned inr owned).2.2.2, .inl owned⟩
  ok := ok

namespace Call

variable {shared : Shared}

/-! ## The call at its next place -/

/-- The same call at another place. -/
theorem Ok.withPhase {phase : Phase} (ok : call.Ok s.toShared task dir)
    (seen : ∀ entries first, ({ call with phase := phase } : Call).searches = some (entries, first) →
      Seen shared.device dir call.lookup entries first)
    (absent : ({ call with phase := phase } : Call).decided = true →
      Absent shared.device dir call.name)
    (place : ({ call with phase := phase } : Call).AtPlace shared task dir) :
    ({ call with phase := phase } : Call).Ok shared task dir :=
  ⟨ok.noNul, ok.fits, ok.looksFor, ok.numbered, seen, absent, place⟩

theorem lookup_noNul (ok : call.Ok s.toShared task dir) : 0 ∉ call.lookup := by
  rcases ok.looksFor with same | same
  · rw [same]
    exact ok.noNul
  · rw [same]
    decide

theorem lookup_fits (ok : call.Ok s.toShared task dir) : call.lookup.length ≤ nameLen := by
  rcases ok.looksFor with same | same
  · rw [same]
    exact ok.fits
  · rw [same]
    decide

/-- A search that has come to its end. -/
theorem absent_of_seen {d : Device} {entries : Nat} (directory : d.IsDirectory dir)
    (looksFor : call.lookup = call.name ∨ call.lookup = [dot])
    (seen : Seen d dir call.lookup entries entries) : Absent d dir call.name := by
  rcases looksFor with same | same
  · rw [same] at seen
    intro k live named
    obtain ⟨ahead, inside⟩ := seen k live named
    omega
  · -- there is always an entry `.`
    rw [same] at seen
    obtain ⟨ahead, inside⟩ := seen 0 directory.first.1 directory.first.2
    omega

theorem notFound_ok (ok : call.Ok s.toShared task dir) (absent : Absent shared.device dir call.name) :
    call.notFound.Ok shared task dir := by
  unfold notFound
  split
  · exact ok.withPhase (fun _ _ isSearch => nomatch isSearch) (fun _ => absent) trivial
  · exact ok.withPhase (fun _ _ isSearch => nomatch isSearch) (fun _ => absent) trivial
  · exact ok.withPhase (fun _ _ isSearch => nomatch isSearch) (fun _ => absent) trivial
  · exact ok.withPhase (fun _ _ isSearch => nomatch isSearch) (fun _ => absent) trivial
  · exact ok.withPhase (fun _ _ isSearch => nomatch isSearch) (fun _ => absent) trivial

theorem notFound_owns (search : call.owns = if call.kind = .symlink then some call.inr else none) :
    call.notFound.owns = none ∨ call.notFound.owns = call.owns := by
  obtain ⟨kind, name, lookup, inr, text, phase⟩ := call
  cases kind with
  | mkdir => exact .inl rfl
  | mknod => exact .inl rfl
  | symlink => exact .inr search.symm
  | link => exact .inl rfl
  | openCreat => exact .inl rfl

theorem fail_ok (ok : call.Ok s.toShared task dir) : keepsIf (Ok shared task dir) call.fail := by
  have undone : ({ call with phase := .undoing true } : Call).Ok shared task dir :=
    ok.withPhase (fun _ _ isSearch => nomatch isSearch) (fun decided => nomatch decided) trivial
  unfold fail
  split
  · trivial
  · exact undone
  · exact undone
  · exact undone
  · exact undone

theorem fail_owns (owned : call.kind ≠ .link → call.owns = some call.inr) (after : Call)
    (isLeft : call.fail = some after) : after.owns = none ∨ after.owns = call.owns := by
  unfold fail at isLeft
  split at isLeft
  · cases isLeft
  · rename_i isKind
    cases isLeft
    exact .inr (owned (by simp [isKind])).symm
  · rename_i isKind
    cases isLeft
    exact .inr (owned (by simp [isKind])).symm
  · rename_i isKind
    cases isLeft
    exact .inr (owned (by simp [isKind])).symm
  · rename_i isKind
    cases isLeft
    exact .inr (owned (by simp [isKind])).symm

/-! ## `find_entry` -/

/-- What a call owns while it searches. -/
theorem owns_of_searches {found : Nat × Nat} (isSearch : call.searches = some found) :
    call.owns = if call.kind = .symlink then some call.inr else none := by
  unfold searches at isSearch
  unfold owns
  split at isSearch
  · rename_i isPhase
    rw [isPhase]
  · rename_i isPhase
    rw [isPhase]
  · rename_i isPhase
    rw [isPhase]
  · rename_i isPhase
    rw [isPhase]
  · cases isSearch

/-- The search goes on: it leaves the directory and has seen more of it. -/
theorem searches_moved {entries first first' : Nat} {phase : Phase} (ready : Ready s task dir call)
    (step : s.toShared.Step (some task) shared)
    (still : ∀ inode, call.owns ≠ some inode → s.toShared.Still shared inode)
    (isSearch : call.searches = some (entries, first))
    (goesOn : ({ call with phase := phase } : Call).searches = some (entries, first'))
    (seen : Seen shared.device dir call.lookup entries first')
    (undecided : ({ call with phase := phase } : Call).decided = false)
    (place : ({ call with phase := phase } : Call).AtPlace shared task dir) :
    Moved s task dir call (leaves s (shared, some { call with phase := phase })) := by
  refine .quiet ready step still ?_ ?_
  · intro left isLeft
    cases isLeft
    exact .inr ((owns_of_searches goesOn).trans (owns_of_searches isSearch).symm)
  · refine ready.ok.withPhase (fun entries' found isSearch' => ?_) (fun decided => ?_) place
    · rw [goesOn] at isSearch'
      cases isSearch'
      exact seen
    · rw [undecided] at decided
      cases decided

theorem finds_moved {entries : Nat} {walk : Walk} {result : Shared × WalkOutcome}
    (ready : Ready s task dir call) (isPhase : call.phase = .finding entries walk)
    (walked : Walked s.toShared task dir (some entries) result)
    (passes : Passes s.toShared dir entries walk.ahead (result.2.ahead entries)) :
    Moved s task dir call (leaves s (call.finds entries result)) := by
  obtain ⟨shared, outcome⟩ := result
  have isSearch : call.searches = some (entries, walk.ahead) := by
    unfold searches
    rw [isPhase]
  have contents := (walked.still dir).contents
  have seen : Seen shared.device dir call.lookup entries (outcome.ahead entries) :=
    ((ready.ok.seen entries walk.ahead isSearch).passes passes).congr contents
  cases outcome with
  | goes after =>
      exact searches_moved ready walked.step (fun inode _ => walked.still inode) isSearch rfl seen rfl
        walked.ok
  | arrives zone n =>
      exact searches_moved ready walked.step (fun inode _ => walked.still inode) isSearch rfl seen rfl
        ⟨walked.ok, Nat.zero_le _⟩
  | ends =>
      refine .quiet ready walked.step (fun inode _ => walked.still inode) ?_ ?_
      · intro left isLeft
        cases isLeft
        exact notFound_owns (owns_of_searches isSearch)
      · have before : Seen s.device dir call.lookup entries entries :=
          (ready.ok.seen entries walk.ahead isSearch).passes passes
        have absent := absent_of_seen ready.directory ready.ok.looksFor before
        exact notFound_ok ready.ok (absent.congr contents)

theorem look_moved {entries zone n j : Nat} (ready : Ready s task dir call)
    (isPhase : call.phase = .looking entries zone n j) :
    Moved s task dir call (leaves s (s.toShared, some (call.look s entries zone n j))) := by
  have place := ready.ok.place
  have isSearch : call.searches = some (entries, entriesPerBlock * n + j) := by
    unfold searches
    rw [isPhase]
  have seen : Seen s.device dir call.lookup entries (entriesPerBlock * n + j) :=
    ready.ok.seen entries _ isSearch
  have step : s.toShared.Step (some task) s.toShared := .refl ready.order
  unfold AtPlace at place
  rw [isPhase] at place
  obtain ⟨at', inBlock⟩ := place
  unfold look
  split
  · rename_i past
    refine searches_moved ready step (fun _ _ => .refl) isSearch rfl ?_ rfl trivial
    intro k live named
    obtain ⟨ahead, inside⟩ := seen k live named
    omega
  · split
    · rename_i last
      have next : entriesPerBlock * n + j = entriesPerBlock * (n + 1) := by
        rw [Nat.mul_succ, last]
      rw [next] at seen
      exact searches_moved ready step (fun _ _ => .refl) isSearch rfl seen rfl trivial
    · rename_i notLast
      have inside : j < entriesPerBlock := Nat.lt_of_le_of_ne inBlock notLast
      obtain ⟨small, notNull, block⟩ := at'
      split
      · rename_i passed
        refine searches_moved ready step (fun _ _ => .refl) isSearch rfl ?_ rfl
          ⟨⟨small, notNull, block⟩, inside⟩
        refine seen.next fun live named => ?_
        rcases passed with free | ⟨short, longer⟩
        · exact live ((slotInode_eq block notNull small inside).trans free)
        · have ends := ((slotName_eq_iff (lookup_noNul ready.ok)).mp named).2.2 short
          rw [slotByte_eq block notNull small inside short] at ends
          exact longer ends
      · exact searches_moved ready step (fun _ _ => .refl) isSearch rfl seen rfl
          ⟨⟨small, notNull, block⟩, inside⟩

theorem match_moved {entries zone n j c : Nat} {out : Outcome} (ready : Ready s task dir call)
    (isPhase : call.phase = .matching entries zone n j c) {ok : Bool}
    (resumed : call.resume s task dir ok = some out) : Moved s task dir call out := by
  have place := ready.ok.place
  have isSearch : call.searches = some (entries, entriesPerBlock * n + j) := by
    unfold searches
    rw [isPhase]
  have seen : Seen s.device dir call.lookup entries (entriesPerBlock * n + j) :=
    ready.ok.seen entries _ isSearch
  have step : s.toShared.Step (some task) s.toShared := .refl ready.order
  unfold AtPlace at place
  rw [isPhase] at place
  obtain ⟨⟨small, notNull, block⟩, inside⟩ := place
  unfold resume at resumed
  rw [isPhase] at resumed
  dsimp only at resumed
  split at resumed
  · cases resumed
    refine .quiet ready step (fun inode _ => .refl) ?_ ?_
    · intro left isLeft
      cases isLeft
      exact .inr (owns_of_searches isSearch).symm
    · exact ready.ok.withPhase (fun _ _ isSearch => nomatch isSearch)
        (fun decided => nomatch decided) trivial
  · rename_i byte isByte
    split at resumed
    · cases resumed
      exact searches_moved ready step (fun _ _ => .refl) isSearch rfl seen rfl
        ⟨⟨small, notNull, block⟩, inside⟩
    · rename_i differs
      cases resumed
      refine searches_moved ready step (fun _ _ => .refl) isSearch rfl ?_ rfl
        ⟨⟨small, notNull, block⟩, inside⟩
      refine seen.next fun live named => ?_
      have before : c < call.lookup.length := (List.getElem?_eq_some_iff.mp isByte).1
      have short : c < nameLen := Nat.lt_of_lt_of_le before (lookup_fits ready.ok)
      have same := ((slotName_eq_iff (lookup_noNul ready.ok)).mp named).2.1 c before
      rw [slotByte_eq block notNull small inside short, List.getD, isByte] at same
      exact differs same

/-! ## The new inode -/

/-- The call with the number of its new inode. -/
theorem Ok.withInode {inr : Nat} {phase : Phase} (ok : call.Ok s.toShared task dir)
    (isPhase : call.phase = .makingInode) (positive : 0 < inr) (small : inr < 65536)
    (contents : shared.device.contents dir = s.device.contents dir)
    (noSearch : ({ call with inr := inr, phase := phase } : Call).searches = none)
    (place : ({ call with inr := inr, phase := phase } : Call).AtPlace shared task dir)
    (decides : ({ call with inr := inr, phase := phase } : Call).decided = true →
      call.kind ≠ .symlink) :
    ({ call with inr := inr, phase := phase } : Call).Ok shared task dir := by
  refine ⟨ok.noNul, ok.fits, ok.looksFor, fun _ => ⟨positive, small⟩, fun _ _ isSearch => ?_,
    fun decided => ?_, place⟩
  · rw [noSearch] at isSearch
    cases isSearch
  · refine (ok.absent ?_).congr contents
    unfold Call.decided
    rw [isPhase]
    exact decide_eq_true (decides decided)

theorem newInode_moved (ready : Ready s task dir call) (isPhase : call.phase = .makingInode) :
    Moved s task dir call (call.newInode s) := by
  have fails : Moved s task dir call (leaves s (s.toShared, none)) :=
    .quiet ready (.refl ready.order) (fun inode _ => .refl) (fun _ isLeft => by cases isLeft)
      trivial
  unfold newInode
  split
  · exact fails
  · rename_i inr search
    split
    · exact fails
    · rename_i bounded
      have clear : s.inodes.imap inr = false := Device.findFirstZero_spec search
      have positive : 0 < inr := by
        refine Nat.pos_of_ne_zero fun zero => ?_
        rw [zero, ready.marks.reserved] at clear
        cases clear
      have small : inr < 65536 :=
        Nat.lt_of_le_of_lt (Nat.le_of_not_gt bounded) s.inodes.ninodes_lt
      have other {inode : Nat} (set : s.inodes.imap inode = true) : inode ≠ inr := by
        intro same
        rw [same, clear] at set
        cases set
      have still {inode : Nat} (set : s.inodes.imap inode = true) :
          s.toShared.Still { s.toShared with
            device := s.device.clearInode inr (if call.kind = .mkdir then 32 else 0) } inode :=
        Shared.clearInode_still ready.order (other set)
      have stillHere := still ready.marks.directory
      refine ⟨Shared.clearInode_step ready.order, fun inode set _ => (still set).toStays,
        .quiet stillHere.contents stillHere.size rfl, fun inode set _ => ?_,
        fun left inr' isLeft owned => ?_, ?_⟩
      · exact (Function.update_of_ne (other set) _ _).trans set
      · have isNew : inr' = inr := by
          obtain ⟨kind, name, lookup, old, text, phase⟩ := call
          cases kind with
          | mkdir => cases isLeft; cases owned; rfl
          | symlink => cases isLeft; cases owned; rfl
          | mknod => cases isLeft; cases owned; rfl
          | openCreat => cases isLeft; cases owned; rfl
          | link => cases isLeft; cases owned
        rw [isNew]
        exact ⟨Function.update_self _ _ _, .inr ⟨clear, positive, small⟩⟩
      · have ok := ready.ok
        obtain ⟨kind, name, lookup, old, text, phase⟩ := call
        have contents := stillHere.contents
        cases kind with
        | mkdir =>
            refine ok.withInode isPhase positive small contents rfl trivial fun _ isSymlink => ?_
            cases isSymlink
        | symlink =>
            refine ok.withInode isPhase positive small contents rfl trivial fun decided => ?_
            cases decided
        | mknod =>
            refine ok.withInode isPhase positive small contents rfl trivial fun _ isSymlink => ?_
            cases isSymlink
        | openCreat =>
            refine ok.withInode isPhase positive small contents rfl trivial fun _ isSymlink => ?_
            cases isSymlink
        | link =>
            refine ok.withInode isPhase positive small contents rfl trivial fun _ isSymlink => ?_
            cases isSymlink

/-! ## The block of the new inode -/

/-- The same call at another place in front of `add_entry`. -/
theorem Ok.prepares {phase : Phase} (ok : call.Ok s.toShared task dir)
    (same : call.decided = decide (call.kind ≠ .symlink))
    (contents : shared.device.contents dir = s.device.contents dir)
    (noSearch : ({ call with phase := phase } : Call).searches = none)
    (decides : ({ call with phase := phase } : Call).decided = true → call.kind ≠ .symlink)
    (place : ({ call with phase := phase } : Call).AtPlace shared task dir) :
    ({ call with phase := phase } : Call).Ok shared task dir := by
  refine ok.withPhase (fun _ _ isSearch => ?_) (fun decided => ?_) place
  · rw [noSearch] at isSearch
    cases isSearch
  · exact (ok.absent (same.trans (decide_eq_true (decides decided)))).congr contents

theorem prepared_ok (ok : call.Ok s.toShared task dir)
    (same : call.decided = decide (call.kind ≠ .symlink))
    (contents : shared.device.contents dir = s.device.contents dir) :
    call.prepared.Ok shared task dir := by
  unfold prepared
  split
  · exact ok.prepares same contents rfl nofun trivial
  · rename_i isKind
    exact ok.prepares same contents rfl (fun _ => by simp [isKind]) trivial
  · rename_i isKind
    exact ok.prepares same contents rfl (fun _ => by simp [isKind]) trivial
  · rename_i isKind
    exact ok.prepares same contents rfl (fun _ => by simp [isKind]) trivial
  · rename_i isKind
    exact ok.prepares same contents rfl (fun _ => by simp [isKind]) trivial

theorem prepared_owns (owned : call.owns = some call.inr) :
    call.prepared.owns = none ∨ call.prepared.owns = call.owns := by
  rw [owned]
  obtain ⟨kind, name, lookup, inr, text, phase⟩ := call
  cases kind with
  | mkdir => exact .inr rfl
  | mknod => exact .inr rfl
  | symlink => exact .inr rfl
  | link => exact .inl rfl
  | openCreat => exact .inr rfl

theorem block_moved {ok : Bool} {out : Outcome} (ready : Ready s task dir call)
    (isBlock : call.phase = .makingBlock ∨ ∃ zone, call.phase = .clearing zone ∨
      call.phase = .getting zone ∨ call.phase = .reading zone ∨
      ∃ writes, call.phase = .filling zone writes)
    (resumed : call.resume s task dir ok = some out) : Moved s task dir call out := by
  have place := ready.ok.place
  have refl : s.toShared.Step (some task) s.toShared := .refl ready.order
  have owned : call.owns = some call.inr := by
    unfold owns
    rcases isBlock with isPhase | ⟨zone, isPhase | isPhase | isPhase | ⟨writes, isPhase⟩⟩ <;>
      rw [isPhase]
  have same : call.decided = decide (call.kind ≠ .symlink) := by
    unfold decided
    rcases isBlock with isPhase | ⟨zone, isPhase | isPhase | isPhase | ⟨writes, isPhase⟩⟩ <;>
      rw [isPhase]
  have other {inode : Nat} (notOwned : call.owns ≠ some inode) : inode ≠ call.inr :=
    fun equal => notOwned (equal ▸ owned)
  have goesOn {phase : Phase} (owns : ({ call with phase := phase } : Call).owns = some call.inr)
      (after : Call) (isLeft : some ({ call with phase := phase } : Call) = some after) :
      after.owns = none ∨ after.owns = call.owns := by
    cases isLeft
    exact .inr (owns.trans owned.symm)
  unfold AtPlace at place
  unfold resume at resumed
  rcases isBlock with isPhase | ⟨zone, isPhase | isPhase | isPhase | ⟨writes, isPhase⟩⟩
  · rw [isPhase] at resumed
    have still (inode : Nat) := Shared.takeZone_still task inode ready.order
    rcases Shared.takeZone_step task ready.order with ⟨s', taken, step, -, -⟩ |
        ⟨s', zone, taken, notZero, step, use, -, -⟩
    · dsimp only at resumed
      rw [taken] at resumed still
      cases resumed
      exact .quiet ready step (fun inode _ => still inode) (fail_owns fun _ => owned)
        (fail_ok ready.ok)
    · dsimp only at resumed
      rw [taken] at resumed still
      cases zone with
      | zero => exact absurd rfl notZero
      | succ zone =>
          cases resumed
          refine .quiet ready step (fun inode _ => still inode) (goesOn rfl) ?_
          refine ready.ok.prepares same (still dir).contents rfl of_decide_eq_true ?_
          change s'.use (zone + 1) = some (.allocating task)
          rw [use]
          exact Function.update_self _ _ _
  · rw [isPhase] at resumed place
    dsimp only at resumed
    split at resumed
    · cases resumed
      have isRoot : (Cell.zone call.inr 0).owner s.use = some (call.inr, 0) := owner_zone (by decide)
      have still (inode : Nat) (notOwned : call.owns ≠ some inode) :
          s.toShared.Still (s.store call.inr 0 (.zone call.inr 0) zone) inode :=
        Shared.store_still_of_ne ready.order isRoot place (other notOwned)
      refine .quiet ready (Shared.store_step ready.order isRoot place) still (goesOn rfl) ?_
      refine ready.ok.prepares same (still dir ready.notOwned).contents rfl of_decide_eq_true ?_
      exact Function.update_self _ _ _
    · cases resumed
  · rw [isPhase] at resumed place
    cases resumed
    refine .quiet ready refl.take (fun inode _ => Shared.still_of_device rfl rfl) (goesOn rfl) ?_
    exact ready.ok.prepares same rfl rfl of_decide_eq_true place
  · rw [isPhase] at resumed place
    dsimp only at resumed
    split at resumed
    · cases resumed
      refine .quiet ready refl (fun inode _ => .refl) (goesOn rfl) ?_
      exact ready.ok.prepares same rfl rfl of_decide_eq_true place
    · cases resumed
      refine .quiet ready refl.drop (fun inode _ => Shared.still_of_device rfl rfl) (goesOn rfl) ?_
      exact ready.ok.prepares same rfl rfl nofun trivial
  · rw [isPhase] at resumed place
    cases writes with
    | nil =>
        cases resumed
        have still (inode : Nat) (notOwned : call.owns ≠ some inode) (size : Nat) :
            s.toShared.Still { s.drop task zone with
              device := s.device.setSize call.inr size } inode := by
          refine ⟨⟨fun _ _ used => used, fun c _ _ _ => by cases c <;> rfl⟩, ?_, ?_⟩
          · change (s.device.setSize call.inr size).contents inode = s.device.contents inode
            rw [ready.order.contents_setSize]
          · exact Function.update_of_ne (other notOwned) _ _
        refine .quiet ready ?_ (fun inode notOwned => still inode notOwned _) ?_
          (prepared_ok ready.ok same (still dir ready.notOwned _).contents)
        · exact (Shared.setSize_step ready.order).drop
        · intro after isLeft
          cases isLeft
          exact prepared_owns owned
    | cons write writes =>
        obtain ⟨offset, byte⟩ := write
        cases resumed
        have still (inode : Nat) (notOwned : call.owns ≠ some inode) :
            s.toShared.Still { s.toShared with device := s.device.setByte zone offset byte } inode :=
          Shared.setByte_still_of_ne ready.order place (other notOwned)
        refine .quiet ready ?_ still (goesOn rfl) ?_
        · refine Shared.data_step ready.order fun inode height used => ?_
          rw [place] at used
          cases used
        · exact ready.ok.prepares same (still dir ready.notOwned).contents rfl of_decide_eq_true place

/-! ## An inode without a name -/

theorem undo_moved {truncates : Bool} {out : Outcome} (ready : Ready s task dir call)
    (isPhase : call.phase = .undoing truncates) (undone : call.undo s task truncates = some out) :
    Moved s task dir call out := by
  have owned : call.owns = some call.inr := by
    unfold owns
    rw [isPhase]
  unfold undo at undone
  dsimp only at undone
  split at undone
  · cases undone
    refine ⟨.refl ready.order, fun inode _ _ => Shared.Still.refl.toStays, .quiet rfl rfl rfl,
      fun inode set notOwned => ?_, nofun, trivial⟩
    have different : inode ≠ call.inr := fun equal => notOwned (equal ▸ owned)
    exact (Function.update_of_ne different _ _).trans set
  · rename_i holds
    split at undone
    · cases undone
      have refl : s.toShared.Step (some task) s.toShared := .refl ready.order
      refine .quiet ready refl.take (fun inode _ => Shared.still_of_device rfl rfl) ?_ ?_
      · intro after isLeft
        cases isLeft
        exact .inr owned.symm
      · refine ready.ok.withPhase (fun _ _ isSearch => nomatch isSearch)
          (fun decided => nomatch decided) ?_
        have notNull : s.device.iZone call.inr 0 ≠ 0 := fun null => holds (.inl null)
        have pinned : (Cell.zone call.inr 0).Pinned s.toShared task call.inr 0 :=
          ⟨rfl, by decide, rfl⟩
        obtain ⟨used, only⟩ := Trunc.leads ready.order pinned rfl notNull
        exact ⟨⟨List.mem_cons_self, used⟩, only⟩
    · cases undone

theorem free_moved {zone : Nat} {ok : Bool} {out : Outcome} (ready : Ready s task dir call)
    (isPhase : call.phase = .freeing zone) (resumed : call.resume s task dir ok = some out) :
    Moved s task dir call out := by
  have place := ready.ok.place
  have owned : call.owns = some call.inr := by
    unfold owns
    rw [isPhase]
  unfold AtPlace at place
  unfold resume at resumed
  rw [isPhase] at place resumed
  obtain ⟨pins, only⟩ := place
  have undone {shared : Shared} :
      ({ call with phase := .undoing true } : Call).Ok shared task dir :=
    ready.ok.withPhase (fun _ _ isSearch => nomatch isSearch) (fun decided => nomatch decided) trivial
  have goesOn (after : Call) (isLeft : some ({ call with phase := .undoing true } : Call) = some after) :
      after.owns = none ∨ after.owns = call.owns := by
    cases isLeft
    exact .inr owned.symm
  dsimp only at resumed
  split at resumed
  · cases resumed
    have refl : s.toShared.Step (some task) s.toShared := .refl ready.order
    exact .quiet ready refl.drop (fun inode _ => Shared.still_of_device rfl rfl) goesOn undone
  · rename_i single
    cases resumed
    refine .quiet ready (Shared.free_step ready.order pins only (Nat.le_of_not_gt single))
      (fun inode notOwned => ?_) goesOn undone
    have different : inode ≠ call.inr := fun equal => notOwned (equal ▸ owned)
    exact Shared.free_still_of_ne ready.order (owner_zone (by decide)) pins.2 ⟨0, rfl⟩ different

/-! ## `add_entry` -/

theorem adds_moved {walk : Walk} {result : Shared × WalkOutcome} (ready : Ready s task dir call)
    (isPhase : call.phase = .adding walk) (walked : Walked s.toShared task dir none result) :
    Moved s task dir call (leaves s (call.adds result)) := by
  obtain ⟨shared, outcome⟩ := result
  have owns : call.owns = if call.kind = .link then none else some call.inr := by
    unfold Call.owns
    rw [isPhase]
  have absent : Absent shared.device dir call.name := by
    refine (ready.ok.absent ?_).congr (walked.still dir).contents
    unfold decided
    rw [isPhase]
  have goesOn {phase : Phase} (same : ({ call with phase := phase } : Call).owns = call.owns)
      (after : Call) (isLeft : some ({ call with phase := phase } : Call) = some after) :
      after.owns = none ∨ after.owns = call.owns := by
    cases isLeft
    exact .inr same
  cases outcome with
  | goes after =>
      refine .quiet ready walked.step (fun inode _ => walked.still inode) (goesOn owns.symm) ?_
      exact ready.ok.withPhase (fun _ _ isSearch => nomatch isSearch) (fun _ => absent) walked.ok
  | arrives zone n =>
      refine .quiet ready walked.step (fun inode _ => walked.still inode) (goesOn owns.symm) ?_
      exact ready.ok.withPhase (fun _ _ isSearch => nomatch isSearch) (fun _ => absent)
        ⟨walked.ok, Nat.zero_le _⟩
  | ends =>
      refine .quiet ready walked.step (fun inode _ => walked.still inode) (fail_owns ?_)
        (fail_ok ready.ok)
      intro notLink
      rw [owns, if_neg notLink]

/-- Bytes of a data block are no pointers. -/
theorem ptr_writeBytes {d : Device} {use : Nat → Option Use} {c : Cell} {zone inode offset : Nat}
    {bytes : List UInt8} (used : use zone = some (.block inode 0)) (owned : (c.owner use).isSome) :
    (d.writeBytes zone offset bytes).ptr c = d.ptr c := by
  induction bytes generalizing d offset with
  | nil => rfl
  | cons byte bytes ih =>
      refine ih.trans ?_
      cases c with
      | zone => rfl
      | entry block j =>
          obtain ⟨owner, owned⟩ := Option.isSome_iff_exists.mp owned
          refine Device.word_setByte_of_ne fun same => ?_
          rw [← same, (of_owner_entry owned).1] at used
          cases used

/-- A free slot behind the end of the directory is taken into it. -/
theorem extend_spec {s : Shared} {zone n j : Nat} (order : s.device.InOrder s.use)
    (at' : AtBlock s dir zone n) (inside : j < entriesPerBlock)
    (free : s.device.slotInode dir (entriesPerBlock * n + j) = 0) (size : Nat) :
    ((s.device.setDeInode zone j 0).setSize dir size).InOrder s.use ∧
      (∀ c, (c.owner s.use).isSome →
        ((s.device.setDeInode zone j 0).setSize dir size).ptr c = s.device.ptr c) ∧
      ((s.device.setDeInode zone j 0).setSize dir size).contents dir = s.device.contents dir := by
  have used := at'.used order
  obtain ⟨small, notNull, block⟩ := at'
  have within : 16 * j + [UInt8.ofNat 0, UInt8.ofNat (0 / 256)].length ≤ blockSize := by
    simp only [blockSize, entriesPerBlock, List.length_cons, List.length_nil] at inside ⊢
    omega
  have points : s.device.zoneAt dir n ≠ 0 := block ▸ notNull
  have spec := writeBytes_spec order small points within
  rw [block] at spec
  refine ⟨spec.1.setSize, fun c owned => ?_, ?_⟩
  · have same : ((s.device.setDeInode zone j 0).setSize dir size).ptr c =
        (s.device.setDeInode zone j 0).ptr c := by cases c <;> rfl
    exact same.trans (ptr_writeBytes used owned)
  · have resized : ((s.device.setDeInode zone j 0).setSize dir size).contents =
        (s.device.setDeInode zone j 0).contents := spec.1.contents_setSize
    -- the bytes that are stored were 0 before
    have zeros : s.device.contents dir (16 * (entriesPerBlock * n + j)) = 0 ∧
        s.device.contents dir (16 * (entriesPerBlock * n + j) + 1) = 0 := by
      unfold Device.slotInode at free
      refine ⟨UInt8.toNat_inj.mp ?_, UInt8.toNat_inj.mp ?_⟩
      · change _ = 0
        omega
      · change _ = 0
        omega
    rw [resized, contents_setDeInode 0 order block notNull small inside]
    funext pos
    unfold Lib.overwrite
    split
    · rename_i above
      match away : pos - 16 * (entriesPerBlock * n + j) with
      | 0 =>
          have here : pos = 16 * (entriesPerBlock * n + j) := by omega
          rw [here]
          exact zeros.1.symm
      | 1 =>
          have here : pos = 16 * (entriesPerBlock * n + j) + 1 := by omega
          rw [here]
          exact zeros.2.symm
      | away + 2 => rfl
    · rfl

theorem choose_moved {zone n j : Nat} (ready : Ready s task dir call)
    (isPhase : call.phase = .choosing zone n j) :
    Moved s task dir call (leaves s (call.choose s dir zone n j)) := by
  have place := ready.ok.place
  have order := ready.order
  have owns : call.owns = if call.kind = .link then none else some call.inr := by
    unfold Call.owns
    rw [isPhase]
  have absent : Absent s.device dir call.name := by
    refine ready.ok.absent ?_
    unfold decided
    rw [isPhase]
  have goesOn {phase : Phase} (same : ({ call with phase := phase } : Call).owns = call.owns)
      (after : Call) (isLeft : some ({ call with phase := phase } : Call) = some after) :
      after.owns = none ∨ after.owns = call.owns := by
    cases isLeft
    exact .inr same
  unfold AtPlace at place
  rw [isPhase] at place
  obtain ⟨at', inBlock⟩ := place
  unfold choose
  split
  · refine .quiet ready (.refl order) (fun inode _ => .refl) (goesOn owns.symm) ?_
    exact ready.ok.withPhase (fun _ _ isSearch => nomatch isSearch) (fun _ => absent) trivial
  · rename_i notLast
    have inside : j < entriesPerBlock := Nat.lt_of_le_of_ne inBlock notLast
    have used := at'.used order
    obtain ⟨small, notNull, block⟩ := at'
    -- the call at the next entry, or at the entry that it has chosen
    have chosen {device : Device} (at' : AtBlock { s.toShared with device := device } dir zone n)
        (absent : Absent device dir call.name)
        (within : entriesPerBlock * n + j < device.iSize dir / 16) :
        ({ call with phase := (if device.deInode zone j = 0 then Phase.copying zone n j 0
            else Phase.choosing zone n (j + 1)) } : Call).Ok
          { s.toShared with device := device } task dir := by
      split
      · rename_i free
        refine ready.ok.withPhase (fun _ _ isSearch => nomatch isSearch) (fun _ => absent)
          ⟨at', inside, Nat.zero_le _, ?_, within, nofun⟩
        exact (slotInode_eq at'.2.2 at'.2.1 at'.1 inside).trans free
      · exact ready.ok.withPhase (fun _ _ isSearch => nomatch isSearch) (fun _ => absent)
          ⟨at', inside⟩
    have owns' (device : Device) : ({ call with phase := (if device.deInode zone j = 0
        then Phase.copying zone n j 0 else Phase.choosing zone n (j + 1)) } : Call).owns =
          call.owns := by
      rw [owns]
      split
      · rfl
      · rfl
    by_cases behind : 16 * (entriesPerBlock * n + j) ≥ s.device.iSize dir
    · have free : s.device.slotInode dir (entriesPerBlock * n + j) = 0 := by
        by_contra live
        have := ready.directory.inside _ live
        omega
      obtain ⟨order', pointers, contents⟩ := extend_spec order ⟨small, notNull, block⟩ inside free
        (16 * (entriesPerBlock * n + j + 1))
      have step : s.toShared.Step (some task) { s.toShared with
          device := (s.device.setDeInode zone j 0).setSize dir (16 * (entriesPerBlock * n + j + 1)) } :=
        Shared.step_of_same order' (fun _ _ _ there => there) rfl pointers
      have stays (inode : Nat) : s.toShared.Stays { s.toShared with
          device := (s.device.setDeInode zone j 0).setSize dir
            (16 * (entriesPerBlock * n + j + 1)) } inode :=
        ⟨fun _ _ used => used, fun c height owned _ => pointers c (by simp [owned])⟩
      have size : ((s.device.setDeInode zone j 0).setSize dir
          (16 * (entriesPerBlock * n + j + 1))).iSize dir = 16 * (entriesPerBlock * n + j + 1) :=
        Function.update_self _ _ _
      dsimp only
      rw [if_pos behind]
      refine ⟨step, fun inode _ _ => stays inode, .longer _ behind contents size rfl,
        fun _ set _ => set, fun left inr isLeft owned => ?_, ?_⟩
      · cases isLeft
        rw [owns'] at owned
        exact ⟨(ready.owned inr owned).2.2.2, .inl owned⟩
      · refine chosen (AtBlock.stays ⟨small, notNull, block⟩ order (stays dir))
          (absent.congr contents) ?_
        rw [size]
        omega
    · dsimp only
      rw [if_neg behind]
      refine .quiet ready (.refl order) (fun inode _ => .refl) (goesOn (owns' _)) ?_
      refine chosen ⟨small, notNull, block⟩ absent ?_
      have := ready.directory.whole
      omega

theorem copy_moved {zone n j c : Nat} (ready : Ready s task dir call)
    (isPhase : call.phase = .copying zone n j c) :
    Moved s task dir call (call.copy s zone n j c) := by
  have place := ready.ok.place
  have order := ready.order
  have owns : call.owns = if call.kind = .link then none else some call.inr := by
    unfold Call.owns
    rw [isPhase]
  have copies : call.copies = some (entriesPerBlock * n + j) := by
    unfold Call.copies
    rw [isPhase]
  have absent : Absent s.device dir call.name := by
    refine ready.ok.absent ?_
    unfold decided
    rw [isPhase]
  unfold AtPlace at place
  rw [isPhase] at place
  obtain ⟨at', inside, short, free, within, bytes⟩ := place
  have used := at'.used order
  have leaf (inode height : Nat) : s.use zone ≠ some (.block inode (height + 1)) := by simp [used]
  obtain ⟨small, notNull, block⟩ := at'
  unfold copy
  split
  · rename_i more
    have stored := contents_setDeName (call.name.getD c 0) order block notNull small inside more
    have stays (inode : Nat) : s.toShared.Stays { s.toShared with
        device := s.device.setDeName zone j c (call.name.getD c 0) } inode := by
      refine ⟨fun _ _ used => used, fun cell height owned _ => ?_⟩
      have kept : (s.device.writeBytes zone (16 * j + 2 + c) [call.name.getD c 0]).ptr cell =
          s.device.ptr cell := ptr_writeBytes used (by simp [owned])
      exact kept
    refine ⟨Shared.data_step order leaf, fun inode _ _ => stays inode,
      .names _ c _ copies more stored rfl rfl, fun _ set _ => set, fun left inr isLeft owned => ?_, ?_⟩
    · cases isLeft
      have owned : call.owns = some inr := owns.trans owned
      exact ⟨(ready.owned inr owned).2.2.2, .inl owned⟩
    · refine ready.ok.withPhase (fun _ _ isSearch => nomatch isSearch) (fun _ => ?_)
        ⟨AtBlock.stays ⟨small, notNull, block⟩ order (stays dir), inside, more, ?_, within,
          fun b before => ?_⟩
      · intro k live
        have live : s.device.slotInode dir k ≠ 0 := by
          rw [← slotInode_of_setName more stored]
          exact live
        have elsewhere : k ≠ entriesPerBlock * n + j := fun same => live (same ▸ free)
        have same : ∀ b < nameLen, (s.device.setDeName zone j c (call.name.getD c 0)).slotByte dir k b =
            s.device.slotByte dir k b := by
          intro b inName
          rw [slotByte_of_setName more inName stored, if_neg fun both => elsewhere both.1]
        exact fun named => absent k live ((slotName_congr same).symm.trans named)
      · exact (slotInode_of_setName more stored).trans free
      · change (s.device.setDeName zone j c (call.name.getD c 0)).slotByte dir _ b = _
        rw [slotByte_of_setName more (Nat.lt_of_lt_of_le before more) stored]
        split
        · rename_i here
          rw [here.2]
        · rename_i elsewhere
          refine bytes b (Nat.lt_of_le_of_ne (Nat.le_of_lt_succ before) fun same => ?_)
          exact elsewhere ⟨rfl, same⟩
  · rename_i done
    have all : c = nameLen := Nat.le_antisymm short (Nat.le_of_not_lt done)
    have stored := contents_setDeInode call.inr order block notNull small inside
    have number : 0 < call.inr ∧ call.inr < 65536 := by
      by_cases isLink : call.kind = .link
      · exact ready.ok.numbered isLink
      · have owned : call.owns = some call.inr := by
          rw [owns, if_neg isLink]
        exact ⟨(ready.owned _ owned).1, (ready.owned _ owned).2.1⟩
    have named : s.device.slotName dir (entriesPerBlock * n + j) = call.name :=
      slotName_eq_of_padded ready.ok.noNul ready.ok.fits fun b inName => bytes b (all ▸ inName)
    have pointers (cell : Cell) (owned : (cell.owner s.use).isSome) :
        (s.device.setDeInode zone j call.inr).ptr cell = s.device.ptr cell :=
      ptr_writeBytes used owned
    have within' : 16 * j + [UInt8.ofNat call.inr, UInt8.ofNat (call.inr / 256)].length ≤ blockSize := by
      simp only [blockSize, entriesPerBlock, List.length_cons, List.length_nil] at inside ⊢
      omega
    have points : s.device.zoneAt dir n ≠ 0 := block ▸ notNull
    have spec := writeBytes_spec order small points within'
    rw [block] at spec
    refine ⟨Shared.step_of_same spec.1 (fun _ _ _ there => there) rfl pointers,
      fun inode _ _ => ⟨fun _ _ used => used, fun cell height owned _ => pointers cell (by simp [owned])⟩,
      .fills _ copies ⟨zone, n, j, all ▸ isPhase, rfl⟩ named number.1 number.2 stored (congrFun spec.2.1 dir) rfl, fun _ set _ => set,
      fun left inr isLeft owned => ?_, ?_⟩
    · cases isLeft
      cases owned
    · exact ready.ok.withPhase (fun _ _ isSearch => nomatch isSearch) (fun decided => nomatch decided)
        trivial

/-! ## Every step -/

/-- `find_entry` stores no block. -/
theorem storesAtNull_of_limit {walk : Walk} {entries : Nat}
    (isOk : walk.Ok s.toShared task dir (some entries)) : walk.storesAtNull s.toShared = true := by
  cases walk with
  | mapping b wait n =>
      cases wait with
      | alloc zone =>
          obtain ⟨keeps, creates, onWay⟩ := isOk
          have notCreates : b.create = false := creates
          rw [keeps.2.1] at notCreates
          cases notCreates
      | release zone => rfl
      | getting zone => rfl
      | reading zone => rfl
  | first => rfl
  | getting zone n => rfl
  | reading zone n => rfl
  | leaving zone n => rfl
  | skipped n => rfl

/-- What the blocks of the directory must do for a call. -/
def walksWell (call : Call) (s : Shared) (ok : Bool) : Bool :=
  match call.phase with
  | .finding _ walk => walk.reads ok
  | .adding walk => walk.storesAtNull s
  | _ => true

theorem resume_moved {ok : Bool} {out : Outcome} (ready : Ready s task dir call)
    (well : call.walksWell s.toShared ok = true) (resumed : call.resume s task dir ok = some out) :
    Moved s task dir call out := by
  have refl : s.toShared.Step (some task) s.toShared := .refl ready.order
  have place := ready.ok.place
  cases isPhase : call.phase with
  | searching =>
      have search : call.owns = if call.kind = .symlink then some call.inr else none := by
        unfold owns
        rw [isPhase]
      unfold resume at resumed
      rw [isPhase] at resumed
      cases resumed
      refine .quiet ready refl (fun inode _ => .refl) ?_ ?_
      · intro after isLeft
        cases isLeft
        exact .inr search.symm
      · refine ready.ok.withPhase (fun _ _ isSearch => ?_) (fun decided => nomatch decided) trivial
        cases isSearch
        exact fun k live _ => ⟨Nat.zero_le k, ready.directory.inside k live⟩
  | finding entries walk =>
      unfold resume at resumed
      unfold AtPlace at place
      unfold walksWell at well
      rw [isPhase] at resumed place well
      obtain ⟨result, went, built⟩ := Option.map_eq_some_iff.mp resumed
      have rooted : s.device.iZone dir 0 ≠ 0 := by
        intro null
        have hole : s.device.zoneAt dir 0 = 0 := null
        exact ready.directory.first.1 (slotInode_of_hole (j := 0) hole (by decide))
      subst built
      exact finds_moved ready isPhase
        (Walk.resume_walked ready.order place (storesAtNull_of_limit place) went)
        (Walk.resume_passes ready.order rooted place well went)
  | looking entries zone n j =>
      unfold resume at resumed
      rw [isPhase] at resumed
      cases resumed
      exact look_moved ready isPhase
  | matching entries zone n j c => exact match_moved ready isPhase resumed
  | missing entries zone =>
      have isSearch : call.searches = some (entries, entries) := by
        unfold searches
        rw [isPhase]
      have seen : Seen s.device dir call.lookup entries entries :=
        ready.ok.seen entries entries isSearch
      have absent := absent_of_seen ready.directory ready.ok.looksFor seen
      unfold resume at resumed
      rw [isPhase] at resumed
      cases resumed
      refine .quiet ready refl.drop (fun inode _ => Shared.still_of_device rfl rfl) ?_
        (notFound_ok ready.ok absent)
      intro after isLeft
      cases isLeft
      exact notFound_owns (owns_of_searches isSearch)
  | found zone =>
      have search : call.owns = if call.kind = .symlink then some call.inr else none := by
        unfold owns
        rw [isPhase]
      unfold resume at resumed
      rw [isPhase] at resumed
      cases resumed
      refine .quiet ready refl.drop (fun inode _ => Shared.still_of_device rfl rfl) ?_ ?_
      · intro after isLeft
        split at isLeft
        · rename_i isSymlink
          rw [if_pos isSymlink] at search
          exact fail_owns (fun _ => search) after isLeft
        · cases isLeft
      · split
        · exact fail_ok ready.ok
        · trivial
  | makingInode =>
      unfold resume at resumed
      rw [isPhase] at resumed
      cases resumed
      split
      · exact newInode_moved ready isPhase
      · exact .quiet ready refl (fun inode _ => .refl) nofun trivial
  | makingBlock => exact block_moved ready (.inl isPhase) resumed
  | clearing zone => exact block_moved ready (.inr ⟨zone, .inl isPhase⟩) resumed
  | getting zone => exact block_moved ready (.inr ⟨zone, .inr (.inl isPhase)⟩) resumed
  | reading zone => exact block_moved ready (.inr ⟨zone, .inr (.inr (.inl isPhase))⟩) resumed
  | filling zone writes =>
      exact block_moved ready (.inr ⟨zone, .inr (.inr (.inr ⟨writes, isPhase⟩))⟩) resumed
  | adding walk =>
      unfold resume at resumed
      unfold AtPlace at place
      unfold walksWell at well
      rw [isPhase] at resumed place well
      obtain ⟨result, went, built⟩ := Option.map_eq_some_iff.mp resumed
      subst built
      exact adds_moved ready isPhase (Walk.resume_walked ready.order place well went)
  | choosing zone n j =>
      unfold resume at resumed
      rw [isPhase] at resumed
      cases resumed
      exact choose_moved ready isPhase
  | copying zone n j c =>
      unfold resume at resumed
      rw [isPhase] at resumed
      cases resumed
      exact copy_moved ready isPhase
  | releasing zone =>
      unfold resume at resumed
      rw [isPhase] at resumed
      cases resumed
      exact .quiet ready refl.drop (fun inode _ => Shared.still_of_device rfl rfl) nofun trivial
  | undoing truncates =>
      unfold resume at resumed
      rw [isPhase] at resumed
      exact undo_moved ready isPhase resumed
  | freeing zone => exact free_moved ready isPhase resumed

theorem notFound_copies : call.notFound.copies = none := by
  obtain ⟨kind, name, lookup, inr, text, phase⟩ := call
  cases kind <;> rfl

theorem prepared_copies : call.prepared.copies = none := by
  obtain ⟨kind, name, lookup, inr, text, phase⟩ := call
  cases kind <;> rfl

theorem fail_copies {left : Call} (isLeft : call.fail = some left) : left.copies = none := by
  obtain ⟨kind, name, lookup, inr, text, phase⟩ := call
  cases kind <;> cases isLeft <;> rfl

/-- A call copies to the slot that it has chosen. -/
theorem resume_copies {ok : Bool} {out : Outcome} {left : Call} {k : Nat}
    (resumed : call.resume s task dir ok = some out) (isLeft : out.call = some left)
    (copies : left.copies = some k) :
    call.copies = some k ∨
      ∃ zone n j, call.phase = .choosing zone n j ∧ entriesPerBlock * n + j = k := by
  have notNone (copiesNothing : left.copies = none) : False := by
    rw [copiesNothing] at copies
    cases copies
  have here {phase : Phase} (same : ({ call with phase := phase } : Call) = left)
      (copiesNothing : ({ call with phase := phase } : Call).copies = none) : left.copies = none :=
    same ▸ copiesNothing
  have chosen {zone n j : Nat} {device : Device}
      (copies : ({ call with phase := (if device.deInode zone j = 0 then Phase.copying zone n j 0
        else Phase.choosing zone n (j + 1)) } : Call).copies = some k) :
      entriesPerBlock * n + j = k := by
    split at copies
    · cases copies
      rfl
    · cases copies
  unfold resume at resumed
  cases isPhase : call.phase with
  | searching =>
      rw [isPhase] at resumed
      cases resumed
      exact (notNone (here (Option.some.inj isLeft) rfl)).elim
  | finding entries walk =>
      rw [isPhase] at resumed
      obtain ⟨⟨shared, outcome⟩, went, built⟩ := Option.map_eq_some_iff.mp resumed
      subst built
      cases outcome with
      | goes after => exact (notNone (here (Option.some.inj isLeft) rfl)).elim
      | arrives zone n => exact (notNone (here (Option.some.inj isLeft) rfl)).elim
      | ends =>
          cases isLeft
          exact (notNone notFound_copies).elim
  | looking entries zone n j =>
      rw [isPhase] at resumed
      cases resumed
      refine (notNone ?_).elim
      cases isLeft
      unfold look
      split
      · rfl
      · split
        · rfl
        · split
          · rfl
          · rfl
  | matching entries zone n j c =>
      rw [isPhase] at resumed
      dsimp only at resumed
      split at resumed
      · cases resumed
        exact (notNone (here (Option.some.inj isLeft) rfl)).elim
      · split at resumed
        · cases resumed
          exact (notNone (here (Option.some.inj isLeft) rfl)).elim
        · cases resumed
          exact (notNone (here (Option.some.inj isLeft) rfl)).elim
  | missing entries zone =>
      rw [isPhase] at resumed
      cases resumed
      cases isLeft
      exact (notNone notFound_copies).elim
  | found zone =>
      rw [isPhase] at resumed
      cases resumed
      change (if call.kind = .symlink then call.fail else none) = some left at isLeft
      split at isLeft
      · exact (notNone (fail_copies isLeft)).elim
      · cases isLeft
  | makingInode =>
      rw [isPhase] at resumed
      cases resumed
      split at isLeft
      · unfold newInode at isLeft
        split at isLeft
        · cases isLeft
        · split at isLeft
          · cases isLeft
          · refine (notNone ?_).elim
            obtain ⟨kind, name, lookup, inr, text, phase⟩ := call
            cases kind <;> cases isLeft <;> rfl
      · cases isLeft
  | makingBlock =>
      rw [isPhase] at resumed
      dsimp only at resumed
      split at resumed
      · cases resumed
        exact (notNone (fail_copies isLeft)).elim
      · cases resumed
        exact (notNone (here (Option.some.inj isLeft) rfl)).elim
  | clearing zone =>
      rw [isPhase] at resumed
      dsimp only at resumed
      split at resumed
      · cases resumed
        exact (notNone (here (Option.some.inj isLeft) rfl)).elim
      · cases resumed
  | getting zone =>
      rw [isPhase] at resumed
      cases resumed
      exact (notNone (here (Option.some.inj isLeft) rfl)).elim
  | reading zone =>
      rw [isPhase] at resumed
      dsimp only at resumed
      split at resumed
      · cases resumed
        exact (notNone (here (Option.some.inj isLeft) rfl)).elim
      · cases resumed
        exact (notNone (here (Option.some.inj isLeft) rfl)).elim
  | filling zone writes =>
      rw [isPhase] at resumed
      cases writes with
      | nil =>
          cases resumed
          cases isLeft
          exact (notNone prepared_copies).elim
      | cons write writes =>
          cases resumed
          exact (notNone (here (Option.some.inj isLeft) rfl)).elim
  | adding walk =>
      rw [isPhase] at resumed
      obtain ⟨⟨shared, outcome⟩, went, built⟩ := Option.map_eq_some_iff.mp resumed
      subst built
      cases outcome with
      | goes after => exact (notNone (here (Option.some.inj isLeft) rfl)).elim
      | arrives zone n => exact (notNone (here (Option.some.inj isLeft) rfl)).elim
      | ends => exact (notNone (fail_copies isLeft)).elim
  | choosing zone n j =>
      rw [isPhase] at resumed
      cases resumed
      change (call.choose s dir zone n j).2 = some left at isLeft
      unfold choose at isLeft
      split at isLeft
      · exact (notNone (here (Option.some.inj isLeft) rfl)).elim
      · cases isLeft
        exact .inr ⟨zone, n, j, rfl, chosen copies⟩
  | copying zone n j c =>
      left
      rw [isPhase] at resumed
      cases resumed
      have same : call.copies = some (entriesPerBlock * n + j) := by
        unfold Call.copies
        rw [isPhase]
      unfold copy at isLeft
      split at isLeft
      · cases isLeft
        exact same.trans copies
      · cases isLeft
        cases copies
  | releasing zone =>
      rw [isPhase] at resumed
      cases resumed
      cases isLeft
  | undoing truncates =>
      rw [isPhase] at resumed
      dsimp only at resumed
      unfold undo at resumed
      dsimp only at resumed
      split at resumed
      · cases resumed
        cases isLeft
      · split at resumed
        · cases resumed
          exact (notNone (here (Option.some.inj isLeft) rfl)).elim
        · cases resumed
  | freeing zone =>
      rw [isPhase] at resumed
      dsimp only at resumed
      split at resumed
      · cases resumed
        exact (notNone (here (Option.some.inj isLeft) rfl)).elim
      · cases resumed
        exact (notNone (here (Option.some.inj isLeft) rfl)).elim

end Call

end Linux012.Zones.Creates
