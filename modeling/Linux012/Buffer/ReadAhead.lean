import Linux012.Buffer.Breada
import Linux012.Buffer.CallCounts

/-!
# What breada queues

A step of `breada` queues what it is to queue if and only if it is harmless; the counts of the
buffers are kept in every run.
-/

namespace Linux012.BlkDrv.Slots

/-! ## Turns of ll_rw_block -/

section Turns

variable {s : BlkState Unit} {slot : Slot} {major : Major} {bh : Bh} {rwAhead : Bool}

/-- What `make_request` fills in for a buffer. -/
def BlkState.readOf (s : BlkState Unit) (bh : Bh) : Request :=
  .ofBuffer .read (s.buffer bh).bDev (s.buffer bh).bBlocknr bh (s.buffer bh).bData

@[simp] theorem setCall_call {call : Call} : (s.setCall () call).call () = call := by
  simp [BlkState.setCall]

theorem addRequest_request : (s.addRequest major slot).request = s.request := by
  have clean : (s.cleanBuffer slot).request = s.request := by
    rw [BlkState.cleanBuffer]
    split
    · rfl
    · rfl
  simp only [BlkState.addRequest]
  split
  · exact clean
  · split
    · exact clean
    · exact clean

theorem addRequest_call : (s.addRequest major slot).call = s.call := by
  have clean : (s.cleanBuffer slot).call = s.call := by
    rw [BlkState.cleanBuffer]
    split
    · rfl
    · rfl
  simp only [BlkState.addRequest]
  split
  · exact clean
  · split
    · exact clean
    · exact clean

/-- A slot is free, and the read is queued. -/
theorem findTurn_some (free : s.findEmpty nrRequest = some slot) :
    (s.findTurn () major .read bh rwAhead).request =
        Function.update s.request slot (s.readOf bh) ∧
      (s.findTurn () major .read bh rwAhead).call () = .outside := by
  rw [BlkState.findTurn, show BlkState.slotBound .read = nrRequest from rfl, free]
  dsimp only
  rw [addRequest_request, addRequest_call]
  exact ⟨rfl, setCall_call⟩

/-- No slot is free. -/
theorem findTurn_none (full : s.findEmpty nrRequest = none) :
    (s.findTurn () major .read bh rwAhead).request = s.request ∧
      (s.findTurn () major .read bh rwAhead).call () =
        if rwAhead then .outside else s.call () := by
  rw [BlkState.findTurn, show BlkState.slotBound .read = nrRequest from rfl, full]
  cases rwAhead with
  | true => exact ⟨rfl, setCall_call⟩
  | false => exact ⟨rfl, rfl⟩

theorem lockTurn_locked (locked : (s.buffer bh).bLock = true) :
    s.lockTurn () major .read bh rwAhead = s.setCall () (.locking major .read bh rwAhead) := by
  rw [BlkState.lockTurn, if_pos locked]

theorem lockTurn_uptodate (unlocked : (s.buffer bh).bLock = false)
    (uptodate : (s.buffer bh).bUptodate = true) :
    (s.lockTurn () major .read bh rwAhead).request = s.request ∧
      (s.lockTurn () major .read bh rwAhead).call () = .outside := by
  rw [BlkState.lockTurn, unlocked, if_neg Bool.false_ne_true]
  dsimp only
  rw [if_pos]
  · exact ⟨rfl, setCall_call⟩
  · refine .inr ⟨rfl, ?_⟩
    rw [BlkState.setCall, BlkState.setBuffer]
    dsimp only
    rwa [Function.update_self]

/-- The buffer is locked to be read. -/
def BlkState.lockedBy (s : BlkState Unit) (major : Major) (bh : Bh) (rwAhead : Bool) :
    BlkState Unit :=
  (s.setBuffer bh { s.buffer bh with bLock := true }).setCall ()
    (.finding major .read bh rwAhead)

theorem readOf_lockedBy : (s.lockedBy major bh rwAhead).readOf bh = s.readOf bh := by
  rw [BlkState.readOf, BlkState.lockedBy, BlkState.setCall, BlkState.setBuffer]
  dsimp only
  rw [Function.update_self, BlkState.readOf]

theorem lockTurn_owed (unlocked : (s.buffer bh).bLock = false)
    (owed : (s.buffer bh).bUptodate = false) :
    s.lockTurn () major .read bh rwAhead =
      (s.lockedBy major bh rwAhead).findTurn () major .read bh rwAhead := by
  rw [BlkState.lockTurn, unlocked, if_neg Bool.false_ne_true]
  dsimp only
  rw [if_neg]
  · rfl
  · rw [BlkState.setCall, BlkState.setBuffer]
    dsimp only
    rw [Function.update_self, owed]
    rintro (⟨isWrite, -⟩ | ⟨-, uptodate⟩)
    · cases isWrite
    · cases uptodate

/-- `READA` is queued at once or forgotten. -/
theorem llRwBlock_reada (outside : s.call () = .outside) :
    (s.llRwBlock () .reada bh).call () = .outside ∧
      (s.llRwBlock () .reada bh).request =
        match s.findEmpty nrRequest with
        | none => s.request
        | some slot =>
            if (findMajor s.requestFn (s.buffer bh).bDev).isSome ∧ (s.buffer bh).bLock = false ∧
                (s.buffer bh).bUptodate = false then
              Function.update s.request slot (s.readOf bh)
            else s.request := by
  rw [BlkState.llRwBlock]
  cases driver : findMajor s.requestFn (s.buffer bh).bDev with
  | none =>
      refine ⟨outside, ?_⟩
      cases s.findEmpty nrRequest with
      | none => rfl
      | some slot => exact (if_neg fun both => absurd both.1 nofun).symm
  | some major =>
      dsimp only
      rw [show s.makeRequest () major .reada bh =
        if (s.buffer bh).bLock = true then s else s.lockTurn () major .read bh true from rfl]
      cases locked : (s.buffer bh).bLock with
      | true =>
          refine ⟨outside, ?_⟩
          cases s.findEmpty nrRequest with
          | none => rfl
          | some slot => exact (if_neg fun both => absurd both.2.1 nofun).symm
      | false =>
          rw [if_neg Bool.false_ne_true]
          cases uptodate : (s.buffer bh).bUptodate with
          | true =>
              obtain ⟨request, call⟩ := lockTurn_uptodate locked uptodate
              refine ⟨call, request.trans ?_⟩
              cases s.findEmpty nrRequest with
              | none => rfl
              | some slot => exact (if_neg fun both => absurd both.2.2 nofun).symm
          | false =>
              rw [lockTurn_owed locked uptodate]
              cases free : s.findEmpty nrRequest with
              | none =>
                  obtain ⟨request, call⟩ := @findTurn_none (s.lockedBy major bh true) major bh
                    true free
                  exact ⟨call, request⟩
              | some slot =>
                  obtain ⟨request, call⟩ := @findTurn_some (s.lockedBy major bh true) slot major
                    bh true free
                  rw [readOf_lockedBy] at request
                  exact ⟨call, request.trans (if_pos ⟨rfl, rfl, rfl⟩).symm⟩

end Turns

end Linux012.BlkDrv.Slots

namespace Linux012.Buffer.Breada

open BlkDrv.Slots (BlkState Call nrRequest findMajor findTurn_some findTurn_none lockTurn_locked
  lockTurn_uptodate lockTurn_owed readOf_lockedBy llRwBlock_reada)

variable {task : Nat} {dev : UInt16} {s next : State} {bh tmp : Bh} {args : List Int}
variable {action : Action} {x : BlkState Unit}

/-! ## Where the call is in ll_rw_block -/

/-- In `ll_rw_block(READ,bh)`, asleep. -/
def ReadsIn (call : Call) (bh : Bh) : Prop :=
  ∃ major, call = .locking major .read bh false ∨ call = .finding major .read bh false

/-- The call is in `ll_rw_block` only where it says so. -/
def State.Calls (s : State) : Prop :=
  match s.phase with
  | .reading bh _ => ReadsIn (s.blk.call ()) bh
  | _ => s.blk.call () = .outside

theorem ReadsIn.ne_outside {call : Call} (reads : ReadsIn call bh) : call ≠ .outside := by
  obtain ⟨major, rfl | rfl⟩ := reads
  · nofun
  · nofun

theorem calls_afterRead (turned : x.call () = .outside ∨ ReadsIn (x.call ()) bh) :
    ((s.put x).afterRead bh args).Calls := by
  rw [State.Calls, State.afterRead]
  change match (if x.call () = .outside then Phase.listing bh args else .reading bh args) with
    | .reading bh _ => ReadsIn (x.call ()) bh
    | _ => x.call () = .outside
  by_cases outside : x.call () = .outside
  · rw [if_pos outside]
    exact outside
  · rw [if_neg outside]
    exact turned.resolve_left outside

/-- What a turn of `ll_rw_block(READ,bh)` leaves. -/
structure Turned (s : State) (bh : Bh) (x : BlkState Unit) : Prop where
  calls : x.call () = .outside ∨ ReadsIn (x.call ()) bh
  asleep : x.call () ≠ .outside → x.request = s.blk.request
  owed : x.call () = .outside → s.Owes bh → ∃ slot, s.blk.findEmpty nrRequest = some slot ∧
    x.request = Function.update s.blk.request slot (s.readOf bh)
  done : x.call () = .outside → ¬s.Owes bh → x.request = s.blk.request

theorem turned_find {major : BlkDrv.Slots.Major} {y : BlkState Unit} (owes : s.Owes bh)
    (finding : y.call () = .finding major .read bh false) (request : y.request = s.blk.request)
    (readOf : y.readOf bh = s.readOf bh) :
    Turned s bh (y.findTurn () major .read bh false) := by
  have sameFree : y.findEmpty nrRequest = s.blk.findEmpty nrRequest := by
    rw [BlkState.findEmpty, BlkState.findEmpty, request]
  cases free : y.findEmpty nrRequest with
  | none =>
      obtain ⟨same, call⟩ := @findTurn_none y major bh false free
      rw [if_neg Bool.false_ne_true, finding] at call
      have asleep : (y.findTurn () major .read bh false).call () ≠ .outside := by
        rw [call]
        nofun
      exact ⟨.inr ⟨major, .inr call⟩, fun _ => same.trans request,
        fun outside => absurd outside asleep, fun outside => absurd outside asleep⟩
  | some slot =>
      obtain ⟨queued, call⟩ := @findTurn_some y slot major bh false free
      rw [request, readOf] at queued
      rw [sameFree] at free
      exact ⟨.inl call, fun asleep => absurd call asleep, fun _ _ => ⟨slot, free, queued⟩,
        fun _ notOwes => absurd owes notOwes⟩

theorem turned_lock {major : BlkDrv.Slots.Major}
    (notFinding : ∀ major rw bh' rwAhead, s.blk.call () ≠ .finding major rw bh' rwAhead) :
    Turned s bh (s.view.lockTurn () major .read bh false) := by
  cases locked : s.cache.pool.cache.bLock bh with
  | true =>
      have turn := @lockTurn_locked s.view major bh false locked
      have call : (s.view.lockTurn () major .read bh false).call () =
          .locking major .read bh false := by
        rw [turn]
        exact BlkDrv.Slots.setCall_call
      have asleep : (s.view.lockTurn () major .read bh false).call () ≠ .outside := by
        rw [call]
        nofun
      exact ⟨.inr ⟨major, .inl call⟩, fun _ => by rw [turn]; rfl,
        fun outside => absurd outside asleep, fun outside => absurd outside asleep⟩
  | false =>
      cases uptodate : s.cache.pool.cache.bUptodate bh with
      | true =>
          obtain ⟨same, call⟩ := @lockTurn_uptodate s.view major bh false locked uptodate
          refine ⟨.inl call, fun asleep => absurd call asleep, fun _ owes => ?_, fun _ _ => same⟩
          rcases owes with missing | ⟨major, rw', bh', rwAhead, finding⟩
          · rw [uptodate] at missing
            cases missing
          · exact absurd finding (notFinding major rw' bh' rwAhead)
      | false =>
          rw [@lockTurn_owed s.view major bh false locked uptodate]
          exact turned_find (.inl uptodate) BlkDrv.Slots.setCall_call rfl readOf_lockedBy

/-! ## One step -/

/-- The slot that is taken was free before. -/
theorem not_queues_same {other : State} (same : next.blk.request = other.blk.request) :
    ¬other.Queues next bh := by
  rintro ⟨slot, free, queued⟩
  have empty : (other.blk.request slot).dev < 0 := of_decide_eq_true (Bool.and_eq_true_iff.mp
    (@List.find?_some _ (fun slot : BlkDrv.Slots.Slot => decide (slot < nrRequest) &&
      decide ((other.blk.request slot).dev < 0)) _ _ free)).2
  rw [← same, queued, Function.update_self] at empty
  exact absurd empty (Int.not_lt.mpr (Int.natCast_nonneg _))

theorem queuesRight_afterRead (phase : s.phase = .found bh args ∨ s.phase = .reading bh args)
    (turned : Turned s bh x) : s.QueuesRight ((s.put x).afterRead bh args) := by
  have isRight : match (if x.call () = .outside then Phase.listing bh args else
        .reading bh args) with
      | .reading .. => x.request = s.blk.request
      | _ => (s.Owes bh → ∃ slot, s.blk.findEmpty nrRequest = some slot ∧
          x.request = Function.update s.blk.request slot (s.readOf bh)) ∧
        (¬s.Owes bh → x.request = s.blk.request) := by
    by_cases outside : x.call () = .outside
    · rw [if_pos outside]
      exact ⟨turned.owed outside, turned.done outside⟩
    · rw [if_neg outside]
      exact turned.asleep outside
  rw [State.QueuesRight]
  rcases phase with phase | phase
  · rw [phase]
    exact isRight
  · rw [phase]
    exact isRight

/-- What is done with a further block leaves `ll_rw_block`. -/
theorem readAhead_blk (outside : s.blk.call () = .outside) :
    (s.readAhead task bh tmp).blk.call () = .outside ∧
      (s.readAhead task bh tmp).blk.request =
        match s.blk.findEmpty nrRequest with
        | none => s.blk.request
        | some slot =>
            if s.cache.pool.cache.bUptodate tmp = false ∧ s.HasDriver bh ∧
                s.cache.pool.cache.bLock bh = false ∧ s.cache.pool.cache.bUptodate bh = false then
              Function.update s.blk.request slot (s.readOf bh)
            else s.blk.request := by
  rw [State.readAhead]
  cases uptodate : s.cache.pool.cache.bUptodate tmp with
  | true =>
      refine ⟨outside, ?_⟩
      cases s.blk.findEmpty nrRequest with
      | none => rfl
      | some slot => exact (if_neg fun all => absurd all.1 nofun).symm
  | false =>
      obtain ⟨call, request⟩ := @llRwBlock_reada s.view bh outside
      refine ⟨call, request.trans ?_⟩
      change (match s.blk.findEmpty nrRequest with
        | none => s.blk.request
        | some slot =>
            if s.HasDriver bh ∧ s.cache.pool.cache.bLock bh = false ∧
                s.cache.pool.cache.bUptodate bh = false then
              Function.update s.blk.request slot (s.readOf bh)
            else s.blk.request) = _
      cases s.blk.findEmpty nrRequest with
      | none => rfl
      | some slot => exact if_congr (and_iff_right rfl).symm rfl rfl

/-- A further block: `breada` queues what it is to queue if and only if the step is harmless. -/
theorem queuesRight_foundNext (phase : s.phase = .foundNext bh tmp args)
    (outside : s.blk.call () = .outside)
    (blk : next.blk.request = (s.readAhead task bh tmp).blk.request) :
    s.QueuesRight next ↔ s.Harmless := by
  rw [(readAhead_blk outside).2] at blk
  rw [State.QueuesRight, State.Harmless, phase]
  dsimp only
  cases free : s.blk.findEmpty nrRequest with
  | none =>
      have notDue (bh : Bh) : ¬s.Due bh := fun due => by
        have isSome := due.2.2
        rw [free] at isSome
        cases isSome
      rw [free] at blk
      refine iff_of_true ⟨fun due => absurd due (notDue tmp), fun _ => blk⟩ ?_
      split
      · exact fun due => absurd due (notDue bh)
      · exact ⟨notDue tmp, fun _ due => absurd due (notDue bh)⟩
  | some slot =>
      rw [free] at blk
      dsimp only at blk
      have isDue (bh : Bh) : s.Due bh ↔ s.cache.pool.cache.bUptodate bh = false ∧
          s.cache.pool.cache.bLock bh = false := by
        rw [State.Due, free]
        exact and_congr_right fun _ => and_iff_left rfl
      by_cases fires : s.cache.pool.cache.bUptodate tmp = false ∧ s.HasDriver bh ∧
          s.cache.pool.cache.bLock bh = false ∧ s.cache.pool.cache.bUptodate bh = false
      · obtain ⟨missing, driver, unlocked, owed⟩ := fires
        rw [if_pos ⟨missing, driver, unlocked, owed⟩] at blk
        have queues : s.Queues next bh := ⟨slot, free, blk⟩
        have something : ¬s.QueuesNothing next := fun same => not_queues_same same queues
        by_cases again : tmp = bh
        · subst again
          rw [if_pos rfl]
          exact iff_of_true ⟨fun _ => queues,
            fun notDue => absurd ((isDue tmp).mpr ⟨missing, unlocked⟩) notDue⟩ fun _ => driver
        · rw [if_neg again]
          refine iff_of_false ?_ fun harmless =>
            harmless.2 missing ((isDue bh).mpr ⟨owed, unlocked⟩) driver
          rintro ⟨right, nothing⟩
          by_cases due : s.Due tmp
          · obtain ⟨slot', free', blk'⟩ := right due
            rw [free, Option.some.injEq] at free'
            subst free'
            rw [blk] at blk'
            have sameRequest := congrFun blk' slot
            rw [Function.update_self, Function.update_self] at sameRequest
            exact again (Option.some.inj (congrArg BlkDrv.Request.bh sameRequest)).symm
          · exact something (nothing due)
      · rw [if_neg fires] at blk
        have isRight : ((s.Due tmp → s.Queues next tmp) ∧
            (¬s.Due tmp → s.QueuesNothing next)) ↔ ¬s.Due tmp :=
          ⟨fun right due => not_queues_same blk (right.1 due),
            fun notDue => ⟨fun due => absurd due notDue, fun _ => blk⟩⟩
        rw [isRight]
        by_cases again : tmp = bh
        · subst again
          rw [if_pos rfl]
          refine imp_congr_right fun due => iff_of_false id fun driver => fires ?_
          have both := (isDue tmp).mp due
          exact ⟨both.1, driver, both.2, both.1⟩
        · rw [if_neg again]
          refine (and_iff_left fun missing due driver => fires ?_).symm
          have both := (isDue bh).mp due
          exact ⟨missing, driver, both.2, both.1⟩

theorem resume_eq_some {outcome : Outcome} (resumed : s.resume task = some (next, outcome)) :
    ∃ wait result, s.cache.sleeping task = some wait ∧
      s.cache.pool.resume task wait = some result ∧ outcome = result.2 ∧
      next = { s with cache := s.cache.continue task result } := by
  simp only [State.resume, Option.bind_eq_bind, Option.bind_eq_some_iff, Option.pure_def,
    Option.some.injEq, Prod.mk.injEq] at resumed
  obtain ⟨wait, sleeping, result, taken, rfl, rfl⟩ := resumed
  exact ⟨wait, result, sleeping, taken, rfl, rfl⟩

/-- The steps of the call that have nothing to do with requests. -/
def Phase.Quiet : Phase → Prop
  | .found .. | .reading .. | .foundNext .. => False
  | _ => True

/-- A quiet step leaves the requests. -/
theorem advance_quiet (quiet : s.phase.Quiet) (taken : s.advance task dev = some next) :
    next.blk = s.blk ∧ ∀ bh args, next.phase ≠ .reading bh args := by
  rw [State.advance] at taken
  cases phase : s.phase with
  | looking args =>
      simp only [phase, Option.bind_eq_bind, Option.bind_eq_some_iff] at taken
      obtain ⟨⟨mid, outcome⟩, resumed, taken⟩ := taken
      obtain ⟨wait, result, -, -, -, rfl⟩ := resume_eq_some resumed
      rcases outcome with wait | (_ | bh)
      · cases taken
        exact ⟨rfl, fun bh args same => by rw [phase] at same; cases same⟩
      · cases taken
      · cases taken
        exact ⟨rfl, nofun⟩
  | found bh args => rw [phase] at quiet; exact quiet.elim
  | reading bh args => rw [phase] at quiet; exact quiet.elim
  | foundNext bh tmp args => rw [phase] at quiet; exact quiet.elim
  | listing bh args =>
      simp only [phase] at taken
      split at taken
      · cases taken
        exact ⟨rfl, nofun⟩
      · cases taken
        exact ⟨rfl, nofun⟩
  | lookingNext bh args =>
      simp only [phase, Option.bind_eq_bind, Option.bind_eq_some_iff] at taken
      obtain ⟨⟨mid, outcome⟩, resumed, taken⟩ := taken
      obtain ⟨wait, result, -, -, -, rfl⟩ := resume_eq_some resumed
      rcases outcome with wait | (_ | tmp)
      · cases taken
        exact ⟨rfl, fun bh args same => by rw [phase] at same; cases same⟩
      · cases taken
        exact ⟨rfl, nofun⟩
      · cases taken
        exact ⟨rfl, nofun⟩
  | waiting bh =>
      simp only [phase] at taken
      split at taken
      · cases taken
      · split at taken
        · cases taken
          exact ⟨rfl, nofun⟩
        · cases taken
          exact ⟨rfl, nofun⟩
  | releasing =>
      simp only [phase, Option.bind_eq_bind, Option.bind_eq_some_iff] at taken
      obtain ⟨⟨mid, outcome⟩, resumed, taken⟩ := taken
      obtain ⟨wait, result, -, -, -, rfl⟩ := resume_eq_some resumed
      cases outcome with
      | sleeps wait =>
          cases taken
          exact ⟨rfl, fun bh args same => by rw [phase] at same; cases same⟩
      | returns found =>
          cases taken
          exact ⟨rfl, nofun⟩
  | returned result =>
      simp only [phase] at taken
      cases taken

/-- A turn of `ll_rw_block(READ,bh)` for a buffer that is not up to date. -/
theorem turned_llRwBlock (outside : s.blk.call () = .outside) (driver : s.HasDriver bh) :
    Turned s bh (s.view.llRwBlock () .read bh) := by
  obtain ⟨major, driver⟩ := Option.isSome_iff_exists.mp driver
  have turn : s.view.llRwBlock () .read bh = s.view.lockTurn () major .read bh false := by
    rw [BlkState.llRwBlock, show findMajor s.view.requestFn (s.view.buffer bh).bDev = some major
      from driver]
    rfl
  rw [turn]
  refine turned_lock fun major rw' bh' rwAhead finding => ?_
  rw [outside] at finding
  cases finding

theorem llRwBlock_noDriver (noDriver : ¬s.HasDriver bh) :
    s.view.llRwBlock () .read bh = s.view := by
  rw [State.HasDriver, Option.not_isSome_iff_eq_none] at noDriver
  rw [BlkState.llRwBlock, show findMajor s.view.requestFn (s.view.buffer bh).bDev = none
    from noDriver]

/-- What a turn of the call in `ll_rw_block(READ,bh)` is. -/
theorem advance_reading (phase : s.phase = .reading bh args) (calls : s.Calls) :
    ∃ x, s.advance task dev = some ((s.put x).afterRead bh args) ∧ Turned s bh x := by
  rw [State.Calls, phase] at calls
  obtain ⟨major, locking | finding⟩ := calls
  · refine ⟨s.view.lockTurn () major .read bh false, ?_, turned_lock fun _ _ _ _ finding => ?_⟩
    · simp only [State.advance, phase, locking]
    · rw [locking] at finding
      cases finding
  · refine ⟨s.view.findTurn () major .read bh false, ?_,
      turned_find (.inr ⟨_, _, _, _, finding⟩) finding rfl rfl⟩
    simp only [State.advance, phase, finding]

theorem calls_of_outside (notReading : ∀ bh args, s.phase ≠ .reading bh args)
    (outside : s.blk.call () = .outside) : s.Calls := by
  rw [State.Calls]
  split
  next bh args phase => exact absurd phase (notReading bh args)
  next => exact outside

theorem outside_of_calls (notReading : ∀ bh args, s.phase ≠ .reading bh args) (calls : s.Calls) :
    s.blk.call () = .outside := by
  rw [State.Calls] at calls
  split at calls
  next bh args phase => exact absurd phase (notReading bh args)
  next => exact calls

theorem calls_advance (calls : s.Calls) (taken : s.advance task dev = some next) :
    next.Calls := by
  by_cases quiet : s.phase.Quiet
  · obtain ⟨blk, notReading⟩ := advance_quiet quiet taken
    refine calls_of_outside notReading ?_
    rw [blk]
    refine outside_of_calls (fun bh args phase => ?_) calls
    rw [phase] at quiet
    exact quiet
  cases phase : s.phase with
  | found bh args =>
      have outside := outside_of_calls (by rw [phase]; nofun) calls
      simp only [State.advance, phase] at taken
      split at taken
      · cases taken
        exact calls_of_outside nofun outside
      · cases taken
        by_cases driver : s.HasDriver bh
        · exact calls_afterRead (turned_llRwBlock outside driver).calls
        · rw [llRwBlock_noDriver driver]
          exact calls_afterRead (.inl outside)
  | reading bh args =>
      obtain ⟨x, advanced, turned⟩ := @advance_reading task dev s bh args phase calls
      rw [advanced] at taken
      cases taken
      exact calls_afterRead turned.calls
  | foundNext bh tmp args =>
      have outside := outside_of_calls (by rw [phase]; nofun) calls
      simp only [State.advance, phase] at taken
      cases taken
      exact calls_of_outside nofun (@readAhead_blk task s bh tmp outside).1
  | looking | listing | lookingNext | waiting | releasing | returned =>
      rw [phase] at quiet
      exact absurd trivial quiet

theorem calls_step (calls : s.Calls) (taken : step task dev s action = some next) :
    next.Calls := by
  cases action with
  | go =>
      obtain ⟨mid, advanced, rfl⟩ := Option.map_eq_some_iff.mp taken
      have after : mid.Calls := calls_advance calls advanced
      exact after
  | cache action =>
      simp only [step] at taken
      split at taken
      · obtain ⟨cache, -, rfl⟩ := Option.map_eq_some_iff.mp taken
        exact calls
      · cases taken
  | forget other bh =>
      simp only [step] at taken
      split at taken
      · cases taken
        exact calls
      · cases taken
  | requests request after currentRequest =>
      simp only [step] at taken
      split at taken
      · cases taken
        exact calls
      · cases taken

/-- A step of the call queues what it is to queue if and only if it is harmless. -/
theorem rightStep_iff (calls : s.Calls) : RightStep task dev s action ↔ HarmlessStep s action := by
  cases action with
  | cache | forget | requests => exact Iff.rfl
  | go =>
    have isRight : RightStep task dev s .go ↔
        ∀ next, s.advance task dev = some next → s.QueuesRight next := by
      constructor
      · intro right next advanced
        exact right (s.charge next) (Option.map_eq_some_iff.mpr ⟨next, advanced, rfl⟩)
      · intro right next taken
        obtain ⟨mid, advanced, rfl⟩ := Option.map_eq_some_iff.mp taken
        exact right mid advanced
    rw [isRight, HarmlessStep]
    by_cases quiet : s.phase.Quiet
    · have harmless : s.Harmless := by
        rw [State.Harmless]
        split
        next phase => rw [phase] at quiet; exact quiet.elim
        next phase => rw [phase] at quiet; exact quiet.elim
        next => trivial
      refine iff_of_true (fun next advanced => ?_) harmless
      have nothing : s.QueuesNothing next :=
        congrArg (fun blk : BlkState Unit => blk.request) (advance_quiet quiet advanced).1
      rw [State.QueuesRight]
      split
      next phase => rw [phase] at quiet; exact quiet.elim
      next phase => rw [phase] at quiet; exact quiet.elim
      next phase => rw [phase] at quiet; exact quiet.elim
      next => exact nothing
    cases phase : s.phase with
    | found bh args =>
        have outside := outside_of_calls (by rw [phase]; nofun) calls
        have isHarmless : s.Harmless ↔
            (s.cache.pool.cache.bUptodate bh = true ∨ s.HasDriver bh) := by
          rw [State.Harmless, phase]
        rw [isHarmless]
        cases uptodate : s.cache.pool.cache.bUptodate bh with
        | true =>
            refine iff_of_true (fun next advanced => ?_) (.inl rfl)
            simp only [State.advance, phase, uptodate, if_true, Option.some.injEq] at advanced
            subst advanced
            have notOwes : ¬s.Owes bh := by
              rintro (missing | ⟨major, rw', bh', rwAhead, finding⟩)
              · rw [uptodate] at missing
                cases missing
              · rw [outside] at finding
                cases finding
            rw [State.QueuesRight, phase]
            exact ⟨fun owes => absurd owes notOwes, fun _ => rfl⟩
        | false =>
            have advanced : s.advance task dev =
                some ((s.put (s.view.llRwBlock () .read bh)).afterRead bh args) := by
              simp only [State.advance, phase, uptodate, Bool.false_eq_true, if_false]
            rw [or_iff_right Bool.false_ne_true]
            constructor
            · intro right
              by_contra noDriver
              have queues := right _ advanced
              rw [llRwBlock_noDriver noDriver, State.QueuesRight, phase] at queues
              have listing : ((s.put s.view).afterRead bh args).phase = .listing bh args :=
                if_pos outside
              rw [listing] at queues
              refine not_queues_same ?_ (queues.1 (.inl uptodate))
              rfl
            · intro driver next advanced'
              rw [advanced, Option.some.injEq] at advanced'
              rw [← advanced']
              exact queuesRight_afterRead (.inl phase) (turned_llRwBlock outside driver)
    | reading bh args =>
        obtain ⟨x, advanced, turned⟩ := @advance_reading task dev s bh args phase calls
        have harmless : s.Harmless := by
          rw [State.Harmless, phase]
          trivial
        refine iff_of_true (fun next advanced' => ?_) harmless
        rw [advanced, Option.some.injEq] at advanced'
        rw [← advanced']
        exact queuesRight_afterRead (.inr phase) turned
    | foundNext bh tmp args =>
        have outside := outside_of_calls (by rw [phase]; nofun) calls
        have advanced : s.advance task dev =
            some { s.readAhead task bh tmp with phase := .listing bh args } := by
          simp only [State.advance, phase]
        rw [advanced]
        have right := @queuesRight_foundNext task s
          { s.readAhead task bh tmp with phase := .listing bh args } bh tmp args phase outside rfl
        rw [← right]
        exact ⟨fun all => all _ rfl, fun queues next same => Option.some.inj same ▸ queues⟩
    | looking | listing | lookingNext | waiting | releasing | returned =>
        rw [phase] at quiet
        exact absurd trivial quiet

/-! ## The counts -/

/-- The buffers that the call holds. -/
def Phase.Holds (sleeping : Option Wait) (held : List Bh) : Phase → Prop
  | .looking _ => ∃ wait, sleeping = some wait ∧ wait.InGetblk ∧ held = wait.held
  | .found bh _ | .reading bh _ | .listing bh _ | .waiting bh => held = [bh]
  | .lookingNext bh _ => ∃ wait, sleeping = some wait ∧ wait.InGetblk ∧ held = bh :: wait.held
  | .foundNext bh tmp _ => held = [bh, tmp]
  | .releasing => ∃ bh, sleeping = some (.releasing bh) ∧ held = [bh]
  | .returned result => held = result.toList

/-- The call has added to the counts what it holds. -/
def State.Accounts (s : State) (task : Nat) : Prop :=
  ∃ held, s.phase.Holds (s.cache.sleeping task) held ∧ ∀ bh, s.change bh = tally held bh

/-- A step of the call: the counts change as what it holds. -/
structure HeldStep (task : Nat) (s : State) (held : List Bh) (next : State) (held' : List Bh) :
    Prop where
  holds : next.phase.Holds (next.cache.sleeping task) held'
  counts : ∀ bh, next.cache.pool.cache.bCount bh + tally held bh =
    s.cache.pool.cache.bCount bh + tally held' bh
  change : next.change = s.change

theorem HeldStep.accounts {held held' : List Bh} (stepped : HeldStep task s held next held')
    (counted : ∀ bh, s.change bh = tally held bh) : (s.charge next).Accounts task := by
  refine ⟨held', stepped.holds, fun bh => ?_⟩
  have counts := stepped.counts bh
  have before := counted bh
  change s.change bh + (next.cache.pool.cache.bCount bh - s.cache.pool.cache.bCount bh) = _
  rw [before]
  grind

/-- Another turn of `getblk`. -/
structure Resumed (task : Nat) (s : State) (held : List Bh) (mid : State) (outcome : Outcome) :
    Prop where
  phase : mid.phase = s.phase
  change : mid.change = s.change
  sleeping : mid.cache.sleeping task = outcome.wait
  counts : GetblkStep s.cache.pool held (mid.cache.pool, outcome)

theorem resumed_getblk {wait : Wait} {outcome : Outcome}
    (sleeping : s.cache.sleeping task = some wait) (inGetblk : wait.InGetblk)
    (resumed : s.resume task = some (next, outcome)) :
    Resumed task s wait.held next outcome := by
  obtain ⟨wait', result, sleeping', taken, rfl, rfl⟩ := resume_eq_some resumed
  rw [sleeping, Option.some.injEq] at sleeping'
  subst sleeping'
  exact ⟨rfl, rfl, System.continue_self, resume_counts inGetblk taken⟩

theorem readAhead_counts {other : Bh} :
    (s.readAhead task bh tmp).cache.pool.cache.bCount other + tally [tmp] other =
      s.cache.pool.cache.bCount other := by
  rw [State.readAhead]
  dsimp only
  split
  · exact drop_counts
  · exact drop_counts

theorem readAhead_change : (s.readAhead task bh tmp).change = s.change := by
  rw [State.readAhead]
  dsimp only
  split
  · rfl
  · rfl

theorem holds_afterRead {sleeping : Option Wait} :
    ((s.put x).afterRead bh args).phase.Holds sleeping [bh] := by
  rw [State.afterRead]
  dsimp only
  split
  · rfl
  · rfl

theorem heldStep_advance {held : List Bh} (holds : s.phase.Holds (s.cache.sleeping task) held)
    (taken : s.advance task dev = some next) : ∃ held', HeldStep task s held next held' := by
  rw [State.advance] at taken
  cases phase : s.phase with
  | looking args =>
      rw [phase] at holds
      simp only [phase, Option.bind_eq_bind, Option.bind_eq_some_iff] at taken
      obtain ⟨⟨mid, outcome⟩, resumed, taken⟩ := taken
      obtain ⟨wait, sleeping, inGetblk, rfl⟩ := holds
      have turn := resumed_getblk sleeping inGetblk resumed
      rcases outcome with again | (_ | bh)
      · cases taken
        refine ⟨again.held, ?_, turn.counts.counts, turn.change⟩
        rw [turn.phase, phase]
        exact ⟨again, turn.sleeping, turn.counts.outcome, rfl⟩
      · cases taken
      · cases taken
        exact ⟨[bh], rfl, turn.counts.counts, turn.change⟩
  | found bh args =>
      rw [phase] at holds
      cases holds
      simp only [phase] at taken
      split at taken
      · cases taken
        exact ⟨[bh], rfl, fun _ => rfl, rfl⟩
      · cases taken
        exact ⟨[bh], holds_afterRead, fun _ => rfl, rfl⟩
  | reading bh args =>
      rw [phase] at holds
      cases holds
      simp only [phase] at taken
      split at taken
      · cases taken
        exact ⟨[bh], holds_afterRead, fun _ => rfl, rfl⟩
      · cases taken
        exact ⟨[bh], holds_afterRead, fun _ => rfl, rfl⟩
      · cases taken
      · cases taken
  | listing bh args =>
      rw [phase] at holds
      cases holds
      simp only [phase] at taken
      split at taken
      · cases taken
        exact ⟨[bh], rfl, fun _ => rfl, rfl⟩
      next block args' _ =>
        cases taken
        have looked := @lookUp_counts s.cache.pool task dev block
        obtain ⟨wait, sleeps⟩ := @lookUp_sleeps s.cache.pool task dev block
        have isSleep := looked.outcome
        rw [sleeps] at isSleep
        refine ⟨bh :: wait.held, ⟨wait, ?_, isSleep, rfl⟩, fun other => ?_, rfl⟩
        · rw [System.continue_self, sleeps]
          rfl
        · have counted := looked.counts other
          rw [sleeps, tally_nil, UInt8.add_zero] at counted
          rw [tally_singleton, tally_cons, ← UInt8.add_assoc]
          exact congrArg (· + _) counted
  | lookingNext bh args =>
      rw [phase] at holds
      simp only [phase, Option.bind_eq_bind, Option.bind_eq_some_iff] at taken
      obtain ⟨⟨mid, outcome⟩, resumed, taken⟩ := taken
      obtain ⟨wait, sleeping, inGetblk, rfl⟩ := holds
      have turn := resumed_getblk sleeping inGetblk resumed
      have counts (other : Bh) : mid.cache.pool.cache.bCount other + tally (bh :: wait.held) other =
          s.cache.pool.cache.bCount other + tally (bh :: outcome.held) other := by
        rw [tally_cons, tally_cons, ← UInt8.add_assoc, ← UInt8.add_assoc]
        exact congrArg (· + _) (turn.counts.counts other)
      rcases outcome with again | (_ | tmp)
      · cases taken
        refine ⟨bh :: again.held, ?_, counts, turn.change⟩
        rw [turn.phase, phase]
        exact ⟨again, turn.sleeping, turn.counts.outcome, rfl⟩
      · exact absurd rfl turn.counts.outcome
      · cases taken
        exact ⟨[bh, tmp], rfl, counts, turn.change⟩
  | foundNext bh tmp args =>
      rw [phase] at holds
      cases holds
      simp only [phase] at taken
      cases taken
      refine ⟨[bh], rfl, fun other => ?_, @readAhead_change task s bh tmp⟩
      have dropped := @readAhead_counts task s bh tmp other
      rw [tally_cons, ← UInt8.add_assoc, tally_singleton]
      rw [tally_singleton] at dropped ⊢
      exact congrArg (· + _) dropped
  | waiting bh =>
      rw [phase] at holds
      cases holds
      simp only [phase] at taken
      split at taken
      · cases taken
      · split at taken
        · cases taken
          exact ⟨[bh], rfl, fun _ => rfl, rfl⟩
        · cases taken
          exact ⟨[bh], ⟨bh, System.continue_self, rfl⟩, fun _ => rfl, rfl⟩
  | releasing =>
      rw [phase] at holds
      obtain ⟨bh, sleeping, rfl⟩ := holds
      simp only [phase, Option.bind_eq_bind, Option.bind_eq_some_iff] at taken
      obtain ⟨⟨mid, outcome⟩, resumed, taken⟩ := taken
      obtain ⟨wait, result, sleeping', released, rfl, rfl⟩ := resume_eq_some resumed
      rw [sleeping, Option.some.injEq] at sleeping'
      subst sleeping'
      unfold Pool.resume at released
      split at released
      · cases released
      · dsimp only at released
        split at released
        · cases released
        · cases released
          cases taken
          exact ⟨[], rfl, fun _ => drop_counts.trans (UInt8.add_zero _).symm, rfl⟩
  | returned result =>
      simp only [phase] at taken
      cases taken

/-- Others leave the task asleep where it is. -/
theorem sleeping_step {cache cache' : System} {action : Buffer.Action}
    (taken : Buffer.step cache action = some cache') (other : taskOf action ≠ some task) :
    cache'.sleeping task = cache.sleeping task := by
  have elsewhere {mover : Nat} (isMover : taskOf action = some mover) {result : Pool × Outcome} :
      (cache.continue mover result).sleeping task = cache.sleeping task :=
    System.continue_of_ne fun same => other (same ▸ isMover)
  cases action with
  | call mover caller dev block =>
      simp only [Buffer.step] at taken
      split at taken
      · cases taken
        exact elsewhere rfl
      · cases taken
  | brelse mover bh =>
      simp only [Buffer.step] at taken
      split at taken
      · cases taken
        exact elsewhere rfl
      · cases taken
  | resume mover =>
      simp only [Buffer.step, Option.bind_eq_bind, Option.bind_eq_some_iff] at taken
      obtain ⟨wait, -, result, -, taken⟩ := taken
      cases taken
      exact elsewhere rfl
  | change =>
      cases taken
      rfl

theorem accounts_step (accounts : s.Accounts task) (taken : step task dev s action = some next) :
    next.Accounts task := by
  obtain ⟨held, holds, counted⟩ := accounts
  cases action with
  | go =>
      obtain ⟨mid, advanced, rfl⟩ := Option.map_eq_some_iff.mp taken
      obtain ⟨held', stepped⟩ := heldStep_advance holds advanced
      exact stepped.accounts counted
  | cache action =>
      simp only [step] at taken
      split at taken
      next others =>
        obtain ⟨cache, moved, rfl⟩ := Option.map_eq_some_iff.mp taken
        refine ⟨held, ?_, counted⟩
        dsimp only
        rwa [sleeping_step moved others.2]
      next => cases taken
  | forget other bh =>
      simp only [step] at taken
      split at taken
      · cases taken
        exact ⟨held, holds, counted⟩
      · cases taken
  | requests request after currentRequest =>
      simp only [step] at taken
      split at taken
      · cases taken
        exact ⟨held, holds, counted⟩
      · cases taken

theorem State.Accounts.keepsCounts (accounts : s.Accounts task) : s.KeepsCounts := by
  intro result phase bh
  obtain ⟨held, holds, counted⟩ := accounts
  rw [phase] at holds
  cases holds
  rw [counted bh]
  cases result with
  | none => rfl
  | some found =>
      rw [Option.toList_some, tally_singleton]
      exact if_congr (Option.some_inj (a := found) (b := bh)).symm rfl rfl

section Calls

variable {first : UInt32} {cache : System} {blk : BlkState Unit} {actions : List Action}

theorem begin_calls : (begin task dev first args cache blk).Calls := rfl

theorem begin_accounts : (begin task dev first args cache blk).Accounts task := by
  have looked := @lookUp_counts cache.pool task dev first
  obtain ⟨wait, sleeps⟩ := @lookUp_sleeps cache.pool task dev first
  have inGetblk := looked.outcome
  rw [sleeps] at inGetblk
  refine ⟨wait.held, ⟨wait, ?_, inGetblk, rfl⟩, fun bh => ?_⟩
  · change (cache.continue task _).sleeping task = _
    rw [System.continue_self, sleeps]
    rfl
  · have counted := looked.counts bh
    rw [sleeps, tally_nil, UInt8.add_zero] at counted
    change 0 + ((cache.pool.lookUp task .getblk dev first).1.cache.bCount bh -
      cache.pool.cache.bCount bh) = tally wait.held bh
    rw [counted]
    change _ = tally (Outcome.sleeps wait).held bh
    grind

/-- `breada` queues a read for the first block if it is needed, a read-ahead for each further
block that needs one and can have one, and nothing else, and keeps the counts, if and only if each
step of the call is harmless. -/
theorem readsAhead_iff :
    ReadsAhead task dev (begin task dev first args cache blk) actions ↔
      Lib.EveryStep (step task dev) HarmlessStep (begin task dev first args cache blk)
        actions := by
  have always : Lib.EveryStep (step task dev) (fun _ _ => True)
      (begin task dev first args cache blk) actions :=
    Lib.everyStep_of_forall (fun _ _ => trivial) _ actions
  have exactly := Lib.everyStep_iff State.Calls
    (fun s action calls _ => @rightStep_iff task dev s action calls)
    (fun s action next calls _ _ taken => calls_step calls taken) begin_calls always
  rw [ReadsAhead, exactly]
  refine and_iff_left fun final reached => ?_
  have accounts : final.Accounts task := Lib.exec_preserves (·.Accounts task)
    (fun _ _ _ accounts taken => accounts_step accounts taken) begin_accounts reached
  exact accounts.keepsCounts

end Calls

/-! ## Two blocks -/

/-- Two free buffers, a hard disk, and nothing queued: blocks 1 and 2 are wanted. -/
def twoBlocks : State :=
  begin 1 0x301 1 [2, -1] (start 2 (fun _ => 0) fun _ _ => 0)
    (BlkDrv.Slots.boot (fun _ => .ofPage .read (-1) 0 0 0) (fun major => major == 3) fun _ =>
      ⟨0, 0, 0, false, false, false⟩)

/-- The read-ahead of block 2 is not queued. -/
theorem not_readsAhead_twoBlocks :
    ¬ReadsAhead 1 0x301 twoBlocks (List.replicate 5 .go) := by
  rintro ⟨right, -⟩
  have before : (Lib.exec (step 1 0x301) twoBlocks (List.replicate 4 .go)).map (fun s =>
      (s.phase, decide (s.Due 1), s.blk.findEmpty nrRequest)) =
      some (.foundNext 0 1 [-1], true, some 30) := by
    decide +kernel
  have after : (Lib.exec (step 1 0x301) twoBlocks (List.replicate 4 .go ++ [.go])).map (fun s =>
      (s.blk.request 30).dev) = some (-1) := by
    decide +kernel
  obtain ⟨s, reached, found⟩ := Option.map_eq_some_iff.mp before
  obtain ⟨final, done, free⟩ := Option.map_eq_some_iff.mp after
  obtain ⟨s', reached', last⟩ := Lib.exec_append_eq_some.mp done
  rw [reached, Option.some.injEq] at reached'
  subst reached'
  obtain ⟨next, taken, last⟩ := Lib.exec_cons_eq_some.mp last
  cases last
  rw [Prod.mk.injEq, Prod.mk.injEq] at found
  obtain ⟨phase, due, slot⟩ := found
  have lastRight : Lib.EveryStep (step 1 0x301) (RightStep 1 0x301) s [.go] :=
    Lib.EveryStep.of_append right reached
  have queues : s.QueuesRight final := lastRight.1 final taken
  rw [State.QueuesRight, phase] at queues
  obtain ⟨slot', free', queued⟩ := queues.1 (of_decide_eq_true due)
  rw [slot, Option.some.injEq] at free'
  subst free'
  rw [queued, Function.update_self] at free
  have nonneg : 0 ≤ (s.readOf 1).dev := Int.natCast_nonneg _
  rw [free] at nonneg
  exact absurd nonneg (by decide)

end Linux012.Buffer.Breada
