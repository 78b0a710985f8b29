import Mathlib.Data.UInt
import Linux012.BlkDrv.Hd
import Linux012.Lib.Run

/-!
# What a hard disk request transfers

A handler advances the request by a sector, and the command is given again, from where the
request has got to, after any error.  So the driver, the device and the memory agree on how
many sectors have been transferred, `done` below, in every state of a run.
-/

namespace Linux012.BlkDrv.Hd

/-! ## What is promised -/

/-- The drive of the request. -/
def Request.drive (r : Request) : Nat := r.minor / 5

/-- The sector of the drive that is sector `index` of the request. -/
def Request.diskSector (r : Request) (disks : Disks) (index : Nat) : UInt32 :=
  (disks.hd r.minor).startSect.toUInt32 + (r.sector + UInt32.ofNat index)

/-- The buffer of that sector. -/
def Request.bufferOf (r : Request) (index : Nat) : Nat := r.buffer + 512 * index

/-- The request that the driver begins with. -/
structure Driver.Fresh (d : Driver) (r : Request) : Prop where
  current : d.current = some r
  count : r.nrSectors ≠ 0
  ended : d.ended = none
  stage : d.stage = .waiting ∨ d.stage = .outside
  /-- The device may be in the middle of a reset, which another request began. -/
  job : d.job = .idle ∨ d.job = .control ∧ (d.doHd = some .resetHd ∨ d.doHd = some .recalIntr)
  touched : d.touched = []

/-- The first sectors of the request are transferred. -/
def Transferred (disks : Disks) (before : Driver) (r : Request) (count : Nat) (d : Driver) :
    Prop :=
  ∀ index < count,
    match r.cmd with
    | .read => sectorAt d.mem (r.bufferOf index) = before.disk r.drive (r.diskSector disks index)
    | .write => d.disk r.drive (r.diskSector disks index) = sectorAt before.mem (r.bufferOf index)

/-- The promise. -/
structure Served (disks : Disks) (before : Driver) (r : Request) (d : Driver) : Prop where
  transferred : d.ended = some true → Transferred disks before r r.nrSectors.toNat d
  /-- Only sectors of a request to write are written to. -/
  inside : ∀ place ∈ d.touched, r.cmd = .write ∧
    ∃ index < r.nrSectors.toNat, place = (r.drive, r.diskSector disks index)

/-- The `do_hd_request` that `add_request` calls is not overtaken: while it has read the
request and has not given its command, no transfer has success. -/
def Undisturbed (d : Driver) (action : Action) : Prop :=
  ∀ args misses t, d.stage = .loaded args → action = .interrupt false misses →
    d.job ≠ .transfer t

/-! ## Sector numbers -/

theorem ofNat_succ (index : Nat) : UInt32.ofNat (index + 1) = UInt32.ofNat index + 1 := by
  rw [UInt32.ofNat_add]
  rfl

theorem ofNat_eq_iff {index : Nat} {count : UInt32} (atMost : index ≤ count.toNat) :
    UInt32.ofNat index = count ↔ index = count.toNat := by
  have below : index < 2 ^ 32 := atMost.trans_lt count.toNat_lt
  constructor
  · rintro rfl
    rw [UInt32.toNat_ofNat_of_lt' below]
  · rintro rfl
    exact UInt32.ofNat_toNat

theorem ofNat_inj {index other : Nat} {count : UInt32} (below : index < count.toNat)
    (otherBelow : other < count.toNat) (same : UInt32.ofNat index = UInt32.ofNat other) :
    index = other := by
  have small := below.trans count.toNat_lt
  have otherSmall := otherBelow.trans count.toNat_lt
  have values := congrArg UInt32.toNat same
  rwa [UInt32.toNat_ofNat_of_lt' small, UInt32.toNat_ofNat_of_lt' otherSmall] at values

namespace Request

variable {r : Request} {disks : Disks} {index other : Nat}

theorem diskSector_succ (r : Request) (disks : Disks) (index : Nat) :
    r.diskSector disks (index + 1) = r.diskSector disks index + 1 := by
  rw [diskSector, diskSector, ofNat_succ, UInt32.add_assoc, UInt32.add_assoc]

/-- The sectors of a request are different. -/
theorem diskSector_inj (below : index < r.nrSectors.toNat) (otherBelow : other < r.nrSectors.toNat)
    (same : r.diskSector disks index = r.diskSector disks other) : index = other := by
  rw [diskSector, diskSector] at same
  exact ofNat_inj below otherBelow (UInt32.add_right_inj _ |>.mp (UInt32.add_right_inj _ |>.mp same))

/-- The request when `done` sectors are transferred. -/
def advanced (r : Request) (done errors : Nat) : Request :=
  { r with
    errors := errors
    sector := r.sector + UInt32.ofNat done
    nrSectors := r.nrSectors - UInt32.ofNat done
    buffer := r.bufferOf done }

/-- The command for what is not transferred. -/
def argsAt (r : Request) (disks : Disks) (done : Nat) : Args where
  drive := r.drive
  nsect := (r.nrSectors - UInt32.ofNat done).toInt32
  sector := (r.sector + UInt32.ofNat done).toInt32 + (disks.hd r.minor).startSect
  cmd := r.cmd

/-- What the device is at then. -/
def transferAt (r : Request) (disks : Disks) (done : Nat) (hasData : Bool) : Transfer where
  drive := r.drive
  sector := r.diskSector disks done
  left := r.nrSectors - UInt32.ofNat done
  cmd := r.cmd
  hasData := hasData

theorem argsAt_transfer (r : Request) (disks : Disks) (done : Nat) :
    (r.argsAt disks done).transfer = r.transferAt disks done false := by
  have sector : ((r.sector + UInt32.ofNat done).toInt32 +
      (disks.hd r.minor).startSect).toUInt32 = r.diskSector disks done :=
    UInt32.add_comm ..
  rw [Args.transfer, argsAt, sector]
  rfl

end Request

/-! ## The invariant -/

/-- The first `done` sectors are transferred, and nothing else has happened to the disks or
to the buffer to write. -/
structure Moved (disks : Disks) (before : Driver) (r : Request) (done : Nat) (d : Driver) :
    Prop where
  transferred : Transferred disks before r done d
  disk : r.cmd = .read → d.disk = before.disk
  mem : r.cmd = .write → d.mem = before.mem
  inside : ∀ place ∈ d.touched, r.cmd = .write ∧
    ∃ index < r.nrSectors.toNat, place = (r.drive, r.diskSector disks index)

/-- The driver is at work on the request, and driver and device agree on where. -/
structure Working (disks : Disks) (before : Driver) (r : Request) (done : Nat) (d : Driver) :
    Prop where
  below : done < r.nrSectors.toNat
  current : ∃ errors, d.current = some (r.advanced done errors)
  ended : d.ended = none
  moved : Moved disks before r done d
  control : d.job = .control → d.doHd = some .resetHd ∨ d.doHd = some .recalIntr
  transfer : ∀ t, d.job = .transfer t → d.doHd = some (handlerOf r.cmd) ∧
    ∃ hasData, t = r.transferAt disks done hasData ∧
      (hasData = true → d.dataOut = sectorAt d.mem (r.bufferOf done))
  loaded : ∀ args, d.stage = .loaded args → args = r.argsAt disks done

/-- The request has ended, with all sectors transferred if without an error. -/
structure Finished (disks : Disks) (before : Driver) (r : Request) (done : Nat) (d : Driver) :
    Prop where
  current : d.current = none
  ended : d.ended = some false ∨ d.ended = some true ∧ done = r.nrSectors.toNat
  moved : Moved disks before r done d

def Inv (disks : Disks) (before : Driver) (r : Request) (d : Driver) : Prop :=
  (∃ done, Working disks before r done d) ∨ ∃ done, Finished disks before r done d

variable {disks : Disks} {before d next : Driver} {r : Request} {done : Nat}

theorem Moved.congr (moved : Moved disks before r done d) (disk : next.disk = d.disk)
    (mem : next.mem = d.mem) (touched : next.touched = d.touched) :
    Moved disks before r done next where
  transferred := by
    have transferred := moved.transferred
    rw [Transferred] at transferred ⊢
    rwa [disk, mem]
  disk isRead := disk.trans (moved.disk isRead)
  mem isWrite := mem.trans (moved.mem isWrite)
  inside := touched ▸ moved.inside

theorem Inv.served (inv : Inv disks before r d) : Served disks before r d := by
  rcases inv with ⟨done, working⟩ | ⟨done, finished⟩
  · refine ⟨fun ended => ?_, working.moved.inside⟩
    rw [working.ended] at ended
    cases ended
  · refine ⟨fun ended => ?_, finished.moved.inside⟩
    rcases finished.ended with failed | ⟨-, all⟩
    · rw [failed] at ended
      cases ended
    · exact all ▸ finished.moved.transferred

theorem Driver.Fresh.inv (fresh : before.Fresh r) : Inv disks before r before := by
  refine .inl ⟨0, ?_, ⟨r.errors, ?_⟩, fresh.ended, ⟨nofun, fun _ => rfl, fun _ => rfl, ?_⟩,
    fun isControl => ?_, fun t isTransfer => ?_, fun args isLoaded => ?_⟩
  · rw [Nat.pos_iff_ne_zero]
    exact fun zero => fresh.count (UInt32.toNat_inj.mp zero)
  · rw [fresh.current]
    simp [Request.advanced, Request.bufferOf]
  · rw [fresh.touched]
    exact nofun
  · rcases fresh.job with idle | ⟨-, handler⟩
    · rw [idle] at isControl
      cases isControl
    · exact handler
  · rcases fresh.job with idle | ⟨control, -⟩
    · rw [idle] at isTransfer
      cases isTransfer
    · rw [control] at isTransfer
      cases isTransfer
  · rcases fresh.stage with waiting | outside
    · rw [waiting] at isLoaded
      cases isLoaded
    · rw [outside] at isLoaded
      cases isLoaded

/-! ## The driver between two transfers -/

/-- What the driver does to its flags does not matter. -/
theorem Inv.flags (inv : Inv disks before r d) (current : next.current = d.current)
    (ended : next.ended = d.ended) (disk : next.disk = d.disk) (mem : next.mem = d.mem)
    (touched : next.touched = d.touched) (job : next.job = d.job) (doHd : next.doHd = d.doHd)
    (dataOut : next.dataOut = d.dataOut) (stage : next.stage = d.stage) :
    Inv disks before r next := by
  rcases inv with ⟨done, working⟩ | ⟨done, finished⟩
  · refine .inl ⟨done, working.below, ?_, ended.trans working.ended,
      working.moved.congr disk mem touched, ?_, ?_, ?_⟩
    · rw [current]
      exact working.current
    · rw [job, doHd]
      exact working.control
    · rw [job, doHd, dataOut, mem]
      exact working.transfer
    · rw [stage]
      exact working.loaded
  · refine .inr ⟨done, current.trans finished.current, ?_,
      finished.moved.congr disk mem touched⟩
    rw [ended]
    exact finished.ended

theorem Working.endRequest (working : Working disks before r done d) :
    Finished disks before r done (d.endRequest false) where
  current := rfl
  ended := .inl rfl
  moved := working.moved.congr rfl rfl rfl

/-- `bad_rw_intr` counts an error or ends the request. -/
theorem Inv.badRwIntr (inv : Inv disks before r d) : Inv disks before r d.badRwIntr := by
  rcases inv with ⟨done, working⟩ | ⟨done, finished⟩
  · obtain ⟨errors, isCurrent⟩ := working.current
    rw [Driver.badRwIntr, isCurrent]
    dsimp only
    split
    · exact .inr ⟨done, working.endRequest⟩
    · exact .inl ⟨done, working.below, ⟨errors + 1, rfl⟩, working.ended,
        working.moved.congr rfl rfl rfl, working.control, working.transfer, working.loaded⟩
  · rw [Driver.badRwIntr, finished.current]
    exact .inr ⟨done, finished⟩

/-- A command that transfers nothing takes the place of the one before. -/
theorem Inv.hdOut {drive head : Int} {intr : Handler} (inv : Inv disks before r d)
    (isControl : intr = .resetHd ∨ intr = .recalIntr) :
    Inv disks before r (d.hdOut drive head intr) := by
  rw [Driver.hdOut]
  split
  · exact inv.flags rfl rfl rfl rfl rfl rfl rfl rfl rfl
  · rcases inv with ⟨done, working⟩ | ⟨done, finished⟩
    · exact .inl ⟨done, working.below, working.current, working.ended,
        working.moved.congr rfl rfl rfl,
        fun _ => isControl.imp (congrArg some) (congrArg some), nofun, working.loaded⟩
    · exact .inr ⟨done, finished.current, finished.ended, finished.moved.congr rfl rfl rfl⟩

theorem Inv.beginReset (inv : Inv disks before r d) : Inv disks before r d.beginReset :=
  inv.flags rfl rfl rfl rfl rfl rfl rfl rfl rfl

theorem Inv.resetHd {doHdRequest : Driver → Driver} {failed : Bool}
    (inv : Inv disks before r d)
    (keeps : ∀ d, Inv disks before r d → Inv disks before r (doHdRequest d)) :
    Inv disks before r (d.resetHd disks doHdRequest failed) := by
  have continues (d : Driver) (inv : Inv disks before r d) : Inv disks before r
      (if d.i + 1 < (disks.nrHd : Int) then
        ({ d with i := d.i + 1 } : Driver).hdOut (d.i + 1) ((disks.head (d.i + 1).toNat : Int) - 1)
          .resetHd
      else doHdRequest { d with i := d.i + 1 }) := by
    have counted : Inv disks before r { d with i := d.i + 1 } :=
      inv.flags rfl rfl rfl rfl rfl rfl rfl rfl rfl
    split
    · exact counted.hdOut (.inl rfl)
    · exact keeps _ counted
  apply continues
  split
  · exact inv.beginReset
  · split
    · dsimp only
      split
      · exact inv.badRwIntr.beginReset
      · exact inv.badRwIntr
    · exact inv

/-- No handler is left for a request that has ended, or with a device that has no command. -/
theorem Inv.clearIntr (inv : Inv disks before r d) (quiet : d.current = none ∨ d.job = .idle) :
    Inv disks before r { d with doHd := none } := by
  rcases inv with ⟨done, working⟩ | ⟨done, finished⟩
  · obtain ⟨errors, isCurrent⟩ := working.current
    have idle : d.job = .idle := quiet.resolve_left fun isNone => by
      rw [isNone] at isCurrent
      cases isCurrent
    refine .inl ⟨done, working.below, ⟨errors, isCurrent⟩, working.ended,
      working.moved.congr rfl rfl rfl, fun isControl => ?_, fun t isTransfer => ?_,
      working.loaded⟩
    · rw [idle] at isControl
      cases isControl
    · rw [idle] at isTransfer
      cases isTransfer
  · exact .inr ⟨done, finished.current, finished.ended, finished.moved.congr rfl rfl rfl⟩

/-- The drives are reset before the request is served. -/
theorem Inv.resetFirst (inv : Inv disks before r d) :
    Inv disks before r (({ d with recalibrate := true } : Driver).resetHd disks id false) := by
  have flagged : Inv disks before r { d with recalibrate := true } :=
    inv.flags rfl rfl rfl rfl rfl rfl rfl rfl rfl
  exact flagged.resetHd fun _ kept => kept

theorem Inv.recalibrateFirst {drive : Int} (inv : Inv disks before r d) :
    Inv disks before r (({ d with recalibrate := false } : Driver).hdOut drive 0 .recalIntr) := by
  have flagged : Inv disks before r { d with recalibrate := false } :=
    inv.flags rfl rfl rfl rfl rfl rfl rfl rfl rfl
  exact flagged.hdOut (.inr rfl)

/-- `do_hd_request` returns, or gets to the command of a transfer with what is not transferred
yet. -/
theorem Inv.prepare (inv : Inv disks before r d) :
    (∃ next, d.prepare disks = (next, none) ∧ Inv disks before r next) ∨
      ∃ done, d.prepare disks = (d, some (r.argsAt disks done)) ∧
        Working disks before r done d := by
  rw [Driver.prepare]
  split
  next noCurrent => exact .inl ⟨_, rfl, inv.clearIntr (.inl noCurrent)⟩
  next current isCurrent =>
    rcases inv with ⟨done, working⟩ | ⟨done, finished⟩
    · have inv : Inv disks before r d := .inl ⟨done, working⟩
      have panics : Inv disks before r d.panic := inv.flags rfl rfl rfl rfl rfl rfl rfl rfl rfl
      obtain ⟨errors, isAdvanced⟩ := working.current
      cases isCurrent.symm.trans isAdvanced
      split
      · exact .inl ⟨_, rfl, panics⟩
      split
      · exact .inl ⟨_, rfl, panics⟩
      dsimp only
      split
      · exact .inl ⟨_, rfl, Inv.clearIntr (.inr ⟨done, working.endRequest⟩) (.inl rfl)⟩
      split
      · exact .inl ⟨_, rfl, inv.resetFirst⟩
      split
      · exact .inl ⟨_, rfl, inv.recalibrateFirst⟩
      · exact .inr ⟨done, rfl, working⟩
    · cases isCurrent.symm.trans finished.current

/-- The command of a transfer. -/
theorem Working.hdOutLba (working : Working disks before r done d) :
    Working disks before r done (d.hdOutLba (r.argsAt disks done)) := by
  rw [Driver.hdOutLba]
  split
  · exact ⟨working.below, working.current, working.ended, working.moved.congr rfl rfl rfl,
      working.control, working.transfer, working.loaded⟩
  · refine ⟨working.below, working.current, working.ended, working.moved.congr rfl rfl rfl,
      nofun, fun t isTransfer => ⟨rfl, false, ?_, nofun⟩, working.loaded⟩
    cases isTransfer
    exact r.argsAt_transfer disks done

/-- The data of the sector that the request has got to. -/
theorem Working.portWrite (working : Working disks before r done d) :
    Working disks before r done d.portWrite := by
  obtain ⟨errors, isCurrent⟩ := working.current
  have data : sectorAt d.mem (r.advanced done errors).buffer =
      sectorAt d.mem (r.bufferOf done) := rfl
  simp only [Driver.portWrite, isCurrent]
  refine ⟨working.below, ⟨errors, rfl⟩, working.ended, working.moved.congr rfl rfl rfl,
    fun isControl => ?_, fun t isTransfer => ?_, working.loaded⟩
  · apply working.control
    cases isJob : d.job with
    | idle => simp [isJob] at isControl
    | control => rfl
    | transfer t => simp [isJob] at isControl
  · cases isJob : d.job with
    | idle => simp [isJob] at isTransfer
    | control => simp [isJob] at isTransfer
    | transfer old =>
        simp only [isJob, Job.transfer.injEq] at isTransfer
        obtain ⟨handler, hasData, rfl, -⟩ := working.transfer old isJob
        exact ⟨handler, true, isTransfer.symm, fun _ => data⟩

theorem Inv.portWrite (inv : Inv disks before r d) : Inv disks before r d.portWrite := by
  rcases inv with ⟨done, working⟩ | ⟨done, finished⟩
  · exact .inl ⟨done, working.portWrite⟩
  · rw [Driver.portWrite, finished.current]
    exact .inr ⟨done, finished⟩

/-- `do_hd_request`. -/
theorem Inv.doHdRequest (inv : Inv disks before r d) (misses : Nat) :
    Inv disks before r (d.doHdRequest disks misses) := by
  induction misses generalizing d with
  | zero =>
      rw [Driver.doHdRequest]
      rcases inv.prepare with ⟨next, isPrepared, kept⟩ | ⟨done, isPrepared, working⟩
      · rw [isPrepared]
        exact kept
      · rw [isPrepared]
        dsimp only
        split
        next => exact .inl ⟨done, working.hdOutLba⟩
        next => exact .inl ⟨done, working.hdOutLba.portWrite⟩
        next noMiss => cases noMiss
  | succ misses ih =>
      rw [Driver.doHdRequest]
      rcases inv.prepare with ⟨next, isPrepared, kept⟩ | ⟨done, isPrepared, working⟩
      · rw [isPrepared]
        exact kept
      · rw [isPrepared]
        dsimp only
        have commanded : Inv disks before r (d.hdOutLba (r.argsAt disks done)) :=
          .inl ⟨done, working.hdOutLba⟩
        split
        next => exact commanded
        next noMiss => cases noMiss
        next same =>
          cases same
          exact ih commanded.badRwIntr

/-! ## Interrupts -/

/-- An error, or the end of a command that transfers nothing. -/
theorem Inv.hdInterrupt {failed : Bool} {misses : Nat} (inv : Inv disks before r d)
    (idle : d.job = .idle)
    (noTransfer : failed = true ∨ d.doHd = some .resetHd ∨ d.doHd = some .recalIntr) :
    Inv disks before r (d.hdInterrupt disks failed misses) := by
  have cleared := inv.clearIntr (.inr idle)
  have again (d : Driver) (inv : Inv disks before r d) :
      Inv disks before r (d.doHdRequest disks misses) := inv.doHdRequest misses
  rw [Driver.hdInterrupt]
  split
  next => exact inv
  next => exact cleared.resetHd again
  next isHandler =>
    have isFailed : failed = true := noTransfer.resolve_right (by simp [isHandler])
    rw [Driver.readIntr, if_pos isFailed]
    exact again _ cleared.badRwIntr
  next isHandler =>
    have isFailed : failed = true := noTransfer.resolve_right (by simp [isHandler])
    rw [Driver.writeIntr, if_pos isFailed]
    exact again _ cleared.badRwIntr
  next =>
    rw [Driver.recalIntr]
    split
    · exact again _ cleared.badRwIntr
    · exact again _ cleared

/-! ## One sector -/

theorem count_eq_one_iff (below : done < r.nrSectors.toNat) :
    r.nrSectors - UInt32.ofNat done = 1 ↔ done + 1 = r.nrSectors.toNat := by
  rw [UInt32.sub_eq_iff_eq_add, UInt32.add_comm, ← ofNat_succ, eq_comm, ofNat_eq_iff below]

theorem count_eq_zero_iff (below : done < r.nrSectors.toNat) :
    r.nrSectors - UInt32.ofNat done - 1 = 0 ↔ done + 1 = r.nrSectors.toNat := by
  rw [UInt32.sub_eq_iff_eq_add, UInt32.zero_add, count_eq_one_iff below]

/-- The device is at the next sector too, or has done all. -/
theorem advance_transferAt (below : done < r.nrSectors.toNat) (hasData : Bool) :
    (r.transferAt disks done hasData).advance =
      if done + 1 = r.nrSectors.toNat then .idle
      else .transfer (r.transferAt disks (done + 1) false) := by
  have last : (r.transferAt disks done hasData).left = 1 ↔ done + 1 = r.nrSectors.toNat :=
    count_eq_one_iff below
  rw [Transfer.advance]
  simp only [last]
  split
  · rfl
  · rw [Request.transferAt, Request.transferAt, Request.diskSector_succ, ofNat_succ,
      sub_sub]

/-- The request has got to the next sector. -/
theorem Request.advanced_succ (r : Request) (done errors errors' : Nat) :
    { r.advanced done errors with
      errors := errors'
      buffer := (r.advanced done errors).buffer + 512
      sector := (r.advanced done errors).sector + 1
      nrSectors := (r.advanced done errors).nrSectors - 1 } = r.advanced (done + 1) errors' := by
  rw [Request.advanced, Request.advanced, Request.bufferOf, Request.bufferOf, ofNat_succ,
    UInt32.add_assoc, sub_sub, Nat.mul_succ, Nat.add_assoc]

theorem sectorAt_portRead_self {buffer : Nat} :
    sectorAt (d.portRead buffer).mem buffer = d.dataIn := by
  funext i
  have inside : buffer + i.val - buffer < 512 := by
    rw [Nat.add_sub_cancel_left]
    exact i.isLt
  rw [sectorAt, Driver.portRead]
  simp only [inside, dif_pos, Nat.le_add_right, if_pos]
  congr 1
  exact Fin.ext (Nat.add_sub_cancel_left ..)

theorem sectorAt_portRead_of_before {buffer other : Nat} (before : other + 512 ≤ buffer) :
    sectorAt (d.portRead buffer).mem other = sectorAt d.mem other := by
  funext i
  have outside : ¬buffer ≤ other + i.val := by
    have isLt := i.isLt
    omega
  rw [sectorAt, sectorAt, Driver.portRead]
  simp only [if_neg outside, dite_eq_ite, ite_self]

/-- A sector has been read. -/
theorem Moved.read (moved : Moved disks before r done d) (isRead : r.cmd = .read)
    (dataIn : d.dataIn = d.disk r.drive (r.diskSector disks done)) :
    Moved disks before r (done + 1) (d.portRead (r.bufferOf done)) where
  transferred index isBelow := by
    have transferred := moved.transferred index
    rw [isRead] at transferred ⊢
    dsimp only at transferred ⊢
    rcases Nat.lt_succ_iff_lt_or_eq.mp isBelow with less | rfl
    · have apart : r.bufferOf index + 512 ≤ r.bufferOf done := by
        rw [Request.bufferOf, Request.bufferOf]
        omega
      rw [sectorAt_portRead_of_before apart]
      exact transferred less
    · rw [sectorAt_portRead_self, dataIn, moved.disk isRead]
  disk := moved.disk
  mem isWrite := by
    rw [isRead] at isWrite
    cases isWrite
  inside := moved.inside

theorem touch_disk_self {drive : Nat} {sector : UInt32} {data : Sector} :
    (d.touch drive sector data).disk drive sector = data := by
  simp only [Driver.touch, Function.update_self]

theorem touch_disk_of_ne {drive : Nat} {sector other : UInt32} {data : Sector}
    (differs : other ≠ sector) :
    (d.touch drive sector data).disk drive other = d.disk drive other := by
  simp only [Driver.touch, Function.update_self, Function.update_of_ne differs]

/-- The device writes to the sector that the request has got to. -/
theorem Moved.touch (moved : Moved disks before r done d) (isWrite : r.cmd = .write)
    (below : done < r.nrSectors.toNat) (data : Sector) :
    Moved disks before r done (d.touch r.drive (r.diskSector disks done) data) where
  transferred index isBelow := by
    have transferred := moved.transferred index isBelow
    rw [isWrite] at transferred ⊢
    dsimp only at transferred ⊢
    have differs : r.diskSector disks index ≠ r.diskSector disks done := fun same =>
      isBelow.ne (Request.diskSector_inj (isBelow.trans below) below same)
    rw [touch_disk_of_ne differs]
    exact transferred
  disk isRead := by
    rw [isWrite] at isRead
    cases isRead
  mem := moved.mem
  inside place member := by
    rcases List.mem_cons.mp member with rfl | member
    · exact ⟨isWrite, done, below, rfl⟩
    · exact moved.inside place member

/-- A sector has been written. -/
theorem Moved.write (moved : Moved disks before r done d) (isWrite : r.cmd = .write)
    (below : done < r.nrSectors.toNat) {data : Sector}
    (isData : data = sectorAt d.mem (r.bufferOf done)) :
    Moved disks before r (done + 1) (d.touch r.drive (r.diskSector disks done) data) := by
  have touched := moved.touch isWrite below data
  refine ⟨fun index isBelow => ?_, touched.disk, touched.mem, touched.inside⟩
  rcases Nat.lt_succ_iff_lt_or_eq.mp isBelow with less | rfl
  · exact touched.transferred index less
  · rw [isWrite]
    dsimp only
    rw [touch_disk_self, isData, moved.mem isWrite]

/-- After the last sector the request has ended. -/
theorem Finished.served {misses : Nat} (finished : Finished disks before r done d) :
    Inv disks before r (d.doHdRequest disks misses) :=
  Inv.doHdRequest (.inr ⟨done, finished⟩) misses

/-- `read_intr`. -/
theorem Working.read {misses : Nat} {t : Transfer} (working : Working disks before r done d)
    (isTransfer : d.job = .transfer t) (isRead : r.cmd = .read)
    (notLoaded : ∀ args, d.stage ≠ .loaded args) :
    Inv disks before r (({ d with
      dataIn := d.disk t.drive t.sector, job := t.advance } : Driver).hdInterrupt disks false
        misses) := by
  obtain ⟨errors, isCurrent⟩ := working.current
  obtain ⟨handler, hasData, rfl, -⟩ := working.transfer t isTransfer
  rw [isRead] at handler
  rw [advance_transferAt working.below]
  simp only [Driver.hdInterrupt, handler, handlerOf, Driver.readIntr, isCurrent,
    Bool.false_eq_true, if_false, Request.advanced_succ]
  have latched : Moved disks before r done
      { d with dataIn := d.disk r.drive (r.diskSector disks done) } :=
    working.moved.congr rfl rfl rfl
  have moved := latched.read isRead rfl
  split
  next more =>
    have more : done + 1 ≠ r.nrSectors.toNat := fun same =>
      more ((count_eq_zero_iff working.below).mpr same)
    refine .inl ⟨done + 1, lt_of_le_of_ne working.below more, ⟨0, rfl⟩, working.ended,
      moved.congr rfl rfl rfl, fun isControl => ?_, fun t isTransfer => ?_,
      fun args isLoaded => absurd isLoaded (notLoaded args)⟩
    · simp [Driver.portRead, more] at isControl
    · simp only [Driver.portRead, more, if_false, Job.transfer.injEq] at isTransfer
      exact ⟨congrArg (some ∘ handlerOf) isRead.symm, false, isTransfer.symm, nofun⟩
  next last =>
    have last := (count_eq_zero_iff working.below).mp (not_not.mp last)
    exact Finished.served ⟨rfl, .inr ⟨rfl, last⟩, moved.congr rfl rfl rfl⟩

/-- `write_intr`. -/
theorem Working.write {misses : Nat} {t : Transfer} (working : Working disks before r done d)
    (isTransfer : d.job = .transfer t) (isWrite : r.cmd = .write) (hasData : t.hasData = true)
    (notLoaded : ∀ args, d.stage ≠ .loaded args) :
    Inv disks before r (({ d.touch t.drive t.sector d.dataOut with
      job := t.advance } : Driver).hdInterrupt disks false misses) := by
  obtain ⟨errors, isCurrent⟩ := working.current
  obtain ⟨handler, _, rfl, isData⟩ := working.transfer t isTransfer
  have moved := working.moved.write isWrite working.below (isData hasData)
  rw [isWrite] at handler
  rw [advance_transferAt working.below]
  have isNext := r.advanced_succ done errors errors
  have touchedCurrent : (d.touch r.drive (r.diskSector disks done) d.dataOut).current =
      some (r.advanced done errors) := isCurrent
  have touchedHandler : (d.touch r.drive (r.diskSector disks done) d.dataOut).doHd =
      some .writeIntr := handler
  have touchedEnded : (d.touch r.drive (r.diskSector disks done) d.dataOut).ended = none :=
    working.ended
  have touchedStage : (d.touch r.drive (r.diskSector disks done) d.dataOut).stage = d.stage := rfl
  simp only [Request.transferAt]
  generalize d.touch r.drive (r.diskSector disks done) d.dataOut = touched at *
  simp only [Driver.hdInterrupt, touchedHandler, Driver.writeIntr, touchedCurrent,
    Bool.false_eq_true, if_false]
  split
  next more =>
    have more : done + 1 ≠ r.nrSectors.toNat := fun same =>
      more ((count_eq_zero_iff working.below).mpr same)
    apply Inv.portWrite
    refine .inl ⟨done + 1, lt_of_le_of_ne working.below more, ⟨errors, congrArg some isNext⟩,
      touchedEnded, moved.congr rfl rfl rfl, fun isControl => ?_, fun t isTransfer => ?_,
      fun args isLoaded => absurd (touchedStage.symm.trans isLoaded) (notLoaded args)⟩
    · simp [more] at isControl
    · simp only [more, if_false, Job.transfer.injEq] at isTransfer
      exact ⟨congrArg (some ∘ handlerOf) isWrite.symm, false, isTransfer.symm, nofun⟩
  next last =>
    have last := (count_eq_zero_iff working.below).mp (not_not.mp last)
    exact Finished.served ⟨rfl, .inr ⟨rfl, last⟩, moved.congr rfl rfl rfl⟩

/-! ## Steps and runs -/

/-- The `do_hd_request` of `add_request` is anywhere but in front of a command. -/
theorem Inv.setStage {stage : Stage} (inv : Inv disks before r d)
    (notLoaded : ∀ args, stage ≠ .loaded args) :
    Inv disks before r { d with stage := stage } := by
  rcases inv with ⟨done, working⟩ | ⟨done, finished⟩
  · exact .inl ⟨done, working.below, working.current, working.ended,
      working.moved.congr rfl rfl rfl, working.control, working.transfer,
      fun args isLoaded => absurd isLoaded (notLoaded args)⟩
  · exact .inr ⟨done, finished.current, finished.ended, finished.moved.congr rfl rfl rfl⟩

theorem Inv.enter (inv : Inv disks before r d) : Inv disks before r (d.enter disks) := by
  rw [Driver.enter]
  rcases inv.prepare with ⟨next, isPrepared, kept⟩ | ⟨done, isPrepared, working⟩
  · rw [isPrepared]
    exact kept.setStage nofun
  · rw [isPrepared]
    refine .inl ⟨done, working.below, working.current, working.ended,
      working.moved.congr rfl rfl rfl, working.control, working.transfer, fun args isLoaded => ?_⟩
    cases isLoaded
    rfl

/-- The device has no command. -/
theorem Working.idle (working : Working disks before r done d) :
    Inv disks before r { d with job := .idle } :=
  .inl ⟨done, working.below, working.current, working.ended, working.moved.congr rfl rfl rfl,
    nofun, nofun, working.loaded⟩

theorem Working.interrupt {failed : Bool} {misses : Nat}
    (working : Working disks before r done d)
    (undisturbed : Undisturbed d (.interrupt failed misses))
    (taken : act disks d (.interrupt failed misses) = some next) : Inv disks before r next := by
  obtain ⟨told, isTold, rfl⟩ := Option.map_eq_some_iff.mp taken
  cases failed with
  | true =>
      have isFailed : d.fail = some told := isTold
      rw [Driver.fail] at isFailed
      split at isFailed
      next => cases isFailed
      next =>
        cases isFailed
        exact working.idle.hdInterrupt rfl (.inl rfl)
  | false =>
      have hasSuccess : d.succeed = some told := isTold
      rw [Driver.succeed] at hasSuccess
      split at hasSuccess
      next => cases hasSuccess
      next isControl =>
        cases hasSuccess
        exact working.idle.hdInterrupt rfl (.inr (working.control isControl))
      next t isTransfer =>
        have notLoaded (args : Args) : d.stage ≠ .loaded args := fun isLoaded =>
          undisturbed args misses t isLoaded rfl isTransfer
        obtain ⟨-, hasData, isAt, -⟩ := working.transfer t isTransfer
        have sameCmd : t.cmd = r.cmd := congrArg Transfer.cmd isAt
        split at hasSuccess
        next isRead =>
          cases hasSuccess
          exact working.read isTransfer (sameCmd.symm.trans isRead) notLoaded
        next isWrite =>
          split at hasSuccess
          next given =>
            cases hasSuccess
            exact working.write isTransfer (sameCmd.symm.trans isWrite) given notLoaded
          next => cases hasSuccess

theorem Working.scratch {data : Sector} (working : Working disks before r done d)
    (taken : act disks d (.scratch data) = some next) : Inv disks before r next := by
  rw [act] at taken
  split at taken
  next t isTransfer =>
    split at taken
    next isWrite =>
      cases taken
      obtain ⟨handler, hasData, rfl, isData⟩ := working.transfer t isTransfer
      exact .inl ⟨done, working.below, working.current, working.ended,
        working.moved.touch isWrite working.below data, working.control, working.transfer,
        working.loaded⟩
    next => cases taken
  next => cases taken

theorem Inv.step {action : Action} (inv : Inv disks before r d)
    (undisturbed : Undisturbed d action) (taken : step disks d action = some next) :
    Inv disks before r next := by
  rw [Hd.step] at taken
  split at taken
  next => cases taken
  next running =>
    rcases inv with ⟨done, working⟩ | ⟨done, finished⟩
    · have inv : Inv disks before r d := .inl ⟨done, working⟩
      cases action with
      | request =>
          obtain ⟨-, rfl⟩ := Option.ite_none_right_eq_some.mp taken |>.imp id Option.some.inj
          exact inv.enter
      | serve misses =>
          obtain ⟨-, rfl⟩ := Option.ite_none_right_eq_some.mp taken |>.imp id Option.some.inj
          exact inv.doHdRequest misses
      | resume =>
          rw [act] at taken
          split at taken
          next args isLoaded =>
            cases taken
            cases working.loaded args isLoaded
            have commanded : Inv disks before r (d.hdOutLba (r.argsAt disks done)) :=
              .inl ⟨done, working.hdOutLba⟩
            apply commanded.setStage
            intro args
            split <;> exact nofun
          next => cases taken
      | poll drq =>
          rw [act] at taken
          split at taken
          next =>
            split at taken
            next =>
              cases taken
              exact inv.portWrite.setStage nofun
            next =>
              cases taken
              exact inv.badRwIntr.enter
          next => cases taken
      | interrupt failed misses => exact working.interrupt undisturbed taken
      | scratch data => exact working.scratch taken
    · apply absurd _ running
      right
      rcases finished.ended with isFalse | ⟨isTrue, -⟩
      · rw [isFalse]
        rfl
      · rw [isTrue]
        rfl

/-- In a run in which `add_request`'s `do_hd_request` is not overtaken the request is served,
and no other sector is written to. -/
theorem served_of_undisturbed (disks : Disks) (before final : Driver) (r : Request)
    (fresh : before.Fresh r) (actions : List Action)
    (undisturbed : Lib.EveryStep (step disks) Undisturbed before actions)
    (reached : Lib.exec (step disks) before actions = some final) :
    Served disks before r final :=
  (Lib.exec_invariant (Inv disks before r) (fun _ _ _ inv allowed taken => inv.step allowed taken)
    fresh.inv undisturbed reached).served

/-! ## A run -/

/-- One disk with one partition from sector 100 on. -/
def oneDisk : Disks where
  nrHd := 1
  hd _ := ⟨100, 1000⟩
  head _ := 16

/-- Two sectors to write. -/
def twoSectors : Request where
  dev := 0x301
  cmd := .write
  errors := 0
  sector := 20
  nrSectors := 2
  buffer := 4096
  bLock := some true

/-- Its buffer holds ones in the first sector and twos behind, and the disk zeros. -/
def quiet : Driver where
  current := some twoSectors
  ended := none
  reset := false
  recalibrate := false
  doHd := none
  i := 0
  stage := .waiting
  job := .idle
  dataIn _ := 0
  dataOut _ := 0
  disk _ _ _ := 0
  touched := []
  mem a := if a < 4096 + 512 then 1 else 2
  panicked := false

theorem quiet_fresh : quiet.Fresh twoSectors :=
  ⟨rfl, by decide, rfl, .inl rfl, .inl rfl, rfl⟩

/-- The first error comes in the wait for `DRQ_STAT`, and the handler gives the command again.
The wait ends without, the request is read once more, and before its command the first
sector is written. -/
def overtaken : List Action :=
  [.request, .resume, .interrupt true 0, .poll false, .interrupt false 0, .resume, .poll true,
    .interrupt false 0]

/-- The request ends without an error, with its second half in place of the first. -/
theorem not_served_overtaken : ¬∀ disks before final r actions, before.Fresh r →
    Lib.exec (step disks) before actions = some final → Served disks before r final := by
  intro serves
  have ends : (Lib.exec (step oneDisk) quiet overtaken).map (fun d =>
      (d.ended, d.disk 0 120 0)) = some (some true, 2) := by
    decide +kernel
  obtain ⟨final, reached, facts⟩ := Option.map_eq_some_iff.mp ends
  have isEnded : final.ended = some true := congrArg Prod.fst facts
  have isTwo : final.disk 0 120 0 = 2 := congrArg Prod.snd facts
  have served := (serves oneDisk quiet final twoSectors overtaken quiet_fresh reached).transferred
    isEnded 0 (by decide)
  have isOne : final.disk 0 120 0 = 1 := congrFun served 0
  rw [isTwo] at isOne
  cases isOne

/-- A check that no transfer has success in front of a command. -/
def checkUndisturbed (d : Driver) (action : Action) : Bool :=
  match d.stage, action, d.job with
  | .loaded _, .interrupt false _, .transfer _ => false
  | _, _, _ => true

theorem undisturbed_of_check {action : Action} (checked : checkUndisturbed d action = true) :
    Undisturbed d action := by
  intro args misses t isLoaded isAction isTransfer
  simp [checkUndisturbed, isLoaded, isAction, isTransfer] at checked

/-- The error again, but `DRQ_STAT` comes. -/
def retried : List Action :=
  [.request, .resume, .interrupt true 0, .poll true, .interrupt false 0, .interrupt false 0]

theorem served_of_undisturbed_retried :
    ∃ final, Lib.exec (step oneDisk) quiet retried = some final ∧
      Served oneDisk quiet twoSectors final := by
  have runs : (Lib.exec (step oneDisk) quiet retried).isSome = true := by decide +kernel
  obtain ⟨final, reached⟩ := Option.isSome_iff_exists.mp runs
  exact ⟨final, reached, served_of_undisturbed oneDisk quiet final twoSectors quiet_fresh retried
    (Lib.everyStep_of_checkSteps checkUndisturbed (fun _ _ => undisturbed_of_check)
      (by decide +kernel)) reached⟩

end Linux012.BlkDrv.Hd
