import Linux012.BlkDrv.HdTransfers

/-!
# The partition of a request

`do_hd_request` ends a request with an error when two sectors behind its first one are not in
the partition any more, whatever the size of the request is.  So it refuses the last block of
a partition, and lets paging requests go on behind the end.
-/

namespace Linux012.BlkDrv.Hd

/-! ## What the controller is told -/

/-- What the registers say. -/
structure Command where
  drive : Nat
  sector : Nat
  count : Nat
  cmd : Cmd
  deriving DecidableEq, Repr

/-- The command of a transfer that begins: the registers have 28 bits for the sector. -/
def Transfer.command (t : Transfer) : Command :=
  ⟨t.drive, t.sector.toNat % 2 ^ 28, t.left.toNat % 256, t.cmd⟩

theorem Args.command_transfer (args : Args) (drive : args.drive < 2) :
    args.transfer.command.sector = lbaOf args.registers :=
  (args.lbaOf_registers_mod drive).symm

/-- The control commands that are due have success. -/
def controls (disks : Disks) : (left : Nat) → Driver → Driver
  | 0, d => d
  | left + 1, d =>
      if d.job = .control then
        controls disks left (({ d with job := .idle } : Driver).hdInterrupt disks false 0)
      else d

/-- The command that `do_hd_request` gives for the request, after `WIN_SPECIFY` for each
drive and `WIN_RESTORE` if these are due. -/
def issued (disks : Disks) (d : Driver) : Option Command :=
  match (controls disks (disks.nrHd + 1) (d.doHdRequest disks 0)).job with
  | .transfer t => some t.command
  | _ => none

/-! ## What is promised -/

/-- What `hd_init` and `sys_setup` leave: at most `MAX_HD` drives, of `HD0_HEAD` and
`HD1_HEAD` heads. -/
structure Disks.SetUp (disks : Disks) : Prop where
  nrHd : disks.nrHd ≤ 2
  head : ∀ drive < disks.nrHd, disks.head drive = 16

/-- A request in the queue of the hard disks. -/
structure Request.Queued (r : Request) : Prop where
  major : r.major = 3
  locked : r.bLock ≠ some false

instance (r : Request) : Decidable r.Queued :=
  decidable_of_iff (r.major = 3 ∧ r.bLock ≠ some false)
    ⟨fun ⟨major, locked⟩ => ⟨major, locked⟩, fun ⟨major, locked⟩ => ⟨major, locked⟩⟩

/-- A request as `make_request` or `ll_rw_page` makes it. -/
structure Request.Made (r : Request) : Prop extends r.Queued where
  count : r.nrSectors = 2 ∨ r.nrSectors = 8

/-- `CURRENT` is the request, and the controller has nothing to do. -/
structure Driver.Ready (d : Driver) (r : Request) : Prop where
  current : d.current = some r
  panicked : d.panicked = false
  job : d.job = .idle

/-- The whole range of the request is in its partition. -/
def Request.InPartition (r : Request) (disks : Disks) : Prop :=
  r.minor < 5 * disks.nrHd ∧
    (r.sector.toNat + r.nrSectors.toNat : Int) ≤ (disks.hd r.minor).nrSects.toInt

instance (r : Request) (disks : Disks) : Decidable (r.InPartition disks) :=
  inferInstanceAs (Decidable (_ ∧ _))

/-- The first sector of a partition. -/
def Disks.first (disks : Disks) (minor : Nat) : Nat := (disks.hd minor).startSect.toUInt32.toNat

/-- `hd_sizes[minor]`. -/
def Disks.size (disks : Disks) (minor : Nat) : Int := (disks.hd minor).nrSects.toInt / 2

/-- The command for what is left of a request when `done` sectors are transferred. -/
def Request.commandAt (r : Request) (disks : Disks) (done : Nat) : Command :=
  ⟨r.drive, disks.first r.minor + r.sector.toNat + done, r.nrSectors.toNat - done, r.cmd⟩

/-- All sectors of the command are in the partition. -/
def Command.Inside (c : Command) (disks : Disks) (minor : Nat) : Prop :=
  c.drive = minor / 5 ∧ ∀ sector, c.sector ≤ sector → sector < c.sector + c.count →
    disks.first minor ≤ sector ∧
      (sector : Int) < disks.first minor + (disks.hd minor).nrSects.toInt

/-- The driver accepts exactly the partition. -/
structure AcceptsPartition (disks : Disks) (r : Request) : Prop where
  sends : ∀ d : Driver, d.Ready r →
    issued disks d = if r.InPartition disks then some (r.commandAt disks 0) else none
  admitted : ∀ block : Nat, r.minor < 5 * disks.nrHd → (block : Int) < disks.size r.minor →
    r.sector.toNat = 2 * block → r.nrSectors = 2 →
    ∀ d : Driver, d.Ready r → issued disks d = some (r.commandAt disks 0)
  reissued : ∀ d : Driver, d.Ready r → issued disks d ≠ none →
    ∀ done < r.nrSectors.toNat, ∀ errors (d' : Driver), d'.Ready (r.advanced done errors) →
      ∀ c, issued disks d' = some c → c = r.commandAt disks done ∧ c.Inside disks r.minor

/-! ## What the driver looks at -/

/-- What `do_hd_request` does not refuse. -/
def Request.Passes (r : Request) (disks : Disks) : Prop :=
  ¬(5 * disks.nrHd ≤ r.minor ∨ (disks.hd r.minor).nrSects ≤ r.sector.toInt32 + 2)

instance (r : Request) (disks : Disks) : Decidable (r.Passes disks) :=
  inferInstanceAs (Decidable (¬_))

/-- What `hd_out_LBA` is called with. -/
def Request.args (r : Request) (disks : Disks) : Args where
  drive := r.minor / 5
  nsect := r.nrSectors.toInt32
  sector := r.sector.toInt32 + (disks.hd r.minor).startSect
  cmd := r.cmd

section Issued

variable {disks : Disks} {d : Driver} {r : Request}

theorem Request.Passes.drive (passes : r.Passes disks) : r.minor / 5 < disks.nrHd := by
  have := (not_or.mp passes).1
  omega

theorem controls_of_ne (left : Nat) (other : d.job ≠ .control) : controls disks left d = d := by
  cases left with
  | zero => rfl
  | succ left => rw [controls, if_neg other]

theorem prepare_refused (ready : d.Ready r) (queued : r.Queued) (refused : ¬r.Passes disks) :
    d.prepare disks = ({ d.endRequest false with doHd := none }, none) := by
  simp only [Driver.prepare, ready.current, queued.major, ne_eq, not_true_eq_false, if_false,
    queued.locked]
  rw [if_pos (not_not.mp refused)]

/-- A request that does not pass is ended, and the controller gets nothing. -/
theorem issued_of_refused (ready : d.Ready r) (queued : r.Queued) (refused : ¬r.Passes disks) :
    issued disks d = none := by
  have ends : d.doHdRequest disks 0 = { d.endRequest false with doHd := none } := by
    rw [Driver.doHdRequest, prepare_refused ready queued refused]
  have idle : (d.doHdRequest disks 0).job = .idle := by
    rw [ends]
    exact ready.job
  rw [issued, controls_of_ne _ (by rw [idle]; intro same; cases same), idle]

theorem prepare_passes (ready : d.Ready r) (queued : r.Queued) (passes : r.Passes disks) :
    d.prepare disks =
      if d.reset then (({ d with recalibrate := true } : Driver).resetHd disks id false, none)
      else if d.recalibrate then
        (({ d with recalibrate := false } : Driver).hdOut (r.minor / 5 : Nat) 0 .recalIntr, none)
      else (d, some (r.args disks)) := by
  simp only [Driver.prepare, ready.current, queued.major, ne_eq, not_true_eq_false, if_false,
    queued.locked]
  rw [if_neg passes]
  rfl

/-- With nothing due the command of the transfer is given at once. -/
theorem job_doHdRequest (setUp : disks.SetUp) (ready : d.Ready r) (queued : r.Queued)
    (passes : r.Passes disks) (noReset : d.reset = false) (calibrated : d.recalibrate = false) :
    (d.doHdRequest disks 0).job =
      .transfer { (r.args disks).transfer with hasData := decide (r.cmd = .write) } := by
  have drive : ¬1 < (r.args disks).drive := by
    have := setUp.nrHd
    have := passes.drive
    change ¬1 < r.minor / 5
    omega
  rw [Driver.doHdRequest, prepare_passes ready queued passes, noReset, calibrated]
  have cmd : (r.args disks).cmd = r.cmd := rfl
  cases isCmd : r.cmd <;>
    simp [cmd, isCmd, Driver.hdOutLba, drive, Driver.portWrite, ready.current, Args.transfer]

/-- `WIN_RESTORE` has success, and the command is given. -/
theorem job_recalibrated (left : Nat) (setUp : disks.SetUp) (ready : d.Ready r) (queued : r.Queued)
    (passes : r.Passes disks) (noReset : d.reset = false) :
    (controls disks (left + 1) (d.doHdRequest disks 0)).job =
      .transfer { (r.args disks).transfer with hasData := decide (r.cmd = .write) } := by
  cases calibrated : d.recalibrate with
  | false =>
      have begins := job_doHdRequest setUp ready queued passes noReset calibrated
      rw [controls_of_ne _ (by rw [begins]; nofun), begins]
  | true =>
      have drive : ¬(1 < ((r.minor / 5 : Nat) : Int) ∨ (15 : Int) < 0) := by
        have := setUp.nrHd
        have := passes.drive
        omega
      have restores : d.doHdRequest disks 0 =
          { d with recalibrate := false, doHd := some .recalIntr, job := .control } := by
        rw [Driver.doHdRequest, prepare_passes ready queued passes, noReset, calibrated]
        simp only [Bool.false_eq_true, if_false, if_true, Driver.hdOut, drive]
      rw [restores, controls, if_pos rfl]
      have ready' : ({ d with recalibrate := false, doHd := none, job := .idle } :
          Driver).Ready r := ⟨ready.current, ready.panicked, rfl⟩
      have begins := job_doHdRequest setUp ready' queued passes noReset rfl
      change (controls disks left (({ d with recalibrate := false, doHd := none, job := .idle } :
          Driver).doHdRequest disks 0)).job = _
      rw [controls_of_ne _ (by rw [begins]; nofun), begins]

/-- `WIN_SPECIFY` for drive `i` has success: the other drives follow, and then the request. -/
theorem job_specified {others i : Nat} (setUp : disks.SetUp) (queued : r.Queued)
    (passes : r.Passes disks) (current : d.current = some r) (panicked : d.panicked = false)
    (noReset : d.reset = false) (isControl : d.job = .control) (doHd : d.doHd = some .resetHd)
    (at_i : d.i = i) (count : i + others + 1 = disks.nrHd) :
    (controls disks (others + 2) d).job =
      .transfer { (r.args disks).transfer with hasData := decide (r.cmd = .write) } := by
  induction others generalizing d i with
  | zero =>
      have all : ¬(d.i + 1 < (disks.nrHd : Int)) := by omega
      have next : ({ d with job := .idle } : Driver).hdInterrupt disks false 0 =
          ({ d with i := d.i + 1, doHd := none, job := .idle } : Driver).doHdRequest disks 0 := by
        simp only [Driver.hdInterrupt, doHd, Driver.resetHd, noReset, Bool.false_eq_true, if_false,
          all]
      rw [controls, if_pos isControl, next]
      exact job_recalibrated 0 setUp ⟨current, panicked, rfl⟩ queued passes noReset
  | succ others ih =>
      have more : d.i + 1 < (disks.nrHd : Int) := by omega
      have heads : disks.head (d.i + 1).toNat = 16 := setUp.head _ (by omega)
      have fits : ¬((1 : Int) < d.i + 1 ∨ (15 : Int) < (disks.head (d.i + 1).toNat : Int) - 1) := by
        have := setUp.nrHd
        omega
      have next : ({ d with job := .idle } : Driver).hdInterrupt disks false 0 =
          { d with i := d.i + 1, doHd := some .resetHd, job := .control } := by
        simp only [Driver.hdInterrupt, doHd, Driver.resetHd, noReset, Bool.false_eq_true, if_false,
          more, if_true, Driver.hdOut, fits]
      rw [controls, if_pos isControl, next]
      exact @ih { d with i := d.i + 1, doHd := some .resetHd, job := .control } (i + 1) current
        panicked noReset rfl rfl (by simp [at_i]) (by omega)

/-- A request that passes gets its command, after a reset if one is due. -/
theorem issued_of_passes (setUp : disks.SetUp) (ready : d.Ready r) (queued : r.Queued)
    (passes : r.Passes disks) : issued disks d = some (r.args disks).transfer.command := by
  have begins : (controls disks (disks.nrHd + 1) (d.doHdRequest disks 0)).job =
      .transfer { (r.args disks).transfer with hasData := decide (r.cmd = .write) } := by
    cases due : d.reset with
    | false => exact job_recalibrated _ setUp ready queued passes due
    | true =>
        have drives : 0 < disks.nrHd := Nat.zero_lt_of_lt passes.drive
        have resets : d.doHdRequest disks 0 =
            { d with
              reset := false
              recalibrate := true
              i := 0
              doHd := some .resetHd
              job := .control } := by
          rw [Driver.doHdRequest, prepare_passes ready queued passes, due]
          simp [Driver.resetHd, Driver.beginReset, drives, Driver.hdOut, setUp.head 0 drives]
        obtain ⟨others, count⟩ : ∃ others, disks.nrHd = others + 1 :=
          ⟨disks.nrHd - 1, by omega⟩
        rw [resets, count]
        exact @job_specified disks _ r others 0 setUp queued passes ready.current ready.panicked rfl
          rfl rfl rfl (by omega)
  rw [issued, begins]
  rfl

end Issued

/-! ## When the two agree -/

/-- The partition does not end between what the request needs and what the driver looks at,
and no sector of the request has more than 28 bits; a sector that is negative as `int` is
refused. -/
def Request.Placed (r : Request) (disks : Disks) : Prop :=
  5 * disks.nrHd ≤ r.minor ∨
    if r.sector.toNat + 2 < 2 ^ 31 then
      (disks.hd r.minor).nrSects.toInt < (r.sector.toNat + min r.nrSectors.toNat 3 : Nat) ∨
      (r.sector.toNat + max r.nrSectors.toNat 3 : Nat) ≤ (disks.hd r.minor).nrSects.toInt ∧
        ∀ done < r.nrSectors.toNat, (r.advanced done 0).Passes disks →
          disks.first r.minor + r.sector.toNat + done < 2 ^ 28
    else (disks.hd r.minor).nrSects.toInt ≤ (r.sector.toInt32 + 2).toInt

section Placed

variable {disks : Disks} {d : Driver} {r : Request} {done : Nat}

theorem command_args : (r.args disks).transfer.command =
    ⟨r.drive, (disks.first r.minor + r.sector.toNat) % 2 ^ 28, r.nrSectors.toNat % 256, r.cmd⟩ := by
  have sector : (r.sector.toInt32 + (disks.hd r.minor).startSect).toUInt32 =
      (disks.hd r.minor).startSect.toUInt32 + r.sector := UInt32.add_comm ..
  have value : (r.sector.toInt32 + (disks.hd r.minor).startSect).toUInt32.toNat % 2 ^ 28 =
      (disks.first r.minor + r.sector.toNat) % 2 ^ 28 := by
    rw [sector, UInt32.toNat_add, Disks.first]
    omega
  rw [Transfer.command, Args.transfer]
  exact congrArg (fun sector => (⟨_, sector, _, _⟩ : Command)) value

/-- The sum as `int`, where it does not overflow. -/
theorem toInt_sector (small : r.sector.toNat + 2 < 2 ^ 31) :
    (r.sector.toInt32 + 2).toInt = r.sector.toNat + 2 := by
  have two : (2 : Int32).toInt = 2 := rfl
  have bits : r.sector.toInt32.toBitVec = r.sector.toBitVec := rfl
  have value : r.sector.toBitVec.toNat = r.sector.toNat := rfl
  rw [Int32.toInt_add, two, Int32.toInt, bits, BitVec.toInt_eq_toNat_bmod, value, Int.bmod_def,
    Int.bmod_def]
  omega

theorem passes_iff (small : r.sector.toNat + 2 < 2 ^ 31) : r.Passes disks ↔
    r.minor < 5 * disks.nrHd ∧ (r.sector.toNat + 3 : Int) ≤ (disks.hd r.minor).nrSects.toInt := by
  rw [Request.Passes, not_or, Nat.not_le, Int32.le_iff_toInt_le, toInt_sector small]
  omega

theorem Request.Made.count_toNat (made : r.Made) :
    r.nrSectors.toNat = 2 ∨ r.nrSectors.toNat = 8 :=
  made.count.imp (congrArg UInt32.toNat) (congrArg UInt32.toNat)

/-- Behind the last `int` there is no partition. -/
theorem not_inPartition (made : r.Made) (large : ¬r.sector.toNat + 2 < 2 ^ 31) :
    ¬r.InPartition disks := by
  intro inside
  have := inside.2
  have := made.count_toNat
  have := (disks.hd r.minor).nrSects.toInt_lt
  omega

theorem Request.Placed.agrees (placed : r.Placed disks) (made : r.Made) :
    r.Passes disks ↔ r.InPartition disks := by
  rcases placed with absent | placed
  · rw [Request.Passes, Request.InPartition]
    exact iff_of_false (fun passes => passes (.inl absent)) fun inside =>
      Nat.not_lt.mpr absent inside.1
  have count := made.count_toNat
  split at placed
  · rename_i small
    rw [passes_iff small, Request.InPartition]
    omega
  · rename_i large
    refine iff_of_false (fun passes => passes (.inr ?_)) (not_inPartition made large)
    exact Int32.le_iff_toInt_le.mpr placed

theorem Request.Placed.address (placed : r.Placed disks) (made : r.Made)
    (inside : r.InPartition disks) (below : done < r.nrSectors.toNat)
    (passes : (r.advanced done 0).Passes disks) :
    disks.first r.minor + r.sector.toNat + done < 2 ^ 28 := by
  rcases placed with absent | placed
  · exact absurd inside.1 (Nat.not_lt.mpr absent)
  split at placed
  · rcases placed with short | ⟨-, address⟩
    · have := inside.2
      have := made.count_toNat
      omega
    · exact address done below passes
  · rename_i large
    exact absurd inside (not_inPartition made large)

theorem placed_of_agrees (made : r.Made) (agrees : r.Passes disks ↔ r.InPartition disks)
    (address : r.InPartition disks → ∀ done < r.nrSectors.toNat,
      (r.advanced done 0).Passes disks → disks.first r.minor + r.sector.toNat + done < 2 ^ 28) :
    r.Placed disks := by
  by_cases absent : 5 * disks.nrHd ≤ r.minor
  · exact .inl absent
  refine .inr ?_
  have count := made.count_toNat
  split
  · rename_i small
    by_cases inside : r.InPartition disks
    · have passes := agrees.mpr inside
      rw [passes_iff small] at passes
      have := inside.2
      exact .inr ⟨by omega, address inside⟩
    · have refused := mt agrees.mp inside
      rw [passes_iff small] at refused
      rw [Request.InPartition] at inside
      exact .inl (by omega)
  · rename_i large
    have refused := mt agrees.mp (not_inPartition made large)
    exact Int32.le_iff_toInt_le.mp ((not_not.mp refused).resolve_left absent)

/-- What is left of the request gets the rest of its sectors. -/
theorem command_advanced (made : r.Made) (inside : r.InPartition disks) (errors : Nat)
    (below : done < r.nrSectors.toNat)
    (address : disks.first r.minor + r.sector.toNat + done < 2 ^ 28) :
    ((r.advanced done errors).args disks).transfer.command = r.commandAt disks done := by
  have count := made.count_toNat
  have bound := inside.2
  have limit := (disks.hd r.minor).nrSects.toInt_lt
  have done_toNat : (UInt32.ofNat done).toNat = done := UInt32.toNat_ofNat_of_lt' (by
    change done < 2 ^ 32
    omega)
  have sector : (r.sector + UInt32.ofNat done).toNat = r.sector.toNat + done := by
    rw [UInt32.toNat_add, done_toNat, Nat.mod_eq_of_lt (by omega)]
  have left : (r.nrSectors - UInt32.ofNat done).toNat = r.nrSectors.toNat - done := by
    rw [UInt32.toNat_sub_of_le _ _ (UInt32.le_iff_toNat_le.mpr (by omega)), done_toNat]
  rw [command_args, Request.commandAt]
  change (⟨_, (disks.first r.minor + (r.sector + UInt32.ofNat done).toNat) % 2 ^ 28,
    (r.nrSectors - UInt32.ofNat done).toNat % 256, _⟩ : Command) = _
  rw [sector, left, ← Nat.add_assoc, Nat.mod_eq_of_lt address, Nat.mod_eq_of_lt (by omega)]
  rfl

theorem args_advanced_zero : (r.advanced 0 0).args disks = r.args disks := by
  have sector : r.sector + UInt32.ofNat 0 = r.sector := UInt32.add_zero r.sector
  have left : r.nrSectors - UInt32.ofNat 0 = r.nrSectors := UInt32.sub_zero r.nrSectors
  rw [Request.args, Request.args, Request.advanced, sector, left]
  rfl

theorem commandAt_inside (inside : r.InPartition disks) (below : done < r.nrSectors.toNat) :
    (r.commandAt disks done).Inside disks r.minor := by
  refine ⟨rfl, fun sector above before => ?_⟩
  have := inside.2
  change disks.first r.minor + r.sector.toNat + done ≤ sector at above
  change sector < disks.first r.minor + r.sector.toNat + done + (r.nrSectors.toNat - done) at before
  omega

theorem exists_ready (r : Request) : ∃ d : Driver, d.Ready r :=
  ⟨{ quiet with current := some r }, rfl, rfl, rfl⟩

/-- The driver accepts exactly the partition for the requests that are placed so, and for no
other. -/
theorem acceptsPartition_iff (setUp : disks.SetUp) (made : r.Made) :
    AcceptsPartition disks r ↔ r.Placed disks := by
  have count := made.count_toNat
  have advancedQueued (done errors : Nat) : (r.advanced done errors).Queued :=
    ⟨made.major, made.locked⟩
  constructor
  · intro accepts
    obtain ⟨d, ready⟩ := exists_ready r
    have agrees : r.Passes disks ↔ r.InPartition disks := by
      have sends := accepts.sends d ready
      by_cases passes : r.Passes disks <;> by_cases inside : r.InPartition disks
      · exact iff_of_true passes inside
      · rw [if_neg inside, issued_of_passes setUp ready made.toQueued passes] at sends
        cases sends
      · rw [if_pos inside, issued_of_refused ready made.toQueued passes] at sends
        cases sends
      · exact iff_of_false passes inside
    refine placed_of_agrees made agrees fun inside done below passes => ?_
    obtain ⟨d', ready'⟩ := exists_ready (r.advanced done 0)
    have given := issued_of_passes setUp ready' (advancedQueued done 0) passes
    have first := issued_of_passes setUp ready made.toQueued (agrees.mpr inside)
    obtain ⟨same, -⟩ := accepts.reissued d ready (by rw [first]; nofun) done below 0 d' ready' _
      given
    have sector := congrArg Command.sector same
    rw [command_args] at sector
    have small : (_ : Nat) % 2 ^ 28 = disks.first r.minor + r.sector.toNat + done := sector
    rw [← small]
    exact Nat.mod_lt _ (by decide)
  · intro placed
    have agrees := placed.agrees made
    have whole (inside : r.InPartition disks) :
        (r.args disks).transfer.command = r.commandAt disks 0 := by
      have passes : (r.advanced 0 0).Passes disks := by
        have sector : (r.advanced 0 0).sector = r.sector := UInt32.add_zero r.sector
        rw [Request.Passes, sector]
        exact agrees.mpr inside
      have below : 0 < r.nrSectors.toNat := by omega
      have same := command_advanced made inside 0 below (placed.address made inside below passes)
      rwa [args_advanced_zero] at same
    have sends (d : Driver) (ready : d.Ready r) :
        issued disks d = if r.InPartition disks then some (r.commandAt disks 0) else none := by
      by_cases inside : r.InPartition disks
      · rw [if_pos inside, issued_of_passes setUp ready made.toQueued (agrees.mpr inside),
          whole inside]
      · rw [if_neg inside, issued_of_refused ready made.toQueued (mt agrees.mp inside)]
    refine ⟨sends, ?_, ?_⟩
    · intro block present small sector two d ready
      have inside : r.InPartition disks := by
        refine ⟨present, ?_⟩
        rw [Disks.size] at small
        have := congrArg UInt32.toNat two
        have two : (2 : UInt32).toNat = 2 := rfl
        omega
      rw [sends d ready, if_pos inside]
    · intro d ready sent done below errors d' ready' c given
      have inside : r.InPartition disks := by
        by_contra outside
        rw [sends d ready, if_neg outside] at sent
        exact sent rfl
      have passes : (r.advanced done errors).Passes disks := by
        by_contra refused
        rw [issued_of_refused ready' (advancedQueued done errors) refused] at given
        cases given
      rw [issued_of_passes setUp ready' (advancedQueued done errors) passes] at given
      have same := command_advanced made inside errors below
        (placed.address made inside below passes)
      rw [same] at given
      cases given
      exact ⟨rfl, commandAt_inside inside below⟩

end Placed

/-! ## The last block -/

theorem oneDisk_setUp : oneDisk.SetUp := ⟨by decide, fun _ _ => rfl⟩

theorem acceptsPartition_twoSectors : AcceptsPartition oneDisk twoSectors := by
  refine (acceptsPartition_iff oneDisk_setUp ⟨⟨rfl, by decide⟩, .inl rfl⟩).mpr (.inr ?_)
  rw [if_pos (by decide)]
  refine .inr ⟨by decide, fun done below _ => ?_⟩
  have below : done < 2 := below
  change 100 + 20 + done < 2 ^ 28
  omega

/-- The last block of the partition. -/
def lastBlock : Request := { twoSectors with sector := 998 }

theorem not_acceptsPartition_lastBlock :
    ¬∀ (disks : Disks) (r : Request), disks.SetUp → r.Made → AcceptsPartition disks r := by
  intro accepts
  have made : lastBlock.Made := ⟨⟨rfl, by decide⟩, .inl rfl⟩
  obtain ⟨d, ready⟩ := exists_ready lastBlock
  have given := (accepts oneDisk lastBlock oneDisk_setUp made).admitted 499 (by decide)
    (by decide) (by decide) (by decide) d ready
  rw [issued_of_refused ready made.toQueued (by decide)] at given
  cases given

end Linux012.BlkDrv.Hd
