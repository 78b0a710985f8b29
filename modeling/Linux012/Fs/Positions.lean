import Mathlib.Data.Nat.Notation
import Mathlib.Logic.Function.Basic
import Mathlib.Algebra.Group.Int.Defs
import Linux012.Lib.Run
import Linux012.Lib.Sizes

/-!
# File positions

`sys_lseek` of `read_write.c` and `file_write` of `file_dev.c` on one regular file, with the checks
that `_bmap` makes of the block.  Positions are signed and sizes are not.
-/

namespace Linux012.Fs.Positions

abbrev nrOpen : UInt32 := 20
abbrev oAppend : UInt16 := 0x400
abbrev blockSize : Int32 := 1024

/-- The blocks that `_bmap` can map. -/
abbrev bigBlock : Int32 := 7 + 512 + 512 * 512

abbrev eBadF : Int32 := 9
abbrev eInval : Int32 := 22

/-- `struct file`. -/
structure OpenFile where
  fFlags : UInt16
  fPos : Int32
  deriving DecidableEq, Repr

/-- A regular file, and `current->filp[]`, as far as it has this file. -/
structure RegularFile where
  iDev : UInt16
  iSize : UInt32
  filp : UInt32 → Option OpenFile

/-- `IS_SEEKABLE(MAJOR(dev))`. -/
def isSeekable (dev : UInt16) : Bool :=
  let major : UInt16 := dev >>> 8
  decide (1 ≤ major ∧ major ≤ 3)

namespace RegularFile

def setPos (file : RegularFile) (fd : UInt32) (filp : OpenFile) (pos : Int32) : RegularFile :=
  { file with filp := Function.update file.filp fd (some { filp with fPos := pos }) }

/-- `sys_lseek`. -/
def sysLseek (file : RegularFile) (fd : UInt32) (offset origin : Int32) : RegularFile × Int32 :=
  if fd ≥ nrOpen then (file, -eBadF)
  else
    match file.filp fd with
    | none => (file, -eBadF)
    | some filp =>
        if ¬isSeekable file.iDev then (file, -eBadF)
        else if origin = 0 then
          if offset < 0 then (file, -eInval) else (file.setPos fd filp offset, offset)
        else if origin = 1 then
          if filp.fPos + offset < 0 then (file, -eInval)
          else (file.setPos fd filp (filp.fPos + offset), filp.fPos + offset)
        else if origin = 2 then
          let tmp := (file.iSize + offset.toUInt32).toInt32
          if tmp < 0 then (file, -eInval) else (file.setPos fd filp tmp, tmp)
        else (file, -eInval)

end RegularFile

/-- The loop of `file_write`: `pos`, `i` and the size behind it.  `given` is how often
`create_block` and `bread` give a buffer before one of them fails.  A panic of `_bmap` is `none`. -/
def writeLoop (count : Int32) : (fuel given : Nat) → (pos i : Int32) → (iSize : UInt32) →
    Option (Int32 × Int32 × UInt32)
  | 0, _, pos, i, iSize => some (pos, i, iSize)
  | fuel + 1, given, pos, i, iSize =>
      if i < count then
        if pos / blockSize < 0 then none -- "_bmap: block<0"
        else if pos / blockSize ≥ bigBlock then none -- "_bmap: block>big"
        else
          match given with
          | 0 => some (pos, i, iSize)
          | given + 1 =>
              let c := blockSize - pos % blockSize
              let c := if c > count - i then count - i else c
              let pos := pos + c
              let iSize := if pos.toUInt32 > iSize then pos.toUInt32 else iSize
              writeLoop count fuel given pos (i + c) iSize
      else some (pos, i, iSize)

/-- Where `file_write` starts. -/
def RegularFile.start (file : RegularFile) (filp : OpenFile) : Int32 :=
  if filp.fFlags &&& oAppend ≠ 0 then file.iSize.toInt32 else filp.fPos

/-- `file_write`. -/
def RegularFile.fileWrite (file : RegularFile) (fd : UInt32) (filp : OpenFile) (count : Int32)
    (given : Nat) : Option (RegularFile × Int32) := do
  let (pos, i, iSize) ←
    writeLoop count count.toInt.toNat given (file.start filp) 0 file.iSize
  let file := { file with iSize := iSize }
  let file := if filp.fFlags &&& oAppend = 0 then file.setPos fd filp pos else file
  return (file, if i ≠ 0 then i else -1)

/-- `sys_write`. -/
def RegularFile.sysWrite (file : RegularFile) (fd : UInt32) (count : Int32) (given : Nat) :
    Option (RegularFile × Int32) :=
  if fd ≥ nrOpen ∨ count < 0 then some (file, -eInval)
  else
    match file.filp fd with
    | none => some (file, -eInval)
    | some filp => if count = 0 then some (file, 0) else file.fileWrite fd filp count given

inductive Call where
  | lseek (fd : UInt32) (offset origin : Int32)
  | write (fd : UInt32) (count : Int32) (given : Nat)

/-- One call.  There is no file behind a panic. -/
def step (file : RegularFile) : Call → Option RegularFile
  | .lseek fd offset origin => some (file.sysLseek fd offset origin).1
  | .write fd count given => (file.sysWrite fd count given).map Prod.fst

/-! ## What is promised -/

/-- No position is negative. -/
def Positive (file : RegularFile) : Prop :=
  ∀ fd filp, file.filp fd = some filp → 0 ≤ filp.fPos

/-- The call does not panic, and leaves no negative position. -/
def Safe (file : RegularFile) (call : Call) : Prop :=
  ∃ after, step file call = some after ∧ Positive after

/-- The range starts in a block that `_bmap` can map, and it ends there, or the device gives no more
blocks before its end. -/
def Mapped (start count : Int) (given : Nat) : Prop :=
  0 ≤ start.tdiv 1024 ∧ start.tdiv 1024 < 262663 ∧
    (start + count ≤ 1024 * 262663 ∨ start.tdiv 1024 + given < 262663)

/-- The condition on one call. -/
def InRange (file : RegularFile) : Call → Prop
  | .lseek .. => True
  | .write fd count given => fd < nrOpen → 0 < count → ∀ filp, file.filp fd = some filp →
      Mapped (file.start filp).toInt count.toInt given

/-! ## The loop -/

section Loop

variable {count pos i : Int32} {iSize : UInt32} {fuel given : Nat}

theorem toInt_sub_of_bounds {left right : Int32} (low : -2 ^ 31 ≤ left.toInt - right.toInt)
    (high : left.toInt - right.toInt < 2 ^ 31) :
    (left - right).toInt = left.toInt - right.toInt := by
  rw [Int32.toInt_sub]
  exact Int.bmod_eq_of_le (by omega) (by omega)

theorem toInt_add_of_bounds {left right : Int32} (low : -2 ^ 31 ≤ left.toInt + right.toInt)
    (high : left.toInt + right.toInt < 2 ^ 31) :
    (left + right).toInt = left.toInt + right.toInt := by
  rw [Int32.toInt_add]
  exact Int.bmod_eq_of_le (by omega) (by omega)

/-- The number of the block is in front of the bytes of the block. -/
theorem toInt_split (pos : Int32) : 1024 * pos.toInt.tdiv 1024 + pos.toInt.tmod 1024 = pos.toInt ∧
    -1024 < pos.toInt.tmod 1024 ∧ pos.toInt.tmod 1024 < 1024 ∧
      (0 ≤ pos.toInt → 0 ≤ pos.toInt.tmod 1024) := by
  refine ⟨Int.mul_tdiv_add_tmod _ _, Int.lt_tmod_of_pos _ (by decide),
    Int.tmod_lt_of_pos _ (by decide), fun pos => Int.tmod_nonneg _ pos⟩

theorem toInt_block (pos : Int32) : (pos / blockSize).toInt = pos.toInt.tdiv 1024 :=
  Int32.toInt_div_of_ne_right pos blockSize (by decide)

theorem block_lt_zero_iff : pos / blockSize < 0 ↔ pos.toInt.tdiv 1024 < 0 := by
  rw [Int32.lt_iff_toInt_lt, toInt_block]
  rfl

theorem block_ge_bigBlock_iff : pos / blockSize ≥ bigBlock ↔ 262663 ≤ pos.toInt.tdiv 1024 := by
  rw [ge_iff_le, Int32.le_iff_toInt_le, toInt_block]
  rfl

/-- The bytes of one round. -/
def chunk (count pos i : Int32) : Int32 :=
  if blockSize - pos % blockSize > count - i then count - i else blockSize - pos % blockSize

theorem toInt_chunk (positive : 0 ≤ i.toInt) (less : i.toInt < count.toInt) :
    (chunk count pos i).toInt = min (1024 - pos.toInt.tmod 1024) (count.toInt - i.toInt) := by
  obtain ⟨-, low, high, -⟩ := toInt_split pos
  have ltCount := count.toInt_lt
  have size : blockSize.toInt = 1024 := rfl
  have offset : (pos % blockSize).toInt = pos.toInt.tmod 1024 := Int32.toInt_mod ..
  have room : (blockSize - pos % blockSize).toInt = 1024 - pos.toInt.tmod 1024 := by
    rw [toInt_sub_of_bounds, size, offset] <;> rw [size, offset] <;> omega
  have left : (count - i).toInt = count.toInt - i.toInt :=
    toInt_sub_of_bounds (by omega) (by omega)
  have isLess : blockSize - pos % blockSize > count - i ↔
      count.toInt - i.toInt < 1024 - pos.toInt.tmod 1024 := by
    rw [gt_iff_lt, Int32.lt_iff_toInt_lt, room, left]
  rw [chunk]
  split
  next last =>
    have := isLess.mp last
    rw [left]
    omega
  next notLast =>
    have := isLess.not.mp notLast
    rw [room]
    omega

/-- Behind a round the next block is as good as this one. -/
theorem mapped_next {start left c : Int} {given : Nat} (notLess : 0 ≤ start.tdiv 1024)
    (less : start.tdiv 1024 < 262663) (isChunk : c = min (1024 - start.tmod 1024) left)
    (isSplit : 1024 * start.tdiv 1024 + start.tmod 1024 = start) (more : 0 < left) :
    (0 < left - c ∧ ¬Mapped (start + c) (left - c) given) ↔
      (0 < left ∧ ¬Mapped start left (given + 1)) := by
  by_cases last : left ≤ 1024 - start.tmod 1024
  · have mapped : Mapped start left (given + 1) := ⟨notLess, less, .inl (by omega)⟩
    exact iff_of_false (by omega) fun panics => panics.2 mapped
  · have isNext : start + c = (start.tdiv 1024 + 1) * 1024 := by omega
    have block : (start + c).tdiv 1024 = start.tdiv 1024 + 1 := by
      rw [isNext, Int.mul_tdiv_cancel _ (by decide)]
    rw [Mapped, Mapped, block]
    omega

/-- The loop panics when it reaches a block that `_bmap` cannot map. -/
theorem writeLoop_spec (positive : 0 ≤ i.toInt) (less : i.toInt ≤ count.toInt)
    (enough : count.toInt - i.toInt ≤ fuel) :
    (writeLoop count fuel given pos i iSize = none ↔
      i.toInt < count.toInt ∧ ¬Mapped pos.toInt (count.toInt - i.toInt) given) ∧
    ∀ after, writeLoop count fuel given pos i iSize = some after →
      0 ≤ pos.toInt → 0 ≤ after.1.toInt := by
  induction fuel generalizing given pos i iSize with
  | zero =>
      have allWritten : ¬i.toInt < count.toInt := by omega
      rw [writeLoop]
      refine ⟨iff_of_false (by simp) fun panics => allWritten panics.1, ?_⟩
      rintro after ⟨⟩ pos
      exact pos
  | succ fuel ih =>
      obtain ⟨isSplit, low, high, sign⟩ := toInt_split pos
      rw [writeLoop.eq_def]
      dsimp only
      by_cases more : i.toInt < count.toInt
      · rw [if_pos (Int32.lt_iff_toInt_lt.mpr more)]
        by_cases negative : pos.toInt.tdiv 1024 < 0
        · rw [if_pos (block_lt_zero_iff.mpr negative)]
          refine ⟨iff_of_true rfl ⟨more, fun mapped => ?_⟩, fun _ impossible => nomatch impossible⟩
          exact absurd mapped.1 (by omega)
        rw [if_neg (block_lt_zero_iff.not.mpr negative)]
        by_cases big : 262663 ≤ pos.toInt.tdiv 1024
        · rw [if_pos (block_ge_bigBlock_iff.mpr big)]
          refine ⟨iff_of_true rfl ⟨more, fun mapped => ?_⟩, fun _ impossible => nomatch impossible⟩
          exact absurd mapped.2.1 (by omega)
        rw [if_neg (block_ge_bigBlock_iff.not.mpr big)]
        cases given with
        | zero =>
            refine ⟨iff_of_false (by simp) fun panics => panics.2 ?_, ?_⟩
            · exact ⟨by omega, by omega, .inr (by omega)⟩
            · rintro after ⟨⟩ pos
              exact pos
        | succ given =>
            dsimp only
            have isChunk := @toInt_chunk count pos i positive more
            rw [chunk] at isChunk
            generalize (if blockSize - pos % blockSize > count - i then count - i
              else blockSize - pos % blockSize) = c at isChunk
            have ltCount := count.toInt_lt
            have isPos : (pos + c).toInt = pos.toInt + c.toInt :=
              toInt_add_of_bounds (by omega) (by omega)
            have isWritten : (i + c).toInt = i.toInt + c.toInt :=
              toInt_add_of_bounds (by omega) (by omega)
            obtain ⟨panics, ends⟩ := @ih (pos + c) (i + c)
              (if (pos + c).toUInt32 > iSize then (pos + c).toUInt32 else iSize) given
              (by omega) (by omega) (by omega)
            refine ⟨panics.trans ?_, fun after ran isPositive => ends after ran (by omega)⟩
            have next := @mapped_next pos.toInt (count.toInt - i.toInt) c.toInt given
              (by omega) (by omega) isChunk isSplit (by omega)
            have same : count.toInt - (i.toInt + c.toInt) = count.toInt - i.toInt - c.toInt := by
              omega
            rw [isPos, isWritten, same, ← Int.sub_pos, ← Int.sub_pos (a := count.toInt), same]
            exact next
      · rw [if_neg (Int32.lt_iff_toInt_lt.not.mpr more)]
        refine ⟨iff_of_false (by simp) fun panics => more panics.1, ?_⟩
        rintro after ⟨⟩ pos
        exact pos

end Loop

/-! ## One call -/

section Calls

variable {file after : RegularFile} {fd : UInt32} {filp : OpenFile}

theorem Positive.setPos (positive : Positive file) {pos : Int32} (isPos : 0 ≤ pos) :
    Positive (file.setPos fd filp pos) := by
  intro slot other isOpen
  have updated : Function.update file.filp fd (some { filp with fPos := pos }) slot = some other :=
    isOpen
  by_cases here : slot = fd
  · subst here
    rw [Function.update_self] at updated
    cases updated
    exact isPos
  · rw [Function.update_of_ne here] at updated
    exact positive slot other updated

/-- Each of the three origins looks at the sign of the new position. -/
theorem Positive.sysLseek (positive : Positive file) (offset origin : Int32) :
    Positive (file.sysLseek fd offset origin).1 := by
  rw [RegularFile.sysLseek]
  split
  · exact positive
  split
  · exact positive
  split
  · exact positive
  split
  · split
    · exact positive
    next notNegative => exact positive.setPos (Int32.not_lt.mp notNegative)
  split
  · split
    · exact positive
    next notNegative => exact positive.setPos (Int32.not_lt.mp notNegative)
  split
  · dsimp only
    split
    · exact positive
    next notNegative => exact positive.setPos (Int32.not_lt.mp notNegative)
  · exact positive

theorem fileWrite_spec (positive : Positive file) (isOpen : file.filp fd = some filp)
    {count : Int32} (given : Nat) (more : 0 < count) :
    (file.fileWrite fd filp count given = none ↔
      ¬Mapped (file.start filp).toInt count.toInt given) ∧
    ∀ result, file.fileWrite fd filp count given = some result → Positive result.1 := by
  have isMore : 0 < count.toInt := Int32.lt_iff_toInt_lt.mp more
  have zero : (0 : Int32).toInt = 0 := rfl
  obtain ⟨panics, ends⟩ := @writeLoop_spec count (file.start filp) 0 file.iSize
    count.toInt.toNat given (by omega) (by omega) (by omega)
  rw [zero, Int.sub_zero] at panics
  rw [RegularFile.fileWrite]
  cases ran : writeLoop count count.toInt.toNat given (file.start filp) 0 file.iSize with
  | none => exact ⟨iff_of_true rfl (panics.mp ran).2, fun _ impossible => nomatch impossible⟩
  | some written =>
      have mapped : Mapped (file.start filp).toInt count.toInt given := by
        by_contra notMapped
        cases ran.symm.trans (panics.mpr ⟨isMore, notMapped⟩)
      refine ⟨iff_of_false (fun impossible => nomatch impossible) (not_not.mpr mapped), ?_⟩
      rintro result ⟨⟩
      dsimp only
      split
      next seeks =>
        have isStart : file.start filp = filp.fPos := if_neg (not_not.mpr seeks)
        rw [isStart] at ran ends
        have notLess := Int32.le_iff_toInt_le.mp (positive fd filp isOpen)
        have grown : Positive { file with iSize := written.2.2 } := positive
        exact grown.setPos (Int32.le_iff_toInt_le.mpr (ends written ran notLess))
      next => exact positive

/-- Positions stay positive, whether or not a panic comes later. -/
theorem Positive.step {call : Call} (positive : Positive file)
    (taken : step file call = some after) : Positive after := by
  cases call with
  | lseek fd offset origin =>
      cases taken
      exact positive.sysLseek offset origin
  | write fd count given =>
      obtain ⟨result, ran, rfl⟩ := Option.map_eq_some_iff.mp taken
      rw [RegularFile.sysWrite] at ran
      split at ran
      · cases ran
        exact positive
      next accepted =>
        split at ran
        · cases ran
          exact positive
        next filp isOpen =>
          split at ran
          · cases ran
            exact positive
          next some =>
            have notNegative : 0 ≤ count := Int32.not_lt.mp (not_or.mp accepted).2
            have more : 0 < count := Int32.lt_of_le_of_ne notNegative (Ne.symm some)
            exact (fileWrite_spec positive isOpen given more).2 result ran

/-- A call is safe exactly when its range is. -/
theorem safe_iff_inRange (positive : Positive file) (call : Call) :
    Safe file call ↔ InRange file call := by
  have isSafe : Safe file call ↔ Positions.step file call ≠ none := by
    rw [Safe]
    constructor
    · rintro ⟨after, taken, -⟩ panics
      cases panics.symm.trans taken
    · intro noPanic
      obtain ⟨after, taken⟩ := Option.ne_none_iff_exists'.mp noPanic
      exact ⟨after, taken, positive.step taken⟩
  rw [isSafe]
  cases call with
  | lseek fd offset origin => exact iff_of_true (fun impossible => nomatch impossible) trivial
  | write fd count given =>
      rw [Positions.step, ne_eq, Option.map_eq_none_iff, RegularFile.sysWrite, InRange]
      by_cases isFd : fd < nrOpen
      · by_cases more : 0 < count
        · have accepted : ¬(fd ≥ nrOpen ∨ count < 0) :=
            not_or.mpr ⟨UInt32.not_le.mpr isFd, Int32.not_lt.mpr (Int32.le_of_lt more)⟩
          rw [if_neg accepted]
          cases isOpen : file.filp fd with
          | none => exact iff_of_true (fun impossible => nomatch impossible) (by simp)
          | some filp =>
              have notZero : count ≠ 0 := Ne.symm (Int32.ne_of_lt more)
              dsimp only
              rw [if_neg notZero, (fileWrite_spec positive isOpen given more).1, not_not]
              exact ⟨fun mapped _ _ _ same => Option.some.inj same ▸ mapped,
                fun mapped => mapped isFd more filp rfl⟩
        · refine iff_of_true ?_ fun _ isMore => absurd isMore more
          have notMore : count < 0 ∨ count = 0 :=
            (Int.lt_or_eq_of_le (Int32.le_iff_toInt_le.mp (Int32.not_lt.mp more))).imp
              Int32.lt_iff_toInt_lt.mpr Int32.toInt_inj.mp
          split
          · exact fun impossible => nomatch impossible
          next accepted =>
            have isZero : count = 0 := notMore.resolve_left (not_or.mp accepted).2
            split
            · exact fun impossible => nomatch impossible
            · rw [if_pos isZero]
              exact fun impossible => nomatch impossible
      · rw [if_pos (.inl (UInt32.not_lt.mp isFd))]
        exact iff_of_true (fun impossible => nomatch impossible) fun isLess => absurd isLess isFd

end Calls

/-! ## Whole runs -/

/-- In a run of `sys_lseek` and `sys_write` nothing panics and no position is negative exactly when
every `sys_write` is in range. -/
theorem positions_iff_inRange (file : RegularFile) (positive : Positive file)
    (calls : List Call) :
    Lib.EveryStep step Safe file calls ↔ Lib.EveryStep step InRange file calls :=
  Lib.everyStep_iff Positive (fun _ call positive _ => safe_iff_inRange positive call)
    (fun _ _ _ positive _ _ taken => positive.step taken) positive
    (Lib.everyStep_of_forall (fun _ _ => trivial) file calls)

/-- A file of which descriptor 3 is open, at its start. -/
def opened : RegularFile where
  iDev := 0x301
  iSize := 0
  filp fd := if fd = 3 then some ⟨0, 0⟩ else none

theorem positive_opened : Positive opened := by
  intro fd filp isOpen
  simp only [opened] at isOpen
  split at isOpen <;> cases isOpen
  decide

theorem positions_iff_inRange_opened :
    Lib.EveryStep step Safe opened [.write 3 5 1] ↔
      Lib.EveryStep step InRange opened [.write 3 5 1] :=
  positions_iff_inRange opened positive_opened [.write 3 5 1]

/-- A seek to the first byte that no block of a file can have, and a write of one byte. -/
def seekRun : List Call := [.lseek 3 268966912 0, .write 3 1 0]

theorem seek_panics : ¬∀ (file : RegularFile) (calls : List Call), Positive file →
    Lib.EveryStep step Safe file calls := by
  intro always
  obtain ⟨after, taken, -⟩ := ((always opened seekRun positive_opened).2 _ rfl).1
  have panics : (step (opened.sysLseek 3 268966912 0).1 (.write 3 1 0)).isSome = false := by
    decide +kernel
  rw [taken] at panics
  cases panics

end Linux012.Fs.Positions
