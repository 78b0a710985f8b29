import Linux012.Lib.Run
import Linux012.Zones.FileSpec

/-!
# Regular files are sparse arrays of bytes

Every `file_write`, `file_read` and `truncate` of one task does to the files of a
consistent device what it does to arrays of bytes, also when the zones run out.
-/

namespace Linux012.Zones

/-! ## Arrays of bytes -/

/-- A file as its user sees it. -/
structure SparseFile where
  size : Nat
  byte : Nat → UInt8

namespace SparseFile

def empty : SparseFile := ⟨0, fun _ => 0⟩

/-- `bytes` replace what is at `pos`. -/
def write (file : SparseFile) (pos : Nat) (bytes : List UInt8) : SparseFile where
  size := max file.size (pos + bytes.length)
  byte := Lib.overwrite file.byte pos bytes

def read (file : SparseFile) (pos count : Nat) : List UInt8 :=
  (List.range count).map fun i => file.byte (pos + i)

end SparseFile

/-! ## Calls -/

/-- A call on an open regular file: `fPos` is the position of the `struct file`. -/
inductive Call where
  | write (inode : Nat) (append : Bool) (fPos : Nat) (buf : List UInt8)
  | read (inode fPos count : Nat)
  | truncate (inode : Nat)

/-- What a call returns; `fPos` is the new position of the `struct file`. -/
inductive Result where
  | wrote (n : Int) (fPos : Nat)
  | got (bytes : List UInt8) (fPos : Nat)
  | truncated
  deriving DecidableEq

namespace Device

/-- The files of the device. -/
def files (d : Device) (inode : Nat) : SparseFile where
  size := d.iSize inode
  byte := d.contents inode

def call (d : Device) : Call → Option (Device × Result)
  | .write inode append fPos buf => do
      let (d, n, fPos) ← d.fileWrite inode append fPos buf
      return (d, .wrote n fPos)
  | .read inode fPos count => do
      let (bytes, fPos) ← d.fileRead inode fPos count
      return (d, .got bytes fPos)
  | .truncate inode => do
      let d ← d.truncate inode
      return (d, .truncated)

def step (d : Device) (c : Call) : Option Device := (d.call c).map Prod.fst

end Device

/-- Where a write begins. -/
def writeStart (files : Nat → SparseFile) (inode : Nat) (append : Bool) (fPos : Nat) : Nat :=
  if append then (files inode).size else fPos

/-- The positions of the call are below the maximum file size. -/
def Call.InRange (d : Device) : Call → Prop
  | .write inode append fPos buf => writeStart d.files inode append fPos + buf.length ≤ maxSize
  | .read _ fPos count => fPos + count ≤ maxSize
  | .truncate _ => True

instance (d : Device) (c : Call) : Decidable (c.InRange d) :=
  match c with
  | .write .. => inferInstanceAs (Decidable (_ ≤ maxSize))
  | .read .. => inferInstanceAs (Decidable (_ ≤ maxSize))
  | .truncate _ => .isTrue trivial

/-- What a call does to the files, as arrays of bytes.  A write may stop early, and writes
nothing if it returns -1. -/
def Call.Meets (files : Nat → SparseFile) : Call → Result → (Nat → SparseFile) → Prop
  | .write inode append fPos buf, .wrote n fPos', files' =>
      let start := writeStart files inode append fPos
      (n = -1 ∧ fPos' = (if append then fPos else start) ∧ files' = files) ∨
        ∃ m : Nat, n = m ∧ 0 < m ∧ m ≤ buf.length ∧
          fPos' = (if append then fPos else start + m) ∧
          files' = Function.update files inode ((files inode).write start (buf.take m))
  | .read inode fPos count, .got bytes fPos', files' =>
      bytes = (files inode).read fPos count ∧ fPos' = fPos + count ∧ files' = files
  | .truncate inode, .truncated, files' => files' = Function.update files inode .empty
  | _, _, _ => False

variable {d : Device} {use : Nat → Option Use}

/-! ## Every call does what it does to arrays of bytes -/

variable {d' : Device} {inode fPos : Nat}

theorem Device.files_eq {files : Nat → SparseFile}
    (size : ∀ inode, d'.iSize inode = (files inode).size)
    (contents : ∀ inode, d'.contents inode = (files inode).byte) : d'.files = files := by
  funext inode
  rw [Device.files, size, contents]

/-- A change of the size and the contents of one file. -/
theorem Device.files_update {size : Nat} {contents : Nat → UInt8}
    (sizes : d'.iSize = Function.update d.iSize inode size)
    (bytes : d'.contents = Function.update d.contents inode contents) :
    d'.files = Function.update d.files inode ⟨size, contents⟩ := by
  refine files_eq (fun other => ?_) fun other => ?_
  · by_cases same : other = inode
    · simp [sizes, same]
    · simp [sizes, same, files]
  · by_cases same : other = inode
    · simp [bytes, same]
    · simp [bytes, same, files]

theorem Device.InOrder.write_meets {append : Bool} {buf : List UInt8} (order : d.InOrder use)
    (inRange : (Call.write inode append fPos buf).InRange d) :
    ∃ d' use' r, d.call (.write inode append fPos buf) = some (d', r) ∧ d'.InOrder use' ∧
      (Call.write inode append fPos buf).Meets d.files r d'.files := by
  obtain ⟨d', use', n, looped, order', most, contents, size⟩ :=
    @writeLoop_spec d use inode _ _ 0 buf order (Nat.le_refl buf.length) inRange
  rw [Nat.zero_add] at looped
  have start : (if append then d.iSize inode else fPos) = writeStart d.files inode append fPos := rfl
  refine ⟨d', use', .wrote (if n = 0 then -1 else n)
    (if append then fPos else writeStart d.files inode append fPos + n), ?_, order', ?_⟩
  · simp only [call, fileWrite, start, looped, Option.bind_eq_bind, Option.bind_some,
      Option.pure_def]
  · have written := files_update size contents
    by_cases nothing : n = 0
    · refine .inl ⟨by rw [if_pos nothing], by rw [nothing, Nat.add_zero], ?_⟩
      rw [written, nothing, if_pos rfl, List.take_zero, Lib.overwrite_nil]
      exact Function.update_eq_self inode d.files
    · refine .inr ⟨n, by rw [if_neg nothing], Nat.pos_of_ne_zero nothing, most, rfl, ?_⟩
      rw [written, if_neg nothing, SparseFile.write, List.length_take_of_le most]
      rfl

theorem Device.InOrder.read_meets {count : Nat}
    (inRange : (Call.read inode fPos count).InRange d) :
    ∃ r, d.call (.read inode fPos count) = some (d, r) ∧
      (Call.read inode fPos count).Meets d.files r d.files := by
  have looped : readLoop inode count d fPos count =
      some ((List.range count).map fun i => d.contents inode (fPos + i)) :=
    readLoop_eq (Nat.le_refl count) inRange
  refine ⟨.got ((d.files inode).read fPos count) (fPos + count), ?_, rfl, rfl, rfl⟩
  simp only [call, fileRead, looped, Option.bind_eq_bind, Option.bind_some, Option.pure_def]
  rfl

theorem Device.InOrder.truncate_meets (order : d.InOrder use) :
    ∃ d' use', d.call (.truncate inode) = some (d', .truncated) ∧ d'.InOrder use' ∧
      (Call.truncate inode).Meets d.files .truncated d'.files := by
  obtain ⟨d', use', done, order', contents, size⟩ := truncate_spec inode order
  refine ⟨d', use', ?_, order', files_update size contents⟩
  simp only [call, done, Option.bind_eq_bind, Option.bind_some, Option.pure_def]

/-- A call within the range of positions returns, keeps the device in order and does what it
does to arrays of bytes. -/
theorem Device.InOrder.call_meets (order : d.InOrder use) {c : Call} (inRange : c.InRange d) :
    ∃ d' use' r, d.call c = some (d', r) ∧ d'.InOrder use' ∧ c.Meets d.files r d'.files := by
  cases c with
  | write inode append fPos buf => exact order.write_meets inRange
  | read inode fPos count =>
      obtain ⟨r, called, meets⟩ := read_meets inRange
      exact ⟨d, use, r, called, order, meets⟩
  | truncate inode =>
      obtain ⟨d', use', called, order', meets⟩ := order.truncate_meets
      exact ⟨d', use', .truncated, called, order', meets⟩

/-- Every call of a sequence of calls from a consistent device does to the files what it
does to arrays of bytes. -/
theorem call_meets_of_reachedBy {start d : Device} (consistent : start.Consistent)
    (reached : Lib.ReachedBy Device.step (fun d c => c.InRange d) start d) (c : Call)
    (inRange : c.InRange d) :
    ∃ d' r, d.call c = some (d', r) ∧ c.Meets d.files r d'.files := by
  have inOrder : ∃ use, d.InOrder use := by
    refine reached.invariant (fun d => ∃ use, d.InOrder use) ?_ ⟨_, consistent.inOrder⟩
    intro d c next holds inRange taken
    obtain ⟨use, order⟩ := holds
    obtain ⟨d', use', r, called, order', -⟩ := order.call_meets inRange
    rw [Device.step, called] at taken
    cases taken
    exact ⟨use', order'⟩
  obtain ⟨use, order⟩ := inOrder
  obtain ⟨d', use', r, called, -, meets⟩ := order.call_meets inRange
  exact ⟨d', r, called, meets⟩

/-- A device with three free zones and no files. -/
def threeZones : Device where
  sFirstdatazone := 5
  sNzones := 8
  firstdatazone_pos := by decide
  nzones_lt := by decide
  zmapBits := 8192
  zmap n := n == 0
  data _ _ := 7
  iZone _ _ := 0
  iSize _ := 0

theorem threeZones_null {height : Nat} {c : Cell} (live : threeZones.Live inode height c) :
    threeZones.ptr c = 0 := by
  induction live with
  | zone k inside => rfl
  | entry j live points inside ih => exact absurd ih points

theorem threeZones_consistent : threeZones.Consistent := by
  refine ⟨rfl, fun _ _ c _ _ _ live _ _ points => ?_, fun _ _ c live points => ?_⟩
  · exact absurd (threeZones_null live) points
  · exact absurd (threeZones_null live) points

/-- A write across the end of a block, a write into a hole that uses up the zones, and a
read. -/
def threeCalls : List Call :=
  [.write 1 false 1022 [1, 2, 3, 4], .write 2 true 0 [5], .write 2 false 8000 [6]]

theorem call_meets_of_reachedBy_threeCalls :
    (Lib.exec Device.step threeZones threeCalls).isSome ∧
      ∀ d, Lib.exec Device.step threeZones threeCalls = some d →
        ∃ d' r, d.call (.read 1 1020 6) = some (d', r) ∧
          (Call.read 1 1020 6).Meets d.files r d'.files := by
  refine ⟨by decide +kernel, fun d reached => ?_⟩
  have inRange : (Call.read 1 1020 6).InRange d := by
    change 1020 + 6 ≤ maxSize
    decide
  refine call_meets_of_reachedBy threeZones_consistent ⟨threeCalls, reached, ?_⟩ _ inRange
  exact Lib.everyStep_of_checkSteps (fun d c => decide (c.InRange d))
    (fun _ _ => of_decide_eq_true) (by decide +kernel)

example : ((Lib.exec Device.step threeZones threeCalls).bind fun d =>
    (d.call (.read 1 1020 6)).map Prod.snd) = some (.got [0, 0, 1, 2, 3, 4] 1026) := by
  decide +kernel

end Linux012.Zones
