import Linux012.Fs.Namei

/-!
# The buffers of the scans of a directory

`find_entry`, `add_entry`, `empty_dir`, `find_entry_by_inum` and `sys_ls` go through the slots of a
directory, and hold the buffer of one block at a time.  `b_count` is counted as the scans change it;
next to it stands what a scan holds.  A scan that looks into a buffer that it does not hold, or
releases one, ends there.  `bmap` and `create_block` give back what they take.
-/

namespace Linux012.Fs.ScanBuffers

/-- `struct buffer_head *`. -/
abbrev Bh := Nat

/-- A buffer head, and its `b_blocknr`. -/
structure Buf where
  bh : Bh
  block : Nat

/-- What is not in the inode: the blocks that can be read, with their slots, and the buffer that the
n-th `bread` of a scan gets. -/
structure World where
  readable : Nat → Bool
  buffer : Nat → Nat → Bh
  slot : Nat → Nat → DirEntry

/-- The inode of a directory. -/
structure Directory where
  iNum : Nat
  iSize : Nat
  /-- `i_zone[0]`. -/
  iZone : Nat
  bmap : Nat → Nat
  createBlock : Nat → Nat

/-- How a scan ends that does not return. -/
inductive Fault where
  /-- A buffer is used or released that the scan does not hold. -/
  | misuse
  | panic
  deriving DecidableEq

/-- The reference counts, and the references of the scan among them. -/
structure Refs where
  bCount : Bh → Nat
  held : List Bh
  reads : Nat

/-! ## The operations on buffers -/

namespace Refs

/-- `bh->b_data`. -/
def data (s : Refs) : Option Buf → Except Fault Buf
  | none => .error .misuse
  | some bh => if bh.bh ∈ s.held then .ok bh else .error .misuse

/-- `brelse`; nothing is done for a null pointer. -/
def brelse (s : Refs) : Option Buf → Except Fault Refs
  | none => .ok s
  | some bh =>
      if bh.bh ∈ s.held then
        .ok { s with
          bCount := Function.update s.bCount bh.bh (s.bCount bh.bh - 1)
          held := s.held.erase bh.bh }
      else .error .misuse

/-- `bread`, of a block other than 0. -/
def bread (s : Refs) (world : World) (block : Nat) : Option Buf × Refs :=
  if block ≠ 0 ∧ world.readable block then
    let bh := world.buffer s.reads block
    (some ⟨bh, block⟩, { s with
      bCount := Function.update s.bCount bh (s.bCount bh + 1)
      held := bh :: s.held
      reads := s.reads + 1 })
  else (none, { s with reads := s.reads + 1 })

end Refs

/-! ## The scans -/

section Functions

variable (world : World) (dir : Directory)

/-- The loop of `find_entry`.  A slot is a position in the buffer. -/
def findLoop (name : Name) (entries i de : Nat) (bh : Option Buf) (s : Refs) :
    Except Fault (Option (Buf × Nat) × Refs) :=
  if i < entries then
    match s.data bh with
    | .error fault => .error fault
    | .ok here =>
        if de ≥ dirEntriesPerBlock then
          match s.brelse bh with
          | .error fault => .error fault
          | .ok s =>
              match s.bread world (dir.bmap (i / dirEntriesPerBlock)) with
              | (none, s) => findLoop name entries (i + dirEntriesPerBlock) de none s
              | (some next, s) =>
                  if matchName name (world.slot next.block 0) then .ok (some (next, 0), s)
                  else findLoop name entries (i + 1) 1 (some next) s
        else if matchName name (world.slot here.block de) then .ok (some (here, de), s)
        else findLoop name entries (i + 1) (de + 1) bh s
  else
    match s.brelse bh with
    | .error fault => .error fault
    | .ok s => .ok (none, s)
termination_by entries - i
decreasing_by all_goals
  have positive : 0 < dirEntriesPerBlock := by decide
  omega

/-- `find_entry` behind the test for `..`, with the number of entries of the directory that it was
called for. -/
def searchDir (name : Name) (entries : Nat) (s : Refs) :
    Except Fault (Option (Buf × Nat) × Refs) :=
  if dir.iZone = 0 then .ok (none, s)
  else
    match s.bread world dir.iZone with
    | (none, s) => .ok (none, s)
    | (some bh, s) => findLoop world dir name entries 0 0 (some bh) s

/-- The directory and the name that `find_entry` looks for: `..` in the root of the process is `.`,
and over a mount point the directory is exchanged. -/
def dotDot (isRoot : Bool) (sImount : Option Directory) (name : Name) : Directory × Name :=
  if name = [dot, dot] then
    if isRoot then (dir, [dot])
    else if dir.iNum = rootIno then (sImount.getD dir, name)
    else (dir, name)
  else (dir, name)

/-- `find_entry`. -/
def findEntry (isRoot : Bool) (sImount : Option Directory) (name : Name) (s : Refs) :
    Except Fault (Option (Buf × Nat) × Refs) :=
  let name := name.take nameLen
  let entries := dir.iSize / dirEntrySize
  let (dir, name) := dotDot dir isRoot sImount name
  searchDir world dir name entries s

/-- The loop of `add_entry`.  Where it has no buffer its test looks into a null pointer. -/
def addLoop (i de : Nat) : Option Buf → Refs → Except Fault (Option (Buf × Nat) × Refs)
  | none, _ => .error .misuse
  | some bh, s =>
      if bh.bh ∉ s.held then .error .misuse
      else if de ≥ dirEntriesPerBlock then
        match s.brelse (some bh) with
        | .error fault => .error fault
        | .ok s =>
            let block := dir.createBlock (i / dirEntriesPerBlock)
            if block = 0 then .ok (none, s)
            else
              match s.bread world block with
              | (none, s) => addLoop (i + dirEntriesPerBlock) de none s
              | (some next, s) =>
                  if i * dirEntrySize ≥ dir.iSize ∨ (world.slot next.block 0).inode = 0 then
                    .ok (some (next, 0), s)
                  else addLoop (i + 1) 1 (some next) s
      else if i * dirEntrySize ≥ dir.iSize ∨ (world.slot bh.block de).inode = 0 then
        .ok (some (bh, de), s)
      else addLoop (i + 1) (de + 1) (some bh) s
termination_by bh => if bh.isSome then dir.iSize + 1 - i + 1 else 0
decreasing_by all_goals
  simp only [dirEntrySize, Option.isSome_some, Option.isSome_none, if_true, Bool.false_eq_true,
    if_false] at *
  omega

def addEntry (name : Name) (s : Refs) : Except Fault (Option (Buf × Nat) × Refs) :=
  if name.take nameLen = [] ∨ dir.iZone = 0 then .ok (none, s)
  else
    match s.bread world dir.iZone with
    | (none, s) => .ok (none, s)
    | (some bh, s) => addLoop world dir 0 0 (some bh) s

/-- The loop of `find_entry_by_inum`. -/
def inumLoop (childINum entries i j : Nat) (bh : Option Buf) (s : Refs) :
    Except Fault (Option (Buf × Nat) × Refs) :=
  if i < entries then
    if j ≥ dirEntriesPerBlock then
      match s.brelse bh with
      | .error fault => .error fault
      | .ok s =>
          match s.bread world (dir.bmap (i / dirEntriesPerBlock)) with
          | (none, s) => inumLoop childINum entries (i + dirEntriesPerBlock) j none s
          | (some next, s) =>
              if (world.slot next.block 0).inode = childINum then .ok (some (next, 0), s)
              else inumLoop childINum entries (i + 1) 1 (some next) s
    else
      match s.data bh with
      | .error fault => .error fault
      | .ok here =>
          if (world.slot here.block j).inode = childINum then .ok (some (here, j), s)
          else inumLoop childINum entries (i + 1) (j + 1) bh s
  else
    match s.brelse bh with
    | .error fault => .error fault
    | .ok s => .ok (none, s)
termination_by entries - i
decreasing_by all_goals
  have positive : 0 < dirEntriesPerBlock := by decide
  omega

def findEntryByInum (childINum : Nat) (s : Refs) :
    Except Fault (Option (Buf × Nat) × Refs) :=
  if dir.iZone = 0 then .ok (none, s)
  else
    match s.bread world dir.iZone with
    | (none, s) => .ok (none, s)
    | (some bh, s) =>
        inumLoop world dir childINum (dir.iSize / dirEntrySize) 0 0 (some bh) s

/-- The loop of `empty_dir`; behind a hole `bh` is the buffer that it has released. -/
def emptyLoop (len nr de : Nat) (bh : Buf) (s : Refs) : Except Fault (Bool × Refs) :=
  if nr < len then
    match s.data (some bh) with
    | .error fault => .error fault
    | .ok _ =>
        if de ≥ dirEntriesPerBlock then
          match s.brelse (some bh) with
          | .error fault => .error fault
          | .ok s =>
              let block := dir.bmap (nr / dirEntriesPerBlock)
              if block = 0 then emptyLoop len (nr + dirEntriesPerBlock) de bh s
              else
                match s.bread world block with
                | (none, s) => .ok (false, s)
                | (some next, s) =>
                    if (world.slot next.block 0).inode ≠ 0 then
                      match s.brelse (some next) with
                      | .error fault => .error fault
                      | .ok s => .ok (false, s)
                    else emptyLoop len (nr + 1) 1 next s
        else if (world.slot bh.block de).inode ≠ 0 then
          match s.brelse (some bh) with
          | .error fault => .error fault
          | .ok s => .ok (false, s)
        else emptyLoop len (nr + 1) (de + 1) bh s
  else
    match s.brelse (some bh) with
    | .error fault => .error fault
    | .ok s => .ok (true, s)
termination_by len - nr
decreasing_by all_goals
  have positive : 0 < dirEntriesPerBlock := by decide
  omega

/-- `.` and `..` are the first two entries. -/
def HasDots (block : Nat) : Prop :=
  (world.slot block 0).inode = dir.iNum ∧ (world.slot block 1).inode ≠ 0 ∧
    (world.slot block 0).name = [dot] ∧ (world.slot block 1).name = [dot, dot]

instance (block : Nat) : Decidable (HasDots world dir block) :=
  inferInstanceAs (Decidable (_ ∧ _))

def emptyDir (s : Refs) : Except Fault (Bool × Refs) :=
  let len := dir.iSize / dirEntrySize
  if len < 2 ∨ dir.iZone = 0 then .ok (false, s)
  else
    match s.bread world dir.iZone with
    | (none, s) => .ok (false, s)
    | (some bh, s) =>
        if ¬HasDots world dir bh.block then .ok (false, s)
        else emptyLoop world dir len 2 2 bh s

/-- The loop of `sys_ls`. -/
def lsLoop (entries i j : Nat) (bh : Option Buf) (s : Refs) : Except Fault (Unit × Refs) :=
  if i < entries then
    if j ≥ dirEntriesPerBlock then
      match s.brelse bh with
      | .error fault => .error fault
      | .ok s =>
          let block := dir.bmap (i / dirEntriesPerBlock)
          if block = 0 then lsLoop entries (i + dirEntriesPerBlock) j none s
          else
            match s.bread world block with
            | (none, _) => .error .panic -- "can not read the buffer head."
            | (some next, s) => lsLoop entries (i + 1) 1 (some next) s
    else
      match s.data bh with
      | .error fault => .error fault
      | .ok _ => lsLoop entries (i + 1) (j + 1) bh s
  else
    match s.brelse bh with
    | .error fault => .error fault
    | .ok s => .ok ((), s)
termination_by entries - i
decreasing_by all_goals
  have positive : 0 < dirEntriesPerBlock := by decide
  omega

def sysLs (s : Refs) : Except Fault (Unit × Refs) :=
  if dir.iZone = 0 then .error .panic -- "dir block 0 is 0. it's wrong."
  else
    match s.bread world dir.iZone with
    | (none, _) => .error .panic -- "can not read the buffer head."
    | (some bh, s) => lsLoop world dir (dir.iSize / dirEntrySize) 0 0 (some bh) s

end Functions

/-! ## How a scan ends -/

/-- The references behind a run: those from before, and those that the result keeps. -/
def Ends {Result : Type} (base : Bh → Nat) (kept : Result → List Bh) :
    Except Fault (Result × Refs) → Prop
  | .error .misuse => False
  | .error .panic => True
  | .ok (result, s) => s.bCount = fun bh => base bh + (kept result).count bh

/-- The reference on the buffer that a search returns. -/
def found : Option (Buf × Nat) → List Bh
  | none => []
  | some (bh, _) => [bh.bh]

/-- The references of a scan are counted. -/
structure Accounts (base : Bh → Nat) (s : Refs) (held : List Bh) : Prop where
  isHeld : s.held = held
  counts : s.bCount = fun bh => base bh + held.count bh

variable {world : World} {dir : Directory} {base : Bh → Nat} {s : Refs} {bh : Buf} {held : List Bh}
variable {block : Nat}

theorem accounts_start (base : Bh → Nat) (reads : Nat) : Accounts base ⟨base, [], reads⟩ [] :=
  ⟨rfl, rfl⟩

theorem Accounts.ends {Result : Type} {kept : Result → List Bh} {result : Result}
    (accounts : Accounts base s (kept result)) : Ends base kept (.ok (result, s)) := accounts.counts

/-- The block is there and can be read. -/
def World.Present (world : World) (block : Nat) : Prop := block ≠ 0 ∧ world.readable block = true

theorem bread_present (present : world.Present block) (accounts : Accounts base s []) :
    ∃ bh s', s.bread world block = (some ⟨bh, block⟩, s') ∧ Accounts base s' [bh] := by
  refine ⟨world.buffer s.reads block, _, if_pos present, ?_, ?_⟩
  · simp [accounts.isHeld]
  · funext other
    by_cases same : other = world.buffer s.reads block
    · simp [same, accounts.counts]
    · simp [Function.update_of_ne same, accounts.counts, Ne.symm same]

theorem bread_absent (absent : ¬world.Present block) (accounts : Accounts base s held) :
    ∃ s', s.bread world block = (none, s') ∧ Accounts base s' held :=
  ⟨_, if_neg absent, accounts.isHeld, accounts.counts⟩

theorem brelse_held (accounts : Accounts base s [bh.bh]) :
    ∃ s', s.brelse (some bh) = .ok s' ∧ Accounts base s' [] := by
  have isHeld : bh.bh ∈ s.held := by simp [accounts.isHeld]
  refine ⟨_, if_pos isHeld, ?_, ?_⟩
  · simp [accounts.isHeld]
  · funext other
    by_cases same : other = bh.bh
    · simp [same, accounts.counts]
    · simp [Function.update_of_ne same, accounts.counts, Ne.symm same]

theorem brelse_released (accounts : Accounts base s []) : s.brelse (some bh) = .error .misuse :=
  if_neg (by simp [accounts.isHeld])

theorem data_held (accounts : Accounts base s [bh.bh]) : s.data (some bh) = .ok bh :=
  if_pos (by simp [accounts.isHeld])

theorem data_released (accounts : Accounts base s []) : s.data (some bh) = .error .misuse :=
  if_neg (by simp [accounts.isHeld])

/-! ## The blocks that a scan comes to -/

section Reaching

variable {stop bad : Nat → Prop} {i : Nat}

/-- Before a scan from a slot on comes to the first slot of a bad block, it stops at another
slot. -/
def SafeFrom (stop bad : Nat → Prop) (i : Nat) : Prop :=
  ∀ k, 1 ≤ k → i ≤ 64 * k → bad k → ∃ j, i ≤ j ∧ j < 64 * k ∧ stop j

theorem safeFrom_of_stop (stops : stop i) (notBad : 0 < i → i % 64 = 0 → ¬bad (i / 64)) :
    SafeFrom stop bad i := by
  intro k positive atMost isBad
  rcases Nat.eq_or_lt_of_le atMost with same | less
  · refine absurd ?_ (notBad (by omega) (by omega))
    rwa [same, Nat.mul_div_cancel_left k (by decide)]
  · exact ⟨i, le_rfl, less, stops⟩

theorem safeFrom_succ (goesOn : ¬stop i) (notBad : 0 < i → i % 64 = 0 → ¬bad (i / 64)) :
    SafeFrom stop bad (i + 1) ↔ SafeFrom stop bad i := by
  constructor
  · intro safe k positive atMost isBad
    rcases Nat.eq_or_lt_of_le atMost with same | less
    · refine absurd ?_ (notBad (by omega) (by omega))
      rwa [same, Nat.mul_div_cancel_left k (by decide)]
    · obtain ⟨j, atLeast, below, stops⟩ := safe k positive less isBad
      exact ⟨j, by omega, below, stops⟩
  · intro safe k positive atMost isBad
    obtain ⟨j, atLeast, below, stops⟩ := safe k positive (by omega) isBad
    refine ⟨j, Nat.lt_of_le_of_ne atLeast fun same => goesOn ?_, below, stops⟩
    exact same ▸ stops

theorem not_safeFrom (behind : 0 < i) (isFirst : i % 64 = 0) (isBad : bad (i / 64)) :
    ¬SafeFrom stop bad i := by
  intro safe
  obtain ⟨j, atLeast, below, -⟩ := safe (i / 64) (by omega) (by omega) isBad
  omega

theorem safeFrom_of_end (ends : ∀ k, i ≤ 64 * k → ¬bad k) : SafeFrom stop bad i :=
  fun k _ atMost isBad => absurd isBad (ends k atMost)

end Reaching

/-! ## find_entry -/

/-- The blocks of a directory: the first one is in `i_zone`. -/
def blockOf (first : Nat) (zones : Nat → Nat) (k : Nat) : Nat := if k = 0 then first else zones k

/-- The slot of a directory with a number. -/
def slotAt (world : World) (first : Nat) (zones : Nat → Nat) (i : Nat) : DirEntry :=
  world.slot (blockOf first zones (i / 64)) (i % 64)

section FindEntry

variable {name : Name} {entries i de : Nat}

/-- The search stops at a slot. -/
def Matches (world : World) (dir : Directory) (name : Name) (i : Nat) : Prop :=
  world.Present (blockOf dir.iZone dir.bmap (i / 64)) ∧
    matchName name (slotAt world dir.iZone dir.bmap i) = true

/-- A block that is missing, with slots behind it. -/
def GapIn (world : World) (dir : Directory) (entries k : Nat) : Prop :=
  64 * (k + 1) < entries ∧ ¬world.Present (dir.bmap k)

theorem findLoop_none {i de : Nat} (accounts : Accounts base s []) :
    Ends base found (findLoop world dir name entries i de none s) ↔ ¬i < entries := by
  rw [findLoop]
  by_cases more : i < entries
  · rw [if_pos more]
    exact iff_of_false id (not_not.mpr more)
  · rw [if_neg more]
    exact iff_of_true accounts.ends more

theorem findLoop_iff (accounts : Accounts base s [bh.bh])
    (inBlock : de < 64 → de = i % 64 ∧ bh.block = blockOf dir.iZone dir.bmap (i / 64) ∧
      world.Present bh.block)
    (atEnd : 64 ≤ de → i % 64 = 0 ∧ 0 < i) :
    Ends base found (findLoop world dir name entries i de (some bh) s) ↔
      SafeFrom (Matches world dir name) (GapIn world dir entries) i := by
  induction left : entries - i using Nat.strong_induction_on generalizing i de bh s with
  | _ left ih =>
  rw [findLoop]
  by_cases more : i < entries
  swap
  · rw [if_neg more]
    obtain ⟨s', released, accounts'⟩ := brelse_held accounts
    rw [released]
    refine iff_of_true accounts'.ends (safeFrom_of_end fun k atMost gap => ?_)
    have isGap := gap.1
    omega
  rw [if_pos more, data_held accounts]
  dsimp only
  have here {next : Buf} {slot : Nat} {s : Refs} (accounts : Accounts base s [next.bh])
      (isSlot : slot = i % 64) (isBlock : next.block = blockOf dir.iZone dir.bmap (i / 64))
      (present : world.Present next.block) :
      Ends base found (if matchName name (world.slot next.block slot) then
        .ok (some (next, slot), s)
      else findLoop world dir name entries (i + 1) (slot + 1) (some next) s) ↔
        SafeFrom (Matches world dir name) (GapIn world dir entries) i := by
    have isMatch : Matches world dir name i ↔
        matchName name (world.slot next.block slot) = true := by
      rw [Matches, slotAt, ← isBlock, ← isSlot]
      exact and_iff_right present
    have notGap (behind : 0 < i) (isFirst : i % 64 = 0) : ¬GapIn world dir entries (i / 64) := by
      intro gap
      rw [isBlock, blockOf, if_neg (by omega)] at present
      exact gap.2 present
    by_cases stops : matchName name (world.slot next.block slot) = true
    · rw [if_pos stops]
      exact iff_of_true accounts.ends (safeFrom_of_stop (isMatch.mpr stops) notGap)
    · rw [if_neg stops, ← safeFrom_succ (fun matches' => stops (isMatch.mp matches')) notGap]
      refine ih (entries - (i + 1)) (by omega) accounts (fun inside => ?_) (fun _ => by omega) rfl
      have sameBlock : (i + 1) / 64 = i / 64 := by omega
      rw [sameBlock]
      exact ⟨by omega, isBlock, present⟩
  by_cases isEnd : de ≥ dirEntriesPerBlock
  · obtain ⟨isFirst, behind⟩ := atEnd isEnd
    obtain ⟨s₁, released, accounts₁⟩ := brelse_held accounts
    rw [if_pos isEnd, released]
    dsimp only
    by_cases present : world.Present (dir.bmap (i / dirEntriesPerBlock))
    · obtain ⟨next, s₂, isRead, accounts₂⟩ := bread_present present accounts₁
      rw [isRead]
      refine here accounts₂ isFirst.symm ?_ present
      rw [blockOf, if_neg (by omega)]
    · obtain ⟨s₂, isRead, accounts₂⟩ := bread_absent present accounts₁
      rw [isRead]
      refine (findLoop_none accounts₂).trans ?_
      by_cases more' : i + 64 < entries
      · have gap : GapIn world dir entries (i / 64) := ⟨by omega, present⟩
        exact iff_of_false (not_not.mpr more') (not_safeFrom behind isFirst gap)
      · refine iff_of_true more' (safeFrom_of_end fun k atMost gap => ?_)
        have isGap := gap.1
        omega
  · obtain ⟨isSlot, isBlock, present⟩ := inBlock (Nat.not_le.mp isEnd)
    rw [if_neg isEnd]
    exact here accounts isSlot isBlock present

/-- `find_entry` does not go on behind a block that is missing. -/
def FindSafe (world : World) (dir : Directory) (name : Name) (entries : Nat) : Prop :=
  world.Present dir.iZone → SafeFrom (Matches world dir name) (GapIn world dir entries) 0

theorem searchDir_iff (accounts : Accounts base s []) :
    Ends base found (searchDir world dir name entries s) ↔ FindSafe world dir name entries := by
  rw [searchDir]
  by_cases noZone : dir.iZone = 0
  · rw [if_pos noZone]
    exact iff_of_true accounts.ends fun present => absurd noZone present.1
  · rw [if_neg noZone]
    by_cases present : world.Present dir.iZone
    · obtain ⟨next, s', isRead, accounts'⟩ := bread_present present accounts
      rw [isRead, FindSafe, imp_iff_right present]
      exact findLoop_iff accounts' (fun _ => ⟨rfl, rfl, present⟩) fun isEnd =>
        absurd isEnd (by decide)
    · obtain ⟨s', isRead, accounts'⟩ := bread_absent present accounts
      rw [isRead]
      exact iff_of_true accounts'.ends fun there => absurd there present

end FindEntry

/-! ## add_entry -/

section AddEntry

variable {i de : Nat}

/-- `add_entry` stops at a slot: it is free, or there is no block for it. -/
def Takes (world : World) (dir : Directory) (i : Nat) : Prop :=
  (i * 16 ≥ dir.iSize ∨ (slotAt world dir.iZone dir.createBlock i).inode = 0) ∨
    0 < i ∧ i % 64 = 0 ∧ dir.createBlock (i / 64) = 0

/-- A block that cannot be read. -/
def Unreadable (world : World) (dir : Directory) (k : Nat) : Prop :=
  dir.createBlock k ≠ 0 ∧ ¬world.Present (dir.createBlock k)

theorem addLoop_iff (accounts : Accounts base s [bh.bh])
    (inBlock : de < 64 → de = i % 64 ∧ bh.block = blockOf dir.iZone dir.createBlock (i / 64) ∧
      world.Present bh.block)
    (atEnd : 64 ≤ de → i % 64 = 0 ∧ 0 < i) :
    Ends base found (addLoop world dir i de (some bh) s) ↔
      SafeFrom (Takes world dir) (Unreadable world dir) i := by
  induction left : dir.iSize + 1 - i using Nat.strong_induction_on generalizing i de bh s with
  | _ left ih =>
  have here {next : Buf} {slot : Nat} {s : Refs} (accounts : Accounts base s [next.bh])
      (isSlot : slot = i % 64) (isBlock : next.block = blockOf dir.iZone dir.createBlock (i / 64))
      (present : world.Present next.block) :
      Ends base found (if i * dirEntrySize ≥ dir.iSize ∨ (world.slot next.block slot).inode = 0 then
        .ok (some (next, slot), s)
      else addLoop world dir (i + 1) (slot + 1) (some next) s) ↔
        SafeFrom (Takes world dir) (Unreadable world dir) i := by
    have created (behind : 0 < i) (isFirst : i % 64 = 0) :
        next.block = dir.createBlock (i / 64) := by
      rw [isBlock, blockOf, if_neg (by omega)]
    have readable (behind : 0 < i) (isFirst : i % 64 = 0) : ¬Unreadable world dir (i / 64) := by
      intro unreadable
      rw [created behind isFirst] at present
      exact unreadable.2 present
    have isFree : slotAt world dir.iZone dir.createBlock i = world.slot next.block slot := by
      rw [slotAt, ← isBlock, ← isSlot]
    by_cases stops : i * dirEntrySize ≥ dir.iSize ∨ (world.slot next.block slot).inode = 0
    · rw [if_pos stops]
      exact iff_of_true accounts.ends (safeFrom_of_stop (.inl (isFree ▸ stops)) readable)
    · have goesOn : ¬Takes world dir i := by
        rintro (free | ⟨behind, isFirst, noBlock⟩)
        · exact stops (isFree ▸ free)
        · exact present.1 ((created behind isFirst).trans noBlock)
      have inside : i * dirEntrySize < dir.iSize :=
        Nat.not_le.mp fun atLeast => stops (.inl atLeast)
      have size : dirEntrySize = 16 := rfl
      rw [if_neg stops, ← safeFrom_succ goesOn readable]
      rw [size] at inside
      refine ih (dir.iSize + 1 - (i + 1)) (by omega) accounts (fun inside => ?_) (fun _ => by omega)
        rfl
      have sameBlock : (i + 1) / 64 = i / 64 := by omega
      rw [sameBlock]
      exact ⟨by omega, isBlock, present⟩
  rw [addLoop, if_neg (by simp [accounts.isHeld])]
  by_cases isEnd : de ≥ dirEntriesPerBlock
  · obtain ⟨isFirst, behind⟩ := atEnd isEnd
    obtain ⟨s₁, released, accounts₁⟩ := brelse_held accounts
    rw [if_pos isEnd, released]
    dsimp only
    by_cases noBlock : dir.createBlock (i / dirEntriesPerBlock) = 0
    · rw [if_pos noBlock]
      refine iff_of_true accounts₁.ends (safeFrom_of_stop (.inr ⟨behind, isFirst, noBlock⟩) ?_)
      exact fun _ _ unreadable => unreadable.1 noBlock
    rw [if_neg noBlock]
    by_cases present : world.Present (dir.createBlock (i / dirEntriesPerBlock))
    · obtain ⟨next, s₂, isRead, accounts₂⟩ := bread_present present accounts₁
      rw [isRead]
      refine here accounts₂ isFirst.symm ?_ present
      rw [blockOf, if_neg (by omega)]
    · obtain ⟨s₂, isRead, accounts₂⟩ := bread_absent present accounts₁
      rw [isRead]
      dsimp only
      rw [addLoop]
      exact iff_of_false id (not_safeFrom behind isFirst ⟨noBlock, present⟩)
  · obtain ⟨isSlot, isBlock, present⟩ := inBlock (Nat.not_le.mp isEnd)
    rw [if_neg isEnd]
    exact here accounts isSlot isBlock present

/-- `add_entry` does not come to a block that cannot be read. -/
def AddSafe (world : World) (dir : Directory) (name : Name) : Prop :=
  name.take nameLen ≠ [] → world.Present dir.iZone →
    SafeFrom (Takes world dir) (Unreadable world dir) 0

theorem addEntry_iff {name : Name} (accounts : Accounts base s []) :
    Ends base found (addEntry world dir name s) ↔ AddSafe world dir name := by
  rw [addEntry]
  by_cases nothing : name.take nameLen = [] ∨ dir.iZone = 0
  · rw [if_pos nothing]
    refine iff_of_true accounts.ends fun isName present => ?_
    exact (nothing.elim isName present.1).elim
  · rw [if_neg nothing]
    rw [not_or] at nothing
    by_cases present : world.Present dir.iZone
    · obtain ⟨next, s', isRead, accounts'⟩ := bread_present present accounts
      rw [isRead, AddSafe, imp_iff_right nothing.1, imp_iff_right present]
      exact addLoop_iff accounts' (fun _ => ⟨rfl, rfl, present⟩) fun isEnd =>
        absurd isEnd (by decide)
    · obtain ⟨s', isRead, accounts'⟩ := bread_absent present accounts
      rw [isRead]
      exact iff_of_true accounts'.ends fun _ there => absurd there present

end AddEntry

/-! ## empty_dir -/

section EmptyDir

variable {len nr de : Nat}

/-- `empty_dir` stops at a slot: it is not free, or its block cannot be read. -/
def Finds (world : World) (dir : Directory) (i : Nat) : Prop :=
  (slotAt world dir.iZone dir.bmap i).inode ≠ 0 ∨
    0 < i ∧ i % 64 = 0 ∧ ¬world.Present (dir.bmap (i / 64))

/-- A block that is missing. -/
def HoleIn (dir : Directory) (len k : Nat) : Prop := 64 * k < len ∧ dir.bmap k = 0

/-- A buffer that has been released is used, or is released once more. -/
theorem emptyLoop_released (accounts : Accounts base s []) :
    ¬Ends base (fun _ => []) (emptyLoop world dir len nr de bh s) := by
  rw [emptyLoop, data_released accounts, brelse_released accounts]
  split <;> exact id

theorem emptyLoop_iff (accounts : Accounts base s [bh.bh])
    (inBlock : de < 64 → de = nr % 64 ∧ bh.block = blockOf dir.iZone dir.bmap (nr / 64) ∧
      world.Present bh.block)
    (atEnd : 64 ≤ de → nr % 64 = 0 ∧ 0 < nr) :
    Ends base (fun _ => []) (emptyLoop world dir len nr de bh s) ↔
      SafeFrom (Finds world dir) (HoleIn dir len) nr := by
  induction left : len - nr using Nat.strong_induction_on generalizing nr de bh s with
  | _ left ih =>
  rw [emptyLoop]
  by_cases more : nr < len
  swap
  · obtain ⟨s', released, accounts'⟩ := brelse_held accounts
    rw [if_neg more, released]
    refine iff_of_true accounts'.ends (safeFrom_of_end fun k atMost hole => ?_)
    have isHole := hole.1
    omega
  rw [if_pos more, data_held accounts]
  dsimp only
  have here {next : Buf} {slot : Nat} {s : Refs} (accounts : Accounts base s [next.bh])
      (isSlot : slot = nr % 64) (isBlock : next.block = blockOf dir.iZone dir.bmap (nr / 64))
      (present : world.Present next.block) :
      Ends base (fun _ => []) (if (world.slot next.block slot).inode ≠ 0 then
        match s.brelse (some next) with
        | .error fault => .error fault
        | .ok s => .ok (false, s)
      else emptyLoop world dir len (nr + 1) (slot + 1) next s) ↔
        SafeFrom (Finds world dir) (HoleIn dir len) nr := by
    have mapped (behind : 0 < nr) (isFirst : nr % 64 = 0) : next.block = dir.bmap (nr / 64) := by
      rw [isBlock, blockOf, if_neg (by omega)]
    have noHole (behind : 0 < nr) (isFirst : nr % 64 = 0) : ¬HoleIn dir len (nr / 64) := by
      intro hole
      exact present.1 ((mapped behind isFirst).trans hole.2)
    have isSlotAt : slotAt world dir.iZone dir.bmap nr = world.slot next.block slot := by
      rw [slotAt, ← isBlock, ← isSlot]
    by_cases stops : (world.slot next.block slot).inode ≠ 0
    · obtain ⟨s', released, accounts'⟩ := brelse_held accounts
      rw [if_pos stops, released]
      exact iff_of_true accounts'.ends (safeFrom_of_stop (.inl (isSlotAt ▸ stops)) noHole)
    · have goesOn : ¬Finds world dir nr := by
        rintro (inUse | ⟨behind, isFirst, absent⟩)
        · exact stops (isSlotAt ▸ inUse)
        · exact absent (mapped behind isFirst ▸ present)
      rw [if_neg stops, ← safeFrom_succ goesOn noHole]
      refine ih (len - (nr + 1)) (by omega) accounts (fun inside => ?_) (fun _ => by omega) rfl
      have sameBlock : (nr + 1) / 64 = nr / 64 := by omega
      rw [sameBlock]
      exact ⟨by omega, isBlock, present⟩
  by_cases isEnd : de ≥ dirEntriesPerBlock
  · obtain ⟨isFirst, behind⟩ := atEnd isEnd
    obtain ⟨s₁, released, accounts₁⟩ := brelse_held accounts
    rw [if_pos isEnd, released]
    dsimp only
    by_cases noBlock : dir.bmap (nr / dirEntriesPerBlock) = 0
    · rw [if_pos noBlock]
      have hole : HoleIn dir len (nr / 64) := ⟨by omega, noBlock⟩
      exact iff_of_false (emptyLoop_released accounts₁) (not_safeFrom behind isFirst hole)
    rw [if_neg noBlock]
    by_cases present : world.Present (dir.bmap (nr / dirEntriesPerBlock))
    · obtain ⟨next, s₂, isRead, accounts₂⟩ := bread_present present accounts₁
      rw [isRead]
      refine here accounts₂ isFirst.symm ?_ present
      rw [blockOf, if_neg (by omega)]
    · obtain ⟨s₂, isRead, accounts₂⟩ := bread_absent present accounts₁
      rw [isRead]
      refine iff_of_true accounts₂.ends (safeFrom_of_stop (.inr ⟨behind, isFirst, present⟩) ?_)
      exact fun _ _ hole => noBlock hole.2
  · obtain ⟨isSlot, isBlock, present⟩ := inBlock (Nat.not_le.mp isEnd)
    rw [if_neg isEnd]
    exact here accounts isSlot isBlock present

/-- The reference is not given back. -/
theorem not_ends_of_held {Result : Type} {result : Result} {leaked : Bh}
    (accounts : Accounts base s [leaked]) : ¬Ends base (fun _ => []) (.ok (result, s)) := by
  intro ends
  have one := congrFun (accounts.counts.symm.trans ends) leaked
  simp at one

/-- `empty_dir` finds `.` and `..`, and does not come to a hole. -/
def EmptySafe (world : World) (dir : Directory) : Prop :=
  2 ≤ dir.iSize / 16 → world.Present dir.iZone → HasDots world dir dir.iZone ∧
    SafeFrom (Finds world dir) (HoleIn dir (dir.iSize / 16)) 2

theorem emptyDir_iff (accounts : Accounts base s []) :
    Ends base (fun _ => []) (emptyDir world dir s) ↔ EmptySafe world dir := by
  rw [emptyDir]
  by_cases nothing : dir.iSize / dirEntrySize < 2 ∨ dir.iZone = 0
  · rw [if_pos nothing]
    refine iff_of_true accounts.ends fun two present => ?_
    exact (nothing.elim (Nat.not_lt.mpr two) present.1).elim
  rw [if_neg nothing]
  rw [not_or, Nat.not_lt] at nothing
  by_cases present : world.Present dir.iZone
  · obtain ⟨next, s', isRead, accounts'⟩ := bread_present present accounts
    rw [isRead, EmptySafe, imp_iff_right nothing.1, imp_iff_right present]
    dsimp only
    by_cases dots : HasDots world dir dir.iZone
    · rw [if_neg (not_not.mpr dots), and_iff_right dots]
      exact emptyLoop_iff accounts' (fun _ => ⟨rfl, rfl, present⟩) fun isEnd =>
        absurd isEnd (by decide)
    · rw [if_pos dots]
      exact iff_of_false (not_ends_of_held accounts') fun both => dots both.1
  · obtain ⟨s', isRead, accounts'⟩ := bread_absent present accounts
    rw [isRead]
    exact iff_of_true accounts'.ends fun _ there => absurd there present

end EmptyDir

/-! ## find_entry_by_inum and sys_ls -/

/-- These two look into a buffer only when they have one. -/
def HasBuffer (base : Bh → Nat) (s : Refs) (j : Nat) (bh : Option Buf) : Prop :=
  match bh with
  | none => 64 ≤ j ∧ Accounts base s []
  | some bh => Accounts base s [bh.bh]

theorem brelse_hasBuffer {j : Nat} {bh : Option Buf} (has : HasBuffer base s j bh) :
    ∃ s', s.brelse bh = .ok s' ∧ Accounts base s' [] := by
  cases bh with
  | none => exact ⟨s, rfl, has.2⟩
  | some bh => exact brelse_held has

theorem data_hasBuffer {j : Nat} {bh : Option Buf} (has : HasBuffer base s j bh)
    (inBlock : j < 64) : ∃ here, bh = some here ∧ s.data bh = .ok here := by
  cases bh with
  | none => exact absurd has.1 (Nat.not_le.mpr inBlock)
  | some bh => exact ⟨bh, rfl, data_held has⟩

theorem ends_inumLoop {childINum entries i j : Nat} {bh : Option Buf}
    (has : HasBuffer base s j bh) : Ends base found (inumLoop world dir childINum entries i j bh s) := by
  induction left : entries - i using Nat.strong_induction_on generalizing i j bh s with
  | _ left ih =>
  rw [inumLoop]
  by_cases more : i < entries
  swap
  · obtain ⟨s', released, accounts⟩ := brelse_hasBuffer has
    rw [if_neg more, released]
    exact accounts.ends
  rw [if_pos more]
  by_cases isEnd : j ≥ dirEntriesPerBlock
  · obtain ⟨s₁, released, accounts₁⟩ := brelse_hasBuffer has
    rw [if_pos isEnd, released]
    dsimp only
    by_cases present : world.Present (dir.bmap (i / dirEntriesPerBlock))
    · obtain ⟨next, s₂, isRead, accounts₂⟩ := bread_present present accounts₁
      rw [isRead]
      dsimp only
      split
      next => exact accounts₂.ends
      next => exact ih (entries - (i + 1)) (by omega) accounts₂ rfl
    · obtain ⟨s₂, isRead, accounts₂⟩ := bread_absent present accounts₁
      rw [isRead]
      exact ih (entries - (i + 64)) (by omega) ⟨isEnd, accounts₂⟩ rfl
  · obtain ⟨here, rfl, isData⟩ := data_hasBuffer has (Nat.not_le.mp isEnd)
    have accounts : Accounts base s [here.bh] := has
    rw [if_neg isEnd, isData]
    dsimp only
    split
    next => exact accounts.ends
    next => exact ih (entries - (i + 1)) (by omega) accounts rfl

theorem ends_findEntryByInum (childINum : Nat) (accounts : Accounts base s []) :
    Ends base found (findEntryByInum world dir childINum s) := by
  rw [findEntryByInum]
  split
  next => exact accounts.ends
  next =>
    by_cases present : world.Present dir.iZone
    · obtain ⟨next, s', isRead, accounts'⟩ := bread_present present accounts
      rw [isRead]
      exact ends_inumLoop accounts'
    · obtain ⟨s', isRead, accounts'⟩ := bread_absent present accounts
      rw [isRead]
      exact accounts'.ends

theorem ends_lsLoop {entries i j : Nat} {bh : Option Buf} (has : HasBuffer base s j bh) :
    Ends base (fun _ => []) (lsLoop world dir entries i j bh s) := by
  induction left : entries - i using Nat.strong_induction_on generalizing i j bh s with
  | _ left ih =>
  rw [lsLoop]
  by_cases more : i < entries
  swap
  · obtain ⟨s', released, accounts⟩ := brelse_hasBuffer has
    rw [if_neg more, released]
    exact accounts.ends
  rw [if_pos more]
  by_cases isEnd : j ≥ dirEntriesPerBlock
  · obtain ⟨s₁, released, accounts₁⟩ := brelse_hasBuffer has
    rw [if_pos isEnd, released]
    dsimp only
    split
    next => exact ih (entries - (i + 64)) (by omega) ⟨isEnd, accounts₁⟩ rfl
    next =>
      by_cases present : world.Present (dir.bmap (i / dirEntriesPerBlock))
      · obtain ⟨next, s₂, isRead, accounts₂⟩ := bread_present present accounts₁
        rw [isRead]
        exact ih (entries - (i + 1)) (by omega) accounts₂ rfl
      · obtain ⟨s₂, isRead, accounts₂⟩ := bread_absent present accounts₁
        rw [isRead]
        trivial
  · obtain ⟨here, rfl, isData⟩ := data_hasBuffer has (Nat.not_le.mp isEnd)
    rw [if_neg isEnd, isData]
    exact ih (entries - (i + 1)) (by omega) has rfl

theorem ends_sysLs (accounts : Accounts base s []) :
    Ends base (fun _ => []) (sysLs world dir s) := by
  rw [sysLs]
  split
  next => trivial
  next =>
    by_cases present : world.Present dir.iZone
    · obtain ⟨next, s', isRead, accounts'⟩ := bread_present present accounts
      rw [isRead]
      exact ends_lsLoop accounts'
    · obtain ⟨s', isRead, accounts'⟩ := bread_absent present accounts
      rw [isRead]
      trivial

/-! ## The five scans -/

/-- What the scans are called with. -/
structure Scan where
  dir : Directory
  /-- The directory of the two scans that look for a name is the root of the process. -/
  isRoot : Bool
  sImount : Option Directory
  name : Name
  childINum : Nat

/-- All scans leave the counts as they were, but for the reference on the buffer of an entry that
is returned, and use and release no buffer that they do not hold. -/
structure Balanced (world : World) (scan : Scan) (bCount : Bh → Nat) (reads : Nat) : Prop where
  findEntry : Ends bCount found
    (findEntry world scan.dir scan.isRoot scan.sImount scan.name ⟨bCount, [], reads⟩)
  addEntry : Ends bCount found (addEntry world scan.dir scan.name ⟨bCount, [], reads⟩)
  findEntryByInum : Ends bCount found
    (findEntryByInum world scan.dir scan.childINum ⟨bCount, [], reads⟩)
  emptyDir : Ends bCount (fun _ => []) (emptyDir world scan.dir ⟨bCount, [], reads⟩)
  sysLs : Ends bCount (fun _ => []) (sysLs world scan.dir ⟨bCount, [], reads⟩)

/-- The directory that `find_entry` searches, with the name. -/
def Scan.target (scan : Scan) : Directory × Name :=
  dotDot scan.dir scan.isRoot scan.sImount (scan.name.take nameLen)

theorem balanced_iff (world : World) (scan : Scan) (bCount : Bh → Nat) (reads : Nat) :
    Balanced world scan bCount reads ↔
      FindSafe world scan.target.1 scan.target.2 (scan.dir.iSize / 16) ∧
        AddSafe world scan.dir scan.name ∧ EmptySafe world scan.dir := by
  have accounts := accounts_start bCount reads
  have find : Ends bCount found
      (findEntry world scan.dir scan.isRoot scan.sImount scan.name ⟨bCount, [], reads⟩) ↔
      FindSafe world scan.target.1 scan.target.2 (scan.dir.iSize / 16) := searchDir_iff accounts
  constructor
  · intro balanced
    exact ⟨find.mp balanced.findEntry, (addEntry_iff accounts).mp balanced.addEntry,
      (emptyDir_iff accounts).mp balanced.emptyDir⟩
  · rintro ⟨findSafe, addSafe, emptySafe⟩
    exact ⟨find.mpr findSafe, (addEntry_iff accounts).mpr addSafe,
      ends_findEntryByInum scan.childINum accounts, (emptyDir_iff accounts).mpr emptySafe,
      ends_sysLs accounts⟩

/-- A directory of 65 slots, all free but the first two, and the second block is a hole. -/
def holed : Directory where
  iNum := 5
  iSize := 65 * 16
  iZone := 9
  bmap k := if k = 0 then 9 else 0
  createBlock _ := 9

def oneBlock : World where
  readable _ := true
  buffer _ _ := 0
  slot _ i := if i = 0 then ⟨5, [dot]⟩ else if i = 1 then ⟨1, [dot, dot]⟩ else ⟨0, []⟩

/-- `empty_dir` releases the buffer of the first block once more. -/
theorem not_balanced_holed : ¬Balanced oneBlock ⟨holed, false, none, [97], 7⟩ (fun _ => 0) 0 := by
  intro balanced
  have safe := (emptyDir_iff (accounts_start _ 0)).mp balanced.emptyDir
  obtain ⟨j, atLeast, below, finds | ⟨behind, isFirst, -⟩⟩ :=
    (safe (by decide) ⟨by decide, rfl⟩).2 1 le_rfl (by decide) ⟨by decide, rfl⟩
  · have first : j / 64 = 0 := by omega
    apply finds
    simp only [slotAt, oneBlock]
    rw [if_neg (by omega), if_neg (by omega)]
  · omega

end Linux012.Fs.ScanBuffers
