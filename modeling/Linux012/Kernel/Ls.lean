import Mathlib.Algebra.Order.BigOperators.Group.List
import Linux012.Kernel.Vsprintf

/-!
# ls

`sys_ls` of `sys02.c`.  With no flags it gives the names themselves to `printk`, as formats.
-/

namespace Linux012.Kernel.Ls

open Vsprintf

/-- `DIR_ENTRIES_PER_BLOCK`. -/
abbrev dirEntriesPerBlock : Nat := 64

/-- A buffer: the bytes of its block, and the memory behind them. -/
structure Buffer where
  bData : Nat → UInt8
  behind : List UInt8

/-- `current->pwd`; `bmap` gives 0 for a hole, and a block that cannot be read is `none`. -/
structure Directory where
  iSize : Nat
  bmap : Nat → Nat
  bread : Nat → Option Buffer

namespace Buffer

variable (bh : Buffer)

/-- `de->inode`. -/
def inode (j : Nat) : Nat := (bh.bData (16 * j)).toNat + 256 * (bh.bData (16 * j + 1)).toNat

/-- The memory from `de->name` on. -/
def fromName (j : Nat) : List UInt8 :=
  (List.range' (16 * j + 2) (1024 - (16 * j + 2))).map bh.bData ++ bh.behind

end Buffer

/-! ## sys_ls -/

/-- What has come to the console, and how many conversions `printk` has found in names. -/
structure Printed where
  console : List UInt8
  interpreted : Nat
  deriving DecidableEq, Repr

/-- An argument that points to the name; the format asks for no other one. -/
def nameArg (name : List UInt8) : Args := ⟨fun _ => 0, fun _ => name⟩

/-- An argument that is a number. -/
def numberArg (i : Nat) : Args := ⟨fun _ => UInt32.ofNat i, fun _ => []⟩

/-- The first format for an entry with flags. -/
def nameFormat : List UInt8 :=
  text ['d', 'i', 'r', 'e', 'c', 't', 'a', 'r', 'y', ' ', 'e', 'n', 't', 'r', 'y', ' ',
    'n', 'a', 'm', 'e', ':', ' ', '%', 's', '\t', '\t']

/-- The second one. -/
def inodeFormat : List UInt8 :=
  text ['i', 'n', 'o', 'd', 'e', ' ', 'N', 'o', ':', ' ', '%', 'd', '\n']

/-- One live entry; `stack` is what `printk` finds behind a name as its format. -/
def printEntry (flags : Int) (stack : Args) (bh : Buffer) (j : Nat) (s : Printed) : Printed :=
  if flags = 0 then
    { console := s.console ++ (printk (bh.fromName j) stack ++ printk (text ['\t']) stack)
      interpreted := s.interpreted + (vsprintf (bh.fromName j) stack).conversions }
  else
    { s with
      console := s.console ++ (printk nameFormat (nameArg (bh.fromName j)) ++
        printk inodeFormat (numberArg (bh.inode j))) }

/-- What a round of the loop starts with. -/
inductive Round where
  | panic
  | hole
  | entry (bh : Buffer) (j : Nat)

/-- The entry of a round: at the end of a block the next one is read. -/
def round (d : Directory) (i j : Nat) (bh : Option Buffer) : Round :=
  if j ≥ dirEntriesPerBlock then
    if d.bmap (i / dirEntriesPerBlock) = 0 then .hole
    else
      match d.bread (d.bmap (i / dirEntriesPerBlock)) with
      | none => .panic
      | some bh => .entry bh 0
  else
    match bh with
    | none => .panic
    | some bh => .entry bh j

/-- The loop of `sys_ls`; each round takes one entry at least. -/
def lsLoop (d : Directory) (flags : Int) (stack : Nat → Args) (entries : Nat) :
    (left i j : Nat) → Option Buffer → Printed → Option Printed
  | 0, _, _, _, s => some s
  | left + 1, i, j, bh, s =>
      if i < entries then
        match round d i j bh with
        | .panic => none
        | .hole => lsLoop d flags stack entries left (i + dirEntriesPerBlock) j none s
        | .entry bh j =>
            lsLoop d flags stack entries left (i + 1) (j + 1) (some bh)
              (if bh.inode j ≠ 0 then printEntry flags (stack i) bh j s else s)
      else some s

/-- `sys_ls`; `none` when it panics. -/
def sysLs (d : Directory) (flags : Int) (stack : Nat → Args) : Option Printed :=
  let entries := d.iSize / 16
  if d.bmap 0 = 0 then none
  else
    match d.bread (d.bmap 0) with
    | none => none
    | some bh =>
        (lsLoop d flags stack entries entries 0 0 (some bh) ⟨[], 0⟩).map fun s =>
          if flags = 0 then { s with console := s.console ++ printk (text ['\n']) (stack entries) }
          else s

/-! ## The loop takes the slots in order -/

variable {d : Directory} {flags : Int} {stack : Nat → Args} {entries left i j : Nat}
variable {bh : Buffer} {buffer : Option Buffer} {s : Printed}

/-- What the loop does with one slot. -/
def visit (d : Directory) (flags : Int) (stack : Nat → Args) (s : Printed) (i : Nat) :
    Option Printed :=
  if d.bmap (i / dirEntriesPerBlock) = 0 then some s
  else
    (d.bread (d.bmap (i / dirEntriesPerBlock))).map fun bh =>
      if bh.inode (i % dirEntriesPerBlock) ≠ 0 then
        printEntry flags (stack i) bh (i % dirEntriesPerBlock) s
      else s

/-- A round starts at the end of a block, or within the block of its slot. -/
def InBlock (d : Directory) (i j : Nat) (buffer : Option Buffer) : Prop :=
  (i % dirEntriesPerBlock = 0 ∧ dirEntriesPerBlock ≤ j) ∨
    ∃ bh, j = i % dirEntriesPerBlock ∧ buffer = some bh ∧
      d.bmap (i / dirEntriesPerBlock) ≠ 0 ∧
        d.bread (d.bmap (i / dirEntriesPerBlock)) = some bh

/-- A hole has no entries. -/
theorem foldlM_hole {n : Nat} (aligned : i % dirEntriesPerBlock = 0) (fits : n ≤ dirEntriesPerBlock)
    (hole : d.bmap (i / dirEntriesPerBlock) = 0) :
    (List.range' i n).foldlM (visit d flags stack) s = some s := by
  have skips : ∀ slot ∈ List.range' i n, ∀ s, visit d flags stack s slot = some s := by
    intro slot member s
    obtain ⟨from_, below⟩ := List.mem_range'_1.mp member
    have same : slot / dirEntriesPerBlock = i / dirEntriesPerBlock := by
      rw [dirEntriesPerBlock] at aligned fits ⊢
      omega
    rw [visit, same, if_pos hole]
  generalize List.range' i n = slots at skips
  induction slots with
  | nil => rfl
  | cons slot slots ih =>
      rw [List.foldlM_cons, skips slot List.mem_cons_self]
      exact ih fun later member => skips later (List.mem_cons_of_mem slot member)

/-- The entry of a round is the one of its slot. -/
theorem round_eq (inBlock : InBlock d i j buffer) :
    round d i j buffer =
      if d.bmap (i / dirEntriesPerBlock) = 0 then .hole
      else
        match d.bread (d.bmap (i / dirEntriesPerBlock)) with
        | none => .panic
        | some bh => .entry bh (i % dirEntriesPerBlock) := by
  rcases inBlock with ⟨aligned, full⟩ | ⟨bh, rfl, rfl, mapped, isRead⟩
  · rw [round.eq_def, if_pos full, aligned]
  · have within : ¬i % dirEntriesPerBlock ≥ dirEntriesPerBlock :=
      not_le_of_gt (Nat.mod_lt i (by decide))
    rw [round.eq_def, if_neg within, if_neg mapped, isRead]

/-- A hole is come to at the end of a block. -/
theorem InBlock.aligned_of_hole (inBlock : InBlock d i j buffer)
    (hole : d.bmap (i / dirEntriesPerBlock) = 0) :
    i % dirEntriesPerBlock = 0 ∧ dirEntriesPerBlock ≤ j := by
  rcases inBlock with here | ⟨bh, -, -, mapped, -⟩
  · exact here
  · exact absurd hole mapped

/-- The next slot is in the same block or at the start of another one. -/
theorem inBlock_succ (mapped : d.bmap (i / dirEntriesPerBlock) ≠ 0)
    (isRead : d.bread (d.bmap (i / dirEntriesPerBlock)) = some bh) :
    InBlock d (i + 1) (i % dirEntriesPerBlock + 1) (some bh) := by
  by_cases last : i % dirEntriesPerBlock + 1 = dirEntriesPerBlock
  · refine .inl ⟨?_, le_of_eq last.symm⟩
    rw [dirEntriesPerBlock] at last ⊢
    omega
  · have same : (i + 1) / dirEntriesPerBlock = i / dirEntriesPerBlock := by
      rw [dirEntriesPerBlock] at last ⊢
      omega
    refine .inr ⟨bh, ?_, rfl, same ▸ mapped, same ▸ isRead⟩
    rw [dirEntriesPerBlock] at last ⊢
    omega

theorem lsLoop_eq (inBlock : InBlock d i j buffer) (enough : entries - i ≤ left) :
    lsLoop d flags stack entries left i j buffer s =
      (List.range' i (entries - i)).foldlM (visit d flags stack) s := by
  induction left generalizing i j buffer s with
  | zero =>
      have none : entries - i = 0 := by omega
      rw [none]
      rfl
  | succ left ih =>
      rw [lsLoop]
      split
      next more =>
        have counted : entries - i = (entries - (i + 1)) + 1 := by omega
        rw [round_eq inBlock]
        by_cases hole : d.bmap (i / dirEntriesPerBlock) = 0
        · rw [if_pos hole]
          obtain ⟨aligned, full⟩ := inBlock.aligned_of_hole hole
          have jump : entries - (i + dirEntriesPerBlock) ≤ left := by
            rw [dirEntriesPerBlock]
            omega
          have inBlock' : InBlock d (i + dirEntriesPerBlock) j none :=
            .inl ⟨by rw [Nat.add_mod_right, aligned], full⟩
          have parts : List.range' i (entries - i) =
              List.range' i (min dirEntriesPerBlock (entries - i)) ++
                List.range' (i + dirEntriesPerBlock) (entries - (i + dirEntriesPerBlock)) := by
            by_cases short : entries - i ≤ dirEntriesPerBlock
            · have none : entries - (i + dirEntriesPerBlock) = 0 := by omega
              rw [none, min_eq_right short, List.range'_zero, List.append_nil]
            · rw [min_eq_left (by omega), List.range'_append_1]
              congr 1
              omega
          rw [ih inBlock' jump, parts, List.foldlM_append,
            foldlM_hole aligned (min_le_left _ _) hole]
          rfl
        · rw [if_neg hole, counted, List.range'_succ, List.foldlM_cons, visit, if_neg hole]
          cases isRead : d.bread (d.bmap (i / dirEntriesPerBlock)) with
          | none => rfl
          | some bh => exact ih (inBlock_succ hole isRead) (by omega)
      next done =>
        have none : entries - i = 0 := by omega
        rw [none]
        rfl

/-! ## What printk makes of an entry -/

theorem printk_nameFormat {memory : List UInt8} : printk nameFormat (nameArg memory) =
    nameFormat.take 22 ++ cString memory ++ text ['\t', '\t'] := by
  have written : (vsprintf nameFormat (nameArg memory)).str =
      nameFormat.take 22 ++ cString memory ++ text ['\t', '\t'] := by
    refine @vsprintf_one (nameArg memory) nameFormat _ _ _ (ch 's') (by decide) (by decide)
      (by decide) rfl ?_
    have isString : converted (nameArg memory) (plainSpec (ch 's' :: text ['\t', '\t']))
        ((nameArg memory).word 0) (ch 's') = some (padded {} (-1) (cString memory)) := rfl
    rw [isString, padded_of_width_none]
  rw [printk, written]
  refine cString_eq_self fun member => ?_
  rcases List.mem_append.mp member with member | member
  · rcases List.mem_append.mp member with member | member
    · revert member
      decide
    · exact zero_not_mem_cString member
  · revert member
    decide

theorem zero_not_mem_decimal {n : Nat} : 0 ∉ decimal n := by
  rw [decimal]
  split
  · decide
  · intro member
    obtain ⟨k, isDigit, zero⟩ := List.mem_map.mp member
    rw [List.mem_reverse] at isDigit
    have small := Nat.digits_lt_base (by decide) isDigit
    have value := congrArg UInt8.toNat zero
    rw [UInt8.toNat_ofNat'] at value
    have isZero : (0 : UInt8).toNat = 0 := rfl
    omega

theorem printk_inodeFormat {n : Nat} (small : n < 65536) : printk inodeFormat (numberArg n) =
    inodeFormat.take 10 ++ decimal n ++ text ['\n'] := by
  have written : (vsprintf inodeFormat (numberArg n)).str =
      inodeFormat.take 10 ++ decimal n ++ text ['\n'] := by
    refine @vsprintf_one (numberArg n) inodeFormat _ _ _ (ch 'd') (by decide) (by decide)
      (by decide) rfl ?_
    have isNumber : converted (numberArg n) (plainSpec (ch 'd' :: text ['\n']))
        ((numberArg n).word 0) (ch 'd') =
          some (number (UInt32.ofNat n) 10 (-1) (-1) { sign := true }) := rfl
    have value : (UInt32.ofNat n).toNat = n := UInt32.toNat_ofNat_of_lt' (by
      rw [UInt32.size]
      omega)
    rw [isNumber, number_decimal (by rw [value]; omega), value]
  rw [printk, written]
  refine cString_eq_self fun member => ?_
  rcases List.mem_append.mp member with member | member
  · rcases List.mem_append.mp member with member | member
    · revert member
      decide
    · exact zero_not_mem_decimal member
  · revert member
    decide

/-! ## Names -/

/-- `NAME_LEN`. -/
abbrev nameLen : Nat := 14

namespace Buffer

/-- The name field of an entry. -/
def nameField (bh : Buffer) (j : Nat) : List UInt8 :=
  (List.range' (16 * j + 2) nameLen).map bh.bData

/-- The name of an entry: the bytes up to the first NUL, or all 14. -/
def name (bh : Buffer) (j : Nat) : List UInt8 := cString (bh.nameField j)

/-- There is a NUL in the name field, or right behind it. -/
def Ends (bh : Buffer) (j : Nat) : Prop :=
  0 ∈ bh.nameField j ∨ ((bh.fromName j).drop nameLen).head?.getD 0 = 0

variable (bh)

theorem fromName_eq (inBlock : j < dirEntriesPerBlock) :
    bh.fromName j = bh.nameField j ++ (bh.fromName j).drop nameLen := by
  have isTake : bh.nameField j = (bh.fromName j).take nameLen := by
    have long : nameLen ≤ 1024 - (16 * j + 2) := by
      rw [dirEntriesPerBlock] at inBlock
      rw [nameLen]
      omega
    rw [fromName, nameField, List.take_append_of_le_length (by simpa using long), ← List.map_take,
      List.take_range'_of_length_ge long]
  rw [isTake, List.take_append_drop]

/-- A name as a format or as an argument ends at the first NUL, wherever that is. -/
theorem cString_fromName (inBlock : j < dirEntriesPerBlock) :
    cString (bh.fromName j) = bh.name j ++
      if 0 ∈ bh.nameField j then [] else cString ((bh.fromName j).drop nameLen) := by
  conv_lhs => rw [bh.fromName_eq inBlock, cString_append]
  rfl

/-- Nothing follows the name if and only if it ends. -/
theorem cString_fromName_eq_iff (inBlock : j < dirEntriesPerBlock) :
    cString (bh.fromName j) = bh.name j ↔ bh.Ends j := by
  rw [bh.cString_fromName inBlock, Ends]
  by_cases ended : 0 ∈ bh.nameField j
  · rw [if_pos ended, List.append_nil]
    exact iff_of_true rfl (.inl ended)
  · rw [if_neg ended, List.append_right_eq_self]
    generalize (bh.fromName j).drop nameLen = behind
    constructor
    · intro empty
      refine .inr ?_
      cases behind with
      | nil => rfl
      | cons c behind =>
          by_contra notZero
          rw [cString, List.takeWhile_cons_of_pos (by simpa using notZero)] at empty
          cases empty
    · rintro (isZero | isZero)
      · exact absurd isZero ended
      · cases behind with
        | nil => rfl
        | cons c behind =>
            obtain rfl : c = 0 := isZero
            rfl

end Buffer

/-! ## Printing the names -/

/-- The live entry in a slot. -/
def slotAt (d : Directory) (i : Nat) : Option (Buffer × Nat) :=
  if d.bmap (i / dirEntriesPerBlock) = 0 then none
  else
    (d.bread (d.bmap (i / dirEntriesPerBlock))).bind fun bh =>
      if bh.inode (i % dirEntriesPerBlock) ≠ 0 then some (bh, i % dirEntriesPerBlock) else none

/-- The slots of the directory. -/
def slots (d : Directory) : List Nat := List.range (d.iSize / 16)

/-- The text of one entry. -/
def shown (flags : Int) (name : List UInt8) (inode : Nat) : List UInt8 :=
  if flags = 0 then name ++ text ['\t']
  else nameFormat.take 22 ++ name ++ text ['\t', '\t'] ++
    (inodeFormat.take 10 ++ decimal inode ++ text ['\n'])

/-- The text for a slot. -/
def shownAt (d : Directory) (flags : Int) (i : Nat) : List UInt8 :=
  match slotAt d i with
  | none => []
  | some (bh, j) => shown flags (bh.name j) (bh.inode j)

/-- The text of the live entries in order. -/
def listing (d : Directory) (flags : Int) : List UInt8 := (slots d).flatMap (shownAt d flags)

/-- `sys_ls` prints the names of the live entries, with the numbers of their inodes if flags are
given, and interprets no byte of a name. -/
def PrintsNames (d : Directory) (flags : Int) (stack : Nat → Args) : Prop :=
  ∃ s, sysLs d flags stack = some s ∧ s.interpreted = 0 ∧
    s.console = listing d flags ++ if flags = 0 then text ['\n'] else []

/-- The first block of the directory is there, and all blocks that are there can be read. -/
structure Readable (d : Directory) : Prop where
  mapped : d.bmap 0 ≠ 0
  first : (d.bread (d.bmap 0)).isSome = true
  blocks : ∀ i ∈ slots d, d.bmap (i / dirEntriesPerBlock) ≠ 0 →
    (d.bread (d.bmap (i / dirEntriesPerBlock))).isSome = true

/-- The blocks can be read, all names end, and no name that is printed as a format has a percent
sign. -/
structure PrintsAsIs (d : Directory) (flags : Int) : Prop where
  readable : Readable d
  ends : ∀ i ∈ slots d, ∀ bh j, slotAt d i = some (bh, j) → bh.Ends j
  plain : flags = 0 → ∀ i ∈ slots d, ∀ bh j, slotAt d i = some (bh, j) → ch '%' ∉ bh.name j

/-- What is printed for a slot. -/
def written (d : Directory) (flags : Int) (stack : Nat → Args) (i : Nat) : Printed :=
  match slotAt d i with
  | none => ⟨[], 0⟩
  | some (bh, j) => printEntry flags (stack i) bh j ⟨[], 0⟩

/-- One piece of output behind another. -/
def Printed.append (s t : Printed) : Printed :=
  ⟨s.console ++ t.console, s.interpreted + t.interpreted⟩

theorem printEntry_append {stack : Args} :
    printEntry flags stack bh j s = s.append (printEntry flags stack bh j ⟨[], 0⟩) := by
  rw [printEntry, printEntry, Printed.append]
  split
  · simp
  · simp

/-- The block of a slot is missing, or can be read. -/
def ReadableAt (d : Directory) (i : Nat) : Prop :=
  d.bmap (i / dirEntriesPerBlock) ≠ 0 →
    (d.bread (d.bmap (i / dirEntriesPerBlock))).isSome = true

theorem visit_eq (readable : ReadableAt d i) :
    visit d flags stack s i = some (s.append (written d flags stack i)) := by
  rw [visit, written, slotAt]
  split
  · simp [Printed.append]
  next mapped =>
    obtain ⟨bh, isRead⟩ := Option.isSome_iff_exists.mp (readable mapped)
    rw [isRead]
    by_cases live : bh.inode (i % dirEntriesPerBlock) = 0
    · simp [live, Printed.append]
    · simp only [Option.map_some, Option.bind_some, if_pos live]
      rw [printEntry_append]

theorem readableAt_of_visit {t : Printed} (visited : visit d flags stack s i = some t) :
    ReadableAt d i := by
  intro mapped
  rw [visit, if_neg mapped, Option.map_eq_some_iff] at visited
  obtain ⟨bh, isRead, -⟩ := visited
  rw [isRead]
  rfl

theorem foldlM_eq {list : List Nat} (readable : ∀ i ∈ list, ReadableAt d i) :
    list.foldlM (visit d flags stack) s = some
      (s.append ⟨list.flatMap fun i => (written d flags stack i).console,
        (list.map fun i => (written d flags stack i).interpreted).sum⟩) := by
  induction list generalizing s with
  | nil => simp [Printed.append]
  | cons i list ih =>
      rw [List.foldlM_cons, visit_eq (readable i List.mem_cons_self), Option.bind_eq_bind,
        Option.bind_some, ih fun later member => readable later (List.mem_cons_of_mem i member)]
      simp [Printed.append, Nat.add_assoc]

theorem readable_of_foldlM {list : List Nat} {t : Printed}
    (visited : list.foldlM (visit d flags stack) s = some t) : ∀ i ∈ list, ReadableAt d i := by
  induction list generalizing s with
  | nil => nofun
  | cons i list ih =>
      rw [List.foldlM_cons, Option.bind_eq_bind, Option.bind_eq_some_iff] at visited
      obtain ⟨middle, first, rest⟩ := visited
      exact List.forall_mem_cons.mpr ⟨readableAt_of_visit first, ih rest⟩

theorem printk_plain {memory : List UInt8} {args : Args} (plain : ch '%' ∉ cString memory) :
    printk memory args = cString memory := by
  rw [printk, vsprintf_verbatim plain]
  exact cString_eq_self zero_not_mem_cString

/-- All blocks have been read. -/
theorem readable_of_sysLs (printed : sysLs d flags stack = some s) : Readable d := by
  rw [sysLs] at printed
  split at printed
  · cases printed
  next mapped =>
    split at printed
    · cases printed
    next bh isRead =>
      refine ⟨mapped, by rw [isRead]; rfl, ?_⟩
      obtain ⟨t, visited, -⟩ := Option.map_eq_some_iff.mp printed
      have first : InBlock d 0 0 (some bh) := .inr ⟨bh, rfl, rfl, mapped, isRead⟩
      rw [lsLoop_eq first (Nat.sub_le _ _), Nat.sub_zero, ← List.range_eq_range'] at visited
      exact readable_of_foldlM visited

/-- What is printed. -/
theorem sysLs_eq (readable : Readable d) : sysLs d flags stack = some
    ⟨((slots d).flatMap fun i => (written d flags stack i).console) ++
      (if flags = 0 then text ['\n'] else []),
      ((slots d).map fun i => (written d flags stack i).interpreted).sum⟩ := by
  obtain ⟨bh, isRead⟩ := Option.isSome_iff_exists.mp readable.first
  have first : InBlock d 0 0 (some bh) := .inr ⟨bh, rfl, rfl, readable.mapped, isRead⟩
  have newline {args : Args} : printk (text ['\n']) args = text ['\n'] := printk_plain (by decide)
  rw [sysLs]
  rw [if_neg readable.mapped, isRead]
  dsimp only
  have visited := @foldlM_eq d flags stack ⟨[], 0⟩ (slots d) readable.blocks
  rw [slots, List.range_eq_range'] at visited ⊢
  rw [lsLoop_eq first (Nat.sub_le _ _), Nat.sub_zero, visited]
  by_cases noFlags : flags = 0
  · simp [noFlags, Printed.append, newline]
  · simp [noFlags, Printed.append]

theorem slotAt_spec (live : slotAt d i = some (bh, j)) :
    j < dirEntriesPerBlock ∧ bh.inode j < 65536 := by
  rw [slotAt] at live
  split at live
  · cases live
  rw [Option.bind_eq_some_iff] at live
  obtain ⟨bh', -, isLive⟩ := live
  split at isLive
  · obtain ⟨rfl, rfl⟩ := Prod.mk.inj (Option.some.inj isLive)
    refine ⟨Nat.mod_lt i (by decide), ?_⟩
    rw [Buffer.inode]
    have low := UInt8.toNat_lt (bh'.bData (16 * (i % dirEntriesPerBlock)))
    have high := UInt8.toNat_lt (bh'.bData (16 * (i % dirEntriesPerBlock) + 1))
    omega
  · cases isLive

/-- A name is printed up to the first NUL, wherever that is. -/
theorem written_console (live : slotAt d i = some (bh, j))
    (plain : flags = 0 → ch '%' ∉ cString (bh.fromName j)) :
    (written d flags stack i).console = shown flags (cString (bh.fromName j)) (bh.inode j) := by
  have tab {args : Args} : printk (text ['\t']) args = text ['\t'] := printk_plain (by decide)
  rw [written, live]
  dsimp only
  rw [printEntry, shown]
  by_cases noFlags : flags = 0
  · rw [if_pos noFlags, if_pos noFlags, tab, printk_plain (plain noFlags)]
    rfl
  · rw [if_neg noFlags, if_neg noFlags, printk_nameFormat,
      printk_inodeFormat (slotAt_spec live).2]
    rfl

theorem written_interpreted (live : slotAt d i = some (bh, j)) :
    (written d flags stack i).interpreted = 0 ↔
      (flags = 0 → ch '%' ∉ cString (bh.fromName j)) := by
  rw [written, live]
  dsimp only
  rw [printEntry]
  by_cases noFlags : flags = 0
  · rw [if_pos noFlags, forall_prop_of_true noFlags, ← @conversions_eq_zero_iff (stack i)]
    simp
  · rw [if_neg noFlags]
    simp [noFlags]

theorem length_shown {name : List UInt8} {inode : Nat} :
    (shown flags name inode).length = name.length + (shown flags [] inode).length := by
  rw [shown, shown]
  split
  · simp
  · simp
    omega

/-- Texts that are as long together and none of which is shorter are all as long. -/
theorem length_eq_of_flatMap {list : List Nat} {f g : Nat → List UInt8}
    (same : list.flatMap f = list.flatMap g)
    (longer : ∀ i ∈ list, (g i).length ≤ (f i).length) :
    ∀ i ∈ list, (f i).length = (g i).length := by
  have total := congrArg List.length same
  rw [List.length_flatMap, List.length_flatMap] at total
  clear same
  induction list with
  | nil => nofun
  | cons i list ih =>
      have rest := List.sum_le_sum fun later member => longer later (List.mem_cons_of_mem i member)
      have first := longer i List.mem_cons_self
      rw [List.map_cons, List.map_cons, List.sum_cons, List.sum_cons] at total
      refine List.forall_mem_cons.mpr ⟨by omega, ih ?_ (by omega)⟩
      exact fun later member => longer later (List.mem_cons_of_mem i member)

/-- `sys_ls` prints the names as they are if and only if the blocks can be read, every name ends
within its field or right behind it, and without flags no name has a percent sign. -/
theorem printsNames_iff : PrintsNames d flags stack ↔ PrintsAsIs d flags := by
  constructor
  · rintro ⟨s, printed, zero, console⟩
    have readable := readable_of_sysLs printed
    rw [sysLs_eq readable] at printed
    obtain rfl := Option.some.inj printed
    have none (i : Nat) (member : i ∈ slots d) : (written d flags stack i).interpreted = 0 :=
      List.sum_eq_zero_iff_forall_eq_nat.mp zero _ (List.mem_map_of_mem member)
    have plain (i : Nat) (member : i ∈ slots d) (bh : Buffer) (j : Nat)
        (live : slotAt d i = some (bh, j)) (noFlags : flags = 0) :
        ch '%' ∉ cString (bh.fromName j) :=
      (written_interpreted live).mp (none i member) noFlags
    have longer (i : Nat) (member : i ∈ slots d) :
        (shownAt d flags i).length ≤ (written d flags stack i).console.length := by
      rw [shownAt]
      cases live : slotAt d i with
      | none => exact Nat.zero_le _
      | some place =>
          obtain ⟨bh, j⟩ := place
          dsimp only
          rw [written_console live (plain i member bh j live), length_shown,
            @length_shown flags (cString (bh.fromName j)),
            bh.cString_fromName (slotAt_spec live).1, List.length_append]
          omega
    have lengths := length_eq_of_flatMap (List.append_cancel_right console) longer
    have whole (i : Nat) (member : i ∈ slots d) (bh : Buffer) (j : Nat)
        (live : slotAt d i = some (bh, j)) : cString (bh.fromName j) = bh.name j := by
      have same := lengths i member
      rw [shownAt, live, written_console live (plain i member bh j live)] at same
      dsimp only at same
      rw [length_shown, @length_shown flags (bh.name j)] at same
      have parts := bh.cString_fromName (slotAt_spec live).1
      rw [parts, List.length_append] at same
      rw [parts, List.append_right_eq_self, ← List.length_eq_zero_iff]
      omega
    refine ⟨readable, fun i member bh j live => ?_, fun noFlags i member bh j live => ?_⟩
    · exact (bh.cString_fromName_eq_iff (slotAt_spec live).1).mp (whole i member bh j live)
    · rw [← whole i member bh j live]
      exact plain i member bh j live noFlags
  · rintro ⟨readable, ends, plain⟩
    have whole (i : Nat) (member : i ∈ slots d) (bh : Buffer) (j : Nat)
        (live : slotAt d i = some (bh, j)) : cString (bh.fromName j) = bh.name j :=
      (bh.cString_fromName_eq_iff (slotAt_spec live).1).mpr (ends i member bh j live)
    have asFormat (i : Nat) (member : i ∈ slots d) (bh : Buffer) (j : Nat)
        (live : slotAt d i = some (bh, j)) (noFlags : flags = 0) :
        ch '%' ∉ cString (bh.fromName j) := by
      rw [whole i member bh j live]
      exact plain noFlags i member bh j live
    refine ⟨_, sysLs_eq readable, ?_, ?_⟩
    · refine List.sum_eq_zero_iff_forall_eq_nat.mpr fun n isCount => ?_
      obtain ⟨i, member, rfl⟩ := List.mem_map.mp isCount
      cases live : slotAt d i with
      | none => rw [written, live]
      | some place =>
          exact (written_interpreted live).mpr (asFormat i member place.1 place.2 live)
    · have pieces : (slots d).flatMap (fun i => (written d flags stack i).console) =
          listing d flags := by
        refine List.flatMap_congr fun i member => ?_
        rw [shownAt]
        cases live : slotAt d i with
        | none => rw [written, live]
        | some place =>
            obtain ⟨bh, j⟩ := place
            rw [written_console live (asFormat i member bh j live), whole i member bh j live]
      rw [pieces]

/-- A directory with one entry, of the name `%d`. -/
def percentDir : Directory where
  iSize := 16
  bmap _ := 5
  bread _ := some ⟨fun i => if i = 0 then 2 else if i = 2 then ch '%' else if i = 3 then ch 'd'
    else 0, []⟩

theorem not_printsNames_percentDir :
    ¬PrintsNames percentDir 0 fun _ => ⟨fun _ => 0, fun _ => []⟩ := by
  rintro ⟨s, printed, zero, -⟩
  have converts : (sysLs percentDir 0 fun _ => ⟨fun _ => 0, fun _ => []⟩).map
      Printed.interpreted = some 1 := by
    decide +kernel
  rw [printed, Option.map_some, zero] at converts
  cases converts

end Linux012.Kernel.Ls
