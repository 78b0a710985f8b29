import Mathlib.Logic.Function.Basic
import Linux012.Exec.Header
import Linux012.Lib.LittleEndian

/-!
# Copying the arguments of `execve`

`count` and `copy_strings` of `exec.c`.  The strings are copied from the end of the argument area
downwards, byte by byte, into pages that are taken when they are needed.
-/

namespace Linux012.Exec

open Lib (longOf)

/-- `TASK_SIZE`. -/
abbrev taskSize : Nat := 0x4000000

/-- `PAGE_SIZE`. -/
abbrev pageSize : Nat := 4096

/-- `MAX_ARG_PAGES`. -/
abbrev maxArgPages : Nat := 32

/-- The bytes of a page. -/
abbrev Page := Nat → UInt8

/-- What the segment register `fs` selects. -/
inductive Fs where
  | user
  | kernel
  deriving DecidableEq, Repr

/-- How a call can end without coming back to the program: beyond the limit of a segment, without
memory for a page that is not there, in `panic`, or behind the bounds of `page[]`. -/
inductive Stop where
  | fault
  | oom
  | panic
  | overrun
  deriving DecidableEq, Repr

/-- An entry of `current->sigaction`. -/
structure Sigaction where
  mask : UInt32
  flags : UInt32
  handler : UInt32
  deriving DecidableEq, Repr

/-- What `execve` reads and changes of `current`.  An inode is its number in `inode_table`. -/
structure Task where
  executable : Option Nat
  signal : UInt32
  sigaction : List Sigaction
  closeOnExec : UInt32
  filp : Nat → Option Nat
  usedMath : Bool
  /-- `last_task_used_math == current`. -/
  lastUsedMath : Bool
  endCode : UInt32
  endData : UInt32
  brk : UInt32
  startStack : UInt32
  euid : UInt16
  suid : UInt16
  egid : UInt16
  sgid : UInt16
  groups : List Int

/-- The part of the stack of the caller at `eip`. -/
structure Frame where
  eip : UInt32
  cs : UInt32
  esp : UInt32
  deriving DecidableEq, Repr

/-- What `execve` works on: the pages that `get_free_page` still has, the segment register, the
argument pages, the memory of the new image by its page tables and its pages, the task, the
references to inodes, and the frame of the caller. -/
structure Machine where
  free : Nat
  fs : Fs
  page : Nat → Option Page
  table : Nat → Bool
  mapped : Nat → Option Page
  task : Task
  count : Nat → Nat
  frame : Frame

abbrev ExecM := StateT Machine (Except Stop)

section Segments

variable (memory : Fs → List UInt8)

def getFsByte (address : UInt32) : ExecM UInt8 := do
  match (memory (← get).fs)[address.toNat]? with
  | some byte => return byte
  | none => throw .fault

def getFsLong (address : UInt32) : ExecM UInt32 := do
  match (memory (← get).fs).drop address.toNat with
  | b0 :: b1 :: b2 :: b3 :: _ => return longOf b0 b1 b2 b3
  | _ => throw .fault

def setFs (fs : Fs) : ExecM Unit := modify fun machine => { machine with fs }

/-- The loop of `count`, over the memory from `tmp` on. -/
def countLoop : List UInt8 → Option Int
  | b0 :: b1 :: b2 :: b3 :: rest =>
      if longOf b0 b1 b2 b3 = 0 then some 0 else (countLoop rest).map (· + 1)
  | _ => none

def count (argv : UInt32) : ExecM Int := do
  if argv = 0 then return 0
  match countLoop ((memory (← get).fs).drop argv.toNat) with
  | some i => return i
  | none => throw .fault

/-- The loop that counts the bytes of a string with its end, over the memory from `tmp` on. -/
def lengthLoop : List UInt8 → Option Nat
  | byte :: rest => if byte = 0 then some 1 else (lengthLoop rest).map (· + 1)
  | [] => none

def stringLength (tmp : UInt32) : ExecM Nat := do
  match lengthLoop ((memory (← get).fs).drop tmp.toNat) with
  | some len => return len
  | none => throw .fault

end Segments

/-- Which of the strings and of the array of strings are in the kernel. -/
inductive FromKmem where
  | neither
  | array
  | both
  deriving DecidableEq, Repr

section Copying

variable (memory : Fs → List UInt8) (fromKmem : FromKmem) (oldFs : Fs)

/-- `page[index]`, with a page from `get_free_page()` when it has none.  It fails when there is no
page left. -/
def findPage (index : Nat) : ExecM Bool := do
  let machine ← get
  match machine.page index, machine.free with
  | some _, _ => return true
  | none, 0 => return false
  | none, free + 1 =>
      set { machine with free, page := Function.update machine.page index (some fun _ => 0) }
      return true

/-- `*(pag + offset) = byte`, where `pag` is the page `page[index]`. -/
def storeByte (index : Nat) (offset : Int) (byte : UInt8) : ExecM Unit :=
  modify fun machine =>
    { machine with
      page := Function.update machine.page index
        ((machine.page index).map fun page => Function.update page offset.toNat byte) }

/-- The offset and the page of the byte at `p`, which is below the one before.  There is none when
no page is left. -/
def locate (p : UInt32) (offset : Int) (pag : Nat) : ExecM (Option (Int × Nat)) := do
  if 0 ≤ offset - 1 then return some (offset - 1, pag)
  let offset : Int := (p % 4096).toNat
  if fromKmem = .both then setFs oldFs
  let index := (p / 4096).toNat
  if maxArgPages ≤ index then throw .overrun
  if !(← findPage index) then return none
  if fromKmem = .both then setFs .kernel
  return some (offset, index)

/-- The byte at `tmp` is copied to `p`. -/
def copyByte (p tmp : UInt32) (offset : Int) (pag : Nat) : ExecM (Option (Int × Nat)) := do
  match ← locate fromKmem oldFs p offset pag with
  | none => return none
  | some (offset, pag) =>
      storeByte pag offset (← getFsByte memory tmp)
      return some (offset, pag)

/-- The loop that copies one string from its end on. -/
def copyBytes : (len : Nat) → (p tmp : UInt32) → (offset : Int) → (pag : Nat) →
    ExecM (Option (UInt32 × Int × Nat))
  | 0, p, _, offset, pag => return some (p, offset, pag)
  | len + 1, p, tmp, offset, pag => do
      match ← copyByte memory fromKmem oldFs (p - 1) (tmp - 1) offset pag with
      | none => return none
      | some (offset, pag) => copyBytes len (p - 1) (tmp - 1) offset pag

/-- The pointer to the string with the number `argc`. -/
def stringPointer (argv : UInt32) (argc : Nat) : ExecM UInt32 := do
  if fromKmem = .array then setFs .kernel
  let tmp ← getFsLong memory (argv + 4 * UInt32.ofNat argc)
  if tmp = 0 then throw .panic
  if fromKmem = .array then setFs oldFs
  return tmp

/-- The loop of `copy_strings` over the strings from the last one on. -/
def copyLoop (argv : UInt32) : (argc : Nat) → (p : UInt32) → (offset : Int) → (pag : Nat) →
    ExecM UInt32
  | 0, p, _, _ => do
      if fromKmem = .both then setFs oldFs
      return p
  | argc + 1, p, offset, pag => do
      let tmp ← stringPointer memory fromKmem oldFs argv argc
      let len ← stringLength memory tmp
      -- The difference is unsigned, so this never holds.
      if p - UInt32.ofNat len < 0 then
        setFs oldFs
        return 0
      match ← copyBytes memory fromKmem oldFs len p (tmp + UInt32.ofNat len) offset pag with
      | none => return 0
      | some (p, offset, pag) => copyLoop argv argc p offset pag

end Copying

/-- `copy_strings`. -/
def copyStrings (memory : Fs → List UInt8) (argc : Int) (argv p : UInt32) (fromKmem : FromKmem) :
    ExecM UInt32 := do
  if p = 0 then return 0
  let oldFs := (← get).fs
  if fromKmem = .both then setFs .kernel
  copyLoop memory fromKmem oldFs argv argc.toNat p 0 0

end Linux012.Exec
