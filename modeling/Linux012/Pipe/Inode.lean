import Mathlib.Data.Nat.Basic
import Mathlib.Data.Int.Basic
import Linux012.Lib.Sizes

/-!
# The inode of a pipe

The fields of an inode that `pipe.c` and `select.c` use, with the macros of `fs.h`.  The buffer
of a pipe is one page; its head and its tail are kept in `i_zone`, and one byte of the page
stays unused, so that a full pipe is not taken for an empty one.
-/

namespace Linux012.Pipe

/-- `PAGE_SIZE`. -/
abbrev pageSize : Nat := 4096

/-- An inode.  `iZone0` is the device of a character device and the head of a pipe. -/
structure Inode where
  iMode : Nat
  iPipe : Bool
  iCount : Nat
  iZone0 : Nat
  iZone1 : Nat
  deriving DecidableEq, Repr

namespace Inode

/-- `PIPE_HEAD`. -/
def pipeHead (inode : Inode) : Nat := inode.iZone0

/-- `PIPE_TAIL`. -/
def pipeTail (inode : Inode) : Nat := inode.iZone1

/-- `PIPE_SIZE`. -/
def pipeSize (inode : Inode) : Nat :=
  (((inode.pipeHead : Int) - inode.pipeTail) % pageSize).toNat

/-- `PIPE_EMPTY`. -/
def pipeEmpty (inode : Inode) : Bool := inode.pipeHead == inode.pipeTail

/-- `PIPE_FULL`. -/
def pipeFull (inode : Inode) : Bool := inode.pipeSize == pageSize - 1

/-- How many bytes `read_pipe` takes next: `size` of them at most, and not over the end of the
page. -/
def readChars (inode : Inode) (count : Nat) : Nat :=
  min (min (pageSize - inode.pipeTail) count) inode.pipeSize

/-- How many bytes `write_pipe` places next. -/
def writeChars (inode : Inode) (count : Nat) : Nat :=
  min (min (pageSize - inode.pipeHead) count) (pageSize - 1 - inode.pipeSize)

/-- `PIPE_TAIL(*inode) += chars; PIPE_TAIL(*inode) &= (PAGE_SIZE-1)`. -/
def advanceTail (inode : Inode) (chars : Nat) : Inode :=
  { inode with iZone1 := (inode.pipeTail + chars) % pageSize }

/-- `PIPE_HEAD(*inode) += chars; PIPE_HEAD(*inode) &= (PAGE_SIZE-1)`. -/
def advanceHead (inode : Inode) (chars : Nat) : Inode :=
  { inode with iZone0 := (inode.pipeHead + chars) % pageSize }

end Inode

end Linux012.Pipe
