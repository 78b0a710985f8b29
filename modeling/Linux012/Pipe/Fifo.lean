import Mathlib.Data.Set.BooleanAlgebra
import Mathlib.Order.CompletePartialOrder
import Linux012.Lib.Run
import Linux012.Lib.StreamRing
import Linux012.Pipe.Inode

/-!
# The bytes of a pipe

`read_pipe` and `write_pipe` of any tasks on one pipe.  A task is switched away in the loops
that wait, and in every page fault of `get_fs_byte` and `put_fs_byte`.  The tail and the head
have been advanced by then, so other tasks may use the same cells of the page before the copy
is finished.  A run may switch tasks before each byte, which covers every place where the code
can: `put_fs_byte` has its byte when it faults, so it is the next one that is loaded late.
-/

namespace Linux012.Pipe

open Lib (StreamRing)

/-- What the statements say about a chunk and the code does not know: the position of its next
byte in the stream, and how many chunks were taken or placed before it. -/
structure Chunk where
  position : Nat
  number : Nat
  deriving DecidableEq, Repr

/-- Where a task is in `read_pipe` or `write_pipe`, with the bytes of its buffer. -/
inductive CopyCall where
  | outside
  /-- At `while (count>0)`, with the bytes read. -/
  | reading (count : Nat) (buf : List UInt8)
  /-- At `while (chars-->0)`, with `size` and the bytes read. -/
  | copyOut (count chars size : Nat) (buf : List UInt8) (chunk : Chunk)
  /-- At `while (count>0)`, with the bytes that are left and `written`. -/
  | writing (buf : List UInt8) (written : Nat)
  /-- At `while (chars-->0)`, with `size`, the bytes that are left of the chunk and those
  behind it, and `written`. -/
  | copyIn (chars : List UInt8) (size : Nat) (buf : List UInt8) (written : Nat) (chunk : Chunk)
  | returned (result : Int) (buf : List UInt8)
  deriving DecidableEq, Repr

/-- A pipe with the calls of all tasks.  `accepted` are the bytes of the chunks that writers
have placed, in this order; `delivered` are the bytes of the chunks that readers have taken, as
far as they have been copied; `chunks` counts both kinds. -/
structure PipeState (Task : Type) where
  node : Inode
  page : Nat → UInt8
  /-- `current->signal & ~current->blocked`. -/
  signalled : Task → Bool
  call : Task → CopyCall
  accepted : List UInt8
  delivered : List (Option UInt8)
  chunks : Nat

inductive CopyAction (Task : Type) where
  /-- The task calls `read_pipe`. -/
  | read (task : Task) (count : Nat)
  /-- The task calls `write_pipe`. -/
  | write (task : Task) (buf : List UInt8)
  /-- The task is at `while (count>0)`, or looks again after it has slept there. -/
  | turn (task : Task)
  /-- The task copies a byte. -/
  | copy (task : Task)
  /-- Other tasks open or close an end, or post signals. -/
  | elsewhere (iCount : Nat) (signalled : Task → Bool)

section Steps

variable {Task : Type} [DecidableEq Task]

namespace PipeState

/-- The call of one task changes. -/
def setCall (s : PipeState Task) (task : Task) (call : CopyCall) : PipeState Task :=
  { s with call := Function.update s.call task call }

/-- One turn of `while (count>0)` in `read_pipe`. -/
def readTurn (s : PipeState Task) (task : Task) (count : Nat) (buf : List UInt8) :
    PipeState Task :=
  if count = 0 then s.setCall task (.returned buf.length buf)
  else if s.node.pipeSize = 0 then
    if s.node.iCount ≠ 2 then s.setCall task (.returned buf.length buf)
    else if s.signalled task then
      s.setCall task (.returned (if buf.length ≠ 0 then buf.length else -512) buf)
    else s
  else
    let chars := s.node.readChars count
    { s with
      node := s.node.advanceTail chars
      delivered := s.delivered ++ List.replicate chars none
      chunks := s.chunks + 1 }.setCall task
        (.copyOut (count - chars) chars s.node.pipeTail buf ⟨s.delivered.length, s.chunks⟩)

/-- One turn of `while (count>0)` in `write_pipe`. -/
def writeTurn (s : PipeState Task) (task : Task) (buf : List UInt8) (written : Nat) :
    PipeState Task :=
  if buf.length = 0 then s.setCall task (.returned written [])
  else if pageSize - 1 - s.node.pipeSize = 0 then
    if s.node.iCount ≠ 2 then
      { s with signalled := Function.update s.signalled task true }.setCall task
        (.returned (if written ≠ 0 then written else -1) [])
    else s
  else
    let chars := s.node.writeChars buf.length
    { s with
      node := s.node.advanceHead chars
      accepted := s.accepted ++ buf.take chars
      chunks := s.chunks + 1 }.setCall task
        (.copyIn (buf.take chars) s.node.pipeHead (buf.drop chars) (written + chars)
          ⟨s.accepted.length, s.chunks⟩)

/-- `put_fs_byte(((char *)inode->i_size)[size++],buf++)`. -/
def putByte (s : PipeState Task) (task : Task) (count chars size : Nat) (buf : List UInt8)
    (chunk : Chunk) : PipeState Task :=
  let byte := s.page size
  { s with delivered := s.delivered.set chunk.position (some byte) }.setCall task
    (if chars = 1 then .reading count (buf ++ [byte])
    else .copyOut count (chars - 1) (size + 1) (buf ++ [byte])
      { chunk with position := chunk.position + 1 })

/-- `((char *)inode->i_size)[size++]=get_fs_byte(buf++)`. -/
def getByte (s : PipeState Task) (task : Task) (byte : UInt8) (chars : List UInt8)
    (size : Nat) (buf : List UInt8) (written : Nat) (chunk : Chunk) : PipeState Task :=
  { s with page := Function.update s.page size byte }.setCall task
    (if chars = [] then .writing buf written
    else .copyIn chars (size + 1) buf written { chunk with position := chunk.position + 1 })

end PipeState

/-- One step. -/
def copyStep (s : PipeState Task) : CopyAction Task → Option (PipeState Task)
  | .read task count =>
      match s.call task with
      | .outside => some (s.setCall task (.reading count []))
      | .returned _ _ => some (s.setCall task (.reading count []))
      | _ => none
  | .write task buf =>
      match s.call task with
      | .outside => some (s.setCall task (.writing buf 0))
      | .returned _ _ => some (s.setCall task (.writing buf 0))
      | _ => none
  | .turn task =>
      match s.call task with
      | .reading count buf => some (s.readTurn task count buf)
      | .writing buf written => some (s.writeTurn task buf written)
      | _ => none
  | .copy task =>
      match s.call task with
      | .copyOut count chars size buf chunk => some (s.putByte task count chars size buf chunk)
      | .copyIn (byte :: chars) size buf written chunk =>
          some (s.getByte task byte chars size buf written chunk)
      | _ => none
  | .elsewhere iCount signalled =>
      some { s with node := { s.node with iCount := iCount }, signalled := signalled }

/-- `sys_pipe`: the pipe is empty, and nobody uses it yet. -/
def newPipe (iMode : Nat) (page : Nat → UInt8) (signalled : Task → Bool) : PipeState Task where
  node := ⟨iMode, true, 2, 0, 0⟩
  page := page
  signalled := signalled
  call _ := .outside
  accepted := []
  delivered := []
  chunks := 0

end Steps

/-! ## What is promised -/

section Spec

variable {Task : Type}

/-- The positions that the call still has to load from the page. -/
def CopyCall.loads : CopyCall → Set Nat
  | .copyOut _ chars _ _ chunk => Set.Ico chunk.position (chunk.position + chars)
  | _ => ∅

/-- The positions that the call still has to store in the page. -/
def CopyCall.stores : CopyCall → Set Nat
  | .copyIn chars _ _ _ chunk => Set.Ico chunk.position (chunk.position + chars.length)
  | _ => ∅

/-- First in, first out: the delivered bytes are those accepted in the same place, and what is
missing among the bytes taken is still being copied. -/
structure Fifo (s : PipeState Task) : Prop where
  taken : s.delivered.length ≤ s.accepted.length
  bytes : ∀ (position : Nat) (byte : UInt8), s.delivered[position]? = some (some byte) →
    s.accepted[position]? = some byte
  missing : ∀ position : Nat, s.delivered[position]? = some none →
    ∃ task, position ∈ (s.call task).loads

/-- A copy in progress: the number of its chunk, the cell of its next byte and how many bytes
are left. -/
structure Copying where
  number : Nat
  size : Nat
  left : Nat
  deriving DecidableEq, Repr

def CopyCall.copying : CopyCall → Option Copying
  | .copyOut _ chars size _ chunk => some ⟨chunk.number, size, chars⟩
  | .copyIn chars size _ _ chunk => some ⟨chunk.number, size, chars.length⟩
  | _ => none

variable [DecidableEq Task]

/-- The promise holds behind the step. -/
def KeepsFifo (s : PipeState Task) (action : CopyAction Task) : Prop :=
  ∀ next, copyStep s action = some next → Fifo next

/-- The condition on one step: when a byte is copied, no chunk that was taken or placed earlier
still has to be copied from or to the same cell. -/
def CopyAllowed (s : PipeState Task) : CopyAction Task → Prop
  | .copy task => ∀ mine, (s.call task).copying = some mine →
      ∀ other theirs, (s.call other).copying = some theirs → theirs.number < mine.number →
        ¬(theirs.size ≤ mine.size ∧ mine.size < theirs.size + theirs.left)
  | _ => True

omit [DecidableEq Task] in
/-- When no reader is in the middle of a copy, the delivered bytes are a prefix of the accepted
ones. -/
theorem Fifo.isPrefix {s : PipeState Task} (fifo : Fifo s)
    (noCopy : ∀ task, (s.call task).loads = ∅) :
    ∃ bytes, s.delivered = bytes.map some ∧ bytes <+: s.accepted := by
  refine ⟨s.accepted.take s.delivered.length, ?_, List.take_prefix _ _⟩
  apply List.ext_getElem?
  intro position
  rw [List.getElem?_map, List.getElem?_take]
  split
  · rename_i isTaken
    have isSome : s.delivered[position]? = some s.delivered[position] :=
      List.getElem?_eq_getElem isTaken
    cases entry : s.delivered[position] with
    | none =>
        rw [entry] at isSome
        obtain ⟨task, member⟩ := fifo.missing position isSome
        rw [noCopy task] at member
        cases member
    | some byte =>
        rw [entry] at isSome
        rw [isSome, fifo.bytes position byte isSome]
        rfl
  · rename_i beyond
    rw [List.getElem?_eq_none (Nat.le_of_not_lt beyond)]
    rfl

end Spec

/-! ## The invariant -/

section Invariant

variable {Task : Type}

/-- The page as a ring that the accepted bytes go through. -/
def PipeState.ring (s : PipeState Task) : StreamRing UInt8 where
  size := pageSize
  stream := s.accepted
  taken := s.delivered.length
  unstored := { position | ∃ task, position ∈ (s.call task).stores }
  unloaded := { position | ∃ task, position ∈ (s.call task).loads }
  cell := s.page

/-- The number of the chunk that the call copies. -/
def CopyCall.number : CopyCall → Nat
  | .copyOut _ _ _ _ chunk => chunk.number
  | .copyIn _ _ _ _ chunk => chunk.number
  | _ => 0

/-- A copy stays inside the page, at the cell of its position. -/
def CopyCall.Placed (s : PipeState Task) : CopyCall → Prop
  | .copyOut _ chars size _ chunk =>
      0 < chars ∧ size = chunk.position % pageSize ∧ size + chars ≤ pageSize ∧
        chunk.number < s.chunks
  | .copyIn chars size _ _ chunk =>
      chars ≠ [] ∧ size = chunk.position % pageSize ∧ size + chars.length ≤ pageSize ∧
        chunk.number < s.chunks ∧
        ∀ index < chars.length, s.accepted[chunk.position + index]? = chars[index]?
  | _ => True

/-- The numbers of the chunks that are being copied are in the order of their positions. -/
structure Ordered (call : Task → CopyCall) : Prop where
  storesApart : ∀ task other, task ≠ other → Disjoint (call task).stores (call other).stores
  loadsApart : ∀ task other, task ≠ other → Disjoint (call task).loads (call other).loads
  storesInOrder : ∀ task other, ∀ position ∈ (call task).stores, ∀ later ∈ (call other).stores,
    task ≠ other → position < later → (call task).number < (call other).number
  storesFirst : ∀ task other, ∀ position ∈ (call task).stores, ∀ later ∈ (call other).loads,
    position ≤ later → (call task).number < (call other).number
  loadsFirst : ∀ task other, ∀ position ∈ (call task).loads, ∀ later ∈ (call other).stores,
    position + pageSize ≤ later → (call task).number < (call other).number

/-- The invariant. -/
structure FifoInv (s : PipeState Task) : Prop extends Fifo s where
  good : s.ring.Good
  head : s.node.pipeHead = s.accepted.length % pageSize
  tail : s.node.pipeTail = s.delivered.length % pageSize
  placed : ∀ task, (s.call task).Placed s
  notYet : ∀ task, ∀ position ∈ (s.call task).loads, s.delivered[position]? = some none
  ordered : Ordered s.call

variable {s : PipeState Task} {task : Task} {call : CopyCall}

/-! ## The order of the chunks -/

/-- A copy that goes on, ends or has not begun keeps the order. -/
theorem Ordered.mono {other : Task → CopyCall} (ordered : Ordered s.call)
    (stores : ∀ task, (other task).stores ⊆ (s.call task).stores)
    (loads : ∀ task, (other task).loads ⊆ (s.call task).loads)
    (number : ∀ task, ((other task).stores ∪ (other task).loads).Nonempty →
      (other task).number = (s.call task).number) : Ordered other where
  storesApart first second differs :=
    (ordered.storesApart first second differs).mono (stores first) (stores second)
  loadsApart first second differs :=
    (ordered.loadsApart first second differs).mono (loads first) (loads second)
  storesInOrder first second position here later there differs before := by
    rw [number first ⟨position, .inl here⟩, number second ⟨later, .inl there⟩]
    exact ordered.storesInOrder first second position (stores first here) later
      (stores second there) differs before
  storesFirst first second position here later there before := by
    rw [number first ⟨position, .inl here⟩, number second ⟨later, .inr there⟩]
    exact ordered.storesFirst first second position (stores first here) later
      (loads second there) before
  loadsFirst first second position here later there before := by
    rw [number first ⟨position, .inr here⟩, number second ⟨later, .inl there⟩]
    exact ordered.loadsFirst first second position (loads first here) later
      (stores second there) before

theorem FifoInv.number_lt (inv : FifoInv s)
    (copies : ((s.call task).stores ∪ (s.call task).loads).Nonempty) :
    (s.call task).number < s.chunks := by
  have placed := inv.placed task
  cases isCall : s.call task with
  | copyOut count chars size buf chunk =>
      rw [isCall] at placed
      exact placed.2.2.2
  | copyIn chars size buf written chunk =>
      rw [isCall] at placed
      exact placed.2.2.2.1
  | _ => simp [isCall, CopyCall.stores, CopyCall.loads] at copies

theorem FifoInv.stores_lt (inv : FifoInv s) {position : Nat}
    (member : position ∈ (s.call task).stores) : position < s.accepted.length :=
  inv.good.unstored_lt position ⟨task, member⟩

theorem FifoInv.loads_lt (inv : FifoInv s) {position : Nat}
    (member : position ∈ (s.call task).loads) : position < s.delivered.length :=
  inv.good.unloaded_lt position ⟨task, member⟩

/-! ## Heads, tails and copies -/

/-- The bytes in the pipe. -/
theorem FifoInv.pipeSize_eq (inv : FifoInv s) :
    s.node.pipeSize = s.accepted.length - s.delivered.length := by
  have taken : s.delivered.length ≤ s.accepted.length := inv.taken
  have room : s.accepted.length < s.delivered.length + pageSize := inv.good.room
  rw [Inode.pipeSize, inv.head, inv.tail]
  simp only [pageSize] at room ⊢
  omega

theorem FifoInv.tail_lt (inv : FifoInv s) : s.node.pipeTail < pageSize := by
  rw [inv.tail]
  exact Nat.mod_lt _ (by decide)

theorem FifoInv.head_lt (inv : FifoInv s) : s.node.pipeHead < pageSize := by
  rw [inv.head]
  exact Nat.mod_lt _ (by decide)

/-- A copy stays placed when bytes are accepted behind it. -/
theorem CopyCall.Placed.mono {other : PipeState Task} (placed : call.Placed s)
    (chunks : s.chunks ≤ other.chunks) (accepted : s.accepted <+: other.accepted) :
    call.Placed other := by
  obtain ⟨behind, isAppend⟩ := accepted
  cases call with
  | copyOut count chars size buf chunk =>
      obtain ⟨positive, isSize, inside, number⟩ := placed
      exact ⟨positive, isSize, inside, lt_of_lt_of_le number chunks⟩
  | copyIn chars size buf written chunk =>
      obtain ⟨notEmpty, isSize, inside, number, bytes⟩ := placed
      refine ⟨notEmpty, isSize, inside, lt_of_lt_of_le number chunks, fun index isIndex => ?_⟩
      have here := bytes index isIndex
      rw [List.getElem?_eq_getElem isIndex] at here ⊢
      rw [← isAppend]
      have isPlaced := (List.getElem?_eq_some_iff.mp here).1
      rw [List.getElem?_append_left isPlaced]
      exact here
  | _ => trivial

variable [DecidableEq Task]

/-- The copy of one task goes on or ends. -/
theorem Ordered.shrink (ordered : Ordered s.call) (stores : call.stores ⊆ (s.call task).stores)
    (loads : call.loads ⊆ (s.call task).loads)
    (number : (call.stores ∪ call.loads).Nonempty → call.number = (s.call task).number) :
    Ordered (Function.update s.call task call) := by
  refine ordered.mono (fun other => ?_) (fun other => ?_) (fun other => ?_)
  · by_cases same : other = task
    · rw [same, Function.update_self]
      exact stores
    · rw [Function.update_of_ne same]
  · by_cases same : other = task
    · rw [same, Function.update_self]
      exact loads
    · rw [Function.update_of_ne same]
  · by_cases same : other = task
    · rw [same, Function.update_self]
      exact number
    · rw [Function.update_of_ne same]
      exact fun _ => rfl

/-- A reader takes the next positions. -/
theorem FifoInv.ordered_take (inv : FifoInv s) {chars : Nat}
    (loads : call.loads = Set.Ico s.delivered.length (s.delivered.length + chars))
    (stores : call.stores = ∅) (number : call.number = s.chunks) :
    Ordered (Function.update s.call task call) := by
  have ordered := inv.ordered
  have storesOf (first : Task) {position : Nat}
      (member : position ∈ (Function.update s.call task call first).stores) :
      first ≠ task ∧ position ∈ (s.call first).stores := by
    by_cases same : first = task
    · rw [same, Function.update_self, stores] at member
      cases member
    · rw [Function.update_of_ne same] at member
      exact ⟨same, member⟩
  have newApart (other : Task) : Disjoint call.loads (s.call other).loads := by
    rw [Set.disjoint_left, loads]
    intro position new old
    exact absurd new.1 (Nat.not_le_of_lt (inv.loads_lt old))
  refine ⟨fun first second differs => ?_, fun first second differs => ?_,
    fun first second position here later there differs before => ?_,
    fun first second position here later there before => ?_,
    fun first second position here later there before => ?_⟩
  · rw [Set.disjoint_left]
    intro position here there
    exact Set.disjoint_left.mp (ordered.storesApart first second differs)
      (storesOf first here).2 (storesOf second there).2
  · by_cases isFirst : first = task
    · rw [isFirst, Function.update_self, Function.update_of_ne (isFirst ▸ differs.symm)]
      exact newApart second
    · by_cases isSecond : second = task
      · rw [isSecond, Function.update_self, Function.update_of_ne isFirst]
        exact (newApart first).symm
      · rw [Function.update_of_ne isFirst, Function.update_of_ne isSecond]
        exact ordered.loadsApart first second differs
  · obtain ⟨notFirst, here⟩ := storesOf first here
    obtain ⟨notSecond, there⟩ := storesOf second there
    rw [Function.update_of_ne notFirst, Function.update_of_ne notSecond]
    exact ordered.storesInOrder first second position here later there differs before
  · obtain ⟨notFirst, here⟩ := storesOf first here
    rw [Function.update_of_ne notFirst]
    by_cases isSecond : second = task
    · rw [isSecond, Function.update_self, number]
      exact inv.number_lt ⟨position, .inl here⟩
    · rw [Function.update_of_ne isSecond] at there ⊢
      exact ordered.storesFirst first second position here later there before
  · obtain ⟨notSecond, there⟩ := storesOf second there
    rw [Function.update_of_ne notSecond]
    by_cases isFirst : first = task
    · rw [isFirst, Function.update_self, loads] at here
      have below := inv.stores_lt there
      have room : s.accepted.length < s.delivered.length + pageSize := inv.good.room
      have above := here.1
      omega
    · rw [Function.update_of_ne isFirst] at here ⊢
      exact ordered.loadsFirst first second position here later there before

/-- A writer places the next positions. -/
theorem FifoInv.ordered_place (inv : FifoInv s) {chars : Nat}
    (stores : call.stores = Set.Ico s.accepted.length (s.accepted.length + chars))
    (loads : call.loads = ∅) (number : call.number = s.chunks) :
    Ordered (Function.update s.call task call) := by
  have ordered := inv.ordered
  have loadsOf (first : Task) {position : Nat}
      (member : position ∈ (Function.update s.call task call first).loads) :
      first ≠ task ∧ position ∈ (s.call first).loads := by
    by_cases same : first = task
    · rw [same, Function.update_self, loads] at member
      cases member
    · rw [Function.update_of_ne same] at member
      exact ⟨same, member⟩
  have newApart (other : Task) : Disjoint call.stores (s.call other).stores := by
    rw [Set.disjoint_left, stores]
    intro position new old
    exact absurd new.1 (Nat.not_le_of_lt (inv.stores_lt old))
  refine ⟨fun first second differs => ?_, fun first second differs => ?_,
    fun first second position here later there differs before => ?_,
    fun first second position here later there before => ?_,
    fun first second position here later there before => ?_⟩
  · by_cases isFirst : first = task
    · rw [isFirst, Function.update_self, Function.update_of_ne (isFirst ▸ differs.symm)]
      exact newApart second
    · by_cases isSecond : second = task
      · rw [isSecond, Function.update_self, Function.update_of_ne isFirst]
        exact (newApart first).symm
      · rw [Function.update_of_ne isFirst, Function.update_of_ne isSecond]
        exact ordered.storesApart first second differs
  · rw [Set.disjoint_left]
    intro position here there
    exact Set.disjoint_left.mp (ordered.loadsApart first second differs)
      (loadsOf first here).2 (loadsOf second there).2
  · by_cases isFirst : first = task
    · rw [isFirst, Function.update_self, stores] at here
      rw [isFirst] at differs
      rw [Function.update_of_ne differs.symm] at there
      exact absurd (here.1.trans before.le) (Nat.not_le_of_lt (inv.stores_lt there))
    · rw [Function.update_of_ne isFirst] at here ⊢
      by_cases isSecond : second = task
      · rw [isSecond, Function.update_self, number]
        exact inv.number_lt ⟨position, .inl here⟩
      · rw [Function.update_of_ne isSecond] at there ⊢
        exact ordered.storesInOrder first second position here later there differs before
  · obtain ⟨notSecond, there⟩ := loadsOf second there
    rw [Function.update_of_ne notSecond]
    by_cases isFirst : first = task
    · rw [isFirst, Function.update_self, stores] at here
      have below := inv.loads_lt there
      have taken : s.delivered.length ≤ s.accepted.length := inv.taken
      have above := here.1
      omega
    · rw [Function.update_of_ne isFirst] at here ⊢
      exact ordered.storesFirst first second position here later there before
  · obtain ⟨notFirst, here⟩ := loadsOf first here
    rw [Function.update_of_ne notFirst]
    by_cases isSecond : second = task
    · rw [isSecond, Function.update_self, number]
      exact inv.number_lt ⟨position, .inr here⟩
    · rw [Function.update_of_ne isSecond] at there ⊢
      exact ordered.loadsFirst first second position here later there before

/-! ## The ring -/

/-- What all tasks together have to copy, when the call of one of them changes. -/
theorem union_update (sets : CopyCall → Set Nat) (calls : Task → CopyCall) (task : Task)
    (call : CopyCall) :
    { position | ∃ other, position ∈ sets (Function.update calls task call other) } =
      sets call ∪ { position | ∃ other ≠ task, position ∈ sets (calls other) } := by
  ext position
  constructor
  · rintro ⟨other, here⟩
    by_cases same : other = task
    · rw [same, Function.update_self] at here
      exact .inl here
    · rw [Function.update_of_ne same] at here
      exact .inr ⟨other, same, here⟩
  · rintro (here | ⟨other, differs, here⟩)
    · exact ⟨task, by rwa [Function.update_self]⟩
    · exact ⟨other, by rwa [Function.update_of_ne differs]⟩

theorem union_split (sets : CopyCall → Set Nat) (calls : Task → CopyCall) (task : Task) :
    { position | ∃ other, position ∈ sets (calls other) } =
      sets (calls task) ∪ { position | ∃ other ≠ task, position ∈ sets (calls other) } := by
  have here := union_update sets calls task (calls task)
  rwa [Function.update_eq_self] at here

/-- The call goes on with the same positions. -/
theorem union_same {sets : CopyCall → Set Nat} {calls : Task → CopyCall}
    (same : sets call = sets (calls task)) :
    { position | ∃ other, position ∈ sets (Function.update calls task call other) } =
      { position | ∃ other, position ∈ sets (calls other) } := by
  rw [union_update, union_split sets calls task, same]

/-- The call begins with new positions. -/
theorem union_add {sets : CopyCall → Set Nat} {calls : Task → CopyCall}
    (idle : sets (calls task) = ∅) :
    { position | ∃ other, position ∈ sets (Function.update calls task call other) } =
      { position | ∃ other, position ∈ sets (calls other) } ∪ sets call := by
  rw [union_update, union_split sets calls task, idle, Set.empty_union, Set.union_comm]

/-- The call is through with one position. -/
theorem union_erase {sets : CopyCall → Set Nat} {calls : Task → CopyCall} {position : Nat}
    (apart : ∀ other, task ≠ other → Disjoint (sets (calls task)) (sets (calls other)))
    (isHere : position ∈ sets (calls task)) (erased : sets call = sets (calls task) \ {position}) :
    { place | ∃ other, place ∈ sets (Function.update calls task call other) } =
      { place | ∃ other, place ∈ sets (calls other) } \ {position} := by
  have absent : position ∉ { place | ∃ other ≠ task, place ∈ sets (calls other) } := by
    rintro ⟨other, differs, there⟩
    exact Set.disjoint_left.mp (apart other differs.symm) isHere there
  rw [union_update, union_split sets calls task, erased, Set.union_sdiff_distrib,
    Set.sdiff_singleton_eq_self absent]

/-! ## Steps that copy nothing -/

theorem ring_setCall (stores : call.stores = (s.call task).stores)
    (loads : call.loads = (s.call task).loads) : (s.setCall task call).ring = s.ring := by
  simp only [PipeState.ring, PipeState.setCall]
  rw [union_same stores, union_same loads]

/-- A call that copies nothing before and nothing behind the step. -/
theorem FifoInv.setCall (inv : FifoInv s) (stores : (s.call task).stores = ∅)
    (loads : (s.call task).loads = ∅) (stores' : call.stores = ∅) (loads' : call.loads = ∅)
    (placed : call.Placed s) : FifoInv (s.setCall task call) where
  taken := inv.taken
  bytes := inv.bytes
  missing position isMissing := by
    have member : position ∈ s.ring.unloaded := inv.missing position isMissing
    rwa [← ring_setCall (stores'.trans stores.symm) (loads'.trans loads.symm)] at member
  good := by
    rw [ring_setCall (stores'.trans stores.symm) (loads'.trans loads.symm)]
    exact inv.good
  head := inv.head
  tail := inv.tail
  placed other := by
    by_cases same : other = task
    · simp only [PipeState.setCall, same, Function.update_self]
      exact placed
    · simp only [PipeState.setCall, Function.update_of_ne same]
      exact inv.placed other
  notYet other position member := by
    by_cases same : other = task
    · simp only [PipeState.setCall, same, Function.update_self, loads'] at member
      cases member
    · simp only [PipeState.setCall, Function.update_of_ne same] at member
      exact inv.notYet other position member
  ordered := by
    refine inv.ordered.shrink ?_ ?_ ?_
    · rw [stores']
      exact Set.empty_subset _
    · rw [loads']
      exact Set.empty_subset _
    · rw [stores', loads', Set.union_empty]
      exact fun nonempty => absurd rfl nonempty.ne_empty

/-! ## Steps that take and place chunks -/

/-- The other calls stay placed, and the new one is. -/
theorem FifoInv.placed_update {other : PipeState Task} (inv : FifoInv s)
    (chunks : s.chunks ≤ other.chunks) (accepted : s.accepted <+: other.accepted)
    (placed : call.Placed other) (runner : Task) :
    (Function.update s.call task call runner).Placed other := by
  by_cases same : runner = task
  · rw [same, Function.update_self]
    exact placed
  · rw [Function.update_of_ne same]
    exact (inv.placed runner).mono chunks accepted

/-- A reader takes a chunk. -/
theorem FifoInv.take {chars : Nat} (inv : FifoInv s) (stores : (s.call task).stores = ∅)
    (loads : (s.call task).loads = ∅) (positive : 0 < chars)
    (placed : s.delivered.length + chars ≤ s.accepted.length)
    (inside : s.node.pipeTail + chars ≤ pageSize) (count : Nat) (buf : List UInt8) :
    FifoInv ({ s with
      node := s.node.advanceTail chars
      delivered := s.delivered ++ List.replicate chars none
      chunks := s.chunks + 1 }.setCall task
        (.copyOut count chars s.node.pipeTail buf ⟨s.delivered.length, s.chunks⟩)) := by
  have isRing : ({ s with
      node := s.node.advanceTail chars
      delivered := s.delivered ++ List.replicate chars none
      chunks := s.chunks + 1 }.setCall task
        (.copyOut count chars s.node.pipeTail buf ⟨s.delivered.length, s.chunks⟩)).ring =
      s.ring.take chars := by
    simp only [PipeState.ring, PipeState.setCall, StreamRing.take, List.length_append,
      List.length_replicate]
    rw [union_same (by rw [stores]; rfl), union_add loads]
    rfl
  have entry (position : Nat) (new : s.delivered.length ≤ position)
      (below : position < s.delivered.length + chars) :
      (s.delivered ++ List.replicate chars none)[position]? = some none := by
    rw [List.getElem?_append_right new, List.getElem?_replicate]
    exact if_pos (by omega)
  refine ⟨⟨?_, fun position byte isByte => ?_, fun position isMissing => ?_⟩, ?_, inv.head, ?_,
    ?_, fun other position member => ?_, ?_⟩
  · simpa [PipeState.setCall] using placed
  · by_cases old : position < s.delivered.length
    · simp only [PipeState.setCall, List.getElem?_append_left old] at isByte
      exact inv.bytes position byte isByte
    · have below := (List.getElem?_eq_some_iff.mp isByte).1
      simp only [PipeState.setCall, List.length_append, List.length_replicate] at below
      have isNone := entry position (Nat.le_of_not_lt old) below
      simp only [PipeState.setCall] at isByte
      cases isNone.symm.trans isByte
  · have member : position ∈ (s.ring.take chars).unloaded := by
      by_cases old : position < s.delivered.length
      · simp only [PipeState.setCall, List.getElem?_append_left old] at isMissing
        exact .inl (inv.missing position isMissing)
      · have below := (List.getElem?_eq_some_iff.mp isMissing).1
        simp only [PipeState.setCall, List.length_append, List.length_replicate] at below
        exact .inr ⟨Nat.le_of_not_lt old, below⟩
    rwa [← isRing] at member
  · rw [isRing]
    exact inv.good.take placed
  · simp only [PipeState.setCall, Inode.advanceTail, Inode.pipeTail, List.length_append,
      List.length_replicate]
    have isTail := inv.tail
    rw [Inode.pipeTail] at isTail
    rw [isTail, Nat.mod_add_mod]
  · exact inv.placed_update (Nat.le_succ _) (List.prefix_refl _)
      ⟨positive, inv.tail, inside, Nat.lt_succ_self _⟩
  · by_cases same : other = task
    · simp only [PipeState.setCall, same, Function.update_self] at member
      exact entry position member.1 member.2
    · simp only [PipeState.setCall, Function.update_of_ne same] at member ⊢
      rw [List.getElem?_append_left (inv.loads_lt member)]
      exact inv.notYet other position member
  · exact inv.ordered_take rfl rfl rfl

/-- A writer places a chunk. -/
theorem FifoInv.place {bytes : List UInt8} (inv : FifoInv s)
    (stores : (s.call task).stores = ∅) (loads : (s.call task).loads = ∅)
    (notEmpty : bytes ≠ [])
    (room : s.accepted.length + bytes.length < s.delivered.length + pageSize)
    (inside : s.node.pipeHead + bytes.length ≤ pageSize) (buf : List UInt8) (written : Nat) :
    FifoInv ({ s with
      node := s.node.advanceHead bytes.length
      accepted := s.accepted ++ bytes
      chunks := s.chunks + 1 }.setCall task
        (.copyIn bytes s.node.pipeHead buf written ⟨s.accepted.length, s.chunks⟩)) := by
  have isRing : ({ s with
      node := s.node.advanceHead bytes.length
      accepted := s.accepted ++ bytes
      chunks := s.chunks + 1 }.setCall task
        (.copyIn bytes s.node.pipeHead buf written ⟨s.accepted.length, s.chunks⟩)).ring =
      s.ring.place bytes := by
    simp only [PipeState.ring, PipeState.setCall, StreamRing.place]
    rw [union_add stores, union_same (by rw [loads]; rfl)]
    rfl
  refine ⟨⟨?_, fun position byte isByte => ?_, fun position isMissing => ?_⟩, ?_, ?_, inv.tail,
    ?_, fun other position member => ?_, ?_⟩
  · simpa [PipeState.setCall] using Nat.le_add_right_of_le inv.taken
  · have here := inv.bytes position byte isByte
    have below := (List.getElem?_eq_some_iff.mp here).1
    simp only [PipeState.setCall]
    rw [List.getElem?_append_left below]
    exact here
  · have member : position ∈ (s.ring.place bytes).unloaded := inv.missing position isMissing
    rwa [← isRing] at member
  · rw [isRing]
    exact inv.good.place bytes room
  · simp only [PipeState.setCall, Inode.advanceHead, Inode.pipeHead, List.length_append]
    have isHead := inv.head
    rw [Inode.pipeHead] at isHead
    rw [isHead, Nat.mod_add_mod]
  · refine inv.placed_update (Nat.le_succ _) (List.prefix_append _ _)
      ⟨notEmpty, inv.head, inside, Nat.lt_succ_self _, fun index _ => ?_⟩
    simp only [PipeState.setCall]
    rw [List.getElem?_append_right (Nat.le_add_right _ _), Nat.add_sub_cancel_left]
  · by_cases same : other = task
    · simp only [PipeState.setCall, same, Function.update_self] at member
      cases member
    · simp only [PipeState.setCall, Function.update_of_ne same] at member
      exact inv.notYet other position member
  · exact inv.ordered_place rfl rfl rfl

/-! ## Copied bytes -/

omit [DecidableEq Task] in
/-- A position that still has to be copied is in one of the cells that are left. -/
theorem CopyCall.Placed.covers {position : Nat} (placed : call.Placed s)
    (member : position ∈ call.stores ∪ call.loads) :
    ∃ theirs, call.copying = some theirs ∧ theirs.number = call.number ∧
      theirs.size ≤ position % pageSize ∧ position % pageSize < theirs.size + theirs.left := by
  cases call with
  | copyOut count chars size buf chunk =>
      obtain ⟨-, isSize, inside, -⟩ := placed
      have isMember : position ∈ Set.Ico chunk.position (chunk.position + chars) :=
        member.resolve_left (Set.notMem_empty _)
      obtain ⟨above, below⟩ := isMember
      refine ⟨⟨chunk.number, size, chars⟩, rfl, rfl, ?_⟩
      simp only [pageSize] at isSize inside ⊢
      omega
  | copyIn chars size buf written chunk =>
      obtain ⟨-, isSize, inside, -⟩ := placed
      have isMember : position ∈ Set.Ico chunk.position (chunk.position + chars.length) :=
        member.resolve_right (Set.notMem_empty _)
      obtain ⟨above, below⟩ := isMember
      refine ⟨⟨chunk.number, size, chars.length⟩, rfl, rfl, ?_⟩
      simp only [pageSize] at isSize inside ⊢
      omega
  | _ =>
      rcases member with member | member
      · cases member
      · cases member

omit [DecidableEq Task] in
/-- An allowed copy has no older copy in its cell. -/
theorem FifoInv.not_older (inv : FifoInv s) (allowed : CopyAllowed s (.copy task))
    {mine : Copying} {position : Nat} {other : Task}
    (isMine : (s.call task).copying = some mine) (number : mine.number = (s.call task).number)
    (older : (s.call other).number < (s.call task).number)
    (member : position ∈ (s.call other).stores ∪ (s.call other).loads) :
    position % pageSize ≠ mine.size := by
  intro sameCell
  obtain ⟨theirs, isTheirs, theirNumber, above, below⟩ := (inv.placed other).covers member
  refine allowed mine isMine other theirs isTheirs ?_ ⟨sameCell ▸ above, sameCell ▸ below⟩
  rw [theirNumber, number]
  exact older

omit [DecidableEq Task] in
/-- The byte that an allowed `put_fs_byte` delivers is the one that was accepted. -/
theorem FifoInv.isByte {count chars size : Nat} {buf : List UInt8} {chunk : Chunk}
    (inv : FifoInv s) (isCall : s.call task = .copyOut count chars size buf chunk)
    (isHere : chunk.position ∈ (s.call task).loads) (allowed : CopyAllowed s (.copy task)) :
    s.accepted[chunk.position]? = some (s.page size) := by
  have placed := inv.placed task
  rw [isCall] at placed
  obtain ⟨-, isSize, -, -⟩ := placed
  -- the writer of the position is older, so it has stored its byte
  have stored : chunk.position ∉ s.ring.unstored := by
    rintro ⟨other, member⟩
    have older := inv.ordered.storesFirst other task chunk.position member chunk.position isHere
      (le_refl _)
    exact inv.not_older allowed (by rw [isCall]; rfl) (by rw [isCall]; rfl) older (.inl member)
      isSize.symm
  rw [isSize]
  exact inv.good.getElem?_of_load ⟨task, isHere⟩ stored

/-- A byte is delivered, and the reader goes on. -/
theorem FifoInv.deliver {position : Nat} {byte : UInt8} (inv : FifoInv s)
    (isHere : position ∈ (s.call task).loads) (isByte : s.accepted[position]? = some byte)
    (stores : (s.call task).stores = call.stores)
    (loads : call.loads = (s.call task).loads \ {position})
    (number : call.loads.Nonempty → call.number = (s.call task).number)
    (idle : (s.call task).stores = ∅) (placed : call.Placed s) :
    FifoInv ({ s with delivered := s.delivered.set position (some byte) }.setCall task call) := by
  have below : position < s.delivered.length := inv.loads_lt isHere
  have isRing : ({ s with delivered := s.delivered.set position (some byte) }.setCall task
      call).ring = s.ring.load position := by
    simp only [PipeState.ring, PipeState.setCall, StreamRing.load, List.length_set]
    rw [union_same stores.symm, union_erase (inv.ordered.loadsApart task) isHere loads]
  have entry (other : Nat) (differs : position ≠ other) :
      (s.delivered.set position (some byte))[other]? = s.delivered[other]? :=
    List.getElem?_set_ne differs
  refine ⟨⟨?_, fun other value isValue => ?_, fun other isMissing => ?_⟩, ?_, inv.head, ?_,
    ?_, fun runner other member => ?_, ?_⟩
  · simpa [PipeState.setCall] using inv.taken
  · by_cases same : position = other
    · subst same
      simp only [PipeState.setCall, List.getElem?_set_self below, Option.some.injEq] at isValue
      subst isValue
      exact isByte
    · simp only [PipeState.setCall, entry other same] at isValue
      exact inv.bytes other value isValue
  · have member : other ∈ (s.ring.load position).unloaded := by
      have differs : position ≠ other := by
        rintro rfl
        simp only [PipeState.setCall, List.getElem?_set_self below] at isMissing
        cases isMissing
      simp only [PipeState.setCall, entry other differs] at isMissing
      exact ⟨inv.missing other isMissing, differs.symm⟩
    rwa [← isRing] at member
  · rw [isRing]
    exact inv.good.load position
  · simpa [PipeState.setCall] using inv.tail
  · refine inv.placed_update (le_refl _) (List.prefix_refl _) ?_
    exact placed.mono (le_refl _) (List.prefix_refl _)
  · have differs : position ≠ other := by
      rintro rfl
      by_cases same : runner = task
      · simp only [PipeState.setCall, same, Function.update_self, loads] at member
        exact member.2 rfl
      · simp only [PipeState.setCall, Function.update_of_ne same] at member
        exact Set.disjoint_left.mp (inv.ordered.loadsApart task runner (Ne.symm same)) isHere
          member
    simp only [PipeState.setCall, entry other differs]
    by_cases same : runner = task
    · simp only [PipeState.setCall, same, Function.update_self, loads] at member
      exact inv.notYet task other member.1
    · simp only [PipeState.setCall, Function.update_of_ne same] at member
      exact inv.notYet runner other member
  · refine inv.ordered.shrink ?_ ?_ ?_
    · rw [stores]
    · rw [loads]
      exact Set.sdiff_subset
    · rw [← stores, idle, Set.empty_union]
      exact number

theorem FifoInv.putByte {count chars size : Nat} {buf : List UInt8} {chunk : Chunk}
    (inv : FifoInv s) (isCall : s.call task = .copyOut count chars size buf chunk)
    (allowed : CopyAllowed s (.copy task)) :
    FifoInv (s.putByte task count chars size buf chunk) := by
  have placed := inv.placed task
  rw [isCall] at placed
  obtain ⟨positive, isSize, inside, isNumber⟩ := placed
  have loads : (s.call task).loads = Set.Ico chunk.position (chunk.position + chars) := by
    rw [isCall]
    rfl
  have stores : (s.call task).stores = ∅ := by
    rw [isCall]
    rfl
  have isHere : chunk.position ∈ (s.call task).loads := by
    rw [loads]
    exact ⟨le_refl _, by omega⟩
  have isByte := inv.isByte isCall isHere allowed
  rw [PipeState.putByte]
  split
  · rename_i last
    refine inv.deliver isHere isByte stores ?_ (fun nonempty => absurd rfl nonempty.ne_empty)
      stores trivial
    rw [loads]
    ext position
    simp only [CopyCall.loads, Set.mem_sdiff, Set.mem_Ico, Set.mem_singleton_iff, last]
    constructor
    · nofun
    · omega
  · rename_i notLast
    refine inv.deliver isHere isByte stores ?_ (fun _ => by rw [isCall]; rfl) stores ?_
    · rw [loads]
      ext position
      simp only [CopyCall.loads, Set.mem_sdiff, Set.mem_Ico, Set.mem_singleton_iff]
      omega
    · refine ⟨by omega, ?_, by omega, isNumber⟩
      simp only [pageSize] at isSize inside ⊢
      omega

/-- A byte is stored, and the writer goes on. -/
theorem FifoInv.store {position : Nat} {byte : UInt8} (inv : FifoInv s)
    (isHere : position ∈ (s.call task).stores)
    (isFirst : ∀ other ∈ (s.call task).stores, position ≤ other) (isByte : s.accepted[position]? = some byte)
    {mine : Copying} (isMine : (s.call task).copying = some mine)
    (mineNumber : mine.number = (s.call task).number) (isSize : mine.size = position % pageSize)
    (allowed : CopyAllowed s (.copy task)) (loads : (s.call task).loads = call.loads)
    (stores : call.stores = (s.call task).stores \ {position})
    (number : call.stores.Nonempty → call.number = (s.call task).number)
    (idle : (s.call task).loads = ∅) (placed : call.Placed s) :
    FifoInv ({ s with page := Function.update s.page mine.size byte }.setCall task call) := by
  have isRing : ({ s with page := Function.update s.page mine.size byte }.setCall task
      call).ring = s.ring.store position byte := by
    simp only [PipeState.ring, PipeState.setCall, StreamRing.store, isSize]
    rw [union_same loads.symm, union_erase (inv.ordered.storesApart task) isHere stores]
  have storesInOrder : ∀ older ∈ s.ring.unstored, older < position →
      older % pageSize ≠ position % pageSize := by
    rintro older ⟨other, member⟩ before
    have differs : other ≠ task := by
      rintro rfl
      exact absurd (isFirst older member) (Nat.not_le_of_lt before)
    rw [← isSize]
    have isOlder := inv.ordered.storesInOrder other task older member position isHere differs
      before
    exact inv.not_older allowed isMine mineNumber isOlder (.inl member)
  have loadsInOrder : ∀ older ∈ s.ring.unloaded, older + pageSize ≤ position →
      older % pageSize ≠ position % pageSize := by
    rintro older ⟨other, member⟩ before
    rw [← isSize]
    have isOlder := inv.ordered.loadsFirst other task older member position isHere before
    exact inv.not_older allowed isMine mineNumber isOlder (.inr member)
  refine ⟨⟨inv.taken, inv.bytes, fun other isMissing => ?_⟩, ?_, inv.head, inv.tail, ?_,
    fun runner other member => ?_, ?_⟩
  · have member : other ∈ (s.ring.store position byte).unloaded := inv.missing other isMissing
    rwa [← isRing] at member
  · rw [isRing]
    exact inv.good.store isByte ⟨task, isHere⟩ storesInOrder loadsInOrder
  · refine inv.placed_update (le_refl _) (List.prefix_refl _) ?_
    exact placed.mono (le_refl _) (List.prefix_refl _)
  · by_cases same : runner = task
    · simp only [PipeState.setCall, same, Function.update_self, ← loads, idle] at member
      cases member
    · simp only [PipeState.setCall, Function.update_of_ne same] at member
      exact inv.notYet runner other member
  · refine inv.ordered.shrink ?_ ?_ ?_
    · rw [stores]
      exact Set.sdiff_subset
    · rw [loads]
    · rw [← loads, idle, Set.union_empty]
      exact number

theorem FifoInv.getByte {byte : UInt8} {chars : List UInt8} {size written : Nat}
    {buf : List UInt8} {chunk : Chunk} (inv : FifoInv s)
    (isCall : s.call task = .copyIn (byte :: chars) size buf written chunk)
    (allowed : CopyAllowed s (.copy task)) :
    FifoInv (s.getByte task byte chars size buf written chunk) := by
  have placed := inv.placed task
  rw [isCall] at placed
  obtain ⟨-, isSize, inside, isNumber, bytes⟩ := placed
  rw [List.length_cons] at inside
  have stores : (s.call task).stores =
      Set.Ico chunk.position (chunk.position + (chars.length + 1)) := by
    rw [isCall]
    rfl
  have loads : (s.call task).loads = ∅ := by
    rw [isCall]
    rfl
  have isHere : chunk.position ∈ (s.call task).stores := by
    rw [stores]
    exact ⟨le_refl _, by omega⟩
  have isFirst : ∀ other ∈ (s.call task).stores, chunk.position ≤ other := by
    rw [stores]
    exact fun other member => member.1
  have isByte : s.accepted[chunk.position]? = some byte := bytes 0 (Nat.succ_pos _)
  have isMine : (s.call task).copying = some ⟨chunk.number, size, (byte :: chars).length⟩ := by
    rw [isCall]
    rfl
  rw [PipeState.getByte]
  split
  · rename_i last
    refine inv.store isHere isFirst isByte isMine (by rw [isCall]; rfl) isSize allowed loads ?_
      (fun nonempty => absurd rfl nonempty.ne_empty) loads trivial
    rw [stores, last]
    ext position
    simp only [CopyCall.stores, Set.mem_sdiff, Set.mem_Ico, Set.mem_singleton_iff,
      List.length_nil]
    constructor
    · nofun
    · omega
  · rename_i notLast
    refine inv.store isHere isFirst isByte isMine (by rw [isCall]; rfl) isSize allowed loads ?_
      (fun _ => by rw [isCall]; rfl) loads ?_
    · rw [stores]
      ext position
      simp only [CopyCall.stores, Set.mem_sdiff, Set.mem_Ico, Set.mem_singleton_iff]
      omega
    · have more := List.length_pos_of_ne_nil notLast
      refine ⟨notLast, ?_, by omega, isNumber, fun index isIndex => ?_⟩
      · simp only [pageSize] at isSize inside ⊢
        omega
      · have here := bytes (index + 1) (Nat.succ_lt_succ isIndex)
        rw [List.getElem?_cons_succ, Nat.add_comm index 1, ← Nat.add_assoc] at here
        exact here

/-! ## One step -/

omit [DecidableEq Task] in
/-- Signals and references do not matter to the bytes. -/
theorem FifoInv.elsewhere (inv : FifoInv s) (iCount : Nat) (signalled : Task → Bool) :
    FifoInv { s with node := { s.node with iCount := iCount }, signalled := signalled } where
  taken := inv.taken
  bytes := inv.bytes
  missing := inv.missing
  good := inv.good
  head := inv.head
  tail := inv.tail
  placed task := (inv.placed task).mono (le_refl _) (List.prefix_refl _)
  notYet := inv.notYet
  ordered := inv.ordered

theorem FifoInv.readTurn {count : Nat} {buf : List UInt8} (inv : FifoInv s)
    (isCall : s.call task = .reading count buf) : FifoInv (s.readTurn task count buf) := by
  have stores : (s.call task).stores = ∅ := by
    rw [isCall]
    rfl
  have loads : (s.call task).loads = ∅ := by
    rw [isCall]
    rfl
  rw [PipeState.readTurn]
  split
  · exact inv.setCall stores loads rfl rfl trivial
  · rename_i countPos
    split
    · split
      · exact inv.setCall stores loads rfl rfl trivial
      · split
        · exact inv.setCall stores loads rfl rfl trivial
        · exact inv
    · rename_i notEmpty
      have taken : s.delivered.length ≤ s.accepted.length := inv.taken
      have isPipeSize := inv.pipeSize_eq
      have tail_lt := inv.tail_lt
      have least : s.node.readChars count =
        min (min (pageSize - s.node.pipeTail) count) s.node.pipeSize := rfl
      exact inv.take stores loads (by omega) (by omega) (by omega) _ _

theorem FifoInv.writeTurn {buf : List UInt8} {written : Nat} (inv : FifoInv s)
    (isCall : s.call task = .writing buf written) : FifoInv (s.writeTurn task buf written) := by
  have stores : (s.call task).stores = ∅ := by
    rw [isCall]
    rfl
  have loads : (s.call task).loads = ∅ := by
    rw [isCall]
    rfl
  rw [PipeState.writeTurn]
  split
  · exact inv.setCall stores loads rfl rfl trivial
  · rename_i countPos
    split
    · split
      · exact (inv.elsewhere s.node.iCount _).setCall stores loads rfl rfl trivial
      · exact inv
    · rename_i notFull
      have taken : s.delivered.length ≤ s.accepted.length := inv.taken
      have isPipeSize := inv.pipeSize_eq
      have head_lt := inv.head_lt
      have least : s.node.writeChars buf.length =
        min (min (pageSize - s.node.pipeHead) buf.length) (pageSize - 1 - s.node.pipeSize) := rfl
      have length : (buf.take (s.node.writeChars buf.length)).length =
          s.node.writeChars buf.length := by
        rw [List.length_take]
        omega
      have notEmpty : buf.take (s.node.writeChars buf.length) ≠ [] := by
        apply List.ne_nil_of_length_pos
        omega
      have placed := inv.place stores loads notEmpty (by omega) (by omega)
        (buf.drop (s.node.writeChars buf.length)) (written + s.node.writeChars buf.length)
      rw [length] at placed
      exact placed

/-- An allowed step keeps the invariant. -/
theorem FifoInv.step {action : CopyAction Task} {next : PipeState Task} (inv : FifoInv s)
    (allowed : CopyAllowed s action) (taken : copyStep s action = some next) : FifoInv next := by
  cases action with
  | read task count =>
      simp only [copyStep] at taken
      split at taken
      · rename_i isCall
        cases taken
        exact inv.setCall (by rw [isCall]; rfl) (by rw [isCall]; rfl) rfl rfl trivial
      · rename_i isCall
        cases taken
        exact inv.setCall (by rw [isCall]; rfl) (by rw [isCall]; rfl) rfl rfl trivial
      · cases taken
  | write task buf =>
      simp only [copyStep] at taken
      split at taken
      · rename_i isCall
        cases taken
        exact inv.setCall (by rw [isCall]; rfl) (by rw [isCall]; rfl) rfl rfl trivial
      · rename_i isCall
        cases taken
        exact inv.setCall (by rw [isCall]; rfl) (by rw [isCall]; rfl) rfl rfl trivial
      · cases taken
  | turn task =>
      simp only [copyStep] at taken
      split at taken
      · rename_i isCall
        cases taken
        exact inv.readTurn isCall
      · rename_i isCall
        cases taken
        exact inv.writeTurn isCall
      · cases taken
  | copy task =>
      simp only [copyStep] at taken
      split at taken
      · rename_i isCall
        cases taken
        exact inv.putByte isCall allowed
      · rename_i isCall
        cases taken
        exact inv.getByte isCall allowed
      · cases taken
  | elsewhere iCount signalled =>
      cases taken
      exact inv.elsewhere iCount signalled

/-! ## Whole runs -/

omit [DecidableEq Task] in
theorem fifoInv_newPipe (iMode : Nat) (page : Nat → UInt8) (signalled : Task → Bool) :
    FifoInv (newPipe iMode page signalled) where
  taken := le_refl _
  bytes _ _ isByte := by cases isByte
  missing _ isMissing := by cases isMissing
  good := by
    refine ⟨le_refl _, Nat.zero_lt_succ _, ?_, ?_, ?_, ?_⟩
    · rintro position ⟨task, member⟩
      cases member
    · rintro position ⟨task, member⟩
      cases member
    · rintro position ⟨task, member⟩
      cases member
    · intro position placed
      exact absurd placed (Nat.not_lt_zero _)
  head := rfl
  tail := rfl
  placed _ := trivial
  notYet _ _ member := by cases member
  ordered := by
    refine ⟨fun _ _ _ => Set.disjoint_empty _, fun _ _ _ => Set.disjoint_empty _, ?_, ?_, ?_⟩
    · rintro _ _ _ member
      cases member
    · rintro _ _ _ member
      cases member
    · rintro _ _ _ member
      cases member

/-- A pipe is first in, first out in every state of every run in which each cell of the page is
copied from and to in the order in which the chunks were taken and placed. -/
theorem keepsFifo_of_copyAllowed (iMode : Nat) (page : Nat → UInt8) (signalled : Task → Bool)
    (actions : List (CopyAction Task))
    (allowed : Lib.EveryStep copyStep CopyAllowed (newPipe iMode page signalled) actions) :
    Lib.EveryStep copyStep KeepsFifo (newPipe iMode page signalled) actions :=
  Lib.everyStep_of_invariant FifoInv
    (fun _ _ inv allowed _ taken => (inv.step allowed taken).toFifo)
    (fun _ _ _ inv allowed taken => inv.step allowed taken)
    (fifoInv_newPipe iMode page signalled) allowed

end Invariant

/-- The empty pipe of two tasks. -/
def emptyPipe : PipeState Bool := newPipe 0o010000 (fun _ => 0) fun _ => false

/-- One task writes a byte, and then the other one reads it. -/
def writeThenRead : List (CopyAction Bool) :=
  [.write true [7], .turn true, .copy true, .read false 1, .turn false, .copy false]

/-- A check of `CopyAllowed` for two tasks: the other one does not copy. -/
def copiesAlone (s : PipeState Bool) : CopyAction Bool → Bool
  | .copy task => (s.call !task).copying.isNone
  | _ => true

theorem copyAllowed_of_copiesAlone (s : PipeState Bool) (action : CopyAction Bool)
    (alone : copiesAlone s action = true) : CopyAllowed s action := by
  cases action with
  | copy task =>
      intro mine isMine other theirs isTheirs before
      have noOther : (s.call !task).copying = none := Option.isNone_iff_eq_none.mp alone
      rcases Bool.eq_or_eq_not other task with same | different
      · rw [same, isMine] at isTheirs
        cases isTheirs
        exact absurd before (lt_irrefl _)
      · rw [different, noOther] at isTheirs
        cases isTheirs
  | read | write | turn | elsewhere => trivial

theorem keepsFifo_of_copyAllowed_writeThenRead :
    Lib.EveryStep copyStep KeepsFifo emptyPipe writeThenRead :=
  keepsFifo_of_copyAllowed _ _ _ writeThenRead
    (Lib.everyStep_of_checkSteps copiesAlone copyAllowed_of_copiesAlone (by decide))

/-- The writer waits for its page while the reader takes the byte. -/
def readBeforeWrite : List (CopyAction Bool) :=
  [.write true [7], .turn true, .read false 1, .turn false, .copy false]

/-- The reader gets what was in the page before. -/
theorem byte_read_before_write :
    ¬∀ (iMode : Nat) (page : Nat → UInt8) (signalled : Bool → Bool)
      (actions : List (CopyAction Bool)),
      Lib.EveryStep copyStep KeepsFifo (newPipe iMode page signalled) actions := by
  intro always
  have keeps := always 0o010000 (fun _ => 0) (fun _ => false) readBeforeWrite
  have fifo := ((((keeps.2 _ rfl).2 _ rfl).2 _ rfl).2 _ rfl).1 _ rfl
  have byte := fifo.bytes 0 0 rfl
  cases byte

end Linux012.Pipe
