import Mathlib.Data.List.FinRange
import Mathlib.Algebra.Group.Nat.Defs
import Mathlib.Data.Set.BooleanAlgebra
import Mathlib.Order.CompletePartialOrder
import Linux012.Lib.Chains
import Linux012.Lib.Sizes

/-!
# The kernel allocator

`malloc` and `free_s` of `lib/malloc.c`, one call after the other.  Pointers are addresses,
numbers, with the null pointer as `none`; memory is read and written by words, and the words
that matter here hold pointers.  The pages that `get_free_page` returns are given
with a call; they are free, and there is always one.
-/

namespace Linux012.Malloc

/-- `PAGE_SIZE`. -/
abbrev pageSize : Nat := 4096

/-- The pages of the address space. -/
abbrev nrPages : Nat := 2 ^ 20

/-- `struct bucket_desc`. -/
structure BucketDesc where
  page : Nat
  next : Option Nat
  freeptr : Option Nat
  refcnt : UInt16
  bucketSize : UInt16
  deriving DecidableEq, Repr

/-- `sizeof(struct bucket_desc)`. -/
abbrev descSize : Nat := 16

/-- An entry of `bucket_dir`. -/
abbrev Bucket := Fin 9

/-- `bdir->size`. -/
def Bucket.size (bdir : Bucket) : Nat := 16 * 2 ^ bdir.val

/-- The objects in a page of the bucket. -/
def Bucket.perPage (bdir : Bucket) : Nat := pageSize / bdir.size

/-- The first entry of `bucket_dir` that is large enough. -/
def findBucket (len : Nat) : Option Bucket :=
  (List.finRange 9).find? fun bdir => decide (len ≤ bdir.size)

/-- `(unsigned int) obj & 0xfffff000`. -/
def pageOf (obj : Nat) : Nat := obj / pageSize * pageSize

/-- The state of the allocator, with the pages that it has, those of them that are for
descriptors, and the objects that its callers have with the lengths they asked for. -/
structure Heap where
  /-- `bucket_dir[].chain`. -/
  chain : Bucket → Option Nat
  freeBucketDesc : Option Nat
  desc : Nat → BucketDesc
  mem : Nat → Option Nat
  hasPage : Nat → Bool
  descPages : List Nat
  live : Nat → Option Nat
  panicked : Bool

namespace Heap

def setDesc (h : Heap) (bdesc : Nat) (content : BucketDesc) : Heap :=
  { h with desc := Function.update h.desc bdesc content }

def setNext (h : Heap) (bdesc : Nat) (next : Option Nat) : Heap :=
  h.setDesc bdesc { h.desc bdesc with next := next }

def panic (h : Heap) : Heap := { h with panicked := true }

/-! ## Pages -/

/-- `get_free_page` can return the page. -/
def CanGet (h : Heap) (page : Nat) : Prop :=
  page % pageSize = 0 ∧ 0 < page ∧ page < nrPages * pageSize ∧ h.hasPage page = false

instance (h : Heap) (page : Nat) : Decidable (h.CanGet page) :=
  inferInstanceAs (Decidable (_ ∧ _))

/-- `get_free_page`: the page is cleared. -/
def getFreePage (h : Heap) (page : Nat) : Option Heap :=
  if h.CanGet page then
    some { h with
      hasPage := Function.update h.hasPage page true
      mem := fun a => if pageOf a = page then none else h.mem a
      desc := fun bdesc => if pageOf bdesc = page then ⟨0, none, none, 0, 0⟩ else h.desc bdesc }
  else none

/-- `free_page`. -/
def freePage (h : Heap) (page : Nat) : Heap :=
  if h.hasPage page then { h with hasPage := Function.update h.hasPage page false }
  else h.panic -- "trying to free free page"

/-! ## malloc -/

/-- A page with a descriptor and `count` more behind it, all of them free. -/
def linkDescs (h : Heap) (page count : Nat) : Heap :=
  let next := Lib.linkRun descSize h.freeBucketDesc count page fun bdesc => (h.desc bdesc).next
  { h with
    desc := fun bdesc => { h.desc bdesc with next := next bdesc }
    freeBucketDesc := some page
    descPages := page :: h.descPages }

/-- `init_bucket_desc`. -/
def initBucketDesc (h : Heap) (page : Nat) : Option Heap :=
  (h.getFreePage page).map fun h => h.linkDescs page (pageSize / descSize - 1)

/-- `for (bdesc = bdir->chain; bdesc; bdesc = bdesc->next) if (bdesc->freeptr) break`, for at
most `left` rounds. -/
def findFree (h : Heap) : (left : Nat) → (bdesc : Option Nat) → Option (Option Nat)
  | 0, _ => none
  | _ + 1, none => some none
  | left + 1, some bdesc =>
      if (h.desc bdesc).freeptr.isSome then some (some bdesc)
      else findFree h left (h.desc bdesc).next

/-- `bdesc->freeptr = *retval; bdesc->refcnt++`, and the caller has the object. -/
def handOut (h : Heap) (bdesc retval len : Nat) : Heap :=
  { h.setDesc bdesc { h.desc bdesc with
      freeptr := h.mem retval
      refcnt := (h.desc bdesc).refcnt + 1 } with
    live := Function.update h.live retval (some len) }

/-- `retval = bdesc->freeptr`. -/
def takeObject (h : Heap) (bdesc len : Nat) : Heap :=
  match (h.desc bdesc).freeptr with
  | none => h.panic -- a null pointer is followed
  | some retval => h.handOut bdesc retval len

/-- The descriptor is filled for a new page of the bucket, whose objects are all free, and
linked in. -/
def startBucket (h : Heap) (bdir : Bucket) (bdesc page : Nat) : Heap :=
  { h.setDesc bdesc {
      page := page
      next := h.chain bdir
      freeptr := some page
      refcnt := 0
      bucketSize := UInt16.ofNat bdir.size } with
    mem := Lib.linkRun bdir.size none (bdir.perPage - 1) page h.mem
    chain := Function.update h.chain bdir (some bdesc) }

/-- "If we didn't find a bucket with free space, then we'll allocate a new one." -/
def addBucket (h : Heap) (bdir : Bucket) (bdesc page : Nat) : Option Heap :=
  let h := { h with freeBucketDesc := (h.desc bdesc).next }
  (h.getFreePage page).map fun h => h.startBucket bdir bdesc page

/-- `if (!free_bucket_desc) init_bucket_desc()`. -/
def needDesc (h : Heap) (descPage : Nat) : Option Heap :=
  match h.freeBucketDesc with
  | none => h.initBucketDesc descPage
  | some _ => some h

/-- `malloc` where no bucket has free space. -/
def mallocNew (h : Heap) (bdir : Bucket) (len : Nat) (descPage page : Nat) : Option Heap :=
  (h.needDesc descPage).bind fun h =>
    match h.freeBucketDesc with
    | none => some h.panic -- a null pointer is followed
    | some bdesc => (h.addBucket bdir bdesc page).map fun h => h.takeObject bdesc len

/-- `malloc`, with the pages that `get_free_page` returns. -/
def malloc (h : Heap) (len : Nat) (descPage page : Nat) : Option Heap :=
  match findBucket len with
  | none => some h.panic -- "malloc: bad arg"
  | some bdir =>
      match h.findFree nrPages (h.chain bdir) with
      | none => some h.panic -- a chain without end
      | some (some bdesc) => some (h.takeObject bdesc len)
      | some none => h.mallocNew bdir len descPage page

/-! ## free_s -/

/-- The search of `free_s` in a chain, for at most `left` rounds: the descriptor for the page
and `prev`. -/
def findPage (h : Heap) (page : Nat) :
    (left : Nat) → (prev bdesc : Option Nat) → Option (Option (Nat × Option Nat))
  | 0, _, _ => none
  | _ + 1, _, none => some none
  | left + 1, prev, some bdesc =>
      if (h.desc bdesc).page = page then some (some (bdesc, prev))
      else findPage h page left (some bdesc) (h.desc bdesc).next

/-- The search of `free_s` in the buckets. -/
def findDesc (h : Heap) (page : Nat) (size : Nat) : List Bucket → Option (Bucket × Nat × Option Nat)
  | [] => none -- "Bad address passed to kernel free_s()"
  | bdir :: rest =>
      if bdir.size < size then findDesc h page size rest
      else
        match h.findPage page nrPages none (h.chain bdir) with
        | none => none -- a chain without end
        | some none => findDesc h page size rest
        | some (some (bdesc, prev)) => some (bdir, bdesc, prev)

/-- `for (prev = bdir->chain; prev; prev = prev->next) if (prev->next == bdesc) break`. -/
def findPrev (h : Heap) (bdesc : Nat) : (left : Nat) → (prev : Option Nat) → Option Nat
  | 0, _ => none
  | _ + 1, none => none
  | left + 1, some prev =>
      if (h.desc prev).next = some bdesc then some prev
      else findPrev h bdesc left (h.desc prev).next

/-- "We need to make sure that prev is still accurate." -/
def surePrev (h : Heap) (bdir : Bucket) (bdesc : Nat) (prev : Option Nat) : Option Nat :=
  match prev with
  | some p =>
      if (h.desc p).next ≠ some bdesc then h.findPrev bdesc nrPages (h.chain bdir) else some p
  | none =>
      if h.chain bdir ≠ some bdesc then h.findPrev bdesc nrPages (h.chain bdir) else none

/-- The descriptor is taken out of its chain. -/
def unlink (h : Heap) (bdir : Bucket) (bdesc : Nat) (prev : Option Nat) : Heap :=
  match h.surePrev bdir bdesc prev with
  | some prev => h.setNext prev (h.desc bdesc).next
  | none =>
      if h.chain bdir ≠ some bdesc then h.panic -- "malloc bucket chains corrupted"
      else { h with chain := Function.update h.chain bdir (h.desc bdesc).next }

/-- `*((void **)obj) = bdesc->freeptr; bdesc->freeptr = obj; bdesc->refcnt--`. -/
def putObject (h : Heap) (obj bdesc : Nat) : Heap :=
  { h.setDesc bdesc { h.desc bdesc with
      freeptr := some obj
      refcnt := (h.desc bdesc).refcnt - 1 } with
    mem := Function.update h.mem obj (h.desc bdesc).freeptr
    live := Function.update h.live obj none }

/-- The last object of a page is free: the page is given back, and its descriptor is free. -/
def dropBucket (h : Heap) (bdir : Bucket) (bdesc : Nat) (prev : Option Nat) : Heap :=
  let h := (h.unlink bdir bdesc prev).freePage (h.desc bdesc).page
  { h.setNext bdesc h.freeBucketDesc with freeBucketDesc := some bdesc }

def freeS (h : Heap) (obj : Nat) (size : Nat) : Heap :=
  match h.findDesc (pageOf obj) size (List.finRange 9) with
  | none => h.panic
  | some (bdir, bdesc, prev) =>
      let h := h.putObject obj bdesc
      if (h.desc bdesc).refcnt = 0 then h.dropBucket bdir bdesc prev else h

end Heap

/-! ## Runs -/

inductive Action where
  | malloc (len : Nat) (descPage page : Nat)
  | freeS (obj : Nat) (size : Nat)
  /-- A caller writes a word of its object. -/
  | store (a : Nat) (word : Option Nat)
  deriving DecidableEq, Repr

/-- What the callers keep to: the lengths are not too large, and what is freed is an object
that has been allocated, with size 0 or one that its bucket is the first for. -/
def Heap.Permits (h : Heap) : Action → Prop
  | .malloc len _ _ => len ≤ pageSize
  | .freeS obj size => ∃ len, h.live obj = some len ∧ (size = 0 ∨ findBucket size = findBucket len)
  | .store a _ => ∃ obj len, h.live obj = some len ∧ obj ≤ a ∧ a < obj + len

/-- One step. -/
def step (h : Heap) : Action → Option Heap
  | .malloc len descPage page => h.malloc len descPage page
  | .freeS obj size => some (h.freeS obj size)
  | .store a word => some { h with mem := Function.update h.mem a word }

/-- Before the first call. -/
def boot (desc : Nat → BucketDesc) (mem : Nat → Option Nat) : Heap where
  chain _ := none
  freeBucketDesc := none
  desc := desc
  mem := mem
  hasPage _ := false
  descPages := []
  live _ := none
  panicked := false

end Linux012.Malloc
