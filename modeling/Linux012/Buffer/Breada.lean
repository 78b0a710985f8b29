import Linux012.BlkDrv.Slots
import Linux012.Buffer.Sharing

/-!
# breada

A call of `breada`, while other tasks work on the buffer cache and on `request[]`.  It is cut
where it sleeps; between `getblk` and what is done with its buffer nobody else runs.
-/

namespace Linux012.Buffer.Breada

open BlkDrv (Request Cmd)
open BlkDrv.Slots (BlkState BufferHead Slot Major nrRequest findMajor)

/-- Where the call is.  The arguments that have not been looked at come last. -/
inductive Phase where
  /-- In `getblk` for the first block. -/
  | looking (args : List Int)
  /-- `getblk` has found `bh`. -/
  | found (bh : Bh) (args : List Int)
  /-- Asleep in `ll_rw_block(READ,bh)`. -/
  | reading (bh : Bh) (args : List Int)
  /-- At the head of the loop. -/
  | listing (bh : Bh) (args : List Int)
  /-- In `getblk` for another block. -/
  | lookingNext (bh : Bh) (args : List Int)
  /-- `getblk` has found `tmp`. -/
  | foundNext (bh tmp : Bh) (args : List Int)
  /-- At `wait_on_buffer(bh)`. -/
  | waiting (bh : Bh)
  /-- In `brelse(bh)`. -/
  | releasing
  | returned (result : Option Bh)
  deriving DecidableEq

/-- The call sleeps, or may do so. -/
def Phase.asleep : Phase → Bool
  | .looking _ | .reading .. | .lookingNext .. | .waiting _ | .releasing => true
  | .found .. | .listing .. | .foundNext .. | .returned _ => false

/-- The buffer cache, `request[]`, and the call.  The flags of the buffers are those of the cache;
`change` is what the call itself has added to each `b_count`. -/
structure State where
  cache : System
  blk : BlkState Unit
  phase : Phase
  change : Bh → UInt8

namespace State

variable (s : State)

/-! ## Requests -/

/-- The buffers as the block drivers see them; the data are at the number of the buffer. -/
def view : BlkState Unit :=
  { s.blk with buffer := fun bh =>
      { bDev := (s.cache.pool.cache.bDev bh).toNat
        bBlocknr := (s.cache.pool.cache.bBlocknr bh).toNat
        bData := bh
        bUptodate := s.cache.pool.cache.bUptodate bh
        bDirt := s.cache.pool.cache.bDirt bh
        bLock := s.cache.pool.cache.bLock bh } }

/-- What the block drivers leave. -/
def put (blk : BlkState Unit) : State :=
  { s with
    cache := { s.cache with pool := { s.cache.pool with cache := { s.cache.pool.cache with
      bUptodate := fun bh => (blk.buffer bh).bUptodate
      bDirt := fun bh => (blk.buffer bh).bDirt
      bLock := fun bh => (blk.buffer bh).bLock } } }
    blk := blk }

/-- Behind a turn of `ll_rw_block(READ,bh)`. -/
def afterRead (bh : Bh) (args : List Int) : State :=
  { s with phase := if s.blk.call () = .outside then .listing bh args else .reading bh args }

/-! ## The call -/

variable (task : Nat) (dev : UInt16)

/-- The task goes on in a call of the buffer cache. -/
def resume : Option (State × Outcome) := do
  let wait ← s.cache.sleeping task
  let result ← s.cache.pool.resume task wait
  return ({ s with cache := s.cache.continue task result }, result.2)

/-- `va_arg`, up to a negative number. -/
def nextBlock : List Int → Option (UInt32 × List Int)
  | [] => none
  | block :: args => if block < 0 then none else some (.ofNat block.toNat, args)

/-- What is done with a further block: the request is for `bh`, as in the source. -/
def readAhead (bh tmp : Bh) : State :=
  let s :=
    if s.cache.pool.cache.bUptodate tmp then s
    else s.put (s.view.llRwBlock () .reada bh)
  { s with cache := { s.cache with pool := s.cache.pool.drop task tmp } }

/-- The call goes on. -/
def advance : Option State :=
  match s.phase with
  | .looking args => do
      let (s, outcome) ← s.resume task
      match outcome with
      | .sleeps _ => some s
      | .returns (some bh) => some { s with phase := .found bh args }
      | .returns none => none -- "bread: getblk returned NULL"
  | .found bh args =>
      if s.cache.pool.cache.bUptodate bh then some { s with phase := .listing bh args }
      else some ((s.put (s.view.llRwBlock () .read bh)).afterRead bh args)
  | .reading bh args =>
      match s.blk.call () with
      | .locking major rw bh' rwAhead =>
          some ((s.put (s.view.lockTurn () major rw bh' rwAhead)).afterRead bh args)
      | .finding major rw bh' rwAhead =>
          some ((s.put (s.view.findTurn () major rw bh' rwAhead)).afterRead bh args)
      | .outside | .paging .. => none
  | .listing bh args =>
      match nextBlock args with
      | none => some { s with phase := .waiting bh }
      | some (block, args) =>
          some { s with
            cache := s.cache.continue task (s.cache.pool.lookUp task .getblk dev block)
            phase := .lookingNext bh args }
  | .lookingNext bh args => do
      let (s, outcome) ← s.resume task
      match outcome with
      | .sleeps _ => some s
      | .returns (some tmp) => some { s with phase := .foundNext bh tmp args }
      | .returns none => some { s with phase := .listing bh args }
  | .foundNext bh tmp args => some { s.readAhead task bh tmp with phase := .listing bh args }
  | .waiting bh =>
      if s.cache.pool.cache.bLock bh then none
      else if s.cache.pool.cache.bUptodate bh then some { s with phase := .returned (some bh) }
      else some { s with
        cache := s.cache.continue task (s.cache.pool, .sleeps (.releasing bh))
        phase := .releasing }
  | .releasing => do
      let (s, outcome) ← s.resume task
      match outcome with
      | .sleeps _ => some s
      | .returns _ => some { s with phase := .returned none }
  | .returned _ => none

/-- The changes of `b_count` from `s` to `next` are those of the call. -/
def charge (next : State) : State :=
  { next with change := fun bh =>
      s.change bh + (next.cache.pool.cache.bCount bh - s.cache.pool.cache.bCount bh) }

end State

/-- The task of an action on the buffer cache. -/
def taskOf : Buffer.Action → Option Nat
  | .call task .. | .brelse task _ | .resume task => some task
  | .change .. => none

inductive Action where
  /-- The call goes on. -/
  | go
  /-- Another task works on the buffer cache, or flags and data change. -/
  | cache (action : Buffer.Action)
  /-- Another task gives up a buffer without waiting for it. -/
  | forget (other : Nat) (bh : Bh)
  /-- Requests are done, or queued by others. -/
  | requests (request : Slot → Request) (next : Slot → Option Slot)
      (currentRequest : Major → Option Slot)

/-- One step; others run while the call sleeps. -/
def step (task : Nat) (dev : UInt16) (s : State) : Action → Option State
  | .go => (s.advance task dev).map s.charge
  | .cache action =>
      if s.phase.asleep ∧ taskOf action ≠ some task then
        (Buffer.step s.cache action).map fun cache => { s with cache := cache }
      else none
  | .forget other bh =>
      if s.phase.asleep ∧ other ≠ task then
        some { s with cache := { s.cache with pool := s.cache.pool.drop other bh } }
      else none
  | .requests request next currentRequest =>
      if s.phase.asleep then
        some { s with blk :=
          { s.blk with request := request, next := next, currentRequest := currentRequest } }
      else none

/-- The call `breada(dev, first, args)` has begun. -/
def begin (task : Nat) (dev : UInt16) (first : UInt32) (args : List Int) (cache : System)
    (blk : BlkState Unit) : State :=
  let s : State :=
    { cache := cache
      blk := { blk with call := fun _ => .outside }
      phase := .looking args
      change := fun _ => 0 }
  s.charge { s with cache := cache.continue task (cache.pool.lookUp task .getblk dev first) }

/-! ## What it is to do -/

namespace State

variable (s next : State) (bh : Bh)

/-- The request for a buffer. -/
def readOf : Request :=
  .ofBuffer .read (s.cache.pool.cache.bDev bh).toNat (s.cache.pool.cache.bBlocknr bh).toNat bh bh

/-- The last free slot takes a read for the buffer. -/
def Queues : Prop :=
  ∃ slot, s.blk.findEmpty nrRequest = some slot ∧
    next.blk.request = Function.update s.blk.request slot (s.readOf bh)

def QueuesNothing : Prop := next.blk.request = s.blk.request

/-- A read-ahead is to be queued: the buffer is not up to date and not locked, and there is a
free slot. -/
def Due : Prop :=
  s.cache.pool.cache.bUptodate bh = false ∧ s.cache.pool.cache.bLock bh = false ∧
    (s.blk.findEmpty nrRequest).isSome = true

instance : Decidable (s.Due bh) := inferInstanceAs (Decidable (_ ∧ _))

/-- The first block is to be read: it is not up to date, or the call has locked it to read it. -/
def Owes : Prop :=
  s.cache.pool.cache.bUptodate bh = false ∨
    ∃ major rw bh' rwAhead, s.blk.call () = .finding major rw bh' rwAhead

/-- The driver of the buffer's device is there. -/
def HasDriver : Prop :=
  (findMajor s.blk.requestFn (s.cache.pool.cache.bDev bh).toNat).isSome = true

instance : Decidable (s.HasDriver bh) := inferInstanceAs (Decidable (_ = _))

/-- What a step of the call queues. -/
def QueuesRight : Prop :=
  match s.phase with
  | .found bh _ | .reading bh _ =>
      match next.phase with
      | .reading .. => s.QueuesNothing next
      | _ => (s.Owes bh → s.Queues next bh) ∧ (¬s.Owes bh → s.QueuesNothing next)
  | .foundNext _ tmp _ => (s.Due tmp → s.Queues next tmp) ∧ (¬s.Due tmp → s.QueuesNothing next)
  | _ => s.QueuesNothing next

/-- The first block is up to date or has a driver; and a further one, unless it is the first again,
needs nothing, and neither does the first while that one is not up to date. -/
def Harmless : Prop :=
  match s.phase with
  | .found bh _ => s.cache.pool.cache.bUptodate bh = true ∨ s.HasDriver bh
  | .foundNext bh tmp _ =>
      if tmp = bh then s.Due bh → s.HasDriver bh
      else ¬s.Due tmp ∧
        (s.cache.pool.cache.bUptodate tmp = false → s.Due bh → ¬s.HasDriver bh)
  | _ => True

/-- The result is the only buffer that the call still holds. -/
def KeepsCounts : Prop :=
  ∀ result, s.phase = .returned result → ∀ bh, s.change bh = if result = some bh then 1 else 0

end State

/-- Each step of the call queues what it is to queue. -/
def RightStep (task : Nat) (dev : UInt16) (s : State) : Action → Prop
  | .go => ∀ next, step task dev s .go = some next → s.QueuesRight next
  | .cache _ | .forget .. | .requests .. => True

def HarmlessStep (s : State) : Action → Prop
  | .go => s.Harmless
  | .cache _ | .forget .. | .requests .. => True

/-- A run of the call queues what it is to queue and keeps the reference counts. -/
def ReadsAhead (task : Nat) (dev : UInt16) (start : State) (actions : List Action) : Prop :=
  Lib.EveryStep (step task dev) (RightStep task dev) start actions ∧
    ∀ final, Lib.exec (step task dev) start actions = some final → final.KeepsCounts

end Linux012.Buffer.Breada
