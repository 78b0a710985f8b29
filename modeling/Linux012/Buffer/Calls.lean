import Linux012.Buffer.Queues

/-!
# The calls of the buffer cache

`get_hash_table`, `getblk`, `bread`, `brelse` and the part of `free_block` that works on
buffers, cut at the places where they call a function that can sleep: `wait_on_buffer`,
`sleep_on(&buffer_wait)`, `sync_dev` and `ll_rw_block`.  Each of these places counts as
one where other tasks run, whether or not the task would really sleep there.

`refs` are the references that `b_count` counts: who took it to which buffer, and for
which block.  Device numbers are 16 bits wide, as `b_dev` is and as all callers have them
from `i_dev` or `i_zone[0]`.
-/

namespace Linux012.Buffer

/-- An outstanding reference. -/
structure Ref where
  task : Nat
  bh : Bh
  dev : UInt16
  block : UInt32
  deriving DecidableEq

/-- The cache with the references to its buffers. -/
structure Pool where
  cache : Cache
  refs : List Ref

/-- The call that looks for a buffer. -/
inductive Caller where
  | getHashTable
  | getblk
  | bread
  | freeBlock
  deriving DecidableEq

/-- Where in a call a task sleeps. -/
inductive Wait where
  /-- `get_hash_table`: `wait_on_buffer(bh)`. -/
  | found (caller : Caller) (dev : UInt16) (block : UInt32) (bh : Bh)
  /-- `getblk`: `sleep_on(&buffer_wait)`. -/
  | noBuffer (caller : Caller) (dev : UInt16) (block : UInt32)
  /-- `getblk`: `wait_on_buffer(bh)` for the buffer to use. -/
  | victim (caller : Caller) (dev : UInt16) (block : UInt32) (bh : Bh)
  /-- `getblk`: `sync_dev(bh->b_dev)`. -/
  | syncing (caller : Caller) (dev : UInt16) (block : UInt32) (bh : Bh)
  /-- `getblk`: `wait_on_buffer(bh)` after `sync_dev`. -/
  | synced (caller : Caller) (dev : UInt16) (block : UInt32) (bh : Bh)
  /-- `bread`: `ll_rw_block(READ,bh)`. -/
  | reading (bh : Bh)
  /-- `bread`: `wait_on_buffer(bh)`. -/
  | read (bh : Bh)
  /-- `brelse`: `wait_on_buffer(buf)`. -/
  | releasing (bh : Bh)
  deriving DecidableEq

/-- What a task does next: it sleeps, or the call returns a buffer or a null pointer. -/
inductive Outcome where
  | sleeps (wait : Wait)
  | returns (result : Option Bh)
  deriving DecidableEq

/-- Where the task sleeps, if it does. -/
def Outcome.wait : Outcome → Option Wait
  | .sleeps wait => some wait
  | .returns _ => none

namespace Pool

variable (pool : Pool) (task : Nat) (caller : Caller) (dev : UInt16) (block : UInt32) (bh : Bh)

/-- `bh->b_count++`. -/
def take : Pool where
  cache := pool.cache.setCount bh (pool.cache.bCount bh + 1)
  refs := ⟨task, bh, dev, block⟩ :: pool.refs

/-- `bh->b_count--`. -/
def drop : Pool where
  cache := pool.cache.setCount bh (pool.cache.bCount bh - 1)
  refs := pool.refs.eraseP fun ref => ref.task == task && ref.bh == bh

/-- `get_hash_table` has found no buffer. -/
def notFound : Pool × Outcome :=
  match caller with
  | .getHashTable | .freeBlock => (pool, .returns none)
  | .getblk | .bread =>
      match pool.cache.victim with
      | none => (pool, .sleeps (.noBuffer caller dev block))
      | some bh => (pool, .sleeps (.victim caller dev block bh))

/-- `get_hash_table`, up to `wait_on_buffer`. -/
def lookUp : Pool × Outcome :=
  match pool.cache.findBuffer dev block with
  | none => pool.notFound caller dev block
  | some bh => (pool.take task dev block bh, .sleeps (.found caller dev block bh))

/-- The caller has got a buffer for its block. -/
def gotBuffer : Pool × Outcome :=
  match caller with
  | .getHashTable | .getblk => (pool, .returns (some bh))
  | .bread =>
      if pool.cache.bUptodate bh then (pool, .returns (some bh))
      else (pool, .sleeps (.reading bh))
  | .freeBlock =>
      if pool.cache.bCount bh > 1 then (pool, .sleeps (.releasing bh))
      else
        let pool := { pool with cache := { pool.cache with
          bDirt := Function.update pool.cache.bDirt bh false
          bUptodate := Function.update pool.cache.bUptodate bh false } }
        if pool.cache.bCount bh ≠ 0 then (pool, .sleeps (.releasing bh))
        else (pool, .returns none)

/-- The end of `getblk`, for an unused and clean buffer. -/
def useVictim : Option (Pool × Outcome) :=
  if (pool.cache.findBuffer dev block).isSome then
    some (pool.lookUp task caller dev block)
  else do
    let cache ← pool.cache.assign bh dev block
    let pool := { cache := cache, refs := ⟨task, bh, dev, block⟩ :: pool.refs }
    return gotBuffer pool caller bh

/-- `getblk` after a `wait_on_buffer(bh)`. -/
def checkVictim : Option (Pool × Outcome) :=
  if pool.cache.bCount bh ≠ 0 then some (pool.lookUp task caller dev block)
  else if pool.cache.bDirt bh then some (pool, .sleeps (.syncing caller dev block bh))
  else pool.useVictim task caller dev block bh

end Pool

/-- The buffer whose `b_lock` keeps the task from going on. -/
def Wait.lock : Wait → Option Bh
  | .found _ _ _ bh | .victim _ _ _ bh | .synced _ _ _ bh | .read bh | .releasing bh => some bh
  | .noBuffer _ _ _ | .syncing _ _ _ _ | .reading _ => none

/-- The task goes on after it slept at `wait`. -/
def Pool.resume (pool : Pool) (task : Nat) (wait : Wait) : Option (Pool × Outcome) :=
  if wait.lock.any pool.cache.bLock then none
  else
    match wait with
    | .found caller dev block bh =>
        if pool.cache.Holds bh dev block then some (pool.gotBuffer caller bh)
        else some ((pool.drop task bh).lookUp task caller dev block)
    | .noBuffer caller dev block => some (pool.lookUp task caller dev block)
    | .victim caller dev block bh => pool.checkVictim task caller dev block bh
    | .syncing caller dev block bh => some (pool, .sleeps (.synced caller dev block bh))
    | .synced caller dev block bh => pool.checkVictim task caller dev block bh
    | .reading bh => some (pool, .sleeps (.read bh))
    | .read bh =>
        if pool.cache.bUptodate bh then some (pool, .returns (some bh))
        else some (pool, .sleeps (.releasing bh))
    | .releasing bh =>
        -- "Trying to free free buffer"
        if pool.cache.bCount bh = 0 then none
        else some (pool.drop task bh, .returns none)

end Linux012.Buffer
