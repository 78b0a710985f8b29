import Linux012.Lib.Run
import Linux012.Buffer.Calls

/-!
# The buffer cache under any schedule

Any number of tasks make the calls of the buffer cache; while one sleeps the others go
on, requests are done and flags and data change.  The queues keep their structure, and a
buffer keeps its block as long as there is a reference to it.
-/

namespace Linux012.Buffer

variable {pool pool' : Pool} {task : Nat} {caller : Caller} {dev : UInt16} {block : UInt32}
variable {bh : Bh}

/-- The number of references to a buffer. -/
def Pool.references (pool : Pool) (bh : Bh) : Nat :=
  pool.refs.countP fun ref => ref.bh == bh

/-- What every call keeps. -/
structure Pool.Good (pool : Pool) : Prop where
  queues : pool.cache.Queues
  counted : ∀ bh ∈ pool.cache.buffers, pool.cache.bCount bh = UInt8.ofNat (pool.references bh)
  inside : ∀ ref ∈ pool.refs, ref.bh ∈ pool.cache.buffers
  holds : ∀ ref ∈ pool.refs, pool.cache.Holds ref.bh ref.dev ref.block

/-- `b_count` can hold the number of references. -/
def Pool.FewRefs (pool : Pool) : Prop := ∀ bh, pool.references bh < 256

/-- The task has a reference to the buffer. -/
def Pool.Refers (pool : Pool) (task : Nat) (bh : Bh) : Prop :=
  ∃ ref ∈ pool.refs, ref.task = task ∧ ref.bh = bh

/-- What a task relies on while it sleeps. -/
def Pool.Keeps (pool : Pool) (task : Nat) : Wait → Prop
  | .found _ _ _ bh | .reading bh | .read bh | .releasing bh => pool.Refers task bh
  | .noBuffer _ _ _ => True
  | .victim _ _ _ bh | .syncing _ _ _ bh | .synced _ _ _ bh => bh ∈ pool.cache.buffers

/-- A task that gets a buffer has a reference to it. -/
def Pool.Gives (pool : Pool) (task : Nat) : Outcome → Prop
  | .sleeps wait => pool.Keeps task wait
  | .returns none => True
  | .returns (some bh) => pool.Refers task bh

/-- A step of a task leaves a good state, and what other tasks rely on. -/
structure Step (pool : Pool) (task : Nat) (result : Pool × Outcome) : Prop where
  good : result.1.Good
  nrBuffers : result.1.cache.nrBuffers = pool.cache.nrBuffers
  others : ∀ ref ∈ pool.refs, ref.task ≠ task → ref ∈ result.1.refs
  gives : result.1.Gives task result.2

/-! ## References -/

theorem Pool.references_take {other : Bh} :
    (pool.take task dev block bh).references other =
      pool.references other + if other = bh then 1 else 0 := by
  simp [Pool.references, Pool.take, List.countP_cons, eq_comm (a := bh)]

theorem Pool.Good.take (good : pool.Good) (member : bh ∈ pool.cache.buffers)
    (holds : pool.cache.Holds bh dev block) : (pool.take task dev block bh).Good where
  queues := good.queues.touch _ _ _ _ _
  counted other inside := by
    rw [Pool.references_take]
    by_cases same : other = bh
    · rw [if_pos same, same, UInt8.ofNat_add, ← good.counted bh member]
      exact Function.update_self bh _ _
    · rw [if_neg same, Nat.add_zero, ← good.counted other inside]
      exact Function.update_of_ne same _ _
  inside ref there := by
    rcases List.mem_cons.mp there with rfl | there
    · exact member
    · exact good.inside ref there
  holds ref there := by
    rcases List.mem_cons.mp there with rfl | there
    · exact holds
    · exact good.holds ref there

/-- The reference of the task that is dropped. -/
theorem Pool.refs_drop (has : pool.Refers task bh) :
    ∃ ref before behind, ref.task = task ∧ ref.bh = bh ∧
      pool.refs = before ++ ref :: behind ∧ (pool.drop task bh).refs = before ++ behind := by
  obtain ⟨ref, there, mine, here⟩ := has
  obtain ⟨ref, before, behind, _, isMine, split, erased⟩ :=
    List.exists_of_eraseP (p := fun ref : Ref => ref.task == task && ref.bh == bh) there
      (by simp [mine, here])
  rw [Bool.and_eq_true, beq_iff_eq, beq_iff_eq] at isMine
  exact ⟨ref, before, behind, isMine.1, isMine.2, split, erased⟩

theorem Pool.mem_drop {ref : Ref} (has : pool.Refers task bh)
    (there : ref ∈ pool.refs) (other : ref.task ≠ task) : ref ∈ (pool.drop task bh).refs := by
  obtain ⟨mine, before, behind, isMine, _, split, erased⟩ := Pool.refs_drop has
  rw [split, List.mem_append, List.mem_cons] at there
  rw [erased, List.mem_append]
  rcases there with inFront | same | inBack
  · exact .inl inFront
  · exact absurd (same ▸ isMine) other
  · exact .inr inBack

theorem Pool.Good.drop (good : pool.Good)
    (has : pool.Refers task bh) : (pool.drop task bh).Good := by
  obtain ⟨mine, before, behind, isMine, here, split, erased⟩ := Pool.refs_drop has
  have fewer {ref : Ref} (there : ref ∈ (pool.drop task bh).refs) : ref ∈ pool.refs := by
    rw [erased, List.mem_append] at there
    rw [split, List.mem_append, List.mem_cons]
    exact there.imp_right .inr
  have count (other : Bh) : pool.references other =
      (pool.drop task bh).references other + if other = bh then 1 else 0 := by
    rw [Pool.references, Pool.references, split, erased]
    simp only [List.countP_append, List.countP_cons, here, beq_iff_eq, eq_comm (a := bh)]
    omega
  refine ⟨good.queues.touch _ _ _ _ _, fun other inside => ?_, fun ref there => ?_,
    fun ref there => ?_⟩
  · have counted := good.counted other inside
    rw [count other] at counted
    by_cases same : other = bh
    · rw [if_pos same, UInt8.ofNat_add] at counted
      rw [same] at counted ⊢
      have oneLess : (pool.drop task bh).cache.bCount bh = pool.cache.bCount bh - 1 :=
        Function.update_self bh _ _
      rw [oneLess, counted]
      exact UInt8.add_sub_cancel _ _
    · rw [if_neg same, Nat.add_zero] at counted
      exact (Function.update_of_ne same _ _).trans counted
  · exact good.inside ref (fewer there)
  · exact good.holds ref (fewer there)

/-! ## The steps of a task -/

theorem Step.refl (good : pool.Good) {outcome : Outcome} (gives : pool.Gives task outcome) :
    Step pool task (pool, outcome) :=
  ⟨good, rfl, fun _ there _ => there, gives⟩

theorem Step.after {result : Pool × Outcome} (step : Step pool' task result)
    (nrBuffers : pool'.cache.nrBuffers = pool.cache.nrBuffers)
    (others : ∀ ref ∈ pool.refs, ref.task ≠ task → ref ∈ pool'.refs) :
    Step pool task result where
  good := step.good
  nrBuffers := step.nrBuffers.trans nrBuffers
  others ref there other := step.others ref (others ref there other) other
  gives := step.gives

theorem victim_step (good : pool.Good) : Step pool task
    (match pool.cache.victim with
    | none => (pool, .sleeps (.noBuffer caller dev block))
    | some bh => (pool, .sleeps (.victim caller dev block bh))) := by
  cases picked : pool.cache.victim with
  | none => exact Step.refl good trivial
  | some bh => exact Step.refl good (good.queues.free.victim_some picked).1

theorem notFound_step (good : pool.Good) : Step pool task (pool.notFound caller dev block) := by
  cases caller with
  | getHashTable => exact Step.refl good trivial
  | freeBlock => exact Step.refl good trivial
  | getblk => exact victim_step good
  | bread => exact victim_step good

theorem lookUp_step (good : pool.Good) : Step pool task (pool.lookUp task caller dev block) := by
  rw [Pool.lookUp]
  cases found : pool.cache.findBuffer dev block with
  | none => exact notFound_step good
  | some bh =>
      have here := good.queues.hashed.findBuffer_some found
      exact ⟨good.take here.1 here.2.2, rfl, fun ref there _ => List.mem_cons_of_mem _ there,
        _, List.mem_cons_self, rfl, rfl⟩

theorem gotBuffer_step (good : pool.Good) (mine : pool.Refers task bh) :
    Step pool task (pool.gotBuffer caller bh) := by
  cases caller with
  | getHashTable => exact Step.refl good mine
  | getblk => exact Step.refl good mine
  | bread =>
      rw [Pool.gotBuffer]
      split
      · exact Step.refl good mine
      · exact Step.refl good mine
  | freeBlock =>
      have freed := good.queues.touch pool.cache.bData
        (Function.update pool.cache.bUptodate bh false)
        (Function.update pool.cache.bDirt bh false) pool.cache.bLock pool.cache.bCount
      rw [Pool.gotBuffer]
      split
      · exact Step.refl good mine
      · dsimp only
        split
        · exact ⟨⟨freed, good.counted, good.inside, good.holds⟩, rfl, fun _ there _ => there, mine⟩
        · exact ⟨⟨freed, good.counted, good.inside, good.holds⟩, rfl, fun _ there _ => there,
            trivial⟩

theorem Pool.references_eq_zero (good : pool.Good) (few : pool.FewRefs)
    (member : bh ∈ pool.cache.buffers) (unused : pool.cache.bCount bh = 0) :
    pool.references bh = 0 := by
  have counted := congrArg UInt8.toNat ((good.counted bh member).symm.trans unused)
  rwa [UInt8.toNat_ofNat_of_lt' (few bh)] at counted

theorem Pool.Good.assigned (good : pool.Good) {cache : Cache}
    (assigned : pool.cache.Assigned bh dev block cache) (member : bh ∈ pool.cache.buffers)
    (nobody : pool.references bh = 0) :
    Pool.Good ⟨cache, ⟨task, bh, dev, block⟩ :: pool.refs⟩ := by
  have sameBuffers : cache.buffers = pool.cache.buffers := by
    rw [Cache.buffers, assigned.nrBuffers]
    rfl
  have notHere (ref : Ref) (there : ref ∈ pool.refs) : ref.bh ≠ bh := by
    have none := List.countP_eq_zero.mp nobody ref there
    simpa using none
  refine ⟨assigned.queues, fun other inside => ?_, fun ref there => ?_, fun ref there => ?_⟩
  · rw [sameBuffers] at inside
    rw [assigned.bCount, Pool.references, List.countP_cons]
    by_cases same : other = bh
    · rw [same, Function.update_self]
      change _ = UInt8.ofNat (pool.references bh + _)
      rw [nobody]
      simp
    · rw [Function.update_of_ne same, good.counted other inside]
      simp [Pool.references, Ne.symm same]
  · rw [sameBuffers]
    rcases List.mem_cons.mp there with rfl | there
    · exact member
    · exact good.inside ref there
  · rw [Cache.Holds, assigned.bDev, assigned.bBlocknr]
    rcases List.mem_cons.mp there with rfl | there
    · exact ⟨Function.update_self _ _ _, Function.update_self _ _ _⟩
    · rw [Function.update_of_ne (notHere ref there), Function.update_of_ne (notHere ref there)]
      exact good.holds ref there

theorem useVictim_step (good : pool.Good) (few : pool.FewRefs)
    (member : bh ∈ pool.cache.buffers) (unused : pool.cache.bCount bh = 0)
    {result : Pool × Outcome} (taken : pool.useVictim task caller dev block bh = some result) :
    Step pool task result := by
  rw [Pool.useVictim] at taken
  cases found : pool.cache.findBuffer dev block with
  | some other =>
      simp only [found, Option.isSome_some, if_true, Option.some.injEq] at taken
      exact taken ▸ lookUp_step good
  | none =>
      obtain ⟨cache, ran, assigned⟩ := good.queues.assign member found
      simp [found, ran] at taken
      have good' : Pool.Good ⟨cache, ⟨task, bh, dev, block⟩ :: pool.refs⟩ :=
        good.assigned assigned member (Pool.references_eq_zero good few member unused)
      rw [← taken]
      exact (gotBuffer_step good' ⟨_, List.mem_cons_self, rfl, rfl⟩).after assigned.nrBuffers
        fun ref there _ => List.mem_cons_of_mem _ there

theorem checkVictim_step (good : pool.Good) (few : pool.FewRefs)
    (member : bh ∈ pool.cache.buffers) {result : Pool × Outcome}
    (taken : pool.checkVictim task caller dev block bh = some result) :
    Step pool task result := by
  rw [Pool.checkVictim] at taken
  split at taken
  · cases taken
    exact lookUp_step good
  · split at taken
    · cases taken
      exact Step.refl good member
    next unused _ => exact useVictim_step good few member (not_not.mp unused) taken

theorem resume_step (good : pool.Good) (few : pool.FewRefs) {wait : Wait}
    (keeps : pool.Keeps task wait) {result : Pool × Outcome}
    (taken : pool.resume task wait = some result) : Step pool task result := by
  unfold Pool.resume at taken
  split at taken
  · cases taken
  · cases wait with
    | found caller dev block bh =>
        dsimp only at taken
        split at taken
        · cases taken
          exact gotBuffer_step good keeps
        · cases taken
          exact (lookUp_step (good.drop keeps)).after rfl
            fun ref there other => Pool.mem_drop keeps there other
    | noBuffer caller dev block =>
        cases taken
        exact lookUp_step good
    | victim caller dev block bh => exact checkVictim_step good few keeps taken
    | syncing caller dev block bh =>
        cases taken
        exact Step.refl good keeps
    | synced caller dev block bh => exact checkVictim_step good few keeps taken
    | reading bh =>
        cases taken
        exact Step.refl good keeps
    | read bh =>
        dsimp only at taken
        split at taken
        · cases taken
          exact Step.refl good keeps
        · cases taken
          exact Step.refl good keeps
    | releasing bh =>
        dsimp only at taken
        split at taken
        · cases taken
        · cases taken
          exact ⟨good.drop keeps, rfl, fun ref there other => Pool.mem_drop keeps there other,
            trivial⟩

/-! ## Any schedule -/

/-- The cache, and where each task sleeps in a call. -/
structure System where
  pool : Pool
  sleeping : Nat → Option Wait

/-- A call begins, a task goes on, or flags and data of a buffer change: by a request, an
interrupt, or a task that has a reference. -/
inductive Action where
  | call (task : Nat) (caller : Caller) (dev : UInt16) (block : UInt32)
  | brelse (task : Nat) (bh : Bh)
  | resume (task : Nat)
  | change (bh : Bh) (bUptodate bDirt bLock : Bool) (bData : Nat → UInt8)

/-- The task sleeps or is out of the call. -/
def System.continue (s : System) (task : Nat) (result : Pool × Outcome) : System where
  pool := result.1
  sleeping := Function.update s.sleeping task result.2.wait

def Pool.change (pool : Pool) (bh : Bh) (bUptodate bDirt bLock : Bool) (bData : Nat → UInt8) :
    Pool :=
  { pool with cache := { pool.cache with
    bUptodate := Function.update pool.cache.bUptodate bh bUptodate
    bDirt := Function.update pool.cache.bDirt bh bDirt
    bLock := Function.update pool.cache.bLock bh bLock
    bData := Function.update pool.cache.bData bh bData } }

/-- A task is in one call at a time; it releases only what it has a reference to. -/
def step (s : System) : Action → Option System
  | .call task caller dev block =>
      if (s.sleeping task).isNone then
        some (s.continue task (s.pool.lookUp task caller dev block))
      else none
  | .brelse task bh =>
      if (s.sleeping task).isNone ∧
          s.pool.refs.any (fun ref => ref.task == task && ref.bh == bh) then
        some (s.continue task (s.pool, .sleeps (.releasing bh)))
      else none
  | .resume task => do
      let wait ← s.sleeping task
      let result ← s.pool.resume task wait
      return s.continue task result
  | .change bh bUptodate bDirt bLock bData =>
      some { s with pool := s.pool.change bh bUptodate bDirt bLock bData }

/-- After `buffer_init`, with no task in a call. -/
def start (n : Nat) (bBlocknr : Bh → UInt32) (bData : Bh → Nat → UInt8) : System where
  pool := ⟨bufferInit n bBlocknr bData, []⟩
  sleeping _ := none

/-- The invariant of all runs. -/
structure System.Inv (s : System) : Prop where
  good : s.pool.Good
  keeps : ∀ task wait, s.sleeping task = some wait → s.pool.Keeps task wait

variable {s s' : System}

theorem start_inv {n : Nat} {bBlocknr : Bh → UInt32} {bData : Bh → Nat → UInt8}
    (some_ : 0 < n) : (start n bBlocknr bData).Inv where
  good := ⟨bufferInit_queues some_, fun _ _ => rfl, nofun, nofun⟩
  keeps := nofun

/-- What another task relies on is still there. -/
theorem Step.keeps {result : Pool × Outcome} {other : Nat} {wait : Wait}
    (stepped : Step pool task result) (different : other ≠ task)
    (keeps : pool.Keeps other wait) : result.1.Keeps other wait := by
  have refers {bh : Bh} (has : pool.Refers other bh) : result.1.Refers other bh := by
    obtain ⟨ref, there, mine, here⟩ := has
    exact ⟨ref, stepped.others ref there (mine ▸ different), mine, here⟩
  have inside {bh : Bh} (member : bh ∈ pool.cache.buffers) : bh ∈ result.1.cache.buffers := by
    change bh < _ at member
    rwa [← stepped.nrBuffers] at member
  cases wait with
  | found | reading | read | releasing => exact refers keeps
  | victim | syncing | synced => exact inside keeps
  | noBuffer => trivial

theorem System.continue_self {result : Pool × Outcome} :
    (s.continue task result).sleeping task = result.2.wait :=
  Function.update_self task _ _

theorem System.continue_of_ne {result : Pool × Outcome} {other : Nat} (different : other ≠ task) :
    (s.continue task result).sleeping other = s.sleeping other :=
  Function.update_of_ne different _ _

theorem System.Inv.continue {result : Pool × Outcome} (inv : s.Inv)
    (stepped : Step s.pool task result) : (s.continue task result).Inv where
  good := stepped.good
  keeps other wait sleeping := by
    by_cases same : other = task
    · rw [same] at sleeping ⊢
      rw [System.continue_self] at sleeping
      have gives := stepped.gives
      cases outcome : result.2 with
      | sleeps wait' =>
          rw [outcome] at sleeping gives
          cases sleeping
          exact gives
      | returns found =>
          rw [outcome] at sleeping
          cases sleeping
    · rw [System.continue_of_ne same] at sleeping
      exact stepped.keeps same (inv.keeps other wait sleeping)

theorem System.Inv.step {action : Action} (inv : s.Inv) (few : s.pool.FewRefs)
    (taken : step s action = some s') : s'.Inv := by
  cases action with
  | call task caller dev block =>
      simp only [Buffer.step] at taken
      split at taken
      · cases taken
        exact inv.continue (lookUp_step inv.good)
      · cases taken
  | brelse task bh =>
      simp only [Buffer.step] at taken
      split at taken
      next has =>
        cases taken
        apply inv.continue (Step.refl inv.good _)
        obtain ⟨ref, there, mine⟩ := List.any_eq_true.mp has.2
        rw [Bool.and_eq_true, beq_iff_eq, beq_iff_eq] at mine
        exact ⟨ref, there, mine⟩
      next => cases taken
  | resume task =>
      simp only [Buffer.step, Option.bind_eq_bind, Option.bind_eq_some_iff] at taken
      obtain ⟨wait, sleeping, result, resumed, taken⟩ := taken
      cases taken
      exact inv.continue (resume_step inv.good few (inv.keeps task wait sleeping) resumed)
  | change bh bUptodate bDirt bLock bData =>
      cases taken
      exact ⟨⟨inv.good.queues.touch _ _ _ _ _, inv.good.counted, inv.good.inside, inv.good.holds⟩,
        inv.keeps⟩

/-- The structure of the cache, and that a buffer keeps its block while there is a
reference to it. -/
structure Pool.Structured (pool : Pool) : Prop where
  freeList : pool.cache.FreeList pool.cache.buffers
  hashChains : ∀ h, pool.cache.HashChain pool.cache.buffers h
  oneEach : pool.cache.OneEach
  held : ∀ ref ∈ pool.refs, pool.cache.Holds ref.bh ref.dev ref.block

/-- With at least one buffer and never more references than `b_count` can count, the
cache is structured in every state of every run from `buffer_init`. -/
theorem structured_of_fewRefs {n : Nat} {bBlocknr : Bh → UInt32} {bData : Bh → Nat → UInt8}
    (some_ : 0 < n)
    (reached : Lib.ReachedBy step (fun s _ => s.pool.FewRefs) (start n bBlocknr bData) s) :
    s.pool.Structured := by
  have inv : s.Inv := reached.invariant System.Inv
    (fun _ _ _ inv few taken => inv.step few taken) (start_inv some_)
  exact ⟨inv.good.queues.free, inv.good.queues.hashed.chain, inv.good.queues.once,
    inv.good.holds⟩

theorem Pool.fewRefs_of_length (short : pool.refs.length < 256) : pool.FewRefs :=
  fun _ => List.countP_le_length.trans_lt short

/-- With two buffers, a task gets one for a block, and a second task, which waits while
the block is read, gets the same. -/
def sharedBlock : List Action :=
  [.call 1 .bread 0x301 7, .resume 1, .change 0 false false true (fun _ => 0),
    .call 2 .getblk 0x301 7, .resume 1, .change 0 true false false (fun _ => 9),
    .resume 2, .resume 1, .brelse 1 0, .resume 1]

theorem structured_of_fewRefs_sharedBlock :
    ∃ s, Lib.exec step (start 2 (fun _ => 0) fun _ _ => 0) sharedBlock = some s ∧
      s.pool.refs = [⟨2, 0, 0x301, 7⟩] ∧ s.pool.Structured := by
  have ran : (Lib.exec step (start 2 (fun _ => 0) fun _ _ => 0) sharedBlock).map
      (fun s => s.pool.refs) = some [⟨2, 0, 0x301, 7⟩] := by
    decide +kernel
  obtain ⟨s, reached, refs⟩ := Option.map_eq_some_iff.mp ran
  have few : Lib.EveryStep step (fun s _ => s.pool.FewRefs)
      (start 2 (fun _ => 0) fun _ _ => 0) sharedBlock := by
    apply Lib.everyStep_of_checkSteps fun s _ => decide (s.pool.refs.length < 256)
    · intro s _ short
      exact Pool.fewRefs_of_length (of_decide_eq_true short)
    · decide +kernel
  exact ⟨s, reached, refs, structured_of_fewRefs (by decide) ⟨sharedBlock, reached, few⟩⟩

end Linux012.Buffer
