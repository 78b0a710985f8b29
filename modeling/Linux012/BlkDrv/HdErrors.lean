import Linux012.BlkDrv.HdPartition

/-!
# Errors and the queue of the hard disks

`bad_rw_intr` looks at `CURRENT` again after `end_request` has advanced the queue, and
`end_request` prints a block number that a paging request does not have.  Here the whole queue
is modelled, and what is read through a null pointer is recorded.  A handler runs with
interrupts off; the `do_hd_request` that `add_request` calls can be interrupted between what
it reads of the request and its command, and in the wait for `DRQ_STAT`.
-/

namespace Linux012.BlkDrv.Hd

/-- The functions that complete requests. -/
inductive Completion where
  | endRequest
  | badRwIntr
  | hdTimesOut
  | readIntr
  | writeIntr
  deriving DecidableEq, Repr

/-- The pointers that they follow: `CURRENT` and `CURRENT->bh`. -/
inductive Pointer where
  | current
  | bh
  deriving DecidableEq, Repr

/-- Where a `do_hd_request` is. -/
inductive Pc where
  /-- At `repeat:`. -/
  | top
  /-- The request has been read; the command is about to be given. -/
  | loaded (cmd : Cmd)
  /-- In the wait for `DRQ_STAT`. -/
  | polling
  deriving DecidableEq, Repr

/-- The driver with its queue.  `proc` is the `do_hd_request` that `add_request` has called,
`irq` the one that a handler has called; `null` is set when a null pointer is followed. -/
structure QueueDriver where
  queue : List Request
  reset : Bool
  recalibrate : Bool
  doHd : Option Handler
  /-- The static `i` of `reset_hd`. -/
  i : Int
  sysLoadFlags : Bool
  proc : Option Pc
  irq : Option Pc
  null : Option (Completion × Pointer)
  deriving DecidableEq, Repr

namespace QueueDriver

/-! ## The functions -/

def follows (s : QueueDriver) (function : Completion) (pointer : Pointer) : QueueDriver :=
  { s with null := some (function, pointer) }

/-- `end_request`.  Without success it prints `CURRENT->bh->b_blocknr`. -/
def endRequest (s : QueueDriver) (uptodate : Bool) : QueueDriver :=
  match s.queue with
  | [] => s.follows .endRequest .current
  | r :: rest =>
      if uptodate = false ∧ r.bLock = none then s.follows .endRequest .bh
      else { s with queue := rest }

/-- `if (++CURRENT->errors >= MAX_ERRORS) end_request(0)`. -/
def countError (s : QueueDriver) (function : Completion) : QueueDriver :=
  match s.queue with
  | [] => s.follows function .current
  | r :: rest =>
      let s := { s with queue := { r with errors := r.errors + 1 } :: rest }
      if maxErrors ≤ r.errors + 1 then s.endRequest false else s

/-- `bad_rw_intr`, with the second look at `CURRENT`. -/
def badRwIntr (s : QueueDriver) : QueueDriver :=
  let s := s.countError .badRwIntr
  if s.null.isSome then s
  else
    match s.queue with
    | [] => s.follows .badRwIntr .current
    | r :: _ => if maxErrors / 2 < r.errors then { s with reset := true } else s

/-- `do_hd_request()` at the end of a handler. -/
def callDoHdRequest (s : QueueDriver) : QueueDriver := { s with irq := some .top }

def hdTimesOut (s : QueueDriver) : QueueDriver :=
  match s.queue with
  | [] => s
  | _ :: _ => ({ s.countError .hdTimesOut with doHd := none, reset := true } :
      QueueDriver).callDoHdRequest

def readIntr (s : QueueDriver) (failed : Bool) : QueueDriver :=
  if failed then s.badRwIntr.callDoHdRequest
  else
    match s.queue with
    | [] => s.follows .readIntr .current
    | r :: rest =>
        let next : Request := { r with
          errors := 0
          buffer := r.buffer + 512
          sector := r.sector + 1
          nrSectors := r.nrSectors - 1 }
        let s := { s with queue := next :: rest }
        if next.nrSectors ≠ 0 then { s with doHd := some .readIntr }
        else (s.endRequest true).callDoHdRequest

def writeIntr (s : QueueDriver) (failed : Bool) : QueueDriver :=
  if failed then s.badRwIntr.callDoHdRequest
  else
    match s.queue with
    | [] => s.follows .writeIntr .current
    | r :: rest =>
        let next : Request := { r with nrSectors := r.nrSectors - 1 }
        if next.nrSectors ≠ 0 then
          { s with
            queue := { next with sector := r.sector + 1, buffer := r.buffer + 512 } :: rest
            doHd := some .writeIntr }
        else (({ s with queue := next :: rest } : QueueDriver).endRequest true).callDoHdRequest

def recalIntr (s : QueueDriver) (failed : Bool) : QueueDriver :=
  (if failed then s.badRwIntr else s).callDoHdRequest

/-- The end of `reset_hd`, which is also what it does as a handler of `WIN_SPECIFY`. -/
def specify (s : QueueDriver) (disks : Disks) : QueueDriver :=
  let s := { s with i := s.i + 1 }
  if s.i < (disks.nrHd : Int) then { s with doHd := some .resetHd } else s.callDoHdRequest

/-- `reset_controller` and what is around it. -/
def beginReset (s : QueueDriver) : QueueDriver := { s with reset := false, i := -1 }

def resetHd (s : QueueDriver) (disks : Disks) (failed : Bool) : QueueDriver :=
  if s.reset then s.beginReset.specify disks
  else if failed then
    let s := s.badRwIntr
    if s.reset then s.beginReset.specify disks -- goto repeat
    else s.specify disks
  else s.specify disks

def unexpectedHdInterrupt (s : QueueDriver) : QueueDriver :=
  if s.sysLoadFlags then s else ({ s with reset := true } : QueueDriver).callDoHdRequest

/-- `hd_interrupt`: `xchgl do_hd,%edx` and the call. -/
def hdInterrupt (s : QueueDriver) (disks : Disks) (failed : Bool) : QueueDriver :=
  let cleared := { s with doHd := none }
  match s.doHd with
  | none => s.unexpectedHdInterrupt
  | some .resetHd => cleared.resetHd disks failed
  | some .readIntr => cleared.readIntr failed
  | some .writeIntr => cleared.writeIntr failed
  | some .recalIntr => cleared.recalIntr failed

/-! ## `do_hd_request` -/

/-- Where the `do_hd_request` is that runs. -/
def pc (s : QueueDriver) : Option Pc := s.irq <|> s.proc

def setPc (s : QueueDriver) (pc : Option Pc) : QueueDriver :=
  if s.irq.isSome then { s with irq := pc } else { s with proc := pc }

/-- From `repeat:` on, up to the command or to `repeat:` again; `none` when it panics. -/
def enter (s : QueueDriver) (disks : Disks) : Option QueueDriver :=
  match s.queue with
  | [] => some (({ s with doHd := none } : QueueDriver).setPc none)
  | r :: _ =>
      if r.major ≠ 3 ∨ r.bLock = some false then none
      else if ¬r.Passes disks then some (s.endRequest false)
      else if s.reset then
        -- there is a drive, for which `reset_hd` gives a command
        some (({ s with recalibrate := true, reset := false, i := 0, doHd := some .resetHd } :
          QueueDriver).setPc none)
      else if s.recalibrate then
        some (({ s with recalibrate := false, doHd := some .recalIntr } : QueueDriver).setPc none)
      else some (s.setPc (some (.loaded r.cmd)))

/-- The next part of `do_hd_request`; `drq` says how the wait for `DRQ_STAT` ends. -/
def proceed (s : QueueDriver) (disks : Disks) (drq : Bool) : Option QueueDriver :=
  match s.pc with
  | none => none
  | some .top => s.enter disks
  | some (.loaded .read) => some (({ s with doHd := some .readIntr } : QueueDriver).setPc none)
  | some (.loaded .write) =>
      some (({ s with doHd := some .writeIntr } : QueueDriver).setPc (some .polling))
  | some .polling => some (if drq then s.setPc none else s.badRwIntr.setPc (some .top))

/-! ## Runs -/

inductive Action where
  /-- `add_request`, which puts the request behind `place + 1` others. -/
  | add (r : Request) (place : Nat)
  | proceed (drq : Bool)
  | interrupt (failed : Bool)
  | timeout

/-- `add_request`: the request comes behind the first, or is the first and `do_hd_request` is
called. -/
def add (s : QueueDriver) (r : Request) (place : Nat) : QueueDriver :=
  match s.queue with
  | [] => { s with queue := [r], proc := some .top }
  | first :: rest => { s with queue := first :: rest.insertIdx place r }

/-- One step; there is none after a null pointer was followed. -/
def step (disks : Disks) (s : QueueDriver) (action : Action) : Option QueueDriver :=
  if s.null.isSome then none
  else
    match action with
    | .add r place =>
        if s.pc = none ∧ r.Queued ∧ r.errors = 0 ∧ place ≤ s.queue.length - 1 then
          some (s.add r place)
        else none
    | .proceed drq => s.proceed disks drq
    | .interrupt failed => if s.irq = none then some (s.hdInterrupt disks failed) else none
    | .timeout => if s.irq = none then some s.hdTimesOut else none

/-! ## What is promised -/

/-- An error is counted in this step. -/
def Counts (s : QueueDriver) : Action → Prop
  | .add .. => False
  | .proceed drq => s.pc = some .polling ∧ drq = false
  | .interrupt failed =>
      match s.doHd with
      | none => False
      | some .resetHd => failed = true ∧ s.reset = false
      | some _ => failed = true
  | .timeout => s.queue ≠ []

/-- The error is counted against the first request: it stays, or it is ended, and then no reset
is due that was not due before, except for the timeout itself. -/
def Isolated (s : QueueDriver) (action : Action) (next : QueueDriver) : Prop :=
  ∀ r rest, s.queue = r :: rest →
    next.queue = { r with errors := r.errors + 1 } :: rest ∨
      next.queue = rest ∧ (next.reset = s.reset ∨ action = .timeout)

/-- What a step must not do. -/
def Safe (disks : Disks) (s : QueueDriver) (action : Action) : Prop :=
  ∀ next, step disks s action = some next →
    next.null = none ∧ (s.Counts action → s.Isolated action next)

/-! ## The condition -/

/-- The first request can be ended without success: it has a buffer. -/
def Endable (s : QueueDriver) : Prop := ∀ r rest, s.queue = r :: rest → r.bLock ≠ none

/-- `bad_rw_intr` can count an error: there is a request, and where it ends the request the
request has a buffer, and another request is behind it. -/
def Countable (s : QueueDriver) : Prop :=
  match s.queue with
  | [] => False
  | r :: rest => r.errors + 1 < maxErrors ∨ r.bLock ≠ none ∧ rest ≠ []

/-- The steps that do not go wrong. -/
def Meets (disks : Disks) (s : QueueDriver) : Action → Prop
  | .add .. => True
  | .proceed drq =>
      match s.pc with
      | some .top => (∃ r rest, s.queue = r :: rest ∧ ¬r.Passes disks) → s.Endable
      | some .polling => drq = true ∨ s.Countable
      | _ => True
  | .interrupt failed =>
      match s.doHd with
      | none => True
      | some .resetHd => failed = false ∨ s.reset = true ∨ s.Countable
      | some .recalIntr => failed = false ∨ s.Countable
      | some _ => if failed then s.Countable else s.queue ≠ []
  | .timeout => (∃ r rest, s.queue = r :: rest ∧ maxErrors ≤ r.errors + 1) → s.Endable

/-- The queue as `add_request` keeps it: no error has been counted against a request behind the
first. -/
structure InOrder (s : QueueDriver) : Prop where
  null : s.null = none
  queued : ∀ r ∈ s.queue, r.Queued
  fresh : ∀ r ∈ s.queue.tail, r.errors = 0

/-! ## One error -/

section Errors

variable {disks : Disks} {s s' next : QueueDriver} {r r' : Request} {rest : List Request}

theorem InOrder.congr (inOrder : s.InOrder) (queue : s'.queue = s.queue)
    (null : s'.null = s.null) : s'.InOrder :=
  ⟨null.trans inOrder.null, queue ▸ inOrder.queued, queue ▸ inOrder.fresh⟩

/-- The first request changes. -/
theorem InOrder.head (inOrder : s.InOrder) (isQueue : s.queue = r :: rest)
    (queue : s'.queue = r' :: rest) (queued : r'.Queued) (null : s'.null = s.null) :
    s'.InOrder := by
  have queuedAll := inOrder.queued
  have fresh := inOrder.fresh
  rw [isQueue] at queuedAll fresh
  refine ⟨null.trans inOrder.null, ?_, ?_⟩ <;> rw [queue]
  · intro other member
    rcases List.mem_cons.mp member with rfl | member
    · exact queued
    · exact queuedAll other (List.mem_cons_of_mem r member)
  · exact fresh

/-- The first request ends. -/
theorem InOrder.tail (inOrder : s.InOrder) (isQueue : s.queue = r :: rest)
    (queue : s'.queue = rest) (null : s'.null = s.null) : s'.InOrder := by
  have queuedAll := inOrder.queued
  have fresh := inOrder.fresh
  rw [isQueue] at queuedAll fresh
  refine ⟨null.trans inOrder.null, ?_, ?_⟩ <;> rw [queue]
  · exact fun other member => queuedAll other (List.mem_cons_of_mem r member)
  · exact fun other member => fresh other (List.mem_of_mem_tail member)

theorem InOrder.first (inOrder : s.InOrder) (isQueue : s.queue = r :: rest) : r.Queued :=
  inOrder.queued r (isQueue ▸ List.mem_cons_self)

theorem endRequest_of_endable (isQueue : s.queue = r :: rest) {uptodate : Bool}
    (endable : uptodate = true ∨ r.bLock ≠ none) :
    s.endRequest uptodate = { s with queue := rest } := by
  have prints : ¬(uptodate = false ∧ r.bLock = none) := by
    rintro ⟨rfl, paging⟩
    exact endable.elim nofun fun other => other paging
  rw [endRequest, isQueue]
  exact if_neg prints

theorem endRequest_paging (isQueue : s.queue = r :: rest) (paging : r.bLock = none) :
    (s.endRequest false).null ≠ none := by
  rw [endRequest, isQueue]
  simp [paging, follows]

/-- An error that does not end the request. -/
theorem countError_few {function : Completion} (isQueue : s.queue = r :: rest)
    (few : r.errors + 1 < maxErrors) :
    s.countError function = { s with queue := { r with errors := r.errors + 1 } :: rest } := by
  rw [countError, isQueue]
  exact if_neg (Nat.not_le.mpr few)

/-- The error that ends it. -/
theorem countError_many {function : Completion} (isQueue : s.queue = r :: rest)
    (many : maxErrors ≤ r.errors + 1) (endable : r.bLock ≠ none) :
    s.countError function = { s with queue := rest } := by
  rw [countError, isQueue]
  exact (if_pos many).trans
    (endRequest_of_endable (r := { r with errors := r.errors + 1 }) rfl (.inr endable))

theorem countError_paging {function : Completion} (isQueue : s.queue = r :: rest)
    (many : maxErrors ≤ r.errors + 1) (paging : r.bLock = none) :
    (s.countError function).null ≠ none := by
  rw [countError, isQueue]
  dsimp only
  rw [if_pos many]
  exact endRequest_paging (r := { r with errors := r.errors + 1 }) rfl paging

/-- What `bad_rw_intr` does where nothing goes wrong: when it ends the request, no error has
been counted against the one that it looks at then. -/
theorem badRwIntr_cases (inOrder : s.InOrder) (countable : s.Countable) :
    ∃ r rest, s.queue = r :: rest ∧
      (s.badRwIntr = { s with
          queue := { r with errors := r.errors + 1 } :: rest
          reset := s.reset || decide (maxErrors / 2 < r.errors + 1) } ∨
        s.badRwIntr = { s with queue := rest }) := by
  cases isQueue : s.queue with
  | nil =>
      rw [Countable, isQueue] at countable
      exact countable.elim
  | cons r rest =>
      rw [Countable, isQueue] at countable
      refine ⟨r, rest, rfl, ?_⟩
      by_cases few : r.errors + 1 < maxErrors
      · left
        rw [badRwIntr, countError_few isQueue few]
        simp only [inOrder.null, Option.isSome_none, Bool.false_eq_true, if_false]
        by_cases often : maxErrors / 2 < r.errors + 1
        · simp [often]
        · simp [often]
      · right
        obtain ⟨endable, more⟩ := countable.resolve_left few
        rw [badRwIntr, countError_many isQueue (Nat.not_lt.mp few) endable]
        simp only [inOrder.null, Option.isSome_none, Bool.false_eq_true, if_false]
        have fresh := inOrder.fresh
        rw [isQueue] at fresh
        cases rest with
        | nil => exact absurd rfl more
        | cons other rest =>
            have none := fresh other List.mem_cons_self
            simp [none]

/-- Otherwise it follows a null pointer. -/
theorem badRwIntr_null (uncountable : ¬s.Countable) : s.badRwIntr.null ≠ none := by
  rw [badRwIntr]
  split
  · rename_i isSome
    exact Option.isSome_iff_ne_none.mp isSome
  · rename_i notSome
    cases isQueue : s.queue with
    | nil =>
        rw [countError, isQueue] at notSome
        exact absurd rfl notSome
    | cons r rest =>
        rw [Countable, isQueue, not_or, not_and_or, Nat.not_lt] at uncountable
        obtain ⟨many, unable⟩ := uncountable
        by_cases paging : r.bLock = none
        · have followed := @countError_paging _ _ _ .badRwIntr isQueue many paging
          exact absurd (Option.isSome_iff_ne_none.mpr followed) notSome
        · obtain rfl := not_not.mp (unable.resolve_left (not_not.mpr paging))
          rw [countError_many isQueue many paging]
          nofun

/-- One error is counted, and everything is in order. -/
structure Counted (s next : QueueDriver) : Prop where
  inOrder : next.InOrder
  isolated : ∀ r rest, s.queue = r :: rest →
    next.queue = { r with errors := r.errors + 1 } :: rest ∨
      next.queue = rest ∧ next.reset = s.reset

theorem Counted.congr (counted : Counted s next) (queue : s'.queue = next.queue)
    (reset : s'.reset = next.reset) (null : s'.null = next.null) : Counted s s' :=
  ⟨counted.inOrder.congr queue null, fun r rest isQueue => by
    rw [queue, reset]
    exact counted.isolated r rest isQueue⟩

theorem badRwIntr_counted (inOrder : s.InOrder) (countable : s.Countable) :
    Counted s s.badRwIntr := by
  obtain ⟨r, rest, isQueue, counts | ends⟩ := badRwIntr_cases inOrder countable
  · rw [counts]
    have queued : ({ r with errors := r.errors + 1 } : Request).Queued :=
      ⟨(inOrder.first isQueue).major, (inOrder.first isQueue).locked⟩
    refine ⟨inOrder.head isQueue rfl queued rfl, fun r' rest' same => ?_⟩
    rw [isQueue] at same
    cases same
    exact .inl rfl
  · rw [ends]
    refine ⟨inOrder.tail isQueue rfl rfl, fun r' rest' same => ?_⟩
    rw [isQueue] at same
    cases same
    exact .inr ⟨rfl, rfl⟩

/-- `reset_hd` counts an error, or does what it does without one. -/
theorem specify_fields : (s.specify disks).queue = s.queue ∧ (s.specify disks).reset = s.reset ∧
    (s.specify disks).null = s.null := by
  rw [specify]
  dsimp only
  split <;> exact ⟨rfl, rfl, rfl⟩

theorem specify_counted (counted : Counted s next) : Counted s (next.specify disks) :=
  counted.congr specify_fields.1 specify_fields.2.1 specify_fields.2.2

theorem specify_inOrder (inOrder : s.InOrder) : (s.specify disks).InOrder :=
  inOrder.congr specify_fields.1 specify_fields.2.2

theorem resetHd_counted (inOrder : s.InOrder) (noReset : s.reset = false)
    (countable : s.Countable) : Counted s (s.resetHd disks true) := by
  have counted := badRwIntr_counted inOrder countable
  rw [resetHd, noReset, if_neg Bool.false_ne_true, if_pos rfl]
  dsimp only
  split
  · rename_i due
    refine specify_counted ⟨counted.inOrder.congr rfl rfl, fun r rest isQueue => ?_⟩
    -- a reset that is due now is one that the request itself has made due
    rcases counted.isolated r rest isQueue with stays | ⟨-, reset⟩
    · exact .inl stays
    · rw [due, noReset] at reset
      cases reset
  · exact specify_counted counted

theorem resetHd_inOrder {failed : Bool} (inOrder : s.InOrder)
    (quiet : failed = false ∨ s.reset = true) : (s.resetHd disks failed).InOrder := by
  rw [resetHd]
  split
  · exact specify_inOrder (inOrder.congr rfl rfl)
  · rename_i noReset
    obtain rfl := quiet.resolve_right noReset
    rw [if_neg Bool.false_ne_true]
    exact specify_inOrder inOrder

theorem resetHd_null (noReset : s.reset = false) (uncountable : ¬s.Countable) :
    (s.resetHd disks true).null ≠ none := by
  rw [resetHd, noReset, if_neg Bool.false_ne_true, if_pos rfl]
  dsimp only
  split
  · rw [specify_fields.2.2]
    exact badRwIntr_null uncountable
  · rw [specify_fields.2.2]
    exact badRwIntr_null uncountable

end Errors

/-! ## The other steps -/

section Steps

variable {disks : Disks} {s next : QueueDriver} {r : Request} {rest : List Request}

theorem hdTimesOut_inOrder (inOrder : s.InOrder) (isQueue : s.queue = r :: rest)
    (endable : maxErrors ≤ r.errors + 1 → r.bLock ≠ none) :
    s.hdTimesOut.InOrder ∧ (s.hdTimesOut.queue = { r with errors := r.errors + 1 } :: rest ∨
      s.hdTimesOut.queue = rest) := by
  rw [hdTimesOut, isQueue]
  dsimp only [callDoHdRequest]
  by_cases many : maxErrors ≤ r.errors + 1
  · rw [countError_many isQueue many (endable many)]
    exact ⟨inOrder.tail isQueue rfl rfl, .inr rfl⟩
  · rw [countError_few isQueue (Nat.not_le.mp many)]
    have queued : ({ r with errors := r.errors + 1 } : Request).Queued :=
      ⟨(inOrder.first isQueue).major, (inOrder.first isQueue).locked⟩
    exact ⟨inOrder.head isQueue rfl queued rfl, .inl rfl⟩

theorem hdTimesOut_null (isQueue : s.queue = r :: rest) (many : maxErrors ≤ r.errors + 1)
    (paging : r.bLock = none) : s.hdTimesOut.null ≠ none := by
  rw [hdTimesOut, isQueue]
  exact countError_paging isQueue many paging

theorem readIntr_inOrder (inOrder : s.InOrder) (waits : s.queue ≠ []) :
    (s.readIntr false).InOrder := by
  cases isQueue : s.queue with
  | nil => exact absurd isQueue waits
  | cons r rest =>
      have queued := inOrder.first isQueue
      rw [readIntr, if_neg Bool.false_ne_true, isQueue]
      dsimp only
      split
      · exact inOrder.head isQueue rfl ⟨queued.major, queued.locked⟩ rfl
      · rw [endRequest_of_endable rfl (.inl rfl)]
        exact inOrder.tail isQueue rfl rfl

theorem writeIntr_inOrder (inOrder : s.InOrder) (waits : s.queue ≠ []) :
    (s.writeIntr false).InOrder := by
  cases isQueue : s.queue with
  | nil => exact absurd isQueue waits
  | cons r rest =>
      have queued := inOrder.first isQueue
      rw [writeIntr, if_neg Bool.false_ne_true, isQueue]
      dsimp only
      split
      · exact inOrder.head isQueue rfl ⟨queued.major, queued.locked⟩ rfl
      · rw [endRequest_of_endable rfl (.inl rfl)]
        exact inOrder.tail isQueue rfl rfl

theorem setPc_fields (pc : Option Pc) : (s.setPc pc).queue = s.queue ∧
    (s.setPc pc).reset = s.reset ∧ (s.setPc pc).null = s.null := by
  rw [setPc]
  split <;> exact ⟨rfl, rfl, rfl⟩

theorem InOrder.setPc (inOrder : s.InOrder) (pc : Option Pc) : (s.setPc pc).InOrder :=
  inOrder.congr (setPc_fields pc).1 (setPc_fields pc).2.2

theorem enter_inOrder (inOrder : s.InOrder)
    (endable : (∃ r rest, s.queue = r :: rest ∧ ¬r.Passes disks) → s.Endable)
    (entered : s.enter disks = some next) : next.InOrder := by
  rw [enter] at entered
  cases isQueue : s.queue with
  | nil =>
      rw [isQueue] at entered
      cases entered
      refine InOrder.setPc ?_ none
      exact inOrder.congr isQueue.symm rfl
  | cons r rest =>
      rw [isQueue] at entered
      dsimp only at entered
      split at entered
      · cases entered
      split at entered
      · rename_i refused
        cases entered
        have hasBuffer := endable ⟨r, rest, isQueue, refused⟩ r rest isQueue
        rw [endRequest_of_endable isQueue (.inr hasBuffer)]
        exact inOrder.tail isQueue rfl rfl
      split at entered
      · cases entered
        refine InOrder.setPc ?_ none
        exact inOrder.congr isQueue.symm rfl
      split at entered
      · cases entered
        refine InOrder.setPc ?_ none
        exact inOrder.congr isQueue.symm rfl
      · cases entered
        exact inOrder.setPc _

theorem enter_null (inOrder : s.InOrder) (isQueue : s.queue = r :: rest)
    (refused : ¬r.Passes disks) (paging : r.bLock = none) (entered : s.enter disks = some next) :
    next.null ≠ none := by
  have queued : ¬(r.major ≠ 3 ∨ r.bLock = some false) := by
    rintro (other | unlocked)
    · exact other (inOrder.first isQueue).major
    · exact (inOrder.first isQueue).locked unlocked
  rw [enter, isQueue] at entered
  dsimp only at entered
  rw [if_neg queued, if_pos refused] at entered
  cases entered
  exact endRequest_paging isQueue paging

/-- A new request goes behind the first one. -/
theorem add_inOrder {place : Nat} (inOrder : s.InOrder) (queued : r.Queued)
    (fresh : r.errors = 0) : (s.add r place).InOrder := by
  rw [add]
  cases isQueue : s.queue with
  | nil =>
      refine ⟨inOrder.null, fun other member => ?_, fun other member => nomatch member⟩
      rwa [List.mem_singleton.mp member]
  | cons first rest =>
      have queuedAll := inOrder.queued
      have freshAll := inOrder.fresh
      rw [isQueue] at queuedAll freshAll
      refine ⟨inOrder.null, fun other member => ?_, fun other member => ?_⟩
      · rcases List.mem_cons.mp member with rfl | member
        · exact queuedAll other List.mem_cons_self
        · rcases List.eq_or_mem_of_mem_insertIdx member with rfl | member
          · exact queued
          · exact queuedAll other (List.mem_cons_of_mem first member)
      · rcases List.eq_or_mem_of_mem_insertIdx member with rfl | member
        · exact fresh
        · exact freshAll other member

end Steps

/-! ## The condition is exact -/

section Exact

variable {disks : Disks} {s next : QueueDriver} {action : Action}

/-- What is promised of a step, for the states behind it as well. -/
def Sound (s : QueueDriver) (action : Action) (next : QueueDriver) : Prop :=
  next.InOrder ∧ (s.Counts action → s.Isolated action next)

theorem Counted.sound (counted : Counted s next) : Sound s action next :=
  ⟨counted.inOrder, fun _ r rest isQueue =>
    (counted.isolated r rest isQueue).imp_right fun ⟨ends, reset⟩ => ⟨ends, .inl reset⟩⟩

theorem proceed_sound {drq : Bool} (inOrder : s.InOrder) (meets : s.Meets disks (.proceed drq))
    (taken : s.proceed disks drq = some next) : Sound s (.proceed drq) next := by
  rw [proceed] at taken
  rw [Meets] at meets
  cases at_ : s.pc with
  | none =>
      rw [at_] at taken
      cases taken
  | some pc =>
      rw [at_] at taken meets
      have quiet (other : pc ≠ .polling) (next : QueueDriver) (keeps : next.InOrder) :
          Sound s (.proceed drq) next := by
        refine ⟨keeps, fun counts => ?_⟩
        have same := counts.1
        rw [at_] at same
        exact absurd (Option.some.inj same) other
      match pc with
      | .top => exact quiet nofun next (enter_inOrder inOrder meets taken)
      | .loaded .read =>
          cases taken
          refine quiet nofun _ (InOrder.setPc ?_ none)
          exact inOrder.congr rfl rfl
      | .loaded .write =>
          cases taken
          refine quiet nofun _ (InOrder.setPc ?_ _)
          exact inOrder.congr rfl rfl
      | .polling =>
          cases taken
          cases drq with
          | true => exact ⟨inOrder.setPc none, fun counts => nomatch counts.2⟩
          | false =>
              have counted := badRwIntr_counted inOrder (meets.resolve_left Bool.false_ne_true)
              have fields := @setPc_fields s.badRwIntr (some .top)
              exact (counted.congr fields.1 fields.2.1 fields.2.2).sound

theorem hdInterrupt_sound {failed : Bool} (inOrder : s.InOrder)
    (meets : s.Meets disks (.interrupt failed)) :
    Sound s (.interrupt failed) (s.hdInterrupt disks failed) := by
  have cleared : ({ s with doHd := none } : QueueDriver).InOrder := inOrder.congr rfl rfl
  rw [Meets] at meets
  rw [hdInterrupt]
  cases doHd : s.doHd with
  | none =>
      refine ⟨?_, fun counts => ?_⟩
      · dsimp only
        rw [unexpectedHdInterrupt]
        split
        · exact inOrder
        · exact inOrder.congr rfl rfl
      · rw [Counts, doHd] at counts
        exact counts.elim
  | some handler =>
      rw [doHd] at meets
      -- a handler that counts nothing
      have quiet (next : QueueDriver) (calm : ¬s.Counts (.interrupt failed))
          (keeps : next.InOrder) : Sound s (.interrupt failed) next :=
        ⟨keeps, fun counts => absurd counts calm⟩
      rw [Counts, doHd] at quiet
      cases handler with
      | resetHd =>
          by_cases counts : failed = true ∧ s.reset = false
          · obtain ⟨rfl, noReset⟩ := counts
            have countable := (meets.resolve_left nofun).resolve_left (by rw [noReset]; nofun)
            have counted := @resetHd_counted disks _ cleared noReset countable
            exact Counted.sound ⟨counted.inOrder, counted.isolated⟩
          · refine quiet _ counts (resetHd_inOrder cleared ?_)
            rw [not_and_or, Bool.not_eq_true, Bool.not_eq_false] at counts
            exact counts
      | readIntr =>
          cases failed with
          | true =>
              have counted := badRwIntr_counted cleared meets
              exact Counted.sound ⟨counted.inOrder.congr rfl rfl, counted.isolated⟩
          | false => exact quiet _ Bool.false_ne_true (readIntr_inOrder cleared meets)
      | writeIntr =>
          cases failed with
          | true =>
              have counted := badRwIntr_counted cleared meets
              exact Counted.sound ⟨counted.inOrder.congr rfl rfl, counted.isolated⟩
          | false => exact quiet _ Bool.false_ne_true (writeIntr_inOrder cleared meets)
      | recalIntr =>
          cases failed with
          | true =>
              have counted := badRwIntr_counted cleared (meets.resolve_left nofun)
              exact Counted.sound ⟨counted.inOrder.congr rfl rfl, counted.isolated⟩
          | false => exact quiet _ Bool.false_ne_true (cleared.congr rfl rfl)

theorem hdTimesOut_sound (inOrder : s.InOrder) (meets : s.Meets disks .timeout) :
    Sound s .timeout s.hdTimesOut := by
  cases isQueue : s.queue with
  | nil =>
      have same : s.hdTimesOut = s := by rw [hdTimesOut, isQueue]
      rw [same]
      exact ⟨inOrder, fun counts => absurd isQueue counts⟩
  | cons r rest =>
      obtain ⟨keeps, left⟩ := hdTimesOut_inOrder inOrder isQueue
        fun many => meets ⟨r, rest, isQueue, many⟩ r rest isQueue
      refine ⟨keeps, fun _ r' rest' same => ?_⟩
      rw [isQueue] at same
      cases same
      exact left.imp_right fun ends => ⟨ends, .inr rfl⟩

/-- A step that meets the condition does nothing wrong. -/
theorem step_sound (inOrder : s.InOrder) (meets : s.Meets disks action)
    (taken : step disks s action = some next) : Sound s action next := by
  rw [step.eq_def, if_neg (by rw [inOrder.null]; nofun)] at taken
  cases action with
  | add r place =>
      dsimp only at taken
      split at taken
      · rename_i enabled
        cases taken
        exact ⟨add_inOrder inOrder enabled.2.1 enabled.2.2.1, False.elim⟩
      · cases taken
  | proceed drq => exact proceed_sound inOrder meets taken
  | interrupt failed =>
      dsimp only at taken
      split at taken
      · cases taken
        exact hdInterrupt_sound inOrder meets
      · cases taken
  | timeout =>
      dsimp only at taken
      split at taken
      · cases taken
        exact hdTimesOut_sound inOrder meets
      · cases taken

theorem readIntr_null (empty : s.queue = []) : (s.readIntr false).null ≠ none := by
  rw [readIntr, if_neg Bool.false_ne_true, empty]
  nofun

theorem writeIntr_null (empty : s.queue = []) : (s.writeIntr false).null ≠ none := by
  rw [writeIntr, if_neg Bool.false_ne_true, empty]
  nofun

theorem not_endable (notEndable : ¬s.Endable) :
    ∃ r rest, s.queue = r :: rest ∧ r.bLock = none := by
  rw [Endable] at notEndable
  push Not at notEndable
  exact notEndable

theorem hdInterrupt_null {failed : Bool} (wrong : ¬s.Meets disks (.interrupt failed)) :
    (s.hdInterrupt disks failed).null ≠ none := by
  rw [Meets] at wrong
  rw [hdInterrupt]
  cases doHd : s.doHd with
  | none =>
      rw [doHd] at wrong
      exact absurd trivial wrong
  | some handler =>
      rw [doHd] at wrong
      cases handler with
      | resetHd =>
          dsimp only at wrong
          rw [not_or, not_or, Bool.not_eq_false, Bool.not_eq_true] at wrong
          obtain ⟨rfl, noReset, uncountable⟩ := wrong
          exact @resetHd_null disks { s with doHd := none } noReset uncountable
      | readIntr =>
          cases failed with
          | true => exact @badRwIntr_null { s with doHd := none } wrong
          | false => exact @readIntr_null { s with doHd := none } (not_not.mp wrong)
      | writeIntr =>
          cases failed with
          | true => exact @badRwIntr_null { s with doHd := none } wrong
          | false => exact @writeIntr_null { s with doHd := none } (not_not.mp wrong)
      | recalIntr =>
          obtain ⟨isFailed, uncountable⟩ := not_or.mp wrong
          obtain rfl := (Bool.not_eq_false _).mp isFailed
          exact @badRwIntr_null { s with doHd := none } uncountable

/-- A step that does not meet it follows a null pointer. -/
theorem step_null (inOrder : s.InOrder) (wrong : ¬s.Meets disks action)
    (taken : step disks s action = some next) : next.null ≠ none := by
  rw [step.eq_def, if_neg (by rw [inOrder.null]; nofun)] at taken
  cases action with
  | add r place => exact absurd trivial wrong
  | proceed drq =>
      dsimp only [proceed] at taken
      rw [Meets] at wrong
      cases at_ : s.pc with
      | none =>
          rw [at_] at taken
          cases taken
      | some pc =>
          rw [at_] at taken wrong
          match pc with
          | .top =>
              obtain ⟨⟨r, rest, isQueue, refused⟩, notEndable⟩ := Classical.not_imp.mp wrong
              obtain ⟨r', rest', same, paging⟩ := not_endable notEndable
              rw [isQueue] at same
              cases same
              exact enter_null inOrder isQueue refused paging taken
          | .loaded cmd => exact absurd trivial wrong
          | .polling =>
              obtain ⟨isFalse, uncountable⟩ := not_or.mp wrong
              obtain rfl := (Bool.not_eq_true _).mp isFalse
              cases taken
              rw [if_neg Bool.false_ne_true, (setPc_fields _).2.2]
              exact badRwIntr_null uncountable
  | interrupt failed =>
      dsimp only at taken
      split at taken
      · cases taken
        exact hdInterrupt_null wrong
      · cases taken
  | timeout =>
      dsimp only at taken
      split at taken
      · cases taken
        obtain ⟨⟨r, rest, isQueue, many⟩, notEndable⟩ := Classical.not_imp.mp wrong
        obtain ⟨r', rest', same, paging⟩ := not_endable notEndable
        rw [isQueue] at same
        cases same
        exact hdTimesOut_null isQueue many paging
      · cases taken

/-- The steps of a run are possible. -/
theorem everyStep_enabled {final : QueueDriver} {actions : List Action}
    (ran : Lib.exec (step disks) s actions = some final) :
    Lib.EveryStep (step disks) (fun s action => (step disks s action).isSome = true) s actions := by
  induction actions generalizing s with
  | nil => trivial
  | cons action actions ih =>
      obtain ⟨next, taken, rest⟩ := Lib.exec_cons_eq_some.mp ran
      refine ⟨Option.isSome_iff_exists.mpr ⟨next, taken⟩, fun next' taken' => ih ?_⟩
      rw [taken] at taken'
      cases taken'
      exact rest

/-- Nothing goes wrong in a run if and only if all its steps meet the condition. -/
theorem safe_iff {final : QueueDriver} {actions : List Action} (inOrder : s.InOrder)
    (ran : Lib.exec (step disks) s actions = some final) :
    Lib.EveryStep (step disks) (Safe disks) s actions ↔
      Lib.EveryStep (step disks) (Meets disks) s actions := by
  refine Lib.everyStep_iff InOrder (fun s action inOrder enabled => ?_)
    (fun s action next inOrder _ meets taken => (step_sound inOrder meets taken).1) inOrder
    (everyStep_enabled ran)
  constructor
  · intro safe
    obtain ⟨next, taken⟩ := Option.isSome_iff_exists.mp enabled
    by_contra wrong
    exact step_null inOrder wrong taken (safe next taken).1
  · intro meets next taken
    obtain ⟨keeps, isolated⟩ := step_sound inOrder meets taken
    exact ⟨keeps.null, isolated⟩

end Exact

/-! ## The errors of one request -/

/-- A paging request to read that nothing is behind. -/
def onePage : QueueDriver where
  queue := [{ twoSectors with cmd := .read, sector := 16, nrSectors := 8, bLock := none }]
  reset := false
  recalibrate := false
  doHd := none
  i := 0
  sysLoadFlags := false
  proc := some .top
  irq := none
  null := none

/-- Seven errors: three of the transfer, each with the command given again, and with the fourth
on resets that do not succeed. -/
def sevenErrors : List Action :=
  let again := [.interrupt true, .proceed false, .proceed false]
  [.proceed false, .proceed false] ++ again ++ again ++ again ++
    [.interrupt true, .proceed false, .interrupt true, .interrupt true, .interrupt true]

theorem onePage_inOrder : onePage.InOrder :=
  ⟨rfl, by decide, by decide⟩

/-- After the seventh the block number of a buffer is read that there is not. -/
theorem not_safe_sevenErrors : ¬∀ (disks : Disks) (s final : QueueDriver) (actions : List Action),
    s.InOrder → Lib.exec (step disks) s actions = some final →
      Lib.EveryStep (step disks) (Safe disks) s actions := by
  intro safe
  have reads : (Lib.exec (step oneDisk) onePage sevenErrors).map (·.null) =
      some (some (.endRequest, .bh)) := by
    decide +kernel
  obtain ⟨final, ran, null⟩ := Option.map_eq_some_iff.mp reads
  have nothing := Lib.exec_invariant (fun s => s.null = none)
    (fun s action next _ isSafe taken => (isSafe next taken).1) onePage_inOrder.null
    (safe oneDisk onePage final sevenErrors onePage_inOrder ran) ran
  rw [nothing] at null
  cases null

/-- A check that the first request is in its partition and is not at its last error. -/
def checkEarly (disks : Disks) (s : QueueDriver) (_ : Action) : Bool :=
  match s.queue with
  | [] => false
  | r :: _ => decide (r.errors + 1 < maxErrors) && decide (r.Passes disks)

theorem meets_of_checkEarly {disks : Disks} (s : QueueDriver) (action : Action)
    (checked : checkEarly disks s action = true) : s.Meets disks action := by
  cases isQueue : s.queue with
  | nil =>
      rw [checkEarly, isQueue] at checked
      cases checked
  | cons r rest =>
      rw [checkEarly, isQueue, Bool.and_eq_true, decide_eq_true_iff, decide_eq_true_iff] at checked
      obtain ⟨few, passes⟩ := checked
      have countable : s.Countable := by
        rw [Countable, isQueue]
        exact .inl few
      cases action with
      | add r place => trivial
      | proceed drq =>
          rw [Meets]
          split
          · rintro ⟨r', rest', same, refused⟩
            rw [isQueue] at same
            cases same
            exact absurd passes refused
          · exact .inr countable
          · trivial
      | interrupt failed =>
          rw [Meets]
          split
          · trivial
          · exact .inr (.inr countable)
          · exact .inr countable
          · split
            · exact countable
            · rw [isQueue]
              nofun
      | timeout =>
          rintro ⟨r', rest', same, many⟩
          rw [isQueue] at same
          cases same
          exact absurd few (Nat.not_lt.mpr many)

/-- With five errors, the last of them a timeout, nothing goes wrong yet. -/
theorem safe_fiveErrors : Lib.EveryStep (step oneDisk) (Safe oneDisk) onePage
    (sevenErrors.take 13 ++ [.timeout]) := by
  have runs : (Lib.exec (step oneDisk) onePage
      (sevenErrors.take 13 ++ [.timeout])).isSome = true := by
    decide +kernel
  obtain ⟨final, ran⟩ := Option.isSome_iff_exists.mp runs
  exact (safe_iff onePage_inOrder ran).mpr
    (Lib.everyStep_of_checkSteps (checkEarly oneDisk) meets_of_checkEarly (by decide +kernel))

end QueueDriver

end Linux012.BlkDrv.Hd
