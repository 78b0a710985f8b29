import Mathlib.Data.Prod.Lex
import Linux012.Lib.Elevator
import Linux012.BlkDrv.PagingOrder

/-!
# The elevator and the comparison of requests

`IN_ORDER` is meant to compare the command, then the device, then the sector: "reads always go
before writes".  Its last comparison forgets to ask for equal commands, so a read and a write of
one device can each be in order before the other.  As long as two such requests never meet in
the queue of a device, the comparison is the order of the keys and the queue is served in at
most two sweeps.
-/

namespace Linux012.BlkDrv

open Lib (TwoSweeps)

/-- The command, the device and the sector, compared in this order. -/
abbrev Key : Type := ℕ ×ₗ ℤ ×ₗ ℕ

def Request.key (req : Request) : Key := toLex (req.cmd.code, toLex (req.dev, req.sector))

def Queued.key (entry : Queued) : Key := entry.request.key

/-- The requests are a read and a write of one device, and the write is in front of the read
on it. -/
def Request.Conflicts (first second : Request) : Prop :=
  first.dev = second.dev ∧ first.cmd.code < second.cmd.code ∧ second.sector < first.sector

/-- What the elevator promises about the queue of a device. -/
structure BlkDev.ElevatorOrder (dev : BlkDev) : Prop where
  /-- The disk makes at most one backward sweep. -/
  sweeps : TwoSweeps Queued.key dev.currentRequest
  /-- `IN_ORDER` is a strict total order of the queued requests. -/
  asymm : ∀ a ∈ dev.currentRequest, ∀ b ∈ dev.currentRequest,
    inOrder a.request b.request = true → inOrder b.request a.request = false
  trans : ∀ a ∈ dev.currentRequest, ∀ b ∈ dev.currentRequest, ∀ c ∈ dev.currentRequest,
    inOrder a.request b.request = true → inOrder b.request c.request = true →
      inOrder a.request c.request = true
  total : ∀ a ∈ dev.currentRequest, ∀ b ∈ dev.currentRequest, a.key ≠ b.key →
    inOrder a.request b.request = true ∨ inOrder b.request a.request = true

/-- Buffer requests are added, and none that differs from a queued one in neither command nor
device nor sector. -/
def FreshBuffer (dev : BlkDev) : QueueAction → Prop
  | .add req => req.isPaging = false ∧ ∀ entry ∈ dev.currentRequest, entry.key ≠ req.key
  | .finish => True

/-- The condition on one step: no queued request conflicts with the new one. -/
def NoConflict (dev : BlkDev) : QueueAction → Prop
  | .add req => ∀ entry ∈ dev.currentRequest,
      ¬entry.request.Conflicts req ∧ ¬req.Conflicts entry.request
  | .finish => True

/-- The promise holds behind the step. -/
def KeepsElevatorOrder (dev : BlkDev) (action : QueueAction) : Prop :=
  ∀ next, queueStep dev action = some next → next.ElevatorOrder

/-! ## The comparison -/

theorem Request.key_lt_iff {a b : Request} : a.key < b.key ↔
    a.cmd.code < b.cmd.code ∨ a.cmd.code = b.cmd.code ∧
      (a.dev < b.dev ∨ a.dev = b.dev ∧ a.sector < b.sector) := by
  rw [key, key, Prod.Lex.toLex_lt_toLex, Prod.Lex.toLex_lt_toLex]

theorem inOrder_iff {a b : Request} :
    inOrder a b = true ↔ a.key < b.key ∨ a.dev = b.dev ∧ a.sector < b.sector := by
  rw [Request.key_lt_iff, inOrder]
  split
  · rename_i first
    exact ⟨fun _ => .inl (.inl first), fun _ => rfl⟩
  split
  · rename_i second
    exact ⟨fun _ => .inl (.inr ⟨second.1, .inl second.2⟩), fun _ => rfl⟩
  split
  · rename_i third
    exact ⟨fun _ => .inr third, fun _ => rfl⟩
  · rename_i notFirst notSecond notThird
    constructor
    · nofun
    · rintro ((first | ⟨same, second | third⟩) | third)
      · exact absurd first notFirst
      · exact absurd ⟨same, second⟩ notSecond
      · exact absurd third notThird
      · exact absurd third notThird

/-- Conflicting requests are in order both ways. -/
theorem Request.Conflicts.inOrder {a b : Request} (conflict : a.Conflicts b) :
    inOrder a b = true ∧ inOrder b a = true :=
  ⟨inOrder_iff.mpr (.inl (key_lt_iff.mpr (.inl conflict.2.1))),
    inOrder_iff.mpr (.inr ⟨conflict.1.symm, conflict.2.2⟩)⟩

/-- Without a conflict the comparison is the one of the keys. -/
theorem inOrder_iff_key_lt {a b : Request} (noConflict : ¬b.Conflicts a) :
    inOrder a b = true ↔ a.key < b.key := by
  rw [inOrder_iff]
  refine ⟨?_, .inl⟩
  rintro (less | ⟨sameDev, below⟩)
  · exact less
  · rw [Request.key_lt_iff]
    rcases lt_trichotomy a.cmd.code b.cmd.code with less | same | greater
    · exact .inl less
    · exact .inr ⟨same, .inr ⟨sameDev, below⟩⟩
    · exact absurd ⟨sameDev.symm, greater, below⟩ noConflict

/-! ## One step -/

/-- What the allowed runs preserve. -/
structure BlkDev.Swept (dev : BlkDev) : Prop where
  sweeps : TwoSweeps Queued.key dev.currentRequest
  noConflict : ∀ a ∈ dev.currentRequest, ∀ b ∈ dev.currentRequest,
    ¬a.request.Conflicts b.request

variable {dev next : BlkDev} {action : QueueAction}

theorem BlkDev.Swept.elevatorOrder (swept : dev.Swept) : dev.ElevatorOrder where
  sweeps := swept.sweeps
  asymm a inQueue b inQueue' := by
    rw [inOrder_iff_key_lt (swept.noConflict b inQueue' a inQueue), ← Bool.not_eq_true,
      inOrder_iff_key_lt (swept.noConflict a inQueue b inQueue')]
    exact lt_asymm
  trans a inQueue b inQueue' c inQueue'' := by
    rw [inOrder_iff_key_lt (swept.noConflict b inQueue' a inQueue),
      inOrder_iff_key_lt (swept.noConflict c inQueue'' b inQueue'),
      inOrder_iff_key_lt (swept.noConflict c inQueue'' a inQueue)]
    exact lt_trans
  total a inQueue b inQueue' differ := by
    rw [inOrder_iff_key_lt (swept.noConflict b inQueue' a inQueue),
      inOrder_iff_key_lt (swept.noConflict a inQueue b inQueue')]
    exact lt_or_gt_of_ne differ

/-- A buffer request without a conflict is inserted by its key. -/
theorem insertBehind_eq_elevate {req tmp : Queued} {rest : List Queued}
    (isBuffer : req.request.isPaging = false)
    (noConflict : ∀ a ∈ tmp :: rest, ∀ b ∈ tmp :: rest, ¬a.request.Conflicts b.request)
    (allowed : ∀ entry ∈ tmp :: rest,
      ¬entry.request.Conflicts req.request ∧ ¬req.request.Conflicts entry.request) :
    insertBehind Queued.request req tmp rest = Lib.elevate Queued.key req tmp rest := by
  induction rest generalizing tmp with
  | nil => rfl
  | cons next rest ih =>
      have further := ih
        (fun a inRest b inRest' =>
          noConflict a (List.mem_cons_of_mem _ inRest) b (List.mem_cons_of_mem _ inRest'))
        fun entry inRest => allowed entry (List.mem_cons_of_mem _ inRest)
      have isNext : next ∈ tmp :: next :: rest := List.mem_cons_of_mem _ List.mem_cons_self
      have stops : stopsBefore req.request tmp.request next.request = true ↔
          (tmp.key < req.key ∨ ¬tmp.key < next.key) ∧ req.key < next.key := by
        obtain ⟨bh, isBh⟩ : ∃ bh, req.request.bh = some bh := by
          rw [Request.isPaging, Option.isNone_eq_false_iff] at isBuffer
          exact Option.isSome_iff_exists.mp isBuffer
        rw [stopsBefore, isBh]
        simp only [Bool.and_eq_true, Bool.or_eq_true, Bool.not_eq_true', ← Bool.not_eq_true]
        rw [inOrder_iff_key_lt (allowed tmp List.mem_cons_self).2,
          inOrder_iff_key_lt (noConflict next isNext tmp List.mem_cons_self),
          inOrder_iff_key_lt (allowed next isNext).1]
        rfl
      rw [insertBehind, Lib.elevate, further]
      by_cases fits : (tmp.key < req.key ∨ ¬tmp.key < next.key) ∧ req.key < next.key
      · rw [if_pos (stops.mpr fits), if_pos fits]
      · rw [if_neg (fun stopped => fits (stops.mp stopped)), if_neg fits]

theorem BlkDev.Swept.addRequest {req : Request} (swept : dev.Swept)
    (fresh : FreshBuffer dev (.add req)) (allowed : NoConflict dev (.add req)) :
    (addRequest dev req).Swept := by
  have members (entry : Queued) :
      entry ∈ (BlkDrv.addRequest dev req).currentRequest ↔
        entry = ⟨dev.added, req⟩ ∨ entry ∈ dev.currentRequest := by
    rw [BlkDrv.addRequest, (enqueue_perm _ _ _).mem_iff, List.mem_cons]
  constructor
  · rw [BlkDrv.addRequest]
    have sweeps := swept.sweeps
    have noConflict := swept.noConflict
    cases queue : dev.currentRequest with
    | nil => exact ⟨[⟨dev.added, req⟩], [], rfl, .singleton _, .nil⟩
    | cons head rest =>
        rw [queue] at sweeps noConflict
        rw [FreshBuffer, queue] at fresh
        rw [NoConflict, queue] at allowed
        rw [enqueue, insertBehind_eq_elevate fresh.1 noConflict allowed]
        exact sweeps.elevate fresh.2
  · have self : ¬req.Conflicts req := fun conflict => lt_irrefl _ conflict.2.1
    intro a inQueue b inQueue'
    rcases (members a).mp inQueue with rfl | old
    · rcases (members b).mp inQueue' with rfl | old'
      · exact self
      · exact (allowed b old').2
    · rcases (members b).mp inQueue' with rfl | old'
      · exact (allowed a old).1
      · exact swept.noConflict a old b old'

theorem BlkDev.Swept.endRequest (swept : dev.Swept) (removed : endRequest dev = some next) :
    next.Swept := by
  have sweeps := swept.sweeps
  have noConflict := swept.noConflict
  unfold BlkDrv.endRequest at removed
  cases queue : dev.currentRequest with
  | nil => simp [queue] at removed
  | cons head rest =>
      rw [queue] at sweeps noConflict
      simp only [queue, Option.some.injEq] at removed
      subst next
      exact ⟨sweeps.tail, fun a inQueue b inQueue' =>
        noConflict a (List.mem_cons_of_mem _ inQueue) b (List.mem_cons_of_mem _ inQueue')⟩

theorem BlkDev.Swept.queueStep (swept : dev.Swept) (fresh : FreshBuffer dev action)
    (allowed : NoConflict dev action) (taken : queueStep dev action = some next) :
    next.Swept := by
  cases action with
  | add req =>
      cases taken
      exact swept.addRequest fresh allowed
  | finish => exact swept.endRequest taken

/-- A step that is not allowed brings two requests together that are in order both ways. -/
theorem not_keepsElevatorOrder (conflict : ¬NoConflict dev action) :
    ¬KeepsElevatorOrder dev action := by
  cases action with
  | finish => exact absurd trivial conflict
  | add req =>
      intro keeps
      have order := keeps (addRequest dev req) rfl
      have new : ⟨dev.added, req⟩ ∈ (addRequest dev req).currentRequest :=
        (enqueue_perm _ _ _).mem_iff.mpr List.mem_cons_self
      refine conflict fun entry inQueue => ?_
      have old : entry ∈ (addRequest dev req).currentRequest :=
        (enqueue_perm _ _ _).mem_iff.mpr (List.mem_cons_of_mem _ inQueue)
      constructor
      · intro before
        have notBack := order.asymm entry old _ new before.inOrder.1
        rw [before.inOrder.2] at notBack
        cases notBack
      · intro before
        have notBack := order.asymm _ new entry old before.inOrder.1
        rw [before.inOrder.2] at notBack
        cases notBack

/-! ## Whole runs -/

/-- From a queue that is in order, one step keeps the promise exactly when it is allowed. -/
theorem BlkDev.Swept.keepsElevatorOrder_iff (swept : dev.Swept)
    (fresh : FreshBuffer dev action) :
    KeepsElevatorOrder dev action ↔ NoConflict dev action := by
  constructor
  · intro keeps
    by_contra conflict
    exact not_keepsElevatorOrder conflict keeps
  · intro allowed next taken
    exact (swept.queueStep fresh allowed taken).elevatorOrder

theorem swept_init : BlkDev.init.Swept where
  sweeps := ⟨[], [], rfl, .nil, .nil⟩
  noConflict := nofun

/-- In a run with buffer requests of different keys, the elevator keeps its promise in every
state exactly when no two conflicting requests meet in the queue. -/
theorem elevatorOrder_iff_noConflict (actions : List QueueAction)
    (fresh : Lib.EveryStep queueStep FreshBuffer BlkDev.init actions) :
    Lib.EveryStep queueStep KeepsElevatorOrder BlkDev.init actions ↔
      Lib.EveryStep queueStep NoConflict BlkDev.init actions :=
  Lib.everyStep_iff BlkDev.Swept (fun _ _ swept fresh => swept.keepsElevatorOrder_iff fresh)
    (fun _ _ _ swept fresh allowed taken => swept.queueStep fresh allowed taken)
    swept_init fresh

/-! ## The order is not always kept -/

/-- A write of block 2 is being served when reads of the blocks 3 and 1 arrive. -/
def backwardRun : List QueueAction :=
  [.add (.ofBuffer .write 0x301 2 0 0), .add (.ofBuffer .read 0x301 3 1 0),
    .add (.ofBuffer .read 0x301 1 2 0)]

theorem backwardRun_fresh : Lib.EveryStep queueStep FreshBuffer BlkDev.init backwardRun := by
  refine ⟨⟨rfl, nofun⟩, fun _ taken => ?_⟩
  cases taken
  refine ⟨⟨rfl, fun entry inQueue => ?_⟩, fun _ taken => ?_⟩
  · cases List.mem_singleton.mp inQueue
    decide
  cases taken
  refine ⟨⟨rfl, ?_⟩, fun _ _ => trivial⟩
  decide

theorem elevatorOrder_iff_noConflict_twoBlocks :
    Lib.EveryStep queueStep KeepsElevatorOrder BlkDev.init (backwardRun.take 1) ↔
      Lib.EveryStep queueStep NoConflict BlkDev.init (backwardRun.take 1) :=
  elevatorOrder_iff_noConflict (backwardRun.take 1) ⟨backwardRun_fresh.1, fun _ _ => trivial⟩

/-- The write of block 2, the read of block 3 and the read of block 1 are three sweeps. -/
theorem two_backward_sweeps :
    ¬∀ actions : List QueueAction, Lib.EveryStep queueStep FreshBuffer BlkDev.init actions →
      Lib.EveryStep queueStep KeepsElevatorOrder BlkDev.init actions := by
  intro always
  have keeps := always backwardRun backwardRun_fresh
  have order := ((keeps.2 _ rfl).2 _ rfl).1 _ rfl
  obtain ⟨first, second, split, rising, rising'⟩ := order.sweeps
  change [⟨0, .ofBuffer .write 0x301 2 0 0⟩, ⟨1, .ofBuffer .read 0x301 3 1 0⟩,
    ⟨2, .ofBuffer .read 0x301 1 2 0⟩] = first ++ second at split
  rcases first with _ | ⟨a, _ | ⟨b, rest⟩⟩
  · cases split
    exact absurd (List.isChain_cons_cons.mp rising').1 (by decide)
  · cases split
    exact absurd (List.isChain_cons_cons.mp rising').1 (by decide)
  · simp only [List.cons_append, List.cons.injEq] at split
    rw [← split.1, ← split.2.1] at rising
    exact absurd (List.isChain_cons_cons.mp rising).1 (by decide)

end Linux012.BlkDrv
