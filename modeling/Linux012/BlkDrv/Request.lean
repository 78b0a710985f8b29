import Mathlib.Data.List.Basic
import Mathlib.Tactic.Basic
import Linux012.Lib.Sizes

/-!
# Block device requests

The request record of `blk.h`, the elevator comparison `IN_ORDER` and the
insertion done by `add_request` in `ll_rw_blk.c`.  The queue of a device, linked
through `next` from `current_request`, is the list of its requests; the head of
the list is the request the driver is working on.
-/

namespace Linux012.BlkDrv

/-- The commands of `fs.h`; a queued request carries `read` or `write`. -/
inductive Cmd where
  | read
  | write
  deriving DecidableEq, Repr

/-- `READ` is 0 and `WRITE` is 1. -/
def Cmd.code : Cmd → Nat
  | .read => 0
  | .write => 1

/-- `struct request` without its link.  Buffer heads, tasks and addresses are
numbers; `bh` is absent in a paging request and `waiting` in a buffer request. -/
structure Request where
  dev : Int
  cmd : Cmd
  errors : Nat
  sector : Nat
  nrSectors : Nat
  buffer : Nat
  waiting : Option Nat
  bh : Option Nat
  deriving DecidableEq, Repr

/-- A paging request is one without a buffer head. -/
def Request.isPaging (req : Request) : Bool := req.bh.isNone

/-- What `make_request` fills in for block `blocknr` of device `dev`, held in the
buffer `bh` with its data at `data`. -/
def Request.ofBuffer (cmd : Cmd) (dev : Int) (blocknr bh data : Nat) : Request where
  dev := dev
  cmd := cmd
  errors := 0
  sector := blocknr <<< 1
  nrSectors := 2
  buffer := data
  waiting := none
  bh := some bh

/-- What `ll_rw_page` fills in for the swap page `page`. -/
def Request.ofPage (cmd : Cmd) (dev : Int) (page buffer current : Nat) : Request where
  dev := dev
  cmd := cmd
  errors := 0
  sector := page <<< 3
  nrSectors := 8
  buffer := buffer
  waiting := some current
  bh := none

/-- `IN_ORDER`: the third comparison looks at the sectors of equal devices
whatever the commands are. -/
def inOrder (s1 s2 : Request) : Bool :=
  if s1.cmd.code < s2.cmd.code then true
  else if s1.cmd.code = s2.cmd.code ∧ s1.dev < s2.dev then true
  else if s1.dev = s2.dev ∧ s1.sector < s2.sector then true
  else false

/-- Whether the search of `add_request` ends between `tmp` and `next`: a paging
request goes in front of the first buffer request, a buffer request goes where
the elevator comparison puts it. -/
def stopsBefore (req tmp next : Request) : Bool :=
  match req.bh with
  | none => next.bh.isSome
  | some _ => (inOrder tmp req || !inOrder tmp next) && inOrder req next

section Insertion

variable {Entry : Type} (request : Entry → Request)

/-- The loop `for ( ; tmp->next ; tmp=tmp->next)` and the linking after it, for
the queue that continues behind `tmp`.  Entries carry a request. -/
def insertBehind (req : Entry) : Entry → List Entry → List Entry
  | tmp, [] => [tmp, req]
  | tmp, next :: rest =>
      if stopsBefore (request req) (request tmp) (request next) then
        tmp :: req :: next :: rest
      else
        tmp :: insertBehind req next rest

/-- Linking a request into the queue of a device: an idle device starts with the
new request. -/
def enqueue (req : Entry) : List Entry → List Entry
  | [] => [req]
  | head :: rest => insertBehind request req head rest

/-- Whether the search for a place for `req` can end in front of a paging
request that waits behind the head of the queue. -/
def overtakesPaging (req : Request) : List Entry → Bool
  | tmp :: next :: rest =>
      ((request next).isPaging && stopsBefore req (request tmp) (request next)) ||
        overtakesPaging req (next :: rest)
  | _ => false

/-- Insertion keeps the head and splits what follows it. -/
theorem insertBehind_eq_split (req tmp : Entry) (rest : List Entry) :
    ∃ before after, rest = before ++ after ∧
      insertBehind request req tmp rest = tmp :: (before ++ req :: after) := by
  induction rest generalizing tmp with
  | nil => exact ⟨[], [], rfl, rfl⟩
  | cons next rest ih =>
      by_cases stops : stopsBefore (request req) (request tmp) (request next)
      · exact ⟨[], next :: rest, rfl, by simp [insertBehind, stops]⟩
      · obtain ⟨before, after, split, inserted⟩ := ih next
        exact ⟨next :: before, after, by simp [split],
          by simp [insertBehind, stops, inserted]⟩

/-- Linking never changes the order of the requests already queued. -/
theorem sublist_enqueue (req : Entry) (queue : List Entry) :
    queue.Sublist (enqueue request req queue) := by
  cases queue with
  | nil => simp
  | cons head rest =>
      obtain ⟨before, after, split, inserted⟩ :=
        insertBehind_eq_split request req head rest
      rw [enqueue, inserted, split]
      exact .cons_cons _ ((List.Sublist.refl before).append (List.sublist_cons_self req after))

/-- Linking queues the new request once and nothing else. -/
theorem enqueue_perm (req : Entry) (queue : List Entry) :
    (enqueue request req queue).Perm (req :: queue) := by
  cases queue with
  | nil => exact .refl _
  | cons head rest =>
      obtain ⟨before, after, split, inserted⟩ :=
        insertBehind_eq_split request req head rest
      rw [enqueue, inserted, split]
      exact (List.Perm.cons head List.perm_middle).trans (.swap req head _)

end Insertion

end Linux012.BlkDrv
