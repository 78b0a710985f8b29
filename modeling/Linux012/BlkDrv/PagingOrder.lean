import Linux012.Lib.Run
import Linux012.BlkDrv.Request

/-!
# The order in which a device serves its requests

One block device under any sequence of `add_request` calls, with `end_request`
removing the head.  The comment on `add_request` promises that "swapping
requests always go before other requests, and are done in the order they
appear".  A buffer request that the elevator comparison puts in front of a
waiting paging request breaks the promise, twice: it overtakes that request, and
the next paging request goes in front of both.
-/

namespace Linux012.BlkDrv

/-- A queued request with the number of requests added before it. -/
structure Queued where
  tag : Nat
  request : Request
  deriving DecidableEq, Repr

/-- One device: its queue with `current_request` first, the dirty flags of the
buffers, and the history of the requests that `end_request` has removed. -/
structure BlkDev where
  currentRequest : List Queued
  bDirt : Nat → Bool
  served : List Queued
  added : Nat

/-- A device as `blk_dev_init` leaves it, with no buffer dirty. -/
def BlkDev.init : BlkDev where
  currentRequest := []
  bDirt := fun _ => false
  served := []
  added := 0

/-- `add_request`: the buffer stops being dirty when its request is queued.  The
call of `request_fn` on an idle device is the driver's first step on the head. -/
def addRequest (dev : BlkDev) (req : Request) : BlkDev where
  currentRequest := enqueue Queued.request ⟨dev.added, req⟩ dev.currentRequest
  bDirt := fun bh => if req.bh = some bh then false else dev.bDirt bh
  served := dev.served
  added := dev.added + 1

/-- `end_request` as far as the queue goes: `CURRENT = CURRENT->next`. -/
def endRequest (dev : BlkDev) : Option BlkDev :=
  match dev.currentRequest with
  | [] => none
  | head :: rest =>
      some { dev with currentRequest := rest, served := dev.served ++ [head] }

/-- What can happen to the queue of a device. -/
inductive QueueAction where
  | add (req : Request)
  | finish
  deriving DecidableEq, Repr

def queueStep (dev : BlkDev) : QueueAction → Option BlkDev
  | .add req => some (addRequest dev req)
  | .finish => endRequest dev

/-- The requests in the order in which they were, are, or will become the head if
nothing more is added. -/
def BlkDev.headOrder (dev : BlkDev) : List Queued := dev.served ++ dev.currentRequest

/-- Paging requests become the head in the order of their addition, and no buffer
request becomes the head before a paging request that was queued when it was added. -/
structure KeepsPagingOrder (dev : BlkDev) : Prop where
  pagingInOrder :
    (dev.headOrder.filter (·.request.isPaging)).Pairwise
      fun first second => first.tag < second.tag
  noneOvertaken :
    dev.headOrder.Pairwise fun first second =>
      first.request.isPaging = false → second.request.isPaging = true →
        first.tag < second.tag

/-- The condition on one step: the elevator comparison does not put a new buffer
request in front of a paging request that waits behind the head. -/
def NoOvertaking (dev : BlkDev) : QueueAction → Prop
  | .add req => overtakesPaging Queued.request req dev.currentRequest = false
  | .finish => True

/-! ## The order as one relation -/

/-- `first` may become the head before `second`. -/
def MayPrecede (first second : Queued) : Prop :=
  second.request.isPaging = true → first.tag < second.tag

theorem keepsPagingOrder_iff (dev : BlkDev) :
    KeepsPagingOrder dev ↔ dev.headOrder.Pairwise MayPrecede := by
  constructor
  · intro ⟨inOrder, notOvertaken⟩
    rw [List.pairwise_filter] at inOrder
    refine (inOrder.and notOvertaken).imp ?_
    rintro first second ⟨paging, buffer⟩ secondPaging
    cases firstPaging : first.request.isPaging with
    | true => exact paging firstPaging secondPaging
    | false => exact buffer firstPaging secondPaging
  · intro ordered
    constructor
    · rw [List.pairwise_filter]
      exact ordered.imp fun related _ secondPaging => related secondPaging
    · exact ordered.imp fun related _ secondPaging => related secondPaging

/-- The requests behind the head, with no paging request behind a buffer request. -/
def PagingFirst (queue : List Queued) : Prop :=
  queue.tail.Pairwise fun first second =>
    second.request.isPaging = true → first.request.isPaging = true

/-- What the allowed runs preserve. -/
structure InPagingOrder (dev : BlkDev) : Prop where
  ordered : dev.headOrder.Pairwise MayPrecede
  pagingFirst : PagingFirst dev.currentRequest
  tagged : ∀ entry ∈ dev.headOrder, entry.tag < dev.added

theorem inPagingOrder_init : InPagingOrder BlkDev.init where
  ordered := List.Pairwise.nil
  pagingFirst := List.Pairwise.nil
  tagged := by simp [BlkDev.init, BlkDev.headOrder]

/-! ## One insertion -/

section Insertion

variable (req : Queued)

/-- Behind a paging-first queue, an allowed request is linked in with only buffer
requests behind it, and a paging request with only paging requests between it and
the head. -/
theorem insertBehind_split (tmp : Queued) (rest : List Queued)
    (pagingFirst : PagingFirst (tmp :: rest))
    (allowed : overtakesPaging Queued.request req.request (tmp :: rest) = false) :
    ∃ before after, rest = before ++ after ∧
      insertBehind Queued.request req tmp rest = tmp :: (before ++ req :: after) ∧
      (∀ entry ∈ after, entry.request.isPaging = false) ∧
      (req.request.isPaging = true → ∀ entry ∈ before, entry.request.isPaging = true) := by
  induction rest generalizing tmp with
  | nil => exact ⟨[], [], rfl, rfl, by simp, by simp⟩
  | cons next rest ih =>
      simp only [overtakesPaging, Bool.or_eq_false_iff, Bool.and_eq_false_iff] at allowed
      simp only [PagingFirst, List.tail_cons, List.pairwise_cons] at pagingFirst
      cases stops : stopsBefore req.request tmp.request next.request with
      | true =>
          have nextBuffer : next.request.isPaging = false := by
            rcases allowed.1 with buffer | passes
            · exact buffer
            · rw [stops] at passes
              cases passes
          refine ⟨[], next :: rest, rfl, by simp [insertBehind, stops], ?_, by simp⟩
          intro entry membership
          rcases List.mem_cons.mp membership with rfl | behind
          · exact nextBuffer
          · cases entryPaging : entry.request.isPaging with
            | false => rfl
            | true =>
                have nextPaging := pagingFirst.1 entry behind entryPaging
                rw [nextBuffer] at nextPaging
                cases nextPaging
      | false =>
          obtain ⟨before, after, split, inserted, buffers, pagings⟩ :=
            ih next pagingFirst.2 allowed.2
          refine ⟨next :: before, after, by simp [split],
            by simp [insertBehind, stops, inserted], buffers, ?_⟩
          intro reqPaging entry membership
          rcases List.mem_cons.mp membership with rfl | behind
          · -- a paging request passes `next` only when `next` is one too
            simp only [Request.isPaging, Option.isNone_iff_eq_none] at reqPaging ⊢
            simpa [stopsBefore, reqPaging] using stops
          · exact pagings reqPaging entry behind

/-- An insertion that is not allowed puts the new request in front of a paging
request of the queue. -/
theorem insertBehind_overtakes (tmp : Queued) (rest : List Queued)
    (overtakes : overtakesPaging Queued.request req.request (tmp :: rest) = true) :
    ∃ paging ∈ rest, paging.request.isPaging = true ∧
      [req, paging].Sublist (insertBehind Queued.request req tmp rest) := by
  induction rest generalizing tmp with
  | nil => simp [overtakesPaging] at overtakes
  | cons next rest ih =>
      simp only [overtakesPaging, Bool.or_eq_true, Bool.and_eq_true] at overtakes
      cases stops : stopsBefore req.request tmp.request next.request with
      | true =>
          have waiting : ∃ paging ∈ next :: rest, paging.request.isPaging = true := by
            rcases overtakes with ⟨nextPaging, _⟩ | later
            · exact ⟨next, by simp, nextPaging⟩
            · obtain ⟨paging, membership, isPaging, _⟩ := ih next later
              exact ⟨paging, by simp [membership], isPaging⟩
          obtain ⟨paging, membership, isPaging⟩ := waiting
          refine ⟨paging, membership, isPaging, ?_⟩
          simp only [insertBehind, stops, ↓reduceIte]
          exact .cons _ (.cons_cons _ (List.singleton_sublist.mpr membership))
      | false =>
          have later : overtakesPaging Queued.request req.request (next :: rest) = true := by
            rcases overtakes with ⟨_, impossible⟩ | later
            · rw [stops] at impossible
              cases impossible
            · exact later
          obtain ⟨paging, membership, isPaging, behind⟩ := ih next later
          refine ⟨paging, by simp [membership], isPaging, ?_⟩
          simp only [insertBehind, stops, Bool.false_eq_true, ↓reduceIte]
          exact .cons _ behind

end Insertion

/-! ## One step -/

theorem headOrder_addRequest (dev : BlkDev) (req : Request) :
    (addRequest dev req).headOrder =
      dev.served ++ enqueue Queued.request ⟨dev.added, req⟩ dev.currentRequest := rfl

/-- `end_request` does not change the order in which requests become the head. -/
theorem headOrder_endRequest {dev next : BlkDev} (removed : endRequest dev = some next) :
    next.headOrder = dev.headOrder := by
  unfold endRequest at removed
  cases queue : dev.currentRequest with
  | nil => simp [queue] at removed
  | cons head rest =>
      simp only [queue, Option.some.injEq] at removed
      subst next
      simp [BlkDev.headOrder, queue]

/-- No step changes the relative order of the requests already there. -/
theorem sublist_headOrder_queueStep {dev next : BlkDev} {action : QueueAction}
    (taken : queueStep dev action = some next) :
    dev.headOrder.Sublist next.headOrder := by
  cases action with
  | add req =>
      cases taken
      rw [headOrder_addRequest]
      exact (List.Sublist.refl dev.served).append (sublist_enqueue _ _ _)
  | finish =>
      rw [headOrder_endRequest taken]

theorem InPagingOrder.addRequest {dev : BlkDev} (keeps : InPagingOrder dev)
    (req : Request)
    (allowed : overtakesPaging Queued.request req dev.currentRequest = false) :
    InPagingOrder (addRequest dev req) := by
  have fresh : ∀ entry ∈ dev.headOrder, MayPrecede entry ⟨dev.added, req⟩ :=
    fun entry membership _ => keeps.tagged entry membership
  have tagged : ∀ entry ∈ (BlkDrv.addRequest dev req).headOrder,
      entry.tag < dev.added + 1 := by
    intro entry membership
    rw [headOrder_addRequest, List.mem_append, (enqueue_perm _ _ _).mem_iff,
      List.mem_cons] at membership
    rcases membership with old | rfl | old
    · exact Nat.lt_succ_of_lt (keeps.tagged entry (List.mem_append_left _ old))
    · exact Nat.lt_succ_self _
    · exact Nat.lt_succ_of_lt (keeps.tagged entry (List.mem_append_right _ old))
  have ordered := keeps.ordered
  have pagingFirst := keeps.pagingFirst
  cases queue : dev.currentRequest with
  | nil =>
      refine ⟨?_, ?_, tagged⟩
      · rw [headOrder_addRequest, queue, enqueue]
        simp only [BlkDev.headOrder, queue, List.append_nil] at ordered fresh
        rw [List.pairwise_append]
        exact ⟨ordered, List.pairwise_singleton _ _, by simpa using fresh⟩
      · simp [PagingFirst, BlkDrv.addRequest, queue, enqueue]
  | cons head rest =>
      rw [queue] at pagingFirst allowed
      obtain ⟨before, after, split, inserted, buffers, pagings⟩ :=
        insertBehind_split ⟨dev.added, req⟩ head rest pagingFirst allowed
      have behind : ∀ entry ∈ after, MayPrecede ⟨dev.added, req⟩ entry := by
        intro entry membership isPaging
        rw [buffers entry membership] at isPaging
        cases isPaging
      refine ⟨?_, ?_, tagged⟩
      · -- the new request comes after everything old except buffer requests
        have order : dev.headOrder = (dev.served ++ head :: before) ++ after := by
          simp [BlkDev.headOrder, queue, split]
        rw [headOrder_addRequest, queue, enqueue, inserted]
        rw [order] at ordered fresh
        have regrouped : dev.served ++ head :: (before ++ ⟨dev.added, req⟩ :: after) =
            (dev.served ++ head :: before) ++ ⟨dev.added, req⟩ :: after := by simp
        rw [regrouped, List.pairwise_append, List.pairwise_cons]
        rw [List.pairwise_append] at ordered
        refine ⟨ordered.1, ⟨behind, ordered.2.1⟩, ?_⟩
        intro entry inFront other notInFront
        rcases List.mem_cons.mp notInFront with rfl | old
        · exact fresh entry (List.mem_append_left _ inFront)
        · exact ordered.2.2 entry inFront other old
      · simp only [PagingFirst, BlkDrv.addRequest, queue, enqueue, inserted,
          List.tail_cons] at pagingFirst ⊢
        rw [split, List.pairwise_append] at pagingFirst
        rw [List.pairwise_append, List.pairwise_cons]
        refine ⟨pagingFirst.1, ⟨?_, pagingFirst.2.1⟩, ?_⟩
        · intro entry membership isPaging
          rw [buffers entry membership] at isPaging
          cases isPaging
        · intro entry inFront other notInFront
          rcases List.mem_cons.mp notInFront with rfl | old
          · exact fun isPaging => pagings isPaging entry inFront
          · exact pagingFirst.2.2 entry inFront other old

theorem InPagingOrder.endRequest {dev next : BlkDev} (keeps : InPagingOrder dev)
    (removed : endRequest dev = some next) : InPagingOrder next := by
  have sameOrder := headOrder_endRequest removed
  unfold BlkDrv.endRequest at removed
  cases queue : dev.currentRequest with
  | nil => simp [queue] at removed
  | cons head rest =>
      simp only [queue, Option.some.injEq] at removed
      refine ⟨?_, ?_, ?_⟩
      · rw [sameOrder]
        exact keeps.ordered
      · have pagingFirst := keeps.pagingFirst
        subst next
        rw [queue, PagingFirst, List.tail_cons] at pagingFirst
        exact pagingFirst.sublist (List.tail_sublist rest)
      · rw [sameOrder]
        subst next
        exact keeps.tagged

/-- The step lemma: an allowed step keeps the order. -/
theorem InPagingOrder.queueStep {dev next : BlkDev} {action : QueueAction}
    (keeps : InPagingOrder dev) (allowed : NoOvertaking dev action)
    (taken : queueStep dev action = some next) : InPagingOrder next := by
  cases action with
  | add req =>
      cases taken
      exact keeps.addRequest req allowed
  | finish => exact keeps.endRequest taken

/-- The step that is not allowed breaks the order. -/
theorem not_ordered_of_overtaking {dev next : BlkDev} {action : QueueAction}
    (keeps : InPagingOrder dev) (overtaking : ¬ NoOvertaking dev action)
    (taken : queueStep dev action = some next) :
    ¬ next.headOrder.Pairwise MayPrecede := by
  cases action with
  | finish => exact absurd trivial overtaking
  | add req =>
      cases taken
      simp only [NoOvertaking, Bool.not_eq_false] at overtaking
      cases queue : dev.currentRequest with
      | nil => simp [queue, overtakesPaging] at overtaking
      | cons head rest =>
          rw [queue] at overtaking
          obtain ⟨paging, membership, isPaging, behind⟩ :=
            insertBehind_overtakes ⟨dev.added, req⟩ head rest overtaking
          intro ordered
          rw [headOrder_addRequest, queue, enqueue] at ordered
          have overtaken := (List.pairwise_append.mp ordered).2.1.sublist behind
          have tooLate : dev.added < paging.tag :=
            (List.pairwise_cons.mp overtaken).1 paging (by simp) isPaging
          have tagged := keeps.tagged paging (by
            simp [BlkDev.headOrder, queue, membership])
          omega

/-! ## Whole runs -/

/-- An order once broken stays broken. -/
theorem ordered_of_exec {dev final : BlkDev} {actions : List QueueAction}
    (ran : Lib.exec queueStep dev actions = some final)
    (ordered : final.headOrder.Pairwise MayPrecede) :
    dev.headOrder.Pairwise MayPrecede := by
  have grows : dev.headOrder.Sublist final.headOrder :=
    Lib.exec_preserves (fun state => dev.headOrder.Sublist state.headOrder)
      (fun _ _ _ reached taken => reached.trans (sublist_headOrder_queueStep taken))
      (List.Sublist.refl _) ran
  exact ordered.sublist grows

theorem ordered_iff_of_inPagingOrder {dev final : BlkDev} {actions : List QueueAction}
    (keeps : InPagingOrder dev)
    (ran : Lib.exec queueStep dev actions = some final) :
    final.headOrder.Pairwise MayPrecede ↔
      Lib.EveryStep queueStep NoOvertaking dev actions := by
  induction actions generalizing dev with
  | nil =>
      cases ran
      exact ⟨fun _ => trivial, fun _ => keeps.ordered⟩
  | cons action actions ih =>
      obtain ⟨next, taken, rest⟩ := Lib.exec_cons_eq_some.mp ran
      by_cases allowed : NoOvertaking dev action
      · have tail := ih (keeps.queueStep allowed taken) rest
        constructor
        · intro ordered
          refine ⟨allowed, fun other otherTaken => ?_⟩
          rw [taken] at otherTaken
          cases otherTaken
          exact tail.mp ordered
        · exact fun meets => tail.mpr (meets.2 next taken)
      · constructor
        · intro ordered
          exact absurd (ordered_of_exec rest ordered)
            (not_ordered_of_overtaking keeps allowed taken)
        · exact fun meets => absurd meets.1 allowed

/-- In a run from an idle device the paging requests keep their order exactly when
no buffer request is ever put in front of a waiting paging request. -/
theorem keepsPagingOrder_iff_noOvertaking (actions : List QueueAction) (final : BlkDev)
    (ran : Lib.exec queueStep BlkDev.init actions = some final) :
    KeepsPagingOrder final ↔
      Lib.EveryStep queueStep NoOvertaking BlkDev.init actions := by
  rw [keepsPagingOrder_iff]
  exact ordered_iff_of_inPagingOrder inPagingOrder_init ran

/-! ## The order is not always kept -/

/-- A read of block 5 is being served when slot 7 is paged out; a read of block 9
arrives, and then slot 7 is paged in again. -/
def overtakingRun : List QueueAction :=
  [.add (.ofBuffer .read 0x301 5 0 0), .add (.ofPage .write 0x301 7 0x400000 1),
    .add (.ofBuffer .read 0x301 9 1 0), .add (.ofPage .read 0x301 7 0x500000 2)]

theorem keepsPagingOrder_iff_noOvertaking_pageOut :
    ∃ final, Lib.exec queueStep BlkDev.init (overtakingRun.take 2) = some final ∧
      (KeepsPagingOrder final ↔
        Lib.EveryStep queueStep NoOvertaking BlkDev.init (overtakingRun.take 2)) :=
  ⟨_, rfl, keepsPagingOrder_iff_noOvertaking (overtakingRun.take 2) _ rfl⟩

/-- The page-in is served first, then the read, and the page-out last. -/
theorem paging_requests_can_be_reordered :
    ¬ ∀ (actions : List QueueAction) (final : BlkDev),
      Lib.exec queueStep BlkDev.init actions = some final → KeepsPagingOrder final := by
  intro always
  have keeps := always overtakingRun _ rfl
  have broken : ¬ [(3 : Nat), 1].Pairwise (· < ·) := by decide
  exact broken (List.pairwise_map.mpr keeps.pagingInOrder)

end Linux012.BlkDrv
