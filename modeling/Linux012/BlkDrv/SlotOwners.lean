import Mathlib.Data.Fintype.Card
import Mathlib.Logic.Basic
import Linux012.BlkDrv.Slots
import Linux012.Lib.Chains
import Linux012.Lib.Ownership
import Linux012.Lib.Run

/-!
# Slots, queues and locks agree

The slots in use are those that are linked in the queues of the devices, and a buffer is
locked exactly when one of them is for it or one task in `make_request` has it.
-/

namespace Linux012.BlkDrv.Slots

open Lib (Leads Chains Exclusive)

/-! ## What is promised -/

section Spec

variable {Task : Type}

/-- The buffer that a task in `make_request` has locked. -/
def Call.lock : Call → Option Bh
  | .finding _ _ bh _ => some bh
  | .outside | .locking .. | .paging .. => none

namespace BlkState

/-- The slot is in use. -/
def InUse (s : BlkState Task) (slot : Slot) : Prop := 0 ≤ (s.request slot).dev

/-- The slot has a request for the buffer. -/
def HasRequest (s : BlkState Task) (slot : Slot) (bh : Bh) : Prop :=
  s.InUse slot ∧ (s.request slot).bh = some bh

/-- The task is in `make_request` and has locked the buffer. -/
def HasLocked (s : BlkState Task) (task : Task) (bh : Bh) : Prop :=
  (s.call task).lock = some bh

/-- The queues of the devices, each linked to a null pointer, with the slots in use, each in
one queue and once. -/
structure Linked (s : BlkState Task) (queues : Major → List Slot) : Prop where
  leads : ∀ major, Leads s.next (s.currentRequest major) (queues major)
  nodup : ∀ major, (queues major).Nodup
  apart : ∀ major other slot, slot ∈ queues major → slot ∈ queues other → major = other
  inUse : ∀ slot, s.InUse slot ↔ ∃ major, slot ∈ queues major

/-- The promise. -/
structure Consistent (s : BlkState Task) : Prop where
  queues : ∃ queues, s.Linked queues
  unshared : ∀ slot other bh, s.HasRequest slot bh → s.HasRequest other bh → slot = other
  locked : ∀ slot bh, s.HasRequest slot bh → (s.buffer bh).bLock = true
  owner : ∀ bh, (s.buffer bh).bLock = true →
    Xor (∃! slot, s.HasRequest slot bh) (∃! task, s.HasLocked task bh)
  calm : s.panicked = false

end BlkState

end Spec

/-! ## Owners of locks -/

section Owners

variable {Task : Type}

/-- Who may have a buffer locked. -/
inductive Owner (Task : Type) where
  | slot (slot : Slot)
  | task (task : Task)

namespace BlkState

def Owns (s : BlkState Task) : Owner Task → Bh → Prop
  | .slot slot => s.HasRequest slot
  | .task task => s.HasLocked task

def Locked (s : BlkState Task) (bh : Bh) : Prop := (s.buffer bh).bLock = true

/-- The invariant. -/
structure Kept (s : BlkState Task) : Prop where
  queues : ∃ queues, s.Linked queues
  owners : Exclusive s.Locked s.Owns
  calm : s.panicked = false

variable {s next : BlkState Task}

/-- A lock has one owner, of one of two kinds. -/
theorem xor_of_exclusive (owners : Exclusive s.Locked s.Owns) {bh : Bh}
    (isLocked : s.Locked bh) :
    Xor (∃! slot, s.HasRequest slot bh) (∃! task, s.HasLocked task bh) := by
  obtain ⟨owner, isOwner, onlyOwner⟩ := owners.existsUnique isLocked
  cases owner with
  | slot slot =>
      refine .inl ⟨⟨slot, isOwner, fun other isOther => ?_⟩, ?_⟩
      · exact Owner.slot.inj (onlyOwner (.slot other) isOther)
      · rintro ⟨task, isTask, -⟩
        cases onlyOwner (.task task) isTask
  | task task =>
      refine .inr ⟨⟨task, isOwner, fun other isOther => ?_⟩, ?_⟩
      · exact Owner.task.inj (onlyOwner (.task other) isOther)
      · rintro ⟨slot, isSlot, -⟩
        cases onlyOwner (.slot slot) isSlot

theorem Kept.consistent (kept : s.Kept) : s.Consistent where
  queues := kept.queues
  unshared slot other bh isSlot isOther :=
    Owner.slot.inj (kept.owners.unique (.slot slot) (.slot other) bh isSlot isOther)
  locked slot bh isSlot := by
    have isOwner : s.Owns (.slot slot) bh := isSlot
    exact kept.owners.used_of_owns isOwner
  owner _ isLocked := xor_of_exclusive kept.owners isLocked
  calm := kept.calm

/-! ## Queues -/

variable {queues : Major → List Slot} {major : Major} {slot : Slot}

theorem Linked.chains (linked : s.Linked queues) : Chains s.next s.currentRequest queues :=
  ⟨linked.leads, linked.nodup, linked.apart⟩

/-- The search of `add_request` ends in the queue, where the list has the new request. -/
theorem findPlace_eq_some (s : BlkState Task) (req : Slot) (left : Nat) (tmp : Slot)
    (rest : List Slot) (leads : Leads s.next (some tmp) (tmp :: rest))
    (enough : rest.length < left) :
    ∃ before place behind, tmp :: rest = before ++ place :: behind ∧
      s.findPlace req left tmp = some place ∧
      insertBehind s.request req tmp rest = before ++ place :: req :: behind := by
  induction rest generalizing tmp left with
  | nil =>
      obtain ⟨left, rfl⟩ := Nat.exists_eq_add_one.mpr enough
      have isLast : s.next tmp = none := leads.2
      refine ⟨[], tmp, [], rfl, ?_, rfl⟩
      rw [findPlace, isLast]
  | cons next rest ih =>
      obtain ⟨left, rfl⟩ := Nat.exists_eq_add_one.mpr (Nat.zero_lt_of_lt enough)
      have follows : s.next tmp = some next := leads.2.1
      rw [findPlace, follows, insertBehind]
      by_cases stops : stopsBefore (s.request req) (s.request tmp) (s.request next)
      · rw [if_pos stops]
        exact ⟨[], tmp, next :: rest, rfl, if_pos stops, rfl⟩
      · rw [if_neg stops]
        have leadsOn : Leads s.next (some next) (next :: rest) := ⟨rfl, leads.2.2⟩
        obtain ⟨before, place, behind, split, found, inserted⟩ :=
          ih left next leadsOn (Nat.lt_of_succ_lt_succ enough)
        refine ⟨tmp :: before, place, behind, ?_, ?_, ?_⟩
        · rw [split, List.cons_append]
        · rw [← found]
          exact if_neg stops
        · rw [inserted, List.cons_append]

/-- The queues behind `add_request`. -/
def queuesWith (s : BlkState Task) (queues : Major → List Slot) (major : Major) (req : Slot) :
    Major → List Slot :=
  Function.update queues major (enqueue s.request req (queues major))

theorem mem_queuesWith {req : Slot} :
    (∃ other, slot ∈ s.queuesWith queues major req other) ↔
      slot = req ∨ ∃ other, slot ∈ queues other := by
  rw [queuesWith]
  apply Chains.mem_update_add_iff
  rw [(enqueue_perm _ _ _).mem_iff, List.mem_cons]

@[simp] theorem cleanBuffer_next {req : Slot} : (s.cleanBuffer req).next = s.next := by
  rw [cleanBuffer]
  split <;> rfl

@[simp] theorem cleanBuffer_request {req : Slot} : (s.cleanBuffer req).request = s.request := by
  rw [cleanBuffer]
  split <;> rfl

@[simp] theorem cleanBuffer_currentRequest {req : Slot} :
    (s.cleanBuffer req).currentRequest = s.currentRequest := by
  rw [cleanBuffer]
  split <;> rfl

@[simp] theorem cleanBuffer_panicked {req : Slot} :
    (s.cleanBuffer req).panicked = s.panicked := by
  rw [cleanBuffer]
  split <;> rfl

/-- `add_request` on an idle device. -/
theorem chains_start {req : Slot} (chains : Chains s.next s.currentRequest queues)
    (absent : ∀ major, req ∉ queues major) (ends : s.next req = none)
    (idle : s.currentRequest major = none) :
    Chains s.next (Function.update s.currentRequest major (some req))
      (s.queuesWith queues major req) := by
  have pushed := @Chains.push _ _ _ _ _ major _ _ _ chains absent
  rw [idle, ← ends, Function.update_eq_self] at pushed
  rw [queuesWith]
  rw [chains.eq_nil idle] at pushed ⊢
  exact pushed

/-- `add_request` behind the current request: the search ends, and the slot is linked where
the elevator puts it. -/
theorem chains_link {req tmp : Slot} (chains : Chains s.next s.currentRequest queues)
    (absent : ∀ major, req ∉ queues major) (isCurrent : s.currentRequest major = some tmp) :
    ∃ place, s.findPlace req nrRequest tmp = some place ∧
      Chains (s.link req place).next s.currentRequest (s.queuesWith queues major req) := by
  obtain ⟨rest, queue⟩ := chains.eq_cons isCurrent
  have leads : Leads s.next (some tmp) (tmp :: rest) := by
    have leads := chains.leads major
    rwa [isCurrent, queue] at leads
  have short : (tmp :: rest).length ≤ nrRequest := by
    have atMost := List.Nodup.length_le_card (chains.nodup major)
    rwa [Fintype.card_fin, queue] at atMost
  obtain ⟨before, place, behind, split, found, inserted⟩ :=
    findPlace_eq_some s req nrRequest tmp rest leads short
  refine ⟨place, found, ?_⟩
  rw [queuesWith, queue, enqueue, inserted]
  exact chains.insert (queue.trans split) absent

theorem chains_addRequest {req : Slot} (chains : Chains s.next s.currentRequest queues)
    (absent : ∀ major, req ∉ queues major) (ends : s.next req = none) :
    Chains (s.addRequest major req).next (s.addRequest major req).currentRequest
        (s.queuesWith queues major req) ∧
      (s.addRequest major req).panicked = s.panicked := by
  have cleaned : Chains (s.cleanBuffer req).next (s.cleanBuffer req).currentRequest queues := by
    rw [cleanBuffer_next, cleanBuffer_currentRequest]
    exact chains
  have sameQueues : s.queuesWith queues major req =
      (s.cleanBuffer req).queuesWith queues major req := by
    rw [queuesWith, queuesWith, cleanBuffer_request]
  rw [BlkState.addRequest, sameQueues]
  split
  next idle =>
    exact ⟨chains_start cleaned absent (by rw [cleanBuffer_next, ends]) idle,
      cleanBuffer_panicked⟩
  next tmp isCurrent =>
    obtain ⟨place, found, linked⟩ := chains_link cleaned absent isCurrent
    rw [found]
    exact ⟨linked, cleanBuffer_panicked⟩

/-! ## Filling a slot -/

theorem findEmpty_spec {bound : Nat} (found : s.findEmpty bound = some slot) : ¬s.InUse slot := by
  have free := List.find?_some found
  rw [Bool.and_eq_true, decide_eq_true_iff, decide_eq_true_iff] at free
  exact not_le.mpr free.2

theorem addRequest_request {req : Slot} : (s.addRequest major req).request = s.request := by
  rw [addRequest]
  split
  next => exact cleanBuffer_request
  next => split <;> exact cleanBuffer_request

theorem addRequest_call {req : Slot} : (s.addRequest major req).call = s.call := by
  have cleaned : (s.cleanBuffer req).call = s.call := by
    rw [cleanBuffer]
    split <;> rfl
  rw [addRequest]
  split
  next => exact cleaned
  next => split <;> exact cleaned

theorem setBuffer_locked {bh : Bh} {head : BufferHead} (lock : head.bLock = (s.buffer bh).bLock)
    (other : Bh) : (s.setBuffer bh head).Locked other ↔ s.Locked other := by
  rw [Locked, setBuffer, Locked]
  by_cases same : other = bh
  · rw [same]
    simp only [Function.update_self]
    rw [lock]
  · simp only [Function.update_of_ne same]

theorem addRequest_locked {req : Slot} (bh : Bh) :
    (s.addRequest major req).Locked bh ↔ s.Locked bh := by
  have cleaned : (s.cleanBuffer req).Locked bh ↔ s.Locked bh := by
    rw [cleanBuffer]
    split
    next => exact Iff.rfl
    next =>
      apply setBuffer_locked
      rfl
  rw [addRequest]
  split
  next => exact cleaned
  next => split <;> exact cleaned

/-- The slot is filled and linked. -/
theorem Linked.add {req : Slot} {content : Request} (linked : s.Linked queues)
    (free : ¬s.InUse req) (inUse : 0 ≤ content.dev) :
    ((s.fill req content).addRequest major req).Linked
        ((s.fill req content).queuesWith queues major req) ∧
      ((s.fill req content).addRequest major req).panicked = s.panicked := by
  have absent (major : Major) : req ∉ queues major := fun member =>
    free ((linked.inUse req).mpr ⟨major, member⟩)
  have filled : Chains (s.fill req content).next s.currentRequest queues := by
    apply linked.chains.congr
    intro major slot member
    have differs : slot ≠ req := fun same => absent major (same ▸ member)
    exact Function.update_of_ne differs ..
  have ends : (s.fill req content).next req = none := Function.update_self ..
  have added := @chains_addRequest _ (s.fill req content) _ major _ filled absent ends
  refine ⟨⟨added.1.leads, added.1.nodup, added.1.apart, fun slot => ?_⟩, added.2⟩
  rw [mem_queuesWith, ← linked.inUse, InUse, addRequest_request]
  by_cases same : slot = req
  · have now : (s.fill req content).request req = content := Function.update_self ..
    rw [same, now]
    exact ⟨fun _ => .inl rfl, fun _ => inUse⟩
  · have before : (s.fill req content).request slot = s.request slot :=
      Function.update_of_ne same ..
    rw [before]
    exact ⟨.inr, fun either => either.resolve_left same⟩

/-- Nothing about the queues changes. -/
theorem Linked.of_eq (linked : s.Linked queues) (pointers : next.next = s.next)
    (currentRequest : next.currentRequest = s.currentRequest)
    (inUse : ∀ slot, next.InUse slot ↔ s.InUse slot) : next.Linked queues where
  leads := by
    rw [pointers, currentRequest]
    exact linked.leads
  nodup := linked.nodup
  apart := linked.apart
  inUse slot := (inUse slot).trans (linked.inUse slot)

/-! ## Finishing a request -/

theorem endRequest_next {uptodate : Bool} :
    (s.endRequest major slot uptodate).next = s.next := by
  rw [endRequest]
  split <;> rfl

theorem endRequest_currentRequest {uptodate : Bool} :
    (s.endRequest major slot uptodate).currentRequest =
      Function.update s.currentRequest major (s.next slot) := by
  rw [endRequest]
  split <;> rfl

theorem endRequest_request {uptodate : Bool} :
    (s.endRequest major slot uptodate).request =
      Function.update s.request slot { s.request slot with dev := -1 } := by
  rw [endRequest]
  split <;> rfl

theorem endRequest_call {uptodate : Bool} :
    (s.endRequest major slot uptodate).call = s.call := by
  rw [endRequest]
  split <;> rfl

theorem endRequest_panicked {uptodate : Bool} :
    (s.endRequest major slot uptodate).panicked = s.panicked := by
  rw [endRequest]
  split <;> rfl

theorem endRequest_inUse {uptodate : Bool} (other : Slot) :
    (s.endRequest major slot uptodate).InUse other ↔ s.InUse other ∧ other ≠ slot := by
  rw [InUse, endRequest_request, InUse]
  by_cases same : other = slot
  · rw [same, Function.update_self]
    have notNonneg : ¬(0 : Int) ≤ -1 := by decide
    exact ⟨fun isUsed => absurd isUsed notNonneg, fun isUsed => absurd rfl isUsed.2⟩
  · rw [Function.update_of_ne same]
    exact ⟨fun isUsed => ⟨isUsed, same⟩, And.left⟩

/-- The current request leaves its queue. -/
theorem Linked.endRequest {uptodate : Bool} (linked : s.Linked queues)
    (isCurrent : s.currentRequest major = some slot) :
    (s.endRequest major slot uptodate).Linked
      (Function.update queues major (queues major).tail) := by
  have popped := linked.chains.pop isCurrent
  refine ⟨?_, popped.nodup, popped.apart, fun other => ?_⟩
  · rw [endRequest_next, endRequest_currentRequest]
    exact popped.leads
  · rw [endRequest_inUse, linked.chains.mem_pop_iff isCurrent, linked.inUse, and_comm]

/-! ## Owners behind each part of a call -/

variable {bh : Bh} {task : Task}

/-- Only the owner of a lock owns it. -/
theorem Kept.owns_ne (kept : s.Kept) {owner other : Owner Task} {lock : Bh}
    (isOwner : s.Owns owner bh) (isOther : s.Owns other lock) (differs : other ≠ owner) :
    lock ≠ bh := by
  rintro rfl
  exact differs (kept.owners.unique other owner lock isOther isOwner)

/-- Neither a queue nor an owner changes. -/
theorem Kept.congr (kept : s.Kept) (pointers : next.next = s.next)
    (currentRequest : next.currentRequest = s.currentRequest)
    (inUse : ∀ slot, next.InUse slot ↔ s.InUse slot)
    (bh : ∀ slot, (next.request slot).bh = (s.request slot).bh)
    (locked : ∀ bh, next.Locked bh ↔ s.Locked bh)
    (lock : ∀ task, (next.call task).lock = (s.call task).lock)
    (panicked : next.panicked = s.panicked) : next.Kept where
  queues := kept.queues.imp fun _ linked => linked.of_eq pointers currentRequest inUse
  owners := by
    apply kept.owners.congr locked
    intro owner _
    cases owner with
    | slot slot => rw [Owns, Owns, HasRequest, HasRequest, inUse, bh]
    | task task => rw [Owns, Owns, HasLocked, HasLocked, lock]
  calm := panicked.trans kept.calm

/-- Fields of a buffer other than its lock change. -/
theorem Kept.setBuffer {head : BufferHead} (kept : s.Kept)
    (lock : head.bLock = (s.buffer bh).bLock) : (s.setBuffer bh head).Kept :=
  kept.congr rfl rfl (fun _ => Iff.rfl) (fun _ => rfl) (setBuffer_locked lock) (fun _ => rfl) rfl

/-- The driver comes further. -/
theorem Kept.progress {errors sector nrSectors buffer : Nat} (kept : s.Kept) :
    (s.progress slot errors sector nrSectors buffer).Kept := by
  have same (other : Slot) :
      ((s.progress slot errors sector nrSectors buffer).request other).dev =
          (s.request other).dev ∧
        ((s.progress slot errors sector nrSectors buffer).request other).bh =
          (s.request other).bh := by
    by_cases here : other = slot <;> simp [BlkState.progress, here]
  have inUse (other : Slot) :
      (s.progress slot errors sector nrSectors buffer).InUse other ↔ s.InUse other := by
    rw [InUse, (same other).1, InUse]
  exact kept.congr rfl rfl inUse (fun other => (same other).2) (fun _ => Iff.rfl) (fun _ => rfl)
    rfl

theorem Kept.current_inUse (kept : s.Kept) (isCurrent : s.currentRequest major = some slot) :
    s.InUse slot := by
  obtain ⟨queues, linked⟩ := kept.queues
  obtain ⟨rest, queue⟩ := linked.chains.eq_cons isCurrent
  rw [linked.inUse]
  refine ⟨major, ?_⟩
  rw [queue]
  exact List.mem_cons_self

/-- A request is finished and its buffer unlocked. -/
theorem Kept.endRequest {uptodate : Bool} (kept : s.Kept)
    (isCurrent : s.currentRequest major = some slot) :
    (s.endRequest major slot uptodate).Kept := by
  have bhSame (other : Slot) :
      ((s.endRequest major slot uptodate).request other).bh = (s.request other).bh := by
    rw [endRequest_request]
    by_cases same : other = slot
    · rw [same, Function.update_self]
    · rw [Function.update_of_ne same]
  have inUse : s.InUse slot := kept.current_inUse isCurrent
  constructor
  · obtain ⟨queues, linked⟩ := kept.queues
    exact ⟨_, linked.endRequest isCurrent⟩
  · cases buffer : (s.request slot).bh with
    | none =>
        apply kept.owners.congr
        · intro other
          rw [Locked, BlkState.endRequest, buffer]
          rfl
        · intro owner other
          cases owner with
          | slot other' =>
              rw [Owns, Owns, HasRequest, HasRequest, endRequest_inUse, bhSame]
              constructor
              · exact fun ⟨isUsed, isBh⟩ => ⟨isUsed.1, isBh⟩
              · rintro ⟨isUsed, isBh⟩
                refine ⟨⟨isUsed, ?_⟩, isBh⟩
                rintro rfl
                rw [buffer] at isBh
                cases isBh
          | task task => rw [Owns, Owns, HasLocked, endRequest_call, HasLocked]
    | some bh =>
        have isOwner : s.Owns (.slot slot) bh := ⟨inUse, buffer⟩
        have use (other : Bh) : (s.endRequest major slot uptodate).Locked other ↔
            s.Locked other ∧ other ≠ bh := by
          rw [Locked, BlkState.endRequest, buffer, Locked]
          by_cases same : other = bh <;> simp [unlockBuffer, BlkState.setBuffer, same]
        apply kept.owners.release use
        intro owner other
        cases owner with
        | slot place =>
            rw [Owns, Owns, HasRequest, HasRequest, endRequest_inUse, bhSame]
            constructor
            · rintro ⟨⟨isUsed, differs⟩, isBh⟩
              have isOther : s.Owns (.slot place) other := ⟨isUsed, isBh⟩
              refine ⟨isOther, kept.owns_ne isOwner isOther ?_⟩
              exact fun same => differs (Owner.slot.inj same)
            · rintro ⟨⟨isUsed, isBh⟩, differs⟩
              refine ⟨⟨isUsed, ?_⟩, isBh⟩
              rintro rfl
              exact differs (Option.some.inj (isBh.symm.trans buffer))
        | task task =>
            rw [Owns, Owns, HasLocked, endRequest_call, HasLocked]
            refine ⟨fun has => ⟨has, ?_⟩, And.left⟩
            have isOther : s.Owns (.task task) other := has
            exact kept.owns_ne isOwner isOther nofun
  · exact endRequest_panicked.trans kept.calm

variable [DecidableEq Task]

/-- A task goes on or sleeps without a lock. -/
theorem Kept.setCall {call : Call} (kept : s.Kept) (before : (s.call task).lock = none)
    (behind : call.lock = none) : (s.setCall task call).Kept := by
  have lock (other : Task) : ((s.setCall task call).call other).lock = (s.call other).lock := by
    by_cases same : other = task
    · rw [same, before, ← behind]
      exact congrArg Call.lock (Function.update_self ..)
    · exact congrArg Call.lock (Function.update_of_ne same ..)
  exact kept.congr rfl rfl (fun _ => Iff.rfl) (fun _ => rfl) (fun _ => Iff.rfl) lock rfl

/-- A task locks a buffer. -/
theorem Kept.lock {head : BufferHead} {call : Call} (kept : s.Kept) (free : ¬s.Locked bh)
    (isLocked : head.bLock = true) (before : (s.call task).lock = none)
    (behind : call.lock = some bh) : ((s.setBuffer bh head).setCall task call).Kept where
  queues := kept.queues.imp fun _ linked => linked.of_eq rfl rfl fun _ => Iff.rfl
  owners := by
    apply kept.owners.take (.task task) free
    · intro other
      rw [Locked, Locked]
      by_cases same : other = bh <;>
        simp [BlkState.setCall, BlkState.setBuffer, same, isLocked]
    · intro owner other
      cases owner with
      | slot place =>
          exact ⟨.inl, fun has => has.resolve_right nofun⟩
      | task party =>
          rw [Owns, Owns, HasLocked, HasLocked]
          by_cases same : party = task
          · have now : ((s.setBuffer bh head).setCall task call).call task = call :=
              Function.update_self ..
            rw [same, now, behind, before]
            exact ⟨fun isBh => .inr ⟨rfl, (Option.some.inj isBh).symm⟩,
              fun has => has.elim nofun fun isBh => congrArg some isBh.2.symm⟩
          · have now : ((s.setBuffer bh head).setCall task call).call party = s.call party :=
              Function.update_of_ne same ..
            rw [now]
            exact ⟨.inl, fun has => has.resolve_right fun isTask => same (Owner.task.inj isTask.1)⟩
  calm := kept.calm

/-- A task unlocks its buffer and returns. -/
theorem Kept.unlock (kept : s.Kept) (isLock : (s.call task).lock = some bh) :
    ((s.unlockBuffer bh).setCall task .outside).Kept where
  queues := kept.queues.imp fun _ linked => linked.of_eq rfl rfl fun _ => Iff.rfl
  owners := by
    have isOwner : s.Owns (.task task) bh := isLock
    have use (other : Bh) : ((s.unlockBuffer bh).setCall task .outside).Locked other ↔
        s.Locked other ∧ other ≠ bh := by
      rw [Locked, Locked]
      by_cases same : other = bh <;>
        simp [BlkState.setCall, unlockBuffer, BlkState.setBuffer, same]
    apply kept.owners.release use
    · intro owner other
      cases owner with
      | slot place =>
          refine ⟨fun has => ⟨has, ?_⟩, And.left⟩
          have isOther : s.Owns (.slot place) other := has
          exact kept.owns_ne isOwner isOther nofun
      | task party =>
          rw [Owns, Owns, HasLocked, HasLocked]
          by_cases same : party = task
          · have now : ((s.unlockBuffer bh).setCall task .outside).call task = .outside :=
              Function.update_self ..
            rw [same, now, isLock]
            exact ⟨nofun, fun has => absurd (Option.some.inj has.1).symm has.2⟩
          · have now : ((s.unlockBuffer bh).setCall task .outside).call party = s.call party :=
              Function.update_of_ne same ..
            rw [now]
            refine ⟨fun has => ⟨has, ?_⟩, And.left⟩
            have isOther : s.Owns (.task party) other := has
            exact kept.owns_ne isOwner isOther fun isTask => same (Owner.task.inj isTask)
  calm := kept.calm

/-! ## Requests that are added -/

/-- A slot is filled by a task that returns. -/
def filledBy (s : BlkState Task) (task : Task) (slot : Slot) (req : Request) : BlkState Task :=
  (s.fill slot req).setCall task .outside

theorem filledBy_request_self {req : Request} :
    (s.filledBy task slot req).request slot = req :=
  Function.update_self ..

theorem filledBy_request_of_ne {req : Request} {other : Slot} (differs : other ≠ slot) :
    (s.filledBy task slot req).request other = s.request other :=
  Function.update_of_ne differs ..

theorem Kept.addQueues {req : Request} (kept : s.Kept) (free : ¬s.InUse slot)
    (inUse : 0 ≤ req.dev) :
    (∃ queues, ((s.filledBy task slot req).addRequest major slot).Linked queues) ∧
      ((s.filledBy task slot req).addRequest major slot).panicked = false := by
  obtain ⟨queues, linked⟩ := kept.queues
  have outside : (s.setCall task .outside).Linked queues :=
    linked.of_eq rfl rfl fun _ => Iff.rfl
  have added := @Linked.add _ _ queues major _ _ outside free inUse
  exact ⟨⟨_, added.1⟩, added.2.trans kept.calm⟩

/-- Who owns what behind a request that is added. -/
theorem owns_added_slot {req : Request} (free : ¬s.InUse slot) (inUse : 0 ≤ req.dev)
    {place : Slot} :
    ((s.filledBy task slot req).addRequest major slot).HasRequest place bh ↔
      s.HasRequest place bh ∨ place = slot ∧ req.bh = some bh := by
  rw [HasRequest, InUse, addRequest_request, HasRequest, InUse]
  by_cases same : place = slot
  · rw [same, filledBy_request_self]
    exact ⟨fun has => .inr ⟨rfl, has.2⟩,
      fun has => ⟨inUse, (has.resolve_left fun before => free before.1).2⟩⟩
  · rw [filledBy_request_of_ne same]
    exact ⟨.inl, fun has => has.resolve_right fun isSlot => same isSlot.1⟩

theorem owns_added_task {req : Request} {party : Task} :
    ((s.filledBy task slot req).addRequest major slot).HasLocked party bh ↔
      s.HasLocked party bh ∧ party ≠ task := by
  rw [HasLocked, addRequest_call, HasLocked]
  by_cases same : party = task
  · have now : (s.filledBy task slot req).call task = .outside := Function.update_self ..
    rw [same, now]
    exact ⟨nofun, fun has => absurd rfl has.2⟩
  · have now : (s.filledBy task slot req).call party = s.call party :=
      Function.update_of_ne same ..
    rw [now]
    exact ⟨fun has => ⟨has, same⟩, And.left⟩

/-- The task hands its lock over to the slot. -/
theorem Kept.addBuffer {req : Request} (kept : s.Kept) (isLock : (s.call task).lock = some bh)
    (free : ¬s.InUse slot) (inUse : 0 ≤ req.dev) (isBh : req.bh = some bh) :
    ((s.filledBy task slot req).addRequest major slot).Kept where
  queues := (kept.addQueues free inUse).1
  owners := by
    have isOwner : s.Owns (.task task) bh := isLock
    have use (other : Bh) :
        ((s.filledBy task slot req).addRequest major slot).Locked other ↔ s.Locked other :=
      addRequest_locked other
    apply kept.owners.handOver (.slot slot) (kept.owners.used_of_owns isOwner) use
    intro owner other
    cases owner with
    | slot place =>
        refine (owns_added_slot free inUse).trans (or_congr ⟨fun has => ⟨has, ?_⟩, And.left⟩ ?_)
        · have isOther : s.Owns (.slot place) other := has
          exact kept.owns_ne isOwner isOther nofun
        · rw [isBh, Option.some.injEq, Owner.slot.injEq, eq_comm (a := bh)]
    | task party =>
        refine owns_added_task.trans ⟨fun has => .inl ⟨has.1, ?_⟩, fun has => ?_⟩
        · have isOther : s.Owns (.task party) other := has.1
          exact kept.owns_ne isOwner isOther fun same => has.2 (Owner.task.inj same)
        · have before := has.resolve_right nofun
          refine ⟨before.1, ?_⟩
          rintro rfl
          exact before.2 (Option.some.inj (before.1.symm.trans isLock))
  calm := (kept.addQueues free inUse).2

/-- A paging request has no buffer. -/
theorem Kept.addPage {req : Request} (kept : s.Kept) (noLock : (s.call task).lock = none)
    (free : ¬s.InUse slot) (inUse : 0 ≤ req.dev) (noBh : req.bh = none) :
    ((s.filledBy task slot req).addRequest major slot).Kept where
  queues := (kept.addQueues free inUse).1
  owners := by
    have use (other : Bh) :
        ((s.filledBy task slot req).addRequest major slot).Locked other ↔ s.Locked other :=
      addRequest_locked other
    apply kept.owners.congr use
    intro owner other
    cases owner with
    | slot place =>
        refine (owns_added_slot free inUse).trans ⟨fun has => has.resolve_right ?_, .inl⟩
        rw [noBh]
        exact fun isSlot => nomatch isSlot.2
    | task party =>
        refine owns_added_task.trans ⟨And.left, fun has => ⟨has, ?_⟩⟩
        rintro rfl
        rw [Owns, HasLocked, noLock] at has
        cases has
  calm := (kept.addQueues free inUse).2

/-! ## Calls -/

theorem Kept.findTurn {rw : Cmd} {rwAhead : Bool} (kept : s.Kept)
    (isCall : s.call task = .finding major rw bh rwAhead) :
    (s.findTurn task major rw bh rwAhead).Kept := by
  have isLock : (s.call task).lock = some bh := by
    rw [isCall]
    rfl
  rw [BlkState.findTurn]
  split
  next =>
    split
    next => exact kept.unlock isLock
    next => exact kept
  next slot found =>
    exact kept.addBuffer isLock (findEmpty_spec found) (Int.natCast_nonneg _) rfl

theorem Kept.lockTurn {rw : Cmd} {rwAhead : Bool} (kept : s.Kept)
    (noLock : (s.call task).lock = none) : (s.lockTurn task major rw bh rwAhead).Kept := by
  rw [BlkState.lockTurn]
  split
  next => exact kept.setCall noLock rfl
  next free =>
    have locked : ((s.setBuffer bh { s.buffer bh with bLock := true }).setCall task
        (.finding major rw bh rwAhead)).Kept := kept.lock free rfl noLock rfl
    have isCall : ((s.setBuffer bh { s.buffer bh with bLock := true }).setCall task
        (.finding major rw bh rwAhead)).call task = .finding major rw bh rwAhead :=
      Function.update_self ..
    simp only
    split
    next =>
      apply locked.unlock
      rw [isCall]
      rfl
    next => exact locked.findTurn isCall

theorem Kept.llRwBlock {rw : Rw} (kept : s.Kept) (outside : s.call task = .outside) :
    (s.llRwBlock task rw bh).Kept := by
  rw [BlkState.llRwBlock]
  split
  next => exact kept
  next =>
    rw [makeRequest]
    split
    next => exact kept
    next =>
      apply kept.lockTurn
      rw [outside]
      rfl

theorem Kept.pageTurn {current : Nat} {rw : Cmd} {dev page buffer : Nat} (kept : s.Kept)
    (noLock : (s.call task).lock = none) :
    (s.pageTurn task current major rw dev page buffer).Kept := by
  rw [BlkState.pageTurn]
  split
  next => exact kept.setCall noLock rfl
  next slot found =>
    exact kept.addPage noLock (findEmpty_spec found) (Int.natCast_nonneg _) rfl

theorem Kept.llRwPage {current : Nat} {rw : Cmd} {dev page buffer : Nat} (kept : s.Kept)
    (outside : s.call task = .outside) : (s.llRwPage task current rw dev page buffer).Kept := by
  rw [BlkState.llRwPage]
  split
  next => exact kept
  next =>
    apply kept.pageTurn
    rw [outside]
    rfl

omit [DecidableEq Task] in
/-- "block not locked" is not reached. -/
theorem Kept.doRequest {refuses : Bool} (kept : s.Kept) : (s.doRequest major refuses).Kept := by
  rw [BlkState.doRequest]
  split
  next => exact kept
  next slot isCurrent =>
    split
    next unlocked =>
      have inUse : s.InUse slot := kept.current_inUse isCurrent
      cases isBh : (s.request slot).bh with
      | none =>
          rw [isBh] at unlocked
          cases unlocked
      | some bh =>
          have isLocked : (s.buffer bh).bLock = true :=
            kept.consistent.locked slot bh ⟨inUse, isBh⟩
          rw [isBh, Option.any_some, isLocked] at unlocked
          cases unlocked
    next =>
      split
      next => exact kept.endRequest isCurrent
      next => exact kept

theorem Kept.step {action : Action Task} (kept : s.Kept) (taken : step s action = some next) :
    next.Kept := by
  cases action with
  | llRwBlock task rw bh =>
      simp only [Slots.step] at taken
      split at taken
      next outside =>
        cases taken
        exact kept.llRwBlock outside
      next => cases taken
  | llRwPage task current rw dev page buffer =>
      simp only [Slots.step] at taken
      split at taken
      next outside =>
        cases taken
        exact kept.llRwPage outside
      next => cases taken
  | turn task current =>
      simp only [Slots.step] at taken
      split at taken
      next => cases taken
      next isCall =>
        cases taken
        apply kept.lockTurn
        rw [isCall]
        rfl
      next isCall =>
        cases taken
        exact kept.findTurn isCall
      next isCall =>
        cases taken
        apply kept.pageTurn
        rw [isCall]
        rfl
  | endRequest major uptodate =>
      simp only [Slots.step] at taken
      split at taken
      next => cases taken
      next isCurrent =>
        cases taken
        exact kept.endRequest isCurrent
  | progress major errors sector nrSectors buffer =>
      simp only [Slots.step] at taken
      split at taken
      next => cases taken
      next =>
        cases taken
        exact kept.progress
  | doRequest major refuses =>
      cases taken
      exact kept.doRequest
  | elsewhere bh bDev bBlocknr bUptodate bDirt =>
      cases taken
      exact kept.setBuffer rfl

end BlkState

/-! ## Whole runs -/

theorem kept_boot (request : Slot → Request) (requestFn : Major → Bool)
    (buffer : Bh → BufferHead) : (boot request requestFn buffer : BlkState Task).Kept where
  queues := by
    refine ⟨fun _ => [], fun _ => rfl, fun _ => List.nodup_nil, nofun, fun slot => ?_⟩
    have notNonneg : ¬(0 : Int) ≤ -1 := by decide
    exact ⟨fun inUse => absurd inUse notNonneg, fun ⟨_, member⟩ => nomatch member⟩
  owners := by
    constructor
    · intro bh
      refine ⟨nofun, ?_⟩
      rintro ⟨owner, isOwner⟩
      cases owner with
      | slot slot => exact absurd isOwner.1 (by decide : ¬(0 : Int) ≤ -1)
      | task task => cases isOwner
    · intro owner other bh isOwner
      cases owner with
      | slot slot => exact absurd isOwner.1 (by decide : ¬(0 : Int) ≤ -1)
      | task task => cases isOwner
  calm := rfl

/-- The promise holds behind the step. -/
def KeepsConsistent [DecidableEq Task] (s : BlkState Task) (action : Action Task) : Prop :=
  ∀ next, step s action = some next → next.Consistent

/-- The slots, the queues and the locks agree in every state of every run, and no driver finds
its current request with an unlocked buffer. -/
theorem keepsConsistent [DecidableEq Task] (request : Slot → Request)
    (requestFn : Major → Bool) (buffer : Bh → BufferHead) (actions : List (Action Task)) :
    Lib.EveryStep step KeepsConsistent (boot request requestFn buffer) actions := by
  have meets : Lib.EveryStep step (fun _ _ => True)
      (boot request requestFn buffer : BlkState Task) actions :=
    Lib.everyStep_of_forall (fun _ _ => trivial) _ _
  exact Lib.everyStep_of_invariant BlkState.Kept
    (fun _ _ kept _ _ taken => (kept.step taken).consistent)
    (fun _ _ _ kept _ taken => kept.step taken) (kept_boot request requestFn buffer) meets

end Owners

end Linux012.BlkDrv.Slots
