import Mathlib.Data.List.FinRange
import Mathlib.Data.List.Nodup
import Mathlib.Data.Fintype.Card
import Mathlib.Algebra.Group.Nat.Defs
import Linux012.Lib.Run
import Linux012.Lib.LinkedList
import Linux012.Lib.Sizes

/-!
# Kernel timers

`add_timer` and the timer part of `do_timer` in `sched.c`.  The pending timers are
linked from `next_timer` and hold the ticks between each of them and the one before.
`add_timer` carries the new timer forward by swapping the contents of neighbours, but
the timer that it stops in front of keeps its number of ticks, and so becomes late.
-/

namespace Linux012.Kernel

open Lib (Leads)

/-- `TIME_REQUESTS`. -/
abbrev timeRequests : Nat := 64

/-- `timer_list` and `next_timer`; each field of `struct timer_list` is a function of
the slot.  The functions to call are opaque. -/
structure Timers (Fn : Type) where
  jiffies : Fin timeRequests → Int
  fn : Fin timeRequests → Option Fn
  next : Fin timeRequests → Option (Fin timeRequests)
  nextTimer : Option (Fin timeRequests)

namespace Timers

variable {Fn : Type}

/-- The timers as `sched_init` leaves them. -/
def init : Timers Fn where
  jiffies _ := 0
  fn _ := none
  next _ := none
  nextTimer := none

/-- The body of the loop of `add_timer`, which moves the contents of `p` to `q`. -/
def swap (t : Timers Fn) (p q : Fin timeRequests) : Timers Fn :=
  { t with
    jiffies := Function.update (Function.update t.jiffies p (t.jiffies q)) q
      (t.jiffies p - t.jiffies q)
    fn := Function.update (Function.update t.fn p (t.fn q)) q (t.fn p) }

/-- The loop of `add_timer`; `none` when it is still running after `fuel` rounds. -/
def sink : Nat → Timers Fn → Fin timeRequests → Option (Timers Fn)
  | 0, _, _ => none
  | fuel + 1, t, p =>
      match t.next p with
      | none => some t
      | some q =>
          if t.jiffies q < t.jiffies p then sink fuel (t.swap p q) q else some t

/-- The search of `add_timer` for a slot. -/
def freeSlot (t : Timers Fn) : Option (Fin timeRequests) :=
  (List.finRange timeRequests).find? fun p => (t.fn p).isNone

/-- The slot `p` filled and put first. -/
def fill (t : Timers Fn) (p : Fin timeRequests) (jiffies : Int) (fn : Fn) : Timers Fn where
  jiffies := Function.update t.jiffies p jiffies
  fn := Function.update t.fn p (some fn)
  next := Function.update t.next p t.nextTimer
  nextTimer := some p

/-- `add_timer`, with the function that it calls at once; `none` when it panics or does
not return. -/
def addTimer (t : Timers Fn) (jiffies : Int) (fn : Option Fn) :
    Option (Timers Fn × Option Fn) :=
  match fn with
  | none => some (t, none)
  | some fn =>
      if jiffies ≤ 0 then some (t, some fn)
      else
        match t.freeSlot with
        | none => none -- "No more time requests free"
        | some p => (sink timeRequests (t.fill p jiffies fn) p).map fun t => (t, none)

/-- `next_timer->jiffies--` in `do_timer`. -/
def countDown (t : Timers Fn) : Timers Fn :=
  match t.nextTimer with
  | none => t
  | some p => { t with jiffies := Function.update t.jiffies p (t.jiffies p - 1) }

/-- The loop condition of `do_timer`, with the timer that it is about. -/
def expired (t : Timers Fn) : Option (Fin timeRequests) :=
  t.nextTimer.filter fun p => t.jiffies p ≤ 0

/-- The loop body of `do_timer` up to the call. -/
def pop (t : Timers Fn) (p : Fin timeRequests) : Timers Fn :=
  { t with fn := Function.update t.fn p none, nextTimer := t.next p }

end Timers

/-! ## Runs -/

/-- The timers with the number of ticks so far and whether `do_timer` is in its loop.
`added` are the timers registered, each with the tick that it is meant for, and `called`
the functions called with the tick of the call. -/
structure TimerSystem (Fn : Type) where
  timers : Timers Fn
  ticks : Int
  inTick : Bool
  added : List (Int × Fn)
  called : List (Int × Fn)

/-- The called functions may add timers, so `do_timer` is taken apart. -/
inductive TimerAction (Fn : Type) where
  | addTimer (jiffies : Int) (fn : Fn)
  | enterTick
  | call
  | leaveTick

namespace TimerSystem

variable {Fn : Type}

/-- No timer was added yet. -/
def start : TimerSystem Fn where
  timers := .init
  ticks := 0
  inTick := false
  added := []
  called := []

/-- One step. -/
def step (s : TimerSystem Fn) : TimerAction Fn → Option (TimerSystem Fn)
  | .addTimer jiffies fn =>
      if 0 < jiffies then
        (s.timers.addTimer jiffies (some fn)).map fun (timers, _) =>
          { s with timers := timers, added := s.added ++ [(s.ticks + jiffies, fn)] }
      else none
  | .enterTick =>
      if s.inTick then none
      else some { s with timers := s.timers.countDown, ticks := s.ticks + 1, inTick := true }
  | .call =>
      if s.inTick then
        match s.timers.expired with
        | none => none
        | some p =>
            (s.timers.fn p).map fun fn =>
              { s with timers := s.timers.pop p, called := s.called ++ [(s.ticks, fn)] }
      else none
  | .leaveTick =>
      if s.inTick && s.timers.expired.isNone then some { s with inTick := false } else none

/-- Every registered function is called exactly once, in the tick that it is meant for. -/
structure OnTime (s : TimerSystem Fn) : Prop where
  /-- Nothing else is called, and nothing twice. -/
  neverEarly : s.called.Subperm (s.added.filter fun timer => timer.1 ≤ s.ticks)
  /-- After a tick, all that was meant for it or for an earlier one has been called. -/
  neverLate : s.inTick = false →
    s.called.Perm (s.added.filter fun timer => timer.1 ≤ s.ticks)
  /-- There is room for 64 pending timers, and `add_timer` returns. -/
  accepts : s.added.length < s.called.length + timeRequests →
    ∀ jiffies fn, s.timers.addTimer jiffies fn ≠ none

/-- A timer is added for a later tick than all timers that were added before it. -/
def AddsLast (s : TimerSystem Fn) : TimerAction Fn → Prop
  | .addTimer jiffies _ => ∀ timer ∈ s.added, timer.1 < s.ticks + jiffies
  | _ => True

instance (s : TimerSystem Fn) : (action : TimerAction Fn) → Decidable (s.AddsLast action)
  | .addTimer jiffies _ =>
      inferInstanceAs (Decidable (∀ timer ∈ s.added, timer.1 < s.ticks + jiffies))
  | .enterTick => instDecidableTrue
  | .call => instDecidableTrue
  | .leaveTick => instDecidableTrue

end TimerSystem

/-! ## The list of pending timers -/

variable {Fn : Type}

/-- What `add_timer` does to the list of pending timers. -/
def insertTimer {Content : Type} (n : Int) (x : Content) :
    List (Int × Content) → List (Int × Content)
  | [] => [(n, x)]
  | timer :: rest =>
      if timer.1 < n then timer :: insertTimer (n - timer.1) x rest
      else (n, x) :: timer :: rest

/-- The contents of slots. -/
def Timers.contents (t : Timers Fn) (slots : List (Fin timeRequests)) :
    List (Int × Option Fn) :=
  slots.map fun p => (t.jiffies p, t.fn p)

/-- The slots in use are linked from `next_timer`, and hold the timers of `pending`. -/
structure Timers.Holds (t : Timers Fn) (slots : List (Fin timeRequests))
    (pending : List (Int × Fn)) : Prop where
  nodup : slots.Nodup
  leads : Leads t.next t.nextTimer slots
  inUse : ∀ p, t.fn p = none ↔ p ∉ slots
  contents : t.contents slots = pending.map fun timer => (timer.1, some timer.2)

theorem Timers.contents_congr {t t' : Timers Fn} {slots : List (Fin timeRequests)}
    (same : ∀ p ∈ slots, t'.jiffies p = t.jiffies p ∧ t'.fn p = t.fn p) :
    t'.contents slots = t.contents slots := by
  apply List.map_congr_left
  intro p member
  rw [(same p member).1, (same p member).2]

theorem Timers.Holds.length_eq {t : Timers Fn} {slots : List (Fin timeRequests)}
    {pending : List (Int × Fn)} (holds : t.Holds slots pending) :
    slots.length = pending.length := by
  have lengths := congrArg List.length holds.contents
  rwa [Timers.contents, List.length_map, List.length_map] at lengths

theorem length_insertTimer {Content : Type} (n : Int) (x : Content)
    (pending : List (Int × Content)) :
    (insertTimer n x pending).length = pending.length + 1 := by
  induction pending generalizing n with
  | nil => rfl
  | cons timer rest ih =>
      rw [insertTimer]
      split
      · rw [List.length_cons, ih, List.length_cons]
      · rfl

theorem map_insertTimer {Content Other : Type} (f : Content → Other) (n : Int) (x : Content)
    (pending : List (Int × Content)) :
    insertTimer n (f x) (pending.map fun timer => (timer.1, f timer.2)) =
      (insertTimer n x pending).map fun timer => (timer.1, f timer.2) := by
  induction pending generalizing n with
  | nil => rfl
  | cons timer rest ih =>
      rw [List.map_cons, insertTimer, insertTimer]
      split
      · rw [List.map_cons, ih]
      · rfl

/-- The loop of `add_timer` is an insertion. -/
theorem Timers.sink_eq_some {t : Timers Fn} {p : Fin timeRequests}
    {behind : List (Fin timeRequests)} (nodup : (p :: behind).Nodup)
    (leads : Leads t.next (t.next p) behind) {fuel : Nat} (enough : behind.length < fuel) :
    ∃ t', sink fuel t p = some t' ∧ t'.next = t.next ∧ t'.nextTimer = t.nextTimer ∧
      t'.contents (p :: behind) = insertTimer (t.jiffies p) (t.fn p) (t.contents behind) ∧
      ∀ q ∉ p :: behind, t'.jiffies q = t.jiffies q ∧ t'.fn q = t.fn q := by
  induction behind generalizing t p fuel with
  | nil =>
      cases fuel with
      | zero => omega
      | succ fuel =>
          have isLast : t.next p = none := leads
          refine ⟨t, ?_, rfl, rfl, rfl, fun q _ => ⟨rfl, rfl⟩⟩
          rw [sink, isLast]
  | cons q behind ih =>
      cases fuel with
      | zero => omega
      | succ fuel =>
          obtain ⟨follows, leads⟩ := leads
          obtain ⟨absent, nodup⟩ := List.nodup_cons.mp nodup
          have differs : q ≠ p := fun same => absent (same ▸ List.mem_cons_self)
          by_cases later : t.jiffies q < t.jiffies p
          · have shorter : behind.length < fuel := by simpa using enough
            obtain ⟨t', ran, sameNext, sameHead, inserted, others⟩ :=
              ih (t := t.swap p q) nodup leads shorter
            refine ⟨t', ?_, sameNext, sameHead, ?_, ?_⟩
            · rw [sink, follows]
              exact (if_pos later).trans ran
            · have kept : (t.swap p q).contents behind = t.contents behind := by
                apply contents_congr
                intro r member
                have notQ : r ≠ q := fun same => (List.nodup_cons.mp nodup).1 (same ▸ member)
                have notP : r ≠ p :=
                  fun same => absent (same ▸ List.mem_cons_of_mem q member)
                simp [swap, notQ, notP]
              have atP := others p absent
              simp only [swap, Function.update_self, Function.update_of_ne differs.symm] at atP
              simp only [swap, Function.update_self] at inserted
              change (t'.jiffies p, t'.fn p) :: t'.contents (q :: behind) =
                insertTimer (t.jiffies p) (t.fn p)
                  ((t.jiffies q, t.fn q) :: t.contents behind)
              rw [insertTimer, if_pos later, atP.1, atP.2, inserted]
              exact congrArg _ (congrArg _ kept)
            · intro r outside
              have notP : r ≠ p := fun same => outside (same ▸ List.mem_cons_self)
              have elsewhere : r ∉ q :: behind :=
                fun member => outside (List.mem_cons_of_mem p member)
              have notQ : r ≠ q := fun same => elsewhere (same ▸ List.mem_cons_self)
              obtain ⟨sameJiffies, sameFn⟩ := others r elsewhere
              simp only [swap, Function.update_of_ne notQ, Function.update_of_ne notP]
                at sameJiffies sameFn
              exact ⟨sameJiffies, sameFn⟩
          · refine ⟨t, ?_, rfl, rfl, ?_, fun r _ => ⟨rfl, rfl⟩⟩
            · rw [sink, follows]
              exact if_neg later
            · change _ = insertTimer _ _ ((t.jiffies q, t.fn q) :: t.contents behind)
              rw [insertTimer, if_neg later]
              rfl

namespace Timers.Holds

variable {t : Timers Fn} {slots : List (Fin timeRequests)} {pending : List (Int × Fn)}

/-- A slot is free unless all are in use. -/
theorem exists_freeSlot (holds : t.Holds slots pending)
    (room : pending.length < timeRequests) : ∃ p, t.freeSlot = some p := by
  cases found : t.freeSlot with
  | some p => exact ⟨p, rfl⟩
  | none =>
      rw [freeSlot, List.find?_eq_none] at found
      have all : ∀ p, p ∈ slots := by
        intro p
        by_contra outside
        have free := (holds.inUse p).mpr outside
        have busy := found p (List.mem_finRange p)
        rw [free] at busy
        exact busy rfl
      have full : (List.finRange timeRequests).length ≤ slots.length :=
        (List.nodup_finRange timeRequests).subperm (fun p _ => all p) |>.length_le
      rw [List.length_finRange, holds.length_eq] at full
      omega

/-- `add_timer` inserts into the list, and returns if there is a free slot. -/
theorem addTimer (holds : t.Holds slots pending) {n : Int} (positive : 0 < n) (fn : Fn)
    {p : Fin timeRequests} (free : t.freeSlot = some p) :
    ∃ t', t.addTimer n (some fn) = some (t', none) ∧
      t'.Holds (p :: slots) (insertTimer n fn pending) := by
  have unused : t.fn p = none := by
    have found := List.find?_some free
    rwa [Option.isNone_iff_eq_none] at found
  have absent : p ∉ slots := (holds.inUse p).mp unused
  have nodup : (p :: slots).Nodup := List.nodup_cons.mpr ⟨absent, holds.nodup⟩
  have other (q : Fin timeRequests) (member : q ∈ slots) : q ≠ p :=
    fun same => absent (same ▸ member)
  have leads : Leads (t.fill p n fn).next (some p) (p :: slots) := by
    refine ⟨rfl, ?_⟩
    simp only [fill, Function.update_self]
    exact holds.leads.congr fun q member => Function.update_of_ne (other q member) _ _
  have kept : (t.fill p n fn).contents slots = t.contents slots := by
    apply contents_congr
    intro q member
    simp [fill, other q member]
  have short : slots.length < timeRequests := by
    have all := List.Nodup.length_le_card nodup
    rw [Fintype.card_fin, List.length_cons] at all
    omega
  obtain ⟨t', ran, sameNext, sameHead, inserted, others⟩ :=
    sink_eq_some (t := t.fill p n fn) nodup leads.2 short
  have filled : t'.contents (p :: slots) =
      (insertTimer n fn pending).map fun timer => (timer.1, some timer.2) := by
    rw [inserted, kept, holds.contents]
    simp only [fill, Function.update_self]
    exact map_insertTimer some n fn pending
  refine ⟨t', ?_, ⟨nodup, ?_, ?_, filled⟩⟩
  · simp only [Timers.addTimer, if_neg (Int.not_le.mpr positive), free]
    rw [ran]
    rfl
  · rw [sameNext, sameHead]
    exact leads
  · intro q
    constructor
    · intro empty member
      have content : (t'.jiffies q, t'.fn q) ∈ t'.contents (p :: slots) :=
        List.mem_map_of_mem member
      rw [filled] at content
      obtain ⟨timer, -, same⟩ := List.mem_map.mp content
      rw [empty] at same
      exact Option.some_ne_none timer.2 (congrArg Prod.snd same)
    · intro outside
      have notP : q ≠ p := fun same => outside (same ▸ List.mem_cons_self)
      rw [(others q outside).2]
      simp only [fill, Function.update_of_ne notP]
      exact (holds.inUse q).mpr fun member => outside (List.mem_cons_of_mem p member)

/-- A tick counts for the first timer, and so for all. -/
theorem countDown_cons {n : Int} {fn : Fn} (holds : t.Holds slots ((n, fn) :: pending)) :
    t.countDown.Holds slots ((n - 1, fn) :: pending) := by
  cases slots with
  | nil => exact absurd holds.length_eq (by simp)
  | cons p slots =>
      obtain ⟨first, -⟩ := holds.leads
      have contents := holds.contents
      simp only [Timers.contents, List.map_cons, List.cons.injEq, Prod.mk.injEq] at contents
      have counted : t.countDown =
          { t with jiffies := Function.update t.jiffies p (t.jiffies p - 1) } := by
        rw [countDown, first]
      rw [counted]
      refine ⟨holds.nodup, holds.leads, holds.inUse, ?_⟩
      simp only [Timers.contents, List.map_cons, List.cons.injEq, Prod.mk.injEq,
        Function.update_self]
      refine ⟨⟨by rw [contents.1.1], contents.1.2⟩, ?_⟩
      rw [← contents.2]
      apply List.map_congr_left
      intro q member
      have notP : q ≠ p := fun same => (List.nodup_cons.mp holds.nodup).1 (same ▸ member)
      rw [Function.update_of_ne notP]

theorem countDown_nil (holds : t.Holds slots []) : t.countDown.Holds slots [] := by
  cases slots with
  | cons p slots => exact absurd holds.length_eq (by simp)
  | nil =>
      have idle : t.countDown = t := by
        rw [countDown, show t.nextTimer = none from holds.leads]
      rwa [idle]

/-- The first timer is the one that `do_timer` looks at. -/
theorem expired_eq_some {p : Fin timeRequests} (holds : t.Holds slots pending)
    (expired : t.expired = some p) :
    ∃ n fn rest behind, pending = (n, fn) :: rest ∧ slots = p :: behind ∧ n ≤ 0 ∧
      t.fn p = some fn ∧ (t.pop p).Holds behind rest := by
  rw [Timers.expired, Option.filter_eq_some_iff, decide_eq_true_eq] at expired
  obtain ⟨first, elapsed⟩ := expired
  cases slots with
  | nil =>
      rw [show t.nextTimer = none from holds.leads] at first
      cases first
  | cons q behind =>
      cases pending with
      | nil => exact absurd holds.length_eq (by simp)
      | cons timer rest =>
          obtain ⟨head, leads⟩ := holds.leads
          have same : q = p := Option.some.inj (head.symm.trans first)
          subst same
          obtain ⟨absent, nodup⟩ := List.nodup_cons.mp holds.nodup
          have contents := holds.contents
          simp only [Timers.contents, List.map_cons, List.cons.injEq, Prod.mk.injEq] at contents
          refine ⟨timer.1, timer.2, rest, behind, rfl, rfl, ?_, contents.1.2, nodup, leads, ?_, ?_⟩
          · rw [← contents.1.1]
            exact elapsed
          · intro r
            by_cases atQ : r = q
            · subst atQ
              simp [pop, absent]
            · have inUse := holds.inUse r
              simpa [pop, atQ] using inUse
          · rw [← contents.2]
            apply List.map_congr_left
            intro r member
            have notQ : r ≠ q := fun same => absent (same ▸ member)
            simp [pop, notQ]

theorem expired_eq_none (holds : t.Holds slots pending) (waits : t.expired = none) :
    ∀ timer ∈ pending.head?, 0 < timer.1 := by
  intro timer isFirst
  obtain ⟨rest, rfl⟩ := List.head?_eq_some_iff.mp isFirst
  cases slots with
  | nil => exact absurd holds.length_eq (by simp)
  | cons p behind =>
      have contents := holds.contents
      simp only [Timers.contents, List.map_cons, List.cons.injEq, Prod.mk.injEq] at contents
      rw [Timers.expired, holds.leads.1, Option.filter_eq_none_iff] at waits
      have later := waits p rfl
      rw [decide_eq_true_eq, contents.1.1] at later
      exact Int.not_le.mp later

end Timers.Holds

/-! ## Timers added last -/

/-- The ticks that pending timers are meant for, `base` being the current one. -/
def dues {Content : Type} (base : Int) : List (Int × Content) → List (Int × Content)
  | [] => []
  | timer :: rest => (base + timer.1, timer.2) :: dues (base + timer.1) rest

section Insertion

variable {Content : Type} {base n : Int} {x : Content} {pending : List (Int × Content)}

@[simp] theorem length_dues : (dues base pending).length = pending.length := by
  induction pending generalizing base with
  | nil => rfl
  | cons timer rest ih => rw [dues, List.length_cons, ih, List.length_cons]

/-- A timer for a later tick than all others is inserted at the end. -/
theorem dues_insertTimer (last : ∀ timer ∈ dues base pending, timer.1 < base + n) :
    dues base (insertTimer n x pending) = dues base pending ++ [(base + n, x)] := by
  induction pending generalizing base n with
  | nil => rfl
  | cons timer rest ih =>
      have behind : timer.1 < n := by
        have first := last _ List.mem_cons_self
        simpa using first
      have total : base + timer.1 + (n - timer.1) = base + n := by omega
      rw [insertTimer, if_pos behind, dues, dues, ih, total, List.cons_append]
      intro other member
      rw [total]
      exact last other (List.mem_cons_of_mem _ member)

theorem insertTimer_nonneg (positive : 0 < n) (nonneg : ∀ timer ∈ pending, 0 ≤ timer.1) :
    ∀ timer ∈ insertTimer n x pending, 0 ≤ timer.1 := by
  induction pending generalizing n with
  | nil => simpa [insertTimer] using positive.le
  | cons first rest ih =>
      obtain ⟨firstNonneg, restNonneg⟩ := List.forall_mem_cons.mp nonneg
      rw [insertTimer]
      split
      · rename_i behind
        exact List.forall_mem_cons.mpr ⟨firstNonneg, ih (Int.sub_pos_of_lt behind) restNonneg⟩
      · exact List.forall_mem_cons.mpr ⟨positive.le, nonneg⟩

theorem insertTimer_head_pos (positive : 0 < n) (waits : ∀ timer ∈ pending.head?, 0 < timer.1) :
    ∀ timer ∈ (insertTimer n x pending).head?, 0 < timer.1 := by
  cases pending with
  | nil => simpa [insertTimer] using positive
  | cons first rest =>
      have firstPos := waits first rfl
      rw [insertTimer]
      split
      · simpa using firstPos
      · simpa using positive

theorem le_of_mem_dues (nonneg : ∀ timer ∈ pending, 0 ≤ timer.1) :
    ∀ timer ∈ dues base pending, base ≤ timer.1 := by
  induction pending generalizing base with
  | nil => simp [dues]
  | cons first rest ih =>
      obtain ⟨firstNonneg, restNonneg⟩ := List.forall_mem_cons.mp nonneg
      rw [dues, List.forall_mem_cons]
      refine ⟨by simpa using firstNonneg, fun timer member => ?_⟩
      have behind := ih restNonneg timer member
      omega

theorem lt_of_mem_dues (base : Int) (nonneg : ∀ timer ∈ pending, 0 ≤ timer.1)
    (waits : ∀ timer ∈ pending.head?, 0 < timer.1) :
    ∀ timer ∈ dues base pending, base < timer.1 := by
  cases pending with
  | nil => simp [dues]
  | cons first rest =>
      have firstPos := waits first rfl
      rw [dues, List.forall_mem_cons]
      refine ⟨by simpa using firstPos, fun timer member => ?_⟩
      have behind := le_of_mem_dues (List.forall_mem_cons.mp nonneg).2 timer member
      omega

end Insertion

namespace TimerSystem

/-- The timers that wait, in their order. -/
structure Waiting (s : TimerSystem Fn) (slots : List (Fin timeRequests))
    (pending : List (Int × Fn)) : Prop where
  holds : s.timers.Holds slots pending
  nonneg : ∀ timer ∈ pending, 0 ≤ timer.1
  waits : s.inTick = false → ∀ timer ∈ pending.head?, 0 < timer.1
  accounted : s.added.Perm (s.called ++ dues s.ticks pending)
  past : ∀ call ∈ s.called, call.1 ≤ s.ticks

/-- The invariant of the runs that add timers last. -/
def Inv (s : TimerSystem Fn) : Prop := ∃ slots pending, s.Waiting slots pending

theorem inv_start : (start : TimerSystem Fn).Inv := by
  refine ⟨[], [], ⟨⟨List.nodup_nil, rfl, ?_, rfl⟩, ?_, ?_, .refl _, ?_⟩⟩
  · intro p
    simp [start, Timers.init]
  · simp
  · simp
  · simp [start]

/-- What is due by the current tick has been called, or waits with no ticks left. -/
theorem Waiting.due {s : TimerSystem Fn} {slots : List (Fin timeRequests)}
    {pending : List (Int × Fn)} (waiting : s.Waiting slots pending) :
    (s.added.filter fun timer => timer.1 ≤ s.ticks).Perm
      (s.called ++ (dues s.ticks pending).filter fun timer => timer.1 ≤ s.ticks) := by
  have split := waiting.accounted.filter fun timer => decide (timer.1 ≤ s.ticks)
  rw [List.filter_append] at split
  have all : s.called.filter (fun timer => timer.1 ≤ s.ticks) = s.called := by
    rw [List.filter_eq_self]
    intro call member
    exact decide_eq_true (waiting.past call member)
  rwa [all] at split

theorem Inv.onTime {s : TimerSystem Fn} (inv : s.Inv) : s.OnTime := by
  obtain ⟨slots, pending, waiting⟩ := inv
  constructor
  · exact (List.sublist_append_left s.called _).subperm.trans waiting.due.symm.subperm
  · intro outside
    have later := lt_of_mem_dues s.ticks waiting.nonneg (waiting.waits outside)
    have nothing : (dues s.ticks pending).filter (fun timer => timer.1 ≤ s.ticks) = [] := by
      rw [List.filter_eq_nil_iff]
      intro timer member due
      have notYet := later timer member
      rw [decide_eq_true_eq] at due
      omega
    have due := waiting.due
    rw [nothing, List.append_nil] at due
    exact due.symm
  · intro room jiffies fn
    have lengths := waiting.accounted.length_eq
    rw [List.length_append, length_dues] at lengths
    obtain ⟨p, free⟩ := waiting.holds.exists_freeSlot (by omega)
    cases fn with
    | none => simp [Timers.addTimer]
    | some fn =>
        by_cases positive : 0 < jiffies
        · obtain ⟨t', added, -⟩ := waiting.holds.addTimer positive fn free
          simp [added]
        · simp [Timers.addTimer, Int.not_lt.mp positive]

/-- `add_timer` for a later tick than all others. -/
theorem Waiting.addTimer {s next : TimerSystem Fn} {slots : List (Fin timeRequests)}
    {pending : List (Int × Fn)} (waiting : s.Waiting slots pending) {jiffies : Int} {fn : Fn}
    (last : ∀ timer ∈ s.added, timer.1 < s.ticks + jiffies)
    (taken : s.step (.addTimer jiffies fn) = some next) : next.Inv := by
  simp only [step] at taken
  split at taken
  case isFalse => cases taken
  rename_i positive
  cases free : s.timers.freeSlot with
  | none => simp [Timers.addTimer, Int.not_le.mpr positive, free] at taken
  | some p =>
      obtain ⟨t', added, holds⟩ := waiting.holds.addTimer positive fn free
      rw [added, Option.map_some, Option.some.injEq] at taken
      subst taken
      have inOrder : dues s.ticks (insertTimer jiffies fn pending) =
          dues s.ticks pending ++ [(s.ticks + jiffies, fn)] := by
        apply dues_insertTimer
        intro timer member
        exact last timer (waiting.accounted.mem_iff.mpr (List.mem_append_right _ member))
      refine ⟨_, _, holds, insertTimer_nonneg positive waiting.nonneg, ?_, ?_, waiting.past⟩
      · intro outside
        exact insertTimer_head_pos positive (waiting.waits outside)
      · change (s.added ++ _).Perm (s.called ++ dues s.ticks (insertTimer jiffies fn pending))
        rw [inOrder, ← List.append_assoc]
        exact waiting.accounted.append_right _

/-- The count down at the start of a tick. -/
theorem Waiting.enterTick {s next : TimerSystem Fn} {slots : List (Fin timeRequests)}
    {pending : List (Int × Fn)} (waiting : s.Waiting slots pending)
    (taken : s.step .enterTick = some next) : next.Inv := by
  simp only [step] at taken
  split at taken
  case isTrue => cases taken
  rename_i outside
  cases taken
  have past : ∀ call ∈ s.called, call.1 ≤ s.ticks + 1 := by
    intro call member
    exact (waiting.past call member).trans (Int.le_add_of_nonneg_right (by decide))
  cases pending with
  | nil =>
      exact ⟨slots, [], waiting.holds.countDown_nil, waiting.nonneg, nofun, waiting.accounted, past⟩
  | cons timer rest =>
      have positive := waiting.waits (Bool.not_eq_true _ ▸ outside) timer rfl
      refine ⟨slots, (timer.1 - 1, timer.2) :: rest, waiting.holds.countDown_cons, ?_, nofun, ?_,
        past⟩
      · exact List.forall_mem_cons.mpr
          ⟨Int.le_sub_one_of_lt positive, (List.forall_mem_cons.mp waiting.nonneg).2⟩
      · have sameDue : s.ticks + 1 + (timer.1 - 1) = s.ticks + timer.1 := by omega
        change s.added.Perm (s.called ++ dues (s.ticks + 1) ((timer.1 - 1, timer.2) :: rest))
        rw [dues, sameDue]
        exact waiting.accounted

/-- The call of the first timer, which has no ticks left. -/
theorem Waiting.call {s next : TimerSystem Fn} {slots : List (Fin timeRequests)}
    {pending : List (Int × Fn)} (waiting : s.Waiting slots pending)
    (taken : s.step .call = some next) : next.Inv := by
  simp only [step] at taken
  split at taken
  case isFalse => cases taken
  rename_i inside
  cases expired : s.timers.expired with
  | none => simp [expired] at taken
  | some p =>
      obtain ⟨n, fn, rest, behind, rfl, rfl, elapsed, content, holds⟩ :=
        waiting.holds.expired_eq_some expired
      rw [expired] at taken
      simp only [content, Option.map_some, Option.some.injEq] at taken
      subst taken
      obtain ⟨nonneg, restNonneg⟩ := List.forall_mem_cons.mp waiting.nonneg
      have noneLeft : n = 0 := le_antisymm elapsed nonneg
      subst noneLeft
      refine ⟨behind, rest, holds, restNonneg, ?_, ?_, ?_⟩
      · intro outside
        rw [inside] at outside
        cases outside
      · change s.added.Perm ((s.called ++ [(s.ticks, fn)]) ++ dues s.ticks rest)
        have accounted := waiting.accounted
        rw [dues, Int.add_zero] at accounted
        rwa [List.append_assoc, List.singleton_append]
      · intro call member
        rcases List.mem_append.mp member with old | new
        · exact waiting.past call old
        · rw [List.mem_singleton.mp new]

/-- The end of a tick: no timer is left that has no ticks left. -/
theorem Waiting.leaveTick {s next : TimerSystem Fn} {slots : List (Fin timeRequests)}
    {pending : List (Int × Fn)} (waiting : s.Waiting slots pending)
    (taken : s.step .leaveTick = some next) : next.Inv := by
  simp only [step] at taken
  split at taken
  case isFalse => cases taken
  rename_i done
  rw [Bool.and_eq_true, Option.isNone_iff_eq_none] at done
  cases taken
  exact ⟨slots, pending, waiting.holds, waiting.nonneg,
    fun _ => waiting.holds.expired_eq_none done.2, waiting.accounted, waiting.past⟩

theorem Inv.step {s next : TimerSystem Fn} {action : TimerAction Fn} (inv : s.Inv)
    (allowed : s.AddsLast action) (taken : s.step action = some next) : next.Inv := by
  obtain ⟨slots, pending, waiting⟩ := inv
  cases action with
  | addTimer jiffies fn => exact waiting.addTimer allowed taken
  | enterTick => exact waiting.enterTick taken
  | call => exact waiting.call taken
  | leaveTick => exact waiting.leaveTick taken

/-- Timers that are each added for a later tick than all before are called on time. -/
theorem onTime_of_addsLast {final : TimerSystem Fn}
    (reached : Lib.ReachedBy step AddsLast start final) : final.OnTime :=
  (reached.invariant Inv (fun _ _ _ inv allowed taken => inv.step allowed taken) inv_start).onTime

/-- A timer that is added for a later tick than the one before it. -/
def inOrderRun : List (TimerAction Bool) :=
  [.addTimer 1 false, .addTimer 2 true, .enterTick, .call, .leaveTick]

theorem onTime_of_addsLast_inOrder : ∃ final : TimerSystem Bool,
    Lib.exec step start inOrderRun = some final ∧ final.called = [(1, false)] ∧
      final.OnTime := by
  refine ⟨_, rfl, rfl, onTime_of_addsLast ⟨inOrderRun, rfl, ?_⟩⟩
  exact Lib.everyStep_of_checkSteps (fun s action => decide (s.AddsLast action))
    (fun _ _ => of_decide_eq_true) (by decide)

/-- A timer that is added in front of another: after the tick that it fires in, the
other one still has all its ticks to wait. -/
def overtakingRun : List (TimerAction Bool) :=
  [.addTimer 2 false, .addTimer 1 true, .enterTick, .call, .leaveTick, .enterTick, .leaveTick]

theorem overtaken_timer_late : ¬ ∀ (actions : List (TimerAction Bool)) (final : TimerSystem Bool),
    Lib.exec step start actions = some final → final.OnTime := by
  intro onTime
  have late := (onTime overtakingRun _ rfl).neverLate rfl
  exact absurd late (by decide)

end TimerSystem

end Linux012.Kernel
