import Linux012.Kernel.Kill
import Linux012.Kernel.ProcessTree

/-!
# Orphaned process groups

`is_orphaned_pgrp`, `has_stopped_jobs` and `do_exit` of `exit.c`, from the zombie on up to
`if (current->leader)`.  A call keeps a record of the slots whose `task_struct` it has read
and of the signals that it has sent.
-/

namespace Linux012.Kernel

open Lib (Leads Chained store)
open Signal (sigChld sigCont)

abbrev sigHup : UInt32 := 1

/-- The process tree with what `do_exit` reads and writes in a `task_struct`. -/
structure GroupTree extends ProcessTree where
  pid : Page → Int
  pgrp : Page → Int
  session : Page → Int
  exitCode : Page → UInt32
  signal : Page → UInt32
  saHandler : Page → UInt32 → UInt32

/-- What the null pointer of an empty slot reads as `pgrp` and as `state`. -/
structure NullMember where
  pgrp : Int
  state : TaskState
  deriving DecidableEq, Repr

/-- The slots from `LAST_TASK` down to the one above `FIRST_TASK`. -/
def scan : List (Fin nrTasks) := ((List.finRange nrTasks).filter (· ≠ 0)).reverse

namespace GroupTree

/-! ## The scans -/

/-- The parent of the task is not the task with pid 1, and is in another group of the
session.  Every task that is scanned has a parent. -/
def Outside (t : GroupTree) (pgrp : Int) (p : Page) : Prop :=
  match t.pPptr p with
  | none => False
  | some parent =>
      t.pid parent ≠ 1 ∧ t.pgrp parent ≠ pgrp ∧ t.session parent = t.session p

instance (t : GroupTree) (pgrp : Int) (p : Page) : Decidable (t.Outside pgrp p) := by
  unfold Outside
  split <;> infer_instance

/-- The loop of `is_orphaned_pgrp`, with the slots that it has read. -/
def isOrphanedFrom (t : GroupTree) (pgrp : Int) : List (Fin nrTasks) → Bool × List (Fin nrTasks)
  | [] => (true, [])
  | i :: slots =>
      match t.task i with
      | none => t.isOrphanedFrom pgrp slots
      | some p =>
          if t.pgrp p = pgrp ∧ t.state p ≠ .zombie ∧ t.Outside pgrp p then (false, [i])
          else
            let (orphaned, read) := t.isOrphanedFrom pgrp slots
            (orphaned, i :: read)

/-- `is_orphaned_pgrp`. -/
def isOrphanedPgrp (t : GroupTree) (pgrp : Int) : Bool × List (Fin nrTasks) :=
  t.isOrphanedFrom pgrp scan

/-- `(*p)->pgrp` and `(*p)->state`. -/
def look (t : GroupTree) (null : NullMember) (i : Fin nrTasks) : NullMember :=
  match t.task i with
  | none => null
  | some p => ⟨t.pgrp p, t.state p⟩

/-- The loop of `has_stopped_jobs`. -/
def hasStoppedFrom (t : GroupTree) (null : NullMember) (pgrp : Int) :
    List (Fin nrTasks) → Bool × List (Fin nrTasks)
  | [] => (false, [])
  | i :: slots =>
      if (t.look null i).pgrp = pgrp ∧ (t.look null i).state = .stopped then (true, [i])
      else
        let (stopped, read) := t.hasStoppedFrom null pgrp slots
        (stopped, i :: read)

/-- `has_stopped_jobs`. -/
def hasStoppedJobs (t : GroupTree) (null : NullMember) (pgrp : Int) : Bool × List (Fin nrTasks) :=
  t.hasStoppedFrom null pgrp scan

end GroupTree

/-- `do_exit` at work. -/
structure Exiting where
  tree : GroupTree
  sent : List (Page × UInt32)
  read : List (Fin nrTasks)

namespace Exiting

/-! ## Signals -/

/-- `send_sig (sig, p, 1)`, to a task. -/
def sendSig (x : Exiting) (sig : UInt32) (p : Page) : Exiting :=
  let t := x.tree
  let job := Kill.deliver sig (Kill.restart sig
    ⟨t.pid p, t.pgrp p, 0, t.state p, t.exitCode p, t.signal p, t.saHandler p⟩)
  { x with
    tree := { t with
      state := Function.update t.state p job.state
      exitCode := Function.update t.exitCode p job.exitCode
      signal := Function.update t.signal p job.signal }
    sent := x.sent ++ [(p, sig)] }

/-- One slot of `kill_pg`; a null pointer is not sent a signal. -/
def killSlot (pgrp : Int) (sig : UInt32) (x : Exiting) (i : Fin nrTasks) : Exiting :=
  let looked := { x with read := i :: x.read }
  match x.tree.task i with
  | none => looked
  | some p => if x.tree.pgrp p = pgrp then looked.sendSig sig p else looked

/-- `kill_pg (pgrp, sig, 1)`, whose value `do_exit` does not use. -/
def killPg (x : Exiting) (pgrp : Int) (sig : UInt32) : Exiting :=
  if sig.toInt32 < 1 ∨ sig.toInt32 > 32 ∨ pgrp ≤ 0 then x
  else scan.foldl (killSlot pgrp sig) x

/-- `current->p_pptr->signal |= (1<<(SIGCHLD-1))`. -/
def tellChild (x : Exiting) (p : Page) : Exiting :=
  { x with tree := { x.tree with
      signal := Function.update x.tree.signal p (x.tree.signal p ||| sigBit sigChld) } }

/-! ## `do_exit` -/

section Exit

variable (null : NullMember)

/-- `if (is_orphaned_pgrp (pgrp) && has_stopped_jobs (pgrp))`, and the two signals. -/
def orphanCheck (x : Exiting) (pgrp : Int) : Exiting :=
  let (orphaned, read) := x.tree.isOrphanedPgrp pgrp
  let x := { x with read := read ++ x.read }
  if orphaned then
    let (stopped, read) := x.tree.hasStoppedJobs null pgrp
    let x := { x with read := read ++ x.read }
    if stopped then (x.killPg pgrp sigHup).killPg pgrp sigCont else x
  else x

/-- Case i, and the signal to the father. -/
def checkOwn (x : Exiting) (current father : Page) : Exiting :=
  let t := x.tree
  let x :=
    if t.pgrp father ≠ t.pgrp current ∧ t.session father = t.session current then
      x.orphanCheck null (t.pgrp current)
    else x
  x.tellChild father

/-- One child: init inherits it, and case ii. -/
def checkChild (x : Exiting) (current init p : Page) : Exiting :=
  let x := { x with tree := { x.tree with pPptr := store x.tree.pPptr (some p) (some init) } }
  let x := if x.tree.state p = .zombie then x.tellChild init else x
  let t := x.tree
  if t.pgrp p ≠ t.pgrp current ∧ t.session p = t.session current then
    x.orphanCheck null (t.pgrp p)
  else x

/-- The loop over the children from `p` on, with the last of them. -/
def checkFrom (current init : Page) : (fuel : Nat) → Exiting → Page → Option (Exiting × Page)
  | 0, _, _ => none
  | fuel + 1, x, p =>
      let x := x.checkChild null current init p
      match x.tree.pOsptr p with
      | some p => checkFrom current init fuel x p
      | none => some (x, p)

/-- "link everything into init's children". -/
def linkToInit (x : Exiting) (current p : Page) : Option Exiting :=
  (x.tree.toProcessTree.linkToInit current p).map fun tree =>
    { x with tree := { x.tree with toProcessTree := tree } }

/-- `do_exit` from `current->state = TASK_ZOMBIE` on; `none` where a null pointer to the
father or to init is followed. -/
def doExit (t : GroupTree) (current : Page) : Option Exiting :=
  let t := { t with state := Function.update t.state current .zombie }
  match t.pPptr current, t.task 1 with
  | some father, some init =>
      let x := checkOwn null ⟨t, [], []⟩ current father
      match x.tree.pCptr current with
      | none => some x
      | some p =>
          (checkFrom null current init nrTasks x p).bind fun (x, p) => x.linkToInit current p
  | _, _ => none

end Exit

end Exiting

/-! ## What the scans find -/

theorem mem_scan {i : Fin nrTasks} : i ∈ scan ↔ i ≠ 0 := by
  simp [scan]

theorem scan_nodup : scan.Nodup :=
  List.nodup_reverse.mpr ((List.nodup_finRange nrTasks).filter _)

/-- The scans go down. -/
theorem scan_descending : scan.Pairwise (· > ·) :=
  List.pairwise_reverse.mpr (List.Pairwise.filter _ (List.pairwise_lt_finRange nrTasks))

namespace GroupTree

variable {t : GroupTree} {null : NullMember} {pgrp : Int} {slots : List (Fin nrTasks)}
variable {i : Fin nrTasks} {p : Page}

/-- A live member of the group with a parent outside. -/
def Connects (t : GroupTree) (pgrp : Int) (p : Page) : Prop :=
  t.pgrp p = pgrp ∧ t.state p ≠ .zombie ∧ t.Outside pgrp p

instance (t : GroupTree) (pgrp : Int) (p : Page) : Decidable (t.Connects pgrp p) :=
  inferInstanceAs (Decidable (_ ∧ _ ∧ _))

/-- No member in a slot that is scanned connects the group. -/
def Orphaned (t : GroupTree) (pgrp : Int) : Prop :=
  ∀ i p, i ≠ 0 → t.task i = some p → ¬t.Connects pgrp p

theorem isOrphanedFrom_iff : (t.isOrphanedFrom pgrp slots).1 = true ↔
    ∀ i ∈ slots, ∀ p, t.task i = some p → ¬t.Connects pgrp p := by
  induction slots with
  | nil => simp [isOrphanedFrom]
  | cons i slots ih =>
      rw [List.forall_mem_cons, ← ih, isOrphanedFrom]
      cases slot : t.task i with
      | none => simp
      | some q =>
          by_cases connects : t.Connects pgrp q
          · have outside : t.pgrp q = pgrp ∧ t.state q ≠ .zombie ∧ t.Outside pgrp q := connects
            simp [outside, connects]
          · have inside : ¬(t.pgrp q = pgrp ∧ t.state q ≠ .zombie ∧ t.Outside pgrp q) := connects
            simp [inside, connects]

/-- `is_orphaned_pgrp` passes over empty slots. -/
theorem isOrphanedFrom_read (member : i ∈ (t.isOrphanedFrom pgrp slots).2) :
    (t.task i).isSome = true := by
  induction slots with
  | nil => cases member
  | cons j slots ih =>
      rw [isOrphanedFrom] at member
      cases slot : t.task j with
      | none =>
          rw [slot] at member
          exact ih member
      | some q =>
          rw [slot] at member
          dsimp only at member
          split at member
          · rw [List.mem_singleton.mp member, slot]
            rfl
          · rcases List.mem_cons.mp member with rfl | member
            · rw [slot]
              rfl
            · exact ih member

theorem isOrphanedPgrp_iff : (t.isOrphanedPgrp pgrp).1 = true ↔ t.Orphaned pgrp := by
  rw [isOrphanedPgrp, isOrphanedFrom_iff]
  simp only [mem_scan, Orphaned]
  exact ⟨fun all i p notFirst => all i notFirst p, fun all i notFirst p => all i p notFirst⟩

/-- A stopped member. -/
def StoppedAt (t : GroupTree) (pgrp : Int) (i : Fin nrTasks) : Prop :=
  ∃ p, t.task i = some p ∧ t.pgrp p = pgrp ∧ t.state p = .stopped

/-- `has_stopped_jobs` finds the stopped members, if it reads no empty slot in front of
one. -/
theorem hasStoppedFrom_spec (descending : slots.Pairwise (· > ·)) :
    ((∀ i ∈ (t.hasStoppedFrom null pgrp slots).2, (t.task i).isSome = true) ↔
      ∀ i ∈ slots, t.task i = none → ∃ j ∈ slots, i < j ∧ t.StoppedAt pgrp j) ∧
    ((∀ i ∈ (t.hasStoppedFrom null pgrp slots).2, (t.task i).isSome = true) →
      ((t.hasStoppedFrom null pgrp slots).1 = true ↔ ∃ j ∈ slots, t.StoppedAt pgrp j)) := by
  induction slots with
  | nil => simp [hasStoppedFrom]
  | cons i slots ih =>
      obtain ⟨above, descending⟩ := List.pairwise_cons.mp descending
      obtain ⟨ihRead, ihFound⟩ := ih descending
      cases slot : t.task i with
      | none =>
          have reads : i ∈ (t.hasStoppedFrom null pgrp (i :: slots)).2 := by
            rw [hasStoppedFrom]
            split
            · exact List.mem_singleton_self i
            · exact List.mem_cons_self
          have empty : ¬∀ j ∈ (t.hasStoppedFrom null pgrp (i :: slots)).2,
              (t.task j).isSome = true := by
            intro all
            have := all i reads
            rw [slot] at this
            cases this
          refine ⟨iff_of_false empty fun all => ?_, fun all => absurd all empty⟩
          obtain ⟨j, member, higher, -⟩ := all i List.mem_cons_self slot
          rcases List.mem_cons.mp member with rfl | member
          · exact absurd higher (lt_irrefl _)
          · exact absurd higher (not_lt_of_gt (above j member))
      | some p =>
          have looked : t.look null i = ⟨t.pgrp p, t.state p⟩ := by rw [look, slot]
          have atSlot : t.StoppedAt pgrp i ↔ t.pgrp p = pgrp ∧ t.state p = .stopped := by
            constructor
            · rintro ⟨q, there, facts⟩
              rw [slot] at there
              cases there
              exact facts
            · exact fun facts => ⟨p, slot, facts⟩
          rw [hasStoppedFrom, looked]
          by_cases stops : t.pgrp p = pgrp ∧ t.state p = .stopped
          · rw [if_pos stops]
            refine ⟨iff_of_true ?_ ?_, fun _ => iff_of_true rfl ?_⟩
            · intro j member
              rw [List.mem_singleton.mp member, slot]
              rfl
            · intro j member empty
              rcases List.mem_cons.mp member with rfl | member
              · rw [slot] at empty
                cases empty
              · exact ⟨i, List.mem_cons_self, above j member, atSlot.mpr stops⟩
            · exact ⟨i, List.mem_cons_self, atSlot.mpr stops⟩
          · rw [if_neg stops]
            have notHere : ¬t.StoppedAt pgrp i := fun here => stops (atSlot.mp here)
            have found : (∃ j ∈ i :: slots, t.StoppedAt pgrp j) ↔
                ∃ j ∈ slots, t.StoppedAt pgrp j := by
              simp [notHere]
            have occupied : (t.task i).isSome = true := by rw [slot]; rfl
            have notEmpty : t.task i ≠ none := by rw [slot]; nofun
            refine ⟨?_, fun all => ?_⟩
            · rw [List.forall_mem_cons]
              simp only [occupied, true_and]
              rw [ihRead, List.forall_mem_cons]
              simp only [notEmpty, false_implies, true_and, List.exists_mem_cons_iff, notHere,
                and_false, false_or]
            · rw [found, ← ihFound fun j member => all j (List.mem_cons_of_mem i member)]

/-- What signals do not change. -/
def frame (t : GroupTree) : GroupTree :=
  { t with state := fun _ => .running, exitCode := fun _ => 0, signal := fun _ => 0 }

end GroupTree

/-! ## What a group is sent -/

namespace Exiting

variable {x x' : Exiting} {null : NullMember} {pgrp : Int} {sig : UInt32}
variable {slots : List (Fin nrTasks)} {i : Fin nrTasks} {p q : Page}

/-- The signals to one task, in their order. -/
def sentTo (x : Exiting) (p : Page) : List UInt32 :=
  (x.sent.filter fun s => s.1 = p).map Prod.snd

/-- What a signal does to the state of a task. -/
def restarted (sig : UInt32) (state : TaskState) : TaskState :=
  if sig = sigKill ∨ sig = sigCont then if state = .stopped then .running else state else state

theorem restarted_sigCont {state : TaskState} : restarted sigCont state ≠ .stopped := by
  cases state <;> decide

theorem sendSig_state : (x.sendSig sig p).tree.state q =
    if q = p then restarted sig (x.tree.state p) else x.tree.state q := by
  have delivered (job : Kill.Job) : (Kill.deliver sig job).state = job.state := by
    rw [Kill.deliver]
    split <;> rfl
  by_cases same : q = p
  · subst same
    rw [if_pos rfl]
    refine (Function.update_self ..).trans ?_
    rw [delivered, Kill.restart, restarted]
    split <;> rfl
  · rw [if_neg same]
    exact Function.update_of_ne same ..

theorem sendSig_sentTo : (x.sendSig sig p).sentTo q =
    x.sentTo q ++ if q = p then [sig] else [] := by
  rw [sentTo, sentTo, sendSig]
  by_cases same : q = p
  · simp [same]
  · simp [same, Ne.symm same]

/-- A slot with a member of the group. -/
def MemberAt (x : Exiting) (pgrp : Int) (i : Fin nrTasks) (p : Page) : Prop :=
  x.tree.task i = some p ∧ x.tree.pgrp p = pgrp

/-- One slot. -/
theorem killSlot_spec : (killSlot pgrp sig x i).tree.frame = x.tree.frame ∧
    (killSlot pgrp sig x i).read = i :: x.read ∧
    (∀ p, x.MemberAt pgrp i p →
      (killSlot pgrp sig x i).tree.state p = restarted sig (x.tree.state p) ∧
      (killSlot pgrp sig x i).sentTo p = x.sentTo p ++ [sig]) ∧
    ∀ p, ¬x.MemberAt pgrp i p →
      (killSlot pgrp sig x i).tree.state p = x.tree.state p ∧
      (killSlot pgrp sig x i).sentTo p = x.sentTo p := by
  rw [killSlot]
  cases slot : x.tree.task i with
  | none =>
      refine ⟨rfl, rfl, fun p member => ?_, fun _ _ => ⟨rfl, rfl⟩⟩
      rw [MemberAt, slot] at member
      cases member.1
  | some q =>
      dsimp only
      by_cases inGroup : x.tree.pgrp q = pgrp
      · rw [if_pos inGroup]
        refine ⟨rfl, rfl, fun p member => ?_, fun p other => ?_⟩
        · obtain rfl := Option.some.inj (slot.symm.trans member.1)
          rw [sendSig_state, sendSig_sentTo, if_pos rfl, if_pos rfl]
          exact ⟨rfl, rfl⟩
        · have notQ : p ≠ q := fun same => other (same ▸ ⟨slot, inGroup⟩)
          rw [sendSig_state, sendSig_sentTo, if_neg notQ, if_neg notQ, List.append_nil]
          exact ⟨rfl, rfl⟩
      · rw [if_neg inGroup]
        refine ⟨rfl, rfl, fun p member => ?_, fun _ _ => ⟨rfl, rfl⟩⟩
        obtain rfl := Option.some.inj (slot.symm.trans member.1)
        exact absurd member.2 inGroup

theorem memberAt_congr (frame : x'.tree.frame = x.tree.frame) :
    x'.MemberAt pgrp i p ↔ x.MemberAt pgrp i p := by
  have task : x'.tree.task = x.tree.task := congrArg (·.task) frame
  have group : x'.tree.pgrp = x.tree.pgrp := congrArg (·.pgrp) frame
  rw [MemberAt, MemberAt, task, group]

/-- The loop of `kill_pg`. -/
theorem foldl_killSlot_spec (nodup : slots.Nodup)
    (distinct : ∀ i j p, x.tree.task i = some p → x.tree.task j = some p → i = j) :
    (slots.foldl (killSlot pgrp sig) x).tree.frame = x.tree.frame ∧
    (∀ i, i ∈ (slots.foldl (killSlot pgrp sig) x).read ↔ i ∈ slots ∨ i ∈ x.read) ∧
    (∀ p, (∃ i ∈ slots, x.MemberAt pgrp i p) →
      (slots.foldl (killSlot pgrp sig) x).tree.state p = restarted sig (x.tree.state p) ∧
      (slots.foldl (killSlot pgrp sig) x).sentTo p = x.sentTo p ++ [sig]) ∧
    ∀ p, (¬∃ i ∈ slots, x.MemberAt pgrp i p) →
      (slots.foldl (killSlot pgrp sig) x).tree.state p = x.tree.state p ∧
      (slots.foldl (killSlot pgrp sig) x).sentTo p = x.sentTo p := by
  induction slots generalizing x with
  | nil => exact ⟨rfl, by simp, by simp, fun _ _ => ⟨rfl, rfl⟩⟩
  | cons i slots ih =>
      obtain ⟨absent, nodup⟩ := List.nodup_cons.mp nodup
      obtain ⟨frame, read, member, other⟩ := @killSlot_spec x pgrp sig i
      have task : (killSlot pgrp sig x i).tree.task = x.tree.task := congrArg (·.task) frame
      obtain ⟨frame', read', member', other'⟩ := ih nodup (task ▸ distinct)
      simp only [memberAt_congr frame] at member' other'
      rw [List.foldl_cons]
      refine ⟨frame'.trans frame, fun j => ?_, fun p inside => ?_, fun p outside => ?_⟩
      · rw [read', read, List.mem_cons, List.mem_cons]
        tauto
      · by_cases here : x.MemberAt pgrp i p
        · have notBehind : ¬∃ j ∈ slots, x.MemberAt pgrp j p := by
            rintro ⟨j, memberJ, there⟩
            exact absent (distinct i j p here.1 there.1 ▸ memberJ)
          rw [(other' p notBehind).1, (other' p notBehind).2]
          exact member p here
        · obtain ⟨j, memberJ, there⟩ := inside
          rcases List.mem_cons.mp memberJ with rfl | memberJ
          · exact absurd there here
          · have behind := member' p ⟨j, memberJ, there⟩
            rw [(other p here).1, (other p here).2] at behind
            exact behind
      · have notHere : ¬x.MemberAt pgrp i p := fun here => outside ⟨i, List.mem_cons_self, here⟩
        have notBehind : ¬∃ j ∈ slots, x.MemberAt pgrp j p := by
          rintro ⟨j, memberJ, there⟩
          exact outside ⟨j, List.mem_cons_of_mem i memberJ, there⟩
        rw [(other' p notBehind).1, (other' p notBehind).2]
        exact other p notHere

/-- `SIGHUP` and then `SIGCONT` to a group. -/
theorem killPg_both (pos : 0 < pgrp)
    (distinct : ∀ i j p, x.tree.task i = some p → x.tree.task j = some p → i = j) :
    ((x.killPg pgrp sigHup).killPg pgrp sigCont).tree.frame = x.tree.frame ∧
    (∀ i, i ∈ ((x.killPg pgrp sigHup).killPg pgrp sigCont).read ↔ i ≠ 0 ∨ i ∈ x.read) ∧
    (∀ p, (∃ i ≠ 0, x.MemberAt pgrp i p) →
      ((x.killPg pgrp sigHup).killPg pgrp sigCont).tree.state p =
        restarted sigCont (x.tree.state p) ∧
      ((x.killPg pgrp sigHup).killPg pgrp sigCont).sentTo p =
        x.sentTo p ++ [sigHup, sigCont]) ∧
    ∀ p, (¬∃ i ≠ 0, x.MemberAt pgrp i p) →
      ((x.killPg pgrp sigHup).killPg pgrp sigCont).tree.state p = x.tree.state p ∧
      ((x.killPg pgrp sigHup).killPg pgrp sigCont).sentTo p = x.sentTo p := by
  have valid (sig : UInt32) (isSig : sig = sigHup ∨ sig = sigCont) (x : Exiting) :
      x.killPg pgrp sig = scan.foldl (killSlot pgrp sig) x := by
    rw [killPg, if_neg]
    rintro (low | high | zero)
    · rcases isSig with rfl | rfl <;> revert low <;> decide
    · rcases isSig with rfl | rfl <;> revert high <;> decide
    · omega
  rw [valid sigCont (.inr rfl), valid sigHup (.inl rfl)]
  obtain ⟨frame, read, member, other⟩ :=
    @foldl_killSlot_spec x pgrp sigHup scan scan_nodup distinct
  generalize scan.foldl (killSlot pgrp sigHup) x = middle at frame read member other
  have task : middle.tree.task = x.tree.task := congrArg (·.task) frame
  obtain ⟨frame', read', member', other'⟩ :=
    @foldl_killSlot_spec middle pgrp sigCont scan scan_nodup (task ▸ distinct)
  simp only [memberAt_congr frame, mem_scan] at member' other' member other read read'
  refine ⟨frame'.trans frame, fun i => ?_, fun p inside => ?_, fun p outside => ?_⟩
  · rw [read', read]
    tauto
  · rw [(member' p inside).1, (member' p inside).2, (member p inside).1, (member p inside).2,
      List.append_assoc]
    exact ⟨rfl, rfl⟩
  · rw [(other' p outside).1, (other' p outside).2]
    exact other p outside

theorem killPg_of_not_pos (notPos : ¬0 < pgrp) : x.killPg pgrp sig = x :=
  if_pos (.inr (.inr (not_lt.mp notPos)))

theorem mem_read_killPg_both
    (distinct : ∀ i j p, x.tree.task i = some p → x.tree.task j = some p → i = j)
    (isRead : i ∈ x.read) : i ∈ ((x.killPg pgrp sigHup).killPg pgrp sigCont).read := by
  by_cases pos : 0 < pgrp
  · exact ((killPg_both pos distinct).2.1 i).mpr (.inr isRead)
  · rwa [killPg_of_not_pos pos, killPg_of_not_pos pos]

end Exiting

/-! ## One check -/

namespace GroupTree

/-- No slot but that of task 0 is empty. -/
def Full (s : GroupTree) : Prop := ∀ i ≠ 0, (s.task i).isSome = true

/-- Every empty slot is below a stopped member of the group. -/
def Seen (s : GroupTree) (pgrp : Int) : Prop :=
  ∀ i ≠ 0, s.task i = none → ∃ j, i < j ∧ s.StoppedAt pgrp j

def HasStopped (s : GroupTree) (pgrp : Int) : Prop := ∃ i ≠ 0, s.StoppedAt pgrp i

/-- `has_stopped_jobs` and `kill_pg` read no empty slot for the group. -/
def Readable (s : GroupTree) (pgrp : Int) : Prop :=
  s.Seen pgrp ∧ (s.HasStopped pgrp → 0 < pgrp → s.Full)

/-- The task is in a slot that is scanned. -/
def Scanned (s : GroupTree) (p : Page) : Prop := ∃ i ≠ 0, s.task i = some p

theorem Full.seen {s : GroupTree} {pgrp : Int} (full : s.Full) : s.Seen pgrp := by
  intro i notFirst empty
  have occupied := full i notFirst
  rw [empty] at occupied
  cases occupied

end GroupTree

namespace Exiting

/-- The groups `fired` have been signalled, all of them with a stopped member; otherwise the
tasks are those of `s`. -/
structure Inv (s : GroupTree) (fired : Int → Prop) (x : Exiting) : Prop where
  frame : x.tree.frame = s.frame
  signalled : ∀ p, s.Scanned p → fired (s.pgrp p) →
    x.tree.state p = restarted sigCont (s.state p) ∧ x.sentTo p = [sigHup, sigCont]
  calm : ∀ p, ¬(s.Scanned p ∧ fired (s.pgrp p)) →
    x.tree.state p = s.state p ∧ x.sentTo p = []
  full : ∀ pgrp, fired pgrp → s.Full
  read : ∀ i ∈ x.read, (s.task i).isSome = true

section Check

variable {s : GroupTree} {x : Exiting} {null : NullMember} {fired fired' : Int → Prop} {pgrp : Int}
variable {p : Page} {i : Fin nrTasks}

theorem Inv.congr (inv : Inv s fired x) (same : ∀ pgrp, fired' pgrp ↔ fired pgrp) :
    Inv s fired' x := by
  have equal : fired' = fired := funext fun pgrp => propext (same pgrp)
  rwa [equal]

theorem Inv.reading {read : List (Fin nrTasks)} (inv : Inv s fired x)
    (occupied : ∀ i ∈ read, (s.task i).isSome = true) :
    Inv s fired { x with read := read ++ x.read } := by
  refine ⟨inv.frame, inv.signalled, inv.calm, inv.full, fun i member => ?_⟩
  exact (List.mem_append.mp member).elim (occupied i) (inv.read i)

theorem Inv.task (inv : Inv s fired x) : x.tree.task = s.task := congrArg (·.task) inv.frame

theorem Inv.groups (inv : Inv s fired x) : x.tree.pgrp = s.pgrp := congrArg (·.pgrp) inv.frame

theorem Inv.state_cases (inv : Inv s fired x) (p : Page) :
    x.tree.state p = s.state p ∨ x.tree.state p = restarted sigCont (s.state p) := by
  by_cases gone : s.Scanned p ∧ fired (s.pgrp p)
  · exact .inr (inv.signalled p gone.1 gone.2).1
  · exact .inl (inv.calm p gone).1

/-- Signals make and wake no zombies. -/
theorem Inv.zombie (inv : Inv s fired x) (p : Page) :
    x.tree.state p = .zombie ↔ s.state p = .zombie := by
  rcases inv.state_cases p with same | restarts
  · rw [same]
  · rw [restarts]
    cases s.state p <;> decide

theorem Inv.orphaned (inv : Inv s fired x) : x.tree.Orphaned pgrp ↔ s.Orphaned pgrp := by
  have parent : x.tree.pPptr = s.pPptr := congrArg (·.pPptr) inv.frame
  have pid : x.tree.pid = s.pid := congrArg (·.pid) inv.frame
  have session : x.tree.session = s.session := congrArg (·.session) inv.frame
  have connects (p : Page) : x.tree.Connects pgrp p ↔ s.Connects pgrp p := by
    rw [GroupTree.Connects, GroupTree.Connects, GroupTree.Outside, GroupTree.Outside, parent, pid,
      session, inv.groups, ne_eq, inv.zombie]
  simp only [GroupTree.Orphaned, connects, inv.task]

theorem Inv.stoppedAt (inv : Inv s fired x) (notFirst : i ≠ 0) :
    x.tree.StoppedAt pgrp i ↔ s.StoppedAt pgrp i ∧ ¬fired pgrp := by
  rw [GroupTree.StoppedAt, GroupTree.StoppedAt, inv.task, inv.groups]
  constructor
  · rintro ⟨p, slot, rfl, stopped⟩
    by_cases gone : fired (s.pgrp p)
    · rw [(inv.signalled p ⟨i, notFirst, slot⟩ gone).1] at stopped
      exact absurd stopped restarted_sigCont
    · rw [(inv.calm p fun both => gone both.2).1] at stopped
      exact ⟨⟨p, slot, rfl, stopped⟩, gone⟩
  · rintro ⟨⟨p, slot, rfl, stopped⟩, calm⟩
    exact ⟨p, slot, rfl, (inv.calm p fun both => calm both.2).1.trans stopped⟩

/-- What `has_stopped_jobs` finds. -/
theorem Inv.hasStoppedJobs (inv : Inv s fired x) :
    ((∀ i ∈ (x.tree.hasStoppedJobs null pgrp).2, (s.task i).isSome = true) ↔
      (fired pgrp ∨ s.Seen pgrp)) ∧
    ((∀ i ∈ (x.tree.hasStoppedJobs null pgrp).2, (s.task i).isSome = true) →
      ((x.tree.hasStoppedJobs null pgrp).1 = true ↔ s.HasStopped pgrp ∧ ¬fired pgrp)) := by
  obtain ⟨reads, found⟩ := @GroupTree.hasStoppedFrom_spec x.tree null pgrp scan scan_descending
  rw [inv.task] at reads found
  rw [GroupTree.hasStoppedJobs]
  have stopped : (∃ j ∈ scan, x.tree.StoppedAt pgrp j) ↔ s.HasStopped pgrp ∧ ¬fired pgrp := by
    constructor
    · rintro ⟨j, member, there⟩
      obtain ⟨before, calm⟩ := (inv.stoppedAt (mem_scan.mp member)).mp there
      exact ⟨⟨j, mem_scan.mp member, before⟩, calm⟩
    · rintro ⟨⟨j, notFirst, there⟩, calm⟩
      exact ⟨j, mem_scan.mpr notFirst, (inv.stoppedAt notFirst).mpr ⟨there, calm⟩⟩
  refine ⟨reads.trans ?_, fun all => (found all).trans stopped⟩
  constructor
  · intro all
    by_cases gone : fired pgrp
    · exact .inl gone
    · refine .inr fun i notFirst empty => ?_
      obtain ⟨j, member, higher, there⟩ := all i (mem_scan.mpr notFirst) empty
      exact ⟨j, higher, ((inv.stoppedAt (mem_scan.mp member)).mp there).1⟩
  · intro either i member empty
    by_cases gone : fired pgrp
    · have occupied := inv.full pgrp gone i (mem_scan.mp member)
      rw [empty] at occupied
      cases occupied
    · obtain ⟨j, higher, there⟩ := either.resolve_left gone i (mem_scan.mp member) empty
      have notFirst : j ≠ 0 := by
        rintro rfl
        exact absurd higher (Fin.not_lt_zero i)
      exact ⟨j, mem_scan.mpr notFirst, higher, (inv.stoppedAt notFirst).mpr ⟨there, gone⟩⟩

/-- The two signals to a group that has not been signalled. -/
theorem Inv.killPg (inv : Inv s fired x) (pos : 0 < pgrp) (calm : ¬fired pgrp) (full : s.Full)
    (distinct : ∀ i j p, s.task i = some p → s.task j = some p → i = j) :
    Inv s (fun g => fired g ∨ g = pgrp) ((x.killPg pgrp sigHup).killPg pgrp sigCont) := by
  obtain ⟨frame, read, member, other⟩ := @killPg_both x pgrp pos (inv.task ▸ distinct)
  have inside (p : Page) : (∃ i ≠ 0, x.MemberAt pgrp i p) ↔ s.Scanned p ∧ s.pgrp p = pgrp := by
    simp only [MemberAt, inv.task, inv.groups, GroupTree.Scanned]
    constructor
    · rintro ⟨i, notFirst, slot, same⟩
      exact ⟨⟨i, notFirst, slot⟩, same⟩
    · rintro ⟨⟨i, notFirst, slot⟩, same⟩
      exact ⟨i, notFirst, slot, same⟩
  simp only [inside] at member other
  refine ⟨frame.trans inv.frame, fun p scanned either => ?_, fun p outside => ?_,
    fun _ _ => full, fun i isRead => ?_⟩
  · rcases either with gone | same
    · have notHere : ¬(s.Scanned p ∧ s.pgrp p = pgrp) := fun here => calm (here.2 ▸ gone)
      rw [(other p notHere).1, (other p notHere).2]
      exact inv.signalled p scanned gone
    · have before := inv.calm p fun both => calm (same ▸ both.2)
      rw [(member p ⟨scanned, same⟩).1, (member p ⟨scanned, same⟩).2, before.1, before.2]
      exact ⟨rfl, rfl⟩
  · have notHere : ¬(s.Scanned p ∧ s.pgrp p = pgrp) := fun here =>
      outside ⟨here.1, .inr here.2⟩
    rw [(other p notHere).1, (other p notHere).2]
    exact inv.calm p fun both => outside ⟨both.1, .inl both.2⟩
  · rcases (read i).mp isRead with notFirst | before
    · exact full i notFirst
    · exact inv.read i before

/-- One check: it reads no empty slot if and only if the group is not orphaned or readable, and
then it signals the group if it is orphaned and has a stopped member. -/
theorem Inv.orphanCheck (inv : Inv s fired x)
    (distinct : ∀ i j p, s.task i = some p → s.task j = some p → i = j)
    (readable : fired pgrp → s.Readable pgrp) :
    ((∀ i ∈ (x.orphanCheck null pgrp).read, (s.task i).isSome = true) ↔
      (s.Orphaned pgrp → s.Readable pgrp)) ∧
    ((∀ i ∈ (x.orphanCheck null pgrp).read, (s.task i).isSome = true) →
      Inv s (fun g => fired g ∨ g = pgrp ∧ s.Orphaned g ∧ s.HasStopped g ∧ 0 < g)
        (x.orphanCheck null pgrp)) := by
  have firstRead : ∀ i ∈ (x.tree.isOrphanedPgrp pgrp).2, (s.task i).isSome = true := by
    intro i member
    have occupied := GroupTree.isOrphanedFrom_read member
    rwa [inv.task] at occupied
  have inv₁ := inv.reading firstRead
  have isOrphaned : (x.tree.isOrphanedPgrp pgrp).1 = true ↔ s.Orphaned pgrp :=
    GroupTree.isOrphanedPgrp_iff.trans inv.orphaned
  rw [Exiting.orphanCheck]
  dsimp only
  by_cases orphaned : s.Orphaned pgrp
  · rw [if_pos (isOrphaned.mpr orphaned)]
    obtain ⟨reads, found⟩ := @Inv.hasStoppedJobs s x null fired pgrp inv
    generalize x.tree.hasStoppedJobs null pgrp = scanned at reads found
    obtain ⟨stopped, read⟩ := scanned
    dsimp only at reads found ⊢
    by_cases occupied : ∀ i ∈ read, (s.task i).isSome = true
    · have inv₂ := inv₁.reading occupied
      by_cases stops : s.HasStopped pgrp ∧ ¬fired pgrp
      · obtain ⟨hasStopped, calm⟩ := stops
        have seen := (reads.mp occupied).resolve_left calm
        rw [if_pos ((found occupied).mpr ⟨hasStopped, calm⟩)]
        by_cases pos : 0 < pgrp
        · have both := @killPg_both { x with read := read ++ ((x.tree.isOrphanedPgrp pgrp).2 ++ x.read) }
            pgrp pos (inv.task ▸ distinct)
          have full (all : ∀ i ∈ _, (s.task i).isSome = true) : s.Full :=
            fun i notFirst => all i ((both.2.1 i).mpr (.inl notFirst))
          refine ⟨⟨fun all _ => ⟨seen, fun _ _ => full all⟩, fun readable i isRead => ?_⟩,
            fun all => (inv₂.killPg pos calm (full all) distinct).congr fun g => ?_⟩
          · rcases (both.2.1 i).mp isRead with notFirst | before
            · exact (readable orphaned).2 hasStopped pos i notFirst
            · exact inv₂.read i before
          · refine or_congr_right ⟨fun ⟨same, _⟩ => same, ?_⟩
            rintro rfl
            exact ⟨rfl, orphaned, hasStopped, pos⟩
        · rw [killPg_of_not_pos pos, killPg_of_not_pos pos]
          refine ⟨iff_of_true inv₂.read fun _ => ⟨seen, fun _ isPos => absurd isPos pos⟩,
            fun _ => inv₂.congr fun g => ⟨?_, .inl⟩⟩
          rintro (gone | ⟨rfl, -, -, isPos⟩)
          · exact gone
          · exact absurd isPos pos
      · rw [if_neg (mt (found occupied).mp stops)]
        refine ⟨iff_of_true inv₂.read fun _ => ?_, fun _ => inv₂.congr fun g => ⟨?_, .inl⟩⟩
        · by_cases gone : fired pgrp
          · exact readable gone
          · exact ⟨(reads.mp occupied).resolve_left gone,
              fun hasStopped => absurd ⟨hasStopped, gone⟩ stops⟩
        · rintro (gone | ⟨rfl, -, hasStopped, -⟩)
          · exact gone
          · by_contra calm
            exact stops ⟨hasStopped, calm⟩
    · have unseen : ¬s.Readable pgrp := fun is => occupied (reads.mpr (.inr is.1))
      have reading : ¬∀ i ∈ (if stopped = true then
          (({ x with read := read ++ ((x.tree.isOrphanedPgrp pgrp).2 ++ x.read) } :
            Exiting).killPg pgrp sigHup).killPg pgrp sigCont
          else { x with read := read ++ ((x.tree.isOrphanedPgrp pgrp).2 ++ x.read) }).read,
          (s.task i).isSome = true := by
        intro all
        refine occupied fun i member => all i ?_
        split
        · exact mem_read_killPg_both (inv.task ▸ distinct) (List.mem_append_left _ member)
        · exact List.mem_append_left _ member
      exact ⟨iff_of_false reading fun is => unseen (is orphaned), fun all => absurd all reading⟩
  · rw [if_neg (mt isOrphaned.mp orphaned)]
    refine ⟨iff_of_true inv₁.read fun is => absurd is orphaned, fun _ => inv₁.congr fun g => ?_⟩
    constructor
    · rintro (gone | ⟨rfl, is, -⟩)
      · exact gone
      · exact absurd is orphaned
    · exact .inl

end Check

/-! ## What every check keeps -/

section Keeps

variable {x : Exiting} {null : NullMember} {pgrp : Int} {sig : UInt32} {i : Fin nrTasks}
variable {current father init p : Page}

/-- The links stay, and no record of a read is lost. -/
structure Keeps (x x' : Exiting) : Prop where
  frame : x'.tree.frame = x.tree.frame
  read : ∀ i ∈ x.read, i ∈ x'.read

theorem Keeps.trans {x' x'' : Exiting} (first : Keeps x x') (second : Keeps x' x'') :
    Keeps x x'' :=
  ⟨second.frame.trans first.frame, fun i member => second.read i (first.read i member)⟩

theorem keeps_foldl_killSlot (slots : List (Fin nrTasks)) :
    Keeps x (slots.foldl (killSlot pgrp sig) x) := by
  induction slots generalizing x with
  | nil => exact ⟨rfl, fun _ => id⟩
  | cons i slots ih =>
      obtain ⟨frame, read, -⟩ := @killSlot_spec x pgrp sig i
      have one : Keeps x (killSlot pgrp sig x i) :=
        ⟨frame, fun j member => read ▸ List.mem_cons_of_mem i member⟩
      exact one.trans ih

theorem keeps_killPg : Keeps x (x.killPg pgrp sig) := by
  rw [Exiting.killPg]
  split
  · exact ⟨rfl, fun _ => id⟩
  · exact keeps_foldl_killSlot scan

theorem keeps_reading (read : List (Fin nrTasks)) :
    Keeps x { x with read := read ++ x.read } :=
  ⟨rfl, fun _ member => List.mem_append_right _ member⟩

theorem keeps_orphanCheck : Keeps x (x.orphanCheck null pgrp) := by
  rw [Exiting.orphanCheck]
  dsimp only
  split
  · split
    · refine (keeps_reading _).trans ((keeps_reading _).trans (keeps_killPg.trans keeps_killPg))
    · exact (keeps_reading _).trans (keeps_reading _)
  · exact keeps_reading _

theorem keeps_tellChild : Keeps x (x.tellChild p) := ⟨rfl, fun _ => id⟩

theorem keeps_checkOwn : Keeps x (x.checkOwn null current father) := by
  rw [Exiting.checkOwn]
  split
  · exact keeps_orphanCheck.trans keeps_tellChild
  · exact keeps_tellChild

/-- A child gets a new parent. -/
def adopt (x : Exiting) (init p : Page) : Exiting :=
  { x with tree := { x.tree with pPptr := store x.tree.pPptr (some p) (some init) } }

/-- Init hears of a zombie. -/
def told (x : Exiting) (init p : Page) : Exiting :=
  if x.tree.state p = .zombie then x.tellChild init else x

theorem keeps_told : Keeps x (x.told init p) := by
  rw [told]
  split
  · exact keeps_tellChild
  · exact ⟨rfl, fun _ => id⟩

theorem checkChild_eq : x.checkChild null current init p =
    if ((x.adopt init p).told init p).tree.pgrp p ≠
          ((x.adopt init p).told init p).tree.pgrp current ∧
        ((x.adopt init p).told init p).tree.session p =
          ((x.adopt init p).told init p).tree.session current then
      ((x.adopt init p).told init p).orphanCheck null
        (((x.adopt init p).told init p).tree.pgrp p)
    else (x.adopt init p).told init p := rfl

theorem keeps_checkChild : Keeps (x.adopt init p) (x.checkChild null current init p) := by
  rw [checkChild_eq]
  split
  · exact keeps_told.trans keeps_orphanCheck
  · exact keeps_told

end Keeps

end Exiting

end Linux012.Kernel
