import Linux012.Kernel.Orphans

/-!
# The groups that an exit orphans

While `do_exit` hands its children to init, a group is tested again for each of its members
among them.  Here is what the tests find altogether, and when these are the groups that the
exit has orphaned.
-/

namespace Linux012.Kernel

open Lib (Leads Chained store store_self store_of_ne)
open Signal (sigChld sigCont)

/-- A process tree in which init alone has pid 1, and task 0 is in group 0. -/
structure GroupTree.Consistent (t : GroupTree) (root init : Page) (kids : Page → List Page)
    (rank : Page → Nat) : Prop where
  tree : t.toProcessTree.Tree root init kids rank
  pid_init : ∀ p, t.InTable p → (t.pid p = 1 ↔ p = init)
  idle : t.pgrp root = 0

namespace GroupTree

variable {t : GroupTree} {root init current father c p : Page} {kids : Page → List Page}
variable {rank : Page → Nat} {pgrp : Int} {done : List Page}

/-! ## Handing over -/

/-- `current` is a zombie, and init has inherited the children `done`. -/
def adopted (t : GroupTree) (current init : Page) (done : List Page) : GroupTree :=
  { t with
    state := Function.update t.state current .zombie
    pPptr := fun p => if p ∈ done then some init else t.pPptr p }

/-- Its children have been handed to init. -/
def handedOver (t : GroupTree) (current init : Page) : GroupTree :=
  { t with
    state := Function.update t.state current .zombie
    pPptr := fun p => if t.InTable p ∧ t.pPptr p = some current then some init else t.pPptr p }

theorem Consistent.handedOver_eq (consistent : t.Consistent root init kids rank)
    (member : t.InTable current) :
    t.handedOver current init = t.adopted current init (kids current) := by
  have parents : (fun p => if t.InTable p ∧ t.pPptr p = some current then some init
      else t.pPptr p) = fun p => if p ∈ kids current then some init else t.pPptr p := by
    funext p
    simp only [consistent.tree.mem_kids current p member]
  rw [handedOver, adopted, parents]

/-- A task connects its group no more when it exits or has been inherited. -/
theorem Consistent.connects_adopted (consistent : t.Consistent root init kids rank) :
    (t.adopted current init done).Connects pgrp p ↔
      p ∉ done ∧ p ≠ current ∧ t.Connects pgrp p := by
  have isInit : t.pid init = 1 :=
    (consistent.pid_init init consistent.tree.inTable_init).mpr rfl
  have state : (t.adopted current init done).state p ≠ .zombie ↔
      p ≠ current ∧ t.state p ≠ .zombie := by
    by_cases exits : p = current
    · subst exits
      refine iff_of_false (fun lives => lives (Function.update_self ..)) fun both => both.1 rfl
    · have same : (t.adopted current init done).state p = t.state p :=
        Function.update_of_ne exits ..
      rw [same]
      exact (and_iff_right exits).symm
  have outside : (t.adopted current init done).Outside pgrp p ↔ p ∉ done ∧ t.Outside pgrp p := by
    by_cases inherited : p ∈ done
    · have parent : (t.adopted current init done).pPptr p = some init := if_pos inherited
      refine iff_of_false (fun outside => ?_) fun both => both.1 inherited
      rw [Outside, parent] at outside
      exact outside.1 isInit
    · have parent : (t.adopted current init done).pPptr p = t.pPptr p := if_neg inherited
      rw [Outside, parent, Outside]
      exact (and_iff_right inherited).symm
  rw [Connects, Connects, state, outside]
  change t.pgrp p = pgrp ∧ _ ↔ _
  tauto

theorem Consistent.orphaned_adopted (consistent : t.Consistent root init kids rank) :
    (t.adopted current init done).Orphaned pgrp ↔
      ∀ i p, i ≠ 0 → t.task i = some p → p ∉ done → p ≠ current → ¬t.Connects pgrp p := by
  simp only [Orphaned, consistent.connects_adopted, not_and]
  exact Iff.rfl

/-! ## The tests -/

/-- Case i: the father is in another group of the session. -/
def TestsOwn (t : GroupTree) (current : Page) (pgrp : Int) : Prop :=
  pgrp = t.pgrp current ∧ ∃ father, t.pPptr current = some father ∧
    t.pgrp father ≠ t.pgrp current ∧ t.session father = t.session current

/-- Case ii: the child is in another group of the session. -/
def TestsChild (t : GroupTree) (current : Page) (pgrp : Int) (c : Page) : Prop :=
  t.pgrp c = pgrp ∧ t.pgrp c ≠ t.pgrp current ∧ t.session c = t.session current

/-- `has_stopped_jobs` has been called for the group when the children `done` have been
inherited. -/
def Called (t : GroupTree) (current init : Page) (done : List Page) (pgrp : Int) : Prop :=
  (t.adopted current init done).Orphaned pgrp ∧
    (t.TestsOwn current pgrp ∨ ∃ c ∈ done, t.TestsChild current pgrp c)

/-- The group has been signalled then. -/
def Fired (t : GroupTree) (current init : Page) (done : List Page) (pgrp : Int) : Prop :=
  t.Called current init done pgrp ∧ t.HasStopped pgrp ∧ 0 < pgrp

/-- A child that connects its group is tested. -/
theorem Consistent.testsChild (consistent : t.Consistent root init kids rank)
    (member : t.InTable current) (isKid : c ∈ kids current) (connects : t.Connects pgrp c) :
    t.TestsChild current pgrp c := by
  obtain ⟨inGroup, -, outside⟩ := connects
  have parent := ((consistent.tree.mem_kids current c member).mp isKid).2
  rw [Outside, parent] at outside
  obtain ⟨-, other, session⟩ := outside
  exact ⟨inGroup, fun same => other (same.symm.trans inGroup), session.symm⟩

/-- Inheriting a child orphans no group for which it is not tested. -/
theorem Consistent.orphaned_concat (consistent : t.Consistent root init kids rank)
    (member : t.InTable current) (isKid : c ∈ kids current) :
    (t.adopted current init (done ++ [c])).Orphaned pgrp →
      t.TestsChild current pgrp c ∨ (t.adopted current init done).Orphaned pgrp := by
  rw [consistent.orphaned_adopted, consistent.orphaned_adopted]
  intro orphaned
  by_cases tests : t.TestsChild current pgrp c
  · exact .inl tests
  · refine .inr fun i p notFirst slot notDone lives connects => ?_
    by_cases same : p = c
    · exact tests (consistent.testsChild member isKid (same ▸ connects))
    · refine orphaned i p notFirst slot (fun inside => ?_) lives connects
      rcases List.mem_append.mp inside with inside | inside
      · exact notDone inside
      · exact same (List.mem_singleton.mp inside)

theorem Consistent.orphaned_mono (consistent : t.Consistent root init kids rank) :
    (t.adopted current init done).Orphaned pgrp →
      (t.adopted current init (done ++ [c])).Orphaned pgrp := by
  rw [consistent.orphaned_adopted, consistent.orphaned_adopted]
  exact fun orphaned i p notFirst slot notDone =>
    orphaned i p notFirst slot fun inside => notDone (List.mem_append_left _ inside)

theorem Consistent.called_concat (consistent : t.Consistent root init kids rank)
    (member : t.InTable current) (isKid : c ∈ kids current) :
    t.Called current init (done ++ [c]) pgrp ↔ t.Called current init done pgrp ∨
      t.TestsChild current pgrp c ∧ (t.adopted current init (done ++ [c])).Orphaned pgrp := by
  constructor
  · rintro ⟨orphaned, tested⟩
    by_cases tests : t.TestsChild current pgrp c
    · exact .inr ⟨tests, orphaned⟩
    · refine .inl ⟨(consistent.orphaned_concat member isKid orphaned).resolve_left tests, ?_⟩
      refine tested.imp_right fun ⟨c', inside, tests'⟩ => ?_
      rcases List.mem_append.mp inside with inside | inside
      · exact ⟨c', inside, tests'⟩
      · exact absurd (List.mem_singleton.mp inside ▸ tests') tests
  · rintro (⟨orphaned, tested⟩ | ⟨tests, orphaned⟩)
    · refine ⟨consistent.orphaned_mono orphaned, tested.imp_right fun ⟨c', inside, tests'⟩ => ?_⟩
      exact ⟨c', List.mem_append_left _ inside, tests'⟩
    · exact ⟨orphaned, .inr ⟨c, List.mem_append_right _ (List.mem_singleton_self c), tests⟩⟩

theorem Consistent.called_append (consistent : t.Consistent root init kids rank)
    (member : t.InTable current) {rest : List Page} (areKids : ∀ c ∈ rest, c ∈ kids current)
    (called : t.Called current init done pgrp) : t.Called current init (done ++ rest) pgrp := by
  induction rest generalizing done with
  | nil => rwa [List.append_nil]
  | cons c rest ih =>
      rw [List.append_cons]
      exact ih (fun c' inside => areKids c' (List.mem_cons_of_mem c inside))
        ((consistent.called_concat member (areKids c List.mem_cons_self)).mpr (.inl called))

theorem stoppedAt_adopted {i : Fin nrTasks} (runs : t.state current = .running) :
    (t.adopted current init done).StoppedAt pgrp i ↔ t.StoppedAt pgrp i := by
  have state (p : Page) : (t.adopted current init done).state p = .stopped ↔
      t.state p = .stopped := by
    by_cases exits : p = current
    · subst exits
      have now : (t.adopted p init done).state p = .zombie := Function.update_self ..
      rw [now, runs]
      exact iff_of_false nofun nofun
    · have same : (t.adopted current init done).state p = t.state p :=
        Function.update_of_ne exits ..
      rw [same]
  simp only [StoppedAt, state]
  exact Iff.rfl

theorem hasStopped_adopted (runs : t.state current = .running) :
    (t.adopted current init done).HasStopped pgrp ↔ t.HasStopped pgrp := by
  simp only [HasStopped, stoppedAt_adopted runs]

theorem readable_adopted (runs : t.state current = .running) :
    (t.adopted current init done).Readable pgrp ↔ t.Readable pgrp := by
  simp only [Readable, Seen, hasStopped_adopted runs, stoppedAt_adopted runs]
  exact Iff.rfl

end GroupTree

/-! ## The loop -/

namespace Exiting

variable {t : GroupTree} {x : Exiting} {null : NullMember} {root init current father c p : Page}
variable {kids : Page → List Page} {rank : Page → Nat} {done rest : List Page}
variable {fired : Int → Prop} {pgrp : Int}

/-- The state between two tests. -/
structure Between (t : GroupTree) (current init : Page) (done : List Page) (x : Exiting) :
    Prop where
  inv : Inv (t.adopted current init done) (t.Fired current init done) x
  readable : ∀ pgrp, t.Called current init done pgrp → t.Readable pgrp

/-- No empty slot has been read. -/
def ReadsTasks (t : GroupTree) (x : Exiting) : Prop := ∀ i ∈ x.read, (t.task i).isSome = true

theorem Inv.adopt (inv : Inv (t.adopted current init done) fired x) :
    Inv (t.adopted current init (done ++ [c])) fired (x.adopt init c) := by
  refine ⟨?_, inv.signalled, inv.calm, inv.full, inv.read⟩
  have before : x.tree.pPptr = (t.adopted current init done).pPptr :=
    congrArg (·.pPptr) inv.frame
  have parents : store x.tree.pPptr (some c) (some init) =
      (t.adopted current init (done ++ [c])).pPptr := by
    funext p
    rw [before]
    by_cases same : p = c
    · subst same
      rw [store_self]
      exact (if_pos (List.mem_append_right _ (List.mem_singleton_self p))).symm
    · rw [store_of_ne _ fun equal => same (Option.some.inj equal).symm]
      change (if p ∈ done then _ else _) = if p ∈ done ++ [c] then _ else _
      simp [same]
  have frame := congrArg (fun s : GroupTree =>
    { s with pPptr := store x.tree.pPptr (some c) (some init) }) inv.frame
  refine Eq.trans frame ?_
  rw [parents]
  rfl

theorem Inv.told (inv : Inv (t.adopted current init done) fired x) :
    Inv (t.adopted current init done) fired (x.told init c) := by
  rw [Exiting.told]
  split
  · exact ⟨inv.frame, inv.signalled, inv.calm, inv.full, inv.read⟩
  · exact inv

theorem Inv.fields (inv : Inv (t.adopted current init done) fired x) :
    x.tree.pgrp = t.pgrp ∧ x.tree.session = t.session :=
  ⟨congrArg (·.pgrp) inv.frame, congrArg (·.session) inv.frame⟩

/-- One child. -/
theorem Between.checkChild (consistent : t.Consistent root init kids rank)
    (member : t.InTable current) (runs : t.state current = .running) (isKid : c ∈ kids current)
    (between : Between t current init done x) :
    (ReadsTasks t (x.checkChild null current init c) ↔
      ∀ pgrp, t.TestsChild current pgrp c →
        (t.adopted current init (done ++ [c])).Orphaned pgrp → t.Readable pgrp) ∧
    (ReadsTasks t (x.checkChild null current init c) →
      Between t current init (done ++ [c]) (x.checkChild null current init c)) := by
  have inv : Inv (t.adopted current init (done ++ [c])) (t.Fired current init done)
      ((x.adopt init c).told init c) := between.inv.adopt.told
  obtain ⟨groups, sessions⟩ := inv.fields
  rw [checkChild_eq, groups, sessions]
  by_cases tests : t.pgrp c ≠ t.pgrp current ∧ t.session c = t.session current
  · rw [if_pos tests]
    obtain ⟨reads, after⟩ := @Inv.orphanCheck _ _ null _ (t.pgrp c) inv consistent.tree.distinct
      fun gone => (GroupTree.readable_adopted runs).mpr (between.readable _ gone.1)
    have onlyOwn : (∀ pgrp, t.TestsChild current pgrp c →
        (t.adopted current init (done ++ [c])).Orphaned pgrp → t.Readable pgrp) ↔
        ((t.adopted current init (done ++ [c])).Orphaned (t.pgrp c) → t.Readable (t.pgrp c)) := by
      refine ⟨fun all => all _ ⟨rfl, tests⟩, ?_⟩
      rintro one pgrp ⟨rfl, -⟩
      exact one
    rw [GroupTree.readable_adopted runs] at reads
    refine ⟨reads.trans onlyOwn.symm, fun occupied => ⟨(after occupied).congr fun g => ?_, ?_⟩⟩
    · rw [GroupTree.Fired, consistent.called_concat member isKid, or_and_right,
        GroupTree.hasStopped_adopted runs]
      refine or_congr_right ⟨?_, ?_⟩
      · rintro ⟨⟨⟨same, -⟩, orphaned⟩, stopped, pos⟩
        exact ⟨same.symm, orphaned, stopped, pos⟩
      · rintro ⟨rfl, orphaned, stopped, pos⟩
        exact ⟨⟨⟨rfl, tests⟩, orphaned⟩, stopped, pos⟩
    · intro g called
      rcases (consistent.called_concat member isKid).mp called with before | ⟨⟨rfl, -⟩, orphaned⟩
      · exact between.readable g before
      · exact reads.mp occupied orphaned
  · rw [if_neg tests]
    have untested (g : Int) : ¬t.TestsChild current g c := fun is => tests is.2
    refine ⟨iff_of_true inv.read fun g is => absurd is (untested g),
      fun _ => ⟨inv.congr fun g => ?_, fun g called => ?_⟩⟩
    · rw [GroupTree.Fired, consistent.called_concat member isKid, GroupTree.Fired]
      simp only [untested, false_and, or_false]
    · rw [consistent.called_concat member isKid] at called
      exact between.readable g (called.resolve_right fun is => untested g is.1)

theorem mem_read_foldl {i : Fin nrTasks} (isRead : i ∈ x.read) :
    i ∈ (rest.foldl (fun x c => x.checkChild null current init c) x).read := by
  induction rest generalizing x with
  | nil => exact isRead
  | cons c rest ih => exact ih (keeps_checkChild.read i isRead)

theorem foldl_links :
    (rest.foldl (fun x c => x.checkChild null current init c) x).tree.task = x.tree.task ∧
    (rest.foldl (fun x c => x.checkChild null current init c) x).tree.pCptr = x.tree.pCptr := by
  induction rest generalizing x with
  | nil => exact ⟨rfl, rfl⟩
  | cons c rest ih =>
      have frame := (@keeps_checkChild x null current init c).frame
      obtain ⟨task, child⟩ := @ih (x.checkChild null current init c)
      exact ⟨task.trans (congrArg (·.task) frame), child.trans (congrArg (·.pCptr) frame)⟩

/-- The loop is one round for each child. -/
theorem checkFrom_eq {fuel : Nat} (enough : rest.length < fuel)
    (leads : Leads x.tree.pOsptr (x.tree.pOsptr p) rest) :
    ∃ last, checkFrom null current init fuel x p =
      some ((p :: rest).foldl (fun x c => x.checkChild null current init c) x, last) := by
  have older : (x.checkChild null current init p).tree.pOsptr = x.tree.pOsptr :=
    congrArg (·.pOsptr) keeps_checkChild.frame
  induction rest generalizing fuel x p with
  | nil =>
      obtain ⟨fuel, rfl⟩ := Nat.exists_eq_succ_of_ne_zero (Nat.ne_zero_of_lt enough)
      have ends : (x.checkChild null current init p).tree.pOsptr p = none := by
        rw [older]
        exact leads
      exact ⟨p, by simp only [checkFrom, ends, List.foldl_cons, List.foldl_nil]⟩
  | cons c rest ih =>
      obtain ⟨fuel, rfl⟩ := Nat.exists_eq_succ_of_ne_zero (Nat.ne_zero_of_lt enough)
      obtain ⟨next, leads⟩ := leads
      have follows : (x.checkChild null current init p).tree.pOsptr p = some c := by
        rw [older]
        exact next
      obtain ⟨last, rounds⟩ := @ih (x.checkChild null current init p) c fuel
        (Nat.lt_of_succ_lt_succ enough) (older ▸ leads)
        (congrArg (·.pOsptr) keeps_checkChild.frame)
      exact ⟨last, by simp only [checkFrom, follows, rounds, List.foldl_cons]⟩

/-- The children of `rest`, one after the other. -/
theorem Between.checkAll (consistent : t.Consistent root init kids rank)
    (member : t.InTable current) (runs : t.state current = .running)
    (areKids : ∀ c ∈ rest, c ∈ kids current) (between : Between t current init done x) :
    (ReadsTasks t (rest.foldl (fun x c => x.checkChild null current init c) x) ↔
      ∀ pgrp, t.Called current init (done ++ rest) pgrp → t.Readable pgrp) ∧
    (ReadsTasks t (rest.foldl (fun x c => x.checkChild null current init c) x) →
      Between t current init (done ++ rest)
        (rest.foldl (fun x c => x.checkChild null current init c) x)) := by
  induction rest generalizing done x with
  | nil =>
      rw [List.append_nil]
      exact ⟨iff_of_true between.inv.read between.readable, fun _ => between⟩
  | cons c rest ih =>
      have isKid := areKids c List.mem_cons_self
      have areKids' : ∀ c' ∈ rest, c' ∈ kids current :=
        fun c' inside => areKids c' (List.mem_cons_of_mem c inside)
      obtain ⟨reads, after⟩ := @Between.checkChild t x null root init current c kids rank done
        consistent member runs isKid between
      rw [List.foldl_cons, List.append_cons]
      have early (all : ReadsTasks t (rest.foldl (fun x c => x.checkChild null current init c)
          (x.checkChild null current init c))) : ReadsTasks t (x.checkChild null current init c) :=
        fun i isRead => all i (mem_read_foldl isRead)
      refine ⟨⟨fun all => ?_, fun all => ?_⟩, fun all => ?_⟩
      · exact (ih areKids' (after (early all))).1.mp all
      · have one : ReadsTasks t (x.checkChild null current init c) := by
          refine reads.mpr fun g tests orphaned => all g ?_
          exact consistent.called_append member areKids'
            ((consistent.called_concat member isKid).mpr (.inr ⟨tests, orphaned⟩))
        exact (ih areKids' (after one)).1.mpr all
      · exact (ih areKids' (after (early all))).2 all

/-! ## The whole exit -/

/-- `do_exit` before its first test. -/
def dying (t : GroupTree) (current : Page) : Exiting :=
  ⟨{ t with state := Function.update t.state current .zombie }, [], []⟩

theorem inv_dying : Inv (t.adopted current init []) (fun _ => False) (dying t current) := by
  refine ⟨?_, fun _ _ gone => gone.elim, fun _ _ => ⟨rfl, rfl⟩, fun _ gone => gone.elim,
    fun _ isRead => nomatch isRead⟩
  have parents : (t.adopted current init []).pPptr = t.pPptr := by
    funext p
    simp [GroupTree.adopted]
  rw [GroupTree.frame, GroupTree.frame, parents]
  rfl

/-- Case i. -/
theorem checkOwn_spec (consistent : t.Consistent root init kids rank)
    (runs : t.state current = .running) (isFather : t.pPptr current = some father) :
    (ReadsTasks t ((dying t current).checkOwn null current father) ↔
      ∀ pgrp, t.Called current init [] pgrp → t.Readable pgrp) ∧
    (ReadsTasks t ((dying t current).checkOwn null current father) →
      Between t current init [] ((dying t current).checkOwn null current father)) := by
  have inv := @inv_dying t init current
  have called (g : Int) : t.Called current init [] g ↔
      (t.adopted current init []).Orphaned g ∧ t.TestsOwn current g := by
    simp [GroupTree.Called]
  have own (g : Int) : t.TestsOwn current g ↔ g = t.pgrp current ∧
      t.pgrp father ≠ t.pgrp current ∧ t.session father = t.session current := by
    simp [GroupTree.TestsOwn, isFather]
  have tells (x : Exiting) (fired : Int → Prop) (inv : Inv (t.adopted current init []) fired x) :
      Inv (t.adopted current init []) fired (x.tellChild father) :=
    ⟨inv.frame, inv.signalled, inv.calm, inv.full, inv.read⟩
  have split : (dying t current).checkOwn null current father =
      (if t.pgrp father ≠ t.pgrp current ∧ t.session father = t.session current then
        (dying t current).orphanCheck null (t.pgrp current)
      else dying t current).tellChild father := rfl
  rw [split]
  by_cases tests : t.pgrp father ≠ t.pgrp current ∧ t.session father = t.session current
  · rw [if_pos tests]
    obtain ⟨reads, after⟩ := @Inv.orphanCheck _ _ null _ (t.pgrp current) inv
      consistent.tree.distinct fun gone => gone.elim
    rw [GroupTree.readable_adopted runs] at reads
    refine ⟨reads.trans ⟨fun one g isCalled => ?_, fun all orphaned => ?_⟩,
      fun occupied => ⟨(tells _ _ (after occupied)).congr fun g => ?_, fun g isCalled => ?_⟩⟩
    · obtain ⟨orphaned, isOwn⟩ := (called g).mp isCalled
      obtain ⟨rfl, -⟩ := (own g).mp isOwn
      exact one orphaned
    · exact all _ ((called _).mpr ⟨orphaned, (own _).mpr ⟨rfl, tests⟩⟩)
    · rw [GroupTree.Fired, called, own, GroupTree.hasStopped_adopted runs, false_or]
      constructor
      · rintro ⟨⟨orphaned, same, -⟩, stopped, pos⟩
        exact ⟨same, orphaned, stopped, pos⟩
      · rintro ⟨same, orphaned, stopped, pos⟩
        exact ⟨⟨orphaned, same, tests⟩, stopped, pos⟩
    · obtain ⟨orphaned, isOwn⟩ := (called g).mp isCalled
      obtain ⟨rfl, -⟩ := (own g).mp isOwn
      exact reads.mp occupied orphaned
  · rw [if_neg tests]
    have untested (g : Int) : ¬t.Called current init [] g := fun is =>
      tests ((own g).mp ((called g).mp is).2).2
    refine ⟨iff_of_true inv.read fun g is => absurd is (untested g),
      fun _ => ⟨(tells _ _ inv).congr fun g => ?_, fun g is => absurd is (untested g)⟩⟩
    exact iff_of_false (fun is => untested g is.1) id

theorem doExit_of_father (isFather : t.pPptr current = some father)
    (initSlot : t.task 1 = some init) : doExit null t current =
      match ((dying t current).checkOwn null current father).tree.pCptr current with
      | none => some ((dying t current).checkOwn null current father)
      | some p =>
          (checkFrom null current init nrTasks
            ((dying t current).checkOwn null current father) p).bind fun (x, p) =>
              x.linkToInit current p := by
  simp only [doExit, isFather, initSlot]
  rfl

/-- What `do_exit` has read and sent. -/
theorem doExit_spec (consistent : t.Consistent root init kids rank)
    (exits : t.CanExit current) :
    ∃ x, doExit null t current = some x ∧
      (ReadsTasks t x ↔ ∀ pgrp, t.Called current init (kids current) pgrp → t.Readable pgrp) ∧
      (ReadsTasks t x →
        (∀ p, t.Scanned p → t.Fired current init (kids current) (t.pgrp p) →
          x.sentTo p = [sigHup, sigCont]) ∧
        ∀ p, ¬(t.Scanned p ∧ t.Fired current init (kids current) (t.pgrp p)) →
          x.sentTo p = []) := by
  obtain ⟨⟨member, runs⟩, notRoot, notInit⟩ := exits
  have tree := consistent.tree
  rw [tree.rootSlot] at notRoot
  rw [tree.initSlot] at notInit
  have notRoot : current ≠ root := fun same => notRoot (congrArg some same.symm)
  have notInit : current ≠ init := fun same => notInit (congrArg some same.symm)
  obtain ⟨father, -, isFather, -⟩ := tree.parent current member notRoot
  obtain ⟨reads, after⟩ := @checkOwn_spec t null root init current father kids rank consistent
    runs isFather
  have keeps : Keeps (dying t current) ((dying t current).checkOwn null current father) :=
    keeps_checkOwn
  have begins := @doExit_of_father t null init current father isFather tree.initSlot
  generalize (dying t current).checkOwn null current father = x at reads after keeps begins
  have children : x.tree.pCptr current = (kids current).head? :=
    (congrFun (congrArg (·.pCptr) keeps.frame) current).trans (tree.chained current member).head
  rw [begins, children]
  cases isKids : kids current with
  | nil =>
      refine ⟨x, rfl, reads, fun occupied => ?_⟩
      have inv := (after occupied).inv
      exact ⟨fun p scanned gone => (inv.signalled p scanned gone).2,
        fun p calm => (inv.calm p calm).2⟩
  | cons p rest =>
      have chain := tree.chained current member
      rw [isKids] at chain
      have links : x.tree.pOsptr = t.pOsptr := congrArg (·.pOsptr) keeps.frame
      have leads : Leads x.tree.pOsptr (x.tree.pOsptr p) rest := by
        rw [links]
        exact chain.leads.2
      have enough : rest.length < nrTasks := by
        have bound := tree.length_kids_le member
        rw [isKids] at bound
        exact bound
      obtain ⟨last, rounds⟩ := @checkFrom_eq x null init current p rest nrTasks enough leads
      have areKids : ∀ c ∈ p :: rest, c ∈ kids current := fun c inside => isKids ▸ inside
      obtain ⟨task, child⟩ := @foldl_links x null init current (p :: rest)
      have bothReads (start : Between t current init [] x) :=
        @Between.checkAll t x null root init current kids rank [] (p :: rest) consistent member
          runs areKids start
      have early (i : Fin nrTasks) (isRead : i ∈ x.read) :=
        @mem_read_foldl x null init current (p :: rest) i isRead
      generalize (p :: rest).foldl (fun x c => x.checkChild null current init c) x = y
        at rounds task child bothReads early
      obtain ⟨younger, isYounger⟩ : ∃ c, t.pCptr init = some c := by
        have some_kid := tree.init_has_kids member notRoot notInit
        rw [(tree.chained init tree.inTable_init).head]
        exact Option.ne_none_iff_exists'.mp fun none => some_kid (List.head?_eq_none_iff.mp none)
      have initSlot : y.tree.task 1 = some init := by
        have same : x.tree.task = t.task := congrArg (·.task) keeps.frame
        rw [task, same]
        exact tree.initSlot
      have initChild : y.tree.pCptr init = some younger := by
        have same : x.tree.pCptr = t.pCptr := congrArg (·.pCptr) keeps.frame
        rw [child, same]
        exact isYounger
      have linked : ∃ z, y.linkToInit current last = some z ∧ z.read = y.read ∧
          z.sent = y.sent := by
        simp only [Exiting.linkToInit, ProcessTree.linkToInit, initSlot, initChild,
          Option.map_some]
        exact ⟨_, rfl, rfl, rfl⟩
      obtain ⟨z, isLinked, read, sent⟩ := linked
      have sentTo (p : Page) : z.sentTo p = y.sentTo p := by rw [Exiting.sentTo, Exiting.sentTo, sent]
      have sameReads : ReadsTasks t z ↔ ReadsTasks t y := by rw [ReadsTasks, ReadsTasks, read]
      have earlier (occupied : ReadsTasks t y) : ReadsTasks t x :=
        fun i isRead => occupied i (early i isRead)
      refine ⟨z, ?_, sameReads.trans ⟨fun occupied => ?_, fun readable => ?_⟩, fun occupied => ?_⟩
      · simp only [List.head?_cons, rounds, Option.bind_some, isLinked]
      · exact (bothReads (after (earlier occupied))).1.mp occupied
      · have first : ReadsTasks t x := reads.mpr fun g isCalled =>
          readable g (consistent.called_append member areKids isCalled)
        exact (bothReads (after first)).1.mpr readable
      · have occupied := sameReads.mp occupied
        have inv := ((bothReads (after (earlier occupied))).2 occupied).inv
        simp only [sentTo]
        exact ⟨fun p scanned gone => (inv.signalled p scanned gone).2,
          fun p calm => (inv.calm p calm).2⟩

end Exiting

/-! ## What an exit is meant to do -/

section Spec

variable {t : GroupTree} {null : NullMember} {root init current p : Page}
variable {kids : Page → List Page} {rank : Page → Nat} {pgrp : Int}

/-- The exit orphans the group, and the group has a stopped member. -/
def GroupTree.ToTell (t : GroupTree) (current init : Page) (pgrp : Int) : Prop :=
  (¬t.Orphaned pgrp ∧ (t.handedOver current init).Orphaned pgrp) ∧ t.HasStopped pgrp

/-- The live members of the newly orphaned groups with stopped members, and nobody else, are
sent `SIGHUP` and then `SIGCONT`, and no empty slot is read. -/
structure TellsOrphans (t : GroupTree) (current init : Page) (x : Exiting) : Prop where
  told : ∀ p, t.InTable p → t.state p ≠ .zombie → p ≠ current →
    t.ToTell current init (t.pgrp p) → x.sentTo p = [sigHup, sigCont]
  others : ∀ p, ¬t.ToTell current init (t.pgrp p) → x.sentTo p = []
  read : ∀ i ∈ x.read, (t.task i).isSome = true

/-- The group is that of the task, and the father is outside; or it is another group with a
child of the task in the session. -/
def GroupTree.Tested (t : GroupTree) (current : Page) (pgrp : Int) : Prop :=
  t.TestsOwn current pgrp ∨
    ∃ c, (t.InTable c ∧ t.pPptr c = some current) ∧ t.TestsChild current pgrp c

/-- Every group that is tested and orphaned after the exit can be scanned without reading an
empty slot; and one with stopped members was not orphaned before, or is no number of a group,
and then it was. -/
def GroupTree.Sure (t : GroupTree) (current init : Page) : Prop :=
  ∀ pgrp, t.Tested current pgrp → (t.handedOver current init).Orphaned pgrp →
    t.Seen pgrp ∧ (t.HasStopped pgrp →
      if 0 < pgrp then t.Full ∧ ¬t.Orphaned pgrp else t.Orphaned pgrp)

theorem GroupTree.Consistent.called_iff (consistent : t.Consistent root init kids rank)
    (member : t.InTable current) : t.Called current init (kids current) pgrp ↔
      (t.handedOver current init).Orphaned pgrp ∧ t.Tested current pgrp := by
  rw [GroupTree.Called, consistent.handedOver_eq member, GroupTree.Tested]
  simp only [consistent.tree.mem_kids current _ member]

/-- The group that an exit orphans is tested. -/
theorem GroupTree.Consistent.tested (consistent : t.Consistent root init kids rank)
    (member : t.InTable current) (connected : ¬t.Orphaned pgrp)
    (orphaned : (t.handedOver current init).Orphaned pgrp) : t.Tested current pgrp := by
  rw [consistent.handedOver_eq member, consistent.orphaned_adopted] at orphaned
  simp only [GroupTree.Orphaned, not_forall, not_not] at connected
  obtain ⟨i, p, notFirst, slot, connects⟩ := connected
  by_cases isKid : p ∈ kids current
  · exact .inr ⟨p, (consistent.tree.mem_kids current p member).mp isKid,
      consistent.testsChild member isKid connects⟩
  · by_cases same : p = current
    · subst same
      obtain ⟨inGroup, -, outside⟩ := connects
      rw [GroupTree.Outside] at outside
      cases isFather : t.pPptr p with
      | none =>
          rw [isFather] at outside
          exact outside.elim
      | some father =>
          rw [isFather] at outside
          exact .inl ⟨inGroup.symm, father, isFather, inGroup ▸ outside.2.1, outside.2.2⟩
    · exact absurd connects (orphaned i p notFirst slot isKid same)

/-- An exit tells the groups that it orphans, and nobody else, if and only if the tests are
sure of them. -/
theorem tellsOrphans_iff (consistent : t.Consistent root init kids rank)
    (exits : t.CanExit current) :
    (∃ x, Exiting.doExit null t current = some x ∧ TellsOrphans t current init x) ↔
      t.Sure current init := by
  obtain ⟨⟨member, runs⟩, -⟩ := id exits
  obtain ⟨x, done, reads, sent⟩ := @Exiting.doExit_spec t null root init current kids rank
    consistent exits
  simp only [GroupTree.Fired, consistent.called_iff member] at reads sent
  constructor
  · rintro ⟨x', done', tells⟩
    rw [done] at done'
    cases done'
    have readable := reads.mp tells.read
    obtain ⟨signalled, calm⟩ := sent tells.read
    intro g tested orphaned
    obtain ⟨seen, full⟩ := readable g ⟨orphaned, tested⟩
    refine ⟨seen, fun stopped => ?_⟩
    obtain ⟨i, notFirst, p, slot, rfl, isStopped⟩ := id stopped
    have scanned : t.Scanned p := ⟨i, notFirst, slot⟩
    have lives : p ≠ current := by
      rintro rfl
      rw [runs] at isStopped
      cases isStopped
    by_cases pos : 0 < t.pgrp p
    · rw [if_pos pos]
      refine ⟨full stopped pos, fun before => ?_⟩
      have gone := signalled p scanned ⟨⟨orphaned, tested⟩, stopped, pos⟩
      rw [tells.others p fun toTell => toTell.1.1 before] at gone
      cases gone
    · rw [if_neg pos]
      by_contra connected
      have told := tells.told p ⟨i, slot⟩ (by rw [isStopped]; nofun) lives
        ⟨⟨connected, orphaned⟩, stopped⟩
      rw [calm p fun both => pos both.2.2.2] at told
      cases told
  · intro sure
    have readable : Exiting.ReadsTasks t x := reads.mpr fun g ⟨orphaned, tested⟩ => by
      obtain ⟨seen, rest⟩ := sure g tested orphaned
      refine ⟨seen, fun stopped pos => ?_⟩
      have both := rest stopped
      rw [if_pos pos] at both
      exact both.1
    obtain ⟨signalled, calm⟩ := sent readable
    refine ⟨x, done, fun p inTable _ _ toTell => ?_, fun p quiet => ?_, readable⟩
    · obtain ⟨⟨connected, orphaned⟩, stopped⟩ := toTell
      have tested := consistent.tested member connected orphaned
      have pos : 0 < t.pgrp p := by
        by_contra notPos
        have both := (sure _ tested orphaned).2 stopped
        rw [if_neg notPos] at both
        exact connected both
      obtain ⟨i, slot⟩ := inTable
      have notFirst : i ≠ 0 := by
        rintro rfl
        rw [consistent.tree.rootSlot] at slot
        cases slot
        rw [consistent.idle] at pos
        exact absurd pos (lt_irrefl _)
      exact signalled p ⟨i, notFirst, slot⟩ ⟨⟨orphaned, tested⟩, stopped, pos⟩
    · refine calm p fun ⟨_, ⟨orphaned, tested⟩, stopped, pos⟩ => quiet ?_
      have both := (sure _ tested orphaned).2 stopped
      rw [if_pos pos] at both
      exact ⟨⟨both.2, orphaned⟩, stopped⟩

end Spec

/-! ## A stopped job -/

/-- Init has a child 30, this a child 40 and this a child 50, which is stopped. -/
def stoppedJob : List ProcessTree.Action :=
  [.copyProcess 20 2 (some 30) true, .copyProcess 30 3 (some 40) true,
    .copyProcess 40 4 (some 50) true, .setState 50 .stopped]

/-- Init forks until the table is full. -/
def fillTable : List ProcessTree.Action :=
  (List.range 59).map fun k => .copyProcess 20 (Fin.ofNat nrTasks (k + 5)) (some (k + 100)) true

/-- Task 30 is in group 3 of its session; 40 and 50 are group 4. -/
def GroupTree.jobs (actions : List ProcessTree.Action) : GroupTree where
  toProcessTree :=
    (Lib.exec ProcessTree.step (ProcessTree.start 10 20) actions).getD (ProcessTree.start 10 20)
  pid p := if p = 20 then 1 else p
  pgrp p := if p = 40 ∨ p = 50 then 4 else if p = 30 then 3 else 0
  session p := if p = 30 ∨ p = 40 ∨ p = 50 then 3 else 0
  exitCode _ := 0
  signal _ := 0
  saHandler _ _ := 0

theorem GroupTree.jobs_consistent {actions : List ProcessTree.Action}
    (runs : (Lib.exec ProcessTree.step (ProcessTree.start 10 20) actions).isSome)
    (fresh : ¬(GroupTree.jobs actions).InTable 1) :
    ∃ kids rank, (GroupTree.jobs actions).Consistent 10 20 kids rank := by
  obtain ⟨final, reached⟩ := Option.isSome_iff_exists.mp runs
  have isTree : (GroupTree.jobs actions).toProcessTree = final := by
    simp [GroupTree.jobs, reached]
  have inv : (GroupTree.jobs actions).toProcessTree.Inv 10 20 := by
    rw [isTree]
    exact Lib.exec_preserves (ProcessTree.Inv 10 20) (fun _ _ _ inv taken => inv.step taken)
      (ProcessTree.inv_start (by decide)) reached
  obtain ⟨kids, rank, tree⟩ := inv
  refine ⟨kids, rank, tree, fun p inTable => ?_, rfl⟩
  have other : p ≠ 1 := fun same => fresh (same ▸ inTable)
  simp only [GroupTree.jobs]
  split
  · simpa
  · rename_i notInit
    refine iff_of_false (fun isOne => other ?_) notInit
    exact_mod_cast isOne

/-- In a full table the members of group 4 are told. -/
theorem tellsOrphans_fullTable :
    ∃ x, Exiting.doExit ⟨0, .running⟩ (GroupTree.jobs (stoppedJob ++ fillTable)) 40 = some x ∧
      TellsOrphans (GroupTree.jobs (stoppedJob ++ fillTable)) 40 20 x := by
  obtain ⟨runs, fresh, exits, father, full, fortieth, connects⟩ :
      (Lib.exec ProcessTree.step (ProcessTree.start 10 20) (stoppedJob ++ fillTable)).isSome ∧
        ¬(GroupTree.jobs (stoppedJob ++ fillTable)).InTable 1 ∧
        (GroupTree.jobs (stoppedJob ++ fillTable)).CanExit 40 ∧
        (GroupTree.jobs (stoppedJob ++ fillTable)).pPptr 30 ≠ some 40 ∧
        (∀ i ≠ 0, ((GroupTree.jobs (stoppedJob ++ fillTable)).task i).isSome = true) ∧
        (GroupTree.jobs (stoppedJob ++ fillTable)).task 3 = some 40 ∧
        (GroupTree.jobs (stoppedJob ++ fillTable)).Connects 4 40 := by
    decide +kernel
  obtain ⟨kids, rank, consistent⟩ := GroupTree.jobs_consistent runs fresh
  refine (tellsOrphans_iff consistent exits).mpr fun pgrp tested _ => ?_
  have own : pgrp = 4 := by
    rcases tested with ⟨rfl, -⟩ | ⟨c, ⟨-, isKid⟩, -, otherGroup, session⟩
    · rfl
    · have inSession : c = 30 ∨ c = 40 ∨ c = 50 := by
        by_contra outside
        simp [GroupTree.jobs, outside] at session
      rcases inSession with rfl | rfl | rfl
      · exact absurd isKid father
      · exact absurd rfl otherGroup
      · exact absurd rfl otherGroup
  subst own
  refine ⟨fun i notFirst empty => ?_, fun _ => ?_⟩
  · have occupied := full i notFirst
    rw [empty] at occupied
    cases occupied
  · exact ⟨full, fun orphaned => orphaned 3 40 (by decide) fortieth connects⟩

/-- `has_stopped_jobs` reads the last slot, which is empty. -/
theorem not_tellsOrphans_emptySlot :
    (∃ kids rank, (GroupTree.jobs stoppedJob).Consistent 10 20 kids rank) ∧
      (GroupTree.jobs stoppedJob).CanExit 40 ∧
      ¬∃ x, Exiting.doExit ⟨0, .running⟩ (GroupTree.jobs stoppedJob) 40 = some x ∧
        TellsOrphans (GroupTree.jobs stoppedJob) 40 20 x := by
  refine ⟨GroupTree.jobs_consistent (by decide +kernel) (by decide +kernel), by decide +kernel, ?_⟩
  rintro ⟨x, done, tells⟩
  have reads : (Exiting.doExit ⟨0, .running⟩ (GroupTree.jobs stoppedJob) 40).map
      (fun x => decide (63 ∈ x.read)) = some true := by
    decide +kernel
  rw [done] at reads
  have occupied := tells.read 63 (of_decide_eq_true (Option.some.inj reads))
  revert occupied
  decide +kernel

end Linux012.Kernel
