import Linux012.Lib.Run
import Linux012.Lib.LinkedList
import Linux012.Kernel.Fork

/-!
# The process tree

The links of `task_struct` between a task, its parent, its youngest child and its
siblings, with what `copy_process`, `do_exit` and `release` do to them, and the checks of
`audit_ptree`.  Each call is one step.
-/

namespace Linux012.Kernel

open Lib (Chained Leads store store_self store_of_ne)

/-- `task[]` with the state and the links of the `task_struct` in each page. -/
structure ProcessTree where
  task : Fin nrTasks → Option Page
  state : Page → TaskState
  pPptr : Page → Option Page
  pCptr : Page → Option Page
  pYsptr : Page → Option Page
  pOsptr : Page → Option Page

namespace ProcessTree

/-- The page is in `task[]`. -/
def InTable (t : ProcessTree) (p : Page) : Prop := ∃ i, t.task i = some p

instance (t : ProcessTree) (p : Page) : Decidable (t.InTable p) :=
  inferInstanceAs (Decidable (∃ i, t.task i = some p))

/-! ## copy_process -/

/-- `*p = *current`, and `p->state = TASK_UNINTERRUPTIBLE`. -/
def copyStruct (t : ProcessTree) (current p : Page) : ProcessTree :=
  { t with
    state := Function.update t.state p .uninterruptible
    pPptr := store t.pPptr (some p) (t.pPptr current)
    pCptr := store t.pCptr (some p) (t.pCptr current)
    pYsptr := store t.pYsptr (some p) (t.pYsptr current)
    pOsptr := store t.pOsptr (some p) (t.pOsptr current) }

/-- The end of `copy_process`, from `p->p_pptr = current` on. -/
def linkChild (t : ProcessTree) (current p : Page) : ProcessTree :=
  let t := { t with pPptr := store t.pPptr (some p) (some current) }
  let t := { t with pCptr := store t.pCptr (some p) none }
  let t := { t with pYsptr := store t.pYsptr (some p) none }
  let t := { t with pOsptr := store t.pOsptr (some p) (t.pCptr current) }
  let t := { t with pYsptr := store t.pYsptr (t.pOsptr p) (some p) }
  let t := { t with pCptr := store t.pCptr (some current) (some p) }
  { t with state := Function.update t.state p .running }

/-- `copy_process (nr, ..)`; `page` is what `get_free_page` returns and `copied` whether
`copy_mem` succeeds. -/
def copyProcess (t : ProcessTree) (nr : Fin nrTasks) (current : Page) (page : Option Page)
    (copied : Bool) : ProcessTree :=
  match page with
  | none => t -- `-EAGAIN`
  | some p =>
      let t := { t with task := Function.update t.task nr (some p) }
      let t := t.copyStruct current p
      if copied then t.linkChild current p
      else { t with task := Function.update t.task nr none } -- `-EAGAIN`

/-! ## do_exit -/

/-- The loop of `do_exit` over the children from `p` on, with the last of them; `none`
when it is still running after `fuel` rounds. -/
def inherit : Nat → ProcessTree → Page → Option (ProcessTree × Page)
  | 0, _, _ => none
  | fuel + 1, t, p =>
      let t := { t with pPptr := store t.pPptr (some p) (t.task 1) }
      match t.pOsptr p with
      | some p => inherit fuel t p
      | none => some (t, p)

/-- "link everything into init's children"; `none` when `task[1]->p_cptr` is null and is
dereferenced. -/
def linkToInit (t : ProcessTree) (current p : Page) : Option ProcessTree :=
  match t.task 1 with
  | none => none
  | some init =>
      let t := { t with pOsptr := store t.pOsptr (some p) (t.pCptr init) }
      match t.pCptr init with
      | none => none
      | some child =>
          let t := { t with pYsptr := store t.pYsptr (some child) (some p) }
          let t := { t with pCptr := store t.pCptr (some init) (t.pCptr current) }
          some { t with pCptr := store t.pCptr (some current) none }

/-- `do_exit` from `current->state = TASK_ZOMBIE` on. -/
def doExit (t : ProcessTree) (current : Page) : Option ProcessTree :=
  let t := { t with state := Function.update t.state current .zombie }
  match t.pCptr current with
  | none => some t
  | some p => (inherit nrTasks t p).bind fun (t, p) => t.linkToInit current p

/-! ## release -/

/-- `release`; `none` when it panics. -/
def release (t : ProcessTree) (current p : Page) : Option ProcessTree :=
  if p = current then some t -- "task releasing itself"
  else
    match (List.finRange nrTasks).find? fun i => i ≠ 0 && t.task i == some p with
    | none => none -- "trying to release non-existent task"
    | some i =>
        let t := { t with task := Function.update t.task i none }
        let t := { t with pYsptr := store t.pYsptr (t.pOsptr p) (t.pYsptr p) }
        match t.pYsptr p with
        | some younger => some { t with pOsptr := store t.pOsptr (some younger) (t.pOsptr p) }
        | none => some { t with pCptr := store t.pCptr (t.pPptr p) (t.pOsptr p) }

/-- The children that the loop of `sys_waitpid` comes to from `p` on. -/
def children (t : ProcessTree) : Nat → Option Page → List Page
  | 0, _ => []
  | _, none => []
  | fuel + 1, some p => p :: t.children fuel (t.pOsptr p)

/-! ## audit_ptree -/

/-- `bad_task_ptr`. -/
def badTaskPtr (t : ProcessTree) : Option Page → Bool
  | none => false
  | some p => !decide (t.InTable p)

/-- `audit_ptree` has no warning about the task. -/
def auditTask (t : ProcessTree) (p : Page) : Bool :=
  (!t.badTaskPtr (t.pPptr p) && !t.badTaskPtr (t.pCptr p) && !t.badTaskPtr (t.pYsptr p) &&
    !t.badTaskPtr (t.pOsptr p)) &&
  (t.pPptr p != some p && t.pCptr p != some p && t.pYsptr p != some p &&
    t.pOsptr p != some p) &&
  ((t.pOsptr p).all fun older => t.pPptr p == t.pPptr older && t.pYsptr older == some p) &&
  ((t.pYsptr p).all fun younger =>
    t.pPptr p == t.pPptr younger && t.pOsptr younger == some p) &&
  ((t.pCptr p).all fun child => t.pPptr child == some p && t.pYsptr child == none)

/-- `audit_ptree` prints nothing. -/
def auditPtree (t : ProcessTree) : Bool :=
  (List.finRange nrTasks).all fun i => i == 0 || (t.task i).all t.auditTask

/-! ## Runs -/

inductive Action where
  /-- `copy_process` for a slot that `find_empty_process` returns. -/
  | copyProcess (current : Page) (nr : Fin nrTasks) (page : Option Page) (copied : Bool)
  /-- `do_exit`. -/
  | doExit (current : Page)
  /-- `sys_waitpid` comes to the zombie `p`. -/
  | release (current p : Page)
  /-- A task falls asleep, is stopped or wakes up. -/
  | setState (p : Page) (state : TaskState)

/-- The task runs: it is in the table, and not asleep. -/
def Runs (t : ProcessTree) (current : Page) : Prop :=
  t.InTable current ∧ t.state current = .running

instance (t : ProcessTree) (current : Page) : Decidable (t.Runs current) :=
  inferInstanceAs (Decidable (_ ∧ _))

/-- `task[0]` only idles and `task[1]` never exits. -/
def CanExit (t : ProcessTree) (current : Page) : Prop :=
  t.Runs current ∧ t.task 0 ≠ some current ∧ t.task 1 ≠ some current

instance (t : ProcessTree) (current : Page) : Decidable (t.CanExit current) :=
  inferInstanceAs (Decidable (_ ∧ _))

/-- One step. -/
def step (t : ProcessTree) : Action → Option ProcessTree
  | .copyProcess current nr page copied =>
      if t.Runs current ∧ t.task 0 ≠ some current ∧ nr ≠ 0 ∧ t.task nr = none ∧
          ∀ p ∈ page, ¬ t.InTable p then
        some (t.copyProcess nr current page copied)
      else none
  | .doExit current => if t.CanExit current then t.doExit current else none
  | .release current p =>
      if t.Runs current ∧ p ∈ t.children nrTasks (t.pCptr current) ∧ t.state p = .zombie then
        t.release current p
      else none
  | .setState p state =>
      if t.state p ≠ .zombie ∧ state ≠ .zombie then
        some { t with state := Function.update t.state p state }
      else none

/-- Task 0 has forked init and nobody else exists. -/
def start (root init : Page) : ProcessTree where
  task i := if i = 0 then some root else if i = 1 then some init else none
  state _ := .running
  pPptr p := if p = init then some root else none
  pCptr p := if p = root then some init else none
  pYsptr _ := none
  pOsptr _ := none

/-- What `audit_ptree` checks, and what `do_exit` relies on. -/
structure Sound (t : ProcessTree) : Prop where
  audited : t.auditPtree = true
  /-- The chain of the children of a task. -/
  children : ∀ p, t.InTable p → ∃ kids : List Page, kids.Nodup ∧
    Leads t.pOsptr (t.pCptr p) kids ∧ ∀ q, q ∈ kids ↔ t.InTable q ∧ t.pPptr q = some p
  inverse : ∀ p q, t.InTable p → t.InTable q → (t.pOsptr p = some q ↔ t.pYsptr q = some p)
  /-- `task[1]->p_cptr` is not null when it is dereferenced. -/
  exits : ∀ current, t.CanExit current → t.doExit current ≠ none

/-! ## The tree -/

/-- The links form a tree: `kids` are the children of each task, youngest first, and
`rank` grows from parents to children. -/
structure Tree (t : ProcessTree) (root init : Page) (kids : Page → List Page)
    (rank : Page → Nat) : Prop where
  rootSlot : t.task 0 = some root
  initSlot : t.task 1 = some init
  distinct : ∀ i j p, t.task i = some p → t.task j = some p → i = j
  chained : ∀ p, t.InTable p → Chained t.pOsptr t.pYsptr (t.pCptr p) (kids p)
  mem_kids : ∀ p q, t.InTable p → (q ∈ kids p ↔ t.InTable q ∧ t.pPptr q = some p)
  parent : ∀ q, t.InTable q → q ≠ root →
    ∃ p, t.InTable p ∧ t.pPptr q = some p ∧ rank p < rank q
  onlyInit : ∀ q, t.InTable q → t.pPptr q = some root → q = init
  lowest : ∀ q, t.InTable q → q ≠ root → q ≠ init → rank init < rank q
  rootLinks : t.pPptr root = none ∧ t.pYsptr root = none ∧ t.pOsptr root = none
  zombies : ∀ p, t.InTable p → t.state p = .zombie → kids p = []
  initLives : t.state init ≠ .zombie

variable {t : ProcessTree} {root init current p q : Page} {kids : Page → List Page}
variable {rank : Page → Nat}

theorem Tree.inTable_root (tree : t.Tree root init kids rank) : t.InTable root :=
  ⟨0, tree.rootSlot⟩

theorem Tree.inTable_init (tree : t.Tree root init kids rank) : t.InTable init :=
  ⟨1, tree.initSlot⟩

theorem Tree.root_ne_init (tree : t.Tree root init kids rank) : root ≠ init := by
  intro same
  have slots := tree.distinct 0 1 root tree.rootSlot (same ▸ tree.initSlot)
  exact absurd slots (by decide)

theorem Tree.kid_ne_root (tree : t.Tree root init kids rank) (member : t.InTable p)
    (isKid : q ∈ kids p) : q ≠ root := by
  intro same
  have isParent := ((tree.mem_kids p q member).mp isKid).2
  rw [same, tree.rootLinks.1] at isParent
  cases isParent

/-- No task is its own parent. -/
theorem Tree.kid_ne (tree : t.Tree root init kids rank) (member : t.InTable p)
    (isKid : q ∈ kids p) : q ≠ p := by
  intro same
  obtain ⟨known, isParent⟩ := (tree.mem_kids p q member).mp isKid
  obtain ⟨parent, -, isParent', higher⟩ := tree.parent q known (tree.kid_ne_root member isKid)
  rw [Option.some.inj (isParent'.symm.trans isParent), same] at higher
  exact lt_irrefl _ higher

/-- A task is among the children of its parent, between its siblings. -/
theorem Tree.siblings (tree : t.Tree root init kids rank) (member : t.InTable q)
    (notRoot : q ≠ root) : ∃ p before behind, t.InTable p ∧ t.pPptr q = some p ∧
      rank p < rank q ∧ kids p = before ++ q :: behind ∧
        t.pOsptr q = behind.head? ∧ t.pYsptr q = before.getLast? := by
  obtain ⟨p, inTable, isParent, higher⟩ := tree.parent q member notRoot
  have isKid : q ∈ kids p := (tree.mem_kids p q inTable).mpr ⟨member, isParent⟩
  obtain ⟨before, behind, split⟩ := List.append_of_mem isKid
  have chain := tree.chained p inTable
  rw [split] at chain
  exact ⟨p, before, behind, inTable, isParent, higher, split, chain.neighbours⟩

/-- The older sibling of a task has the same parent, and the task is the younger sibling of
it. -/
theorem Tree.older (tree : t.Tree root init kids rank) (member : t.InTable p)
    (older : t.pOsptr p = some q) :
    t.InTable q ∧ t.pPptr q = t.pPptr p ∧ t.pYsptr q = some p ∧ q ≠ p := by
  have notRoot : p ≠ root := by
    intro same
    rw [same, tree.rootLinks.2.2] at older
    cases older
  obtain ⟨parent, before, behind, inTable, isParent, -, split, behindP, -⟩ :=
    tree.siblings member notRoot
  rw [older] at behindP
  obtain ⟨rest, rfl⟩ := List.head?_eq_some_iff.mp behindP.symm
  have chain := tree.chained parent inTable
  have isKid : q ∈ kids parent := by
    rw [split]
    simp
  have differs : q ≠ p := by
    intro same
    have nodup := chain.nodup
    rw [split, same] at nodup
    exact (List.nodup_cons.mp (List.nodup_append.mp nodup).2.1).1 List.mem_cons_self
  have regroup : kids parent = (before ++ [p]) ++ q :: rest := by
    rw [split]
    simp
  rw [regroup] at chain
  obtain ⟨known, sameParent⟩ := (tree.mem_kids parent q inTable).mp isKid
  refine ⟨known, sameParent.trans isParent.symm, ?_, differs⟩
  rw [chain.neighbours.2]
  simp

theorem Tree.younger (tree : t.Tree root init kids rank) (member : t.InTable p)
    (younger : t.pYsptr p = some q) :
    t.InTable q ∧ t.pPptr q = t.pPptr p ∧ t.pOsptr q = some p ∧ q ≠ p := by
  have notRoot : p ≠ root := by
    intro same
    rw [same, tree.rootLinks.2.1] at younger
    cases younger
  obtain ⟨parent, before, behind, inTable, isParent, -, split, -, beforeP⟩ :=
    tree.siblings member notRoot
  rw [younger] at beforeP
  obtain ⟨front, rfl⟩ := List.getLast?_eq_some_iff.mp beforeP.symm
  have chain := tree.chained parent inTable
  have isKid : q ∈ kids parent := by
    rw [split]
    simp
  have differs : q ≠ p := by
    intro same
    have nodup := chain.nodup
    rw [split, same] at nodup
    exact (List.nodup_append.mp nodup).2.2 p (by simp) p (by simp) rfl
  have regroup : kids parent = front ++ q :: p :: behind := by
    rw [split]
    simp
  rw [regroup] at chain
  obtain ⟨known, sameParent⟩ := (tree.mem_kids parent q inTable).mp isKid
  refine ⟨known, sameParent.trans isParent.symm, ?_, differs⟩
  rw [chain.neighbours.1]
  rfl

theorem Tree.youngest (tree : t.Tree root init kids rank) (member : t.InTable p)
    (child : t.pCptr p = some q) :
    t.InTable q ∧ t.pPptr q = some p ∧ t.pYsptr q = none ∧ q ≠ p := by
  have chain := tree.chained p member
  have first := chain.head.symm.trans child
  have isKid := List.mem_of_mem_head? first
  obtain ⟨known, isParent⟩ := (tree.mem_kids p q member).mp isKid
  exact ⟨known, isParent, chain.first q first, tree.kid_ne member isKid⟩

theorem badTaskPtr_eq_false {pointer : Option Page} (good : ∀ q ∈ pointer, t.InTable q) :
    t.badTaskPtr pointer = false := by
  cases pointer with
  | none => rfl
  | some q => simpa [badTaskPtr] using good q rfl

/-- `audit_ptree` finds nothing wrong with a tree. -/
theorem Tree.auditTask (tree : t.Tree root init kids rank) (member : t.InTable p)
    (notRoot : p ≠ root) : t.auditTask p = true := by
  obtain ⟨parent, inTable, isParent, higher⟩ := tree.parent p member notRoot
  have parentOk : t.badTaskPtr (t.pPptr p) = false := by
    apply badTaskPtr_eq_false
    intro q isQ
    rw [isParent, Option.mem_some_iff] at isQ
    exact isQ ▸ inTable
  have notOwn : t.pPptr p ≠ some p := by
    intro own
    rw [Option.some.inj (isParent.symm.trans own)] at higher
    exact lt_irrefl _ higher
  rw [ProcessTree.auditTask]
  simp only [Bool.and_eq_true, Bool.not_eq_true', bne_iff_ne, ne_eq, Option.all_eq_true,
    beq_iff_eq]
  refine ⟨⟨⟨⟨⟨⟨⟨parentOk, ?_⟩, ?_⟩, ?_⟩, ⟨⟨notOwn, ?_⟩, ?_⟩, ?_⟩, ?_⟩, ?_⟩, ?_⟩
  · exact badTaskPtr_eq_false fun q isQ => (tree.youngest member isQ).1
  · exact badTaskPtr_eq_false fun q isQ => (tree.younger member isQ).1
  · exact badTaskPtr_eq_false fun q isQ => (tree.older member isQ).1
  · intro own
    exact (tree.youngest member own).2.2.2 rfl
  · intro own
    exact (tree.younger member own).2.2.2 rfl
  · intro own
    exact (tree.older member own).2.2.2 rfl
  · intro q isQ
    have facts := tree.older member isQ
    exact ⟨facts.2.1.symm, facts.2.2.1⟩
  · intro q isQ
    have facts := tree.younger member isQ
    exact ⟨facts.2.1.symm, facts.2.2.1⟩
  · intro q isQ
    have facts := tree.youngest member isQ
    exact ⟨facts.2.1, facts.2.2.1⟩

theorem Tree.auditPtree (tree : t.Tree root init kids rank) : t.auditPtree = true := by
  rw [ProcessTree.auditPtree, List.all_eq_true]
  intro i _
  rw [Bool.or_eq_true, beq_iff_eq, Option.all_eq_true]
  by_cases first : i = 0
  · exact .inl first
  · right
    intro p slot
    apply tree.auditTask ⟨i, slot⟩
    intro same
    exact first (tree.distinct i 0 root (same ▸ slot) tree.rootSlot)

/-- A task besides 0 and 1 descends from init, so init has a child. -/
theorem Tree.init_has_kids (tree : t.Tree root init kids rank) (member : t.InTable q)
    (notRoot : q ≠ root) (notInit : q ≠ init) : kids init ≠ [] := by
  induction bound : rank q using Nat.strong_induction_on generalizing q with
  | _ _ ih =>
      obtain ⟨p, inTable, isParent, higher⟩ := tree.parent q member notRoot
      by_cases isInit : p = init
      · subst isInit
        exact List.ne_nil_of_mem ((tree.mem_kids p q inTable).mpr ⟨member, isParent⟩)
      · have parentNotRoot : p ≠ root := by
          intro isRoot
          exact notInit (tree.onlyInit q member (isRoot ▸ isParent))
        exact ih (rank p) (bound ▸ higher) inTable parentNotRoot isInit rfl

theorem Tree.apart {other : Page} (tree : t.Tree root init kids rank) (member : t.InTable p)
    (member' : t.InTable other) (differs : p ≠ other) : ∀ q ∈ kids p, q ∉ kids other := by
  intro q isKid isKid'
  have parent := ((tree.mem_kids p q member).mp isKid).2
  have parent' := ((tree.mem_kids other q member').mp isKid').2
  exact differs (Option.some.inj (parent.symm.trans parent'))

theorem Tree.init_parent (tree : t.Tree root init kids rank) : t.pPptr init = some root := by
  obtain ⟨p, inTable, isParent, higher⟩ :=
    tree.parent init tree.inTable_init tree.root_ne_init.symm
  by_cases isRoot : p = root
  · rw [isParent, isRoot]
  · by_cases isInit : p = init
    · rw [isInit] at higher
      exact absurd higher (lt_irrefl _)
    · exact absurd (tree.lowest p inTable isRoot isInit) (not_lt_of_gt higher)

theorem Tree.parent_inTable (tree : t.Tree root init kids rank) (member : t.InTable q)
    (isParent : t.pPptr q = some p) : t.InTable p := by
  have notRoot : q ≠ root := by
    intro same
    rw [same, tree.rootLinks.1] at isParent
    cases isParent
  obtain ⟨parent, inTable, isParent', -⟩ := tree.parent q member notRoot
  exact Option.some.inj (isParent'.symm.trans isParent) ▸ inTable

theorem Tree.length_kids_le (tree : t.Tree root init kids rank) (member : t.InTable p) :
    (kids p).length ≤ nrTasks := by
  have found : (kids p).map some ⊆ (List.finRange nrTasks).map t.task := by
    intro pointer isKid
    obtain ⟨q, memberQ, rfl⟩ := List.mem_map.mp isKid
    obtain ⟨i, slot⟩ := ((tree.mem_kids p q member).mp memberQ).1
    rw [← slot]
    exact List.mem_map_of_mem (List.mem_finRange i)
  have nodup := (tree.chained p member).nodup.map (Option.some_injective Page)
  have bound := (nodup.subperm found).length_le
  rwa [List.length_map, List.length_map, List.length_finRange] at bound

/-- A change to the links and states of pages outside the table. -/
theorem Tree.congr {t' : ProcessTree} (tree : t.Tree root init kids rank)
    (sameTask : t'.task = t.task)
    (sameState : ∀ p, t.InTable p → (t'.state p = .zombie ↔ t.state p = .zombie))
    (sameLinks : ∀ p, t.InTable p → t'.pPptr p = t.pPptr p ∧ t'.pCptr p = t.pCptr p ∧
      t'.pYsptr p = t.pYsptr p ∧ t'.pOsptr p = t.pOsptr p) :
    t'.Tree root init kids rank := by
  have sameTable (p : Page) : t'.InTable p ↔ t.InTable p := by
    rw [InTable, InTable, sameTask]
  refine ⟨sameTask ▸ tree.rootSlot, sameTask ▸ tree.initSlot, sameTask ▸ tree.distinct,
    ?_, ?_, ?_, ?_, ?_, ?_, ?_, ?_⟩
  · intro p member
    rw [sameTable] at member
    rw [(sameLinks p member).2.1]
    apply (tree.chained p member).congr
    intro q isKid
    have facts := sameLinks q ((tree.mem_kids p q member).mp isKid).1
    exact ⟨facts.2.2.2, facts.2.2.1⟩
  · intro p q member
    rw [sameTable] at member
    rw [tree.mem_kids p q member, sameTable]
    apply and_congr_right
    intro memberQ
    rw [(sameLinks q memberQ).1]
  · intro q member notRoot
    rw [sameTable] at member
    obtain ⟨p, inTable, isParent, higher⟩ := tree.parent q member notRoot
    exact ⟨p, (sameTable p).mpr inTable, (sameLinks q member).1.trans isParent, higher⟩
  · intro q member isParent
    rw [sameTable] at member
    exact tree.onlyInit q member ((sameLinks q member).1.symm.trans isParent)
  · intro q member
    rw [sameTable] at member
    exact tree.lowest q member
  · have facts := sameLinks root tree.inTable_root
    exact ⟨facts.1.trans tree.rootLinks.1, facts.2.2.1.trans tree.rootLinks.2.1,
      facts.2.2.2.trans tree.rootLinks.2.2⟩
  · intro p member
    rw [sameTable] at member
    rw [sameState p member]
    exact tree.zombies p member
  · rw [ne_eq, sameState init tree.inTable_init]
    exact tree.initLives

/-! ## The calls -/

/-- The copy that a failing `copy_process` leaves behind is outside the table. -/
theorem Tree.copyProcess_fails {nr : Fin nrTasks} (tree : t.Tree root init kids rank)
    (empty : t.task nr = none) (fresh : ¬ t.InTable p) :
    (t.copyProcess nr current (some p) false).Tree root init kids rank := by
  have other {q : Page} (member : t.InTable q) : q ≠ p := fun same => fresh (same ▸ member)
  have notP {q : Page} (member : t.InTable q) : some p ≠ some q :=
    fun same => other member (Option.some.inj same).symm
  apply tree.congr
  · change Function.update (Function.update t.task nr (some p)) nr none = t.task
    rw [Function.update_idem, ← empty, Function.update_eq_self]
  · intro q member
    change Function.update t.state p .uninterruptible q = _ ↔ _
    rw [Function.update_of_ne (other member)]
  · intro q member
    exact ⟨store_of_ne _ (notP member), store_of_ne _ (notP member),
      store_of_ne _ (notP member), store_of_ne _ (notP member)⟩

theorem copyProcess_eq {nr : Fin nrTasks} (other : current ≠ p) :
    t.copyProcess nr current (some p) true =
      { task := Function.update t.task nr (some p)
        state := Function.update t.state p .running
        pPptr := store t.pPptr (some p) (some current)
        pCptr := store (store t.pCptr (some p) none) (some current) (some p)
        pYsptr := store (store t.pYsptr (some p) none) (t.pCptr current) (some p)
        pOsptr := store t.pOsptr (some p) (t.pCptr current) } := by
  have notP : some p ≠ some current := fun same => other (Option.some.inj same).symm
  simp [ProcessTree.copyProcess, copyStruct, linkChild, store_of_ne _ notP]

theorem inTable_update_some {nr : Fin nrTasks} (empty : t.task nr = none) :
    (∃ i, Function.update t.task nr (some p) i = some q) ↔ t.InTable q ∨ q = p := by
  constructor
  · intro found
    obtain ⟨i, slot⟩ := found
    by_cases filled : i = nr
    · rw [filled, Function.update_self] at slot
      exact .inr (Option.some.inj slot).symm
    · rw [Function.update_of_ne filled] at slot
      exact .inl ⟨i, slot⟩
  · intro known
    rcases known with ⟨i, slot⟩ | same
    · have notEmpty : i ≠ nr := by
        intro same
        rw [same, empty] at slot
        cases slot
      exact ⟨i, by rw [Function.update_of_ne notEmpty, slot]⟩
    · exact ⟨nr, by rw [Function.update_self, same]⟩

/-- The new task becomes the youngest child. -/
theorem Tree.copyProcess {nr : Fin nrTasks} (tree : t.Tree root init kids rank)
    (empty : t.task nr = none) (fresh : ¬ t.InTable p) (member : t.InTable current)
    (notRoot : current ≠ root) (lives : t.state current ≠ .zombie) :
    (t.copyProcess nr current (some p) true).Tree root init
      (Function.update (Function.update kids p []) current (p :: kids current))
      (Function.update rank p (rank current + 1)) := by
  have other {q : Page} (member : t.InTable q) : q ≠ p := fun same => fresh (same ▸ member)
  have notP {q : Page} (member : t.InTable q) : some p ≠ some q :=
    fun same => other member (Option.some.inj same).symm
  have notSlot {i : Fin nrTasks} {q : Page} (slot : t.task i = some q) : i ≠ nr := by
    intro same
    rw [same, empty] at slot
    cases slot
  have head_ne {x q : Page} (inTable : t.InTable x) (differs : x ≠ current)
      (isKid : q ∈ kids x) : t.pCptr current ≠ some q := by
    intro first
    rw [(tree.chained current member).head] at first
    exact tree.apart inTable member differs q isKid (List.mem_of_mem_head? first)
  rw [copyProcess_eq (other member)]
  refine ⟨?_, ?_, ?_, ?_, ?_, ?_, ?_, ?_, ?_, ?_, ?_⟩
  · exact (Function.update_of_ne (notSlot tree.rootSlot) _ _).trans tree.rootSlot
  · exact (Function.update_of_ne (notSlot tree.initSlot) _ _).trans tree.initSlot
  · intro i j q slotI slotJ
    simp only [Function.update_apply] at slotI slotJ
    split at slotI <;> split at slotJ
    · rename_i sameI sameJ
      rw [sameI, sameJ]
    · exact absurd ⟨j, slotI ▸ slotJ⟩ fresh
    · exact absurd ⟨i, slotJ ▸ slotI⟩ fresh
    · exact tree.distinct i j q slotI slotJ
  · intro x inTable
    rcases (inTable_update_some empty).mp inTable with old | new
    · by_cases isCurrent : x = current
      · subst isCurrent
        simp only [Function.update_self, store_self]
        apply (tree.chained x old).push
        intro isKid
        exact fresh ((tree.mem_kids x p old).mp isKid).1
      · have notCurrent : some current ≠ some x :=
          fun same => isCurrent (Option.some.inj same).symm
        simp only [Function.update_of_ne isCurrent, Function.update_of_ne (other old),
          store_of_ne _ notCurrent, store_of_ne _ (notP old)]
        apply (tree.chained x old).congr
        intro q isKid
        have known := ((tree.mem_kids x q old).mp isKid).1
        constructor
        · exact store_of_ne _ (notP known)
        · rw [store_of_ne _ (head_ne old isCurrent isKid), store_of_ne _ (notP known)]
    · subst new
      have notCurrent : some current ≠ some x :=
        fun same => other member (Option.some.inj same)
      simp only [Function.update_of_ne (other member).symm, Function.update_self,
        store_of_ne _ notCurrent, store_self]
      exact ⟨List.nodup_nil, rfl, .nil, nofun, nofun⟩
  · intro x q inTable
    have pointer : (∃ i, Function.update t.task nr (some p) i = some q) ↔ _ :=
      inTable_update_some empty
    change _ ↔ (∃ i, Function.update t.task nr (some p) i = some q) ∧
      store t.pPptr (some p) (some current) q = some x
    rw [pointer]
    have inTable := (inTable_update_some empty).mp inTable
    by_cases isNew : q = p
    · subst isNew
      simp only [or_true, true_and, store_self, Option.some.injEq]
      by_cases isCurrent : x = current
      · simp [isCurrent]
      · rw [Function.update_of_ne isCurrent]
        simp only [Ne.symm isCurrent, iff_false]
        intro isKid
        rcases inTable with old | new
        · rw [Function.update_of_ne (other old)] at isKid
          exact fresh ((tree.mem_kids x q old).mp isKid).1
        · rw [new, Function.update_self] at isKid
          exact absurd isKid List.not_mem_nil
    · have sameParent : store t.pPptr (some p) (some current) q = t.pPptr q :=
        store_of_ne _ fun same => isNew (Option.some.inj same).symm
      rw [sameParent]
      simp only [isNew, or_false]
      by_cases isCurrent : x = current
      · rw [isCurrent, Function.update_self, List.mem_cons, tree.mem_kids current q member]
        simp [isNew]
      · rw [Function.update_of_ne isCurrent]
        rcases inTable with old | new
        · rw [Function.update_of_ne (other old), tree.mem_kids x q old]
        · rw [new, Function.update_self]
          simp only [List.not_mem_nil, false_iff, not_and]
          intro known isParent
          exact fresh (tree.parent_inTable known isParent)
  · intro q inTable notRoot'
    rcases (inTable_update_some empty).mp inTable with old | new
    · obtain ⟨x, known, isParent, higher⟩ := tree.parent q old notRoot'
      refine ⟨x, (inTable_update_some empty).mpr (.inl known), ?_, ?_⟩
      · exact (store_of_ne _ (notP old)).trans isParent
      · rwa [Function.update_of_ne (other known), Function.update_of_ne (other old)]
    · subst new
      refine ⟨current, (inTable_update_some empty).mpr (.inl member), store_self _ _, ?_⟩
      rw [Function.update_self, Function.update_of_ne (other member)]
      exact Nat.lt_succ_self _
  · intro q inTable isParent
    rcases (inTable_update_some empty).mp inTable with old | new
    · exact tree.onlyInit q old ((store_of_ne _ (notP old)).symm.trans isParent)
    · subst new
      have sameParent := (store_self (a := q) t.pPptr (some current)).symm.trans isParent
      exact absurd (Option.some.inj sameParent) notRoot
  · intro q inTable isNotRoot isNotInit
    rw [Function.update_of_ne (other tree.inTable_init)]
    rcases (inTable_update_some empty).mp inTable with old | new
    · rw [Function.update_of_ne (other old)]
      exact tree.lowest q old isNotRoot isNotInit
    · rw [new, Function.update_self, Nat.lt_succ_iff]
      by_cases isInit : current = init
      · rw [isInit]
      · exact (tree.lowest current member notRoot isInit).le
  · have keep := notP tree.inTable_root
    have notChild : t.pCptr current ≠ some root := by
      intro first
      have isParent := (tree.youngest member first).2.1
      rw [tree.rootLinks.1] at isParent
      cases isParent
    refine ⟨?_, ?_, ?_⟩
    · exact (store_of_ne _ keep).trans tree.rootLinks.1
    · exact (store_of_ne _ notChild).trans ((store_of_ne _ keep).trans tree.rootLinks.2.1)
    · exact (store_of_ne _ keep).trans tree.rootLinks.2.2
  · intro x inTable isZombie
    change Function.update t.state p .running x = .zombie at isZombie
    rcases (inTable_update_some empty).mp inTable with old | new
    · have zombie : t.state x = .zombie := by
        rwa [Function.update_of_ne (other old)] at isZombie
      have notCurrent : x ≠ current := fun same => lives (same ▸ zombie)
      rw [Function.update_of_ne notCurrent, Function.update_of_ne (other old)]
      exact tree.zombies x old zombie
    · rw [new, Function.update_self] at isZombie
      cases isZombie
  · change Function.update t.state p .running init ≠ .zombie
    rw [Function.update_of_ne (other tree.inTable_init)]
    exact tree.initLives

theorem store_all (links : Page → Option Page) (value : Option Page) (cells : List Page) :
    (fun q => if q ∈ cells then value else store links (some p) value q) =
      fun q => if q ∈ p :: cells then value else links q := by
  funext q
  by_cases isP : q = p
  · simp [isP]
  · rw [store_of_ne _ fun same => isP (Option.some.inj same).symm]
    simp [isP]

/-- The loop of `do_exit` makes init the parent of all children. -/
theorem inherit_eq_some {cells : List Page} (leads : Leads t.pOsptr (some p) cells)
    {fuel : Nat} (enough : cells.length ≤ fuel) :
    ∃ last, cells.getLast? = some last ∧ inherit fuel t p =
      some ({ t with pPptr := fun q => if q ∈ cells then t.task 1 else t.pPptr q }, last) := by
  induction cells generalizing t p fuel with
  | nil => cases leads
  | cons q cells ih =>
      obtain ⟨first, leads⟩ := leads
      have same : p = q := Option.some.inj first
      subst same
      cases fuel with
      | zero => cases enough
      | succ fuel =>
          rw [inherit, ← store_all]
          cases older : t.pOsptr p with
          | none =>
              rw [older] at leads
              cases cells with
              | cons q cells => cases leads.1
              | nil => exact ⟨p, rfl, by simp⟩
          | some q =>
              rw [older] at leads
              obtain ⟨last, isLast, ran⟩ :=
                ih (t := { t with pPptr := store t.pPptr (some p) (t.task 1) }) leads
                  (Nat.le_of_succ_le_succ enough)
              refine ⟨last, ?_, ran⟩
              rw [List.getLast?_cons, isLast]
              rfl

/-- The exit of a task without children. -/
theorem Tree.exit_childless (tree : t.Tree root init kids rank) (member : t.InTable current)
    (notInit : current ≠ init) (childless : t.pCptr current = none) :
    Tree { t with state := Function.update t.state current .zombie } root init kids rank := by
  have none_left : kids current = [] := by
    have first := (tree.chained current member).head
    rw [childless] at first
    exact List.head?_eq_none_iff.mp first.symm
  refine ⟨tree.rootSlot, tree.initSlot, tree.distinct, tree.chained, tree.mem_kids, tree.parent,
    tree.onlyInit, tree.lowest, tree.rootLinks, ?_, ?_⟩
  · intro p inTable isZombie
    change Function.update t.state current .zombie p = .zombie at isZombie
    by_cases same : p = current
    · rw [same, none_left]
    · rw [Function.update_of_ne same] at isZombie
      exact tree.zombies p inTable isZombie
  · change Function.update t.state current .zombie init ≠ .zombie
    rw [Function.update_of_ne notInit.symm]
    exact tree.initLives

/-- The tree after `do_exit` of a task that has children: init has them, before its own. -/
theorem Tree.exit_inherit {child last : Page} (tree : t.Tree root init kids rank)
    (member : t.InTable current) (notRoot : current ≠ root) (notInit : current ≠ init)
    (isChild : t.pCptr init = some child) (isLast : (kids current).getLast? = some last) :
    Tree { t with
        state := Function.update t.state current .zombie
        pPptr := fun q => if q ∈ kids current then some init else t.pPptr q
        pOsptr := store t.pOsptr (some last) (some child)
        pYsptr := store t.pYsptr (some child) (some last)
        pCptr := store (store t.pCptr (some init) (t.pCptr current)) (some current) none }
      root init
      (Function.update (Function.update kids current []) init (kids current ++ kids init))
      rank := by
  have inInit := tree.inTable_init
  have isKid : last ∈ kids current := List.mem_of_getLast? isLast
  have child_mem : child ∈ kids init := by
    have first := (tree.chained init inInit).head.symm.trans isChild
    exact List.mem_of_mem_head? first
  have notCurrent {q : Page} (differs : q ≠ current) : some current ≠ some q :=
    fun same => differs (Option.some.inj same).symm
  have differsInit {q : Page} (differs : q ≠ init) : some init ≠ some q :=
    fun same => differs (Option.some.inj same).symm
  have moved {q : Page} (isKid : q ∈ kids current) : q ≠ init := by
    intro same
    have isParent := ((tree.mem_kids current q member).mp isKid).2
    rw [same, tree.init_parent] at isParent
    exact notRoot (Option.some.inj isParent).symm
  refine ⟨tree.rootSlot, tree.initSlot, tree.distinct, ?_, ?_, ?_, ?_, tree.lowest, ?_, ?_, ?_⟩
  · intro x inTable
    by_cases isInit : x = init
    · subst isInit
      have together := (tree.chained current member).append (tree.chained x inTable)
        (tree.apart member inTable notInit) isLast
      rw [isChild] at together
      simp only [Function.update_self, store_of_ne _ (notCurrent notInit.symm), store_self]
      exact together
    · rw [Function.update_of_ne isInit]
      by_cases isCurrent : x = current
      · subst isCurrent
        simp only [Function.update_self, store_self]
        exact ⟨List.nodup_nil, rfl, .nil, nofun, nofun⟩
      · simp only [Function.update_of_ne isCurrent, store_of_ne _ (notCurrent isCurrent),
          store_of_ne _ (differsInit isInit)]
        apply (tree.chained x inTable).congr
        intro q isKid'
        constructor
        · apply store_of_ne
          intro same
          exact tree.apart inTable member isCurrent q isKid' (Option.some.inj same ▸ isKid)
        · apply store_of_ne
          intro same
          exact tree.apart inTable inInit isInit q isKid' (Option.some.inj same ▸ child_mem)
  · intro x q inTable
    change _ ↔ t.InTable q ∧ (if q ∈ kids current then some init else t.pPptr q) = some x
    have isCurrentKid := tree.mem_kids current q member
    by_cases isMoved : q ∈ kids current
    · rw [if_pos isMoved]
      obtain ⟨known, isParent⟩ := isCurrentKid.mp isMoved
      by_cases isInit : x = init
      · simp [isInit, isMoved, known]
      · rw [Function.update_of_ne isInit]
        simp only [Option.some.injEq, Ne.symm isInit, and_false, iff_false]
        by_cases isCurrent : x = current
        · simp [isCurrent]
        · rw [Function.update_of_ne isCurrent]
          intro isKid'
          exact tree.apart inTable member isCurrent q isKid' isMoved
    · rw [if_neg isMoved, ← tree.mem_kids x q inTable]
      by_cases isInit : x = init
      · simp [isInit, isMoved]
      · rw [Function.update_of_ne isInit]
        by_cases isCurrent : x = current
        · simp [isCurrent, isMoved]
        · rw [Function.update_of_ne isCurrent]
  · intro q inTable isNotRoot
    by_cases isMoved : q ∈ kids current
    · exact ⟨init, inInit, if_pos isMoved, tree.lowest q inTable isNotRoot (moved isMoved)⟩
    · obtain ⟨p, known, isParent, higher⟩ := tree.parent q inTable isNotRoot
      exact ⟨p, known, (if_neg isMoved).trans isParent, higher⟩
  · intro q inTable isParent
    by_cases isMoved : q ∈ kids current
    · have sameParent := (if_pos isMoved).symm.trans isParent
      exact absurd (Option.some.inj sameParent).symm tree.root_ne_init
    · exact tree.onlyInit q inTable ((if_neg isMoved).symm.trans isParent)
  · have notKid {x : Page} (inTable : t.InTable x) : root ∉ kids x :=
      fun isKid' => tree.kid_ne_root inTable isKid' rfl
    refine ⟨(if_neg (notKid member)).trans tree.rootLinks.1, ?_, ?_⟩
    · have notChild : some child ≠ some root :=
        fun same => notKid inInit (Option.some.inj same ▸ child_mem)
      exact (store_of_ne _ notChild).trans tree.rootLinks.2.1
    · have notLast : some last ≠ some root :=
        fun same => notKid member (Option.some.inj same ▸ isKid)
      exact (store_of_ne _ notLast).trans tree.rootLinks.2.2
  · intro x inTable isZombie
    change Function.update t.state current .zombie x = .zombie at isZombie
    by_cases isCurrent : x = current
    · rw [isCurrent, Function.update_of_ne notInit, Function.update_self]
    · rw [Function.update_of_ne isCurrent] at isZombie
      have isNotInit : x ≠ init := fun same => tree.initLives (same ▸ isZombie)
      rw [Function.update_of_ne isNotInit, Function.update_of_ne isCurrent]
      exact tree.zombies x inTable isZombie
  · change Function.update t.state current .zombie init ≠ .zombie
    rw [Function.update_of_ne notInit.symm]
    exact tree.initLives

/-- `do_exit` finds a child of init to link to, and keeps the tree. -/
theorem Tree.doExit (tree : t.Tree root init kids rank) (member : t.InTable current)
    (notRoot : current ≠ root) (notInit : current ≠ init) :
    ∃ t' kids', t.doExit current = some t' ∧ t'.Tree root init kids' rank := by
  cases youngest : t.pCptr current with
  | none =>
      refine ⟨_, kids, ?_, tree.exit_childless member notInit youngest⟩
      simp only [ProcessTree.doExit, youngest]
  | some p =>
      have chain := tree.chained current member
      have leads := chain.leads
      rw [youngest] at leads
      obtain ⟨last, isLast, ran⟩ := inherit_eq_some
        (t := { t with state := Function.update t.state current .zombie }) leads
        (tree.length_kids_le member)
      have hasKids := tree.init_has_kids member notRoot notInit
      obtain ⟨child, rest, split⟩ := List.exists_cons_of_ne_nil hasKids
      have isChild : t.pCptr init = some child := by
        rw [(tree.chained init tree.inTable_init).head, split]
        rfl
      refine ⟨_, _, ?_, tree.exit_inherit member notRoot notInit isChild isLast⟩
      simp only [ProcessTree.doExit, youngest]
      rw [ran]
      simp only [Option.bind_some, linkToInit, tree.initSlot, isChild, youngest]

theorem children_eq_take {head : Option Page} {cells : List Page}
    (leads : Leads t.pOsptr head cells) (fuel : Nat) :
    t.children fuel head = cells.take fuel := by
  induction cells generalizing head fuel with
  | nil =>
      rw [leads]
      cases fuel <;> rfl
  | cons p cells ih =>
      obtain ⟨first, leads⟩ := leads
      rw [first]
      cases fuel with
      | zero => rfl
      | succ fuel => rw [children, ih leads, List.take_succ_cons]

theorem inTable_update_none {i : Fin nrTasks} (slot : t.task i = some p)
    (distinct : ∀ i j p, t.task i = some p → t.task j = some p → i = j) :
    (∃ j, Function.update t.task i none j = some q) ↔ t.InTable q ∧ q ≠ p := by
  constructor
  · intro found
    obtain ⟨j, slotJ⟩ := found
    by_cases emptied : j = i
    · rw [emptied, Function.update_self] at slotJ
      cases slotJ
    · rw [Function.update_of_ne emptied] at slotJ
      exact ⟨⟨j, slotJ⟩, fun same => emptied (distinct j i p (same ▸ slotJ) slot)⟩
  · intro known
    obtain ⟨⟨j, slotJ⟩, other⟩ := known
    have kept : j ≠ i := by
      intro same
      rw [same, slot] at slotJ
      exact other (Option.some.inj slotJ).symm
    exact ⟨j, by rw [Function.update_of_ne kept, slotJ]⟩

/-- Without a younger sibling, the task is the one that its parent points to. -/
theorem Tree.release_eq {i : Fin nrTasks} (tree : t.Tree root init kids rank)
    (member : t.InTable current) (isKid : p ∈ kids current) (slot : t.task i = some p)
    (notFirst : i ≠ 0) :
    t.release current p = some { t with
      task := Function.update t.task i none
      pYsptr := store t.pYsptr (t.pOsptr p) (t.pYsptr p)
      pOsptr := store t.pOsptr (t.pYsptr p) (t.pOsptr p)
      pCptr := if t.pCptr current = some p then store t.pCptr (some current) (t.pOsptr p)
        else t.pCptr } := by
  obtain ⟨known, isParent⟩ := (tree.mem_kids current p member).mp isKid
  have other := tree.kid_ne member isKid
  have found : (List.finRange nrTasks).find? (fun i => i ≠ 0 && t.task i == some p) =
      some i := by
    rw [List.find?_eq_some_iff_append]
    refine ⟨by simp [notFirst, slot], ?_⟩
    obtain ⟨before, behind, split⟩ := List.append_of_mem (List.mem_finRange i)
    refine ⟨before, behind, split, ?_⟩
    intro j inFront
    have nodup := List.nodup_finRange nrTasks
    rw [split] at nodup
    have differs : j ≠ i := (List.nodup_append.mp nodup).2.2 j inFront i List.mem_cons_self
    have notHere : t.task j ≠ some p := fun slotJ => differs (tree.distinct j i p slotJ slot)
    simp [notHere]
  have notOwn : t.pOsptr p ≠ some p := fun own => (tree.older known own).2.2.2 rfl
  have chain := tree.chained current member
  rw [ProcessTree.release, if_neg other, found]
  simp only [store_of_ne _ notOwn]
  cases younger : t.pYsptr p with
  | some q =>
      have behind : t.pCptr current ≠ some p := by
        intro first
        rw [chain.first p (chain.head.symm.trans first)] at younger
        cases younger
      simp only [if_neg behind]
  | none =>
      obtain ⟨before, behind, split⟩ := List.append_of_mem isKid
      have first : t.pCptr current = some p := by
        rw [split] at chain
        have nothing := chain.neighbours.2.symm.trans younger
        rw [List.getLast?_eq_none_iff] at nothing
        rw [chain.head, nothing]
        rfl
      simp only [isParent, if_pos first, Lib.store_none]

/-- `release` takes a zombie out of the tree. -/
theorem Tree.release (tree : t.Tree root init kids rank) (member : t.InTable current)
    (isKid : p ∈ kids current) (zombie : t.state p = .zombie) :
    ∃ t' kids', t.release current p = some t' ∧ t'.Tree root init kids' rank := by
  obtain ⟨known, isParent⟩ := (tree.mem_kids current p member).mp isKid
  obtain ⟨i, slot⟩ := known
  have notRoot := tree.kid_ne_root member isKid
  have notInit : p ≠ init := fun same => tree.initLives (same ▸ zombie)
  have notFirst : i ≠ 0 := by
    intro same
    rw [same, tree.rootSlot] at slot
    exact notRoot (Option.some.inj slot).symm
  have notSecond : i ≠ 1 := by
    intro same
    rw [same, tree.initSlot] at slot
    exact notInit (Option.some.inj slot).symm
  have chain := tree.chained current member
  obtain ⟨before, behind, split⟩ := List.append_of_mem isKid
  rw [split] at chain
  have links := chain.neighbours
  have nodup := chain.nodup
  have older_mem {q : Page} (older : t.pOsptr p = some q) : q ∈ kids current := by
    rw [links.1] at older
    rw [split]
    exact List.mem_append_right _ (List.mem_cons_of_mem _ (List.mem_of_mem_head? older))
  have younger_mem {q : Page} (younger : t.pYsptr p = some q) : q ∈ kids current := by
    rw [links.2] at younger
    rw [split]
    exact List.mem_append_left _ (List.mem_of_getLast? younger)
  refine ⟨_, Function.update kids current (before ++ behind),
    tree.release_eq member isKid slot notFirst, ?_⟩
  have emptied (q : Page) : (∃ j, Function.update t.task i none j = some q) ↔ _ :=
    inTable_update_none slot tree.distinct
  refine ⟨?_, ?_, ?_, ?_, ?_, ?_, ?_, ?_, ?_, ?_, tree.initLives⟩
  · exact (Function.update_of_ne notFirst.symm _ _).trans tree.rootSlot
  · exact (Function.update_of_ne notSecond.symm _ _).trans tree.initSlot
  · intro j k q slotJ slotK
    simp only [Function.update_apply] at slotJ slotK
    split at slotJ
    · cases slotJ
    · split at slotK
      · cases slotK
      · exact tree.distinct j k q slotJ slotK
  · intro x inTable
    obtain ⟨old, -⟩ := (emptied x).mp inTable
    by_cases isCurrent : x = current
    · subst isCurrent
      rw [Function.update_self]
      have unlinked := chain.unlink
      by_cases first : t.pCptr x = some p
      · simp only [if_pos first, store_self] at unlinked ⊢
        exact unlinked
      · simp only [if_neg first] at unlinked ⊢
        exact unlinked
    · rw [Function.update_of_ne isCurrent]
      have notCurrent : some current ≠ some x :=
        fun same => isCurrent (Option.some.inj same).symm
      have sameHead : (if t.pCptr current = some p then store t.pCptr (some current) (t.pOsptr p)
          else t.pCptr) x = t.pCptr x := by
        split
        · exact store_of_ne _ notCurrent
        · rfl
      simp only [sameHead]
      apply (tree.chained x old).congr
      intro q isKid'
      have elsewhere := tree.apart old member isCurrent q isKid'
      exact ⟨store_of_ne _ fun younger => elsewhere (younger_mem younger),
        store_of_ne _ fun older => elsewhere (older_mem older)⟩
  · intro x q inTable
    obtain ⟨old, -⟩ := (emptied x).mp inTable
    change _ ↔ (∃ j, Function.update t.task i none j = some q) ∧ t.pPptr q = some x
    rw [emptied, and_right_comm, ← tree.mem_kids x q old]
    by_cases isCurrent : x = current
    · have distinct := List.nodup_append.mp nodup
      have notBehind := (List.nodup_cons.mp distinct.2.1).1
      have notBefore (inFront : p ∈ before) : False :=
        distinct.2.2 p inFront p List.mem_cons_self rfl
      rw [isCurrent, Function.update_self, split]
      by_cases isP : q = p
      · simp only [isP, List.mem_append, List.mem_cons, true_or, or_true, ne_eq, not_true_eq_false,
          and_false, iff_false, not_or]
        exact ⟨notBefore, notBehind⟩
      · simp [isP]
    · rw [Function.update_of_ne isCurrent]
      constructor
      · intro isKid'
        exact ⟨isKid', fun same => tree.apart old member isCurrent q isKid' (same ▸ isKid)⟩
      · intro facts
        exact facts.1
  · intro q inTable isNotRoot
    obtain ⟨old, -⟩ := (emptied q).mp inTable
    obtain ⟨x, known, isParent', higher⟩ := tree.parent q old isNotRoot
    refine ⟨x, (emptied x).mpr ⟨known, ?_⟩, isParent', higher⟩
    intro same
    have isKid' := (tree.mem_kids x q known).mpr ⟨old, isParent'⟩
    rw [tree.zombies x known (same ▸ zombie)] at isKid'
    exact List.not_mem_nil isKid'
  · intro q inTable
    exact tree.onlyInit q ((emptied q).mp inTable).1
  · intro q inTable
    exact tree.lowest q ((emptied q).mp inTable).1
  · have notKid : root ∉ kids current := fun isKid' => tree.kid_ne_root member isKid' rfl
    refine ⟨tree.rootLinks.1, ?_, ?_⟩
    · have kept : t.pOsptr p ≠ some root := fun older => notKid (older_mem older)
      exact (store_of_ne _ kept).trans tree.rootLinks.2.1
    · have kept : t.pYsptr p ≠ some root := fun younger => notKid (younger_mem younger)
      exact (store_of_ne _ kept).trans tree.rootLinks.2.2
  · intro x inTable isZombie
    have childless := tree.zombies x ((emptied x).mp inTable).1 isZombie
    have notCurrent : x ≠ current := by
      intro same
      rw [← same, childless] at isKid
      exact List.not_mem_nil isKid
    rw [Function.update_of_ne notCurrent]
    exact childless

/-! ## Runs -/

/-- The invariant. -/
def Inv (root init : Page) (t : ProcessTree) : Prop := ∃ kids rank, t.Tree root init kids rank

theorem inTable_start : (start root init).InTable p ↔ p = root ∨ p = init := by
  constructor
  · intro found
    obtain ⟨i, slot⟩ := found
    simp only [start] at slot
    split at slot
    · exact .inl (Option.some.inj slot).symm
    · split at slot
      · exact .inr (Option.some.inj slot).symm
      · cases slot
  · intro known
    rcases known with same | same
    · exact ⟨0, same ▸ rfl⟩
    · exact ⟨1, same ▸ rfl⟩

theorem inv_start (distinct : root ≠ init) : (start root init).Inv root init := by
  refine ⟨fun p => if p = root then [init] else [], fun p => if p = root then 0 else 1,
    rfl, rfl, ?_, ?_, ?_, ?_, ?_, ?_, ?_, nofun, nofun⟩
  · intro i j p slotI slotJ
    simp only [start] at slotI slotJ
    grind
  · intro p member
    by_cases isRoot : p = root
    · simp only [start, isRoot]
      exact ⟨List.nodup_singleton init, rfl, .singleton init, fun _ _ => rfl, fun _ _ => rfl⟩
    · simp only [start, if_neg isRoot]
      exact ⟨List.nodup_nil, rfl, .nil, nofun, nofun⟩
  · intro p q member
    rw [inTable_start]
    by_cases isRoot : p = root
    · simp only [start, isRoot]
      by_cases isInit : q = init
      · simp [isInit]
      · simp [isInit]
    · simp only [start, if_neg isRoot]
      by_cases isInit : q = init
      · simp [isInit, Ne.symm isRoot]
      · simp [isInit]
  · intro q member notRoot
    have isInit : q = init := (inTable_start.mp member).resolve_left notRoot
    refine ⟨root, inTable_start.mpr (.inl rfl), ?_, ?_⟩
    · simp [start, isInit]
    · simp [notRoot]
  · intro q member isParent
    rcases inTable_start.mp member with same | same
    · simp [start, same, distinct] at isParent
    · exact same
  · intro q member notRoot notInit
    exact absurd (inTable_start.mp member) (not_or.mpr ⟨notRoot, notInit⟩)
  · simp [start, distinct]

theorem Inv.step {action : Action} {next : ProcessTree} (inv : t.Inv root init)
    (taken : t.step action = some next) : next.Inv root init := by
  obtain ⟨kids, rank, tree⟩ := inv
  cases action with
  | copyProcess current nr page copied =>
      simp only [ProcessTree.step, Option.ite_none_right_eq_some, Option.some.injEq] at taken
      obtain ⟨⟨runs, notRoot, -, empty, fresh⟩, rfl⟩ := taken
      cases page with
      | none => exact ⟨kids, rank, tree⟩
      | some p =>
          have isFresh := fresh p rfl
          cases copied with
          | false => exact ⟨kids, rank, tree.copyProcess_fails empty isFresh⟩
          | true =>
              refine ⟨_, _, tree.copyProcess empty isFresh runs.1 ?_ ?_⟩
              · intro same
                exact notRoot (same ▸ tree.rootSlot)
              · rw [runs.2]
                nofun
  | doExit current =>
      simp only [ProcessTree.step, Option.ite_none_right_eq_some] at taken
      obtain ⟨⟨runs, notRoot, notInit⟩, taken⟩ := taken
      obtain ⟨t', kids', ran, tree'⟩ := tree.doExit runs.1
        (fun same => notRoot (same ▸ tree.rootSlot)) (fun same => notInit (same ▸ tree.initSlot))
      rw [ran, Option.some.injEq] at taken
      exact taken ▸ ⟨kids', rank, tree'⟩
  | release current p =>
      simp only [ProcessTree.step, Option.ite_none_right_eq_some] at taken
      obtain ⟨⟨runs, child, zombie⟩, taken⟩ := taken
      rw [children_eq_take (tree.chained current runs.1).leads] at child
      obtain ⟨t', kids', ran, tree'⟩ :=
        tree.release runs.1 (List.mem_of_mem_take child) zombie
      rw [ran, Option.some.injEq] at taken
      exact taken ▸ ⟨kids', rank, tree'⟩
  | setState p state =>
      simp only [ProcessTree.step, Option.ite_none_right_eq_some, Option.some.injEq] at taken
      obtain ⟨⟨before, after⟩, rfl⟩ := taken
      refine ⟨kids, rank, tree.congr rfl ?_ fun q _ => ⟨rfl, rfl, rfl, rfl⟩⟩
      intro q _
      change Function.update t.state p state q = _ ↔ _
      by_cases same : q = p
      · rw [same, Function.update_self]
        simp [before, after]
      · rw [Function.update_of_ne same]

theorem Inv.sound (inv : t.Inv root init) : t.Sound := by
  obtain ⟨kids, rank, tree⟩ := inv
  refine ⟨tree.auditPtree, ?_, ?_, ?_⟩
  · intro p member
    have chain := tree.chained p member
    exact ⟨kids p, chain.nodup, chain.leads, fun q => tree.mem_kids p q member⟩
  · intro p q memberP memberQ
    exact ⟨fun older => (tree.older memberP older).2.2.1,
      fun younger => (tree.younger memberQ younger).2.2.1⟩
  · intro current able
    obtain ⟨runs, notRoot, notInit⟩ := able
    obtain ⟨t', -, ran, -⟩ := tree.doExit runs.1
      (fun same => notRoot (same ▸ tree.rootSlot)) (fun same => notInit (same ▸ tree.initSlot))
    rw [ran]
    nofun

/-- The links stay a process tree over all histories of forks, exits and waits. -/
theorem sound_of_exec (distinct : root ≠ init) {actions : List Action} {final : ProcessTree}
    (reached : Lib.exec step (start root init) actions = some final) : final.Sound :=
  (Lib.exec_preserves (Inv root init) (fun _ _ _ inv taken => inv.step taken)
    (inv_start distinct) reached).sound

/-- A task exits before its child, which init waits for. -/
def orphanRun : List Action :=
  [.copyProcess 20 2 (some 30) true, .copyProcess 30 3 (some 40) true,
    .copyProcess 40 4 (some 50) false, .copyProcess 40 4 none true, .doExit 30, .doExit 40,
    .release 20 30, .release 20 40]

theorem sound_of_exec_orphan : (Lib.exec step (start 10 20) orphanRun).isSome ∧
    ∀ final, Lib.exec step (start 10 20) orphanRun = some final → final.Sound :=
  ⟨by decide +kernel, fun _ reached => sound_of_exec (by decide) reached⟩

end ProcessTree

end Linux012.Kernel
