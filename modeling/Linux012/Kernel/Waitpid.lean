import Linux012.Kernel.ProcessTree
import Linux012.Kernel.Signal

/-!
# Waiting for children

`sys_waitpid` of `exit.c`, over the process tree.  A call is one pass over the children,
up to the end or to its `schedule`; behind `schedule` it may start again.
-/

namespace Linux012.Kernel

open Lib (Leads)
open Signal (sigChld)

/-- The process tree with what `sys_waitpid` reads and writes in a `task_struct`, and the
word that was last put at `stat_addr`. -/
structure WaitTree extends ProcessTree where
  pid : Page → Int
  pgrp : Page → Int
  exitCode : Page → UInt32
  utime : Page → UInt32
  stime : Page → UInt32
  cutime : Page → UInt32
  cstime : Page → UInt32
  signal : Page → UInt32
  blocked : Page → UInt32
  stat : Option UInt32

inductive WaitResult where
  | returns (value : Int)
  /-- In `schedule`, with its `oldblocked`. -/
  | sleeps (oldblocked : UInt32)
  deriving DecidableEq, Repr

abbrev wNoHang : UInt32 := 1
abbrev wUntraced : UInt32 := 2

abbrev eChild : Int := 10
abbrev eRestartSys : Int := 512

namespace WaitTree

/-! ## The call -/

section Call

variable (current : Page) (pid : Int) (options : UInt32)

/-- The child is one that `pid` asks for. -/
def Asks (t : WaitTree) (p : Page) : Prop :=
  if pid > 0 then t.pid p = pid
  else if pid = 0 then t.pgrp p = t.pgrp current
  else if pid ≠ -1 then t.pgrp p = Int.bmod (-pid) (2 ^ 32)
  else True

instance (t : WaitTree) (p : Page) : Decidable (t.Asks current pid p) := by
  unfold Asks
  infer_instance

/-- `case TASK_STOPPED`, for a child that is reported. -/
def notify (t : WaitTree) (p : Page) : WaitTree × WaitResult :=
  ({ t with
      stat := some (t.exitCode p <<< 8 ||| 0x7f)
      exitCode := Function.update t.exitCode p 0 },
    .returns (t.pid p))

/-- `case TASK_ZOMBIE`; `none` when `release` panics. -/
def reap (t : WaitTree) (p : Page) : Option (WaitTree × WaitResult) :=
  (t.release current p).map fun tree =>
    ({ t with
        toProcessTree := tree
        cutime := Function.update t.cutime current (t.cutime current + t.utime p)
        cstime := Function.update t.cstime current (t.cstime current + t.stime p)
        stat := some (t.exitCode p) },
      .returns (t.pid p))

/-- `current->state = TASK_INTERRUPTIBLE`, and `SIGCHLD` is let in. -/
def sleep (t : WaitTree) : WaitTree :=
  { t with
    state := Function.update t.state current .interruptible
    blocked := Function.update t.blocked current
      (t.blocked current &&& ~~~sigBit sigChld) }

/-- What follows the loop. -/
def waitEnd (t : WaitTree) (flag : Bool) : WaitTree × WaitResult :=
  if flag then
    if options &&& wNoHang ≠ 0 then (t, .returns 0)
    else (t.sleep current, .sleeps (t.blocked current))
  else (t, .returns (-eChild))

/-- The loop, from the child `p` on; `none` when it is still running after `fuel`
rounds. -/
def waitFrom (t : WaitTree) : (fuel : Nat) → (p : Option Page) → (flag : Bool) →
    Option (WaitTree × WaitResult)
  | 0, _, _ => none
  | _ + 1, none, flag => some (t.waitEnd current options flag)
  | fuel + 1, some p, flag =>
      if ¬ t.Asks current pid p then t.waitFrom fuel (t.pOsptr p) flag
      else
        match t.state p with
        | .stopped =>
            if options &&& wUntraced = 0 ∨ t.exitCode p = 0 then
              t.waitFrom fuel (t.pOsptr p) flag
            else some (t.notify p)
        | .zombie => t.reap current p
        | _ => t.waitFrom fuel (t.pOsptr p) true

/-- `sys_waitpid`, up to its `schedule`. -/
def sysWaitpid (t : WaitTree) : Option (WaitTree × WaitResult) :=
  t.waitFrom current pid options (nrTasks + 1) (t.pCptr current) false

/-- `sys_waitpid` behind its `schedule`. -/
def resume (t : WaitTree) (oldblocked : UInt32) : Option (WaitTree × WaitResult) :=
  let t := { t with blocked := Function.update t.blocked current oldblocked }
  if t.signal current &&& ~~~(oldblocked ||| sigBit sigChld) ≠ 0 then
    some (t, .returns (-eRestartSys))
  else t.sysWaitpid current pid options

end Call

/-! ## What a call is meant to do -/

section Spec

variable (current : Page) (pid : Int) (options : UInt32)

/-- The child has something to report: it is a zombie, or `options` asks for stopped
children and it has stopped since the last report. -/
def Ready (t : WaitTree) (p : Page) : Prop :=
  t.state p = .zombie ∨
    t.state p = .stopped ∧ options &&& wUntraced ≠ 0 ∧ t.exitCode p ≠ 0

instance (t : WaitTree) (p : Page) : Decidable (t.Ready options p) :=
  inferInstanceAs (Decidable (_ ∨ _))

/-- Zombie `p` and nothing else has left the tree, its times are the caller's children's
times, and its exit code is stored. -/
structure Reaped (root init : Page) (t t' : WaitTree) (p : Page) : Prop where
  gone : ∀ q, t'.InTable q ↔ t.InTable q ∧ q ≠ p
  parents : t'.pPptr = t.pPptr
  inv : t'.Inv root init
  fields : { t' with toProcessTree := t.toProcessTree } =
    { t with
      cutime := Function.update t.cutime current (t.cutime current + t.utime p)
      cstime := Function.update t.cstime current (t.cstime current + t.stime p)
      stat := some (t.exitCode p) }
  states : t'.state = t.state

/-- The report on the stopped child `p` was taken, and nothing else has changed. -/
def Notified (t t' : WaitTree) (p : Page) : Prop :=
  t' = { t with
    stat := some (t.exitCode p <<< 8 ||| 0x7f)
    exitCode := Function.update t.exitCode p 0 }

/-- The youngest child with something to report is reported.  If there is none, the caller
is told when it has no such child, and else it goes on or sleeps if a child is neither a
zombie nor stopped. -/
structure Waits (root init : Page) (t t' : WaitTree) (result : WaitResult)
    (kids : List Page) : Prop where
  reports : ∀ p, kids.find? (fun q => t.Asks current pid q ∧ t.Ready options q) = some p →
    result = .returns (t.pid p) ∧
      if t.state p = .zombie then Reaped current root init t t' p else Notified t t' p
  missing : (∀ q ∈ kids, ¬ t.Asks current pid q) → result = .returns (-eChild) ∧ t' = t
  onlyStopped : result = .returns (-eChild) →
    ∀ q ∈ kids, t.Asks current pid q → t.state q = .stopped ∧ ¬ t.Ready options q
  waits : (∀ q ∈ kids, t.Asks current pid q → ¬ t.Ready options q) →
    (∃ q ∈ kids, t.Asks current pid q ∧ t.state q ≠ .stopped) →
    if options &&& wNoHang ≠ 0 then result = .returns 0 ∧ t' = t
    else result = .sleeps (t.blocked current) ∧ t' = t.sleep current

/-- The same without stopped children. -/
structure WaitsForZombies (root init : Page) (t t' : WaitTree) (result : WaitResult)
    (kids : List Page) : Prop where
  missing : result = .returns (-eChild) ↔ ∀ q ∈ kids, ¬ t.Asks current pid q
  reaps : (∃ q ∈ kids, t.Asks current pid q ∧ t.state q = .zombie) →
    ∃ p ∈ kids, t.Asks current pid p ∧ t.state p = .zombie ∧
      result = .returns (t.pid p) ∧ Reaped current root init t t' p
  waits : (∃ q ∈ kids, t.Asks current pid q) →
    (∀ q ∈ kids, t.Asks current pid q → t.state q ≠ .zombie) →
    if options &&& wNoHang ≠ 0 then result = .returns 0
    else result = .sleeps (t.blocked current)

end Spec

/-! ## The loop -/

section Loop

variable {current : Page} {pid : Int} {options : UInt32} {t : WaitTree}

/-- The loop stops at the first child with something to report. -/
theorem waitFrom_eq {head : Option Page} {cells : List Page} {fuel : Nat} (flag : Bool)
    (leads : Leads t.pOsptr head cells) (enough : cells.length < fuel) :
    t.waitFrom current pid options fuel head flag =
      match cells.find? (fun q => t.Asks current pid q ∧ t.Ready options q) with
      | some p => if t.state p = .zombie then t.reap current p else some (t.notify p)
      | none => some (t.waitEnd current options
          (flag || cells.any fun q => t.Asks current pid q ∧ t.state q ≠ .stopped)) := by
  induction cells generalizing head fuel flag with
  | nil =>
      obtain ⟨fuel, rfl⟩ := Nat.exists_eq_succ_of_ne_zero (Nat.ne_of_gt enough)
      obtain rfl : head = none := leads
      simp [waitFrom]
  | cons p cells ih =>
      obtain ⟨fuel, rfl⟩ := Nat.exists_eq_succ_of_ne_zero (Nat.ne_zero_of_lt enough)
      obtain ⟨rfl, leads⟩ := leads
      have enough : cells.length < fuel := Nat.lt_of_succ_lt_succ enough
      by_cases asks : t.Asks current pid p
      · cases state : t.state p with
        | stopped =>
            by_cases quiet : options &&& wUntraced = 0 ∨ t.exitCode p = 0
            · have notReady : ¬ t.Ready options p := by
                simp only [Ready, state, reduceCtorEq, true_and, false_or]
                tauto
              simp [waitFrom, asks, state, quiet, notReady, ih flag leads enough]
            · have ready : t.Ready options p := Or.inr ⟨state, not_or.mp quiet⟩
              simp [waitFrom, asks, state, quiet, ready]
        | zombie =>
            have ready : t.Ready options p := Or.inl state
            simp [waitFrom, asks, state, ready]
        | running | interruptible | uninterruptible =>
            have notReady : ¬ t.Ready options p := by simp [Ready, state]
            simp [waitFrom, asks, state, notReady, ih true leads enough]
      · simp [waitFrom, asks, ih flag leads enough]

end Loop

section Reports

variable {root init current : Page} {pid : Int} {options : UInt32} {t : WaitTree}
variable {kids : Page → List Page} {rank : Page → Nat}

/-- A zombie leaves the tree. -/
theorem exists_reap (tree : t.Tree root init kids rank) (member : t.InTable current)
    {p : Page} (isKid : p ∈ kids current) (zombie : t.state p = .zombie) :
    ∃ t', t.reap current p = some (t', .returns (t.pid p)) ∧
      Reaped current root init t t' p := by
  obtain ⟨left, kids', released, leftTree⟩ := tree.release member isKid zombie
  obtain ⟨⟨i, slot⟩, -⟩ := (tree.mem_kids current p member).mp isKid
  have notFirst : i ≠ 0 := by
    rintro rfl
    rw [tree.rootSlot] at slot
    exact tree.kid_ne_root member isKid (Option.some.inj slot).symm
  have same := released.symm.trans (tree.release_eq member isKid slot notFirst)
  refine ⟨_, by rw [reap, released, Option.map_some], ?_, ?_, ⟨kids', rank, leftTree⟩, rfl, ?_⟩
  all_goals obtain rfl := Option.some.inj same
  · exact fun q => ProcessTree.inTable_update_none slot tree.distinct
  · rfl
  · rfl

theorem of_first {cells : List Page} {p : Page}
    (found : cells.find? (fun q => t.Asks current pid q ∧ t.Ready options q) = some p) :
    p ∈ cells ∧ t.Asks current pid p ∧ t.Ready options p :=
  ⟨List.mem_of_find?_eq_some found, by simpa using List.find?_some found⟩

/-- A report is all there is to say. -/
theorem Waits.of_report {t' : WaitTree} {cells : List Page} {p : Page}
    (found : cells.find? (fun q => t.Asks current pid q ∧ t.Ready options q) = some p)
    (positive : 0 < t.pid p)
    (does : if t.state p = .zombie then Reaped current root init t t' p
      else Notified t t' p) :
    Waits current pid options root init t t' (.returns (t.pid p)) cells := by
  obtain ⟨isKid, asks, ready⟩ := of_first found
  constructor
  · intro q found'
    obtain rfl : p = q := Option.some.inj (found.symm.trans found')
    exact ⟨rfl, does⟩
  · exact fun nobody => absurd asks (nobody p isKid)
  · intro missing
    have := WaitResult.returns.inj missing
    simp only [eChild] at this
    omega
  · exact fun nothing => absurd ready (nothing p isKid asks)

/-- No child has something to report. -/
theorem waits_waitEnd {cells : List Page}
    (nothing : ∀ q ∈ cells, t.Asks current pid q → ¬ t.Ready options q) (flag : Bool)
    (busy : flag = true ↔ ∃ q ∈ cells, t.Asks current pid q ∧ t.state q ≠ .stopped) :
    Waits current pid options root init t (t.waitEnd current options flag).1
      (t.waitEnd current options flag).2 cells := by
  constructor
  · intro p found
    obtain ⟨isKid, asks, ready⟩ := of_first found
    exact absurd ready (nothing p isKid asks)
  · intro nobody
    have idle : ¬ flag = true := by
      rw [busy]
      rintro ⟨q, isKid, asks, -⟩
      exact nobody q isKid asks
    rw [waitEnd, if_neg idle]
    exact ⟨rfl, rfl⟩
  · intro missing q isKid asks
    refine ⟨?_, nothing q isKid asks⟩
    by_contra notStopped
    have isBusy := busy.mpr ⟨q, isKid, asks, notStopped⟩
    rw [waitEnd, if_pos isBusy] at missing
    split at missing
    · have := WaitResult.returns.inj missing
      cases this
    · cases missing
  · intro _ working
    rw [waitEnd, if_pos (busy.mpr working)]
    split <;> exact ⟨rfl, rfl⟩

/-- What a call of `sys_waitpid` does, up to its `schedule`. -/
theorem exists_waits (tree : t.Tree root init kids rank) (member : t.InTable current)
    (positive : ∀ q ∈ kids current, 0 < t.pid q) :
    ∃ t' result, t.sysWaitpid current pid options = some (t', result) ∧
      Waits current pid options root init t t' result (kids current) := by
  have enough : (kids current).length < nrTasks + 1 :=
    Nat.lt_succ_of_le (tree.length_kids_le member)
  have ran : t.waitFrom current pid options (nrTasks + 1) (t.pCptr current) false = _ :=
    waitFrom_eq false (tree.chained current member).leads enough
  rw [sysWaitpid, ran]
  cases found : (kids current).find? fun q => t.Asks current pid q ∧ t.Ready options q with
  | some p =>
      have isKid := List.mem_of_find?_eq_some found
      by_cases zombie : t.state p = .zombie
      · obtain ⟨t', reaped, does⟩ := exists_reap tree member isKid zombie
        refine ⟨t', _, by simpa only [if_pos zombie] using reaped, ?_⟩
        exact Waits.of_report found (positive p isKid) (by rwa [if_pos zombie])
      · refine ⟨_, _, by simp only [if_neg zombie]; rfl, ?_⟩
        exact Waits.of_report found (positive p isKid) (by rw [if_neg zombie]; rfl)
  | none =>
      refine ⟨_, _, rfl, waits_waitEnd ?_ _ ?_⟩
      · intro q isKid asks ready
        exact List.find?_eq_none.mp found q isKid (decide_eq_true ⟨asks, ready⟩)
      · simp

end Reports

/-- Init has two children; the older one exits and the younger one is stopped. -/
def twoChildren : List ProcessTree.Action :=
  [.copyProcess 20 2 (some 40) true, .copyProcess 20 3 (some 30) true, .doExit 40,
    .setState 30 .stopped]

/-- Init then waits for them. -/
def expectant : WaitTree where
  toProcessTree :=
    (Lib.exec ProcessTree.step (ProcessTree.start 10 20) twoChildren).getD
      (ProcessTree.start 10 20)
  pid p := if p = 30 then 3 else if p = 40 then 2 else 1
  pgrp _ := 1
  exitCode p := if p = 30 then sigStop else 0
  utime p := if p = 40 then 5 else 0
  stime _ := 0
  cutime _ := 0
  cstime _ := 0
  signal _ := 0
  blocked _ := 0
  stat := none

theorem expectant_inv : expectant.Inv 10 20 := by
  obtain ⟨final, reached⟩ := Option.isSome_iff_exists.mp
    (show (Lib.exec ProcessTree.step (ProcessTree.start 10 20) twoChildren).isSome by
      decide +kernel)
  have inv : final.Inv 10 20 :=
    Lib.exec_preserves (ProcessTree.Inv 10 20) (fun _ _ _ inv taken => inv.step taken)
      (ProcessTree.inv_start (by decide)) reached
  rwa [expectant, reached]

theorem exists_waits_expectant : ∃ kids rank, expectant.Tree 10 20 kids rank ∧
    expectant.InTable 20 ∧ (∀ q ∈ kids 20, 0 < expectant.pid q) ∧
    ∃ t' result, expectant.sysWaitpid 20 (-1) wNoHang = some (t', result) ∧
      Waits 20 (-1) wNoHang 10 20 expectant t' result (kids 20) := by
  obtain ⟨kids, rank, tree⟩ := expectant_inv
  have positive (q : Page) (_ : q ∈ kids 20) : 0 < expectant.pid q := by
    simp only [expectant]
    split
    · decide
    · split <;> decide
  exact ⟨kids, rank, tree, tree.inTable_init, positive,
    exists_waits tree tree.inTable_init positive⟩

/-- The stopped child is reported, and the zombie stays. -/
theorem not_waitsForZombies_expectant :
    expectant.Inv 10 20 ∧ Leads expectant.pOsptr (expectant.pCptr 20) [30, 40] ∧
      ¬ ∃ t' result, expectant.sysWaitpid 20 (-1) wUntraced = some (t', result) ∧
        WaitsForZombies 20 (-1) wUntraced 10 20 expectant t' result [30, 40] := by
  have last : expectant.pOsptr 40 = none := by decide +kernel
  refine ⟨expectant_inv, ⟨by decide +kernel, by decide +kernel, last⟩, ?_⟩
  rintro ⟨t', result, called, waits⟩
  have answer : (expectant.sysWaitpid 20 (-1) wUntraced).map Prod.snd = some (.returns 3) := by
    decide +kernel
  rw [called] at answer
  obtain rfl := Option.some.inj answer
  obtain ⟨p, isKid, -, zombie, same, -⟩ :=
    waits.reaps ⟨40, by decide, by decide +kernel, by decide +kernel⟩
  rcases List.mem_pair.mp isKid with rfl | rfl
  · revert zombie
    decide +kernel
  · revert same
    decide +kernel

end WaitTree

end Linux012.Kernel
