import Mathlib.Order.Interval.Finset.Nat
import Linux012.Exec.Execve
import Linux012.Lib.Overwrite
import Linux012.Lib.StateExcept

/-!
# The memory of the new image

The program does not see which pages are there.  An access brings in the page that it needs, or
ends in `oom`, which does not happen as long as there are pages for all that may be needed.
-/

namespace Linux012.Exec

open Lib (longBytes overwrite run_bind_of_ok run_bind_of_error)

variable (w : World)

namespace Machine

/-- The bytes of the new image, of which some are not there yet. -/
def newByte (m : Machine) (a : Nat) : UInt8 :=
  ((m.mapped (a / 4096)).getD (w.content (a / 4096))) (a % 4096)

/-- The pages between `low` and the end of the argument pages that are not there. -/
def missing (m : Machine) (low : Nat) : Finset Nat :=
  (Finset.Ico low 15360).filter fun n => (m.mapped n).isNone

/-- There are pages for all that is missing, and for the page table. -/
def Ready (m : Machine) (low : Nat) : Prop :=
  (m.missing low).card + (if m.table 14 then 0 else 1) ≤ m.free

/-- Only the memory of the new image has changed. -/
def Apart (m m' : Machine) : Prop :=
  m' = { m with free := m'.free, table := m'.table, mapped := m'.mapped }

theorem Apart.refl (m : Machine) : m.Apart m := rfl

theorem Apart.trans {m m' m'' : Machine} (first : m.Apart m') (second : m'.Apart m'') :
    m.Apart m'' := by
  unfold Apart at *
  rw [second, first]

end Machine

open Machine

/-- The operation ends as `post` says, and keeps the rest and the pages that are needed from `low`
on, or it ends in `oom` for the lack of them. -/
def Touches {α : Type} (low : Nat) (m : Machine) (prog : ExecM α) (post : α → Machine → Prop) :
    Prop :=
  match prog.run m with
  | .ok (value, m') => post value m' ∧ m.Apart m' ∧ (m.Ready low → m'.Ready low)
  | .error stop => stop = .oom ∧ ¬m.Ready low

section Rules

variable {α β : Type} {low : Nat} {m : Machine} {post : α → Machine → Prop}

theorem Touches.pure {value : α} (holds : post value m) :
    Touches low m (pure value : ExecM α) post :=
  ⟨holds, .refl m, id⟩

theorem Touches.bind {middle : β → Machine → Prop} {first : ExecM β} {next : β → ExecM α}
    (begins : Touches low m first middle)
    (continues : ∀ value m', middle value m' → Touches low m' (next value) post) :
    Touches low m (first >>= next) post := by
  unfold Touches at begins
  cases ran : first.run m with
  | error stop =>
      rw [ran] at begins
      rw [Touches, run_bind_of_error ran]
      exact begins
  | ok reached =>
      obtain ⟨value, m'⟩ := reached
      rw [ran] at begins
      have ended := continues value m' begins.1
      rw [Touches, run_bind_of_ok ran]
      unfold Touches at ended
      cases ran' : (next value).run m' with
      | error stop =>
          rw [ran'] at ended
          exact ⟨ended.1, fun ready => ended.2 (begins.2.2 ready)⟩
      | ok reached' =>
          rw [ran'] at ended
          exact ⟨ended.1, begins.2.1.trans ended.2.1, fun ready => ended.2.2 (begins.2.2 ready)⟩

/-- Both ends. -/
theorem Touches.ends {prog : ExecM α} (touches : Touches low m prog post) :
    (∃ value m', prog.run m = .ok (value, m') ∧ post value m' ∧ m.Apart m') ∨
      (prog.run m = .error .oom ∧ ¬m.Ready low) := by
  unfold Touches at touches
  cases ran : prog.run m with
  | error stop =>
      rw [ran] at touches
      exact .inr ⟨by rw [touches.1], touches.2⟩
  | ok reached =>
      rw [ran] at touches
      exact .inl ⟨reached.1, reached.2, rfl, touches.1, touches.2.1⟩

theorem Touches.weaken {post' : α → Machine → Prop} {prog : ExecM α}
    (touches : Touches low m prog post)
    (more : ∀ value m', post value m' → post' value m') : Touches low m prog post' := by
  unfold Touches at *
  split at touches
  · exact ⟨more _ _ touches.1, touches.2⟩
  · exact touches

end Rules

section Pages

theorem run_takeFree (m : Machine) : takeFree.run m = (match m.free with
    | 0 => throw .oom
    | free + 1 => set { m with free } : ExecM Unit).run m := rfl

theorem run_takeFree_zero {m : Machine} (isFree : m.free = 0) :
    takeFree.run m = .error .oom := by
  rw [run_takeFree, isFree]
  rfl

theorem run_takeFree_succ {m : Machine} {free : Nat} (isFree : m.free = free + 1) :
    takeFree.run m = .ok ((), { m with free }) := by
  rw [run_takeFree, isFree]
  rfl

variable {low n : Nat} {m : Machine}

/-- The page table, with a page for it. -/
theorem touches_ensureTable :
    Touches low m (ensureTable 14) fun _ m' => m'.table 14 = true ∧ m'.mapped = m.mapped := by
  cases isTable : m.table 14 with
  | true =>
      have ran : (ensureTable 14).run m = .ok ((), m) := by
        change (if m.table 14 then pure () else _ : ExecM Unit).run m = _
        rw [isTable]
        rfl
      rw [Touches, ran]
      exact ⟨⟨isTable, rfl⟩, .refl m, id⟩
  | false =>
      have ran : (ensureTable 14).run m = (takeFree >>= fun _ => modify fun machine =>
          { machine with table := Function.update machine.table 14 true }).run m := by
        change (if m.table 14 then pure () else _ : ExecM Unit).run m = _
        rw [isTable]
        rfl
      rw [Touches, ran]
      cases isFree : m.free with
      | zero =>
          have stops := run_takeFree_zero isFree
          rw [run_bind_of_error stops]
          refine ⟨rfl, fun ready => ?_⟩
          rw [Ready, isTable, isFree] at ready
          simp at ready
      | succ free =>
          have takes := run_takeFree_succ isFree
          rw [run_bind_of_ok takes]
          have there : Function.update m.table 14 true 14 = true := Function.update_self ..
          refine ⟨⟨there, rfl⟩, rfl, fun ready => ?_⟩
          rw [Ready, isTable, isFree] at ready
          change (m.missing low).card + (if Function.update m.table 14 true 14 then 0 else 1) ≤ free
          rw [there]
          simpa using ready

/-- One page less is missing. -/
theorem card_missing_update {page : Page} (from' : low ≤ n) (below : n < 15360)
    (absent : m.mapped n = none) {free : Nat} {table : Nat → Bool} :
    ({ m with free, table, mapped := Function.update m.mapped n (some page) }.missing low).card + 1 =
      (m.missing low).card := by
  have isMissing : n ∈ m.missing low := by
    rw [missing, Finset.mem_filter, Finset.mem_Ico, absent]
    exact ⟨⟨from', below⟩, rfl⟩
  have erased : { m with free, table, mapped := Function.update m.mapped n (some page) }.missing low =
      (m.missing low).erase n := by
    ext k
    simp only [missing, Finset.mem_filter, Finset.mem_erase]
    by_cases here : k = n
    · subst here
      simp
    · simp [here]
  rw [erased, Finset.card_erase_add_one isMissing]

/-- A page that is brought in. -/
theorem touches_doNoPage (inside : 14336 ≤ low) (from' : low ≤ n) (below : n < 15360)
    (present : m.mapped n = none) :
    Touches low m (doNoPage w n) fun page m' =>
      m'.mapped n = some page ∧ m'.newByte w = m.newByte w := by
  have here : n / 1024 = 14 := by omega
  unfold doNoPage
  rw [here]
  refine touches_ensureTable.bind fun _ m' ⟨isTable, same⟩ => ?_
  have absent : m'.mapped n = none := by rw [same, present]
  -- The state behind the access, which has used up a page or not.
  let reached (free : Nat) : Machine :=
    { m' with free, mapped := Function.update m'.mapped n (some (w.content n)) }
  have there (free : Nat) : (reached free).mapped n = some (w.content n) :=
    Function.update_self ..
  have bytes (free : Nat) : (reached free).newByte w = m.newByte w := by
    funext a
    simp only [newByte, reached, ← same]
    by_cases here : a / 4096 = n
    · rw [here, Function.update_self, absent]
      rfl
    · rw [Function.update_of_ne here]
  have fewer (free : Nat) : ((reached free).missing low).card + 1 = (m'.missing low).card :=
    card_missing_update from' below absent
  have table (free : Nat) : (reached free).table 14 = true := isTable
  cases isShared : w.shared n with
  | true =>
      refine ⟨⟨there m'.free, bytes m'.free⟩, rfl, fun ready => ?_⟩
      have less := fewer m'.free
      rw [Ready, isTable, if_pos rfl] at ready
      change (reached m'.free).Ready low
      rw [Ready, table, if_pos rfl]
      change _ ≤ m'.free
      omega
  | false =>
      cases isFree : m'.free with
      | zero =>
          have stops := run_takeFree_zero isFree
          rw [takeUnless, if_neg (by decide), Touches, run_bind_of_error stops]
          refine ⟨rfl, fun ready => ?_⟩
          have less := fewer 0
          rw [Ready, isTable, isFree] at ready
          omega
      | succ free =>
          have takes := run_takeFree_succ isFree
          rw [takeUnless, if_neg (by decide), Touches, run_bind_of_ok takes]
          refine ⟨⟨there free, bytes free⟩, rfl, fun ready => ?_⟩
          have less := fewer free
          rw [Ready, isTable, isFree, if_pos rfl] at ready
          change (reached free).Ready low
          rw [Ready, table, if_pos rfl]
          change _ ≤ free
          omega

theorem run_presentPage (m : Machine) (n : Nat) : (presentPage w n).run m =
    (match m.mapped n with
      | some page => return page
      | none => doNoPage w n : ExecM Page).run m := rfl

theorem touches_presentPage (inside : 14336 ≤ low) (from' : low ≤ n) (below : n < 15360) :
    Touches low m (presentPage w n) fun page m' =>
      m'.mapped n = some page ∧ m'.newByte w = m.newByte w := by
  rw [Touches, run_presentPage]
  cases present : m.mapped n with
  | some page => exact ⟨⟨present, rfl⟩, .refl m, id⟩
  | none => exact touches_doNoPage w inside from' below present

end Pages

section Bytes

variable {low : Nat} {m : Machine} {address : UInt32}

/-- The address is in the pages from `low` on. -/
structure Inside (low : Nat) (address : Nat) : Prop where
  table : 14336 ≤ low
  low : low * 4096 ≤ address
  high : address < 62914560

theorem touches_getNewByte (inside : Inside low address.toNat) :
    Touches low m (getNewByte w address) fun byte m' =>
      byte = m.newByte w address.toNat ∧ m'.newByte w = m.newByte w := by
  obtain ⟨table, above, below⟩ := inside
  unfold getNewByte
  rw [if_neg (by change ¬0x4000000 ≤ address.toNat; omega)]
  refine (touches_presentPage w (n := address.toNat / 4096) table (by omega) (by omega)).bind ?_
  rintro page m' ⟨present, same⟩
  refine .pure ⟨?_, same⟩
  rw [← same, newByte, present]
  rfl

theorem touches_putNewByte (inside : Inside low address.toNat) (byte : UInt8) :
    Touches low m (putNewByte w byte address) fun _ m' =>
      m'.newByte w = Function.update (m.newByte w) address.toNat byte := by
  obtain ⟨table, above, below⟩ := inside
  unfold putNewByte
  rw [if_neg (by change ¬0x4000000 ≤ address.toNat; omega)]
  refine (touches_presentPage w (n := address.toNat / 4096) table (by omega) (by omega)).bind ?_
  rintro page m' ⟨present, same⟩
  refine ⟨?_, rfl, fun ready => ?_⟩
  · funext a
    rw [← same]
    by_cases here : a / 4096 = address.toNat / 4096
    · by_cases there : a = address.toNat
      · subst there
        simp [newByte]
      · have other : a % 4096 ≠ address.toNat % 4096 := by omega
        rw [Function.update_of_ne there]
        simp [newByte, here, present, Function.update_of_ne other]
    · have other : a ≠ address.toNat := fun same => here (by rw [same])
      rw [Function.update_of_ne other]
      simp [newByte, Function.update_of_ne here]
  · have missing (k : Nat) : (Function.update m'.mapped (address.toNat / 4096)
        (some (Function.update page (address.toNat % 4096) byte)) k).isNone =
          (m'.mapped k).isNone := by
      by_cases here : k = address.toNat / 4096
      · subst here
        rw [Function.update_self, present]
        rfl
      · rw [Function.update_of_ne here]
    simp only [Ready, Machine.missing, missing] at ready ⊢
    exact ready

theorem touches_putNewBytes {bytes : List UInt8} (table : 14336 ≤ low)
    (above : low * 4096 ≤ address.toNat) (below : address.toNat + bytes.length ≤ 62914560) :
    Touches low m (putNewBytes w bytes address) fun _ m' =>
      m'.newByte w = overwrite (m.newByte w) address.toNat bytes := by
  induction bytes generalizing m address with
  | nil =>
      rw [Lib.overwrite_nil]
      exact .pure rfl
  | cons byte bytes ih =>
      rw [List.length_cons] at below
      have next : (address + 1).toNat = address.toNat + 1 := by
        rw [UInt32.toNat_add]
        simp only [UInt32.reduceToNat]
        omega
      refine (touches_putNewByte w ⟨table, above, by omega⟩ byte).bind fun _ m' stored => ?_
      refine (ih (by omega) (by omega)).weaken
        fun _ m'' stored' => ?_
      rw [stored', stored, next]
      exact Lib.overwrite_cons

theorem touches_putFsLong (value : UInt32) (table : 14336 ≤ low)
    (above : low * 4096 ≤ address.toNat) (below : address.toNat + 4 ≤ 62914560) :
    Touches low m (putFsLong w value address) fun _ m' =>
      m'.newByte w = overwrite (m.newByte w) address.toNat (longBytes value) :=
  touches_putNewBytes w table above (by rw [Lib.length_longBytes]; exact below)

/-- The end of a string. -/
theorem touches_skipString {string : List UInt8} {left : Nat} {p : UInt32} (noEnd : 0 ∉ string)
    (enough : string.length < left) (table : 14336 ≤ low) (above : low * 4096 ≤ p.toNat)
    (below : p.toNat + (string ++ [0]).length ≤ 62914560)
    (lies : Lib.Holds (m.newByte w) p.toNat (string ++ [0])) :
    Touches low m (skipString w left p) fun q m' =>
      q.toNat = p.toNat + (string ++ [0]).length ∧ m'.newByte w = m.newByte w := by
  have first := lies 0 (by simp)
  have next : (p + 1).toNat = p.toNat + 1 := by
    rw [List.length_append, List.length_singleton] at below
    rw [UInt32.toNat_add]
    simp only [UInt32.reduceToNat]
    omega
  induction string generalizing m left p with
  | nil =>
      obtain ⟨left, rfl⟩ := Nat.exists_eq_succ_of_ne_zero (Nat.ne_of_gt enough)
      change p.toNat + 1 ≤ 62914560 at below
      refine (touches_getNewByte w ⟨table, above, by omega⟩).bind ?_
      rintro read m' ⟨isByte, same⟩
      rw [if_pos (by rw [isByte]; exact first)]
      exact .pure ⟨next, same⟩
  | cons byte string ih =>
      obtain ⟨left, rfl⟩ := Nat.exists_eq_succ_of_ne_zero (Nat.ne_of_gt (Nat.zero_lt_of_lt enough))
      rw [List.cons_append, List.length_cons] at below
      rw [List.length_cons] at enough
      have notEnd : byte ≠ 0 := fun isEnd => noEnd (by rw [isEnd]; exact List.mem_cons_self)
      have rest : Lib.Holds (m.newByte w) (p.toNat + 1) (string ++ [0]) :=
        Lib.Holds.right (show Lib.Holds (m.newByte w) p.toNat ([byte] ++ (string ++ [0])) from lies)
      refine (touches_getNewByte w ⟨table, above, by omega⟩).bind ?_
      rintro read m' ⟨isByte, same⟩
      rw [if_neg (by rw [isByte]; intro isEnd; exact notEnd (first.symm.trans isEnd))]
      rw [← same, ← next] at rest
      have further : (p + 1 + 1).toNat = (p + 1).toNat + 1 := by
        rw [List.length_append, List.length_singleton] at below
        rw [UInt32.toNat_add, next]
        simp only [UInt32.reduceToNat]
        omega
      refine (ih (m := m') (p := p + 1) (fun isEnd => noEnd (List.mem_cons_of_mem _ isEnd))
        (by omega) (by omega) (by omega) rest (rest 0 (by simp)) further).weaken ?_
      rintro q m'' ⟨isNext, same'⟩
      refine ⟨?_, same'.trans same⟩
      rw [isNext, next, List.cons_append, List.length_cons]
      omega

end Bytes

end Linux012.Exec
