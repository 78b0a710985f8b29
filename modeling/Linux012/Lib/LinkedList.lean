import Mathlib.Data.List.Cycle
import Mathlib.Logic.Function.Basic

/-!
# Doubly linked lists in pointers

The cells of a linked list hold pointers to each other; here the pointers of all cells
are two functions, `next` and `prev`.  A ring is linked around; a chain begins at a
head pointer and ends with a null pointer.  Each operation is the assignments that a
program does, and the lemma about it says which list the pointers represent after it.
-/

namespace Linux012.Lib

universe u

variable {α : Type u}

/-- `b` follows `a`, in both directions. -/
def Adjacent (next prev : α → Option α) (a b : α) : Prop :=
  next a = some b ∧ prev b = some a

/-- The cells are linked to one ring. -/
structure Ring (next prev : α → Option α) (cells : Cycle α) : Prop where
  nodup : cells.Nodup
  adjacent : cells.Chain (Adjacent next prev)

/-- The cells are linked from `head` to a null pointer. -/
structure Chained (next prev : α → Option α) (head : Option α) (cells : List α) : Prop where
  nodup : cells.Nodup
  head : head = cells.head?
  adjacent : cells.IsChain (Adjacent next prev)
  first : ∀ a ∈ cells.head?, prev a = none
  last : ∀ a ∈ cells.getLast?, next a = none

variable {next prev : α → Option α} {head : Option α} {cells before behind : List α}
variable {a b x first : α}

theorem Adjacent.eq_next (left : Adjacent next prev a b) (right : Adjacent next prev a x) :
    b = x :=
  Option.some.inj (left.1.symm.trans right.1)

theorem Adjacent.eq_prev (left : Adjacent next prev a x) (right : Adjacent next prev b x) :
    a = b :=
  Option.some.inj (left.2.symm.trans right.2)

theorem Ring.cons_iff : Ring next prev (x :: cells : List α) ↔
    (x :: cells).Nodup ∧ (x :: (cells ++ [x])).IsChain (Adjacent next prev) :=
  ⟨fun ring => ⟨ring.nodup, ring.adjacent⟩, fun ⟨nodup, adjacent⟩ => ⟨nodup, adjacent⟩⟩

/-- Every cell of a ring can be taken for the first. -/
theorem Ring.exists_cons {ring : Cycle α} (member : x ∈ ring) :
    ∃ cells : List α, ring = (x :: cells : List α) := by
  induction ring with
  | nil => exact absurd member (Cycle.notMem_nil x)
  | cons a cells _ =>
      obtain ⟨before, behind, split⟩ := List.append_of_mem (Cycle.mem_coe_iff.mp member)
      refine ⟨behind ++ before, ?_⟩
      rw [split, Cycle.coe_eq_coe, ← List.cons_append]
      exact List.isRotated_append

/-- Following `next` from `head` leads through the cells to a null pointer. -/
def Leads (next : α → Option α) : Option α → List α → Prop
  | head, [] => head = none
  | head, a :: cells => head = some a ∧ Leads next (next a) cells

theorem Leads.of_isChain (adjacent : cells.IsChain (Adjacent next prev))
    (last : ∀ a ∈ cells.getLast?, next a = none) : Leads next cells.head? cells := by
  induction cells with
  | nil => rfl
  | cons a cells ih =>
      have follows : next a = cells.head? := by
        cases cells with
        | nil => exact last a rfl
        | cons b cells => exact (List.isChain_cons_cons.mp adjacent).1.1
      refine ⟨rfl, follows ▸ ih (List.isChain_cons.mp adjacent).2 ?_⟩
      intro b isLast
      apply last b
      rw [Option.mem_def] at isLast ⊢
      rw [List.getLast?_cons, isLast]
      rfl

/-- Pointers of other cells do not matter. -/
theorem Leads.congr {next' : α → Option α} (leads : Leads next head cells)
    (same : ∀ a ∈ cells, next' a = next a) : Leads next' head cells := by
  induction cells generalizing head with
  | nil => exact leads
  | cons a cells ih =>
      obtain ⟨first, leads⟩ := leads
      refine ⟨first, ?_⟩
      rw [same a List.mem_cons_self]
      exact ih leads fun b member => same b (List.mem_cons_of_mem a member)

/-- Putting a cell behind `a`. -/
theorem Leads.insert [DecidableEq α] (leads : Leads next head (before ++ a :: behind))
    (nodup : (before ++ a :: behind).Nodup) (absent : x ∉ before ++ a :: behind) :
    Leads (Function.update (Function.update next x (next a)) a (some x)) head
      (before ++ a :: x :: behind) := by
  induction before generalizing head with
  | nil =>
      obtain ⟨first, leads⟩ := leads
      have differs : x ≠ a := fun same => absent (same ▸ List.mem_cons_self)
      refine ⟨first, Function.update_self .., ?_⟩
      rw [Function.update_of_ne differs, Function.update_self]
      apply leads.congr
      intro b member
      have notA : b ≠ a := fun same => (List.nodup_cons.mp nodup).1 (same ▸ member)
      have notX : b ≠ x := fun same => absent (same ▸ List.mem_cons_of_mem a member)
      rw [Function.update_of_ne notA, Function.update_of_ne notX]
  | cons b before ih =>
      obtain ⟨first, leads⟩ := leads
      have distinct := List.nodup_cons.mp nodup
      have notA : b ≠ a := fun same =>
        distinct.1 (same ▸ List.mem_append_right before List.mem_cons_self)
      have notX : b ≠ x := fun same => absent (same ▸ List.mem_cons_self)
      refine ⟨first, ?_⟩
      rw [Function.update_of_ne notA, Function.update_of_ne notX]
      exact ih leads distinct.2 fun member => absent (List.mem_cons_of_mem b member)

theorem Chained.leads (chain : Chained next prev head cells) : Leads next head cells := by
  rw [chain.head]
  exact Leads.of_isChain chain.adjacent chain.last

/-- Pointers of other cells do not matter. -/
theorem Chained.congr {next' prev' : α → Option α} (chain : Chained next prev head cells)
    (same : ∀ a ∈ cells, next' a = next a ∧ prev' a = prev a) :
    Chained next' prev' head cells where
  nodup := chain.nodup
  head := chain.head
  adjacent := by
    apply chain.adjacent.imp_of_mem_imp
    intro a b memberA memberB linked
    exact ⟨(same a memberA).1.trans linked.1, (same b memberB).2.trans linked.2⟩
  first a isFirst := (same a (List.mem_of_mem_head? isFirst)).2.trans (chain.first a isFirst)
  last a isLast := (same a (List.mem_of_mem_getLast? isLast)).1.trans (chain.last a isLast)

/-- What stands before and behind a cell of a chain. -/
theorem Chained.neighbours (chain : Chained next prev head (before ++ x :: behind)) :
    next x = behind.head? ∧ prev x = before.getLast? := by
  have split := List.isChain_append.mp chain.adjacent
  constructor
  · cases behind with
    | nil => exact chain.last x (by simp)
    | cons b behind => exact (List.isChain_cons_cons.mp split.2.1).1.1
  · cases isLast : before.getLast? with
    | none =>
        rw [List.getLast?_eq_none_iff] at isLast
        exact chain.first x (by simp [isLast])
    | some a => exact (split.2.2 a isLast x rfl).2

theorem Ring.singleton_iff : Ring next prev ([x] : List α) ↔ Adjacent next prev x x := by
  rw [Ring.cons_iff]
  simp

/-- The neighbours of a cell in a ring that has others. -/
theorem Ring.neighbours (ring : Ring next prev (x :: cells : List α)) (others : cells ≠ []) :
    (∃ a ∈ cells, next x = some a) ∧ ∃ a ∈ cells, prev x = some a := by
  obtain ⟨second, rest, rfl⟩ := List.exists_cons_of_ne_nil others
  obtain ⟨front, middle⟩ := List.isChain_cons_cons.mp (Ring.cons_iff.mp ring).2
  have back := (List.isChain_append.mp middle).2.2 _
    (List.getLast?_eq_getLast_of_ne_nil others) x rfl
  exact ⟨⟨second, List.mem_cons_self, front.1⟩, ⟨_, List.getLast_mem others, back.2⟩⟩

/-! ## Assignments -/

variable [DecidableEq α]

/-- An assignment through a pointer, if it is not null. -/
def store (links : α → Option α) (pointer value : Option α) : α → Option α :=
  match pointer with
  | none => links
  | some a => Function.update links a value

@[simp] theorem store_none (links : α → Option α) (value : Option α) :
    store links none value = links := rfl

@[simp] theorem store_self (links : α → Option α) (value : Option α) :
    store links (some a) value a = value := by
  simp [store]

theorem store_of_ne (links : α → Option α) {pointer value : Option α}
    (other : pointer ≠ some a) : store links pointer value a = links a := by
  cases pointer with
  | none => rfl
  | some b =>
      apply Function.update_of_ne
      intro same
      exact other (by rw [same])

/-- Assigning what is there already. -/
theorem store_same {links : α → Option α} {value : Option α} (same : links a = value) :
    store links (some a) value = links := by
  rw [← same]
  exact Function.update_eq_self a links

@[simp] theorem store_store (links : α → Option α) (pointer value value' : Option α) :
    store (store links pointer value) pointer value' = store links pointer value' := by
  cases pointer with
  | none => rfl
  | some a => simp [store]

/-! ## Rings -/

/-- Taking a cell out of a ring that has others. -/
theorem Ring.unlink (ring : Ring next prev (x :: cells : List α)) (others : cells ≠ []) :
    Ring (store next (prev x) (next x)) (store prev (next x) (prev x)) (cells : List α) := by
  obtain ⟨nodup, adjacent⟩ := Ring.cons_iff.mp ring
  obtain ⟨absent, nodup⟩ := List.nodup_cons.mp nodup
  obtain ⟨second, rest, rfl⟩ := List.exists_cons_of_ne_nil others
  obtain ⟨front, middle⟩ := List.isChain_cons_cons.mp adjacent
  have back := (List.isChain_append.mp middle).2.2 _
    (List.getLast?_eq_getLast_of_ne_nil others) x rfl
  rw [front.1, back.2]
  refine ⟨nodup, (Cycle.chain_ne_nil _ others).mpr ?_⟩
  rw [List.isChain_cons_cons]
  refine ⟨⟨store_self _ _, store_self _ _⟩, ?_⟩
  apply (List.isChain_append.mp middle).1.imp_of_mem_imp
  intro a b memberA memberB linked
  constructor
  · rw [store_of_ne, linked.1]
    intro same
    rw [← Option.some.inj same] at linked
    exact absent (back.eq_next linked ▸ memberB)
  · rw [store_of_ne, linked.2]
    intro same
    rw [← Option.some.inj same] at linked
    exact absent (front.eq_prev linked ▸ memberA)

/-- Putting a cell into a ring, before `first`. -/
theorem Ring.link (ring : Ring next prev (first :: cells : List α)) (absent : x ∉ first :: cells) :
    Ring (store (store next (some x) (some first)) (prev first) (some x))
      (store (store prev (some x) (prev first)) (some first) (some x))
      (x :: first :: cells : List α) := by
  have nodup : (first :: cells).Nodup := ring.nodup
  have back := (Cycle.chain_ne_nil _ (List.cons_ne_nil first cells)).mp ring.adjacent
  rw [List.isChain_cons_cons] at back
  obtain ⟨around, linked⟩ := back
  have different {a : α} (member : a ∈ first :: cells) : some x ≠ some a := by
    intro same
    exact absent (Option.some.inj same ▸ member)
  have notLast := different (List.getLast_mem (List.cons_ne_nil first cells))
  have notFirst := different (List.mem_cons_self (a := first) (l := cells))
  rw [around.2]
  refine ⟨List.nodup_cons.mpr ⟨absent, nodup⟩,
    (Cycle.chain_ne_nil _ (List.cons_ne_nil x _)).mpr ?_⟩
  rw [List.isChain_cons_cons, List.isChain_cons_cons, List.getLast_cons (List.cons_ne_nil _ _)]
  refine ⟨⟨store_self _ _, ?_⟩, ⟨?_, store_self _ _⟩, ?_⟩
  · rw [store_of_ne _ notFirst.symm, store_self]
  · rw [store_of_ne _ notLast.symm, store_self]
  · apply linked.imp_of_mem_tail_imp
    intro a b memberA memberB pair
    have notA := different memberA
    have notB := different (List.mem_cons_of_mem first memberB)
    constructor
    · rw [store_of_ne, store_of_ne _ notA, pair.1]
      intro same
      rw [← Option.some.inj same] at pair
      exact (List.nodup_cons.mp nodup).1 (around.eq_next pair ▸ memberB)
    · rw [store_of_ne, store_of_ne _ notB, pair.2]
      intro same
      exact (List.nodup_cons.mp nodup).1 (Option.some.inj same ▸ memberB)

/-! ## Chains -/

/-- Putting a cell before a chain. -/
theorem Chained.push (chain : Chained next prev head cells) (absent : x ∉ cells) :
    Chained (store next (some x) head) (store (store prev (some x) none) head (some x))
      (some x) (x :: cells) := by
  have different {a : α} (member : a ∈ cells) : some x ≠ some a := by
    intro same
    exact absent (Option.some.inj same ▸ member)
  have notHead : head ≠ some x := by
    intro same
    exact absent (List.mem_of_mem_head? (chain.head.symm.trans same))
  rw [chain.head] at notHead ⊢
  refine ⟨List.nodup_cons.mpr ⟨absent, chain.nodup⟩, rfl, List.isChain_cons.mpr ⟨?_, ?_⟩, ?_, ?_⟩
  · intro a isFirst
    rw [isFirst]
    exact ⟨store_self _ _, store_self _ _⟩
  · apply chain.adjacent.imp_of_mem_tail_imp
    intro a b memberA memberB linked
    constructor
    · rw [store_of_ne _ (different memberA), linked.1]
    · rw [store_of_ne, store_of_ne _ (different (List.mem_of_mem_tail memberB)), linked.2]
      intro isFirst
      obtain ⟨rest, rfl⟩ := List.head?_eq_some_iff.mp isFirst
      exact (List.nodup_cons.mp chain.nodup).1 memberB
  · intro a isFirst
    rw [← Option.some.inj isFirst, store_of_ne _ notHead, store_self]
  · intro a isLast
    cases cells with
    | nil =>
        rw [← Option.some.inj isLast]
        exact store_self _ _
    | cons b cells =>
        rw [List.getLast?_cons_cons] at isLast
        rw [store_of_ne _ (different (List.mem_of_mem_getLast? isLast))]
        exact chain.last a isLast

/-- Taking a cell out of a chain. -/
theorem Chained.unlink (chain : Chained next prev head (before ++ x :: behind)) :
    Chained (store next (prev x) (next x)) (store prev (next x) (prev x))
      (if head = some x then next x else head) (before ++ behind) := by
  obtain ⟨nextX, prevX⟩ := chain.neighbours
  have split := List.isChain_append.mp chain.adjacent
  have apart := List.nodup_append.mp chain.nodup
  have absent := (List.nodup_cons.mp apart.2.1).1
  have notFront {a : α} (member : a ∈ before) : behind.head? ≠ some a := by
    intro isFirst
    exact apart.2.2 a member a (List.mem_cons_of_mem x (List.mem_of_mem_head? isFirst)) rfl
  have notBack {a : α} (member : a ∈ behind) : before.getLast? ≠ some a := by
    intro isLast
    exact apart.2.2 a (List.mem_of_mem_getLast? isLast) a (List.mem_cons_of_mem x member) rfl
  rw [nextX, prevX]
  refine ⟨?_, ?_, List.isChain_append.mpr ⟨?_, ?_, ?_⟩, ?_, ?_⟩
  · exact chain.nodup.sublist (List.Sublist.append_left (List.sublist_cons_self x behind) before)
  · rw [chain.head]
    cases before with
    | nil => exact if_pos rfl
    | cons a before =>
        have notX : a ≠ x := apart.2.2 a List.mem_cons_self x List.mem_cons_self
        simp [notX]
  · apply split.1.imp_of_mem_imp
    intro a b memberA memberB linked
    constructor
    · rw [store_of_ne, linked.1]
      intro isLast
      have atX := split.2.2 a isLast x rfl
      exact apart.2.2 b memberB x List.mem_cons_self (linked.eq_next atX)
    · rw [store_of_ne _ (notFront memberB), linked.2]
  · apply (List.isChain_cons.mp split.2.1).2.imp_of_mem_imp
    intro a b memberA memberB linked
    constructor
    · rw [store_of_ne _ (notBack memberA), linked.1]
    · rw [store_of_ne, linked.2]
      intro isFirst
      have atX := (List.isChain_cons.mp split.2.1).1 b isFirst
      exact absent (linked.eq_prev atX ▸ memberA)
  · intro a isLast b isFirst
    rw [Option.mem_def] at isLast isFirst
    rw [isLast, isFirst]
    exact ⟨store_self _ _, store_self _ _⟩
  · intro a isFirst
    cases before with
    | nil =>
        rw [Option.mem_def, List.nil_append] at isFirst
        rw [isFirst, store_self]
        rfl
    | cons b before =>
        rw [← Option.some.inj isFirst, store_of_ne _ (notFront List.mem_cons_self)]
        exact chain.first b rfl
  · intro a isLast
    cases behind with
    | nil =>
        rw [Option.mem_def, List.append_nil] at isLast
        rw [isLast, store_self]
        rfl
    | cons b behind =>
        rw [List.getLast?_append_of_ne_nil _ (List.cons_ne_nil b behind)] at isLast
        rw [store_of_ne _ (notBack (List.mem_of_mem_getLast? isLast))]
        apply chain.last a
        rw [List.getLast?_append_of_ne_nil _ (List.cons_ne_nil x _), List.getLast?_cons_cons]
        exact isLast

/-- Putting a chain in front of another one, whose first cell is at `head'`. -/
theorem Chained.append {head' : Option α} {cells' : List α}
    (chain : Chained next prev head cells) (chain' : Chained next prev head' cells')
    (apart : ∀ a ∈ cells, a ∉ cells') (isLast : cells.getLast? = some x) :
    Chained (store next (some x) head') (store prev head' (some x)) head (cells ++ cells') := by
  have memberX : x ∈ cells := List.mem_of_getLast? isLast
  have notX {a : α} (member : a ∈ cells') : some x ≠ some a := by
    intro same
    exact apart x memberX (Option.some.inj same ▸ member)
  have notHead {a : α} (member : a ∈ cells) : head' ≠ some a := by
    intro same
    exact apart a member (List.mem_of_mem_head? (chain'.head.symm.trans same))
  have inFront : cells ≠ [] := List.ne_nil_of_mem memberX
  refine ⟨?_, ?_, List.isChain_append.mpr ⟨?_, ?_, ?_⟩, ?_, ?_⟩
  · rw [List.nodup_append]
    refine ⟨chain.nodup, chain'.nodup, fun a member b member' same => ?_⟩
    exact apart a member (same ▸ member')
  · rw [chain.head, List.head?_append_of_ne_nil _ inFront]
  · obtain ⟨front, same⟩ := List.getLast?_eq_some_iff.mp isLast
    rw [same]
    have linked := chain.adjacent
    have nodup := chain.nodup
    rw [same] at linked nodup
    have distinct := List.nodup_append.mp nodup
    apply List.isChain_append.mpr
    obtain ⟨linkedFront, -, toLast⟩ := List.isChain_append.mp linked
    have notLast {a : α} (member : a ∈ front) : some x ≠ some a := by
      intro equal
      exact distinct.2.2 a member x (List.mem_singleton_self x) (Option.some.inj equal).symm
    have frontCell {a : α} (member : a ∈ front) : a ∈ cells :=
      same ▸ List.mem_append_left [x] member
    refine ⟨?_, List.isChain_singleton x, ?_⟩
    · apply linkedFront.imp_of_mem_imp
      intro a b memberA memberB pair
      constructor
      · rw [store_of_ne _ (notLast memberA), pair.1]
      · rw [store_of_ne _ (notHead (frontCell memberB)), pair.2]
    · intro a atEnd b first
      have pair := toLast a atEnd b first
      have memberA := List.mem_of_getLast? atEnd
      rw [List.head?_singleton, Option.mem_def, Option.some.injEq] at first
      subst first
      constructor
      · rw [store_of_ne _ (notLast memberA), pair.1]
      · rw [store_of_ne _ (notHead memberX), pair.2]
  · apply chain'.adjacent.imp_of_mem_tail_imp
    intro a b memberA memberB pair
    constructor
    · rw [store_of_ne _ (notX memberA), pair.1]
    · rw [store_of_ne, pair.2]
      intro first
      rw [chain'.head] at first
      obtain ⟨rest, rfl⟩ := List.head?_eq_some_iff.mp first
      exact (List.nodup_cons.mp chain'.nodup).1 memberB
  · intro a atEnd b first
    rw [Option.mem_def, isLast, Option.some.injEq] at atEnd
    subst atEnd
    rw [Option.mem_def, ← chain'.head] at first
    rw [first]
    exact ⟨store_self _ _, store_self _ _⟩
  · intro a first
    rw [List.head?_append_of_ne_nil _ inFront] at first
    rw [store_of_ne _ (notHead (List.mem_of_mem_head? first))]
    exact chain.first a first
  · intro a atEnd
    cases cells' with
    | nil =>
        rw [List.append_nil, isLast, Option.mem_def, Option.some.injEq] at atEnd
        subst atEnd
        rw [chain'.head]
        exact store_self _ _
    | cons b cells' =>
        rw [List.getLast?_append_of_ne_nil _ (List.cons_ne_nil b cells')] at atEnd
        rw [store_of_ne _ (notX (List.mem_of_getLast? atEnd))]
        exact chain'.last a atEnd

end Linux012.Lib
