import Mathlib.Data.Set.Insert
import Linux012.Buffer.Cache

/-!
# The free list and the hash chains

What `remove_from_queues` and `insert_into_queues` keep: the free list is one ring of
all buffers, the hash chains hold the buffers that have a device, each in the chain of
its block, and no block is in two buffers.
-/

namespace Linux012.Buffer

open Lib (Ring Chained store)

namespace Cache

/-- All buffers. -/
def buffers (c : Cache) : Set Bh := { bh | bh < c.nrBuffers }

/-- The free list is one ring that contains each of `members` once. -/
def FreeList (c : Cache) (members : Set Bh) : Prop :=
  ∃ ring : Cycle Bh, Ring c.bNextFree c.bPrevFree ring ∧ c.freeList ∈ ring ∧
    ∀ bh, bh ∈ ring ↔ bh ∈ members

/-- The chain at `hashTable h` contains those of `members` that have a device and hash
to `h`. -/
def HashChain (c : Cache) (members : Set Bh) (h : Nat) : Prop :=
  ∃ chain : List Bh, Chained c.bNext c.bPrev (c.hashTable h) chain ∧
    ∀ bh, bh ∈ chain ↔ bh ∈ members ∧ c.bDev bh ≠ 0 ∧ c.hash bh = h

/-- The hash chains, with null pointers in the buffers that have no device. -/
structure Hashed (c : Cache) (members : Set Bh) : Prop where
  chain : ∀ h, c.HashChain members h
  single : ∀ bh ∈ members, c.bDev bh = 0 → c.bNext bh = none ∧ c.bPrev bh = none

/-- No block of a device is in two buffers. -/
def OneEach (c : Cache) : Prop :=
  ∀ a ∈ c.buffers, ∀ b ∈ c.buffers, c.bDev a ≠ 0 → c.bDev a = c.bDev b →
    c.bBlocknr a = c.bBlocknr b → a = b

/-- The state of the queues between the operations. -/
structure Queues (c : Cache) : Prop where
  free : c.FreeList c.buffers
  hashed : c.Hashed c.buffers
  once : c.OneEach

variable {c : Cache} {bh : Bh} {dev : UInt16} {block : UInt32} {members : Set Bh}

/-! ## Searching -/

theorem findLoop_eq {chain : List Bh} {head : Option Bh} {left : Nat}
    (leads : Lib.Leads c.bNext head chain) (enough : chain.length ≤ left) :
    c.findLoop dev block left head = chain.find? fun bh => decide (c.Holds bh dev block) := by
  induction chain generalizing head left with
  | nil =>
      rw [leads]
      cases left <;> rfl
  | cons tmp chain ih =>
      cases left with
      | zero => simp at enough
      | succ left =>
          rw [leads.1, findLoop, List.find?_cons]
          by_cases holds : c.Holds tmp dev block
          · simp [holds]
          · rw [if_neg holds, ih leads.2 (by simpa using enough)]
            simp [holds]

theorem length_le_of_members {chain : List Bh} (nodup : chain.Nodup)
    (members : ∀ bh ∈ chain, bh < c.nrBuffers) : chain.length ≤ c.nrBuffers := by
  have subset : chain ⊆ List.range c.nrBuffers := by
    intro bh member
    exact List.mem_range.mpr (members bh member)
  simpa using (List.subperm_of_subset nodup subset).length_le

/-- `find_buffer` searches the whole chain. -/
theorem Hashed.findBuffer_eq (hashed : c.Hashed c.buffers) (dev : UInt16) (block : UInt32) :
    ∃ chain : List Bh, c.findBuffer dev block =
        chain.find? (fun bh => decide (c.Holds bh dev block)) ∧
      ∀ bh, bh ∈ chain ↔
        bh < c.nrBuffers ∧ c.bDev bh ≠ 0 ∧ c.hash bh = hashfn dev block := by
  obtain ⟨chain, chained, exact_⟩ := hashed.chain (hashfn dev block)
  refine ⟨chain, findLoop_eq chained.leads (length_le_of_members chained.nodup ?_), exact_⟩
  intro bh member
  exact ((exact_ bh).mp member).1

theorem Hashed.findBuffer_some (hashed : c.Hashed c.buffers)
    (found : c.findBuffer dev block = some bh) :
    bh < c.nrBuffers ∧ c.bDev bh ≠ 0 ∧ c.Holds bh dev block := by
  obtain ⟨chain, search, members⟩ := hashed.findBuffer_eq dev block
  rw [search] at found
  have inChain := (members bh).mp (List.mem_of_find?_eq_some found)
  exact ⟨inChain.1, inChain.2.1, by simpa using List.find?_some found⟩

theorem Hashed.findBuffer_none (hashed : c.Hashed c.buffers)
    (missing : c.findBuffer dev block = none) (inside : bh < c.nrBuffers)
    (hasDev : c.bDev bh ≠ 0) : ¬c.Holds bh dev block := by
  obtain ⟨chain, search, members⟩ := hashed.findBuffer_eq dev block
  intro holds
  have inChain : bh ∈ chain := by
    refine (members bh).mpr ⟨inside, hasDev, ?_⟩
    rw [hash, holds.1, holds.2]
  rw [search, List.find?_eq_none] at missing
  exact missing bh inChain (decide_eq_true holds)

/-! ## Looking for a buffer to use -/

/-- The loop over the free list as one over a list. -/
def choose (c : Cache) : List Bh → Option Bh → Option Bh
  | [], bh => bh
  | tmp :: rest, bh =>
      match c.consider tmp bh with
      | (bh, false) => bh
      | (bh, true) => c.choose rest bh

theorem victimLoop_eq {tmp : Bh} {rest : List Bh} {left : Nat} {best : Option Bh}
    (linked : (tmp :: (rest ++ [c.freeList])).IsChain (Lib.Adjacent c.bNextFree c.bPrevFree))
    (notFirst : c.freeList ∉ rest) (enough : rest.length < left) :
    c.victimLoop left tmp best = c.choose (tmp :: rest) best := by
  induction rest generalizing tmp left best with
  | nil =>
      cases left with
      | zero => simp at enough
      | succ left =>
          have next := (List.isChain_cons_cons.mp linked).1.1
          rcases considered : c.consider tmp best with ⟨best, goesOn⟩
          cases goesOn with
          | false => simp only [victimLoop, choose, considered]
          | true => simp only [victimLoop, choose, considered, next, if_true]
  | cons second rest ih =>
      cases left with
      | zero => simp at enough
      | succ left =>
          have further := List.isChain_cons_cons.mp linked
          rw [List.mem_cons, not_or] at notFirst
          rcases considered : c.consider tmp best with ⟨best, goesOn⟩
          cases goesOn with
          | false => simp only [victimLoop, choose, considered]
          | true =>
              rw [choose, considered]
              simp only [victimLoop, considered, further.1.1, if_neg (Ne.symm notFirst.1)]
              exact ih further.2 notFirst.2 (by simpa using enough)

theorem mem_of_consider {tmp : Bh} {best : Option Bh} {goesOn : Bool}
    (considered : c.consider tmp best = (some bh, goesOn)) :
    best = some bh ∨ bh = tmp ∧ c.bCount bh = 0 := by
  unfold consider at considered
  split at considered
  next =>
    exact .inl (Prod.mk.inj considered).1
  next unused =>
    split at considered
    next =>
      have same := Option.some.inj (Prod.mk.inj considered).1
      exact .inr ⟨same.symm, same ▸ not_not.mp unused⟩
    next =>
      split at considered
      next =>
        have same := Option.some.inj (Prod.mk.inj considered).1
        exact .inr ⟨same.symm, same ▸ not_not.mp unused⟩
      next => exact .inl (Prod.mk.inj considered).1

theorem mem_of_choose {cells : List Bh} {best : Option Bh}
    (chosen : c.choose cells best = some bh) :
    best = some bh ∨ bh ∈ cells ∧ c.bCount bh = 0 := by
  induction cells generalizing best with
  | nil => exact .inl chosen
  | cons tmp rest ih =>
      rcases considered : c.consider tmp best with ⟨best', goesOn⟩
      have here (isBest : best' = some bh) :
          best = some bh ∨ bh ∈ tmp :: rest ∧ c.bCount bh = 0 := by
        rw [isBest] at considered
        rcases mem_of_consider considered with same | ⟨same, unused⟩
        · exact .inl same
        · exact .inr ⟨same ▸ List.mem_cons_self, unused⟩
      cases goesOn with
      | false =>
          simp only [choose, considered] at chosen
          exact here chosen
      | true =>
          simp only [choose, considered] at chosen
          rcases ih chosen with isBest | ⟨member, unused⟩
          · exact here isBest
          · exact .inr ⟨List.mem_cons_of_mem tmp member, unused⟩

/-- The loop of `getblk` goes through all buffers, and what it picks is unused. -/
theorem FreeList.victim_some (free : c.FreeList c.buffers) (picked : c.victim = some bh) :
    bh ∈ c.buffers ∧ c.bCount bh = 0 := by
  obtain ⟨ring, linked, first, members⟩ := free
  obtain ⟨cells, rfl⟩ := Ring.exists_cons first
  have nodup := List.nodup_cons.mp linked.nodup
  have short : (c.freeList :: cells).length ≤ c.nrBuffers := by
    apply length_le_of_members linked.nodup
    intro bh member
    exact (members bh).mp (Cycle.mem_coe_iff.mpr member)
  rw [victim, victimLoop_eq (Ring.cons_iff.mp linked).2 nodup.1 short] at picked
  have chosen := (mem_of_choose picked).resolve_left (by simp)
  exact ⟨(members bh).mp (Cycle.mem_coe_iff.mpr chosen.1), chosen.2⟩

/-! ## The free list -/

/-- The free list without `bh`; if `bh` was its only member, `bh` still points to
itself. -/
def FreeWithout (c : Cache) (bh : Bh) : Prop :=
  c.FreeList (c.buffers \ {bh}) ∨
    c.freeList = bh ∧ Ring c.bNextFree c.bPrevFree ([bh] : List Bh) ∧ c.buffers = {bh}

/-- Only pointers differ. -/
def Relinked (c c' : Cache) : Prop :=
  c' = { c with
    freeList := c'.freeList
    hashTable := c'.hashTable
    bPrev := c'.bPrev
    bNext := c'.bNext
    bPrevFree := c'.bPrevFree
    bNextFree := c'.bNextFree }

theorem removeFromFree_spec (free : c.FreeList c.buffers) (inside : bh ∈ c.buffers) :
    ∃ c', c.removeFromFree bh = some c' ∧ c'.FreeWithout bh ∧
      c' = { c with
        freeList := c'.freeList, bPrevFree := c'.bPrevFree, bNextFree := c'.bNextFree } := by
  obtain ⟨ring, linked, first, members⟩ := free
  obtain ⟨cells, rfl⟩ := Ring.exists_cons ((members bh).mpr inside)
  rw [Cycle.mem_coe_iff] at first
  cases cells with
  | nil =>
      obtain ⟨next, prev⟩ := Ring.singleton_iff.mp linked
      have isFirst : c.freeList = bh := List.mem_singleton.mp first
      have only : c.buffers = {bh} := by
        ext other
        rw [← members, Cycle.mem_coe_iff, List.mem_singleton, Set.mem_singleton_iff]
      refine ⟨{ c with freeList := bh }, ?_, .inr ⟨rfl, linked, only⟩, rfl⟩
      simp only [removeFromFree, next, prev, Lib.store_same next, Lib.store_same prev, isFirst,
        if_true]
  | cons second rest =>
      have others := List.cons_ne_nil second rest
      obtain ⟨⟨n, memberN, next⟩, p, memberP, prev⟩ := linked.neighbours others
      have absent : bh ∉ second :: rest := (List.nodup_cons.mp linked.nodup).1
      have notBh : some p ≠ some bh := by
        intro same
        exact absent (Option.some.inj same ▸ memberP)
      have unlinked := linked.unlink others
      rw [next, prev] at unlinked
      refine ⟨{ c with
        freeList := if c.freeList = bh then n else c.freeList
        bPrevFree := store c.bPrevFree (some n) (some p)
        bNextFree := store c.bNextFree (some p) (some n) }, ?_, .inl ⟨_, unlinked, ?_, ?_⟩, rfl⟩
      · simp only [removeFromFree, next, prev, Lib.store_of_ne _ notBh]
        by_cases isFirst : c.freeList = bh
        · rw [if_pos isFirst, if_pos isFirst]
        · rw [if_neg isFirst, if_neg isFirst]
      · rw [Cycle.mem_coe_iff]
        by_cases isFirst : c.freeList = bh
        · simpa [isFirst] using memberN
        · simpa [isFirst] using first
      · intro other
        rw [Cycle.mem_coe_iff, Set.mem_sdiff, Set.mem_singleton_iff]
        have all := members other
        rw [Cycle.mem_coe_iff, List.mem_cons] at all
        constructor
        · intro member
          exact ⟨all.mp (.inr member), fun same => absent (same ▸ member)⟩
        · intro ⟨member, different⟩
          exact (all.mpr member).resolve_left different

theorem insertIntoFree_free (without : c.FreeWithout bh) (inside : bh ∈ c.buffers) :
    (c.insertIntoFree bh).FreeList c.buffers := by
  rcases without with ⟨ring, linked, first, members⟩ | ⟨isFirst, linked, only⟩
  · obtain ⟨cells, rfl⟩ := Ring.exists_cons first
    have absent : bh ∉ c.freeList :: cells := by
      intro member
      exact ((members bh).mp (Cycle.mem_coe_iff.mpr member)).2 rfl
    have different : some bh ≠ some c.freeList := by
      intro same
      exact absent (Option.some.inj same ▸ List.mem_cons_self)
    refine ⟨(bh :: c.freeList :: cells : List Bh), ?_, ?_, ?_⟩
    · simpa [insertIntoFree, Lib.store_of_ne _ different] using linked.link absent
    · exact Cycle.mem_coe_iff.mpr (List.mem_cons_of_mem bh List.mem_cons_self)
    · intro other
      have others := members other
      rw [Cycle.mem_coe_iff, Set.mem_sdiff, Set.mem_singleton_iff] at others
      rw [Cycle.mem_coe_iff, List.mem_cons, others]
      constructor
      · rintro (same | ⟨member, _⟩)
        · exact same ▸ inside
        · exact member
      · intro member
        by_cases same : other = bh
        · exact .inl same
        · exact .inr ⟨member, same⟩
  · obtain ⟨next, prev⟩ := Ring.singleton_iff.mp linked
    refine ⟨([bh] : List Bh), ?_, ?_, ?_⟩
    · simpa [insertIntoFree, isFirst, prev, Lib.store_same next, Lib.store_same prev] using linked
    · exact Cycle.mem_coe_iff.mpr (List.mem_singleton.mpr isFirst)
    · intro other
      rw [Cycle.mem_coe_iff, List.mem_singleton, only, Set.mem_singleton_iff]

/-! ## The hash chains -/

/-- The assignments of `remove_from_queues` to the hash chains, when `bh` is not next to
itself. -/
theorem removeFromHash_eq (next : c.bNext bh ≠ some bh) (prev : c.bPrev bh ≠ some bh) :
    c.removeFromHash bh = { c with
      bPrev := store c.bPrev (c.bNext bh) (c.bPrev bh)
      bNext := store c.bNext (c.bPrev bh) (c.bNext bh)
      hashTable := Function.update c.hashTable (c.hash bh)
        (if c.hashTable (c.hash bh) = some bh then c.bNext bh else c.hashTable (c.hash bh)) } := by
  have sameHash (bPrev bNext : Bh → Option Bh) :
      hash { c with bPrev := bPrev, bNext := bNext } bh = c.hash bh := rfl
  simp only [removeFromHash, sameHash, Lib.store_of_ne _ next, Lib.store_of_ne _ prev]
  split
  next isHead => rfl
  next => rw [Function.update_eq_self]

theorem removeFromHash_of_noDev (hashed : c.Hashed c.buffers) (inside : bh ∈ c.buffers)
    (noDev : c.bDev bh = 0) : c.removeFromHash bh = c := by
  obtain ⟨next, prev⟩ := hashed.single bh inside noDev
  obtain ⟨chain, chained, members⟩ := hashed.chain (c.hash bh)
  have notHead : c.hashTable (c.hash bh) ≠ some bh := by
    intro isHead
    have inChain := List.mem_of_mem_head? (chained.head.symm.trans isHead)
    exact ((members bh).mp inChain).2.1 noDev
  rw [removeFromHash_eq (by simp [next]) (by simp [prev]), if_neg notHead]
  simp [next, prev]

/-- The chains without `bh`. -/
theorem removeFromHash_hashed (hashed : c.Hashed c.buffers) (inside : bh ∈ c.buffers) :
    (c.removeFromHash bh).Hashed (c.buffers \ {bh}) := by
  by_cases noDev : c.bDev bh = 0
  · rw [removeFromHash_of_noDev hashed inside noDev]
    constructor
    · intro h
      obtain ⟨chain, chained, members⟩ := hashed.chain h
      refine ⟨chain, chained, fun other => (members other).trans ?_⟩
      rw [Set.mem_sdiff, Set.mem_singleton_iff]
      constructor
      · intro ⟨member, hasDev, hash⟩
        exact ⟨⟨member, fun same => hasDev (same ▸ noDev)⟩, hasDev, hash⟩
      · intro ⟨member, hasDev, hash⟩
        exact ⟨member.1, hasDev, hash⟩
    · intro other member
      exact hashed.single other member.1
  · obtain ⟨chain, chained, members⟩ := hashed.chain (c.hash bh)
    have inChain : bh ∈ chain := (members bh).mpr ⟨inside, noDev, rfl⟩
    obtain ⟨before, behind, rfl⟩ := List.append_of_mem inChain
    have neighbours := chained.neighbours
    have apart : ∀ other, other ∉ before ++ behind →
        c.bNext bh ≠ some other ∧ c.bPrev bh ≠ some other := by
      intro other outside
      rw [List.mem_append] at outside
      rw [neighbours.1, neighbours.2]
      exact ⟨fun isFirst => outside (.inr (List.mem_of_mem_head? isFirst)),
        fun isLast => outside (.inl (List.mem_of_mem_getLast? isLast))⟩
    have absent : bh ∉ before ++ behind :=
      (List.nodup_middle.mp chained.nodup).notMem
    have rest (other : Bh) : other ∈ before ++ behind ↔
        other ∈ c.buffers \ {bh} ∧ c.bDev other ≠ 0 ∧ c.hash other = c.hash bh := by
      have all := members other
      rw [List.mem_append, List.mem_cons, or_left_comm, ← List.mem_append] at all
      rw [Set.mem_sdiff, Set.mem_singleton_iff]
      constructor
      · intro member
        obtain ⟨isBuffer, hasDev, hash⟩ := all.mp (.inr member)
        exact ⟨⟨isBuffer, fun same => absent (same ▸ member)⟩, hasDev, hash⟩
      · intro ⟨⟨isBuffer, different⟩, hasDev, hash⟩
        exact (all.mpr ⟨isBuffer, hasDev, hash⟩).resolve_left different
    rw [removeFromHash_eq (apart bh absent).1 (apart bh absent).2]
    constructor
    · intro h
      by_cases here : h = c.hash bh
      · rw [here]
        refine ⟨before ++ behind, ?_, rest⟩
        simpa using chained.unlink
      · obtain ⟨chain, chained, members⟩ := hashed.chain h
        have outside {other : Bh} (member : other ∈ chain) : other ∉ before ++ behind := by
          intro both
          exact here (((members other).mp member).2.2.symm.trans ((rest other).mp both).2.2)
        refine ⟨chain, ?_, fun other => (members other).trans ?_⟩
        · dsimp only
          rw [Function.update_of_ne here]
          apply chained.congr
          intro other member
          have away := apart other (outside member)
          exact ⟨Lib.store_of_ne _ away.2, Lib.store_of_ne _ away.1⟩
        · rw [Set.mem_sdiff, Set.mem_singleton_iff]
          constructor
          · intro ⟨member, hasDev, hash⟩
            exact ⟨⟨member, fun same => here (hash.symm.trans (same ▸ rfl))⟩, hasDev, hash⟩
          · intro ⟨member, hasDev, hash⟩
            exact ⟨member.1, hasDev, hash⟩
    · intro other member noDev
      have away := apart other fun both => ((rest other).mp both).2.1 noDev
      obtain ⟨next, prev⟩ := hashed.single other member.1 noDev
      exact ⟨(Lib.store_of_ne _ away.2).trans next, (Lib.store_of_ne _ away.1).trans prev⟩

theorem insertIntoHash_of_noDev (noDev : c.bDev bh = 0) :
    c.insertIntoHash bh = { c with
      bPrev := store c.bPrev (some bh) none, bNext := store c.bNext (some bh) none } :=
  if_pos noDev

theorem insertIntoHash_of_dev (hasDev : c.bDev bh ≠ 0) :
    c.insertIntoHash bh = { c with
      bPrev := store (store c.bPrev (some bh) none) (c.hashTable (c.hash bh)) (some bh)
      bNext := store c.bNext (some bh) (c.hashTable (c.hash bh))
      hashTable := Function.update c.hashTable (c.hash bh) (some bh) } := by
  have sameHash (bPrev bNext : Bh → Option Bh) :
      hash { c with bPrev := bPrev, bNext := bNext } bh = c.hash bh := rfl
  simp only [insertIntoHash, if_neg hasDev, sameHash, Lib.store_store, Lib.store_self]

theorem insertIntoHash_hashed (hashed : c.Hashed (c.buffers \ {bh})) (inside : bh ∈ c.buffers) :
    (c.insertIntoHash bh).Hashed c.buffers := by
  have different {other : Bh} (member : other ∈ c.buffers \ {bh}) : some bh ≠ some other := by
    intro same
    exact member.2 (Option.some.inj same).symm
  by_cases noDev : c.bDev bh = 0
  · rw [insertIntoHash_of_noDev noDev]
    constructor
    · intro h
      obtain ⟨chain, chained, members⟩ := hashed.chain h
      refine ⟨chain, chained.congr ?_, fun other => (members other).trans ?_⟩
      · intro other member
        have notBh := different ((members other).mp member).1
        exact ⟨Lib.store_of_ne _ notBh, Lib.store_of_ne _ notBh⟩
      · constructor
        · intro ⟨member, hasDev, hash⟩
          exact ⟨member.1, hasDev, hash⟩
        · intro ⟨member, hasDev, hash⟩
          exact ⟨⟨member, fun same => hasDev (same ▸ noDev)⟩, hasDev, hash⟩
    · intro other member otherNoDev
      by_cases same : other = bh
      · rw [same]
        exact ⟨Lib.store_self _ _, Lib.store_self _ _⟩
      · have inOthers : other ∈ c.buffers \ {bh} := ⟨member, same⟩
        obtain ⟨next, prev⟩ := hashed.single other inOthers otherNoDev
        have notBh := different inOthers
        exact ⟨(Lib.store_of_ne _ notBh).trans next, (Lib.store_of_ne _ notBh).trans prev⟩
  · rw [insertIntoHash_of_dev noDev]
    obtain ⟨chain, chained, members⟩ := hashed.chain (c.hash bh)
    have absent : bh ∉ chain := fun member => ((members bh).mp member).1.2 rfl
    have apart {other : Bh} (outside : other ∉ chain) :
        c.hashTable (c.hash bh) ≠ some other := by
      intro isHead
      exact outside (List.mem_of_mem_head? (chained.head.symm.trans isHead))
    constructor
    · intro h
      by_cases here : h = c.hash bh
      · rw [here]
        refine ⟨bh :: chain, ?_, fun other => ?_⟩
        · simpa using chained.push absent
        · rw [List.mem_cons, members]
          constructor
          · rintro (same | ⟨member, hasDev, hash⟩)
            · rw [same]
              exact ⟨inside, noDev, rfl⟩
            · exact ⟨member.1, hasDev, hash⟩
          · intro ⟨member, hasDev, hash⟩
            by_cases same : other = bh
            · exact .inl same
            · exact .inr ⟨⟨member, same⟩, hasDev, hash⟩
      · obtain ⟨chain', chained', members'⟩ := hashed.chain h
        refine ⟨chain', ?_, fun other => (members' other).trans ?_⟩
        · dsimp only
          rw [Function.update_of_ne here]
          apply chained'.congr
          intro other member
          obtain ⟨isOther, _, hash⟩ := (members' other).mp member
          have notBh := different isOther
          have notHead : c.hashTable (c.hash bh) ≠ some other := by
            apply apart
            intro both
            exact here (hash.symm.trans ((members other).mp both).2.2)
          exact ⟨Lib.store_of_ne _ notBh,
            (Lib.store_of_ne _ notHead).trans (Lib.store_of_ne _ notBh)⟩
        · constructor
          · intro ⟨member, hasDev, hash⟩
            exact ⟨member.1, hasDev, hash⟩
          · intro ⟨member, hasDev, hash⟩
            exact ⟨⟨member, fun same => here (hash.symm.trans (same ▸ rfl))⟩, hasDev, hash⟩
    · intro other member otherNoDev
      have inOthers : other ∈ c.buffers \ {bh} := ⟨member, fun same => noDev (same ▸ otherNoDev)⟩
      obtain ⟨next, prev⟩ := hashed.single other inOthers otherNoDev
      have notBh := different inOthers
      have notHead := apart fun both => ((members other).mp both).2.1 otherNoDev
      exact ⟨(Lib.store_of_ne _ notBh).trans next,
        ((Lib.store_of_ne _ notHead).trans (Lib.store_of_ne _ notBh)).trans prev⟩

/-- Data, flags and reference counts do not matter. -/
theorem Queues.touch (queues : c.Queues) (bData : Bh → Nat → UInt8)
    (bUptodate bDirt bLock : Bh → Bool) (bCount : Bh → UInt8) :
    Queues { c with
      bData := bData
      bUptodate := bUptodate
      bDirt := bDirt
      bLock := bLock
      bCount := bCount } where
  free := queues.free
  hashed := ⟨queues.hashed.chain, queues.hashed.single⟩
  once := queues.once

/-! ## Reuse -/

/-- The hash part of the removal leaves the other fields alone. -/
theorem removeFromHash_same (c : Cache) (bh : Bh) : c.removeFromHash bh = { c with
    hashTable := (c.removeFromHash bh).hashTable
    bPrev := (c.removeFromHash bh).bPrev
    bNext := (c.removeFromHash bh).bNext } := by
  unfold removeFromHash
  dsimp only
  split <;> rfl

theorem insertIntoHash_same (c : Cache) (bh : Bh) : c.insertIntoHash bh = { c with
    hashTable := (c.insertIntoHash bh).hashTable
    bPrev := (c.insertIntoHash bh).bPrev
    bNext := (c.insertIntoHash bh).bNext } := by
  unfold insertIntoHash
  dsimp only
  split <;> rfl

/-- The identity of a buffer that is in no chain does not matter to them. -/
theorem Hashed.setIdentity (hashed : c.Hashed (members \ {bh})) :
    Hashed { c with
      bDev := Function.update c.bDev bh dev
      bBlocknr := Function.update c.bBlocknr bh block } (members \ {bh}) := by
  have sameDev {other : Bh} (member : other ∈ members \ {bh}) :
      Function.update c.bDev bh dev other = c.bDev other :=
    Function.update_of_ne member.2 _ _
  have sameHash {other : Bh} (member : other ∈ members \ {bh}) :
      hash { c with
        bDev := Function.update c.bDev bh dev
        bBlocknr := Function.update c.bBlocknr bh block } other = c.hash other := by
    simp only [hash, sameDev member]
    rw [Function.update_of_ne member.2]
  constructor
  · intro h
    obtain ⟨chain, chained, exact_⟩ := hashed.chain h
    refine ⟨chain, chained, fun other => (exact_ other).trans ?_⟩
    constructor
    · intro ⟨member, hasDev, hash⟩
      exact ⟨member, (sameDev member).trans_ne hasDev, (sameHash member).trans hash⟩
    · intro ⟨member, hasDev, hash⟩
      exact ⟨member, (sameDev member).symm.trans_ne hasDev, (sameHash member).symm.trans hash⟩
  · intro other member noDev
    exact hashed.single other member ((sameDev member).symm.trans noDev)

theorem OneEach.setIdentity (once : c.OneEach)
    (missing : ∀ other ∈ c.buffers, c.bDev other ≠ 0 → ¬c.Holds other dev block) :
    OneEach { c with
      bDev := Function.update c.bDev bh dev
      bBlocknr := Function.update c.bBlocknr bh block } := by
  intro a insideA b insideB hasDev sameDev sameBlock
  dsimp only at hasDev sameDev sameBlock
  by_cases isA : a = bh
  · by_cases isB : b = bh
    · exact isA.trans isB.symm
    · rw [isA, Function.update_self] at hasDev sameDev sameBlock
      rw [Function.update_of_ne isB] at sameDev sameBlock
      exact absurd ⟨sameDev.symm, sameBlock.symm⟩ (missing b insideB (sameDev ▸ hasDev))
  · rw [Function.update_of_ne isA] at hasDev sameDev sameBlock
    by_cases isB : b = bh
    · rw [isB, Function.update_self] at sameDev sameBlock
      exact absurd ⟨sameDev, sameBlock⟩ (missing a insideA hasDev)
    · rw [Function.update_of_ne isB] at sameDev sameBlock
      exact once a insideA b insideB hasDev sameDev sameBlock

/-- What `getblk` does to the buffer that it takes: it is for the block, with one
reference, and the queues are as before. -/
structure Assigned (c : Cache) (bh : Bh) (dev : UInt16) (block : UInt32) (c' : Cache) :
    Prop where
  queues : c'.Queues
  nrBuffers : c'.nrBuffers = c.nrBuffers
  bDev : c'.bDev = Function.update c.bDev bh dev
  bBlocknr : c'.bBlocknr = Function.update c.bBlocknr bh block
  bCount : c'.bCount = Function.update c.bCount bh 1
  bDirt : c'.bDirt = Function.update c.bDirt bh false
  bUptodate : c'.bUptodate = Function.update c.bUptodate bh false
  bLock : c'.bLock = c.bLock
  bData : c'.bData = c.bData

theorem removeFromQueues_spec (free : c.FreeList c.buffers) (hashed : c.Hashed c.buffers)
    (inside : bh ∈ c.buffers) :
    ∃ c', c.removeFromQueues bh = some c' ∧ c'.FreeWithout bh ∧
      c'.Hashed (c.buffers \ {bh}) ∧ c.Relinked c' := by
  have unhashed := removeFromHash_hashed hashed inside
  have same := removeFromHash_same c bh
  have freeStill : (c.removeFromHash bh).FreeList (c.removeFromHash bh).buffers := by
    rw [same]
    exact free
  obtain ⟨c', removed, without, same'⟩ := removeFromFree_spec freeStill
    (show bh ∈ (c.removeFromHash bh).buffers by rw [same]; exact inside)
  refine ⟨c', removed, without, ?_, ?_⟩
  · rw [same']
    exact ⟨unhashed.chain, unhashed.single⟩
  · rw [Relinked, same', same]

theorem insertIntoQueues_spec (without : c.FreeWithout bh) (hashed : c.Hashed (c.buffers \ {bh}))
    (inside : bh ∈ c.buffers) :
    (c.insertIntoQueues bh).FreeList c.buffers ∧ (c.insertIntoQueues bh).Hashed c.buffers ∧
      c.Relinked (c.insertIntoQueues bh) := by
  have free := insertIntoFree_free without inside
  have same := insertIntoHash_same (c.insertIntoFree bh) bh
  refine ⟨?_, insertIntoHash_hashed ⟨hashed.chain, hashed.single⟩ inside, ?_⟩
  · rw [insertIntoQueues, same]
    exact free
  · rw [Relinked, insertIntoQueues, same]
    rfl

theorem Queues.assign (queues : c.Queues) (inside : bh ∈ c.buffers)
    (missing : c.findBuffer dev block = none) :
    ∃ c', c.assign bh dev block = some c' ∧ c.Assigned bh dev block c' := by
  let c₁ : Cache := { c.setCount bh 1 with
    bDirt := Function.update c.bDirt bh false
    bUptodate := Function.update c.bUptodate bh false }
  have hashed₁ : c₁.Hashed c₁.buffers := ⟨queues.hashed.chain, queues.hashed.single⟩
  obtain ⟨c₂, removed, without, hashed₂, same₂⟩ :=
    removeFromQueues_spec (c := c₁) queues.free hashed₁ inside
  let c₃ : Cache := { c₂ with
    bDev := Function.update c₂.bDev bh dev
    bBlocknr := Function.update c₂.bBlocknr bh block }
  have buffers₃ : c₃.buffers = c.buffers := by
    change { bh | bh < c₂.nrBuffers } = _
    rw [same₂]
    rfl
  have hashed₃ : c₃.Hashed (c₃.buffers \ {bh}) := by
    rw [buffers₃]
    exact hashed₂.setIdentity
  obtain ⟨free₄, hashed₄, same₄⟩ := insertIntoQueues_spec (c := c₃) without hashed₃
    (buffers₃ ▸ inside)
  have once₂ : c₂.OneEach := by
    rw [same₂]
    exact queues.once
  have missing₂ (other : Bh) (member : other ∈ c₂.buffers) (hasDev : c₂.bDev other ≠ 0) :
      ¬c₂.Holds other dev block := by
    rw [same₂] at member hasDev ⊢
    exact queues.hashed.findBuffer_none missing member hasDev
  have once₃ : c₃.OneEach := once₂.setIdentity missing₂
  refine ⟨c₃.insertIntoQueues bh, ?_, ⟨?_, ?_, ?_⟩, ?_, ?_, ?_, ?_, ?_, ?_, ?_, ?_⟩
  · change (c₁.removeFromQueues bh).bind _ = _
    rw [removed]
    rfl
  · rw [same₄]
    rw [same₄] at free₄
    exact free₄
  · rw [same₄]
    rw [same₄] at hashed₄
    exact hashed₄
  · rw [same₄]
    exact once₃
  all_goals
    rw [same₄]
    dsimp only [c₃]
    rw [same₂]
  all_goals rfl

end Cache

/-! ## buffer_init -/

theorem bufferInit_queues {n : Nat} {bBlocknr : Bh → UInt32} {bData : Bh → Nat → UInt8}
    (some_ : 0 < n) : (bufferInit n bBlocknr bData).Queues where
  free := by
    obtain ⟨last, rfl⟩ := Nat.exists_eq_add_of_lt some_
    rw [Nat.zero_add]
    refine ⟨(List.range (last + 1) : List Bh), ⟨List.nodup_range, ?_⟩, ?_, fun bh => ?_⟩
    · rw [Cycle.chain_range_succ]
      constructor
      · exact ⟨congrArg some (if_pos rfl), congrArg some (if_pos rfl)⟩
      · intro bh inside
        have notLast : bh + 1 ≠ last + 1 := by omega
        exact ⟨congrArg some (if_neg notLast), congrArg some (if_neg (Nat.succ_ne_zero bh))⟩
    · exact Cycle.mem_coe_iff.mpr (List.mem_range.mpr (Nat.succ_pos last))
    · rw [Cycle.mem_coe_iff, List.mem_range]
      rfl
  hashed := by
    constructor
    · intro h
      refine ⟨[], ⟨List.nodup_nil, rfl, List.isChain_nil, nofun, nofun⟩, fun bh => ?_⟩
      simp [bufferInit]
    · intro bh _ _
      exact ⟨rfl, rfl⟩
  once a _ b _ hasDev := absurd rfl hasDev

end Linux012.Buffer
