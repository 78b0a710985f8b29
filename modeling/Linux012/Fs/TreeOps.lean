import Linux012.Fs.Tree

/-!
# Changes of the tree that keep the law of link counts

Each kind of change is described by what it does to live entries and link counts,
without saying how the kernel does it: an inode is allocated or freed, an entry
appears or disappears together with a link, a directory appears or disappears
together with its `.` and `..`.
-/

namespace Linux012.Fs

variable {tree tree' : Tree}

/-- The contents of an inode changed in nothing that the tree depends on. -/
structure Inode.Alike (old new : Inode) : Prop where
  isDir : new.isDir = old.isDir
  nlinks : new.nlinks = old.nlinks
  target : ∀ slot, new.target slot = old.target slot
  early : ∀ slot < 2, (old.target slot).isSome → (new.entry slot).name = (old.entry slot).name
  blank : old.isDir = true → old.Blank → new.Blank
  wholeEntries : old.isDir = true → old.size % dirEntrySize = 0 →
    new.size % dirEntrySize = 0

theorem Inode.Alike.refl (node : Inode) : node.Alike node :=
  ⟨rfl, rfl, fun _ => rfl, fun _ _ _ => rfl, fun _ => id, fun _ => id⟩

theorem Inode.Alike.trans {first second third : Inode} (one : first.Alike second)
    (two : second.Alike third) : first.Alike third where
  isDir := two.isDir.trans one.isDir
  nlinks := two.nlinks.trans one.nlinks
  target slot := (two.target slot).trans (one.target slot)
  early slot first live := by
    rw [two.early slot first (by rw [one.target]; exact live)]
    exact one.early slot first live
  blank dir old := two.blank (one.isDir.trans dir) (one.blank dir old)
  wholeEntries dir old :=
    two.wholeEntries (one.isDir.trans dir) (one.wholeEntries dir old)

/-- Two directories differ only in one slot. -/
structure Inode.SlotChanged (old new : Inode) (slot : Nat) : Prop where
  isDir : old.isDir = true
  isDir' : new.isDir = true
  size : new.size = old.size
  zone : new.zone = old.zone
  target : ∀ i ≠ slot, new.target i = old.target i
  entry : ∀ i ≠ slot, new.entry i = old.entry i

theorem Inode.SlotChanged.symm {old new : Inode} {slot : Nat}
    (changed : old.SlotChanged new slot) : new.SlotChanged old slot where
  isDir := changed.isDir'
  isDir' := changed.isDir
  size := changed.size.symm
  zone := changed.zone.symm
  target i other := (changed.target i other).symm
  entry i other := (changed.entry i other).symm

/-- A change of a late slot keeps the shape of a directory. -/
theorem Inode.SlotChanged.shape {old new : Inode} {slot num : Nat}
    (changed : old.SlotChanged new slot) (late : 2 ≤ slot)
    (shape : old.Blank ∨ old.Proper num) : new.Blank ∨ new.Proper num := by
  rcases shape with blank | proper
  · left
    exact ⟨changed.size.trans blank.1, changed.zone ▸ blank.2⟩
  · right
    constructor
    · rw [changed.size]
      exact proper.wholeEntries
    · rw [changed.target 0 (by omega)]
      exact proper.dot
    · rw [changed.target 1 (by omega)]
      exact proper.dotdot
    · rw [changed.entry 0 (by omega)]
      exact proper.dotName
    · rw [changed.entry 1 (by omega)]
      exact proper.dotdotName

theorem Inode.Alike.shape {old new : Inode} {num : Nat} (alike : old.Alike new)
    (dir : old.isDir = true) (shape : old.Blank ∨ old.Proper num) :
    new.Blank ∨ new.Proper num := by
  rcases shape with blank | proper
  · exact .inl (alike.blank dir blank)
  · right
    constructor
    · exact alike.wholeEntries dir proper.wholeEntries
    · rw [alike.target]
      exact proper.dot
    · rw [alike.target]
      exact proper.dotdot
    · rw [alike.early 0 (by omega) (by simp [proper.dot])]
      exact proper.dotName
    · rcases proper.dotdot with ⟨up, live⟩
      rw [alike.early 1 (by omega) (by simp [live])]
      exact proper.dotdotName

/-! ## Nothing that matters changes -/

theorem Tree.names_of_alike (imap : tree'.imap = tree.imap)
    (alike : ∀ n ∈ tree.imap, (tree.inode n).Alike (tree'.inode n))
    (dir : Ino) (slot : Nat) (n : Ino) :
    tree'.Names dir slot n ↔ tree.Names dir slot n := by
  simp only [Tree.Names, imap]
  refine and_congr_right fun member => ?_
  rw [(alike dir member).target slot]

theorem Tree.Ok.alike (ok : tree.Ok) (imap : tree'.imap = tree.imap)
    (alike : ∀ n ∈ tree.imap, (tree.inode n).Alike (tree'.inode n)) : tree'.Ok := by
  have names := Tree.names_of_alike imap alike
  constructor
  · constructor
    · intro n member
      rw [imap] at member
      rw [(alike n member).nlinks, Tree.linkCount_congr fun dir slot => names dir slot n]
      exact ok.law.counts n member
    · intro dir slot n named
      rw [imap]
      exact ok.law.allocated dir slot n ((names dir slot n).mp named)
  · constructor
    · intro n member
      exact ok.dirs.numbered n (imap ▸ member)
    · intro dir member isDir
      rw [imap] at member
      have wasDir : (tree.inode dir).isDir = true := (alike dir member).isDir ▸ isDir
      exact (alike dir member).shape wasDir (ok.dirs.shape dir member wasDir)
    · intro dir up named
      simp only [names] at named ⊢
      exact ok.dirs.parent dir up named
    · intro up slot dir up' late entry dotdot
      rw [names] at entry dotdot
      exact ok.dirs.child up slot dir up' late entry dotdot
    · intro n isDir up slot up' slot' late late' one two
      rw [names] at one two
      have member := ok.law.allocated _ _ _ one
      exact ok.dirs.once n ((alike n member).isDir ▸ isDir) up slot up' slot' late late' one two

/-! ## An inode is allocated or freed -/

theorem Tree.Ok.not_names_fresh (ok : tree.Ok) {n : Ino} (fresh : n ∉ tree.imap)
    (dir : Ino) (slot : Nat) : ¬tree.Names dir slot n := by
  intro named
  exact fresh (ok.law.allocated dir slot n named)

/-- `tree'` is `tree` with a new inode that has no links and no entries. -/
structure Tree.Allocated (tree tree' : Tree) (n : Ino) : Prop where
  fresh : n ∉ tree.imap
  numbered : n.num ≠ 0
  imap : tree'.imap = insert n tree.imap
  others : ∀ m ∈ tree.imap, tree'.inode m = tree.inode m
  unlinked : (tree'.inode n).nlinks = 0
  empty : ∀ slot, (tree'.inode n).target slot = none
  blank : (tree'.inode n).isDir = true → (tree'.inode n).Blank

theorem Tree.Allocated.names {n : Ino} (allocated : tree.Allocated tree' n)
    (dir : Ino) (slot : Nat) (m : Ino) : tree'.Names dir slot m ↔ tree.Names dir slot m := by
  simp only [Tree.Names, allocated.imap, Finset.mem_insert]
  by_cases here : dir = n
  · subst here
    simp [allocated.empty, allocated.fresh]
  · simp only [here, false_or]
    refine and_congr_right fun member => ?_
    rw [allocated.others dir member]

theorem Tree.Ok.alloc (ok : tree.Ok) {n : Ino} (allocated : tree.Allocated tree' n) :
    tree'.Ok := by
  have names := allocated.names
  have imap := allocated.imap
  have others := allocated.others
  constructor
  · constructor
    · intro m member
      rw [Tree.linkCount_congr fun dir slot => names dir slot m]
      rcases Finset.mem_insert.mp (imap ▸ member) with rfl | old
      · have unnamed : tree.namers m = ∅ := by
          ext ⟨dir, slot⟩
          simpa using ok.not_names_fresh allocated.fresh dir slot
        rw [allocated.unlinked, Tree.linkCount, unnamed]
        rfl
      · rw [others m old]
        exact ok.law.counts m old
    · intro dir slot m named
      rw [imap]
      exact Finset.mem_insert_of_mem (ok.law.allocated dir slot m ((names dir slot m).mp named))
  · constructor
    · intro m member
      rcases Finset.mem_insert.mp (imap ▸ member) with rfl | old
      · exact allocated.numbered
      · exact ok.dirs.numbered m old
    · intro dir member isDir
      rcases Finset.mem_insert.mp (imap ▸ member) with rfl | old
      · exact .inl (allocated.blank isDir)
      · rw [others dir old] at isDir ⊢
        exact ok.dirs.shape dir old isDir
    · intro dir up named
      simp only [names] at named ⊢
      exact ok.dirs.parent dir up named
    · intro up slot dir up' late entry dotdot
      rw [names] at entry dotdot
      exact ok.dirs.child up slot dir up' late entry dotdot
    · intro m isDir up slot up' slot' late late' one two
      rw [names] at one two
      rw [others m (ok.law.allocated _ _ _ one)] at isDir
      exact ok.dirs.once m isDir up slot up' slot' late late' one two

/-- `tree'` is `tree` without an inode that has no links. -/
structure Tree.Freed (tree tree' : Tree) (n : Ino) : Prop where
  member : n ∈ tree.imap
  unlinked : (tree.inode n).nlinks = 0
  imap : tree'.imap = tree.imap.erase n
  others : ∀ m ∈ tree.imap, m ≠ n → tree'.inode m = tree.inode m

theorem Tree.Ok.not_names_unlinked (ok : tree.Ok) {n : Ino} (member : n ∈ tree.imap)
    (unlinked : (tree.inode n).nlinks = 0) (dir : Ino) (slot : Nat) :
    ¬tree.Names dir slot n := by
  apply Tree.not_names_of_linkCount_eq_zero
  rw [← ok.law.counts n member, unlinked]
  rfl

theorem Tree.Ok.names_free (ok : tree.Ok) {n : Ino} (freed : tree.Freed tree' n)
    (dir : Ino) (slot : Nat) (m : Ino) : tree'.Names dir slot m ↔ tree.Names dir slot m := by
  have member := freed.member
  have unnamed := ok.not_names_unlinked member freed.unlinked
  have notDir : ∀ slot, (tree.inode n).target slot = none := by
    -- a directory with entries names itself
    intro slot
    cases live : (tree.inode n).target slot with
    | none => rfl
    | some num =>
        have isDir := Inode.isDir_of_target live
        rcases ok.dirs.shape n member isDir with blank | proper
        · have bound := Inode.lt_of_target live
          simp [blank.1] at bound
        · exact absurd ⟨member, rfl, proper.dot⟩ (unnamed n 0)
  simp only [Tree.Names, freed.imap, Finset.mem_erase]
  by_cases here : dir = n
  · subst here
    simp [notDir]
  · simp only [ne_eq, here, not_false_eq_true, true_and]
    refine and_congr_right fun allocated => ?_
    rw [freed.others dir allocated here]

/-- An inode without links is freed. -/
theorem Tree.Ok.free (ok : tree.Ok) {n : Ino} (freed : tree.Freed tree' n) : tree'.Ok := by
  have names := ok.names_free freed
  have imap := freed.imap
  have others := freed.others
  have survives : ∀ dir slot m, tree.Names dir slot m → m ∈ tree.imap ∧ m ≠ n := by
    intro dir slot m named
    refine ⟨ok.law.allocated dir slot m named, ?_⟩
    rintro rfl
    exact ok.not_names_unlinked freed.member freed.unlinked dir slot named
  constructor
  · constructor
    · intro m there
      rw [imap, Finset.mem_erase] at there
      rw [Tree.linkCount_congr fun dir slot => names dir slot m, others m there.2 there.1]
      exact ok.law.counts m there.2
    · intro dir slot m named
      have kept := survives dir slot m ((names dir slot m).mp named)
      rw [imap]
      exact Finset.mem_erase.mpr ⟨kept.2, kept.1⟩
  · constructor
    · intro m there
      rw [imap, Finset.mem_erase] at there
      exact ok.dirs.numbered m there.2
    · intro dir there isDir
      rw [imap, Finset.mem_erase] at there
      rw [others dir there.2 there.1] at isDir ⊢
      exact ok.dirs.shape dir there.2 isDir
    · intro dir up named
      simp only [names] at named ⊢
      exact ok.dirs.parent dir up named
    · intro up slot dir up' late entry dotdot
      rw [names] at entry dotdot
      exact ok.dirs.child up slot dir up' late entry dotdot
    · intro m isDir up slot up' slot' late late' one two
      rw [names] at one two
      have kept := survives _ _ _ one
      rw [others m kept.1 kept.2] at isDir
      exact ok.dirs.once m isDir up slot up' slot' late late' one two

/-! ## An entry appears or disappears -/

/-- `tree'` is `tree` with the live entry `slot` of `up` for the inode `n`, and with
one link more for `n`. -/
structure Tree.Linked (tree tree' : Tree) (up : Ino) (slot : Nat) (n : Ino) : Prop where
  imap : tree'.imap = tree.imap
  place : up ∈ tree.imap
  sameDev : up.dev = n.dev
  late : 2 ≤ slot
  free : (tree.inode up).target slot = none
  entry : (tree.inode up).SlotChanged (tree'.inode up) slot
  live : (tree'.inode up).target slot = some n.num
  distinct : up ≠ n
  member : n ∈ tree.imap
  placeLinks : (tree'.inode up).nlinks = (tree.inode up).nlinks
  links : (tree'.inode n).nlinks.toNat = (tree.inode n).nlinks.toNat + 1
  contents : tree'.inode n = { tree.inode n with nlinks := (tree'.inode n).nlinks }
  others : ∀ m ∈ tree.imap, m ≠ up → m ≠ n → tree'.inode m = tree.inode m

/-- The contents of an inode apart from the link count decide its entries. -/
@[simp] theorem Inode.target_nlinks (node : Inode) (nlinks : UInt8) (slot : Nat) :
    ({ node with nlinks := nlinks } : Inode).target slot = node.target slot := rfl

theorem Tree.Linked.target {up n : Ino} {slot : Nat} (linked : tree.Linked tree' up slot n)
    {dir : Ino} (member : dir ∈ tree.imap) (i : Nat) :
    (tree'.inode dir).target i =
      if dir = up ∧ i = slot then some n.num else (tree.inode dir).target i := by
  by_cases atUp : dir = up
  · subst atUp
    by_cases atSlot : i = slot
    · rw [if_pos ⟨rfl, atSlot⟩, atSlot, linked.live]
    · rw [if_neg (by simp [atSlot]), linked.entry.target i atSlot]
  · rw [if_neg (by simp [atUp])]
    by_cases atN : dir = n
    · subst atN
      rw [linked.contents, Inode.target_nlinks]
    · rw [linked.others dir member atUp atN]

theorem Tree.Linked.names {up n : Ino} {slot : Nat} (linked : tree.Linked tree' up slot n)
    (dir : Ino) (i : Nat) (m : Ino) :
    tree'.Names dir i m ↔ tree.Names dir i m ∨ dir = up ∧ i = slot ∧ m = n := by
  constructor
  · rintro ⟨member, sameDev, live⟩
    rw [linked.imap] at member
    rw [linked.target member] at live
    split at live
    next here =>
      right
      refine ⟨here.1, here.2, ?_⟩
      have sameNum : n.num = m.num := Option.some.inj live
      have onDev : m.dev = n.dev := by rw [← sameDev, here.1, linked.sameDev]
      cases m
      cases n
      simp only [Ino.mk.injEq]
      exact ⟨onDev, sameNum.symm⟩
    next => exact .inl ⟨member, sameDev, live⟩
  · rintro (⟨member, sameDev, live⟩ | ⟨rfl, rfl, rfl⟩)
    · refine ⟨linked.imap ▸ member, sameDev, ?_⟩
      rw [linked.target member, if_neg, live]
      rintro ⟨rfl, rfl⟩
      rw [linked.free] at live
      cases live
    · refine ⟨linked.imap ▸ linked.place, linked.sameDev, ?_⟩
      rw [linked.target linked.place, if_pos ⟨rfl, rfl⟩]

theorem Tree.Linked.isDir {up n : Ino} {slot : Nat} (linked : tree.Linked tree' up slot n)
    {m : Ino} (member : m ∈ tree.imap) : (tree'.inode m).isDir = (tree.inode m).isDir := by
  by_cases atUp : m = up
  · subst atUp
    rw [linked.entry.isDir, linked.entry.isDir']
  · by_cases atN : m = n
    · subst atN
      rw [linked.contents]
    · rw [linked.others m member atUp atN]

theorem Tree.Linked.not_names {up n : Ino} {slot : Nat}
    (linked : tree.Linked tree' up slot n) (m : Ino) : ¬tree.Names up slot m := by
  rintro ⟨_, _, live⟩
  rw [linked.free] at live
  cases live

theorem Tree.Linked.names_self {up n : Ino} {slot : Nat}
    (linked : tree.Linked tree' up slot n) (dir : Ino) (i : Nat) :
    tree'.Names dir i n ↔ tree.Names dir i n ∨ dir = up ∧ i = slot := by
  rw [linked.names, and_iff_left rfl]

theorem Tree.Linked.names_of_ne {up n m : Ino} {slot : Nat}
    (linked : tree.Linked tree' up slot n) (other : m ≠ n) (dir : Ino) (i : Nat) :
    tree'.Names dir i m ↔ tree.Names dir i m := by
  simp [linked.names, other]

/-- A file gets a new name.  A directory may get its first. -/
theorem Tree.Ok.link (ok : tree.Ok) {up n : Ino} {slot : Nat}
    (linked : tree.Linked tree' up slot n)
    (first : (tree.inode n).isDir = true → ∀ dir i, ¬tree.Names dir i n)
    (noParent : ∀ dir, ¬tree.Names n 1 dir) : tree'.Ok := by
  have names := linked.names
  constructor
  · constructor
    · intro m member
      rw [linked.imap] at member
      by_cases here : m = n
      · subst here
        rw [linked.links, ok.law.counts m member]
        exact (Tree.linkCount_succ (linked.not_names m) (linked.names_self)).symm
      · rw [Tree.linkCount_congr (linked.names_of_ne here), ← ok.law.counts m member]
        by_cases atUp : m = up
        · rw [atUp, linked.placeLinks]
        · rw [linked.others m member atUp here]
    · intro dir i m named
      rw [linked.imap]
      rcases (names dir i m).mp named with old | ⟨_, _, rfl⟩
      · exact ok.law.allocated dir i m old
      · exact linked.member
  · constructor
    · intro m member
      exact ok.dirs.numbered m (linked.imap ▸ member)
    · intro dir member isDir
      rw [linked.imap] at member
      have wasDir : (tree.inode dir).isDir = true := linked.isDir member ▸ isDir
      have shape := ok.dirs.shape dir member wasDir
      by_cases atUp : dir = up
      · subst atUp
        exact linked.entry.shape linked.late shape
      · by_cases atN : dir = n
        · subst atN
          rw [linked.contents]
          rcases shape with blank | proper
          · exact .inl blank
          · exact .inr ⟨proper.wholeEntries, proper.dot, proper.dotdot, proper.dotName,
              proper.dotdotName⟩
        · rw [linked.others dir member atUp atN]
          exact shape
    · intro dir dotdot named
      rcases (names dir 1 dotdot).mp named with old | ⟨_, impossible, _⟩
      · rcases ok.dirs.parent dir dotdot old with self | ⟨i, late, entry⟩
        · exact .inl self
        · exact .inr ⟨i, late, (names dotdot i dir).mpr (.inl entry)⟩
      · have late := linked.late
        omega
    · intro dir i m dotdot late entry up'
      have late' := linked.late
      rcases (names m 1 dotdot).mp up' with old | ⟨_, impossible, _⟩
      · rcases (names dir i m).mp entry with oldEntry | ⟨_, _, rfl⟩
        · exact ok.dirs.child dir i m dotdot late oldEntry old
        · exact absurd old (noParent dotdot)
      · omega
    · intro m isDir dir i dir' i' late late' one two
      rcases (names dir i m).mp one with oldOne | ⟨rfl, rfl, rfl⟩
      · have member := ok.law.allocated _ _ _ oldOne
        have wasDir : (tree.inode m).isDir = true := linked.isDir member ▸ isDir
        rcases (names dir' i' m).mp two with oldTwo | ⟨_, _, rfl⟩
        · exact ok.dirs.once m wasDir dir i dir' i' late late' oldOne oldTwo
        · exact absurd oldOne (first wasDir dir i)
      · have wasDir : (tree.inode m).isDir = true := linked.isDir linked.member ▸ isDir
        rcases (names dir' i' m).mp two with oldTwo | ⟨rfl, rfl, _⟩
        · exact absurd oldTwo (first wasDir dir' i')
        · exact ⟨rfl, rfl⟩

/-- A file loses one of its names. -/
theorem Tree.Ok.unlink (ok : tree.Ok) {up n : Ino} {slot : Nat}
    (linked : tree'.Linked tree up slot n) (file : (tree.inode n).isDir = false) :
    tree'.Ok := by
  have imap := linked.imap
  have names := linked.names
  have isDir : ∀ m ∈ tree'.imap, (tree'.inode m).isDir = (tree.inode m).isDir :=
    fun m member => (linked.isDir member).symm
  have older : ∀ {dir i m}, tree'.Names dir i m → tree.Names dir i m :=
    fun named => (names _ _ _).mpr (.inl named)
  constructor
  · constructor
    · intro m member
      have counts := ok.law.counts m (imap ▸ member)
      by_cases here : m = n
      · subst here
        rw [linked.links, Tree.linkCount_succ (linked.not_names m) linked.names_self] at counts
        omega
      · rw [Tree.linkCount_congr (linked.names_of_ne here)] at counts
        rw [← counts]
        by_cases atUp : m = up
        · rw [atUp, linked.placeLinks]
        · rw [linked.others m member atUp here]
    · intro dir i m named
      rw [← imap]
      exact ok.law.allocated dir i m (older named)
  · constructor
    · intro m member
      exact ok.dirs.numbered m (imap ▸ member)
    · intro dir member nowDir
      have wasDir : (tree.inode dir).isDir = true := isDir dir member ▸ nowDir
      have shape := ok.dirs.shape dir (imap ▸ member) wasDir
      by_cases atUp : dir = up
      · subst atUp
        exact linked.entry.symm.shape linked.late shape
      · by_cases atN : dir = n
        · subst atN
          rw [file] at wasDir
          cases wasDir
        · rw [← linked.others dir member atUp atN]
          exact shape
    · intro dir dotdot named
      rcases ok.dirs.parent dir dotdot (older named) with self | ⟨i, late, entry⟩
      · exact .inl self
      · rcases (names dotdot i dir).mp entry with old | ⟨_, _, rfl⟩
        · exact .inr ⟨i, late, old⟩
        · have dirEntry := Inode.isDir_of_target named.2.2
          rw [isDir dir named.1, file] at dirEntry
          cases dirEntry
    · intro dir i m dotdot late entry up'
      exact ok.dirs.child dir i m dotdot late (older entry) (older up')
    · intro m nowDir dir i dir' i' late late' one two
      have member : m ∈ tree'.imap := imap ▸ ok.law.allocated _ _ _ (older one)
      exact ok.dirs.once m (isDir m member ▸ nowDir) dir i dir' i' late late'
        (older one) (older two)

/-! ## A directory appears or disappears -/

/-- `tree'` is `tree` with a new directory `n` that has the entries `.` and `..`, and
with the live entry `slot` of `up` for it. -/
structure Tree.DirAdded (tree tree' : Tree) (up : Ino) (slot : Nat) (n : Ino) : Prop where
  imap : tree'.imap = insert n tree.imap
  fresh : n ∉ tree.imap
  place : up ∈ tree.imap
  sameDev : up.dev = n.dev
  late : 2 ≤ slot
  free : (tree.inode up).target slot = none
  entry : (tree.inode up).SlotChanged (tree'.inode up) slot
  live : (tree'.inode up).target slot = some n.num
  placeLinks : (tree'.inode up).nlinks.toNat = (tree.inode up).nlinks.toNat + 1
  own : ∀ i, (tree'.inode n).target i =
    if i = 0 then some n.num else if i = 1 then some up.num else none
  others : ∀ m ∈ tree.imap, m ≠ up → tree'.inode m = tree.inode m

theorem Tree.DirAdded.distinct {up n : Ino} {slot : Nat}
    (added : tree.DirAdded tree' up slot n) : up ≠ n := by
  rintro rfl
  exact added.fresh added.place

theorem Tree.DirAdded.target {up n : Ino} {slot : Nat}
    (added : tree.DirAdded tree' up slot n) {dir : Ino} (member : dir ∈ tree.imap) (i : Nat) :
    (tree'.inode dir).target i =
      if dir = up ∧ i = slot then some n.num else (tree.inode dir).target i := by
  by_cases atUp : dir = up
  · subst atUp
    by_cases atSlot : i = slot
    · rw [if_pos ⟨rfl, atSlot⟩, atSlot, added.live]
    · rw [if_neg (by simp [atSlot]), added.entry.target i atSlot]
  · rw [if_neg (by simp [atUp]), added.others dir member atUp]

theorem Ino.eq_of_dev_num {n m : Ino} (dev : n.dev = m.dev) (num : n.num = m.num) :
    n = m := by
  cases n
  cases m
  cases dev
  cases num
  rfl

theorem Tree.DirAdded.names {up n : Ino} {slot : Nat}
    (added : tree.DirAdded tree' up slot n) (dir : Ino) (i : Nat) (m : Ino) :
    tree'.Names dir i m ↔ tree.Names dir i m ∨ (dir = up ∧ i = slot ∧ m = n) ∨
      (dir = n ∧ i = 0 ∧ m = n) ∨ (dir = n ∧ i = 1 ∧ m = up) := by
  constructor
  · rintro ⟨member, sameDev, live⟩
    rw [added.imap, Finset.mem_insert] at member
    by_cases atN : dir = n
    · subst atN
      rw [added.own] at live
      split at live
      next dot =>
        exact .inr (.inr (.inl ⟨rfl, dot,
          Ino.eq_of_dev_num sameDev.symm (Option.some.inj live).symm⟩))
      next =>
        split at live
        next dotdot =>
          exact .inr (.inr (.inr ⟨rfl, dotdot, Ino.eq_of_dev_num
            (sameDev.symm.trans added.sameDev.symm) (Option.some.inj live).symm⟩))
        next => cases live
    · have old := member.resolve_left atN
      rw [added.target old] at live
      split at live
      next here =>
        exact .inr (.inl ⟨here.1, here.2, Ino.eq_of_dev_num
          (by rw [← sameDev, here.1, added.sameDev]) (Option.some.inj live).symm⟩)
      next => exact .inl ⟨old, sameDev, live⟩
  · rintro (⟨member, sameDev, live⟩ | ⟨rfl, rfl, rfl⟩ | ⟨rfl, rfl, rfl⟩ | ⟨rfl, rfl, rfl⟩)
    · refine ⟨added.imap ▸ Finset.mem_insert_of_mem member, sameDev, ?_⟩
      rw [added.target member, if_neg, live]
      rintro ⟨rfl, rfl⟩
      rw [added.free] at live
      cases live
    · exact ⟨added.imap ▸ Finset.mem_insert_of_mem added.place, added.sameDev, added.live⟩
    · exact ⟨added.imap ▸ Finset.mem_insert_self _ _, rfl, by rw [added.own, if_pos rfl]⟩
    · exact ⟨added.imap ▸ Finset.mem_insert_self _ _, added.sameDev.symm,
        by rw [added.own]; rfl⟩

theorem Tree.DirAdded.not_names {up n : Ino} {slot : Nat}
    (added : tree.DirAdded tree' up slot n) (i : Nat) (m : Ino) : ¬tree.Names n i m :=
  fun named => added.fresh named.1

/-- `..` of the new directory is one more link of the directory that it is made in. -/
theorem Tree.DirAdded.linkCount_place {up n : Ino} {slot : Nat}
    (added : tree.DirAdded tree' up slot n) :
    tree'.linkCount up = tree.linkCount up + 1 := by
  refine Tree.linkCount_succ (added.not_names 1 up) fun dir i => ?_
  simp [added.names, added.distinct]

theorem Tree.DirAdded.linkCount_other {up n m : Ino} {slot : Nat}
    (added : tree.DirAdded tree' up slot n) (notUp : m ≠ up) (notN : m ≠ n) :
    tree'.linkCount m = tree.linkCount m := by
  refine Tree.linkCount_congr fun dir i => ?_
  simp [added.names, notUp, notN]

/-- The new directory is named by its entry and by its own `.`. -/
theorem Tree.DirAdded.linkCount_new {up n : Ino} {slot : Nat}
    (added : tree.DirAdded tree' up slot n)
    (unnamed : ∀ dir i, ¬tree.Names dir i n) : tree'.linkCount n = 2 := by
  have namers : tree'.namers n = {(up, slot), (n, 0)} := by
    ext ⟨dir, i⟩
    simp [added.names, unnamed, added.distinct.symm]
  rw [Tree.linkCount, namers, Finset.card_pair]
  simp [added.distinct]

/-- The link counts of the inodes that are in both trees agree in both or in
neither. -/
theorem Tree.DirAdded.counts_iff {up n m : Ino} {slot : Nat}
    (added : tree.DirAdded tree' up slot n) (member : m ∈ tree.imap) :
    (tree'.inode m).nlinks.toNat = tree'.linkCount m ↔
      (tree.inode m).nlinks.toNat = tree.linkCount m := by
  have notN : m ≠ n := by
    rintro rfl
    exact added.fresh member
  by_cases atUp : m = up
  · subst atUp
    rw [added.linkCount_place, added.placeLinks, Nat.add_right_cancel_iff]
  · rw [added.linkCount_other atUp notN, added.others m member atUp]

theorem Tree.DirAdded.isDir {up n m : Ino} {slot : Nat}
    (added : tree.DirAdded tree' up slot n) (member : m ∈ tree.imap) :
    (tree'.inode m).isDir = (tree.inode m).isDir := by
  by_cases atUp : m = up
  · subst atUp
    rw [added.entry.isDir, added.entry.isDir']
  · rw [added.others m member atUp]

theorem Tree.Ok.mkdir (ok : tree.Ok) {up n : Ino} {slot : Nat}
    (added : tree.DirAdded tree' up slot n) (numbered : n.num ≠ 0)
    (links : (tree'.inode n).nlinks = 2) (proper : (tree'.inode n).Proper n.num) :
    tree'.Ok := by
  have names := added.names
  have unnamed := ok.not_names_fresh added.fresh
  have late := added.late
  constructor
  · constructor
    · intro m member
      rcases Finset.mem_insert.mp (added.imap ▸ member) with rfl | old
      · rw [added.linkCount_new unnamed, links]
        rfl
      · exact (added.counts_iff old).mpr (ok.law.counts m old)
    · intro dir i m named
      rw [added.imap]
      rcases (names dir i m).mp named with old | ⟨_, _, rfl⟩ | ⟨_, _, rfl⟩ | ⟨_, _, rfl⟩
      · exact Finset.mem_insert_of_mem (ok.law.allocated dir i m old)
      · exact Finset.mem_insert_self _ _
      · exact Finset.mem_insert_self _ _
      · exact Finset.mem_insert_of_mem added.place
  · constructor
    · intro m member
      rcases Finset.mem_insert.mp (added.imap ▸ member) with rfl | old
      · exact numbered
      · exact ok.dirs.numbered m old
    · intro dir member nowDir
      rcases Finset.mem_insert.mp (added.imap ▸ member) with rfl | old
      · exact .inr proper
      · have shape := ok.dirs.shape dir old (added.isDir old ▸ nowDir)
        by_cases atUp : dir = up
        · subst atUp
          exact added.entry.shape late shape
        · rw [added.others dir old atUp]
          exact shape
    · intro dir dotdot named
      rcases (names dir 1 dotdot).mp named with
        old | ⟨_, impossible, _⟩ | ⟨_, impossible, _⟩ | ⟨rfl, _, rfl⟩
      · rcases ok.dirs.parent dir dotdot old with self | ⟨i, lateI, entry⟩
        · exact .inl self
        · exact .inr ⟨i, lateI, (names dotdot i dir).mpr (.inl entry)⟩
      · omega
      · omega
      · exact .inr ⟨slot, late, (names _ _ _).mpr (.inr (.inl ⟨rfl, rfl, rfl⟩))⟩
    · intro dir i m dotdot lateI entry up'
      rcases (names dir i m).mp entry with old | ⟨rfl, _, rfl⟩ | ⟨_, first, _⟩ | ⟨_, first, _⟩
      · rcases (names m 1 dotdot).mp up' with oldUp | ⟨_, first, _⟩ | ⟨_, first, _⟩ | ⟨rfl, _, _⟩
        · exact ok.dirs.child dir i m dotdot lateI old oldUp
        · omega
        · omega
        · exact absurd old (unnamed dir i)
      · rcases (names m 1 dotdot).mp up' with oldUp | ⟨_, first, _⟩ | ⟨_, first, _⟩ | ⟨_, _, rfl⟩
        · exact absurd oldUp (added.not_names 1 dotdot)
        · omega
        · omega
        · rfl
      · omega
      · omega
    · intro m nowDir dir i dir' i' lateI lateI' one two
      rcases (names dir i m).mp one with oldOne | ⟨rfl, rfl, rfl⟩ | ⟨_, first, _⟩ | ⟨_, first, _⟩
      · have member := ok.law.allocated _ _ _ oldOne
        rcases (names dir' i' m).mp two with oldTwo | ⟨_, _, rfl⟩ | ⟨_, first, _⟩ | ⟨_, first, _⟩
        · exact ok.dirs.once m (added.isDir member ▸ nowDir) dir i dir' i' lateI lateI'
            oldOne oldTwo
        · exact absurd oldOne (unnamed dir i)
        · omega
        · omega
      · rcases (names dir' i' m).mp two with
          oldTwo | ⟨rfl, rfl, _⟩ | ⟨_, first, _⟩ | ⟨_, first, _⟩
        · exact absurd oldTwo (unnamed dir' i')
        · exact ⟨rfl, rfl⟩
        · omega
        · omega
      · omega
      · omega

/-- An empty directory disappears. -/
theorem Tree.Ok.rmdir (ok : tree.Ok) {up n : Ino} {slot : Nat}
    (added : tree'.DirAdded tree up slot n) : tree'.Ok := by
  have names := added.names
  have late := added.late
  have member : ∀ {m}, m ∈ tree'.imap → m ∈ tree.imap := by
    intro m old
    rw [added.imap]
    exact Finset.mem_insert_of_mem old
  have older : ∀ {dir i m}, tree'.Names dir i m → tree.Names dir i m :=
    fun named => (names _ _ _).mpr (.inl named)
  have nowDir : (tree.inode n).isDir = true :=
    Inode.isDir_of_target ((added.own 0).trans (if_pos rfl))
  have entry : tree.Names up slot n := (names _ _ _).mpr (.inr (.inl ⟨rfl, rfl, rfl⟩))
  -- every other entry for `n` would be a second name, its own, or the `..` of an entry in it
  have unnamed : ∀ dir i, ¬tree'.Names dir i n := by
    intro dir i named
    match i with
    | 0 =>
        have isDir := Inode.isDir_of_target (older named).2.2
        rcases ok.dirs.shape dir (member named.1) isDir with blank | proper
        · have bound := Inode.lt_of_target (older named).2.2
          simp [blank.1] at bound
        · have same := proper.dot.symm.trans (older named).2.2
          have equal := Ino.eq_of_dev_num named.2.1 (Option.some.inj same)
          exact added.fresh (equal ▸ named.1)
    | 1 =>
        rcases ok.dirs.parent dir n (older named) with self | ⟨j, lateJ, inside⟩
        · exact added.fresh (self ▸ named.1)
        · have live := inside.2.2
          rw [added.own, if_neg (by omega), if_neg (by omega)] at live
          cases live
    | i + 2 =>
        have only := ok.dirs.once n nowDir dir (i + 2) up slot (by omega) late
          (older named) entry
        rw [only.1, only.2] at named
        have live := named.2.2
        rw [added.free] at live
        cases live
  constructor
  · constructor
    · intro m old
      exact (added.counts_iff old).mp (ok.law.counts m (member old))
    · intro dir i m named
      have allocated := ok.law.allocated dir i m (older named)
      rw [added.imap] at allocated
      rcases Finset.mem_insert.mp allocated with rfl | old
      · exact absurd named (unnamed dir i)
      · exact old
  · constructor
    · intro m old
      exact ok.dirs.numbered m (member old)
    · intro dir old wasDir
      have shape := ok.dirs.shape dir (member old) (added.isDir old ▸ wasDir)
      by_cases atUp : dir = up
      · subst atUp
        exact added.entry.symm.shape late shape
      · rw [← added.others dir old atUp]
        exact shape
    · intro dir dotdot named
      rcases ok.dirs.parent dir dotdot (older named) with self | ⟨i, lateI, inside⟩
      · exact .inl self
      · rcases (names dotdot i dir).mp inside with
          old | ⟨_, _, rfl⟩ | ⟨_, first, _⟩ | ⟨_, first, _⟩
        · exact .inr ⟨i, lateI, old⟩
        · exact absurd named.1 added.fresh
        · omega
        · omega
    · intro dir i m dotdot lateI inside up'
      exact ok.dirs.child dir i m dotdot lateI (older inside) (older up')
    · intro m wasDir dir i dir' i' lateI lateI' one two
      have allocated := ok.law.allocated _ _ _ (older one)
      rw [added.imap] at allocated
      rcases Finset.mem_insert.mp allocated with rfl | old
      · exact absurd one (unnamed dir i)
      · exact ok.dirs.once m (added.isDir old ▸ wasDir) dir i dir' i' lateI lateI'
          (older one) (older two)

end Linux012.Fs
