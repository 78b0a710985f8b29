import Linux012.Lib.LinkedList

/-!
# Several chains in one set of pointers

Singly linked chains that share the pointers of their cells, one chain for each place;
each cell is in one chain at most and once.  Each rule says which chains the pointers
represent behind the assignments of an operation.
-/

namespace Linux012.Lib

universe u v

variable {α : Type u} {ι : Type v}

/-- The cells of each place are linked from its head to a null pointer. -/
structure Chains (next : α → Option α) (head : ι → Option α) (cells : ι → List α) : Prop where
  leads : ∀ place, Leads next (head place) (cells place)
  nodup : ∀ place, (cells place).Nodup
  apart : ∀ place other a, a ∈ cells place → a ∈ cells other → place = other

variable {next next' : α → Option α} {head head' : ι → Option α} {cells : ι → List α}
variable {place : ι} {a b x : α} {before behind list : List α}

/-! ## One chain -/

theorem Leads.head_eq (leads : Leads next (some a) list) : ∃ rest, list = a :: rest := by
  cases list with
  | nil => cases leads
  | cons b rest =>
      cases leads.1
      exact ⟨rest, rfl⟩

theorem Leads.eq_nil (leads : Leads next none list) : list = [] := by
  cases list with
  | nil => rfl
  | cons b rest => cases leads.1

/-- The pointer of a cell in the middle. -/
theorem Leads.next_eq {first : Option α} (leads : Leads next first (before ++ a :: b :: behind)) :
    next a = some b := by
  induction before generalizing first with
  | nil => exact leads.2.1
  | cons c before ih => exact ih leads.2

/-- Taking out the cell behind `a`. -/
theorem Leads.remove [DecidableEq α] {first : Option α}
    (leads : Leads next first (before ++ a :: b :: behind))
    (nodup : (before ++ a :: b :: behind).Nodup) :
    Leads (Function.update next a (next b)) first (before ++ a :: behind) := by
  induction before generalizing first with
  | nil =>
      obtain ⟨isFirst, -, leads⟩ := leads
      have distinct := List.nodup_cons.mp nodup
      refine ⟨isFirst, ?_⟩
      rw [Function.update_self]
      apply leads.congr
      intro c member
      have differs : c ≠ a := fun same =>
        distinct.1 (same ▸ List.mem_cons_of_mem b member)
      exact Function.update_of_ne differs ..
  | cons c before ih =>
      have distinct := List.nodup_cons.mp nodup
      have differs : c ≠ a := fun same =>
        distinct.1 (same ▸ List.mem_append_right before List.mem_cons_self)
      refine ⟨leads.1, ?_⟩
      rw [Function.update_of_ne differs]
      exact ih leads.2 distinct.2

/-! ## A run of equally spaced cells -/

/-- Each of `count` cells from `cell` on is linked to the one behind it, and the cell behind
them to `last`. -/
def linkRun (stride : Nat) (last : Option Nat) :
    (count cell : Nat) → (Nat → Option Nat) → Nat → Option Nat
  | 0, cell, next => Function.update next cell last
  | count + 1, cell, next =>
      linkRun stride last count (cell + stride) (Function.update next cell (some (cell + stride)))

theorem linkRun_of_notMem {stride : Nat} {last : Option Nat} {count cell c : Nat}
    {next : Nat → Option Nat} (outside : c ∉ List.range' cell (count + 1) stride) :
    linkRun stride last count cell next c = next c := by
  induction count generalizing cell next with
  | zero =>
      have differs : c ≠ cell := fun same => outside (same ▸ List.mem_cons_self)
      exact Function.update_of_ne differs ..
  | succ count ih =>
      rw [List.range'_succ, List.mem_cons, not_or] at outside
      rw [linkRun, ih outside.2, Function.update_of_ne outside.1]

theorem leads_linkRun {stride : Nat} {last : Option Nat} {count cell : Nat}
    {next : Nat → Option Nat} {tail : List Nat} (forward : 0 < stride)
    (leads : Leads next last tail)
    (apart : ∀ c ∈ tail, c ∉ List.range' cell (count + 1) stride) :
    Leads (linkRun stride last count cell next) (some cell)
      (List.range' cell (count + 1) stride ++ tail) := by
  induction count generalizing cell next with
  | zero =>
      refine ⟨rfl, ?_⟩
      rw [linkRun, Function.update_self]
      apply leads.congr
      intro c member
      have differs : c ≠ cell := fun same => apart c member (same ▸ List.mem_cons_self)
      exact Function.update_of_ne differs ..
  | succ count ih =>
      have before : cell ∉ List.range' (cell + stride) (count + 1) stride := by
        intro member
        obtain ⟨index, -, isCell⟩ := List.mem_range'.mp member
        omega
      rw [List.range'_succ, List.cons_append]
      refine ⟨rfl, ?_⟩
      rw [linkRun, linkRun_of_notMem before, Function.update_self]
      apply ih
      · apply leads.congr
        intro c member
        have differs : c ≠ cell := fun same => apart c member (same ▸ List.mem_cons_self)
        exact Function.update_of_ne differs ..
      · intro c member inRun
        rw [List.range'_succ] at apart
        exact apart c member (List.mem_cons_of_mem _ inRun)

/-! ## Several chains -/

namespace Chains

theorem eq_cons (chains : Chains next head cells) (isHead : head place = some a) :
    ∃ rest, cells place = a :: rest := by
  have leads := chains.leads place
  rw [isHead] at leads
  exact leads.head_eq

theorem eq_nil (chains : Chains next head cells) (noHead : head place = none) :
    cells place = [] := by
  have leads := chains.leads place
  rw [noHead] at leads
  exact leads.eq_nil

theorem head_mem (chains : Chains next head cells) (isHead : head place = some a) :
    a ∈ cells place := by
  obtain ⟨rest, isCons⟩ := chains.eq_cons isHead
  rw [isCons]
  exact List.mem_cons_self

/-- Pointers of other cells do not matter. -/
theorem congr (chains : Chains next head cells)
    (same : ∀ place, ∀ a ∈ cells place, next' a = next a) : Chains next' head cells where
  leads place := (chains.leads place).congr (same place)
  nodup := chains.nodup
  apart := chains.apart

variable [DecidableEq ι]

theorem mem_update_iff : (∃ other, x ∈ Function.update cells place list other) ↔
    x ∈ list ∨ ∃ other, other ≠ place ∧ x ∈ cells other := by
  constructor
  · rintro ⟨other, member⟩
    by_cases same : other = place
    · rw [same, Function.update_self] at member
      exact .inl member
    · rw [Function.update_of_ne same] at member
      exact .inr ⟨other, same, member⟩
  · rintro (member | ⟨other, differs, member⟩)
    · exact ⟨place, by rwa [Function.update_self]⟩
    · exact ⟨other, by rwa [Function.update_of_ne differs]⟩

/-- The chain of one place becomes `list`, of its own cells and of cells in no chain. -/
theorem change (chains : Chains next head cells) (leads : Leads next' (head' place) list)
    (nodup : list.Nodup) (own : ∀ a ∈ list, a ∈ cells place ∨ ∀ other, a ∉ cells other)
    (otherHead : ∀ other, other ≠ place → head' other = head other)
    (otherNext : ∀ other, other ≠ place → ∀ a ∈ cells other, next' a = next a) :
    Chains next' head' (Function.update cells place list) where
  leads other := by
    by_cases same : other = place
    · rw [same, Function.update_self]
      exact leads
    · rw [Function.update_of_ne same, otherHead other same]
      exact (chains.leads other).congr (otherNext other same)
  nodup other := by
    by_cases same : other = place
    · rw [same, Function.update_self]
      exact nodup
    · rw [Function.update_of_ne same]
      exact chains.nodup other
  apart first second a inFirst inSecond := by
    have outside (other : ι) (differs : other ≠ place) (member : a ∈ cells other)
        (inList : a ∈ list) : False := by
      rcases own a inList with inPlace | nowhere
      · exact differs (chains.apart other place a member inPlace)
      · exact nowhere other member
    by_cases firstSame : first = place
    · by_cases secondSame : second = place
      · rw [firstSame, secondSame]
      · rw [firstSame, Function.update_self] at inFirst
        rw [Function.update_of_ne secondSame] at inSecond
        exact (outside second secondSame inSecond inFirst).elim
    · rw [Function.update_of_ne firstSame] at inFirst
      by_cases secondSame : second = place
      · rw [secondSame, Function.update_self] at inSecond
        exact (outside first firstSame inFirst inSecond).elim
      · rw [Function.update_of_ne secondSame] at inSecond
        exact chains.apart first second a inFirst inSecond

/-- The cells of all chains when one becomes `list`. -/
theorem mem_update_of_iff {isMember : Prop} (own : x ∈ list ↔ isMember ∧ x ∈ cells place)
    (others : ∀ other, other ≠ place → x ∈ cells other → isMember) :
    (∃ other, x ∈ Function.update cells place list other) ↔
      isMember ∧ ∃ other, x ∈ cells other := by
  rw [mem_update_iff, own]
  constructor
  · rintro (⟨holds, member⟩ | ⟨other, differs, member⟩)
    · exact ⟨holds, place, member⟩
    · exact ⟨others other differs member, other, member⟩
  · rintro ⟨holds, other, member⟩
    by_cases same : other = place
    · exact .inl ⟨holds, same ▸ member⟩
    · exact .inr ⟨other, same, member⟩

/-- One chain gets a cell. -/
theorem mem_update_add_iff (own : x ∈ list ↔ x = a ∨ x ∈ cells place) :
    (∃ other, x ∈ Function.update cells place list other) ↔
      x = a ∨ ∃ other, x ∈ cells other := by
  rw [mem_update_iff, own, or_assoc]
  apply or_congr_right
  constructor
  · rintro (member | ⟨other, -, member⟩)
    · exact ⟨place, member⟩
    · exact ⟨other, member⟩
  · rintro ⟨other, member⟩
    by_cases same : other = place
    · exact .inl (same ▸ member)
    · exact .inr ⟨other, same, member⟩

/-- `head = head->next`. -/
theorem pop (chains : Chains next head cells) (isHead : head place = some a) :
    Chains next (Function.update head place (next a))
      (Function.update cells place (cells place).tail) := by
  obtain ⟨rest, isCons⟩ := chains.eq_cons isHead
  have leads := chains.leads place
  have nodup := chains.nodup place
  rw [isCons] at leads nodup
  apply chains.change
  · rw [Function.update_self, isCons]
    exact leads.2
  · rw [isCons]
    exact (List.nodup_cons.mp nodup).2
  · intro b member
    exact .inl (List.mem_of_mem_tail member)
  · intro other differs
    exact Function.update_of_ne differs ..
  · exact fun _ _ _ _ => rfl

theorem mem_pop_iff (chains : Chains next head cells) (isHead : head place = some a) :
    (∃ other, x ∈ Function.update cells place (cells place).tail other) ↔
      x ≠ a ∧ ∃ other, x ∈ cells other := by
  obtain ⟨rest, isCons⟩ := chains.eq_cons isHead
  have distinct := chains.nodup place
  rw [isCons, List.nodup_cons] at distinct
  apply mem_update_of_iff
  · rw [isCons, List.tail_cons, List.mem_cons]
    constructor
    · intro member
      exact ⟨fun same => distinct.1 (same ▸ member), .inr member⟩
    · exact fun ⟨differs, either⟩ => either.resolve_left differs
  · rintro other differs member rfl
    exact differs (chains.apart other place x member (chains.head_mem isHead))

variable [DecidableEq α]

/-- `a->next = head; head = a`. -/
theorem push (chains : Chains next head cells) (absent : ∀ place, a ∉ cells place) :
    Chains (Function.update next a (head place)) (Function.update head place (some a))
      (Function.update cells place (a :: cells place)) := by
  have otherNext (other : ι) (b : α) (member : b ∈ cells other) :
      Function.update next a (head place) b = next b := by
    have differs : b ≠ a := fun same => absent other (same ▸ member)
    exact Function.update_of_ne differs ..
  apply chains.change
  · refine ⟨Function.update_self .., ?_⟩
    rw [Function.update_self]
    exact (chains.leads place).congr (otherNext place)
  · exact List.nodup_cons.mpr ⟨absent place, chains.nodup place⟩
  · intro b member
    rcases List.mem_cons.mp member with rfl | member
    · exact .inr absent
    · exact .inl member
  · intro other differs
    exact Function.update_of_ne differs ..
  · exact fun other _ => otherNext other

/-- `x->next = a->next; a->next = x`. -/
theorem insert (chains : Chains next head cells) (split : cells place = before ++ a :: behind)
    (absent : ∀ place, x ∉ cells place) :
    Chains (Function.update (Function.update next x (next a)) a (some x)) head
      (Function.update cells place (before ++ a :: x :: behind)) := by
  have leads := chains.leads place
  have nodup := chains.nodup place
  have absentHere := absent place
  rw [split] at leads nodup absentHere
  have isPerm : (before ++ a :: x :: behind).Perm (x :: (before ++ a :: behind)) :=
    (List.Perm.append_left before (.swap x a behind)).trans List.perm_middle
  apply chains.change
  · exact leads.insert nodup absentHere
  · rw [isPerm.nodup_iff]
    exact List.nodup_cons.mpr ⟨absentHere, nodup⟩
  · intro b member
    rw [isPerm.mem_iff, List.mem_cons] at member
    rcases member with rfl | member
    · exact .inr absent
    · rw [split]
      exact .inl member
  · exact fun _ _ => rfl
  · intro other differs b member
    have notA : b ≠ a := by
      rintro rfl
      apply differs
      apply chains.apart other place b member
      rw [split]
      exact List.mem_append_right before List.mem_cons_self
    have notX : b ≠ x := fun same => absent other (same ▸ member)
    rw [Function.update_of_ne notA, Function.update_of_ne notX]

/-- `a->next = b->next`, with `b` behind `a`. -/
theorem remove (chains : Chains next head cells)
    (split : cells place = before ++ a :: b :: behind) :
    Chains (Function.update next a (next b)) head
      (Function.update cells place (before ++ a :: behind)) := by
  have leads := chains.leads place
  have nodup := chains.nodup place
  rw [split] at leads nodup
  have sub : (before ++ a :: behind).Sublist (before ++ a :: b :: behind) :=
    (List.Sublist.refl before).append ((List.sublist_cons_self b behind).cons_cons a)
  apply chains.change
  · exact leads.remove nodup
  · exact nodup.sublist sub
  · intro c member
    rw [split]
    exact .inl (sub.subset member)
  · exact fun _ _ => rfl
  · intro other differs c member
    have notA : c ≠ a := by
      rintro rfl
      apply differs
      apply chains.apart other place c member
      rw [split]
      exact List.mem_append_right before List.mem_cons_self
    exact Function.update_of_ne notA ..

end Chains

end Linux012.Lib
