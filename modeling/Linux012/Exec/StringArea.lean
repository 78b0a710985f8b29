import Linux012.Exec.Strings
import Linux012.Lib.Overwrite
import Linux012.Lib.StateExcept

/-!
# The argument area

The argument pages make one array of bytes, and `copy_strings` stores into it below what is there.
It ends in one of three ways: the bytes are placed, there is no page for them, or they do not fit
and `page[]` is left.
-/

namespace Linux012.Exec

open Lib (overwrite run_bind_of_ok)

/-- How many pages hold the bytes from `p` on, up to the initial `p`. -/
def pagesFor (p : Nat) : Nat := if p < 131068 then 32 - p / 4096 else 0

theorem pagesFor_anti {p q : Nat} (le : q ≤ p) : pagesFor p ≤ pagesFor q := by
  unfold pagesFor
  split
  · rw [if_pos (by omega)]
    exact Nat.sub_le_sub_left (Nat.div_le_div_right le) _
  · exact Nat.zero_le _

theorem pagesFor_le (p : Nat) : pagesFor p ≤ 32 := by
  unfold pagesFor
  split
  · exact Nat.sub_le _ _
  · exact Nat.zero_le _

namespace Machine

/-- The byte at `q` of the argument area. -/
def areaByte (m : Machine) (q : Nat) : UInt8 :=
  ((m.page (q / 4096)).map fun page => page (q % 4096)).getD 0

/-- The area is in use from `p` on, and it has the pages for that, out of `pages` altogether. -/
structure Area (m : Machine) (pages p : Nat) : Prop where
  low : p ≤ 131068
  present : ∀ i, (m.page i).isSome ↔ p < 131068 ∧ p / 4096 ≤ i ∧ i < 32
  total : m.free + pagesFor p = pages

/-- All but the pages and the segment register is as in `m`. -/
def Rest (m m' : Machine) : Prop := m' = { m with free := m'.free, page := m'.page, fs := m'.fs }

variable {m m' m'' : Machine} {pages p : Nat}

theorem Rest.refl : m.Rest m := rfl

theorem Rest.trans (first : m.Rest m') (second : m'.Rest m'') : m.Rest m'' := by
  unfold Rest at *
  rw [second, first]

/-- The area with the page of the byte below. -/
theorem Area.keep (area : m.Area pages p) (positive : 0 < p)
    (isPage : (m.page ((p - 1) / 4096)).isSome) : m.Area pages (p - 1) := by
  have here := (area.present _).mp isPage
  have low := area.low
  have total := area.total
  have same : p / 4096 = (p - 1) / 4096 := by
    have := Nat.div_le_div_right (c := 4096) (Nat.sub_le p 1)
    have := here.2.1
    omega
  constructor
  · omega
  · intro i
    rw [area.present i]
    omega
  · unfold pagesFor at total ⊢
    split at total <;> split <;> omega

/-- The area with a new page for the byte below. -/
theorem Area.take {free : Nat} (area : m.Area pages p) (positive : 0 < p)
    (noPage : m.page ((p - 1) / 4096) = none) (isFree : m.free = free + 1) :
    { m with
      free
      page := Function.update m.page ((p - 1) / 4096) (some fun _ => 0) }.Area pages
        (p - 1) := by
  have absent := (area.present ((p - 1) / 4096)).not.mp (by rw [noPage]; simp)
  have low := area.low
  have total := area.total
  constructor
  · omega
  · intro i
    by_cases here : i = (p - 1) / 4096
    · subst here
      simp only [Function.update_self, Option.isSome_some, true_iff]
      omega
    · simp only [Function.update_of_ne here, area.present i]
      omega
  · unfold pagesFor at total ⊢
    split at total <;> split <;> simp only <;> omega

theorem areaByte_take {free index : Nat} (noPage : m.page index = none) :
    { m with free, page := Function.update m.page index (some fun _ => 0) }.areaByte =
      m.areaByte := by
  funext q
  by_cases here : q / 4096 = index
  · subst here
    simp [areaByte, noPage]
  · simp [areaByte, Function.update_of_ne here]

/-- A page that is needed and cannot be taken. -/
theorem Area.none_free (area : m.Area pages p) (few : pages < pagesFor (p - 1)) :
    m.free = 0 ∧ m.page ((p - 1) / 4096) = none := by
  have total := area.total
  have low := area.low
  refine ⟨by unfold pagesFor at few total; split at few <;> split at total <;> omega, ?_⟩
  rw [← Option.not_isSome_iff_eq_none, area.present]
  rintro ⟨used, same, inside⟩
  unfold pagesFor at few total
  rw [if_pos used] at total
  rw [if_pos (by omega)] at few
  omega

/-- A page that is needed and can be taken. -/
theorem Area.free_ne_zero (area : m.Area pages p) (noPage : m.page ((p - 1) / 4096) = none)
    (enough : pagesFor (p - 1) ≤ pages) : m.free ≠ 0 := by
  intro isFree
  have total := area.total
  have low := area.low
  have absent := (area.present ((p - 1) / 4096)).not.mp (by rw [noPage]; simp)
  unfold pagesFor at enough total
  split at enough <;> split at total <;> omega

end Machine

open Machine

/-- `bytes` have been placed below `p`. -/
structure Placed (pages p : Nat) (m : Machine) (bytes : List UInt8) (m' : Machine) : Prop where
  le : bytes.length ≤ p
  area : m'.Area pages (p - bytes.length)
  bytes : m'.areaByte = overwrite m.areaByte (p - bytes.length) bytes
  rest : m.Rest m'

theorem Placed.refl {pages p : Nat} {m : Machine} (area : m.Area pages p) :
    Placed pages p m [] m :=
  ⟨Nat.zero_le p, area, Lib.overwrite_nil.symm, .refl⟩

/-- What is placed below what has been placed. -/
theorem Placed.trans {pages p : Nat} {m m' m'' : Machine} {bytes bytes' : List UInt8}
    (first : Placed pages p m bytes' m')
    (second : Placed pages (p - bytes'.length) m' bytes m'') :
    Placed pages p m (bytes ++ bytes') m'' := by
  have le := first.le
  have le' := second.le
  have low : p - bytes'.length - bytes.length = p - (bytes ++ bytes').length := by
    rw [List.length_append]
    omega
  have top : p - bytes'.length = p - (bytes ++ bytes').length + bytes.length := by
    rw [List.length_append]
    omega
  constructor
  · rw [List.length_append]
    omega
  · rw [← low]
    exact second.area
  · rw [second.bytes, first.bytes, low, top]
    exact Lib.overwrite_prepend
  · exact first.rest.trans second.rest

/-- How storing `bytes` below `p` ends, for `pages` pages altogether. -/
inductive Ends {α : Type} (pages p : Nat) (m : Machine) (bytes : List UInt8) (oldFs fs : Fs)
    (placed full : α → Prop) : Except Stop (α × Machine) → Prop
  | placed {value : α} {m' : Machine} (all : Placed pages p m bytes m') (same : m'.fs = fs)
      (result : placed value) : Ends pages p m bytes oldFs fs placed full (.ok (value, m'))
  | full {value : α} {m' : Machine} {q : Nat} (few : pages < pagesFor (p - bytes.length))
      (area : m'.Area pages q) (rest : m.Rest m') (same : m'.fs = oldFs) (result : full value) :
      Ends pages p m bytes oldFs fs placed full (.ok (value, m'))
  | overrun (long : p < bytes.length) (many : 32 ≤ pages) :
      Ends pages p m bytes oldFs fs placed full (.error .overrun)

theorem Ends.weaken {α : Type} {pages p : Nat} {m : Machine} {bytes : List UInt8} {oldFs fs : Fs}
    {placed placed' full full' : α → Prop} {ran : Except Stop (α × Machine)}
    (ended : Ends pages p m bytes oldFs fs placed full ran)
    (more : ∀ value, placed value → placed' value) (more' : ∀ value, full value → full' value) :
    Ends pages p m bytes oldFs fs placed' full' ran := by
  cases ended with
  | placed all same result => exact .placed all same (more _ result)
  | full few area rest same result => exact .full few area rest same (more' _ result)
  | overrun long many => exact .overrun long many

/-- The segment register at the beginning does not matter. -/
theorem Ends.of_fs {α : Type} {pages p : Nat} {m : Machine} {begun : Fs} {bytes : List UInt8}
    {oldFs fs : Fs} {placed full : α → Prop} {ran : Except Stop (α × Machine)}
    (ended : Ends pages p { m with fs := begun } bytes oldFs fs placed full ran) :
    Ends pages p m bytes oldFs fs placed full ran := by
  cases ended with
  | placed all same result =>
      exact .placed ⟨all.le, all.area, all.bytes, all.rest⟩ same result
  | full few area rest same result => exact .full few area rest same result
  | overrun long many => exact .overrun long many

/-- One operation after the other. -/
theorem Ends.bind {α β : Type} {pages p : Nat} {m : Machine} {bytes bytes' : List UInt8}
    {oldFs fs fs' : Fs} {placed full : α → Prop} {placed' full' : β → Prop} {first : ExecM β}
    {next : β → ExecM α} (begins : Ends pages p m bytes' oldFs fs' placed' full' (first.run m))
    (continues : ∀ value m', Placed pages p m bytes' m' → m'.fs = fs' → placed' value →
      Ends pages (p - bytes'.length) m' bytes oldFs fs placed full ((next value).run m'))
    (fails : ∀ value m', m'.fs = oldFs → full' value →
      ∃ result, (next value).run m' = .ok (result, m') ∧ full result) :
    Ends pages p m (bytes ++ bytes') oldFs fs placed full ((first >>= next).run m) := by
  have low : p - bytes'.length - bytes.length = p - (bytes ++ bytes').length := by
    rw [List.length_append]
    omega
  rw [StateT.run_bind]
  generalize first.run m = ran at begins
  cases begins with
  | placed all same result =>
      rename_i value m'
      have ended := continues value m' all same result
      change Ends _ _ _ _ _ _ _ _ ((next value).run m')
      generalize (next value).run m' = ran at ended
      cases ended with
      | placed all' same' result' => exact .placed (all.trans all') same' result'
      | full few area rest same' result' =>
          rw [low] at few
          exact .full few area (all.rest.trans rest) same' result'
      | overrun long many =>
          refine .overrun ?_ many
          have le := all.le
          rw [List.length_append]
          omega
  | full few area rest same result =>
      rename_i value m' q
      obtain ⟨result', returned, isFull⟩ := fails value m' same result
      change Ends _ _ _ _ _ _ _ _ ((next value).run m')
      rw [returned]
      refine .full (lt_of_lt_of_le few (pagesFor_anti ?_)) area rest same isFull
      rw [← low]
      omega
  | overrun long many =>
      refine .overrun ?_ many
      rw [List.length_append]
      omega

/-! ## One byte -/

section Byte

/-- What `fs` selects while a string is read. -/
def stringFs (fromKmem : FromKmem) (oldFs : Fs) : Fs :=
  if fromKmem = .both then .kernel else oldFs

/-- The offset and the page are those of the byte at `p`, or the page has to be looked up. -/
def Aligned (p : Nat) (offset : Int) (pag : Nat) : Prop :=
  offset = 0 ∨ p < 131068 ∧ offset = (p % 4096 : Nat) ∧ pag = p / 4096

variable {memory : Fs → List UInt8} {fromKmem : FromKmem} {oldFs : Fs} {m : Machine}
variable {pages : Nat} {p tmp : UInt32} {offset : Int} {pag : Nat} {byte : UInt8}

theorem toNat_sub_one (positive : 0 < p.toNat) : (p - 1).toNat = p.toNat - 1 := by
  have lt := p.toNat_lt
  rw [UInt32.toNat_sub]
  simp only [UInt32.reduceToNat]
  omega

theorem run_setFs (fs : Fs) : (setFs fs).run m = .ok ((), { m with fs }) := rfl

/-- The byte is in the same page as the one before. -/
theorem run_locate_same (below : 0 < offset) :
    (locate fromKmem oldFs p offset pag).run m = .ok (some (offset - 1, pag), m) := by
  unfold locate
  rw [if_pos (by omega)]
  rfl

/-- While a page is looked up, `fs` is that of the caller. -/
theorem run_locate (isFs : m.fs = stringFs fromKmem oldFs) (inside : p.toNat / 4096 < 32)
    {found : Bool} {m' : Machine} (kept : m'.fs = oldFs)
    (ran : (findPage (p.toNat / 4096)).run { m with fs := oldFs } = .ok (found, m')) :
    (locate fromKmem oldFs p 0 pag).run m =
      .ok (if found then some ((p.toNat % 4096 : Nat), p.toNat / 4096) else none,
        { m' with fs := if found then m.fs else oldFs }) := by
  have notBehind : ¬32 ≤ p.toNat / 4096 := Nat.not_le.mpr inside
  unfold locate
  simp only [UInt32.toNat_div, UInt32.toNat_mod, UInt32.reduceToNat, if_neg notBehind]
  rw [if_neg (by omega)]
  by_cases both : fromKmem = .both
  · simp only [if_pos both]
    rw [run_bind_of_ok (run_setFs oldFs), run_bind_of_ok ran, isFs, stringFs, if_pos both]
    cases m'
    cases found
    · cases kept
      rfl
    · rfl
  · rw [stringFs, if_neg both] at isFs
    have same : { m with fs := oldFs } = m := by rw [← isFs]
    rw [same] at ran
    simp only [if_neg both]
    rw [run_bind_of_ok ran, isFs]
    cases m'
    cases kept
    cases found <;> rfl

/-- The page is there. -/
theorem run_findPage_isSome {index : Nat} (isPage : (m.page index).isSome) :
    (findPage index).run m = .ok (true, m) := by
  obtain ⟨page, isPage⟩ := Option.isSome_iff_exists.mp isPage
  simp [findPage, isPage]
  rfl

/-- The page is taken. -/
theorem run_findPage_take {index free : Nat} (noPage : m.page index = none)
    (isFree : m.free = free + 1) :
    (findPage index).run m = .ok (true, { m with
      free, page := Function.update m.page index (some fun _ => 0) }) := by
  simp [findPage, noPage, isFree]
  rfl

/-- There is no page left. -/
theorem run_findPage_full {index : Nat} (noPage : m.page index = none) (isFree : m.free = 0) :
    (findPage index).run m = .ok (false, m) := by
  simp [findPage, noPage, isFree]
  rfl

/-- The byte below has a page, as long as there are enough of them. -/
theorem run_locate_ok (area : m.Area pages p.toNat) (aligned : Aligned p.toNat offset pag)
    (isFs : m.fs = stringFs fromKmem oldFs) (positive : 0 < p.toNat)
    (enough : pagesFor (p.toNat - 1) ≤ pages) :
    ∃ m', (locate fromKmem oldFs (p - 1) offset pag).run m =
        .ok (some (((p.toNat - 1) % 4096 : Nat), (p.toNat - 1) / 4096), m') ∧
      m'.Area pages (p.toNat - 1) ∧ m'.areaByte = m.areaByte ∧ m.Rest m' ∧ m'.fs = m.fs := by
  have low := area.low
  have inside : (p - 1).toNat / 4096 < 32 := by
    rw [toNat_sub_one positive]
    omega
  by_cases below : 0 < offset
  · obtain ⟨used, isOffset, isPag⟩ := aligned.resolve_left (by omega)
    have page : pag = (p.toNat - 1) / 4096 := by omega
    have isPage : (m.page ((p.toNat - 1) / 4096)).isSome := by
      rw [← page, area.present]
      omega
    refine ⟨m, ?_, area.keep positive isPage, rfl, .refl, rfl⟩
    rw [run_locate_same below, page]
    congr 3
    congr 1
    omega
  · have isOffset : offset = 0 := by
      rcases aligned with isOffset | ⟨_, isOffset, _⟩ <;> omega
    subst isOffset
    have slot : (p - 1).toNat / 4096 = (p.toNat - 1) / 4096 := by rw [toNat_sub_one positive]
    cases isPage : m.page ((p.toNat - 1) / 4096) with
    | some page =>
        have present : (m.page ((p.toNat - 1) / 4096)).isSome := by rw [isPage]; rfl
        have found := run_findPage_isSome (m := { m with fs := oldFs }) present
        rw [← slot] at found
        refine ⟨m, ?_, area.keep positive present, rfl, .refl, rfl⟩
        rw [run_locate isFs inside rfl found, toNat_sub_one positive]
        rfl
    | none =>
        obtain ⟨free, isFree⟩ := Nat.exists_eq_succ_of_ne_zero (area.free_ne_zero isPage enough)
        have found := run_findPage_take (m := { m with fs := oldFs }) isPage isFree
        rw [← slot] at found
        refine ⟨{ m with
          free
          page := Function.update m.page ((p.toNat - 1) / 4096) (some fun _ => 0) }, ?_,
          area.take positive isPage isFree, areaByte_take isPage, rfl, rfl⟩
        rw [run_locate isFs inside rfl found, toNat_sub_one positive]
        rfl

/-- The byte below needs a page, and there is none. -/
theorem run_locate_none (area : m.Area pages p.toNat) (aligned : Aligned p.toNat offset pag)
    (isFs : m.fs = stringFs fromKmem oldFs) (positive : 0 < p.toNat)
    (few : pages < pagesFor (p.toNat - 1)) :
    (locate fromKmem oldFs (p - 1) offset pag).run m = .ok (none, { m with fs := oldFs }) := by
  have low := area.low
  obtain ⟨isFree, isPage⟩ := area.none_free few
  have inside : (p - 1).toNat / 4096 < 32 := by
    rw [toNat_sub_one positive]
    omega
  have isOffset : offset = 0 := by
    rcases aligned with isOffset | ⟨used, isOffset, isPag⟩
    · exact isOffset
    · have total := area.total
      unfold pagesFor at few total
      rw [if_pos used] at total
      rw [if_pos (by omega)] at few
      omega
  subst isOffset
  have found := run_findPage_full (m := { m with fs := oldFs }) isPage isFree
  rw [← toNat_sub_one positive] at found
  rw [run_locate isFs inside rfl found]
  rfl

/-- There is no byte below. -/
theorem run_locate_overrun (zero : p.toNat = 0) (aligned : Aligned p.toNat offset pag) :
    (locate fromKmem oldFs (p - 1) offset pag).run m = .error .overrun := by
  have isZero : p = 0 := UInt32.toNat.inj zero
  have isOffset : offset = 0 := by
    rcases aligned with isOffset | ⟨_, isOffset, _⟩
    · exact isOffset
    · rw [zero] at isOffset
      exact isOffset
  subst isZero isOffset
  unfold locate
  rw [if_neg (by omega)]
  by_cases both : fromKmem = .both
  · simp only [if_pos both]
    rw [run_bind_of_ok (run_setFs oldFs)]
    rfl
  · simp only [if_neg both]
    rfl

end Byte

end Linux012.Exec
