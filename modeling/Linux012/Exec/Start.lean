import Linux012.Exec.StringArea
import Linux012.Exec.Tables

/-!
# The start of the new image

`change_ldt` maps the argument pages below the library, and `create_tables` finds the strings in
them.  When there is no page for the page table, the task ends in `oom` with the first word of the
tables.
-/

namespace Linux012.Exec

open Lib (longBytes overwrite Holds run_bind_of_ok run_bind_of_error)
open Machine

namespace Machine

/-- The pages that are free, with that of the page table. -/
def supply (m : Machine) : Nat := m.free + if m.table 14 then 1 else 0

theorem ready_iff {m : Machine} {low : Nat} :
    m.Ready low ↔ (m.missing low).card + 1 ≤ m.supply := by
  unfold Ready supply
  split <;> omega

end Machine

section Mapping

variable {w : World} {m : Machine}

/-- The argument pages below `i` have been mapped. -/
structure Mapped (m : Machine) (i : Nat) (m' : Machine) : Prop where
  apart : m.Apart m'
  supply : m'.supply = m.supply
  inside : ∀ j < i, ∀ page, m.page j = some page → m'.mapped (15328 + j) = some page
  above : ∀ n, 15328 + i ≤ n → m'.mapped n = m.mapped n

theorem run_putDirtyPage_table (page : Page) {n : Nat} (here : n / 1024 = 14) :
    (putDirtyPage page n).run m =
      (if m.table 14 then
        set { m with mapped := Function.update m.mapped n (some page) }
      else
        match m.free with
        | 0 => return ()
        | free + 1 =>
            set { m with
              free
              table := Function.update m.table 14 true
              mapped := Function.update m.mapped n (some page) } : ExecM Unit).run m := by
  rw [← here]
  rfl

theorem run_putDirtyPage (page : Page) {i : Nat} (below : i < 32) (some' : 1 ≤ m.supply) :
    ∃ m', (putDirtyPage page (15328 + i)).run m = .ok ((), m') ∧ m.Apart m' ∧
      m'.supply = m.supply ∧ m'.mapped = Function.update m.mapped (15328 + i) (some page) := by
  rw [run_putDirtyPage_table page (by omega : (15328 + i) / 1024 = 14)]
  cases isTable : m.table 14 with
  | true => exact ⟨_, rfl, rfl, rfl, rfl⟩
  | false =>
      cases isFree : m.free with
      | zero =>
          rw [supply, isTable, isFree] at some'
          exact absurd some' (by decide)
      | succ free =>
          refine ⟨_, rfl, rfl, ?_, rfl⟩
          have there : Function.update m.table 14 true 14 = true := Function.update_self ..
          simp only [supply, there, isTable, isFree]
          rfl

theorem run_mapPages_succ (m : Machine) (i : Nat) : (mapPages (i + 1)).run m =
    (match m.page i with
      | some page => putDirtyPage page (15328 + i) >>= fun _ => mapPages i
      | none => mapPages i : ExecM Unit).run m := rfl

theorem run_mapPages {i : Nat} (below : i ≤ 32) (some' : 1 ≤ m.supply) :
    ∃ m', (mapPages i).run m = .ok ((), m') ∧ Mapped m i m' := by
  induction i generalizing m with
  | zero => exact ⟨m, rfl, .refl m, rfl, fun j no => absurd no (Nat.not_lt_zero j), fun _ _ => rfl⟩
  | succ i ih =>
      rw [run_mapPages_succ]
      cases isPage : m.page i with
      | none =>
          obtain ⟨m', mapped, apart, supply, inside, above⟩ := ih (by omega) some'
          refine ⟨m', mapped, apart, supply, fun j below page isSome => ?_, fun n le => ?_⟩
          · refine inside j ?_ page isSome
            refine lt_of_le_of_ne (Nat.le_of_lt_succ below) fun same => ?_
            rw [same, isPage] at isSome
            cases isSome
          · exact above n (by omega)
      | some page =>
          obtain ⟨m₁, put, apart₁, supply₁, mapped₁⟩ := run_putDirtyPage page
            (by omega : i < 32) some'
          obtain ⟨m', mapped, apart, supply, inside, above⟩ :=
            ih (m := m₁) (by omega) (by rw [supply₁]; exact some')
          have same : m₁.page = m.page := by rw [apart₁]
          refine ⟨m', ?_, apart₁.trans apart, supply.trans supply₁, fun j below page' isSome => ?_,
            fun n le => ?_⟩
          · simp only []
            rw [run_bind_of_ok put, mapped]
          · rcases Nat.lt_or_eq_of_le (Nat.le_of_lt_succ below) with lower | isLast
            · exact inside j lower page' (by rw [same]; exact isSome)
            · subst isLast
              rw [isPage] at isSome
              cases isSome
              rw [above _ (Nat.le_refl _), mapped₁, Function.update_self]
          · rw [above n (by omega), mapped₁, Function.update_of_ne (by omega)]

/-- Without a page for the page table nothing is mapped. -/
theorem run_mapPages_none (i : Nat) (below : i ≤ 32) (noTable : m.table 14 = false)
    (isFree : m.free = 0) : (mapPages i).run m = .ok ((), m) := by
  induction i with
  | zero => rfl
  | succ i ih =>
      rw [run_mapPages_succ]
      cases m.page i with
      | none => exact ih (by omega)
      | some page =>
          have here : (15328 + i) / 1024 = 14 := by omega
          have put : (putDirtyPage page (15328 + i)).run m = .ok ((), m) := by
            unfold putDirtyPage
            have read : (get : ExecM Machine).run m = .ok (m, m) := rfl
            rw [run_bind_of_ok read, here, noTable, isFree]
            rfl
          simp only []
          rw [run_bind_of_ok put]
          exact ih (by omega)

end Mapping

section Starting

variable {w : World} {m : Machine} {args env : List (List UInt8)} {pages inode : Nat} {p : UInt32}
variable {ex : Header}

/-- The new image of an inode has been started with its arguments. -/
structure Started (w : World) (inode : Nat) (ex : Header) (args env : List (List UInt8))
    (m : Machine) : Prop where
  executable : m.task.executable = some inode
  layout : Layout (m.newByte w) m.frame.esp.toNat args env
  endCode : m.task.endCode = ex.endCode
  endData : m.task.endData = ex.endData
  brk : m.task.brk = ex.brk
  eip : m.frame.eip = ex.entry

/-- How the start ends: with the tables laid out, or for the lack of memory. -/
def Starts (w : World) (inode : Nat) (ex : Header) (args env : List (List UInt8)) (few : Prop)
    (ran : Except Stop (Int × Machine)) : Prop :=
  (∃ m', ran = .ok (0, m') ∧ Started w inode ex args env m') ∨ (ran = .error .oom ∧ few)

/-- An access fails when nothing is there and nothing is left. -/
theorem run_presentPage_none {n : Nat} (noTable : m.table 14 = false) (isFree : m.free = 0)
    (nothing : m.mapped = fun _ => none) (here : n / 1024 = 14) :
    (presentPage w n).run m = .error .oom := by
  have stops : (ensureTable 14).run m = .error .oom := by
    change (if m.table 14 then pure () else _ : ExecM Unit).run m = _
    rw [noTable]
    exact run_bind_of_error (run_takeFree_zero isFree)
  rw [run_presentPage, nothing]
  simp only [doNoPage, here]
  exact run_bind_of_error stops

theorem run_putFsLong_none {value address : UInt32} (noTable : m.table 14 = false)
    (isFree : m.free = 0) (nothing : m.mapped = fun _ => none)
    (above : 58720256 ≤ address.toNat) (below : address.toNat < 62914560) :
    (putFsLong w value address).run m = .error .oom := by
  have present := run_presentPage_none (w := w) (n := address.toNat / 4096) noTable isFree nothing
    (by omega)
  unfold putFsLong longBytes putNewBytes putNewByte
  rw [if_neg (by change ¬0x4000000 ≤ address.toNat; omega)]
  exact run_bind_of_error (run_bind_of_error present)

/-- So does the first store of `create_tables`. -/
theorem run_createTables_none (noTable : m.table 14 = false) (isFree : m.free = 0)
    (nothing : m.mapped = fun _ => none)
    (above : 58720256 + 4 * (args.length + env.length) + 24 ≤ p.toNat)
    (below : p.toNat ≤ 62914560) :
    (createTables w p args.length env.length).run m = .error .oom := by
  have aligned : (0xfffffffc &&& p).toNat ≤ p.toNat ∧ p.toNat < (0xfffffffc &&& p).toNat + 4 := by
    have := toNat_aligned p
    omega
  have envWords := toNat_ofInt_succ (n := env.length) (by omega)
  have argWords := toNat_ofInt_succ (n := args.length) (by omega)
  unfold createTables
  dsimp only
  have isSlot : ((0xfffffffc &&& p) - 4 * UInt32.ofInt ((env.length : Int) + 1) -
      4 * UInt32.ofInt ((args.length : Int) + 1) - 4).toNat + 4 + 4 * (args.length + 1) +
        4 * (env.length + 1) = (0xfffffffc &&& p).toNat := by
    have isEnvp := toNat_below (p := 0xfffffffc &&& p)
      (q := 4 * UInt32.ofInt ((env.length : Int) + 1)) (by omega)
    generalize (0xfffffffc &&& p) - 4 * UInt32.ofInt ((env.length : Int) + 1) = envp at isEnvp ⊢
    have isArgv := toNat_below (p := envp) (q := 4 * UInt32.ofInt ((args.length : Int) + 1))
      (by omega)
    generalize envp - 4 * UInt32.ofInt ((args.length : Int) + 1) = argv at isArgv ⊢
    have isSlot : (argv - 4).toNat = argv.toNat - 4 := toNat_below (by change 4 ≤ argv.toNat; omega)
    omega
  exact run_bind_of_error (run_putFsLong_none noTable isFree nothing (by grind) (by grind))

/-- The references when the old executable has been put back. -/
def putBack (m : Machine) : Nat → Nat :=
  match m.task.executable with
  | some executable => Function.update m.count executable (m.count executable - 1)
  | none => m.count

/-- The machine when the old image is gone. -/
def emptied (w : World) (m : Machine) (inode : Nat) : Machine :=
  { m with
    count := putBack m
    task := { m.task with executable := some inode }.reset
    free := m.free + w.released
    table := fun _ => false
    mapped := fun _ => none
    fs := .user }

theorem run_iputIfAny :
    (iputIfAny m.task.executable).run m = .ok ((), { m with count := putBack m }) := by
  unfold putBack
  cases m.task.executable <;> rfl

theorem run_modify_bind {α : Type} (change : Machine → Machine) (next : PUnit → ExecM α) :
    (modify change >>= next).run m = (next PUnit.unit).run (change m) := rfl

/-- What follows when the old image is gone. -/
def afterEmptied (w : World) (old : Task) (inode : Nat) (ex : Header) (p : UInt32)
    (argc envc : Int) : ExecM Int := do
  mapPages maxArgPages
  let p ← createTables w (p + UInt32.ofNat taskSize -
    UInt32.ofNat (librarySize + maxArgPages * pageSize)) argc envc
  finish w old inode ex p
  return 0

theorem run_startImage (argc envc : Int) :
    (startImage w inode ex p argc envc).run m =
      (afterEmptied w m.task inode ex p argc envc).run (emptied w m inode) := by
  unfold startImage
  have read : (get : ExecM Machine).run m = .ok (m, m) := rfl
  rw [run_bind_of_ok read, run_bind_of_ok run_iputIfAny]
  simp only [changeLdt, freeOldImage, setFs, bind_assoc, pure_bind]
  rw [run_modify_bind, run_modify_bind, run_modify_bind, afterEmptied]
  exact congrArg (StateT.run _) rfl

theorem toNat_newP (below : p.toNat ≤ 131068) :
    (p + UInt32.ofNat taskSize - UInt32.ofNat (librarySize + maxArgPages * pageSize)).toNat =
      62783488 + p.toNat := by
  have size : (UInt32.ofNat taskSize).toNat = 67108864 := rfl
  have sizes : (UInt32.ofNat (librarySize + maxArgPages * pageSize)).toNat = 4325376 := rfl
  rw [UInt32.toNat_sub, UInt32.toNat_add, size, sizes]
  omega

theorem length_args_le (strings : List (List UInt8)) : strings.length ≤ (packed strings).length := by
  induction strings with
  | nil => exact Nat.le_refl _
  | cons string strings ih =>
      rw [packed_cons, List.length_append, List.length_append, List.length_singleton,
        List.length_cons]
      omega

/-- The argument pages are seen below the library. -/
theorem holds_newByte {m' : Machine} {bytes : List UInt8} {p : Nat} (area : m.Area pages p)
    (mapped : ∀ j < 32, ∀ page, m.page j = some page → m'.mapped (15328 + j) = some page)
    (lies : Holds m.areaByte p bytes) (fits : p + bytes.length ≤ 131068) :
    Holds (m'.newByte w) (62783488 + p) bytes := by
  intro i inside
  have present : (m.page ((p + i) / 4096)).isSome := by
    rw [area.present]
    omega
  obtain ⟨page, isPage⟩ := Option.isSome_iff_exists.mp present
  have isMapped := mapped ((p + i) / 4096) (by omega) page isPage
  have number : (62783488 + p + i) / 4096 = 15328 + (p + i) / 4096 := by omega
  have offset : (62783488 + p + i) % 4096 = (p + i) % 4096 := by omega
  rw [← lies i inside, newByte, number, offset, isMapped, areaByte, isPage]
  rfl

theorem card_missing_le (m : Machine) (low : Nat) : (m.missing low).card ≤ 15360 - low :=
  (Finset.card_filter_le _ _).trans (by rw [Nat.card_Ico])

/-- The new image with the arguments that have been copied. -/
theorem starts_startImage (area : m.Area pages p.toNat)
    (lies : Holds m.areaByte p.toNat (packed (args ++ env)))
    (fits : p.toNat + (packed (args ++ env)).length ≤ 131068)
    (noEnd : ∀ string ∈ args ++ env, 0 ∉ string) :
    Starts w inode ex args env (m.free < 162)
      ((startImage w inode ex p args.length env.length).run m) := by
  have newP := toNat_newP area.low
  have few := length_args_le (args ++ env)
  rw [List.length_append] at few
  rw [run_startImage, afterEmptied]
  generalize p + UInt32.ofNat taskSize - UInt32.ofNat (librarySize + maxArgPages * pageSize) =
    newP' at newP ⊢
  rcases Nat.eq_zero_or_pos (m.free + w.released) with none' | some'
  · have mapped := run_mapPages_none (m := emptied w m inode) 32 (Nat.le_refl _) rfl none'
    have stops : (createTables w newP' args.length env.length).run (emptied w m inode) =
        .error .oom := run_createTables_none rfl none' rfl (by omega) (by omega)
    rw [run_bind_of_ok mapped, run_bind_of_error stops]
    exact .inr ⟨rfl, by omega⟩
  · obtain ⟨m₁, mapped, isMapped⟩ := run_mapPages (m := emptied w m inode) (i := 32) (Nat.le_refl _)
      (by rw [supply]; exact Nat.le_add_right_of_le some')
    rw [run_bind_of_ok mapped]
    have bytes : Holds (m₁.newByte w) newP'.toNat (packed (args ++ env)) := by
      rw [newP]
      exact holds_newByte area isMapped.inside lies fits
    have created := touches_createTables (w := w) 15199 (m := m₁) (p := newP') noEnd
      (by omega) (by omega) (by omega) bytes
    rcases created.ends with ⟨sp, m₂, ran, laid, apart⟩ | ⟨ran, few'⟩
    · have kept : m₂.task.executable = some inode := by
        rw [apart, isMapped.apart]
        rfl
      rw [run_bind_of_ok ran]
      exact .inl ⟨_, rfl, kept, laid, rfl, rfl, rfl, rfl⟩
    · rw [run_bind_of_error ran]
      refine .inr ⟨rfl, Nat.not_le.mp fun many => few' ?_⟩
      rw [ready_iff, isMapped.supply]
      have few := card_missing_le m₁ 15199
      change _ ≤ m.free + w.released + 0
      omega

end Starting

end Linux012.Exec
