import Linux012.Exec.Copies
import Linux012.Exec.Image

/-!
# The pointer tables

`create_tables` stores `argc`, `argv` and `envp` and the two arrays of pointers below the strings.
-/

namespace Linux012.Exec

open Lib (longBytes overwrite Holds)
open Machine

/-- The addresses of the strings that lie one behind the other from `p` on. -/
def addresses : (p : UInt32) → List (List UInt8) → List UInt32
  | _, [] => []
  | p, string :: strings => p :: addresses (p + UInt32.ofNat (string.length + 1)) strings

@[simp] theorem length_addresses (p : UInt32) (strings : List (List UInt8)) :
    (addresses p strings).length = strings.length := by
  induction strings generalizing p with
  | nil => rfl
  | cons string strings ih => simp [addresses, ih]

/-- The words one behind the other. -/
def words (values : List UInt32) : List UInt8 := values.flatMap longBytes

@[simp] theorem length_words (values : List UInt32) : (words values).length = 4 * values.length := by
  induction values with
  | nil => rfl
  | cons value values ih =>
      simp only [words, List.flatMap_cons, List.length_append, List.length_cons] at ih ⊢
      rw [ih, Lib.length_longBytes]
      omega

/-- One of the words. -/
theorem holds_word {array : Nat → UInt8} {pos : Nat} {values : List UInt32}
    (holds : Holds array pos (words values)) {i : Nat} (inside : i < values.length) :
    Holds array (pos + 4 * i) (longBytes values[i]) := by
  induction values generalizing pos i with
  | nil => exact absurd inside (Nat.not_lt_zero i)
  | cons value values ih =>
      have split : words (value :: values) = longBytes value ++ words values := rfl
      rw [split] at holds
      cases i with
      | zero => exact holds.left
      | succ i =>
          have rest := ih (i := i) holds.right (by simpa using inside)
          rw [Lib.length_longBytes, Nat.add_assoc, Nat.add_comm 4, ← Nat.mul_succ] at rest
          exact rest

theorem toNat_behind {p : UInt32} {len : Nat} (limit : p.toNat + len < 2 ^ 32) :
    (p + UInt32.ofNat len).toNat = p.toNat + len := by
  rw [UInt32.toNat_add, UInt32.toNat_ofNat']
  omega

/-- Each of the addresses is that of its string. -/
theorem holds_addresses {array : Nat → UInt8} {p : UInt32} {strings : List (List UInt8)}
    (limit : p.toNat + (packed strings).length < 2 ^ 32)
    (holds : Holds array p.toNat (packed strings)) {i : Nat} (inside : i < strings.length) :
    ∃ address, (addresses p strings)[i]? = some address ∧ p.toNat ≤ address.toNat ∧
      Holds array address.toNat (strings[i] ++ [0]) := by
  induction strings generalizing p i with
  | nil => exact absurd inside (Nat.not_lt_zero i)
  | cons string strings ih =>
      rw [packed_cons] at holds limit
      cases i with
      | zero => exact ⟨p, rfl, Nat.le_refl _, holds.left⟩
      | succ i =>
          rw [List.length_append, List.length_append, List.length_singleton] at limit
          have next : (p + UInt32.ofNat (string.length + 1)).toNat = p.toNat + (string.length + 1) :=
            toNat_behind (by omega)
          have rest := holds.right
          rw [List.length_append, List.length_singleton, ← next] at rest
          obtain ⟨address, found, above, lies⟩ := ih (by omega) rest (by simpa using inside)
          exact ⟨address, found, by omega, lies⟩

section Loop

variable {w : World} {low : Nat} {m : Machine} {p argv : UInt32} {strings : List (List UInt8)}

/-- The pointers to the strings are stored below them. -/
theorem touches_pointerLoop (noEnd : ∀ string ∈ strings, 0 ∉ string) (table : 14336 ≤ low)
    (above : low * 4096 ≤ argv.toNat) (apart : argv.toNat + 4 * strings.length ≤ p.toNat)
    (below : p.toNat + (packed strings).length ≤ 62914560)
    (lies : Holds (m.newByte w) p.toNat (packed strings)) :
    Touches low m (pointerLoop w strings.length p argv) fun result m' =>
      result.1.toNat = p.toNat + (packed strings).length ∧
        result.2.toNat = argv.toNat + 4 * strings.length ∧
        m'.newByte w = overwrite (m.newByte w) argv.toNat (words (addresses p strings)) := by
  induction strings generalizing m p argv with
  | nil => exact .pure ⟨rfl, rfl, by simp [addresses, words]⟩
  | cons string strings ih =>
      rw [packed_cons] at lies below
      rw [List.length_cons] at apart
      rw [List.length_append] at below
      have stringEnd : (string ++ [0]).length = string.length + 1 := by simp
      refine (touches_putFsLong w p table above (by omega)).bind fun _ m₁ stored => ?_
      have kept : Holds (m₁.newByte w) p.toNat (string ++ [0] ++ packed strings) := by
        rw [stored]
        exact lies.overwrite (.inr (by rw [Lib.length_longBytes]; omega))
      refine (touches_skipString w (noEnd string List.mem_cons_self)
        (by change string.length < 0x4000000 - p.toNat; omega) table (by omega) (by omega)
        kept.left).bind ?_
      rintro q m₂ ⟨behind, same⟩
      have next : (argv + 4).toNat = argv.toNat + 4 := by
        rw [UInt32.toNat_add]
        simp only [UInt32.reduceToNat]
        omega
      have isBehind : q = p + UInt32.ofNat (string.length + 1) := by
        apply UInt32.toNat.inj
        rw [behind, stringEnd, toNat_behind (by omega)]
      refine (ih (m := m₂) (p := q)
        (fun string inside => noEnd string (List.mem_cons_of_mem _ inside)) (by omega) (by omega)
        (by omega) ?_).weaken ?_
      · rw [behind, same]
        exact kept.right
      · rintro ⟨p', argv'⟩ m₃ ⟨isP, isArgv, stored'⟩
        refine ⟨?_, ?_, ?_⟩
        · rw [packed_cons, List.length_append, isP, behind]
          omega
        · rw [isArgv, next, List.length_cons]
          omega
        · rw [stored', same, stored, next, isBehind]
          exact Lib.overwrite_append

end Loop

/-! ## The layout -/

/-- A pointer for each string and a null pointer behind them, with all strings above `top`. -/
structure VectorAt (byte : Nat → UInt8) (pos top : Nat) (strings : List (List UInt8)) : Prop where
  pointer : ∀ i (inside : i < strings.length), ∃ address : UInt32, top ≤ address.toNat ∧
    Holds byte (pos + 4 * i) (longBytes address) ∧ Holds byte address.toNat (strings[i] ++ [0])
  last : Holds byte (pos + 4 * strings.length) (longBytes 0)
  below : pos + 4 * (strings.length + 1) ≤ top

/-- At `sp` are the number of arguments and the addresses of the two arrays, and no word of all
these is above `top`, where the strings are. -/
structure Layout (byte : Nat → UInt8) (sp : Nat) (args env : List (List UInt8)) : Prop where
  argc : Holds byte sp (longBytes (UInt32.ofNat args.length))
  vectors : ∃ (argv envp : UInt32) (top : Nat), sp + 12 ≤ top ∧
    Holds byte (sp + 4) (longBytes argv) ∧ Holds byte (sp + 8) (longBytes envp) ∧
    VectorAt byte argv.toNat top args ∧ VectorAt byte envp.toNat top env

/-- An array of pointers that lies in the tables. -/
theorem vectorAt_addresses {byte : Nat → UInt8} {pos top : Nat} {p : UInt32}
    {strings : List (List UInt8)} (limit : p.toNat + (packed strings).length < 2 ^ 32)
    (pointers : Holds byte pos (words (addresses p strings) ++ longBytes 0))
    (lies : Holds byte p.toNat (packed strings)) (above : top ≤ p.toNat)
    (below : pos + 4 * (strings.length + 1) ≤ top) : VectorAt byte pos top strings := by
  constructor
  · intro i inside
    obtain ⟨address, found, from', isString⟩ := holds_addresses limit lies inside
    have word := holds_word pointers.left (i := i) (by rw [length_addresses]; exact inside)
    obtain ⟨_, isAddress⟩ := List.getElem?_eq_some_iff.mp found
    rw [isAddress] at word
    exact ⟨address, by omega, word, isString⟩
  · have last := pointers.right
    rw [length_words, length_addresses] at last
    exact last
  · exact below

/-- All that `create_tables` stores. -/
def tables (p envStart argv envp : UInt32) (args env : List (List UInt8)) : List UInt8 :=
  longBytes (UInt32.ofNat args.length) ++ longBytes argv ++ longBytes envp ++
    words (addresses p args) ++ longBytes 0 ++ words (addresses envStart env) ++ longBytes 0

/-- The tables below the strings make the layout. -/
theorem layout_tables {byte : Nat → UInt8} {sp p envStart argv envp : UInt32}
    {args env : List (List UInt8)}
    (lies : Holds byte p.toNat (packed args ++ packed env))
    (limit : p.toNat + ((packed args).length + (packed env).length) < 2 ^ 32)
    (isStart : envStart.toNat = p.toNat + (packed args).length)
    (isArgv : argv.toNat = sp.toNat + 12)
    (isEnvp : envp.toNat = argv.toNat + 4 * (args.length + 1))
    (below : envp.toNat + 4 * (env.length + 1) ≤ p.toNat) :
    Layout (overwrite byte sp.toNat (tables p envStart argv envp args env)) sp.toNat args env := by
  have len : sp.toNat + (tables p envStart argv envp args env).length ≤ p.toNat := by
    simp only [tables, List.length_append, Lib.length_longBytes, length_words, length_addresses]
    omega
  have strings : Holds (overwrite byte sp.toNat (tables p envStart argv envp args env)) p.toNat
      (packed args ++ packed env) := lies.overwrite (.inr len)
  have stored : Holds (overwrite byte sp.toNat (tables p envStart argv envp args env)) sp.toNat
      (tables p envStart argv envp args env) := Lib.holds_overwrite
  generalize overwrite byte sp.toNat (tables p envStart argv envp args env) = byte' at strings stored
  have regroup : tables p envStart argv envp args env =
      longBytes (UInt32.ofNat args.length) ++ (longBytes argv ++ (longBytes envp ++
        (words (addresses p args) ++ longBytes 0 ++
          (words (addresses envStart env) ++ longBytes 0)))) := by
    simp [tables]
  rw [regroup] at stored
  have atArgv := stored.right
  have atEnvp := atArgv.right
  have vectors := atEnvp.right
  have envVector := vectors.right
  rw [Lib.length_longBytes] at atArgv
  simp only [Lib.length_longBytes] at atEnvp vectors
  simp only [List.length_append, Lib.length_longBytes, length_words, length_addresses] at envVector
  refine ⟨stored.left, argv, envp, envp.toNat + 4 * (env.length + 1), by omega, atArgv.left,
    atEnvp.left, ?_, ?_⟩
  · refine vectorAt_addresses (p := p) (by omega) ?_ strings.left (by omega) (by omega)
    rw [isArgv]
    exact vectors.left
  · refine vectorAt_addresses (p := envStart) (by omega) ?_ ?_ (by omega) (by omega)
    · have place : envp.toNat = sp.toNat + 4 + 4 + 4 + (4 * args.length + 4) := by omega
      rw [place]
      exact envVector
    · rw [isStart]
      exact strings.right

section Create

variable {w : World} {low : Nat} {m : Machine} {p : UInt32} {args env : List (List UInt8)}

/-- `0xfffffffc & p`. -/
theorem toNat_aligned (p : UInt32) : (0xfffffffc &&& p).toNat = p.toNat / 4 * 4 := by
  have lt := p.toNat_lt
  have mask : (0xfffffffc : UInt32).toNat = 2 ^ 2 * (2 ^ 30 - 1) := rfl
  have four : p.toNat / 4 * 4 = 2 ^ 2 * (p.toNat / 2 ^ 2) := Nat.mul_comm _ _
  rw [UInt32.toNat_and, mask, four]
  apply Nat.eq_of_testBit_eq
  intro i
  rw [Nat.testBit_and, Nat.testBit_two_pow_mul, Nat.testBit_two_pow_mul, Nat.testBit_two_pow_sub_one,
    Nat.testBit_div_two_pow]
  by_cases above : 2 ≤ i
  · rw [Nat.sub_add_cancel above]
    by_cases inside : i < 32
    · have small : i - 2 < 30 := by omega
      simp [above, small]
    · rw [Nat.testBit_lt_two_pow (lt_of_lt_of_le lt (Nat.pow_le_pow_right (by omega) (Nat.not_lt.mp inside)))]
      simp
  · simp [above]

theorem toNat_ofInt_succ {n : Nat} (small : n < 0x1000000) :
    (4 * UInt32.ofInt ((n : Int) + 1)).toNat = 4 * (n + 1) := by
  have isNat : ((n : Int) + 1) % 2 ^ 32 = ((n + 1 : Nat) : Int) := by omega
  rw [UInt32.toNat_mul, UInt32.ofInt, isNat, Int.toNat_natCast, UInt32.toNat_ofNat']
  simp only [UInt32.reduceToNat]
  omega

theorem toNat_below {p q : UInt32} (le : q.toNat ≤ p.toNat) :
    (p - q).toNat = p.toNat - q.toNat := by
  have lt := p.toNat_lt
  have lt' := q.toNat_lt
  rw [UInt32.toNat_sub]
  omega

variable (low) in
/-- `create_tables` lays out the strings that it finds. -/
theorem touches_createTables (noEnd : ∀ string ∈ args ++ env, 0 ∉ string) (table : 14336 ≤ low)
    (above : low * 4096 + 4 * (args.length + env.length) + 24 ≤ p.toNat)
    (below : p.toNat + (packed (args ++ env)).length ≤ 62914560)
    (lies : Holds (m.newByte w) p.toNat (packed (args ++ env))) :
    Touches low m (createTables w p args.length env.length) fun sp m' =>
      Layout (m'.newByte w) sp.toNat args env := by
  have aligned : (0xfffffffc &&& p).toNat ≤ p.toNat ∧ p.toNat < (0xfffffffc &&& p).toNat + 4 := by
    have := toNat_aligned p
    omega
  have envWords := toNat_ofInt_succ (n := env.length) (by omega)
  have argWords := toNat_ofInt_succ (n := args.length) (by omega)
  unfold createTables
  dsimp only
  generalize 0xfffffffc &&& p = top at aligned ⊢
  have isEnvp : (top - 4 * UInt32.ofInt ((env.length : Int) + 1)).toNat + 4 * (env.length + 1) =
      top.toNat := by
    rw [toNat_below (by omega), envWords]
    omega
  generalize top - 4 * UInt32.ofInt ((env.length : Int) + 1) = envp at isEnvp ⊢
  have isArgv : (envp - 4 * UInt32.ofInt ((args.length : Int) + 1)).toNat + 4 * (args.length + 1) =
      envp.toNat := by
    rw [toNat_below (by omega), argWords]
    omega
  generalize envp - 4 * UInt32.ofInt ((args.length : Int) + 1) = argv at isArgv ⊢
  clear envWords argWords
  have isSlot (q : UInt32) (le : 4 ≤ q.toNat) : (q - 4).toNat + 4 = q.toNat := by
    have isBelow : (q - 4).toNat = q.toNat - 4 := toNat_below le
    rw [isBelow]
    exact Nat.sub_add_cancel le
  have isSlot₁ := isSlot argv (by omega)
  generalize argv - 4 = slot₁ at isSlot₁ ⊢
  have isSlot₂ := isSlot slot₁ (by omega)
  generalize slot₁ - 4 = slot₂ at isSlot₂ ⊢
  have isSp := isSlot slot₂ (by omega)
  generalize slot₂ - 4 = sp at isSp ⊢
  have split : packed (args ++ env) = packed args ++ packed env := packed_append args env
  rw [split] at lies
  rw [split, List.length_append] at below
  have room : low * 4096 ≤ sp.toNat := by grind
  have end₁ : slot₁.toNat + 4 ≤ 62914560 := by grind
  have apart : argv.toNat + 4 * args.length ≤ p.toNat := by grind
  -- The three words at `sp`, from the last one on.
  refine (touches_putFsLong w envp table (by grind) end₁).bind fun _ m₁ at₁ => ?_
  refine (touches_putFsLong w argv table (by grind) (by grind)).bind fun _ m₂ at₂ => ?_
  refine (touches_putFsLong w (UInt32.ofInt args.length) table room (by grind)).bind
    fun _ m₃ at₃ => ?_
  have isArgc : UInt32.ofInt (args.length : Int) = UInt32.ofNat args.length := by
    apply UInt32.toNat.inj
    rw [UInt32.ofInt, Int.emod_eq_of_lt (by omega) (by omega), Int.toNat_natCast]
  have head : m₃.newByte w = overwrite (m.newByte w) sp.toNat
      (longBytes (UInt32.ofNat args.length) ++ longBytes argv ++ longBytes envp) := by
    rw [at₃, at₂, at₁, isArgc, show slot₁.toNat = slot₂.toNat + (longBytes argv).length by
      rw [Lib.length_longBytes]; omega, Lib.overwrite_prepend,
      show slot₂.toNat = sp.toNat + (longBytes (UInt32.ofNat args.length)).length by
        rw [Lib.length_longBytes]; omega, Lib.overwrite_prepend, List.append_assoc]
  -- Then the two arrays, each with its null pointer.
  have strings : Holds (m₃.newByte w) p.toNat (packed args ++ packed env) := by
    rw [head]
    refine lies.overwrite (.inr ?_)
    simp only [List.length_append, Lib.length_longBytes]
    grind
  refine (touches_pointerLoop (fun string inside => noEnd string (List.mem_append_left _ inside))
    table (by grind) apart (by omega) strings.left).bind ?_
  rintro ⟨envStart, argEnd⟩ m₄ ⟨isStart, isArgEnd, at₄⟩
  simp only at isStart isArgEnd
  refine (touches_putFsLong w 0 table (by grind) (by grind)).bind fun _ m₅ at₅ => ?_
  have vector : m₅.newByte w = overwrite (m.newByte w) sp.toNat
      (longBytes (UInt32.ofNat args.length) ++ longBytes argv ++ longBytes envp ++
        words (addresses p args) ++ longBytes 0) := by
    have place₄ : argv.toNat = sp.toNat + (longBytes (UInt32.ofNat args.length) ++
        longBytes argv ++ longBytes envp).length := by
      simp only [List.length_append, Lib.length_longBytes]
      grind
    have place₅ : argEnd.toNat = sp.toNat + (longBytes (UInt32.ofNat args.length) ++
        longBytes argv ++ longBytes envp ++ words (addresses p args)).length := by
      simp only [List.length_append, Lib.length_longBytes, length_words, length_addresses]
      grind
    rw [at₅, at₄, head, place₄, Lib.overwrite_append, place₅, Lib.overwrite_append]
  have strings' : Holds (m₅.newByte w) p.toNat (packed args ++ packed env) := by
    rw [vector]
    refine lies.overwrite (.inr ?_)
    simp only [List.length_append, Lib.length_longBytes, length_words, length_addresses]
    grind
  have envStrings : Holds (m₅.newByte w) envStart.toNat (packed env) := by
    rw [isStart]
    exact strings'.right
  refine (touches_pointerLoop (fun string inside => noEnd string (List.mem_append_right _ inside))
    table (by grind) (by grind) (by omega) envStrings).bind ?_
  rintro ⟨envEnd, pointerEnd⟩ m₆ ⟨isEnd, isPointerEnd, at₆⟩
  simp only at isEnd isPointerEnd
  refine (touches_putFsLong w 0 table (by grind) (by grind)).bind fun _ m₇ at₇ => ?_
  have all : m₇.newByte w = overwrite (m.newByte w) sp.toNat
      (tables p envStart argv envp args env) := by
    have place₆ : envp.toNat = sp.toNat + (longBytes (UInt32.ofNat args.length) ++
        longBytes argv ++ longBytes envp ++ words (addresses p args) ++ longBytes 0).length := by
      simp only [List.length_append, Lib.length_longBytes, length_words, length_addresses]
      grind
    have place₇ : pointerEnd.toNat = sp.toNat + (longBytes (UInt32.ofNat args.length) ++
        longBytes argv ++ longBytes envp ++ words (addresses p args) ++ longBytes 0 ++
        words (addresses envStart env)).length := by
      simp only [List.length_append, Lib.length_longBytes, length_words, length_addresses]
      grind
    rw [at₇, at₆, vector, place₆, Lib.overwrite_append, place₇, Lib.overwrite_append]
    rfl
  refine .pure ?_
  rw [all]
  exact layout_tables lies (by omega) isStart (by grind) (by grind) (by grind)

end Create

end Linux012.Exec
