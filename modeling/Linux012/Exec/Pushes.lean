import Linux012.Exec.ScriptLine

/-!
# The calls of `copy_strings` that `do_execve` makes

Each call begins where the one before has ended.  Once one has come down to zero, or there was no
page, the others do nothing.
-/

namespace Linux012.Exec

open Lib (longBytes LiesAt run_bind_of_ok run_bind_of_error)
open Machine

/-- One of the calls, of which each stores as many bytes as the list says, begins above zero and
would end below it. -/
def Crosses (p : Nat) : List Nat → Prop
  | [] => False
  | len :: lens => 0 < p ∧ (p < len ∨ Crosses (p - len) lens)

instance decidableCrosses : (p : Nat) → (lens : List Nat) → Decidable (Crosses p lens)
  | _, [] => inferInstanceAs (Decidable False)
  | p, len :: lens =>
      have := decidableCrosses (p - len) lens
      inferInstanceAs (Decidable (_ ∧ (_ ∨ _)))

theorem not_crosses_zero (lens : List Nat) : ¬Crosses 0 lens := by
  cases lens with
  | nil => exact id
  | cons len lens => exact fun crosses => Nat.lt_irrefl 0 crosses.1

/-- Calls for which there is room do not cross. -/
theorem not_crosses_of_sum_le {p : Nat} {lens : List Nat} (room : lens.sum ≤ p) :
    ¬Crosses p lens := by
  induction lens generalizing p with
  | nil => exact id
  | cons len lens ih =>
      rw [List.sum_cons] at room
      rintro ⟨_, long | crosses⟩
      · omega
      · exact ih (by omega) crosses

/-- How calls that store the given bytes, one below the other, end. -/
inductive CallsEnd (pages p : Nat) (m : Machine) (calls : List (List UInt8)) (fs : Fs) (argc : Int) :
    Except Stop ((UInt32 × Int) × Machine) → Prop
  | placed {q : UInt32} {m' : Machine} (positive : q ≠ 0)
      (all : Placed pages p m calls.reverse.flatten m')
      (low : q.toNat = p - calls.reverse.flatten.length) (same : m'.fs = fs) :
      CallsEnd pages p m calls fs argc (.ok ((q, argc), m'))
  | full {m' : Machine} {q : Nat}
      (stops : pages < maxArgPages ∨
        ¬Crosses p (calls.map List.length) ∧ p ≤ (calls.map List.length).sum)
      (area : m'.Area pages q) (rest : m.Rest m') (same : m'.fs = fs) :
      CallsEnd pages p m calls fs argc (.ok ((0, argc), m'))
  | overrun (crosses : Crosses p (calls.map List.length)) (many : maxArgPages ≤ pages) :
      CallsEnd pages p m calls fs argc (.error .overrun)

section Sequences

variable {pages : Nat} {m : Machine} {calls : List (List UInt8)} {bytes : List UInt8} {fs : Fs}
variable {argc : Int} {p : UInt32}

/-- No call is left. -/
theorem CallsEnd.nil (area : m.Area pages p.toNat) (positive : p ≠ 0) :
    CallsEnd pages p.toNat m [] m.fs argc ((pure (p, argc) : ExecM (UInt32 × Int)).run m) :=
  .placed positive (.refl area) rfl rfl

/-- A call, and those below it. -/
theorem Ends.cons {first : ExecM UInt32} {next : UInt32 → ExecM (UInt32 × Int)}
    (ended : Ends pages p.toNat m bytes fs fs
      (fun result => result.toNat = p.toNat - bytes.length) (fun result => result = 0)
      (first.run m))
    (positive : p ≠ 0)
    (continues : ∀ q m', q ≠ 0 → Placed pages p.toNat m bytes m' → m'.fs = fs →
      q.toNat = p.toNat - bytes.length →
      CallsEnd pages q.toNat m' calls fs argc ((next q).run m'))
    (stops : ∀ m', (next 0).run m' = .ok ((0, argc), m')) :
    CallsEnd pages p.toNat m (bytes :: calls) fs argc ((first >>= next).run m) := by
  have above : 0 < p.toNat := Nat.pos_of_ne_zero fun zero => positive (UInt32.toNat.inj zero)
  rw [StateT.run_bind]
  generalize first.run m = ran at ended
  cases ended with
  | overrun long many => exact .overrun ⟨above, .inl long⟩ many
  | full few area rest same result =>
      rename_i value m' q
      subst result
      change CallsEnd _ _ _ _ _ _ ((next 0).run m')
      rw [stops]
      exact .full (.inl (lt_of_lt_of_le few (pagesFor_le _))) area rest same
  | placed all same result =>
      rename_i value m'
      change CallsEnd _ _ _ _ _ _ ((next value).run m')
      by_cases zero : value = 0
      · subst zero
        rw [stops]
        have le := all.le
        change 0 = p.toNat - bytes.length at result
        refine .full (.inr ⟨?_, ?_⟩) all.area all.rest same
        · rintro ⟨_, long | crosses⟩
          · omega
          · rw [← result] at crosses
            exact not_crosses_zero _ crosses
        · rw [List.map_cons, List.sum_cons]
          omega
      · have ended := continues value m' zero all same result
        generalize (next value).run m' = ran at ended
        cases ended with
        | placed positive' all' low' same' =>
            rw [result] at all' low'
            refine .placed positive' ?_ ?_ same'
            · rw [List.reverse_cons, List.flatten_append, List.flatten_singleton]
              exact all.trans all'
            · rw [List.reverse_cons, List.flatten_append, List.flatten_singleton,
                List.length_append]
              omega
        | full stops' area rest same' =>
            have le := all.le
            refine .full (stops'.imp_right fun ⟨no, used⟩ => ⟨?_, ?_⟩) area (all.rest.trans rest) same'
            · rintro ⟨_, long | crosses⟩
              · omega
              · rw [← result] at crosses
                exact no crosses
            · rw [List.map_cons, List.sum_cons]
              omega
        | overrun crosses many =>
            rw [result] at crosses
            exact .overrun ⟨above, .inr crosses⟩ many

end Sequences

section Plain

variable {w : World} {m : Machine} {filename argv envp : UInt32} {args env : List (List UInt8)}
variable {pages : Nat} {p : UInt32}

/-- A negative `argc` is as good as zero. -/
theorem copyStrings_toNat (memory : Fs → List UInt8) (argc : Int) (argv p : UInt32)
    (fromKmem : FromKmem) :
    copyStrings memory argc argv p fromKmem = copyStrings memory (argc.toNat : Int) argv p fromKmem :=
  rfl

/-- Nothing is done from zero on. -/
theorem run_copyStrings_zero (memory : Fs → List UInt8) (argc : Int) (argv : UInt32)
    (fromKmem : FromKmem) :
    (copyStrings memory argc argv 0 fromKmem).run m = .ok (0, m) := rfl

theorem toNat_initialP : initialP.toNat = 131068 := rfl

/-- Before the first call nothing is there. -/
theorem area_empty (clear : m.page = fun _ => none) : m.Area m.free initialP.toNat := by
  rw [toNat_initialP]
  refine ⟨Nat.le_refl _, fun i => ?_, ?_⟩
  · rw [clear]
    simp
  · unfold pagesFor
    rw [if_neg (by omega)]
    rfl

/-- The calls for a program. -/
def plainCalls (args env : List (List UInt8)) : List (List UInt8) := [packed env, packed args]

theorem segments_limit {line : Line} (short : line.buf.length ≤ 128) (fs : Fs) :
    (segments w filename line fs).length < 2 ^ 32 := by
  have userLimit : w.user.length ≤ 0x4000000 := w.userLimit
  have kernelLimit : w.kernel.length ≤ 0x4000000 := w.kernelLimit
  cases fs with
  | user =>
      change w.user.length < 2 ^ 32
      omega
  | kernel =>
      simp only [segments, kernelMemory, List.length_append, Lib.length_longBytes]
      omega

/-- A call that copies from the memory of the program. -/
theorem CallsEnd.cons_user {line : Line} {calls : List (List UInt8)} {argc : Int}
    {next : UInt32 → ExecM (UInt32 × Int)} (short : line.buf.length ≤ 128) (isFs : m.fs = .user)
    (area : m.Area pages p.toNat) (positive : p ≠ 0)
    (arguments : ArgumentsAt w.user w.user argv args)
    (continues : ∀ q m', q ≠ 0 → m'.Area pages q.toNat → m'.fs = .user →
      CallsEnd pages q.toNat m' calls .user argc ((next q).run m'))
    (stops : ∀ m', (next 0).run m' = .ok ((0, argc), m')) :
    CallsEnd pages p.toNat m (packed args :: calls) .user argc
      ((copyStrings (segments w filename line) args.length argv p .neither >>= next).run m) := by
  have arguments' : ArgumentsAt (segments w filename line (arrayFs .neither m.fs))
      (segments w filename line (stringFs .neither m.fs)) argv args := by
    rw [isFs]
    exact arguments
  have ended := ends_copyStrings (segments_limit short) area positive arguments'
  rw [isFs] at ended
  refine ended.cons positive ?_ stops
  intro q m' positive' all same low
  exact continues q m' positive' (by rw [low]; exact all.area) same

variable (filename) in
theorem callsEnd_copyPlain (clear : m.page = fun _ => none) (isFs : m.fs = .user)
    (isArgs : ArrayAt w.user argv args) (isEnv : ArrayAt w.user envp env) :
    CallsEnd m.free initialP.toNat m (plainCalls args env) .user args.length
      ((copyPlain w filename argv envp args.length env.length).run m) := by
  have short : noLine.buf.length ≤ 128 := Nat.zero_le _
  refine CallsEnd.cons_user short isFs (area_empty clear) (by decide) isEnv.arguments ?_
    fun _ => rfl
  intro p m' positive area same
  refine CallsEnd.cons_user short same area positive isArgs.arguments ?_ fun _ => rfl
  intro p m' positive area same
  rw [← same]
  exact .nil area positive

end Plain

section Script

variable {w : World} {m : Machine} {filename argv envp : UInt32} {args env : List (List UInt8)}
variable {pages : Nat} {p : UInt32} {line : Line} {path : List UInt8}

/-- A call that copies one string, of which the pointer is in the frame. -/
theorem CallsEnd.cons_kernel (fromKmem : FromKmem) (offset : Nat) {calls : List (List UInt8)}
    {argc : Int} {pointer : UInt32} {string : List UInt8}
    {next : UInt32 → ExecM (UInt32 × Int)} (inKernel : fromKmem ≠ .neither)
    (wellFormed : line.WellFormed) (isFs : m.fs = .user)
    (area : m.Area pages p.toNat) (positive : p ≠ 0) (notNull : pointer ≠ 0) (small : offset ≤ 8)
    (lies : LiesAt (kernelMemory w filename line) (w.kernel.length + offset) (longBytes pointer))
    (isString : StringAt (segments w filename line (stringFs fromKmem .user)) pointer string)
    (continues : ∀ q m', q ≠ 0 → m'.Area pages q.toNat → m'.fs = .user →
      CallsEnd pages q.toNat m' calls .user argc ((next q).run m'))
    (stops : ∀ m', (next 0).run m' = .ok ((0, argc), m')) :
    CallsEnd pages p.toNat m (packed [string] :: calls) .user argc
      ((copyStrings (segments w filename line) 1 (UInt32.ofNat (w.kernel.length + offset)) p
        fromKmem >>= next).run m) := by
  have kernelLimit : w.kernel.length ≤ 0x4000000 := w.kernelLimit
  have address : (UInt32.ofNat (w.kernel.length + offset)).toNat = w.kernel.length + offset := by
    rw [UInt32.toNat_ofNat']
    omega
  have arrays : segments w filename line (arrayFs fromKmem .user) =
      kernelMemory w filename line := by
    rw [arrayFs, if_neg inKernel]
    rfl
  have arguments : ArgumentsAt (segments w filename line (arrayFs fromKmem m.fs))
      (segments w filename line (stringFs fromKmem m.fs))
      (UInt32.ofNat (w.kernel.length + offset)) [string] := by
    rw [isFs]
    intro i inside
    have first : i = 0 := by simpa using inside
    subst first
    refine ⟨pointer, notNull, ?_, isString⟩
    rw [arrays, address]
    exact lies
  have ended := ends_copyStrings (segments_limit wellFormed.length.le) area positive arguments
  rw [isFs] at ended
  refine ended.cons positive ?_ stops
  intro q m' positive' all same low
  exact continues q m' positive' (by rw [low]; exact all.area) same

/-- The calls for a script. -/
def scriptCalls (path : List UInt8) (args env : List (List UInt8)) (line : Line) :
    List (List UInt8) :=
  [packed env, packed args.tail, packed [path]] ++ line.arg.toList.map (fun arg => packed [arg]) ++
    [packed [line.name]]

/-- The arguments behind the first one, of which there are none when `argc` becomes negative. -/
theorem copyStrings_tail (memory : Fs → List UInt8) (argv p : UInt32) (fromKmem : FromKmem) :
    copyStrings memory ((args.length : Int) - 1) argv p fromKmem =
      copyStrings memory args.tail.length argv p fromKmem := by
  have same : ((args.length : Int) - 1).toNat = args.tail.length := by
    rw [List.length_tail]
    omega
  rw [copyStrings_toNat, same]

theorem callsEnd_copyScript (clear : m.page = fun _ => none) (isFs : m.fs = .user)
    (isArgs : ArrayAt w.user argv args) (isEnv : ArrayAt w.user envp env)
    (notNull : filename ≠ 0) (isPath : StringAt w.user filename path)
    (wellFormed : line.WellFormed) :
    CallsEnd m.free initialP.toNat m (scriptCalls path args env line) .user
      (args.length + 1 + line.arg.toList.length)
      ((copyScript w filename argv envp args.length env.length line).run m) := by
  have userLimit : w.user.length ≤ 0x4000000 := w.userLimit
  have kernelLimit : w.kernel.length ≤ 0x4000000 := w.kernelLimit
  have short := wellFormed.length.le
  have notZero (i : Nat) (inside : i < 128) :
      UInt32.ofNat (w.kernel.length + 12 + i) ≠ 0 := by
    intro zero
    have zero := congrArg UInt32.toNat zero
    rw [UInt32.toNat_ofNat'] at zero
    simp only [UInt32.reduceToNat] at zero
    omega
  -- The last call, with the name of the interpreter.
  have last (argc : Int) (p : UInt32) (m' : Machine) (positive : p ≠ 0)
      (area : m'.Area m.free p.toNat) (same : m'.fs = .user) :
      CallsEnd m.free p.toNat m' [packed [line.name]] .user argc
        ((do
          let p ← copyStrings (segments w filename line) 1 (UInt32.ofNat (w.kernel.length + 8)) p
            .both
          return (p, argc)).run m') := by
    refine CallsEnd.cons_kernel .both 8 (by decide) wellFormed same area positive
      (notZero _ wellFormed.iName) (by omega) liesAt_iName
      (stringAt_buf wellFormed wellFormed.iName) ?_ fun _ => rfl
    intro p m' positive area same
    rw [← same]
    exact .nil area positive
  unfold copyScript
  dsimp only
  cases isArg : line.iArg with
  | none =>
      have argc : (args.length : Int) + 1 + (line.arg.toList.length : Int) =
          args.length - 1 + 1 + 1 := by
        simp [Line.arg, isArg]
      have calls : scriptCalls path args env line =
          [packed env, packed args.tail, packed [path], packed [line.name]] := by
        simp [scriptCalls, Line.arg, isArg]
      rw [argc, calls]
      refine CallsEnd.cons_user short isFs (area_empty clear) (by decide) isEnv.arguments ?_
        fun _ => rfl
      intro p m' positive area same
      rw [copyStrings_tail]
      refine CallsEnd.cons_user short same area positive (isArgs.tail (by omega)) ?_ fun _ => rfl
      intro p m' positive area same
      refine CallsEnd.cons_kernel .array 0 (by decide) wellFormed same
        area positive notNull (by omega) liesAt_filename isPath ?_ fun _ => rfl
      intro p m' positive area same
      exact last _ p m' positive area same
  | some i =>
      have inside := (wellFormed.iArg i isArg).2
      have argc : (args.length : Int) + 1 + (line.arg.toList.length : Int) =
          args.length - 1 + 1 + 1 + 1 := by
        simp [Line.arg, isArg]
      have calls : scriptCalls path args env line =
          [packed env, packed args.tail, packed [path], packed [line.stringFrom i],
            packed [line.name]] := by
        simp [scriptCalls, Line.arg, isArg]
      rw [argc, calls]
      refine CallsEnd.cons_user short isFs (area_empty clear) (by decide) isEnv.arguments ?_
        fun _ => rfl
      intro p m' positive area same
      rw [copyStrings_tail]
      refine CallsEnd.cons_user short same area positive (isArgs.tail (by omega)) ?_ fun _ => rfl
      intro p m' positive area same
      refine CallsEnd.cons_kernel .array 0 (by decide) wellFormed same
        area positive notNull (by omega) liesAt_filename isPath ?_ fun _ => rfl
      intro p m' positive area same
      refine CallsEnd.cons_kernel .both 4 (by decide) wellFormed
        same area positive (notZero i inside) (by omega) (liesAt_iArg isArg)
        (stringAt_buf wellFormed inside) ?_ fun _ => rfl
      intro p m' positive area same
      exact last _ p m' positive area same

end Script

end Linux012.Exec
