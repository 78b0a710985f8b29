import Linux012.Exec.StringArea

/-!
# What `copy_strings` copies

The strings of an array go to the argument area in their order, each with its end.
-/

namespace Linux012.Exec

open Lib (longBytes LiesAt overwrite run_bind_of_ok)
open Machine

/-- The string at an address. -/
structure StringAt (segment : List UInt8) (address : UInt32) (string : List UInt8) : Prop where
  noEnd : 0 ∉ string
  lies : LiesAt segment address.toNat (string ++ [0])

/-- The pointers of the array at `argv` are to the strings. -/
def ArgumentsAt (arrays strings : List UInt8) (argv : UInt32) (args : List (List UInt8)) : Prop :=
  ∀ i (inside : i < args.length), ∃ pointer : UInt32, pointer ≠ 0 ∧
    LiesAt arrays (argv.toNat + 4 * i) (longBytes pointer) ∧ StringAt strings pointer args[i]

/-- The array at `argv` has the strings, and a null pointer behind them.  There may be none at all. -/
def ArrayAt (user : List UInt8) (argv : UInt32) (args : List (List UInt8)) : Prop :=
  argv = 0 ∧ args = [] ∨
    argv ≠ 0 ∧ ArgumentsAt user user argv args ∧
      LiesAt user (argv.toNat + 4 * args.length) (longBytes 0)

/-- The strings one behind the other, each with its end. -/
def packed (args : List (List UInt8)) : List UInt8 := args.flatMap (· ++ [0])

@[simp] theorem packed_nil : packed [] = [] := rfl

@[simp] theorem packed_cons (string : List UInt8) (args : List (List UInt8)) :
    packed (string :: args) = string ++ [0] ++ packed args := rfl

@[simp] theorem packed_append (args args' : List (List UInt8)) :
    packed (args ++ args') = packed args ++ packed args' :=
  List.flatMap_append

theorem packed_concat (args : List (List UInt8)) (string : List UInt8) :
    packed (args ++ [string]) = packed args ++ (string ++ [0]) := by
  simp

theorem packed_length_concat (args : List (List UInt8)) (string : List UInt8) :
    (packed args ++ (string ++ [0])).length = (packed args).length + (string.length + 1) := by
  simp

theorem ArgumentsAt.init {arrays strings : List UInt8} {argv : UInt32} {args args' : List (List UInt8)}
    (arguments : ArgumentsAt arrays strings argv (args ++ args')) :
    ArgumentsAt arrays strings argv args := by
  intro i inside
  obtain ⟨pointer, notNull, lies, isString⟩ :=
    arguments i (by rw [List.length_append]; omega)
  rw [List.getElem_append_left inside] at isString
  exact ⟨pointer, notNull, lies, isString⟩

section Reading

variable {memory : Fs → List UInt8} {m : Machine} {address word : UInt32} {byte : UInt8}

theorem run_getFsByte (isByte : (memory m.fs)[address.toNat]? = some byte) :
    (getFsByte memory address).run m = .ok (byte, m) := by
  simp [getFsByte, isByte]
  rfl

theorem run_getFsLong (lies : LiesAt (memory m.fs) address.toNat (longBytes word)) :
    (getFsLong memory address).run m = .ok (word, m) := by
  obtain ⟨b0, b1, b2, b3, split, isWord⟩ := lies.drop_eq
  simp [getFsLong, split, isWord]
  rfl

theorem lengthLoop_append {string rest : List UInt8} (noEnd : 0 ∉ string) :
    lengthLoop (string ++ 0 :: rest) = some (string.length + 1) := by
  induction string with
  | nil => rfl
  | cons byte string ih =>
      simp only [List.mem_cons, not_or] at noEnd
      simp only [List.cons_append, lengthLoop, if_neg (Ne.symm noEnd.1), ih noEnd.2]
      rfl

theorem StringAt.lengthLoop_eq {segment string : List UInt8} (isString : StringAt segment address string) :
    lengthLoop (segment.drop address.toNat) = some (string.length + 1) := by
  obtain ⟨rest, split⟩ := isString.lies
  rw [← split, List.append_assoc]
  exact lengthLoop_append isString.noEnd

theorem run_stringLength {string : List UInt8} (isString : StringAt (memory m.fs) address string) :
    (stringLength memory address).run m = .ok (string.length + 1, m) := by
  simp [stringLength, isString.lengthLoop_eq]
  rfl

theorem countLoop_eq {segment : List UInt8} {pos n : Nat}
    (pointers : ∀ i < n, ∃ word : UInt32, word ≠ 0 ∧ LiesAt segment (pos + 4 * i) (longBytes word))
    (ends : LiesAt segment (pos + 4 * n) (longBytes 0)) :
    countLoop (segment.drop pos) = some (n : Int) := by
  induction n generalizing pos with
  | zero =>
      obtain ⟨b0, b1, b2, b3, split, isWord⟩ := LiesAt.drop_eq ends
      rw [Nat.mul_zero, Nat.add_zero] at split
      rw [split, countLoop, if_pos isWord]
      rfl
  | succ n ih =>
      obtain ⟨word, notNull, lies⟩ := pointers 0 (by omega)
      obtain ⟨b0, b1, b2, b3, split, isWord⟩ := lies.drop_eq
      rw [Nat.mul_zero, Nat.add_zero] at split
      have rest : countLoop (segment.drop (pos + 4)) = some (n : Int) := by
        refine ih (fun i below => ?_) ?_
        · obtain ⟨word, notNull, lies⟩ := pointers (i + 1) (by omega)
          exact ⟨word, notNull, by rw [show pos + 4 + 4 * i = pos + 4 * (i + 1) by omega]; exact lies⟩
        · rw [show pos + 4 + 4 * n = pos + 4 * (n + 1) by omega]
          exact ends
      rw [split, countLoop, if_neg (by rw [isWord]; exact notNull), rest]
      simp

theorem run_count {argv : UInt32} {args : List (List UInt8)} (isArray : ArrayAt (memory m.fs) argv args) :
    (count memory argv).run m = .ok ((args.length : Int), m) := by
  rcases isArray with ⟨isNull, isNil⟩ | ⟨notNull, arguments, ends⟩
  · subst isNull isNil
    rfl
  · have counted := countLoop_eq (fun i inside => by
      obtain ⟨pointer, notNull, lies, _⟩ := arguments i inside
      exact ⟨pointer, notNull, lies⟩) ends
    simp [count, notNull, counted]
    rfl

theorem ArrayAt.arguments {user : List UInt8} {argv : UInt32} {args : List (List UInt8)}
    (isArray : ArrayAt user argv args) : ArgumentsAt user user argv args := by
  rcases isArray with ⟨_, isNil⟩ | ⟨_, arguments, _⟩
  · subst isNil
    intro i inside
    exact absurd inside (Nat.not_lt_zero i)
  · exact arguments

/-- The arguments behind the first one. -/
theorem ArrayAt.tail {user : List UInt8} {argv : UInt32} {args : List (List UInt8)}
    (limit : user.length < 2 ^ 32) (isArray : ArrayAt user argv args) :
    ArgumentsAt user user (argv + 4) args.tail := by
  intro i inside
  rw [List.length_tail] at inside
  rcases isArray with ⟨_, isNil⟩ | ⟨_, arguments, _⟩
  · rw [isNil] at inside
    exact absurd inside (Nat.not_lt_zero i)
  · obtain ⟨pointer, notNull, lies, isString⟩ := arguments (i + 1) (by omega)
    have fits := lies.end_le (by simp [longBytes])
    rw [Lib.length_longBytes] at fits
    have next : (argv + 4).toNat = argv.toNat + 4 := by
      rw [UInt32.toNat_add]
      simp only [UInt32.reduceToNat]
      omega
    refine ⟨pointer, notNull, ?_, ?_⟩
    · rw [next, show argv.toNat + 4 + 4 * i = argv.toNat + 4 * (i + 1) by omega]
      exact lies
    · rw [List.getElem_tail]
      exact isString

end Reading

section Copying

variable {memory : Fs → List UInt8} {fromKmem : FromKmem} {oldFs : Fs} {m : Machine}
variable {pages : Nat} {p tmp : UInt32} {offset : Int} {pag : Nat} {byte : UInt8}

variable (byte) in
theorem run_storeByte {q : Nat} (isPage : (m.page (q / 4096)).isSome) :
    ∃ m', (storeByte (q / 4096) (q % 4096 : Nat) byte).run m = .ok ((), m') ∧
      (∀ i, (m'.page i).isSome = (m.page i).isSome) ∧ m'.free = m.free ∧ m'.fs = m.fs ∧
      m.Rest m' ∧ m'.areaByte = overwrite m.areaByte q [byte] := by
  obtain ⟨page, isPage⟩ := Option.isSome_iff_exists.mp isPage
  refine ⟨_, rfl, ?_, rfl, rfl, rfl, ?_⟩
  · intro i
    by_cases here : i = q / 4096
    · subst here
      simp [isPage]
    · simp [Function.update_of_ne here]
  · rw [Lib.overwrite_singleton]
    funext r
    simp only [areaByte, Int.toNat_natCast]
    by_cases here : r / 4096 = q / 4096
    · by_cases same : r = q
      · subst same
        simp [isPage]
      · have other : r % 4096 ≠ q % 4096 := by omega
        rw [Function.update_of_ne same]
        simp [areaByte, here, isPage, Function.update_of_ne other]
    · have same : r ≠ q := fun same => here (by rw [same])
      rw [Function.update_of_ne same]
      simp [areaByte, Function.update_of_ne here]

/-- One byte is placed below the others. -/
theorem ends_copyByte (area : m.Area pages p.toNat) (aligned : Aligned p.toNat offset pag)
    (isFs : m.fs = stringFs fromKmem oldFs)
    (isByte : (memory m.fs)[(tmp - 1).toNat]? = some byte) :
    Ends pages p.toNat m [byte] oldFs (stringFs fromKmem oldFs)
      (fun result => ∃ offset pag, result = some (offset, pag) ∧
        Aligned (p.toNat - 1) offset pag)
      (fun result => result = none)
      ((copyByte memory fromKmem oldFs (p - 1) (tmp - 1) offset pag).run m) := by
  unfold copyByte
  rcases Nat.eq_zero_or_pos p.toNat with zero | positive
  · rw [Lib.run_bind_of_error (run_locate_overrun zero aligned)]
    have total := area.total
    rw [zero, pagesFor, if_pos (by omega)] at total
    exact .overrun (by rw [zero]; exact Nat.one_pos) (by omega)
  · rcases Nat.lt_or_ge pages (pagesFor (p.toNat - 1)) with few | enough
    · rw [run_bind_of_ok (run_locate_none area aligned isFs positive few)]
      exact .full few (q := p.toNat) ⟨area.low, area.present, area.total⟩ rfl rfl rfl
    · obtain ⟨m', ran, area', same, rest, fs⟩ :=
        run_locate_ok area aligned isFs positive enough
      have low := area.low
      have isPage : (m'.page ((p.toNat - 1) / 4096)).isSome := by
        rw [area'.present]
        omega
      obtain ⟨next, stored, present, free, fs', rest', bytes⟩ := run_storeByte byte isPage
      rw [← fs] at isByte
      rw [run_bind_of_ok ran]
      simp only []
      rw [run_bind_of_ok (run_getFsByte isByte), run_bind_of_ok stored]
      refine .placed ⟨positive, ⟨?_, ?_, ?_⟩, ?_, rest.trans rest'⟩ ?_ ⟨_, _, rfl, .inr ⟨?_, rfl, rfl⟩⟩
      · exact area'.low
      · intro i
        rw [present, area'.present]
        rfl
      · rw [free]
        exact area'.total
      · rw [bytes, same]
        rfl
      · rw [fs', fs, isFs]
      · omega

/-- One string is placed below the others. -/
theorem ends_copyBytes {bytes : List UInt8} (area : m.Area pages p.toNat)
    (aligned : Aligned p.toNat offset pag) (isFs : m.fs = stringFs fromKmem oldFs)
    (fits : bytes.length ≤ tmp.toNat)
    (lies : LiesAt (memory (stringFs fromKmem oldFs)) (tmp.toNat - bytes.length) bytes) :
    Ends pages p.toNat m bytes oldFs (stringFs fromKmem oldFs)
      (fun result => ∃ q offset pag, result = some (q, offset, pag) ∧
        q.toNat = p.toNat - bytes.length ∧ Aligned q.toNat offset pag)
      (fun result => result = none)
      ((copyBytes memory fromKmem oldFs bytes.length p tmp offset pag).run m) := by
  induction bytes using List.reverseRecOn generalizing m p tmp offset pag with
  | nil => exact .placed (.refl area) isFs ⟨p, offset, pag, rfl, rfl, aligned⟩
  | append_singleton bytes byte ih =>
      rw [List.length_append, List.length_singleton] at fits lies ⊢
      have tmpPos : 0 < tmp.toNat := by omega
      have isByte : (memory m.fs)[(tmp - 1).toNat]? = some byte := by
        have read := lies.getElem? (i := bytes.length) (by simp)
        rw [List.getElem?_concat_length] at read
        rw [isFs, ← read, toNat_sub_one tmpPos]
        congr 1
        omega
      rw [copyBytes]
      refine (ends_copyByte area aligned isFs isByte).bind ?_ ?_
      · rintro _ m' all same ⟨offset, pag, rfl, aligned'⟩
        have positive : 0 < p.toNat := all.le
        have low := toNat_sub_one positive
        have lower := toNat_sub_one tmpPos
        have area' : m'.Area pages (p - 1).toNat := by
          rw [low]
          exact all.area
        rw [← low] at aligned'
        have lies' : LiesAt (memory (stringFs fromKmem oldFs)) ((tmp - 1).toNat - bytes.length)
            bytes := by
          rw [lower, Nat.sub_sub, Nat.add_comm 1]
          exact lies.left
        have ended := ih area' aligned' same (by omega) lies'
        rw [low] at ended
        refine ended.weaken ?_ fun _ full => full
        rintro result ⟨q, offset, pag, isResult, isLow, aligned⟩
        exact ⟨q, offset, pag, isResult, by omega, aligned⟩
      · rintro _ m' _ rfl
        exact ⟨none, rfl, rfl⟩

/-- What `fs` selects while a pointer is read. -/
def arrayFs (fromKmem : FromKmem) (oldFs : Fs) : Fs :=
  if fromKmem = .neither then oldFs else .kernel

theorem run_stringPointer {argv pointer : UInt32} {argc : Nat}
    (isFs : m.fs = stringFs fromKmem oldFs) (notNull : pointer ≠ 0)
    (lies : LiesAt (memory (arrayFs fromKmem oldFs)) (argv + 4 * UInt32.ofNat argc).toNat
      (longBytes pointer)) :
    (stringPointer memory fromKmem oldFs argv argc).run m = .ok (pointer, m) := by
  unfold stringPointer
  cases fromKmem with
  | neither =>
      change m.fs = oldFs at isFs
      rw [← isFs] at lies
      simp only [reduceCtorEq, if_false]
      rw [run_bind_of_ok (run_getFsLong lies)]
      simp only [if_neg notNull]
      rfl
  | array =>
      change m.fs = oldFs at isFs
      simp only [if_true]
      rw [run_bind_of_ok (run_setFs .kernel), run_bind_of_ok (run_getFsLong lies)]
      simp only [if_neg notNull]
      rw [run_bind_of_ok (run_setFs oldFs), ← isFs]
      rfl
  | both =>
      change m.fs = .kernel at isFs
      have same : arrayFs .both oldFs = m.fs := isFs.symm
      rw [same] at lies
      simp only [reduceCtorEq, if_false]
      rw [run_bind_of_ok (run_getFsLong lies)]
      simp only [if_neg notNull]
      rfl

/-- The address of a pointer of the array. -/
theorem toNat_pointer {argv : UInt32} {argc : Nat} {segment : List UInt8} {word : UInt32}
    (limit : segment.length < 2 ^ 32) (lies : LiesAt segment (argv.toNat + 4 * argc) (longBytes word)) :
    (argv + 4 * UInt32.ofNat argc).toNat = argv.toNat + 4 * argc := by
  have inside := lies.end_le (by simp [longBytes])
  rw [Lib.length_longBytes] at inside
  rw [UInt32.toNat_add, UInt32.toNat_mul, UInt32.toNat_ofNat']
  simp only [UInt32.reduceToNat]
  omega

/-- All strings are placed below what is there. -/
theorem ends_copyLoop {argv : UInt32} {args : List (List UInt8)}
    (limit : ∀ fs, (memory fs).length < 2 ^ 32) (area : m.Area pages p.toNat)
    (aligned : Aligned p.toNat offset pag) (isFs : m.fs = stringFs fromKmem oldFs)
    (arguments : ArgumentsAt (memory (arrayFs fromKmem oldFs)) (memory (stringFs fromKmem oldFs))
      argv args) :
    Ends pages p.toNat m (packed args) oldFs oldFs
      (fun result => result.toNat = p.toNat - (packed args).length) (fun result => result = 0)
      ((copyLoop memory fromKmem oldFs argv args.length p offset pag).run m) := by
  induction args using List.reverseRecOn generalizing m p offset pag with
  | nil =>
      have returned : (copyLoop memory fromKmem oldFs argv 0 p offset pag).run m =
          .ok (p, { m with fs := oldFs }) := by
        cases fromKmem with
        | both => rfl
        | neither =>
            cases isFs
            rfl
        | array =>
            cases isFs
            rfl
      rw [List.length_nil, returned]
      exact .placed ⟨Nat.zero_le _, ⟨area.low, area.present, area.total⟩,
        Lib.overwrite_nil.symm, rfl⟩ rfl rfl
  | append_singleton args string ih =>
      obtain ⟨pointer, notNull, lies, isString⟩ := arguments args.length (by simp)
      rw [List.getElem_concat_length rfl] at isString
      rw [List.length_append, List.length_singleton, copyLoop]
      have address := toNat_pointer (limit _) lies
      rw [← address] at lies
      rw [run_bind_of_ok (run_stringPointer isFs notNull lies)]
      have readable : StringAt (memory m.fs) pointer string := by
        rw [isFs]
        exact isString
      rw [run_bind_of_ok (run_stringLength readable)]
      rw [if_neg (UInt32.not_lt_zero)]
      have inside := isString.lies.end_le (by simp)
      rw [List.length_append, List.length_singleton] at inside
      have behind : (pointer + UInt32.ofNat (string.length + 1)).toNat =
          pointer.toNat + (string ++ [0]).length := by
        have := limit (stringFs fromKmem oldFs)
        rw [UInt32.toNat_add, UInt32.toNat_ofNat', List.length_append, List.length_singleton]
        omega
      have lies : LiesAt (memory (stringFs fromKmem oldFs))
          ((pointer + UInt32.ofNat (string.length + 1)).toNat - (string ++ [0]).length)
          (string ++ [0]) := by
        rw [behind, Nat.add_sub_cancel]
        exact isString.lies
      have copied := ends_copyBytes area aligned isFs (by omega) lies
      have len : (string ++ [0]).length = string.length + 1 := by simp
      rw [len] at copied
      rw [packed_concat]
      refine copied.bind ?_ ?_
      · rintro _ m' all same ⟨q, offset, pag, rfl, isLow, aligned'⟩
        rw [← len] at isLow
        have fewer : ArgumentsAt (memory (arrayFs fromKmem oldFs))
            (memory (stringFs fromKmem oldFs)) argv args := arguments.init
        have ended := ih (by rw [isLow]; exact all.area) aligned' same fewer
        rw [isLow] at ended
        refine ended.weaken ?_ fun _ full => full
        intro result isResult
        rw [packed_length_concat]
        omega
      · rintro _ m' _ rfl
        exact ⟨0, rfl, rfl⟩

/-- A call of `copy_strings` places its strings below what is there. -/
theorem ends_copyStrings {argv : UInt32} {args : List (List UInt8)}
    (limit : ∀ fs, (memory fs).length < 2 ^ 32) (area : m.Area pages p.toNat) (positive : p ≠ 0)
    (arguments : ArgumentsAt (memory (arrayFs fromKmem m.fs)) (memory (stringFs fromKmem m.fs))
      argv args) :
    Ends pages p.toNat m (packed args) m.fs m.fs
      (fun result => result.toNat = p.toNat - (packed args).length) (fun result => result = 0)
      ((copyStrings memory args.length argv p fromKmem).run m) := by
  have begun : (copyStrings memory args.length argv p fromKmem).run m =
      (copyLoop memory fromKmem m.fs argv args.length p 0 0).run
        { m with fs := stringFs fromKmem m.fs } := by
    unfold copyStrings
    rw [if_neg positive]
    cases fromKmem <;> rfl
  have area' : Area { m with fs := stringFs fromKmem m.fs } pages p.toNat :=
    ⟨area.low, area.present, area.total⟩
  have aligned : Aligned p.toNat 0 0 := .inl rfl
  rw [begun]
  exact (ends_copyLoop limit area' aligned rfl arguments).of_fs

end Copying

end Linux012.Exec
