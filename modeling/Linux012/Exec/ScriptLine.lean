import Mathlib.Data.List.DropRight
import Linux012.Exec.Copies
import Linux012.Exec.Execve

/-!
# The first line of a script

The strings that are found in it, and where they lie in the memory of the kernel.
-/

namespace Linux012.Exec

open Lib (longBytes LiesAt)

namespace Line

/-- The string in `buf` from `i` on. -/
def stringFrom (line : Line) (i : Nat) : List UInt8 := (line.buf.drop i).takeWhile (· ≠ 0)

/-- The name by which the interpreter is called. -/
def name (line : Line) : List UInt8 := line.stringFrom line.iName

/-- The argument of the interpreter in the line. -/
def arg (line : Line) : Option (List UInt8) := line.iArg.map line.stringFrom

/-- `buf` has 128 bytes of which the last one is zero, and the strings begin in it. -/
structure WellFormed (line : Line) : Prop where
  length : line.buf.length = 128
  last : line.buf[127]? = some 0
  interp : line.interp < 128
  iName : line.iName < 128
  iArg : ∀ i ∈ line.iArg, 0 < i ∧ i < 128

end Line

theorem length_strncpy (src : List UInt8) (count : Nat) : (strncpy src count).length = count := by
  have le : ((src.take count).takeWhile (· ≠ 0)).length ≤ count :=
    (List.takeWhile_prefix _).length_le.trans (List.length_take_le count src)
  simp only [strncpy, List.length_append, List.length_replicate]
  omega

/-- The bytes of a name. -/
def isName (byte : UInt8) : Bool := !(byte = 0 || isBlank byte)

/-- What is behind the last `'/'`. -/
def basename (path : List UInt8) : List UInt8 := path.rtakeWhile (· ≠ 47)

theorem length_basename_le (path : List UInt8) : (basename path).length ≤ path.length :=
  (List.rtakeWhile_suffix _ path).length_le

/-- The loop goes over the whole name, and finds what is behind its last `'/'`.  It has gone over
`done` before. -/
theorem nameLoop_eq (rest done : List UInt8) (start : Nat) :
    nameLoop rest (start + done.length) (start + done.length - (basename done).length) =
      (start + (done ++ rest.takeWhile isName).length,
        start + (done ++ rest.takeWhile isName).length -
          (basename (done ++ rest.takeWhile isName)).length) := by
  induction rest generalizing done with
  | nil => simp [nameLoop]
  | cons byte rest ih =>
      rw [nameLoop]
      by_cases isEnd : byte = 0 ∨ isBlank byte
      · have notName : ¬isName byte = true := by
          rcases isEnd with isZero | isBlank
          · simp [isName, isZero]
          · simp [isName, isBlank]
        rw [if_pos isEnd, List.takeWhile_cons_of_neg notName, List.append_nil]
      · have inName : isName byte = true := by
          simpa [isName] using isEnd
        rw [if_neg isEnd, List.takeWhile_cons_of_pos inName]
        have next := ih (done ++ [byte])
        have split : done ++ byte :: rest.takeWhile isName =
            done ++ [byte] ++ rest.takeWhile isName := by simp
        rw [split, ← next, List.length_append, List.length_singleton, Nat.add_assoc]
        congr 1
        have le := length_basename_le done
        by_cases isSlash : byte = 47
        · simp [basename, isSlash]
        · simp only [basename, List.rtakeWhile_concat, isSlash, decide_not, decide_false,
            Bool.not_false, if_true, List.length_append, List.length_singleton, if_false]
          omega

/-- The loop from the beginning of the name. -/
theorem nameLoop_start (rest : List UInt8) (start : Nat) :
    nameLoop rest start start = (start + (rest.takeWhile isName).length,
      start + (rest.takeWhile isName).length - (basename (rest.takeWhile isName)).length) := by
  have whole := nameLoop_eq rest [] start
  simpa [basename] using whole

/-- A byte that ends the name, in a list with a zero byte. -/
theorem length_takeWhile_lt {bytes : List UInt8} {test : UInt8 → Bool} (isEnd : test 0 = false)
    (zero : 0 ∈ bytes) : (bytes.takeWhile test).length < bytes.length := by
  refine lt_of_le_of_ne (List.takeWhile_prefix _).length_le fun same => ?_
  have all := (List.takeWhile_prefix test).eq_of_length same
  have holds := List.mem_takeWhile_imp (by rw [all]; exact zero)
  rw [isEnd] at holds
  cases holds

/-- `buf` as it is when the line has been cut. -/
structure Cut (buf : List UInt8) : Prop where
  length : buf.length = 128
  last : buf[127]? = some 0

theorem cut_of_cutLine {block buf : List UInt8} (isCut : cutLine block = some buf) : Cut buf := by
  unfold cutLine at isCut
  rw [Option.map_eq_some_iff] at isCut
  obtain ⟨newline, _, isBuf⟩ := isCut
  subst isBuf
  constructor
  · simp [length_strncpy]
  · rw [List.getElem?_set]
    split
    · rw [if_pos (by simp [length_strncpy]; omega)]
    · rw [List.getElem?_append_right (by rw [length_strncpy]), length_strncpy]
      rfl

theorem Cut.zero_mem_drop {buf : List UInt8} (cut : Cut buf) {i : Nat} (inside : i < 128) :
    0 ∈ buf.drop i := by
  have read : (buf.drop i)[127 - i]? = some 0 := by
    rw [List.getElem?_drop, show i + (127 - i) = 127 by omega]
    exact cut.last
  exact List.mem_of_getElem? read

/-- Where the name of the interpreter begins, and the name. -/
theorem Cut.begin_lt {buf : List UInt8} (cut : Cut buf) : (buf.takeWhile isBlank).length < 128 := by
  have zero : 0 ∈ buf := cut.zero_mem_drop (i := 0) (by omega)
  rw [← cut.length]
  exact length_takeWhile_lt rfl zero

theorem Cut.end_lt {buf : List UInt8} (cut : Cut buf) {cp : Nat} (inside : cp < 128) :
    cp + ((buf.drop cp).takeWhile isName).length < 128 := by
  have below := length_takeWhile_lt (rfl : isName 0 = false) (cut.zero_mem_drop inside)
  rw [List.length_drop, cut.length] at below
  omega

/-- What is found in the line is inside of `buf`. -/
theorem wellFormed_of_parseBuf {buf : List UInt8} {line : Line} (cut : Cut buf)
    (parsed : parseBuf buf = some line) : line.WellFormed := by
  unfold parseBuf at parsed
  simp only [nameLoop_start] at parsed
  have begins := cut.begin_lt
  have ends := cut.end_lt begins
  generalize (buf.takeWhile isBlank).length = cp at parsed begins ends
  generalize (buf.drop cp).takeWhile isName = word at parsed ends
  split at parsed
  · cases parsed
  split at parsed
  · cases parsed
    exact ⟨cut.length, cut.last, begins, by simp only; omega, by simp⟩
  · rename_i notEnd
    cases parsed
    have notLast : cp + word.length ≠ 127 := fun isLast => notEnd (by rw [isLast]; exact cut.last)
    refine ⟨?_, ?_, begins, by simp only; omega, ?_⟩
    · rw [List.length_set]
      exact cut.length
    · rw [List.getElem?_set_ne (by omega)]
      exact cut.last
    · intro i isArg
      cases isArg
      omega

theorem wellFormed_of_parseLine {block : List UInt8} {line : Line}
    (parsed : parseLine block = some line) : line.WellFormed := by
  obtain ⟨buf, isCut, parsed⟩ := Option.bind_eq_some_iff.mp parsed
  exact wellFormed_of_parseBuf (cut_of_cutLine isCut) parsed

/-! ## The frame in the memory of the kernel -/

section Kernel

variable {w : World} {filename : UInt32} {line : Line}

theorem liesAt_middle (before part after : List UInt8) :
    LiesAt (before ++ part ++ after) before.length part := by
  unfold LiesAt
  rw [List.append_assoc, List.drop_left]
  exact List.prefix_append part after

theorem liesAt_filename :
    LiesAt (kernelMemory w filename line) w.kernel.length (longBytes filename) := by
  simp only [kernelMemory, List.append_assoc]
  rw [← List.append_assoc]
  exact liesAt_middle _ _ _

theorem liesAt_iArg {i : Nat} (isArg : line.iArg = some i) :
    LiesAt (kernelMemory w filename line) (w.kernel.length + 4)
      (longBytes (UInt32.ofNat (w.kernel.length + 12 + i))) := by
  have lies := liesAt_middle (w.kernel ++ longBytes filename)
    (longBytes (UInt32.ofNat (w.kernel.length + 12 + i)))
    (longBytes (UInt32.ofNat (w.kernel.length + 12 + line.iName)) ++ line.buf)
  rw [List.length_append, Lib.length_longBytes] at lies
  simpa [kernelMemory, isArg] using lies

theorem liesAt_iName :
    LiesAt (kernelMemory w filename line) (w.kernel.length + 8)
      (longBytes (UInt32.ofNat (w.kernel.length + 12 + line.iName))) := by
  have lies := liesAt_middle (w.kernel ++ longBytes filename ++
      longBytes (UInt32.ofNat ((line.iArg.map (w.kernel.length + 12 + ·)).getD 0)))
    (longBytes (UInt32.ofNat (w.kernel.length + 12 + line.iName))) line.buf
  simp only [List.length_append, Lib.length_longBytes] at lies
  exact lies

theorem drop_kernelMemory (i : Nat) :
    (kernelMemory w filename line).drop (w.kernel.length + 12 + i) = line.buf.drop i := by
  rw [← List.drop_drop]
  congr 1
  unfold kernelMemory
  simp only []
  rw [List.drop_append_of_le_length (by simp), List.drop_of_length_le (by simp), List.nil_append]

theorem takeWhile_prefix_end {bytes : List UInt8} (zero : 0 ∈ bytes) :
    bytes.takeWhile (· ≠ 0) ++ [0] <+: bytes := by
  induction bytes with
  | nil => cases zero
  | cons byte bytes ih =>
      by_cases isZero : byte = 0
      · simp [isZero]
      · have inTail : 0 ∈ bytes := by
          rcases List.mem_cons.mp zero with isZero' | inTail
          · exact absurd isZero'.symm isZero
          · exact inTail
        rw [List.takeWhile_cons_of_pos (by simpa using isZero), List.cons_append]
        exact (List.cons_prefix_cons).mpr ⟨rfl, ih inTail⟩

/-- The strings in `buf`, in the memory of the kernel. -/
theorem stringAt_buf (wellFormed : line.WellFormed) {i : Nat} (inside : i < 128) :
    StringAt (kernelMemory w filename line) (UInt32.ofNat (w.kernel.length + 12 + i))
      (line.stringFrom i) := by
  have kernelLimit : w.kernel.length ≤ 0x4000000 := w.kernelLimit
  have address : (UInt32.ofNat (w.kernel.length + 12 + i)).toNat = w.kernel.length + 12 + i := by
    rw [UInt32.toNat_ofNat']
    omega
  have cut : Cut line.buf := ⟨wellFormed.length, wellFormed.last⟩
  constructor
  · intro zero
    simpa using List.mem_takeWhile_imp zero
  · rw [address, LiesAt, drop_kernelMemory]
    exact takeWhile_prefix_end (cut.zero_mem_drop inside)

end Kernel

end Linux012.Exec
