import Linux012.Kernel.Number

/-!
# Scanning a format

`vsprintf` of `vsprintf.c` with its pointer into the format.  The memory is the format and its NUL
and nothing else, so that a read behind the NUL has no result.
-/

namespace Linux012.Kernel.FormatScan

open Vsprintf (Flags Args ch isDigit cString setFlag)
open Number (number)
open Lib (int32_pos_iff toInt_sub_one)

/-! ## The scanner -/

/-- `skip_atoi`, with its pointer. -/
def skipAtoi (memory : List UInt8) (i : Int32) (fmt : Nat) : Option (Int32 × Nat) :=
  match _isByte : memory[fmt]? with
  | none => none
  | some c =>
      if isDigit c then skipAtoi memory (i * 10 + Int32.ofNat c.toNat - 48) (fmt + 1)
      else some (i, fmt)
termination_by memory.length - fmt
decreasing_by
  have := (List.getElem?_eq_some_iff.mp _isByte).1
  omega

/-- "process flags"; the first step "also skips first '%'". -/
def processFlags (memory : List UInt8) (flags : Flags) (fmt : Nat) : Option (Flags × Nat) :=
  match _isByte : memory[fmt + 1]? with
  | none => none
  | some c =>
      match setFlag flags c with
      | some flags => processFlags memory flags (fmt + 1)
      | none => some (flags, fmt + 1)
termination_by memory.length - fmt
decreasing_by
  have := (List.getElem?_eq_some_iff.mp _isByte).1
  omega

/-- "get field width". -/
def getWidth (memory : List UInt8) (args : Args) (flags : Flags) (fmt next : Nat) :
    Option (Flags × Int32 × Nat × Nat) := do
  let c ← memory[fmt]?
  if isDigit c then
    let (width, fmt) ← skipAtoi memory 0 fmt
    return (flags, width, fmt, next)
  else if c = ch '*' then
    let width := (args.word next).toInt32
    if width < 0 then return ({ flags with left := true }, -width, fmt + 1, next + 1)
    else return (flags, width, fmt + 1, next + 1)
  else return (flags, -1, fmt, next)

/-- The number behind the point; there need not be one. -/
def getPoint (memory : List UInt8) (args : Args) (fmt next : Nat) : Option (Int32 × Nat × Nat) := do
  let c ← memory[fmt]?
  if isDigit c then
    let (precision, fmt) ← skipAtoi memory 0 fmt
    return (precision, fmt, next)
  else if c = ch '*' then return ((args.word next).toInt32, fmt + 1, next + 1)
  else return (-1, fmt, next)

/-- "get the precision". -/
def getPrecision (memory : List UInt8) (args : Args) (fmt next : Nat) :
    Option (Int32 × Nat × Nat) := do
  let c ← memory[fmt]?
  if c = ch '.' then
    let (precision, fmt, next) ← getPoint memory args (fmt + 1) next
    return (if precision < 0 then 0 else precision, fmt, next)
  else return (-1, fmt, next)

/-- "get the conversion qualifier". -/
def getQualifier (memory : List UInt8) (fmt : Nat) : Option Nat := do
  let c ← memory[fmt]?
  if c = ch 'h' ∨ c = ch 'l' ∨ c = ch 'L' then return fmt + 1 else return fmt

/-! ## The conversions -/

/-- `while (--field_width > 0) *str++ = ' '`, and what the width is behind it. -/
def spacesWhile (width : Int32) : List UInt8 × Int32 :=
  if 0 < width - 1 then
    let (str, width) := spacesWhile (width - 1)
    (ch ' ' :: str, width)
  else ([], width - 1)
termination_by (width - 1).toInt.toNat
decreasing_by
  have positive := int32_pos_iff.mp ‹0 < width - 1›
  have isPred := @toInt_sub_one (width - 1) (by omega)
  omega

/-- `while (len < field_width--) *str++ = ' '`, and what the width is behind it. -/
def lengthWhile (len width : Int32) : List UInt8 × Int32 :=
  if len < width then
    let (str, width) := lengthWhile len (width - 1)
    (ch ' ' :: str, width)
  else ([], width - 1)
termination_by (width.toInt - len.toInt).toNat
decreasing_by
  have less := Int32.lt_iff_toInt_lt.mp ‹len < width›
  have low := len.le_toInt
  rw [toInt_sub_one (by omega)]
  omega

/-- `%c`. -/
def writeChar (flags : Flags) (width : Int32) (arg : UInt32) : List UInt8 :=
  let (before, width) := if !flags.left then spacesWhile width else ([], width)
  before ++ [UInt8.ofNat arg.toNat] ++ (spacesWhile width).1

/-- `%s`. -/
def writeString (flags : Flags) (width precision : Int32) (s : List UInt8) : List UInt8 :=
  let len := Int32.ofNat s.length
  let len := if precision < 0 then len else if precision < len then precision else len
  let (before, width) := if !flags.left then lengthWhile len width else ([], width)
  before ++ s.take len.toInt.toNat ++ (lengthWhile len width).1

/-- The string written so far, the number of the next argument, and what `%n` has stored. -/
structure Out where
  str : List UInt8
  next : Nat
  stores : List (UInt32 × Nat)
  deriving DecidableEq, Repr

/-- What a conversion with an argument writes, when the character asks for one. -/
def converted (args : Args) (flags : Flags) (width precision : Int32) (arg : UInt32) (c : UInt8) :
    Option (Option (List UInt8)) :=
  if c = ch 'c' then some (some (writeChar flags width arg))
  else if c = ch 's' then
    some (some (writeString flags width precision (cString (args.memory arg))))
  else if c = ch 'o' then some (number arg.toInt32 8 width precision flags)
  else if c = ch 'p' then
    if width = -1 then some (number arg.toInt32 16 8 precision { flags with zeropad := true })
    else some (number arg.toInt32 16 width precision flags)
  else if c = ch 'x' then some (number arg.toInt32 16 width precision { flags with small := true })
  else if c = ch 'X' then some (number arg.toInt32 16 width precision flags)
  else if c = ch 'd' ∨ c = ch 'i' then
    some (number arg.toInt32 10 width precision { flags with sign := true })
  else if c = ch 'u' then some (number arg.toInt32 10 width precision flags)
  else none

/-- The `switch` on `*fmt`, and where `fmt` is behind it. -/
def convert (args : Args) (flags : Flags) (width precision : Int32) (c : UInt8) (fmt : Nat)
    (out : Out) : Option (Nat × Out) :=
  let arg := args.word out.next
  match converted args flags width precision arg c with
  | some bytes => do
      let bytes ← bytes
      return (fmt, { out with str := out.str ++ bytes, next := out.next + 1 })
  | none =>
      if c = ch 'n' then
        some (fmt, { out with
          next := out.next + 1
          stores := out.stores ++ [(arg, out.str.length)] })
      else
        let str := if c ≠ ch '%' then out.str ++ [ch '%'] else out.str
        if c ≠ 0 then some (fmt, { out with str := str ++ [c] })
        else some (fmt - 1, { out with str })

/-- A conversion from its `%` on. -/
def directive (memory : List UInt8) (args : Args) (fmt : Nat) (out : Out) : Option (Nat × Out) := do
  let (flags, fmt) ← processFlags memory {} fmt
  let (flags, width, fmt, next) ← getWidth memory args flags fmt out.next
  let (precision, fmt, next) ← getPrecision memory args fmt next
  let fmt ← getQualifier memory fmt
  let c ← memory[fmt]?
  convert args flags width precision c fmt { out with next }

/-- The loop of `vsprintf`; `fuel` bounds its rounds. -/
def vsprintfFrom (memory : List UInt8) (args : Args) : (fuel : Nat) → Nat → Out → Option Out
  | 0, _, _ => none
  | fuel + 1, fmt, out => do
      let c ← memory[fmt]?
      if c = 0 then return out
      else if c ≠ ch '%' then
        vsprintfFrom memory args fuel (fmt + 1) { out with str := out.str ++ [c] }
      else
        let (fmt, out) ← directive memory args fmt out
        vsprintfFrom memory args fuel (fmt + 1) out

/-- `vsprintf`: what is in the buffer, and what is returned. -/
def vsprintf (memory : List UInt8) (args : Args) : Option (List UInt8 × Nat) := do
  let out ← vsprintfFrom memory args memory.length 0 ⟨[], 0, []⟩
  return (out.str ++ [0], out.str.length)

/-! ## What a format means -/

/-- A flag. -/
def isFlag (c : UInt8) : Bool := (setFlag {} c).isSome

/-- A format behind digits or an asterisk. -/
def behindNumber : List UInt8 → List UInt8
  | [] => []
  | c :: fmt =>
      if isDigit c then (c :: fmt).dropWhile isDigit else if c = ch '*' then fmt else c :: fmt

/-- A format behind a precision. -/
def behindPrecision : List UInt8 → List UInt8
  | [] => []
  | c :: fmt => if c = ch '.' then behindNumber fmt else c :: fmt

/-- A format behind a qualifier. -/
def behindQualifier : List UInt8 → List UInt8
  | [] => []
  | c :: fmt => if c = ch 'h' ∨ c = ch 'l' ∨ c = ch 'L' then fmt else c :: fmt

/-- What is behind a conversion, of which the `%` is read already. -/
def behindDirective (fmt : List UInt8) : List UInt8 :=
  (behindQualifier (behindPrecision (behindNumber (fmt.dropWhile isFlag)))).tail

/-- A format and what is written for it: each byte between the conversions once and in order, and
something for each conversion. -/
inductive Copies : (fmt str : List UInt8) → Prop where
  | nil : Copies [] []
  | byte {c : UInt8} {fmt str : List UInt8} (plain : c ≠ ch '%') (rest : Copies fmt str) :
      Copies (c :: fmt) (c :: str)
  | directive {fmt bytes str : List UInt8} (rest : Copies (behindDirective fmt) str) :
      Copies (ch '%' :: fmt) (bytes ++ str)

theorem Copies.eq_self {fmt str : List UInt8} (copies : Copies fmt str) (plain : ch '%' ∉ fmt) :
    str = fmt := by
  induction copies with
  | nil => rfl
  | byte _ _ ih => rw [ih fun member => plain (List.mem_cons_of_mem _ member)]
  | directive _ _ => exact absurd List.mem_cons_self plain

/-! ## The pointer stays within the format -/

/-- The pointer is at this rest of the format, or at its NUL. -/
def At (text : List UInt8) (fmt : Nat) (rest : List UInt8) : Prop :=
  fmt ≤ text.length ∧ text.drop fmt = rest

section Pointer

variable {text rest : List UInt8} {fmt next : Nat} {c : UInt8} {args : Args} {flags : Flags}

theorem At.read_cons (pos : At text fmt (c :: rest)) :
    (text ++ [0])[fmt]? = some c ∧ At text (fmt + 1) rest := by
  obtain ⟨within, isRest⟩ := pos
  have isByte : text[fmt]? = some c := by
    rw [← List.head?_drop, isRest]
    rfl
  have less := (List.getElem?_eq_some_iff.mp isByte).1
  refine ⟨by rw [List.getElem?_append_left less, isByte], less, ?_⟩
  rw [← List.tail_drop, isRest]
  rfl

theorem At.mem (pos : At text fmt (c :: rest)) : c ∈ text :=
  List.mem_of_mem_drop (pos.2 ▸ List.mem_cons_self)

theorem At.read_nil (pos : At text fmt []) : (text ++ [0])[fmt]? = some 0 := by
  obtain ⟨within, isRest⟩ := pos
  have isEnd : fmt = text.length := by
    have := List.drop_eq_nil_iff.mp isRest
    omega
  rw [isEnd, List.getElem?_append_right (le_refl _), Nat.sub_self]
  rfl

theorem skipAtoi_of_read {memory : List UInt8} {i : Int32} (read : memory[fmt]? = some c) :
    skipAtoi memory i fmt =
      if isDigit c then skipAtoi memory (i * 10 + Int32.ofNat c.toNat - 48) (fmt + 1)
      else some (i, fmt) := by
  rw [skipAtoi]
  split
  next none => cases none.symm.trans read
  next other =>
    cases other.symm.trans read
    rfl

theorem processFlags_of_read {memory : List UInt8} (read : memory[fmt + 1]? = some c) :
    processFlags memory flags fmt =
      match setFlag flags c with
      | some flags => processFlags memory flags (fmt + 1)
      | none => some (flags, fmt + 1) := by
  rw [processFlags]
  split
  next none => cases none.symm.trans read
  next other =>
    cases other.symm.trans read
    rfl

theorem skipAtoi_at {i : Int32} (pos : At text fmt rest) :
    ∃ i' fmt', skipAtoi (text ++ [0]) i fmt = some (i', fmt') ∧
      At text fmt' (rest.dropWhile isDigit) := by
  induction rest generalizing i fmt with
  | nil => exact ⟨i, fmt, by rw [skipAtoi_of_read pos.read_nil]; rfl, pos⟩
  | cons c rest ih =>
      obtain ⟨read, next⟩ := pos.read_cons
      rw [skipAtoi_of_read read]
      by_cases digit : isDigit c
      · rw [if_pos digit, List.dropWhile_cons_of_pos digit]
        exact ih next
      · rw [if_neg digit, List.dropWhile_cons_of_neg digit]
        exact ⟨i, fmt, rfl, pos⟩

/-- Which characters are flags does not depend on the flags before them. -/
theorem setFlag_isSome : (setFlag flags c).isSome = isFlag c := by
  rw [isFlag, setFlag, setFlag]
  repeat' split
  all_goals rfl

theorem processFlags_at (pos : At text (fmt + 1) rest) :
    ∃ flags' fmt', processFlags (text ++ [0]) flags fmt = some (flags', fmt') ∧
      At text fmt' (rest.dropWhile isFlag) := by
  induction rest generalizing flags fmt with
  | nil => exact ⟨flags, fmt + 1, by rw [processFlags_of_read pos.read_nil]; rfl, pos⟩
  | cons c rest ih =>
      obtain ⟨read, next⟩ := pos.read_cons
      have isSome := @setFlag_isSome c flags
      rw [processFlags_of_read read]
      cases set : setFlag flags c with
      | none =>
          rw [set] at isSome
          have notFlag : ¬isFlag c = true := by simp [← isSome]
          rw [List.dropWhile_cons_of_neg notFlag]
          exact ⟨flags, fmt + 1, rfl, pos⟩
      | some flags' =>
          rw [set] at isSome
          rw [List.dropWhile_cons_of_pos isSome.symm]
          exact ih next

theorem getWidth_at (pos : At text fmt rest) :
    ∃ flags' width fmt' next',
      getWidth (text ++ [0]) args flags fmt next = some (flags', width, fmt', next') ∧
        At text fmt' (behindNumber rest) := by
  cases rest with
  | nil =>
      refine ⟨flags, -1, fmt, next, ?_, pos⟩
      rw [getWidth, pos.read_nil]
      rfl
  | cons c rest =>
      obtain ⟨read, behind⟩ := pos.read_cons
      rw [getWidth, read, Option.bind_eq_bind, Option.bind_some, behindNumber]
      by_cases digit : isDigit c
      · obtain ⟨width, fmt', found, pos'⟩ := @skipAtoi_at text (c :: rest) fmt 0 pos
        rw [if_pos digit, if_pos digit, found]
        exact ⟨flags, width, fmt', next, rfl, pos'⟩
      · rw [if_neg digit, if_neg digit]
        by_cases star : c = ch '*'
        · rw [if_pos star, if_pos star]
          dsimp only
          split
          · exact ⟨_, _, fmt + 1, _, rfl, behind⟩
          · exact ⟨_, _, fmt + 1, _, rfl, behind⟩
        · rw [if_neg star, if_neg star]
          exact ⟨flags, -1, fmt, next, rfl, pos⟩

theorem getPoint_at (pos : At text fmt rest) :
    ∃ precision fmt' next',
      getPoint (text ++ [0]) args fmt next = some (precision, fmt', next') ∧
        At text fmt' (behindNumber rest) := by
  cases rest with
  | nil =>
      refine ⟨-1, fmt, next, ?_, pos⟩
      rw [getPoint, pos.read_nil]
      rfl
  | cons c rest =>
      obtain ⟨read, behind⟩ := pos.read_cons
      rw [getPoint, read, Option.bind_eq_bind, Option.bind_some, behindNumber]
      by_cases digit : isDigit c
      · obtain ⟨precision, fmt', found, pos'⟩ := @skipAtoi_at text (c :: rest) fmt 0 pos
        rw [if_pos digit, if_pos digit, found]
        exact ⟨precision, fmt', next, rfl, pos'⟩
      · rw [if_neg digit, if_neg digit]
        by_cases star : c = ch '*'
        · rw [if_pos star, if_pos star]
          exact ⟨_, fmt + 1, next + 1, rfl, behind⟩
        · rw [if_neg star, if_neg star]
          exact ⟨-1, fmt, next, rfl, pos⟩

theorem getPrecision_at (pos : At text fmt rest) :
    ∃ precision fmt' next',
      getPrecision (text ++ [0]) args fmt next = some (precision, fmt', next') ∧
        At text fmt' (behindPrecision rest) := by
  cases rest with
  | nil =>
      refine ⟨-1, fmt, next, ?_, pos⟩
      rw [getPrecision, pos.read_nil]
      rfl
  | cons c rest =>
      obtain ⟨read, behind⟩ := pos.read_cons
      rw [getPrecision, read, Option.bind_eq_bind, Option.bind_some, behindPrecision]
      by_cases dot : c = ch '.'
      · obtain ⟨precision, fmt', next', found, pos'⟩ :=
          @getPoint_at text rest (fmt + 1) next args behind
        rw [if_pos dot, if_pos dot, found]
        exact ⟨_, fmt', next', rfl, pos'⟩
      · rw [if_neg dot, if_neg dot]
        exact ⟨-1, fmt, next, rfl, pos⟩

theorem getQualifier_at (pos : At text fmt rest) :
    ∃ fmt', getQualifier (text ++ [0]) fmt = some fmt' ∧ At text fmt' (behindQualifier rest) := by
  cases rest with
  | nil =>
      refine ⟨fmt, ?_, pos⟩
      rw [getQualifier, pos.read_nil]
      rfl
  | cons c rest =>
      obtain ⟨read, behind⟩ := pos.read_cons
      rw [getQualifier, read, Option.bind_eq_bind, Option.bind_some, behindQualifier]
      by_cases qualifier : c = ch 'h' ∨ c = ch 'l' ∨ c = ch 'L'
      · rw [if_pos qualifier, if_pos qualifier]
        exact ⟨fmt + 1, rfl, behind⟩
      · rw [if_neg qualifier, if_neg qualifier]
        exact ⟨fmt, rfl, pos⟩

/-- Each conversion that asks for an argument writes something. -/
theorem converted_isSome {width precision : Int32} {arg : UInt32} {bytes : Option (List UInt8)}
    (found : converted args flags width precision arg c = some bytes) : bytes.isSome := by
  rw [converted] at found
  repeat' split at found
  all_goals cases found
  all_goals rfl

theorem convert_at {width precision : Int32} {out : Out} (pos : At text fmt rest)
    (notEmpty : text ≠ []) (noZero : 0 ∉ text) :
    ∃ c bytes fmt' next' stores', (text ++ [0])[fmt]? = some c ∧
      convert args flags width precision c fmt out =
        some (fmt', ⟨out.str ++ bytes, next', stores'⟩) ∧
      At text (fmt' + 1) rest.tail := by
  cases rest with
  | nil =>
      have isEnd : fmt - 1 + 1 = fmt := by
        have within := pos.1
        have isDrop := List.drop_eq_nil_iff.mp pos.2
        have := List.length_pos_iff.mpr notEmpty
        omega
      refine ⟨0, [ch '%'], fmt - 1, out.next, out.stores, pos.read_nil, rfl, ?_⟩
      rw [isEnd]
      exact pos
  | cons c rest =>
      obtain ⟨read, behind⟩ := pos.read_cons
      have notZero : c ≠ 0 := by
        rintro rfl
        exact noZero pos.mem
      refine ⟨c, ?_⟩
      unfold convert
      dsimp only
      cases found : converted args flags width precision (args.word out.next) c with
      | some bytes =>
          obtain ⟨bytes, rfl⟩ := Option.isSome_iff_exists.mp (converted_isSome found)
          exact ⟨bytes, fmt, _, _, read, rfl, behind⟩
      | none =>
          by_cases store : c = ch 'n'
          · refine ⟨[], fmt, out.next + 1,
              out.stores ++ [(args.word out.next, out.str.length)], read, ?_, behind⟩
            dsimp only
            rw [if_pos store, List.append_nil]
          · dsimp only
            rw [if_neg store, if_pos notZero]
            by_cases percent : c = ch '%'
            · refine ⟨[c], fmt, out.next, out.stores, read, ?_, behind⟩
              rw [if_neg (not_not.mpr percent)]
            · refine ⟨[ch '%', c], fmt, out.next, out.stores, read, ?_, behind⟩
              rw [if_pos percent, List.append_assoc]
              rfl

/-- A conversion writes something, and the pointer is at its last character, or in front of the NUL
when there is none. -/
theorem directive_at {out : Out} (pos : At text fmt (ch '%' :: rest)) (noZero : 0 ∉ text) :
    ∃ bytes fmt' next' stores', directive (text ++ [0]) args fmt out =
        some (fmt', ⟨out.str ++ bytes, next', stores'⟩) ∧
      At text (fmt' + 1) (behindDirective rest) := by
  have notEmpty : text ≠ [] := List.ne_nil_of_mem pos.mem
  obtain ⟨flags, fmt₁, isFlags, pos₁⟩ := @processFlags_at text rest fmt {} pos.read_cons.2
  obtain ⟨flags, width, fmt₂, next₂, isWidth, pos₂⟩ :=
    @getWidth_at text _ fmt₁ out.next args flags pos₁
  obtain ⟨precision, fmt₃, next₃, isPrecision, pos₃⟩ := @getPrecision_at text _ fmt₂ next₂ args pos₂
  obtain ⟨fmt₄, isQualifier, pos₄⟩ := getQualifier_at pos₃
  obtain ⟨c, bytes, fmt', next', stores', read, isConvert, pos'⟩ :=
    @convert_at text _ fmt₄ args flags width precision { out with next := next₃ } pos₄ notEmpty
      noZero
  refine ⟨bytes, fmt', next', stores', ?_, pos'⟩
  rw [directive, isFlags, Option.bind_eq_bind, Option.bind_some]
  dsimp only
  rw [isWidth, Option.bind_eq_bind, Option.bind_some]
  dsimp only
  rw [isPrecision, Option.bind_eq_bind, Option.bind_some]
  dsimp only
  rw [isQualifier, Option.bind_eq_bind, Option.bind_some, read, Option.bind_eq_bind,
    Option.bind_some, isConvert]

end Pointer

/-! ## The run -/

section Run

variable {text rest : List UInt8} {fmt fuel : Nat} {args : Args} {out : Out}

theorem behindNumber_length : (behindNumber rest).length ≤ rest.length := by
  cases rest with
  | nil => exact le_refl _
  | cons c rest =>
      rw [behindNumber]
      split
      · exact List.length_dropWhile_le _ _
      · split
        · exact Nat.le_succ _
        · exact le_refl _

theorem behindPrecision_length : (behindPrecision rest).length ≤ rest.length := by
  cases rest with
  | nil => exact le_refl _
  | cons c rest =>
      rw [behindPrecision]
      split
      · exact behindNumber_length.trans (Nat.le_succ _)
      · exact le_refl _

theorem behindQualifier_length : (behindQualifier rest).length ≤ rest.length := by
  cases rest with
  | nil => exact le_refl _
  | cons c rest =>
      rw [behindQualifier]
      split
      · exact Nat.le_succ _
      · exact le_refl _

theorem behindDirective_length : (behindDirective rest).length ≤ rest.length :=
  calc (behindDirective rest).length
    _ ≤ (behindQualifier (behindPrecision (behindNumber (rest.dropWhile isFlag)))).length := by
        rw [behindDirective, List.length_tail]
        exact Nat.sub_le _ _
    _ ≤ (behindPrecision (behindNumber (rest.dropWhile isFlag))).length := behindQualifier_length
    _ ≤ (behindNumber (rest.dropWhile isFlag)).length := behindPrecision_length
    _ ≤ (rest.dropWhile isFlag).length := behindNumber_length
    _ ≤ rest.length := List.length_dropWhile_le _ _

/-- From any place of the format on: each round leaves less of it. -/
theorem vsprintfFrom_at (pos : At text fmt rest) (noZero : 0 ∉ text) (enough : rest.length < fuel) :
    ∃ out' str, vsprintfFrom (text ++ [0]) args fuel fmt out = some out' ∧
      out'.str = out.str ++ str ∧ Copies rest str := by
  induction fuel generalizing rest fmt out with
  | zero => exact absurd enough (Nat.not_lt_zero _)
  | succ fuel ih =>
      cases rest with
      | nil =>
          refine ⟨out, [], ?_, (List.append_nil _).symm, .nil⟩
          rw [vsprintfFrom, pos.read_nil]
          rfl
      | cons c rest =>
          obtain ⟨read, next⟩ := pos.read_cons
          have notZero : c ≠ 0 := by
            rintro rfl
            exact noZero pos.mem
          rw [List.length_cons] at enough
          rw [vsprintfFrom, read, Option.bind_eq_bind, Option.bind_some, if_neg notZero]
          by_cases percent : c = ch '%'
          · subst percent
            obtain ⟨bytes, fmt', next', stores', isDirective, pos'⟩ :=
              @directive_at text rest fmt args out pos noZero
            have shorter := @behindDirective_length rest
            obtain ⟨out', str, ran, isStr, copies⟩ := @ih (behindDirective rest) (fmt' + 1)
              ⟨out.str ++ bytes, next', stores'⟩ pos' (by omega)
            rw [if_neg (not_not.mpr rfl), isDirective]
            exact ⟨out', bytes ++ str, ran, by rw [isStr, List.append_assoc], .directive copies⟩
          · obtain ⟨out', str, ran, isStr, copies⟩ :=
              @ih rest (fmt + 1) { out with str := out.str ++ [c] } next (by omega)
            rw [if_pos percent]
            refine ⟨out', c :: str, ran, ?_, .byte percent copies⟩
            rw [isStr, List.append_assoc]
            rfl

/-- For every format, `vsprintf` ends and reads nothing behind the NUL: the format is copied but for
its conversions, and one without any as it is. -/
theorem vsprintf_copies (text : List UInt8) (args : Args) (noZero : 0 ∉ text) :
    ∃ str, vsprintf (text ++ [0]) args = some (str ++ [0], str.length) ∧ Copies text str ∧
      (ch '%' ∉ text → str = text) := by
  have start : At text 0 text := ⟨Nat.zero_le _, rfl⟩
  have enough : text.length < (text ++ [0]).length := by
    rw [List.length_append]
    exact Nat.lt_succ_self _
  obtain ⟨out, str, ran, isStr, copies⟩ :=
    @vsprintfFrom_at text text 0 (text ++ [0]).length args ⟨[], 0, []⟩ start noZero enough
  rw [List.nil_append] at isStr
  refine ⟨str, ?_, copies, copies.eq_self⟩
  rw [vsprintf, ran, ← isStr]
  rfl

/-- A percent sign with a width and a point, and nothing behind them. -/
theorem vsprintf_copies_truncated :
    ∃ str, vsprintf (Vsprintf.text ['5', '0', '%', '-', '8', '.'] ++ [0])
        ⟨fun _ => 0, fun _ => []⟩ = some (str ++ [0], str.length) ∧
      Copies (Vsprintf.text ['5', '0', '%', '-', '8', '.']) str := by
  obtain ⟨str, ran, copies, -⟩ := vsprintf_copies (Vsprintf.text ['5', '0', '%', '-', '8', '.'])
    ⟨fun _ => 0, fun _ => []⟩ (by decide)
  exact ⟨str, ran, copies⟩

end Run

end Linux012.Kernel.FormatScan
