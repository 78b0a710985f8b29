import Mathlib.Data.List.Basic
import Mathlib.Data.List.TakeWhile
import Mathlib.Data.Nat.Digits.Defs
import Mathlib.Algebra.Group.Nat.Defs
import Linux012.Lib.Sizes

/-!
# vsprintf

`vsprintf.c` and `printk`.  A string is its bytes before the terminating NUL.  What follows a
format on the stack is read as its arguments, whether the caller has put it there or not.
-/

namespace Linux012.Kernel.Vsprintf

/-- A character constant. -/
abbrev ch (c : Char) : UInt8 := UInt8.ofNat c.toNat

/-- A string constant. -/
def text (s : List Char) : List UInt8 := s.map ch

/-- `is_digit`. -/
def isDigit (c : UInt8) : Bool := ch '0' ≤ c && c ≤ ch '9'

/-- The flags to `number`. -/
structure Flags where
  zeropad : Bool := false
  sign : Bool := false
  plus : Bool := false
  space : Bool := false
  left : Bool := false
  special : Bool := false
  small : Bool := false
  deriving DecidableEq, Repr

/-- What the arguments are read from: the words on the stack, and the memory from an address on. -/
structure Args where
  word : Nat → UInt32
  memory : UInt32 → List UInt8

/-- The string that starts a piece of memory. -/
def cString (memory : List UInt8) : List UInt8 := memory.takeWhile (· ≠ 0)

theorem zero_not_mem_cString {memory : List UInt8} : 0 ∉ cString memory := by
  intro member
  have notZero := List.mem_takeWhile_imp member
  simp at notZero

theorem cString_eq_self {bytes : List UInt8} (noZero : 0 ∉ bytes) : cString bytes = bytes := by
  refine List.takeWhile_eq_self_iff.mpr fun c member => ?_
  have notZero : c ≠ 0 := fun zero => noZero (zero ▸ member)
  simpa using notZero

theorem cString_append {before behind : List UInt8} :
    cString (before ++ behind) =
      cString before ++ if 0 ∈ before then [] else cString behind := by
  induction before with
  | nil => rfl
  | cons c before ih =>
      by_cases zero : c = 0
      · subst zero
        simp [cString]
      · have other : ¬0 = c := fun same => zero same.symm
        have unfolded (bytes : List UInt8) : cString (c :: bytes) = c :: cString bytes :=
          List.takeWhile_cons_of_pos (by simpa using zero)
        rw [List.cons_append, unfolded, unfolded, ih]
        simp [other]

/-! ## Numbers -/

/-- `digits[k]`. -/
def digit (small : Bool) (k : Nat) : UInt8 :=
  if k < 10 then UInt8.ofNat (48 + k)
  else UInt8.ofNat ((if small then 97 else 65) + (k - 10))

/-- `tmp`, the digits from the lowest one on. -/
def tmpDigits (base : Nat) : (left : Nat) → Nat → List Nat
  | 0, _ => []
  | left + 1, num => if num = 0 then [] else num % base :: tmpDigits base left (num / base)

/-- `number`, for the bases 8, 10 and 16. -/
def number (num : UInt32) (base : Nat) (size precision : Int) (flags : Flags) : List UInt8 :=
  let zeropad := flags.zeropad && !flags.left
  let negative := flags.sign && decide (num.toInt32 < 0)
  let value := if negative then -num else num
  let sign :=
    if negative then [ch '-'] else if flags.plus then [ch '+']
    else if flags.space then [ch ' '] else []
  let special :=
    if flags.special then
      if base = 8 then [ch '0'] else if base = 16 then [ch '0', digit flags.small 33] else []
    else []
  let tmp := if value = 0 then [0] else tmpDigits base 36 value.toNat
  let precision := max (tmp.length : Int) precision
  let pad := (size - sign.length - special.length - precision).toNat
  (if !zeropad && !flags.left then List.replicate pad (ch ' ') else []) ++ sign ++ special ++
    (if zeropad then List.replicate pad (ch '0') else []) ++
    List.replicate (precision - tmp.length).toNat (ch '0') ++
    tmp.reverse.map (digit flags.small) ++
    if flags.left then List.replicate pad (ch ' ') else []

/-! ## Conversions -/

/-- A conversion up to its last character, which `fmt` starts with. -/
structure Spec where
  flags : Flags
  fieldWidth : Int
  precision : Int
  fmt : List UInt8
  next : Nat

def setFlag (flags : Flags) (c : UInt8) : Option Flags :=
  if c = ch '-' then some { flags with left := true }
  else if c = ch '+' then some { flags with plus := true }
  else if c = ch ' ' then some { flags with space := true }
  else if c = ch '#' then some { flags with special := true }
  else if c = ch '0' then some { flags with zeropad := true }
  else none

/-- "process flags". -/
def parseFlags : Flags → List UInt8 → Flags × List UInt8
  | flags, [] => (flags, [])
  | flags, c :: fmt =>
      match setFlag flags c with
      | some flags => parseFlags flags fmt
      | none => (flags, c :: fmt)

/-- `skip_atoi`. -/
def skipAtoi : Nat → List UInt8 → Nat × List UInt8
  | i, [] => (i, [])
  | i, c :: fmt => if isDigit c then skipAtoi (i * 10 + c.toNat - 48) fmt else (i, c :: fmt)

/-- An `int` that a number is stored to. -/
def asInt (i : Nat) : Int := (Int32.ofNat i).toInt

/-- A number in the format, or an argument for `*`, or `none`. -/
def parseNumber (args : Args) (fmt : List UInt8) (next : Nat) :
    Option Int × List UInt8 × Nat :=
  match fmt with
  | [] => (none, [], next)
  | c :: rest =>
      if isDigit c then
        let (i, rest) := skipAtoi 0 (c :: rest)
        (some (asInt i), rest, next)
      else if c = ch '*' then (some (args.word next).toInt32.toInt, rest, next + 1)
      else (none, c :: rest, next)

/-- "get the conversion qualifier". -/
def skipQualifier : List UInt8 → List UInt8
  | [] => []
  | c :: fmt => if c = ch 'h' ∨ c = ch 'l' ∨ c = ch 'L' then fmt else c :: fmt

/-- "get field width". -/
def parseWidth (args : Args) (flags : Flags) (fmt : List UInt8) (next : Nat) :
    Flags × Int × List UInt8 × Nat :=
  match parseNumber args fmt next with
  | (none, fmt, next) => (flags, -1, fmt, next)
  | (some width, rest, next') =>
      -- a negative argument asks for the left
      if next' ≠ next ∧ width < 0 then ({ flags with left := true }, -width, rest, next')
      else (flags, width, rest, next')

/-- "get the precision". -/
def parsePrecision (args : Args) (fmt : List UInt8) (next : Nat) : Int × List UInt8 × Nat :=
  match fmt with
  | [] => (-1, [], next)
  | c :: rest =>
      if c = ch '.' then
        match parseNumber args rest next with
        | (none, rest, next) => (0, rest, next)
        | (some precision, rest, next) => (max 0 precision, rest, next)
      else (-1, c :: rest, next)

/-- Everything of a conversion behind its `%` and before its last character. -/
def parse (args : Args) (fmt : List UInt8) (next : Nat) : Spec :=
  let (flags, fmt) := parseFlags {} fmt
  let (flags, fieldWidth, fmt, next) := parseWidth args flags fmt next
  let (precision, fmt, next) := parsePrecision args fmt next
  ⟨flags, fieldWidth, precision, skipQualifier fmt, next⟩

/-- The string written so far, the number of the next argument, how many conversions there have
been, and what `%n` has stored. -/
structure Out where
  str : List UInt8
  next : Nat
  conversions : Nat
  stores : List (UInt32 × Nat)
  deriving DecidableEq, Repr

/-- Spaces before or behind the bytes, up to the width. -/
def padded (flags : Flags) (fieldWidth : Int) (bytes : List UInt8) : List UInt8 :=
  let pad := List.replicate (fieldWidth - bytes.length).toNat (ch ' ')
  if flags.left then bytes ++ pad else pad ++ bytes

/-- What a conversion that takes an argument writes. -/
def converted (args : Args) (spec : Spec) (arg : UInt32) (c : UInt8) : Option (List UInt8) :=
  let flags := spec.flags
  if c = ch 'c' then some (padded flags spec.fieldWidth [UInt8.ofNat arg.toNat])
  else if c = ch 's' then
    let s := cString (args.memory arg)
    some (padded flags spec.fieldWidth (if spec.precision < 0 then s
      else s.take spec.precision.toNat))
  else if c = ch 'o' then some (number arg 8 spec.fieldWidth spec.precision flags)
  else if c = ch 'p' then
    if spec.fieldWidth = -1 then some (number arg 16 8 spec.precision { flags with zeropad := true })
    else some (number arg 16 spec.fieldWidth spec.precision flags)
  else if c = ch 'x' then
    some (number arg 16 spec.fieldWidth spec.precision { flags with small := true })
  else if c = ch 'X' then some (number arg 16 spec.fieldWidth spec.precision flags)
  else if c = ch 'd' ∨ c = ch 'i' then
    some (number arg 10 spec.fieldWidth spec.precision { flags with sign := true })
  else if c = ch 'u' then some (number arg 10 spec.fieldWidth spec.precision flags)
  else none

/-- The `switch` on the last character of a conversion, and the format behind it. -/
def convert (args : Args) (spec : Spec) (out : Out) : List UInt8 × Out :=
  let out := { out with next := spec.next, conversions := out.conversions + 1 }
  match spec.fmt with
  | [] => ([], { out with str := out.str ++ [ch '%'] })
  | c :: fmt =>
      match converted args spec (args.word out.next) c with
      | some bytes => (fmt, { out with str := out.str ++ bytes, next := out.next + 1 })
      | none =>
          if c = ch 'n' then
            (fmt, { out with
              next := out.next + 1
              stores := out.stores ++ [(args.word out.next, out.str.length)] })
          else if c = ch '%' then (fmt, { out with str := out.str ++ [c] })
          else (fmt, { out with str := out.str ++ [ch '%', c] })

/-- The loop of `vsprintf`; `fuel` bounds the rest of the format. -/
def vsprintfFrom (args : Args) : (fuel : Nat) → List UInt8 → Out → Out
  | 0, _, out => out
  | _, [], out => out
  | fuel + 1, c :: fmt, out =>
      if c ≠ ch '%' then vsprintfFrom args fuel fmt { out with str := out.str ++ [c] }
      else
        let (rest, out) := convert args (parse args fmt out.next) out
        vsprintfFrom args fuel rest out

/-- `vsprintf`, of a format that starts a piece of memory. -/
def vsprintf (memory : List UInt8) (args : Args) : Out :=
  vsprintfFrom args (cString memory).length (cString memory) ⟨[], 0, 0, []⟩

/-- `printk`: what `console_print` is given. -/
def printk (fmt : List UInt8) (args : Args) : List UInt8 := cString (vsprintf fmt args).str

/-! ## Formats without conversions -/

section Verbatim

variable {args : Args} {fuel : Nat} {fmt rest memory : List UInt8} {out : Out}

theorem vsprintfFrom_cons {c : UInt8} :
    vsprintfFrom args (fuel + 1) (c :: fmt) out =
      if c ≠ ch '%' then vsprintfFrom args fuel fmt { out with str := out.str ++ [c] }
      else vsprintfFrom args fuel (convert args (parse args fmt out.next) out).1
        (convert args (parse args fmt out.next) out).2 := rfl

/-- The part of a format in front of a conversion is copied. -/
theorem vsprintfFrom_append (plain : ch '%' ∉ fmt) :
    vsprintfFrom args (fmt.length + fuel) (fmt ++ rest) out =
      vsprintfFrom args fuel rest { out with str := out.str ++ fmt } := by
  induction fmt generalizing out with
  | nil => simp
  | cons c fmt ih =>
      have notPercent : c ≠ ch '%' := fun same => plain (same ▸ List.mem_cons_self)
      have plain : ch '%' ∉ fmt := fun member => plain (List.mem_cons_of_mem c member)
      rw [List.length_cons, Nat.succ_add, List.cons_append, vsprintfFrom_cons, if_pos notPercent,
        ih plain, List.append_assoc]
      rfl

theorem convert_conversions {spec : Spec} :
    (convert args spec out).2.conversions = out.conversions + 1 := by
  rw [convert]
  dsimp only
  split
  · rfl
  split
  · rfl
  split
  · rfl
  split
  · rfl
  · rfl

theorem le_conversions :
    out.conversions ≤ (vsprintfFrom args fuel fmt out).conversions := by
  induction fuel generalizing fmt out with
  | zero => exact le_refl _
  | succ fuel ih =>
      cases fmt with
      | nil => exact le_refl _
      | cons c fmt =>
          rw [vsprintfFrom_cons]
          split
          · exact @ih fmt { out with str := out.str ++ [c] }
          · have step : out.conversions ≤
                (convert args (parse args fmt out.next) out).2.conversions := by
              rw [convert_conversions]
              exact Nat.le_succ _
            exact le_trans step ih

/-- A string without a percent sign is printed as it is. -/
theorem vsprintf_verbatim (plain : ch '%' ∉ cString memory) :
    vsprintf memory args = ⟨cString memory, 0, 0, []⟩ := by
  have copied := @vsprintfFrom_append args 0 (cString memory) [] ⟨[], 0, 0, []⟩ plain
  rwa [Nat.add_zero, List.append_nil, List.nil_append] at copied

/-- Nothing is converted if and only if there is no percent sign. -/
theorem conversions_eq_zero_iff :
    (vsprintf memory args).conversions = 0 ↔ ch '%' ∉ cString memory := by
  constructor
  · intro none member
    obtain ⟨before, behind, isFormat, plain⟩ := List.eq_append_cons_of_mem member
    have length : (cString memory).length = before.length + (behind.length + 1) := by
      rw [isFormat, List.length_append, List.length_cons]
    rw [vsprintf, length, isFormat, vsprintfFrom_append plain, vsprintfFrom_cons,
      if_neg (not_not.mpr rfl)] at none
    dsimp only at none
    have later := @le_conversions args behind.length
      (convert args (parse args behind 0) ⟨[] ++ before, 0, 0, []⟩).1
      (convert args (parse args behind 0) ⟨[] ++ before, 0, 0, []⟩).2
    rw [none, convert_conversions] at later
    omega
  · intro plain
    rw [vsprintf_verbatim plain]

/-! ## One conversion -/

/-- A conversion without flags, width, precision and qualifier. -/
def plainSpec (fmt : List UInt8) : Spec := ⟨{}, -1, -1, fmt, 0⟩

/-- A format with one plain conversion. -/
theorem vsprintf_one {before behind bytes : List UInt8} {c : UInt8}
    (isFormat : cString memory = before ++ ch '%' :: c :: behind)
    (before_plain : ch '%' ∉ before) (behind_plain : ch '%' ∉ behind)
    (simple : parse args (c :: behind) 0 = plainSpec (c :: behind))
    (writes : converted args (plainSpec (c :: behind)) (args.word 0) c = some bytes) :
    (vsprintf memory args).str = before ++ bytes ++ behind := by
  have length : (cString memory).length = before.length + (behind.length + 1 + 1) := by
    rw [isFormat, List.length_append, List.length_cons, List.length_cons]
  have copied := @vsprintfFrom_append args 1 behind []
    ⟨before ++ bytes, 1, 1, []⟩ behind_plain
  rw [vsprintf, length, isFormat, vsprintfFrom_append before_plain, vsprintfFrom_cons,
    if_neg (not_not.mpr rfl), simple, convert]
  dsimp only [plainSpec] at writes ⊢
  rw [writes]
  rw [List.append_nil] at copied
  exact congrArg Out.str copied

theorem padded_of_width_none {flags : Flags} {bytes : List UInt8} :
    padded flags (-1) bytes = bytes := by
  have noPad : (-1 - (bytes.length : Int)).toNat = 0 := by omega
  rw [padded, noPad]
  cases flags.left <;> simp

end Verbatim

/-! ## Decimal numbers -/

/-- A number in decimal. -/
def decimal (i : Nat) : List UInt8 :=
  if i = 0 then [ch '0'] else (Nat.digits 10 i).reverse.map fun k => UInt8.ofNat (48 + k)

theorem tmpDigits_eq_digits {base left i : Nat} (large : 1 < base) (small : i < 2 ^ left) :
    tmpDigits base left i = Nat.digits base i := by
  induction left generalizing i with
  | zero =>
      obtain rfl : i = 0 := by omega
      rw [tmpDigits, Nat.digits_zero]
  | succ left ih =>
      rw [tmpDigits]
      split
      next zero => rw [zero, Nat.digits_zero]
      next positive =>
        have halved : i / base ≤ i / 2 := Nat.div_le_div_left large (by decide)
        have smaller : i / base < 2 ^ left := by
          rw [Nat.pow_succ] at small
          omega
        rw [ih smaller, Nat.digits_def' large (Nat.pos_of_ne_zero positive)]

/-- `%d` writes a small number in decimal. -/
theorem number_decimal {i : UInt32} (small : i.toNat < 2 ^ 31) :
    number i 10 (-1) (-1) { sign := true } = decimal i.toNat := by
  have nonneg : ¬i.toInt32 < 0 := by
    have value : i.toInt32.toInt = i.toNat := by
      refine BitVec.toInt_eq_toNat_of_lt ?_
      change 2 * i.toNat < 2 ^ 32
      omega
    rw [Int32.lt_iff_toInt_lt, value]
    have zero : (0 : Int32).toInt = 0 := rfl
    omega
  have isDecimal : (if i = 0 then [0] else tmpDigits 10 36 i.toNat).reverse.map (digit false) =
      decimal i.toNat := by
    rw [decimal]
    by_cases zero : i = 0
    · subst zero
      rfl
    · have positive : i.toNat ≠ 0 := fun isZero => zero (UInt32.toNat_inj.mp isZero)
      rw [if_neg zero, if_neg positive, tmpDigits_eq_digits (by decide) (by omega)]
      refine List.map_congr_left fun k member => ?_
      rw [List.mem_reverse] at member
      exact if_pos (Nat.digits_lt_base (by decide) member)
  simp [number, nonneg, isDecimal]

end Linux012.Kernel.Vsprintf
