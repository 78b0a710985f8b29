import Linux012.Exec.Arguments

/-!
# The arguments of the interpreter of a script

The first line of a script names an interpreter, and may have an argument behind a blank.
-/

namespace Linux012.Exec

open Lib (Holds longBytes run_bind_of_ok)
open Machine

/-- A text without the end of a string or of a line. -/
def Plain (text : List UInt8) : Prop := ∀ byte ∈ text, byte ≠ 0 ∧ byte ≠ 10

/-- The first line of a script, behind `#!`: blanks, the interpreter, and behind one more blank an
argument, if there is one. -/
structure FirstLine (block interp : List UInt8) (arg : Option (List UInt8)) : Prop where
  nonempty : interp ≠ []
  isName : ∀ byte ∈ interp, isName byte ∧ byte ≠ 10
  plainArg : ∀ text ∈ arg, Plain text
  line : ∃ blanks behind rest, block = 35 :: 33 :: (blanks ++ (interp ++ behind)) ++ 10 :: rest ∧
    (∀ byte ∈ blanks, isBlank byte = true) ∧
    (arg = none ∧ behind = [] ∨
      ∃ text blank, arg = some text ∧ isBlank blank = true ∧ behind = blank :: text)

theorem strchr_append {text rest : List UInt8} (plain : Plain text) :
    strchr (text ++ 10 :: rest) 10 = some text.length := by
  induction text with
  | nil => rfl
  | cons byte text ih =>
      have first := plain byte List.mem_cons_self
      rw [List.cons_append, strchr, if_neg first.2, if_neg first.1,
        ih fun byte mem => plain byte (List.mem_cons_of_mem _ mem)]
      rfl

theorem strchr_none {text rest : List UInt8} (plain : Plain text) :
    strchr (text ++ 0 :: rest) 10 = none := by
  induction text with
  | nil => rfl
  | cons byte text ih =>
      have first := plain byte List.mem_cons_self
      rw [List.cons_append, strchr, if_neg first.2, if_neg first.1,
        ih fun byte mem => plain byte (List.mem_cons_of_mem _ mem)]
      rfl

/-- A line that is short enough is cut behind its text, and a longer one is refused. -/
theorem cutLine_eq {text : List UInt8} (plain : Plain text) (rest : List UInt8) :
    cutLine (35 :: 33 :: text ++ 10 :: rest) = none ∨
      ∃ more, cutLine (35 :: 33 :: text ++ 10 :: rest) = some (text ++ 0 :: more) := by
  have noEnd : ∀ byte ∈ text, (fun byte : UInt8 => decide (byte ≠ 0)) byte = true :=
    fun byte mem => by simpa using (plain byte mem).1
  have behind : (35 :: 33 :: text ++ 10 :: rest).drop 2 = text ++ 10 :: rest := rfl
  unfold cutLine strncpy
  rw [behind]
  rcases Nat.lt_or_ge text.length 127 with short | long
  · right
    have taken : (text ++ 10 :: rest).take 127 =
        text ++ 10 :: rest.take (126 - text.length) := by
      rw [List.take_append, List.take_of_length_le (by omega),
        show 127 - text.length = 126 - text.length + 1 by omega, List.take_succ_cons]
    have copied : ((text ++ 10 :: rest).take 127).takeWhile (fun byte => decide (byte ≠ 0)) =
        text ++ 10 :: (rest.take (126 - text.length)).takeWhile fun byte => decide (byte ≠ 0) := by
      rw [taken, List.takeWhile_append_of_pos noEnd]
      rfl
    simp only [copied, List.append_assoc, List.cons_append]
    rw [strchr_append plain, Option.map_some]
    rw [List.set_append_right _ _ (Nat.le_refl _), Nat.sub_self]
    exact ⟨_, rfl⟩
  · left
    have taken : (text ++ 10 :: rest).take 127 = text.take 127 :=
      List.take_append_of_le_length long
    have copied : ((text ++ 10 :: rest).take 127).takeWhile (fun byte => decide (byte ≠ 0)) =
        text.take 127 := by
      rw [taken, List.takeWhile_eq_self_iff.mpr]
      exact fun byte mem => noEnd byte (List.mem_of_mem_take mem)
    have full : (text.take 127).length = 127 := by
      rw [List.length_take]
      omega
    simp only [copied, full, Nat.sub_self, List.replicate_zero, List.append_nil]
    rw [strchr_none fun byte mem => plain byte (List.mem_of_mem_take mem)]
    rfl

/-- A string in `buf`. -/
theorem stringFrom_eq {line : Line} {before string : List UInt8} (rest : List UInt8)
    (isBuf : line.buf = before ++ (string ++ 0 :: rest)) (noEnd : ∀ byte ∈ string, byte ≠ 0) :
    line.stringFrom before.length = string := by
  have noEnd' : ∀ byte ∈ string, (fun byte : UInt8 => decide (byte ≠ 0)) byte = true :=
    fun byte mem => by simpa using noEnd byte mem
  rw [Line.stringFrom, isBuf, List.drop_left, List.takeWhile_append_of_pos noEnd']
  simp

/-- What is found in a line. -/
structure Finds (line : Line) (interp : List UInt8) (arg : Option (List UInt8)) : Prop where
  path : line.stringFrom line.interp = interp
  name : line.name = basename interp
  arg : line.arg = arg

theorem isName_ne_zero {byte : UInt8} (inName : isName byte = true) : byte ≠ 0 := by
  rintro rfl
  cases inName

theorem isName_not_blank {byte : UInt8} (inName : isName byte = true) : isBlank byte = false := by
  simp only [isName, Bool.not_eq_true', Bool.or_eq_false_iff] at inName
  exact inName.2

theorem takeWhile_stop {test : UInt8 → Bool} {front rest : List UInt8} {byte : UInt8}
    (holds : ∀ byte ∈ front, test byte = true) (stops : test byte = false) :
    (front ++ byte :: rest).takeWhile test = front := by
  rw [List.takeWhile_append_of_pos holds, List.takeWhile_cons_of_neg (by rw [stops]; decide),
    List.append_nil]

/-- The name is cut behind its end, which is a blank or that of the line. -/
theorem parseBuf_eq {blanks interp rest : List UInt8} {stop : UInt8}
    (areBlank : ∀ byte ∈ blanks, isBlank byte = true) (nonempty : interp ≠ [])
    (names : ∀ byte ∈ interp, isName byte = true) (stops : isName stop = false) :
    parseBuf (blanks ++ (interp ++ stop :: rest)) = some
      (if stop = 0 then
        { buf := blanks ++ (interp ++ stop :: rest), interp := blanks.length,
          iName := blanks.length + interp.length - (basename interp).length, iArg := none }
      else
        { buf := blanks ++ (interp ++ 0 :: rest), interp := blanks.length,
          iName := blanks.length + interp.length - (basename interp).length,
          iArg := some (blanks.length + interp.length + 1) }) := by
  obtain ⟨first, others, isInterp⟩ := List.exists_cons_of_ne_nil nonempty
  have firstName : isName first = true := names first (by rw [isInterp]; exact List.mem_cons_self)
  have begins : (blanks ++ (interp ++ stop :: rest)).takeWhile isBlank = blanks := by
    rw [isInterp, List.cons_append]
    exact takeWhile_stop areBlank (isName_not_blank firstName)
  have atFirst : (blanks ++ (interp ++ stop :: rest))[blanks.length]? = some first := by
    rw [List.getElem?_append_right (Nat.le_refl _), Nat.sub_self, isInterp]
    rfl
  have atStop : (blanks ++ (interp ++ stop :: rest))[blanks.length + interp.length]? =
      some stop := by
    rw [List.getElem?_append_right (Nat.le_add_right _ _), Nat.add_sub_cancel_left,
      List.getElem?_append_right (Nat.le_refl _), Nat.sub_self]
    rfl
  have cut : (blanks ++ (interp ++ stop :: rest)).set (blanks.length + interp.length) 0 =
      blanks ++ (interp ++ 0 :: rest) := by
    rw [List.set_append_right _ _ (Nat.le_add_right _ _), Nat.add_sub_cancel_left,
      List.set_append_right _ _ (Nat.le_refl _), Nat.sub_self]
    rfl
  unfold parseBuf
  simp only [begins, atFirst, List.drop_left, nameLoop_start, takeWhile_stop names stops, atStop, cut,
    Option.some.injEq]
  rw [if_neg (isName_ne_zero firstName)]
  split <;> rfl

/-- The path and the name in a line of which the name has been cut. -/
theorem path_and_name (line : Line) {blanks interp rest : List UInt8}
    (isBuf : line.buf = blanks ++ (interp ++ 0 :: rest)) (begins : line.interp = blanks.length)
    (isName : line.iName = blanks.length + interp.length - (basename interp).length)
    (noEnd : ∀ byte ∈ interp, byte ≠ 0) :
    line.stringFrom line.interp = interp ∧ line.name = basename interp := by
  constructor
  · rw [begins]
    exact stringFrom_eq rest isBuf noEnd
  · obtain ⟨front, split⟩ : basename interp <:+ interp := List.rtakeWhile_suffix _ interp
    have len := congrArg List.length split
    rw [List.length_append] at len
    have start : line.iName = (blanks ++ front).length := by
      rw [isName, List.length_append]
      omega
    rw [Line.name, start]
    refine stringFrom_eq rest ?_ fun byte mem => noEnd byte ?_
    · rw [isBuf, List.append_assoc, ← List.append_assoc front, split]
    · rw [← split]
      exact List.mem_append_right _ mem

theorem isBlank_plain {byte : UInt8} (blank : isBlank byte = true) : byte ≠ 0 ∧ byte ≠ 10 := by
  simp only [isBlank, Bool.or_eq_true, decide_eq_true_eq] at blank
  rcases blank with rfl | rfl <;> decide

/-- What the first line says is found, unless the line is too long. -/
theorem parseLine_eq {block interp : List UInt8} {arg : Option (List UInt8)}
    (first : FirstLine block interp arg) :
    parseLine block = none ∨ ∃ line, parseLine block = some line ∧ Finds line interp arg := by
  obtain ⟨blanks, behind, rest, isBlock, areBlank, ends⟩ := first.line
  have noEnd : ∀ byte ∈ interp, byte ≠ 0 := fun byte mem => isName_ne_zero (first.isName byte mem).1
  have names : ∀ byte ∈ interp, isName byte = true := fun byte mem => (first.isName byte mem).1
  have plain : Plain (blanks ++ (interp ++ behind)) := by
    intro byte mem
    rcases List.mem_append.mp mem with mem | mem
    · exact isBlank_plain (areBlank byte mem)
    rcases List.mem_append.mp mem with mem | mem
    · exact ⟨noEnd byte mem, (first.isName byte mem).2⟩
    rcases ends with ⟨_, isNil⟩ | ⟨text, blank, isText, isBlank, isBehind⟩
    · rw [isNil] at mem
      cases mem
    · rw [isBehind] at mem
      rcases List.mem_cons.mp mem with rfl | mem
      · exact isBlank_plain isBlank
      · exact first.plainArg text isText byte mem
  rw [isBlock]
  rcases cutLine_eq plain rest with isNone | ⟨more, isCut⟩
  · left
    rw [parseLine, isNone]
    rfl
  right
  rw [parseLine, isCut, Option.bind_some]
  rcases ends with ⟨isNone, isNil⟩ | ⟨text, blank, isText, isBlank, isBehind⟩
  · subst isNone isNil
    rw [List.append_nil, List.append_assoc, parseBuf_eq areBlank first.nonempty names rfl, if_pos rfl]
    refine ⟨_, rfl, ?_⟩
    obtain ⟨path, name⟩ := path_and_name
      ⟨blanks ++ (interp ++ 0 :: more), blanks.length, _, none⟩ rfl rfl rfl noEnd
    exact ⟨path, name, rfl⟩
  · subst isText isBehind
    have stops : isName blank = false := by
      simp [isName, isBlank]
    rw [List.append_assoc, List.append_assoc, List.cons_append,
      parseBuf_eq areBlank first.nonempty names stops, if_neg (isBlank_plain isBlank).1]
    refine ⟨_, rfl, ?_⟩
    obtain ⟨path, name⟩ := path_and_name
      ⟨blanks ++ (interp ++ 0 :: (text ++ 0 :: more)), blanks.length, _,
        some (blanks.length + interp.length + 1)⟩ rfl rfl rfl noEnd
    refine ⟨path, name, congrArg some ?_⟩
    have start : blanks.length + interp.length + 1 = (blanks ++ (interp ++ [0])).length := by
      simp [Nat.add_assoc]
    rw [start]
    refine stringFrom_eq more ?_ fun byte mem => (first.plainArg text rfl byte mem).1
    simp

section Scripts

variable {w : World} {m m' : Machine} {filename argv envp : UInt32} {path : List UInt8}
variable {args env : List (List UInt8)} {inode : Nat} {block interp : List UInt8} {line : Line}
variable {arg : Option (List UInt8)}

/-- The arguments with which an interpreter is to be started. -/
def interpreterArgs (path : List UInt8) (args : List (List UInt8)) (interp : List UInt8)
    (arg : Option (List UInt8)) : List (List UInt8) :=
  basename interp :: arg.toList ++ path :: args.tail

theorem flatten_scriptCalls (finds : Finds line interp arg) :
    (scriptCalls path args env line).reverse.flatten =
      packed (interpreterArgs path args interp arg ++ env) := by
  rw [scriptCalls, finds.arg, finds.name, interpreterArgs]
  cases arg <;> simp [packed]

theorem openImage_error {task : Task} {found : Inode} {retval : Int}
    (failed : openImage task found = .error retval) : retval ≠ 0 := by
  unfold openImage at failed
  split at failed
  · cases failed
    decide
  split at failed
  · cases failed
    decide
  split at failed
  · cases failed
    decide
  · cases failed

theorem execError1_ne_zero {retval : Int} (negative : retval ≠ 0) (m m' : Machine) :
    (execError1 retval).run m ≠ .ok (0, m') := by
  intro ran
  cases ran
  exact negative rfl

theorem execError2_ne_zero {retval : Int} (negative : retval ≠ 0) (m m' : Machine) :
    (execError2 inode retval).run m ≠ .ok (0, m') := by
  intro ran
  cases ran
  exact negative rfl

/-- From the interpreter's inode on. -/
def startInterpreter (w : World) (p : UInt32) (argc envc : Int) (inode : Nat) : ExecM Int := do
  match openImage (← get).task (w.inode inode) with
  | .error retval => execError2 inode retval
  | .ok block => checkImage w inode block (return (p, argc)) envc

/-- From the inode that has been found for the interpreter, or from its absence on. -/
def startFound (w : World) (p : UInt32) (argc envc : Int) : Option Nat → ExecM Int
  | none => execError1 enoent
  | some inode => startInterpreter w p argc envc inode

/-- The machine when the interpreter's name has been looked up. -/
def lookedUp (m : Machine) : Option Nat → Machine
  | none => m
  | some inode => { m with count := Function.update m.count inode (m.count inode + 1) }

/-- The interpreter is started when its image is accepted. -/
theorem run_startInterpreter {p : UInt32} {argc envc : Int} (positive : p ≠ 0)
    (ran : (startInterpreter w p argc envc inode).run m = .ok (0, m')) :
    ∃ ex, (startImage w inode ex p argc envc).run m = .ok (0, m') := by
  change (match openImage m.task (w.inode inode) with
    | .error retval => execError2 inode retval
    | .ok block => checkImage w inode block (return (p, argc)) envc).run m = _ at ran
  cases isImage : openImage m.task (w.inode inode) with
  | error retval =>
      rw [isImage] at ran
      exact absurd ran (execError2_ne_zero (openImage_error isImage) _ _)
  | ok block =>
      rw [isImage] at ran
      simp only [checkImage, pure_bind, if_neg positive] at ran
      split at ran
      · exact absurd ran (execError2_ne_zero (by decide) _ _)
      · exact ⟨_, ran⟩

/-- An interpreter with an accepted image is started. -/
theorem run_startInterpreter_accepted {p : UInt32} {argc envc : Int} (positive : p ≠ 0)
    (isImage : openImage m.task (w.inode inode) = .ok block)
    (accepted : (readHeader block).Accepted (w.inode inode).size) :
    (startInterpreter w p argc envc inode).run m =
      (startImage w inode (readHeader block) p argc envc).run m := by
  change (match openImage m.task (w.inode inode) with
    | .error retval => execError2 inode retval
    | .ok block => checkImage w inode block (return (p, argc)) envc).run m = _
  rw [isImage]
  simp only [checkImage, pure_bind, if_neg positive]
  rw [if_neg (not_not_intro accepted)]

/-- The strings of a script lie in the argument area from `q` on. -/
structure Gathered (pages : Nat) (task : Task) (strings : List (List UInt8)) (q : UInt32)
    (m : Machine) : Prop where
  positive : q ≠ 0
  lies : Holds m.areaByte q.toNat (packed strings)
  whole : q.toNat + (packed strings).length = 131068
  area : m.Area pages q.toNat
  task : m.task = task
  noEnd : ∀ string ∈ strings, 0 ∉ string

/-- The strings of a script have no end in them. -/
theorem noEnd_interpreterArgs (call : Call w m filename argv envp path args env)
    (first : FirstLine block interp arg) :
    ∀ string ∈ interpreterArgs path args interp arg ++ env, 0 ∉ string := by
  intro string mem
  rcases List.mem_append.mp mem with mem | mem
  · rcases List.mem_append.mp mem with mem | mem
    · rcases List.mem_cons.mp mem with rfl | mem
      · intro isEnd
        have inside := (List.rtakeWhile_suffix _ interp).subset isEnd
        exact isName_ne_zero (first.isName 0 inside).1 rfl
      · exact fun isEnd => (first.plainArg string (Option.mem_toList.mp mem) 0 isEnd).1 rfl
    · rcases List.mem_cons.mp mem with rfl | mem
      · exact call.path.noEnd
      · exact call.args.arguments.noEnd (List.mem_of_mem_tail mem)
  · exact call.env.arguments.noEnd mem

/-- All strings of a script are copied and its interpreter is looked up, unless they do not fit. -/
theorem run_startScript (call : Call w m filename argv envp path args env)
    (first : FirstLine block interp arg) (wellFormed : line.WellFormed)
    (finds : Finds line interp arg) {m₁ : Machine} (clear : m₁.page = fun _ => none)
    (isFs : m₁.fs = .user) :
    (∃ q m₂, Gathered m₁.free m₁.task (interpreterArgs path args interp arg ++ env) q m₂ ∧
      (startScript w filename argv envp args.length env.length line).run m₁ =
        (startFound w q (args.length + 1 + arg.toList.length) env.length (w.namei interp)).run
          (lookedUp m₂ (w.namei interp))) ∨
    ((m₁.free < 32 ∨ 131068 ≤ (packed (interpreterArgs path args interp arg ++ env)).length) ∧
      ∀ m', (startScript w filename argv envp args.length env.length line).run m₁ ≠ .ok (0, m')) := by
  have ended := callsEnd_copyScript (w := w) clear isFs call.args call.env call.notNull call.path
    wellFormed
  have total : (scriptCalls path args env line).reverse.flatten =
      packed (interpreterArgs path args interp arg ++ env) := flatten_scriptCalls finds
  have len := length_reverse_flatten (scriptCalls path args env line)
  rw [total] at len
  unfold startScript
  generalize isCopied : (copyScript w filename argv envp args.length env.length line).run m₁ =
    copied at ended
  cases ended with
  | overrun crosses many =>
      refine .inr ⟨.inr ?_, fun m' => by rw [Lib.run_bind_of_error isCopied]; nofun⟩
      rw [len]
      exact (Nat.lt_of_not_ge fun fits => not_crosses_of_sum_le fits crosses).le
  | full stops area rest same =>
      refine .inr ⟨stops.imp_right fun stops => by rw [len]; exact stops.2, fun m' => ?_⟩
      rw [run_bind_of_ok isCopied]
      exact execError1_ne_zero (by decide) _ _
  | placed positive all low same =>
      rename_i q m₂
      left
      have kernelLimit : w.kernel.length ≤ 0x4000000 := w.kernelLimit
      have inside := wellFormed.interp
      have address : (UInt32.ofNat (w.kernel.length + 12 + line.interp)).toNat =
          w.kernel.length + 12 + line.interp := by
        rw [UInt32.toNat_ofNat']
        omega
      have isPath : StringAt (kernelMemory w filename line)
          (UInt32.ofNat (w.kernel.length + 12 + line.interp)) interp := by
        rw [← finds.path]
        exact stringAt_buf wellFormed inside
      have named := run_nameiAt (w := w) (m := m₂) isPath
      rw [address] at named
      rw [total, toNat_initialP] at all low
      obtain ⟨lies, whole, area⟩ := all.holds low
      refine ⟨q, m₂, ⟨positive, lies, whole, area, ?_, noEnd_interpreterArgs call first⟩, ?_⟩
      · rw [all.rest]
      · have argc : (line.arg.toList.length : Int) = arg.toList.length := by rw [finds.arg]
        rw [run_bind_of_ok isCopied, argc]
        simp only [if_neg positive]
        cases found : w.namei interp <;> rw [found] at named <;> rw [run_bind_of_ok named] <;> rfl

/-- The new image, with as many of the strings as its arguments as `argc` says. -/
theorem Gathered.starts {pages : Nat} {task : Task} {strings front back rest : List (List UInt8)}
    {q : UInt32} (gathered : Gathered pages task strings q m) (split : strings = front ++ back ++ rest)
    (ex : Header) :
    Starts w inode ex front back (m.free < 162)
      ((startImage w inode ex q front.length back.length).run (lookedUp m (some inode))) := by
  have lies := gathered.lies
  have whole := gathered.whole
  have noEnd := gathered.noEnd
  rw [split, packed_append] at lies whole
  rw [split] at noEnd
  rw [List.length_append] at whole
  exact starts_startImage (m := lookedUp m (some inode))
    ⟨gathered.area.low, gathered.area.present, gathered.area.total⟩ lies.left (by omega)
    fun string mem => noEnd string (List.mem_append_left _ mem)

/-- When the strings are taken apart as `argc` and `envc` say, the image that is started finds the
two parts. -/
theorem Gathered.started {pages : Nat} {task : Task} {strings front back rest : List (List UInt8)}
    {q : UInt32} {argc envc : Int} (gathered : Gathered pages task strings q m)
    (split : strings = front ++ back ++ rest) (isFront : argc = front.length)
    (isBack : envc = back.length)
    (ran : (startFound w q argc envc (w.namei interp)).run (lookedUp m (w.namei interp)) =
      .ok (0, m')) :
    ∃ found ex, w.namei interp = some found ∧ Started w found ex front back m' := by
  subst isFront isBack
  cases found : w.namei interp with
  | none =>
      rw [found] at ran
      exact absurd ran (execError1_ne_zero (by decide) _ _)
  | some i =>
      rw [found] at ran
      obtain ⟨ex, ran⟩ := run_startInterpreter gathered.positive ran
      rcases gathered.starts split ex with ⟨m'', started, image⟩ | ⟨stopped, _⟩
      · rw [started] at ran
        cases ran
        exact ⟨i, ex, rfl, image⟩
      · rw [stopped] at ran
        cases ran

/-- With an interpreter that can be executed, and memory for it, the script is started. -/
theorem Gathered.startable {task : Task} {pages : Nat} {strings front back rest : List (List UInt8)}
    {q : UInt32} {argc envc : Int} (gathered : Gathered pages task strings q m)
    (split : strings = front ++ back ++ rest) (isFront : argc = front.length)
    (isBack : envc = back.length) (found : w.namei interp = some inode)
    (isImage : openImage task (w.inode inode) = .ok block)
    (accepted : (readHeader block).Accepted (w.inode inode).size) (memory : 256 ≤ pages) :
    ∃ m', (startFound w q argc envc (w.namei interp)).run (lookedUp m (w.namei interp)) =
      .ok (0, m') := by
  subst isFront isBack
  rw [found]
  change ∃ m', (startInterpreter w q front.length back.length inode).run
    (lookedUp m (some inode)) = .ok (0, m')
  have isImage' : openImage (lookedUp m (some inode)).task (w.inode inode) = .ok block := by
    change openImage m.task _ = _
    rw [gathered.task, isImage]
  rw [run_startInterpreter_accepted gathered.positive isImage' accepted]
  rcases gathered.starts split (readHeader block) with ⟨m'', started, _⟩ | ⟨_, few⟩
  · exact ⟨m'', started⟩
  · have total := gathered.area.total
    have le := pagesFor_le q.toNat
    omega

/-! ## What `argc` counts -/

/-- The strings as `argc` takes them apart: the arguments of the interpreter, and the environment.
Without `argv[0]` there is one string more than it counts. -/
theorem split_strings (path interp : List UInt8) (args env : List (List UInt8))
    (arg : Option (List UInt8)) :
    ∃ front back rest, interpreterArgs path args interp arg ++ env = front ++ back ++ rest ∧
      (args.length + 1 + arg.toList.length : Int) = front.length ∧
      (env.length : Int) = back.length ∧
      (args ≠ [] → front = interpreterArgs path args interp arg ∧ back = env) ∧
      (args = [] → front.length = arg.toList.length + 1) := by
  cases args with
  | nil =>
      refine ⟨basename interp :: arg.toList, (path :: env).take env.length,
        (path :: env).drop env.length, ?_, ?_, ?_, fun no => absurd rfl no, fun _ => rfl⟩
      · rw [List.append_assoc, List.take_append_drop, interpreterArgs]
        simp
      · rw [List.length_cons, List.length_nil]
        omega
      · rw [List.length_take, List.length_cons]
        omega
  | cons string strings =>
      refine ⟨interpreterArgs path (string :: strings) interp arg, env, [], ?_, ?_, rfl,
        fun _ => ⟨rfl, rfl⟩, nofun⟩
      · rw [List.append_nil]
      · simp only [interpreterArgs, List.tail_cons, List.length_append, List.length_cons]
        omega

/-- Two numbers of arguments at one place are equal. -/
theorem argc_eq {byte : Nat → UInt8} {sp : Nat} {args' env' : List (List UInt8)}
    (layout : Layout byte sp args env) (layout' : Layout byte sp args' env')
    (small : args.length < 2 ^ 32) (small' : args'.length < 2 ^ 32) :
    args.length = args'.length := by
  have same := congrArg UInt32.toNat (Lib.longBytes_inj (layout.argc.unique layout'.argc rfl))
  rw [UInt32.toNat_ofNat', UInt32.toNat_ofNat', Nat.mod_eq_of_lt small,
    Nat.mod_eq_of_lt small'] at same
  exact same

/-- The interpreter has been started with all its arguments. -/
structure InterpreterStarted (w : World) (path interp : List UInt8) (args env : List (List UInt8))
    (arg : Option (List UInt8)) (m : Machine) : Prop where
  executable : m.task.executable = w.namei interp
  layout : Layout (m.newByte w) m.frame.esp.toNat (interpreterArgs path args interp arg) env

/-- What a script needs to be started: a first line that is not too long, an interpreter that can be
executed, and memory. -/
structure Startable (w : World) (m : Machine) (block interp : List UInt8)
    (strings : List (List UInt8)) : Prop where
  short : parseLine block ≠ none
  image : ∃ inode block, w.namei interp = some inode ∧
    openImage m.task (w.inode inode) = .ok block ∧
    (readHeader block).Accepted (w.inode inode).size
  fits : (packed strings).length ≤ 131067
  memory : 256 ≤ m.free

/-- A run of a script from its line on. -/
theorem run_doExecve_script (call : Call w m filename argv envp path args env)
    (found : w.namei path = some inode) (isImage : openImage m.task (w.inode inode) = .ok block)
    (script : isScript block = true) :
    ∃ m₁, m₁.page = (fun _ => none) ∧ m₁.fs = .user ∧ m₁.free = m.free ∧ m₁.task = m.task ∧
      (doExecve w filename argv envp).run m = (match parseLine block with
        | none => execError1 enoexec
        | some line => startScript w filename argv envp args.length env.length line).run m₁ := by
  refine ⟨{ opened m inode with
    count := Function.update (opened m inode).count inode ((opened m inode).count inode - 1) },
    rfl, call.fs, rfl, rfl, ?_⟩
  rw [run_doExecve call, found]
  change (match openImage m.task (w.inode inode) with
    | .error retval => execError2 inode retval
    | .ok block =>
        if isScript block then do
          iput inode
          match parseLine block with
          | none => execError1 enoexec
          | some line => startScript w filename argv envp args.length env.length line
        else checkImage w inode block
          (copyPlain w filename argv envp args.length env.length) env.length).run
      (opened m inode) = _
  rw [isImage]
  simp only [script, if_true]
  rfl

theorem FirstLine.isScript (first : FirstLine block interp arg) : isScript block = true := by
  obtain ⟨_, _, _, rfl, _⟩ := first.line
  rfl

end Scripts

section Claim

variable {w : World} {m m' : Machine} {filename argv envp : UInt32} {path : List UInt8}
variable {args env : List (List UInt8)} {inode : Nat} {block interp : List UInt8}
variable {arg : Option (List UInt8)}

/-- A script that has been started runs its interpreter with the strings as `argc` takes them
apart. -/
theorem started_of_script (call : Call w m filename argv envp path args env)
    (found : w.namei path = some inode) (isImage : openImage m.task (w.inode inode) = .ok block)
    (first : FirstLine block interp arg)
    (ran : (doExecve w filename argv envp).run m = .ok (0, m')) {front back rest : List (List UInt8)}
    (split : interpreterArgs path args interp arg ++ env = front ++ back ++ rest)
    (isFront : (args.length + 1 + arg.toList.length : Int) = front.length)
    (isBack : (env.length : Int) = back.length) :
    m'.task.executable = w.namei interp ∧
      Layout (m'.newByte w) m'.frame.esp.toNat front back ∧ front.length < 131068 := by
  obtain ⟨m₁, clear, isFs, _, _, begun⟩ := run_doExecve_script call found isImage first.isScript
  rw [begun] at ran
  rcases parseLine_eq first with isNone | ⟨line, isLine, finds⟩
  · rw [isNone] at ran
    exact absurd ran (execError1_ne_zero (by decide) _ _)
  rw [isLine] at ran
  rcases run_startScript call first (wellFormed_of_parseLine isLine) finds clear isFs with
    ⟨q, m₂, gathered, continued⟩ | ⟨_, stops⟩
  · rw [continued] at ran
    obtain ⟨_, _, isFound, started⟩ := gathered.started split isFront isBack ran
    refine ⟨by rw [started.executable, isFound], started.layout, ?_⟩
    have whole := gathered.whole
    have positive : q.toNat ≠ 0 := fun zero => gathered.positive (UInt32.toNat.inj zero)
    have few := length_args_le front
    rw [split, packed_append, packed_append, List.length_append, List.length_append] at whole
    omega
  · exact absurd ran (stops m')

theorem starts_of_startable (call : Call w m filename argv envp path args env)
    (found : w.namei path = some inode) (isImage : openImage m.task (w.inode inode) = .ok block)
    (first : FirstLine block interp arg)
    (startable : Startable w m block interp (interpreterArgs path args interp arg ++ env)) :
    ∃ m', (doExecve w filename argv envp).run m = .ok (0, m') := by
  obtain ⟨front, back, rest, split, isFront, isBack, _⟩ := split_strings path interp args env arg
  obtain ⟨m₁, clear, isFs, isFree, isTask, begun⟩ :=
    run_doExecve_script call found isImage first.isScript
  rcases parseLine_eq first with isNone | ⟨line, isLine, finds⟩
  · exact absurd isNone startable.short
  rw [begun, isLine]
  rcases run_startScript call first (wellFormed_of_parseLine isLine) finds clear isFs with
    ⟨q, m₂, gathered, continued⟩ | ⟨few | many, _⟩
  · obtain ⟨i, block', isFound, isImage', accepted⟩ := startable.image
    rw [isFree, isTask] at gathered
    obtain ⟨m', ran⟩ := gathered.startable split isFront isBack isFound isImage' accepted
      startable.memory
    exact ⟨m', continued.trans ran⟩
  · have memory := startable.memory
    omega
  · have fits := startable.fits
    omega

theorem interpreterStarted_of_ran (call : Call w m filename argv envp path args env)
    (found : w.namei path = some inode) (isImage : openImage m.task (w.inode inode) = .ok block)
    (first : FirstLine block interp arg)
    (ran : (doExecve w filename argv envp).run m = .ok (0, m')) :
    InterpreterStarted w path interp args env arg m' ↔ args ≠ [] := by
  obtain ⟨front, back, rest, split, isFront, isBack, whole, without⟩ :=
    split_strings path interp args env arg
  obtain ⟨executable, layout, few⟩ :=
    started_of_script call found isImage first ran split isFront isBack
  constructor
  · rintro ⟨_, layout'⟩ isNil
    have counted := without isNil
    have claimed : (interpreterArgs path args interp arg).length = arg.toList.length + 2 := by
      rw [isNil, interpreterArgs]
      simp
    have same := argc_eq layout' layout (by omega) (by omega)
    omega
  · intro notNil
    obtain ⟨isArgs, isEnv⟩ := whole notNil
    rw [isArgs, isEnv] at layout
    exact ⟨executable, layout⟩

/-- A script is started when it can be, and what has been started is the interpreter with all its
arguments exactly when there is an `argv[0]` that they replace. -/
theorem interpreterStarted_iff (call : Call w m filename argv envp path args env)
    (found : w.namei path = some inode) (isImage : openImage m.task (w.inode inode) = .ok block)
    (first : FirstLine block interp arg) :
    (Startable w m block interp (interpreterArgs path args interp arg ++ env) →
      ∃ m', (doExecve w filename argv envp).run m = .ok (0, m')) ∧
    ∀ m', (doExecve w filename argv envp).run m = .ok (0, m') →
      (InterpreterStarted w path interp args env arg m' ↔ args ≠ []) :=
  ⟨starts_of_startable call found isImage first,
    fun _ ran => interpreterStarted_of_ran call found isImage first ran⟩

end Claim

/-! ## A script that is called without arguments -/

section NoArguments

/-- `#!i`, which is the whole block. -/
def scriptBlock : List UInt8 := [35, 33, 105, 10]

def scriptFile : Inode := { program with size := 4, firstBlock := some scriptBlock }

/-- The file `a` is a script for the program `i`. -/
def scriptWorld : World :=
  { oneStringWorld 3 three_le_200000 with
    namei := fun path => if path = [97] then some 1 else if path = [105] then some 2 else none
    inode := fun i => if i = 1 then scriptFile else program }

theorem firstLine_scriptBlock : FirstLine scriptBlock [105] none where
  nonempty := nofun
  isName := by
    intro byte mem
    rw [List.mem_singleton.mp mem]
    exact ⟨by decide, by decide⟩
  plainArg := nofun
  line := ⟨[], [], [], rfl, nofun, .inl ⟨rfl, rfl⟩⟩

theorem call_script : Call scriptWorld (startMachine 300) 12 4 0 [97] [List.replicate 3 1] [] :=
  have call := call_oneString (by omega : 3 ≤ 200000) 300
  ⟨call.cs, call.fs, call.notNull, call.path, call.args, call.env⟩

/-- Both arrays are null pointers. -/
theorem call_script_nil : Call scriptWorld (startMachine 300) 12 0 0 [97] [] [] :=
  ⟨call_script.cs, call_script.fs, call_script.notNull, call_script.path, .inl ⟨rfl, rfl⟩,
    call_script.env⟩

theorem openImage_script : openImage rootTask scriptFile = .ok scriptBlock := by
  have regular : scriptFile.isReg = true := by decide
  have executable : rootTask.mayExecute scriptFile = true := by decide
  rw [openImage, regular, executable]
  rfl

theorem startable_script {strings : List (List UInt8)} (fits : (packed strings).length ≤ 131067) :
    Startable scriptWorld (startMachine 300) scriptBlock [105] strings :=
  ⟨by decide, ⟨2, headerBlock, rfl, openImage_program, by decide⟩, fits, by decide⟩

theorem interpreterStarted_iff_script :
    (Startable scriptWorld (startMachine 300) scriptBlock [105]
        (interpreterArgs [97] [List.replicate 3 1] [105] none ++ []) →
      ∃ m', (doExecve scriptWorld 12 4 0).run (startMachine 300) = .ok (0, m')) ∧
    ∀ m', (doExecve scriptWorld 12 4 0).run (startMachine 300) = .ok (0, m') →
      (InterpreterStarted scriptWorld [97] [105] [List.replicate 3 1] [] none m' ↔
        [List.replicate 3 (1 : UInt8)] ≠ []) :=
  interpreterStarted_iff call_script (rfl : _ = some 1) openImage_script firstLine_scriptBlock

/-- The interpreter is started without the name of the script among its arguments. -/
theorem not_interpreterStarted_script_nil :
    ∃ m', (doExecve scriptWorld 12 0 0).run (startMachine 300) = .ok (0, m') ∧
      ¬InterpreterStarted scriptWorld [97] [105] [] [] none m' := by
  have fits : (packed (interpreterArgs [97] [] [105] none ++ [])).length ≤ 131067 := by decide
  obtain ⟨m', ran⟩ := starts_of_startable call_script_nil (rfl : _ = some 1) openImage_script
    firstLine_scriptBlock (startable_script fits)
  have started := interpreterStarted_of_ran call_script_nil (rfl : _ = some 1) openImage_script
    firstLine_scriptBlock ran
  exact ⟨m', ran, fun isStarted => started.mp isStarted rfl⟩

end NoArguments

end Linux012.Exec
