import Linux012.Exec.Pushes
import Linux012.Lib.Ledger

/-!
# The bounds of the argument pages

`copy_strings` tests whether a string fits with an unsigned difference, which is never negative.
When a call comes to the beginning of the argument area in the middle of its strings, it goes on
below `page[0]`.
-/

namespace Linux012.Exec

open Lib (Ledger longBytes LiesAt run_bind_of_ok run_bind_of_error)

/-! ## What has nothing to do with the argument pages -/

section Quiet

/-- Any state, and any end but that `page[]` is left. -/
def noOverrun : Ledger Machine Unit Stop where
  held := fun _ => 0
  invariant := fun _ => True
  mayStop := fun stop => stop ≠ .overrun

/-- The operation does not leave `page[]`. -/
abbrev Quiet {α : Type} (prog : ExecM α) : Prop := noOverrun.Balanced 0 prog fun _ => 0

theorem Quiet.pure {α : Type} (value : α) : Quiet (pure value) := Ledger.Balanced.pure rfl

theorem Quiet.bind {α β : Type} {first : ExecM β} {next : β → ExecM α} (begins : Quiet first)
    (continues : ∀ value, Quiet (next value)) : Quiet (first >>= next) :=
  Ledger.Balanced.bind begins continues

theorem Quiet.get_bind {α : Type} {next : Machine → ExecM α}
    (continues : ∀ machine, Quiet (next machine)) : Quiet (get >>= next) :=
  Ledger.Balanced.get_bind fun machine _ => continues machine

theorem Quiet.modify (change : Machine → Machine) : Quiet (modify change) := by
  intro state rest _ isHeld
  exact ⟨trivial, isHeld⟩

theorem Quiet.set (machine : Machine) : Quiet (set machine) := by
  intro state rest _ isHeld
  exact ⟨trivial, isHeld⟩

theorem Quiet.throw {α : Type} {stop : Stop} (other : stop ≠ .overrun) :
    Quiet (throw stop : ExecM α) :=
  Ledger.Balanced.throw other

theorem Quiet.ne_overrun {α : Type} {prog : ExecM α} (quiet : Quiet prog) (m : Machine) :
    prog.run m ≠ .error .overrun := by
  intro ran
  have ended := quiet m 0 trivial rfl
  rw [ran] at ended
  exact ended rfl

variable (w : World)

theorem quiet_takeFree : Quiet takeFree := by
  refine .get_bind fun machine => ?_
  split
  · exact .throw (by decide)
  · exact .set _

theorem quiet_ensureTable (t : Nat) : Quiet (ensureTable t) := by
  refine .get_bind fun machine => ?_
  split
  · exact .pure _
  · exact quiet_takeFree.bind fun _ => .modify _

theorem quiet_takeUnless (shared : Bool) : Quiet (takeUnless shared) := by
  cases shared with
  | true => exact .pure _
  | false => exact quiet_takeFree

theorem quiet_doNoPage (n : Nat) : Quiet (doNoPage w n) :=
  (quiet_ensureTable _).bind fun _ =>
    (quiet_takeUnless _).bind fun _ => (Quiet.modify _).bind fun _ => .pure _

theorem quiet_presentPage (n : Nat) : Quiet (presentPage w n) := by
  refine .get_bind fun machine => ?_
  split
  · exact .pure _
  · exact quiet_doNoPage w n

theorem quiet_getNewByte (address : UInt32) : Quiet (getNewByte w address) := by
  unfold getNewByte
  split
  · exact (Quiet.throw (by decide)).bind fun _ => (quiet_presentPage w _).bind fun _ => .pure _
  · exact (quiet_presentPage w _).bind fun _ => .pure _

theorem quiet_putNewByte (byte : UInt8) (address : UInt32) : Quiet (putNewByte w byte address) := by
  unfold putNewByte
  split
  · exact (Quiet.throw (by decide)).bind fun _ => (quiet_presentPage w _).bind fun _ => .modify _
  · exact (quiet_presentPage w _).bind fun _ => .modify _

theorem quiet_putNewBytes (bytes : List UInt8) (address : UInt32) :
    Quiet (putNewBytes w bytes address) := by
  induction bytes generalizing address with
  | nil => exact .pure _
  | cons byte bytes ih => exact (quiet_putNewByte w byte address).bind fun _ => ih _

theorem quiet_skipString (left : Nat) (p : UInt32) : Quiet (skipString w left p) := by
  induction left generalizing p with
  | zero => exact .throw (by decide)
  | succ left ih =>
      refine (quiet_getNewByte w p).bind fun byte => ?_
      split
      · exact .pure _
      · exact ih _

theorem quiet_pointerLoop (argc : Nat) (p argv : UInt32) : Quiet (pointerLoop w argc p argv) := by
  induction argc generalizing p argv with
  | zero => exact .pure _
  | succ argc ih =>
      exact (quiet_putNewBytes w _ _).bind fun _ => (quiet_skipString w _ _).bind fun _ => ih _ _

theorem quiet_createTables (p : UInt32) (argc envc : Int) : Quiet (createTables w p argc envc) :=
  (quiet_putNewBytes w _ _).bind fun _ =>
    (quiet_putNewBytes w _ _).bind fun _ =>
      (quiet_putNewBytes w _ _).bind fun _ =>
        (quiet_pointerLoop w _ _ _).bind fun _ =>
          (quiet_putNewBytes w _ _).bind fun _ =>
            (quiet_pointerLoop w _ _ _).bind fun _ =>
              (quiet_putNewBytes w _ _).bind fun _ => .pure _

theorem quiet_putDirtyPage (page : Page) (n : Nat) : Quiet (putDirtyPage page n) := by
  refine .get_bind fun machine => ?_
  split
  · exact .set _
  · split
    · exact .pure _
    · exact .set _

theorem quiet_mapPages (i : Nat) : Quiet (mapPages i) := by
  induction i with
  | zero => exact .pure _
  | succ i ih =>
      refine .get_bind fun machine => ?_
      split
      · exact (quiet_putDirtyPage _ _).bind fun _ => ih
      · exact ih

theorem quiet_changeLdt : Quiet changeLdt :=
  (Quiet.modify _).bind fun _ => (quiet_mapPages _).bind fun _ => .pure _

theorem quiet_iputIfAny (inode : Option Nat) : Quiet (iputIfAny inode) := by
  cases inode with
  | none => exact .pure _
  | some inode => exact .modify _

theorem quiet_startImage (inode : Nat) (ex : Header) (p : UInt32) (argc envc : Int) :
    Quiet (startImage w inode ex p argc envc) :=
  .get_bind fun _ =>
    (quiet_iputIfAny _).bind fun _ =>
      (Quiet.modify _).bind fun _ =>
        (Quiet.modify _).bind fun _ =>
          quiet_changeLdt.bind fun _ =>
            (quiet_createTables w _ _ _).bind fun _ => (Quiet.modify _).bind fun _ => .pure _

theorem quiet_execError1 (retval : Int) : Quiet (execError1 retval) :=
  (Quiet.modify _).bind fun _ => .pure _

theorem quiet_execError2 (inode : Nat) (retval : Int) : Quiet (execError2 inode retval) :=
  (Quiet.modify _).bind fun _ => quiet_execError1 retval

theorem quiet_nameiAt (segment : List UInt8) (address : Nat) : Quiet (nameiAt w segment address) := by
  unfold nameiAt
  split
  · exact .throw (by decide)
  · split
    · exact .pure _
    · exact (Quiet.modify _).bind fun _ => .pure _

theorem quiet_checkImage (inode : Nat) (block : List UInt8) {copy : ExecM (UInt32 × Int)}
    (envc : Int) (copies : Quiet copy) : Quiet (checkImage w inode block copy envc) := by
  unfold checkImage
  simp only []
  split
  · exact quiet_execError2 _ _
  · refine copies.bind fun result => ?_
    split
    · exact quiet_execError2 _ _
    · exact quiet_startImage w _ _ _ _ _

end Quiet

/-! ## A call of `execve` -/

/-- A call from a program, with pointers to a path and to two arrays of strings. -/
structure Call (w : World) (m : Machine) (filename argv envp : UInt32) (path : List UInt8)
    (args env : List (List UInt8)) : Prop where
  cs : m.frame.cs &&& 0xffff = 0xf
  fs : m.fs = .user
  notNull : filename ≠ 0
  path : StringAt w.user filename path
  args : ArrayAt w.user argv args
  env : ArrayAt w.user envp env

/-- What the calls of `copy_strings` store for an inode, if `do_execve` comes to them. -/
def stringsFor (w : World) (m : Machine) (path : List UInt8) (args env : List (List UInt8))
    (inode : Nat) : Option (List (List UInt8)) :=
  match openImage m.task (w.inode inode) with
  | .error _ => none
  | .ok block =>
      if isScript block then (parseLine block).map (scriptCalls path args env)
      else if (readHeader block).Accepted (w.inode inode).size then some (plainCalls args env)
      else none

/-- What they store for the file that is called. -/
def copiedStrings (w : World) (m : Machine) (path : List UInt8) (args env : List (List UInt8)) :
    Option (List (List UInt8)) :=
  (w.namei path).bind (stringsFor w m path args env)

section Opening

variable {w : World} {m : Machine} {filename argv envp : UInt32} {path : List UInt8}
variable {args env : List (List UInt8)}

/-- The machine when the file has been found. -/
def opened (m : Machine) (inode : Nat) : Machine :=
  { m with page := fun _ => none, count := Function.update m.count inode (m.count inode + 1) }

theorem run_nameiAt {segment : List UInt8} {address : UInt32}
    (isPath : StringAt segment address path) :
    (nameiAt w segment address.toNat).run m = .ok (match w.namei path with
      | none => (none, m)
      | some inode => (some inode,
          { m with count := Function.update m.count inode (m.count inode + 1) })) := by
  have taken : (segment.drop address.toNat).take path.length = path := by
    obtain ⟨rest, split⟩ := isPath.lies
    rw [← split, List.append_assoc, List.take_left]
  simp only [nameiAt, isPath.lengthLoop_eq, Nat.add_sub_cancel, taken]
  cases w.namei path <;> rfl

theorem run_doExecve (call : Call w m filename argv envp path args env) :
    (doExecve w filename argv envp).run m = match w.namei path with
      | none => .ok (enoent, { m with page := fun _ => none })
      | some inode =>
          (startFile w filename argv envp args.length env.length inode).run (opened m inode) := by
  have begun : (doExecve w filename argv envp).run m =
      (nameiAt w w.user filename.toNat >>= fun found =>
        match found with
        | none => return enoent
        | some inode => do
            let argc ← count (segments w filename noLine) argv
            let envc ← count (segments w filename noLine) envp
            startFile w filename argv envp argc envc inode).run
        { m with page := fun _ => none } := by
    unfold doExecve
    change (if m.frame.cs &&& 0xffff ≠ 0xf then _ else _ : ExecM Int).run m = _
    rw [if_neg (by rw [call.cs]; exact fun no => no rfl)]
    rfl
  rw [begun, run_bind_of_ok (run_nameiAt call.path)]
  cases found : w.namei path with
  | none => rfl
  | some inode =>
      have segment : segments w filename noLine (opened m inode).fs = w.user := by
        rw [opened, call.fs]
        rfl
      have isArgs : ArrayAt (segments w filename noLine (opened m inode).fs) argv args := by
        rw [segment]
        exact call.args
      have isEnv : ArrayAt (segments w filename noLine (opened m inode).fs) envp env := by
        rw [segment]
        exact call.env
      have argc : (count (segments w filename noLine) argv).run (opened m inode) =
          .ok ((args.length : Int), opened m inode) := run_count isArgs
      have envc : (count (segments w filename noLine) envp).run (opened m inode) =
          .ok ((env.length : Int), opened m inode) := run_count isEnv
      change (count (segments w filename noLine) argv >>= _).run (opened m inode) = _
      rw [run_bind_of_ok argc, run_bind_of_ok envc]

end Opening

/-! ## Where it stays inside -/

section Bounds

variable {w : World} {m : Machine} {filename argv envp : UInt32} {path : List UInt8}
variable {args env : List (List UInt8)} {pages : Nat} {blocks : List (List UInt8)} {fs : Fs}
variable {argc : Int}

/-- `do_execve` does not leave `page[]`, and it returns `-ENOMEM` when it comes to store more than
the argument area holds. -/
def Contained (ran : Except Stop (Int × Machine)) (calls : Option (List (List UInt8))) : Prop :=
  ran ≠ .error .overrun ∧
    ∀ blocks ∈ calls, 131068 < (blocks.map List.length).sum → ∃ m', ran = .ok (enomem, m')

/-- No call crosses the beginning of the area, or there are too few pages for that. -/
def Stays (m : Machine) (calls : Option (List (List UInt8))) : Prop :=
  ∀ blocks ∈ calls, m.free < maxArgPages ∨ ¬Crosses 131068 (blocks.map List.length)

theorem length_reverse_flatten (blocks : List (List UInt8)) :
    blocks.reverse.flatten.length = (blocks.map List.length).sum := by
  rw [List.length_flatten, List.map_reverse, List.sum_reverse]

/-- What follows the calls. -/
theorem contained_of_callsEnd {copy : ExecM (UInt32 × Int)} (fail : ExecM Int)
    (next : UInt32 × Int → ExecM Int)
    (ended : CallsEnd m.free 131068 m blocks fs argc (copy.run m))
    (fails : ∀ m', ∃ m'', fail.run m' = .ok (enomem, m'')) (quiet : ∀ result, Quiet (next result)) :
    Contained ((copy >>= fun result => if result.1 = 0 then fail else next result).run m)
        (some blocks) ↔ Stays m (some blocks) := by
  rw [StateT.run_bind]
  generalize copy.run m = ran at ended
  simp only [Contained, Stays, Option.mem_def, Option.some.injEq, forall_eq']
  cases ended with
  | placed positive all low same =>
      rename_i q m'
      change (((if q = 0 then fail else next (q, argc)).run m' ≠ _) ∧ (_ → ∃ m'',
        (if q = 0 then fail else next (q, argc)).run m' = _)) ↔ _
      have room := all.le
      rw [length_reverse_flatten] at room
      rw [if_neg positive]
      have stays := not_crosses_of_sum_le room
      refine ⟨fun _ => .inr stays, fun _ => ⟨(quiet _).ne_overrun m', fun long => ?_⟩⟩
      omega
  | full stops area rest same =>
      rename_i m' q
      obtain ⟨m'', failed⟩ := fails m'
      change (((fail.run m') ≠ _) ∧ (_ → ∃ m'', fail.run m' = _)) ↔ _
      rw [failed]
      exact ⟨fun _ => stops.imp_right And.left, fun _ => ⟨by simp, fun _ => ⟨m'', rfl⟩⟩⟩
  | overrun crosses many =>
      constructor
      · rintro ⟨inside, _⟩
        exact absurd rfl inside
      · rintro (few | stays)
        · exact absurd many (Nat.not_le.mpr few)
        · exact absurd crosses stays

theorem stays_none : Stays m none := by
  intro blocks no
  cases no

theorem contained_none {prog : ExecM Int} (quiet : Quiet prog) (m' : Machine) :
    Contained (prog.run m') none ↔ Stays m none :=
  ⟨fun _ => stays_none, fun _ => ⟨quiet.ne_overrun m', fun _ no => by cases no⟩⟩

/-- The file is a script. -/
theorem contained_startScript {line : Line}
    (call : Call w m filename argv envp path args env)
    (wellFormed : line.WellFormed) {m' : Machine} (clear : m'.page = fun _ => none)
    (sameFs : m'.fs = m.fs) (sameFree : m'.free = m.free) :
    Contained ((startScript w filename argv envp args.length env.length line).run m')
        (some (scriptCalls path args env line)) ↔
      Stays m (some (scriptCalls path args env line)) := by
  have ended := callsEnd_copyScript (w := w) (m := m') clear (by rw [sameFs, call.fs]) call.args
    call.env call.notNull call.path wellFormed
  have bounds := contained_of_callsEnd (execError1 enomem)
    (fun result => do
      match ← nameiAt w (kernelMemory w filename line) (w.kernel.length + 12 + line.interp) with
      | none => execError1 enoent
      | some inode =>
          match openImage (← get).task (w.inode inode) with
          | .error retval => execError2 inode retval
          | .ok block => checkImage w inode block (return (result.1, result.2)) env.length)
    ended (fun m'' => ⟨_, rfl⟩) ?_
  · rw [Stays, sameFree] at bounds
    exact bounds
  · intro result
    refine (quiet_nameiAt w _ _).bind fun found => ?_
    cases found with
    | none => exact quiet_execError1 _
    | some inode =>
        refine .get_bind fun machine => ?_
        split
        · exact quiet_execError2 _ _
        · exact quiet_checkImage w _ _ _ (.pure _)

theorem run_startFile (w : World) (m : Machine) (filename argv envp : UInt32) (argc envc : Int)
    (inode : Nat) : (startFile w filename argv envp argc envc inode).run (opened m inode) =
      (match openImage m.task (w.inode inode) with
        | .error retval => execError2 inode retval
        | .ok block =>
            if isScript block then do
              iput inode
              match parseLine block with
              | none => execError1 enoexec
              | some line => startScript w filename argv envp argc envc line
            else checkImage w inode block (copyPlain w filename argv envp argc envc) envc).run
        (opened m inode) := rfl

theorem contained_startFile (call : Call w m filename argv envp path args env) (inode : Nat) :
    Contained ((startFile w filename argv envp args.length env.length inode).run (opened m inode))
      (stringsFor w m path args env inode) ↔ Stays m (stringsFor w m path args env inode) := by
  unfold stringsFor
  rw [run_startFile]
  cases openImage m.task (w.inode inode) with
  | error retval => exact contained_none (quiet_execError2 _ _) _
  | ok block =>
      simp only []
      split
      · cases parsed : parseLine block with
        | none => exact contained_none ((Quiet.modify _).bind fun _ => quiet_execError1 _) _
        | some line =>
            simp only [Option.map_some]
            have clear : Machine.page { opened m inode with
                count := Function.update (opened m inode).count inode
                  ((opened m inode).count inode - 1) } = fun _ => none := rfl
            exact contained_startScript call (wellFormed_of_parseLine parsed) clear rfl rfl
      · by_cases accepted : (readHeader block).Accepted (w.inode inode).size
        · rw [if_pos accepted]
          have ended := callsEnd_copyPlain (w := w) (m := opened m inode)
            filename rfl call.fs call.args call.env
          have bounds := contained_of_callsEnd (execError2 inode enomem)
            (fun result =>
              startImage w inode (readHeader block) result.1 result.2 env.length)
            ended (fun m'' => ⟨_, rfl⟩) fun _ => quiet_startImage w _ _ _ _ _
          unfold checkImage
          simp only []
          rw [if_neg (not_not_intro accepted)]
          exact bounds
        · unfold checkImage
          simp only []
          rw [if_neg accepted, if_pos accepted]
          exact contained_none (quiet_execError2 _ _) _

/-- The calls stay inside exactly when none of them crosses the beginning of the argument area, or
there are not enough pages to come to it. -/
theorem contained_iff_stays (call : Call w m filename argv envp path args env) :
    Contained ((doExecve w filename argv envp).run m) (copiedStrings w m path args env) ↔
      Stays m (copiedStrings w m path args env) := by
  rw [run_doExecve call, copiedStrings]
  cases w.namei path with
  | none => exact contained_none (.pure enoent) _
  | some inode => exact contained_startFile call inode

end Bounds

/-! ## A program that is called with one string -/

section OneString

def headerBlock : List UInt8 :=
  longBytes zmagic ++ longBytes 1000 ++ longBytes 24 ++ longBytes 500 ++ longBytes 0 ++ longBytes 0 ++
    longBytes 0 ++ longBytes 0

/-- A regular file that all may execute. -/
def program : Inode where
  mode := 0o100755
  uid := 0
  gid := 0
  size := 4096
  firstBlock := some headerBlock

/-- A path, and an array with one string of `len` bytes. -/
def oneString (len : Nat) : List UInt8 :=
  [0, 0, 0, 0] ++ longBytes 16 ++ longBytes 0 ++ [97, 0, 0, 0] ++ (List.replicate len 1 ++ [0])

theorem three_le_200000 : 3 ≤ 200000 := by decide

def oneStringWorld (len : Nat) (small : len ≤ 200000) : World where
  user := oneString len
  userLimit := by
    change _ ≤ 0x4000000
    simp only [oneString, List.length_append, Lib.length_longBytes, List.length_replicate,
      List.length_cons, List.length_nil]
    omega
  kernel := []
  kernelLimit := Nat.zero_le _
  namei := fun path => if path = [97] then some 1 else none
  inode := fun _ => program
  released := 0
  shared := fun _ => false
  content := fun _ _ => 0

def rootTask : Task where
  executable := none
  signal := 0
  sigaction := []
  closeOnExec := 0
  filp := fun _ => none
  usedMath := false
  lastUsedMath := false
  endCode := 0
  endData := 0
  brk := 0
  startStack := 0
  euid := 0
  suid := 0
  egid := 0
  sgid := 0
  groups := []

def startMachine (free : Nat) : Machine where
  free := free
  fs := .user
  page := fun _ => none
  table := fun _ => false
  mapped := fun _ => none
  task := rootTask
  count := fun _ => 0
  frame := ⟨0, 0xf, 0⟩

variable {len : Nat} (small : len ≤ 200000) (free : Nat)

theorem call_oneString : Call (oneStringWorld len small) (startMachine free) 12 4 0 [97]
    [List.replicate len 1] [] := by
  have front : (oneString len).drop 16 = List.replicate len 1 ++ [0] := rfl
  constructor
  · change (0xf : UInt32) &&& 0xffff = 0xf
    decide
  · rfl
  · decide
  · exact ⟨by decide, ⟨_, rfl⟩⟩
  · refine .inr ⟨by decide, fun i inside => ?_, ⟨_, rfl⟩⟩
    have first : i = 0 := by simpa using inside
    subst first
    exact ⟨16, by decide, ⟨_, rfl⟩, ⟨by simp, ⟨[], by rw [List.append_nil]; exact front.symm⟩⟩⟩
  · exact .inl ⟨rfl, rfl⟩

theorem openImage_program : openImage rootTask program = .ok headerBlock := by
  have regular : program.isReg = true := by decide
  have executable : rootTask.mayExecute program = true := by decide
  rw [openImage, regular, executable]
  rfl

theorem stringsFor_oneString : stringsFor (oneStringWorld len small) (startMachine free) [97]
    [List.replicate len 1] [] 1 = some (plainCalls [List.replicate len 1] []) := by
  have image : openImage (startMachine free).task ((oneStringWorld len small).inode 1) =
      .ok headerBlock := openImage_program
  have size : ((oneStringWorld len small).inode 1).size = 4096 := rfl
  rw [stringsFor, image]
  simp only [size]
  rw [if_neg (by decide), if_pos (by decide)]

/-- The string does not fit, and there are enough pages to find that out. -/
theorem not_contained_of_long (long : 131068 ≤ len) (many : 32 ≤ free) :
    ¬Contained ((doExecve (oneStringWorld len small) 12 4 0).run (startMachine free))
      (copiedStrings (oneStringWorld len small) (startMachine free) [97]
        [List.replicate len 1] []) := by
  have call := call_oneString small free
  have found : (oneStringWorld len small).namei [97] = some 1 := rfl
  intro contained
  rw [run_doExecve call, copiedStrings, found] at contained
  have stays := (contained_startFile call 1).mp contained
  rw [stringsFor_oneString small free] at stays
  rcases stays _ rfl with few | inside
  · exact absurd few (Nat.not_lt.mpr many)
  · apply inside
    have lengths : (plainCalls [List.replicate len 1] []).map List.length = [0, len + 1] := by
      simp [plainCalls]
    rw [lengths]
    exact ⟨by omega, .inr ⟨by omega, .inl (by omega)⟩⟩

end OneString

theorem contained_iff_stays_oneString :
    Contained ((doExecve (oneStringWorld 3 (by omega)) 12 4 0).run (startMachine 64))
        (copiedStrings (oneStringWorld 3 (by omega)) (startMachine 64) [97]
          [List.replicate 3 1] []) ↔
      Stays (startMachine 64) (copiedStrings (oneStringWorld 3 (by omega)) (startMachine 64) [97]
        [List.replicate 3 1] []) :=
  contained_iff_stays (call_oneString (by omega) 64)

/-- A string that needs one byte more than there is. -/
theorem not_contained_oneString :
    ¬Contained ((doExecve (oneStringWorld 131068 (by omega)) 12 4 0).run (startMachine 64))
      (copiedStrings (oneStringWorld 131068 (by omega)) (startMachine 64) [97]
        [List.replicate 131068 1] []) :=
  not_contained_of_long _ 64 (Nat.le_refl _) (by omega)

end Linux012.Exec
