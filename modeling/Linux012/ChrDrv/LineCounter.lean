import Linux012.ChrDrv.TtyIo
import Linux012.Lib.Run

/-!
# Reading lines from a terminal

Tasks in `tty_read` and in `sys_read_simple` get characters from the cooked queue of a console,
while `copy_to_cooked` puts characters there and takes them back.  The calls are switched at
each character.
-/

namespace Linux012.ChrDrv

open Linux012.Lib

/-! ## The calls -/

/-- Where a task is in `tty_read` or `sys_read_simple`; `got` is what it has stored. -/
inductive ReadCall where
  | outside
  /-- At `while (nr>0)` of `tty_read`. -/
  | waiting (nr minimum : Nat) (got : List UInt8)
  /-- At `while (nr>0 && !EMPTY(tty->secondary))` of `tty_read`. -/
  | reading (nr minimum : Nat) (got : List UInt8)
  /-- In the loop of `sys_read_simple`, with `left` passes to come. -/
  | simple (left : Nat) (got : List UInt8)
  | returned (result : Int) (got : List UInt8)
  deriving DecidableEq, Repr

/-- A console and the tasks that read from it. -/
structure Readers (Task : Type) where
  tty : Tty
  call : Task → ReadCall

inductive ReadAction (Task : Type) where
  /-- A key is pressed. -/
  | key (c : UInt8)
  /-- One pass of the loop of `copy_to_cooked`. -/
  | cook (orphaned : Bool)
  /-- The task calls `tty_read`, and is behind its checks. -/
  | read (task : Task) (nr : Nat)
  /-- One turn of a task in `tty_read`. -/
  | turn (task : Task) (signalled timedOut : Bool)
  /-- The task calls `sys_read_simple`. -/
  | readSimple (task : Task)
  /-- One pass of the loop of `sys_read_simple`. -/
  | pass (task : Task)
  deriving DecidableEq, Repr

/-- The return of `tty_read`. -/
def readReturn (signalled : Bool) (got : List UInt8) : ReadCall :=
  .returned (if signalled ∧ got = [] then -512 else got.length) got -- -ERESTARTSYS

/-- Behind the `do` loop of `tty_read`. -/
def readEnd (tty : Tty) (signalled : Bool) (nr minimum : Nat) (got : List UInt8) : ReadCall :=
  if tty.lFlag icanon ∨ minimum ≤ got.length then readReturn signalled got
  else .waiting nr minimum got

/-- One pass of the `do` loop of `tty_read`. -/
def readChar (tty : Tty) (signalled : Bool) (nr minimum : Nat) (got : List UInt8) : ReadCall :=
  let c := tty.secondary.ring.first
  if tty.isChar vEof c ∧ tty.lFlag icanon then readEnd tty signalled nr minimum got
  else if nr - 1 = 0 ∨ c = 10 ∧ tty.lFlag icanon then
    readEnd tty signalled (nr - 1) minimum (got ++ [c])
  else .reading (nr - 1) minimum (got ++ [c])

section Steps

variable {Task : Type} [DecidableEq Task]

/-- The task goes on with `call`, and `tty` is left. -/
def Readers.moves (s : Readers Task) (task : Task) (tty : Tty) (call : ReadCall) :
    Readers Task where
  tty := tty
  call := Function.update s.call task call

/-- One turn of `tty_read`. -/
def readTurn (s : Readers Task) (task : Task) (signalled timedOut : Bool) :
    Option (Readers Task) :=
  match s.call task with
  | .waiting nr minimum got =>
      if nr = 0 then some (s.moves task s.tty (readReturn signalled got))
      else if s.tty.mustSleep then
        if timedOut ∨ signalled then some (s.moves task s.tty (readReturn signalled got))
        else some s
      else
        some (s.moves task s.tty.getCooked (readChar s.tty signalled nr minimum got))
  | .reading nr minimum got =>
      if s.tty.secondary.Empty then
        some (s.moves task s.tty (readEnd s.tty signalled nr minimum got))
      else
        some (s.moves task s.tty.getCooked (readChar s.tty signalled nr minimum got))
  | _ => none

/-- The call is inside none of the two functions. -/
def ReadCall.IsOver : ReadCall → Bool
  | .outside => true
  | .returned _ _ => true
  | _ => false

/-- One step. -/
def readStep (s : Readers Task) : ReadAction Task → Option (Readers Task)
  | .key c => some { s with tty := { s.tty with readQ := s.tty.readQ.putQueue c } }
  | .cook orphaned =>
      match s.tty.cookStep orphaned with
      | none => none
      | some tty => some { s with tty := tty }
  | .read task nr =>
      if (s.call task).IsOver then
        some (s.moves task s.tty (.waiting nr (s.tty.minimum nr) []))
      else none
  | .turn task signalled timedOut => readTurn s task signalled timedOut
  | .readSimple task =>
      if (s.call task).IsOver then
        some (s.moves task s.tty (.simple s.tty.secondary.ring.chars []))
      else none
  | .pass task =>
      match s.call task with
      | .simple 0 got => some (s.moves task s.tty (.returned got.length got))
      | .simple (left + 1) got =>
          some (s.moves task { s.tty with secondary := s.tty.secondary.getch }
            (.simple left (got ++ [s.tty.secondary.ring.first])))
      | _ => none

end Steps

namespace Tty

/-! ## The counter -/

/-- The number of characters in the cooked queue that end a line. -/
def lines (tty : Tty) : Nat := tty.secondary.ring.entries.countP tty.endsLine

/-- `secondary->data` is the number of line ends in the cooked queue. -/
def CountsLines (tty : Tty) : Prop := tty.secondary.data.toNat = tty.lines

instance (tty : Tty) : Decidable tty.CountsLines := inferInstanceAs (Decidable (_ = _))

theorem SameInput.countsLines {before after : Tty} (same : before.SameInput after)
    (counts : before.CountsLines) : after.CountsLines := by
  rw [CountsLines, lines, same.endsLine, same.secondary]
  exact counts

theorem lines_lt (tty : Tty) : tty.lines < 1024 := by
  have charsLt : tty.secondary.ring.chars < 1024 := Fin.isLt _
  have atMost : tty.lines ≤ tty.secondary.ring.entries.length := List.countP_le_length
  rw [CellRing.length_entries] at atMost
  omega

/-- The character that `tty_read` gets is no longer counted. -/
theorem CountsLines.getCooked {tty : Tty} (counts : tty.CountsLines)
    (notEmpty : ¬tty.secondary.Empty) : tty.getCooked.CountsLines := by
  have asCons := CellRing.entries_eq_first_cons (by decide) notEmpty
  have total : tty.lines = List.countP tty.endsLine tty.secondary.ring.drop.entries +
      if tty.endsLine tty.secondary.ring.first then 1 else 0 := by
    rw [lines, asCons, List.countP_cons]
  have linesLt := tty.lines_lt
  rw [CountsLines] at counts
  change (if tty.endsLine tty.secondary.ring.first then tty.secondary.data - 1
    else tty.secondary.data).toNat = List.countP tty.endsLine tty.secondary.ring.drop.entries
  cases ends : tty.endsLine tty.secondary.ring.first with
  | false =>
      rw [ends] at total
      simpa [counts] using total
  | true =>
      rw [ends, if_pos rfl, ← counts] at total
      have one : (1 : UInt32).toNat = 1 := rfl
      have atLeast : (1 : UInt32) ≤ tty.secondary.data := by
        rw [UInt32.le_iff_toNat_le, one]
        omega
      rw [if_pos rfl, UInt32.toNat_sub_of_le _ _ atLeast, one]
      omega

/-- A character that is erased was not counted. -/
theorem CountsLines.eraseLast {tty : Tty} (counts : tty.CountsLines)
    (inside : tty.atLineStart = false) : tty.eraseLast.CountsLines := by
  rw [atLineStart, Bool.or_eq_false_iff, decide_eq_false_iff_not] at inside
  have same := tty.sameInput_echoErased tty.secondary.ring.last
  have asAppend := CellRing.entries_eq_append_last (by decide) inside.1
  have total : tty.lines = List.countP tty.endsLine tty.secondary.ring.unput.entries := by
    rw [lines, asAppend, List.countP_append]
    simp [inside.2]
  rw [CountsLines] at counts
  rw [Tty.eraseLast, CountsLines]
  change (tty.echoErased _).secondary.data.toNat =
    List.countP (tty.echoErased _).endsLine (tty.echoErased _).secondary.ring.unput.entries
  rw [same.endsLine, same.secondary, counts, total]

theorem CountsLines.killLine {tty : Tty} (left : Nat) (counts : tty.CountsLines) :
    (tty.killLine left).CountsLines := by
  induction left generalizing tty with
  | zero => exact counts
  | succ left ih =>
      rw [Tty.killLine]
      cases atStart : tty.atLineStart with
      | true => exact counts
      | false => exact ih (counts.eraseLast atStart)

/-- A line end that is put into the cooked queue is counted, and another character is not. -/
theorem CountsLines.putCooked {tty after : Tty} {c : UInt8} (counts : tty.CountsLines)
    (room : ¬tty.secondary.Full) (termios : after.termios = tty.termios)
    (ring : after.secondary.ring = tty.secondary.ring.put c)
    (data : after.secondary.data =
      if tty.endsLine c then tty.secondary.data + 1 else tty.secondary.data) :
    after.CountsLines := by
  have ends : after.endsLine = tty.endsLine := by
    funext c
    rw [endsLine, endsLine, isChar, isChar, termios]
  have linesLt := tty.lines_lt
  rw [CountsLines] at counts
  rw [CountsLines, lines, ends, ring, CellRing.entries_put (by decide) room, List.countP_append, data,
    List.countP_singleton]
  change _ = tty.lines + _
  split
  · have one : (1 : UInt32).toNat = 1 := rfl
    rw [UInt32.toNat_add, one]
    omega
  · exact counts

theorem CountsLines.cookPlain {tty : Tty} (orphaned : Bool) (c : UInt8)
    (counts : tty.CountsLines) (room : ¬tty.secondary.Full) :
    (cookPlain orphaned tty c).CountsLines := by
  rw [Tty.cookPlain]
  split
  · exact (sameInput_write { tty with stopped := true }).countsLines counts
  split
  · exact (sameInput_write { tty with stopped := false }).countsLines counts
  split
  · exact counts
  split
  · exact counts
  split
  · split
    · exact counts
    · exact counts
  -- The character is kept.
  let counted := tty.countLine c
  have same := sameInput_echoChar counted c
  change Tty.CountsLines { counted.echoChar c with
    secondary := (counted.echoChar c).secondary.putch c }
  refine counts.putCooked (c := c) room (same.termios.trans (tty.countLine_termios c)) ?_ ?_
  · change (counted.echoChar c).secondary.ring.put c = _
    rw [same.secondary, countLine_ring]
  · change (counted.echoChar c).secondary.data = _
    rw [same.secondary, countLine_data]

/-- One character of `copy_to_cooked` keeps the counter right. -/
theorem CountsLines.cookChar {tty : Tty} (orphaned : Bool) (c : UInt8)
    (counts : tty.CountsLines) (room : ¬tty.secondary.Full) :
    (cookChar orphaned tty c).CountsLines := by
  rw [Tty.cookChar]
  cases tty.mapInput c with
  | none => exact counts
  | some c =>
      dsimp only
      split
      · exact counts.killLine _
      split
      · cases atStart : tty.atLineStart with
        | true => exact counts
        | false => exact counts.eraseLast atStart
      · exact counts.cookPlain orphaned c room

theorem CountsLines.cookStep {tty after : Tty} {orphaned : Bool} (counts : tty.CountsLines)
    (taken : tty.cookStep orphaned = some after) : after.CountsLines := by
  rw [Tty.cookStep] at taken
  split at taken
  · cases taken
  next runs =>
    cases taken
    have room : ¬tty.secondary.Full := fun full => runs (.inr full)
    let fetched : Tty := { tty with readQ := tty.readQ.getch }
    have counts : fetched.CountsLines := counts
    exact counts.cookChar orphaned tty.readQ.ring.first room

/-- The whole of `copy_to_cooked` keeps the counter right. -/
theorem CountsLines.copyToCooked {tty : Tty} (orphaned : Bool) (counts : tty.CountsLines) :
    (copyToCooked orphaned tty).CountsLines := by
  rw [Tty.copyToCooked]
  induction tty.readQ.ring.chars generalizing tty with
  | zero => exact counts
  | succ left ih =>
      rw [cookLoop]
      cases cooked : Tty.cookStep orphaned tty with
      | none => exact counts
      | some next => exact ih (counts.cookStep cooked)

/-! ## The readers -/

/-- `tty_read` finds nothing exactly when no line is queued and the read queue has room, or no
character is queued at all. -/
def SleepsWithoutLine (tty : Tty) : Prop :=
  tty.mustSleep = true ↔ tty.secondary.ring.entries = [] ∨
    (∀ c ∈ tty.secondary.ring.entries, tty.endsLine c = false) ∧ ¬tty.readQ.Full

instance (tty : Tty) : Decidable tty.SleepsWithoutLine := inferInstanceAs (Decidable (_ ↔ _))

theorem CountsLines.sleepsWithoutLine {tty : Tty} (counts : tty.CountsLines)
    (canonical : tty.lFlag icanon = true) : tty.SleepsWithoutLine := by
  have noLine : tty.secondary.data = 0 ↔
      ∀ c ∈ tty.secondary.ring.entries, tty.endsLine c = false := by
    have zero : (0 : UInt32).toNat = 0 := rfl
    rw [← UInt32.toNat_inj, zero, counts, lines, List.countP_eq_zero]
    simp
  rw [SleepsWithoutLine, mustSleep, canonical, CellRing.entries_eq_nil, ← noLine]
  simp [and_comm]

/-- The counter is right, and `tty_read` sleeps by it. -/
def ReadsLines (tty : Tty) : Prop := tty.CountsLines ∧ tty.SleepsWithoutLine

/-- The next `GETCH` takes no line end out of the cooked queue; one from an empty queue brings all
the other cells back into it, which have none either. -/
def SkipsLineEnd (tty : Tty) : Prop :=
  if tty.secondary.Empty then ∀ c ∈ tty.secondary.ring.drop.entries, tty.endsLine c = false
  else tty.endsLine tty.secondary.ring.first = false

/-- `GETCH` without the counter. -/
def getUncounted (tty : Tty) : Tty := { tty with secondary := tty.secondary.getch }

theorem getUncounted_countsLines {tty : Tty} (counts : tty.CountsLines) :
    tty.getUncounted.CountsLines ↔ tty.SkipsLineEnd := by
  have here : tty.getUncounted.CountsLines ↔
      tty.lines = List.countP tty.endsLine tty.secondary.ring.drop.entries := by
    rw [← counts]
    exact Iff.rfl
  rw [here, SkipsLineEnd]
  split
  next empty =>
    have none : tty.lines = 0 := by
      rw [lines, CellRing.entries_eq_nil.mpr empty]
      rfl
    rw [none, eq_comm, List.countP_eq_zero]
    simp
  next notEmpty =>
    rw [lines, CellRing.entries_eq_first_cons (by decide) notEmpty, List.countP_cons]
    cases tty.endsLine tty.secondary.ring.first with
    | false => simp
    | true => simp

end Tty

section Runs

variable {Task : Type} [DecidableEq Task]

/-- A console as `tty_init` leaves it, from which no task reads. -/
def Readers.init : Readers Task where
  tty := ttyInit
  call _ := .outside

/-- After the step, the counter is right. -/
def StaysCounted (s : Readers Task) (action : ReadAction Task) : Prop :=
  ∀ next, readStep s action = some next → next.tty.ReadsLines

/-- The step is no `GETCH` of `sys_read_simple` that takes a line end. -/
def SkipsLineEnds (s : Readers Task) : ReadAction Task → Prop
  | .pass task =>
      match s.call task with
      | .simple (_ + 1) _ => s.tty.SkipsLineEnd
      | _ => True
  | _ => True

/-- What holds in every state of a run that takes no line end uncounted. -/
structure Readers.Counted (s : Readers Task) : Prop where
  counts : s.tty.CountsLines
  termios : s.tty.termios = consoleTermios

omit [DecidableEq Task] in
theorem Readers.Counted.readsLines {s : Readers Task} (counted : s.Counted) :
    s.tty.ReadsLines := by
  have canonical : s.tty.lFlag icanon = true := by
    rw [Tty.lFlag, counted.termios]
    decide
  exact ⟨counted.counts, counted.counts.sleepsWithoutLine canonical⟩

omit [DecidableEq Task] in
theorem Readers.init_counted : (Readers.init : Readers Task).Counted where
  counts := rfl
  termios := rfl

/-- A turn of `tty_read` leaves the terminal or gets one character. -/
theorem readTurn_tty {s next : Readers Task} {task : Task} {signalled timedOut : Bool}
    (taken : readTurn s task signalled timedOut = some next) :
    next.tty = s.tty ∨ ¬s.tty.secondary.Empty ∧ next.tty = s.tty.getCooked := by
  rw [readTurn] at taken
  split at taken
  · split at taken
    · cases taken
      exact .inl rfl
    split at taken
    · split at taken <;> cases taken <;> exact .inl rfl
    next awake =>
      cases taken
      rw [Tty.mustSleep, Bool.or_eq_true, decide_eq_true_iff] at awake
      exact .inr ⟨fun empty => awake (.inl empty), rfl⟩
  · split at taken
    · cases taken
      exact .inl rfl
    next notEmpty =>
      cases taken
      exact .inr ⟨notEmpty, rfl⟩
  · cases taken

/-- A pass of `sys_read_simple` leaves the terminal or gets one character. -/
theorem readStep_pass {s next : Readers Task} {task : Task}
    (taken : readStep s (.pass task) = some next) :
    (∃ got, s.call task = .simple 0 got ∧ next.tty = s.tty) ∨
      ∃ left got, s.call task = .simple (left + 1) got ∧ next.tty = s.tty.getUncounted := by
  rw [readStep] at taken
  split at taken
  next got atEnd =>
    cases taken
    exact .inl ⟨got, atEnd, rfl⟩
  next left got inLoop =>
    cases taken
    exact .inr ⟨left, got, inLoop, rfl⟩
  · cases taken

/-- One step that takes no line end uncounted. -/
theorem Readers.Counted.readStep {s next : Readers Task} {action : ReadAction Task}
    (counted : s.Counted) (skips : SkipsLineEnds s action)
    (taken : readStep s action = some next) : next.Counted := by
  cases action with
  | key c =>
      cases taken
      exact ⟨counted.counts, counted.termios⟩
  | cook orphaned =>
      rw [ChrDrv.readStep] at taken
      cases cooked : s.tty.cookStep orphaned with
      | none => simp [cooked] at taken
      | some tty =>
          rw [cooked] at taken
          cases taken
          exact ⟨counted.counts.cookStep cooked,
            (Tty.cookStep_termios cooked).trans counted.termios⟩
  | read task nr =>
      rw [ChrDrv.readStep] at taken
      split at taken
      · cases taken
        exact ⟨counted.counts, counted.termios⟩
      · cases taken
  | turn task signalled timedOut =>
      rcases readTurn_tty taken with same | ⟨notEmpty, got⟩
      · exact ⟨same ▸ counted.counts, same ▸ counted.termios⟩
      · exact ⟨got ▸ counted.counts.getCooked notEmpty, got ▸ counted.termios⟩
  | readSimple task =>
      rw [ChrDrv.readStep] at taken
      split at taken
      · cases taken
        exact ⟨counted.counts, counted.termios⟩
      · cases taken
  | pass task =>
      rcases readStep_pass taken with ⟨_, _, same⟩ | ⟨left, got, inLoop, after⟩
      · exact ⟨same ▸ counted.counts, same ▸ counted.termios⟩
      · rw [SkipsLineEnds, inLoop] at skips
        exact ⟨after ▸ (Tty.getUncounted_countsLines counted.counts).mpr skips,
          after ▸ counted.termios⟩

/-- The counter is right in every state of a run exactly when no `GETCH` of `sys_read_simple`
takes a line end. -/
theorem staysCounted_iff (actions : List (ReadAction Task)) :
    EveryStep readStep StaysCounted Readers.init actions ↔
      EveryStep readStep SkipsLineEnds Readers.init actions := by
  have always : EveryStep readStep (fun _ _ => True) Readers.init actions :=
    everyStep_of_forall (fun _ _ => trivial) _ _
  refine everyStep_iff Readers.Counted ?_ ?_ Readers.init_counted always
  · intro s action counted _
    constructor
    · intro stays
      cases action with
      | pass task =>
          rw [SkipsLineEnds]
          split
          next left got inLoop =>
            have taken : readStep s (.pass task) = some (s.moves task s.tty.getUncounted
                (.simple left (got ++ [s.tty.secondary.ring.first]))) := by
              rw [readStep, inLoop]
              rfl
            exact (Tty.getUncounted_countsLines counted.counts).mp (stays _ taken).1
          · trivial
      | _ => trivial
    · intro skips next taken
      exact (counted.readStep skips taken).readsLines
  · intro s action next counted _ skips taken
    exact counted.readStep skips taken

/-- In a run that takes no line end uncounted, the counter is right in every state. -/
theorem readsLines_of_reachedBy {final : Readers Task}
    (reached : ReachedBy readStep SkipsLineEnds Readers.init final) : final.tty.ReadsLines := by
  have counted : final.Counted :=
    reached.invariant Readers.Counted
      (fun _ _ _ counted skips taken => counted.readStep skips taken) Readers.init_counted
  exact counted.readsLines

end Runs

/-- A line is read with `sys_read_simple`, and a character is typed behind it. -/
def uncountedLine : List (ReadAction Unit) :=
  [.key 10, .cook false, .readSimple (), .pass (), .key 97, .cook false]

/-- `tty_read` then does not wait for the line's end. -/
theorem not_readsLines_uncountedLine :
    ∃ final, exec readStep Readers.init uncountedLine = some final ∧
      ¬final.tty.CountsLines ∧ ¬final.tty.SleepsWithoutLine := by
  refine ⟨_, rfl, ?_, ?_⟩
  · decide +kernel
  · decide +kernel

end Linux012.ChrDrv
