import Linux012.ChrDrv.TtyWrite

/-!
# What a call puts for its characters

`tty_write` puts a carriage return in front of each newline.  That it has done so it keeps in
`cr_flag`, which all calls share.
-/

namespace Linux012.ChrDrv

open Linux012.Lib

/-- What is put for a character, with `OPOST` and `ONLCR`. -/
def expand (c : UInt8) : List UInt8 := if c = 10 then [13, 10] else [c]

/-- The output of the terminal has `OPOST` and `ONLCR` set, and nothing else. -/
def Tty.ExpandsNewlines (tty : Tty) : Prop := tty.termios.cOflag = opost ||| onlcr

namespace WriteCall

variable {Line : Type}

/-- The carriage return of the newline that comes next has been put. -/
def HasReturn (call : WriteCall Line) : Prop :=
  call.appended = call.consumed.flatMap expand ++ [13]

/-- What has been put is what belongs to the characters, and at most the carriage return of the
newline that comes next. -/
def Translated (call : WriteCall Line) : Prop :=
  call.appended = call.consumed.flatMap expand ∨ call.rest.head? = some 10 ∧ call.HasReturn

end WriteCall

section Calls

variable {Task Line : Type}

namespace Writers

/-- Every call to a terminal that expands newlines has put the right characters. -/
def Translated (s : Writers Task Line) : Prop :=
  ∀ task call, s.call task = some call → (s.tty call.line).ExpandsNewlines → call.Translated

end Writers

variable [DecidableEq Task] [DecidableEq Line]

/-- Where the step deals with a newline, `cr_flag` says whether this very call has put the carriage
return for it. -/
def FlagIsOwn (s : Writers Task Line) : WriteAction Task Line → Prop
  | .turn task _ =>
      ∀ call ∈ s.call task, call.phase = .filling → ¬(s.tty call.line).writeQ.Full →
        (s.tty call.line).ExpandsNewlines → call.rest.head? = some 10 →
        (s.crFlag = true ↔ call.HasReturn)
  | _ => True

/-- After the step, every call has put the right characters. -/
def StaysTranslated (s : Writers Task Line) (action : WriteAction Task Line) : Prop :=
  ∀ next, writeStep s action = some next → next.Translated

/-! ## One pass -/

/-- The pass puts a carriage return for a newline while `cr_flag` is clear, and otherwise the
character. -/
theorem fillPass_eq {s : Writers Task Line} {call : WriteCall Line} (task : Task) (c : UInt8)
    (rest : List UInt8) (expands : (s.tty call.line).ExpandsNewlines) :
    s.fillPass task call c rest =
      if c = 10 ∧ s.crFlag = false then s.putReturn task call
      else s.putOutput task call c rest c := by
  have isOflag : (s.tty call.line).termios.cOflag = opost ||| onlcr := expands
  have isPost : (s.tty call.line).oFlag opost = true := by
    rw [Tty.oFlag, isOflag]
    decide
  have isNlcr : (s.tty call.line).oFlag onlcr = true := by
    rw [Tty.oFlag, isOflag]
    decide
  have noCrnl : (s.tty call.line).oFlag ocrnl = false := by
    rw [Tty.oFlag, isOflag]
    decide
  have noNlret : (s.tty call.line).oFlag onlret = false := by
    rw [Tty.oFlag, isOflag]
    decide
  have noLcuc : (s.tty call.line).oFlag olcuc = false := by
    rw [Tty.oFlag, isOflag]
    decide
  have isMapped : (s.tty call.line).mapOutput c = c := by
    simp [Tty.mapOutput, noCrnl, noNlret]
  simp [Writers.fillPass, isPost, isNlcr, noLcuc, isMapped]

theorem expand_newline : expand 10 = [13, 10] := rfl

omit [DecidableEq Line] in
/-- The call after a carriage return. -/
theorem translated_return_iff {call : WriteCall Line} (translated : call.Translated)
    (newline : call.rest.head? = some 10) :
    WriteCall.Translated { call with appended := call.appended ++ [13] } ↔ ¬call.HasReturn := by
  constructor
  · intro after has
    rw [WriteCall.HasReturn] at has
    rcases after with same | ⟨_, same⟩
    · have lengths := congrArg List.length same
      simp [has] at lengths
    · have lengths := congrArg List.length same
      simp [has] at lengths
  · intro has
    rcases translated with same | ⟨_, has'⟩
    · refine .inr ⟨newline, ?_⟩
      change call.appended ++ [13] = _
      rw [same]
    · exact absurd has' has

omit [DecidableEq Line] in
/-- The call after a newline's line feed. -/
theorem translated_newline_iff {call : WriteCall Line} (translated : call.Translated)
    (rest : List UInt8) :
    WriteCall.Translated { call with
        rest := rest
        consumed := call.consumed ++ [10]
        appended := call.appended ++ [10] } ↔ call.HasReturn := by
  have expanded : (call.consumed ++ [10]).flatMap expand =
      call.consumed.flatMap expand ++ [13, 10] := by
    simp [expand_newline]
  constructor
  · intro after
    rcases translated with same | ⟨_, has⟩
    · rcases after with after | ⟨_, after⟩
      · have lengths := congrArg List.length after
        simp [expanded, same] at lengths
      · have lengths := congrArg List.length after
        simp [expanded, same] at lengths
    · exact has
  · intro has
    left
    change call.appended ++ [10] = _
    rw [expanded, has]
    simp

omit [DecidableEq Line] in
/-- The call after any other character. -/
theorem translated_other {call : WriteCall Line} {c : UInt8} (translated : call.Translated)
    (isNext : call.rest.head? = some c) (other : c ≠ 10) (rest : List UInt8) :
    WriteCall.Translated { call with
      rest := rest
      consumed := call.consumed ++ [c]
      appended := call.appended ++ [c] } := by
  have same : call.appended = call.consumed.flatMap expand := by
    rcases translated with same | ⟨newline, _⟩
    · exact same
    · rw [isNext] at newline
      exact absurd (Option.some.inj newline) other
  left
  change call.appended ++ [c] = (call.consumed ++ [c]).flatMap expand
  rw [same, List.flatMap_append, List.flatMap_singleton, expand, if_neg other]

/-! ## One step -/

/-- The calls are as far as before, and the settings are the same. -/
structure Writers.SameWork (s next : Writers Task Line) : Prop where
  termios : ∀ line, (next.tty line).termios = (s.tty line).termios
  call : ∀ task call, next.call task = some call →
    (call.consumed = [] ∧ call.appended = []) ∨
      ∃ before, s.call task = some before ∧ call = { before with phase := call.phase }

omit [DecidableEq Task] [DecidableEq Line] in
theorem Writers.SameWork.refl (s : Writers Task Line) : s.SameWork s where
  termios _ := rfl
  call _ call found := .inr ⟨call, found, rfl⟩

omit [DecidableEq Task] in
theorem Writers.SameWork.setTty {s next : Writers Task Line} {line : Line} {tty : Tty}
    (same : s.SameWork next) (termios : tty.termios = (s.tty line).termios) :
    s.SameWork (next.setTty line tty) where
  termios other := by
    change (Function.update next.tty line tty other).termios = _
    rw [Function.update_apply]
    split
    next isLine => rw [isLine, termios]
    · exact same.termios other
  call := same.call

omit [DecidableEq Line] in
theorem Writers.SameWork.setCall {s next : Writers Task Line} {task : Task}
    {call : WriteCall Line} (same : s.SameWork next)
    (work : (call.consumed = [] ∧ call.appended = []) ∨
      ∃ before, s.call task = some before ∧ call = { before with phase := call.phase }) :
    s.SameWork (next.setCall task call) where
  termios := same.termios
  call other found isFound := by
    change Function.update next.call task (some call) other = some found at isFound
    rw [Function.update_apply] at isFound
    split at isFound
    next isTask =>
      cases isFound
      rw [isTask]
      exact work
    · exact same.call other found isFound

/-- A turn of `tty_write` fills in one character, or only goes on. -/
theorem writeTurn_cases {s next : Writers Task Line} {task : Task} {call : WriteCall Line}
    {signalled : Bool} (isCall : s.call task = some call)
    (taken : s.writeTurn task call signalled = some next) :
    (∃ c rest, call.phase = .filling ∧ call.rest = c :: rest ∧
        ¬(s.tty call.line).writeQ.Full ∧ next = s.fillPass task call c rest) ∨
      s.SameWork next := by
  have moves (phase : WritePhase) : s.SameWork (s.setCall task { call with phase := phase }) :=
    (Writers.SameWork.refl s).setCall (.inr ⟨call, isCall, rfl⟩)
  have drains : s.SameWork
      ((s.setTty call.line (s.tty call.line).write).setCall task { call with phase := .top }) :=
    ((Writers.SameWork.refl s).setTty (Tty.sameInput_write _).termios).setCall
      (.inr ⟨call, isCall, rfl⟩)
  rw [Writers.writeTurn] at taken
  split at taken
  · cases taken
    exact .inr (moves _)
  · split at taken
    · cases taken
      exact .inr (moves _)
    split at taken
    · cases taken
      exact .inr (moves _)
    · cases taken
      exact .inr (moves _)
  · split at taken
    · cases taken
      exact .inr (moves _)
    split at taken
    · cases taken
      exact .inr (Writers.SameWork.refl s)
    · cases taken
      exact .inr (moves _)
  · cases taken
    exact .inr drains
  next c rest isFilling isRest =>
    split at taken
    · cases taken
      exact .inr drains
    next room =>
      cases taken
      exact .inl ⟨c, rest, isFilling, isRest, room, rfl⟩
  · cases taken

/-- A step fills in one character of a call, or leaves the calls as far as they are. -/
theorem writeStep_cases {s next : Writers Task Line} {action : WriteAction Task Line}
    (taken : writeStep s action = some next) :
    (∃ task signalled call c rest, action = .turn task signalled ∧ s.call task = some call ∧
        call.phase = .filling ∧ call.rest = c :: rest ∧ ¬(s.tty call.line).writeQ.Full ∧
        next = s.fillPass task call c rest) ∨ s.SameWork next := by
  have same := Writers.SameWork.refl s
  cases action with
  | key line c =>
      cases taken
      exact .inr (same.setTty rfl)
  | cook line orphaned =>
      rw [writeStep] at taken
      cases cooked : (s.tty line).cookStep orphaned with
      | none => simp [cooked] at taken
      | some tty =>
          rw [cooked] at taken
          cases taken
          exact .inr (same.setTty (Tty.cookStep_termios cooked))
  | read line =>
      rw [writeStep] at taken
      split at taken
      · cases taken
      · cases taken
        exact .inr (same.setTty rfl)
  | flow line stopped =>
      cases taken
      exact .inr (same.setTty (Tty.sameInput_write _).termios)
  | drain line =>
      cases taken
      exact .inr (same.setTty (Tty.sameInput_write _).termios)
  | writeChar line =>
      rw [writeStep] at taken
      split at taken
      · cases taken
        exact .inr (same.setTty rfl)
      · cases taken
  | write task line chars =>
      rw [writeStep] at taken
      split at taken
      · cases taken
        exact .inr (same.setCall (.inl ⟨rfl, rfl⟩))
      · cases taken
  | turn task signalled =>
      rw [writeStep] at taken
      cases isCall : s.call task with
      | none => simp [isCall] at taken
      | some call =>
          rw [isCall] at taken
          rcases writeTurn_cases isCall taken with ⟨c, rest, filling, isRest, room, isNext⟩ | same
          · exact .inl ⟨task, signalled, call, c, rest, rfl, isCall, filling, isRest, room, isNext⟩
          · exact .inr same

omit [DecidableEq Task] [DecidableEq Line] in
/-- Calls that are as far as before have put the right characters. -/
theorem Writers.SameWork.translated {s next : Writers Task Line} (same : s.SameWork next)
    (translated : s.Translated) : next.Translated := by
  intro task call isCall expands
  rcases same.call task call isCall with ⟨noneConsumed, noneAppended⟩ | ⟨before, isBefore, eq⟩
  · left
    rw [noneConsumed, noneAppended]
    rfl
  · have line : call.line = before.line := (congrArg WriteCall.line eq :)
    rw [Tty.ExpandsNewlines, same.termios, line] at expands
    have held := translated task before isBefore expands
    rw [eq]
    exact held

/-- What a fill pass leaves of the others. -/
structure Writers.Fills (s next : Writers Task Line) (task : Task) (call after : WriteCall Line) :
    Prop where
  termios : ∀ line, (next.tty line).termios = (s.tty line).termios
  others : ∀ other, other ≠ task → next.call other = s.call other
  isAfter : next.call task = some after
  isLine : after.line = call.line

theorem putReturn_fills (s : Writers Task Line) (task : Task) (call : WriteCall Line) :
    s.Fills (s.putReturn task call) task call
      { call with appended := call.appended ++ [13] } where
  termios line := by
    change (Function.update s.tty call.line ((s.tty call.line).putWrite 13) line).termios = _
    rw [Function.update_apply]
    split
    next isLine => rw [isLine]; rfl
    · rfl
  others other differs := Function.update_of_ne differs _ _
  isAfter := Function.update_self _ _ _
  isLine := rfl

theorem putOutput_fills (s : Writers Task Line) (task : Task) (call : WriteCall Line)
    (c : UInt8) (rest : List UInt8) (out : UInt8) :
    s.Fills (s.putOutput task call c rest out) task call
      { call with
        rest := rest
        consumed := call.consumed ++ [c]
        appended := call.appended ++ [out] } where
  termios line := by
    change (Function.update s.tty call.line ((s.tty call.line).putWrite out) line).termios = _
    rw [Function.update_apply]
    split
    next isLine => rw [isLine]; rfl
    · rfl
  others other differs := Function.update_of_ne differs _ _
  isAfter := Function.update_self _ _ _
  isLine := rfl

theorem fillPass_fills (s : Writers Task Line) (task : Task) (call : WriteCall Line) (c : UInt8)
    (rest : List UInt8) : ∃ after, s.Fills (s.fillPass task call c rest) task call after := by
  rw [Writers.fillPass]
  dsimp only
  split
  · split
    · exact ⟨_, putReturn_fills s task call⟩
    · exact ⟨_, putOutput_fills s task call c rest _⟩
  · exact ⟨_, putOutput_fills s task call c rest c⟩

omit [DecidableEq Task] [DecidableEq Line] in
/-- A fill pass concerns its own call alone. -/
theorem Writers.Fills.translated_iff {s next : Writers Task Line} {task : Task}
    {call after : WriteCall Line} (fills : s.Fills next task call after)
    (translated : s.Translated) :
    next.Translated ↔ ((s.tty call.line).ExpandsNewlines → after.Translated) := by
  have expands_iff (line : Line) :
      (next.tty line).ExpandsNewlines ↔ (s.tty line).ExpandsNewlines := by
    rw [Tty.ExpandsNewlines, Tty.ExpandsNewlines, fills.termios]
  constructor
  · intro held expands
    exact held task after fills.isAfter (by rwa [expands_iff, fills.isLine])
  · intro held other found isFound expands
    rw [expands_iff] at expands
    by_cases isTask : other = task
    · rw [isTask, fills.isAfter] at isFound
      cases isFound
      rw [fills.isLine] at expands
      exact held expands
    · rw [fills.others other isTask] at isFound
      exact translated other found isFound expands

/-- A fill pass puts the right character exactly when `cr_flag` is the call's own. -/
theorem fillPass_translated_iff {s : Writers Task Line} {task : Task} {call : WriteCall Line}
    {c : UInt8} {rest : List UInt8} (translated : s.Translated)
    (isCall : s.call task = some call) (isRest : call.rest = c :: rest) :
    (s.fillPass task call c rest).Translated ↔
      ((s.tty call.line).ExpandsNewlines → c = 10 → (s.crFlag = true ↔ call.HasReturn)) := by
  by_cases expands : (s.tty call.line).ExpandsNewlines
  · have before := translated task call isCall expands
    have isNext : call.rest.head? = some c := by
      rw [isRest]
      rfl
    rw [fillPass_eq task c rest expands]
    by_cases newline : c = 10
    · subst newline
      cases flag : s.crFlag with
      | false =>
          rw [if_pos ⟨rfl, rfl⟩, (putReturn_fills s task call).translated_iff translated,
            translated_return_iff before isNext]
          simp [expands]
      | true =>
          rw [if_neg (by simp), (putOutput_fills s task call 10 rest 10).translated_iff translated,
            translated_newline_iff before rest]
          simp [expands]
    · rw [if_neg (by simp [newline]),
        (putOutput_fills s task call c rest c).translated_iff translated]
      have other := translated_other before isNext newline rest
      simp [other, newline]
  · obtain ⟨after, fills⟩ := fillPass_fills s task call c rest
    rw [fills.translated_iff translated]
    simp [expands]

/-! ## Runs -/

omit [DecidableEq Task] [DecidableEq Line] in
theorem Writers.boot_translated (tty : Line → Tty) :
    (Writers.boot tty : Writers Task Line).Translated := by
  intro task call isCall
  cases isCall

/-- Every call puts the right characters, in every state of a run, exactly when each newline finds
`cr_flag` as its own call has left it. -/
theorem staysTranslated_iff (tty : Line → Tty) (actions : List (WriteAction Task Line)) :
    EveryStep writeStep StaysTranslated (Writers.boot tty) actions ↔
      EveryStep writeStep FlagIsOwn (Writers.boot tty) actions := by
  have always : EveryStep writeStep (fun _ _ => True) (Writers.boot tty) actions :=
    everyStep_of_forall (fun _ _ => trivial) _ _
  have allowed (s next : Writers Task Line) (action : WriteAction Task Line)
      (translated : s.Translated) (own : FlagIsOwn s action)
      (taken : writeStep s action = some next) : next.Translated := by
    rcases writeStep_cases taken with
      ⟨task, signalled, call, c, rest, isTurn, isCall, filling, isRest, room, isNext⟩ | same
    · rw [isNext, fillPass_translated_iff translated isCall isRest]
      intro expands newline
      rw [isTurn] at own
      refine own call isCall filling room expands ?_
      rw [isRest, newline]
      rfl
    · exact same.translated translated
  refine everyStep_iff Writers.Translated ?_ ?_ (Writers.boot_translated tty) always
  · intro s action translated _
    constructor
    · intro stays
      cases action with
      | turn task signalled =>
          intro call isCall filling room expands isNewline
          obtain ⟨rest, isRest⟩ : ∃ rest, call.rest = 10 :: rest :=
            ⟨call.rest.tail, (List.cons_head?_tail isNewline).symm⟩
          have taken : writeStep s (.turn task signalled) =
              some (s.fillPass task call 10 rest) := by
            rw [writeStep, isCall]
            simp [Writers.writeTurn, filling, isRest, room]
          have after := stays _ taken
          exact (fillPass_translated_iff translated isCall isRest).mp after expands rfl
      | _ => trivial
    · intro own next taken
      exact allowed s next action translated own taken
  · intro s action next translated _ own taken
    exact allowed s next action translated own taken

end Calls

/-! ## Two calls at once -/

/-- A stopped console on which one more character can be put. -/
def nearlyFullTty : Tty :=
  { ttyInit with
    stopped := true
    writeQ := ⟨0, ⟨1022, 0, fun _ => 97⟩⟩
    written := List.replicate 1022 97 }

/-- One task writes a newline to the console that is nearly full, and another one to a console that
is not, while the first one sleeps. -/
def twoNewlines : List (WriteAction Bool Bool) :=
  [.write true true [10], .turn true false, .turn true false, .turn true false, .turn true false,
    .write false false [10], .turn false false, .turn false false]

/-- The second task's newline gets no carriage return. -/
theorem not_translated_twoNewlines :
    ∃ final call, exec writeStep
        (Writers.boot fun line => if line then nearlyFullTty else ttyInit) twoNewlines =
          some final ∧
      final.call false = some call ∧ call.consumed = [10] ∧ call.appended = [10] ∧
      ¬final.Translated := by
  have ends : (exec writeStep
      (Writers.boot fun line => if line then nearlyFullTty else ttyInit) twoNewlines).map
        (fun final => (final.call false, (final.tty false).termios.cOflag)) =
      some (some ⟨false, .filling, [], [10], [10]⟩, opost ||| onlcr) := by
    decide +kernel
  obtain ⟨final, ran, isFinal⟩ := Option.map_eq_some_iff.mp ends
  obtain ⟨isCall, expands⟩ := Prod.mk.inj isFinal
  refine ⟨final, _, ran, isCall, rfl, rfl, ?_⟩
  intro translated
  rcases translated false _ isCall expands with same | ⟨newline, _⟩
  · exact absurd same (by decide)
  · exact absurd newline (by decide)

end Linux012.ChrDrv
