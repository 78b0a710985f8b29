import Linux012.ChrDrv.TtyIo
import Linux012.Lib.LineEditing

/-!
# The line editor of a console

`copy_to_cooked` with the settings of `tty_init`, as an editor of the cooked queue.  `tty_init` has
`IXON` among the local flags, so that the start and the stop character are characters like others.
-/

namespace Linux012.ChrDrv

open Lib (CellRing Stroke editStroke eraseChar eraseLine Emptied)

/-- A newline or the EOF character. -/
def isLineEnd (c : UInt8) : Bool := c = 10 || c = 0o4

/-- What a byte does to the line; the start and the stop character are the doubtful ones. -/
def strokeOf (c : UInt8) : Stroke UInt8 :=
  let c := if c = 13 then 10 else c
  if c = 0o25 then .kill
  else if c = 0o177 then .erase
  else if c = 0o23 ∨ c = 0o21 then .doubtful c
  else if c = 0o3 ∨ c = 0o34 ∨ c = 0o32 then .ignored
  else .put c

/-- The line editor that drops the start and the stop character. -/
def edit (input : List UInt8) : List UInt8 :=
  (input.map strokeOf).foldl (editStroke isLineEnd false) []

namespace Tty

/-- The settings of `tty_init`. -/
def IsConsole (tty : Tty) : Prop := tty.termios = consoleTermios

section Settings

variable {tty : Tty} {c : UInt8}

theorem IsConsole.isChar {which : Fin 17} {value : UInt8} (isConsole : tty.IsConsole)
    (isValue : initCCc which = value) (used : value ≠ 0 ∧ value < 128) :
    tty.isChar which c = decide (c = value) := by
  rw [Tty.isChar, isConsole, decide_eq_decide]
  show initCCc which ≠ 0 ∧ c = initCCc which ∧ c < 128 ↔ c = value
  rw [isValue]
  refine ⟨fun all => all.2.1, ?_⟩
  rintro rfl
  exact ⟨used.1, rfl, used.2⟩

theorem IsConsole.isEof (isConsole : tty.IsConsole) : tty.isChar vEof c = decide (c = 0o4) :=
  isConsole.isChar rfl (by decide)

theorem IsConsole.isKill (isConsole : tty.IsConsole) : tty.isChar vKill c = decide (c = 0o25) :=
  isConsole.isChar rfl (by decide)

theorem IsConsole.isErase (isConsole : tty.IsConsole) :
    tty.isChar vErase c = decide (c = 0o177) :=
  isConsole.isChar rfl (by decide)

theorem IsConsole.isIntr (isConsole : tty.IsConsole) : tty.isChar vIntr c = decide (c = 0o3) :=
  isConsole.isChar rfl (by decide)

theorem IsConsole.isQuit (isConsole : tty.IsConsole) : tty.isChar vQuit c = decide (c = 0o34) :=
  isConsole.isChar rfl (by decide)

theorem IsConsole.isSusp (isConsole : tty.IsConsole) : tty.isChar vSusp c = decide (c = 0o32) :=
  isConsole.isChar rfl (by decide)

theorem IsConsole.endsLine (isConsole : tty.IsConsole) : tty.endsLine c = isLineEnd c := by
  rw [Tty.endsLine, isConsole.isEof, isLineEnd]

/-- The flags of a console. -/
theorem IsConsole.flags (isConsole : tty.IsConsole) :
    tty.iFlag icrnl = true ∧ tty.iFlag iuclc = false ∧ tty.iFlag ixon = false ∧
      tty.lFlag icanon = true ∧ tty.lFlag isig = true := by
  simp only [iFlag, lFlag, show tty.termios = consoleTermios from isConsole]
  decide

/-- A carriage return is read as a newline. -/
theorem IsConsole.mapInput (isConsole : tty.IsConsole) :
    tty.mapInput c = some (if c = 13 then 10 else c) := by
  obtain ⟨crnl, uclc, -⟩ := isConsole.flags
  have noNlcr : tty.iFlag inlcr = false := by
    rw [iFlag, isConsole]
    decide
  rw [Tty.mapInput, crnl, uclc, noNlcr]
  by_cases isReturn : c = 13
  · simp [isReturn]
  · simp [isReturn]

end Settings

/-! ## The cooked queue -/

section Cooked

variable {tty : Tty} {c : UInt8} {orphaned : Bool}

/-- The characters of the cooked queue. -/
def cooked (tty : Tty) : List UInt8 := tty.secondary.ring.entries

theorem getLast_cooked (notEmpty : ¬tty.secondary.Empty) :
    tty.cooked = tty.secondary.ring.unput.entries ++ [tty.secondary.ring.last] :=
  CellRing.entries_eq_append_last (by decide) notEmpty

theorem atLineStart_of_empty (empty : tty.secondary.Empty) : tty.atLineStart = true := by
  rw [atLineStart, decide_eq_true empty]
  rfl

theorem IsConsole.atLineStart (isConsole : tty.IsConsole) (notEmpty : ¬tty.secondary.Empty) :
    tty.atLineStart = isLineEnd tty.secondary.ring.last := by
  rw [Tty.atLineStart, isConsole.endsLine, decide_eq_false notEmpty, Bool.false_or]

theorem eraseLast_cooked : tty.eraseLast.cooked = tty.secondary.ring.unput.entries := by
  have same := (tty.sameInput_echoErased tty.secondary.ring.last).secondary
  show (tty.echoErased tty.secondary.ring.last).secondary.ring.unput.entries = _
  rw [same]

/-- The erase character. -/
theorem IsConsole.erase_cooked (isConsole : tty.IsConsole) :
    (if tty.atLineStart then tty else tty.eraseLast).cooked = eraseChar isLineEnd tty.cooked := by
  by_cases empty : tty.secondary.Empty
  · have none : tty.cooked = [] := CellRing.entries_eq_nil.mpr empty
    rw [atLineStart_of_empty empty, if_pos rfl, none]
    rfl
  · have isLast := getLast_cooked empty
    rw [isConsole.atLineStart empty, eraseChar, isLast, List.getLast?_concat]
    dsimp only
    split
    · exact isLast
    · rw [List.dropLast_concat, eraseLast_cooked]

/-- The kill character. -/
theorem IsConsole.kill_cooked {left : Nat} (isConsole : tty.IsConsole)
    (enough : tty.secondary.ring.chars ≤ left) :
    (killLine left tty).cooked = eraseLine isLineEnd tty.cooked := by
  induction left generalizing tty with
  | zero =>
      have empty := CellRing.empty_iff.mpr (Nat.le_zero.mp enough)
      have none : tty.cooked = [] := CellRing.entries_eq_nil.mpr empty
      rw [killLine, none, eraseLine, List.rdropWhile_nil]
  | succ left ih =>
      rw [killLine]
      by_cases empty : tty.secondary.Empty
      · have none : tty.cooked = [] := CellRing.entries_eq_nil.mpr empty
        rw [atLineStart_of_empty empty, if_pos rfl, none, eraseLine, List.rdropWhile_nil]
      · have isLast := getLast_cooked empty
        rw [isConsole.atLineStart empty]
        cases isEnd : isLineEnd tty.secondary.ring.last with
        | true =>
            have stops : ¬(!isLineEnd tty.secondary.ring.last) = true := by simp [isEnd]
            rw [if_pos rfl, isLast, eraseLine,
              List.rdropWhile_concat_neg (p := (!isLineEnd ·)) _ _ stops]
        | false =>
            have goes : (!isLineEnd tty.secondary.ring.last) = true := by simp [isEnd]
            have fewer := CellRing.chars_unput (by decide) empty
            have chars : tty.eraseLast.secondary.ring.chars = tty.secondary.ring.unput.chars := by
              rw [← CellRing.length_entries, ← CellRing.length_entries]
              exact congrArg List.length eraseLast_cooked
            rw [if_neg Bool.false_ne_true, ih (tty.eraseLast_termios.trans isConsole) (by omega),
              eraseLast_cooked, isLast, eraseLine, eraseLine,
              List.rdropWhile_concat_pos (p := (!isLineEnd ·)) _ _ goes]

/-- A character that is neither the kill nor the erase character. -/
theorem IsConsole.plain_cooked (isConsole : tty.IsConsole) (room : ¬tty.secondary.Full) :
    (cookPlain orphaned tty c).cooked =
      if c = 0o3 ∨ c = 0o34 ∨ c = 0o32 then tty.cooked else tty.cooked ++ [c] := by
  obtain ⟨-, -, noXon, -, isSig⟩ := isConsole.flags
  have kept : ({ (tty.countLine c).echoChar c with
      secondary := ((tty.countLine c).echoChar c).secondary.putch c } : Tty).cooked =
        tty.cooked ++ [c] := by
    have same := (sameInput_echoChar (tty.countLine c) c).secondary
    show (((tty.countLine c).echoChar c).secondary.ring.put c).entries = _
    rw [same, countLine_ring, CellRing.entries_put (by decide) room]
    rfl
  rw [cookPlain, noXon, isSig, isConsole.isIntr, isConsole.isQuit, isConsole.isSusp]
  simp only [Bool.false_eq_true, false_and, if_false, true_and, decide_eq_true_eq]
  by_cases isIntr : c = 0o3
  · rw [if_pos isIntr, if_pos (Or.inl isIntr)]
    rfl
  · rw [if_neg isIntr]
    by_cases isQuit : c = 0o34
    · rw [if_pos isQuit, if_pos (Or.inr (Or.inl isQuit))]
      rfl
    · rw [if_neg isQuit]
      by_cases isSusp : c = 0o32
      · rw [if_pos isSusp, if_pos (Or.inr (Or.inr isSusp))]
        split <;> rfl
      · rw [if_neg isSusp, if_neg (by tauto)]
        exact kept

/-- One character of `copy_to_cooked`. -/
theorem IsConsole.char_cooked (isConsole : tty.IsConsole) (room : ¬tty.secondary.Full) :
    (cookChar orphaned tty c).cooked = editStroke isLineEnd true tty.cooked (strokeOf c) := by
  obtain ⟨-, -, -, isCanon, -⟩ := isConsole.flags
  rw [cookChar, isConsole.mapInput, strokeOf]
  obtain ⟨c, isMapped⟩ : ∃ mapped, (if c = 13 then 10 else c) = mapped := ⟨_, rfl⟩
  rw [isMapped]
  dsimp only
  rw [isCanon, isConsole.isKill, isConsole.isErase]
  simp only [true_and, decide_eq_true_eq]
  by_cases isKill : c = 0o25
  · rw [if_pos isKill, if_pos isKill]
    exact isConsole.kill_cooked (le_refl _)
  · rw [if_neg isKill, if_neg isKill]
    by_cases isErase : c = 0o177
    · rw [if_pos isErase, if_pos isErase]
      exact isConsole.erase_cooked
    · rw [if_neg isErase, if_neg isErase, isConsole.plain_cooked room]
      by_cases isFlow : c = 0o23 ∨ c = 0o21
      · have notSignal : ¬(c = 0o3 ∨ c = 0o34 ∨ c = 0o32) := by
          rcases isFlow with rfl | rfl <;> decide
        rw [if_pos isFlow, if_neg notSignal]
        rfl
      · rw [if_neg isFlow]
        split
        · rfl
        · rfl

end Cooked

/-! ## The read queue -/

section ReadQueue

variable {tty after : Tty} {c : UInt8} {orphaned : Bool} {left : Nat}

theorem eraseLast_readQ : tty.eraseLast.readQ = tty.readQ :=
  (tty.sameInput_echoErased tty.secondary.ring.last).readQ

theorem killLine_readQ : (killLine left tty).readQ = tty.readQ := by
  induction left generalizing tty with
  | zero => rfl
  | succ left ih =>
      rw [killLine]
      split
      · rfl
      · exact ih.trans eraseLast_readQ

theorem cookPlain_readQ : (cookPlain orphaned tty c).readQ = tty.readQ := by
  rw [cookPlain]
  split
  · exact (sameInput_write _).readQ
  split
  · exact (sameInput_write _).readQ
  split
  · rfl
  split
  · rfl
  split
  · split <;> rfl
  · have counted : (tty.countLine c).readQ = tty.readQ := by
      rw [countLine]
      split <;> rfl
    exact (sameInput_echoChar _ c).readQ.trans counted

/-- A character that is cooked has been got before. -/
theorem cookChar_readQ : (cookChar orphaned tty c).readQ = tty.readQ := by
  rw [cookChar]
  cases tty.mapInput c with
  | none => rfl
  | some c =>
      dsimp only
      split
      · exact killLine_readQ
      split
      · split
        · rfl
        · exact eraseLast_readQ
      · exact cookPlain_readQ

/-- The characters of the read queue. -/
def typed (tty : Tty) : List UInt8 := tty.readQ.ring.entries

/-- `copy_to_cooked`, when it gets all characters of the read queue. -/
theorem IsConsole.cookLoop_cooked (isConsole : tty.IsConsole)
    (enough : tty.readQ.ring.chars ≤ left) (drained : (cookLoop orphaned left tty).readQ.Empty) :
    (cookLoop orphaned left tty).IsConsole ∧
      (cookLoop orphaned left tty).cooked =
        (tty.typed.map strokeOf).foldl (editStroke isLineEnd true) tty.cooked := by
  induction left generalizing tty with
  | zero =>
      have empty := CellRing.empty_iff.mpr (Nat.le_zero.mp enough)
      have none : tty.typed = [] := CellRing.entries_eq_nil.mpr empty
      rw [none]
      exact ⟨isConsole, rfl⟩
  | succ left ih =>
      by_cases stops : tty.readQ.Empty ∨ tty.secondary.Full
      · have stopped : cookLoop orphaned (left + 1) tty = tty := by
          rw [cookLoop, cookStep, if_pos stops]
        rw [stopped] at drained ⊢
        have none : tty.typed = [] := CellRing.entries_eq_nil.mpr drained
        rw [none]
        exact ⟨isConsole, rfl⟩
      · obtain ⟨notEmpty, room⟩ := not_or.mp stops
        let fetched : Tty := { tty with readQ := tty.readQ.getch }
        have isFirst : tty.typed = tty.readQ.ring.first :: fetched.typed :=
          CellRing.entries_eq_first_cons (by decide) notEmpty
        have fewer := CellRing.chars_drop (by decide) notEmpty
        have step : cookLoop orphaned (left + 1) tty =
            cookLoop orphaned left (cookChar orphaned fetched tty.readQ.ring.first) := by
          rw [cookLoop, cookStep, if_neg stops]
        have sameRead : (cookChar orphaned fetched tty.readQ.ring.first).readQ = fetched.readQ :=
          cookChar_readQ
        have isFetched : fetched.IsConsole := isConsole
        have isCooked := @IsConsole.char_cooked fetched tty.readQ.ring.first orphaned isFetched room
        have chars : (cookChar orphaned fetched tty.readQ.ring.first).readQ.ring.chars ≤ left := by
          rw [sameRead]
          show tty.readQ.ring.drop.chars ≤ left
          omega
        have sameTyped : (cookChar orphaned fetched tty.readQ.ring.first).typed = fetched.typed := by
          rw [typed, sameRead]
          rfl
        rw [step] at drained ⊢
        obtain ⟨isConsole', isRest⟩ :=
          ih ((cookChar_termios orphaned fetched _).trans isConsole) chars drained
        refine ⟨isConsole', ?_⟩
        rw [isRest, isCooked, sameTyped, isFirst]
        rfl

end ReadQueue

end Tty

/-! ## What is handed to the editor -/

section Hand

variable {tty after : Tty}

/-- A byte is put into the read queue, if there is room. -/
def putTyped (tty : Tty) (c : UInt8) : Option Tty :=
  if tty.readQ.Full then none else some { tty with readQ := tty.readQ.putch c }

/-- Some bytes are typed, and `copy_to_cooked` runs, unless it stops at a full queue. -/
def hand (tty : Tty) (bytes : Bool × List UInt8) : Option Tty := do
  let tty ← bytes.2.foldlM putTyped tty
  let tty := tty.copyToCooked bytes.1
  if tty.readQ.Empty then some tty else none

theorem putTyped_foldlM {bytes : List UInt8} (ran : bytes.foldlM putTyped tty = some after) :
    after.typed = tty.typed ++ bytes ∧ after.cooked = tty.cooked ∧
      after.termios = tty.termios := by
  induction bytes generalizing tty with
  | nil =>
      cases ran
      exact ⟨(List.append_nil _).symm, rfl, rfl⟩
  | cons c bytes ih =>
      rw [List.foldlM_cons, putTyped] at ran
      by_cases full : tty.readQ.Full
      · rw [if_pos full] at ran
        cases ran
      · rw [if_neg full] at ran
        obtain ⟨isTyped, isCooked, isTermios⟩ := ih ran
        refine ⟨?_, isCooked, isTermios⟩
        have put : ({ tty with readQ := tty.readQ.putch c } : Tty).typed = tty.typed ++ [c] :=
          CellRing.entries_put (by decide) full
        rw [isTyped, put, List.append_assoc]
        rfl

theorem hand_cooked {bytes : Bool × List UInt8} (isConsole : tty.IsConsole)
    (noneTyped : tty.typed = []) (ran : hand tty bytes = some after) :
    after.IsConsole ∧ after.typed = [] ∧
      after.cooked = (bytes.2.map strokeOf).foldl (editStroke isLineEnd true) tty.cooked := by
  obtain ⟨filled, isFilled, ran⟩ := Option.bind_eq_some_iff.mp ran
  obtain ⟨isTyped, isCooked, isTermios⟩ := putTyped_foldlM isFilled
  dsimp only at ran
  split at ran
  next drained =>
    cases ran
    have isFilledConsole : filled.IsConsole := isTermios.trans isConsole
    obtain ⟨isConsole', isRest⟩ := isFilledConsole.cookLoop_cooked (le_refl _) drained
    refine ⟨isConsole', CellRing.entries_eq_nil.mpr drained, ?_⟩
    rw [noneTyped, List.nil_append] at isTyped
    rw [isTyped, isCooked] at isRest
    exact isRest
  next => cases ran

/-- All that was handed to the editor, in any portions. -/
theorem hand_foldlM {portions : List (Bool × List UInt8)} (isConsole : tty.IsConsole)
    (noneTyped : tty.typed = []) (ran : portions.foldlM hand tty = some after) :
    after.cooked =
      ((portions.flatMap (·.2)).map strokeOf).foldl (editStroke isLineEnd true) tty.cooked := by
  induction portions generalizing tty with
  | nil =>
      cases ran
      rfl
  | cons bytes portions ih =>
      rw [List.foldlM_cons] at ran
      obtain ⟨next, isNext, ran⟩ := Option.bind_eq_some_iff.mp ran
      obtain ⟨isConsole', noneTyped', isCooked⟩ := hand_cooked isConsole noneTyped isNext
      rw [ih isConsole' noneTyped' ran, isCooked, List.flatMap_cons, List.map_append,
        List.foldl_append]

theorem strokeOf_doubtful {c d : UInt8} (isDoubtful : strokeOf c = .doubtful d) :
    isLineEnd d = false := by
  rw [strokeOf] at isDoubtful
  obtain ⟨c, isMapped⟩ : ∃ mapped, (if c = 13 then 10 else c) = mapped := ⟨_, rfl⟩
  rw [isMapped] at isDoubtful
  repeat' split at isDoubtful
  all_goals cases isDoubtful
  rename_i isFlow
  rcases isFlow with rfl | rfl
  · decide
  · decide

/-- For all bytes that are handed to a console and find room: the cooked queue has what the line
editor leaves if and only if each line has been emptied behind its last start or stop character. -/
theorem cooked_eq_edit_iff {portions : List (Bool × List UInt8)} (isConsole : tty.IsConsole)
    (noneTyped : tty.typed = []) (noneCooked : tty.cooked = [])
    (ran : portions.foldlM hand tty = some after) :
    after.cooked = edit (portions.flatMap (·.2)) ↔
      Emptied isLineEnd ((portions.flatMap (·.2)).map strokeOf) := by
  rw [hand_foldlM isConsole noneTyped ran, noneCooked, edit]
  refine Lib.editStroke_foldl_iff fun c member => ?_
  obtain ⟨d, -, isDoubtful⟩ := List.mem_map.mp member
  exact strokeOf_doubtful isDoubtful

/-- `"ab"`, the erase character and Enter, in two portions. -/
theorem cooked_eq_edit_typed :
    ∃ after, [(false, [97, 98]), (false, [0o177, 13])].foldlM hand ttyInit = some after ∧
      after.cooked = edit [97, 98, 0o177, 13] :=
  ⟨_, rfl, (@cooked_eq_edit_iff ttyInit _ [(false, [97, 98]), (false, [0o177, 13])] rfl rfl rfl
    rfl).mpr (by decide)⟩

/-- The stop character alone: it is kept. -/
theorem cooked_ne_edit_stop :
    ∃ after, [(false, [0o23])].foldlM hand ttyInit = some after ∧ after.cooked ≠ edit [0o23] :=
  ⟨_, rfl, by decide⟩

end Hand

end Linux012.ChrDrv
