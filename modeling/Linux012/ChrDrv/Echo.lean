import Linux012.ChrDrv.Console
import Linux012.ChrDrv.EnterKey
import Linux012.ChrDrv.WriteQueue

/-!
# The echo of a line

What `con_write` shows of the echo of `copy_to_cooked`.  A character is echoed with one cell or with
two, and its erasure with as many erase characters; `del` does not go back to the line above.
-/

namespace Linux012.ChrDrv

open Lib (exec EveryStep CellRing HasLine)

/-! ## Cells of a row -/

namespace Console

variable (con : Console)

/-- The cursor is some columns further to the right. -/
def right (columns : Nat) : Console :=
  { con with pos := con.pos + 2 * UInt32.ofNat columns, x := con.x + UInt32.ofNat columns }

/-- The address of the cell that is some columns to the right of the cursor. -/
def cell (column : Nat) : UInt32 := con.pos + 2 * UInt32.ofNat column

/-- What is stored for a character. -/
def glyph (c : UInt8) : UInt16 :=
  con.attr.toUInt16 <<< 8 ||| (con.translate (c - 32).toNat).toUInt16

theorem right_zero : con.right 0 = con := by
  have none : UInt32.ofNat 0 = 0 := rfl
  rw [right, none, UInt32.mul_zero, UInt32.add_zero, UInt32.add_zero]

theorem right_succ (columns : Nat) : con.right (columns + 1) =
    { con.right columns with
      pos := (con.right columns).pos + 2
      x := (con.right columns).x + 1 } := by
  have one : UInt32.ofNat 1 = 1 := rfl
  rw [right, UInt32.ofNat_add, one, UInt32.mul_add, ← UInt32.add_assoc, ← UInt32.add_assoc,
    UInt32.mul_one]
  rfl

theorem toNat_right_x (columns : Nat) (onRow : con.x.toNat + columns ≤ 80) :
    (con.right columns).x.toNat = con.x.toNat + columns := by
  show (con.x + UInt32.ofNat columns).toNat = _
  rw [UInt32.toNat_add, UInt32.toNat_ofNat']
  omega

variable {con}

/-- The cells of a row are apart. -/
theorem cell_inj {first second : Nat} (ltFirst : first < 80) (ltSecond : second < 80)
    (same : con.cell first = con.cell second) : first = second := by
  have two : (2 : UInt32).toNat = 2 := rfl
  have columns := congrArg UInt32.toNat (UInt32.add_right_inj con.pos |>.mp same)
  rw [UInt32.toNat_mul, UInt32.toNat_mul, UInt32.toNat_ofNat', UInt32.toNat_ofNat', two] at columns
  omega

end Console

namespace Screen

/-- A character with a cell of its own. -/
abbrev Printable (c : UInt8) : Prop := 31 < c ∧ c < 127

/-- The screen shows what it has shown at the start, and the cells behind the cursor of that time.
The rest of that row is as it was or erased. -/
structure Shows (start : Screen) (cells : List UInt8) (s : Screen) : Prop where
  con : s.con = start.con.right cells.length
  shown : ∀ column (inside : column < cells.length),
    s.word (start.con.cell column) = start.con.glyph cells[column]
  rest : ∀ column, cells.length ≤ column → start.con.x.toNat + column < 80 →
    s.word (start.con.cell column) = start.word (start.con.cell column) ∨
      s.word (start.con.cell column) = start.con.videoEraseChar
  others : ∀ address, (∀ column, start.con.x.toNat + column < 80 →
      address ≠ start.con.cell column) → s.word address = start.word address

theorem Shows.refl (s : Screen) : s.Shows [] s where
  con := s.con.right_zero.symm
  shown _ inside := nomatch inside
  rest _ _ _ := Or.inl rfl
  others _ _ := rfl

variable {start s : Screen} {cells burst : List UInt8} {c : UInt8}

/-- A character is shown on the row. -/
theorem Shows.put (shows_ : start.Shows cells s) (printable : Printable c)
    (fits : start.con.x.toNat + cells.length < 80) :
    start.Shows (cells ++ [c]) (conChar 0o177 s c) := by
  have column := start.con.toNat_right_x cells.length (by omega)
  have noWrap : s.wrap = s := by
    have columns : videoNumColumns.toNat = 80 := rfl
    rw [wrap, if_neg]
    rw [shows_.con, ge_iff_le, UInt32.le_iff_toNat_le, column, columns]
    omega
  have isPos : s.con.pos = start.con.cell cells.length := by
    rw [shows_.con]
    rfl
  have isGlyph : s.con.attr.toUInt16 <<< 8 ||| (s.con.translate (c - 32).toNat).toUInt16 =
      start.con.glyph c := by
    rw [shows_.con]
    rfl
  have isWord : (conChar 0o177 s c).word =
      Function.update s.word (start.con.cell cells.length) (start.con.glyph c) := by
    rw [conChar, if_pos printable, showChar, noWrap, ← isPos, ← isGlyph]
    rfl
  have isCon : (conChar 0o177 s c).con =
      { s.con with pos := s.con.pos + 2, x := s.con.x + 1 } := by
    rw [conChar, if_pos printable, showChar, noWrap]
    rfl
  constructor
  · rw [isCon, shows_.con, List.length_append, List.length_singleton, Console.right_succ]
  · intro column inside
    rw [List.length_append, List.length_singleton] at inside
    rw [isWord]
    by_cases isNew : column = cells.length
    · subst isNew
      rw [Function.update_self, List.getElem_concat_length rfl]
    · have old : column < cells.length := by omega
      have apart : start.con.cell column ≠ start.con.cell cells.length := fun same =>
        isNew (Console.cell_inj (by omega) (by omega) same)
      rw [Function.update_of_ne apart, shows_.shown column old, List.getElem_append_left old]
  · intro column behind onRow
    rw [List.length_append, List.length_singleton] at behind
    have apart : start.con.cell column ≠ start.con.cell cells.length := fun same =>
      absurd (Console.cell_inj (by omega) (by omega) same) (by omega)
    rw [isWord, Function.update_of_ne apart]
    exact shows_.rest column (by omega) onRow
  · intro address apart
    rw [isWord, Function.update_of_ne (apart cells.length fits)]
    exact shows_.others address apart

/-- The last cell is erased. -/
theorem Shows.erase (shows_ : start.Shows (cells ++ [c]) s)
    (fits : start.con.x.toNat + cells.length < 80) :
    start.Shows cells (conChar 0o177 s 0o177) := by
  have isLength : (cells ++ [c]).length = cells.length + 1 := by
    rw [List.length_append, List.length_singleton]
  have before := shows_.con
  rw [isLength] at before
  have column := start.con.toNat_right_x (cells.length + 1) (by omega)
  have notFirst : s.con.x ≠ 0 := fun isZero => by
    rw [before] at isZero
    rw [isZero] at column
    have zero : (0 : UInt32).toNat = 0 := rfl
    omega
  have isBack : { s.con with pos := s.con.pos - 2, x := s.con.x - 1 } =
      start.con.right cells.length := by
    rw [before, Console.right_succ]
    dsimp only
    rw [UInt32.add_sub_cancel, UInt32.add_sub_cancel]
  have isDel : conChar 0o177 s 0o177 = s.del := rfl
  have isCon : (conChar 0o177 s 0o177).con = start.con.right cells.length := by
    rw [isDel, del, if_pos notFirst, back, if_pos notFirst, ← isBack]
    rfl
  have isWord : (conChar 0o177 s 0o177).word =
      Function.update s.word (start.con.cell cells.length) start.con.videoEraseChar := by
    have isPos : s.con.pos - 2 = start.con.cell cells.length := congrArg Console.pos isBack
    have isErase : s.con.videoEraseChar = start.con.videoEraseChar := by
      rw [before]
      rfl
    rw [isDel, del, if_pos notFirst, back, if_pos notFirst, ← isPos, ← isErase]
    rfl
  constructor
  · exact isCon
  · intro column inside
    have apart : start.con.cell column ≠ start.con.cell cells.length := fun same =>
      absurd (Console.cell_inj (by omega) (by omega) same) (by omega)
    rw [isWord, Function.update_of_ne apart, shows_.shown column (by omega),
      List.getElem_append_left inside]
  · intro column behind onRow
    rw [isWord]
    by_cases isLast : column = cells.length
    · subst isLast
      exact Or.inr (Function.update_self _ _ _)
    · have apart : start.con.cell column ≠ start.con.cell cells.length := fun same =>
        isLast (Console.cell_inj (by omega) (by omega) same)
      rw [Function.update_of_ne apart]
      exact shows_.rest column (by omega) onRow
  · intro address apart
    rw [isWord, Function.update_of_ne (apart cells.length fits)]
    exact shows_.others address apart

/-- An echo is shown. -/
theorem Shows.echo (shows_ : start.Shows cells s) (printable : ∀ c ∈ burst, Printable c)
    (fits : start.con.x.toNat + cells.length + burst.length ≤ 80) :
    start.Shows (cells ++ burst) (burst.foldl (conChar 0o177) s) := by
  induction burst generalizing cells s with
  | nil =>
      rw [List.append_nil]
      exact shows_
  | cons c burst ih =>
      rw [List.length_cons] at fits
      have one := shows_.put (printable c List.mem_cons_self) (by omega)
      have rest := ih one (fun d member => printable d (List.mem_cons_of_mem c member))
        (by rw [List.length_append, List.length_singleton]; omega)
      rwa [List.append_assoc] at rest

/-- As many erase characters take it away. -/
theorem Shows.unecho (shows_ : start.Shows (cells ++ burst) s)
    (fits : start.con.x.toNat + cells.length + burst.length ≤ 80) :
    start.Shows cells ((List.replicate burst.length 0o177).foldl (conChar 0o177) s) := by
  induction burst using List.reverseRecOn generalizing s with
  | nil =>
      rw [List.append_nil] at shows_
      exact shows_
  | append_singleton burst c ih =>
      rw [List.length_append, List.length_singleton] at fits ⊢
      rw [← List.append_assoc] at shows_
      rw [List.replicate_succ, List.foldl_cons]
      exact ih (shows_.erase (by rw [List.length_append]; omega)) (by omega)

end Screen

/-! ## What is written -/

/-- The characters with which a byte of the line is echoed. -/
def echoOf (c : UInt8) : List UInt8 := if Tty.isLow c then [94, c + 64] else [c]

theorem length_echoOf_le (c : UInt8) : (echoOf c).length ≤ 2 := by
  rw [echoOf]
  split
  · exact le_rfl
  · exact Nat.le_succ 1

theorem erasedEcho_eq (c : UInt8) :
    Tty.erasedEcho c = List.replicate (echoOf c).length 0o177 := by
  rw [Tty.erasedEcho, echoOf]
  split <;> rfl

/-- The byte is put on the line. -/
structure OnLine (c : UInt8) : Prop where
  stroke : strokeOf c = .put c ∨ strokeOf c = .doubtful c
  plain : isLineEnd c = false

theorem onLine_iff (c : UInt8) : OnLine c ↔
    c ≠ 10 ∧ c ≠ 13 ∧ c ≠ 0o25 ∧ c ≠ 0o177 ∧ c ≠ 0o3 ∧ c ≠ 0o34 ∧ c ≠ 0o32 ∧ c ≠ 0o4 := by
  constructor
  · rintro ⟨stroke, plain⟩
    refine ⟨?_, ?_, ?_, ?_, ?_, ?_, ?_, ?_⟩ <;>
    · rintro rfl
      revert stroke plain
      decide
  · rintro ⟨notNewline, notReturn, notKill, notErase, notIntr, notQuit, notSusp, notEof⟩
    refine ⟨?_, ?_⟩
    · rw [strokeOf, if_neg notReturn, if_neg notKill, if_neg notErase]
      split
      · exact Or.inr rfl
      · rw [if_neg (by tauto)]
        exact Or.inl rfl
    · rw [isLineEnd, decide_eq_false notNewline, decide_eq_false notEof]
      rfl

/-- A terminal between the keys, whose write queue `con_write` has emptied. -/
structure Tty.Ready (tty : Tty) : Prop where
  waits : Waits tty
  isCon : tty.driver = .conWrite
  running : tty.stopped = false
  drained : tty.writeQ.Empty

namespace Tty

variable {tty : Tty} {c : UInt8} {burst : List UInt8} (orphaned : Bool)

theorem entries_putAll (fits : burst.length ≤ tty.writeQ.ring.left) :
    (tty.putAll burst).writeQ.ring.entries = tty.writeQ.ring.entries ++ burst ∧
      (tty.putAll burst).shown = tty.shown := by
  induction burst generalizing tty with
  | nil => exact ⟨(List.append_nil _).symm, rfl⟩
  | cons c burst ih =>
      rw [List.length_cons] at fits
      have room : ¬tty.writeQ.Full := by
        rw [TtyQueue.Full, CellRing.Full]
        omega
      have fewer := left_putWrite c room
      obtain ⟨isRest, isShown⟩ := @ih (tty.putWrite c) (by omega)
      have isFirst : (tty.putWrite c).writeQ.ring.entries = tty.writeQ.ring.entries ++ [c] :=
        CellRing.entries_put (by decide) room
      refine ⟨?_, isShown⟩
      have step : tty.putAll (c :: burst) = (tty.putWrite c).putAll burst := rfl
      rw [step, isRest, isFirst, List.append_assoc]
      rfl

/-- What is echoed is shown at once. -/
theorem Ready.emit (ready : tty.Ready) (short : burst.length ≤ 2) :
    (tty.emit burst).shown = tty.shown ++ burst ∧ (tty.emit burst).Ready := by
  have echoes : tty.lFlag echo = true := by
    rw [lFlag, show tty.termios = consoleTermios from ready.waits.console]
    decide
  have noChars := CellRing.empty_iff.mp ready.drained
  have left := CellRing.left_add_chars (by decide) tty.writeQ.ring
  have put := @entries_putAll tty burst (by omega)
  have same := tty.sameInput_putAll burst
  have isEmit : tty.emit burst = (tty.putAll burst).conWrite := by
    rw [Tty.emit, if_pos echoes, write, same.driver.trans ready.isCon]
  have running := same.stopped.trans ready.running
  have emitted := tty.sameInput_emit burst
  constructor
  · have noneLeft : tty.writeQ.ring.entries = [] := CellRing.entries_eq_nil.mpr ready.drained
    rw [isEmit, conWrite, shown_conWriteLoop _ running rfl, put.2, put.1, noneLeft, List.nil_append]
  · constructor
    · constructor
      · exact emitted.termios.trans ready.waits.console
      · rw [typed, emitted.readQ, emitted.secondary]
        exact ready.waits.cooked
    · exact emitted.driver.trans ready.isCon
    · exact emitted.stopped.trans ready.running
    · rw [isEmit]
      exact CellRing.empty_iff.mpr (chars_conWrite running)

theorem Ready.withReadQ (ready : tty.Ready) {readQ : TtyQueue} (empty : readQ.ring.entries = []) :
    ({ tty with readQ := readQ } : Tty).Ready where
  waits := ⟨ready.waits.console, Or.inl empty⟩
  isCon := ready.isCon
  running := ready.running
  drained := ready.drained

/-- A byte of the line is echoed and kept. -/
theorem cookChar_onLine (isConsole : tty.IsConsole) (onLine : OnLine c) :
    tty.cookChar orphaned c = { tty.emit (echoOf c) with
      secondary := (tty.emit (echoOf c)).secondary.putch c } := by
  obtain ⟨notNewline, notReturn, notKill, notErase, notIntr, notQuit, notSusp, notEof⟩ :=
    (onLine_iff c).mp onLine
  obtain ⟨-, -, noXon, isCanon, isSig⟩ := isConsole.flags
  have ctl : tty.lFlag echoctl = true := by
    rw [lFlag, show tty.termios = consoleTermios from isConsole]
    decide
  have isEcho : tty.keptEcho c = echoOf c := by
    rw [keptEcho, if_neg notNewline, ctl, if_pos rfl, echoOf]
  have notCounted : tty.countLine c = tty := by
    rw [countLine, isConsole.endsLine, onLine.plain]
    rfl
  rw [cookChar, isConsole.mapInput, if_neg notReturn]
  dsimp only
  rw [isConsole.isKill, isConsole.isErase, decide_eq_false notKill, decide_eq_false notErase,
    if_neg (by simp), if_neg (by simp), cookPlain, noXon, isConsole.isIntr, isConsole.isQuit,
    isConsole.isSusp, decide_eq_false notIntr, decide_eq_false notQuit, decide_eq_false notSusp]
  simp only [Bool.false_eq_true, false_and, and_false, if_false]
  rw [notCounted, echoChar_eq, isEcho]

/-- The erase character. -/
theorem cookChar_erase (isConsole : tty.IsConsole) :
    tty.cookChar orphaned 0o177 = if tty.atLineStart then tty else tty.eraseLast := by
  obtain ⟨-, -, -, isCanon, -⟩ := isConsole.flags
  rw [cookChar, isConsole.mapInput, if_neg (by decide)]
  dsimp only
  rw [isConsole.isKill, isConsole.isErase, isCanon, if_neg (by decide), if_pos (by decide)]

/-- The erase character behind the start of a line. -/
theorem cookChar_eraseLast {line : List UInt8} (isConsole : tty.IsConsole)
    (isLine : tty.cooked = line ++ [c]) (plain : isLineEnd c = false) :
    tty.cookChar orphaned 0o177 = { tty.emit (erasedEcho c) with
      secondary := (tty.emit (erasedEcho c)).secondary.dec } := by
  obtain ⟨notEmpty, isLast⟩ := last_of_cooked isLine
  rw [cookChar_erase orphaned isConsole, isConsole.atLineStart notEmpty, isLast, plain,
    if_neg Bool.false_ne_true, eraseLast, echoErased_eq, isLast]

/-- What a key shows, and what it leaves on the line. -/
theorem Ready.press_onLine (ready : tty.Ready) (room : ¬tty.secondary.Full) (onLine : OnLine c) :
    (press tty (orphaned, [c])).shown = tty.shown ++ echoOf c ∧
      (press tty (orphaned, [c])).cooked = tty.cooked ++ [c] ∧
      (press tty (orphaned, [c])).Ready := by
  have waits : Waits (press tty (orphaned, [c])) := ready.waits.press
  obtain ⟨readQ, isRest, isPress⟩ := press_eq_cookChar (c := c) ready.waits room
  have isReady := ready.withReadQ isRest
  obtain ⟨isShown, after⟩ := isReady.emit (length_echoOf_le c)
  have isCooked := @IsConsole.char_cooked _ c orphaned isReady.waits.console room
  rw [isPress] at waits ⊢
  have isChar := cookChar_onLine orphaned isReady.waits.console onLine
  refine ⟨?_, ?_, waits, ?_, ?_, ?_⟩
  · rw [isChar]
    exact isShown
  · rw [isCooked]
    rcases onLine.stroke with isStroke | isStroke
    · rw [isStroke]
      rfl
    · rw [isStroke]
      rfl
  · rw [isChar]
    exact after.isCon
  · rw [isChar]
    exact after.running
  · rw [isChar]
    exact after.drained

/-- The erase character behind the start of a line. -/
theorem Ready.press_erase {line : List UInt8} (ready : tty.Ready) (room : ¬tty.secondary.Full)
    (isLine : tty.cooked = line ++ [c]) (plain : isLineEnd c = false) :
    (press tty (orphaned, [0o177])).shown =
        tty.shown ++ List.replicate (echoOf c).length 0o177 ∧
      (press tty (orphaned, [0o177])).cooked = line ∧ (press tty (orphaned, [0o177])).Ready := by
  have waits : Waits (press tty (orphaned, [0o177])) := ready.waits.press
  obtain ⟨readQ, isRest, isPress⟩ := press_eq_cookChar (c := 0o177) ready.waits room
  have isReady := ready.withReadQ isRest
  have isCooked := @IsConsole.char_cooked _ 0o177 orphaned isReady.waits.console room
  obtain ⟨isShown, after⟩ := isReady.emit (Tty.length_erasedEcho c)
  have isChar := cookChar_eraseLast orphaned isReady.waits.console isLine plain
  rw [isPress] at waits ⊢
  refine ⟨?_, ?_, waits, ?_, ?_, ?_⟩
  · rw [isChar, ← erasedEcho_eq]
    exact isShown
  · rw [isCooked]
    show Lib.eraseChar isLineEnd tty.cooked = line
    rw [isLine, Lib.eraseChar, List.getLast?_concat]
    dsimp only
    rw [plain, if_neg Bool.false_ne_true, List.dropLast_concat]
  · rw [isChar]
    exact after.isCon
  · rw [isChar]
    exact after.running
  · rw [isChar]
    exact after.drained

/-- The erase character at the start of a line. -/
theorem Ready.press_eraseStart {before : List UInt8} (ready : tty.Ready)
    (room : ¬tty.secondary.Full) (has : HasLine isLineEnd tty.cooked before []) :
    (press tty (orphaned, [0o177])).shown = tty.shown ∧
      (press tty (orphaned, [0o177])).cooked = tty.cooked ∧
      (press tty (orphaned, [0o177])).Ready := by
  obtain ⟨readQ, isRest, isPress⟩ := press_eq_cookChar (c := 0o177) ready.waits room
  have isReady := ready.withReadQ isRest
  have isStart : ({ tty with readQ := readQ } : Tty).atLineStart = true := by
    by_cases empty : tty.secondary.Empty
    · exact atLineStart_of_empty empty
    · have isLast := getLast_cooked empty
      rw [isReady.waits.console.atLineStart empty]
      refine has.ended _ ?_
      have isBefore := has.eq
      rw [List.append_nil, isLast] at isBefore
      rw [← isBefore, List.getLast?_concat]
      rfl
  have isChar := cookChar_erase orphaned isReady.waits.console
  rw [isStart, if_pos rfl] at isChar
  rw [isPress, isChar]
  exact ⟨rfl, rfl, isReady⟩

end Tty

/-! ## A console -/

/-- A console: its terminal and its screen. -/
structure VirtualConsole where
  tty : Tty
  screen : Screen

namespace VirtualConsole

/-- A key is pressed, and `con_write` shows what it gets from the write queue. -/
def press (con : VirtualConsole) (key : Bool × UInt8) : VirtualConsole :=
  let tty := ChrDrv.press con.tty (key.1, [key.2])
  { tty := tty
    screen := (tty.shown.drop con.tty.shown.length).foldl
      (Screen.conChar (con.tty.termios.cCc vErase)) con.screen }

/-- One step. -/
def pressStep (con : VirtualConsole) (key : Bool × UInt8) : Option VirtualConsole :=
  some (con.press key)

/-- A byte of the line, whose echo has cells of its own in what is left of the row. -/
structure Typable (con : VirtualConsole) (c : UInt8) : Prop where
  onLine : OnLine c
  printable : ∀ d ∈ echoOf c, Screen.Printable d
  fits : con.screen.con.x.toNat + (echoOf c).length ≤ 80

/-- The key is processed, and is the erase character or such a byte. -/
structure Edits (con : VirtualConsole) (key : Bool × UInt8) : Prop where
  room : ¬con.tty.secondary.Full
  key : key.2 = 0o177 ∨ con.Typable key.2

/-- The line is the same, and so are the cursor and all cells that are not behind it on its row. -/
structure Restored (before after : VirtualConsole) : Prop where
  line : after.tty.cooked = before.tty.cooked
  cursor : after.screen.con = before.screen.con
  cells : ∀ address,
    (∀ column, before.screen.con.x.toNat + column < 80 →
      address ≠ before.screen.con.cell column) →
    after.screen.word address = before.screen.word address

variable {con start : VirtualConsole} {key : Bool × UInt8} {c : UInt8} {before line : List UInt8}

/-- The screen shows the prompt and the echo of the line. -/
structure Shows (start : VirtualConsole) (before line : List UInt8) (con : VirtualConsole) :
    Prop where
  ready : con.tty.Ready
  queue : HasLine isLineEnd con.tty.cooked before line
  screen : start.screen.Shows (line.flatMap echoOf) con.screen
  fits : start.screen.con.x.toNat + (line.flatMap echoOf).length ≤ 80

theorem press_tty (con : VirtualConsole) (orphaned : Bool) (c : UInt8) :
    (con.press (orphaned, c)).tty = ChrDrv.press con.tty (orphaned, [c]) := rfl

theorem press_screen (ready : con.tty.Ready) {burst : List UInt8}
    (isShown : (ChrDrv.press con.tty (key.1, [key.2])).shown = con.tty.shown ++ burst) :
    (con.press key).screen = burst.foldl (Screen.conChar 0o177) con.screen := by
  have isErase : con.tty.termios.cCc vErase = 0o177 := by
    rw [show con.tty.termios = consoleTermios from ready.waits.console]
    rfl
  rw [press, isShown, List.drop_left, isErase]

theorem Shows.type (shows_ : start.Shows before line con) (room : ¬con.tty.secondary.Full)
    (typable : con.Typable key.2) : start.Shows before (line ++ [key.2]) (con.press key) := by
  obtain ⟨isShown, isCooked, ready⟩ := shows_.ready.press_onLine key.1 room typable.onLine
  have fits := typable.fits
  have within := shows_.fits
  have onRow : start.screen.con.x.toNat + (line.flatMap echoOf).length +
      (echoOf key.2).length ≤ 80 := by
    rwa [shows_.screen.con, Console.toNat_right_x _ _ within] at fits
  have isEcho : (line ++ [key.2]).flatMap echoOf = line.flatMap echoOf ++ echoOf key.2 := by
    rw [List.flatMap_append, List.flatMap_singleton]
  refine ⟨ready, ?_, ?_, ?_⟩
  · show HasLine isLineEnd (ChrDrv.press con.tty (key.1, [key.2])).cooked before (line ++ [key.2])
    rw [isCooked]
    exact shows_.queue.put typable.onLine.plain
  · rw [press_screen shows_.ready isShown, isEcho]
    exact shows_.screen.echo typable.printable onRow
  · rw [isEcho, List.length_append]
    omega

theorem Shows.erase (shows_ : start.Shows before line con) (room : ¬con.tty.secondary.Full)
    (orphaned : Bool) : start.Shows before line.dropLast (con.press (orphaned, 0o177)) := by
  cases line using List.reverseRecOn with
  | nil =>
      obtain ⟨isShown, isCooked, ready⟩ := shows_.ready.press_eraseStart orphaned room shows_.queue
      have isScreen : (con.press (orphaned, 0o177)).screen = con.screen :=
        @press_screen con (orphaned, 0o177) shows_.ready [] (by rw [isShown, List.append_nil])
      refine ⟨ready, ?_, ?_, shows_.fits⟩
      · show HasLine isLineEnd (ChrDrv.press con.tty (orphaned, [0o177])).cooked before []
        rw [isCooked]
        exact shows_.queue
      · rw [isScreen]
        exact shows_.screen
  | append_singleton line c =>
      have plain := shows_.queue.plain c (List.mem_append_right _ List.mem_cons_self)
      have isLine : con.tty.cooked = (before ++ line) ++ [c] := by
        rw [shows_.queue.eq, List.append_assoc]
      obtain ⟨isShown, isCooked, ready⟩ := shows_.ready.press_erase orphaned room isLine plain
      have isEcho : (line ++ [c]).flatMap echoOf = line.flatMap echoOf ++ echoOf c := by
        rw [List.flatMap_append, List.flatMap_singleton]
      have screen := shows_.screen
      have fits := shows_.fits
      rw [isEcho] at screen fits
      rw [List.length_append] at fits
      rw [List.dropLast_concat]
      refine ⟨ready, ?_, ?_, by omega⟩
      · show HasLine isLineEnd (ChrDrv.press con.tty (orphaned, [0o177])).cooked before line
        rw [isCooked]
        exact ⟨rfl, fun d member => shows_.queue.plain d (List.mem_append_left _ member),
          shows_.queue.ended⟩
      · rw [press_screen shows_.ready isShown]
        exact screen.unecho (by omega)

theorem Shows.step (shows_ : start.Shows before line con) (edits : con.Edits key) :
    ∃ line, start.Shows before line (con.press key) := by
  rcases edits.key with isErase | typable
  · obtain ⟨orphaned, c⟩ := key
    obtain rfl : c = 0o177 := isErase
    exact ⟨_, shows_.erase edits.room orphaned⟩
  · exact ⟨_, shows_.type edits.room typable⟩

theorem Shows.refl (ready : con.tty.Ready) (onScreen : con.screen.con.x.toNat ≤ 80)
    (has : HasLine isLineEnd con.tty.cooked before []) : con.Shows before [] con where
  ready := ready
  queue := has
  screen := .refl _
  fits := onScreen

/-- After any run of such keys, from a prompt on. -/
theorem shows_of_run {final : VirtualConsole} {keys : List (Bool × UInt8)}
    (prompt : con.Shows before [] con) (edits : EveryStep pressStep Edits con keys)
    (ran : exec pressStep con keys = some final) : ∃ line, con.Shows before line final := by
  refine Lib.exec_invariant (fun state => ∃ line, con.Shows before line state) ?_
    ⟨[], prompt⟩ edits ran
  rintro state key next ⟨line, shows_⟩ allowed taken
  cases taken
  exact shows_.step allowed

/-- A byte and the erase character, anywhere on the line. -/
theorem restored_of_typable (ready : con.tty.Ready) (first second : Bool) (typable : con.Typable c)
    (room : ¬con.tty.secondary.Full) (stillRoom : ¬(con.press (first, c)).tty.secondary.Full) :
    con.Restored ((con.press (first, c)).press (second, 0o177)) := by
  obtain ⟨isShown, isCooked, typed⟩ := ready.press_onLine first room typable.onLine
  have fits : con.screen.con.x.toNat + ([] : List UInt8).length + (echoOf c).length ≤ 80 := by
    rw [List.length_nil, Nat.add_zero]
    exact typable.fits
  have echoed : con.screen.Shows ([] ++ echoOf c) (con.press (first, c)).screen := by
    rw [@press_screen con (first, c) ready _ isShown]
    exact (Screen.Shows.refl con.screen).echo typable.printable fits
  rw [← press_tty] at isCooked typed
  obtain ⟨isErased, isLine, -⟩ := typed.press_erase second stillRoom isCooked typable.onLine.plain
  have erased : con.screen.Shows [] ((con.press (first, c)).press (second, 0o177)).screen := by
    rw [@press_screen (con.press (first, c)) (second, 0o177) typed _ isErased]
    exact echoed.unecho fits
  rw [← press_tty] at isLine
  exact ⟨isLine, erased.con.trans con.screen.con.right_zero, erased.others⟩

/-- The erase character undoes the echo of a byte that has room on its row, and after any run of
such bytes and erase characters the screen shows the prompt and the echo of the line. -/
theorem erase_undoes_echo (ready : con.tty.Ready) :
    (∀ first second c, con.Typable c → ¬con.tty.secondary.Full →
      ¬(con.press (first, c)).tty.secondary.Full →
      con.Restored ((con.press (first, c)).press (second, 0o177))) ∧
    ∀ before keys final, con.screen.con.x.toNat ≤ 80 →
      HasLine isLineEnd con.tty.cooked before [] → EveryStep pressStep Edits con keys →
      exec pressStep con keys = some final → ∃ line, con.Shows before line final :=
  ⟨fun first second _ typable => restored_of_typable ready first second typable,
    fun _ _ _ onScreen has => shows_of_run (Shows.refl ready onScreen has)⟩

/-- A fresh console behind a prompt of some columns. -/
def prompted (columns : Nat) : VirtualConsole where
  tty := ttyInit
  screen := (List.replicate columns 36).foldl (Screen.conChar 0o177)
    ⟨Consoles.firstConsole 0x720 0, fun _ => 0x720, []⟩

theorem ttyInit_ready : ttyInit.Ready := ⟨⟨rfl, Or.inl rfl⟩, rfl, rfl, rfl⟩

/-- A tab before the last column but one. -/
theorem erase_undoes_echo_tab :
    (prompted 78).Restored (((prompted 78).press (false, 9)).press (false, 0o177)) ∧
      ∀ keys final, EveryStep pressStep Edits (prompted 78) keys →
        exec pressStep (prompted 78) keys = some final →
        ∃ line, (prompted 78).Shows [] line final :=
  have undoes := @erase_undoes_echo (prompted 78) ttyInit_ready
  ⟨undoes.1 false false 9 ⟨(onLine_iff 9).mpr (by decide), by decide +kernel,
    by decide +kernel⟩ (by decide)
      (by decide +kernel),
    fun keys final => undoes.2 [] keys final (by decide +kernel) HasLine.nil⟩

/-- The EOF character is not erased, and neither is an echo that goes on in the next row. -/
theorem echo_not_undone :
    ¬(prompted 2).Restored (((prompted 2).press (false, 0o4)).press (false, 0o177)) ∧
      ¬(prompted 79).Restored (((prompted 79).press (false, 1)).press (false, 0o177)) := by
  have column (con after : VirtualConsole) (restored : con.Restored after) :
      after.screen.con.x = con.screen.con.x := congrArg Console.x restored.cursor
  refine ⟨fun restored => ?_, fun restored => ?_⟩
  · exact absurd (column _ _ restored) (by decide +kernel)
  · exact absurd (column _ _ restored) (by decide +kernel)

end VirtualConsole

end Linux012.ChrDrv
