import Linux012.ChrDrv.LineEditor

/-!
# The Enter key

`put_queue` of the keyboard and `copy_to_cooked` behind it, and `sys_wait_return` and
`sys_read_simple` of `sys02.c`, with which the shell waits for a line.
-/

namespace Linux012.ChrDrv

open Lib (CellRing)

/-- `put_queue`: the bytes of a key, or none of them. -/
def putQueue (tty : Tty) (bytes : List UInt8) : Tty := (bytes.foldlM putTyped tty).getD tty

/-- A key is pressed: its bytes are put, and `do_tty_interrupt` calls `copy_to_cooked`. -/
def press (tty : Tty) (key : Bool × List UInt8) : Tty :=
  (putQueue tty key.2).copyToCooked key.1

/-- `sys_wait_return`. -/
def sysWaitReturn (tty : Tty) : Int :=
  if tty.secondary.Empty then 0 else if 10 ≠ tty.secondary.ring.last then 0 else 100

/-- The loop of `sys_read_simple`. -/
def readSimpleLoop : (left : Nat) → Tty → List UInt8 × Tty
  | 0, tty => ([], tty)
  | left + 1, tty =>
      let (got, after) := readSimpleLoop left { tty with secondary := tty.secondary.getch }
      (tty.secondary.ring.first :: got, after)

/-- `sys_read_simple`: what it stores, and what it leaves. -/
def sysReadSimple (tty : Tty) : List UInt8 × Tty :=
  readSimpleLoop tty.secondary.ring.chars tty

/-- After Enter, `sys_wait_return` sees a line, and the next `sys_read_simple` gets a newline. -/
def EnterCompletes (tty : Tty) (orphaned : Bool) : Prop :=
  sysWaitReturn (press tty (orphaned, [13])) = 100 ∧
    10 ∈ (sysReadSimple (press tty (orphaned, [13]))).1

section Enter

variable {tty : Tty} {orphaned : Bool} {left : Nat}

/-- All that is cooked is read. -/
theorem readSimpleLoop_fst (isChars : tty.secondary.ring.chars = left) :
    (readSimpleLoop left tty).1 = tty.cooked := by
  induction left generalizing tty with
  | zero =>
      have empty := CellRing.empty_iff.mpr isChars
      exact (CellRing.entries_eq_nil.mpr empty).symm
  | succ left ih =>
      have notEmpty : ¬tty.secondary.Empty := fun empty => by
        rw [CellRing.empty_iff.mp empty] at isChars
        cases isChars
      have fewer := CellRing.chars_drop (by decide) notEmpty
      have isFirst : tty.cooked = tty.secondary.ring.first :: tty.secondary.ring.drop.entries :=
        CellRing.entries_eq_first_cons (by decide) notEmpty
      have rest := @ih { tty with secondary := tty.secondary.getch }
        (by show tty.secondary.ring.drop.chars = left; omega)
      rw [readSimpleLoop, isFirst]
      exact congrArg _ rest

theorem sysReadSimple_fst : (sysReadSimple tty).1 = tty.cooked := readSimpleLoop_fst rfl

/-- `copy_to_cooked` stops when there is nothing more to get, or no room. -/
theorem cookLoop_stops (enough : tty.readQ.ring.chars ≤ left) :
    (Tty.cookLoop orphaned left tty).readQ.Empty ∨
      (Tty.cookLoop orphaned left tty).secondary.Full := by
  induction left generalizing tty with
  | zero => exact Or.inl (CellRing.empty_iff.mpr (Nat.le_zero.mp enough))
  | succ left ih =>
      by_cases stops : tty.readQ.Empty ∨ tty.secondary.Full
      · rw [Tty.cookLoop, Tty.cookStep, if_pos stops]
        exact stops
      · have fewer := CellRing.chars_drop (by decide) (not_or.mp stops).1
        rw [Tty.cookLoop, Tty.cookStep, if_neg stops]
        refine ih ?_
        rw [Tty.cookChar_readQ]
        show tty.readQ.ring.drop.chars ≤ left
        omega

theorem cookLoop_termios : (Tty.cookLoop orphaned left tty).termios = tty.termios := by
  induction left generalizing tty with
  | zero => rfl
  | succ left ih =>
      rw [Tty.cookLoop]
      cases step : Tty.cookStep orphaned tty with
      | none => rfl
      | some next => exact ih.trans (Tty.cookStep_termios step)

/-- Nothing is cooked when there is no room. -/
theorem copyToCooked_of_full (full : tty.secondary.Full) : tty.copyToCooked orphaned = tty := by
  rw [Tty.copyToCooked]
  cases tty.readQ.ring.chars with
  | zero => rfl
  | succ left => rw [Tty.cookLoop, Tty.cookStep, if_pos (Or.inr full)]

/-- `put_queue` leaves the cooked queue. -/
theorem putTyped_secondary {bytes : List UInt8} {after : Tty}
    (ran : bytes.foldlM putTyped tty = some after) :
    after.secondary = tty.secondary ∧ after.termios = tty.termios := by
  induction bytes generalizing tty with
  | nil =>
      cases ran
      exact ⟨rfl, rfl⟩
  | cons c bytes ih =>
      rw [List.foldlM_cons, putTyped] at ran
      by_cases full : tty.readQ.Full
      · rw [if_pos full] at ran
        cases ran
      · rw [if_neg full] at ran
        have rest := ih ran
        exact rest

theorem putQueue_secondary {bytes : List UInt8} :
    (putQueue tty bytes).secondary = tty.secondary ∧
      (putQueue tty bytes).termios = tty.termios := by
  rw [putQueue]
  cases ran : bytes.foldlM putTyped tty with
  | none => exact ⟨rfl, rfl⟩
  | some after => exact putTyped_secondary ran

/-- A console between the keys: all that was typed is cooked, or there is no room for it. -/
structure Waits (tty : Tty) : Prop where
  console : tty.IsConsole
  cooked : tty.typed = [] ∨ tty.secondary.Full

theorem Waits.press {key : Bool × List UInt8} (waits : Waits tty) : Waits (press tty key) where
  console := by
    rw [ChrDrv.press, Tty.copyToCooked, Tty.IsConsole, cookLoop_termios, putQueue_secondary.2]
    exact waits.console
  cooked := (cookLoop_stops (le_refl _)).imp_left CellRing.entries_eq_nil.mpr

/-- Without room, a key leaves the cooked queue as it is. -/
theorem press_of_full {key : Bool × List UInt8} (full : tty.secondary.Full) :
    (press tty key).secondary = tty.secondary := by
  have filled : (putQueue tty key.2).secondary.Full := by
    rw [putQueue_secondary.1]
    exact full
  rw [press, copyToCooked_of_full filled, putQueue_secondary.1]

/-- With room, a byte that is typed is cooked at once. -/
theorem press_eq_cookChar {c : UInt8} (waits : Waits tty) (room : ¬tty.secondary.Full) :
    ∃ readQ : TtyQueue, readQ.ring.entries = [] ∧
      press tty (orphaned, [c]) = Tty.cookChar orphaned { tty with readQ := readQ } c := by
  have noneTyped := waits.cooked.resolve_right room
  have empty := CellRing.entries_eq_nil.mp noneTyped
  have noChars := CellRing.empty_iff.mp empty
  have hasRoom : ¬tty.readQ.Full := fun full => by
    have := (CellRing.full_iff (by decide)).mp full
    omega
  let filled : Tty := { tty with readQ := tty.readQ.putch c }
  have isFilled : putQueue tty [c] = filled := by
    rw [putQueue, List.foldlM_cons, putTyped, if_neg hasRoom]
    rfl
  have isTyped : filled.typed = [c] := by
    have put : filled.typed = tty.typed ++ [c] := CellRing.entries_put (by decide) hasRoom
    rw [put, noneTyped]
    rfl
  have oneChar : filled.readQ.ring.chars = 1 := by
    rw [← CellRing.length_entries]
    exact congrArg List.length isTyped
  have notEmpty : ¬filled.readQ.Empty := fun empty => by
    rw [CellRing.empty_iff.mp empty] at oneChar
    cases oneChar
  have isFirst : filled.typed = filled.readQ.ring.first :: filled.readQ.ring.drop.entries :=
    CellRing.entries_eq_first_cons (by decide) notEmpty
  obtain ⟨isC, isRest⟩ := List.cons.inj (isTyped.symm.trans isFirst)
  refine ⟨filled.readQ.getch, isRest.symm, ?_⟩
  rw [press, isFilled, Tty.copyToCooked, oneChar, Tty.cookLoop, Tty.cookStep,
    if_neg (not_or.mpr ⟨notEmpty, room⟩), ← isC]
  rfl

/-- With room, a byte that is kept is put behind the cooked characters. -/
theorem press_put {c d : UInt8} (waits : Waits tty) (room : ¬tty.secondary.Full)
    (isStroke : strokeOf c = .put d) : (press tty (orphaned, [c])).cooked = tty.cooked ++ [d] ∧
      (press tty (orphaned, [c])).typed = [] := by
  obtain ⟨readQ, isRest, isPress⟩ := press_eq_cookChar waits room
  let fetched : Tty := { tty with readQ := readQ }
  have isFetched : fetched.IsConsole := waits.console
  have isCooked := @Tty.IsConsole.char_cooked fetched c orphaned isFetched room
  rw [isPress, isCooked, isStroke]
  refine ⟨rfl, ?_⟩
  rw [Tty.typed, Tty.cookChar_readQ]
  exact isRest

theorem last_of_cooked {l : List UInt8} {c : UInt8} (isCooked : tty.cooked = l ++ [c]) :
    ¬tty.secondary.Empty ∧ tty.secondary.ring.last = c := by
  have notEmpty : ¬tty.secondary.Empty := fun empty => by
    have none : tty.cooked = [] := CellRing.entries_eq_nil.mpr empty
    rw [none] at isCooked
    exact List.cons_ne_nil _ _ (List.append_eq_nil_iff.mp isCooked.symm).2
  refine ⟨notEmpty, ?_⟩
  have isLast := Tty.getLast_cooked notEmpty
  exact (List.append_inj' (isLast.symm.trans isCooked) rfl).2 |> List.head_eq_of_cons_eq

theorem sysWaitReturn_eq_iff :
    sysWaitReturn tty = 100 ↔ ¬tty.secondary.Empty ∧ tty.secondary.ring.last = 10 := by
  rw [sysWaitReturn]
  split
  · simp_all
  · split
    · simp_all [eq_comm]
    · simp_all

/-- In any state between the keys. -/
theorem Waits.completes_iff (waits : Waits tty) :
    EnterCompletes tty orphaned ↔ ¬tty.secondary.Full ∨ tty.secondary.ring.last = 10 := by
  rw [EnterCompletes, sysReadSimple_fst, sysWaitReturn_eq_iff]
  by_cases full : tty.secondary.Full
  · have same := @press_of_full tty (orphaned, [13]) full
    have notEmpty : ¬tty.secondary.Empty := fun empty => by
      have := (CellRing.full_iff (by decide)).mp full
      rw [CellRing.empty_iff.mp empty] at this
      cases this
    rw [Tty.cooked, same]
    constructor
    · exact fun completes => Or.inr completes.1.2
    · intro possible
      have isLast := possible.resolve_left (not_not.mpr full)
      have entries := Tty.getLast_cooked notEmpty
      refine ⟨⟨notEmpty, isLast⟩, ?_⟩
      show 10 ∈ tty.cooked
      rw [entries, isLast]
      exact List.mem_append_right _ List.mem_cons_self
  · obtain ⟨isCooked, -⟩ := @press_put tty orphaned 13 10 waits full rfl
    refine ⟨fun _ => Or.inl full, fun _ => ⟨last_of_cooked isCooked, ?_⟩⟩
    rw [isCooked]
    exact List.mem_append_right _ List.mem_cons_self

end Enter

/-! ## All keys -/

section Keys

variable {tty : Tty} {keys : List (Bool × List UInt8)} {orphaned : Bool}

/-- Between any keys. -/
theorem Waits.foldl (waits : Waits tty) : Waits (keys.foldl ChrDrv.press tty) := by
  induction keys generalizing tty with
  | nil => exact waits
  | cons key keys ih => exact ih waits.press

/-- For all keys that were typed and not read: Enter completes a line if and only if the cooked queue
has room, or has a newline at its end. -/
theorem enterCompletes_iff (isConsole : tty.IsConsole) (noneTyped : tty.typed = []) :
    EnterCompletes (keys.foldl press tty) orphaned ↔
      ¬(keys.foldl press tty).secondary.Full ∨
        (keys.foldl press tty).secondary.ring.last = 10 :=
  (Waits.foldl ⟨isConsole, Or.inl noneTyped⟩).completes_iff

theorem enterCompletes_iff_oneKey :
    EnterCompletes ([(false, [97])].foldl press ttyInit) false :=
  (@enterCompletes_iff ttyInit [(false, [97])] false rfl rfl).mpr (Or.inl (by decide))

/-- Where Enter does not complete a line, no key ever will. -/
theorem sysWaitReturn_of_stuck (full : tty.secondary.Full)
    (noLine : tty.secondary.ring.last ≠ 10) : sysWaitReturn (keys.foldl press tty) = 0 := by
  have same : (keys.foldl press tty).secondary = tty.secondary := by
    induction keys using List.reverseRecOn with
    | nil => rfl
    | append_singleton keys key ih =>
        rw [List.foldl_concat]
        exact (press_of_full (ih ▸ full)).trans ih
  rw [sysWaitReturn, same]
  split
  · rfl
  · exact if_pos fun isLast => noLine isLast.symm

/-- As many characters as there is room for. -/
theorem press_replicate {count : Nat} (few : count ≤ 1023) :
    Waits ((List.replicate count (false, [97])).foldl press ttyInit) ∧
      ((List.replicate count (false, [97])).foldl press ttyInit).cooked =
        List.replicate count 97 := by
  induction count with
  | zero => exact ⟨⟨rfl, Or.inl rfl⟩, rfl⟩
  | succ count ih =>
      obtain ⟨waits, isCooked⟩ := ih (by omega)
      have room : ¬((List.replicate count (false, [97])).foldl press ttyInit).secondary.Full := by
        intro full
        have chars := (CellRing.full_iff (by decide)).mp full
        have length := congrArg List.length isCooked
        rw [Tty.cooked, CellRing.length_entries, List.length_replicate] at length
        omega
      rw [List.replicate_succ', List.foldl_concat]
      refine ⟨waits.press, ?_⟩
      have isPut := (@press_put _ false 97 97 waits room rfl).1
      rw [isPut, isCooked, ← List.replicate_succ']

/-- A line of 1023 characters cannot be completed. -/
theorem not_enterCompletes_longLine :
    ¬EnterCompletes ((List.replicate 1023 (false, [97])).foldl press ttyInit) false := by
  obtain ⟨waits, isCooked⟩ := press_replicate (le_refl 1023)
  have isLong : ((List.replicate 1023 (false, [97])).foldl press ttyInit).cooked =
      List.replicate 1022 97 ++ [97] := by
    rw [isCooked, ← List.replicate_succ']
  rw [waits.completes_iff, (last_of_cooked isLong).2]
  have full : ((List.replicate 1023 (false, [97])).foldl press ttyInit).secondary.Full := by
    refine (CellRing.full_iff (by decide)).mpr ?_
    have length := congrArg List.length isCooked
    rwa [Tty.cooked, CellRing.length_entries, List.length_replicate] at length
  rw [not_or]
  exact ⟨not_not.mpr full, by decide⟩

end Keys

end Linux012.ChrDrv
