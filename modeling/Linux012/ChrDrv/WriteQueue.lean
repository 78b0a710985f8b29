import Linux012.ChrDrv.TtyWrite

/-!
# Room in the write queue

`tty_write` puts a character only where there is room.  The echo of `copy_to_cooked` relies on
`tty->write` having emptied the queue.
-/

namespace Linux012.ChrDrv

open Linux012.Lib

namespace Tty

/-! ## Order -/

/-- Unless the queue has been overrun, it holds what has been put and not yet shown. -/
def Ordered (tty : Tty) : Prop :=
  tty.overrun = false → tty.written = tty.shown ++ tty.writeQ.ring.entries

theorem Ordered.putWrite {tty : Tty} (ordered : tty.Ordered) (c : UInt8) :
    (tty.putWrite c).Ordered := by
  intro fine
  change (tty.overrun || decide tty.writeQ.Full) = false at fine
  rw [Bool.or_eq_false_iff, decide_eq_false_iff_not] at fine
  change tty.written ++ [c] = tty.shown ++ (tty.writeQ.ring.put c).entries
  rw [ordered fine.1, CellRing.entries_put (by decide) fine.2, List.append_assoc]

theorem Ordered.getWrite {tty : Tty} (ordered : tty.Ordered) (notEmpty : ¬tty.writeQ.Empty) :
    tty.getWrite.Ordered := by
  intro fine
  change tty.written =
    (tty.shown ++ [tty.writeQ.ring.first]) ++ tty.writeQ.ring.drop.entries
  rw [ordered fine, CellRing.entries_eq_first_cons (by decide) notEmpty]
  simp

theorem chars_getWrite {tty : Tty} (notEmpty : ¬tty.writeQ.Empty) :
    tty.getWrite.writeQ.ring.chars + 1 = tty.writeQ.ring.chars :=
  CellRing.chars_drop (by decide) notEmpty

theorem Ordered.conWriteLoop {tty : Tty} (nr : Nat) (ordered : tty.Ordered)
    (atMost : nr ≤ tty.writeQ.ring.chars) : (tty.conWriteLoop nr).Ordered := by
  induction nr generalizing tty with
  | zero => exact ordered
  | succ nr ih =>
      rw [Tty.conWriteLoop]
      split
      · exact ordered
      · have notEmpty : ¬tty.writeQ.Empty := by
          rw [TtyQueue.Empty, CellRing.empty_iff]
          omega
        have fewer := chars_getWrite notEmpty
        exact ih (ordered.getWrite notEmpty) (by omega)

theorem Ordered.write {tty : Tty} (ordered : tty.Ordered) : tty.write.Ordered := by
  rw [Tty.write]
  split
  · exact ordered.conWriteLoop _ le_rfl
  · exact ordered

theorem Ordered.echoErased {tty : Tty} (ordered : tty.Ordered) (c : UInt8) :
    (tty.echoErased c).Ordered := by
  rw [Tty.echoErased]
  split
  · split
    · exact ((ordered.putWrite _).putWrite _).write
    · exact (ordered.putWrite _).write
  · exact ordered

theorem Ordered.echoChar {tty : Tty} (ordered : tty.Ordered) (c : UInt8) :
    (tty.echoChar c).Ordered := by
  rw [Tty.echoChar]
  split
  · refine Ordered.write ?_
    split
    · exact (ordered.putWrite _).putWrite _
    split
    · split
      · exact (ordered.putWrite _).putWrite _
      · exact ordered
    · exact ordered.putWrite _
  · exact ordered

theorem Ordered.killLine {tty : Tty} (left : Nat) (ordered : tty.Ordered) :
    (tty.killLine left).Ordered := by
  induction left generalizing tty with
  | zero => exact ordered
  | succ left ih =>
      rw [Tty.killLine]
      split
      · exact ordered
      · have erased : tty.eraseLast.Ordered := ordered.echoErased _
        exact ih erased

theorem Ordered.cookPlain {tty : Tty} (orphaned : Bool) (ordered : tty.Ordered) (c : UInt8) :
    (tty.cookPlain orphaned c).Ordered := by
  rw [Tty.cookPlain]
  split
  · have stopped : Ordered { tty with stopped := true } := ordered
    exact stopped.write
  split
  · have started : Ordered { tty with stopped := false } := ordered
    exact started.write
  split
  · exact ordered
  split
  · exact ordered
  split
  · split
    · exact ordered
    · exact ordered
  · have counted : (tty.countLine c).Ordered := by
      rw [countLine]
      split
      · exact ordered
      · exact ordered
    exact counted.echoChar c

theorem Ordered.cookStep {tty after : Tty} {orphaned : Bool} (ordered : tty.Ordered)
    (taken : tty.cookStep orphaned = some after) : after.Ordered := by
  rw [Tty.cookStep] at taken
  split at taken
  · cases taken
  · cases taken
    have fetched : Ordered { tty with readQ := tty.readQ.getch } := ordered
    rw [cookChar]
    split
    · exact fetched
    split
    · exact fetched.killLine _
    split
    · split
      · exact fetched
      · exact fetched.echoErased _
    · exact fetched.cookPlain orphaned _

/-! ## Room -/

/-- The characters are put one after the other. -/
def putAll (tty : Tty) (burst : List UInt8) : Tty := burst.foldl putWrite tty

theorem sameInput_putAll (tty : Tty) (burst : List UInt8) : tty.SameInput (tty.putAll burst) := by
  induction burst generalizing tty with
  | nil => exact SameInput.refl tty
  | cons c burst ih => exact (tty.sameInput_putWrite c).trans (ih (tty.putWrite c))

theorem overrun_conWriteLoop (nr : Nat) (tty : Tty) :
    (tty.conWriteLoop nr).overrun = tty.overrun := by
  induction nr generalizing tty with
  | zero => rfl
  | succ nr ih =>
      rw [conWriteLoop]
      split
      · rfl
      · exact ih tty.getWrite

theorem overrun_write (tty : Tty) : tty.write.overrun = tty.overrun := by
  rw [write]
  split
  · exact overrun_conWriteLoop _ tty
  · rfl

theorem left_putWrite {tty : Tty} (c : UInt8) (room : ¬tty.writeQ.Full) :
    (tty.putWrite c).writeQ.ring.left + 1 = tty.writeQ.ring.left := by
  have before := CellRing.left_add_chars (by decide) tty.writeQ.ring
  have after := CellRing.left_add_chars (by decide) (tty.putWrite c).writeQ.ring
  have more : (tty.putWrite c).writeQ.ring.chars = tty.writeQ.ring.chars + 1 :=
    CellRing.chars_put (by decide) room
  omega

/-- Characters can be put when there is room for all of them. -/
theorem overrun_putAll (tty : Tty) (burst : List UInt8) :
    (tty.putAll burst).overrun = false ↔
      tty.overrun = false ∧ burst.length ≤ tty.writeQ.ring.left := by
  induction burst generalizing tty with
  | nil => simp [putAll]
  | cons c burst ih =>
      have step : tty.putAll (c :: burst) = (tty.putWrite c).putAll burst := rfl
      have isOverrun : (tty.putWrite c).overrun = (tty.overrun || decide tty.writeQ.Full) := rfl
      rw [step, ih, isOverrun, Bool.or_eq_false_iff, decide_eq_false_iff_not, List.length_cons]
      by_cases full : tty.writeQ.Full
      · simp [full]
      · have fewer := left_putWrite c full
        simp only [full, not_false_eq_true, and_true, and_congr_right_iff]
        omega

theorem left_putAll {tty : Tty} {burst : List UInt8}
    (fits : burst.length ≤ tty.writeQ.ring.left) :
    (tty.putAll burst).writeQ.ring.left + burst.length = tty.writeQ.ring.left := by
  induction burst generalizing tty with
  | nil => rfl
  | cons c burst ih =>
      rw [List.length_cons] at fits ⊢
      have room : ¬tty.writeQ.Full := by
        rw [TtyQueue.Full, CellRing.Full]
        omega
      have fewer := left_putWrite c room
      have smaller : burst.length ≤ (tty.putWrite c).writeQ.ring.left := by omega
      have rest := ih smaller
      have step : tty.putAll (c :: burst) = (tty.putWrite c).putAll burst := rfl
      rw [step]
      omega

/-- `tty->write` leaves the queue as it is. -/
def Holds (tty : Tty) : Prop := tty.stopped = true ∨ tty.driver = .rsWrite

instance (tty : Tty) : Decidable tty.Holds := inferInstanceAs (Decidable (_ ∨ _))

theorem SameInput.holds_iff {before after : Tty} (same : before.SameInput after) :
    after.Holds ↔ before.Holds := by
  rw [Holds, Holds, same.stopped, same.driver]

theorem write_of_holds {tty : Tty} (holds : tty.Holds) : tty.write = tty := by
  rw [write]
  split
  next isCon =>
    have stopped : tty.stopped = true := by
      rcases holds with stopped | isRs
      · exact stopped
      · simp [isRs] at isCon
    rw [conWrite]
    cases tty.writeQ.ring.chars with
    | zero => rfl
    | succ nr => rw [conWriteLoop, if_pos stopped]
  · rfl

theorem chars_conWriteLoop {tty : Tty} (nr : Nat) (running : tty.stopped = false)
    (atMost : nr ≤ tty.writeQ.ring.chars) :
    (tty.conWriteLoop nr).writeQ.ring.chars + nr = tty.writeQ.ring.chars := by
  induction nr generalizing tty with
  | zero => rfl
  | succ nr ih =>
      have notEmpty : ¬tty.writeQ.Empty := by
        rw [TtyQueue.Empty, CellRing.empty_iff]
        omega
      have fewer := chars_getWrite notEmpty
      have atMost : nr ≤ tty.getWrite.writeQ.ring.chars := by omega
      have stillRunning : tty.getWrite.stopped = false := running
      have rest := ih stillRunning atMost
      rw [conWriteLoop, if_neg (by simp [running])]
      omega

/-- `con_write` empties the queue of a console that is not stopped. -/
theorem chars_conWrite {tty : Tty} (running : tty.stopped = false) :
    tty.conWrite.writeQ.ring.chars = 0 := by
  have all := chars_conWriteLoop _ running (le_refl tty.writeQ.ring.chars)
  rw [conWrite]
  omega

theorem left_write {tty : Tty} (drains : ¬tty.Holds) : tty.write.writeQ.ring.left = 1023 := by
  have running : tty.stopped = false := by
    cases stopped : tty.stopped with
    | false => rfl
    | true => exact absurd (.inl stopped) drains
  have isCon : tty.driver = .conWrite := by
    cases driver : tty.driver with
    | conWrite => rfl
    | rsWrite => exact absurd (.inr driver) drains
  have empty := chars_conWrite running
  have total := CellRing.left_add_chars (by decide) tty.conWrite.writeQ.ring
  have isWrite : tty.write = tty.conWrite := by
    rw [write, isCon]
  rw [isWrite]
  omega

/-! ## Echoes -/

/-- The characters with which the erasure of `c` is echoed. -/
def erasedEcho (c : UInt8) : List UInt8 := if isLow c then [127, 127] else [127]

/-- The characters with which `c` is echoed. -/
def keptEcho (tty : Tty) (c : UInt8) : List UInt8 :=
  if c = 10 then [10, 13]
  else if isLow c then if tty.lFlag echoctl then [94, c + 64] else []
  else [c]

/-- What the terminal really echoes. -/
def echoed (tty : Tty) (burst : List UInt8) : List UInt8 := if tty.lFlag echo then burst else []

/-- The characters are put, and written, when the terminal echoes. -/
def emit (tty : Tty) (burst : List UInt8) : Tty :=
  if tty.lFlag echo then (tty.putAll burst).write else tty

theorem echoErased_eq (tty : Tty) (c : UInt8) : tty.echoErased c = tty.emit (erasedEcho c) := by
  rw [echoErased, emit, erasedEcho]
  split
  · split
    · rfl
    · rfl
  · rfl

theorem echoChar_eq (tty : Tty) (c : UInt8) : tty.echoChar c = tty.emit (tty.keptEcho c) := by
  rw [echoChar, emit, keptEcho]
  split
  · congr 1
    split
    · rfl
    split
    · split
      · rfl
      · rfl
    · rfl
  · rfl

theorem length_erasedEcho (c : UInt8) : (erasedEcho c).length ≤ 2 := by
  rw [erasedEcho]
  split <;> simp

theorem sameInput_emit (tty : Tty) (burst : List UInt8) : tty.SameInput (tty.emit burst) := by
  rw [emit]
  split
  · exact (tty.sameInput_putAll burst).trans (sameInput_write _)
  · exact SameInput.refl tty

theorem overrun_emit (tty : Tty) (burst : List UInt8) :
    (tty.emit burst).overrun = false ↔
      tty.overrun = false ∧ (tty.echoed burst).length ≤ tty.writeQ.ring.left := by
  rw [emit, echoed]
  split
  · rw [overrun_write, overrun_putAll]
  · simp

/-- There is room for what is put before the queue is next emptied, when `bursts` are put with a
`tty->write` behind each. -/
def Fits (tty : Tty) (bursts : List (List UInt8)) : Prop :=
  if tty.Holds then (bursts.flatten.length ≤ tty.writeQ.ring.left)
  else ∀ burst ∈ bursts.head?, burst.length ≤ tty.writeQ.ring.left

instance (tty : Tty) (bursts : List (List UInt8)) : Decidable (tty.Fits bursts) := by
  unfold Fits
  infer_instance

theorem fits_nil (tty : Tty) : tty.Fits [] := by
  rw [Fits]
  split
  · simp
  · simp

theorem fits_singleton {tty : Tty} {burst : List UInt8} :
    tty.Fits [burst] ↔ burst.length ≤ tty.writeQ.ring.left := by
  rw [Fits]
  split
  · simp
  · simp

/-- There is room for several bursts when there is room for the first one, and then for the
others. -/
theorem fits_cons {tty : Tty} {burst : List UInt8} {bursts : List (List UInt8)}
    (short : ∀ other ∈ bursts, other.length ≤ 2) :
    tty.Fits ((burst :: bursts).map tty.echoed) ↔
      (tty.echoed burst).length ≤ tty.writeQ.ring.left ∧
        (tty.emit burst).Fits (bursts.map tty.echoed) := by
  have same := tty.sameInput_emit burst
  by_cases echoes : tty.lFlag echo = true
  · have isEmit : tty.emit burst = (tty.putAll burst).write := by
      rw [emit, if_pos echoes]
    have isEchoed (other : List UInt8) : tty.echoed other = other := by
      rw [echoed, if_pos echoes]
    have asMap (lists : List (List UInt8)) : lists.map tty.echoed = lists :=
      (List.map_congr_left fun other _ => isEchoed other).trans (List.map_id' lists)
    rw [asMap, asMap, isEchoed, Fits, Fits]
    by_cases holds : tty.Holds
    · rw [if_pos holds, if_pos (same.holds_iff.mpr holds), List.flatten_cons, List.length_append,
        isEmit]
      constructor
      · intro fits
        have fitsFirst : burst.length ≤ tty.writeQ.ring.left := by omega
        have fewer := left_putAll fitsFirst
        rw [write_of_holds (((tty.sameInput_putAll burst).holds_iff).mpr holds)]
        exact ⟨fitsFirst, by omega⟩
      · rintro ⟨fitsFirst, fits⟩
        have fewer := left_putAll fitsFirst
        rw [write_of_holds (((tty.sameInput_putAll burst).holds_iff).mpr holds)] at fits
        omega
    · have drains : ¬(tty.putAll burst).Holds := fun held =>
        holds ((tty.sameInput_putAll burst).holds_iff.mp held)
      have emptied := left_write drains
      rw [if_neg holds, if_neg (fun held => holds (same.holds_iff.mp held)), isEmit, emptied]
      simp only [List.head?_cons, Option.mem_def, Option.some.injEq, forall_eq']
      refine (and_iff_left ?_).symm
      intro other isHead
      have twoAtMost := short other (List.mem_of_mem_head? isHead)
      omega
  · have silent (other : List UInt8) : tty.echoed other = [] := by
      rw [echoed, if_neg echoes]
    have noEmit : tty.emit burst = tty := by
      rw [emit, if_neg echoes]
    have allFit (lists : List (List UInt8)) : tty.Fits (lists.map tty.echoed) := by
      have asMap : lists.map tty.echoed = lists.map fun _ => [] :=
        List.map_congr_left fun other _ => silent other
      rw [asMap, Fits]
      split
      · simp
      · intro other isHead
        have isSilent : other = [] := by
          cases lists with
          | nil => simp at isHead
          | cons list lists => simpa [eq_comm] using isHead
        simp [isSilent]
    refine iff_of_true (allFit _) ⟨?_, ?_⟩
    · rw [silent]
      exact Nat.zero_le _
    · rw [noEmit]
      exact allFit bursts

/-- The characters behind the last line end, the last one first. -/
def lineTail (tty : Tty) : List UInt8 :=
  tty.secondary.ring.entries.reverse.takeWhile fun c => !tty.endsLine c

/-- The character is used for the flow control or for a signal. -/
def isControl (tty : Tty) (c : UInt8) : Bool :=
  tty.iFlag ixon && (tty.isChar vStop c || tty.isChar vStart c) ||
    tty.lFlag isig && (tty.isChar vIntr c || tty.isChar vQuit c || tty.isChar vSusp c)

/-- What `copy_to_cooked` echoes for the character `c`, with a `tty->write` behind each burst. -/
def echoes (tty : Tty) (c : UInt8) : List (List UInt8) :=
  if tty.lFlag icanon ∧ tty.isChar vKill c then
    (tty.lineTail.map erasedEcho).map tty.echoed
  else if tty.lFlag icanon ∧ tty.isChar vErase c then
    ((tty.lineTail.take 1).map erasedEcho).map tty.echoed
  else if tty.isControl c then []
  else [tty.keptEcho c].map tty.echoed

theorem lineTail_of_atLineStart {tty : Tty} (atStart : tty.atLineStart = true) :
    tty.lineTail = [] := by
  rw [lineTail]
  by_cases empty : tty.secondary.Empty
  · rw [CellRing.entries_eq_nil.mpr empty]
    rfl
  · rw [CellRing.entries_eq_append_last (by decide) empty, List.reverse_append]
    simp only [atLineStart, Bool.or_eq_true, decide_eq_true_eq] at atStart
    simp [atStart.resolve_left empty]

theorem eraseLast_eq (tty : Tty) :
    tty.eraseLast = { tty.emit (erasedEcho tty.secondary.ring.last) with
      secondary := tty.secondary.dec } := by
  rw [eraseLast, echoErased_eq]
  dsimp only
  rw [(tty.sameInput_emit _).secondary]

theorem endsLine_eraseLast (tty : Tty) : tty.eraseLast.endsLine = tty.endsLine := by
  funext c
  rw [endsLine, endsLine, isChar, isChar, tty.eraseLast_termios]

theorem echoed_eraseLast (tty : Tty) : tty.eraseLast.echoed = tty.echoed := by
  funext burst
  rw [echoed, echoed, lFlag, lFlag, tty.eraseLast_termios]

theorem lineTail_eq_last_cons {tty : Tty} (inside : tty.atLineStart = false) :
    tty.lineTail = tty.secondary.ring.last :: tty.eraseLast.lineTail := by
  rw [atLineStart, Bool.or_eq_false_iff, decide_eq_false_iff_not] at inside
  have ring : tty.eraseLast.secondary.ring = tty.secondary.ring.unput := by
    rw [eraseLast_eq]
    rfl
  rw [lineTail, lineTail, endsLine_eraseLast, ring,
    CellRing.entries_eq_append_last (by decide) inside.1, List.reverse_append]
  simp [inside.2]

theorem chars_eraseLast {tty : Tty} (inside : tty.atLineStart = false) :
    tty.eraseLast.secondary.ring.chars + 1 = tty.secondary.ring.chars := by
  rw [atLineStart, Bool.or_eq_false_iff, decide_eq_false_iff_not] at inside
  rw [eraseLast_eq]
  exact CellRing.chars_unput (by decide) inside.1

theorem overrun_eraseLast (tty : Tty) :
    tty.eraseLast.overrun = false ↔ tty.overrun = false ∧
      (tty.echoed (erasedEcho tty.secondary.ring.last)).length ≤ tty.writeQ.ring.left := by
  rw [eraseLast_eq]
  exact tty.overrun_emit _

/-- The kill character overruns nothing exactly when its echo fits. -/
theorem overrun_killLine {tty : Tty} (left : Nat) (enough : tty.secondary.ring.chars ≤ left) :
    (tty.killLine left).overrun = false ↔
      tty.overrun = false ∧ tty.Fits ((tty.lineTail.map erasedEcho).map tty.echoed) := by
  induction left generalizing tty with
  | zero =>
      have empty : tty.secondary.Empty := by
        rw [TtyQueue.Empty, CellRing.empty_iff]
        omega
      have atStart : tty.atLineStart = true := by
        rw [atLineStart, Bool.or_eq_true]
        exact .inl (decide_eq_true empty)
      rw [killLine, lineTail_of_atLineStart atStart]
      simp [fits_nil]
  | succ left ih =>
      rw [killLine]
      cases atStart : tty.atLineStart with
      | true =>
          rw [if_pos rfl, lineTail_of_atLineStart atStart]
          simp [fits_nil]
      | false =>
          have fewer := chars_eraseLast atStart
          have short : ∀ other ∈ tty.eraseLast.lineTail.map erasedEcho, other.length ≤ 2 := by
            intro other isEcho
            obtain ⟨c, _, isOther⟩ := List.mem_map.mp isEcho
            rw [← isOther]
            exact length_erasedEcho c
          have sameFits (bursts : List (List UInt8)) : tty.eraseLast.Fits bursts ↔
              (tty.emit (erasedEcho tty.secondary.ring.last)).Fits bursts := by
            rw [eraseLast_eq]
            exact Iff.rfl
          rw [if_neg (by simp), ih (by omega), overrun_eraseLast, lineTail_eq_last_cons atStart,
            List.map_cons, fits_cons short, echoed_eraseLast, sameFits, and_assoc]

/-- From the flow control on, the queue is overrun exactly when an echo does not fit. -/
theorem overrun_cookPlain (tty : Tty) (orphaned : Bool) (c : UInt8) :
    (tty.cookPlain orphaned c).overrun = false ↔ tty.overrun = false ∧
      tty.Fits (if tty.isControl c then [] else [tty.keptEcho c].map tty.echoed) := by
  have quiet (result : Tty) (isControl : tty.isControl c = true)
      (same : result.overrun = tty.overrun) :
      result.overrun = false ↔ tty.overrun = false ∧
        tty.Fits (if tty.isControl c then [] else [tty.keptEcho c].map tty.echoed) := by
    rw [if_pos isControl, same]
    simp [fits_nil]
  rw [cookPlain]
  split
  next stop => exact quiet _ (by simp [isControl, stop]) (overrun_write _)
  next noStop =>
  split
  next start => exact quiet _ (by simp [isControl, start]) (overrun_write _)
  next noStart =>
  split
  next intr => exact quiet _ (by simp [isControl, intr]) rfl
  next noIntr =>
  split
  next quit => exact quiet _ (by simp [isControl, quit]) rfl
  next noQuit =>
  split
  next susp =>
    split
    · exact quiet _ (by simp [isControl, susp]) rfl
    · exact quiet _ (by simp [isControl, susp]) rfl
  next noSusp =>
    have kept : tty.isControl c = false := by
      simp only [not_and, Bool.not_eq_true] at noStop noStart noIntr noQuit noSusp
      simp only [isControl, Bool.or_eq_false_iff, Bool.and_eq_false_imp]
      grind
    rw [if_neg (by simp [kept]), List.map_singleton, fits_singleton]
    have counted : (tty.countLine c).echoChar c =
        (tty.countLine c).emit (tty.keptEcho c) := by
      rw [echoChar_eq, keptEcho, keptEcho, lFlag, lFlag, countLine_termios]
    change ((tty.countLine c).echoChar c).overrun = false ↔ _
    rw [counted, overrun_emit]
    have isOutput : (tty.countLine c).overrun = tty.overrun ∧
        (tty.countLine c).writeQ = tty.writeQ ∧ (tty.countLine c).echoed = tty.echoed := by
      rw [countLine]
      split
      · exact ⟨rfl, rfl, rfl⟩
      · exact ⟨rfl, rfl, rfl⟩
    rw [isOutput.1, isOutput.2.1, isOutput.2.2]

/-- A pass of `copy_to_cooked` overruns nothing exactly when its echo fits. -/
theorem overrun_cookStep {tty after : Tty} {orphaned : Bool}
    (taken : tty.cookStep orphaned = some after) :
    after.overrun = false ↔ tty.overrun = false ∧
      ∀ c ∈ tty.mapInput tty.readQ.ring.first, tty.Fits (tty.echoes c) := by
  rw [cookStep] at taken
  split at taken
  · cases taken
  cases taken
  let fetched : Tty := { tty with readQ := tty.readQ.getch }
  change (cookChar orphaned fetched tty.readQ.ring.first).overrun = false ↔
    fetched.overrun = false ∧
      ∀ c ∈ fetched.mapInput tty.readQ.ring.first, fetched.Fits (fetched.echoes c)
  generalize fetched = tty, tty.readQ.ring.first = first
  rw [cookChar]
  cases tty.mapInput first with
  | none => simp
  | some c =>
      simp only [Option.mem_def, Option.some.injEq, forall_eq', echoes]
      split
      next => exact overrun_killLine _ le_rfl
      split
      next =>
        cases atStart : tty.atLineStart with
        | true => simp [lineTail_of_atLineStart atStart, fits_nil]
        | false =>
            rw [if_neg (by simp), overrun_eraseLast, lineTail_eq_last_cons atStart]
            simp [fits_singleton]
      next => exact overrun_cookPlain tty orphaned c

end Tty

/-! ## Steps without an echo -/

/-- The terminal's order is kept, and its queue is not overrun. -/
structure Tty.Quiet (before after : Tty) : Prop where
  ordered : before.Ordered → after.Ordered
  overrun : after.overrun = before.overrun

namespace Tty

theorem Quiet.refl (tty : Tty) : tty.Quiet tty := ⟨id, rfl⟩

theorem quiet_write (tty : Tty) : tty.Quiet tty.write :=
  ⟨Ordered.write, overrun_write tty⟩

theorem quiet_getWrite {tty : Tty} (notEmpty : ¬tty.writeQ.Empty) : tty.Quiet tty.getWrite :=
  ⟨fun ordered => ordered.getWrite notEmpty, rfl⟩

theorem quiet_putWrite {tty : Tty} (room : ¬tty.writeQ.Full) (c : UInt8) :
    tty.Quiet (tty.putWrite c) where
  ordered ordered := ordered.putWrite c
  overrun := by
    change (tty.overrun || decide tty.writeQ.Full) = tty.overrun
    simp [room]

end Tty

section Steps

variable {Task Line : Type} [DecidableEq Task] [DecidableEq Line]

omit [DecidableEq Task] in
theorem quiet_update {s : Writers Task Line} {line : Line} {tty : Tty}
    (quiet : (s.tty line).Quiet tty) (other : Line) :
    (s.tty other).Quiet (Function.update s.tty line tty other) := by
  rw [Function.update_apply]
  split
  next isLine =>
    rw [isLine]
    exact quiet
  · exact Tty.Quiet.refl _

theorem quiet_fillPass {s : Writers Task Line} {call : WriteCall Line} (task : Task) (c : UInt8)
    (rest : List UInt8) (room : ¬(s.tty call.line).writeQ.Full) (line : Line) :
    (s.tty line).Quiet ((s.fillPass task call c rest).tty line) := by
  rw [Writers.fillPass]
  dsimp only
  split
  · split
    · exact quiet_update (Tty.quiet_putWrite room _) line
    · exact quiet_update (Tty.quiet_putWrite room _) line
  · exact quiet_update (Tty.quiet_putWrite room _) line

theorem quiet_writeTurn {s next : Writers Task Line} {task : Task} {call : WriteCall Line}
    {signalled : Bool} (taken : s.writeTurn task call signalled = some next) (line : Line) :
    (s.tty line).Quiet (next.tty line) := by
  rw [Writers.writeTurn] at taken
  split at taken
  · cases taken
    exact Tty.Quiet.refl _
  · split at taken
    · cases taken
      exact Tty.Quiet.refl _
    split at taken
    · cases taken
      exact Tty.Quiet.refl _
    · cases taken
      exact Tty.Quiet.refl _
  · split at taken
    · cases taken
      exact Tty.Quiet.refl _
    split at taken
    · cases taken
      exact Tty.Quiet.refl _
    · cases taken
      exact Tty.Quiet.refl _
  · cases taken
    exact quiet_update (Tty.quiet_write _) line
  · split at taken
    · cases taken
      exact quiet_update (Tty.quiet_write _) line
    next room =>
      cases taken
      exact quiet_fillPass task _ _ room line
  · cases taken

/-- A step is a pass of `copy_to_cooked`, or it overruns nothing. -/
theorem writeStep_tty {s next : Writers Task Line} {action : WriteAction Task Line}
    (taken : writeStep s action = some next) :
    (∃ line orphaned after, action = .cook line orphaned ∧
        (s.tty line).cookStep orphaned = some after ∧
        next.tty = Function.update s.tty line after) ∨
      ∀ line, (s.tty line).Quiet (next.tty line) := by
  cases action with
  | key line c =>
      cases taken
      exact .inr (quiet_update ⟨id, rfl⟩)
  | cook line orphaned =>
      rw [writeStep] at taken
      cases cooked : (s.tty line).cookStep orphaned with
      | none => simp [cooked] at taken
      | some after =>
          rw [cooked] at taken
          cases taken
          exact .inl ⟨line, orphaned, after, rfl, cooked, rfl⟩
  | read line =>
      rw [writeStep] at taken
      split at taken
      · cases taken
      · cases taken
        exact .inr (quiet_update ⟨id, rfl⟩)
  | flow line stopped =>
      cases taken
      have quiet := Tty.quiet_write { s.tty line with stopped := stopped }
      exact .inr (quiet_update ⟨quiet.ordered, quiet.overrun⟩)
  | drain line =>
      cases taken
      exact .inr (quiet_update (Tty.quiet_write _))
  | writeChar line =>
      rw [writeStep] at taken
      split at taken
      next sends =>
        cases taken
        exact .inr (quiet_update (Tty.quiet_getWrite sends.2))
      · cases taken
  | write task line chars =>
      rw [writeStep] at taken
      split at taken
      · cases taken
        exact .inr fun _ => Tty.Quiet.refl _
      · cases taken
  | turn task signalled =>
      rw [writeStep] at taken
      cases isCall : s.call task with
      | none => simp [isCall] at taken
      | some call =>
          rw [isCall] at taken
          exact .inr (quiet_writeTurn taken)

/-! ## Runs -/

/-- No character has been put into a full queue; what has been put is shown once and in order, as
far as it is not in the queue, and a console that is not stopped shows the rest. -/
structure Tty.OutputsInOrder (tty : Tty) : Prop where
  noOverrun : tty.overrun = false
  inOrder : tty.written = tty.shown ++ tty.writeQ.ring.entries
  eventually : { tty with stopped := false }.conWrite.shown = tty.written

theorem shown_conWriteLoop {tty : Tty} (nr : Nat) (running : tty.stopped = false)
    (isNr : nr = tty.writeQ.ring.chars) :
    (tty.conWriteLoop nr).shown = tty.shown ++ tty.writeQ.ring.entries := by
  induction nr generalizing tty with
  | zero =>
      have empty : tty.writeQ.ring.entries = [] := by
        rw [← List.length_eq_zero_iff, CellRing.length_entries, isNr]
      rw [empty, List.append_nil]
      rfl
  | succ nr ih =>
      have notEmpty : ¬tty.writeQ.Empty := by
        rw [TtyQueue.Empty, CellRing.empty_iff]
        omega
      have fewer := Tty.chars_getWrite notEmpty
      have stillRunning : tty.getWrite.stopped = false := running
      have isNr : nr = tty.getWrite.writeQ.ring.chars := by omega
      rw [Tty.conWriteLoop, if_neg (by simp [running]), ih stillRunning isNr,
        CellRing.entries_eq_first_cons (by decide) notEmpty]
      change (tty.shown ++ [_]) ++ tty.writeQ.ring.drop.entries = _
      simp

theorem Tty.Ordered.outputsInOrder {tty : Tty} (ordered : tty.Ordered)
    (noOverrun : tty.overrun = false) : tty.OutputsInOrder where
  noOverrun := noOverrun
  inOrder := ordered noOverrun
  eventually := by
    let started : Tty := { tty with stopped := false }
    have running : started.stopped = false := rfl
    have shown := shown_conWriteLoop _ running rfl
    change started.conWrite.shown = tty.written
    rw [Tty.conWrite, shown, ordered noOverrun]

/-- The terminal has put and shown nothing yet. -/
structure Tty.IsFresh (tty : Tty) : Prop where
  empty : tty.writeQ.Empty
  written : tty.written = []
  shown : tty.shown = []
  noOverrun : tty.overrun = false

/-- The order of every terminal is kept, and no queue is overrun. -/
def Writers.InOrder (s : Writers Task Line) : Prop :=
  ∀ line, (s.tty line).Ordered ∧ (s.tty line).overrun = false

/-- After the step, every terminal outputs in order. -/
def StaysInOrder (s : Writers Task Line) (action : WriteAction Task Line) : Prop :=
  ∀ next, writeStep s action = some next → ∀ line, (next.tty line).OutputsInOrder

/-- Where the step is a pass of `copy_to_cooked`, there is room for what it echoes before the queue
is next emptied. -/
def EchoFits (s : Writers Task Line) : WriteAction Task Line → Prop
  | .cook line _ =>
      let tty := s.tty line
      ¬tty.readQ.Empty → ¬tty.secondary.Full →
        ∀ c ∈ tty.mapInput tty.readQ.ring.first, tty.Fits (tty.echoes c)
  | _ => True

/-- A terminal's queue is overrun by no step in which the echo fits. -/
theorem Writers.InOrder.writeStep {s next : Writers Task Line} {action : WriteAction Task Line}
    (inOrder : s.InOrder) (fits : EchoFits s action) (taken : writeStep s action = some next) :
    next.InOrder := by
  rcases writeStep_tty taken with ⟨line, orphaned, after, isCook, cooked, isNext⟩ | quiet
  · intro other
    rw [isNext, Function.update_apply]
    split
    next =>
      rw [isCook] at fits
      refine ⟨(inOrder line).1.cookStep cooked, ?_⟩
      rw [Tty.overrun_cookStep cooked]
      refine ⟨(inOrder line).2, ?_⟩
      rw [Tty.cookStep] at cooked
      split at cooked
      · cases cooked
      next runs => exact fits (fun empty => runs (.inl empty)) (fun full => runs (.inr full))
    · exact inOrder other
  · intro line
    exact ⟨(quiet line).ordered (inOrder line).1, (quiet line).overrun.trans (inOrder line).2⟩

omit [DecidableEq Task] [DecidableEq Line] in
theorem Writers.InOrder.outputsInOrder {s : Writers Task Line} (inOrder : s.InOrder)
    (line : Line) : (s.tty line).OutputsInOrder :=
  (inOrder line).1.outputsInOrder (inOrder line).2

/-- From empty write queues, no queue is overrun in a run exactly when every echo fits. -/
theorem staysInOrder_iff {start : Writers Task Line}
    (fresh : ∀ line, (start.tty line).IsFresh) (actions : List (WriteAction Task Line)) :
    EveryStep writeStep StaysInOrder start actions ↔
      EveryStep writeStep EchoFits start actions := by
  have always : EveryStep writeStep (fun _ _ => True) start actions :=
    everyStep_of_forall (fun _ _ => trivial) _ _
  have initially : start.InOrder := by
    intro line
    refine ⟨fun _ => ?_, (fresh line).noOverrun⟩
    rw [(fresh line).written, (fresh line).shown, CellRing.entries_eq_nil.mpr (fresh line).empty]
    rfl
  refine everyStep_iff Writers.InOrder ?_ ?_ initially always
  · intro s action inOrder _
    constructor
    · intro stays
      cases action with
      | cook line orphaned =>
          intro notEmpty room
          have runs : ¬((s.tty line).readQ.Empty ∨ (s.tty line).secondary.Full) := by
            rintro (empty | full)
            · exact notEmpty empty
            · exact room full
          obtain ⟨after, cooked⟩ : ∃ after, (s.tty line).cookStep orphaned = some after := by
            rw [Tty.cookStep, if_neg runs]
            exact ⟨_, rfl⟩
          have taken : writeStep s (.cook line orphaned) = some (s.setTty line after) := by
            rw [writeStep, cooked]
          have fine := (stays _ taken line).noOverrun
          change (Function.update s.tty line after line).overrun = false at fine
          rw [Function.update_self] at fine
          exact ((Tty.overrun_cookStep cooked).mp fine).2
      | _ => trivial
    · intro fits next taken line
      exact (inOrder.writeStep fits taken).outputsInOrder line
  · intro s action next inOrder _ fits taken
    exact inOrder.writeStep fits taken

end Steps

theorem ttyInit_isFresh : ttyInit.IsFresh := ⟨rfl, rfl, rfl, rfl⟩

/-- A newline is typed at a console. -/
theorem staysInOrder_newline :
    EveryStep writeStep StaysInOrder
      (Writers.boot fun _ => ttyInit : Writers Unit Unit) [.key () 10, .cook () false] := by
  rw [staysInOrder_iff fun _ => ttyInit_isFresh]
  refine ⟨trivial, fun next taken => ⟨?_, fun _ _ => trivial⟩⟩
  cases taken
  intro _ _
  decide +kernel

/-! ## A stopped console -/

/-- The settings of a console whose output can be stopped from the keyboard. -/
def flowTermios : Termios := { consoleTermios with cIflag := icrnl ||| ixon }

/-- A console whose output can be stopped from the keyboard. -/
def flowTty : Tty := { ttyInit with termios := flowTermios }

/-- A control character is typed. -/
def typeControl : List (WriteAction Unit Unit) := [.key () 2, .cook () false]

/-- The stop character, and then `number` control characters. -/
def stopAndType (number : Nat) : List (WriteAction Unit Unit) :=
  [.key () 19, .cook () false] ++ (List.replicate number typeControl).flatten

/-- The output is stopped, and `number` control characters have been typed. -/
structure Tty.Typed (number : Nat) (tty : Tty) : Prop where
  termios : tty.termios = flowTermios
  stopped : tty.stopped = true
  readQ : tty.readQ.Empty
  secondary : tty.secondary.ring.chars = number
  writeQ : tty.writeQ.ring.chars = 2 * number

theorem isChar_control {tty : Tty} (termios : tty.termios = flowTermios) (which : Fin 17) :
    tty.isChar which 2 = false := by
  rw [Tty.isChar, termios]
  revert which
  decide

/-- A control character goes to the cooked queue, and two characters are put for it. -/
theorem cookChar_control {tty : Tty} (termios : tty.termios = flowTermios)
    (stopped : tty.stopped = true) :
    tty.cookChar false 2 =
      { (tty.putWrite 94).putWrite 66 with secondary := tty.secondary.putch 2 } := by
  have mapped : tty.mapInput 2 = some 2 := by
    rw [Tty.mapInput, Tty.iFlag, Tty.iFlag, Tty.iFlag, Tty.iFlag, termios]
    decide
  have echoes : tty.lFlag echo = true ∧ tty.lFlag echoctl = true := by
    rw [Tty.lFlag, Tty.lFlag, termios]
    decide
  have isControl : Tty.isLow 2 = true := by decide
  have holds : ((tty.putWrite 94).putWrite 66).Holds := .inl stopped
  have isEcho : tty.echoChar 2 = (tty.putWrite 94).putWrite 66 := by
    rw [Tty.echoChar, if_pos echoes.1, if_neg (by decide), if_pos isControl, if_pos echoes.2]
    exact Tty.write_of_holds holds
  have uncounted : tty.countLine 2 = tty := by
    rw [Tty.countLine, Tty.endsLine, isChar_control termios]
    rfl
  simp only [Tty.cookChar, mapped, isChar_control termios, Bool.false_eq_true, and_false,
    if_false, Tty.cookPlain, uncounted, isEcho]
  rfl

/-- The console after one more control character. -/
def Tty.afterControl (tty : Tty) : Tty :=
  { (tty.putWrite 94).putWrite 66 with
    readQ := (tty.readQ.putch 2).getch
    secondary := tty.secondary.putch 2 }

/-- What a control character that is typed at a stopped console leaves. -/
theorem exec_typeControl {number : Nat} {s : Writers Unit Unit} (typed : (s.tty ()).Typed number)
    (less : number < 1023) :
    ∃ next, exec writeStep s typeControl = some next ∧ next.tty () = (s.tty ()).afterControl := by
  have empty : (s.tty ()).readQ.ring.head = (s.tty ()).readQ.ring.tail := typed.readQ
  have noChars : (s.tty ()).readQ.ring.chars = 0 := CellRing.empty_iff.mp typed.readQ
  have room : ¬(s.tty ()).readQ.Full := by
    rw [TtyQueue.Full, CellRing.full_iff (by decide), noChars]
    decide
  let typedTty : Tty := { s.tty () with readQ := (s.tty ()).readQ.putch 2 }
  have oneChar : typedTty.readQ.ring.chars = 1 := by
    have more : ((s.tty ()).readQ.ring.put 2).chars = (s.tty ()).readQ.ring.chars + 1 :=
      CellRing.chars_put (by decide) room
    rwa [noChars] at more
  have isFirst : typedTty.readQ.ring.first = 2 := by
    change Function.update (s.tty ()).readQ.ring.cell (s.tty ()).readQ.ring.head 2
      (s.tty ()).readQ.ring.tail = 2
    rw [empty]
    exact Function.update_self _ _ _
  have runs : ¬(typedTty.readQ.Empty ∨ typedTty.secondary.Full) := by
    rintro (isEmpty | isFull)
    · have none := CellRing.empty_iff.mp isEmpty
      omega
    · have all := (CellRing.full_iff (by decide)).mp isFull
      have isNumber : typedTty.secondary.ring.chars = number := typed.secondary
      omega
  have cooked : typedTty.cookStep false = some (s.tty ()).afterControl := by
    rw [Tty.cookStep, if_neg runs, isFirst]
    let fetched : Tty := { typedTty with readQ := typedTty.readQ.getch }
    have isTermios : fetched.termios = flowTermios := typed.termios
    have isStopped : fetched.stopped = true := typed.stopped
    exact congrArg some (cookChar_control isTermios isStopped)
  have isKey : writeStep s (.key () 2) = some (s.setTty () typedTty) := by
    rw [writeStep, TtyQueue.putQueue, if_neg room]
  have isCook : writeStep (s.setTty () typedTty) (.cook () false) =
      some ((s.setTty () typedTty).setTty () (s.tty ()).afterControl) := by
    rw [writeStep, Writers.setTty_tty, cooked]
  refine ⟨(s.setTty () typedTty).setTty () (s.tty ()).afterControl, ?_, ?_⟩
  · rw [typeControl, exec, isKey]
    dsimp only
    rw [exec, isCook]
    rfl
  · exact Writers.setTty_tty _ _ _

/-- The queues after a control character for which there is room. -/
theorem Tty.Typed.afterControl {number : Nat} {tty : Tty} (typed : tty.Typed number)
    (less : number < 511) : tty.afterControl.Typed (number + 1) where
  termios := typed.termios
  stopped := typed.stopped
  readQ := by
    have empty : tty.readQ.ring.head = tty.readQ.ring.tail := typed.readQ
    change tty.readQ.ring.head + 1 = tty.readQ.ring.tail + 1
    rw [empty]
  secondary := by
    have room : ¬tty.secondary.ring.Full := by
      rw [CellRing.full_iff (by decide), typed.secondary]
      omega
    have more : (tty.secondary.ring.put 2).chars = tty.secondary.ring.chars + 1 :=
      CellRing.chars_put (by decide) room
    rwa [typed.secondary] at more
  writeQ := by
    have isChars := typed.writeQ
    have room : ¬tty.writeQ.ring.Full := by
      rw [CellRing.full_iff (by decide)]
      omega
    have one : (tty.writeQ.ring.put 94).chars = tty.writeQ.ring.chars + 1 :=
      CellRing.chars_put (by decide) room
    have roomStill : ¬(tty.writeQ.ring.put 94).Full := by
      rw [CellRing.full_iff (by decide)]
      omega
    have two : ((tty.writeQ.ring.put 94).put 66).chars = (tty.writeQ.ring.put 94).chars + 1 :=
      CellRing.chars_put (by decide) roomStill
    change ((tty.writeQ.ring.put 94).put 66).chars = _
    omega

/-- Up to 511 control characters are echoed into the queue of a stopped console. -/
theorem exec_typeControls {s : Writers Unit Unit} (typed : (s.tty ()).Typed 0) (number : Nat)
    (atMost : number ≤ 511) :
    ∃ next, exec writeStep s (List.replicate number typeControl).flatten = some next ∧
      (next.tty ()).Typed number := by
  induction number with
  | zero => exact ⟨s, rfl, typed⟩
  | succ number ih =>
      obtain ⟨middle, reached, isTyped⟩ := ih (by omega)
      obtain ⟨next, taken, isAfter⟩ := exec_typeControl isTyped (by omega)
      refine ⟨next, ?_, isAfter ▸ isTyped.afterControl (by omega)⟩
      rw [List.replicate_succ', List.flatten_append, List.flatten_singleton]
      exact exec_append_eq_some.mpr ⟨middle, reached, taken⟩

/-- The echo of the 512th one is put into the full queue. -/
theorem overrun_stopAndType :
    ∃ final, exec writeStep (Writers.boot fun _ => flowTty) (stopAndType 512) = some final ∧
      (final.tty ()).overrun = true := by
  obtain ⟨stopped, isStopped, typed⟩ : ∃ stopped,
      exec writeStep (Writers.boot fun _ => flowTty : Writers Unit Unit)
        [.key () 19, .cook () false] = some stopped ∧ (stopped.tty ()).Typed 0 :=
    ⟨_, rfl, ⟨rfl, by decide +kernel, by decide +kernel, by decide +kernel, by decide +kernel⟩⟩
  obtain ⟨full, isFull, typed⟩ := exec_typeControls typed 511 le_rfl
  obtain ⟨final, isFinal, isAfter⟩ := exec_typeControl typed (by omega)
  refine ⟨final, ?_, ?_⟩
  · rw [stopAndType, exec_append_eq_some]
    refine ⟨stopped, isStopped, ?_⟩
    rw [List.replicate_succ', List.flatten_append, List.flatten_singleton]
    exact exec_append_eq_some.mpr ⟨full, isFull, isFinal⟩
  · have isChars := typed.writeQ
    have room : ¬(full.tty ()).writeQ.ring.Full := by
      rw [CellRing.full_iff (by decide)]
      omega
    have one : ((full.tty ()).writeQ.ring.put 94).chars = (full.tty ()).writeQ.ring.chars + 1 :=
      CellRing.chars_put (by decide) room
    have isFullNow : ((full.tty ()).writeQ.ring.put 94).Full := by
      rw [CellRing.full_iff (by decide)]
      omega
    rw [isAfter]
    change (((full.tty ()).overrun || decide (full.tty ()).writeQ.Full) ||
      decide ((full.tty ()).writeQ.ring.put 94).Full) = true
    rw [decide_eq_true isFullNow, Bool.or_true]

end Linux012.ChrDrv
