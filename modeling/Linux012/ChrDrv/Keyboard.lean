import Linux012.ChrDrv.EnterKey
import Linux012.Lib.LittleEndian

/-!
# The queue of the keyboard

`put_queue` of `keyboard.s`, which stores the bytes of a key before it knows whether there is room
for all of them, and `func`, which looks for the room first.
-/

namespace Linux012.ChrDrv.Keyboard

open Lib (CellRing longOf)

/-- What `put_queue` reads and writes: the queue in `table_list`, its `proc_list`, and the longs of
the kernel by their address. -/
structure ReadQueue where
  queue : TtyQueue
  procList : UInt32
  memory : UInt32 → UInt32

/-- `shrdl $8,%ebx,%eax`. -/
def shrdl (ebx eax : UInt32) : UInt32 := eax >>> 8 ||| ebx <<< 24

/-- The loop of `put_queue`: the cells and `%ecx` behind it, and whether it ends at `2:`.  There is
no result when it does not end in so many rounds. -/
def putLoop : (fuel : Nat) → CellRing UInt8 1024 → (eax ebx : UInt32) →
    Option (CellRing UInt8 1024 × Bool)
  | 0, _, _, _ => none
  | fuel + 1, ring, eax, ebx =>
      let ring := ring.put eax.toUInt8
      if ring.head = ring.tail then some (ring, false)
      else
        let eax := shrdl ebx eax
        if eax = 0 then some (ring, true) else putLoop fuel ring eax (ebx >>> 8)

namespace ReadQueue

/-- `put_queue`.  A word of 64 bits is 0 behind eight rounds. -/
def putQueue (read : ReadQueue) (eax ebx : UInt32) : Option ReadQueue := do
  let (ring, fits) ← putLoop 8 read.queue.ring eax ebx
  if fits then
    return { read with
      queue := { read.queue with ring := ring }
      memory :=
        if read.procList = 0 then read.memory
        else Function.update read.memory read.procList 0 }
  else
    -- the bytes are in the cells, but `head` is not written
    return { read with
      queue := { read.queue with ring := { ring with head := read.queue.ring.head } } }

end ReadQueue

/-- `func_table`. -/
def funcTable : List UInt32 :=
  [0x415b5b1b, 0x425b5b1b, 0x435b5b1b, 0x445b5b1b, 0x455b5b1b, 0x465b5b1b, 0x475b5b1b, 0x485b5b1b,
    0x495b5b1b, 0x4a5b5b1b, 0x4b5b5b1b, 0x4c5b5b1b]

/-- The number of a function key, from its scan code. -/
def funcNr (scan : UInt8) : Option UInt8 :=
  if scan < 0x3B then none
  else
    let al := scan - 0x3B
    if al ≤ 9 then some al
    else
      let al := al - 18
      if al < 10 then none else if al > 11 then none else some al

inductive FuncResult where
  | queue (read : ReadQueue)
  /-- `change_console`. -/
  | console (nr : UInt8)

/-- `func`. -/
def func (read : ReadQueue) (mode scan : UInt8) : Option FuncResult :=
  match funcNr scan with
  | none => some (.queue read)
  | some nr =>
      if mode &&& 0x10 ≠ 0 then some (.console nr)
      else if read.queue.ring.left < 4 then some (.queue read)
      else (read.putQueue (funcTable.getD nr.toNat 0) 0).map .queue

/-! ## The loop ends -/

theorem toNat_shrdl (eax ebx : UInt32) : (shrdl ebx eax).toNat + 2 ^ 32 * (ebx >>> 8).toNat =
    (eax.toNat + 2 ^ 32 * ebx.toNat) / 256 := by
  have ltEax := eax.toNat_lt
  have byte : 2 ^ ((8 : UInt32).toNat % 32) = 256 := rfl
  have bytes : 2 ^ ((24 : UInt32).toNat % 32) = 2 ^ 24 := rfl
  have low : (eax >>> 8).toNat = eax.toNat / 256 := by
    rw [UInt32.toNat_shiftRight, Nat.shiftRight_eq_div_pow, byte]
  have high : (ebx <<< 24).toNat = 2 ^ 24 * (ebx.toNat % 256) := by
    rw [UInt32.toNat_shiftLeft, Nat.shiftLeft_eq, bytes]
    omega
  have less : (eax >>> 8).toNat < 2 ^ 24 := by
    rw [low]
    omega
  rw [shrdl, UInt32.toNat_or, high, Nat.or_comm, ← Nat.two_pow_add_eq_or_of_lt less, low,
    UInt32.toNat_shiftRight, Nat.shiftRight_eq_div_pow, byte]
  omega

/-- Each round takes a byte from the registers. -/
theorem putLoop_isSome {fuel : Nat} {ring : CellRing UInt8 1024} {eax ebx : UInt32}
    (less : eax.toNat + 2 ^ 32 * ebx.toNat < 256 ^ (fuel + 1)) :
    (putLoop (fuel + 1) ring eax ebx).isSome = true := by
  induction fuel generalizing ring eax ebx with
  | zero =>
      have next := toNat_shrdl eax ebx
      have none : shrdl ebx eax = 0 := UInt32.toNat_inj.mp (by
        have zero : (0 : UInt32).toNat = 0 := rfl
        omega)
      rw [putLoop]
      dsimp only
      rw [if_pos none]
      split
      · rfl
      · rfl
  | succ fuel ih =>
      have next := toNat_shrdl eax ebx
      rw [Nat.pow_succ] at less
      rw [putLoop]
      dsimp only
      split
      · rfl
      split
      · rfl
      · exact ih (by omega)

theorem ReadQueue.putQueue_isSome (read : ReadQueue) (eax ebx : UInt32) :
    (read.putQueue eax ebx).isSome = true := by
  have ltEax := eax.toNat_lt
  have ltEbx := ebx.toNat_lt
  have loops : (putLoop 8 read.queue.ring eax ebx).isSome = true :=
    putLoop_isSome (by omega)
  obtain ⟨⟨ring, fits⟩, isLoop⟩ := Option.isSome_iff_exists.mp loops
  rw [putQueue, isLoop]
  cases fits with
  | true => rfl
  | false => rfl

/-! ## Packed bytes -/

/-- `%eax` with the first four bytes of a sequence. -/
def eaxOf (bytes : List UInt8) : UInt32 :=
  longOf (bytes.getD 0 0) (bytes.getD 1 0) (bytes.getD 2 0) (bytes.getD 3 0)

/-- `%ebx` with the last four bytes. -/
def ebxOf (bytes : List UInt8) : UInt32 :=
  longOf (bytes.getD 4 0) (bytes.getD 5 0) (bytes.getD 6 0) (bytes.getD 7 0)

section Packed

variable {b0 b1 b2 b3 b4 b5 b6 b7 : UInt8}

theorem toNat_longOf : (longOf b0 b1 b2 b3).toNat =
    b0.toNat + b1.toNat * 256 + b2.toNat * 65536 + b3.toNat * 16777216 := by
  have lt0 := b0.toNat_lt
  have lt1 := b1.toNat_lt
  have lt2 := b2.toNat_lt
  have lt3 := b3.toNat_lt
  rw [longOf, UInt32.toNat_ofNat']
  omega

theorem toUInt8_longOf : (longOf b0 b1 b2 b3).toUInt8 = b0 := by
  have lt0 := b0.toNat_lt
  apply UInt8.toNat_inj.mp
  rw [UInt32.toNat_toUInt8, toNat_longOf]
  omega

theorem longOf_shiftRight : longOf b0 b1 b2 b3 >>> 8 = longOf b1 b2 b3 0 := by
  have lt0 := b0.toNat_lt
  have byte : 2 ^ ((8 : UInt32).toNat % 32) = 256 := rfl
  have zero : (0 : UInt8).toNat = 0 := rfl
  apply UInt32.toNat_inj.mp
  rw [UInt32.toNat_shiftRight, toNat_longOf, toNat_longOf, zero, Nat.shiftRight_eq_div_pow, byte]
  omega

theorem longOf_shiftLeft : longOf b4 b5 b6 b7 <<< 24 = longOf 0 0 0 b4 := by
  have lt4 := b4.toNat_lt
  have bytes : 2 ^ ((24 : UInt32).toNat % 32) = 16777216 := rfl
  have zero : (0 : UInt8).toNat = 0 := rfl
  apply UInt32.toNat_inj.mp
  rw [UInt32.toNat_shiftLeft, toNat_longOf, toNat_longOf, zero, Nat.shiftLeft_eq, bytes]
  omega

/-- The lowest byte is shifted out, and the first one of `%ebx` in. -/
theorem shrdl_longOf : shrdl (longOf b4 b5 b6 b7) (longOf b0 b1 b2 b3) = longOf b1 b2 b3 b4 := by
  have lt1 := b1.toNat_lt
  have lt2 := b2.toNat_lt
  have lt3 := b3.toNat_lt
  have zero : (0 : UInt8).toNat = 0 := rfl
  have low : (longOf b1 b2 b3 0).toNat < 2 ^ 24 := by
    rw [toNat_longOf, zero]
    omega
  have high : (longOf 0 0 0 b4).toNat = 2 ^ 24 * b4.toNat := by
    rw [toNat_longOf, zero]
    omega
  rw [shrdl, longOf_shiftRight, longOf_shiftLeft]
  apply UInt32.toNat_inj.mp
  rw [UInt32.toNat_or, high, Nat.or_comm, ← Nat.two_pow_add_eq_or_of_lt low, toNat_longOf,
    toNat_longOf, zero]
  omega

theorem longOf_eq_zero : longOf b0 b1 b2 b3 = 0 → b0 = 0 := by
  intro none
  have isZero := congrArg UInt32.toNat none
  have zero : (0 : UInt32).toNat = 0 := rfl
  rw [toNat_longOf, zero] at isZero
  apply UInt8.toNat_inj.mp
  have none8 : (0 : UInt8).toNat = 0 := rfl
  omega

variable {c : UInt8} {bytes : List UInt8}

theorem toUInt8_eaxOf : (eaxOf (c :: bytes)).toUInt8 = c := toUInt8_longOf

theorem shrdl_packed : shrdl (ebxOf (c :: bytes)) (eaxOf (c :: bytes)) = eaxOf bytes :=
  shrdl_longOf

theorem ebxOf_shiftRight (short : (c :: bytes).length ≤ 8) :
    ebxOf (c :: bytes) >>> 8 = ebxOf bytes := by
  have last : bytes.getD 7 0 = 0 := by
    rw [List.length_cons] at short
    rw [List.getD_eq_getElem?_getD, List.getElem?_eq_none (by omega)]
    rfl
  rw [ebxOf, ebxOf, longOf_shiftRight, last]
  rfl

/-- The loop ends behind the last byte. -/
theorem eaxOf_eq_zero_iff (nonzero : ∀ d ∈ bytes, d ≠ 0) : eaxOf bytes = 0 ↔ bytes = [] := by
  constructor
  · intro none
    cases bytes with
    | nil => rfl
    | cons d bytes => exact absurd (longOf_eq_zero none) (nonzero d List.mem_cons_self)
  · rintro rfl
    decide

end Packed

/-! ## All bytes or none -/

section Loop

variable {start ring : CellRing UInt8 1024} {bytes : List UInt8} {fuel : Nat}

/-- What the loop leaves in the cells of the ring with which it has begun. -/
structure Leaves (start ring : CellRing UInt8 1024) (bytes : List UInt8)
    (after : CellRing UInt8 1024) : Prop where
  tail : after.tail = start.tail
  kept : ∀ index < start.chars,
    after.cell (start.tail + Fin.ofNat 1024 index) = start.cell (start.tail + Fin.ofNat 1024 index)
  put : bytes.length ≤ ring.left →
    after.entries = ring.entries ++ bytes ∧ after.left + bytes.length = ring.left

/-- The loop ends at `2:` exactly when there is room for what is left of the bytes. -/
theorem putLoop_packed (enough : bytes.length ≤ fuel) (short : bytes.length ≤ 8)
    (notNone : bytes ≠ []) (nonzero : ∀ c ∈ bytes, c ≠ 0) (extended : start.Extends ring) :
    ∃ after, putLoop fuel ring (eaxOf bytes) (ebxOf bytes) =
        some (after, decide (bytes.length ≤ ring.left)) ∧ Leaves start ring bytes after := by
  induction bytes generalizing fuel ring with
  | nil => exact absurd rfl notNone
  | cons c bytes ih =>
      obtain ⟨fuel, rfl⟩ : ∃ less, fuel = less + 1 := Nat.exists_eq_add_one.mpr
        (Nat.lt_of_lt_of_le (Nat.succ_pos _) enough)
      rw [List.length_cons] at enough
      have shorter : bytes.length ≤ 8 := by
        rw [List.length_cons] at short
        omega
      have nonzeroRest : ∀ d ∈ bytes, d ≠ 0 := fun d member =>
        nonzero d (List.mem_cons_of_mem c member)
      rw [putLoop, toUInt8_eaxOf, shrdl_packed, ebxOf_shiftRight short, List.length_cons]
      dsimp only
      have wraps : (ring.put c).head = (ring.put c).tail ↔ ring.Full :=
        CellRing.put_wraps_iff (by decide)
      by_cases full : ring.Full
      · -- the byte is in the cell that is always left free
        refine ⟨ring.put c, ?_, extended.tail, fun _ => extended.cell_put c, fun fits => ?_⟩
        · rw [if_pos (wraps.mpr full), decide_eq_false (by rw [full]; omega)]
        · rw [full, List.length_cons] at fits
          omega
      · have fewer : (ring.put c).left + 1 = ring.left := CellRing.left_put (by decide) full
        have isPut : (ring.put c).entries = ring.entries ++ [c] :=
          CellRing.entries_put (by decide) full
        have more := extended.put (by decide) full c
        rw [if_neg (wraps.not.mpr full)]
        by_cases isLast : bytes = []
        · subst isLast
          refine ⟨ring.put c, ?_, more.tail, more.kept, fun _ => ⟨isPut, fewer⟩⟩
          rw [if_pos ((eaxOf_eq_zero_iff nonzeroRest).mpr rfl),
            decide_eq_true (by rw [List.length_nil]; omega)]
        · obtain ⟨after, isRest, leaves⟩ :=
            ih (Nat.le_of_succ_le_succ enough) shorter isLast nonzeroRest more
          refine ⟨after, ?_, leaves.tail, leaves.kept, fun fits => ?_⟩
          · have same : decide (bytes.length ≤ (ring.put c).left) =
                decide (bytes.length + 1 ≤ ring.left) := decide_eq_decide.mpr (by omega)
            rw [if_neg (fun none => isLast ((eaxOf_eq_zero_iff nonzeroRest).mp none)), isRest, same]
          · rw [List.length_cons] at fits ⊢
            obtain ⟨isEntries, isLeft⟩ := leaves.put (by omega)
            rw [isEntries, isPut, List.append_assoc]
            exact ⟨rfl, by omega⟩

end Loop

namespace ReadQueue

/-- What `put_queue` does with a sequence. -/
structure Queued (before : ReadQueue) (bytes : List UInt8) (after : ReadQueue) : Prop where
  tail : after.queue.ring.tail = before.queue.ring.tail
  fits : bytes.length ≤ before.queue.ring.left →
    after.queue.ring.entries = before.queue.ring.entries ++ bytes
  discarded : before.queue.ring.left < bytes.length →
    after.queue.ring.head = before.queue.ring.head ∧
      after.queue.ring.entries = before.queue.ring.entries
  notEmptied : before.queue.Full → ¬after.queue.Empty

variable {read : ReadQueue} {bytes : List UInt8}

theorem queued_of_loop {after : CellRing UInt8 1024}
    (leaves : Leaves read.queue.ring read.queue.ring bytes after)
    (fits : bytes.length ≤ read.queue.ring.left) (memory : UInt32 → UInt32) (notNone : bytes ≠ []) :
    read.Queued bytes ⟨{ read.queue with ring := after }, read.procList, memory⟩ where
  tail := leaves.tail
  fits _ := (leaves.put fits).1
  discarded tooLong := absurd fits (Nat.not_le_of_lt tooLong)
  notEmptied full _ := notNone (List.length_eq_zero_iff.mp (Nat.le_zero.mp (full ▸ fits)))

theorem queued_of_discard {after : CellRing UInt8 1024}
    (leaves : Leaves read.queue.ring read.queue.ring bytes after)
    (tooLong : ¬bytes.length ≤ read.queue.ring.left) :
    read.Queued bytes { read with
      queue := { read.queue with ring := { after with head := read.queue.ring.head } } } where
  tail := leaves.tail
  fits fits := absurd fits tooLong
  discarded _ := ⟨rfl, CellRing.entries_of_kept leaves.tail leaves.kept⟩
  notEmptied full empty := by
    have isEmpty : read.queue.ring.head = read.queue.ring.tail := empty.trans leaves.tail
    have allChars := (CellRing.full_iff (by decide)).mp full
    rw [CellRing.empty_iff.mp isEmpty] at allChars
    cases allChars

/-- All bytes are queued in order, or nothing is changed but free cells. -/
theorem putQueue_queued (read : ReadQueue) (notNone : bytes ≠ []) (short : bytes.length ≤ 8)
    (nonzero : ∀ c ∈ bytes, c ≠ 0) :
    ∃ after, read.putQueue (eaxOf bytes) (ebxOf bytes) = some after ∧ read.Queued bytes after := by
  obtain ⟨after, isLoop, leaves⟩ := putLoop_packed short short notNone nonzero
    (CellRing.Extends.refl read.queue.ring)
  rw [putQueue, isLoop]
  by_cases fits : bytes.length ≤ read.queue.ring.left
  · rw [decide_eq_true fits]
    exact ⟨_, rfl, queued_of_loop leaves fits _ notNone⟩
  · rw [decide_eq_false fits]
    exact ⟨_, rfl, queued_of_discard leaves fits⟩

end ReadQueue

/-! ## The keys -/

theorem funcNr_lt {scan nr : UInt8} (isKey : funcNr scan = some nr) : nr.toNat < 12 := by
  have eleven : (11 : UInt8).toNat = 11 := rfl
  have nine : (9 : UInt8).toNat = 9 := rfl
  rw [funcNr] at isKey
  split at isKey
  · cases isKey
  dsimp only at isKey
  split at isKey
  next first =>
    cases isKey
    rw [UInt8.le_iff_toNat_le, nine] at first
    omega
  split at isKey
  · cases isKey
  split at isKey
  · cases isKey
  next last =>
    cases isKey
    rw [gt_iff_lt, UInt8.not_lt, UInt8.le_iff_toNat_le, eleven] at last
    omega

/-- `esc [ [` and a letter. -/
def funcBytes (nr : UInt8) : List UInt8 := [27, 91, 91, 65 + nr]

theorem ebxOf_funcBytes (nr : UInt8) : ebxOf (funcBytes nr) = 0 := by
  have noMore : ebxOf (funcBytes nr) = longOf 0 0 0 0 := by
    simp only [ebxOf, funcBytes, List.getD_cons_succ, List.getD_nil]
  exact noMore.trans (by decide)

theorem funcTable_packed : ∀ nr < 12, funcTable.getD nr 0 = eaxOf (funcBytes (UInt8.ofNat nr)) ∧
    ∀ c ∈ funcBytes (UInt8.ofNat nr), c ≠ 0 := by
  decide +kernel

/-- A function key is queued whole, or not at all. -/
theorem func_queued (read : ReadQueue) {mode scan nr : UInt8} (isKey : funcNr scan = some nr)
    (noAlt : mode &&& 0x10 = 0) :
    ∃ after, func read mode scan = some (.queue after) ∧
      after.queue.ring.entries =
        if read.queue.ring.left < 4 then read.queue.ring.entries
        else read.queue.ring.entries ++ funcBytes nr := by
  rw [func, isKey]
  dsimp only
  rw [if_neg (not_not.mpr noAlt)]
  by_cases noRoom : read.queue.ring.left < 4
  · exact ⟨read, by rw [if_pos noRoom], by rw [if_pos noRoom]⟩
  · obtain ⟨isEntry, nonzero⟩ := funcTable_packed nr.toNat (funcNr_lt isKey)
    rw [UInt8.ofNat_toNat] at isEntry nonzero
    obtain ⟨after, isPut, queued⟩ :=
      @ReadQueue.putQueue_queued (funcBytes nr) read (List.cons_ne_nil _ _)
        (Nat.le_of_lt (Nat.lt_of_sub_eq_succ rfl)) nonzero
    refine ⟨after, ?_, ?_⟩
    · rw [ebxOf_funcBytes] at isPut
      rw [if_neg noRoom, isEntry, isPut]
      rfl
    · rw [if_neg noRoom]
      exact queued.fits (Nat.le_of_not_lt noRoom)

/-- The bytes of a key are all put, or there is no room for them. -/
theorem foldlM_putTyped (tty : Tty) (bytes : List UInt8) :
    (bytes.foldlM putTyped tty).isSome = true ↔ bytes.length ≤ tty.readQ.ring.left := by
  induction bytes generalizing tty with
  | nil => exact iff_of_true rfl (Nat.zero_le _)
  | cons c bytes ih =>
      rw [List.foldlM_cons, putTyped, List.length_cons]
      by_cases full : tty.readQ.Full
      · rw [if_pos full]
        have noRoom : tty.readQ.ring.left = 0 := full
        exact iff_of_false Bool.false_ne_true (by omega)
      · have fewer : (tty.readQ.ring.put c).left + 1 = tty.readQ.ring.left :=
          CellRing.left_put (by decide) full
        rw [if_neg full]
        refine (ih { tty with readQ := tty.readQ.putch c }).trans ?_
        show bytes.length ≤ (tty.readQ.ring.put c).left ↔ _
        omega

/-- The queue has the characters that the terminal's model of `put_queue` gives it. -/
theorem putQueue_typed {read : ReadQueue} {tty : Tty} {bytes : List UInt8}
    (isQueue : tty.readQ = read.queue) (notNone : bytes ≠ []) (short : bytes.length ≤ 8)
    (nonzero : ∀ c ∈ bytes, c ≠ 0) :
    ∃ after, read.putQueue (eaxOf bytes) (ebxOf bytes) = some after ∧
      (ChrDrv.putQueue tty bytes).typed = after.queue.ring.entries := by
  obtain ⟨after, isPut, queued⟩ := read.putQueue_queued notNone short nonzero
  refine ⟨after, isPut, ?_⟩
  have room := foldlM_putTyped tty bytes
  rw [isQueue] at room
  rw [ChrDrv.putQueue]
  cases ran : bytes.foldlM putTyped tty with
  | some filled =>
      rw [ran] at room
      rw [Option.getD_some, (putTyped_foldlM ran).1, Tty.typed, isQueue]
      exact (queued.fits (room.mp rfl)).symm
  | none =>
      rw [ran] at room
      have tooLong : read.queue.ring.left < bytes.length := by
        by_contra fits
        exact Bool.false_ne_true (room.mpr (Nat.le_of_not_lt fits))
      rw [Option.getD_none, Tty.typed, isQueue]
      exact (queued.discarded tooLong).2.symm

/-! ## The claim on any state -/

/-- `put_queue` puts a sequence whole or not at all, whatever is in the queue and wherever its head
is. -/
theorem putQueue_atomic (read : ReadQueue) (bytes : List UInt8) (notNone : 1 ≤ bytes.length)
    (short : bytes.length ≤ 8) (nonzero : ∀ c ∈ bytes, c ≠ 0) :
    ∃ after, read.putQueue (eaxOf bytes) (ebxOf bytes) = some after ∧ read.Queued bytes after :=
  read.putQueue_queued (List.length_pos_iff.mp notNone) short nonzero

/-- A queue whose head is one cell before the end of the buffer, with room for `left` bytes. -/
def wrapping (left : Fin 1024) : ReadQueue where
  queue := ⟨0, ⟨1023, left, fun _ => 7⟩⟩
  procList := 0
  memory _ := 0

theorem putQueue_wrapping : ∃ after fewer,
    (wrapping 4).putQueue (eaxOf [27, 91, 91, 65]) (ebxOf [27, 91, 91, 65]) = some after ∧
      (wrapping 4).Queued [27, 91, 91, 65] after ∧
      (wrapping 3).putQueue (eaxOf [27, 91, 91, 65]) (ebxOf [27, 91, 91, 65]) = some fewer ∧
      (wrapping 3).Queued [27, 91, 91, 65] fewer ∧
      after.queue.ring.head = 3 ∧ fewer.queue.ring.head = 1023 := by
  have nonzero : ∀ c ∈ ([27, 91, 91, 65] : List UInt8), c ≠ 0 := by decide +kernel
  obtain ⟨after, isAfter, queued⟩ :=
    putQueue_atomic (wrapping 4) [27, 91, 91, 65] (by decide) (by decide) nonzero
  obtain ⟨fewer, isFewer, discarded⟩ :=
    putQueue_atomic (wrapping 3) [27, 91, 91, 65] (by decide) (by decide) nonzero
  refine ⟨after, fewer, isAfter, queued, isFewer, discarded, ?_, ?_⟩
  · have head : ((wrapping 4).putQueue (eaxOf [27, 91, 91, 65]) (ebxOf [27, 91, 91, 65])).map
        (fun after => after.queue.ring.head) = some 3 := by decide +kernel
    rw [isAfter] at head
    exact Option.some.inj head
  · exact (discarded.discarded (by decide +kernel)).1

end Linux012.ChrDrv.Keyboard
