import Linux012.ChrDrv.Console

/-!
# Where the cursor is

A console's position follows from its origin, its line and its column, and all of its screen lies
in the console's own memory.
-/

namespace Linux012.ChrDrv

open Linux012.Lib

/-! ## Words inside -/

/-- The word at `address` lies between two addresses. -/
def WordInside (base limit : Nat) (address : UInt32) : Prop :=
  base ≤ address.toNat ∧ address.toNat + 2 ≤ limit

namespace Screen

/-- All words that have been read or written lie between two addresses. -/
def TouchesInside (base limit : Nat) (s : Screen) : Prop :=
  ∀ address ∈ s.touched, WordInside base limit address

variable {base limit : Nat} {s : Screen}

theorem TouchesInside.congr {after : Screen} (inside : s.TouchesInside base limit)
    (same : after.touched = s.touched) : after.TouchesInside base limit := by
  intro address member
  rw [same] at member
  exact inside address member

theorem TouchesInside.append {addresses : List UInt32} {after : Screen}
    (inside : s.TouchesInside base limit) (isTouched : after.touched = s.touched ++ addresses)
    (new : ∀ address ∈ addresses, WordInside base limit address) :
    after.TouchesInside base limit := by
  intro address member
  rw [isTouched, List.mem_append] at member
  rcases member with old | isNew
  · exact inside address old
  · exact new address isNew

theorem TouchesInside.store {address : UInt32} (inside : s.TouchesInside base limit)
    (isInside : WordInside base limit address) (value : UInt16) :
    (s.store address value).TouchesInside base limit := by
  refine inside.append rfl ?_
  simpa using isInside

theorem toNat_add_eq {left right : UInt32} (small : left.toNat + right.toNat < 2 ^ 32) :
    (left + right).toNat = left.toNat + right.toNat := by
  rw [UInt32.toNat_add]
  exact Nat.mod_eq_of_lt small

theorem toNat_sub_eq {left right : UInt32} (atMost : right.toNat ≤ left.toNat) :
    (left - right).toNat = left.toNat - right.toNat :=
  UInt32.toNat_sub_of_le _ _ (UInt32.le_iff_toNat_le.mpr atMost)

theorem stosw_con (count : Nat) (edi : UInt32) (s : Screen) : (stosw count edi s).con = s.con := by
  induction count generalizing edi s with
  | zero => rfl
  | succ count ih => exact ih _ _

theorem movsl_con (count : Nat) (esi edi : UInt32) (s : Screen) :
    (movsl count esi edi s).con = s.con := by
  induction count generalizing esi edi s with
  | zero => rfl
  | succ count ih => exact ih _ _ _

/-- Words are filled inside when the first and the last one lie inside. -/
theorem TouchesInside.stosw {count : Nat} {edi : UInt32} (inside : s.TouchesInside base limit)
    (low : base ≤ edi.toNat) (high : edi.toNat + 2 * count ≤ limit) (limited : limit < 2 ^ 32) :
    (stosw count edi s).TouchesInside base limit := by
  induction count generalizing edi s with
  | zero => exact inside
  | succ count ih =>
      have two : (2 : UInt32).toNat = 2 := rfl
      have next : (edi + 2).toNat = edi.toNat + 2 := by
        rw [toNat_add_eq (by omega), two]
      have here : WordInside base limit edi := ⟨low, by omega⟩
      exact ih (inside.store here _) (by omega) (by omega)

/-- Words are copied inside when both areas lie inside. -/
theorem TouchesInside.movsl {count : Nat} {esi edi : UInt32} (inside : s.TouchesInside base limit)
    (lowFrom : base ≤ esi.toNat) (highFrom : esi.toNat + 4 * count ≤ limit)
    (lowTo : base ≤ edi.toNat) (highTo : edi.toNat + 4 * count ≤ limit)
    (limited : limit < 2 ^ 32) : (movsl count esi edi s).TouchesInside base limit := by
  induction count generalizing esi edi s with
  | zero => exact inside
  | succ count ih =>
      have two : (2 : UInt32).toNat = 2 := rfl
      have four : (4 : UInt32).toNat = 4 := rfl
      have from2 : (esi + 2).toNat = esi.toNat + 2 := by rw [toNat_add_eq (by omega), two]
      have from4 : (esi + 4).toNat = esi.toNat + 4 := by rw [toNat_add_eq (by omega), four]
      have to2 : (edi + 2).toNat = edi.toNat + 2 := by rw [toNat_add_eq (by omega), two]
      have to4 : (edi + 4).toNat = edi.toNat + 4 := by rw [toNat_add_eq (by omega), four]
      have loads : ∀ address ∈ [esi, esi + 2], WordInside base limit address := by
        simp only [List.mem_cons, List.not_mem_nil, or_false, forall_eq_or_imp, forall_eq]
        exact ⟨⟨lowFrom, by omega⟩, ⟨by omega, by omega⟩⟩
      have loaded : TouchesInside base limit { s with touched := s.touched ++ [esi, esi + 2] } :=
        inside.append rfl loads
      have first : WordInside base limit edi := ⟨lowTo, by omega⟩
      have second : WordInside base limit (edi + 2) := ⟨by omega, by omega⟩
      have stored := (loaded.store first (s.word esi)).store second (s.word (esi + 2))
      exact ih stored (by omega) (by omega) (by omega) (by omega)

end Screen

/-! ## The position -/

/-- The cursor of a console with the memory from `base` to `limit` is in one of the first `columns`
columns or behind them, and the screen lies in the memory. -/
structure Console.Within (base limit columns : Nat) (con : Console) : Prop where
  start : con.videoMemStart.toNat = base
  ends : con.videoMemEnd.toNat = limit
  limited : limit ≤ 0xC0000
  bottom : con.bottom = 25
  column : con.x.toNat ≤ columns
  line : con.y.toNat < 25
  origin : base ≤ con.origin.toNat
  scrEnd : con.scrEnd.toNat = con.origin.toNat + 25 * 160
  fits : con.scrEnd.toNat ≤ limit
  pos : con.pos.toNat = con.origin.toNat + con.y.toNat * 160 + 2 * con.x.toNat

/-- The cursor and the screen are put somewhere else in the memory. -/
theorem Console.Within.place {base limit columns columns' : Nat} {con : Console}
    (within : con.Within base limit columns) {origin pos scrEnd x y : UInt32}
    (column : x.toNat ≤ columns') (line : y.toNat < 25) (low : base ≤ origin.toNat)
    (isEnd : scrEnd.toNat = origin.toNat + 25 * 160) (fits : scrEnd.toNat ≤ limit)
    (isPos : pos.toNat = origin.toNat + y.toNat * 160 + 2 * x.toNat) :
    Console.Within base limit columns'
      { con with origin := origin, pos := pos, scrEnd := scrEnd, x := x, y := y } where
  start := within.start
  ends := within.ends
  limited := within.limited
  bottom := within.bottom
  column := column
  line := line
  origin := low
  scrEnd := isEnd
  fits := fits
  pos := isPos

/-- The console is all right, and so is what has been read and written. -/
structure Screen.Within (base limit columns : Nat) (s : Screen) : Prop where
  con : s.con.Within base limit columns
  touched : s.TouchesInside base limit

namespace Screen

variable {base limit columns : Nat} {s : Screen}

theorem toNat_row : videoSizeRow.toNat = 160 := rfl

theorem toNat_columns : videoNumColumns.toNat = 80 := rfl

theorem toNat_shiftLeft_one {column : UInt32} (small : column.toNat < 2 ^ 31) :
    (column <<< 1).toNat = 2 * column.toNat := by
  have isShift : (column <<< 1).toNat = column.toNat <<< 1 % 2 ^ 32 := UInt32.toNat_shiftLeft _ _
  rw [isShift, Nat.shiftLeft_eq]
  omega

theorem toNat_mul_add {address longs : UInt32} {start count : Nat}
    (isStart : address.toNat = start) (isCount : longs.toNat = count)
    (small : start + 4 * count < 2 ^ 32) :
    (address + 4 * longs).toNat = start + 4 * count := by
  have four : (4 : UInt32).toNat = 4 := rfl
  have bytes : (4 * longs).toNat = 4 * count := by
    rw [UInt32.toNat_mul, four, isCount]
    exact Nat.mod_eq_of_lt (by omega)
  rw [toNat_add_eq (by omega), bytes, isStart]

/-- What `nextRow` leaves, and what it adds. -/
structure IsNextRow (base limit columns : Nat) (s next : Screen) : Prop where
  start : next.con.videoMemStart.toNat = base
  ends : next.con.videoMemEnd.toNat = limit
  bottom : next.con.bottom = 25
  column : next.con.x.toNat ≤ columns
  line : next.con.y.toNat < 25
  origin : next.con.origin.toNat = s.con.origin.toNat + 160
  scrEnd : next.con.scrEnd.toNat = s.con.scrEnd.toNat + 160
  pos : next.con.pos.toNat =
    next.con.origin.toNat + next.con.y.toNat * 160 + 2 * next.con.x.toNat
  touched : next.TouchesInside base limit

theorem isNextRow (within : s.Within base limit columns) (few : columns < 160) :
    IsNextRow base limit columns s s.nextRow := by
  obtain ⟨con, touched⟩ := within
  have row := toNat_row
  have column := con.column
  have line := con.line
  have limited := con.limited
  have fits := con.fits
  have scrEnd := con.scrEnd
  have pos := con.pos
  have nextOrigin : s.nextRow.con.origin.toNat = s.con.origin.toNat + 160 :=
    (toNat_add_eq (by omega)).trans (by rw [row])
  have nextEnd : s.nextRow.con.scrEnd.toNat = s.con.scrEnd.toNat + 160 :=
    (toNat_add_eq (by omega)).trans (by rw [row])
  have nextPos : s.nextRow.con.pos.toNat = s.con.pos.toNat + 160 :=
    (toNat_add_eq (by omega)).trans (by rw [row])
  refine ⟨con.start, con.ends, con.bottom, column, line, nextOrigin, nextEnd, ?_, touched⟩
  rw [nextPos, nextOrigin, pos]
  change _ = _ + s.con.y.toNat * 160 + 2 * s.con.x.toNat
  omega

/-- The rows are copied inside when all of them lie inside. -/
theorem TouchesInside.copyRows (inside : s.TouchesInside base limit)
    (start : s.con.videoMemStart.toNat = base) (low : base ≤ s.con.origin.toNat)
    (high : s.con.origin.toNat + 4 * 960 ≤ limit) (long : base + 25 * 160 ≤ limit)
    (limited : limit < 2 ^ 32) : s.copyRows.TouchesInside base limit := by
  have count : (((videoNumLines - 1) * videoNumColumns) >>> 1).toNat = 960 := rfl
  have columns : videoNumColumns.toNat = 80 := rfl
  rw [Screen.copyRows]
  generalize ((videoNumLines - 1) * videoNumColumns) >>> 1 = longs at count
  generalize videoNumColumns.toNat = number at columns
  have copied : TouchesInside base limit
      (Screen.movsl longs.toNat s.con.origin s.con.videoMemStart s) :=
    inside.movsl low (by omega) start.ge (by omega) limited
  have lastRow := toNat_mul_add start count (by omega)
  exact copied.stosw (by omega) (by omega) limited

/-- The screen is one row further on, or its text is. -/
theorem Within.scrup (within : s.Within base limit columns) (few : columns < 160) :
    s.scrup.Within base limit columns := by
  have spec := isNextRow within few
  have limited := within.con.limited
  have fits := within.con.fits
  have low := within.con.origin
  have isEnd := within.con.scrEnd
  rw [Screen.scrup]
  generalize s.nextRow = next at spec
  obtain ⟨start, ends, bottom, column, line, origin, scrEnd, pos, touched⟩ := spec
  dsimp only
  split
  next beyond =>
    -- The text is copied to the start of the memory.
    have moved : (next.con.origin - next.con.videoMemStart).toNat =
        s.con.origin.toNat + 160 - base := by
      rw [toNat_sub_eq (by omega), origin, start]
    have newEnd : (next.con.scrEnd - (next.con.origin - next.con.videoMemStart)).toNat =
        base + 25 * 160 := by
      rw [toNat_sub_eq (by omega), moved, scrEnd]
      omega
    have newPos : (next.con.pos - (next.con.origin - next.con.videoMemStart)).toNat =
        base + next.con.y.toNat * 160 + 2 * next.con.x.toNat := by
      rw [toNat_sub_eq (by omega), moved, pos]
      omega
    have copied := touched.copyRows start (by omega) (by omega) (by omega) (by omega)
    generalize next.copyRows = copy at copied
    refine ⟨⟨start, ends, limited, bottom, column, line, start.ge, ?_, ?_, ?_⟩, copied⟩
    · exact newEnd.trans (by rw [start])
    · exact newEnd.le.trans (by omega)
    · exact newPos.trans (by rw [start])
  next inside =>
    -- The origin is one row further on.
    have endLe : s.con.scrEnd.toNat + 160 ≤ limit := by
      rw [gt_iff_lt, UInt32.lt_iff_toNat_lt, scrEnd, ends] at inside
      omega
    have lastRow : (next.con.scrEnd - videoSizeRow).toNat = s.con.scrEnd.toNat := by
      rw [toNat_sub_eq (by rw [scrEnd, toNat_row]; omega), scrEnd, toNat_row]
      omega
    have isColumns := toNat_columns
    generalize videoNumColumns.toNat = number at isColumns
    constructor
    · rw [stosw_con]
      exact ⟨start, ends, limited, bottom, column, line, by omega, by omega, by omega, pos⟩
    · exact touched.stosw (by omega) (by omega) (by omega)

theorem Within.lf (within : s.Within base limit columns) (few : columns < 160) :
    s.lf.Within base limit columns := by
  rw [Screen.lf]
  split
  next notLast =>
    obtain ⟨con, touched⟩ := within
    have one : (1 : UInt32).toNat = 1 := rfl
    have last : (25 : UInt32).toNat = 25 := rfl
    have column := con.column
    have line := con.line
    have limited := con.limited
    have fits := con.fits
    have scrEnd := con.scrEnd
    have pos := con.pos
    have nextLine : (s.con.y + 1).toNat = s.con.y.toNat + 1 := by
      rw [toNat_add_eq (by omega), one]
    have nextPos : (s.con.pos + videoSizeRow).toNat = s.con.pos.toNat + 160 := by
      rw [toNat_add_eq (by rw [toNat_row]; omega), toNat_row]
    rw [UInt32.lt_iff_toNat_lt, nextLine, con.bottom, last] at notLast
    refine ⟨con.place con.column ?_ con.origin scrEnd fits ?_, touched⟩
    · omega
    · omega
  · exact within.scrup few

theorem toNat_pos_sub {con : Console} (within : con.Within base limit columns)
    (few : columns < 160) : (con.pos - (con.x <<< 1)).toNat =
      con.origin.toNat + con.y.toNat * 160 := by
  have column := within.column
  have pos := within.pos
  have shift : (con.x <<< 1).toNat = 2 * con.x.toNat := toNat_shiftLeft_one (by omega)
  rw [toNat_sub_eq (by omega)]
  omega

theorem Within.cr (within : s.Within base limit columns) (few : columns < 160)
    (columns' : Nat) : s.cr.Within base limit columns' := by
  obtain ⟨con, touched⟩ := within
  refine ⟨con.place (Nat.zero_le _) con.line con.origin con.scrEnd con.fits ?_, touched⟩
  rw [toNat_pos_sub con few]
  rfl

/-- A column behind the last one goes on at the start of the next line. -/
theorem Within.wrap (within : s.Within base limit columns) (few : columns < 160) :
    s.wrap.Within base limit 79 := by
  have isColumns := toNat_columns
  have row := toNat_row
  obtain ⟨con, touched⟩ := within
  have column := con.column
  have pos := con.pos
  rw [Screen.wrap]
  split
  next behind =>
    rw [ge_iff_le, UInt32.le_iff_toNat_le, isColumns] at behind
    have newColumn : (s.con.x - videoNumColumns).toNat = s.con.x.toNat - 80 := by
      rw [toNat_sub_eq (by omega), isColumns]
    have newPos : (s.con.pos - videoSizeRow).toNat = s.con.pos.toNat - 160 := by
      rw [toNat_sub_eq (by omega), row]
    refine Within.lf ⟨con.place ?_ con.line con.origin con.scrEnd con.fits ?_, touched⟩ (by omega)
    · omega
    · omega
  next inside =>
    rw [ge_iff_le, UInt32.le_iff_toNat_le, isColumns] at inside
    have newColumn : s.con.x.toNat ≤ 79 := by omega
    exact ⟨con.place newColumn con.line con.origin con.scrEnd con.fits con.pos, touched⟩

theorem toNat_tab (column : UInt32) : 1 ≤ (4 - (column &&& 3)).toNat ∧
    (4 - (column &&& 3)).toNat ≤ 4 := by
  have four : (4 : UInt32).toNat = 4 := rfl
  have masked : (column &&& 3).toNat ≤ 3 := by
    rw [UInt32.toNat_and]
    exact Nat.and_le_right
  rw [toNat_sub_eq (by omega)]
  omega

theorem Within.ht (within : s.Within base limit columns) (few : columns ≤ 80) :
    s.ht.Within base limit 79 := by
  obtain ⟨con, touched⟩ := within
  have column := con.column
  have line := con.line
  have limited := con.limited
  have fits := con.fits
  have scrEnd := con.scrEnd
  have pos := con.pos
  have tab := toNat_tab s.con.x
  rw [Screen.ht]
  generalize 4 - (s.con.x &&& 3) = tmp at tab
  have shift : (tmp <<< 1).toNat = 2 * tmp.toNat := toNat_shiftLeft_one (by omega)
  have newColumn : (s.con.x + tmp).toNat = s.con.x.toNat + tmp.toNat := toNat_add_eq (by omega)
  have newPos : (s.con.pos + (tmp <<< 1)).toNat = s.con.pos.toNat + 2 * tmp.toNat := by
    rw [toNat_add_eq (by omega), shift]
  have moved : Screen.Within base limit 84 { s with con := { s.con with
      x := s.con.x + tmp
      pos := s.con.pos + (tmp <<< 1) } } := by
    refine ⟨con.place ?_ con.line con.origin con.scrEnd con.fits ?_, touched⟩
    · omega
    · omega
  exact moved.wrap (by omega)

theorem Within.back (within : s.Within base limit columns) : s.back.Within base limit columns := by
  rw [Screen.back]
  split
  next notFirst =>
    obtain ⟨con, touched⟩ := within
    have one : (1 : UInt32).toNat = 1 := rfl
    have two : (2 : UInt32).toNat = 2 := rfl
    have column := con.column
    have pos := con.pos
    have atLeast : s.con.x.toNat ≠ 0 := fun zero => notFirst (UInt32.toNat_inj.mp zero)
    have newColumn : (s.con.x - 1).toNat = s.con.x.toNat - 1 := by
      rw [toNat_sub_eq (by omega), one]
    have newPos : (s.con.pos - 2).toNat = s.con.pos.toNat - 2 := by
      rw [toNat_sub_eq (by omega), two]
    refine ⟨con.place ?_ con.line con.origin con.scrEnd con.fits ?_, touched⟩
    · omega
    · omega
  · exact within

/-- The word at the cursor lies inside when the cursor is in a column of the screen. -/
theorem Within.store (within : s.Within base limit columns) (onScreen : s.con.x.toNat ≤ 79)
    (value : UInt16) : (s.store s.con.pos value).Within base limit columns := by
  obtain ⟨con, touched⟩ := within
  have line := con.line
  have low := con.origin
  have fits := con.fits
  have scrEnd := con.scrEnd
  have pos := con.pos
  exact ⟨con, touched.store ⟨by omega, by omega⟩ value⟩

theorem Within.del (within : s.Within base limit columns) (few : columns ≤ 80) :
    s.del.Within base limit columns := by
  rw [Screen.del]
  split
  next notFirst =>
    have before := within.con.column
    have atLeast : s.con.x.toNat ≠ 0 := fun zero => notFirst (UInt32.toNat_inj.mp zero)
    have one : (1 : UInt32).toNat = 1 := rfl
    have column : s.back.con.x.toNat = s.con.x.toNat - 1 := by
      rw [Screen.back, if_pos notFirst]
      exact (toNat_sub_eq (by omega)).trans (by rw [one])
    exact within.back.store (by omega) _
  · exact within

theorem Within.showChar (within : s.Within base limit columns) (few : columns < 160) (c : UInt8) :
    (s.showChar c).Within base limit 80 := by
  have wrapped := within.wrap few
  rw [Screen.showChar]
  generalize s.wrap = next at wrapped
  obtain ⟨con, touched⟩ := wrapped.store wrapped.con.column
    (next.con.attr.toUInt16 <<< 8 ||| c.toUInt16)
  generalize next.store next.con.pos _ = stored at con touched
  have one : (1 : UInt32).toNat = 1 := rfl
  have two : (2 : UInt32).toNat = 2 := rfl
  have column := con.column
  have line := con.line
  have limited := con.limited
  have fits := con.fits
  have scrEnd := con.scrEnd
  have pos := con.pos
  have newColumn : (stored.con.x + 1).toNat = stored.con.x.toNat + 1 := by
    rw [toNat_add_eq (by omega), one]
  have newPos : (stored.con.pos + 2).toNat = stored.con.pos.toNat + 2 := by
    rw [toNat_add_eq (by omega), two]
  refine ⟨con.place ?_ con.line con.origin con.scrEnd con.fits ?_, touched⟩
  · omega
  · omega

theorem Within.gotoxy (within : s.Within base limit 80) (newX newY : UInt32) :
    Within base limit 80 { s with con := s.con.gotoxy newX newY } := by
  rw [Console.gotoxy]
  split
  · exact within
  next onScreen =>
    obtain ⟨con, touched⟩ := within
    have isColumns := toNat_columns
    have lines : videoNumLines.toNat = 25 := rfl
    rw [not_or, gt_iff_lt, ge_iff_le, UInt32.lt_iff_toNat_lt, UInt32.le_iff_toNat_le, isColumns,
      lines] at onScreen
    have limited := con.limited
    have fits := con.fits
    have scrEnd := con.scrEnd
    have row : (newY * videoSizeRow).toNat = newY.toNat * 160 := by
      rw [UInt32.toNat_mul, toNat_row]
      exact Nat.mod_eq_of_lt (by omega)
    have shift : (newX <<< 1).toNat = 2 * newX.toNat := toNat_shiftLeft_one (by omega)
    have first : (s.con.origin + newY * videoSizeRow).toNat =
        s.con.origin.toNat + newY.toNat * 160 := by
      rw [toNat_add_eq (by omega), row]
    have isPos : (s.con.origin + newY * videoSizeRow + (newX <<< 1)).toNat =
        s.con.origin.toNat + newY.toNat * 160 + 2 * newX.toNat := by
      rw [toNat_add_eq (by omega), first, shift]
    exact ⟨con.place (by omega) (by omega) con.origin scrEnd fits isPos, touched⟩

theorem toNat_shiftRight_one (number : UInt32) : (number >>> 1).toNat = number.toNat / 2 := by
  have isShift : (number >>> 1).toNat = number.toNat >>> 1 := UInt32.toNat_shiftRight _ _
  rw [isShift, Nat.shiftRight_eq_div_pow]

theorem Within.stosw (within : s.Within base limit columns) {count : Nat} {edi : UInt32}
    (low : base ≤ edi.toNat) (high : edi.toNat + 2 * count ≤ limit) :
    (stosw count edi s).Within base limit columns := by
  have limited := within.con.limited
  refine ⟨?_, within.touched.stosw low high (by omega)⟩
  rw [stosw_con]
  exact within.con

theorem Within.csiJ (within : s.Within base limit 80) (vpar : Int) :
    (s.csiJ vpar).Within base limit 80 := by
  have con := within.con
  have column := con.column
  have line := con.line
  have low := con.origin
  have fits := con.fits
  have scrEnd := con.scrEnd
  have pos := con.pos
  rw [Screen.csiJ]
  split
  · have toEnd : (s.con.scrEnd - s.con.pos).toNat = s.con.scrEnd.toNat - s.con.pos.toNat :=
      toNat_sub_eq (by omega)
    have count := toNat_shiftRight_one (s.con.scrEnd - s.con.pos)
    exact within.stosw (by omega) (by omega)
  split
  · have toPos : (s.con.pos - s.con.origin).toNat = s.con.pos.toNat - s.con.origin.toNat :=
      toNat_sub_eq (by omega)
    have count := toNat_shiftRight_one (s.con.pos - s.con.origin)
    exact within.stosw (by omega) (by omega)
  split
  · have count : (videoNumColumns * videoNumLines).toNat = 2000 := rfl
    generalize (videoNumColumns * videoNumLines).toNat = number at count
    exact within.stosw (by omega) (by omega)
  · exact within

/-! ## Characters -/

theorem Within.widen (within : s.Within base limit 79) : s.Within base limit 80 := by
  have column : s.con.x.toNat ≤ 80 := within.con.column.trans (by omega)
  exact ⟨within.con.place column within.con.line within.con.origin within.con.scrEnd
    within.con.fits within.con.pos, within.touched⟩

theorem Within.conChar (within : s.Within base limit 80) (eraseChar c : UInt8) :
    (conChar eraseChar s c).Within base limit 80 := by
  rw [Screen.conChar]
  split
  · exact within.showChar (by omega) _
  split
  · exact within
  split
  · exact within.lf (by omega)
  split
  · exact within.cr (by omega) 80
  split
  · exact within.del le_rfl
  split
  · exact within.back
  split
  · exact (within.ht le_rfl).widen
  · exact within

theorem Within.printChar (within : s.Within base limit 80) (c : UInt8) :
    (printChar s c).Within base limit 80 := by
  rw [Screen.printChar]
  split
  · exact (within.cr (by omega) 80).lf (by omega)
  split
  · exact within.cr (by omega) 80
  split
  · exact (within.ht le_rfl).widen
  · exact within.showChar (by omega) c

theorem Within.foldl {act : Screen → UInt8 → Screen} (chars : List UInt8)
    (keeps : ∀ screen c, screen.Within base limit 80 → (act screen c).Within base limit 80)
    (within : s.Within base limit 80) : (chars.foldl act s).Within base limit 80 := by
  induction chars generalizing s with
  | nil => exact within
  | cons c chars ih => exact ih (keeps s c within)

end Screen

/-! ## All consoles -/

/-- Where the memory of a console starts. -/
def consoleBase (currcons : Nat) : Nat := 0xB8000 + 4096 * currcons

/-- All consoles are all right, and so is what has been read and written for them. -/
structure Consoles.Within (s : Consoles) : Prop where
  con : ∀ currcons < 8,
    (s.con currcons).Within (consoleBase currcons) (consoleBase (currcons + 1)) 80
  fgConsole : s.fgConsole < 8
  touched : ∀ entry ∈ s.touched, entry.1 < 8 ∧
    WordInside (consoleBase entry.1) (consoleBase (entry.1 + 1)) entry.2

namespace Consoles

theorem nrConsoles_eq : nrConsoles = 8 := by decide

theorem toNat_consoleMemory : consoleMemory.toNat = 4096 := by decide

theorem Within.perform {s : Consoles} {currcons : Nat} {act : Screen → Screen}
    (within : s.Within) (isConsole : currcons < 8)
    (keeps : ∀ base limit screen, screen.Within base limit 80 →
      (act screen).Within base limit 80) : (s.perform currcons act).Within := by
  have before : Screen.Within (consoleBase currcons) (consoleBase (currcons + 1)) 80
      ⟨s.con currcons, s.word, []⟩ :=
    ⟨within.con currcons isConsole, fun address member => absurd member (List.not_mem_nil)⟩
  have after := keeps _ _ _ before
  constructor
  · intro other isOther
    change (Function.update s.con currcons _ other).Within _ _ _
    rw [Function.update_apply]
    split
    next same =>
      rw [same]
      exact after.con
    · exact within.con other isOther
  · exact within.fgConsole
  · intro entry member
    rw [Consoles.perform] at member
    rcases List.mem_append.mp member with old | isNew
    · exact within.touched entry old
    · obtain ⟨address, isTouched, isEntry⟩ := List.mem_map.mp isNew
      rw [← isEntry]
      exact ⟨isConsole, after.touched address isTouched⟩

theorem Within.step {s next : Consoles} {action : ConsoleAction} (within : s.Within)
    (taken : consoleStep s action = some next) : next.Within := by
  have eight : nrConsoles.toNat = 8 := by
    rw [nrConsoles_eq]
    rfl
  cases action with
  | conWrite currcons eraseChar chars =>
      rw [consoleStep, eight] at taken
      split at taken
      next isConsole =>
        cases taken
        exact within.perform isConsole fun _ _ screen held =>
          held.foldl chars fun _ c kept => kept.conChar eraseChar c
      · cases taken
  | consolePrint chars =>
      cases taken
      exact within.perform within.fgConsole fun _ _ screen held =>
        held.foldl _ fun _ c kept => kept.printChar c
  | gotoxy currcons newX newY =>
      rw [consoleStep, eight] at taken
      split at taken
      next isConsole =>
        cases taken
        exact within.perform isConsole fun _ _ screen held => held.gotoxy newX newY
      · cases taken
  | csiJ currcons vpar =>
      rw [consoleStep, eight] at taken
      split at taken
      next isConsole =>
        cases taken
        exact within.perform isConsole fun _ _ screen held => held.csiJ vpar
      · cases taken
  | changeConsole newConsole =>
      rw [consoleStep, eight] at taken
      split at taken
      next isConsole =>
        cases taken
        exact ⟨within.con, isConsole, within.touched⟩
      · cases taken
        exact within

theorem firstConsole_within {eraseChar tmp : UInt16} (inside : tmp < 2000) :
    (firstConsole eraseChar tmp).Within (consoleBase 0) (consoleBase 1) 80 := by
  have small : tmp.toNat < 2000 := UInt16.lt_iff_toNat_lt.mp inside
  have line : (tmp / 80).toUInt32.toNat = tmp.toNat / 80 := by
    rw [UInt16.toNat_toUInt32, UInt16.toNat_div]
    rfl
  have column : (tmp % 80).toUInt32.toNat = tmp.toNat % 80 := by
    rw [UInt16.toNat_toUInt32, UInt16.toNat_mod]
    rfl
  have base : videoMemBase.toNat = 0xB8000 := rfl
  have row : ((tmp / 80).toUInt32 * videoSizeRow).toNat = tmp.toNat / 80 * 160 := by
    rw [UInt32.toNat_mul, line, Screen.toNat_row]
    exact Nat.mod_eq_of_lt (by omega)
  have shift : ((tmp % 80).toUInt32 <<< 1).toNat = 2 * (tmp.toNat % 80) := by
    rw [Screen.toNat_shiftLeft_one (by omega), column]
  have first : (videoMemBase + (tmp / 80).toUInt32 * videoSizeRow).toNat =
      0xB8000 + tmp.toNat / 80 * 160 := by
    rw [Screen.toNat_add_eq (by omega), row, base]
  constructor
  case column => exact column.le.trans (by omega)
  case line => exact line.trans_lt (by omega)
  case pos =>
    change (videoMemBase + (tmp / 80).toUInt32 * videoSizeRow +
      ((tmp % 80).toUInt32 <<< 1)).toNat = videoMemBase.toNat +
        (tmp / 80).toUInt32.toNat * 160 + 2 * (tmp % 80).toUInt32.toNat
    rw [Screen.toNat_add_eq (by omega), first, shift, base, line, column]
  case start => rfl
  case ends =>
    change (videoMemBase + consoleMemory).toNat = consoleBase 1
    decide
  case limited => decide
  case bottom => rfl
  case origin => exact base.ge
  case scrEnd =>
    change (videoMemBase + videoNumLines * videoSizeRow).toNat = videoMemBase.toNat + 25 * 160
    decide
  case fits =>
    change (videoMemBase + videoNumLines * videoSizeRow).toNat ≤ consoleBase 1
    decide

theorem nextConsole_within {first : Console} {base : UInt32} {currcons : Nat}
    (isConsole : currcons < 8) (isBottom : first.bottom = 25)
    (isBase : base.toNat = consoleBase currcons) :
    (nextConsole first base).Within (consoleBase currcons) (consoleBase (currcons + 1)) 80 := by
  have next : consoleBase (currcons + 1) = consoleBase currcons + 4096 := by
    rw [consoleBase, consoleBase]
    omega
  have limited : consoleBase currcons + 4096 ≤ 0xC0000 := by
    rw [consoleBase]
    omega
  have memory := toNat_consoleMemory
  have screen : (videoNumLines * videoSizeRow).toNat = 25 * 160 := by decide
  have isEnd : (base + videoNumLines * videoSizeRow).toNat = base.toNat + 25 * 160 := by
    rw [Screen.toNat_add_eq (by omega), screen]
  have home : base + (0 : UInt32) * videoSizeRow + ((0 : UInt32) <<< 1) = base := by
    have zero : (0 : UInt32) * videoSizeRow = 0 := by decide
    have none : (0 : UInt32) <<< 1 = 0 := by decide
    rw [zero, none, UInt32.add_zero, UInt32.add_zero]
  have limit : (base + consoleMemory).toNat = consoleBase (currcons + 1) := by
    rw [Screen.toNat_add_eq (by omega), memory, next, isBase]
  rw [nextConsole, Console.gotoxy, if_neg (by decide), next]
  rw [next] at limit
  constructor
  case start => exact isBase
  case ends => exact limit
  case limited => exact limited
  case bottom => exact isBottom
  case column => exact Nat.zero_le 80
  case line => exact Nat.zero_lt_succ 24
  case origin => exact isBase.ge
  case scrEnd => exact isEnd
  case fits => exact isEnd.le.trans (by omega)
  case pos => exact congrArg UInt32.toNat home

theorem conInit_within {eraseChar tmp : UInt16} (inside : tmp < 2000) (word : UInt32 → UInt16) :
    (conInit eraseChar tmp word).Within := by
  constructor
  · intro currcons isConsole
    rw [conInit]
    dsimp only
    split
    next isFirst =>
      rw [isFirst]
      exact firstConsole_within inside
    · refine nextConsole_within isConsole rfl ?_
      have base : videoMemBase.toNat = 0xB8000 := rfl
      have isNumber : (UInt32.ofNat currcons).toNat = currcons :=
        UInt32.toNat_ofNat_of_lt' (isConsole.trans (by decide))
      have offset : (UInt32.ofNat currcons * consoleMemory).toNat = currcons * 4096 := by
        rw [UInt32.toNat_mul, isNumber, toNat_consoleMemory]
        exact Nat.mod_eq_of_lt (by omega)
      rw [Screen.toNat_add_eq (by omega), base, offset, consoleBase]
      omega
  · exact Nat.zero_lt_succ 7
  · intro entry member
    cases member

end Consoles

/-- The cursor is on the console's screen, and the screen in the console's memory. -/
structure Console.OnScreen (con : Console) : Prop where
  pos : con.pos.toNat =
    con.origin.toNat + con.y.toNat * videoSizeRow.toNat + 2 * con.x.toNat
  column : con.x ≤ 80
  line : con.y < 25
  origin : con.videoMemStart ≤ con.origin
  scrEnd : con.scrEnd.toNat = con.origin.toNat + 25 * videoSizeRow.toNat
  fits : con.scrEnd ≤ con.videoMemEnd

theorem Console.Within.onScreen {base limit : Nat} {con : Console}
    (within : con.Within base limit 80) : con.OnScreen where
  pos := within.pos
  column := UInt32.le_iff_toNat_le.mpr within.column
  line := UInt32.lt_iff_toNat_lt.mpr within.line
  origin := UInt32.le_iff_toNat_le.mpr (within.start.trans_le within.origin)
  scrEnd := within.scrEnd
  fits := UInt32.le_iff_toNat_le.mpr (within.fits.trans within.ends.ge)

/-- From `con_init` on, the cursor of every console stays on its screen, and no word outside the
console's memory is read or written for it. -/
theorem consoles_onScreen {eraseChar tmp : UInt16} {word : UInt32 → UInt16}
    {actions : List ConsoleAction} {final : Consoles} (inside : tmp < 2000)
    (ran : exec consoleStep (Consoles.conInit eraseChar tmp word) actions = some final) :
    (∀ currcons < nrConsoles.toNat, (final.con currcons).OnScreen) ∧
      ∀ entry ∈ final.touched, entry.1 < nrConsoles.toNat ∧
        WordInside (final.con entry.1).videoMemStart.toNat (final.con entry.1).videoMemEnd.toNat
          entry.2 := by
  have eight : nrConsoles.toNat = 8 := by decide
  have within : final.Within :=
    exec_preserves Consoles.Within (fun _ _ _ held taken => held.step taken)
      (Consoles.conInit_within inside word) ran
  rw [eight]
  constructor
  · intro currcons isConsole
    exact (within.con currcons isConsole).onScreen
  · intro entry member
    obtain ⟨isConsole, isInside⟩ := within.touched entry member
    have con := within.con entry.1 isConsole
    rw [con.start, con.ends]
    exact ⟨isConsole, isInside⟩

/-- Characters in the last row and column, a newline there, and another console. -/
def lastRow : List ConsoleAction :=
  [.conWrite 0 127 [65, 9, 127], .consolePrint [10, 66], .csiJ 0 1, .gotoxy 3 80 24,
    .conWrite 3 127 [67]]

theorem consoles_onScreen_lastRow :
    ∃ final, exec consoleStep (Consoles.conInit 0x720 1999 fun _ => 0) lastRow = some final ∧
      (final.con 0).OnScreen ∧ (final.con 3).OnScreen := by
  have inside : (1999 : UInt16) < 2000 := by decide
  obtain ⟨final, ran⟩ : ∃ final,
      exec consoleStep (Consoles.conInit 0x720 1999 fun _ => 0) lastRow = some final := ⟨_, rfl⟩
  have held := (consoles_onScreen inside ran).1
  exact ⟨final, ran, held 0 (by decide), held 3 (by decide)⟩

end Linux012.ChrDrv
