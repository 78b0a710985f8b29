import Mathlib.Logic.Function.Basic
import Mathlib.Data.UInt
import Linux012.Lib.Blanks
import Linux012.Lib.Sizes

/-!
# The command line of the shell

`format_cmd_buf` of `API/shell.c`.  The shell has a page; what was typed is at 1024, and what the
commands are compared with is at its start.
-/

namespace Linux012.Api

open Lib (words squeeze)

/-- The page of the shell, and the places that were written. -/
structure Page where
  bytes : Nat → UInt8
  written : List Nat

namespace Page

/-- `buf[index] = byte`. -/
def store (page : Page) (index : Nat) (byte : UInt8) : Page :=
  { bytes := Function.update page.bytes index byte, written := page.written ++ [index] }

/-- A piece of the page. -/
def slice (page : Page) (start count : Nat) : List UInt8 :=
  (List.range count).map fun k => page.bytes (start + k)

end Page

/-- `'\n'`. -/
def newline : UInt8 := 10

/-- `0x20`. -/
def space : UInt8 := 0x20

/-- A blank or a tab. -/
def isBlank (ch : UInt8) : Bool := ch == space || ch == 9

/-- `CTYPE_CHAR` and the other types of a character. -/
inductive CType where
  | char
  | space
  | atEnd
  | orig
  deriving DecidableEq, Repr

/-- What the first loop finds: the end of the line, a character, or nothing. -/
inductive Front where
  | newline
  | char (j : Nat)
  | nothing

/-- The first loop. -/
def firstLoop (page : Page) (len j : Nat) : Front :=
  if j < len + 1024 then
    if isBlank (page.bytes j) then firstLoop page len (j + 1)
    else if page.bytes j = newline then .newline
    else .char j
  else .nothing
termination_by len + 1024 - j

/-- The second loop. -/
def secondLoop (page : Page) (len i j : Nat) (type : CType) : Page × Nat :=
  if j < len + 1024 then
    let ch := page.bytes j
    let type' : CType :=
      if isBlank ch then .space else if ch ≠ newline then .char else .atEnd
    if type' = .space then secondLoop page len i (j + 1) type'
    else if type' = .atEnd then (page.store i 0, i)
    else if type = .char then secondLoop (page.store i ch) len (i + 1) (j + 1) type'
    else secondLoop ((page.store i space).store (i + 1) ch) len (i + 2) (j + 1) type'
  else (page, len)
termination_by len + 1024 - j

/-- `format_cmd_buf`: the page, and the length. -/
def formatCmdBuf (page : Page) (len : Nat) : Page × Nat :=
  match firstLoop page len 1024 with
  | .newline => (page, 0)
  | .char j => secondLoop (page.store 0 (page.bytes j)) len 1 (j + 1) .char
  | .nothing => secondLoop page len 0 (len + 1024) .orig

/-! ## The second loop -/

section Slices

variable {page : Page} {start count index : Nat} {byte : UInt8}

theorem slice_length : (page.slice start count).length = count := by
  rw [Page.slice, List.length_map, List.length_range]

theorem slice_cons :
    page.slice start (count + 1) = page.bytes start :: page.slice (start + 1) count := by
  rw [Page.slice, List.range_succ_eq_map, List.map_cons, List.map_map, Nat.add_zero]
  refine congrArg _ (List.map_congr_left fun k _ => ?_)
  rw [Function.comp_apply, Nat.add_assoc, Nat.add_comm 1]

theorem slice_concat :
    page.slice start (count + 1) = page.slice start count ++ [page.bytes (start + count)] := by
  rw [Page.slice, List.range_succ, List.map_append]
  rfl

/-- A piece that is not written. -/
theorem slice_store (outside : index < start ∨ start + count ≤ index) :
    (page.store index byte).slice start count = page.slice start count := by
  refine List.map_congr_left fun k member => ?_
  have less := List.mem_range.mp member
  exact Function.update_of_ne (by omega) _ _

/-- A piece that is written at its end. -/
theorem slice_store_concat :
    (page.store count byte).slice 0 (count + 1) = page.slice 0 count ++ [byte] := by
  rw [slice_concat, slice_store (Or.inr (Nat.zero_add _).le), Nat.zero_add]
  exact congrArg (fun b => page.slice 0 count ++ [b]) (Function.update_self _ _ _)

end Slices

section Loops

variable {page : Page} {len i j : Nat} {type : CType} {line tail out : List UInt8}

/-- What is left of the first line, from a place on. -/
structure Ahead (page : Page) (len j : Nat) (line : List UInt8) : Prop where
  within : j < len + 1024
  input : ∃ tail, page.slice j (len + 1024 - j) = line ++ newline :: tail
  oneLine : newline ∉ line

theorem Ahead.read_nil (ahead : Ahead page len j []) : page.bytes j = newline := by
  obtain ⟨tail, input⟩ := ahead.input
  have within := ahead.within
  have count : len + 1024 - j = len + 1024 - (j + 1) + 1 := by omega
  rw [count, slice_cons] at input
  exact (List.cons.inj input).1

theorem Ahead.read_cons {ch : UInt8} (ahead : Ahead page len j (ch :: line)) :
    page.bytes j = ch ∧ ch ≠ newline ∧ Ahead page len (j + 1) line := by
  obtain ⟨tail, input⟩ := ahead.input
  have within := ahead.within
  have count : len + 1024 - j = len + 1024 - (j + 1) + 1 := by omega
  rw [count, slice_cons] at input
  obtain ⟨isChar, input⟩ := List.cons.inj input
  have more : 0 < len + 1024 - (j + 1) := by
    have lengths := congrArg List.length input
    have isLength : (line.append (newline :: tail)).length = line.length + (tail.length + 1) :=
      List.length_append
    rw [slice_length, isLength] at lengths
    omega
  refine ⟨isChar, ?_, by omega, ⟨tail, input⟩, fun member =>
    ahead.oneLine (List.mem_cons_of_mem _ member)⟩
  rintro rfl
  exact ahead.oneLine List.mem_cons_self

/-- What is written at the start is not ahead. -/
theorem Ahead.store {index : Nat} {byte : UInt8} (ahead : Ahead page len j line)
    (low : index < j) : Ahead (page.store index byte) len j line := by
  obtain ⟨tail, input⟩ := ahead.input
  exact ⟨ahead.within, ⟨tail, by rw [slice_store (Or.inl low), input]⟩, ahead.oneLine⟩

/-- What is written so far. -/
structure Done (page : Page) (out : List UInt8) (before : List Nat) : Prop where
  start : page.slice 0 out.length = out
  low : ∀ index ∈ page.written, index ∈ before ∨ index < 1024

/-- A byte is put behind it. -/
theorem Done.store {before : List Nat} {byte : UInt8} (done : Done page out before)
    (low : out.length < 1024) :
    Done (page.store out.length byte) (out ++ [byte]) before ∧
      Done (page.store out.length byte) out before ∧
      (page.store out.length byte).bytes out.length = byte := by
  have lows : ∀ index ∈ (page.store out.length byte).written, index ∈ before ∨ index < 1024 := by
    intro index member
    rcases List.mem_append.mp member with member | member
    · exact done.low index member
    · exact Or.inr (by rw [List.mem_singleton.mp member]; exact low)
  refine ⟨⟨?_, lows⟩, ⟨?_, lows⟩, Function.update_self _ _ _⟩
  · rw [List.length_append, List.length_singleton, slice_store_concat, done.start]
  · rw [slice_store (Or.inr (Nat.zero_add _).le), done.start]

theorem secondLoop_newline (within : j < len + 1024) (read : page.bytes j = newline) :
    secondLoop page len i j type = (page.store i 0, i) := by
  rw [secondLoop, if_pos within, read]
  rfl

theorem secondLoop_blank (within : j < len + 1024) (read : isBlank (page.bytes j) = true) :
    secondLoop page len i j type = secondLoop page len i (j + 1) .space := by
  rw [secondLoop, if_pos within]
  dsimp only
  rw [read]
  rfl

theorem secondLoop_char (within : j < len + 1024) (read : isBlank (page.bytes j) = false)
    (inLine : page.bytes j ≠ newline) :
    secondLoop page len i j type =
      if type = .char then secondLoop (page.store i (page.bytes j)) len (i + 1) (j + 1) .char
      else secondLoop ((page.store i space).store (i + 1) (page.bytes j)) len (i + 2) (j + 1)
        .char := by
  rw [secondLoop, if_pos within]
  dsimp only
  rw [read, if_neg Bool.false_ne_true, if_pos inLine]
  rfl

/-- The second loop writes the rest of the line with one blank between the words, and a NUL; it
writes nothing where it still has to read. -/
theorem secondLoop_spec {before : List Nat} (short : len ≤ 1023)
    (ahead : Ahead page len j line) (done : Done page out before)
    (behind : out.length + 1024 + (if type = .char then 0 else 1) ≤ j) :
    ∃ after, secondLoop page len out.length j type =
        (after, (out ++ squeeze isBlank space (type ≠ .char) line).length) ∧
      Done after (out ++ squeeze isBlank space (type ≠ .char) line) before ∧
      after.bytes (out ++ squeeze isBlank space (type ≠ .char) line).length = 0 := by
  have within := ahead.within
  induction line generalizing page j out type with
  | nil =>
      obtain ⟨-, isDone, isNul⟩ := @Done.store page out before 0 done (by omega)
      rw [squeeze, List.append_nil]
      exact ⟨_, secondLoop_newline within ahead.read_nil, isDone, isNul⟩
  | cons ch line ih =>
      obtain ⟨rfl, inLine, next⟩ := ahead.read_cons
      rw [squeeze]
      cases blank : isBlank (page.bytes j) with
      | true =>
          rw [secondLoop_blank within blank, if_pos rfl]
          exact ih next done (by rw [if_neg (by decide)]; omega) next.within
      | false =>
          rw [secondLoop_char within blank inLine, if_neg Bool.false_ne_true]
          by_cases isChar : type = .char
          · subst isChar
            rw [if_pos rfl] at behind
            have written := (@Done.store page out before (page.bytes j) done (by omega)).1
            have result := @ih (page.store out.length (page.bytes j)) (j + 1) .char
              (out ++ [page.bytes j]) (next.store (by omega)) written
              (by rw [List.length_append, List.length_singleton, if_pos rfl]; omega) next.within
            rwa [List.append_assoc, List.length_append, List.length_singleton] at result
          · rw [if_neg isChar] at behind
            have isSpaced := (@Done.store page out before space done (by omega)).1
            have written := (@Done.store _ _ before (page.bytes j) isSpaced
              (by rw [List.length_append, List.length_singleton]; omega)).1
            rw [List.length_append, List.length_singleton] at written
            have result := @ih ((page.store out.length space).store (out.length + 1)
              (page.bytes j)) (j + 1) .char (out ++ [space] ++ [page.bytes j])
              ((next.store (by omega)).store (by omega)) written
              (by simp only [List.length_append, List.length_singleton, if_true]; omega) next.within
            have length : (out ++ [space] ++ [page.bytes j]).length = out.length + 2 := by
              simp only [List.length_append, List.length_singleton]
            rw [length, List.append_assoc, List.append_assoc] at result
            rw [if_neg isChar, decide_eq_true isChar, if_pos rfl]
            exact result

/-- The first loop stops at the end of a line without a word, or at the first word. -/
theorem firstLoop_spec (ahead : Ahead page len j line) :
    (firstLoop page len j = .newline ∧ words isBlank line = []) ∨
      ∃ j' ch line', firstLoop page len j = .char j' ∧ j ≤ j' ∧ Ahead page len j' (ch :: line') ∧
        isBlank ch = false ∧ words isBlank line = words isBlank (ch :: line') := by
  have within := ahead.within
  induction line generalizing j with
  | nil =>
      refine Or.inl ⟨?_, Lib.words_nil⟩
      rw [firstLoop, if_pos within, ahead.read_nil]
      rfl
  | cons ch line ih =>
      obtain ⟨rfl, inLine, next⟩ := ahead.read_cons
      rw [firstLoop, if_pos within]
      cases blank : isBlank (page.bytes j) with
      | true =>
          rw [if_pos rfl, Lib.words_cons_blank blank]
          rcases ih next next.within with nothing | ⟨j', ch, line', found, low, rest⟩
          · exact Or.inl nothing
          · exact Or.inr ⟨j', ch, line', found, by omega, rest⟩
      | false =>
          rw [if_neg Bool.false_ne_true, if_neg inLine]
          exact Or.inr ⟨j, page.bytes j, line, rfl, le_refl j, ahead, blank, rfl⟩

end Loops

/-! ## The command line -/

section Normal

variable {page : Page} {len : Nat} {line : List UInt8}

/-- The words of a line with one blank between them. -/
def normal (line : List UInt8) : List UInt8 := [space].intercalate (words isBlank line)

/-- The first line of what was typed. -/
def firstLine (page : Page) (len : Nat) : List UInt8 :=
  (page.slice 1024 len).takeWhile (· != newline)

theorem firstLine_ahead (ends : newline ∈ page.slice 1024 len) :
    Ahead page len 1024 (firstLine page len) := by
  have count : len + 1024 - 1024 = len := by omega
  obtain ⟨line, tail, isText, noNewline⟩ := List.eq_append_cons_of_mem ends
  have isLine : firstLine page len = line := by
    have others : ∀ ch ∈ line, (ch != newline) = true := fun ch member =>
      bne_iff_ne.mpr fun same => noNewline (same ▸ member)
    have stops : ¬(newline != newline) = true := by decide
    rw [firstLine, isText, List.takeWhile_append_of_pos others,
      List.takeWhile_cons_of_neg (p := (· != newline)) stops, List.append_nil]
  have some : 0 < len := by
    have lengths := congrArg List.length isText
    rw [slice_length, List.length_append, List.length_cons] at lengths
    omega
  rw [isLine]
  exact ⟨by omega, ⟨tail, by rw [count, isText]⟩, noNewline⟩

/-- `format_cmd_buf` leaves the normal line. -/
theorem formatCmdBuf_normal (short : len ≤ 1023) (ahead : Ahead page len 1024 line) :
    ∃ after, formatCmdBuf page len = (after, (normal line).length) ∧
      Done after (normal line) page.written ∧
      (normal line ≠ [] → after.bytes (normal line).length = 0) := by
  have nothing : Done page [] page.written := ⟨rfl, fun _ member => Or.inl member⟩
  rw [formatCmdBuf, normal]
  rcases firstLoop_spec ahead with ⟨found, isNone⟩ | ⟨j, ch, line', found, low, atWord, solid, same⟩
  · rw [found, isNone]
    exact ⟨page, rfl, nothing, fun some => absurd rfl some⟩
  · obtain ⟨rfl, -, next⟩ := atWord.read_cons
    have first := (@Done.store page [] page.written (page.bytes j) nothing (by decide)).1
    obtain ⟨after, ran, done, isNul⟩ := @secondLoop_spec (page.store 0 (page.bytes j)) len (j + 1)
      .char line' [page.bytes j] page.written short (next.store (by omega)) first
      (by rw [List.length_singleton, if_pos rfl]; omega)
    have isNormal := @Lib.squeeze_false _ isBlank space (page.bytes j) line' solid
    rw [found, same, ← isNormal]
    exact ⟨after, ran, done, fun _ => isNul⟩

/-- Normal lines stay as they are. -/
theorem normal_normal : normal (normal line) = normal line := by
  rw [normal, normal, Lib.words_intercalate (by decide) fun w member =>
    Lib.isWord_of_mem_words member]

theorem newline_not_mem_normal (oneLine : newline ∉ line) : newline ∉ normal line := by
  intro member
  rcases Lib.mem_intercalate_words member with isSpace | member
  · exact absurd isSpace (by decide)
  · exact oneLine member

/-- A line that is typed alone. -/
theorem ahead_of_slice (isText : page.slice 1024 (line.length + 1) = line ++ [newline])
    (oneLine : newline ∉ line) : Ahead page (line.length + 1) 1024 line := by
  have count : line.length + 1 + 1024 - 1024 = line.length + 1 := by omega
  exact ⟨by omega, ⟨[], by rw [count, isText]⟩, oneLine⟩

theorem firstLine_length_lt (ahead : Ahead page len 1024 line) : line.length < len := by
  obtain ⟨tail, input⟩ := ahead.input
  have lengths := congrArg List.length input
  rw [slice_length, List.length_append, List.length_cons] at lengths
  omega

/-- For every typed line that fits the page, `format_cmd_buf` leaves its words with one blank
between them and a NUL behind them, writes nowhere but below the typed line, and leaves such a line
as it is when it gets it again. -/
theorem formatCmdBuf_normalises (short : len ≤ 1023) (ends : newline ∈ page.slice 1024 len)
    (fresh : page.written = []) :
    ∃ after, formatCmdBuf page len = (after, (normal (firstLine page len)).length) ∧
      ((∀ ch ∈ firstLine page len, isBlank ch = true) → (normal (firstLine page len)).length = 0) ∧
      after.slice 0 (normal (firstLine page len)).length = normal (firstLine page len) ∧
      (normal (firstLine page len) ≠ [] →
        after.bytes (normal (firstLine page len)).length = 0) ∧
      (∀ index ∈ after.written, index < 1024) ∧
      ∀ again : Page,
        again.slice 1024 ((normal (firstLine page len)).length + 1) =
          normal (firstLine page len) ++ [newline] →
        ∃ after', formatCmdBuf again ((normal (firstLine page len)).length + 1) =
            (after', (normal (firstLine page len)).length) ∧
          after'.slice 0 (normal (firstLine page len)).length = normal (firstLine page len) := by
  have ahead := firstLine_ahead ends
  have shorter := firstLine_length_lt ahead
  have noLonger : (normal (firstLine page len)).length ≤ (firstLine page len).length :=
    Lib.intercalate_words_length_le
  obtain ⟨after, ran, done, isNul⟩ := formatCmdBuf_normal short ahead
  refine ⟨after, ran, fun blanks => ?_, done.start, isNul, fun index member => ?_,
    fun again isText => ?_⟩
  · rw [normal, Lib.words_of_blanks blanks]
    rfl
  · rcases done.low index member with before | low
    · rw [fresh] at before
      cases before
    · exact low
  · have next := ahead_of_slice isText (newline_not_mem_normal ahead.oneLine)
    obtain ⟨after', ran', done', -⟩ := formatCmdBuf_normal (by omega) next
    rw [normal_normal] at ran' done'
    exact ⟨after', ran', done'.start⟩

/-- `"  kill\t 3 \n"`. -/
def killLine : Page :=
  ⟨fun index => [0x20, 0x20, 107, 105, 108, 108, 9, 0x20, 51, 0x20, 10].getD (index - 1024) 0, []⟩

theorem normal_killLine : normal (firstLine killLine 11) = [107, 105, 108, 108, 0x20, 51] := by
  have isLine : firstLine killLine 11 = [0x20, 0x20, 107, 105, 108, 108, 9, 0x20, 51, 0x20] := by
    decide
  rw [isLine]
  simp [normal, words, Lib.solid, isBlank, space, List.intercalate]

theorem formatCmdBuf_normalises_killLine :
    ∃ after, formatCmdBuf killLine 11 = (after, 6) ∧
      after.slice 0 6 = [107, 105, 108, 108, 0x20, 51] ∧ after.bytes 6 = 0 := by
  obtain ⟨after, ran, -, isNormal, isNul, -⟩ :=
    @formatCmdBuf_normalises killLine 11 (by decide) (by decide) rfl
  rw [normal_killLine] at ran isNormal isNul
  exact ⟨after, ran, isNormal, isNul (List.cons_ne_nil _ _)⟩

end Normal

end Linux012.Api
