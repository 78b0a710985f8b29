import Mathlib.Data.UInt
import Mathlib.Logic.Function.Basic
import Mathlib.Algebra.Group.Nat.Defs
import Linux012.Lib.Run
import Linux012.Lib.Sizes

/-!
# The consoles

`console.c`: the consoles that `con_init` lays out in the video memory, and what their characters
do there.  The addresses of the words that are read or written are kept in order; the registers
of the display controller are left out.
-/

namespace Linux012.ChrDrv

open Linux012.Lib

/-! ## A screen -/

abbrev videoNumColumns : UInt32 := 80
abbrev videoMemBase : UInt32 := 0xB8000
abbrev videoMemTerm : UInt32 := 0xC0000
abbrev videoSizeRow : UInt32 := 160
abbrev videoNumLines : UInt32 := 25

/-- `translations`, the normal 7-bit ascii from the space on. -/
def translations (index : Nat) : UInt8 := if index < 95 then UInt8.ofNat (index + 32) else 32

/-- `struct console_struct`. -/
structure Console where
  videoEraseChar : UInt16
  attr : UInt8
  origin : UInt32
  scrEnd : UInt32
  pos : UInt32
  x : UInt32
  y : UInt32
  top : UInt32
  bottom : UInt32
  videoMemStart : UInt32
  videoMemEnd : UInt32
  translate : Nat → UInt8

/-- A console with the words of the video memory; `touched` are the addresses of those that have
been read or written. -/
structure Screen where
  con : Console
  word : UInt32 → UInt16
  touched : List UInt32

namespace Console

def gotoxy (con : Console) (newX newY : UInt32) : Console :=
  if newX > videoNumColumns ∨ newY ≥ videoNumLines then con
  else
    { con with
      x := newX
      y := newY
      pos := con.origin + newY * videoSizeRow + (newX <<< 1) }

def cr (con : Console) : Console := { con with pos := con.pos - (con.x <<< 1), x := 0 }

end Console

namespace Screen

/-- A word is written. -/
def store (s : Screen) (address : UInt32) (value : UInt16) : Screen :=
  { s with word := Function.update s.word address value, touched := s.touched ++ [address] }

/-- `rep; stosw` with `video_erase_char`. -/
def stosw : (count : Nat) → (edi : UInt32) → Screen → Screen
  | 0, _, s => s
  | count + 1, edi, s => stosw count (edi + 2) (s.store edi s.con.videoEraseChar)

/-- `rep; movsl`. -/
def movsl : (count : Nat) → (esi edi : UInt32) → Screen → Screen
  | 0, _, _, s => s
  | count + 1, esi, edi, s =>
      let low := s.word esi
      let high := s.word (esi + 2)
      let s := { s with touched := s.touched ++ [esi, esi + 2] }
      movsl count (esi + 4) (edi + 4) ((s.store edi low).store (edi + 2) high)

/-- The origin is one row further on, and so are the cursor and the end. -/
def nextRow (s : Screen) : Screen :=
  { s with con := { s.con with
    origin := s.con.origin + videoSizeRow
    pos := s.con.pos + videoSizeRow
    scrEnd := s.con.scrEnd + videoSizeRow } }

/-- All rows but the last one are copied to the start of the memory, and the last one is filled. -/
def copyRows (s : Screen) : Screen :=
  let count := ((videoNumLines - 1) * videoNumColumns) >>> 1
  stosw videoNumColumns.toNat (s.con.videoMemStart + 4 * count)
    (movsl count.toNat s.con.origin s.con.videoMemStart s)

def scrup (s : Screen) : Screen :=
  let s := s.nextRow
  if s.con.scrEnd > s.con.videoMemEnd then
    let con := s.con
    let s := s.copyRows
    { s with
      con := { con with
        scrEnd := con.scrEnd - (con.origin - con.videoMemStart)
        pos := con.pos - (con.origin - con.videoMemStart)
        origin := con.videoMemStart } }
  else stosw videoNumColumns.toNat (s.con.scrEnd - videoSizeRow) s

def lf (s : Screen) : Screen :=
  if s.con.y + 1 < s.con.bottom then
    { s with con := { s.con with y := s.con.y + 1, pos := s.con.pos + videoSizeRow } }
  else s.scrup

def cr (s : Screen) : Screen := { s with con := s.con.cr }

/-- A column behind the last one goes on in the next line. -/
def wrap (s : Screen) : Screen :=
  if s.con.x ≥ videoNumColumns then
    lf { s with con := { s.con with
      x := s.con.x - videoNumColumns
      pos := s.con.pos - videoSizeRow } }
  else s

def ht (s : Screen) : Screen :=
  let tmp := 4 - (s.con.x &&& 3)
  wrap { s with con := { s.con with x := s.con.x + tmp, pos := s.con.pos + (tmp <<< 1) } }

/-- The cursor goes one column back, if it can. -/
def back (s : Screen) : Screen :=
  if s.con.x ≠ 0 then
    { s with con := { s.con with pos := s.con.pos - 2, x := s.con.x - 1 } }
  else s

def del (s : Screen) : Screen :=
  if s.con.x ≠ 0 then
    let s := s.back
    s.store s.con.pos s.con.videoEraseChar
  else s

/-- A character is shown with the console's attribute. -/
def showChar (s : Screen) (c : UInt8) : Screen :=
  let s := s.wrap
  let value := s.con.attr.toUInt16 <<< 8 ||| c.toUInt16
  let s := s.store s.con.pos value
  { s with con := { s.con with pos := s.con.pos + 2, x := s.con.x + 1 } }

/-- `csi_J`. -/
def csiJ (s : Screen) (vpar : Int) : Screen :=
  if vpar = 0 then stosw ((s.con.scrEnd - s.con.pos) >>> 1).toNat s.con.pos s
  else if vpar = 1 then stosw ((s.con.pos - s.con.origin) >>> 1).toNat s.con.origin s
  else if vpar = 2 then stosw (videoNumColumns * videoNumLines).toNat s.con.origin s
  else s

/-- One character of `con_write`; `eraseChar` is `ERASE_CHAR(tty)`. -/
def conChar (eraseChar : UInt8) (s : Screen) (c : UInt8) : Screen :=
  if 31 < c ∧ c < 127 then s.showChar (s.con.translate (c - 32).toNat)
  else if c = 27 then s
  else if c = 10 ∨ c = 11 ∨ c = 12 then s.lf
  else if c = 13 then s.cr
  else if c = eraseChar ∧ c < 128 then s.del
  else if c = 8 then s.back
  else if c = 9 then s.ht
  else s

/-- One character of `console_print`. -/
def printChar (s : Screen) (c : UInt8) : Screen :=
  if c = 10 then s.cr.lf
  else if c = 13 then s.cr
  else if c = 9 then s.ht
  else s.showChar c

end Screen

/-! ## All consoles -/

/-- `vc_cons`, and the video memory; `touched` has the console for which a word has been read or
written. -/
structure Consoles where
  con : Nat → Console
  fgConsole : Nat
  word : UInt32 → UInt16
  touched : List (Nat × UInt32)

def videoMemory : UInt32 := videoMemTerm - videoMemBase

/-- `NR_CONSOLES`, with a `MAX_CONSOLES` of 8. -/
def nrConsoles : UInt32 :=
  let nr := videoMemory / (videoNumLines * videoSizeRow)
  let nr := if nr > 8 then 8 else nr
  if nr = 0 then 1 else nr

/-- The memory of one console. -/
def consoleMemory : UInt32 := videoMemory / nrConsoles

namespace Consoles

/-- The first console, for a cursor of the display controller. -/
def firstConsole (eraseChar tmp : UInt16) : Console where
  videoEraseChar := eraseChar
  attr := 0x07
  origin := videoMemBase
  scrEnd := videoMemBase + videoNumLines * videoSizeRow
  pos := videoMemBase + (tmp / 80).toUInt32 * videoSizeRow + ((tmp % 80).toUInt32 <<< 1)
  x := (tmp % 80).toUInt32
  y := (tmp / 80).toUInt32
  top := 0
  bottom := videoNumLines
  videoMemStart := videoMemBase
  videoMemEnd := videoMemBase + consoleMemory
  translate := translations

/-- Another console, with its memory from `base` on. -/
def nextConsole (first : Console) (base : UInt32) : Console :=
  Console.gotoxy { first with
    origin := base
    videoMemStart := base
    scrEnd := base + videoNumLines * videoSizeRow
    videoMemEnd := base + consoleMemory } 0 0

/-- `con_init`, for what `get_init_pos` returns. -/
def conInit (eraseChar tmp : UInt16) (word : UInt32 → UInt16) : Consoles where
  con currcons :=
    let first := firstConsole eraseChar tmp
    if currcons = 0 then first
    else nextConsole first (videoMemBase + UInt32.ofNat currcons * consoleMemory)
  fgConsole := 0
  word := word
  touched := []

/-- What is done on one of the consoles. -/
def perform (s : Consoles) (currcons : Nat) (act : Screen → Screen) : Consoles :=
  let screen := act ⟨s.con currcons, s.word, []⟩
  { s with
    con := Function.update s.con currcons screen.con
    word := screen.word
    touched := s.touched ++ screen.touched.map fun address => (currcons, address) }

end Consoles

inductive ConsoleAction where
  /-- `con_write` of characters, with an erase character. -/
  | conWrite (currcons : Nat) (eraseChar : UInt8) (chars : List UInt8)
  /-- `console_print` of the characters of a string. -/
  | consolePrint (chars : List UInt8)
  | gotoxy (currcons : Nat) (newX newY : UInt32)
  | csiJ (currcons : Nat) (vpar : Int)
  | changeConsole (newConsole : Nat)
  deriving DecidableEq, Repr

/-- One step. -/
def consoleStep (s : Consoles) : ConsoleAction → Option Consoles
  | .conWrite currcons eraseChar chars =>
      if currcons < nrConsoles.toNat then
        some (s.perform currcons fun screen => chars.foldl (Screen.conChar eraseChar) screen)
      else none
  | .consolePrint chars =>
      some (s.perform s.fgConsole fun screen =>
        (chars.takeWhile (· ≠ 0)).foldl Screen.printChar screen)
  | .gotoxy currcons newX newY =>
      if currcons < nrConsoles.toNat then
        some (s.perform currcons fun screen =>
          { screen with con := screen.con.gotoxy newX newY })
      else none
  | .csiJ currcons vpar =>
      if currcons < nrConsoles.toNat then
        some (s.perform currcons fun screen => screen.csiJ vpar)
      else none
  | .changeConsole newConsole =>
      if newConsole < nrConsoles.toNat then some { s with fgConsole := newConsole } else some s

end Linux012.ChrDrv
