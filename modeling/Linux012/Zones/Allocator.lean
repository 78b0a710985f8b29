import Mathlib.Logic.Function.Basic
import Mathlib.Tactic.Common
import Mathlib.Tactic.IntervalCases
import Linux012.Lib.Sizes

/-!
# The zone allocator

`new_block` and `free_block` of `bitmap.c` over the blocks of the zone bitmap in the super
block and over the buffers of the zones.  Which buffer `getblk` takes for a zone that has
none is left open: it is a fresh one.
-/

namespace Linux012.Zones

/-- The buffer of a block of the zone bitmap.  Only the first 8192 bits are there. -/
structure MapBlock where
  bits : Nat → Bool
  bDirt : Bool

/-- The buffer of a zone. -/
structure ZoneBuffer where
  data : Nat → UInt8
  bCount : Nat
  bUptodate : Bool
  bDirt : Bool

/-- A super block with its `s_zmap`, and the buffers of the zones that have one. -/
structure ZoneMap where
  sFirstdatazone : UInt16
  sNzones : UInt16
  sZmap : Nat → Option MapBlock
  buffer : Int → Option ZoneBuffer

namespace ZoneMap

/-! ## The calls -/

/-- The bits of a block of the bitmap. -/
abbrev mapBits : Nat := 8192

/-- The length of `s_zmap`. -/
abbrev zMapSlots : Nat := 8

/-- `find_first_zero`, from bit `n` on. -/
def findFirstZero (bits : Nat → Bool) : (left n : Nat) → Nat
  | 0, n => n
  | left + 1, n => if bits n then findFirstZero bits left (n + 1) else n

/-- The search of `new_block`, from `s_zmap[i]` on. -/
def findZero (m : ZoneMap) : (left i : Nat) → Option (Nat × Nat)
  | 0, _ => none
  | left + 1, i =>
      match m.sZmap i with
      | none => m.findZero left (i + 1)
      | some bh =>
          let j := findFirstZero bh.bits mapBits 0
          if j < mapBits then some (i, j) else m.findZero left (i + 1)

/-- `set_bit` and `clear_bit`, and `b_dirt = 1`. -/
def writeBit (m : ZoneMap) (i j : Nat) (value : Bool) : ZoneMap :=
  { m with
    sZmap := Function.update m.sZmap i
      ((m.sZmap i).map fun bh => ⟨Function.update bh.bits j value, true⟩) }

/-- `getblk`. -/
def getblk (m : ZoneMap) (zone : Int) (fresh : Nat → UInt8) : ZoneBuffer :=
  match m.buffer zone with
  | none => ⟨fresh, 1, false, false⟩
  | some bh => { bh with bCount := bh.bCount + 1 }

/-- `new_block`; `none` when it panics.  `fresh` is what a fresh buffer holds. -/
def newBlock (m : ZoneMap) (fresh : Nat → UInt8) : Option (ZoneMap × Int) :=
  match m.findZero zMapSlots 0 with
  | none => some (m, 0)
  | some (i, j) =>
      let m := m.writeBit i j true
      let zone : Int := j + (i * mapBits + m.sFirstdatazone.toNat - 1)
      if zone ≥ m.sNzones.toNat then some (m, 0)
      else
        let bh := m.getblk zone fresh
        if bh.bCount ≠ 1 then none -- "new block: count is != 1"
        else
          some ({ m with
            buffer := Function.update m.buffer zone
              (some ⟨fun _ => 0, bh.bCount - 1, true, true⟩) }, zone)

/-- `free_block`; `none` when it panics or there is no such block of the bitmap. -/
def freeBlock (m : ZoneMap) (block : Int) : Option (ZoneMap × Bool) :=
  if block < m.sFirstdatazone.toNat ∨ block ≥ m.sNzones.toNat then
    none -- "trying to free block not in datazone"
  else
    let nr := (block - (m.sFirstdatazone.toNat - 1)).toNat
    match m.buffer block with
    | none =>
        if (m.sZmap (nr / mapBits)).isNone then none
        else some (m.writeBit (nr / mapBits) (nr % mapBits) false, true)
    | some bh =>
        -- `get_hash_table` has counted this reference
        if bh.bCount + 1 > 1 then some (m, false)
        else if (m.sZmap (nr / mapBits)).isNone then none
        else
          let m := { m with
            buffer := Function.update m.buffer block
              (some { bh with bDirt := false, bUptodate := false }) }
          some (m.writeBit (nr / mapBits) (nr % mapBits) false, true)

/-! ## What an allocator is meant to do -/

/-- The bit with this number, counted over all blocks of the bitmap, is clear. -/
def ClearAt (m : ZoneMap) (nr : Nat) : Prop :=
  ∃ bh, m.sZmap (nr / mapBits) = some bh ∧ bh.bits (nr % mapBits) = false

/-- The bit is one of `s_zmap`, and clear. -/
def Clear (m : ZoneMap) (nr : Nat) : Prop := nr / mapBits < zMapSlots ∧ m.ClearAt nr

/-- The number of the bit of a zone. -/
def bitNr (m : ZoneMap) (zone : Int) : Nat := (zone - (m.sFirstdatazone.toNat - 1)).toNat

/-- The zone that a bit stands for. -/
def zoneOf (m : ZoneMap) (nr : Nat) : Int := nr + m.sFirstdatazone.toNat - 1

/-- A zone of the data area whose bit is clear. -/
def Free (m : ZoneMap) (zone : Int) : Prop :=
  m.sFirstdatazone.toNat ≤ zone ∧ zone < m.sNzones.toNat ∧ m.Clear (m.bitNr zone)

/-- The contents of the bitmap. -/
def contents (m : ZoneMap) (i : Nat) : Option (Nat → Bool) := (m.sZmap i).map MapBlock.bits

/-- `new_block` returns a free zone, sets its bit, and `free_block` undoes that; or it
returns 0 and changes nothing, and no zone is free. -/
structure Allocates (m : ZoneMap) (fresh : Nat → UInt8) : Prop where
  takes : (∃ zone, m.Free zone) → ∃ zone m', m.newBlock fresh = some (m', zone) ∧
    zone ≠ 0 ∧ m.Free zone ∧
    m'.contents = (m.writeBit (m.bitNr zone / mapBits) (m.bitNr zone % mapBits) true).contents ∧
    ∃ m'', m'.freeBlock zone = some (m'', true) ∧ m''.contents = m.contents
  full : (¬ ∃ zone, m.Free zone) → m.newBlock fresh = some (m, 0)

/-- The lowest clear bit. -/
def Lowest (m : ZoneMap) (nr : Nat) : Prop := m.Clear nr ∧ ∀ lower < nr, ¬ m.Clear lower

/-- The lowest clear bit, if there is one, stands for a zone other than 0 that is on the
device and whose buffer nobody holds. -/
def Usable (m : ZoneMap) : Prop :=
  ∀ nr, m.Lowest nr → m.zoneOf nr < m.sNzones.toNat ∧ m.zoneOf nr ≠ 0 ∧
    ∀ bh, m.buffer (m.zoneOf nr) = some bh → bh.bCount = 0

/-! ## The search -/

section Search

variable {m : ZoneMap}

theorem findFirstZero_spec (bits : Nat → Bool) (left n : Nat) :
    n ≤ findFirstZero bits left n ∧ findFirstZero bits left n ≤ n + left ∧
      (∀ k, n ≤ k → k < findFirstZero bits left n → bits k = true) ∧
      (findFirstZero bits left n < n + left → bits (findFirstZero bits left n) = false) := by
  induction left generalizing n with
  | zero =>
      refine ⟨Nat.le_refl n, Nat.le_refl n, fun k above below => ?_, fun below => ?_⟩
      · exact absurd (Nat.lt_of_le_of_lt above below) (Nat.lt_irrefl n)
      · exact absurd below (Nat.lt_irrefl n)
  | succ left ih =>
      rw [findFirstZero]
      split
      case isTrue set =>
        obtain ⟨above, below, allSet, clear⟩ := ih (n + 1)
        refine ⟨by omega, by omega, fun k nLe kLt => ?_, fun inside => clear (by omega)⟩
        rcases Nat.eq_or_lt_of_le nLe with rfl | nLt
        · exact set
        · exact allSet k nLt kLt
      case isFalse clear =>
        refine ⟨Nat.le_refl n, by omega, fun k above below => by omega, fun _ => ?_⟩
        simpa using clear

theorem div_mapBits {nr i : Nat} :
    nr / mapBits = i ↔ i * mapBits ≤ nr ∧ nr < (i + 1) * mapBits := by
  simp only [mapBits]
  omega

theorem div_mod_mapBits {i j : Nat} (inside : j < mapBits) :
    (i * mapBits + j) / mapBits = i ∧ (i * mapBits + j) % mapBits = j := by
  simp only [mapBits] at *
  omega

/-- The search finds the lowest clear bit from block `i` on, if there is one. -/
theorem findZero_spec (left i : Nat) :
    (m.findZero left i = none ∧
        ∀ nr, i * mapBits ≤ nr → nr < (i + left) * mapBits → ¬ m.ClearAt nr) ∨
      ∃ k j, m.findZero left i = some (k, j) ∧ i ≤ k ∧ k < i + left ∧ j < mapBits ∧
        m.ClearAt (k * mapBits + j) ∧
        ∀ nr, i * mapBits ≤ nr → nr < k * mapBits + j → ¬ m.ClearAt nr := by
  induction left generalizing i with
  | zero =>
      refine Or.inl ⟨rfl, fun nr above below => ?_⟩
      exact absurd (Nat.lt_of_le_of_lt above below) (Nat.lt_irrefl _)
  | succ left ih =>
      -- Without a clear bit in block `i`, the search is that of the other blocks.
      have skip (next : m.findZero (left + 1) i = m.findZero left (i + 1))
          (nothing : ∀ nr, nr / mapBits = i → ¬ m.ClearAt nr) :
          (m.findZero (left + 1) i = none ∧ ∀ nr, i * mapBits ≤ nr →
              nr < (i + (left + 1)) * mapBits → ¬ m.ClearAt nr) ∨
            ∃ k j, m.findZero (left + 1) i = some (k, j) ∧ i ≤ k ∧ k < i + (left + 1) ∧
              j < mapBits ∧ m.ClearAt (k * mapBits + j) ∧
              ∀ nr, i * mapBits ≤ nr → nr < k * mapBits + j → ¬ m.ClearAt nr := by
        rw [next]
        have behind {nr : Nat} (above : i * mapBits ≤ nr) (elsewhere : nr / mapBits ≠ i) :
            (i + 1) * mapBits ≤ nr := by
          by_contra below
          exact elsewhere (div_mapBits.mpr ⟨above, Nat.lt_of_not_le below⟩)
        have last : i + 1 + left = i + (left + 1) := by omega
        have others := ih (i + 1)
        rw [last] at others
        rcases others with ⟨none_found, rest⟩ | ⟨k, j, found, iLe, kLt, inside, clear, rest⟩
        · refine Or.inl ⟨none_found, fun nr above below => ?_⟩
          by_cases here : nr / mapBits = i
          · exact nothing nr here
          · exact rest nr (behind above here) below
        · refine Or.inr ⟨k, j, found, by omega, by omega, inside, clear, fun nr above below => ?_⟩
          by_cases here : nr / mapBits = i
          · exact nothing nr here
          · exact rest nr (behind above here) below
      cases block : m.sZmap i with
      | none =>
          refine skip (by rw [findZero, block]) fun nr here clear => ?_
          obtain ⟨bh, there, -⟩ := clear
          rw [here, block] at there
          cases there
      | some bh =>
          obtain ⟨-, -, allSet, clear⟩ := findFirstZero_spec bh.bits mapBits 0
          rw [Nat.zero_add] at clear
          by_cases inside : findFirstZero bh.bits mapBits 0 < mapBits
          · refine Or.inr ⟨i, findFirstZero bh.bits mapBits 0, ?_, Nat.le_refl i, by omega, inside, ?_,
              fun nr above below isClear => ?_⟩
            · simp only [findZero, block, if_pos inside]
            · obtain ⟨quotient, rest⟩ := div_mod_mapBits (i := i) inside
              exact ⟨bh, by rw [quotient, block], by rw [rest, clear inside]⟩
            · obtain ⟨other, there, zero⟩ := isClear
              have here : nr / mapBits = i := div_mapBits.mpr ⟨above, by
                rw [Nat.add_mul]
                omega⟩
              have offset : nr % mapBits < findFirstZero bh.bits mapBits 0 := by
                have := Nat.div_add_mod' nr mapBits
                rw [here] at this
                omega
              rw [here, block] at there
              obtain rfl := Option.some.inj there
              rw [allSet (nr % mapBits) (Nat.zero_le _) offset] at zero
              cases zero
          · refine skip (by simp only [findZero, block, if_neg inside]) fun nr here isClear => ?_
            obtain ⟨other, there, zero⟩ := isClear
            rw [here, block] at there
            obtain rfl := Option.some.inj there
            have offset : nr % mapBits < findFirstZero bh.bits mapBits 0 :=
              Nat.lt_of_lt_of_le (Nat.mod_lt nr (by decide)) (Nat.le_of_not_lt inside)
            rw [allSet (nr % mapBits) (Nat.zero_le _) offset] at zero
            cases zero

/-- The search finds the lowest clear bit, if there is one. -/
theorem findZero_lowest :
    (m.findZero zMapSlots 0 = none ∧ ∀ nr, ¬ m.Clear nr) ∨
      ∃ i j, m.findZero zMapSlots 0 = some (i, j) ∧ j < mapBits ∧
        m.Lowest (i * mapBits + j) := by
  have inside {nr : Nat} (slot : nr / mapBits < zMapSlots) : nr < (0 + zMapSlots) * mapBits := by
    simp only [mapBits, zMapSlots] at *
    omega
  rcases m.findZero_spec zMapSlots 0 with ⟨none_found, rest⟩ | ⟨i, j, found, -, iLt, jLt, clear, rest⟩
  · refine Or.inl ⟨none_found, fun nr isClear => ?_⟩
    exact rest nr (by omega) (inside isClear.1) isClear.2
  · refine Or.inr ⟨i, j, found, jLt, ⟨?_, clear⟩, fun lower below isClear => ?_⟩
    · rw [(div_mod_mapBits jLt).1]
      omega
    · exact rest lower (by omega) below isClear.2

end Search

/-! ## The calls -/

section Calls

variable {m : ZoneMap} {fresh : Nat → UInt8} {nr : Nat}

theorem Lowest.eq {nr' : Nat} (lowest : m.Lowest nr) (lowest' : m.Lowest nr') : nr = nr' := by
  rcases Nat.lt_trichotomy nr nr' with below | same | above
  · exact absurd lowest.1 (lowest'.2 nr below)
  · exact same
  · exact absurd lowest'.1 (lowest.2 nr' above)

/-- A free zone is one of a clear bit, and not below the zone of the lowest one. -/
theorem Lowest.le (lowest : m.Lowest nr) {zone : Int} (free : m.Free zone) :
    m.zoneOf nr ≤ zone := by
  have := free.1
  have notLower : ¬ m.bitNr zone < nr := fun below => lowest.2 _ below free.2.2
  simp only [bitNr, zoneOf] at *
  omega

theorem Lowest.free (lowest : m.Lowest nr) (pos : 0 < nr)
    (onDevice : m.zoneOf nr < m.sNzones.toNat) : m.Free (m.zoneOf nr) := by
  have number : m.bitNr (m.zoneOf nr) = nr := by
    simp only [bitNr, zoneOf]
    omega
  refine ⟨?_, onDevice, by rw [number]; exact lowest.1⟩
  simp only [zoneOf]
  omega

/-- A clear bit that is set is another bitmap. -/
theorem ne_writeBit (clear : m.ClearAt nr) :
    m.writeBit (nr / mapBits) (nr % mapBits) true ≠ m := by
  intro same
  obtain ⟨bh, there, zero⟩ := clear
  have blocks := congrFun (congrArg ZoneMap.sZmap same) (nr / mapBits)
  simp only [writeBit, Function.update_self, there, Option.map_some] at blocks
  have bits := congrArg MapBlock.bits (Option.some.inj blocks)
  have bit := congrFun bits (nr % mapBits)
  simp only [Function.update_self, zero, reduceCtorEq] at bit

/-- Setting and clearing a bit that was clear leaves the contents as they were. -/
theorem contents_writeBit (clear : m.ClearAt nr) :
    ((m.writeBit (nr / mapBits) (nr % mapBits) true).writeBit (nr / mapBits) (nr % mapBits)
      false).contents = m.contents := by
  obtain ⟨bh, there, zero⟩ := clear
  funext i
  simp only [contents, writeBit, Function.update_idem, Function.update_self, there,
    Option.map_some]
  by_cases here : i = nr / mapBits
  · rw [here, Function.update_self, there, Option.map_some, Option.map_some, ← zero,
      Function.update_eq_self]
  · rw [Function.update_of_ne here]

/-- `new_block` behind the search. -/
theorem Lowest.newBlock_eq (lowest : m.Lowest nr) :
    m.newBlock fresh =
      let m' := m.writeBit (nr / mapBits) (nr % mapBits) true
      if m.zoneOf nr ≥ m.sNzones.toNat then some (m', 0)
      else if (m.getblk (m.zoneOf nr) fresh).bCount ≠ 1 then none
      else
        some ({ m' with
          buffer := Function.update m.buffer (m.zoneOf nr)
            (some ⟨fun _ => 0, (m.getblk (m.zoneOf nr) fresh).bCount - 1, true, true⟩) },
          m.zoneOf nr) := by
  rcases m.findZero_lowest with ⟨-, nothing⟩ | ⟨i, j, found, inside, lowest'⟩
  · exact absurd lowest.1 (nothing nr)
  · obtain rfl := lowest.eq lowest'
    have zone : (j : Int) + (i * mapBits + (m.writeBit i j true).sFirstdatazone.toNat - 1) =
        m.zoneOf (i * mapBits + j) := by
      simp only [zoneOf, writeBit, Int.natCast_add, Int.natCast_mul]
      omega
    simp only [newBlock, found, (div_mod_mapBits inside).1, (div_mod_mapBits inside).2, zone]
    rfl

/-- Nobody holds the buffer. -/
theorem getblk_bCount (zone : Int) :
    (m.getblk zone fresh).bCount = 1 ↔ ∀ bh, m.buffer zone = some bh → bh.bCount = 0 := by
  rw [getblk]
  cases m.buffer zone with
  | none => simp
  | some bh => simp

/-- `free_block` of a zone that was just taken. -/
theorem freeBlock_taken {zone : Int} {buffer : Int → Option ZoneBuffer} {bh : ZoneBuffer}
    (free : m.Free zone) (held : buffer zone = some bh) (unheld : bh.bCount = 0) :
    ∃ m'', ({ m.writeBit (m.bitNr zone / mapBits) (m.bitNr zone % mapBits) true with
        buffer := buffer } : ZoneMap).freeBlock zone = some (m'', true) ∧
      m''.contents = m.contents := by
  obtain ⟨first, last, -, block, there, zero⟩ := free
  have inside : ¬ (zone < m.sFirstdatazone.toNat ∨ zone ≥ m.sNzones.toNat) := by omega
  refine ⟨({ m.writeBit (m.bitNr zone / mapBits) (m.bitNr zone % mapBits) true with
      buffer := Function.update buffer zone
        (some { bh with bDirt := false, bUptodate := false }) } : ZoneMap).writeBit
      (m.bitNr zone / mapBits) (m.bitNr zone % mapBits) false, ?_, ?_⟩
  · have notBusy : ¬ bh.bCount + 1 > 1 := by omega
    have present : ((m.writeBit (m.bitNr zone / mapBits) (m.bitNr zone % mapBits) true).sZmap
        (m.bitNr zone / mapBits)).isNone = false := by
      simp [writeBit, there]
    rw [freeBlock]
    simp only [held, if_neg notBusy]
    refine (if_neg inside).trans (if_neg ?_)
    rw [Bool.not_eq_true]
    exact present
  · exact contents_writeBit ⟨block, there, zero⟩

/-- `new_block` does what it is meant to do on exactly the maps whose lowest clear bit is
usable. -/
theorem allocates_iff (m : ZoneMap) (fresh : Nat → UInt8)
    (reserved : ∀ bh, m.sZmap 0 = some bh → bh.bits 0 = true) :
    m.Allocates fresh ↔ m.Usable := by
  rcases m.findZero_lowest with ⟨none_found, nothing⟩ | ⟨i, j, found, inside, lowest⟩
  · have called : m.newBlock fresh = some (m, 0) := by
      rw [newBlock, none_found]
    refine iff_of_true ⟨?_, fun _ => called⟩ fun nr lowest => absurd lowest.1 (nothing nr)
    rintro ⟨zone, free⟩
    exact absurd free.2.2 (nothing _)
  · have called : m.newBlock fresh = _ := lowest.newBlock_eq
    generalize i * mapBits + j = nr at called lowest
    have usable : m.Usable ↔ m.zoneOf nr < m.sNzones.toNat ∧ m.zoneOf nr ≠ 0 ∧
        ∀ bh, m.buffer (m.zoneOf nr) = some bh → bh.bCount = 0 := by
      constructor
      · exact fun all => all nr lowest
      · intro this nr' lowest'
        rwa [lowest'.eq lowest]
    have pos : 0 < nr := by
      by_contra zero
      obtain rfl : nr = 0 := by omega
      obtain ⟨bh, there, clear⟩ := lowest.1.2
      have := reserved bh there
      simp [this] at clear
    have number : m.bitNr (m.zoneOf nr) = nr := by
      simp only [bitNr, zoneOf]
      omega
    rw [usable]
    by_cases behind : m.zoneOf nr ≥ m.sNzones.toNat
    · -- the bit behind the last zone is set
      rw [if_pos behind] at called
      refine iff_of_false (fun allocates => ?_) fun all => by omega
      have none_free : ¬ ∃ zone, m.Free zone := by
        rintro ⟨zone, free⟩
        have := lowest.le free
        have := free.2.1
        omega
      have same := called.symm.trans (allocates.full none_free)
      exact ne_writeBit lowest.1.2 (congrArg Prod.fst (Option.some.inj same))
    · have onDevice : m.zoneOf nr < m.sNzones.toNat := Int.not_le.mp behind
      have free := lowest.free pos onDevice
      rw [if_neg behind] at called
      by_cases held : (m.getblk (m.zoneOf nr) fresh).bCount = 1
      · rw [if_neg (not_not.mpr held)] at called
        constructor
        · intro allocates
          obtain ⟨zone, m', called', notZero, -⟩ := allocates.takes ⟨_, free⟩
          have same := congrArg Prod.snd (Option.some.inj (called.symm.trans called'))
          exact ⟨onDevice, fun zero => notZero (same.symm.trans zero), (getblk_bCount _).mp held⟩
        · rintro ⟨-, notZero, -⟩
          refine ⟨fun _ => ⟨_, _, called, notZero, free, ?_, ?_⟩, fun none_free => ?_⟩
          · rw [number]
            rfl
          · have buffered : Function.update m.buffer (m.zoneOf nr)
                (some ⟨fun _ => 0, (m.getblk (m.zoneOf nr) fresh).bCount - 1, true, true⟩)
                (m.zoneOf nr) = some _ := Function.update_self ..
            have freed := freeBlock_taken free buffered (by rw [held])
            rwa [number] at freed
          · exact absurd ⟨_, free⟩ none_free
      · rw [if_pos held] at called
        refine iff_of_false (fun allocates => ?_) fun all => ?_
        · obtain ⟨zone, m', called', -⟩ := allocates.takes ⟨_, free⟩
          rw [called] at called'
          cases called'
        · exact held ((getblk_bCount _).mpr all.2.2)

end Calls

/-- Two zones, and one block of the bitmap. -/
def twoZones (bits : Nat → Bool) : ZoneMap where
  sFirstdatazone := 10
  sNzones := 12
  sZmap i := if i = 0 then some ⟨bits, false⟩ else none
  buffer _ := none

/-- The bits behind the last zone are set, as `mkfs` leaves them. -/
theorem allocates_iff_twoZones :
    (∀ bh, (twoZones (· ≠ 2)).sZmap 0 = some bh → bh.bits 0 = true) ∧
      ((twoZones (· ≠ 2)).Allocates (fun _ => 0) ↔ (twoZones (· ≠ 2)).Usable) := by
  have reserved (bh : MapBlock) (there : (twoZones (· ≠ 2)).sZmap 0 = some bh) :
      bh.bits 0 = true := by
    obtain rfl := Option.some.inj there
    rfl
  exact ⟨reserved, allocates_iff (twoZones (· ≠ 2)) (fun _ => 0) reserved⟩

/-- The bit behind the last zone is set although no zone is free. -/
theorem not_allocates_twoZones :
    (∀ bh, (twoZones (· ≤ 2)).sZmap 0 = some bh → bh.bits 0 = true) ∧
      ¬ (twoZones (· ≤ 2)).Allocates fun _ => 0 := by
  have lowest : (twoZones (· ≤ 2)).Lowest 3 := by
    refine ⟨⟨by decide, _, rfl, by decide⟩, fun lower below clear => ?_⟩
    obtain ⟨-, bh, there, zero⟩ := clear
    interval_cases lower <;> cases there <;> cases zero
  have none_free : ¬ ∃ zone, (twoZones (· ≤ 2)).Free zone := by
    rintro ⟨zone, free⟩
    have above := lowest.le free
    have below := free.2.1
    simp only [zoneOf, twoZones] at above below
    simp at above below
    omega
  refine ⟨?_, fun allocates => ?_⟩
  · rintro bh ⟨rfl⟩
    rfl
  · have called : (twoZones (· ≤ 2)).newBlock (fun _ => 0) = _ := lowest.newBlock_eq
    have same := called.symm.trans (allocates.full none_free)
    exact ne_writeBit lowest.1.2 (congrArg Prod.fst (Option.some.inj same))

end ZoneMap

end Linux012.Zones
