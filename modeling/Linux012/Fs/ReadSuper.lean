import Mathlib.Algebra.BigOperators.Fin
import Linux012.Lib.References
import Linux012.Lib.Sizes

/-!
# read_super

`read_super` of `super.c`, as one task runs it.  The calls of `bread` are numbered, and `answer`
gives the buffer that each of them returns, if any.  A store outside of an array and a null buffer
that is followed stop the call here.
-/

namespace Linux012.Fs.ReadSuper

open Lib (refs refOf refs_update refs_eq_sum)

/-- `NR_SUPER`. -/
abbrev nrSuper : Nat := 8

/-- `I_MAP_SLOTS` and `Z_MAP_SLOTS`. -/
abbrev mapSlots : Nat := 8

/-- `SUPER_MAGIC`. -/
def superMagic : UInt16 := 0x137F

/-- A buffer head. -/
abbrev Buffer := Nat

/-- `s_imap` or `s_zmap`. -/
abbrev Map := Fin mapSlots → Option Buffer

/-- `struct d_super_block`. -/
structure DSuperBlock where
  sNinodes : UInt16
  sNzones : UInt16
  sImapBlocks : UInt16
  sZmapBlocks : UInt16
  sFirstdatazone : UInt16
  sLogZoneSize : UInt16
  sMaxSize : UInt32
  sMagic : UInt16

/-- `struct super_block`; inodes are numbers. -/
structure SuperBlock extends DSuperBlock where
  sImap : Map
  sZmap : Map
  sDev : UInt16
  sIsup : Option Nat
  sImount : Option Nat
  sTime : UInt32
  sLock : Bool
  sRdOnly : UInt8
  sDirt : UInt8

/-- `super_block`, with `b_count` and `b_data[0]` of the buffers. -/
structure Supers where
  superBlock : Fin nrSuper → SuperBlock
  bCount : Buffer → Nat
  bData0 : Buffer → UInt8

/-- How the call goes wrong. -/
inductive Stop where
  /-- `s_imap[i]` or `s_zmap[i]` is set for an `i` that is too large. -/
  | overrun
  /-- `s_imap[0]` or `s_zmap[0]` is null when it is followed. -/
  | nullBuffer
  deriving DecidableEq, Repr

/-! ## Buffers -/

/-- `bread` has returned the buffer. -/
def holdBuffer (bCount : Buffer → Nat) (bh : Buffer) : Buffer → Nat :=
  Function.update bCount bh (bCount bh + 1)

/-- `brelse`. -/
def brelse (bCount : Buffer → Nat) : Option Buffer → Buffer → Nat
  | none => bCount
  | some bh => Function.update bCount bh (bCount bh - 1)

/-- The loops that give back a map. -/
def releaseMap (map : Map) (bCount : Buffer → Nat) : Buffer → Nat :=
  (List.finRange mapSlots).foldl (fun bCount i => brelse bCount (map i)) bCount

/-- A map that has been read: the blocks that there were, and the number of the next call. -/
structure Filled where
  reads : Nat
  call : Nat
  map : Map
  bCount : Buffer → Nat

/-- The loop that reads a map, from `i` on. -/
def fillMap (answer : Nat → Option Buffer) :
    (left i call : Nat) → Map → (Buffer → Nat) → Except Stop Filled
  | 0, i, call, map, bCount => .ok ⟨i, call, map, bCount⟩
  | left + 1, i, call, map, bCount =>
      if inRange : i < mapSlots then
        match answer call with
        | some bh =>
            fillMap answer left (i + 1) (call + 1) (Function.update map ⟨i, inRange⟩ (some bh))
              (holdBuffer bCount bh)
        | none => .ok ⟨i, call + 1, Function.update map ⟨i, inRange⟩ none, bCount⟩
      else .error .overrun

/-! ## read_super -/

def Supers.setSuper (s : Supers) (n : Fin nrSuper) (sb : SuperBlock) : Supers :=
  { s with superBlock := Function.update s.superBlock n sb }

/-- `get_super`. -/
def Supers.getSuper (s : Supers) (dev : UInt16) : Option (Fin nrSuper) :=
  if dev = 0 then none
  else (List.finRange nrSuper).find? fun n => (s.superBlock n).sDev == dev

/-- The first free entry. -/
def Supers.freeSuper (s : Supers) : Option (Fin nrSuper) :=
  (List.finRange nrSuper).find? fun n => (s.superBlock n).sDev == 0

/-- The entry is given up. -/
def SuperBlock.giveUp (sb : SuperBlock) : SuperBlock := { sb with sDev := 0, sLock := false }

/-- The part of `read_super` behind the super block itself. -/
def readMaps (answer : Nat → Option Buffer) (s : Supers) (n : Fin nrSuper) (sb : SuperBlock) :
    Except Stop (Supers × Option (Fin nrSuper)) := do
  let imap ← fillMap answer sb.sImapBlocks.toNat 0 1 (fun _ => none) s.bCount
  let zmap ← fillMap answer sb.sZmapBlocks.toNat 0 imap.call (fun _ => none) imap.bCount
  let sb := { sb with sImap := imap.map, sZmap := zmap.map }
  if 2 + imap.reads + zmap.reads ≠ 2 + sb.sImapBlocks.toNat + sb.sZmapBlocks.toNat then
    let bCount := releaseMap sb.sZmap (releaseMap sb.sImap zmap.bCount)
    return ({ s with bCount := bCount }.setSuper n sb.giveUp, none)
  match sb.sImap 0, sb.sZmap 0 with
  | some ibh, some zbh =>
      let bData0 := Function.update s.bData0 ibh (s.bData0 ibh ||| 1)
      let bData0 := Function.update bData0 zbh (bData0 zbh ||| 1)
      return ({ s with bCount := zmap.bCount, bData0 := bData0 }.setSuper n
        { sb with sLock := false }, some n)
  | _, _ => throw .nullBuffer

/-- `read_super`, for a device with the super block `disk`. -/
def readSuper (answer : Nat → Option Buffer) (disk : DSuperBlock) (s : Supers) (dev : UInt16) :
    Except Stop (Supers × Option (Fin nrSuper)) :=
  if dev = 0 then return (s, none)
  else
    match s.getSuper dev, s.freeSuper with
    | some n, _ => return (s, some n)
    | none, none => return (s, none)
    | none, some n =>
        let sb : SuperBlock :=
          { s.superBlock n with
            sDev := dev
            sIsup := none
            sImount := none
            sTime := 0
            sRdOnly := 0
            sDirt := 0
            sLock := true }
        match answer 0 with
        | none => return (s.setSuper n sb.giveUp, none)
        | some bh =>
            let s := { s with bCount := brelse (holdBuffer s.bCount bh) (some bh) }
            let sb := { sb with toDSuperBlock := disk }
            if sb.sMagic ≠ superMagic then return (s.setSuper n sb.giveUp, none)
            else readMaps answer s n { sb with sImap := fun _ => none, sZmap := fun _ => none }

/-! ## What is counted -/

section Counts

variable {bCount bCount' : Buffer → Nat} {map : Map} {bh : Buffer} {list : List (Fin mapSlots)}

theorem brelse_apply {pointer : Option Buffer} :
    brelse bCount pointer bh = bCount bh - refOf pointer bh := by
  cases pointer with
  | none => rfl
  | some other =>
      by_cases same : bh = other
      · subst same
        rw [brelse, Function.update_self, Lib.refOf_self]
      · rw [brelse, Function.update_of_ne same, Lib.refOf_of_ne (Ne.symm same), Nat.sub_zero]

theorem holdBuffer_apply {other : Buffer} :
    holdBuffer bCount other bh = bCount bh + refOf (some other) bh := by
  by_cases same : bh = other
  · subst same
    rw [holdBuffer, Function.update_self, Lib.refOf_self]
  · rw [holdBuffer, Function.update_of_ne same, Lib.refOf_of_ne (Ne.symm same), Nat.add_zero]

theorem brelse_holdBuffer : brelse (holdBuffer bCount bh) (some bh) = bCount := by
  funext other
  rw [brelse_apply, holdBuffer_apply, Nat.add_sub_cancel]

theorem foldl_brelse : list.foldl (fun bCount i => brelse bCount (map i)) bCount bh =
    bCount bh - (list.map fun i => refOf (map i) bh).sum := by
  induction list generalizing bCount with
  | nil => rfl
  | cons i list ih =>
      rw [List.foldl_cons, ih, brelse_apply, List.map_cons, List.sum_cons, Nat.sub_sub]

theorem releaseMap_apply : releaseMap map bCount bh = bCount bh - refs map bh := by
  rw [releaseMap, foldl_brelse, refs_eq_sum, Fin.sum_univ_def]

end Counts

/-! ## Filling a map -/

/-- How many of the calls from `call` on return a buffer before one fails, at most `blocks`. -/
def reads (answer : Nat → Option Buffer) : (blocks call : Nat) → Nat
  | 0, _ => 0
  | blocks + 1, call =>
      match answer call with
      | none => 0
      | some _ => reads answer blocks (call + 1) + 1

/-- The number of the call behind a map that is read: a call that fails counts, too. -/
def nextCall (answer : Nat → Option Buffer) (blocks call : Nat) : Nat :=
  call + min (reads answer blocks call + 1) blocks

section Fill

variable {answer : Nat → Option Buffer} {blocks left i call : Nat} {map : Map}
variable {bCount : Buffer → Nat}

/-- The map has as many blocks at most as there is room for, or one of the first eight of them
cannot be read. -/
def FitsMap (answer : Nat → Option Buffer) (blocks call : Nat) : Prop :=
  blocks ≤ mapSlots ∨ reads answer blocks call < mapSlots

/-- What the loop has done. -/
structure Fills (answer : Nat → Option Buffer) (blocks call : Nat) (bCount : Buffer → Nat)
    (filled : Filled) : Prop where
  reads : filled.reads = reads answer blocks call
  call : filled.call = nextCall answer blocks call
  first : filled.map 0 = none ↔ filled.reads = 0
  counts : ∀ bh, filled.bCount bh = bCount bh + refs filled.map bh

/-- From `i` on. -/
theorem fillMap_from (within : i ≤ mapSlots) (empty : ∀ k : Fin mapSlots, i ≤ k → map k = none) :
    if i + left ≤ mapSlots ∨ i + reads answer left call < mapSlots then
      ∃ filled, fillMap answer left i call map bCount = .ok filled ∧
        filled.reads = i + reads answer left call ∧
        filled.call = nextCall answer left call ∧
        (∀ k : Fin mapSlots, k < i → filled.map k = map k) ∧
        (∀ k : Fin mapSlots, k = i → (filled.map k = none ↔ reads answer left call = 0)) ∧
        ∀ bh, filled.bCount bh + refs map bh = bCount bh + refs filled.map bh
    else fillMap answer left i call map bCount = .error .overrun := by
  induction left generalizing i call map bCount with
  | zero =>
      rw [if_pos (.inl within)]
      refine ⟨_, rfl, rfl, rfl, fun _ _ => rfl, fun k isNext => ?_, fun _ => rfl⟩
      exact iff_of_true (empty k (le_of_eq isNext.symm)) rfl
  | succ left ih =>
      by_cases inRange : i < mapSlots
      · cases answered : answer call with
        | none =>
            have noReads : reads answer (left + 1) call = 0 := by rw [reads, answered]
            have isNext : nextCall answer (left + 1) call = call + 1 := by
              rw [nextCall, noReads]
              omega
            have stopped : fillMap answer (left + 1) i call map bCount =
                .ok ⟨i, call + 1, Function.update map ⟨i, inRange⟩ none, bCount⟩ := by
              rw [fillMap, dif_pos inRange, answered]
            have same : Function.update map ⟨i, inRange⟩ none = map := by
              rw [← empty ⟨i, inRange⟩ (le_refl i), Function.update_eq_self]
            rw [if_pos (.inr (by rwa [noReads])), noReads, isNext]
            refine ⟨_, stopped, rfl, rfl, fun k below => ?_, fun k here => ?_, fun bh => ?_⟩
            · rw [same]
            · rw [same]
              exact iff_of_true (empty k (le_of_eq here.symm)) rfl
            · rw [same]
        | some bh =>
            have isReads : reads answer (left + 1) call = reads answer left (call + 1) + 1 := by
              rw [reads, answered]
            have isNext : nextCall answer (left + 1) call = nextCall answer left (call + 1) := by
              rw [nextCall, nextCall, isReads]
              omega
            have goes : fillMap answer (left + 1) i call map bCount =
                fillMap answer left (i + 1) (call + 1)
                  (Function.update map ⟨i, inRange⟩ (some bh)) (holdBuffer bCount bh) := by
              rw [fillMap, dif_pos inRange, answered]
            have others (k : Fin mapSlots) (above : i + 1 ≤ k) :
                Function.update map ⟨i, inRange⟩ (some bh) k = none := by
              rw [Function.update_of_ne (fun same => by
                have := congrArg Fin.val same
                dsimp only at this
                omega)]
              exact empty k (by omega)
            have rest := @ih (i + 1) (call + 1) (Function.update map ⟨i, inRange⟩ (some bh))
              (holdBuffer bCount bh) inRange others
            have sameBound : (i + 1 + left ≤ mapSlots ∨
                i + 1 + reads answer left (call + 1) < mapSlots) ↔
                (i + (left + 1) ≤ mapSlots ∨ i + reads answer (left + 1) call < mapSlots) := by
              rw [isReads]
              omega
            simp only [sameBound] at rest
            rw [goes]
            split
            next fits =>
              rw [if_pos fits] at rest
              obtain ⟨filled, done, isRead, isCall, kept, -, counts⟩ := rest
              refine ⟨filled, done, by omega, by rw [isCall, isNext], fun k below => ?_,
                fun k here => ?_, fun other => ?_⟩
              · rw [kept k (by omega), Function.update_of_ne (fun same => by
                  have := congrArg Fin.val same
                  dsimp only at this
                  omega)]
              · have isSlot : k = ⟨i, inRange⟩ := Fin.ext here
                rw [isReads, kept k (by omega), isSlot, Function.update_self]
                exact iff_of_false nofun (Nat.succ_ne_zero _)
              · have counted := counts other
                have moved := @refs_update (Fin mapSlots) _ _ Buffer _ map other ⟨i, inRange⟩
                  (some bh)
                rw [holdBuffer_apply] at counted
                rw [empty ⟨i, inRange⟩ (le_refl i), Lib.refOf_none] at moved
                omega
            next overruns =>
              rw [if_neg overruns] at rest
              exact rest
      · have full : i = mapSlots := by omega
        have overruns : ¬(i + (left + 1) ≤ mapSlots ∨
            i + reads answer (left + 1) call < mapSlots) := by omega
        rw [if_neg overruns, fillMap, dif_neg inRange]

theorem fillMap_spec :
    (FitsMap answer blocks call →
      ∃ filled, fillMap answer blocks 0 call (fun _ => none) bCount = .ok filled ∧
        Fills answer blocks call bCount filled) ∧
    (¬FitsMap answer blocks call →
      fillMap answer blocks 0 call (fun _ => none) bCount = .error .overrun) := by
  have loop := @fillMap_from answer blocks 0 call (fun _ => none) bCount (Nat.zero_le _)
    fun _ _ => rfl
  rw [Nat.zero_add, Nat.zero_add] at loop
  constructor
  · intro fits
    rw [FitsMap] at fits
    rw [if_pos fits] at loop
    obtain ⟨filled, done, isRead, isCall, -, first, counts⟩ := loop
    refine ⟨filled, done, isRead, isCall, ?_, fun bh => ?_⟩
    · rw [isRead]
      exact first 0 rfl
    · have noRefs : refs (fun _ : Fin mapSlots => none) bh = 0 :=
        Lib.refs_eq_zero_iff.mpr fun _ => nofun
      have counted := counts bh
      rwa [noRefs, Nat.add_zero] at counted
  · intro overruns
    rw [FitsMap] at overruns
    rw [if_neg overruns] at loop
    exact loop

theorem reads_le : reads answer blocks call ≤ blocks := by
  induction blocks generalizing call with
  | zero => exact le_refl _
  | succ blocks ih =>
      rw [reads]
      split
      · exact Nat.zero_le _
      · exact Nat.succ_le_succ ih

end Fill

/-! ## A mount that is safe -/

section Mount

variable {answer : Nat → Option Buffer} {disk : DSuperBlock} {s next : Supers} {dev : UInt16}
variable {n m : Fin nrSuper} {sb : SuperBlock}

/-- The entries in use are the same; what a free entry holds means nothing. -/
def Supers.SameTable (s next : Supers) : Prop :=
  ∀ m, (next.superBlock m).sDev = (s.superBlock m).sDev ∧
    ((s.superBlock m).sDev ≠ 0 → next.superBlock m = s.superBlock m)

/-- The first buffer of both maps is there. -/
def SuperBlock.HasMaps (sb : SuperBlock) : Prop := sb.sImap 0 ≠ none ∧ sb.sZmap 0 ≠ none

/-- The call returns, and changes nothing that means anything or returns an entry for the device
that has both maps. -/
def ReadsSafely (answer : Nat → Option Buffer) (disk : DSuperBlock) (s : Supers)
    (dev : UInt16) : Prop :=
  ∃ next result, readSuper answer disk s dev = .ok (next, result) ∧
    match result with
    | none => s.SameTable next ∧ next.bCount = s.bCount
    | some n =>
        ((next.superBlock n).sDev = dev ∧ (next.superBlock n).HasMaps) ∧
          ∀ m ≠ n, next.superBlock m = s.superBlock m

/-- Each map has room for its blocks or meets one that cannot be read before it runs out of room;
and if all blocks can be read, each map has one. -/
structure GoodMaps (answer : Nat → Option Buffer) (disk : DSuperBlock) : Prop where
  imap : FitsMap answer disk.sImapBlocks.toNat 1
  zmap : FitsMap answer disk.sZmapBlocks.toNat (nextCall answer disk.sImapBlocks.toNat 1)
  some : reads answer disk.sImapBlocks.toNat 1 = disk.sImapBlocks.toNat →
    reads answer disk.sZmapBlocks.toNat (nextCall answer disk.sImapBlocks.toNat 1) =
      disk.sZmapBlocks.toNat → disk.sImapBlocks ≠ 0 ∧ disk.sZmapBlocks ≠ 0

/-- A free entry is given up. -/
theorem Supers.sameTable_giveUp (free : (s.superBlock n).sDev = 0) :
    s.SameTable (s.setSuper n sb.giveUp) := by
  intro m
  by_cases same : m = n
  · subst same
    rw [setSuper]
    dsimp only
    rw [Function.update_self, free]
    exact ⟨rfl, fun used => absurd rfl used⟩
  · rw [setSuper]
    dsimp only
    rw [Function.update_of_ne same]
    exact ⟨rfl, fun _ => rfl⟩

/-- What is read behind the super block itself. -/
theorem readMaps_safe_iff (free : (s.superBlock n).sDev = 0) (isDev : sb.sDev = dev) :
    (∃ next result, readMaps answer s n sb = .ok (next, result) ∧
      match result with
      | none => s.SameTable next ∧ next.bCount = s.bCount
      | some n =>
          ((next.superBlock n).sDev = dev ∧ (next.superBlock n).HasMaps) ∧
            ∀ m ≠ n, next.superBlock m = s.superBlock m) ↔
      GoodMaps answer sb.toDSuperBlock := by
  by_cases fitsI : FitsMap answer sb.sImapBlocks.toNat 1
  · obtain ⟨imap, filledI, fillsI⟩ := (@fillMap_spec answer sb.sImapBlocks.toNat 1 s.bCount).1 fitsI
    by_cases fitsZ : FitsMap answer sb.sZmapBlocks.toNat
        (nextCall answer sb.sImapBlocks.toNat 1)
    · obtain ⟨zmap, filledZ, fillsZ⟩ := (@fillMap_spec answer sb.sZmapBlocks.toNat
        (nextCall answer sb.sImapBlocks.toNat 1) imap.bCount).1 fitsZ
      rw [← fillsI.call] at filledZ
      by_cases all : 2 + imap.reads + zmap.reads =
          2 + sb.sImapBlocks.toNat + sb.sZmapBlocks.toNat
      · have mostI := @reads_le answer sb.sImapBlocks.toNat 1
        have mostZ := @reads_le answer sb.sZmapBlocks.toNat
          (nextCall answer sb.sImapBlocks.toNat 1)
        rw [fillsI.reads, fillsZ.reads] at all
        have firstI : imap.map 0 = none ↔ sb.sImapBlocks = 0 := by
          rw [fillsI.first, fillsI.reads, ← UInt16.toNat_inj, UInt16.toNat_zero]
          omega
        have firstZ : zmap.map 0 = none ↔ sb.sZmapBlocks = 0 := by
          rw [fillsZ.first, fillsZ.reads, ← UInt16.toNat_inj, UInt16.toNat_zero]
          omega
        have good : GoodMaps answer sb.toDSuperBlock ↔
            imap.map 0 ≠ none ∧ zmap.map 0 ≠ none := by
          rw [ne_eq, ne_eq, firstI, firstZ]
          exact ⟨fun good => good.some (by omega) (by omega),
            fun both => ⟨fitsI, fitsZ, fun _ _ => both⟩⟩
        rw [good]
        rw [← fillsI.reads, ← fillsZ.reads] at all
        cases isI : imap.map 0 with
        | none =>
            refine iff_of_false ?_ fun both => both.1 rfl
            rintro ⟨next, result, returned, -⟩
            simp only [readMaps, filledI, bind, Except.bind, filledZ, ne_eq, all, not_true_eq_false,
              if_false, isI] at returned
            cases returned
        | some ibh =>
            cases isZ : zmap.map 0 with
            | none =>
                refine iff_of_false ?_ fun both => both.2 rfl
                rintro ⟨next, result, returned, -⟩
                simp only [readMaps, filledI, bind, Except.bind, filledZ, ne_eq, all,
                  not_true_eq_false, if_false, isI, isZ] at returned
                cases returned
            | some zbh =>
                refine iff_of_true ?_ ⟨nofun, nofun⟩
                simp only [readMaps, filledI, bind, Except.bind, filledZ, ne_eq, all,
                  not_true_eq_false, if_false, isI, isZ]
                refine ⟨_, _, rfl, ⟨?_, ?_, ?_⟩, fun m other => Function.update_of_ne other ..⟩
                · rw [Supers.setSuper]
                  dsimp only
                  rwa [Function.update_self]
                · rw [Supers.setSuper]
                  dsimp only
                  rw [Function.update_self]
                  change imap.map 0 ≠ none
                  rw [isI]
                  nofun
                · rw [Supers.setSuper]
                  dsimp only
                  rw [Function.update_self]
                  change zmap.map 0 ≠ none
                  rw [isZ]
                  nofun
      · have returned : readMaps answer s n sb = .ok
            ({ s with bCount := releaseMap zmap.map (releaseMap imap.map zmap.bCount) }.setSuper n
              ({ sb with sImap := imap.map, sZmap := zmap.map } : SuperBlock).giveUp, none) := by
          simp only [readMaps, filledI, bind, Except.bind, filledZ, ne_eq, all, not_false_eq_true,
            if_true]
          rfl
        refine iff_of_true ⟨_, _, returned, ?_, ?_⟩ ⟨fitsI, fitsZ, fun allI allZ => ?_⟩
        · exact Supers.sameTable_giveUp free
        · funext bh
          change releaseMap zmap.map (releaseMap imap.map zmap.bCount) bh = s.bCount bh
          rw [releaseMap_apply, releaseMap_apply, fillsZ.counts, fillsI.counts]
          omega
        · rw [fillsI.reads, fillsZ.reads, allI, allZ] at all
          exact absurd rfl all
    · refine iff_of_false ?_ fun good => fitsZ good.zmap
      rintro ⟨next, result, returned, -⟩
      have overruns := (@fillMap_spec answer sb.sZmapBlocks.toNat
        (nextCall answer sb.sImapBlocks.toNat 1) imap.bCount).2 fitsZ
      simp only [readMaps, filledI, bind, Except.bind, fillsI.call, overruns] at returned
      cases returned
  · refine iff_of_false ?_ fun good => fitsI good.imap
    rintro ⟨next, result, returned, -⟩
    have overruns := (@fillMap_spec answer sb.sImapBlocks.toNat 1 s.bCount).2 fitsI
    simp only [readMaps, overruns] at returned
    cases returned

/-- What the tables of mounted file systems keep. -/
def Supers.Ok (s : Supers) : Prop := ∀ n, (s.superBlock n).sDev ≠ 0 → (s.superBlock n).HasMaps

theorem Supers.sameTable_refl (s : Supers) : s.SameTable s := fun _ => ⟨rfl, fun _ => rfl⟩

end Mount

/-! ## Two disks -/

/-- A super block with maps of so many blocks. -/
def diskOf (imapBlocks zmapBlocks : UInt16) : DSuperBlock where
  sNinodes := 32
  sNzones := 360
  sImapBlocks := imapBlocks
  sZmapBlocks := zmapBlocks
  sFirstdatazone := 6
  sLogZoneSize := 0
  sMaxSize := 0x10081C00
  sMagic := superMagic

/-- All entries are free. -/
def noSupers : Supers where
  superBlock := fun _ =>
    { diskOf 0 0 with
      sImap := fun _ => none
      sZmap := fun _ => none
      sDev := 0
      sIsup := none
      sImount := none
      sTime := 0
      sLock := false
      sRdOnly := 0
      sDirt := 0 }
  bCount := fun _ => 0
  bData0 := fun _ => 0

end Linux012.Fs.ReadSuper
