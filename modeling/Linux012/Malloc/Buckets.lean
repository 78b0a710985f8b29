import Mathlib.Order.Interval.Set.Basic
import Linux012.Malloc.Heap
import Linux012.Lib.Run

/-!
# The buckets of the allocator

Three linked structures hold together: the chains of descriptors, one for each size and one
of free descriptors; the free objects of a page, linked through the memory that they occupy;
and the pages, each of which has one descriptor.
-/

namespace Linux012.Malloc

open Lib (Leads Chains)

/-! ## What is promised -/

/-- The objects of a page of the bucket. -/
def Bucket.objects (bdir : Bucket) (page : Nat) : List Nat :=
  List.range' page bdir.perPage bdir.size

namespace Heap

/-- The number of objects of a page that callers have. -/
def liveIn (h : Heap) (bdir : Bucket) (page : Nat) : Nat :=
  (bdir.objects page).countP fun obj => (h.live obj).isSome

/-- A descriptor in the chain of a bucket: it counts the live objects of its page, and its
free objects are linked, each once. -/
structure BucketOk (h : Heap) (bdir : Bucket) (bdesc : Nat) : Prop where
  size : (h.desc bdesc).bucketSize.toNat = bdir.size
  refcnt : (h.desc bdesc).refcnt.toNat = h.liveIn bdir (h.desc bdesc).page
  free : ∃ objs, Leads h.mem (h.desc bdesc).freeptr objs ∧ objs.Nodup ∧
    ∀ obj, obj ∈ objs ↔ obj ∈ bdir.objects (h.desc bdesc).page ∧ h.live obj = none

/-- Where the chains of descriptors begin: `none` is for the free ones. -/
def head (h : Heap) : Option Bucket → Option Nat
  | none => h.freeBucketDesc
  | some bdir => h.chain bdir

def nextDesc (h : Heap) (bdesc : Nat) : Option Nat := (h.desc bdesc).next

/-- The memory of an object with this length. -/
def extent (obj : Nat) (bdir : Bucket) : Set Nat := Set.Ico obj (obj + bdir.size)

/-- The promise. -/
structure Sound (h : Heap) : Prop where
  /-- The chains of descriptors end and are apart, and their descriptors are as they say. -/
  chains : ∃ descs, Chains h.nextDesc h.head descs ∧
    ∀ bdir, ∀ bdesc ∈ descs (some bdir), h.BucketOk bdir bdesc
  /-- An object is large enough and lies in one page. -/
  objects : ∀ obj len, h.live obj = some len →
    ∃ bdir, findBucket len = some bdir ∧ len ≤ bdir.size ∧
      ∀ a ∈ extent obj bdir, pageOf a = pageOf obj
  disjoint : ∀ obj len bdir other len' bdir', obj ≠ other →
    h.live obj = some len → findBucket len = some bdir →
    h.live other = some len' → findBucket len' = some bdir' →
    Disjoint (extent obj bdir) (extent other bdir')
  /-- Apart from those for descriptors, the allocator has the pages with live objects. -/
  pages : ∀ page, page ∉ h.descPages →
    (h.hasPage page = true ↔ ∃ obj len, h.live obj = some len ∧ pageOf obj = page)
  calm : h.panicked = false

/-- The action frees the last object in the page. -/
def FreesLast (h : Heap) (action : Action) (page : Nat) : Prop :=
  ∃ obj size, action = .freeS obj size ∧ pageOf obj = page ∧ (h.live obj).isSome = true ∧
    ∀ other, (h.live other).isSome = true → pageOf other = page → other = obj

end Heap

/-- The promise holds behind the step, and the step gives back just a page whose last object
it frees. -/
def KeepsSound (h : Heap) (action : Action) : Prop :=
  ∀ next, step h action = some next → next.Sound ∧
    ∀ page, h.hasPage page = true ∧ next.hasPage page = false ↔ h.FreesLast action page

/-! ## Sizes and pages -/

namespace Bucket

theorem size_pos (bdir : Bucket) : 0 < bdir.size :=
  Nat.mul_pos (by decide) (Nat.two_pow_pos _)

theorem perPage_mul_size (bdir : Bucket) : bdir.perPage * bdir.size = pageSize := by
  revert bdir
  decide

theorem perPage_pos (bdir : Bucket) : 0 < bdir.perPage := by
  revert bdir
  decide

theorem toNat_size (bdir : Bucket) : (UInt16.ofNat bdir.size).toNat = bdir.size := by
  revert bdir
  decide

theorem perPage_le (bdir : Bucket) : bdir.perPage ≤ 256 := by
  revert bdir
  decide

theorem nodup_objects (bdir : Bucket) (page : Nat) : (bdir.objects page).Nodup :=
  List.nodup_range' bdir.size bdir.size_pos

/-- An object of a page lies in it. -/
theorem extent_of_mem {bdir : Bucket} {page obj : Nat} (member : obj ∈ bdir.objects page) :
    page ≤ obj ∧ obj + bdir.size ≤ page + pageSize := by
  obtain ⟨index, isBelow, rfl⟩ := List.mem_range'.mp member
  constructor
  · exact Nat.le_add_right page _
  · calc page + bdir.size * index + bdir.size = page + (index + 1) * bdir.size := by
          rw [Nat.add_assoc, Nat.succ_mul, Nat.mul_comm bdir.size]
      _ ≤ page + bdir.perPage * bdir.size :=
          Nat.add_le_add_left (Nat.mul_le_mul_right _ isBelow) page
      _ = page + pageSize := by rw [perPage_mul_size]

/-- Two objects of a page do not overlap. -/
theorem objects_apart {bdir : Bucket} {page obj other : Nat} (member : obj ∈ bdir.objects page)
    (memberOther : other ∈ bdir.objects page) (differ : obj ≠ other) :
    obj + bdir.size ≤ other ∨ other + bdir.size ≤ obj := by
  obtain ⟨index, -, rfl⟩ := List.mem_range'.mp member
  obtain ⟨index', -, rfl⟩ := List.mem_range'.mp memberOther
  have indexDiffer : index ≠ index' := fun same => differ (same ▸ rfl)
  rcases Nat.lt_or_gt_of_ne indexDiffer with less | greater
  · left
    have step := Nat.mul_le_mul_left bdir.size (Nat.succ_le_of_lt less)
    rw [Nat.mul_succ] at step
    omega
  · right
    have step := Nat.mul_le_mul_left bdir.size (Nat.succ_le_of_lt greater)
    rw [Nat.mul_succ] at step
    omega

end Bucket

/-- A page begins at a multiple of its size. -/
def IsPage (page : Nat) : Prop := pageOf page = page

theorem pageOf_eq_iff {page a : Nat} (isPage : IsPage page) :
    pageOf a = page ↔ page ≤ a ∧ a < page + pageSize := by
  simp only [IsPage, pageOf, pageSize] at isPage ⊢
  omega

theorem pageOf_isPage (a : Nat) : IsPage (pageOf a) := by
  simp only [IsPage, pageOf, pageSize]
  omega

theorem isPage_of_mod {page : Nat} (aligned : page % pageSize = 0) : IsPage page := by
  simp only [IsPage, pageOf, pageSize] at aligned ⊢
  omega

theorem Bucket.pageOf_extent {bdir : Bucket} {page obj a : Nat} (isPage : IsPage page)
    (member : obj ∈ bdir.objects page) (inside : a ∈ Heap.extent obj bdir) : pageOf a = page := by
  have within := Bucket.extent_of_mem member
  exact (pageOf_eq_iff isPage).mpr ⟨within.1.trans inside.1, inside.2.trans_le within.2⟩

theorem Bucket.pageOf_object {bdir : Bucket} {page obj : Nat} (isPage : IsPage page)
    (member : obj ∈ bdir.objects page) : pageOf obj = page :=
  Bucket.pageOf_extent isPage member ⟨le_refl obj, Nat.lt_add_of_pos_right bdir.size_pos⟩

theorem findBucket_le {len : Nat} {bdir : Bucket} (found : findBucket len = some bdir) :
    len ≤ bdir.size := by
  have fits := List.find?_some found
  exact of_decide_eq_true fits

/-- `malloc` finds a bucket for what fits in a page. -/
theorem findBucket_isSome {len : Nat} (fits : len ≤ pageSize) :
    ∃ bdir, findBucket len = some bdir := by
  rw [← Option.isSome_iff_exists, findBucket, List.find?_isSome]
  exact ⟨8, List.mem_finRange 8, decide_eq_true fits⟩

namespace Heap

variable {h next : Heap} {bdir : Bucket} {bdesc obj : Nat} {place : Option Bucket}

/-! ## The invariant -/

/-- A page that the allocator has. -/
structure HasPage (h : Heap) (page : Nat) : Prop where
  isPage : IsPage page
  pos : 0 < page
  below : page < nrPages * pageSize
  has : h.hasPage page = true

/-- The descriptors of each chain in order, and what they and the pages are for.  The bucket
of the descriptor `idle` may have no live object. -/
structure Inv (h : Heap) (descs : Option Bucket → List Nat) (idle : Option Nat) : Prop where
  chains : Chains h.nextDesc h.head descs
  buckets : ∀ bdir, ∀ bdesc ∈ descs (some bdir), h.BucketOk bdir bdesc
  hasPage : ∀ bdir, ∀ bdesc ∈ descs (some bdir), h.HasPage (h.desc bdesc).page
  onePage : ∀ bdir bdir', ∀ bdesc ∈ descs (some bdir), ∀ bdesc' ∈ descs (some bdir'),
    (h.desc bdesc).page = (h.desc bdesc').page → bdesc = bdesc'
  used : ∀ bdir, ∀ bdesc ∈ descs (some bdir), idle ≠ some bdesc → (h.desc bdesc).refcnt ≠ 0
  live : ∀ obj len, h.live obj = some len → ∃ bdir, findBucket len = some bdir ∧
    ∃ bdesc ∈ descs (some bdir), obj ∈ bdir.objects (h.desc bdesc).page
  inDescPage : ∀ place, ∀ bdesc ∈ descs place, pageOf bdesc ∈ h.descPages
  descPages : ∀ page ∈ h.descPages, h.hasPage page = true ∧ IsPage page
  notDescPage : ∀ bdir, ∀ bdesc ∈ descs (some bdir), (h.desc bdesc).page ∉ h.descPages
  calm : h.panicked = false

/-- All pages that the allocator has are for something. -/
def AllUsed (h : Heap) (descs : Option Bucket → List Nat) : Prop :=
  ∀ page, h.hasPage page = true →
    page ∈ h.descPages ∨ ∃ bdir, ∃ bdesc ∈ descs (some bdir), (h.desc bdesc).page = page

variable {descs : Option Bucket → List Nat} {idle : Option Nat}

theorem BucketOk.liveIn_eq_zero_iff (ok : h.BucketOk bdir bdesc) :
    (h.desc bdesc).refcnt = 0 ↔
      ∀ obj ∈ bdir.objects (h.desc bdesc).page, h.live obj = none := by
  rw [← UInt16.toNat_inj, ok.refcnt, liveIn, UInt16.toNat_zero, List.countP_eq_zero]
  exact forall₂_congr fun obj _ => by rw [Bool.not_eq_true, Option.isSome_eq_false_iff,
    Option.isNone_iff_eq_none]

theorem Inv.pageOf_object (inv : h.Inv descs idle) (member : bdesc ∈ descs (some bdir))
    (inPage : obj ∈ bdir.objects (h.desc bdesc).page) : pageOf obj = (h.desc bdesc).page :=
  Bucket.pageOf_object (inv.hasPage bdir bdesc member).isPage inPage

/-- The bucket and the descriptor of a live object. -/
theorem Inv.bucket_of_live (inv : h.Inv descs idle) {len : Nat} (isLive : h.live obj = some len)
    (found : findBucket len = some bdir) :
    ∃ bdesc ∈ descs (some bdir), obj ∈ bdir.objects (h.desc bdesc).page := by
  obtain ⟨bdir', found', isDesc⟩ := inv.live obj len isLive
  rw [found] at found'
  cases found'
  exact isDesc

theorem Inv.objects (inv : h.Inv descs idle) {len : Nat} (isLive : h.live obj = some len) :
    ∃ bdir, findBucket len = some bdir ∧ len ≤ bdir.size ∧
      ∀ a ∈ extent obj bdir, pageOf a = pageOf obj := by
  obtain ⟨bdir, found, bdesc, member, inPage⟩ := inv.live obj len isLive
  refine ⟨bdir, found, findBucket_le found, fun a inside => ?_⟩
  rw [inv.pageOf_object member inPage]
  exact Bucket.pageOf_extent (inv.hasPage bdir bdesc member).isPage inPage inside

theorem Inv.disjoint (inv : h.Inv descs idle) {len other len' : Nat} {bdir' : Bucket}
    (differ : obj ≠ other) (isLive : h.live obj = some len) (found : findBucket len = some bdir)
    (isLive' : h.live other = some len') (found' : findBucket len' = some bdir') :
    Disjoint (extent obj bdir) (extent other bdir') := by
  obtain ⟨bdesc, member, inPage⟩ := inv.bucket_of_live isLive found
  obtain ⟨bdesc', member', inPage'⟩ := inv.bucket_of_live isLive' found'
  rw [Set.disjoint_left]
  intro a inside inside'
  have samePage : (h.desc bdesc).page = (h.desc bdesc').page := by
    rw [← Bucket.pageOf_extent (inv.hasPage bdir bdesc member).isPage inPage inside,
      ← Bucket.pageOf_extent (inv.hasPage bdir' bdesc' member').isPage inPage' inside']
  cases inv.onePage bdir bdir' bdesc member bdesc' member' samePage
  cases inv.chains.apart (some bdir) (some bdir') bdesc member member'
  have before := inside.2
  have after := inside.1
  have before' := inside'.2
  have after' := inside'.1
  rcases Bucket.objects_apart inPage inPage' differ with less | less
  · omega
  · omega

theorem Inv.sound (inv : h.Inv descs none) (allUsed : h.AllUsed descs) : h.Sound where
  chains := ⟨descs, inv.chains, inv.buckets⟩
  objects _ _ isLive := inv.objects isLive
  disjoint _ _ _ _ _ _ differ isLive found isLive' found' :=
    inv.disjoint differ isLive found isLive' found'
  pages page notDesc := by
    constructor
    · intro has
      obtain ⟨bdir, bdesc, member, rfl⟩ := (allUsed page has).resolve_left notDesc
      have used := inv.used bdir bdesc member nofun
      rw [ne_eq, (inv.buckets bdir bdesc member).liveIn_eq_zero_iff] at used
      push Not at used
      obtain ⟨obj, inPage, isLive⟩ := used
      obtain ⟨len, isLive⟩ := Option.ne_none_iff_exists'.mp isLive
      exact ⟨obj, len, isLive, inv.pageOf_object member inPage⟩
    · rintro ⟨obj, len, isLive, rfl⟩
      obtain ⟨bdir, found, bdesc, member, inPage⟩ := inv.live obj len isLive
      rw [inv.pageOf_object member inPage]
      exact (inv.hasPage bdir bdesc member).has
  calm := inv.calm

/-! ## Searching -/

/-- The chain of a bucket has fewer descriptors than there are pages. -/
theorem Inv.length_lt (inv : h.Inv descs idle) (bdir : Bucket) :
    (descs (some bdir)).length < nrPages := by
  have injective : ∀ bdesc ∈ descs (some bdir), ∀ bdesc' ∈ descs (some bdir),
      (h.desc bdesc).page / pageSize = (h.desc bdesc').page / pageSize → bdesc = bdesc' := by
    intro bdesc member bdesc' member' same
    apply inv.onePage bdir bdir bdesc member bdesc' member'
    rw [← (inv.hasPage bdir bdesc member).isPage, ← (inv.hasPage bdir bdesc' member').isPage,
      pageOf, pageOf, same]
  have nodup : ((descs (some bdir)).map fun bdesc => (h.desc bdesc).page / pageSize).Nodup :=
    List.Nodup.map_on injective (inv.chains.nodup (some bdir))
  have within : ((descs (some bdir)).map fun bdesc => (h.desc bdesc).page / pageSize) ⊆
      List.range' 1 (nrPages - 1) := by
    intro number inImage
    obtain ⟨bdesc, member, rfl⟩ := List.mem_map.mp inImage
    have page := inv.hasPage bdir bdesc member
    have isPage := page.isPage
    have pos := page.pos
    have below := page.below
    rw [List.mem_range'_1]
    simp only [IsPage, pageOf, pageSize] at isPage below ⊢
    omega
  have atMost := (nodup.subperm within).length_le
  rw [List.length_map, List.length_range'] at atMost
  exact atMost.trans_lt (Nat.sub_lt (Nat.two_pow_pos 20) Nat.one_pos)

/-- The search for free space ends, with a descriptor that has some, or none. -/
theorem findFree_spec (h : Heap) (left : Nat) (start : Option Nat) (chain : List Nat)
    (leads : Leads h.nextDesc start chain) (enough : chain.length < left) :
    h.findFree left start = some none ∨
      ∃ bdesc ∈ chain, (h.desc bdesc).freeptr.isSome = true ∧
        h.findFree left start = some (some bdesc) := by
  induction chain generalizing left start with
  | nil =>
      obtain ⟨left, rfl⟩ := Nat.exists_eq_add_one.mpr enough
      cases leads
      exact .inl rfl
  | cons bdesc chain ih =>
      obtain ⟨left, rfl⟩ := Nat.exists_eq_add_one.mpr (Nat.zero_lt_of_lt enough)
      obtain ⟨rfl, leads⟩ := leads
      rw [findFree]
      by_cases isFree : (h.desc bdesc).freeptr.isSome
      · exact .inr ⟨bdesc, List.mem_cons_self, isFree, if_pos isFree⟩
      · rw [if_neg isFree]
        rcases ih left _ leads (Nat.lt_of_succ_lt_succ enough) with none | ⟨found, member, rest⟩
        · exact .inl none
        · exact .inr ⟨found, List.mem_cons_of_mem _ member, rest⟩

/-- The search for a page ends, with its descriptor and the one before it, or none. -/
theorem findPage_spec (h : Heap) (page left : Nat) (prev start : Option Nat) (chain : List Nat)
    (leads : Leads h.nextDesc start chain) (enough : chain.length < left) :
    (∀ bdesc ∈ chain, (h.desc bdesc).page ≠ page) ∧ h.findPage page left prev start = some none ∨
      ∃ before bdesc behind, chain = before ++ bdesc :: behind ∧ (h.desc bdesc).page = page ∧
        h.findPage page left prev start = some (some (bdesc, before.getLast?.or prev)) := by
  induction chain generalizing left prev start with
  | nil =>
      obtain ⟨left, rfl⟩ := Nat.exists_eq_add_one.mpr enough
      cases leads
      exact .inl ⟨nofun, rfl⟩
  | cons bdesc chain ih =>
      obtain ⟨left, rfl⟩ := Nat.exists_eq_add_one.mpr (Nat.zero_lt_of_lt enough)
      obtain ⟨rfl, leads⟩ := leads
      rw [findPage]
      by_cases isPage : (h.desc bdesc).page = page
      · exact .inr ⟨[], bdesc, chain, rfl, isPage, if_pos isPage⟩
      · rw [if_neg isPage]
        rcases ih left (some bdesc) _ leads (Nat.lt_of_succ_lt_succ enough) with
          ⟨notIn, none⟩ | ⟨before, found, behind, split, isFound, result⟩
        · left
          refine ⟨fun other member => ?_, none⟩
          rcases List.mem_cons.mp member with rfl | member
          · exact isPage
          · exact notIn other member
        · right
          refine ⟨bdesc :: before, found, behind, by rw [split, List.cons_append], isFound, ?_⟩
          have isLast : (bdesc :: before).getLast?.or prev =
              before.getLast?.or (some bdesc) := by
            rw [List.getLast?_cons]
            cases before.getLast? <;> rfl
          rw [isLast]
          exact result

/-! ## Objects -/

/-- What happens in other pages does not matter to a bucket. -/
theorem BucketOk.congr (ok : h.BucketOk bdir bdesc) (page : IsPage (h.desc bdesc).page)
    (pageSame : (next.desc bdesc).page = (h.desc bdesc).page)
    (freeptr : (next.desc bdesc).freeptr = (h.desc bdesc).freeptr)
    (refcnt : (next.desc bdesc).refcnt = (h.desc bdesc).refcnt)
    (size : (next.desc bdesc).bucketSize = (h.desc bdesc).bucketSize)
    (mem : ∀ a, pageOf a = (h.desc bdesc).page → next.mem a = h.mem a)
    (live : ∀ a, pageOf a = (h.desc bdesc).page → next.live a = h.live a) :
    next.BucketOk bdir bdesc where
  size := by rw [size, ok.size]
  refcnt := by
    rw [refcnt, ok.refcnt, liveIn, liveIn, pageSame]
    apply List.countP_congr
    intro obj member
    rw [live obj (Bucket.pageOf_object page member)]
  free := by
    obtain ⟨objs, leads, nodup, isFree⟩ := ok.free
    refine ⟨objs, ?_, nodup, fun obj => ?_⟩
    · rw [freeptr]
      apply leads.congr
      intro obj member
      exact mem obj (Bucket.pageOf_object page ((isFree obj).mp member).1)
    · rw [pageSame, isFree]
      apply and_congr_right
      intro member
      rw [live obj (Bucket.pageOf_object page member)]

/-- A step inside one bucket. -/
structure Within (h next : Heap) (bdir : Bucket) (bdesc : Nat) : Prop where
  others : ∀ other, other ≠ bdesc → next.desc other = h.desc other
  page : (next.desc bdesc).page = (h.desc bdesc).page
  link : (next.desc bdesc).next = (h.desc bdesc).next
  mem : ∀ a, pageOf a ≠ (h.desc bdesc).page → next.mem a = h.mem a
  live : ∀ a, pageOf a ≠ (h.desc bdesc).page → next.live a = h.live a
  ok : next.BucketOk bdir bdesc
  liveNow : ∀ obj len, next.live obj = some len → pageOf obj = (h.desc bdesc).page →
    findBucket len = some bdir ∧ obj ∈ bdir.objects (h.desc bdesc).page
  chain : next.chain = h.chain
  freeBucketDesc : next.freeBucketDesc = h.freeBucketDesc
  hasPage : next.hasPage = h.hasPage
  descPages : next.descPages = h.descPages
  panicked : next.panicked = h.panicked

theorem Within.page_eq (within : h.Within next bdir bdesc) (other : Nat) :
    (next.desc other).page = (h.desc other).page := by
  by_cases same : other = bdesc
  · rw [same, within.page]
  · rw [within.others other same]

theorem Within.chains (within : h.Within next bdir bdesc) (inv : h.Inv descs idle) :
    Chains next.nextDesc next.head descs := by
  have head : next.head = h.head := by
    funext place
    cases place with
    | none => exact within.freeBucketDesc
    | some bdir => exact congrFun within.chain bdir
  rw [head]
  apply inv.chains.congr
  intro place other _
  rw [nextDesc, nextDesc]
  by_cases same : other = bdesc
  · rw [same, within.link]
  · rw [within.others other same]

theorem Inv.within {idle' : Option Nat} (inv : h.Inv descs idle)
    (member : bdesc ∈ descs (some bdir)) (within : h.Within next bdir bdesc)
    (usedNow : idle' ≠ some bdesc → (next.desc bdesc).refcnt ≠ 0)
    (idleElse : ∀ other, other ≠ bdesc → idle ≠ some other) : next.Inv descs idle' where
  chains := within.chains inv
  buckets bdir' other member' := by
    by_cases same : other = bdesc
    · subst same
      cases inv.chains.apart (some bdir') (some bdir) other member' member
      exact within.ok
    · have pagesDiffer : (h.desc other).page ≠ (h.desc bdesc).page := fun samePage =>
        same (inv.onePage bdir' bdir other member' bdesc member samePage)
      have desc := within.others other same
      apply (inv.buckets bdir' other member').congr (inv.hasPage bdir' other member').isPage
      · rw [desc]
      · rw [desc]
      · rw [desc]
      · rw [desc]
      · exact fun a inPage => within.mem a fun here => pagesDiffer (inPage.symm.trans here)
      · exact fun a inPage => within.live a fun here => pagesDiffer (inPage.symm.trans here)
  hasPage bdir' other member' := by
    rw [within.page_eq]
    have page := inv.hasPage bdir' other member'
    exact ⟨page.isPage, page.pos, page.below, within.hasPage ▸ page.has⟩
  onePage bdir' bdir'' first member' second member'' := by
    rw [within.page_eq, within.page_eq]
    exact inv.onePage bdir' bdir'' first member' second member''
  used bdir' other member' notIdle := by
    by_cases same : other = bdesc
    · rw [same] at notIdle ⊢
      exact usedNow notIdle
    · rw [within.others other same]
      exact inv.used bdir' other member' (idleElse other same)
  live obj len isLive := by
    by_cases inPage : pageOf obj = (h.desc bdesc).page
    · obtain ⟨found, isObject⟩ := within.liveNow obj len isLive inPage
      exact ⟨bdir, found, bdesc, member, by rwa [within.page]⟩
    · rw [within.live obj inPage] at isLive
      obtain ⟨bdir', found, other, member', isObject⟩ := inv.live obj len isLive
      exact ⟨bdir', found, other, member', by rwa [within.page_eq]⟩
  inDescPage place other member' := by
    rw [within.descPages]
    exact inv.inDescPage place other member'
  descPages page isDescPage := by
    rw [within.descPages] at isDescPage
    rw [within.hasPage]
    exact inv.descPages page isDescPage
  notDescPage bdir' other member' := by
    rw [within.page_eq, within.descPages]
    exact inv.notDescPage bdir' other member'
  calm := within.panicked.trans inv.calm

theorem Within.allUsed (within : h.Within next bdir bdesc) (allUsed : h.AllUsed descs) :
    next.AllUsed descs := by
  intro page has
  rw [within.hasPage] at has
  rw [within.descPages]
  apply (allUsed page has).imp_right
  rintro ⟨bdir', other, member, isPage⟩
  exact ⟨bdir', other, member, by rw [within.page_eq, isPage]⟩

/-- One object more or less. -/
theorem countP_update {live : Nat → Option Nat} {objs : List Nat} (nodup : objs.Nodup)
    (member : obj ∈ objs) (value : Option Nat) :
    objs.countP (fun a => (Function.update live obj value a).isSome) +
        (if (live obj).isSome then 1 else 0) =
      objs.countP (fun a => (live a).isSome) + (if value.isSome then 1 else 0) := by
  obtain ⟨before, behind, rfl⟩ := List.append_of_mem member
  have distinct := List.nodup_append.mp nodup
  have notBehind := (List.nodup_cons.mp distinct.2.1).1
  have same (part : List Nat) (outside : obj ∉ part) :
      part.countP (fun a => (Function.update live obj value a).isSome) =
        part.countP fun a => (live a).isSome := by
    apply List.countP_congr
    intro a member
    have differs : a ≠ obj := fun same => outside (same ▸ member)
    rw [Function.update_of_ne differs]
  have notBefore : obj ∉ before := fun member =>
    distinct.2.2 obj member obj List.mem_cons_self rfl
  rw [List.countP_append, List.countP_append, List.countP_cons, List.countP_cons,
    same before notBefore, same behind notBehind, Function.update_self]
  omega

theorem liveIn_le (h : Heap) (bdir : Bucket) (page : Nat) : h.liveIn bdir page ≤ 256 := by
  calc h.liveIn bdir page ≤ (bdir.objects page).length := List.countP_le_length
    _ = bdir.perPage := List.length_range'
    _ ≤ 256 := bdir.perPage_le

/-- The free objects of a bucket that has some. -/
theorem BucketOk.free_cons (ok : h.BucketOk bdir bdesc)
    (isFree : (h.desc bdesc).freeptr = some obj) :
    obj ∈ bdir.objects (h.desc bdesc).page ∧ h.live obj = none ∧
      ∃ objs, Leads h.mem (h.mem obj) objs ∧ (obj :: objs).Nodup ∧
        ∀ a, a ∈ obj :: objs ↔ a ∈ bdir.objects (h.desc bdesc).page ∧ h.live a = none := by
  obtain ⟨objs, leads, nodup, free⟩ := ok.free
  rw [isFree] at leads
  obtain ⟨rest, rfl⟩ := leads.head_eq
  have here := (free obj).mp List.mem_cons_self
  exact ⟨here.1, here.2, rest, leads.2, nodup, free⟩

/-- The live objects in the page of a bucket are its own. -/
def LiveHere (h : Heap) (bdir : Bucket) (page : Nat) : Prop :=
  ∀ obj len, h.live obj = some len → pageOf obj = page →
    findBucket len = some bdir ∧ obj ∈ bdir.objects page

theorem Inv.liveHere (inv : h.Inv descs idle) (member : bdesc ∈ descs (some bdir)) :
    h.LiveHere bdir (h.desc bdesc).page := by
  intro obj len isLive inPage
  obtain ⟨bdir', found, other, member', isObject⟩ := inv.live obj len isLive
  rw [inv.pageOf_object member' isObject] at inPage
  cases inv.onePage bdir' bdir other member' bdesc member inPage
  cases inv.chains.apart (some bdir') (some bdir) _ member' member
  exact ⟨found, isObject⟩

/-- `malloc` hands out the first free object of the bucket. -/
theorem BucketOk.handOut {len : Nat} (ok : h.BucketOk bdir bdesc)
    (page : IsPage (h.desc bdesc).page) (isFree : (h.desc bdesc).freeptr = some obj)
    (found : findBucket len = some bdir) (liveHere : h.LiveHere bdir (h.desc bdesc).page) :
    h.Within (h.handOut bdesc obj len) bdir bdesc := by
  obtain ⟨isObject, notLive, objs, leads, nodup, free⟩ := ok.free_cons isFree
  have inPage : pageOf obj = (h.desc bdesc).page := Bucket.pageOf_object page isObject
  have desc : (h.handOut bdesc obj len).desc bdesc = { h.desc bdesc with
      freeptr := h.mem obj, refcnt := (h.desc bdesc).refcnt + 1 } :=
    Function.update_self ..
  have liveObj : (h.handOut bdesc obj len).live obj = some len := Function.update_self ..
  have liveElse (a : Nat) (differs : a ≠ obj) : (h.handOut bdesc obj len).live a = h.live a :=
    Function.update_of_ne differs ..
  have elsewhere (a : Nat) (outside : pageOf a ≠ (h.desc bdesc).page) : a ≠ obj := by
    rintro rfl
    exact outside inPage
  constructor
  · exact fun other differs => Function.update_of_ne differs ..
  · rw [desc]
  · rw [desc]
  · exact fun _ _ => rfl
  · exact fun a outside => liveElse a (elsewhere a outside)
  · constructor
    · rw [desc]
      exact ok.size
    · have counted : (h.handOut bdesc obj len).liveIn bdir (h.desc bdesc).page + 0 =
          h.liveIn bdir (h.desc bdesc).page + 1 := by
        have change := @countP_update obj h.live _
          (bdir.nodup_objects (h.desc bdesc).page) isObject (some len)
        rw [notLive] at change
        exact change
      have atMost := h.liveIn_le bdir (h.desc bdesc).page
      have isCount := ok.refcnt
      rw [desc]
      calc ((h.desc bdesc).refcnt + 1).toNat = (h.desc bdesc).refcnt.toNat + 1 := by
            rw [UInt16.toNat_add, UInt16.toNat_one, Nat.mod_eq_of_lt (by omega)]
        _ = h.liveIn bdir (h.desc bdesc).page + 1 := by rw [isCount]
        _ = (h.handOut bdesc obj len).liveIn bdir (h.desc bdesc).page := counted.symm
    · refine ⟨objs, ?_, (List.nodup_cons.mp nodup).2, fun a => ?_⟩
      · rw [desc]
        exact leads
      · rw [desc]
        by_cases same : a = obj
        · rw [same, liveObj]
          exact ⟨fun member => absurd member (List.nodup_cons.mp nodup).1, nofun⟩
        · rw [liveElse a same, ← free a, List.mem_cons]
          exact ⟨.inr, fun either => either.resolve_left same⟩
  · intro a len' isLive inPage'
    by_cases same : a = obj
    · rw [same, liveObj] at isLive
      cases isLive
      exact ⟨found, same ▸ isObject⟩
    · rw [liveElse a same] at isLive
      exact liveHere a len' isLive inPage'
  · rfl
  · rfl
  · rfl
  · rfl
  · rfl

theorem handOut_refcnt_ne_zero {len : Nat} (ok : h.BucketOk bdir bdesc) :
    ((h.handOut bdesc obj len).desc bdesc).refcnt ≠ 0 := by
  have desc : (h.handOut bdesc obj len).desc bdesc = { h.desc bdesc with
      freeptr := h.mem obj, refcnt := (h.desc bdesc).refcnt + 1 } :=
    Function.update_self ..
  have atMost := h.liveIn_le bdir (h.desc bdesc).page
  have isCount := ok.refcnt
  rw [desc, ne_eq, ← UInt16.toNat_inj, UInt16.toNat_add, UInt16.toNat_one,
    Nat.mod_eq_of_lt (by omega)]
  exact Nat.succ_ne_zero _

/-- `malloc` with a descriptor that has free space. -/
theorem Inv.takeObject {len : Nat} (inv : h.Inv descs idle)
    (member : bdesc ∈ descs (some bdir)) (isFree : (h.desc bdesc).freeptr.isSome = true)
    (found : findBucket len = some bdir) (idleHere : ∀ other, other ≠ bdesc → idle ≠ some other)
    (allUsed : h.AllUsed descs) :
    (h.takeObject bdesc len).Inv descs none ∧ (h.takeObject bdesc len).AllUsed descs := by
  obtain ⟨obj, isFirst⟩ := Option.isSome_iff_exists.mp isFree
  have ok := inv.buckets bdir bdesc member
  have within := ok.handOut (inv.hasPage bdir bdesc member).isPage isFirst found
    (inv.liveHere member)
  rw [Heap.takeObject, isFirst]
  exact ⟨inv.within member within (fun _ => handOut_refcnt_ne_zero ok) idleHere,
    within.allUsed allUsed⟩

/-- `free_s` puts an object in front of the free ones. -/
theorem BucketOk.putObject {len : Nat} (ok : h.BucketOk bdir bdesc)
    (page : IsPage (h.desc bdesc).page) (isLive : h.live obj = some len)
    (isObject : obj ∈ bdir.objects (h.desc bdesc).page)
    (liveHere : h.LiveHere bdir (h.desc bdesc).page) :
    h.Within (h.putObject obj bdesc) bdir bdesc := by
  obtain ⟨objs, leads, nodup, free⟩ := ok.free
  have inPage : pageOf obj = (h.desc bdesc).page := Bucket.pageOf_object page isObject
  have desc : (h.putObject obj bdesc).desc bdesc = { h.desc bdesc with
      freeptr := some obj, refcnt := (h.desc bdesc).refcnt - 1 } :=
    Function.update_self ..
  have liveObj : (h.putObject obj bdesc).live obj = none := Function.update_self ..
  have liveElse (a : Nat) (differs : a ≠ obj) : (h.putObject obj bdesc).live a = h.live a :=
    Function.update_of_ne differs ..
  have memElse (a : Nat) (differs : a ≠ obj) : (h.putObject obj bdesc).mem a = h.mem a :=
    Function.update_of_ne differs ..
  have elsewhere (a : Nat) (outside : pageOf a ≠ (h.desc bdesc).page) : a ≠ obj := by
    rintro rfl
    exact outside inPage
  have notFree : obj ∉ objs := by
    intro member
    have isNone := ((free obj).mp member).2
    rw [isLive] at isNone
    cases isNone
  constructor
  · exact fun other differs => Function.update_of_ne differs ..
  · rw [desc]
  · rw [desc]
  · exact fun a outside => memElse a (elsewhere a outside)
  · exact fun a outside => liveElse a (elsewhere a outside)
  · constructor
    · rw [desc]
      exact ok.size
    · have counted : (h.putObject obj bdesc).liveIn bdir (h.desc bdesc).page + 1 =
          h.liveIn bdir (h.desc bdesc).page + 0 := by
        have change := @countP_update obj h.live _
          (bdir.nodup_objects (h.desc bdesc).page) isObject none
        rw [isLive] at change
        exact change
      have isCount := ok.refcnt
      have atLeast : (1 : UInt16) ≤ (h.desc bdesc).refcnt := by
        rw [UInt16.le_iff_toNat_le, isCount, UInt16.toNat_one]
        omega
      rw [desc]
      calc ((h.desc bdesc).refcnt - 1).toNat = (h.desc bdesc).refcnt.toNat - 1 := by
            rw [UInt16.toNat_sub_of_le _ _ atLeast, UInt16.toNat_one]
        _ = (h.putObject obj bdesc).liveIn bdir (h.desc bdesc).page := by
            rw [isCount]
            omega
    · refine ⟨obj :: objs, ?_, List.nodup_cons.mpr ⟨notFree, nodup⟩, fun a => ?_⟩
      · rw [desc]
        refine ⟨rfl, ?_⟩
        have link : (h.putObject obj bdesc).mem obj = (h.desc bdesc).freeptr :=
          Function.update_self ..
        rw [link]
        apply leads.congr
        intro a member
        apply memElse
        rintro rfl
        exact notFree member
      · rw [desc, List.mem_cons]
        by_cases same : a = obj
        · rw [same, liveObj]
          exact ⟨fun _ => ⟨isObject, rfl⟩, fun _ => .inl rfl⟩
        · rw [liveElse a same, ← free a]
          exact ⟨fun either => either.resolve_left same, .inr⟩
  · intro a len' isLive' inPage'
    by_cases same : a = obj
    · rw [same, liveObj] at isLive'
      cases isLive'
    · rw [liveElse a same] at isLive'
      exact liveHere a len' isLive' inPage'
  · rfl
  · rfl
  · rfl
  · rfl
  · rfl

/-! ## New pages -/

/-- A descriptor in a chain is in a page that the allocator has. -/
theorem Inv.pageOf_ne (inv : h.Inv descs idle) {page : Nat} (can : h.CanGet page)
    (member : bdesc ∈ descs place) : pageOf bdesc ≠ page := by
  rintro rfl
  have has := (inv.descPages _ (inv.inDescPage place bdesc member)).1
  rw [can.2.2.2] at has
  cases has

theorem Inv.page_ne (inv : h.Inv descs idle) {page : Nat} (can : h.CanGet page)
    (member : bdesc ∈ descs (some bdir)) : (h.desc bdesc).page ≠ page := by
  rintro rfl
  have has := (inv.hasPage bdir bdesc member).has
  rw [can.2.2.2] at has
  cases has

theorem CanGet.isPage {page : Nat} (can : h.CanGet page) : IsPage page := isPage_of_mod can.1

/-- `get_free_page` leaves alone what the allocator has. -/
structure Gets (h next : Heap) (page : Nat) : Prop where
  can : h.CanGet page
  desc : ∀ bdesc, pageOf bdesc ≠ page → next.desc bdesc = h.desc bdesc
  mem : ∀ a, pageOf a ≠ page → next.mem a = h.mem a
  live : next.live = h.live
  hasPage : next.hasPage = Function.update h.hasPage page true
  chain : next.chain = h.chain
  panicked : next.panicked = h.panicked

theorem getFreePage_gets {page : Nat} (got : h.getFreePage page = some next) :
    h.Gets next page ∧ next.freeBucketDesc = h.freeBucketDesc ∧ next.descPages = h.descPages := by
  rw [getFreePage] at got
  split at got
  next can =>
    cases got
    exact ⟨⟨can, fun _ differs => if_neg differs, fun _ differs => if_neg differs, rfl, rfl, rfl,
      rfl⟩, rfl, rfl⟩
  next => cases got

/-- A new page changes nothing about the buckets. -/
theorem Gets.bucketOk {page : Nat} (gets : h.Gets next page) (inv : h.Inv descs idle)
    (member : bdesc ∈ descs (some bdir)) : next.BucketOk bdir bdesc := by
  have desc := gets.desc bdesc (inv.pageOf_ne gets.can member)
  have differs := inv.page_ne gets.can member
  apply (inv.buckets bdir bdesc member).congr (inv.hasPage bdir bdesc member).isPage
  · rw [desc]
  · rw [desc]
  · rw [desc]
  · rw [desc]
  · exact fun a inPage => gets.mem a (inPage ▸ differs)
  · exact fun a _ => congrFun gets.live a

theorem pageOf_desc {page count d : Nat} (isPage : IsPage page)
    (fits : (count + 1) * descSize ≤ pageSize)
    (member : d ∈ List.range' page (count + 1) descSize) : pageOf d = page := by
  obtain ⟨index, isBelow, rfl⟩ := List.mem_range'.mp member
  rw [pageOf_eq_iff isPage]
  simp only [pageSize, descSize] at fits ⊢
  omega

/-- The cells of a new page of descriptors. -/
def newDescs (descs : Option Bucket → List Nat) (page count : Nat) : Option Bucket → List Nat :=
  Function.update descs none (List.range' page (count + 1) descSize)

theorem newDescs_some (page count : Nat) (bdir : Bucket) :
    newDescs descs page count (some bdir) = descs (some bdir) :=
  Function.update_of_ne (Option.some_ne_none bdir) ..

theorem Gets.notMem_run {page count : Nat} (gets : h.Gets next page) (inv : h.Inv descs idle)
    (fits : (count + 1) * descSize ≤ pageSize) (member : bdesc ∈ descs place) :
    bdesc ∉ List.range' page (count + 1) descSize := fun inRun =>
  inv.pageOf_ne gets.can member (pageOf_desc gets.can.isPage fits inRun)

theorem Gets.newDescs_chains {page count : Nat} (gets : h.Gets next page)
    (inv : h.Inv descs idle) (fits : (count + 1) * descSize ≤ pageSize)
    (noDesc : next.freeBucketDesc = none) :
    Chains (next.linkDescs page count).nextDesc (next.linkDescs page count).head
      (newDescs descs page count) := by
  have link : (next.linkDescs page count).nextDesc =
      Lib.linkRun descSize next.freeBucketDesc count page next.nextDesc := rfl
  rw [link]
  apply inv.chains.change
  · have ends : Leads next.nextDesc next.freeBucketDesc [] := noDesc
    have leads := Lib.leads_linkRun (by decide : 0 < descSize) ends
      (fun c member => nomatch member : ∀ c ∈ [], c ∉ List.range' page (count + 1) descSize)
    rw [List.append_nil] at leads
    exact leads
  · exact List.nodup_range' descSize (by decide)
  · intro d inRun
    exact .inr fun other member => gets.notMem_run inv fits member inRun
  · intro other differs
    cases other with
    | none => exact absurd rfl differs
    | some bdir => exact congrFun gets.chain bdir
  · intro other _ d member
    rw [Lib.linkRun_of_notMem (gets.notMem_run inv fits member), nextDesc,
      gets.desc d (inv.pageOf_ne gets.can member), nextDesc]

/-- A page of free descriptors. -/
theorem Gets.linkDescs {page count : Nat} (gets : h.Gets next page) (inv : h.Inv descs none)
    (fits : (count + 1) * descSize ≤ pageSize) (noDesc : next.freeBucketDesc = none)
    (sameDescPages : next.descPages = h.descPages) :
    (next.linkDescs page count).Inv (newDescs descs page count) none := by
  have desc {bdir : Bucket} {d : Nat} (member : d ∈ descs (some bdir)) :
      ((next.linkDescs page count).desc d).page = (h.desc d).page ∧
        ((next.linkDescs page count).desc d).refcnt = (h.desc d).refcnt := by
    rw [← gets.desc d (inv.pageOf_ne gets.can member)]
    exact ⟨rfl, rfl⟩
  have hasPage : (next.linkDescs page count).hasPage = Function.update h.hasPage page true :=
    gets.hasPage
  have descPages : (next.linkDescs page count).descPages = page :: h.descPages :=
    congrArg (page :: ·) sameDescPages
  refine ⟨gets.newDescs_chains inv fits noDesc, ?_, ?_, ?_, ?_, ?_, ?_, ?_, ?_, ?_⟩
  · intro bdir d member
    rw [newDescs_some] at member
    have isPage := (inv.hasPage bdir d member).isPage
    rw [← (desc member).1] at isPage
    exact (gets.bucketOk inv member).congr isPage rfl rfl rfl rfl (fun _ _ => rfl) fun _ _ => rfl
  · intro bdir d member
    rw [newDescs_some] at member
    have page := inv.hasPage bdir d member
    rw [(desc member).1]
    refine ⟨page.isPage, page.pos, page.below, ?_⟩
    rw [hasPage, Function.update_of_ne (inv.page_ne gets.can member)]
    exact page.has
  · intro bdir bdir' d member d' member'
    rw [newDescs_some] at member member'
    rw [(desc member).1, (desc member').1]
    exact inv.onePage bdir bdir' d member d' member'
  · intro bdir d member notIdle
    rw [newDescs_some] at member
    rw [(desc member).2]
    exact inv.used bdir d member notIdle
  · intro obj len isLive
    have before : h.live obj = some len := (congrFun gets.live obj).symm.trans isLive
    obtain ⟨bdir, found, d, member, isObject⟩ := inv.live obj len before
    refine ⟨bdir, found, d, ?_, ?_⟩
    · rwa [newDescs_some]
    · rwa [(desc member).1]
  · intro place d member
    rw [descPages]
    cases place with
    | none =>
        rw [newDescs, Function.update_self] at member
        rw [pageOf_desc gets.can.isPage fits member]
        exact List.mem_cons_self
    | some bdir =>
        rw [newDescs_some] at member
        exact List.mem_cons_of_mem _ (inv.inDescPage (some bdir) d member)
  · intro other member
    rw [descPages] at member
    rw [hasPage]
    rcases List.mem_cons.mp member with rfl | member
    · exact ⟨Function.update_self .., gets.can.isPage⟩
    · have before := inv.descPages other member
      have differs : other ≠ page := by
        rintro rfl
        have free := gets.can.2.2.2
        rw [before.1] at free
        cases free
      exact ⟨by rw [Function.update_of_ne differs, before.1], before.2⟩
  · intro bdir d member
    rw [newDescs_some] at member
    rw [(desc member).1, descPages, List.mem_cons, not_or]
    exact ⟨inv.page_ne gets.can member, inv.notDescPage bdir d member⟩
  · exact gets.panicked.trans inv.calm

theorem Gets.linkDescs_allUsed {page count : Nat} (gets : h.Gets next page)
    (inv : h.Inv descs none) (sameDescPages : next.descPages = h.descPages)
    (allUsed : h.AllUsed descs) :
    (next.linkDescs page count).AllUsed (newDescs descs page count) := by
  intro other has
  have descPages : (next.linkDescs page count).descPages = page :: h.descPages :=
    congrArg (page :: ·) sameDescPages
  rw [descPages]
  by_cases same : other = page
  · rw [same]
    exact .inl List.mem_cons_self
  · have before : h.hasPage other = true := by
      have now : Function.update h.hasPage page true other = true :=
        (congrFun gets.hasPage other).symm.trans has
      rwa [Function.update_of_ne same] at now
    apply (allUsed other before).imp (List.mem_cons_of_mem _)
    rintro ⟨bdir, d, member, isPage⟩
    refine ⟨bdir, d, ?_, ?_⟩
    · rwa [newDescs_some]
    · have sameDesc := gets.desc d (inv.pageOf_ne gets.can member)
      exact (congrArg BucketDesc.page sameDesc).trans isPage

/-- `if (!free_bucket_desc) init_bucket_desc()`. -/
theorem Inv.needDesc {page : Nat} (inv : h.Inv descs none) (allUsed : h.AllUsed descs)
    (got : h.needDesc page = some next) :
    ∃ descs', next.Inv descs' none ∧ next.AllUsed descs' ∧ next.freeBucketDesc.isSome = true := by
  rw [Heap.needDesc] at got
  split at got
  next noDesc =>
    obtain ⟨paged, gotPage, rfl⟩ := Option.map_eq_some_iff.mp got
    obtain ⟨gets, sameFree, sameDescPages⟩ := getFreePage_gets gotPage
    exact ⟨_, gets.linkDescs inv (by decide) (sameFree.trans noDesc) sameDescPages,
      gets.linkDescs_allUsed inv sameDescPages allUsed, rfl⟩
  next isDesc =>
    cases got
    exact ⟨descs, inv, allUsed, by rw [isDesc]; rfl⟩

/-! ## A new bucket -/

variable {page : Nat}

/-- The descriptor leaves the free ones. -/
theorem Inv.popDesc (inv : h.Inv descs idle) (isDesc : h.freeBucketDesc = some bdesc) :
    ({ h with freeBucketDesc := (h.desc bdesc).next } : Heap).Inv
        (Function.update descs none (descs none).tail) idle ∧
      ∀ place, bdesc ∉ Function.update descs none (descs none).tail place := by
  have isHead : h.head none = some bdesc := isDesc
  have popped := inv.chains.pop isHead
  have head : Function.update h.head none (h.nextDesc bdesc) =
      ({ h with freeBucketDesc := (h.desc bdesc).next } : Heap).head := by
    funext place
    cases place with
    | none => exact Function.update_self ..
    | some bdir => exact Function.update_of_ne (Option.some_ne_none bdir) ..
  have same (bdir : Bucket) :
      Function.update descs none (descs none).tail (some bdir) = descs (some bdir) :=
    Function.update_of_ne (Option.some_ne_none bdir) ..
  refine ⟨⟨head ▸ popped, ?_, ?_, ?_, ?_, ?_, ?_, inv.descPages, ?_, inv.calm⟩, ?_⟩
  · intro bdir d member
    rw [same] at member
    have ok := inv.buckets bdir d member
    exact ⟨ok.size, ok.refcnt, ok.free⟩
  · intro bdir d member
    rw [same] at member
    have page := inv.hasPage bdir d member
    exact ⟨page.isPage, page.pos, page.below, page.has⟩
  · intro bdir bdir' d member d' member'
    rw [same] at member member'
    exact inv.onePage bdir bdir' d member d' member'
  · intro bdir d member
    rw [same] at member
    exact inv.used bdir d member
  · intro obj len isLive
    obtain ⟨bdir, found, d, member, isObject⟩ := inv.live obj len isLive
    exact ⟨bdir, found, d, by rwa [same], isObject⟩
  · intro place d member
    have inChain : ∃ other, d ∈ descs other :=
      ((inv.chains.mem_pop_iff isHead).mp ⟨place, member⟩).2
    obtain ⟨other, inChain⟩ := inChain
    exact inv.inDescPage other d inChain
  · intro bdir d member
    rw [same] at member
    exact inv.notDescPage bdir d member
  · intro place member
    exact ((inv.chains.mem_pop_iff isHead).mp ⟨place, member⟩).1 rfl

/-- The chains with a new descriptor of the bucket. -/
def bucketDescs (descs : Option Bucket → List Nat) (bdir : Bucket) (bdesc : Nat) :
    Option Bucket → List Nat :=
  Function.update descs (some bdir) (bdesc :: descs (some bdir))

theorem mem_bucketDescs {d : Nat} (member : d ∈ bucketDescs descs bdir bdesc place) :
    d = bdesc ∧ place = some bdir ∨ d ∈ descs place := by
  by_cases same : place = some bdir
  · rw [bucketDescs, same, Function.update_self, List.mem_cons] at member
    rw [same]
    exact member.imp_left fun isNew => ⟨isNew, rfl⟩
  · rw [bucketDescs, Function.update_of_ne same] at member
    exact .inr member

theorem mem_bucketDescs_of_mem {d : Nat} (member : d ∈ descs place) :
    d ∈ bucketDescs descs bdir bdesc place := by
  by_cases same : place = some bdir
  · subst same
    rw [bucketDescs, Function.update_self]
    exact List.mem_cons_of_mem _ member
  · rwa [bucketDescs, Function.update_of_ne same]

theorem mem_bucketDescs_self : bdesc ∈ bucketDescs descs bdir bdesc (some bdir) := by
  rw [bucketDescs, Function.update_self]
  exact List.mem_cons_self

/-- A free descriptor gets a new page. -/
structure Starts (h next : Heap) (descs : Option Bucket → List Nat) (bdir : Bucket)
    (bdesc page : Nat) : Prop extends h.Gets next page where
  inv : h.Inv descs none
  absent : ∀ place, bdesc ∉ descs place
  inDescPage : pageOf bdesc ∈ h.descPages
  freeBucketDesc : next.freeBucketDesc = h.freeBucketDesc
  descPages : next.descPages = h.descPages

namespace Starts

variable (starts : h.Starts next descs bdir bdesc page)

include starts

theorem desc_self : (next.startBucket bdir bdesc page).desc bdesc =
    ⟨page, h.chain bdir, some page, 0, UInt16.ofNat bdir.size⟩ := by
  rw [← starts.chain]
  exact Function.update_self ..

theorem desc_of_mem {d : Nat} (member : d ∈ descs place) :
    (next.startBucket bdir bdesc page).desc d = h.desc d := by
  have differs : d ≠ bdesc := fun same => starts.absent place (same ▸ member)
  rw [← starts.desc d (starts.inv.pageOf_ne starts.can member)]
  exact Function.update_of_ne differs ..

theorem live_eq : (next.startBucket bdir bdesc page).live = h.live := starts.live

theorem hasPage_eq : (next.startBucket bdir bdesc page).hasPage =
    Function.update h.hasPage page true := starts.hasPage

theorem page_ne_descPage {other : Nat} (isDescPage : other ∈ h.descPages) : other ≠ page := by
  rintro rfl
  have has := (starts.inv.descPages other isDescPage).1
  rw [starts.can.2.2.2] at has
  cases has

theorem mem_eq {a : Nat} (outside : pageOf a ≠ page) :
    (next.startBucket bdir bdesc page).mem a = h.mem a := by
  have notObject : a ∉ List.range' page (bdir.perPage - 1 + 1) bdir.size := by
    rw [Nat.sub_add_cancel bdir.perPage_pos]
    exact fun member => outside (Bucket.pageOf_object starts.can.isPage member)
  exact (Lib.linkRun_of_notMem notObject).trans (starts.mem a outside)

theorem chains : Chains (next.startBucket bdir bdesc page).nextDesc
    (next.startBucket bdir bdesc page).head (bucketDescs descs bdir bdesc) := by
  have pushed := @Chains.push _ _ _ _ _ (some bdir) _ _ _ starts.inv.chains starts.absent
  have head : Function.update h.head (some bdir) (some bdesc) =
      (next.startBucket bdir bdesc page).head := by
    funext place
    cases place with
    | none =>
        rw [Function.update_of_ne (Option.some_ne_none bdir).symm]
        exact starts.freeBucketDesc.symm
    | some other =>
        have chain : (next.startBucket bdir bdesc page).head (some other) =
            Function.update h.chain bdir (some bdesc) other := by
          rw [← starts.chain]
          rfl
        rw [chain]
        by_cases same : other = bdir
        · rw [same, Function.update_self, Function.update_self]
        · rw [Function.update_of_ne same,
            Function.update_of_ne fun equal => same (Option.some.inj equal)]
          rfl
  rw [← head]
  apply pushed.congr
  intro place d member
  rcases mem_bucketDescs member with ⟨rfl, -⟩ | member
  · rw [nextDesc, starts.desc_self, Function.update_self]
    rfl
  · have differs : d ≠ bdesc := fun same => starts.absent place (same ▸ member)
    rw [nextDesc, starts.desc_of_mem member, Function.update_of_ne differs, nextDesc]

/-- All objects of a new page are free. -/
theorem newOk : (next.startBucket bdir bdesc page).BucketOk bdir bdesc := by
  have noLive : ∀ obj ∈ bdir.objects page, h.live obj = none := by
    intro obj member
    cases isLive : h.live obj with
    | none => rfl
    | some len =>
        obtain ⟨bdir', -, d, inChain, isObject⟩ := starts.inv.live obj len isLive
        have here := Bucket.pageOf_object starts.can.isPage member
        rw [starts.inv.pageOf_object inChain isObject] at here
        exact absurd here (starts.inv.page_ne starts.can inChain)
  constructor
  · rw [starts.desc_self]
    exact bdir.toNat_size
  · have noneLive : (bdir.objects page).countP (fun obj => (h.live obj).isSome) = 0 := by
      rw [List.countP_eq_zero]
      intro obj member
      rw [noLive obj member]
      exact Bool.false_ne_true
    rw [starts.desc_self, liveIn, starts.live_eq, noneLive]
    rfl
  · rw [starts.desc_self]
    refine ⟨bdir.objects page, ?_, bdir.nodup_objects page, fun obj => ?_⟩
    · have ends : Leads next.mem none [] := rfl
      have leads := Lib.leads_linkRun bdir.size_pos ends
        (fun c member => nomatch member :
          ∀ c ∈ [], c ∉ List.range' page (bdir.perPage - 1 + 1) bdir.size)
      rw [List.append_nil, Nat.sub_add_cancel bdir.perPage_pos] at leads
      exact leads
    · rw [starts.live_eq]
      exact ⟨fun member => ⟨member, noLive obj member⟩, And.left⟩

theorem ok {place : Bucket} {d : Nat}
    (member : d ∈ bucketDescs descs bdir bdesc (some place)) :
    (next.startBucket bdir bdesc page).BucketOk place d := by
  rcases mem_bucketDescs member with ⟨rfl, isPlace⟩ | member
  · cases isPlace
    exact starts.newOk
  · have desc := starts.desc_of_mem member
    have differs := starts.inv.page_ne starts.can member
    apply (starts.inv.buckets place d member).congr (starts.inv.hasPage place d member).isPage
    · rw [desc]
    · rw [desc]
    · rw [desc]
    · rw [desc]
    · exact fun a inPage => starts.mem_eq (inPage ▸ differs)
    · exact fun a _ => congrFun starts.live_eq a

/-- The page of a descriptor: the new one, or as before. -/
theorem page_cases {place : Bucket} {d : Nat}
    (member : d ∈ bucketDescs descs bdir bdesc (some place)) :
    d = bdesc ∧ ((next.startBucket bdir bdesc page).desc d).page = page ∨
      d ∈ descs (some place) ∧
        ((next.startBucket bdir bdesc page).desc d).page = (h.desc d).page ∧
        (h.desc d).page ≠ page := by
  rcases mem_bucketDescs member with ⟨rfl, -⟩ | member
  · exact .inl ⟨rfl, by rw [starts.desc_self]⟩
  · exact .inr ⟨member, by rw [starts.desc_of_mem member],
      starts.inv.page_ne starts.can member⟩

theorem inv_startBucket :
    (next.startBucket bdir bdesc page).Inv (bucketDescs descs bdir bdesc) (some bdesc) where
  chains := starts.chains
  buckets _ _ member := starts.ok member
  hasPage place d member := by
    rcases starts.page_cases member with ⟨-, isNew⟩ | ⟨member, same, differs⟩
    · rw [isNew]
      refine ⟨starts.can.isPage, starts.can.2.1, starts.can.2.2.1, ?_⟩
      rw [starts.hasPage_eq, Function.update_self]
    · rw [same]
      have before := starts.inv.hasPage place d member
      refine ⟨before.isPage, before.pos, before.below, ?_⟩
      rw [starts.hasPage_eq, Function.update_of_ne differs, before.has]
  onePage place place' d member d' member' samePage := by
    rcases starts.page_cases member with ⟨isNew, isPage⟩ | ⟨member, same, differs⟩
    · rcases starts.page_cases member' with ⟨isNew', -⟩ | ⟨-, same', differs'⟩
      · rw [isNew, isNew']
      · rw [isPage, same'] at samePage
        exact absurd samePage.symm differs'
    · rcases starts.page_cases member' with ⟨-, isPage'⟩ | ⟨member', same', -⟩
      · rw [same, isPage'] at samePage
        exact absurd samePage differs
      · rw [same, same'] at samePage
        exact starts.inv.onePage place place' d member d' member' samePage
  used place d member notIdle := by
    rcases mem_bucketDescs member with ⟨rfl, -⟩ | member
    · exact absurd rfl notIdle
    · rw [starts.desc_of_mem member]
      exact starts.inv.used place d member nofun
  live obj len isLive := by
    rw [starts.live_eq] at isLive
    obtain ⟨place, found, d, member, isObject⟩ := starts.inv.live obj len isLive
    refine ⟨place, found, d, mem_bucketDescs_of_mem member, ?_⟩
    rwa [starts.desc_of_mem member]
  inDescPage place d member := by
    have same : (next.startBucket bdir bdesc page).descPages = h.descPages := starts.descPages
    rw [same]
    rcases mem_bucketDescs member with ⟨rfl, -⟩ | member
    · exact starts.inDescPage
    · exact starts.inv.inDescPage place d member
  descPages other isDescPage := by
    have same : (next.startBucket bdir bdesc page).descPages = h.descPages := starts.descPages
    rw [same] at isDescPage
    have before := starts.inv.descPages other isDescPage
    have differs := starts.page_ne_descPage isDescPage
    rw [starts.hasPage_eq, Function.update_of_ne differs]
    exact before
  notDescPage place d member := by
    have same : (next.startBucket bdir bdesc page).descPages = h.descPages := starts.descPages
    rw [same]
    rcases starts.page_cases member with ⟨-, isNew⟩ | ⟨member, same, -⟩
    · rw [isNew]
      exact fun isDescPage => starts.page_ne_descPage isDescPage rfl
    · rw [same]
      exact starts.inv.notDescPage place d member
  calm := starts.panicked.trans starts.inv.calm

theorem allUsed_startBucket (allUsed : h.AllUsed descs) :
    (next.startBucket bdir bdesc page).AllUsed (bucketDescs descs bdir bdesc) := by
  intro other has
  have descPages : (next.startBucket bdir bdesc page).descPages = h.descPages := starts.descPages
  rw [starts.hasPage_eq] at has
  rw [descPages]
  by_cases same : other = page
  · refine .inr ⟨bdir, bdesc, mem_bucketDescs_self, ?_⟩
    rw [starts.desc_self, same]
  · rw [Function.update_of_ne same] at has
    apply (allUsed other has).imp_right
    rintro ⟨place, d, member, isPage⟩
    refine ⟨place, d, mem_bucketDescs_of_mem member, ?_⟩
    rw [starts.desc_of_mem member, isPage]

end Starts

/-- `malloc` where no bucket has free space. -/
theorem Inv.mallocNew {len descPage : Nat} (inv : h.Inv descs none) (allUsed : h.AllUsed descs)
    (found : findBucket len = some bdir) (got : h.mallocNew bdir len descPage page = some next) :
    ∃ descs', next.Inv descs' none ∧ next.AllUsed descs' := by
  obtain ⟨ready, gotDesc, got⟩ := Option.bind_eq_some_iff.mp got
  obtain ⟨descs', invReady, allUsedReady, isSome⟩ := inv.needDesc allUsed gotDesc
  obtain ⟨bdesc, isDesc⟩ := Option.isSome_iff_exists.mp isSome
  rw [isDesc] at got
  obtain ⟨added, gotBucket, rfl⟩ := Option.map_eq_some_iff.mp got
  obtain ⟨paged, gotPage, rfl⟩ := Option.map_eq_some_iff.mp gotBucket
  obtain ⟨popped, absent⟩ := invReady.popDesc isDesc
  obtain ⟨gets, sameFree, sameDescPages⟩ := getFreePage_gets gotPage
  have inDescPage := invReady.inDescPage none bdesc (invReady.chains.head_mem isDesc)
  have starts : Starts _ paged _ bdir bdesc page :=
    ⟨gets, popped, absent, inDescPage, sameFree, sameDescPages⟩
  have allUsedPopped : ({ ready with freeBucketDesc := (ready.desc bdesc).next } : Heap).AllUsed
      (Function.update descs' none (descs' none).tail) := by
    intro other has
    apply (allUsedReady other has).imp_right
    rintro ⟨place, d, member, isPage⟩
    refine ⟨place, d, ?_, isPage⟩
    rwa [Function.update_of_ne (Option.some_ne_none place)]
  have isFree : ((paged.startBucket bdir bdesc page).desc bdesc).freeptr.isSome = true := by
    rw [starts.desc_self]
    rfl
  have idleHere : ∀ other, other ≠ bdesc → some bdesc ≠ some other := by
    intro other differs same
    exact differs (Option.some.inj same).symm
  exact ⟨_, starts.inv_startBucket.takeObject mem_bucketDescs_self isFree found idleHere
    (starts.allUsed_startBucket allUsedPopped)⟩

/-- `malloc`. -/
theorem Inv.malloc {len descPage : Nat} (inv : h.Inv descs none) (allUsed : h.AllUsed descs)
    (fits : len ≤ pageSize) (got : h.malloc len descPage page = some next) :
    ∃ descs', next.Inv descs' none ∧ next.AllUsed descs' := by
  obtain ⟨bdir, found⟩ := findBucket_isSome fits
  simp only [Heap.malloc, found] at got
  rcases h.findFree_spec nrPages (h.chain bdir) _ (inv.chains.leads (some bdir))
    (inv.length_lt bdir) with noneFree | ⟨bdesc, member, isFree, isFound⟩
  · rw [noneFree] at got
    exact inv.mallocNew allUsed found got
  · rw [isFound] at got
    cases got
    exact ⟨descs, inv.takeObject member isFree found nofun allUsed⟩

/-! ## free_s -/

/-- `free_s` finds the descriptor of a page, and the one before it in its chain. -/
theorem Inv.findDesc (inv : h.Inv descs idle) {size : Nat} (member : bdesc ∈ descs (some bdir))
    (fits : ¬bdir.size < size) {bdirs : List Bucket} (isBucket : bdir ∈ bdirs) :
    ∃ before behind, descs (some bdir) = before ++ bdesc :: behind ∧
      h.findDesc (h.desc bdesc).page size bdirs = some (bdir, bdesc, before.getLast?) := by
  induction bdirs with
  | nil => cases isBucket
  | cons first rest ih =>
      rw [Heap.findDesc]
      by_cases tooSmall : first.size < size
      · rw [if_pos tooSmall]
        have differs : bdir ≠ first := by
          rintro rfl
          exact fits tooSmall
        exact ih ((List.mem_cons.mp isBucket).resolve_left differs)
      · rw [if_neg tooSmall]
        rcases h.findPage_spec (h.desc bdesc).page nrPages none (h.chain first) _
          (inv.chains.leads (some first)) (inv.length_lt first) with
          ⟨notHere, none⟩ | ⟨before, d, behind, split, samePage, found⟩
        · have differs : bdir ≠ first := by
            rintro rfl
            exact notHere bdesc member rfl
          rw [none]
          exact ih ((List.mem_cons.mp isBucket).resolve_left differs)
        · have inFirst : d ∈ descs (some first) := by
            rw [split]
            exact List.mem_append_right before List.mem_cons_self
          cases inv.onePage first bdir d inFirst bdesc member samePage
          cases inv.chains.apart (some first) (some bdir) bdesc inFirst member
          rw [Option.or_none] at found
          rw [found]
          exact ⟨before, behind, split, rfl⟩

theorem desc_setNext_self {link : Option Nat} :
    (h.setNext bdesc link).desc bdesc = { h.desc bdesc with next := link } :=
  Function.update_self ..

theorem desc_setNext_of_ne {link : Option Nat} {d : Nat} (differs : d ≠ bdesc) :
    (h.setNext bdesc link).desc d = h.desc d :=
  Function.update_of_ne differs ..

/-- A descriptor leaves its chain, and nothing else changes. -/
structure Unlinks (h next : Heap) (descs : Option Bucket → List Nat) : Prop where
  chains : Chains next.nextDesc next.head descs
  desc : ∀ d, next.desc d = { h.desc d with next := (next.desc d).next }
  mem : next.mem = h.mem
  live : next.live = h.live
  hasPage : next.hasPage = h.hasPage
  freeBucketDesc : next.freeBucketDesc = h.freeBucketDesc
  descPages : next.descPages = h.descPages
  panicked : next.panicked = h.panicked

/-- The descriptor is the first of its chain. -/
theorem Inv.unlink_first (inv : h.Inv descs idle) {behind : List Nat}
    (split : descs (some bdir) = bdesc :: behind) :
    h.Unlinks (h.unlink bdir bdesc none) (Function.update descs (some bdir) behind) := by
  have leads := inv.chains.leads (some bdir)
  rw [split] at leads
  have isHead : h.chain bdir = some bdesc := leads.1
  have sure : h.surePrev bdir bdesc none = none := if_neg (not_not.mpr isHead)
  have unlinked : h.unlink bdir bdesc none =
      { h with chain := Function.update h.chain bdir (h.desc bdesc).next } := by
    rw [unlink, sure]
    exact if_neg (not_not.mpr isHead)
  have head : Function.update h.head (some bdir) (h.nextDesc bdesc) =
      ({ h with chain := Function.update h.chain bdir (h.desc bdesc).next } : Heap).head := by
    funext place
    cases place with
    | none => exact Function.update_of_ne (Option.some_ne_none bdir).symm ..
    | some other =>
        by_cases same : other = bdir
        · rw [same, Function.update_self]
          symm
          exact Function.update_self ..
        · rw [Function.update_of_ne fun equal => same (Option.some.inj equal)]
          symm
          exact Function.update_of_ne same ..
  have popped : Chains h.nextDesc (Function.update h.head (some bdir) (h.nextDesc bdesc))
      (Function.update descs (some bdir) (descs (some bdir)).tail) := inv.chains.pop isHead
  rw [split, List.tail_cons, head] at popped
  rw [unlinked]
  exact ⟨popped, fun _ => rfl, rfl, rfl, rfl, rfl, rfl, rfl⟩

/-- The descriptor has one before it in its chain. -/
theorem Inv.unlink_behind (inv : h.Inv descs idle) {before behind : List Nat} {prev : Nat}
    (split : descs (some bdir) = before ++ prev :: bdesc :: behind) :
    h.Unlinks (h.unlink bdir bdesc (some prev))
      (Function.update descs (some bdir) (before ++ prev :: behind)) := by
  have leads := inv.chains.leads (some bdir)
  rw [split] at leads
  have isNext : (h.desc prev).next = some bdesc := leads.next_eq
  have sure : h.surePrev bdir bdesc (some prev) = some prev := if_neg (not_not.mpr isNext)
  have unlinked : h.unlink bdir bdesc (some prev) = h.setNext prev (h.desc bdesc).next := by
    rw [unlink, sure]
  have link : Function.update h.nextDesc prev (h.nextDesc bdesc) =
      (h.setNext prev (h.desc bdesc).next).nextDesc := by
    funext d
    by_cases same : d = prev
    · rw [same, Function.update_self, nextDesc, nextDesc, desc_setNext_self]
    · rw [Function.update_of_ne same, nextDesc, nextDesc, desc_setNext_of_ne same]
  have removed := inv.chains.remove split
  rw [link] at removed
  rw [unlinked]
  refine ⟨removed, fun d => ?_, rfl, rfl, rfl, rfl, rfl, rfl⟩
  by_cases same : d = prev
  · rw [same, desc_setNext_self]
  · rw [desc_setNext_of_ne same]

theorem Inv.unlink (inv : h.Inv descs idle) {before behind : List Nat}
    (split : descs (some bdir) = before ++ bdesc :: behind) :
    h.Unlinks (h.unlink bdir bdesc before.getLast?)
      (Function.update descs (some bdir) (before ++ behind)) := by
  rcases List.eq_nil_or_concat before with rfl | ⟨front, prev, rfl⟩
  · exact inv.unlink_first split
  · rw [List.concat_eq_append, List.append_assoc, List.singleton_append] at split ⊢
    rw [List.getLast?_concat]
    exact inv.unlink_behind split

/-- The chains when the descriptor has become free. -/
def dropDescs (descs : Option Bucket → List Nat) (bdir : Bucket) (bdesc : Nat)
    (rest : List Nat) : Option Bucket → List Nat :=
  Function.update (Function.update descs (some bdir) rest) none (bdesc :: descs none)

theorem mem_dropDescs_none {rest : List Nat} {d : Nat} :
    d ∈ dropDescs descs bdir bdesc rest none ↔ d = bdesc ∨ d ∈ descs none := by
  rw [dropDescs, Function.update_self, List.mem_cons]

theorem Inv.mem_dropDescs_some (inv : h.Inv descs idle) {before behind : List Nat} {d : Nat}
    (split : descs (some bdir) = before ++ bdesc :: behind) (place : Bucket) :
    d ∈ dropDescs descs bdir bdesc (before ++ behind) (some place) ↔
      d ∈ descs (some place) ∧ d ≠ bdesc := by
  have isMember : bdesc ∈ descs (some bdir) := by
    rw [split]
    exact List.mem_append_right before List.mem_cons_self
  rw [dropDescs, Function.update_of_ne (Option.some_ne_none place)]
  by_cases same : place = bdir
  · have nodup := inv.chains.nodup (some bdir)
    rw [split, List.perm_middle.nodup_iff, List.nodup_cons] at nodup
    rw [same, Function.update_self, split, List.perm_middle.mem_iff, List.mem_cons]
    constructor
    · intro member
      exact ⟨.inr member, fun isDesc => nodup.1 (isDesc ▸ member)⟩
    · exact fun ⟨either, differs⟩ => either.resolve_left differs
  · rw [Function.update_of_ne fun equal => same (Option.some.inj equal)]
    refine ⟨fun member => ⟨member, ?_⟩, And.left⟩
    rintro rfl
    exact same (Option.some.inj (inv.chains.apart _ _ d member isMember))

/-- A page is given back, and its descriptor is free. -/
structure Drops (h next : Heap) (descs : Option Bucket → List Nat) (bdesc : Nat) : Prop where
  chains : Chains next.nextDesc next.head descs
  desc : ∀ d, next.desc d = { h.desc d with next := (next.desc d).next }
  mem : next.mem = h.mem
  live : next.live = h.live
  hasPage : next.hasPage = Function.update h.hasPage (h.desc bdesc).page false
  descPages : next.descPages = h.descPages
  panicked : next.panicked = h.panicked

theorem Inv.drops (inv : h.Inv descs idle) {before behind : List Nat}
    (split : descs (some bdir) = before ++ bdesc :: behind) :
    h.Drops (h.dropBucket bdir bdesc before.getLast?)
      (dropDescs descs bdir bdesc (before ++ behind)) bdesc := by
  have isMember : bdesc ∈ descs (some bdir) := by
    rw [split]
    exact List.mem_append_right before List.mem_cons_self
  have unlinks := inv.unlink split
  obtain ⟨u, isUnlinked⟩ : ∃ u, h.unlink bdir bdesc before.getLast? = u := ⟨_, rfl⟩
  rw [isUnlinked] at unlinks
  have has : u.hasPage (h.desc bdesc).page = true := by
    rw [unlinks.hasPage]
    exact (inv.hasPage bdir bdesc isMember).has
  have freed : u.freePage (h.desc bdesc).page =
      { u with hasPage := Function.update u.hasPage (h.desc bdesc).page false } := if_pos has
  have desc (d : Nat) : ((h.dropBucket bdir bdesc before.getLast?).desc d) =
      if d = bdesc then { u.desc bdesc with next := h.freeBucketDesc } else u.desc d := by
    rw [dropBucket, isUnlinked, freed, ← unlinks.freeBucketDesc]
    by_cases same : d = bdesc
    · rw [if_pos same, same]
      exact desc_setNext_self
    · rw [if_neg same]
      exact desc_setNext_of_ne same
  have absent : ∀ place, bdesc ∉ Function.update descs (some bdir) (before ++ behind) place := by
    intro place member
    cases place with
    | none =>
        rw [Function.update_of_ne (Option.some_ne_none bdir).symm] at member
        cases inv.chains.apart _ _ bdesc member isMember
    | some place =>
        have inDrop : bdesc ∈ dropDescs descs bdir bdesc (before ++ behind) (some place) := by
          rwa [dropDescs, Function.update_of_ne (Option.some_ne_none place)]
        exact ((inv.mem_dropDescs_some split place).mp inDrop).2 rfl
  refine ⟨?_, fun d => ?_, ?_, ?_, ?_, ?_, ?_⟩
  · have pushed : Chains (Function.update u.nextDesc bdesc (u.head none))
        (Function.update u.head none (some bdesc)) _ := unlinks.chains.push absent
    have head : Function.update u.head none (some bdesc) =
        (h.dropBucket bdir bdesc before.getLast?).head := by
      rw [dropBucket, isUnlinked, freed]
      funext place
      cases place with
      | none => exact Function.update_self ..
      | some other => exact Function.update_of_ne (Option.some_ne_none other) ..
    have link : Function.update u.nextDesc bdesc (u.head none) =
        (h.dropBucket bdir bdesc before.getLast?).nextDesc := by
      have freeHead : u.head none = h.freeBucketDesc := unlinks.freeBucketDesc
      funext d
      rw [nextDesc, desc, freeHead]
      by_cases same : d = bdesc
      · rw [same, Function.update_self, if_pos rfl]
      · rw [Function.update_of_ne same, if_neg same, nextDesc]
    rw [head, link, Function.update_of_ne (Option.some_ne_none bdir).symm] at pushed
    exact pushed
  · rw [desc]
    by_cases same : d = bdesc
    · rw [if_pos same, same, unlinks.desc bdesc]
    · rw [if_neg same]
      exact unlinks.desc d
  · rw [dropBucket, isUnlinked, freed]
    exact unlinks.mem
  · rw [dropBucket, isUnlinked, freed]
    exact unlinks.live
  · rw [dropBucket, isUnlinked, freed, ← unlinks.hasPage]
    rfl
  · rw [dropBucket, isUnlinked, freed]
    exact unlinks.descPages
  · rw [dropBucket, isUnlinked, freed]
    exact unlinks.panicked

/-- The page of the last object is given back. -/
theorem Inv.dropBucket (inv : h.Inv descs (some bdesc)) {before behind : List Nat}
    (split : descs (some bdir) = before ++ bdesc :: behind)
    (isIdle : (h.desc bdesc).refcnt = 0) :
    (h.dropBucket bdir bdesc before.getLast?).Inv
      (dropDescs descs bdir bdesc (before ++ behind)) none := by
  have drops := inv.drops split
  have isMember : bdesc ∈ descs (some bdir) := by
    rw [split]
    exact List.mem_append_right before List.mem_cons_self
  have noLive := (inv.buckets bdir bdesc isMember).liveIn_eq_zero_iff.mp isIdle
  have page (d : Nat) : ((h.dropBucket bdir bdesc before.getLast?).desc d).page =
      (h.desc d).page := by
    rw [drops.desc]
  have pageDiffers {place : Bucket} {d : Nat} (member : d ∈ descs (some place))
      (differs : d ≠ bdesc) : (h.desc d).page ≠ (h.desc bdesc).page := fun same =>
    differs (inv.onePage place bdir d member bdesc isMember same)
  refine ⟨drops.chains, ?_, ?_, ?_, ?_, ?_, ?_, ?_, ?_, drops.panicked.trans inv.calm⟩
  · intro place d member
    have member := (inv.mem_dropDescs_some split place).mp member
    apply (inv.buckets place d member.1).congr (inv.hasPage place d member.1).isPage
    · rw [drops.desc]
    · rw [drops.desc]
    · rw [drops.desc]
    · rw [drops.desc]
    · exact fun a _ => congrFun drops.mem a
    · exact fun a _ => congrFun drops.live a
  · intro place d member
    have member := (inv.mem_dropDescs_some split place).mp member
    have before := inv.hasPage place d member.1
    rw [page]
    refine ⟨before.isPage, before.pos, before.below, ?_⟩
    rw [drops.hasPage, Function.update_of_ne (pageDiffers member.1 member.2)]
    exact before.has
  · intro place place' d member d' member'
    rw [page, page]
    exact inv.onePage place place' d ((inv.mem_dropDescs_some split place).mp member).1
      d' ((inv.mem_dropDescs_some split place').mp member').1
  · intro place d member _
    have member := (inv.mem_dropDescs_some split place).mp member
    rw [drops.desc]
    exact inv.used place d member.1 fun same => member.2 (Option.some.inj same).symm
  · intro obj len isLive
    rw [drops.live] at isLive
    obtain ⟨place, found, d, member, isObject⟩ := inv.live obj len isLive
    have differs : d ≠ bdesc := by
      rintro rfl
      cases inv.chains.apart (some place) (some bdir) d member isMember
      rw [noLive obj isObject] at isLive
      cases isLive
    exact ⟨place, found, d, (inv.mem_dropDescs_some split place).mpr ⟨member, differs⟩,
      by rwa [page]⟩
  · intro place d member
    rw [drops.descPages]
    cases place with
    | none =>
        rcases mem_dropDescs_none.mp member with rfl | member
        · exact inv.inDescPage (some bdir) d isMember
        · exact inv.inDescPage none d member
    | some place =>
        exact inv.inDescPage (some place) d ((inv.mem_dropDescs_some split place).mp member).1
  · intro other isDescPage
    rw [drops.descPages] at isDescPage
    have differs : other ≠ (h.desc bdesc).page := by
      rintro rfl
      exact inv.notDescPage bdir bdesc isMember isDescPage
    rw [drops.hasPage, Function.update_of_ne differs]
    exact inv.descPages other isDescPage
  · intro place d member
    rw [page, drops.descPages]
    exact inv.notDescPage place d ((inv.mem_dropDescs_some split place).mp member).1

theorem Inv.dropBucket_allUsed (inv : h.Inv descs idle) {before behind : List Nat}
    (split : descs (some bdir) = before ++ bdesc :: behind) (allUsed : h.AllUsed descs) :
    (h.dropBucket bdir bdesc before.getLast?).AllUsed
      (dropDescs descs bdir bdesc (before ++ behind)) := by
  have drops := inv.drops split
  intro page has
  rw [drops.hasPage] at has
  have differs : page ≠ (h.desc bdesc).page := by
    rintro rfl
    rw [Function.update_self] at has
    cases has
  rw [Function.update_of_ne differs] at has
  rw [drops.descPages]
  apply (allUsed page has).imp_right
  rintro ⟨place, d, member, isPage⟩
  have notDropped : d ≠ bdesc := by
    rintro rfl
    exact differs isPage.symm
  exact ⟨place, d, (inv.mem_dropDescs_some split place).mpr ⟨member, notDropped⟩,
    by rw [drops.desc, isPage]⟩

/-- `free_s`. -/
theorem Inv.freeS {len size : Nat} (inv : h.Inv descs none) (allUsed : h.AllUsed descs)
    (isLive : h.live obj = some len) (isSize : size = 0 ∨ findBucket size = findBucket len) :
    ∃ descs', (h.freeS obj size).Inv descs' none ∧ (h.freeS obj size).AllUsed descs' ∧
      (h.freeS obj size).live = Function.update h.live obj none ∧
      (h.freeS obj size).descPages = h.descPages := by
  obtain ⟨bdir, found, bdesc, member, isObject⟩ := inv.live obj len isLive
  have fits : ¬bdir.size < size := by
    rcases isSize with rfl | same
    · exact Nat.not_lt_zero _
    · exact Nat.not_lt.mpr (findBucket_le (same.trans found))
  have isPage := inv.pageOf_object member isObject
  obtain ⟨before, behind, split, isFound⟩ := inv.findDesc member fits (List.mem_finRange bdir)
  have within := (inv.buckets bdir bdesc member).putObject (inv.hasPage bdir bdesc member).isPage
    isLive isObject (inv.liveHere member)
  rw [Heap.freeS, isPage, isFound]
  dsimp only
  by_cases isIdle : ((h.putObject obj bdesc).desc bdesc).refcnt = 0
  · have idle : (h.putObject obj bdesc).Inv descs (some bdesc) :=
      inv.within member within (fun no => absurd rfl no) nofun
    rw [if_pos isIdle]
    have drops := idle.drops split
    exact ⟨_, idle.dropBucket split isIdle,
      idle.dropBucket_allUsed split (within.allUsed allUsed), drops.live, drops.descPages⟩
  · rw [if_neg isIdle]
    exact ⟨descs, inv.within member within (fun _ => isIdle) nofun, within.allUsed allUsed,
      rfl, rfl⟩

/-! ## Callers -/

/-- A caller writes in its own object. -/
theorem Inv.store (inv : h.Inv descs none) {len a : Nat} (word : Option Nat)
    (isLive : h.live obj = some len) (after : obj ≤ a) (before : a < obj + len) :
    ({ h with mem := Function.update h.mem a word } : Heap).Inv descs none := by
  obtain ⟨bdir, found, bdesc, member, isObject⟩ := inv.live obj len isLive
  have fits := findBucket_le found
  have apart : ∀ bdir', ∀ bdesc' ∈ descs (some bdir'),
      ∀ other ∈ bdir'.objects (h.desc bdesc').page, h.live other = none → other ≠ a := by
    rintro bdir' bdesc' member' other isObject' notLive rfl
    have inside : other ∈ extent obj bdir := ⟨after, by omega⟩
    have here := Bucket.pageOf_extent (inv.hasPage bdir bdesc member).isPage isObject inside
    rw [inv.pageOf_object member' isObject'] at here
    cases inv.onePage bdir' bdir bdesc' member' bdesc member here
    cases inv.chains.apart _ _ bdesc member member'
    have differs : obj ≠ other := by
      rintro rfl
      rw [notLive] at isLive
      cases isLive
    rcases Bucket.objects_apart isObject isObject' differs with less | less
    · omega
    · have pos := bdir.size_pos
      omega
  refine ⟨inv.chains, ?_, fun place d member => ?_, inv.onePage, inv.used, inv.live,
    inv.inDescPage, inv.descPages, inv.notDescPage, inv.calm⟩
  · intro bdir' bdesc' member'
    have ok := inv.buckets bdir' bdesc' member'
    obtain ⟨objs, leads, nodup, free⟩ := ok.free
    refine ⟨ok.size, ok.refcnt, objs, ?_, nodup, free⟩
    apply leads.congr
    intro other isFree
    have isFree := (free other).mp isFree
    exact Function.update_of_ne (apart bdir' bdesc' member' other isFree.1 isFree.2) ..
  · have page := inv.hasPage place d member
    exact ⟨page.isPage, page.pos, page.below, page.has⟩

/-! ## Runs -/

/-- The invariant, for some chains. -/
def Good (h : Heap) : Prop := ∃ descs, h.Inv descs none ∧ h.AllUsed descs

theorem Good.sound (good : h.Good) : h.Sound := by
  obtain ⟨descs, inv, allUsed⟩ := good
  exact inv.sound allUsed

theorem good_boot (desc : Nat → BucketDesc) (mem : Nat → Option Nat) : (boot desc mem).Good := by
  refine ⟨fun _ => [], ⟨⟨fun place => ?_, fun _ => List.nodup_nil, nofun⟩, nofun, nofun, nofun,
    nofun, nofun, nofun, nofun, nofun, rfl⟩, nofun⟩
  cases place with
  | none => rfl
  | some bdir => rfl

theorem Good.step {action : Action} (good : h.Good) (permitted : h.Permits action)
    (stepped : step h action = some next) : next.Good := by
  obtain ⟨descs, inv, allUsed⟩ := good
  cases action with
  | malloc len descPage page => exact inv.malloc allUsed permitted stepped
  | freeS obj size =>
      cases stepped
      obtain ⟨len, isLive, isSize⟩ := permitted
      obtain ⟨descs', inv', allUsed', -⟩ := inv.freeS allUsed isLive isSize
      exact ⟨descs', inv', allUsed'⟩
  | store a word =>
      cases stepped
      obtain ⟨obj, len, isLive, after, before⟩ := permitted
      exact ⟨descs, inv.store word isLive after before, allUsed⟩

theorem takeObject_keeps (h : Heap) (bdesc len : Nat) :
    (∀ a, (h.live a).isSome = true → ((h.takeObject bdesc len).live a).isSome = true) ∧
      (h.takeObject bdesc len).descPages = h.descPages := by
  rw [Heap.takeObject]
  cases (h.desc bdesc).freeptr with
  | none => exact ⟨fun _ isLive => isLive, rfl⟩
  | some obj =>
      refine ⟨fun a isLive => ?_, rfl⟩
      have live : (h.handOut bdesc obj len).live a =
          Function.update h.live obj (some len) a := rfl
      rw [live]
      by_cases same : a = obj
      · rw [same, Function.update_self]
        rfl
      · rwa [Function.update_of_ne same]

theorem mallocNew_keeps {len descPage : Nat}
    (got : h.mallocNew bdir len descPage page = some next) :
    (∀ a, (h.live a).isSome = true → (next.live a).isSome = true) ∧
      h.descPages ⊆ next.descPages := by
  obtain ⟨ready, gotDesc, got⟩ := Option.bind_eq_some_iff.mp got
  have readyKeeps : ready.live = h.live ∧ h.descPages ⊆ ready.descPages := by
    rw [Heap.needDesc] at gotDesc
    split at gotDesc
    next =>
      obtain ⟨paged, gotPage, rfl⟩ := Option.map_eq_some_iff.mp gotDesc
      obtain ⟨gets, -, sameDescPages⟩ := getFreePage_gets gotPage
      refine ⟨gets.live, fun other member => ?_⟩
      rw [← sameDescPages] at member
      exact List.mem_cons_of_mem _ member
    next =>
      cases gotDesc
      exact ⟨rfl, fun _ member => member⟩
  split at got
  next =>
    cases got
    refine ⟨fun a isLive => ?_, readyKeeps.2⟩
    rw [← readyKeeps.1] at isLive
    exact isLive
  next bdesc isDesc =>
    obtain ⟨added, gotBucket, rfl⟩ := Option.map_eq_some_iff.mp got
    obtain ⟨paged, gotPage, rfl⟩ := Option.map_eq_some_iff.mp gotBucket
    obtain ⟨gets, -, sameDescPages⟩ := getFreePage_gets gotPage
    have taken := (paged.startBucket bdir bdesc page).takeObject_keeps bdesc len
    constructor
    · intro a isLive
      apply taken.1
      have same : (paged.startBucket bdir bdesc page).live = h.live :=
        gets.live.trans readyKeeps.1
      rwa [same]
    · rw [taken.2]
      have same : (paged.startBucket bdir bdesc page).descPages = ready.descPages := sameDescPages
      rw [same]
      exact readyKeeps.2

/-- Objects stay live in `malloc`, and pages for descriptors stay. -/
theorem malloc_keeps {len descPage : Nat} (got : h.malloc len descPage page = some next) :
    (∀ a, (h.live a).isSome = true → (next.live a).isSome = true) ∧
      h.descPages ⊆ next.descPages := by
  rw [Heap.malloc] at got
  split at got
  next =>
    cases got
    exact ⟨fun _ isLive => isLive, fun _ member => member⟩
  next bdir _ =>
    split at got
    next =>
      cases got
      exact ⟨fun _ isLive => isLive, fun _ member => member⟩
    next bdesc _ =>
      cases got
      have taken := h.takeObject_keeps bdesc len
      exact ⟨taken.1, fun _ member => taken.2 ▸ member⟩
    next => exact mallocNew_keeps got

/-- A page that is given back has had live objects, and has none. -/
theorem Good.of_givesBack (good : h.Good) (goodNext : next.Good)
    (descPages : h.descPages ⊆ next.descPages) (has : h.hasPage page = true)
    (hasNot : next.hasPage page = false) :
    (∃ obj, (h.live obj).isSome = true ∧ pageOf obj = page) ∧
      ∀ obj, (next.live obj).isSome = true → pageOf obj ≠ page := by
  have notDesc : page ∉ next.descPages := by
    intro isDescPage
    obtain ⟨descs, inv, -⟩ := goodNext
    rw [(inv.descPages page isDescPage).1] at hasNot
    cases hasNot
  constructor
  · obtain ⟨obj, len, isLive, inPage⟩ :=
      (good.sound.pages page fun member => notDesc (descPages member)).mp has
    exact ⟨obj, by rw [isLive]; rfl, inPage⟩
  · intro obj isLive inPage
    obtain ⟨len, isLive⟩ := Option.isSome_iff_exists.mp isLive
    rw [(goodNext.sound.pages page notDesc).mpr ⟨obj, len, isLive, inPage⟩] at hasNot
    cases hasNot

/-- `free_s` gives back a page just when it frees the last object there. -/
theorem Good.freeS_givesBack_iff {size len : Nat} (good : h.Good)
    (isLive : h.live obj = some len) (isSize : size = 0 ∨ findBucket size = findBucket len) :
    h.hasPage page = true ∧ (h.freeS obj size).hasPage page = false ↔
      h.FreesLast (.freeS obj size) page := by
  have permits : h.Permits (.freeS obj size) := ⟨len, isLive, isSize⟩
  have goodNext : (h.freeS obj size).Good := good.step permits rfl
  obtain ⟨descs, inv, allUsed⟩ := good
  obtain ⟨descs', -, -, live, descPages⟩ := inv.freeS allUsed isLive isSize
  have liveNext (other : Nat) (differs : other ≠ obj) :
      (h.freeS obj size).live other = h.live other := by
    rw [live, Function.update_of_ne differs]
  have isSome : (h.live obj).isSome = true := by rw [isLive]; rfl
  constructor
  · rintro ⟨has, hasNot⟩
    obtain ⟨⟨other, otherLive, inPage⟩, none⟩ := Good.of_givesBack ⟨descs, inv, allUsed⟩ goodNext
      (fun _ member => descPages ▸ member) has hasNot
    have onlyObj (a : Nat) (aLive : (h.live a).isSome = true) (aInPage : pageOf a = page) :
        a = obj := by
      by_contra differs
      exact none a (by rwa [liveNext a differs]) aInPage
    cases onlyObj other otherLive inPage
    exact ⟨obj, size, rfl, inPage, isSome, onlyObj⟩
  · rintro ⟨_, _, ⟨⟩, inPage, -, onlyObj⟩
    have notDesc : page ∉ h.descPages := by
      obtain ⟨bdir, -, bdesc, member, isObject⟩ := inv.live obj len isLive
      rw [← inPage, inv.pageOf_object member isObject]
      exact inv.notDescPage bdir bdesc member
    have has := ((inv.sound allUsed).pages page notDesc).mpr ⟨obj, len, isLive, inPage⟩
    refine ⟨has, ?_⟩
    rw [← Bool.not_eq_true, goodNext.sound.pages page (by rwa [descPages])]
    rintro ⟨other, len', otherLive, otherInPage⟩
    have differs : other ≠ obj := by
      rintro rfl
      rw [live, Function.update_self] at otherLive
      cases otherLive
    rw [liveNext other differs] at otherLive
    exact differs (onlyObj other (by rw [otherLive]; rfl) otherInPage)

theorem Good.keeps {action : Action} (good : h.Good) (permitted : h.Permits action) :
    KeepsSound h action := by
  intro next stepped
  have goodNext := good.step permitted stepped
  refine ⟨goodNext.sound, fun page => ?_⟩
  cases action with
  | malloc len descPage newPage =>
      obtain ⟨live, descPages⟩ := malloc_keeps stepped
      constructor
      · rintro ⟨has, hasNot⟩
        obtain ⟨⟨obj, isLive, inPage⟩, none⟩ := good.of_givesBack goodNext descPages has hasNot
        exact absurd inPage (none obj (live obj isLive))
      · rintro ⟨_, _, ⟨⟩, -⟩
  | freeS obj size =>
      cases stepped
      obtain ⟨len, isLive, isSize⟩ := permitted
      exact good.freeS_givesBack_iff isLive isSize
  | store a word =>
      cases stepped
      constructor
      · rintro ⟨has, hasNot⟩
        rw [has] at hasNot
        cases hasNot
      · rintro ⟨_, _, ⟨⟩, -⟩

end Heap

/-- The allocator keeps its promise, if the callers keep to theirs. -/
theorem keepsSound (desc : Nat → BucketDesc) (mem : Nat → Option Nat) (actions : List Action)
    (permitted : Lib.EveryStep step Heap.Permits (boot desc mem) actions) :
    Lib.EveryStep step KeepsSound (boot desc mem) actions :=
  Lib.everyStep_of_invariant Heap.Good (fun _ _ good permits => good.keeps permits)
    (fun _ _ _ good permits stepped => good.step permits stepped) (Heap.good_boot desc mem)
    permitted

/-- A check that a caller keeps to the rules; it writes the first word of an object only. -/
def Heap.checkPermits (h : Heap) : Action → Bool
  | .malloc len _ _ => decide (len ≤ pageSize)
  | .freeS obj size =>
      (h.live obj).any fun len => decide (size = 0 ∨ findBucket size = findBucket len)
  | .store a _ => (h.live a).any fun len => decide (0 < len)

theorem Heap.permits_of_check {h : Heap} {action : Action}
    (checked : h.checkPermits action = true) : h.Permits action := by
  cases action with
  | malloc len descPage page =>
      have fits : len ≤ pageSize := of_decide_eq_true checked
      exact fits
  | freeS obj size =>
      obtain ⟨len, isLive, isSize⟩ := (Option.any_eq_true _ _).mp checked
      exact ⟨len, isLive, of_decide_eq_true isSize⟩
  | store a word =>
      obtain ⟨len, isLive, isPos⟩ := (Option.any_eq_true _ _).mp checked
      exact ⟨a, len, isLive, le_refl a, Nat.lt_add_of_pos_right (of_decide_eq_true isPos)⟩

/-- Two objects of one page, the first of which is written and freed before the other. -/
def twoObjects : List Action :=
  [.malloc 40 4096 8192, .malloc 60 0 0, .store 8192 (some 0), .freeS 8192 0, .freeS 8256 60]

theorem keepsSound_twoObjects :
    Lib.EveryStep step KeepsSound (boot (fun _ => ⟨0, none, none, 0, 0⟩) fun _ => none)
      twoObjects :=
  keepsSound _ _ _ (Lib.everyStep_of_checkSteps Heap.checkPermits
    (fun _ _ => Heap.permits_of_check) (by decide +kernel))

end Linux012.Malloc
