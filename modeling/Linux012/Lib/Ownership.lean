import Mathlib.Logic.ExistsUnique

/-!
# One owner for each resource

Resources that are in use or free, and parties that may own some.  A resource is in use
exactly when somebody owns it, and it has one owner then.  The rules say what an
operation may do: take a free resource, give one back, or hand one over.
-/

namespace Linux012.Lib

universe u v

variable {Owner : Type u} {Resource : Type v}

/-- The resources in use are those owned, each by one owner. -/
structure Exclusive (used : Resource → Prop) (owns : Owner → Resource → Prop) : Prop where
  used_iff : ∀ resource, used resource ↔ ∃ owner, owns owner resource
  unique : ∀ owner other resource, owns owner resource → owns other resource → owner = other

variable {used used' : Resource → Prop} {owns owns' : Owner → Resource → Prop}
variable {owner : Owner} {resource : Resource}

namespace Exclusive

theorem used_of_owns (exclusive : Exclusive used owns) (isOwned : owns owner resource) :
    used resource :=
  (exclusive.used_iff resource).mpr ⟨owner, isOwned⟩

theorem existsUnique (exclusive : Exclusive used owns) (inUse : used resource) :
    ∃! owner, owns owner resource := by
  obtain ⟨owner, isOwned⟩ := (exclusive.used_iff resource).mp inUse
  exact ⟨owner, isOwned, fun other isOther =>
    exclusive.unique other owner resource isOther isOwned⟩

/-- Nothing changes. -/
theorem congr (exclusive : Exclusive used owns)
    (sameUse : ∀ resource, used' resource ↔ used resource)
    (sameOwner : ∀ owner resource, owns' owner resource ↔ owns owner resource) :
    Exclusive used' owns' where
  used_iff resource := by
    rw [sameUse, exclusive.used_iff]
    exact exists_congr fun owner => (sameOwner owner resource).symm
  unique owner other resource isOwned isOther :=
    exclusive.unique owner other resource ((sameOwner owner resource).mp isOwned)
      ((sameOwner other resource).mp isOther)

/-- A free resource is taken. -/
theorem take (exclusive : Exclusive used owns) (owner : Owner) (free : ¬used resource)
    (use : ∀ other, used' other ↔ used other ∨ other = resource)
    (own : ∀ party other, owns' party other ↔
      owns party other ∨ party = owner ∧ other = resource) :
    Exclusive used' owns' where
  used_iff other := by
    rw [use, exclusive.used_iff]
    constructor
    · rintro (⟨party, isOwned⟩ | rfl)
      · exact ⟨party, (own party other).mpr (.inl isOwned)⟩
      · exact ⟨owner, (own owner other).mpr (.inr ⟨rfl, rfl⟩)⟩
    · rintro ⟨party, isOwned⟩
      exact ((own party other).mp isOwned).imp (fun isOwned => ⟨party, isOwned⟩) And.right
  unique party party' other isOwned isOther := by
    rcases (own party other).mp isOwned with before | ⟨rfl, rfl⟩
    · rcases (own party' other).mp isOther with before' | ⟨rfl, rfl⟩
      · exact exclusive.unique party party' other before before'
      · exact absurd (exclusive.used_of_owns before) free
    · rcases (own party' other).mp isOther with before' | ⟨rfl, -⟩
      · exact absurd (exclusive.used_of_owns before') free
      · rfl

/-- A resource is given back. -/
theorem release (exclusive : Exclusive used owns)
    (use : ∀ other, used' other ↔ used other ∧ other ≠ resource)
    (own : ∀ party other, owns' party other ↔ owns party other ∧ other ≠ resource) :
    Exclusive used' owns' where
  used_iff other := by
    rw [use, exclusive.used_iff]
    constructor
    · rintro ⟨⟨party, isOwned⟩, differs⟩
      exact ⟨party, (own party other).mpr ⟨isOwned, differs⟩⟩
    · rintro ⟨party, isOwned⟩
      have before := (own party other).mp isOwned
      exact ⟨⟨party, before.1⟩, before.2⟩
  unique party party' other isOwned isOther :=
    exclusive.unique party party' other ((own party other).mp isOwned).1
      ((own party' other).mp isOther).1

/-- A resource is handed over. -/
theorem handOver (exclusive : Exclusive used owns) (heir : Owner) (inUse : used resource)
    (use : ∀ other, used' other ↔ used other)
    (own : ∀ party other, owns' party other ↔
      owns party other ∧ other ≠ resource ∨ party = heir ∧ other = resource) :
    Exclusive used' owns' := by
  have free : Exclusive (fun other => used other ∧ other ≠ resource)
      (fun party other => owns party other ∧ other ≠ resource) :=
    exclusive.release (fun _ => Iff.rfl) (fun _ _ => Iff.rfl)
  refine free.take heir (fun isUsed => isUsed.2 rfl) (fun other => ?_) own
  rw [use]
  constructor
  · intro isUsed
    by_cases same : other = resource
    · exact .inr same
    · exact .inl ⟨isUsed, same⟩
  · rintro (isUsed | rfl)
    · exact isUsed.1
    · exact inUse

end Exclusive

end Linux012.Lib
