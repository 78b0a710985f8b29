import Mathlib.Logic.Basic

/-!
# Pre- and postconditions of partial operations on a state

An operation may read and change a state, return a result, or stop for good (a
panic).  A triple speaks of the operations that return.  The rules follow the
shape of an operation, so that the specification of a function is put together
from those of the functions that it calls.
-/

namespace Linux012.Lib

universe u

variable {State α β : Type u}

/-- If `prog` is run in a state that meets `pre` and returns, then `post` holds of
its result and of the state that it leaves. -/
structure Triple (pre : State → Prop) (prog : StateT State Option α)
    (post : α → State → Prop) : Prop where
  returns : ∀ state, pre state → ∀ result next,
    prog.run state = some (result, next) → post result next

variable {pre pre' : State → Prop} {post post' : α → State → Prop}
variable {prog : StateT State Option α}

namespace Triple

theorem conseq (spec : Triple pre' prog post') (before : ∀ state, pre state → pre' state)
    (after : ∀ result next, post' result next → post result next) :
    Triple pre prog post := by
  constructor
  intro state holds result next ran
  exact after result next (spec.returns state (before state holds) result next ran)

/-- Strengthening the precondition. -/
theorem before (spec : Triple pre' prog post) (stronger : ∀ state, pre state → pre' state) :
    Triple pre prog post :=
  spec.conseq stronger (fun _ _ => id)

/-- Weakening the postcondition. -/
theorem after (spec : Triple pre prog post')
    (weaker : ∀ result next, post' result next → post result next) :
    Triple pre prog post :=
  spec.conseq (fun _ => id) weaker

theorem pure {value : α} (holds : ∀ state, pre state → post value state) :
    Triple pre (pure value) post := by
  constructor
  intro state start result next ran
  cases ran
  exact holds state start

theorem bind {middle : β → State → Prop} {first : StateT State Option β}
    {rest : β → StateT State Option α} (begins : Triple pre first middle)
    (continues : ∀ value, Triple (middle value) (rest value) post) :
    Triple pre (first >>= rest) post := by
  constructor
  intro state holds result next ran
  simp only [StateT.run_bind, Option.bind_eq_bind, Option.bind_eq_some_iff] at ran
  rcases ran with ⟨⟨value, between⟩, ranFirst, ranRest⟩
  exact (continues value).returns between (begins.returns state holds value between ranFirst)
    result next ranRest

/-- Sequencing through a given assertion. -/
theorem through (middle : β → State → Prop) {first : StateT State Option β}
    {rest : β → StateT State Option α} (begins : Triple pre first middle)
    (continues : ∀ value, Triple (middle value) (rest value) post) :
    Triple pre (first >>= rest) post :=
  begins.bind continues

/-- Reading the state fixes it for the rest of the operation. -/
theorem get_bind {rest : State → StateT State Option α}
    (continues : ∀ state, pre state → Triple (· = state) (rest state) post) :
    Triple pre (get >>= rest) post := by
  constructor
  intro state holds result next ran
  exact (continues state holds).returns state rfl result next ran

theorem set {value : State} {post : PUnit → State → Prop}
    (holds : ∀ state, pre state → post PUnit.unit value) :
    Triple pre (set value) post := by
  constructor
  intro state start result next ran
  cases ran
  exact holds state start

theorem modify {change : State → State} {post : PUnit → State → Prop}
    (holds : ∀ state, pre state → post PUnit.unit (change state)) :
    Triple pre (modify change) post := by
  constructor
  intro state start result next ran
  cases ran
  exact holds state start

theorem failure : Triple pre (failure : StateT State Option α) post := by
  constructor
  intro state holds result next ran
  cases ran

/-- Nothing is asked of the result. -/
protected theorem trivial : Triple pre prog fun _ _ => True := ⟨fun _ _ _ _ _ => True.intro⟩

theorem ite {condition : Prop} [Decidable condition] {first second : StateT State Option α}
    (whenTrue : condition → Triple pre first post)
    (whenFalse : ¬condition → Triple pre second post) :
    Triple pre (if condition then first else second) post := by
  by_cases holds : condition
  · rw [if_pos holds]
    exact whenTrue holds
  · rw [if_neg holds]
    exact whenFalse holds

/-! From one known state. -/

variable {start : State}

theorem pure_at {value : α} (holds : post value start) :
    Triple (· = start) (Pure.pure value) post := by
  apply Triple.pure
  intro state same
  rw [same]
  exact holds

theorem get_bind_at {rest : State → StateT State Option α}
    (continues : Triple (· = start) (rest start) post) :
    Triple (· = start) (get >>= rest) post := by
  apply Triple.get_bind
  intro state same
  rw [same]
  exact continues

/-- The run itself, as a fact about what it returns. -/
theorem run_eq : Triple (· = start) prog fun result next =>
    prog.run start = some (result, next) := by
  constructor
  intro state same result next ran
  rw [same] at ran
  exact ran

/-- Another description of the same start. -/
theorem start_eq (other : State) (same : start = other)
    (spec : Triple (· = other) prog post) : Triple (· = start) prog post := by
  rw [same]
  exact spec

theorem modify_at {change : State → State} {post : PUnit → State → Prop}
    (holds : post PUnit.unit (change start)) :
    Triple (· = start) (MonadState.modifyGet fun s => (PUnit.unit, change s)) post := by
  apply Triple.modify
  intro state same
  rw [same]
  exact holds

/-- Facts about the state that the operation starts in may be taken out of the
precondition. -/
theorem of_pre (spec : ∀ state, pre state → Triple (· = state) prog post) :
    Triple pre prog post := by
  constructor
  intro state holds
  exact (spec state holds).returns state rfl

end Triple

end Linux012.Lib
