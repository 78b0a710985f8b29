import Linux012.Lib.StateExcept

/-!
# Two runs that cannot be told apart

Two operations, mostly one and the same, are run in two states.  They agree when they return the
same result or stop in the same way, so that whoever sees only this learns nothing about which of
the states it was.  The relation between the states says what an operation may look at.
-/

namespace Linux012.Lib

universe u

variable {State Stop α β : Type u}

/-- Run in states related by `before`, both operations return one result and states related by
`after`, or both stop in one way. -/
def Agree (before : State → State → Prop) (prog prog' : StateT State (Except Stop) α)
    (after : α → State → State → Prop) : Prop :=
  ∀ state state', before state state' →
    match prog.run state, prog'.run state' with
    | .ok (result, next), .ok (result', next') => result = result' ∧ after result next next'
    | .error stop, .error stop' => stop = stop'
    | _, _ => False

variable {before before' : State → State → Prop} {after after' : α → State → State → Prop}
variable {prog prog' : StateT State (Except Stop) α} {state state' : State}

namespace Agree

theorem pure {value : α} (holds : ∀ state state', before state state' → after value state state') :
    Agree before (Pure.pure value : StateT State (Except Stop) α) (Pure.pure value) after :=
  fun state state' related => ⟨rfl, holds state state' related⟩

theorem throw {stop : Stop} :
    Agree before (throw stop : StateT State (Except Stop) α) (throw stop) after :=
  fun _ _ _ => rfl

theorem throw_bind {stop : Stop} {rest rest' : β → StateT State (Except Stop) α} :
    Agree before (MonadExcept.throw stop >>= rest) (MonadExcept.throw stop >>= rest') after :=
  fun _ _ _ => rfl

theorem set {next next' : State} {after : PUnit → State → State → Prop}
    (holds : ∀ state state', before state state' → after ⟨⟩ next next') :
    Agree before (set next : StateT State (Except Stop) PUnit) (set next') after :=
  fun state state' related => ⟨rfl, holds state state' related⟩

theorem bind {middle : β → State → State → Prop} {first first' : StateT State (Except Stop) β}
    {rest rest' : β → StateT State (Except Stop) α} (begins : Agree before first first' middle)
    (continues : ∀ value, Agree (middle value) (rest value) (rest' value) after) :
    Agree before (first >>= rest) (first' >>= rest') after := by
  intro state state' related
  have begun := begins state state' related
  rw [StateT.run_bind, StateT.run_bind]
  cases ran : first.run state with
  | error stop =>
      cases ran' : first'.run state' with
      | error stop' =>
          rw [ran, ran'] at begun
          exact begun
      | ok reached' =>
          rw [ran, ran'] at begun
          exact begun.elim
  | ok reached =>
      cases ran' : first'.run state' with
      | error stop' =>
          rw [ran, ran'] at begun
          exact begun.elim
      | ok reached' =>
          obtain ⟨value, next⟩ := reached
          obtain ⟨value', next'⟩ := reached'
          rw [ran, ran'] at begun
          obtain ⟨rfl, related⟩ := begun
          exact continues value next next' related

theorem ite {condition : Prop} [Decidable condition] {other other' : StateT State (Except Stop) α}
    (taken : condition → Agree before prog prog' after)
    (left : ¬condition → Agree before other other' after) :
    Agree before (if condition then prog else other) (if condition then prog' else other')
      after := by
  by_cases holds : condition
  · rw [if_pos holds, if_pos holds]
    exact taken holds
  · rw [if_neg holds, if_neg holds]
    exact left holds

/-- Reading the states fixes them. -/
theorem get_bind {rest rest' : State → StateT State (Except Stop) α}
    (continues : ∀ state state', before state state' →
      Agree (fun now now' => now = state ∧ now' = state') (rest state) (rest' state') after) :
    Agree before (get >>= rest) (get >>= rest') after :=
  fun state state' related => continues state state' related state state' ⟨rfl, rfl⟩

theorem conseq (agree : Agree before' prog prog' after')
    (weaker : ∀ state state', before state state' → before' state state')
    (stronger : ∀ result next next', after' result next next' → after result next next') :
    Agree before prog prog' after := by
  intro state state' related
  have ran := agree state state' (weaker state state' related)
  cases result : prog.run state with
  | error stop =>
      cases result' : prog'.run state' with
      | error stop' =>
          rw [result, result'] at ran
          exact ran
      | ok reached' =>
          rw [result, result'] at ran
          exact ran.elim
  | ok reached =>
      cases result' : prog'.run state' with
      | error stop' =>
          rw [result, result'] at ran
          exact ran.elim
      | ok reached' =>
          rw [result, result'] at ran
          exact ⟨ran.1, stronger _ _ _ ran.2⟩

theorem weaken (agree : Agree before prog prog' after')
    (stronger : ∀ result next next', after' result next next' → after result next next') :
    Agree before prog prog' after :=
  agree.conseq (fun _ _ => id) stronger

/-- An operation that starts in two known states. -/
theorem start (agree : Agree before prog prog' after) (related : before state state') :
    Agree (fun now now' => now = state ∧ now' = state') prog prog' after :=
  agree.conseq (fun _ _ ⟨same, same'⟩ => same ▸ same' ▸ related) fun _ _ _ => id

/-- From known states on. -/
theorem of_start (agree : ∀ state state', before state state' →
    Agree (fun now now' => now = state ∧ now' = state') prog prog' after) :
    Agree before prog prog' after :=
  fun state state' related => agree state state' related state state' ⟨rfl, rfl⟩

/-- What the two runs return. -/
theorem run (agree : Agree before prog prog' after) (related : before state state') :
    (∃ stop, prog.run state = .error stop ∧ prog'.run state' = .error stop) ∨
      ∃ result next next', prog.run state = .ok (result, next) ∧
        prog'.run state' = .ok (result, next') ∧ after result next next' := by
  have ran := agree state state' related
  cases result : prog.run state with
  | error stop =>
      cases result' : prog'.run state' with
      | error stop' =>
          rw [result, result'] at ran
          exact .inl ⟨stop, rfl, congrArg _ ran.symm⟩
      | ok reached' =>
          rw [result, result'] at ran
          exact ran.elim
  | ok reached =>
      cases result' : prog'.run state' with
      | error stop' =>
          rw [result, result'] at ran
          exact ran.elim
      | ok reached' =>
          obtain ⟨value, next⟩ := reached
          obtain ⟨value', next'⟩ := reached'
          rw [result, result'] at ran
          obtain ⟨rfl, related⟩ := ran
          exact .inr ⟨value, next, next', rfl, rfl, related⟩

end Agree

end Linux012.Lib
