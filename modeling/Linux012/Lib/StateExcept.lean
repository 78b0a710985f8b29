import Mathlib.Logic.Basic

/-!
# Runs of operations that may stop

A sequence of operations on a state either returns with a state, or stops without one.
-/

namespace Linux012.Lib

universe u

variable {State Stop α β : Type u} {first : StateT State (Except Stop) β}
variable {next : β → StateT State (Except Stop) α} {state middle : State} {value : β}

/-- The first part has returned. -/
theorem run_bind_of_ok (ran : first.run state = .ok (value, middle)) :
    (first >>= next).run state = (next value).run middle := by
  rw [StateT.run_bind, ran]
  rfl

/-- The first part has stopped. -/
theorem run_bind_of_error {stop : Stop} (ran : first.run state = .error stop) :
    (first >>= next).run state = .error stop := by
  rw [StateT.run_bind, ran]
  rfl

/-- A sequence returns when both of its parts do. -/
theorem run_bind_eq_ok {reached : α × State} :
    (first >>= next).run state = .ok reached ↔
      ∃ value middle, first.run state = .ok (value, middle) ∧
        (next value).run middle = .ok reached := by
  rw [StateT.run_bind]
  cases first.run state with
  | error stop => simp [bind, Except.bind]
  | ok begun =>
      obtain ⟨value, middle⟩ := begun
      simp [bind, Except.bind, and_assoc]

/-- A sequence stops when one of its parts does. -/
theorem run_bind_eq_error {stop : Stop} :
    (first >>= next).run state = .error stop ↔ first.run state = .error stop ∨
      ∃ value middle, first.run state = .ok (value, middle) ∧
        (next value).run middle = .error stop := by
  rw [StateT.run_bind]
  cases first.run state with
  | error stop => simp [bind, Except.bind]
  | ok begun =>
      obtain ⟨value, middle⟩ := begun
      simp [bind, Except.bind, and_assoc]

end Linux012.Lib
