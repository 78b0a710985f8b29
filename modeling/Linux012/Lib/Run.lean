import Mathlib.Logic.Basic
import Mathlib.Data.List.Basic

/-!
# Runs of a partial step function

A system is a partial function `step`: the choices that the system leaves open
(which party moves, what a device answers) are carried by the action, so that a
run is determined by its list of actions and can be evaluated.  A condition on
the steps of a run is a predicate on the state before a step and on its action.
-/

namespace Linux012.Lib

universe u v

variable {State : Type u} {Action : Type v}

/-- The state after taking `actions` in order, if every one of them is enabled. -/
def exec (step : State → Action → Option State) :
    State → List Action → Option State
  | state, [] => some state
  | state, action :: actions =>
      match step state action with
      | none => none
      | some next => exec step next actions

/-- Every step of the run meets `allowed` in the state it is taken from. -/
def EveryStep (step : State → Action → Option State)
    (allowed : State → Action → Prop) : State → List Action → Prop
  | _, [] => True
  | state, action :: actions =>
      allowed state action ∧
        ∀ next, step state action = some next →
          EveryStep step allowed next actions

/-- `final` is reached from `start` by a run all of whose steps meet `allowed`. -/
def ReachedBy (step : State → Action → Option State)
    (allowed : State → Action → Prop) (start final : State) : Prop :=
  ∃ actions, exec step start actions = some final ∧
    EveryStep step allowed start actions

/-- A check of every step of a run, for runs that are evaluated. -/
def checkSteps (step : State → Action → Option State) (check : State → Action → Bool) :
    State → List Action → Bool
  | _, [] => true
  | state, action :: actions =>
      check state action &&
        match step state action with
        | none => true
        | some next => checkSteps step check next actions

variable {step : State → Action → Option State}
variable {allowed : State → Action → Prop}

@[simp] theorem exec_nil (state : State) : exec step state [] = some state := rfl

/-- A nonempty run is its first step followed by a run. -/
theorem exec_cons_eq_some {state final : State} {action : Action}
    {actions : List Action} :
    exec step state (action :: actions) = some final ↔
      ∃ next, step state action = some next ∧
        exec step next actions = some final := by
  simp only [exec]
  cases taken : step state action with
  | none => simp
  | some next => simp

/-- Runs compose. -/
theorem exec_append_eq_some {state final : State} {first second : List Action} :
    exec step state (first ++ second) = some final ↔
      ∃ middle, exec step state first = some middle ∧
        exec step middle second = some final := by
  induction first generalizing state with
  | nil => simp
  | cons action first ih =>
      simp only [List.cons_append, exec_cons_eq_some]
      constructor
      · rintro ⟨next, taken, rest⟩
        obtain ⟨middle, reached, last⟩ := ih.mp rest
        exact ⟨middle, ⟨next, taken, reached⟩, last⟩
      · rintro ⟨middle, ⟨next, taken, reached⟩, last⟩
        exact ⟨next, taken, ih.mpr ⟨middle, reached, last⟩⟩

/-- The run rule: what every allowed step preserves, every allowed run preserves. -/
theorem exec_invariant (invariant : State → Prop)
    (preserved : ∀ state action next, invariant state → allowed state action →
      step state action = some next → invariant next)
    {state final : State} {actions : List Action}
    (initially : invariant state)
    (meets : EveryStep step allowed state actions)
    (reached : exec step state actions = some final) : invariant final := by
  induction actions generalizing state with
  | nil =>
      cases reached
      exact initially
  | cons action actions ih =>
      obtain ⟨next, taken, rest⟩ := exec_cons_eq_some.mp reached
      exact ih (preserved state action next initially meets.1 taken)
        (meets.2 next taken) rest

/-- A condition that every step meets is met along every run. -/
theorem everyStep_of_forall (meets : ∀ state action, allowed state action)
    (state : State) (actions : List Action) :
    EveryStep step allowed state actions := by
  induction actions generalizing state with
  | nil => trivial
  | cons action actions ih =>
      exact ⟨meets state action, fun next _ => ih next⟩

/-- What every step of a run meets, every step of a later part meets. -/
theorem EveryStep.of_append {state middle : State} {first second : List Action}
    (meets : EveryStep step allowed state (first ++ second))
    (reached : exec step state first = some middle) : EveryStep step allowed middle second := by
  induction first generalizing state with
  | nil =>
      cases reached
      exact meets
  | cons action first ih =>
      obtain ⟨next, taken, rest⟩ := exec_cons_eq_some.mp reached
      exact ih (meets.2 next taken) rest

theorem everyStep_of_checkSteps (check : State → Action → Bool)
    (sound : ∀ state action, check state action = true → allowed state action)
    {state : State} {actions : List Action}
    (checked : checkSteps step check state actions = true) :
    EveryStep step allowed state actions := by
  induction actions generalizing state with
  | nil => trivial
  | cons action actions ih =>
      rw [checkSteps, Bool.and_eq_true] at checked
      refine ⟨sound state action checked.1, fun next taken => ih ?_⟩
      have rest := checked.2
      rwa [taken] at rest

/-- A run of allowed steps keeps the promises that the invariant gives for one step. -/
theorem everyStep_of_invariant {keeps : State → Action → Prop} (invariant : State → Prop)
    (promise : ∀ state action, invariant state → allowed state action → keeps state action)
    (preserved : ∀ state action next, invariant state → allowed state action →
      step state action = some next → invariant next)
    {state : State} {actions : List Action} (initially : invariant state)
    (meets : EveryStep step allowed state actions) : EveryStep step keeps state actions := by
  induction actions generalizing state with
  | nil => trivial
  | cons action actions ih =>
      refine ⟨promise state action initially meets.1, fun next taken => ?_⟩
      exact ih (preserved state action next initially meets.1 taken) (meets.2 next taken)

/-- The rule for an exact condition: where the invariant holds, one step keeps a promise
exactly when it is allowed, and the allowed steps keep the invariant. -/
theorem everyStep_iff {assumed keeps : State → Action → Prop} (invariant : State → Prop)
    (exact' : ∀ state action, invariant state → assumed state action →
      (keeps state action ↔ allowed state action))
    (preserved : ∀ state action next, invariant state → assumed state action →
      allowed state action → step state action = some next → invariant next)
    {state : State} {actions : List Action} (initially : invariant state)
    (meets : EveryStep step assumed state actions) :
    EveryStep step keeps state actions ↔ EveryStep step allowed state actions := by
  induction actions generalizing state with
  | nil => exact Iff.rfl
  | cons action actions ih =>
      have here := exact' state action initially meets.1
      constructor
      · intro ⟨kept, rest⟩
        have isAllowed := here.mp kept
        refine ⟨isAllowed, fun next taken => ?_⟩
        have holds := preserved state action next initially meets.1 isAllowed taken
        exact (ih holds (meets.2 next taken)).mp (rest next taken)
      · intro ⟨isAllowed, rest⟩
        refine ⟨here.mpr isAllowed, fun next taken => ?_⟩
        have holds := preserved state action next initially meets.1 isAllowed taken
        exact (ih holds (meets.2 next taken)).mpr (rest next taken)

/-- The run rule for a property that no run needs a condition for. -/
theorem exec_preserves (invariant : State → Prop)
    (preserved : ∀ state action next, invariant state →
      step state action = some next → invariant next)
    {state final : State} {actions : List Action}
    (initially : invariant state)
    (reached : exec step state actions = some final) : invariant final := by
  have meets : EveryStep step (fun _ _ => True) state actions :=
    everyStep_of_forall (fun _ _ => trivial) state actions
  exact exec_invariant invariant
    (fun state action next holds _ taken => preserved state action next holds taken)
    initially meets reached

/-- The conditional run rule, as a property of the states reached. -/
theorem ReachedBy.invariant (invariant : State → Prop)
    (preserved : ∀ state action next, invariant state → allowed state action →
      step state action = some next → invariant next)
    {start final : State} (reached : ReachedBy step allowed start final)
    (initially : invariant start) : invariant final := by
  obtain ⟨actions, ran, meets⟩ := reached
  exact exec_invariant invariant preserved initially meets ran

end Linux012.Lib
