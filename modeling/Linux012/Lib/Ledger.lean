import Mathlib.Algebra.Order.Group.Multiset
import Mathlib.Data.Multiset.AddSub
import Linux012.Lib.StateExcept

/-!
# Operations that account for what they take

An operation runs on a state in which some resources are held.  It is given a part of them, and
has to account for that part: when it returns, the resources that are held are those that its
result stands for, and all others as before.  It may also stop, as far as that is allowed.  As an
operation is never told what else is held, every such law holds in any larger context, and the
law of an operation is put together from those of its parts.
-/

namespace Linux012.Lib

universe u v w

/-- What is held in a state, which states are considered, and how an operation may stop. -/
structure Ledger (State : Type u) (Resource : Type v) (Stop : Type w) where
  held : State → Multiset Resource
  invariant : State → Prop
  mayStop : Stop → Prop

namespace Ledger

variable {State : Type u} {Resource : Type v} {Stop : Type u} {α β : Type u}
variable (ledger : Ledger State Resource Stop)

/-- Given `given` out of what is held, `prog` leaves what `kept` says of its result instead. -/
def Balanced (given : Multiset Resource) (prog : StateT State (Except Stop) α)
    (kept : α → Multiset Resource) : Prop :=
  ∀ state rest, ledger.invariant state → ledger.held state = given + rest →
    match prog.run state with
    | .error stop => ledger.mayStop stop
    | .ok (result, next) =>
        ledger.invariant next ∧ ledger.held next = kept result + rest

variable {ledger} {given : Multiset Resource} {kept : α → Multiset Resource}

theorem Balanced.pure {value : α} (same : kept value = given) :
    ledger.Balanced given (pure value) kept := by
  intro state rest holds isHeld
  exact ⟨holds, by rw [isHeld, same]⟩

theorem Balanced.throw {stop : Stop} (allowed : ledger.mayStop stop) :
    ledger.Balanced given (throw stop : StateT State (Except Stop) α) kept := by
  intro state rest holds isHeld
  exact allowed

theorem Balanced.bind {middle : β → Multiset Resource} {first : StateT State (Except Stop) β}
    {next : β → StateT State (Except Stop) α} (begins : ledger.Balanced given first middle)
    (continues : ∀ value, ledger.Balanced (middle value) (next value) kept) :
    ledger.Balanced given (first >>= next) kept := by
  intro state rest holds isHeld
  have ran := begins state rest holds isHeld
  rw [StateT.run_bind]
  cases result : first.run state with
  | error stop =>
      rw [result] at ran
      exact ran
  | ok reached =>
      rw [result] at ran
      exact continues reached.1 reached.2 rest ran.1 ran.2

/-- What an operation is not told of stays. -/
theorem Balanced.frame {prog : StateT State (Except Stop) α} (extra : Multiset Resource)
    (balanced : ledger.Balanced given prog kept) :
    ledger.Balanced (given + extra) prog fun result => kept result + extra := by
  intro state rest holds isHeld
  rw [add_assoc] at isHeld
  have ran := balanced state (extra + rest) holds isHeld
  cases result : prog.run state with
  | error stop =>
      rw [result] at ran
      exact ran
  | ok reached =>
      rw [result] at ran
      exact ⟨ran.1, by rw [ran.2, add_assoc]⟩

/-- What is given and what is kept may be written in another way. -/
theorem Balanced.congr {given' : Multiset Resource} {kept' : α → Multiset Resource}
    {prog : StateT State (Except Stop) α} (balanced : ledger.Balanced given' prog kept')
    (sameGiven : given = given') (sameKept : ∀ result, kept result = kept' result) :
    ledger.Balanced given prog kept := by
  intro state rest holds isHeld
  rw [sameGiven] at isHeld
  have ran := balanced state rest holds isHeld
  cases result : prog.run state with
  | error stop =>
      rw [result] at ran
      exact ran
  | ok reached =>
      rw [result] at ran
      exact ⟨ran.1, by rw [ran.2, sameKept]⟩

/-- Reading the state takes nothing. -/
theorem Balanced.get_bind {next : State → StateT State (Except Stop) α}
    (continues : ∀ state, ledger.invariant state →
      ledger.Balanced given (next state) kept) :
    ledger.Balanced given (get >>= next) kept := by
  intro state rest holds isHeld
  exact continues state holds state rest holds isHeld

/-- A step that gives back a part of what is given, before the others. -/
theorem Balanced.spend {spent left : Multiset Resource} {first : StateT State (Except Stop) PUnit}
    {next : PUnit → StateT State (Except Stop) α}
    (begins : ledger.Balanced spent first fun _ => 0) (parts : given = spent + left)
    (continues : ledger.Balanced left (next PUnit.unit) kept) :
    ledger.Balanced given (first >>= next) kept := by
  have framed : ledger.Balanced given first fun _ => left :=
    (begins.frame left).congr parts fun _ => (zero_add left).symm
  exact framed.bind fun _ => continues

end Ledger

end Linux012.Lib
