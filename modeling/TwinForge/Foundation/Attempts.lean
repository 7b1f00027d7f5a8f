import TwinForge.Foundation.Guards

/-! # Attempts

An attempt may fail, and what it did to the state stays done. How an attempt ended is read
off step by step: it went on from a step that succeeded, or it ended with a step that failed.
-/

namespace TwinForge

/-- A computation on a state that may fail; a failure keeps the state it was reached in. -/
def Attempt (State Failure A : Type) : Type := State → Except Failure A × State

namespace Attempt

variable {State Failure A B : Type}

instance : Monad (Attempt State Failure) where
  pure a := fun state => (.ok a, state)
  bind first next := fun state =>
    match first state with
    | (.ok a, middle) => next a middle
    | (.error failure, final) => (.error failure, final)

def fail (failure : Failure) : Attempt State Failure A := fun state => (.error failure, state)

def get : Attempt State Failure State := fun state => (.ok state, state)

def set (state : State) : Attempt State Failure Unit := fun _ => (.ok (), state)

/-- `if condition: raise failure`. -/
def refuse (condition : Prop) [Decidable condition] (failure : Failure) :
    Attempt State Failure Unit :=
  if condition then fail failure else pure ()

def ofExcept (outcome : Except Failure A) : Attempt State Failure A := fun state => (outcome, state)

variable {state final : State}

theorem pure_eq {a : A} {outcome : Except Failure A} :
    (pure a : Attempt State Failure A) state = (outcome, final) ↔
      outcome = .ok a ∧ final = state := by
  show (Except.ok a, state) = (outcome, final) ↔ _
  rw [Prod.mk.injEq, eq_comm, @eq_comm _ state]

theorem fail_eq {failure : Failure} {outcome : Except Failure A} :
    (fail failure : Attempt State Failure A) state = (outcome, final) ↔
      outcome = .error failure ∧ final = state := by
  show (Except.error failure, state) = (outcome, final) ↔ _
  rw [Prod.mk.injEq, eq_comm, @eq_comm _ state]

theorem bind_eq {first : Attempt State Failure A} {next : A → Attempt State Failure B}
    {outcome : Except Failure B} :
    (first >>= next) state = (outcome, final) ↔
      (∃ a middle, first state = (.ok a, middle) ∧ next a middle = (outcome, final)) ∨
      ∃ failure, first state = (.error failure, final) ∧ outcome = .error failure := by
  show (match first state with
    | (.ok a, middle) => next a middle
    | (.error failure, final) => (.error failure, final)) = (outcome, final) ↔ _
  obtain ⟨result, middle⟩ := first state
  cases result with
  | ok a => simp
  | error failure =>
    simp only [Prod.mk.injEq, reduceCtorEq, false_and, exists_false, false_or]
    constructor
    · intro h
      exact ⟨failure, ⟨rfl, h.2⟩, h.1.symm⟩
    · intro h
      obtain ⟨_, ⟨hfailure, hfinal⟩, houtcome⟩ := h
      cases hfailure
      exact ⟨houtcome.symm, hfinal⟩

theorem get_bind {next : State → Attempt State Failure A} :
    (get >>= next) state = next state state := rfl

theorem set_bind {changed : State} {next : Unit → Attempt State Failure A} :
    (set changed >>= next) state = next () changed := rfl

theorem refuse_eq {condition : Prop} [Decidable condition] {failure : Failure}
    {outcome : Except Failure Unit} :
    refuse condition failure state = (outcome, final) ↔
      final = state ∧ ((¬ condition ∧ outcome = .ok ()) ∨
        (condition ∧ outcome = .error failure)) := by
  unfold refuse
  split
  · next h =>
    rw [fail_eq]
    tauto
  · next h =>
    rw [pure_eq]
    tauto

end Attempt

end TwinForge
