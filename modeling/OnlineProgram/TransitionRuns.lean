import Mathlib.Data.List.Basic

/-!
# Runs of deterministic transition functions

An interleaving of several parties is a list of actions folded through one
total transition function.  This file develops the two notions a safety proof
about such runs needs: a property required of every step that a run takes, and
an invariant carried from the start of the run to its end.  The results are
stated for arbitrary state and action types.
-/

namespace OnlineProgram.TransitionRuns

variable {State Action : Type*}

/-- The state in which a list of actions ends. -/
def run (step : Action → State → State) (actions : List Action)
    (state : State) : State :=
  actions.foldl (fun current action => step action current) state

@[simp]
theorem run_nil (step : Action → State → State) (state : State) :
    run step [] state = state :=
  rfl

@[simp]
theorem run_cons (step : Action → State → State) (action : Action)
    (actions : List Action) (state : State) :
    run step (action :: actions) state = run step actions (step action state) :=
  rfl

/-- `P` holds of every state and action at which the run takes a step. -/
def EveryStep (step : Action → State → State) (P : State → Action → Prop) :
    List Action → State → Prop
  | [], _ => True
  | action :: actions, state =>
      P state action ∧ EveryStep step P actions (step action state)

instance decidableEveryStep (step : Action → State → State)
    (P : State → Action → Prop) [∀ state, DecidablePred (P state)] :
    ∀ actions state, Decidable (EveryStep step P actions state)
  | [], _ => isTrue trivial
  | action :: actions, state =>
      haveI := decidableEveryStep step P actions (step action state)
      inferInstanceAs (Decidable (P state action ∧
        EveryStep step P actions (step action state)))

/-- A condition on the actions alone is a condition on the steps. -/
theorem everyStep_of_forall_mem {step : Action → State → State}
    {Q : Action → Prop} {actions : List Action}
    (all : ∀ action ∈ actions, Q action) (state : State) :
    EveryStep step (fun _ action => Q action) actions state := by
  induction actions generalizing state with
  | nil => trivial
  | cons action actions ih =>
      have first := all action (List.mem_cons_self ..)
      exact ⟨first, ih (fun other member => all other (List.mem_cons_of_mem _ member)) _⟩

theorem EveryStep.and {step : Action → State → State}
    {P Q : State → Action → Prop} {actions : List Action} {state : State}
    (left : EveryStep step P actions state)
    (right : EveryStep step Q actions state) :
    EveryStep step (fun state action => P state action ∧ Q state action)
      actions state := by
  induction actions generalizing state with
  | nil => trivial
  | cons action actions ih =>
      exact ⟨⟨left.1, right.1⟩, ih left.2 right.2⟩

/-- An invariant that every step keeps holds at the end of every run. -/
theorem run_invariant_of_step {step : Action → State → State}
    (Inv : State → Prop)
    (keeps : ∀ state action, Inv state → Inv (step action state))
    (actions : List Action) {state : State} (start : Inv state) :
    Inv (run step actions state) := by
  induction actions generalizing state with
  | nil => exact start
  | cons action actions ih => exact ih (keeps state action start)

/-- Under an invariant, two step properties that agree wherever the invariant
holds hold along the same runs, provided the steps that have the property keep
the invariant. -/
theorem everyStep_iff_of_invariant {step : Action → State → State}
    (Inv : State → Prop) {P Q : State → Action → Prop}
    (keeps : ∀ state action, Inv state → Q state action →
      Inv (step action state))
    (agree : ∀ state action, Inv state → (P state action ↔ Q state action))
    (actions : List Action) {state : State} (start : Inv state) :
    EveryStep step P actions state ↔ EveryStep step Q actions state := by
  induction actions generalizing state with
  | nil => exact Iff.rfl
  | cons action actions ih =>
      simp only [EveryStep]
      rw [agree state action start]
      exact and_congr_right fun conforms =>
        ih (keeps state action start conforms)

/-- A property of the state that one step extends by exactly a step condition
holds at the end of a run if and only if it held at the start and every step
met the condition. -/
theorem run_property_iff_everyStep {step : Action → State → State}
    (Inv Holds : State → Prop) {Q : State → Action → Prop}
    (keeps : ∀ state action, Inv state → Inv (step action state))
    (extends_ : ∀ state action, Inv state →
      (Holds (step action state) ↔ Holds state ∧ Q state action))
    (actions : List Action) {state : State} (start : Inv state) :
    Holds (run step actions state) ↔
      Holds state ∧ EveryStep step Q actions state := by
  induction actions generalizing state with
  | nil => simp [EveryStep]
  | cons action actions ih =>
      rw [run_cons, ih (keeps state action start),
        extends_ state action start, and_assoc]
      rfl

/-- `P` holds of every state that the run goes through, its first and last
included. -/
def EveryState (step : Action → State → State) (P : State → Prop) :
    List Action → State → Prop
  | [], state => P state
  | action :: actions, state =>
      P state ∧ EveryState step P actions (step action state)

instance decidableEveryState (step : Action → State → State)
    (P : State → Prop) [DecidablePred P] :
    ∀ actions state, Decidable (EveryState step P actions state)
  | [], state => inferInstanceAs (Decidable (P state))
  | action :: actions, state =>
      haveI := decidableEveryState step P actions (step action state)
      inferInstanceAs (Decidable (P state ∧
        EveryState step P actions (step action state)))

/-- Under an invariant, a state property that every step keeps exactly when it
meets a condition holds throughout a run exactly when every step meets the
condition, provided it holds at the start. -/
theorem everyState_iff_everyStep_of_invariant {step : Action → State → State}
    (Inv : State → Prop) {P : State → Prop} {Q : State → Action → Prop}
    (keeps : ∀ state action, Inv state → Inv (step action state))
    (keeps_iff : ∀ state action, Inv state → P state →
      (P (step action state) ↔ Q state action))
    (actions : List Action) {state : State} (start : Inv state) (holds : P state) :
    EveryState step P actions state ↔ EveryStep step Q actions state := by
  induction actions generalizing state with
  | nil => simp [EveryState, EveryStep, holds]
  | cons action actions ih =>
      have nextInv := keeps state action start
      simp only [EveryState, EveryStep]
      constructor
      · rintro ⟨-, rest⟩
        have next : P (step action state) := by
          cases actions with
          | nil => exact rest
          | cons second actions => exact rest.1
        exact ⟨(keeps_iff state action start holds).mp next,
          (ih nextInv next).mp rest⟩
      · rintro ⟨meets, rest⟩
        have next := (keeps_iff state action start holds).mpr meets
        exact ⟨holds, (ih nextInv next).mpr rest⟩

/-- The same without an invariant. -/
theorem everyState_iff_everyStep {step : Action → State → State}
    {P : State → Prop} {Q : State → Action → Prop}
    (keeps_iff : ∀ state action, P state → (P (step action state) ↔ Q state action))
    (actions : List Action) {state : State} (start : P state) :
    EveryState step P actions state ↔ EveryStep step Q actions state :=
  everyState_iff_everyStep_of_invariant (fun _ => True) (fun _ _ _ => trivial)
    (fun state action _ holds => keeps_iff state action holds) actions trivial start

/-- A property that follows from an invariant of the conforming steps holds
throughout every conforming run. -/
theorem everyState_of_conforming {step : Action → State → State}
    (Inv : State → Prop) {P : State → Prop} {Conforms : State → Action → Prop}
    (keeps : ∀ state action, Inv state → Conforms state action →
      Inv (step action state))
    (implies : ∀ state, Inv state → P state)
    {actions : List Action} {state : State} (start : Inv state)
    (conforms : EveryStep step Conforms actions state) :
    EveryState step P actions state := by
  induction actions generalizing state with
  | nil => exact implies state start
  | cons action actions ih =>
      exact ⟨implies state start, ih (keeps state action start conforms.1) conforms.2⟩

end OnlineProgram.TransitionRuns
