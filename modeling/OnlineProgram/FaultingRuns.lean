import OnlineProgram.TransitionRuns

/-!
# Runs whose steps may fault

A transition function that returns a state or a fault, and the runs that no
fault ends: an invariant of the steps is one of the runs, and a run may be seen
as a run of another system.  The last section is about runs that obey a schedule
of inputs with waiting between them.  How much waiting an input needs is shown by
a property for every number of counted actions that are left.  The results are
stated for arbitrary state, action, input and fault types.
-/

namespace OnlineProgram.FaultingRuns

universe u

variable {Cause State Action : Type*}

/-- The state in which a list of actions ends, or the first fault. -/
def run (step : Action → State → Except Cause State) :
    List Action → State → Except Cause State
  | [], state => .ok state
  | action :: actions, state => step action state >>= run step actions

section Composition

variable {step : Action → State → Except Cause State}

/-- What returns in two steps returns in each. -/
theorem steps_of_bind_eq_ok {α β : Type u} {first : Except Cause α} {next : α → Except Cause β}
    {result : β} (returns : first >>= next = .ok result) :
    ∃ value, first = .ok value ∧ next value = .ok result := by
  cases first with
  | error cause => cases returns
  | ok value => exact ⟨value, rfl, returns⟩

theorem run_cons_of_step {action : Action} {state next : State}
    (steps : step action state = .ok next) (actions : List Action) :
    run step (action :: actions) state = run step actions next := by
  rw [run, steps]
  rfl

theorem run_append {first : List Action} {state middle : State}
    (runs : run step first state = .ok middle) (last : List Action) :
    run step (first ++ last) state = run step last middle := by
  induction first generalizing state with
  | nil =>
      obtain rfl := Except.ok.inj runs
      rfl
  | cons action first ih =>
      obtain ⟨next, steps, rest⟩ := steps_of_bind_eq_ok runs
      rw [List.cons_append, run_cons_of_step steps]
      exact ih rest

end Composition

section Invariants

variable {step : Action → State → Except Cause State} {Allowed : Action → Prop}
  {Inv : State → Prop}

/-- Where every allowed step returns and keeps the invariant, every allowed run
does. -/
theorem run_keeps
    (keeps : ∀ state action, Inv state → Allowed action →
      ∃ next, step action state = .ok next ∧ Inv next)
    {actions : List Action} (allowed : ∀ action ∈ actions, Allowed action) {state : State}
    (start : Inv state) : ∃ final, run step actions state = .ok final ∧ Inv final := by
  induction actions generalizing state with
  | nil => exact ⟨state, rfl, start⟩
  | cons action actions ih =>
      obtain ⟨next, steps, keptNext⟩ := keeps state action start (allowed action (by simp))
      obtain ⟨final, runs, keptFinal⟩ := ih (fun other member => allowed other (by simp [member]))
        keptNext
      exact ⟨final, (run_cons_of_step steps actions).trans runs, keptFinal⟩

end Invariants

section Projections

variable {step : Action → State → Except Cause State} {View ViewAction : Type*}
  {viewStep : ViewAction → View → View}

/-- Where a step is a run of another system as far as a part of the state goes, a
run is one. -/
theorem run_projects (view : State → View)
    (projects : ∀ state action next, step action state = .ok next →
      ∃ actions, view next = TransitionRuns.run viewStep actions (view state))
    {actions : List Action} {state final : State} (runs : run step actions state = .ok final) :
    ∃ viewActions, view final = TransitionRuns.run viewStep viewActions (view state) := by
  induction actions generalizing state with
  | nil =>
      obtain rfl := Except.ok.inj runs
      exact ⟨[], rfl⟩
  | cons action actions ih =>
      obtain ⟨next, steps, rest⟩ := steps_of_bind_eq_ok runs
      obtain ⟨first, firstIs⟩ := projects state action next steps
      obtain ⟨last, lastIs⟩ := ih rest
      refine ⟨first ++ last, ?_⟩
      rw [lastIs, firstIs, TransitionRuns.run, TransitionRuns.run, TransitionRuns.run,
        List.foldl_append]

end Projections

section Schedules

variable {Input : Type*}

/-- The inputs of the schedule are given in order, and after each of them at least
so many of the counted actions come as the schedule asks for.  All that comes
between the inputs is waiting. -/
inductive Obeys (give : Input → Action) (Waits : Action → Prop) (counts : Action → Bool) :
    List (Input × Nat) → List Action → Prop
  | nil : Obeys give Waits counts [] []
  | cons {input least schedule waiting actions} (waits : ∀ action ∈ waiting, Waits action)
      (enough : least ≤ waiting.countP counts)
      (rest : Obeys give Waits counts schedule actions) :
      Obeys give Waits counts ((input, least) :: schedule) (give input :: (waiting ++ actions))

/-- From every state with the first property, obeying the schedule leads to one
with the second. -/
def Leads (step : Action → State → Except Cause State) (give : Input → Action)
    (Waits : Action → Prop) (counts : Action → Bool) (schedule : List (Input × Nat))
    (Before After : State → Prop) : Prop :=
  ∀ state, Before state → ∀ actions, Obeys give Waits counts schedule actions →
    ∃ final, run step actions state = .ok final ∧ After final

/-- Waiting returns, and every counted action takes one from what is left, until
nothing is. -/
def CountsDown (step : Action → State → Except Cause State) (Waits : Action → Prop)
    (counts : Action → Bool) (Left : Nat → State → Prop) : Prop :=
  ∀ left state action, Left left state → Waits action →
    ∃ next, step action state = .ok next ∧
      Left (if counts action = true then left - 1 else left) next

variable {step : Action → State → Except Cause State} {give : Input → Action}
  {Waits : Action → Prop} {counts : Action → Bool} {Before After : State → Prop}
  {Left : Nat → State → Prop}

/-- Every schedule can be obeyed, by waiting no longer than it asks for. -/
theorem Obeys.replicate {wait : Action} (waits : Waits wait) (counted : counts wait = true)
    (schedule : List (Input × Nat)) :
    Obeys give Waits counts schedule
      (schedule.flatMap fun entry => give entry.1 :: List.replicate entry.2 wait) := by
  induction schedule with
  | nil => exact .nil
  | cons entry schedule ih =>
      rw [List.flatMap_cons, List.cons_append]
      have enough : entry.2 ≤ (List.replicate entry.2 wait).countP counts := by
        simp [List.countP_replicate, counted]
      refine .cons (fun action member => ?_) enough ih
      rw [List.eq_of_mem_replicate member]
      exact waits

theorem CountsDown.run (countsDown : CountsDown step Waits counts Left) {waiting : List Action}
    (waits : ∀ action ∈ waiting, Waits action) {left : Nat} {state : State}
    (holds : Left left state) :
    ∃ final, FaultingRuns.run step waiting state = .ok final ∧
      Left (left - waiting.countP counts) final := by
  induction waiting generalizing left state with
  | nil => exact ⟨state, rfl, holds⟩
  | cons action waiting ih =>
      obtain ⟨next, steps, holdsNext⟩ := countsDown left state action holds (waits action (by simp))
      obtain ⟨final, runs, holdsFinal⟩ :=
        ih (fun other member => waits other (by simp [member])) holdsNext
      have fewer : (if counts action = true then left - 1 else left) - waiting.countP counts =
          left - (action :: waiting).countP counts := by
        rw [List.countP_cons]
        split
        · omega
        · omega
      rw [fewer] at holdsFinal
      exact ⟨final, (run_cons_of_step steps waiting).trans runs, holdsFinal⟩

theorem Leads.nil : Leads step give Waits counts [] Before Before := by
  intro state holds actions obeys
  cases obeys
  exact ⟨state, rfl, holds⟩

/-- An input after which no more is left than the schedule waits for. -/
theorem Leads.cons {input : Input} {least : Nat} {schedule : List (Input × Nat)}
    (countsDown : CountsDown step Waits counts Left)
    (gives : ∀ state, Before state →
      ∃ next left, step (give input) state = .ok next ∧ left ≤ least ∧ Left left next)
    (rest : Leads step give Waits counts schedule (Left 0) After) :
    Leads step give Waits counts ((input, least) :: schedule) Before After := by
  intro state holds actions obeys
  cases obeys with
  | @cons _ _ _ waiting later waits enough laterObeys =>
      obtain ⟨next, left, steps, atMost, holdsNext⟩ := gives state holds
      obtain ⟨middle, waitingRuns, holdsMiddle⟩ := countsDown.run waits holdsNext
      rw [Nat.sub_eq_zero_of_le (Nat.le_trans atMost enough)] at holdsMiddle
      obtain ⟨final, laterRuns, holdsFinal⟩ := rest middle holdsMiddle later laterObeys
      refine ⟨final, ?_, holdsFinal⟩
      rw [run_cons_of_step steps, run_append waitingRuns, laterRuns]

end Schedules

end OnlineProgram.FaultingRuns
