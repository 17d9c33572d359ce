import Mathlib.Data.List.Basic

/-!
# Histories of observed events

A history lists events with the newest first, so the tail of a history is what
had happened when its head occurred.  The notions below let a temporal
property be stated on the history alone: a requirement on every event in view
of its own past, the events since the last marking event, the most recent
value that events carry, and the position of an event as its time stamp.
-/

namespace OnlineProgram.EventHistory

variable {Event Value : Type*}

/-- Every event of the history meets `P` in view of the events before it. -/
def Everywhen (P : Event → List Event → Prop) : List Event → Prop
  | [] => True
  | event :: past => P event past ∧ Everywhen P past

instance decidableEverywhen (P : Event → List Event → Prop)
    [∀ event, DecidablePred (P event)] : DecidablePred (Everywhen P)
  | [] => isTrue trivial
  | event :: past =>
      haveI := decidableEverywhen P past
      inferInstanceAs (Decidable (P event past ∧ Everywhen P past))

@[simp]
theorem everywhen_nil (P : Event → List Event → Prop) : Everywhen P [] :=
  trivial

@[simp]
theorem everywhen_cons (P : Event → List Event → Prop) (event : Event)
    (past : List Event) :
    Everywhen P (event :: past) ↔ P event past ∧ Everywhen P past :=
  Iff.rfl

/-- A requirement met throughout a history was met throughout it earlier. -/
theorem Everywhen.of_suffix {P : Event → List Event → Prop}
    {earlier history : List Event} (everywhen : Everywhen P history)
    (suffix : earlier <:+ history) : Everywhen P earlier := by
  obtain ⟨later, rfl⟩ := suffix
  induction later with
  | nil => exact everywhen
  | cons event later ih => exact ih everywhen.2

/-- Two requirements that agree wherever a third is met hold throughout the
same histories. -/
theorem everywhen_congr {P Q R : Event → List Event → Prop}
    {history : List Event} (everywhen : Everywhen R history)
    (agree : ∀ event past, R event past → (P event past ↔ Q event past)) :
    Everywhen P history ↔ Everywhen Q history := by
  induction history with
  | nil => exact Iff.rfl
  | cons event past ih =>
      exact and_congr (agree event past everywhen.1) (ih everywhen.2)

/-- The events after the last one that `mark` selects. -/
def since (mark : Event → Bool) (history : List Event) : List Event :=
  history.takeWhile fun event => !mark event

@[simp]
theorem since_nil (mark : Event → Bool) : since mark [] = [] :=
  rfl

theorem since_cons (mark : Event → Bool) (event : Event)
    (past : List Event) :
    since mark (event :: past) =
      if mark event then [] else event :: since mark past := by
  cases marked : mark event <;> simp [since, marked]

theorem since_append {mark : Event → Bool} {later : List Event}
    (unmarked : ∀ event ∈ later, mark event = false) (earlier : List Event) :
    since mark (later ++ earlier) = later ++ since mark earlier := by
  rw [since, List.takeWhile_append_of_pos]
  · rfl
  · intro event member
    rw [unmarked event member]
    rfl

/-- The value carried by the most recent event that `read` accepts. -/
def latest (read : Event → Option Value) (history : List Event) :
    Option Value :=
  history.findSome? read

@[simp]
theorem latest_nil (read : Event → Option Value) :
    latest read [] = none :=
  rfl

theorem latest_cons (read : Event → Option Value) (event : Event)
    (past : List Event) :
    latest read (event :: past) = (read event).or (latest read past) := by
  cases value : read event <;> simp [latest, value]

/-- The history as it was when exactly `time` events had happened. -/
def pastAt (history : List Event) (time : Nat) : List Event :=
  history.drop (history.length - time)

/-- The events that occurred when at least `time` events had happened. -/
def eventsFrom (history : List Event) (time : Nat) : List Event :=
  history.take (history.length - time)

/-- The event that occurred when exactly `time` events had happened. -/
def eventAt (history : List Event) (time : Nat) : Option Event :=
  history.reverse[time]?

theorem eventsFrom_append_pastAt (history : List Event) (time : Nat) :
    eventsFrom history time ++ pastAt history time = history :=
  List.take_append_drop _ _

theorem pastAt_suffix (history : List Event) (time : Nat) :
    pastAt history time <:+ history :=
  List.drop_suffix _ _

theorem eventAt_lt {history : List Event} {time : Nat} {event : Event}
    (found : eventAt history time = some event) : time < history.length := by
  have bounded := (List.getElem?_eq_some_iff.mp found).1
  simpa using bounded

theorem pastAt_cons {history : List Event} {time : Nat} (event : Event)
    (earlier : time ≤ history.length) :
    pastAt (event :: history) time = pastAt history time := by
  have length : (event :: history).length - time =
      (history.length - time) + 1 := by
    rw [List.length_cons]
    omega
  rw [pastAt, length, List.drop_succ_cons]
  rfl

/-- Later events do not change what happened at an earlier time. -/
theorem eventAt_cons {history : List Event} {time : Nat} (event : Event)
    (earlier : time < history.length) :
    eventAt (event :: history) time = eventAt history time := by
  have bounded : time < history.reverse.length := by simpa using earlier
  rw [eventAt, List.reverse_cons, List.getElem?_append_left bounded]
  rfl

/-- A history splits at the event of any time. -/
theorem split_of_eventAt {history : List Event} {time : Nat} {event : Event}
    (found : eventAt history time = some event) :
    event :: pastAt history time <:+ history := by
  have bounded := eventAt_lt found
  have position : history.length - (time + 1) < history.length := by omega
  have value : history[history.length - (time + 1)] = event := by
    rw [eventAt, List.getElem?_reverse bounded] at found
    rw [List.getElem?_eq_some_iff] at found
    obtain ⟨_, found⟩ := found
    rw [← found]
    congr 1
    omega
  have split := List.drop_eq_getElem_cons position
  have next : history.length - (time + 1) + 1 = history.length - time := by omega
  rw [value, next] at split
  rw [pastAt, ← split]
  exact List.drop_suffix _ _

/-- A requirement met throughout a history was met by the event of any time in
view of its past. -/
theorem Everywhen.eventAt {P : Event → List Event → Prop}
    {history : List Event} {time : Nat} {event : Event}
    (everywhen : Everywhen P history)
    (found : eventAt history time = some event) :
    P event (pastAt history time) :=
  (everywhen.of_suffix (split_of_eventAt found)).1

end OnlineProgram.EventHistory
