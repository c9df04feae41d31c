import Mathlib.Logic.Basic

namespace GCore.Library

/-!
# Runs of a labelled transition system

A system is given by a step relation on states and labels.  A run is a finite
sequence of steps, and a guard singles out the steps of a run that meet a
condition on the state they leave.  Both notions are kept apart from any
particular system: an invariant is always proved for one step and then read
off at the end of a run by the rules of this module.
-/

universe u v

variable {State : Type u} {Label : Type v}

/-- Keep the steps whose label is admitted in the state they leave. -/
def Guarded (admits : State -> Label -> Prop) (step : State -> Label -> State -> Prop) :
    State -> Label -> State -> Prop :=
  fun before label after => admits before label /\ step before label after

/-- The states at the end of a finite run from `start`. -/
inductive Reached (step : State -> Label -> State -> Prop) (start : State) : State -> Prop
  | refl : Reached step start start
  | next {before after : State} {label : Label} (run : Reached step start before)
      (taken : step before label after) : Reached step start after

namespace Reached

variable {step other : State -> Label -> State -> Prop} {start state : State}

/-- What holds initially and survives each step holds at the end of every run. -/
theorem invariant {holds : State -> Prop} (run : Reached step start state) (initial : holds start)
    (preserved : ∀ before label after, holds before -> step before label after -> holds after) : holds state := by
  induction run with
  | refl => exact initial
  | next _ taken ih => exact preserved _ _ _ ih taken

/-- A list of requests that all succeed continues a run, if each of them is a step. -/
theorem foldlM {Failure : Type u} {exec : State -> Label -> Except Failure State} {labels : List Label} :
    ∀ {before : State}, Reached step start before ->
      (∀ here label there, label ∈ labels -> exec here label = .ok there -> step here label there) ->
      labels.foldlM exec before = .ok state -> Reached step start state := by
  induction labels with
  | nil =>
    intro before run _ finished
    cases finished
    exact run
  | cons label labels ih =>
    intro before run steps finished
    rw [List.foldlM_cons] at finished
    cases one : exec before label with
    | error failure =>
      rw [one] at finished
      cases finished
    | ok middle =>
      rw [one] at finished
      refine ih (run.next (steps before label middle List.mem_cons_self one)) ?_ finished
      intro here other there member
      exact steps here other there (List.mem_cons_of_mem label member)

/-- A list of requests that all succeed is a run. -/
theorem of_foldlM {Failure : Type u} {exec : State -> Label -> Except Failure State} {labels : List Label}
    (done : labels.foldlM exec start = .ok state) :
    Reached (fun before label after => exec before label = .ok after) start state :=
  foldlM .refl (fun _ _ _ _ taken => taken) done

end Reached

/-- A run together with the labels of its steps, in order. -/
inductive Trace (step : State -> Label -> State -> Prop) (start : State) :
    List Label -> State -> Prop
  | nil : Trace step start [] start
  | snoc {before after : State} {labels : List Label} {label : Label}
      (run : Trace step start labels before) (taken : step before label after) :
      Trace step start (labels ++ [label]) after

namespace Trace

variable {step : State -> Label -> State -> Prop} {start state : State} {labels : List Label}

/-- The invariant rule for a relation between the labels so far and the state. -/
theorem invariant {holds : List Label -> State -> Prop} (run : Trace step start labels state)
    (initial : holds [] start) (preserved : ∀ labels before label after, holds labels before ->
      step before label after -> holds (labels ++ [label]) after) : holds labels state := by
  induction run with
  | nil => exact initial
  | snoc _ taken ih => exact preserved _ _ _ _ ih taken

end Trace

end GCore.Library
