import Mathlib

/-!
# Transition systems

The states a system can reach from its initial states, and the induction over its runs.
A loop is such a system too: its body takes the variables of the loop to those of the next
round, until it ends with a result.
-/

namespace Transition

variable {State : Type*}

/-- The states at the end of a finite run. -/
inductive Reachable (initial : State → Prop) (step : State → State → Prop) : State → Prop
  | start {state : State} (h : initial state) : Reachable initial step state
  | next {state after : State} (h : Reachable initial step state) (hstep : step state after) :
      Reachable initial step after

variable {initial : State → Prop} {step : State → State → Prop} {state : State}

/-- What holds initially and is kept by every step holds along every run. -/
theorem Reachable.invariant {invariant : State → Prop}
    (hstart : ∀ state, initial state → invariant state)
    (hnext : ∀ state after, invariant state → step state after → invariant after)
    (h : Reachable initial step state) : invariant state := by
  induction h with
  | start h => exact hstart _ h
  | next _ hstep ih => exact hnext _ _ ih hstep

/-- More steps reach more states. -/
theorem Reachable.mono {step' : State → State → Prop} (h : Reachable initial step state)
    (hstep : ∀ state after, step state after → step' state after) :
    Reachable initial step' state := by
  induction h with
  | start h => exact .start h
  | next _ h ih => exact .next ih (hstep _ _ h)

theorem Reachable.trans {after : State} (h : Reachable initial step state)
    (hsteps : Relation.ReflTransGen step state after) : Reachable initial step after := by
  induction hsteps with
  | refl => exact h
  | tail _ hstep ih => exact .next ih hstep

/-! ## Loops -/

variable {Result : Type*} {body : State → Result ⊕ State}

/-- `Ends body state result`: started with the variables `state`, the loop ends with `result`. -/
inductive Ends (body : State → Result ⊕ State) : State → Result → Prop
  | now {state : State} {result : Result} (h : body state = .inl result) : Ends body state result
  | later {state after : State} {result : Result} (h : body state = .inr after)
      (hrest : Ends body after result) : Ends body state result

/-- A loop ends in one way only. -/
theorem Ends.unique {result other : Result} (h : Ends body state result)
    (hother : Ends body state other) : result = other := by
  induction h with
  | now h =>
      cases hother with
      | now hother => exact Sum.inl.inj (h.symm.trans hother)
      | later hother _ => exact absurd (h.symm.trans hother) Sum.inl_ne_inr
  | later h _ ih =>
      cases hother with
      | now hother => exact absurd (hother.symm.trans h) Sum.inl_ne_inr
      | later hother hrest =>
          obtain rfl := Sum.inr.inj (h.symm.trans hother)
          exact ih hrest

theorem Ends.iff_eq {result other : Result} (h : Ends body state result) :
    Ends body state other ↔ other = result := by
  constructor
  · exact fun hother => hother.unique h
  · rintro rfl
    exact h

/-- The variables with which a round of the loop begins. -/
abbrev Heads (body : State → Result ⊕ State) (start : State) : State → Prop :=
  Reachable (fun state => state = start) fun state after => body state = .inr after

end Transition
