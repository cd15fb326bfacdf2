import Mathlib.Logic.Relation

set_option autoImplicit false

/- Finite runs of a guarded, partial transition function. A run records the
events that were taken, oldest first; the guard is what the environment of the
system promises and never part of the transition itself. -/
namespace Spate.Transition

variable {σ ε : Type}

/-- The runs of `step` from `start` in which every event met `allowed` in the
state it was taken from. -/
inductive Run (step : σ → ε → Option σ) (allowed : σ → ε → Prop) (start : σ) :
    List ε → σ → Prop
  | nil : Run step allowed start [] start
  | snoc {events : List ε} {state next : σ} {event : ε}
      (earlier : Run step allowed start events state)
      (permitted : allowed state event)
      (taken : step state event = some next) :
      Run step allowed start (events ++ [event]) next

variable {step : σ → ε → Option σ} {allowed : σ → ε → Prop} {start : σ}

/-- What holds at the start and is kept by every permitted step holds in every
state a run reaches. -/
theorem Run.invariant {events : List ε} {state : σ} (P : σ → Prop)
    (run : Run step allowed start events state) (initially : P start)
    (kept : ∀ {before after : σ} {event : ε}, P before → allowed before event →
      step before event = some after → P after) : P state := by
  induction run with
  | nil => exact initially
  | snoc _ permitted taken ih => exact kept ih permitted taken

/-- Runs compose: a run from a reached state extends the run that reached it. -/
theorem Run.append {first second : List ε} {middle last : σ}
    (left : Run step allowed start first middle)
    (right : Run step allowed middle second last) :
    Run step allowed start (first ++ second) last := by
  induction right with
  | nil => simpa using left
  | snoc _ permitted taken ih =>
    rw [← List.append_assoc]
    exact .snoc ih permitted taken

/-- Executes a list of events, checking the guard at each of them. -/
def replay (step : σ → ε → Option σ) (allowed : σ → ε → Prop)
    [∀ state event, Decidable (allowed state event)] : σ → List ε → Option σ
  | state, [] => some state
  | state, event :: rest =>
    if allowed state event then
      match step state event with
      | some next => replay step allowed next rest
      | none => none
    else none

/-- A list of events that executes is a run. -/
theorem run_of_replay [∀ state event, Decidable (allowed state event)]
    (events : List ε) (first last : σ)
    (executes : replay step allowed first events = some last) :
    Run step allowed first events last := by
  induction events generalizing first with
  | nil =>
    obtain rfl : first = last := by simpa only [replay, Option.some.injEq] using executes
    exact .nil
  | cons event rest ih =>
    simp only [replay] at executes
    split at executes
    · rename_i permitted
      split at executes
      · rename_i next taken
        have head : Run step allowed first [event] next := .snoc .nil permitted taken
        exact head.append (ih next executes)
      · cases executes
    · cases executes

end Spate.Transition
