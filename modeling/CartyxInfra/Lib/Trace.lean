/-
Runs of a state machine with their history: an event takes a state to the
next, with effects, and a run is remembered as its moments in order.

`Run.invariant` is the induction over a run, for what ties a state to the
history that led there; `Run.moment` finds the run that led to a moment, so a
property of moments follows from the invariant and one step.
-/
import Mathlib.Data.List.Basic

namespace CartyxInfra

/-- An event at a state, what it did and the state it left. -/
structure Moment (State Event Effect : Type) where
  before : State
  event : Event
  effects : List Effect
  after : State

variable {State Event Effect : Type}

/-- The histories from a state, with the states they lead to. -/
inductive Run (step : State → Event → Option (State × List Effect)) (start : State) :
    List (Moment State Event Effect) → State → Prop
  | start : Run step start [] start
  | step : Run step start history before → step before event = some (after, effects) →
      Run step start (history ++ [⟨before, event, effects, after⟩]) after

namespace Run

variable {step : State → Event → Option (State × List Effect)} {start s : State}
  {history earlier later : List (Moment State Event Effect)} {m : Moment State Event Effect}

theorem invariant {I : List (Moment State Event Effect) → State → Prop} (hstart : I [] start)
    (hstep : ∀ history before event after effects, I history before →
      step before event = some (after, effects) →
      I (history ++ [⟨before, event, effects, after⟩]) after)
    (h : Run step start history s) : I history s := by
  induction h with
  | start => exact hstart
  | step _ hs ih => exact hstep _ _ _ _ _ ih hs

theorem moment (h : Run step start history s) : history = earlier ++ m :: later →
    Run step start earlier m.before ∧ step m.before m.event = some (m.after, m.effects) := by
  induction h generalizing later with
  | start =>
    intro he
    simp at he
  | step hr hs ih =>
    intro he
    rcases List.eq_nil_or_concat later with rfl | ⟨later, last, rfl⟩
    · obtain ⟨rfl, hm⟩ := List.append_inj' he rfl
      simp only [List.cons.injEq, and_true] at hm
      subst hm
      exact ⟨hr, hs⟩
    · rw [List.concat_eq_append, ← List.cons_append, ← List.append_assoc] at he
      exact ih (List.append_inj' he rfl).1

/-- The moments of the events of a list, where all of them can come, and the state they lead to. -/
def replay (step : State → Event → Option (State × List Effect)) (s : State) :
    List Event → Option (List (Moment State Event Effect) × State)
  | [] => some ([], s)
  | event :: rest =>
    (step s event).bind fun next =>
      (replay step next.1 rest).map fun run => (⟨s, event, next.2, next.1⟩ :: run.1, run.2)

theorem of_replay {step : State → Event → Option (State × List Effect)} :
    ∀ {events : List Event} {s s' : State} {earlier later : List (Moment State Event Effect)},
      Run step start earlier s → replay step s events = some (later, s') → Run step start (earlier ++ later) s'
  | [], s, s', earlier, later, h, hr => by
    cases hr
    simpa using h
  | event :: rest, s, s', earlier, later, h, hr => by
    simp only [replay, Option.bind_eq_some_iff, Option.map_eq_some_iff, Prod.mk.injEq, Prod.exists] at hr
    obtain ⟨after, effects, hs, later', _, hr, rfl, rfl⟩ := hr
    have hrest := of_replay (h.step hs) hr
    rwa [List.append_assoc] at hrest

end Run

end CartyxInfra
