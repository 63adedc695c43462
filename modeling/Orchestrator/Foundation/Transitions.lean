import Mathlib.Data.List.Basic

/-! # Runs of a transition function

A run takes events in any order that the transition function allows. What is kept by every
allowed transition holds along the run.
-/

namespace Orchestrator.Foundation

variable {σ ε : Type}

/-- One transition: the state before, the event and the state after. -/
structure Transition (σ ε : Type) where
  before : σ
  event : ε
  after : σ
  deriving DecidableEq

/-- A run from a state, with its transitions, to a state. -/
inductive Run (step : ε → σ → Option σ) (start : σ) : List (Transition σ ε) → σ → Prop
  | start : Run step start [] start
  | next {transitions : List (Transition σ ε)} {event : ε} {before after : σ}
      (run : Run step start transitions before) (moved : step event before = some after) :
      Run step start (transitions ++ [⟨before, event, after⟩]) after

namespace Run

variable {step : ε → σ → Option σ} {start last : σ} {transitions : List (Transition σ ε)}

/-- Every transition of a run is one of the transition function. -/
theorem moved_of_mem (run : Run step start transitions last) {transition : Transition σ ε}
    (among : transition ∈ transitions) :
    step transition.event transition.before = some transition.after := by
  induction run with
  | start => cases among
  | next run moved ih =>
      rcases List.mem_append.mp among with earlier | here
      · exact ih earlier
      · rw [List.mem_singleton.mp here]
        exact moved

/-- An invariant that every allowed transition keeps holds before each of them, and at the end. -/
theorem invariant {invariant : σ → Prop} {allowed : Transition σ ε → Prop}
    (run : Run step start transitions last) (initial : invariant start)
    (keeps : ∀ transition : Transition σ ε,
      step transition.event transition.before = some transition.after → allowed transition →
        invariant transition.before → invariant transition.after)
    (all : ∀ transition ∈ transitions, allowed transition) :
    (∀ transition ∈ transitions, invariant transition.before) ∧ invariant last := by
  induction run with
  | start => exact ⟨fun _ among => absurd among List.not_mem_nil, initial⟩
  | next run moved ih =>
      obtain ⟨before, here⟩ := ih fun transition among =>
        all transition (List.mem_append_left _ among)
      refine ⟨fun transition among => ?_, ?_⟩
      · rcases List.mem_append.mp among with earlier | last
        · exact before transition earlier
        · rw [List.mem_singleton.mp last]
          exact here
      · have permitted := all _ (List.mem_append_right _ List.mem_cons_self)
        exact keeps _ moved permitted here

end Run

/-- The transitions of a list of events, and the last state. -/
def replay (step : ε → σ → Option σ) : σ → List ε → Option (List (Transition σ ε) × σ)
  | state, [] => some ([], state)
  | state, event :: events =>
      match step event state with
      | none => none
      | some next => (replay step next events).map fun rest =>
          (⟨state, event, next⟩ :: rest.1, rest.2)

/-- A replay goes on from a run. -/
theorem run_append_of_replay {step : ε → σ → Option σ} {start middle last : σ}
    {before after : List (Transition σ ε)} {events : List ε}
    (run : Run step start before middle)
    (replayed : replay step middle events = some (after, last)) :
    Run step start (before ++ after) last := by
  induction events generalizing before middle after with
  | nil =>
      cases replayed
      rwa [List.append_nil]
  | cons event events ih =>
      rw [replay] at replayed
      cases moved : step event middle with
      | none =>
          rw [moved] at replayed
          cases replayed
      | some next =>
          rw [moved] at replayed
          obtain ⟨⟨rest, final⟩, replays, same⟩ := Option.map_eq_some_iff.mp replayed
          cases same
          have longer := ih (.next run moved) replays
          rwa [List.append_assoc, List.singleton_append] at longer

/-- What is replayed is a run. -/
theorem run_of_replay {step : ε → σ → Option σ} {start last : σ}
    {transitions : List (Transition σ ε)} {events : List ε}
    (replayed : replay step start events = some (transitions, last)) :
    Run step start transitions last :=
  run_append_of_replay .start replayed

end Orchestrator.Foundation
