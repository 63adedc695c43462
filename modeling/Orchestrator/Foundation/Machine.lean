import Mathlib.Data.List.Basic
import Mathlib.Algebra.BigOperators.Group.List.Basic
import Mathlib.Algebra.Ring.Nat
import Mathlib.Tactic.Common

/-! # Machines driven turn by turn by their surroundings

A machine consumes one input a turn and shows one event. It stops at the first
turn that produces a result. Quantifying over input streams quantifies over
every environment, whatever its own memory: the stream is what that environment
answered in the one run looked at.
-/

namespace Orchestrator.Foundation

variable {ι σ κ ρ : Type}

/-- The state, the event and, on the last turn, the result of one turn. -/
structure Turn (σ κ ρ : Type) where
  next : σ
  event : κ
  result : Option ρ

/-- A deterministic machine, given by what it does in one turn. -/
structure Machine (ι σ κ ρ : Type) where
  turn : ι → σ → Turn σ κ ρ

/-- What has happened after some number of turns. -/
structure Trace (σ κ ρ : Type) where
  state : σ
  events : List κ
  result : Option ρ

namespace Machine

variable (machine : Machine ι σ κ ρ)

/-- One more turn; a stopped trace stays as it is. -/
def extend (input : ι) (trace : Trace σ κ ρ) : Trace σ κ ρ :=
  match trace.result with
  | some _ => trace
  | none =>
      let turn := machine.turn input trace.state
      ⟨turn.next, trace.events ++ [turn.event], turn.result⟩

/-- The trace of at most `count` turns from `start`. -/
def trace (inputs : Nat → ι) (start : σ) : Nat → Trace σ κ ρ
  | 0 => ⟨start, [], none⟩
  | count + 1 => machine.extend (inputs count) (trace inputs start count)

theorem extend_of_result {input : ι} {trace : Trace σ κ ρ} {result : ρ}
    (stopped : trace.result = some result) : machine.extend input trace = trace := by
  unfold extend
  rw [stopped]

theorem extend_of_running {input : ι} {trace : Trace σ κ ρ} (running : trace.result = none) :
    machine.extend input trace =
      ⟨(machine.turn input trace.state).next,
        trace.events ++ [(machine.turn input trace.state).event],
        (machine.turn input trace.state).result⟩ := by
  unfold extend
  rw [running]

@[simp] theorem trace_zero (inputs : Nat → ι) (start : σ) :
    machine.trace inputs start 0 = ⟨start, [], none⟩ := rfl

theorem trace_succ (inputs : Nat → ι) (start : σ) (count : Nat) :
    machine.trace inputs start (count + 1) =
      machine.extend (inputs count) (machine.trace inputs start count) := rfl

/-- A property of traces that every turn of a running trace keeps holds of every
trace. The state before the turn and the input of the turn are available. -/
theorem trace_induction {inputs : Nat → ι} {start : σ} (property : Trace σ κ ρ → Prop)
    (initial : property ⟨start, [], none⟩)
    (step : ∀ count (before : Trace σ κ ρ), property before → before.result = none →
      before = machine.trace inputs start count →
      property ⟨(machine.turn (inputs count) before.state).next,
        before.events ++ [(machine.turn (inputs count) before.state).event],
        (machine.turn (inputs count) before.state).result⟩)
    (count : Nat) : property (machine.trace inputs start count) := by
  induction count with
  | zero => exact initial
  | succ count ih =>
      rw [trace_succ]
      cases status : (machine.trace inputs start count).result with
      | some result => rwa [machine.extend_of_result status]
      | none =>
          rw [machine.extend_of_running status]
          exact step count _ ih status rfl

/-- A trace that has stopped is not extended. -/
theorem trace_add_of_result {inputs : Nat → ι} {start : σ} {count : Nat} {result : ρ}
    (stopped : (machine.trace inputs start count).result = some result) (extra : Nat) :
    machine.trace inputs start (count + extra) = machine.trace inputs start count := by
  induction extra with
  | zero => rfl
  | succ extra ih =>
      have still : (machine.trace inputs start (count + extra)).result = some result := by
        rw [ih, stopped]
      rw [← Nat.add_assoc, trace_succ, machine.extend_of_result still, ih]

/-- Every trace before a running one is running. -/
theorem running_of_le {inputs : Nat → ι} {start : σ} {count later : Nat} (le : count ≤ later)
    (running : (machine.trace inputs start later).result = none) :
    (machine.trace inputs start count).result = none := by
  obtain ⟨extra, rfl⟩ := Nat.exists_eq_add_of_le le
  cases status : (machine.trace inputs start count).result with
  | none => rfl
  | some result =>
      rw [machine.trace_add_of_result status, status] at running
      exact running

/-- Running on from a running trace is a run from its state on the later inputs. -/
theorem trace_add_of_running {inputs : Nat → ι} {start : σ} {count : Nat}
    (running : (machine.trace inputs start count).result = none) (extra : Nat) :
    machine.trace inputs start (count + extra) =
      let rest := machine.trace (fun turn => inputs (count + turn))
        (machine.trace inputs start count).state extra
      ⟨rest.state, (machine.trace inputs start count).events ++ rest.events, rest.result⟩ := by
  induction extra with
  | zero => simp only [Nat.add_zero, trace_zero, List.append_nil, ← running]
  | succ extra ih =>
      rw [← Nat.add_assoc, trace_succ, ih, trace_succ]
      cases status : (machine.trace (fun turn => inputs (count + turn))
          (machine.trace inputs start count).state extra).result with
      | some result => simp only [extend, status]
      | none => simp only [extend, status, List.append_assoc]

/-- A stopped run stopped in one of its turns, on the state its earlier turns had reached. -/
theorem exists_last_turn {inputs : Nat → ι} {start : σ} {count : Nat} {result : ρ}
    (stopped : (machine.trace inputs start count).result = some result) :
    ∃ last, (machine.trace inputs start last).result = none ∧
      machine.trace inputs start count = machine.trace inputs start (last + 1) ∧
      (machine.turn (inputs last) (machine.trace inputs start last).state).result =
        some result := by
  induction count with
  | zero => cases stopped
  | succ count ih =>
      cases status : (machine.trace inputs start count).result with
      | none =>
          refine ⟨count, status, rfl, ?_⟩
          rw [trace_succ, machine.extend_of_running status] at stopped
          exact stopped
      | some earlier =>
          have kept : machine.extend (inputs count) (machine.trace inputs start count) = _ :=
            machine.extend_of_result status
          rw [trace_succ, kept] at stopped ⊢
          exact ih stopped

/-! ## Simulation -/

/-- Two machines whose states stay related and whose events and results agree, turn for turn, show
the same events and stop together. -/
theorem simulation {ι' σ' : Type} (other : Machine ι' σ' κ ρ) (related : σ → σ' → Prop)
    {inputs : Nat → ι} {inputs' : Nat → ι'}
    (step : ∀ count left right, related left right →
      related (machine.turn (inputs count) left).next (other.turn (inputs' count) right).next ∧
      (machine.turn (inputs count) left).event = (other.turn (inputs' count) right).event ∧
      (machine.turn (inputs count) left).result = (other.turn (inputs' count) right).result)
    {start : σ} {start' : σ'} (initial : related start start') (count : Nat) :
    related (machine.trace inputs start count).state (other.trace inputs' start' count).state ∧
    (machine.trace inputs start count).events = (other.trace inputs' start' count).events ∧
    (machine.trace inputs start count).result = (other.trace inputs' start' count).result := by
  induction count with
  | zero => exact ⟨initial, rfl, rfl⟩
  | succ count ih =>
      obtain ⟨states, events, results⟩ := ih
      rw [trace_succ, trace_succ]
      cases left : (machine.trace inputs start count).result with
      | some result =>
          have right := results.symm.trans left
          rw [machine.extend_of_result left, other.extend_of_result right]
          exact ⟨states, events, results⟩
      | none =>
          have right := results.symm.trans left
          rw [machine.extend_of_running left, other.extend_of_running right]
          obtain ⟨nexts, shown, ends⟩ := step count _ _ states
          exact ⟨nexts, by rw [events, shown], ends⟩

/-! ## Potentials -/

/-- When every turn pays the cost of its event out of a potential of the state,
the whole run costs at most the initial potential. -/
theorem cost_le_potential (invariant : σ → Prop) (cost : κ → Nat) (potential : σ → Nat)
    (keeps : ∀ input state, invariant state → (machine.turn input state).result = none →
      invariant (machine.turn input state).next)
    (pays : ∀ input state, invariant state → (machine.turn input state).result = none →
      cost (machine.turn input state).event + potential (machine.turn input state).next ≤
        potential state)
    (last : ∀ input state, invariant state → (machine.turn input state).result ≠ none →
      cost (machine.turn input state).event ≤ potential state)
    {inputs : Nat → ι} {start : σ} (initial : invariant start) (count : Nat) :
    ((machine.trace inputs start count).events.map cost).sum ≤ potential start := by
  refine (machine.trace_induction (fun trace =>
    (trace.events.map cost).sum ≤ potential start ∧ (trace.result = none →
      invariant trace.state ∧
      (trace.events.map cost).sum + potential trace.state ≤ potential start)) ?_ ?_ count).1
  · exact ⟨Nat.zero_le _, fun _ => ⟨initial, by simp⟩⟩
  · intro turn before ⟨_, held⟩ running _
    obtain ⟨valid, bound⟩ := held running
    simp only [List.map_append, List.map_cons, List.map_nil, List.sum_append, List.sum_cons,
      List.sum_nil, Nat.add_zero]
    cases status : (machine.turn (inputs turn) before.state).result with
    | some result =>
        have paid := last (inputs turn) before.state valid (by rw [status]; exact nofun)
        exact ⟨by omega, nofun⟩
    | none =>
        have paid := pays (inputs turn) before.state valid status
        exact ⟨by omega, fun _ => ⟨keeps _ _ valid status, by omega⟩⟩

/-- When moreover every turn that does not stop costs something, the run stops. -/
theorem stops_within_potential (invariant : σ → Prop) (potential : σ → Nat)
    (keeps : ∀ input state, invariant state → (machine.turn input state).result = none →
      invariant (machine.turn input state).next)
    (descends : ∀ input state, invariant state → (machine.turn input state).result = none →
      potential (machine.turn input state).next < potential state)
    (inputs : Nat → ι) (start : σ) (initial : invariant start) :
    (machine.trace inputs start (potential start + 1)).result ≠ none := by
  intro running
  have bound : ∀ count, (machine.trace inputs start count).result = none →
      invariant (machine.trace inputs start count).state ∧
      count + potential (machine.trace inputs start count).state ≤ potential start := by
    intro count
    induction count with
    | zero => exact fun _ => ⟨initial, by simp⟩
    | succ count ih =>
        intro status
        have before := machine.running_of_le (Nat.le_succ count) status
        obtain ⟨valid, held⟩ := ih before
        rw [trace_succ, machine.extend_of_running before] at status ⊢
        have lower := descends _ _ valid status
        exact ⟨keeps _ _ valid status, by dsimp only; omega⟩
  have := (bound _ running).2
  omega

end Machine

end Orchestrator.Foundation
