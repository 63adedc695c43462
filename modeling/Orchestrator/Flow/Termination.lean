import Orchestrator.Flow.CounterKeys
import Orchestrator.Flow.Validator

/-! # Bounded runs

Between two charged edges a run walks forward in an acyclic graph, and every
charge uses up one round of the global budget. The rounds left and the rank of
the current node make the potential that each dispatch is paid from.
-/

/-! ## Forward edges

The edges that are neither rework nor fail edges are never charged. Whether they
close a cycle is decided by peeling off the nodes without forward successors.
-/

namespace Orchestrator.Flow

open Orchestrator.Foundation
open Relation

/-- An edge that is neither a rework nor a fail edge. -/
def ForwardStep (snapshot : FlowSnapshot) (first second : String) : Prop :=
  ∃ edge ∈ snapshot.doc.edges,
    edge.isRework = false ∧ edge.fromNode = first ∧ edge.toNode = second

/-- No node lies on a cycle of forward edges. -/
def ForwardAcyclic (snapshot : FlowSnapshot) : Prop :=
  ∀ nodeId, ¬ TransGen (ForwardStep snapshot) nodeId nodeId

/-- The targets of the forward edges of a node. -/
def forwardTargets (snapshot : FlowSnapshot) (nodeId : String) : List String :=
  ((snapshot.adjacency nodeId).filter fun edge => !edge.isRework).map Edge.toNode

/-- Repeatedly removing the nodes without forward successors removes all of them. -/
def forwardPeels (snapshot : FlowSnapshot) : Bool :=
  peelsAway (forwardTargets snapshot) snapshot.nodeIds

variable {snapshot : FlowSnapshot}

theorem forwardStep_iff (first second : String) :
    ForwardStep snapshot first second ↔ second ∈ forwardTargets snapshot first := by
  unfold ForwardStep forwardTargets
  simp only [List.mem_map, List.mem_filter, snapshot.mem_adjacency_iff, Bool.not_eq_true']
  exact exists_congr fun edge => by tauto

/-- When edges join listed nodes, peeling decides acyclicity. -/
theorem forwardPeels_iff
    (resolved : ∀ edge ∈ snapshot.doc.edges, edge.toNode ∈ snapshot.nodeIds) :
    forwardPeels snapshot = true ↔ ForwardAcyclic snapshot := by
  unfold forwardPeels ForwardAcyclic
  have steps : ForwardStep snapshot = fun first second => second ∈ forwardTargets snapshot first :=
    funext₂ fun first second => propext (forwardStep_iff first second)
  rw [steps, peelsAway_iff_acyclic]
  intro first second target
  obtain ⟨edge, listed, _, _, rfl⟩ := (forwardStep_iff first second).mpr target
  exact resolved edge listed

theorem Accepted.forwardPeels_iff (accepted : Accepted snapshot) :
    forwardPeels snapshot = true ↔ ForwardAcyclic snapshot :=
  Flow.forwardPeels_iff fun _ listed => accepted.edge_toNode_mem listed

end Orchestrator.Flow

namespace Orchestrator.Flow

open Orchestrator.Foundation

/-! ## Bounded runs -/

/-- The node dispatches of a run. -/
def dispatches (events : List EngineStep) : Nat :=
  (events.map fun event => if event.visited.isSome then 1 else 0).sum

namespace FlowEngine

variable (engine : FlowEngine)

/-- The effective cap of the global counter. -/
def globalCap : Int :=
  Flow.globalCap engine.snapshot.doc.budgets engine.agents.maxTotalFixIterations

/-- The rounds left of the global budget. -/
def roundsLeft (runState : FlowRunState) : Nat :=
  (engine.globalCap - runState.fixIterations).toNat

/-- The dispatches a run may make from a checkpoint. -/
def dispatchBound (runState : FlowRunState) : Nat :=
  (engine.roundsLeft runState + 1) * engine.snapshot.nodeIds.length

open Classical in
/-- The dispatches left before the next charged edge; an unknown node is not dispatched. -/
noncomputable def stepsLeft (runState : FlowRunState) : Nat :=
  match runState.currentNode with
  | none => engine.snapshot.nodeIds.length
  | some nodeId =>
      if nodeId ∈ engine.snapshot.nodeIds then
        rank (ForwardStep engine.snapshot) engine.snapshot.nodeIds nodeId + 1
      else 0

/-- The dispatches left. -/
noncomputable def potential (state : EngineState) : Nat :=
  engine.roundsLeft state.runState * engine.snapshot.nodeIds.length +
    engine.stepsLeft state.runState

variable {engine}

theorem stepsLeft_le (acyclic : ForwardAcyclic engine.snapshot) (runState : FlowRunState) :
    engine.stepsLeft runState ≤ engine.snapshot.nodeIds.length := by
  unfold stepsLeft
  split
  · exact Nat.le_refl _
  · rename_i nodeId _
    split
    · rename_i listed
      exact rank_lt_length acyclic listed
    · exact Nat.zero_le _

theorem potential_le_dispatchBound (acyclic : ForwardAcyclic engine.snapshot)
    (state : EngineState) : engine.potential state ≤ engine.dispatchBound state.runState := by
  have steps := stepsLeft_le acyclic state.runState
  unfold potential dispatchBound
  rw [Nat.add_mul, Nat.one_mul]
  omega

/-- A dispatched node has a step left, and its rank is below the steps left. -/
theorem rank_lt_stepsLeft (acyclic : ForwardAcyclic engine.snapshot) {runState : FlowRunState}
    {nodeId : String} (listed : nodeId ∈ engine.snapshot.nodeIds)
    (current : ∀ resumed, runState.currentNode = some resumed → nodeId = resumed) :
    rank (ForwardStep engine.snapshot) engine.snapshot.nodeIds nodeId <
      engine.stepsLeft runState := by
  unfold stepsLeft
  cases resumed : runState.currentNode with
  | none => exact rank_lt_length acyclic listed
  | some other =>
      obtain rfl := current other resumed
      simp only [listed, ↓reduceIte]
      omega

/-- An edge that was admitted left a round to charge. -/
theorem fixIterations_lt_of_admitted {runState : FlowRunState} {edge : Edge}
    (admitted : engine.reworkRefusal runState edge = none) :
    (runState.fixIterations : Int) < engine.globalCap :=
  ((reworkRefusal_eq_none_iff engine.snapshot runState edge _ _).mp admitted).2

variable (engine) in
theorem stepsLeft_of_moved {runState : FlowRunState} {nodeId : String}
    (moved : runState.currentNode = some nodeId) : engine.stepsLeft runState ≤
      rank (ForwardStep engine.snapshot) engine.snapshot.nodeIds nodeId + 1 := by
  unfold stepsLeft
  simp only [moved]
  split
  · exact Nat.le_refl _
  · exact Nat.zero_le _

/-- A forward edge lowers the rank of the current node. -/
theorem stepsLeft_lt_of_forward (acyclic : ForwardAcyclic engine.snapshot) {state : EngineState}
    {turn : Turn EngineState EngineStep FlowRunEnd} {edge : Edge}
    (taken : engine.Takes state turn edge) (forward : edge.isRework = false) :
    engine.stepsLeft turn.next.runState < engine.stepsLeft state.runState := by
  have before := rank_lt_stepsLeft acyclic taken.listed taken.current
  have after := engine.stepsLeft_of_moved taken.moved
  by_cases listed : edge.toNode ∈ engine.snapshot.nodeIds
  · have lower := rank_lt_of_step acyclic
      (show ForwardStep engine.snapshot edge.fromNode edge.toNode from
        ⟨edge, taken.outgoing, forward, rfl, rfl⟩) listed
    omega
  · have unknown : engine.stepsLeft turn.next.runState = 0 := by
      unfold stepsLeft
      simp only [taken.moved, listed, ↓reduceIte]
    omega

/-- A turn that goes on pays for its dispatch: a charge with a round, any other edge with rank. -/
theorem potential_lt_of_running (acyclic : ForwardAcyclic engine.snapshot)
    (reserved : FlowRunState.globalFixKey ∉ chargedLoops engine.snapshot)
    (answers : EngineAnswers) (state : EngineState)
    (running : (engine.turn answers state).result = none) :
    1 + engine.potential (engine.turn answers state).next ≤ engine.potential state := by
  have counted := turn_fixIterations reserved answers state
  obtain ⟨edge, same⟩ := turn_goesOn running
  have taken := turn_takes same
  have before := rank_lt_stepsLeft acyclic taken.listed taken.current
  unfold potential roundsLeft
  rw [counted, same]
  cases rework : edge.isRework with
  | true =>
      have room := fixIterations_lt_of_admitted (taken.admitted rework)
      have after := stepsLeft_le acyclic (engine.turn answers state).next.runState
      obtain ⟨left, rounds⟩ : ∃ left,
          (engine.globalCap - state.runState.fixIterations).toNat = left + 1 :=
        Nat.exists_eq_add_one.mpr (by omega)
      have rest : (engine.globalCap -
          ((state.runState.fixIterations + reworksTaken (some edge) : Nat) : Int)).toNat =
            left := by
        simp only [reworksTaken, rework, ↓reduceIte]
        omega
      rw [rest, rounds, Nat.add_mul, Nat.one_mul]
      omega
  | false =>
      have after := stepsLeft_lt_of_forward acyclic taken rework
      simp only [reworksTaken, rework, Bool.false_eq_true, ↓reduceIte, Nat.add_zero]
      omega

/-- The last turn pays for its dispatch as well. -/
theorem dispatch_le_potential (acyclic : ForwardAcyclic engine.snapshot)
    (answers : EngineAnswers) (state : EngineState) :
    (if (engine.turn answers state).event.visited.isSome then 1 else 0) ≤
      engine.potential state := by
  cases visited : (engine.turn answers state).event.visited with
  | none => simp
  | some nodeId =>
      obtain ⟨listed, current⟩ := engine.turn_visited answers state visited
      have steps := rank_lt_stepsLeft acyclic listed current
      simp only [Option.isSome_some, ↓reduceIte]
      unfold potential
      omega

variable (engine) in
/-- A run whose forward edges are acyclic ends. Its dispatches are bounded by the rounds left of the
global budget, because the global counter never falls and each rework or fail edge taken raises it:
a turn that could not take its edge is the last one. -/
theorem run_bounded (acyclic : ForwardAcyclic engine.snapshot)
    (distinct : (budgetKeys engine.snapshot).Nodup) (answers : Nat → EngineAnswers)
    (start : EngineState) :
    (∀ turns, dispatches (engine.run answers start turns).events ≤
      engine.dispatchBound start.runState) ∧
    (engine.run answers start (engine.dispatchBound start.runState + 1)).result ≠ none ∧
    ∀ turns, (engine.run answers start turns).result = none →
      let before := (engine.run answers start turns).state
      let turn := engine.turn (answers turns) before
      turn.next.runState.fixIterations =
          before.runState.fixIterations + reworksTaken turn.event.taken ∧
        (turn.event.taken = none → turn.result ≠ none) := by
  have reserved := globalFixKey_not_mem_of_nodup distinct
  refine ⟨fun turns => ?_, ?_, fun turns _ => ⟨turn_fixIterations reserved _ _, turn_stops⟩⟩
  · refine (engine.machine.cost_le_potential (fun _ => True) _ engine.potential
      (fun _ _ _ _ => trivial) ?_ ?_ trivial turns).trans
      (potential_le_dispatchBound acyclic start)
    · intro input state _ running
      have paid := potential_lt_of_running acyclic reserved input state running
      refine (Nat.add_le_add_right ?_ _).trans paid
      split <;> omega
    · exact fun input state _ _ => dispatch_le_potential acyclic input state
  · intro running
    have stops := engine.machine.stops_within_potential (fun _ => True) engine.potential
      (fun _ _ _ _ => trivial)
      (fun input state _ going => by
        have paid := potential_lt_of_running acyclic reserved input state going
        change engine.potential (engine.turn input state).next < engine.potential state
        omega)
      answers start trivial
    have bound := potential_le_dispatchBound acyclic start
    exact stops (engine.machine.running_of_le (Nat.succ_le_succ bound) running)

end FlowEngine

/-- The engine of the repair flow under a global cap of four. -/
def repairEngine : FlowEngine :=
  { snapshot := repairFlow, agents := { maxFixCycles := 3, maxTotalFixIterations := 4 } }

/-- Every check fails and every evaluator asks for rework. -/
def failingAnswers : EngineAnswers where
  isCancelled := false
  facts _ := true
  run node _ := .ok { kind := match node.kind with
    | .evaluator => "rework"
    | .checks => "fail"
    | .tool => "fail"
    | _ => "done" }

/-- Every node returns its pass-through outcome. -/
def passingAnswers : EngineAnswers where
  isCancelled := false
  facts _ := true
  run node _ := .ok (skipOutcome node)

theorem repairFlow_forwardAcyclic : ForwardAcyclic repairFlow :=
  (Accepted.forwardPeels_iff (by decide)).mp (by decide)

theorem run_bounded_repair :
    (∀ turns, dispatches (repairEngine.run (fun _ => failingAnswers)
      { runState := { flowFingerprint := "repair" } } turns).events ≤ 25) ∧
    (repairEngine.run (fun _ => failingAnswers)
      { runState := { flowFingerprint := "repair" } } 26).result ≠ none :=
  have bounded := repairEngine.run_bounded repairFlow_forwardAcyclic
    (by decide) (fun _ => failingAnswers) { runState := { flowFingerprint := "repair" } }
  ⟨bounded.1, bounded.2.1⟩

end Orchestrator.Flow
