import Orchestrator.Flow.Coverage

/-! # Nodes that a task disables

The engine passes over a disabled node with the outcome of its kind and takes the edge of that
outcome. The nodes are checked against the flow before a run, so that no run ends at one of them for
want of an edge.
-/

namespace Orchestrator.Flow

open Orchestrator.Foundation

variable {snapshot : FlowSnapshot} {disabled : List String}

/-! ## The check -/

/-- An edge for the outcome of a skipped node, by its own name or as the only one without. -/
def skipMatched (edges : List Edge) (kind : String) : Bool :=
  edges.any (fun edge => edge.outcome = some kind) ||
    kind = "done" && (edges.filter fun edge => decide (edge.outcome = none)).length = 1

/-- What is wrong with a disabled node, if anything. -/
def disabledViolation (snapshot : FlowSnapshot) (nodeId : String) : Option Violation :=
  match snapshot.nodesById nodeId with
  | none => some (graphViolation (s!"task disables unknown node {Text.repr nodeId} " ++
      s!"(flow nodes: {Text.reprSorted snapshot.nodeIds})"))
  | some node =>
      let edges := snapshot.adjacency nodeId
      let kind := (skipOutcome node).kind
      if edges.isEmpty || skipMatched edges kind then none
      else some (graphViolation (s!"task disables node {Text.repr nodeId} but its skip-outcome " ++
        s!"{Text.repr kind} matches no forward edge (declared: " ++
        s!"{Text.reprSorted (edges.map fun edge => Text.reprOption edge.outcome)}); the node " ++
        "cannot be safely skipped in this flow"))

/-- `validate_disabled_nodes`. -/
def validateDisabledNodes (snapshot : FlowSnapshot) (disabled : List String) :
    Except FlowValidationError Unit :=
  match (Text.sorted disabled.dedup).filterMap (disabledViolation snapshot) with
  | [] => .ok ()
  | violations => .error ⟨violations⟩

theorem skipMatched_iff (node : FlowNode) (edges : List Edge) :
    skipMatched edges (skipOutcome node).kind = true ↔
      ∃ edge, selectEdge node edges (skipOutcome node) = .ok edge := by
  rw [selectEdge_ok_iff (not_route_of_mem (skipOutcome_mem node)), skipMatched, Bool.or_eq_true,
    Bool.and_eq_true, List.any_eq_true]
  simp only [decide_eq_true_eq]

/-- A disabled node of the flow that ends it, or passes over to an edge. -/
def Skippable (snapshot : FlowSnapshot) (nodeId : String) : Prop :=
  ∃ node, snapshot.nodesById nodeId = some node ∧ (snapshot.adjacency nodeId = [] ∨
    ∃ edge, selectEdge node (snapshot.adjacency nodeId) (skipOutcome node) = .ok edge)

theorem disabledViolation_eq_none_iff (nodeId : String) :
    disabledViolation snapshot nodeId = none ↔ Skippable snapshot nodeId := by
  rw [disabledViolation, Skippable]
  cases found : snapshot.nodesById nodeId with
  | none => simp
  | some node =>
      dsimp only
      rw [ite_eq_left_iff]
      simp only [Bool.or_eq_true, List.isEmpty_iff, skipMatched_iff, reduceCtorEq, imp_false,
        not_not, Option.some.injEq, exists_eq_left']

/-- The check accepts nodes that can be skipped. -/
theorem validateDisabledNodes_iff : validateDisabledNodes snapshot disabled = .ok () ↔
    ∀ nodeId ∈ disabled, Skippable snapshot nodeId := by
  have clean : (Text.sorted disabled.dedup).filterMap (disabledViolation snapshot) = [] ↔
      ∀ nodeId ∈ disabled, Skippable snapshot nodeId := by
    rw [List.filterMap_eq_nil_iff, Text.sorted]
    simp only [List.mem_insertionSort, List.mem_dedup, disabledViolation_eq_none_iff]
  rw [← clean, validateDisabledNodes]
  cases (Text.sorted disabled.dedup).filterMap (disabledViolation snapshot) with
  | nil => simp
  | cons violation rest => simp

/-! ## Runs -/

/-- The node at which an outcome selected no edge. -/
def EngineInternalError.unmatchedAt : EngineInternalError → Option String
  | .routeMatchesNoEdge nodeId _ => some nodeId
  | .outcomeMatchesNoEdge nodeId _ _ => some nodeId
  | _ => none

/-- No run ends for want of an edge at a disabled node. -/
def SkipsSafely (snapshot : FlowSnapshot) (disabled : List String) : Prop :=
  ∀ engine : FlowEngine, engine.snapshot = snapshot → engine.disabledNodes = disabled →
    ∀ answers start turns error, (engine.run answers start turns).result =
      some (.internalError error) → ∀ nodeId ∈ error.unmatchedAt, nodeId ∉ disabled

theorem unmatchedAt_of_selectEdge {node : FlowNode} {edges : List Edge} {outcome : NodeOutcome}
    {error : EngineInternalError} (unselected : selectEdge node edges outcome = .error error) :
    error.unmatchedAt = some node.id := by
  unfold selectEdge at unselected
  dsimp only at unselected
  split at unselected
  · split at unselected
    · cases unselected
    · cases unselected
      rfl
  · split at unselected
    · cases unselected
    · split at unselected
      · split at unselected
        · cases unselected
        · cases unselected
          rfl
      · cases unselected
        rfl

theorem unmatchedAt_eq_none {error : EngineInternalError} (other : error.isUnmatched = false) :
    error.unmatchedAt = none := by
  cases error with
  | routeMatchesNoEdge => cases other
  | outcomeMatchesNoEdge => cases other
  | _ => rfl

theorem skipOutcome_congr {node other : FlowNode} (same : node.kind = other.kind) :
    skipOutcome node = skipOutcome other := by
  cases node <;> cases other <;> first | rfl | cases same

namespace FlowEngine

variable {engine : FlowEngine} {answers : EngineAnswers} {state : EngineState}

/-- A disabled node is passed over. -/
theorem executeNode_of_disabled {node : FlowNode} (listed : node.id ∈ engine.disabledNodes)
    (answers : EngineAnswers) (state : EngineState) : engine.executeNode answers state node =
      (state.addNodeRun (engine.nodeRunRow node (some (engine.skipReason node))),
        .ok (skipOutcome node)) := by
  rw [executeNode, shouldSkip, if_pos listed, if_pos rfl]

/-- No turn ends for want of an edge at a disabled node that can be skipped. -/
theorem turn_skips (skippable : ∀ nodeId ∈ engine.disabledNodes, Skippable engine.snapshot nodeId)
    {error : EngineInternalError}
    (raised : (engine.turn answers state).result = some (.internalError error)) :
    ∀ nodeId ∈ error.unmatchedAt, nodeId ∉ engine.disabledNodes := by
  have path := engine.turn_path answers state
  generalize engine.turn answers state = turn at path raised
  intro nodeId blamed listed
  cases path with
  | noEntry reason unseeded =>
      cases raised
      rw [unmatchedAt_eq_none (seed_error unseeded)] at blamed
      cases blamed
  | cancelled runState current seeded stopped => cases raised
  | missing runState current seeded absent => cases raised
  | failed runState node next ended seeded known failure =>
      cases raised
      rcases engine.executeNode_error failure with ⟨_, same⟩ | ⟨message, same⟩
      · cases same
        cases blamed
      · cases same
  | finished node outcome ready returns terminal => cases raised
  | unmatched node outcome ready reason returns inner unselected =>
      cases raised
      rw [unmatchedAt_of_selectEdge unselected] at blamed
      obtain rfl : node.id = nodeId := Option.some.inj blamed
      obtain ⟨fetched, found, overlaid⟩ := returns.known
      obtain ⟨runState, next, _, executed, _⟩ := returns.executed
      rw [executeNode_of_disabled listed] at executed
      obtain rfl : skipOutcome node = outcome := Except.ok.inj (Prod.mk.inj executed).2
      obtain ⟨declared, same, terminal | ⟨edge, selected⟩⟩ := skippable node.id listed
      · exact inner terminal
      · rw [found] at same
        obtain rfl := Option.some.inj same
        have kind : node.kind = fetched.kind := by rw [overlaid, engine.applyOverrides_kind]
        rw [← skipOutcome_congr kind] at selected
        obtain ⟨other, chosen⟩ : ∃ edge, selectEdge node (engine.snapshot.adjacency node.id)
            (skipOutcome node) = .ok edge :=
          (selectEdge_isOk_congr _ _ (not_route_of_mem (skipOutcome_mem node))).mp ⟨edge, selected⟩
        rw [chosen] at unselected
        cases unselected
  | parked node outcome ready next edge stuck returns selected rework held => cases raised
  | charged node outcome ready next edge returns selected rework admitted =>
      cases (engine.follow_ended raised).2
  | forward node outcome ready edge returns selected plain =>
      cases (engine.follow_ended raised).2

end FlowEngine

/-- An engine without overrides that is to skip the given nodes. -/
def skippingEngine (snapshot : FlowSnapshot) (disabled : List String) : FlowEngine :=
  { snapshot, disabledNodes := disabled
    agents := { maxFixCycles := 3, maxTotalFixIterations := 4 } }

/-- A run that stands at a disabled node without an edge for it ends there. -/
theorem skippingEngine_raises {node : FlowNode} {error : EngineInternalError}
    (found : snapshot.nodesById node.id = some node) (listed : node.id ∈ disabled)
    (inner : snapshot.adjacency node.id ≠ [])
    (unselected : selectEdge node (snapshot.adjacency node.id) (skipOutcome node) = .error error) :
    ((skippingEngine snapshot disabled).run (fun _ => passingAnswers)
      { runState := { flowFingerprint := "", currentNode := some node.id } } 1).result =
        some (.internalError error) := by
  set engine := skippingEngine snapshot disabled
  set state : EngineState := { runState := { flowFingerprint := "", currentNode := some node.id } }
  have skips : engine.executeNode passingAnswers state node = _ :=
    FlowEngine.executeNode_of_disabled listed passingAnswers state
  have turn : engine.turn passingAnswers state = FlowEngine.moveTurn state node
      (engine.advance passingAnswers _ node (skipOutcome node)) :=
    FlowEngine.Returns.turn_eq ⟨rfl, ⟨node, found, rfl⟩, state.runState, _, rfl, skips, rfl⟩
  have advanced (ready : EngineState) : engine.advance passingAnswers ready node (skipOutcome node)
      = { state := ready, ended := some (.internalError error) } := by
    rw [FlowEngine.advance]
    split
    · next terminal => exact absurd terminal inner
    · rw [show selectEdge node (engine.snapshot.adjacency node.id) (skipOutcome node) = _ from
        unselected]
  rw [FlowEngine.run, engine.machine.trace_succ, engine.machine.extend_of_running rfl]
  change (engine.turn passingAnswers state).result = _
  rw [turn, advanced]
  rfl

/-- A task's disabled nodes are accepted exactly when they are nodes of the flow at which no run of
an engine that skips them ends for want of an edge. -/
theorem disabled_accepted_iff (snapshot : FlowSnapshot) (disabled : List String) :
    validateDisabledNodes snapshot disabled = .ok () ↔
      (∀ nodeId ∈ disabled, nodeId ∈ snapshot.nodeIds) ∧ SkipsSafely snapshot disabled := by
  rw [validateDisabledNodes_iff]
  constructor
  · intro skippable
    refine ⟨fun nodeId listed => ?_, ?_⟩
    · obtain ⟨node, found, _⟩ := skippable nodeId listed
      exact (snapshot.nodesById_isSome_iff nodeId).mp ⟨node, found⟩
    · rintro engine rfl rfl answers start turns error raised
      obtain ⟨last, _, _, ended⟩ := engine.machine.exists_last_turn raised
      exact FlowEngine.turn_skips skippable ended
  · rintro ⟨known, safe⟩ nodeId listed
    obtain ⟨node, found⟩ := (snapshot.nodesById_isSome_iff nodeId).mpr (known nodeId listed)
    obtain ⟨-, rfl⟩ := snapshot.nodesById_eq_some found
    refine ⟨node, found, or_iff_not_imp_left.mpr fun inner => ?_⟩
    cases chosen : selectEdge node (snapshot.adjacency node.id) (skipOutcome node) with
    | ok edge => exact ⟨edge, rfl⟩
    | error error =>
        have raised := skippingEngine_raises found listed inner chosen
        exact absurd listed (safe _ rfl rfl _ _ _ error raised node.id
          (unmatchedAt_of_selectEdge chosen))

end Orchestrator.Flow
