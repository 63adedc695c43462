import Orchestrator.Flow.RunState
import Orchestrator.Foundation.Machine

/-! # The flow engine

One turn of the engine is one pass of its main loop: it runs the current node,
selects an edge from the outcome, charges or resets the fix counters and saves
the checkpoint. Everything the engine asks of the outside during a turn is the
input of that turn.
-/

namespace Orchestrator.Flow

open Orchestrator.Foundation

/-! ## Outcomes and results -/

/-- What a node returned to the engine; it never names the next node. -/
structure NodeOutcome where
  kind : String
  reworkExhausted : Bool := false
  reworkLimit : Option String := none
  deriving DecidableEq

/-- What a node runner is told about the run. -/
structure NodeContext where
  runState : FlowRunState
  node : FlowNode
  subtaskOrder : Option Nat
  reworkRefusal : Option String

inductive Status where
  | new
  | validated
  | preparing
  | running
  | done
  | failed
  | manualActionRequired
  | pending
  deriving DecidableEq

/-- The terminal outcome of one traversal. -/
structure FlowRunResult where
  status : Status
  finalNode : String
  stuckLoop : Option String := none
  limitName : Option String := none
  failureReportPath : Option String := none
  deriving DecidableEq

/-- A broken runtime invariant. -/
inductive EngineInternalError where
  | entryNodes (entries : List String)
  | noRunner (kind : NodeKind)
  | routeMatchesNoEdge (nodeId outcome : String)
  | outcomeMatchesNoEdge (nodeId outcome : String) (declared : List (Option String))
  deriving DecidableEq

def EngineInternalError.message : EngineInternalError → String
  | .entryNodes entries => s!"expected exactly one entry node, got {Text.reprSorted entries}"
  | .noRunner kind => s!"no runner registered for node kind {Text.repr kind.value}"
  | .routeMatchesNoEdge nodeId outcome =>
      s!"node {Text.repr nodeId}: route outcome {Text.repr outcome} matches no declared edge"
  | .outcomeMatchesNoEdge nodeId outcome declared =>
      s!"node {Text.repr nodeId}: outcome {Text.repr outcome} matches no declared edge " ++
        s!"(declared: {Text.reprSorted (declared.map Text.reprOption)})"

/-- How a traversal ends: it returns, is stopped by the operator or raises. -/
inductive FlowRunEnd where
  | returned (result : FlowRunResult)
  | flowCancelled (nodeId : String)
  | internalError (error : EngineInternalError)
  | keyError (nodeId : String)
  | raised (message : String)
  deriving DecidableEq

/-- A rework or fail edge could not be taken. -/
structure Stuck where
  loop : Option String
  limitName : String

/-! ## The engine and its environment -/

/-- The limits the configuration sets. -/
structure AgentsConfig where
  maxFixCycles : Int
  maxTotalFixIterations : Int

/-- The task's overlay of one node's fields. -/
structure NodeOverride where
  provider : Option ProviderId := none
  model : Option String := none
  reasoning : Option String := none

/-- One unit's engine: the flow, the limits and what the driver wired in. -/
structure FlowEngine where
  snapshot : FlowSnapshot
  agents : AgentsConfig
  runnerKinds : List NodeKind := [.agent, .evaluator, .checks, .tool, .hitl, .publish]
  subtaskOrder : Option Nat := none
  watchesDiff : Bool := false
  watchesFindings : Bool := false
  region : Option (List String) := none
  disabledNodes : List String := []
  nodeOverrides : String → Option NodeOverride := fun _ => none
  failureReportPath : String := ""

/-- The answers of the outside during one turn. A node runner or the hook after it may raise. -/
structure EngineAnswers where
  isCancelled : Bool
  facts : String → Bool
  run : FlowNode → NodeContext → Except String NodeOutcome
  postNode : FlowNode → NodeOutcome → Option String := fun _ _ => none
  diffFingerprint : String := ""
  repeatedFindings : String → Nat := fun _ => 0

/-- One row of `node_runs`. -/
structure NodeRunRow where
  nodeId : String
  kind : NodeKind
  skipReason : Option String
  subtaskOrder : Option Nat

/-- The durable side of a run: the checkpoint columns of the task's row and its node runs. -/
structure FlowStore where
  currentNode : Option String := none
  flowRunCounters : Option (List (String × Nat)) := none
  flowFingerprint : Option String := none
  fixIterations : Nat := 0
  failureReportPath : Option String := none
  nodeRuns : List NodeRunRow := []

/-- The engine's own fields and the store behind its recorder. -/
structure EngineState where
  runState : FlowRunState
  stallFp : Dict String := ∅
  stallStreak : Dict Nat := ∅
  store : FlowStore := {}

/-- What one turn shows: the node it dispatched, the counters it started from and the edge taken. -/
structure EngineStep where
  visited : Option String
  counters : String → Nat
  taken : Option Edge

/-! ## Persistence -/

/-- `json.dumps(counters, sort_keys=True)` as the listed items. -/
def dumpCounters (counters : Dict Nat) : List (String × Nat) :=
  (counters.entries.map fun item => (item.1, item.2)).insertionSort fun first second =>
    first.1 ≤ second.1

namespace EngineState

variable (state : EngineState)

def saveCheckpoint : EngineState :=
  { state with store := { state.store with
      currentNode := state.runState.currentNode
      flowRunCounters := some (dumpCounters state.runState.loopCounters)
      flowFingerprint := some state.runState.flowFingerprint
      fixIterations := state.runState.fixIterations } }

/-- Append a row to `node_runs`. -/
def addNodeRun (row : NodeRunRow) : EngineState :=
  { state with store := { state.store with nodeRuns := state.store.nodeRuns ++ [row] } }

def writeFailureReport (path : String) : EngineState :=
  { state with store := { state.store with failureReportPath := some path } }

def mapRunState (change : FlowRunState → FlowRunState) : EngineState :=
  { state with runState := change state.runState }

@[simp] theorem saveCheckpoint_runState : state.saveCheckpoint.runState = state.runState := rfl

@[simp] theorem addNodeRun_runState (row : NodeRunRow) :
    (state.addNodeRun row).runState = state.runState := rfl

@[simp] theorem writeFailureReport_runState (path : String) :
    (state.writeFailureReport path).runState = state.runState := rfl

@[simp] theorem mapRunState_runState (change : FlowRunState → FlowRunState) :
    (state.mapRunState change).runState = change state.runState := rfl

end EngineState

/-- `hydrate_run_state`: the checkpoint of a resumed task, none when no run was ever saved. -/
def hydrateRunState (store : FlowStore) : Option FlowRunState :=
  match store.flowFingerprint with
  | none => none
  | some flowFingerprint => some {
      flowFingerprint
      currentNode := store.currentNode
      completedNodes := store.nodeRuns.map NodeRunRow.nodeId
      loopCounters := match store.flowRunCounters with
        | some items => Dict.ofList items
        | none => ∅ }

/-! ## Rules on nodes and edges -/

/-- A non-blocking evaluator: its rework rounds are advisory and it never parks the task. -/
def advisory : FlowNode → Bool
  | .evaluator node => !node.blocking
  | _ => false

/-- The pass-through outcome of a skipped node. -/
def skipOutcome : FlowNode → NodeOutcome
  | .evaluator _ => { kind := "accept" }
  | .checks _ => { kind := "pass" }
  | .tool _ => { kind := "pass" }
  | _ => { kind := "done" }

/-- One phrase for the limit that refuses a rework edge. -/
def describeRefusal (refused : ReworkRefusal) : String :=
  if refused.limitName = "max_fix_cycles" then
    s!"fix loop {Text.reprOption refused.loop} budget spent " ++
      "(min of its flow budget and max_fix_cycles)"
  else if refused.limitName = "max_total_fix_iterations" then
    "global fix backstop spent (max_total_fix_iterations)"
  else s!"inline rework budget spent ({refused.limitName})"

/-- The nodes without incoming edges. -/
def entryNodes (snapshot : FlowSnapshot) : List String :=
  snapshot.nodeIds.filter fun nodeId =>
    snapshot.doc.edges.all fun edge => decide (edge.toNode ≠ nodeId)

/-- `entry_node_id`: the single entry node. -/
def entryNodeId (snapshot : FlowSnapshot) : Except EngineInternalError String :=
  match entryNodes snapshot with
  | [entry] => .ok entry
  | entries => .error (.entryNodes entries)

/-- The engine's choice of an outgoing edge: the first edge of the outcome, or else the single
unconditional edge of a node that is done. -/
def selectEdge (node : FlowNode) (edges : List Edge) (outcome : NodeOutcome) :
    Except EngineInternalError Edge :=
  let kind := outcome.kind
  let exact := edges.find? fun edge => decide (edge.outcome = some kind)
  if Text.startsWith kind "route:" then
    match exact with
    | some edge => .ok edge
    | none => .error (.routeMatchesNoEdge node.id kind)
  else
    match exact with
    | some edge => .ok edge
    | none =>
        let unmatched := EngineInternalError.outcomeMatchesNoEdge node.id kind
          (edges.map Edge.outcome)
        if kind = "done" then
          match edges.filter fun edge => decide (edge.outcome = none) with
          | [edge] => .ok edge
          | _ => .error unmatched
        else .error unmatched

namespace FlowEngine

variable (engine : FlowEngine)

/-- Overlay the task's fields onto the fetched node. The resolver gives fields only to the kinds
that have them. -/
def applyOverrides (node : FlowNode) : FlowNode :=
  match engine.nodeOverrides node.id with
  | none => node
  | some fields =>
      match node with
      | .agent agent => .agent { agent with
          provider := fields.provider <|> agent.provider
          model := fields.model <|> agent.model
          reasoning := fields.reasoning <|> agent.reasoning }
      | .evaluator evaluator => .evaluator { evaluator with
          provider := fields.provider <|> evaluator.provider
          model := fields.model <|> evaluator.model
          reasoning := fields.reasoning <|> evaluator.reasoning }
      | other => other

/-- A node is skipped when the task disabled it or its condition is false. -/
def shouldSkip (answers : EngineAnswers) (node : FlowNode) : Bool :=
  if node.id ∈ engine.disabledNodes then true
  else
    match node.when with
    | none => false
    | some condition => answers.facts condition.fact != condition.equals

def skipReason (node : FlowNode) : String :=
  if node.id ∈ engine.disabledNodes then s!"disabled by task: nodes.{node.id}.enabled=false"
  else
    let fact := (node.when.map WhenPredicate.fact).getD "?"
    let equals := (node.when.map WhenPredicate.equals).getD true
    s!"deterministic skip: when {fact} != " ++ (if equals then "True" else "False")

/-- The refusal of an edge under this engine's limits. -/
def reworkRefusal (runState : FlowRunState) (edge : Edge) : Option ReworkRefusal :=
  Flow.reworkRefusal engine.snapshot runState edge engine.agents.maxFixCycles
    engine.agents.maxTotalFixIterations

/-- The limit that would refuse the node's rework edge right now. -/
def nodeReworkRefusal (runState : FlowRunState) (nodeId : String) : Option String :=
  (engine.snapshot.adjacency nodeId).findSome? fun edge =>
    if edge.outcome = some "rework" then
      (engine.reworkRefusal runState edge).map describeRefusal
    else none

/-- What a node is told about the run. -/
def nodeContext (runState : FlowRunState) (node : FlowNode) : NodeContext :=
  ⟨runState, node, engine.subtaskOrder, engine.nodeReworkRefusal runState node.id⟩

/-- The row of one execution of a node. -/
def nodeRunRow (node : FlowNode) (skipReason : Option String) : NodeRunRow :=
  ⟨node.id, node.kind, skipReason, engine.subtaskOrder⟩

/-- Skip the node with its pass-through outcome, or run it. A runner opens its row of `node_runs`
before anything else. -/
def executeNode (answers : EngineAnswers) (state : EngineState) (node : FlowNode) :
    EngineState × Except FlowRunEnd NodeOutcome :=
  if engine.shouldSkip answers node then
    (state.addNodeRun (engine.nodeRunRow node (some (engine.skipReason node))),
      .ok (skipOutcome node))
  else if node.kind ∉ engine.runnerKinds then
    (state, .error (.internalError (.noRunner node.kind)))
  else
    (state.addNodeRun (engine.nodeRunRow node none),
      match answers.run node (engine.nodeContext state.runState node) with
      | .error message => .error (.raised message)
      | .ok outcome =>
          match answers.postNode node outcome with
          | some message => .error (.raised message)
          | none => .ok outcome)

/-! ## Stall guards and budgets -/

/-- Rework rounds with an unchanged tree that abort a loop. -/
def stallNoChangeLimit : Nat := 2

/-- Identical finding sets in a row that abort a loop. -/
def repeatedFindingsLimit : Nat := 3

/-- Abort a loop whose tree stays unchanged; without a fingerprint the guard is inert. -/
def checkNoFileChange (answers : EngineAnswers) (state : EngineState) (loop : String) :
    EngineState × Option Stuck :=
  if engine.watchesDiff then
    let unchanged := state.stallFp.lookup loop = some answers.diffFingerprint
    let streak := if unchanged then Dict.get state.stallStreak loop 0 + 1 else 0
    ({ state with
        stallStreak := state.stallStreak.insert loop streak
        stallFp := if unchanged then state.stallFp
          else state.stallFp.insert loop answers.diffFingerprint },
      if streak ≥ stallNoChangeLimit then some ⟨some loop, "no_file_change"⟩ else none)
  else (state, none)

/-- Abort a loop whose node keeps returning the same findings. -/
def checkRepeatedFindings (answers : EngineAnswers) (nodeId loop : String) : Option Stuck :=
  if engine.watchesFindings && decide (answers.repeatedFindings nodeId ≥ repeatedFindingsLimit) then
    some ⟨some loop, "repeated_findings"⟩
  else none

/-- Both guards, the unchanged tree first. -/
def checkStall (answers : EngineAnswers) (state : EngineState) (nodeId loop : String) :
    EngineState × Option Stuck :=
  let noChange := engine.checkNoFileChange answers state loop
  (noChange.1, noChange.2 <|> engine.checkRepeatedFindings answers nodeId loop)

/-- The counters a rework or fail edge raises beside the global one. -/
def chargeOwn (runState : FlowRunState) (edge : Edge) : FlowRunState :=
  match edge.loop with
  | some loop => (runState.bump loop).bump (FlowRunState.totalKey loop)
  | none => if edge.budget.isSome then runState.bump (edgeKey edge) else runState

/-- Charge an edge, unless a limit refuses it first. -/
def chargeRework (state : EngineState) (edge : Edge) : EngineState × Option Stuck :=
  match engine.reworkRefusal state.runState edge with
  | some refused => (state, some ⟨refused.loop, refused.limitName⟩)
  | none => (state.mapRunState fun runState => chargeOwn (recordRework runState) edge, none)

/-- Zero what one satisfied back-edge counts. -/
def resetEdge (state : EngineState) (edge : Edge) : EngineState :=
  if edge.isRework then
    match edge.loop with
    | some loop => { state with
        runState := state.runState.reset loop
        stallStreak := state.stallStreak.erase loop
        stallFp := state.stallFp.erase loop }
    | none =>
        if edge.budget.isSome then state.mapRunState fun runState => runState.reset (edgeKey edge)
        else state
  else state

/-- Leaving a node forward resolves every budget anchored at it. -/
def resetLoopsAt (state : EngineState) (nodeId : String) : EngineState :=
  (engine.snapshot.adjacency nodeId).foldl resetEdge state

/-- The guards and the budget a rework or fail edge passes before it is taken. A non-blocking
evaluator is exempt from the guards. -/
def admitRework (answers : EngineAnswers) (state : EngineState) (node : FlowNode) (edge : Edge) :
    EngineState × Option Stuck :=
  match edge.loop, advisory node with
  | some loop, false =>
      match engine.checkStall answers state node.id loop with
      | (next, some stuck) => (next, some stuck)
      | (next, none) => engine.chargeRework next edge
  | _, _ => engine.chargeRework state edge

/-! ## The main loop -/

/-- Where a turn leaves the engine: the state, the edge taken and the end of the run, if any. -/
structure Move where
  state : EngineState
  taken : Option Edge := none
  ended : Option FlowRunEnd := none

/-- Park the run at a node that could not take its edge. -/
def park (state : EngineState) (node : FlowNode) (stuck : Stuck) : Move :=
  { state := (state.writeFailureReport engine.failureReportPath).saveCheckpoint
    ended := some (.returned {
      status := .manualActionRequired
      finalNode := node.id
      stuckLoop := stuck.loop
      limitName := stuck.limitName
      failureReportPath := engine.failureReportPath }) }

/-- The run is confined to a region that the edge leaves. -/
def leavesRegion (edge : Edge) : Bool :=
  match engine.region with
  | none => false
  | some region => decide (edge.toNode ∉ region)

/-- Make the target of the edge current and save; leaving the region ends the run. -/
def follow (state : EngineState) (node : FlowNode) (edge : Edge) : Move :=
  { state := (state.mapRunState fun runState => runState.setCurrentNode edge.toNode).saveCheckpoint
    taken := some edge
    ended := if engine.leavesRegion edge then
        some (.returned { status := .done, finalNode := node.id })
      else none }

/-- Take the selected edge: a rework or fail edge after its charge, any other after the reset. -/
def traverse (answers : EngineAnswers) (state : EngineState) (node : FlowNode) (edge : Edge) :
    Move :=
  if edge.isRework then
    match engine.admitRework answers state node edge with
    | (next, some stuck) => engine.park next node stuck
    | (next, none) => engine.follow next node edge
  else engine.follow (engine.resetLoopsAt state node.id) node edge

/-- Continue after a node returned its outcome. -/
def advance (answers : EngineAnswers) (state : EngineState) (node : FlowNode)
    (outcome : NodeOutcome) : Move :=
  match engine.snapshot.adjacency node.id with
  | [] =>
      { state := state.saveCheckpoint
        ended := some (.returned { status := .done, finalNode := node.id }) }
  | edges =>
      match selectEdge node edges outcome with
      | .error error => { state, ended := some (.internalError error) }
      | .ok edge => engine.traverse answers state node edge

/-- Dispatch the node that is current. -/
def dispatch (answers : EngineAnswers) (state : EngineState) (node : FlowNode) : Move :=
  match engine.executeNode answers state node with
  | (next, .error ended) => { state := next, ended := some ended }
  | (next, .ok outcome) =>
      engine.advance answers
        (next.mapRunState fun runState => runState.markCompleted node.id) node outcome

/-- A fresh run starts at the entry node. -/
def seed (runState : FlowRunState) : Except EngineInternalError (FlowRunState × String) :=
  match runState.currentNode with
  | some nodeId => .ok (runState, nodeId)
  | none =>
      match entryNodeId engine.snapshot with
      | .error error => .error error
      | .ok entry => .ok (runState.setCurrentNode entry, entry)

/-- One pass of the main loop. -/
def turn (answers : EngineAnswers) (state : EngineState) :
    Turn EngineState EngineStep FlowRunEnd :=
  let counters := state.runState.counter
  match engine.seed state.runState with
  | .error error => ⟨state, ⟨none, counters, none⟩, some (.internalError error)⟩
  | .ok (runState, nodeId) =>
      let state := { state with runState }
      if answers.isCancelled then
        ⟨state.saveCheckpoint, ⟨none, counters, none⟩, some (.flowCancelled nodeId)⟩
      else
        match engine.snapshot.nodesById nodeId with
        | none => ⟨state, ⟨none, counters, none⟩, some (.keyError nodeId)⟩
        | some fetched =>
            let move := engine.dispatch answers state (engine.applyOverrides fetched)
            ⟨move.state, ⟨some nodeId, counters, move.taken⟩, move.ended⟩

/-- The engine as a machine whose inputs are the answers of the outside. -/
def machine : Machine EngineAnswers EngineState EngineStep FlowRunEnd where
  turn := engine.turn

/-- The first turns of a run from a state. -/
def run (answers : Nat → EngineAnswers) (start : EngineState) (turns : Nat) :
    Trace EngineState EngineStep FlowRunEnd :=
  engine.machine.trace answers start turns

end FlowEngine

end Orchestrator.Flow
