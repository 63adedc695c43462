import Orchestrator.Flow.Engine

/-! # What one turn of the engine can do

One lemma per function of the engine and, from these, the ways a whole turn
goes. Results about runs use the turn only through this case list.
-/

namespace Orchestrator.Flow

open Orchestrator.Foundation

/-! ## Selected edges -/

/-- The first edge that carries an outcome is outgoing and carries it. -/
theorem carries_of_find {edges : List Edge} {kind : String} {edge : Edge}
    (first : edges.find? (fun edge => decide (edge.outcome = some kind)) = some edge) :
    edge ∈ edges ∧ edge.outcome = some kind :=
  ⟨List.mem_of_find?_eq_some first, by simpa using List.find?_some first⟩

section Selected

variable {node : FlowNode} {edges : List Edge} {outcome : NodeOutcome} {edge : Edge}

/-- The first edge that carries the outcome is selected. -/
theorem selectEdge_of_find
    (first : edges.find? (fun edge => decide (edge.outcome = some outcome.kind)) = some edge) :
    selectEdge node edges outcome = .ok edge := by
  simp only [selectEdge, first]
  split <;> rfl

/-- A selected edge is the first that carries the outcome, or else the one unconditional edge. -/
theorem selectEdge_cases (selected : selectEdge node edges outcome = .ok edge) :
    edges.find? (fun edge => decide (edge.outcome = some outcome.kind)) = some edge ∨
      edges.filter (fun edge => decide (edge.outcome = none)) = [edge] := by
  cases first : edges.find? fun edge => decide (edge.outcome = some outcome.kind) with
  | some found =>
      rw [selectEdge_of_find first] at selected
      cases selected
      exact .inl rfl
  | none =>
      simp only [selectEdge, first] at selected
      split at selected
      · cases selected
      · split at selected
        · split at selected
          · rename_i single only
            cases selected
            exact .inr only
          · cases selected
        · cases selected

/-- A selected edge is an outgoing one. -/
theorem mem_of_selectEdge (selected : selectEdge node edges outcome = .ok edge) : edge ∈ edges := by
  rcases selectEdge_cases selected with first | only
  · exact (carries_of_find first).1
  · exact List.mem_of_mem_filter (only ▸ List.mem_singleton_self edge)

/-- A selected rework or fail edge is the first one that carries the outcome. -/
theorem find_of_selectEdge (selected : selectEdge node edges outcome = .ok edge)
    (charged : edge.isRework = true) :
    edges.find? (fun edge => decide (edge.outcome = some outcome.kind)) = some edge := by
  rcases selectEdge_cases selected with first | only
  · exact first
  · have unconditional := (List.mem_filter.mp (only ▸ List.mem_singleton_self edge)).2
    rw [decide_eq_true_eq] at unconditional
    rw [Edge.isRework, unconditional] at charged
    cases charged

/-- An edge selected among the outgoing edges of a node is an edge of the flow from that node. -/
theorem listed_of_selectEdge {snapshot : FlowSnapshot}
    (selected : selectEdge node (snapshot.adjacency node.id) outcome = .ok edge) :
    edge ∈ snapshot.doc.edges ∧ edge.fromNode = node.id :=
  (snapshot.mem_adjacency_iff _ edge).mp (mem_of_selectEdge selected)

end Selected

/-! ## Counters charged and reset -/

/-- The counters a rework or fail edge raises. -/
def chargedKeys (edge : Edge) : List String :=
  FlowRunState.globalFixKey ::
    match edge.loop with
    | some loop => [loop, FlowRunState.totalKey loop]
    | none => if edge.budget.isSome then [edgeKey edge] else []

/-- The counter an edge zeroes when its node is left forward. -/
def edgeResetKeys (edge : Edge) : List String :=
  if edge.isRework then
    match edge.loop with
    | some loop => [loop]
    | none => if edge.budget.isSome then [edgeKey edge] else []
  else []

/-- The counters zeroed when a node is left forward. -/
def resetKeys (snapshot : FlowSnapshot) (nodeId : String) : List String :=
  (snapshot.adjacency nodeId).flatMap edgeResetKeys

/-- A charge adds, for each key it names, how often it names it. -/
theorem charge_counter (runState : FlowRunState) (edge : Edge) (key : String) :
    (FlowEngine.chargeOwn (recordRework runState) edge).counter key =
      runState.counter key + (chargedKeys edge).count key := by
  unfold FlowEngine.chargeOwn chargedKeys recordRework
  cases edge.loop with
  | some loop =>
      simp only [FlowRunState.bump_counter, List.count_cons, List.count_nil, beq_iff_eq]
      omega
  | none =>
      cases edge.budget with
      | some budget =>
          simp only [Option.isSome_some, ↓reduceIte, FlowRunState.bump_counter, List.count_cons,
            List.count_nil, beq_iff_eq]
          omega
      | none =>
          simp only [Option.isSome_none, Bool.false_eq_true, ↓reduceIte,
            FlowRunState.bump_counter, List.count_cons, List.count_nil, beq_iff_eq]
          omega

theorem chargeOwn_currentNode (runState : FlowRunState) (edge : Edge) :
    (FlowEngine.chargeOwn runState edge).currentNode = runState.currentNode := by
  unfold FlowEngine.chargeOwn
  cases edge.loop with
  | some loop => rfl
  | none => cases edge.budget <;> rfl

theorem resetEdge_counter (state : EngineState) (edge : Edge) (key : String) :
    (FlowEngine.resetEdge state edge).runState.counter key =
      if key ∈ edgeResetKeys edge then 0 else state.runState.counter key := by
  unfold FlowEngine.resetEdge edgeResetKeys
  cases edge.isRework with
  | false => simp
  | true =>
      cases edge.loop with
      | some loop => simp [FlowRunState.reset_counter]
      | none => cases edge.budget <;> simp [FlowRunState.reset_counter]

theorem resetEdges_counter (edges : List Edge) (state : EngineState) (key : String) :
    (edges.foldl FlowEngine.resetEdge state).runState.counter key =
      if key ∈ edges.flatMap edgeResetKeys then 0 else state.runState.counter key := by
  induction edges generalizing state with
  | nil => simp
  | cons edge rest ih =>
      rw [List.foldl_cons, ih, resetEdge_counter]
      simp only [List.flatMap_cons, List.mem_append]
      by_cases later : key ∈ rest.flatMap edgeResetKeys
      · simp only [later, ↓reduceIte, or_true]
      · simp only [later, ↓reduceIte, or_false]

/-- Leaving a node forward zeroes exactly the counters anchored at it. -/
theorem resetLoopsAt_counter (engine : FlowEngine) (state : EngineState) (nodeId key : String) :
    (engine.resetLoopsAt state nodeId).runState.counter key =
      if key ∈ resetKeys engine.snapshot nodeId then 0 else state.runState.counter key :=
  resetEdges_counter _ state key

/-! ## One lemma per function -/

namespace FlowEngine

variable (engine : FlowEngine)

@[simp] theorem applyOverrides_id (node : FlowNode) :
    (engine.applyOverrides node).id = node.id := by
  unfold applyOverrides
  split
  · rfl
  · split <;> rfl

@[simp] theorem applyOverrides_kind (node : FlowNode) :
    (engine.applyOverrides node).kind = node.kind := by
  unfold applyOverrides
  split
  · rfl
  · split <;> rfl

/-- Overrides leave a node advisory or not, as it was. -/
@[simp] theorem applyOverrides_advisory (node : FlowNode) :
    advisory (engine.applyOverrides node) = advisory node := by
  unfold applyOverrides
  split
  · rfl
  · split <;> rfl

@[simp] theorem executeNode_runState (answers : EngineAnswers) (state : EngineState)
    (node : FlowNode) : (engine.executeNode answers state node).1.runState = state.runState := by
  unfold executeNode
  split
  · rfl
  · split <;> rfl

/-- The outcome of a node is its runner's or, when it is skipped, its pass-through one. -/
theorem executeNode_ok {answers : EngineAnswers} {state next : EngineState} {node : FlowNode}
    {outcome : NodeOutcome}
    (executed : engine.executeNode answers state node = (next, .ok outcome)) :
    outcome = skipOutcome node ∨
      answers.run node (engine.nodeContext state.runState node) = .ok outcome := by
  unfold executeNode at executed
  split at executed
  · exact .inl (Except.ok.inj (Prod.mk.inj executed).2).symm
  · split at executed
    · cases (Prod.mk.inj executed).2
    · obtain ⟨_, result⟩ := Prod.mk.inj executed
      split at result
      · cases result
      · rename_i returned ran
        split at result
        · cases result
        · exact .inr (Except.ok.inj result ▸ ran)

/-- A node that is run returns its runner's outcome. -/
theorem executeNode_of_run {answers : EngineAnswers} {state : EngineState} {node : FlowNode}
    {outcome : NodeOutcome} (runs : engine.shouldSkip answers node = false)
    (registered : node.kind ∈ engine.runnerKinds)
    (ran : answers.run node (engine.nodeContext state.runState node) = .ok outcome)
    (hooked : answers.postNode node outcome = none) :
    engine.executeNode answers state node =
      (state.addNodeRun (engine.nodeRunRow node none), .ok outcome) := by
  simp only [executeNode, runs, registered, not_true, Bool.false_eq_true, ↓reduceIte, ran, hooked]

/-- A node fails by raising, or for want of a runner. -/
theorem executeNode_error {answers : EngineAnswers} {state next : EngineState} {node : FlowNode}
    {ended : FlowRunEnd} (failed : engine.executeNode answers state node = (next, .error ended)) :
    (node.kind ∉ engine.runnerKinds ∧ ended = .internalError (.noRunner node.kind)) ∨
      ∃ message, ended = .raised message := by
  unfold executeNode at failed
  split at failed
  · cases (Prod.mk.inj failed).2
  · split at failed
    · rename_i unregistered
      cases (Prod.mk.inj failed).2
      exact .inl ⟨unregistered, rfl⟩
    · obtain ⟨_, result⟩ := Prod.mk.inj failed
      split at result
      · cases result
        exact .inr ⟨_, rfl⟩
      · split at result
        · cases result
          exact .inr ⟨_, rfl⟩
        · cases result

theorem checkStall_runState (answers : EngineAnswers) (state : EngineState)
    (nodeId loop : String) :
    (engine.checkStall answers state nodeId loop).1.runState = state.runState := by
  simp only [checkStall, checkNoFileChange]
  split <;> rfl

theorem checkStall_store (answers : EngineAnswers) (state : EngineState) (nodeId loop : String) :
    (engine.checkStall answers state nodeId loop).1.store = state.store := by
  simp only [checkStall, checkNoFileChange]
  split <;> rfl

/-- A charged edge was not refused. -/
theorem chargeRework_admitted {state next : EngineState} {edge : Edge}
    (admitted : engine.chargeRework state edge = (next, none)) :
    engine.reworkRefusal state.runState edge = none ∧
      next = state.mapRunState fun runState => chargeOwn (recordRework runState) edge := by
  unfold chargeRework at admitted
  cases refusal : engine.reworkRefusal state.runState edge with
  | some refused => simp [refusal] at admitted
  | none =>
      simp only [refusal, Prod.mk.injEq, and_true] at admitted
      exact ⟨rfl, admitted.symm⟩

/-- A stuck edge was refused, and nothing was charged. -/
theorem chargeRework_stuck {state next : EngineState} {edge : Edge} {stuck : Stuck}
    (refused : engine.chargeRework state edge = (next, some stuck)) :
    next = state ∧ ∃ refusal, engine.reworkRefusal state.runState edge = some refusal ∧
      stuck = ⟨refusal.loop, refusal.limitName⟩ := by
  unfold chargeRework at refused
  cases refusal : engine.reworkRefusal state.runState edge with
  | some reason =>
      simp only [refusal, Prod.mk.injEq, Option.some.injEq] at refused
      exact ⟨refused.1.symm, reason, rfl, refused.2.symm⟩
  | none => simp [refusal] at refused

/-- An admitted edge was not refused; the state differs by the charge and the guards' memory. -/
theorem admitRework_admitted {answers : EngineAnswers} {state next : EngineState}
    {node : FlowNode} {edge : Edge}
    (admitted : engine.admitRework answers state node edge = (next, none)) :
    engine.reworkRefusal state.runState edge = none ∧
      next.runState = chargeOwn (recordRework state.runState) edge ∧ next.store = state.store := by
  unfold admitRework at admitted
  split at admitted
  · rename_i loop named blocking
    have kept := engine.checkStall_runState answers state node.id loop
    have keptStore := engine.checkStall_store answers state node.id loop
    split at admitted
    · cases admitted
    · rename_i guarded checked
      rw [checked] at kept keptStore
      obtain ⟨room, rfl⟩ := engine.chargeRework_admitted admitted
      exact ⟨kept ▸ room, by rw [EngineState.mapRunState_runState, kept], keptStore⟩
  · obtain ⟨room, rfl⟩ := engine.chargeRework_admitted admitted
    exact ⟨room, rfl, rfl⟩

/-- Without guards a rework or fail edge with room is admitted. -/
theorem admitRework_of_room (answers : EngineAnswers) {state : EngineState} (node : FlowNode)
    {edge : Edge} (diff : engine.watchesDiff = false) (findings : engine.watchesFindings = false)
    (room : engine.reworkRefusal state.runState edge = none) :
    ∃ next, engine.admitRework answers state node edge = (next, none) := by
  have charged : ∃ next, engine.chargeRework state edge = (next, none) := by
    simp only [chargeRework, room]
    exact ⟨_, rfl⟩
  have unguarded : ∀ loop, engine.checkStall answers state node.id loop = (state, none) := by
    intro loop
    simp [checkStall, checkNoFileChange, checkRepeatedFindings, diff, findings]
  simp only [admitRework, unguarded]
  split
  · exact charged
  · exact charged

/-- An edge that is not admitted is held by a guard or refused; no counter changes. -/
theorem admitRework_stuck {answers : EngineAnswers} {state next : EngineState} {node : FlowNode}
    {edge : Edge} {stuck : Stuck}
    (held : engine.admitRework answers state node edge = (next, some stuck)) :
    next.runState = state.runState ∧ next.store = state.store ∧
      ((advisory node = false ∧ edge.loop.isSome = true) ∨
        ∃ refusal, engine.reworkRefusal state.runState edge = some refusal) := by
  unfold admitRework at held
  split at held
  · rename_i loop named blocking
    have kept := engine.checkStall_runState answers state node.id loop
    have keptStore := engine.checkStall_store answers state node.id loop
    split at held
    · rename_i guarded reason checked
      rw [checked] at kept keptStore
      simp only [Prod.mk.injEq] at held
      rw [← held.1]
      exact ⟨kept, keptStore, .inl ⟨blocking, by rw [named]; rfl⟩⟩
    · rename_i guarded checked
      rw [checked] at kept keptStore
      obtain ⟨rfl, refusal, refused, _⟩ := engine.chargeRework_stuck held
      exact ⟨kept, keptStore, .inl ⟨blocking, by rw [named]; rfl⟩⟩
  · obtain ⟨rfl, refusal, refused, _⟩ := engine.chargeRework_stuck held
    exact ⟨rfl, rfl, .inr ⟨refusal, refused⟩⟩

/-! ## The ways a turn goes -/

/-- The current node was dispatched and returned an outcome; `ready` is the state in which its
edges are considered. -/
structure Returns (answers : EngineAnswers) (state : EngineState) (node : FlowNode)
    (outcome : NodeOutcome) (ready : EngineState) : Prop where
  notCancelled : answers.isCancelled = false
  known : ∃ fetched, engine.snapshot.nodesById node.id = some fetched ∧
    node = engine.applyOverrides fetched
  executed : ∃ runState next, engine.seed state.runState = .ok (runState, node.id) ∧
    engine.executeNode answers { state with runState } node = (next, .ok outcome) ∧
    ready = next.mapRunState fun runState => runState.markCompleted node.id

/-- The turn of a dispatched node that leaves the engine at a move. -/
def moveTurn (state : EngineState) (node : FlowNode) (move : Move) :
    Turn EngineState EngineStep FlowRunEnd :=
  ⟨move.state, ⟨some node.id, state.runState.counter, move.taken⟩, move.ended⟩

/-- Following an edge ends the run only when the edge leaves the region, and then as done. -/
theorem follow_ended {state next : EngineState} {node : FlowNode} {edge : Edge} {ended : FlowRunEnd}
    (stops : (moveTurn state node (engine.follow next node edge)).result = some ended) :
    engine.leavesRegion edge = true ∧
      ended = .returned { status := .done, finalNode := node.id } := by
  simp only [moveTurn, follow] at stops
  split at stops
  · rename_i leaves
    exact ⟨leaves, (Option.some.inj stops).symm⟩
  · cases stops

/-- The ways one turn goes. -/
inductive TurnPath (answers : EngineAnswers) (state : EngineState) :
    Turn EngineState EngineStep FlowRunEnd → Prop
  | noEntry (error : EngineInternalError) (unseeded : engine.seed state.runState = .error error) :
      TurnPath answers state
        ⟨state, ⟨none, state.runState.counter, none⟩, some (.internalError error)⟩
  | cancelled (runState : FlowRunState) (nodeId : String)
      (seeded : engine.seed state.runState = .ok (runState, nodeId))
      (stopped : answers.isCancelled = true) :
      TurnPath answers state ⟨({ state with runState } : EngineState).saveCheckpoint,
        ⟨none, state.runState.counter, none⟩, some (.flowCancelled nodeId)⟩
  | missing (runState : FlowRunState) (nodeId : String)
      (seeded : engine.seed state.runState = .ok (runState, nodeId))
      (absent : engine.snapshot.nodesById nodeId = none) :
      TurnPath answers state
        ⟨{ state with runState }, ⟨none, state.runState.counter, none⟩, some (.keyError nodeId)⟩
  | failed (runState : FlowRunState) (node : FlowNode) (next : EngineState) (ended : FlowRunEnd)
      (seeded : engine.seed state.runState = .ok (runState, node.id))
      (known : ∃ fetched, engine.snapshot.nodesById node.id = some fetched ∧
        node = engine.applyOverrides fetched)
      (raised : engine.executeNode answers { state with runState } node = (next, .error ended)) :
      TurnPath answers state (moveTurn state node { state := next, ended := some ended })
  | finished (node : FlowNode) (outcome : NodeOutcome) (ready : EngineState)
      (returns : engine.Returns answers state node outcome ready)
      (terminal : engine.snapshot.adjacency node.id = []) :
      TurnPath answers state (moveTurn state node {
        state := ready.saveCheckpoint
        ended := some (.returned { status := .done, finalNode := node.id }) })
  | unmatched (node : FlowNode) (outcome : NodeOutcome) (ready : EngineState)
      (error : EngineInternalError) (returns : engine.Returns answers state node outcome ready)
      (inner : engine.snapshot.adjacency node.id ≠ [])
      (unselected : selectEdge node (engine.snapshot.adjacency node.id) outcome = .error error) :
      TurnPath answers state (moveTurn state node {
        state := ready
        ended := some (.internalError error) })
  | parked (node : FlowNode) (outcome : NodeOutcome) (ready next : EngineState) (edge : Edge)
      (stuck : Stuck) (returns : engine.Returns answers state node outcome ready)
      (selected : selectEdge node (engine.snapshot.adjacency node.id) outcome = .ok edge)
      (rework : edge.isRework = true)
      (held : engine.admitRework answers ready node edge = (next, some stuck)) :
      TurnPath answers state (moveTurn state node (engine.park next node stuck))
  | charged (node : FlowNode) (outcome : NodeOutcome) (ready next : EngineState) (edge : Edge)
      (returns : engine.Returns answers state node outcome ready)
      (selected : selectEdge node (engine.snapshot.adjacency node.id) outcome = .ok edge)
      (rework : edge.isRework = true)
      (admitted : engine.admitRework answers ready node edge = (next, none)) :
      TurnPath answers state (moveTurn state node (engine.follow next node edge))
  | forward (node : FlowNode) (outcome : NodeOutcome) (ready : EngineState) (edge : Edge)
      (returns : engine.Returns answers state node outcome ready)
      (selected : selectEdge node (engine.snapshot.adjacency node.id) outcome = .ok edge)
      (plain : edge.isRework = false) :
      TurnPath answers state (moveTurn state node
        (engine.follow (engine.resetLoopsAt ready node.id) node edge))

variable {engine}

private theorem advance_path {answers : EngineAnswers} {state ready : EngineState}
    {node : FlowNode} {outcome : NodeOutcome}
    (returns : engine.Returns answers state node outcome ready) :
    engine.TurnPath answers state
      (moveTurn state node (engine.advance answers ready node outcome)) := by
  unfold advance
  split
  · rename_i terminal
    exact .finished node outcome ready returns terminal
  · rename_i inner
    cases selected : selectEdge node (engine.snapshot.adjacency node.id) outcome with
    | error error => exact .unmatched node outcome ready error returns inner selected
    | ok edge =>
        dsimp only
        unfold traverse
        cases rework : edge.isRework with
        | false => exact .forward node outcome ready edge returns selected rework
        | true =>
            rcases held : engine.admitRework answers ready node edge with ⟨next, stuck | stuck⟩
            · exact .charged node outcome ready next edge returns selected rework held
            · exact .parked node outcome ready next edge stuck returns selected rework held

variable (engine) in
/-- Every turn goes in one of the listed ways. -/
theorem turn_path (answers : EngineAnswers) (state : EngineState) :
    engine.TurnPath answers state (engine.turn answers state) := by
  unfold turn
  dsimp only
  cases seeded : engine.seed state.runState with
  | error error => exact .noEntry error seeded
  | ok current =>
      obtain ⟨runState, nodeId⟩ := current
      dsimp only
      cases stopped : answers.isCancelled with
      | true => exact .cancelled runState nodeId seeded stopped
      | false =>
          cases found : engine.snapshot.nodesById nodeId with
          | none => exact .missing runState nodeId seeded found
          | some fetched =>
              obtain ⟨_, rfl⟩ := engine.snapshot.nodesById_eq_some found
              rw [← engine.applyOverrides_id fetched] at seeded found ⊢
              simp only [Bool.false_eq_true, ↓reduceIte]
              generalize overlaid : engine.applyOverrides fetched = node at seeded found ⊢
              unfold dispatch
              rcases executed : engine.executeNode answers { state with runState } node with
                ⟨next, ended | outcome⟩
              · exact .failed runState node next ended seeded ⟨fetched, found, overlaid.symm⟩
                  executed
              · exact advance_path
                  ⟨stopped, ⟨fetched, found, overlaid.symm⟩, runState, next, seeded, executed, rfl⟩

/-! ## What holds of every turn -/

theorem seed_ok {runState seeded : FlowRunState} {nodeId : String}
    (found : engine.seed runState = .ok (seeded, nodeId)) :
    seeded.currentNode = some nodeId ∧ seeded.counter = runState.counter ∧
      ∀ current, runState.currentNode = some current → nodeId = current := by
  unfold seed at found
  cases current : runState.currentNode with
  | some resumed =>
      simp only [current, Except.ok.injEq, Prod.mk.injEq] at found
      obtain ⟨rfl, rfl⟩ := found
      exact ⟨current, rfl, fun _ same => Option.some.inj same⟩
  | none =>
      simp only [current] at found
      split at found
      · cases found
      · simp only [Except.ok.injEq, Prod.mk.injEq] at found
        obtain ⟨rfl, rfl⟩ := found
        exact ⟨rfl, rfl, nofun⟩

namespace Returns

variable {answers : EngineAnswers} {state ready : EngineState} {node : FlowNode}
  {outcome : NodeOutcome} (returns : engine.Returns answers state node outcome ready)
include returns

theorem nodeId_mem : node.id ∈ engine.snapshot.nodeIds := by
  obtain ⟨fetched, found, _⟩ := returns.known
  exact (engine.snapshot.nodesById_isSome_iff node.id).mp ⟨fetched, found⟩

theorem ready_counter : ready.runState.counter = state.runState.counter := by
  obtain ⟨runState, next, seeded, executed, rfl⟩ := returns.executed
  have kept := engine.executeNode_runState answers { state with runState } node
  rw [executed] at kept
  funext key
  rw [EngineState.mapRunState_runState, FlowRunState.markCompleted_counter, kept,
    (seed_ok seeded).2.1]

theorem nodeId_eq {current : String} (resumed : state.runState.currentNode = some current) :
    node.id = current := by
  obtain ⟨runState, next, seeded, _, _⟩ := returns.executed
  exact (seed_ok seeded).2.2 current resumed

theorem reworkRefusal_eq (edge : Edge) :
    engine.reworkRefusal ready.runState edge = engine.reworkRefusal state.runState edge :=
  reworkRefusal_congr engine.snapshot returns.ready_counter edge _ _

/-- A turn whose node returned goes on to consider its edges. -/
theorem turn_eq :
    engine.turn answers state =
      moveTurn state node (engine.advance answers ready node outcome) := by
  obtain ⟨fetched, found, overlaid⟩ := returns.known
  obtain ⟨runState, next, seeded, executed, rfl⟩ := returns.executed
  simp only [turn, seeded, returns.notCancelled, Bool.false_eq_true, ↓reduceIte, found,
    ← overlaid, dispatch, executed, moveTurn]

/-- The turn of a selected edge is its traversal. -/
theorem turn_eq_traverse {edge : Edge}
    (selected : selectEdge node (engine.snapshot.adjacency node.id) outcome = .ok edge) :
    engine.turn answers state = moveTurn state node (engine.traverse answers ready node edge) := by
  have outgoing := mem_of_selectEdge selected
  rw [returns.turn_eq]
  simp only [advance]
  split
  · rename_i terminal
    rw [terminal] at outgoing
    cases outgoing
  · rw [selected]

end Returns

/-- The counters after a turn, by the edge it took. -/
def countersAfter (snapshot : FlowSnapshot) (before : String → Nat) (taken : Option Edge)
    (key : String) : Nat :=
  match taken with
  | none => before key
  | some edge =>
      if edge.isRework then before key + (chargedKeys edge).count key
      else if key ∈ resetKeys snapshot edge.fromNode then 0
      else before key

variable (engine)

/-- A turn that took an edge. -/
structure Takes (state : EngineState) (turn : Turn EngineState EngineStep FlowRunEnd)
    (edge : Edge) : Prop where
  outgoing : edge ∈ engine.snapshot.doc.edges
  listed : edge.fromNode ∈ engine.snapshot.nodeIds
  visited : turn.event.visited = some edge.fromNode
  current : ∀ nodeId, state.runState.currentNode = some nodeId → edge.fromNode = nodeId
  moved : turn.next.runState.currentNode = some edge.toNode
  admitted : edge.isRework = true → engine.reworkRefusal state.runState edge = none
  result : turn.result = if engine.leavesRegion edge then
    some (.returned { status := .done, finalNode := edge.fromNode }) else none

/-- A turn takes an edge or ends the run. -/
private theorem takes_or_stops (answers : EngineAnswers) (state : EngineState) :
    match (engine.turn answers state).event.taken with
    | none => (engine.turn answers state).result ≠ none
    | some edge => engine.Takes state (engine.turn answers state) edge := by
  have path := engine.turn_path answers state
  generalize engine.turn answers state = turn at path ⊢
  cases path with
  | noEntry error unseeded => exact nofun
  | cancelled runState nodeId seeded stopped => exact nofun
  | missing runState nodeId seeded absent => exact nofun
  | failed runState node next ended seeded known raised => exact nofun
  | finished node outcome ready returns terminal => exact nofun
  | unmatched node outcome ready error returns inner unselected => exact nofun
  | parked node outcome ready next edge stuck returns selected rework held => exact nofun
  | charged node outcome ready next edge returns selected rework admitted =>
      obtain ⟨outgoing, source⟩ := listed_of_selectEdge selected
      obtain ⟨room, _, _⟩ := engine.admitRework_admitted admitted
      exact {
        outgoing
        listed := source ▸ returns.nodeId_mem
        visited := congrArg some source.symm
        current := fun nodeId resumed => source.trans (returns.nodeId_eq resumed)
        moved := rfl
        admitted := fun _ => returns.reworkRefusal_eq edge ▸ room
        result := by rw [source]; rfl }
  | forward node outcome ready edge returns selected plain =>
      obtain ⟨outgoing, source⟩ := listed_of_selectEdge selected
      exact {
        outgoing
        listed := source ▸ returns.nodeId_mem
        visited := congrArg some source.symm
        current := fun nodeId resumed => source.trans (returns.nodeId_eq resumed)
        moved := rfl
        admitted := fun rework => by rw [plain] at rework; cases rework
        result := by rw [source]; rfl }

variable {engine} in
/-- The edge of a turn is one it takes. -/
theorem turn_takes {answers : EngineAnswers} {state : EngineState} {edge : Edge}
    (taken : (engine.turn answers state).event.taken = some edge) :
    engine.Takes state (engine.turn answers state) edge := by
  have step := engine.takes_or_stops answers state
  simpa only [taken] using step

variable {engine} in
/-- A turn without an edge ends the run. -/
theorem turn_stops {answers : EngineAnswers} {state : EngineState}
    (stayed : (engine.turn answers state).event.taken = none) :
    (engine.turn answers state).result ≠ none := by
  have step := engine.takes_or_stops answers state
  simpa only [stayed] using step

variable {engine} in
/-- A turn that does not end the run takes an edge. -/
theorem turn_goesOn {answers : EngineAnswers} {state : EngineState}
    (running : (engine.turn answers state).result = none) :
    ∃ edge, (engine.turn answers state).event.taken = some edge := by
  apply Option.ne_none_iff_exists'.mp
  intro stayed
  exact turn_stops stayed running

/-- How a turn returns from the run: done at a terminal node, done over an edge out of the region,
or parked because a rework or fail edge was not admitted. -/
theorem turn_returned (answers : EngineAnswers) (state : EngineState) {result : FlowRunResult}
    (ended : (engine.turn answers state).result = some (.returned result)) :
    ∃ node outcome ready, engine.Returns answers state node outcome ready ∧
      result.finalNode = node.id ∧
      ((result.status = .done ∧ engine.snapshot.adjacency node.id = []) ∨
        (result.status = .done ∧ ∃ edge, (engine.turn answers state).event.taken = some edge ∧
          selectEdge node (engine.snapshot.adjacency node.id) outcome = .ok edge ∧
          engine.leavesRegion edge = true) ∨
        (result.status = .manualActionRequired ∧ ∃ next edge stuck,
          selectEdge node (engine.snapshot.adjacency node.id) outcome = .ok edge ∧
          edge.isRework = true ∧
          engine.admitRework answers ready node edge = (next, some stuck))) := by
  have path := engine.turn_path answers state
  generalize engine.turn answers state = turn at path ended ⊢
  cases path with
  | noEntry error unseeded => cases ended
  | cancelled runState nodeId seeded stopped => cases ended
  | missing runState nodeId seeded absent => cases ended
  | failed runState node next failure seeded known raised =>
      rcases engine.executeNode_error raised with ⟨_, rfl⟩ | ⟨message, rfl⟩
      · cases ended
      · cases ended
  | finished node outcome ready returns terminal =>
      cases ended
      exact ⟨node, outcome, ready, returns, rfl, .inl ⟨rfl, terminal⟩⟩
  | unmatched node outcome ready error returns inner unselected => cases ended
  | parked node outcome ready next edge stuck returns selected rework held =>
      cases ended
      exact ⟨node, outcome, ready, returns, rfl,
        .inr (.inr ⟨rfl, next, edge, stuck, selected, rework, held⟩)⟩
  | charged node outcome ready next edge returns selected rework admitted =>
      obtain ⟨leaves, same⟩ := engine.follow_ended ended
      cases same
      exact ⟨node, outcome, ready, returns, rfl, .inr (.inl ⟨rfl, edge, rfl, selected, leaves⟩)⟩
  | forward node outcome ready edge returns selected plain =>
      obtain ⟨leaves, same⟩ := engine.follow_ended ended
      cases same
      exact ⟨node, outcome, ready, returns, rfl, .inr (.inl ⟨rfl, edge, rfl, selected, leaves⟩)⟩

/-- The counters of a run change by the edge taken and in no other way. -/
theorem turn_counter (answers : EngineAnswers) (state : EngineState) (key : String) :
    (engine.turn answers state).next.runState.counter key =
      countersAfter engine.snapshot state.runState.counter
        (engine.turn answers state).event.taken key := by
  have path := engine.turn_path answers state
  generalize engine.turn answers state = turn at path ⊢
  cases path with
  | noEntry error unseeded => rfl
  | cancelled runState nodeId seeded stopped => exact congrFun (seed_ok seeded).2.1 key
  | missing runState nodeId seeded absent => exact congrFun (seed_ok seeded).2.1 key
  | failed runState node next ended seeded known raised =>
      have kept := engine.executeNode_runState answers { state with runState } node
      rw [raised] at kept
      change next.runState.counter key = state.runState.counter key
      rw [kept, (seed_ok seeded).2.1]
  | finished node outcome ready returns terminal => exact congrFun returns.ready_counter key
  | unmatched node outcome ready error returns inner unselected =>
      exact congrFun returns.ready_counter key
  | parked node outcome ready next edge stuck returns selected rework held =>
      obtain ⟨kept, _, _⟩ := engine.admitRework_stuck held
      change next.runState.counter key = state.runState.counter key
      rw [kept, returns.ready_counter]
  | charged node outcome ready next edge returns selected rework admitted =>
      obtain ⟨_, kept, _⟩ := engine.admitRework_admitted admitted
      change next.runState.counter key = countersAfter _ _ (some edge) key
      rw [kept, charge_counter, returns.ready_counter]
      simp only [countersAfter, rework, ↓reduceIte]
  | forward node outcome ready edge returns selected plain =>
      have source := (listed_of_selectEdge selected).2
      change (engine.resetLoopsAt ready node.id).runState.counter key =
        countersAfter _ _ (some edge) key
      rw [resetLoopsAt_counter, returns.ready_counter, ← source]
      simp only [countersAfter, plain, Bool.false_eq_true, ↓reduceIte]

/-- A dispatched node is a node of the flow, the current one if there is one. -/
theorem turn_visited (answers : EngineAnswers) (state : EngineState) {nodeId : String}
    (visited : (engine.turn answers state).event.visited = some nodeId) :
    nodeId ∈ engine.snapshot.nodeIds ∧
      ∀ current, state.runState.currentNode = some current → nodeId = current := by
  have path := engine.turn_path answers state
  generalize engine.turn answers state = turn at path visited
  cases path with
  | noEntry error unseeded => cases visited
  | cancelled runState resumed seeded stopped => cases visited
  | missing runState resumed seeded absent => cases visited
  | failed runState node next ended seeded known raised =>
      cases visited
      obtain ⟨fetched, found, _⟩ := known
      exact ⟨(engine.snapshot.nodesById_isSome_iff node.id).mp ⟨fetched, found⟩,
        (seed_ok seeded).2.2⟩
  | finished node outcome ready returns terminal =>
      cases visited
      exact ⟨returns.nodeId_mem, fun _ => returns.nodeId_eq⟩
  | unmatched node outcome ready error returns inner unselected =>
      cases visited
      exact ⟨returns.nodeId_mem, fun _ => returns.nodeId_eq⟩
  | parked node outcome ready next edge stuck returns selected rework held =>
      cases visited
      exact ⟨returns.nodeId_mem, fun _ => returns.nodeId_eq⟩
  | charged node outcome ready next edge returns selected rework admitted =>
      cases visited
      exact ⟨returns.nodeId_mem, fun _ => returns.nodeId_eq⟩
  | forward node outcome ready edge returns selected plain =>
      cases visited
      exact ⟨returns.nodeId_mem, fun _ => returns.nodeId_eq⟩

end FlowEngine

end Orchestrator.Flow
