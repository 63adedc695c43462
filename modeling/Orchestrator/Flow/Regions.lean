import Orchestrator.Flow.Advisory
import Orchestrator.Flow.EngineDriver

/-! # Decomposition regions

The partition takes the first edge it finds into and out of a region, and a run
confined to the region is done as soon as any edge leaves it. What the edges of
a flow must look like for that to be sound is stated on the flow alone.
-/

namespace Orchestrator.Flow

open Orchestrator.Foundation

/-- The edges out of a set of nodes. -/
def regionExits (snapshot : FlowSnapshot) (region : List String) : List Edge :=
  (region.flatMap snapshot.adjacency).filter fun edge => decide (edge.toNode ∉ region)

/-- The first edge of its outcome at its node, with room for a round when nothing is charged yet. -/
def takesRound (snapshot : FlowSnapshot) (edge : Edge) : Bool :=
  decide ((snapshot.adjacency edge.fromNode).find?
    (fun other => decide (other.outcome = edge.outcome)) = some edge) &&
  decide (reworkRefusal snapshot { flowFingerprint := "" } edge large large = none)

/-- The edges at the borders of a region are as the partition and the engine take them to be. -/
structure RegionClosed (snapshot : FlowSnapshot) (decomposition : DecompositionConfig) :
    Prop where
  oneEntry : ∀ first ∈ snapshot.adjacency decomposition.proposedBy,
    ∀ second ∈ snapshot.adjacency decomposition.proposedBy,
      first.toNode ∈ decomposition.subFlow → second.toNode ∈ decomposition.subFlow →
        first.toNode = second.toNode
  oneExit : ∀ first ∈ regionExits snapshot decomposition.subFlow,
    ∀ second ∈ regionExits snapshot decomposition.subFlow, first.toNode = second.toNode
  noReturn : ∀ edge ∈ regionExits snapshot decomposition.subFlow,
    ∀ nodeId ∈ decomposition.subFlow, nodeId ∉ snapshot.reachableNodes edge.toNode
  noTerminal : ∀ nodeId ∈ decomposition.subFlow, snapshot.adjacency nodeId ≠ []
  reworkInside : ∀ edge ∈ regionExits snapshot decomposition.subFlow,
    edge.isRework = true → takesRound snapshot edge = false

/-- What a partition promises: one way in, one way out and no way back. -/
structure PartitionSound (snapshot : FlowSnapshot) (decomposition : DecompositionConfig)
    (regions : DecompositionRegions) : Prop where
  entry : ∀ edge ∈ snapshot.adjacency decomposition.proposedBy,
    edge.toNode ∈ regions.region → edge.toNode = regions.regionEntry
  exit : ∀ edge ∈ regionExits snapshot regions.region, edge.toNode = regions.postEntry
  apart : ∀ nodeId ∈ regions.region, ¬ snapshot.graph.Reaches regions.postEntry nodeId

/-- The partition is computed and sound in whatever order the region is iterated. -/
def PartitionsSoundly (snapshot : FlowSnapshot) (decomposition : DecompositionConfig) : Prop :=
  ∀ order, Enumerates order decomposition.subFlow →
    ∃ regions, partitionDecomposition snapshot order = .ok regions ∧
      PartitionSound snapshot decomposition regions

/-- A run confined to a region from a checkpoint in it is done only after a forward edge out. -/
def DoneByForwardExit (snapshot : FlowSnapshot) (region : List String) : Prop :=
  ∀ engine : FlowEngine, engine.snapshot = snapshot → engine.region = some region →
    ∀ (answers : Nat → EngineAnswers) (start : EngineState), (∃ nodeId ∈ region,
      start.runState.currentNode = some nodeId) → ∀ turns result,
        (engine.run answers start turns).result = some (.returned result) →
        result.status = .done →
          ∃ earlier last edge, (engine.run answers start turns).events = earlier ++ [last] ∧
            last.taken = some edge ∧ edge.toNode ∉ region ∧ edge.isRework = false

variable {snapshot : FlowSnapshot} {decomposition : DecompositionConfig}

theorem mem_regionExits_iff {region : List String} {edge : Edge} :
    edge ∈ regionExits snapshot region ↔
      edge ∈ snapshot.doc.edges ∧ edge.fromNode ∈ region ∧ edge.toNode ∉ region := by
  simp only [regionExits, List.mem_filter, List.mem_flatMap, snapshot.mem_adjacency_iff,
    decide_eq_true_eq]
  constructor
  · rintro ⟨⟨nodeId, member, listed, rfl⟩, leaves⟩
    exact ⟨listed, member, leaves⟩
  · rintro ⟨listed, member, leaves⟩
    exact ⟨⟨edge.fromNode, member, listed, rfl⟩, leaves⟩

/-- The edges out of a set do not depend on how it is listed. -/
theorem mem_regionExits_congr {order members : List String} (enumerates : Enumerates order members)
    {edge : Edge} : edge ∈ regionExits snapshot order ↔ edge ∈ regionExits snapshot members := by
  rw [mem_regionExits_iff, mem_regionExits_iff, enumerates.2, enumerates.2]

/-- Every set can be listed without repetition. -/
theorem enumerates_dedup (members : List String) : Enumerates members.dedup members :=
  ⟨members.nodup_dedup, fun _ => List.mem_dedup⟩

/-! ## The partition -/

/-- An accepted flow with closed borders is partitioned soundly. -/
theorem RegionClosed.partitionsSoundly (closed : RegionClosed snapshot decomposition)
    (accepted : Accepted snapshot) (declared : snapshot.doc.decomposition = some decomposition) :
    PartitionsSoundly snapshot decomposition := by
  intro order enumerates
  obtain ⟨regions, partitioned⟩ := accepted.partitionDecomposition_isOk declared enumerates
  obtain ⟨other, same, listed, entered, left⟩ := partitionDecomposition_ok partitioned
  cases Option.some.inj (declared.symm.trans same)
  obtain ⟨inward, outgoing, inside, entry⟩ := findRegionEntry_eq_some entered
  obtain ⟨nodeId, member, outward, leaving, forward, exit⟩ := findPostEntry_eq_some left
  obtain ⟨edgeMem, source⟩ := (snapshot.mem_adjacency_iff nodeId outward).mp leaving
  simp only [isForwardExit, Bool.and_eq_true, decide_eq_true_eq] at forward
  have outwardExit : outward ∈ regionExits snapshot decomposition.subFlow :=
    (mem_regionExits_congr enumerates).mp
      (mem_regionExits_iff.mpr ⟨edgeMem, source ▸ member, forward.1⟩)
  refine ⟨regions, partitioned, {
    entry := ?_
    exit := ?_
    apart := ?_ }⟩
  · intro edge proposed within
    rw [listed, enumerates.2] at within
    rw [enumerates.2] at inside
    exact entry ▸ closed.oneEntry edge proposed inward outgoing within inside
  · intro edge leaves
    rw [listed, mem_regionExits_congr enumerates] at leaves
    exact exit ▸ closed.oneExit edge leaves outward outwardExit
  · intro other within reaches
    rw [listed, enumerates.2] at within
    rw [← exit, ← snapshot.mem_reachableNodes_iff] at reaches
    exact closed.noReturn outward outwardExit other within reaches

/-! ## Confined runs -/

namespace FlowEngine

variable {engine : FlowEngine} {region : List String}

theorem leavesRegion_iff (confined : engine.region = some region) (edge : Edge) :
    engine.leavesRegion edge = true ↔ edge.toNode ∉ region := by
  simp only [leavesRegion, confined, decide_eq_true_eq]

/-- A confined run that goes on stays in its region. -/
theorem run_confined (confined : engine.region = some region) (answers : Nat → EngineAnswers)
    {start : EngineState} (inside : ∃ nodeId ∈ region, start.runState.currentNode = some nodeId)
    (turns : Nat) (running : (engine.run answers start turns).result = none) :
    ∃ nodeId ∈ region, (engine.run answers start turns).state.runState.currentNode =
      some nodeId := by
  revert running
  refine engine.machine.trace_induction (fun trace => trace.result = none →
    ∃ nodeId ∈ region, trace.state.runState.currentNode = some nodeId) (fun _ => inside) ?_ turns
  intro count before _ _ _ running
  change (engine.turn (answers count) before.state).result = none at running
  obtain ⟨edge, followed⟩ := turn_goesOn running
  have taken := turn_takes followed
  refine ⟨edge.toNode, ?_, taken.moved⟩
  by_contra outside
  have stops := taken.result
  rw [running, if_pos ((leavesRegion_iff confined edge).mpr outside)] at stops
  cases stops

/-- Room under some counters and limits is room under none and the widest. -/
theorem reworkRefusal_fresh {runState : FlowRunState} {edge : Edge}
    {maxFixCycles maxTotalFixIterations : Int}
    (room : Flow.reworkRefusal snapshot runState edge maxFixCycles maxTotalFixIterations = none) :
    Flow.reworkRefusal snapshot { flowFingerprint := "" } edge large large = none := by
  obtain ⟨own, total⟩ := (reworkRefusal_eq_none_iff ..).mp room
  obtain ⟨loops, inlines⟩ := ownRefusal_eq_none_iff.mp own
  refine (reworkRefusal_eq_none_iff ..).mpr ⟨ownRefusal_eq_none_iff.mpr ⟨?_, ?_⟩, ?_⟩
  · intro loop named
    have under := loops loop named
    change (0 : Int) < min _ large
    simp only [loopCap, large] at under ⊢
    omega
  · intro budget unnamed inline
    have under := inlines budget unnamed inline
    change (0 : Int) < budget
    omega
  · change (0 : Int) < min _ large
    simp only [Flow.globalCap, large] at total ⊢
    omega

/-- A done turn is at a terminal node or takes an edge out of the region, which has room if it is
charged. -/
theorem turn_done (answers : EngineAnswers) {state : EngineState} {nodeId : String}
    (current : state.runState.currentNode = some nodeId) {result : FlowRunResult}
    (ended : (engine.turn answers state).result = some (.returned result))
    (done : result.status = .done) :
    engine.snapshot.adjacency nodeId = [] ∨
      ∃ edge, (engine.turn answers state).event.taken = some edge ∧
        engine.leavesRegion edge = true ∧ edge ∈ engine.snapshot.doc.edges ∧
        edge.fromNode = nodeId ∧
        (edge.isRework = true → takesRound engine.snapshot edge = true) := by
  obtain ⟨node, outcome, ready, returns, _, ended⟩ := engine.turn_returned answers state ended
  have same : node.id = nodeId := returns.nodeId_eq current
  rcases ended with ⟨_, terminal⟩ | ⟨_, edge, took, selected, leaves⟩ | ⟨manual, _⟩
  · exact .inl (same ▸ terminal)
  · obtain ⟨listed, source⟩ := listed_of_selectEdge selected
    refine .inr ⟨edge, took, leaves, listed, source.trans same, fun rework => ?_⟩
    have first := find_of_selectEdge selected rework
    simp only [takesRound, Bool.and_eq_true, decide_eq_true_eq, source, (carries_of_find first).2]
    exact ⟨first, reworkRefusal_fresh ((turn_takes took).admitted rework)⟩
  · rw [done] at manual
    cases manual

end FlowEngine

/-- Closed borders let a confined run be done only by a forward edge. -/
theorem RegionClosed.doneByForwardExit (closed : RegionClosed snapshot decomposition) :
    DoneByForwardExit snapshot decomposition.subFlow := by
  rintro engine rfl confined answers start inside turns result ended done
  obtain ⟨last, running, stopped, lastTurn⟩ := engine.machine.exists_last_turn ended
  obtain ⟨nodeId, within, current⟩ := FlowEngine.run_confined confined answers inside last running
  have events := congrArg Trace.events stopped
  rw [engine.machine.trace_succ, engine.machine.extend_of_running running] at events
  rcases FlowEngine.turn_done (answers last) current lastTurn done with
    terminal | ⟨edge, taken, leaves, listed, source, room⟩
  · exact absurd terminal (closed.noTerminal nodeId within)
  · have outside := (FlowEngine.leavesRegion_iff confined edge).mp leaves
    refine ⟨_, _, edge, events, taken, outside, ?_⟩
    by_contra rework
    rw [Bool.not_eq_false] at rework
    have exits := mem_regionExits_iff.mpr ⟨listed, source ▸ within, outside⟩
    rw [closed.reworkInside edge exits rework] at room
    exact absurd (room rework) Bool.false_ne_true

/-! ## Borders that are not closed -/

/-- In particular a run that is done in its first turn has taken a forward edge. -/
theorem DoneByForwardExit.first_turn {region : List String}
    (forward : DoneByForwardExit snapshot region) {nodeId : String} (inside : nodeId ∈ region)
    {answers : EngineAnswers} {finalNode : String}
    (ended : ((plainEngine snapshot (some region)).turn answers (startAt nodeId)).result =
      some (.returned { status := .done, finalNode })) :
    ∃ edge, ((plainEngine snapshot (some region)).turn answers (startAt nodeId)).event.taken =
      some edge ∧ edge.isRework = false := by
  obtain ⟨earlier, last, edge, events, taken, _, plain⟩ :=
    forward (plainEngine snapshot (some region)) rfl rfl (fun _ => answers) (startAt nodeId)
      ⟨nodeId, inside, rfl⟩ 1 _ ended rfl
  have only := congrArg List.getLast? events
  rw [List.getLast?_concat] at only
  refine ⟨edge, ?_, plain⟩
  rw [← taken]
  exact congrArg EngineStep.taken (Option.some.inj only)

/-- A terminal node ends the run done without an edge. -/
theorem DoneByForwardExit.noTerminal {region : List String}
    (forward : DoneByForwardExit snapshot region) {nodeId : String} (inside : nodeId ∈ region)
    (listed : nodeId ∈ snapshot.nodeIds) : snapshot.adjacency nodeId ≠ [] := by
  intro terminal
  obtain ⟨node, member, rfl⟩ := List.mem_map.mp listed
  obtain ⟨ready, returns⟩ := returns_answersAt member (some region)
    (fun node _ => .ok (skipOutcome node)) rfl
  have turn := returns.turn_eq
  simp only [FlowEngine.advance,
    show (plainEngine snapshot (some region)).snapshot = snapshot from rfl, terminal] at turn
  obtain ⟨edge, taken, _⟩ := forward.first_turn inside (congrArg Turn.result turn)
  rw [turn] at taken
  cases taken

/-- A charged edge with room ends the run done when it leaves the region. -/
theorem DoneByForwardExit.reworkInside {region : List String}
    (forward : DoneByForwardExit snapshot region) (accepted : Accepted snapshot) {edge : Edge}
    (exits : edge ∈ regionExits snapshot region) (rework : edge.isRework = true) :
    takesRound snapshot edge = false := by
  by_contra room
  rw [Bool.not_eq_false, takesRound, Bool.and_eq_true, decide_eq_true_eq, decide_eq_true_eq] at room
  obtain ⟨first, unrefused⟩ := room
  obtain ⟨listed, inside, outside⟩ := mem_regionExits_iff.mp exits
  obtain ⟨node, member, source⟩ := List.mem_map.mp (accepted.edge_fromNode_mem listed)
  obtain ⟨kind, carries⟩ := edge.outcome_of_isRework rework
  obtain ⟨ready, returns⟩ := returns_answersAt member (some region)
    (fun _ _ => .ok { kind }) rfl
  rw [carries, ← source] at first
  have refusal := returns.reworkRefusal_eq edge
  have fresh : (plainEngine snapshot (some region)).reworkRefusal (startAt node.id).runState edge =
      none := unrefused
  obtain ⟨next, admitted⟩ := (plainEngine snapshot (some region)).admitRework_of_room
    (answersAt node fun _ _ => .ok { kind }) node rfl rfl (refusal.trans fresh)
  have turn := returns.turn_eq_traverse (selectEdge_of_find first)
  have leaves : (plainEngine snapshot (some region)).leavesRegion edge = true :=
    (FlowEngine.leavesRegion_iff rfl edge).mpr outside
  simp only [FlowEngine.traverse, rework, ↓reduceIte, admitted, FlowEngine.follow, leaves] at turn
  obtain ⟨other, taken, plain⟩ := forward.first_turn (source ▸ inside) (congrArg Turn.result turn)
  rw [turn] at taken
  cases taken
  rw [rework] at plain
  cases plain

/-! ## The promise -/

/-- A decomposed flow is partitioned soundly and its regions are left forward exactly when the
borders of the region are closed. -/
theorem decomposition_sound_iff (accepted : Accepted snapshot)
    (declared : snapshot.doc.decomposition = some decomposition) :
    (PartitionsSoundly snapshot decomposition ∧
      DoneByForwardExit snapshot decomposition.subFlow) ↔
    RegionClosed snapshot decomposition := by
  constructor
  · rintro ⟨partitions, forward⟩
    have enumerates := enumerates_dedup decomposition.subFlow
    obtain ⟨regions, partitioned, sound⟩ := partitions _ enumerates
    obtain ⟨_, _, listed, _, _⟩ := partitionDecomposition_ok partitioned
    have within : ∀ nodeId, nodeId ∈ regions.region ↔ nodeId ∈ decomposition.subFlow := by
      rw [listed]
      exact enumerates.2
    have exits : ∀ edge ∈ regionExits snapshot decomposition.subFlow,
        edge.toNode = regions.postEntry := fun edge leaves =>
      sound.exit edge (listed ▸ (mem_regionExits_congr enumerates).mpr leaves)
    exact {
      oneEntry := fun first left second right inside within' =>
        (sound.entry first left ((within _).mpr inside)).trans
          (sound.entry second right ((within _).mpr within')).symm
      oneExit := fun first left second right => (exits first left).trans (exits second right).symm
      noReturn := fun edge leaves nodeId inside reaches =>
        sound.apart nodeId ((within _).mpr inside)
          (exits edge leaves ▸ (snapshot.mem_reachableNodes_iff _ _).mp reaches)
      noTerminal := fun nodeId inside => forward.noTerminal inside
        ((accepted.decomposition_sound declared).subFlow_mem nodeId inside)
      reworkInside := fun edge leaves rework => forward.reworkInside accepted leaves rework }
  · exact fun closed => ⟨closed.partitionsSoundly accepted declared, closed.doneByForwardExit⟩

theorem decomposition_sound_repairFlow :
    PartitionsSoundly repairFlow
        { proposedBy := "planning", subFlow := ["coding", "testing", "review"] } ∧
      DoneByForwardExit repairFlow ["coding", "testing", "review"] :=
  (decomposition_sound_iff (show Accepted repairFlow by decide) rfl).mpr {
    oneEntry := by decide
    oneExit := by decide
    noReturn := by decide
    noTerminal := by decide
    reworkInside := by decide }

/-! ## A fail edge out of the region -/

/-- A failed test leaves for a repair outside the region. -/
def escapingEdge : Edge :=
  { fromNode := "testing", toNode := "fixing", outcome := some "fail", budget := some 2 }

/-- A region of coding and testing, with the repair outside it. -/
def escapingFlow : FlowSnapshot where
  doc := {
    permissionCeiling := .workspaceWrite
    outputPolicy := .codeChange
    nodes := [
      .agent { id := "planning", roleFile := "planning.md" },
      .agent { id := "coding", roleFile := "coding.md" },
      .checks { id := "testing" },
      .agent { id := "fixing", roleFile := "fixing.md" },
      .publish { id := "publish" }]
    edges := [
      { fromNode := "planning", toNode := "coding" },
      { fromNode := "coding", toNode := "testing" },
      { fromNode := "testing", toNode := "publish", outcome := some "pass" },
      escapingEdge,
      { fromNode := "fixing", toNode := "publish" }]
    budgets := ∅
    decomposition := some { proposedBy := "planning", subFlow := ["coding", "testing"] } }
  flowFingerprint := "escaping"
  idsValid := by decide
  idsUnique := by decide

/-- The validator accepts a fail edge out of the region: it does not lead to the node after the
region, and a run confined to the region is done as soon as its test has failed. -/
theorem escapingFlow_escapes : Accepted escapingFlow ∧
    ¬ PartitionsSoundly escapingFlow
        { proposedBy := "planning", subFlow := ["coding", "testing"] } ∧
    ¬ DoneByForwardExit escapingFlow ["coding", "testing"] := by
  have accepted : Accepted escapingFlow := by decide
  refine ⟨accepted, fun partitions => ?_, fun forward => ?_⟩
  · obtain ⟨regions, partitioned, sound⟩ :=
      partitions ["coding", "testing"] ⟨by decide, fun _ => .rfl⟩
    obtain ⟨_, _, listed, _, _⟩ := partitionDecomposition_ok partitioned
    have exits := sound.exit
    rw [listed] at exits
    have passed := exits { fromNode := "testing", toNode := "publish", outcome := some "pass" }
      (by decide)
    have failed := exits escapingEdge (by decide)
    exact absurd (passed.trans failed.symm) (by decide)
  · have contained : takesRound escapingFlow escapingEdge = false :=
      forward.reworkInside accepted (by decide) (by decide)
    exact absurd contained (by decide)

end Orchestrator.Flow
