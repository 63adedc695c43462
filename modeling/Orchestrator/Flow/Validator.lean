import Orchestrator.Flow.GraphRules

/-! # The load-time validator

All violations of the graph and the ceiling layers are collected. What an
accepted flow guarantees is read off the graph rules, one rule at a time.
-/

namespace Orchestrator.Flow

open Orchestrator.Foundation
open Relation

/-- Raised with every violation found. -/
structure FlowValidationError where
  violations : List Violation
  deriving DecidableEq

/-- `validate_flow`: the graph, the ceiling and the report directory layers. -/
def validateFlow (snapshot : FlowSnapshot) : Except FlowValidationError Unit :=
  match checkGraph snapshot ++ checkCeiling snapshot ++ checkReportDir snapshot with
  | [] => .ok ()
  | violations => .error ⟨violations⟩

/-- The validator found nothing. -/
def Accepted (snapshot : FlowSnapshot) : Prop :=
  checkGraph snapshot ++ checkCeiling snapshot ++ checkReportDir snapshot = []

instance (snapshot : FlowSnapshot) : Decidable (Accepted snapshot) :=
  inferInstanceAs (Decidable (_ = []))

/-- A flow is accepted exactly when validation does not raise. -/
theorem accepted_iff_validateFlow (snapshot : FlowSnapshot) :
    Accepted snapshot ↔ validateFlow snapshot = .ok () := by
  unfold Accepted validateFlow
  cases checkGraph snapshot ++ checkCeiling snapshot ++ checkReportDir snapshot with
  | nil => simp
  | cons violation rest => simp

variable {snapshot : FlowSnapshot}

theorem Accepted.checkGraph (accepted : Accepted snapshot) : checkGraph snapshot = [] :=
  (List.append_eq_nil_iff.mp (List.append_eq_nil_iff.mp accepted).1).1

/-- The eight graph rules hold one by one. -/
theorem checkGraph_eq_nil_iff : Flow.checkGraph snapshot = [] ↔
    checkEdgeResolution snapshot = [] ∧ checkOutcomes snapshot = [] ∧
    checkBounded snapshot = [] ∧ checkLoopsDeclared snapshot = [] ∧ checkEntry snapshot = [] ∧
    checkTerminals snapshot = [] ∧ checkLineage snapshot = [] ∧
    checkDecomposition snapshot = [] := by
  unfold Flow.checkGraph
  simp only [List.append_eq_nil_iff, and_assoc]

/-! ## What each rule says -/

theorem checkEdgeResolution_eq_nil_iff : checkEdgeResolution snapshot = [] ↔
    ∀ edge ∈ snapshot.doc.edges,
      edge.fromNode ∈ snapshot.nodeIds ∧ edge.toNode ∈ snapshot.nodeIds := by
  unfold checkEdgeResolution
  simp only [List.flatMap_eq_nil_iff, List.append_eq_nil_iff, violationIf_eq_nil_iff,
    decide_eq_false_iff_not, not_not]

theorem mem_adjacencyKeys_iff (nodeId : String) :
    nodeId ∈ adjacencyKeys snapshot ↔ ∃ edge ∈ snapshot.doc.edges, edge.fromNode = nodeId := by
  unfold adjacencyKeys
  rw [List.mem_eraseDups, List.mem_map]

theorem checkOutcomes_eq_nil_iff : checkOutcomes snapshot = [] ↔
    ∀ edge ∈ snapshot.doc.edges, ∀ node, snapshot.nodesById edge.fromNode = some node →
      outcomeAllowed node.kind edge = true := by
  unfold checkOutcomes
  rw [List.flatMap_eq_nil_iff]
  constructor
  · intro clean edge member node found
    have here := clean edge.fromNode ((mem_adjacencyKeys_iff _).mpr ⟨edge, member, rfl⟩)
    rw [found] at here
    simp only [List.flatMap_eq_nil_iff, violationIf_eq_nil_iff, Bool.not_eq_eq_eq_not,
      Bool.not_false] at here
    exact here edge ((snapshot.mem_adjacency_iff _ edge).mpr ⟨member, rfl⟩)
  · intro allowed nodeId _
    cases found : snapshot.nodesById nodeId with
    | none => rfl
    | some node =>
        simp only [List.flatMap_eq_nil_iff, violationIf_eq_nil_iff, Bool.not_eq_eq_eq_not,
          Bool.not_false]
        intro edge outgoing
        obtain ⟨member, same⟩ := (snapshot.mem_adjacency_iff _ edge).mp outgoing
        exact allowed edge member node (same ▸ found)

theorem checkBounded_eq_nil_iff : checkBounded snapshot = [] ↔
    ∀ edge ∈ snapshot.doc.edges, edge.isRework = true →
      edge.budget.isSome = true ∨ edge.loop.isSome = true := by
  unfold checkBounded
  simp only [List.flatMap_eq_nil_iff, violationIf_eq_nil_iff, Bool.and_eq_false_iff]
  refine forall₂_congr fun edge _ => ?_
  cases edge.isRework <;> cases edge.budget <;> cases edge.loop <;> simp

theorem checkLoopsDeclared_eq_nil_iff : checkLoopsDeclared snapshot = [] ↔
    ∀ edge ∈ snapshot.doc.edges, ∀ loop, edge.loop = some loop → loop ∈ snapshot.doc.budgets := by
  unfold checkLoopsDeclared
  rw [List.flatMap_eq_nil_iff]
  refine forall₂_congr fun edge _ => ?_
  cases edge.loop with
  | none => simp
  | some loop => simp

theorem checkEntry_eq_nil_iff : checkEntry snapshot = [] ↔
    ∃ entry, validatorEntries snapshot = [entry] ∧
      ∀ nodeId ∈ snapshot.nodeIds, snapshot.graph.Reaches entry nodeId := by
  unfold checkEntry
  split
  · rename_i entry single
    simp only [violationIf_eq_nil_iff, Bool.not_eq_eq_eq_not, Bool.not_false,
      List.isEmpty_iff, List.filter_eq_nil_iff, decide_eq_true_eq, not_not,
      snapshot.mem_reachableNodes_iff]
    constructor
    · exact fun reached => ⟨entry, single, reached⟩
    · rintro ⟨other, same, reached⟩
      rw [single, List.cons.injEq] at same
      exact same.1 ▸ reached
  · rename_i several
    constructor
    · intro empty
      cases empty
    · rintro ⟨entry, single, _⟩
      exact absurd single (several entry)

/-- Reverse reachability is reachability of the reversed endpoints. -/
theorem reverseGraph_reaches_iff (first second : String) :
    (reverseGraph snapshot).Reaches first second ↔ snapshot.graph.Reaches second first := by
  have steps : ∀ left right, (reverseGraph snapshot).Step left right ↔
      snapshot.graph.Step right left := by
    intro left right
    rw [snapshot.graph_step_iff]
    unfold SuccessorGraph.Step reverseGraph
    simp only [List.mem_map, List.mem_filter, decide_eq_true_eq]
    exact exists_congr fun edge => by tauto
  unfold SuccessorGraph.Reaches
  rw [← Relation.reflTransGen_swap]
  constructor
  · exact ReflTransGen.mono (fun left right edge => (steps right left).mp edge) second first
  · exact ReflTransGen.mono (fun left right edge => (steps right left).mpr edge) second first

theorem checkTerminals_eq_nil_iff : checkTerminals snapshot = [] ↔
    terminals snapshot ≠ [] ∧ ∀ nodeId ∈ snapshot.nodeIds,
      ∃ final ∈ terminals snapshot, snapshot.graph.Reaches nodeId final := by
  unfold checkTerminals
  split
  · rename_i none
    simp [none]
  · rename_i ends
    simp only [violationIf_eq_nil_iff, Bool.not_eq_eq_eq_not, Bool.not_false, List.isEmpty_iff,
      List.filter_eq_nil_iff, decide_eq_true_eq, not_not, SuccessorGraph.mem_reachableFrom_iff,
      reverseGraph_reaches_iff]
    exact ⟨fun reached => ⟨ends, reached⟩, fun sound => sound.2⟩

/-- What the rules on decomposition blocks say. -/
structure DecompositionSound (snapshot : FlowSnapshot) (decomposition : DecompositionConfig) :
    Prop where
  proposedBy_mem : decomposition.proposedBy ∈ snapshot.nodeIds
  subFlow_mem : ∀ nodeId ∈ decomposition.subFlow, nodeId ∈ snapshot.nodeIds
  hasEntry : hasRegionEntry snapshot decomposition = true
  hasExit : hasRegionExit snapshot decomposition = true

theorem checkDecomposition_sound (clean : checkDecomposition snapshot = [])
    {decomposition : DecompositionConfig}
    (declared : snapshot.doc.decomposition = some decomposition) :
    DecompositionSound snapshot decomposition := by
  unfold checkDecomposition at clean
  simp only [declared, List.append_eq_nil_iff, violationIf_eq_nil_iff, List.flatMap_eq_nil_iff,
    decide_eq_false_iff_not, not_not] at clean
  obtain ⟨⟨⟨proposed, members⟩, _⟩, connected⟩ := clean
  have resolves : decompositionResolves snapshot decomposition = true := by
    unfold decompositionResolves
    simp only [Bool.and_eq_true, decide_eq_true_eq, List.all_eq_true]
    exact ⟨proposed, members⟩
  simp only [resolves, ↓reduceIte, List.append_eq_nil_iff, violationIf_eq_nil_iff,
    Bool.not_eq_eq_eq_not, Bool.not_false] at connected
  exact ⟨proposed, members, connected.1, connected.2⟩

/-! ## Accepted flows -/

namespace Accepted

variable (accepted : Accepted snapshot)
include accepted

theorem edge_fromNode_mem {edge : Edge} (member : edge ∈ snapshot.doc.edges) :
    edge.fromNode ∈ snapshot.nodeIds :=
  (checkEdgeResolution_eq_nil_iff.mp (checkGraph_eq_nil_iff.mp accepted.checkGraph).1
    edge member).1

theorem edge_toNode_mem {edge : Edge} (member : edge ∈ snapshot.doc.edges) :
    edge.toNode ∈ snapshot.nodeIds :=
  (checkEdgeResolution_eq_nil_iff.mp (checkGraph_eq_nil_iff.mp accepted.checkGraph).1
    edge member).2

theorem outcome_allowed {edge : Edge} (member : edge ∈ snapshot.doc.edges) {node : FlowNode}
    (found : snapshot.nodesById edge.fromNode = some node) :
    outcomeAllowed node.kind edge = true :=
  checkOutcomes_eq_nil_iff.mp (checkGraph_eq_nil_iff.mp accepted.checkGraph).2.1
    edge member node found

theorem decomposition_sound {decomposition : DecompositionConfig}
    (declared : snapshot.doc.decomposition = some decomposition) :
    DecompositionSound snapshot decomposition :=
  checkDecomposition_sound
    (checkGraph_eq_nil_iff.mp accepted.checkGraph).2.2.2.2.2.2.2 declared

end Accepted

/-! ## A flow -/

/-- Plan, then code, test and review in a region that is run once for each subtask, then publish.
Failed tests charge a named loop, a requested rework charges an inline budget. -/
def repairFlow : FlowSnapshot where
  doc := {
    permissionCeiling := .workspaceWrite
    outputPolicy := .codeChange
    nodes := [
      .agent { id := "planning", roleFile := "planning.md" },
      .agent { id := "coding", roleFile := "coding.md", sessionScope := .editingLineage },
      .checks { id := "testing" },
      .evaluator { id := "review", role := "review", roleFile := "review.md", blocking := false },
      .publish { id := "publish" }]
    edges := [
      { fromNode := "planning", toNode := "coding" },
      { fromNode := "coding", toNode := "testing" },
      { fromNode := "testing", toNode := "review", outcome := some "pass" },
      { fromNode := "testing", toNode := "coding", outcome := some "fail",
        loop := some "test_fix" },
      { fromNode := "review", toNode := "publish", outcome := some "accept" },
      { fromNode := "review", toNode := "coding", outcome := some "rework", budget := some 2 }]
    budgets := Dict.ofList [("test_fix", 3), ("global_fix_iterations", 4)]
    decomposition := some {
      proposedBy := "planning"
      subFlow := ["coding", "testing", "review"] } }
  flowFingerprint := "repair"
  idsValid := by decide
  idsUnique := by decide

set_option maxRecDepth 4000 in
example : validateFlow repairFlow = .ok () := by decide

end Orchestrator.Flow
