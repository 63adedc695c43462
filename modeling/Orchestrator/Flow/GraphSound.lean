import Orchestrator.Flow.OverrideRules

/-! # What the graph layer accepts

The rules on the graph, two of them decided by a search along the edges or against them, say
together what a flow has to be.
-/

namespace Orchestrator.Flow

/-- The decomposition block of a flow fits its graph: what it names is there, an edge leads from the
proposing node into the region and a forward edge leads out of it. -/
structure RegionSound (snapshot : FlowSnapshot) (decomposition : DecompositionConfig) : Prop where
  proposer : decomposition.proposedBy ∈ snapshot.nodeIds
  region : ∀ nodeId ∈ decomposition.subFlow, nodeId ∈ snapshot.nodeIds
  budget : ∀ budget ∈ decomposition.sharedBudget, budget ∈ snapshot.doc.budgets
  enters : ∃ edge ∈ snapshot.doc.edges,
    edge.fromNode = decomposition.proposedBy ∧ edge.toNode ∈ decomposition.subFlow
  leaves : ∃ edge ∈ snapshot.doc.edges, edge.fromNode ∈ decomposition.subFlow ∧
    edge.toNode ∉ decomposition.subFlow ∧ edge.isRework = false

variable (snapshot : FlowSnapshot)

/-- The only node without incoming edges leads to every node. -/
def SingleEntry : Prop :=
  ∃ entry, (∀ nodeId, nodeId = entry ↔ nodeId ∈ snapshot.nodeIds ∧
      ∀ edge ∈ snapshot.doc.edges, edge.toNode ≠ nodeId) ∧
    ∀ nodeId ∈ snapshot.nodeIds, snapshot.graph.Reaches entry nodeId

/-- From every node one without outgoing edges is reached. -/
def EndsReached : Prop :=
  ∀ nodeId ∈ snapshot.nodeIds, ∃ final ∈ snapshot.nodeIds,
    (∀ edge ∈ snapshot.doc.edges, edge.fromNode ≠ final) ∧ snapshot.graph.Reaches nodeId final

/-- A lineage is joined at an agent that edits, owns it and has no other provider. -/
def LineageOwned : Prop :=
  ∀ node affinity, FlowNode.agent node ∈ snapshot.doc.nodes →
    node.lineageAffinity = some affinity → ∃ owner : AgentNode,
      snapshot.nodesById affinity = some (.agent owner) ∧
      owner.sessionScope = .editingLineage ∧ owner.lineageAffinity = none ∧
      ∀ first ∈ node.provider, ∀ second ∈ owner.provider, first = second

/-- A flow whose graph is as it has to be. -/
structure GraphSound : Prop where
  edges : ∀ edge ∈ snapshot.doc.edges,
    edge.fromNode ∈ snapshot.nodeIds ∧ edge.toNode ∈ snapshot.nodeIds
  outcomes : ∀ edge ∈ snapshot.doc.edges, ∀ node,
    snapshot.nodesById edge.fromNode = some node → outcomeAllowed node.kind edge = true
  bounded : ∀ edge ∈ snapshot.doc.edges, edge.isRework = true →
    edge.budget.isSome = true ∨ edge.loop.isSome = true
  declared : ∀ edge ∈ snapshot.doc.edges, ∀ loop, edge.loop = some loop →
    loop ∈ snapshot.doc.budgets
  entry : SingleEntry snapshot
  ends : EndsReached snapshot
  lineage : LineageOwned snapshot
  decomposition : ∀ block, snapshot.doc.decomposition = some block → RegionSound snapshot block

variable {snapshot}

theorem mem_validatorEntries_iff (nodeId : String) : nodeId ∈ validatorEntries snapshot ↔
    nodeId ∈ snapshot.nodeIds ∧ ∀ edge ∈ snapshot.doc.edges, edge.toNode ≠ nodeId := by
  rw [validatorEntries, List.mem_filter, List.all_eq_true]
  simp only [decide_eq_true_eq]

/-- A list without repetitions has one item exactly when it is the only one in it. -/
theorem eq_singleton_iff_of_nodup {items : List String} (distinct : items.Nodup) (item : String) :
    items = [item] ↔ ∀ other, other = item ↔ other ∈ items := by
  constructor
  · rintro rfl other
    exact List.mem_singleton.symm
  · intro only
    exact List.perm_singleton.mp ((List.perm_ext_iff_of_nodup distinct
      (List.nodup_singleton item)).mpr fun other => (only other).symm.trans List.mem_singleton.symm)

theorem checkEntry_sound_iff : checkEntry snapshot = [] ↔ SingleEntry snapshot := by
  rw [checkEntry_eq_nil_iff, SingleEntry]
  have distinct : (validatorEntries snapshot).Nodup := snapshot.idsUnique.filter _
  simp only [eq_singleton_iff_of_nodup distinct, mem_validatorEntries_iff]

theorem checkTerminals_sound_iff (listed : snapshot.nodeIds ≠ []) :
    checkTerminals snapshot = [] ↔ EndsReached snapshot := by
  have terminal (nodeId : String) : nodeId ∈ terminals snapshot ↔ nodeId ∈ snapshot.nodeIds ∧
      ∀ edge ∈ snapshot.doc.edges, edge.fromNode ≠ nodeId := by
    rw [terminals, List.mem_filter, decide_eq_true_eq, List.mem_map, not_exists]
    simp only [not_and, ne_eq]
  rw [checkTerminals_eq_nil_iff, EndsReached]
  simp only [terminal, and_assoc]
  refine and_iff_right_of_imp fun reached => ?_
  obtain ⟨nodeId, among⟩ := List.exists_mem_of_ne_nil _ listed
  obtain ⟨final, ends, last, _⟩ := reached nodeId among
  exact List.ne_nil_of_mem ((terminal final).mpr ⟨ends, last⟩)

theorem checkLineage_sound_iff : checkLineage snapshot = [] ↔ LineageOwned snapshot := by
  rw [checkLineage_eq_nil_iff]
  simp only [lineageError_eq_none_iff]
  exact ⟨fun clean node affinity member joins => clean node member affinity joins,
    fun clean node member affinity joins => clean node affinity member joins⟩

theorem hasRegionEntry_iff (block : DecompositionConfig) : hasRegionEntry snapshot block = true ↔
    ∃ edge ∈ snapshot.doc.edges,
      edge.fromNode = block.proposedBy ∧ edge.toNode ∈ block.subFlow := by
  rw [hasRegionEntry, List.any_eq_true]
  simp only [snapshot.mem_adjacency_iff, decide_eq_true_eq, and_assoc]

theorem hasRegionExit_iff (block : DecompositionConfig) : hasRegionExit snapshot block = true ↔
    ∃ edge ∈ snapshot.doc.edges, edge.fromNode ∈ block.subFlow ∧
      edge.toNode ∉ block.subFlow ∧ edge.isRework = false := by
  simp only [hasRegionExit, List.any_eq_true, snapshot.mem_adjacency_iff, isForwardExit,
    Bool.and_eq_true, decide_eq_true_eq, Bool.not_eq_true']
  constructor
  · rintro ⟨_, member, edge, ⟨among, rfl⟩, outside, plain⟩
    exact ⟨edge, among, member, outside, plain⟩
  · rintro ⟨edge, among, member, outside, plain⟩
    exact ⟨_, member, edge, ⟨among, rfl⟩, outside, plain⟩

theorem sharedBudgetMissing_eq_false_iff (block : DecompositionConfig) :
    sharedBudgetMissing snapshot block = false ↔
      ∀ budget ∈ block.sharedBudget, budget ∈ snapshot.doc.budgets := by
  rw [sharedBudgetMissing]
  cases block.sharedBudget with
  | none => simp
  | some budget => simp

theorem checkDecomposition_sound_iff : checkDecomposition snapshot = [] ↔
    ∀ block, snapshot.doc.decomposition = some block → RegionSound snapshot block := by
  rw [checkDecomposition]
  cases snapshot.doc.decomposition with
  | none => simp
  | some block =>
      simp only [List.append_eq_nil_iff, violationIf_eq_nil_iff, List.flatMap_eq_nil_iff,
        decide_eq_false_iff_not, not_not, sharedBudgetMissing_eq_false_iff, Option.some.injEq,
        forall_eq']
      constructor
      · rintro ⟨⟨⟨proposer, region⟩, budget⟩, connected⟩
        have resolves : decompositionResolves snapshot block = true := by
          rw [decompositionResolves, Bool.and_eq_true, decide_eq_true_eq, List.all_eq_true]
          exact ⟨proposer, fun nodeId among => decide_eq_true (region nodeId among)⟩
        rw [if_pos resolves, List.append_eq_nil_iff, violationIf_eq_nil_iff,
          violationIf_eq_nil_iff, Bool.not_eq_false', Bool.not_eq_false'] at connected
        exact ⟨proposer, region, budget, (hasRegionEntry_iff block).mp connected.1,
          (hasRegionExit_iff block).mp connected.2⟩
      · intro sound
        refine ⟨⟨⟨sound.proposer, sound.region⟩, sound.budget⟩, ?_⟩
        split
        · rw [(hasRegionEntry_iff block).mpr sound.enters,
            (hasRegionExit_iff block).mpr sound.leaves]
          rfl
        · rfl

/-- The graph layer finds nothing exactly in the flows whose graph is sound. -/
theorem checkGraph_sound_iff (snapshot : FlowSnapshot) :
    checkGraph snapshot = [] ↔ GraphSound snapshot := by
  rw [checkGraph_eq_nil_iff, checkEdgeResolution_eq_nil_iff, checkOutcomes_eq_nil_iff,
    checkBounded_eq_nil_iff, checkLoopsDeclared_eq_nil_iff, checkEntry_sound_iff,
    checkLineage_sound_iff, checkDecomposition_sound_iff]
  have listed (entry : SingleEntry snapshot) : snapshot.nodeIds ≠ [] := by
    obtain ⟨_, only, _⟩ := entry
    exact List.ne_nil_of_mem ((only _).mp rfl).1
  constructor
  · rintro ⟨edges, outcomes, bounded, declared, entry, ends, lineage, decomposition⟩
    exact ⟨edges, outcomes, bounded, declared, entry,
      (checkTerminals_sound_iff (listed entry)).mp ends, lineage, decomposition⟩
  · intro sound
    exact ⟨sound.edges, sound.outcomes, sound.bounded, sound.declared, sound.entry,
      (checkTerminals_sound_iff (listed sound.entry)).mpr sound.ends, sound.lineage,
      sound.decomposition⟩

end Orchestrator.Flow
