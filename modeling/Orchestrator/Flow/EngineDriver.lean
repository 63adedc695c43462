import Orchestrator.Flow.Validator
import Orchestrator.Flow.Engine

/-! # The phases of a decomposed flow

A decomposition block splits a flow into a part that runs once, a region that
runs once for each subtask, and a part that runs after all subtasks.
-/

namespace Orchestrator.Flow

open Orchestrator.Foundation

/-- The phases a decomposed flow is driven in. -/
structure DecompositionRegions where
  pre : List String
  region : List String
  regionEntry : String
  postEntry : String

inductive PartitionError where
  | noDecomposition
  | noEntry (proposedBy : String)
  | noExit

def PartitionError.message : PartitionError → String
  | .noDecomposition => "flow has no decomposition block to partition"
  | .noEntry proposedBy =>
      s!"decomposition region has no entry edge from {Text.repr proposedBy} " ++
        "(validator should have rejected this flow)"
  | .noExit => "decomposition region has no forward exit edge " ++
      "(validator should have rejected this flow)"

/-- A list of the members of a set, in the order in which the set happens to be iterated. -/
def Enumerates (order members : List String) : Prop :=
  order.Nodup ∧ ∀ nodeId, nodeId ∈ order ↔ nodeId ∈ members

variable (snapshot : FlowSnapshot)

/-- The target of the first edge of the proposing node into the region. -/
def findRegionEntry (proposedBy : String) (region : List String) : Option String :=
  ((snapshot.adjacency proposedBy).find? fun edge => decide (edge.toNode ∈ region)).map Edge.toNode

/-- The target of the first forward edge out of the region, in the order of its members. -/
def findPostEntry (region : List String) : Option String :=
  ((region.flatMap snapshot.adjacency).find? (isForwardExit region)).map Edge.toNode

/-- `partition_decomposition`, on a region whose members are iterated in the given order. -/
def partitionDecomposition (region : List String) : Except PartitionError DecompositionRegions :=
  match snapshot.doc.decomposition with
  | none => .error .noDecomposition
  | some decomposition =>
      match findRegionEntry snapshot decomposition.proposedBy region with
      | none => .error (.noEntry decomposition.proposedBy)
      | some regionEntry =>
          match findPostEntry snapshot region with
          | none => .error .noExit
          | some postEntry =>
              let post := snapshot.reachableNodes postEntry
              .ok {
                pre := snapshot.nodeIds.filter fun nodeId =>
                  decide (nodeId ∉ region) && decide (nodeId ∉ post)
                region
                regionEntry
                postEntry }

variable {snapshot}

theorem findRegionEntry_eq_some {proposedBy regionEntry : String} {region : List String}
    (found : findRegionEntry snapshot proposedBy region = some regionEntry) :
    ∃ edge ∈ snapshot.adjacency proposedBy, edge.toNode ∈ region ∧ edge.toNode = regionEntry := by
  obtain ⟨edge, first, rfl⟩ := Option.map_eq_some_iff.mp found
  exact ⟨edge, List.mem_of_find?_eq_some first, by simpa using List.find?_some first, rfl⟩

theorem findPostEntry_eq_some {postEntry : String} {region : List String}
    (found : findPostEntry snapshot region = some postEntry) :
    ∃ nodeId ∈ region, ∃ edge ∈ snapshot.adjacency nodeId,
      isForwardExit region edge = true ∧ edge.toNode = postEntry := by
  obtain ⟨edge, first, rfl⟩ := Option.map_eq_some_iff.mp found
  obtain ⟨nodeId, member, outgoing⟩ := List.mem_flatMap.mp (List.mem_of_find?_eq_some first)
  exact ⟨nodeId, member, edge, outgoing, List.find?_some first, rfl⟩

/-- What a partition that was computed consists of. -/
theorem partitionDecomposition_ok {region : List String} {regions : DecompositionRegions}
    (partitioned : partitionDecomposition snapshot region = .ok regions) :
    ∃ decomposition, snapshot.doc.decomposition = some decomposition ∧
      regions.region = region ∧
      findRegionEntry snapshot decomposition.proposedBy region = some regions.regionEntry ∧
      findPostEntry snapshot region = some regions.postEntry := by
  simp only [partitionDecomposition] at partitioned
  split at partitioned
  · cases partitioned
  · rename_i decomposition declared
    split at partitioned
    · cases partitioned
    · rename_i regionEntry entered
      split at partitioned
      · cases partitioned
      · rename_i postEntry left
        cases partitioned
        exact ⟨decomposition, declared, rfl, entered, left⟩

/-- The validator guarantees that the partition is computed, in whatever order the region is
iterated. -/
theorem Accepted.partitionDecomposition_isOk (accepted : Accepted snapshot)
    {decomposition : DecompositionConfig}
    (declared : snapshot.doc.decomposition = some decomposition) {order : List String}
    (enumerates : Enumerates order decomposition.subFlow) :
    ∃ regions, partitionDecomposition snapshot order = .ok regions := by
  have sound := accepted.decomposition_sound declared
  obtain ⟨inward, outgoing, enters⟩ := List.any_eq_true.mp sound.hasEntry
  obtain ⟨nodeId, member, exits⟩ := List.any_eq_true.mp sound.hasExit
  obtain ⟨outward, leaving, forward⟩ := List.any_eq_true.mp exits
  have sameExit : isForwardExit order outward = true := by
    simp only [isForwardExit, enumerates.2] at forward ⊢
    exact forward
  cases entered : findRegionEntry snapshot decomposition.proposedBy order with
  | none =>
      rw [findRegionEntry, Option.map_eq_none_iff, List.find?_eq_none] at entered
      have missed := entered inward outgoing
      rw [decide_eq_true_eq, enumerates.2] at missed
      exact absurd (of_decide_eq_true enters) missed
  | some regionEntry =>
      cases left : findPostEntry snapshot order with
      | none =>
          rw [findPostEntry, Option.map_eq_none_iff, List.find?_eq_none] at left
          have missed := left outward
            (List.mem_flatMap.mpr ⟨nodeId, (enumerates.2 nodeId).mpr member, leaving⟩)
          exact absurd sameExit missed
      | some postEntry =>
          simp only [partitionDecomposition, declared, entered, left]
          exact ⟨_, rfl⟩

end Orchestrator.Flow
