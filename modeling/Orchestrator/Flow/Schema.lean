import Orchestrator.Foundation.Digraph
import Orchestrator.Foundation.OrderedDict
import Orchestrator.Security.Identifiers

/-! # The flow document

Nodes, edges and the parsed document. The fields are those that loading,
validating or executing a flow reads.
-/

namespace Orchestrator.Flow

open Orchestrator.Foundation

inductive ProviderId where
  | claude
  | codex
  deriving DecidableEq

def ProviderId.value : ProviderId → String
  | .claude => "claude"
  | .codex => "codex"

inductive SessionScope where
  | freshDisposable
  | editingLineage
  | resumeOwnLineage
  deriving DecidableEq

inductive PermissionProfile where
  | readOnly
  | workspaceWrite
  deriving DecidableEq

def PermissionProfile.value : PermissionProfile → String
  | .readOnly => "read-only"
  | .workspaceWrite => "workspace-write"

inductive OutputPolicy where
  | codeChange
  | repositoryDocument
  | privateControlWorkspaceReport

/-- The network ceiling of a flow; without one there is no network. -/
inductive NetworkPolicy where
  | advisories
  | research

/-- `resolve_network_access`: a node's own grant or denial wins over the flow's default. -/
def resolveNetworkAccess (nodeValue : Option Bool) (policy : Option NetworkPolicy) : Bool :=
  match nodeValue with
  | some granted => granted
  | none => policy.isSome

/-- A node is skipped when its fact differs from the expected value. -/
structure WhenPredicate where
  fact : String
  equals : Bool := true
  deriving DecidableEq

structure AgentNode where
  id : String
  roleFile : String
  resumeRoleFile : Option String := none
  sessionScope : SessionScope := .freshDisposable
  lineageAffinity : Option String := none
  permissionProfile : Option PermissionProfile := none
  networkAccess : Option Bool := none
  gitEvidence : Option Bool := none
  provider : Option ProviderId := none
  model : Option String := none
  reasoning : Option String := none
  extraArgs : List String := []
  when : Option WhenPredicate := none
  deriving DecidableEq

/-- Finding severities, the most severe first. -/
inductive Severity where
  | blocking
  | critical
  | high
  | medium
  | low
  deriving DecidableEq

def Severity.value : Severity → String
  | .blocking => "blocking"
  | .critical => "critical"
  | .high => "high"
  | .medium => "medium"
  | .low => "low"

/-- `SEVERITY_ORDER`. -/
def severityOrder : List Severity := [.blocking, .critical, .high, .medium, .low]

structure EvaluatorNode where
  id : String
  role : String
  roleFile : String
  resumeRoleFile : Option String := none
  sessionScope : SessionScope := .freshDisposable
  permissionProfile : PermissionProfile := .readOnly
  blocking : Bool := true
  maxReworkPerStage : Int := 1
  gateSeverity : Severity := .high
  provider : Option ProviderId := none
  model : Option String := none
  reasoning : Option String := none
  when : Option WhenPredicate := none
  deriving DecidableEq

structure ChecksNode where
  id : String
  when : Option WhenPredicate := none
  deriving DecidableEq

structure ToolNode where
  id : String
  when : Option WhenPredicate := none
  deriving DecidableEq

structure HitlNode where
  id : String
  when : Option WhenPredicate := none
  deriving DecidableEq

structure PublishNode where
  id : String
  when : Option WhenPredicate := none
  deriving DecidableEq

inductive FlowNode where
  | agent (node : AgentNode)
  | evaluator (node : EvaluatorNode)
  | checks (node : ChecksNode)
  | tool (node : ToolNode)
  | hitl (node : HitlNode)
  | publish (node : PublishNode)
  deriving DecidableEq

inductive NodeKind where
  | agent
  | evaluator
  | checks
  | tool
  | hitl
  | publish
  deriving DecidableEq

def NodeKind.value : NodeKind → String
  | .agent => "agent"
  | .evaluator => "evaluator"
  | .checks => "checks"
  | .tool => "tool"
  | .hitl => "hitl"
  | .publish => "publish"

namespace FlowNode

def id : FlowNode → String
  | .agent node => node.id
  | .evaluator node => node.id
  | .checks node => node.id
  | .tool node => node.id
  | .hitl node => node.id
  | .publish node => node.id

def kind : FlowNode → NodeKind
  | .agent _ => .agent
  | .evaluator _ => .evaluator
  | .checks _ => .checks
  | .tool _ => .tool
  | .hitl _ => .hitl
  | .publish _ => .publish

def when : FlowNode → Option WhenPredicate
  | .agent node => node.when
  | .evaluator node => node.when
  | .checks node => node.when
  | .tool node => node.when
  | .hitl node => node.when
  | .publish node => node.when

end FlowNode

/-- A flow graph edge, unconditional when it has no outcome. -/
structure Edge where
  fromNode : String
  toNode : String
  outcome : Option String := none
  budget : Option Int := none
  loop : Option String := none
  deriving DecidableEq

/-- Outcomes that charge the loop or the inline budget of their edge. -/
def reworkOutcomes : List String := ["rework", "fail"]

/-- `edge.outcome in REWORK_OUTCOMES`. -/
def Edge.isRework (edge : Edge) : Bool :=
  match edge.outcome with
  | none => false
  | some outcome => decide (outcome ∈ reworkOutcomes)

/-- The rework and fail outcomes are exactly the charged ones. -/
theorem Edge.isRework_iff (edge : Edge) :
    edge.isRework = true ↔ edge.outcome = some "rework" ∨ edge.outcome = some "fail" := by
  unfold Edge.isRework
  cases edge.outcome with
  | none => simp
  | some outcome => simp [reworkOutcomes]

/-- A rework or fail edge has an outcome. -/
theorem Edge.outcome_of_isRework (edge : Edge) (rework : edge.isRework = true) :
    ∃ outcome, edge.outcome = some outcome := by
  rcases edge.isRework_iff.mp rework with same | same
  · exact ⟨_, same⟩
  · exact ⟨_, same⟩

structure DecompositionConfig where
  proposedBy : String
  subFlow : List String
  sharedBudget : Option String := none

/-- The prompt files a flow's supervisor block may name. -/
structure SupervisorBlock where
  roleFile : Option String := none
  finalizeRoleFile : Option String := none
  handoffRoleFile : Option String := none

/-- The parsed flow document. -/
structure FlowDoc where
  permissionCeiling : PermissionProfile
  outputPolicy : OutputPolicy
  nodes : List FlowNode
  edges : List Edge
  budgets : Dict Int
  reportDir : Option String := none
  networkPolicy : Option NetworkPolicy := none
  decomposition : Option DecompositionConfig := none
  supervisor : Option SupervisorBlock := none

/-! ## Loaded flows

A snapshot carries the document together with what loading has checked: node
ids are portable tokens and no id occurs twice. The lookup tables are derived.
-/

open Orchestrator.Foundation
open Orchestrator.Security

/-- A loaded flow. The role files are the texts readable from the flow's directory, absent for a
flow without a source path. -/
structure FlowSnapshot where
  doc : FlowDoc
  flowFingerprint : String
  roleFiles : Option (String → Option String) := none
  idsValid : ∀ node ∈ doc.nodes, isValidNodeId node.id = true
  idsUnique : (doc.nodes.map FlowNode.id).Nodup

namespace FlowSnapshot

variable (snapshot : FlowSnapshot)

/-- `nodes_by_id.get(node_id)`. -/
def nodesById (nodeId : String) : Option FlowNode :=
  snapshot.doc.nodes.find? fun node => decide (node.id = nodeId)

/-- The ids of the flow in document order. -/
def nodeIds : List String := snapshot.doc.nodes.map FlowNode.id

/-- `adjacency.get(node_id, ())`: the outgoing edges in document order. -/
def adjacency (nodeId : String) : List Edge :=
  snapshot.doc.edges.filter fun edge => decide (edge.fromNode = nodeId)

theorem mem_adjacency_iff (nodeId : String) (edge : Edge) :
    edge ∈ snapshot.adjacency nodeId ↔ edge ∈ snapshot.doc.edges ∧ edge.fromNode = nodeId := by
  unfold adjacency
  rw [List.mem_filter, decide_eq_true_eq]

theorem nodesById_eq_some {nodeId : String} {node : FlowNode}
    (found : snapshot.nodesById nodeId = some node) :
    node ∈ snapshot.doc.nodes ∧ node.id = nodeId := by
  unfold nodesById at found
  exact ⟨List.mem_of_find?_eq_some found, by simpa using List.find?_some found⟩

/-- Distinct ids make every node the entry of its id. -/
theorem nodesById_of_mem {node : FlowNode} (member : node ∈ snapshot.doc.nodes) :
    snapshot.nodesById node.id = some node := by
  unfold nodesById
  have unique := snapshot.idsUnique
  generalize snapshot.doc.nodes = nodes at member unique
  induction nodes with
  | nil => cases member
  | cons head rest ih =>
      rw [List.map_cons, List.nodup_cons] at unique
      by_cases same : head = node
      · subst same
        rw [List.find?_cons_of_pos (by simp)]
      · have later := (List.mem_cons.mp member).resolve_left (Ne.symm same)
        have differ : head.id ≠ node.id := fun equal =>
          unique.1 (equal ▸ List.mem_map_of_mem later)
        rw [List.find?_cons_of_neg (by simpa using differ)]
        exact ih later unique.2

theorem nodesById_isSome_iff (nodeId : String) :
    (∃ node, snapshot.nodesById nodeId = some node) ↔ nodeId ∈ snapshot.nodeIds := by
  constructor
  · rintro ⟨node, found⟩
    obtain ⟨member, same⟩ := snapshot.nodesById_eq_some found
    exact same ▸ List.mem_map_of_mem member
  · intro listed
    obtain ⟨node, member, same⟩ := List.mem_map.mp listed
    exact ⟨node, same ▸ snapshot.nodesById_of_mem member⟩

/-- The flow graph: edge targets by source. -/
def graph : SuccessorGraph String where
  next nodeId := (snapshot.adjacency nodeId).map Edge.toNode
  sources := snapshot.doc.edges.map Edge.fromNode
  next_eq_nil := by
    intro nodeId absent
    rw [List.map_eq_nil_iff, List.eq_nil_iff_forall_not_mem]
    intro edge member
    obtain ⟨listed, same⟩ := (snapshot.mem_adjacency_iff nodeId edge).mp member
    exact absent (same ▸ List.mem_map_of_mem listed)

/-- A step of the flow graph is an edge of the document. -/
theorem graph_step_iff (first second : String) :
    snapshot.graph.Step first second ↔
      ∃ edge ∈ snapshot.doc.edges, edge.fromNode = first ∧ edge.toNode = second := by
  unfold SuccessorGraph.Step graph
  simp only [List.mem_map, mem_adjacency_iff, and_assoc]

/-- `reachable_nodes`: every node reachable forward from the start, which is included. -/
def reachableNodes (start : String) : List String := snapshot.graph.reachableFrom [start]

theorem mem_reachableNodes_iff (start nodeId : String) :
    nodeId ∈ snapshot.reachableNodes start ↔ snapshot.graph.Reaches start nodeId :=
  snapshot.graph.mem_reachableFrom_singleton_iff start nodeId

end FlowSnapshot

inductive FlowLoadError where
  | notPortable (kind : NodeKind) (nodeId : String)
  | reserved (kind : NodeKind) (nodeId : String)
  | duplicate (nodeId : String)

/-- Names of core prompt variables that an agent or tool id would shadow. -/
def reservedNodeIdNames : List String :=
  ["task", "plan", "diff", "change_overview", "checks", "review", "repo", "memory", "stage",
    "conflicts"]

def reservedNodeIdStart : String := "subtask"

/-- Agent and tool nodes expose `{<id>_path}`, so their ids may not shadow a core variable. -/
def isReservedNodeId (node : FlowNode) : Bool :=
  (node.kind = .agent || node.kind = .tool) &&
    (decide (node.id ∈ reservedNodeIdNames) || Text.startsWith node.id reservedNodeIdStart)

/-- The error of parsing one node id, if any. -/
def nodeIdError (node : FlowNode) : Option FlowLoadError :=
  if !isValidNodeId node.id then some (.notPortable node.kind node.id)
  else if isReservedNodeId node then some (.reserved node.kind node.id)
  else none

/-- The first id that repeats an earlier one. -/
def firstDuplicate : List String → List String → Option String
  | _, [] => none
  | seen, id :: rest => if id ∈ seen then some id else firstDuplicate (id :: seen) rest

theorem nodup_of_firstDuplicate (seen ids : List String) (fresh : firstDuplicate seen ids = none) :
    ids.Nodup ∧ ∀ id ∈ ids, id ∉ seen := by
  induction ids generalizing seen with
  | nil => exact ⟨List.nodup_nil, nofun⟩
  | cons id rest ih =>
      rw [firstDuplicate] at fresh
      split at fresh
      · cases fresh
      · rename_i new
        obtain ⟨nodup, apart⟩ := ih (id :: seen) fresh
        refine ⟨List.nodup_cons.mpr ⟨?_, nodup⟩, ?_⟩
        · exact fun again => apart id again List.mem_cons_self
        · intro other member
          rcases List.mem_cons.mp member with rfl | later
          · exact new
          · exact fun old => apart other later (List.mem_cons_of_mem _ old)

/-- `load_flow` on a parsed document: node ids are checked one by one, then for duplicates. -/
def loadFlow (doc : FlowDoc) (flowFingerprint : String)
    (roleFiles : Option (String → Option String)) : Except FlowLoadError FlowSnapshot :=
  match bad : doc.nodes.findSome? nodeIdError with
  | some error => .error error
  | none =>
      match repeated : firstDuplicate [] (doc.nodes.map FlowNode.id) with
      | some nodeId => .error (.duplicate nodeId)
      | none => .ok {
          doc, flowFingerprint, roleFiles
          idsValid := by
            intro node member
            have clean := List.findSome?_eq_none_iff.mp bad node member
            unfold nodeIdError at clean
            cases valid : isValidNodeId node.id with
            | true => rfl
            | false => simp [valid] at clean
          idsUnique := (nodup_of_firstDuplicate [] _ repeated).1 }

end Orchestrator.Flow
