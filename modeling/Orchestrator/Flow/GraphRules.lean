import Orchestrator.Flow.Schema

/-! # Graph integrity rules

Each rule lists its violations in the order the validator reports them.
-/

namespace Orchestrator.Flow

open Orchestrator.Foundation

inductive ViolationCategory where
  | graph
  | ceiling
  | config
  deriving DecidableEq

/-- A single validator finding. -/
structure Violation where
  category : ViolationCategory
  message : String
  deriving DecidableEq

/-- The violation list of one check. -/
def violationIf (broken : Bool) (violation : Violation) : List Violation :=
  if broken then [violation] else []

@[simp] theorem violationIf_eq_nil_iff (broken : Bool) (violation : Violation) :
    violationIf broken violation = [] ↔ broken = false := by
  cases broken <;> simp [violationIf]

def graphViolation (message : String) : Violation := ⟨.graph, message⟩

/-- The outcomes a kind's edges may carry beside explicit routes. -/
def allowedOutcomes : NodeKind → List (Option String)
  | .evaluator => [some "accept", some "rework"]
  | .checks => [some "pass", some "fail"]
  | .tool => [some "pass", some "fail"]
  | _ => [none]

/-- `oc is not None and oc.startswith("route:")`. -/
def isRoute : Option String → Bool
  | none => false
  | some outcome => Text.startsWith outcome "route:"

/-- An edge's outcome is an explicit route or one its kind allows. -/
def outcomeAllowed (kind : NodeKind) (edge : Edge) : Bool :=
  isRoute edge.outcome || decide (edge.outcome ∈ allowedOutcomes kind)

variable (snapshot : FlowSnapshot)

/-- Rule 1: edges join existing nodes. -/
def checkEdgeResolution : List Violation :=
  snapshot.doc.edges.flatMap fun edge =>
    violationIf (decide (edge.fromNode ∉ snapshot.nodeIds))
      (graphViolation s!"edge references unknown source node: {Text.repr edge.fromNode}") ++
    violationIf (decide (edge.toNode ∉ snapshot.nodeIds))
      (graphViolation s!"edge references unknown target node: {Text.repr edge.toNode}")

/-- The keys of the adjacency table, in order of first appearance. -/
def adjacencyKeys : List String := (snapshot.doc.edges.map Edge.fromNode).eraseDups

/-- Rule 2: every outgoing edge of a node carries an outcome its kind allows. -/
def checkOutcomes : List Violation :=
  (adjacencyKeys snapshot).flatMap fun nodeId =>
    match snapshot.nodesById nodeId with
    | none => []
    | some node => (snapshot.adjacency nodeId).flatMap fun edge =>
        violationIf (!outcomeAllowed node.kind edge) (graphViolation
          (s!"node {Text.repr nodeId} ({node.kind.value}): " ++
            s!"outcome {Text.reprOption edge.outcome} not in allowed " ++
            Text.reprSorted ((allowedOutcomes node.kind).map Text.reprOption)))

/-- Rule 3: every rework and fail edge declares a budget or a loop. -/
def checkBounded : List Violation :=
  snapshot.doc.edges.flatMap fun edge =>
    violationIf (edge.isRework && edge.budget.isNone && edge.loop.isNone) (graphViolation
      (s!"edge {Text.repr edge.fromNode}->{Text.repr edge.toNode} " ++
        s!"(outcome={Text.reprOption edge.outcome}): unbounded; must declare budget or loop"))

/-- Rule 4: named loops are declared in the budgets. -/
def checkLoopsDeclared : List Violation :=
  snapshot.doc.edges.flatMap fun edge =>
    match edge.loop with
    | none => []
    | some loop => violationIf (decide (loop ∉ snapshot.doc.budgets))
        (graphViolation s!"edge loop {Text.repr loop} not declared in budgets")

/-- The nodes without incoming edges. -/
def validatorEntries : List String :=
  snapshot.nodeIds.filter fun nodeId =>
    snapshot.doc.edges.all fun edge => decide (edge.toNode ≠ nodeId)

/-- Rule 5: one entry node, from which every node is reachable. -/
def checkEntry : List Violation :=
  match validatorEntries snapshot with
  | [entry] =>
      let seen := snapshot.reachableNodes entry
      let unreached := snapshot.nodeIds.filter fun nodeId => decide (nodeId ∉ seen)
      violationIf (!unreached.isEmpty)
        (graphViolation s!"unreachable nodes: {Text.reprSorted unreached}")
  | entries =>
      [graphViolation s!"expected exactly one entry node, got {Text.reprSorted entries}"]

/-- The nodes without outgoing edges. -/
def terminals : List String :=
  snapshot.nodeIds.filter fun nodeId => decide (nodeId ∉ snapshot.doc.edges.map Edge.fromNode)

/-- The flow graph against its edges. -/
def reverseGraph : SuccessorGraph String where
  next nodeId := (snapshot.doc.edges.filter fun edge => decide (edge.toNode = nodeId)).map
    Edge.fromNode
  sources := snapshot.doc.edges.map Edge.toNode
  next_eq_nil := by
    intro nodeId absent
    rw [List.map_eq_nil_iff, List.filter_eq_nil_iff]
    intro edge member same
    rw [decide_eq_true_eq] at same
    exact absent (same ▸ List.mem_map_of_mem member)

/-- Rule 6: some node is terminal and every node reaches a terminal one. -/
def checkTerminals : List Violation :=
  match terminals snapshot with
  | [] => [graphViolation "no terminal node (every node has at least one outgoing edge)"]
  | ends =>
      let canReach := (reverseGraph snapshot).reachableFrom ends
      let trapped := snapshot.nodeIds.filter fun nodeId => decide (nodeId ∉ canReach)
      violationIf (!trapped.isEmpty)
        (graphViolation s!"nodes cannot reach any terminal: {Text.reprSorted trapped}")

/-- What is wrong with the lineage one agent joins, if anything. -/
def lineageError (node : AgentNode) (affinity : String) : Option String :=
  let naming := s!"node {Text.repr node.id}: lineage_affinity {Text.repr affinity}"
  match snapshot.nodesById affinity with
  | none => some s!"{naming} not found"
  | some (.agent target) =>
      if target.sessionScope ≠ .editingLineage then
        some s!"{naming} must be an agent with session_scope=editing_lineage"
      else if target.lineageAffinity.isSome then
        some (s!"{naming} must be a lineage owner (a node that does not itself declare " ++
          "lineage_affinity); affinity chains are not allowed")
      else
        match node.provider, target.provider with
        | some provider, some other =>
            if provider ≠ other then
              some (s!"node {Text.repr node.id}: provider {Text.repr provider.value} conflicts " ++
                s!"with lineage_affinity {Text.repr affinity} provider " ++
                s!"{Text.repr other.value} (cannot resume a session across providers)")
            else none
        | _, _ => none
  | some _ => some s!"{naming} must be an agent with session_scope=editing_lineage"

/-- Rule 7: a lineage is joined in one hop, at an editing owner of the same provider. -/
def checkLineage : List Violation :=
  snapshot.doc.nodes.flatMap fun node =>
    match node with
    | .agent agent =>
        match agent.lineageAffinity with
        | none => []
        | some affinity => ((lineageError snapshot agent affinity).map graphViolation).toList
    | _ => []

/-- An edge of the proposing node enters the region. -/
def hasRegionEntry (decomposition : DecompositionConfig) : Bool :=
  (snapshot.adjacency decomposition.proposedBy).any fun edge =>
    decide (edge.toNode ∈ decomposition.subFlow)

/-- An edge that leaves a set of nodes and is neither a rework nor a fail edge. -/
def isForwardExit (region : List String) (edge : Edge) : Bool :=
  decide (edge.toNode ∉ region) && !edge.isRework

/-- Some forward edge leaves the region. -/
def hasRegionExit (decomposition : DecompositionConfig) : Bool :=
  decomposition.subFlow.any fun nodeId =>
    (snapshot.adjacency nodeId).any (isForwardExit decomposition.subFlow)

/-- The references of a decomposition block resolve. -/
def decompositionResolves (decomposition : DecompositionConfig) : Bool :=
  decide (decomposition.proposedBy ∈ snapshot.nodeIds) &&
    decomposition.subFlow.all fun nodeId => decide (nodeId ∈ snapshot.nodeIds)

/-- The shared budget of a decomposition is undeclared. -/
def sharedBudgetMissing (decomposition : DecompositionConfig) : Bool :=
  match decomposition.sharedBudget with
  | none => false
  | some budget => decide (budget ∉ snapshot.doc.budgets)

/-- Rule 8: decomposition references resolve and the region has an entry and a forward exit. -/
def checkDecomposition : List Violation :=
  match snapshot.doc.decomposition with
  | none => []
  | some decomposition =>
      violationIf (decide (decomposition.proposedBy ∉ snapshot.nodeIds)) (graphViolation
        s!"decomposition.proposed_by {Text.repr decomposition.proposedBy} not found") ++
      (decomposition.subFlow.flatMap fun nodeId =>
        violationIf (decide (nodeId ∉ snapshot.nodeIds))
          (graphViolation s!"decomposition.sub_flow {Text.repr nodeId} not found")) ++
      violationIf (sharedBudgetMissing snapshot decomposition) (graphViolation
        (s!"decomposition.shared_budget {Text.reprOption decomposition.sharedBudget} " ++
          "not in budgets")) ++
      if decompositionResolves snapshot decomposition then
        violationIf (!hasRegionEntry snapshot decomposition) (graphViolation
          (s!"decomposition: no edge from proposed_by {Text.repr decomposition.proposedBy} " ++
            "enters the sub_flow region")) ++
        violationIf (!hasRegionExit snapshot decomposition) (graphViolation
          "decomposition: sub_flow region has no forward exit edge to a post node")
      else []

/-- The graph layer of the validator. -/
def checkGraph : List Violation :=
  checkEdgeResolution snapshot ++ checkOutcomes snapshot ++ checkBounded snapshot ++
    checkLoopsDeclared snapshot ++ checkEntry snapshot ++ checkTerminals snapshot ++
    checkLineage snapshot ++ checkDecomposition snapshot

end Orchestrator.Flow

/-! ## Security ceiling and report directory rules -/

namespace Orchestrator.Flow

open Orchestrator.Foundation
open Orchestrator.Security

def ceilingViolation (message : String) : Violation := ⟨.ceiling, message⟩

/-- `_check_path`: a prompt file stays inside the flow's directory. -/
def checkPath (nodeId path field : String) : List Violation :=
  let parts := Text.split (Text.replace path '\\' '/') '/'
  violationIf (decide (".." ∈ parts) || Text.startsWith path "/") (ceilingViolation
    s!"node {Text.repr nodeId}: {field} {Text.repr path} contains path traversal")

/-- The path rule of a field that may be absent. -/
def checkOptionalPath (nodeId : String) (path : Option String) (field : String) :
    List Violation :=
  match path with
  | none => []
  | some path => checkPath nodeId path field

/-- An evaluator is read-only and never continues the author's session. -/
def checkEvaluatorCeiling (node : EvaluatorNode) : List Violation :=
  violationIf (decide (node.permissionProfile ≠ .readOnly)) (ceilingViolation
    (s!"evaluator {Text.repr node.id}: permission_profile must be read-only, " ++
      s!"got {Text.repr node.permissionProfile.value}")) ++
  violationIf (decide (node.sessionScope = .editingLineage)) (ceilingViolation
    (s!"evaluator {Text.repr node.id}: session_scope editing_lineage is forbidden " ++
      "(evaluator must not inherit the author workspace context)")) ++
  violationIf (node.resumeRoleFile.isSome && decide (node.sessionScope ≠ .resumeOwnLineage))
    (ceilingViolation
      (s!"evaluator {Text.repr node.id}: resume_role_file requires session_scope " ++
        "resume_own_lineage (nothing resumes a fresh_disposable evaluator, so the " ++
        "second prompt could never be selected)")) ++
  checkPath node.id node.roleFile "role_file" ++
  checkOptionalPath node.id node.resumeRoleFile "resume_role_file"

/-- An agent's declared profile exceeds the ceiling. -/
def exceedsCeiling (node : AgentNode) (ceiling : PermissionProfile) : Bool :=
  match node.permissionProfile with
  | none => false
  | some profile => !isSameOrStricter profile.value ceiling.value

/-- An agent stays under the ceiling and asks only for what its profile can use. -/
def checkAgentCeiling (node : AgentNode) (ceiling : PermissionProfile) : List Violation :=
  violationIf (exceedsCeiling node ceiling) (ceilingViolation
    (s!"agent {Text.repr node.id}: permission_profile " ++
      s!"{Text.reprOption (node.permissionProfile.map PermissionProfile.value)} exceeds " ++
      s!"permission_ceiling {Text.repr ceiling.value}")) ++
  (findForbiddenArgs node.extraArgs).map (fun reason =>
    ceilingViolation s!"agent {Text.repr node.id}: extra_args {reason}") ++
  violationIf (node.gitEvidence.getD false &&
      decide (node.permissionProfile.getD ceiling = .workspaceWrite)) (ceilingViolation
    (s!"agent {Text.repr node.id}: git_evidence applies only to a read-only node; a " ++
      "workspace-write node already has an unrestricted shell (drop the field, " ++
      "or set permission_profile: read-only)")) ++
  violationIf (node.resumeRoleFile.isSome && decide (node.sessionScope ≠ .editingLineage))
    (ceilingViolation
      (s!"agent {Text.repr node.id}: resume_role_file requires session_scope " ++
        "editing_lineage (no other scope resumes a session between node runs, so " ++
        "the second prompt could never be selected)")) ++
  checkPath node.id node.roleFile "role_file" ++
  checkOptionalPath node.id node.resumeRoleFile "resume_role_file"

/-- The prompt files of the supervisor block. -/
def checkSupervisorPaths (supervisor : SupervisorBlock) : List Violation :=
  [supervisor.roleFile, supervisor.finalizeRoleFile, supervisor.handoffRoleFile].flatMap
    fun path => checkOptionalPath "supervisor" path "role_file"

/-- The ceiling layer of the validator. -/
def checkCeiling (snapshot : FlowSnapshot) : List Violation :=
  (snapshot.doc.nodes.flatMap fun node =>
    match node with
    | .evaluator evaluator => checkEvaluatorCeiling evaluator
    | .agent agent => checkAgentCeiling agent snapshot.doc.permissionCeiling
    | _ => []) ++
  match snapshot.doc.supervisor with
  | none => []
  | some supervisor => checkSupervisorPaths supervisor

/-! ## Report directory -/

/-- Roots a report directory may never name, live under or contain. -/
def reservedReportRoots : List (String × String) :=
  [(".worc", "the orchestrator's control/private home"), (".worc-io", "the agent exchange"),
    (".git", "git's own directory")]

/-- `^[A-Za-z]:`. -/
def startsWithDrive (value : String) : Bool :=
  match value.toList with
  | letter :: ':' :: _ => letter.isAlpha
  | _ => false

/-- The whole-value shape rules, in the order they are reported. -/
def reportDirShapeRules : List ((String → Bool) × String) :=
  [(fun value => Text.strip value = "", "must be a non-empty repo-relative POSIX directory"),
    (fun value => value != Text.strip value, "must not carry leading or trailing whitespace"),
    (fun value => Text.contains value "\\",
      "must use '/' separators — a backslash is refused, never converted to one"),
    (startsWithDrive, "must be repo-relative — a drive letter is not a repo-relative path"),
    (fun value => Text.startsWith value "/",
      "must be repo-relative — an absolute path is not allowed"),
    (fun value => decide ("" ∈ Text.split value '/'),
      "must not contain an empty path segment (no leading, trailing or doubled '/')")]

/-- The first shape rule a value breaks. -/
def reportDirShapeRule (value : String) : Option String :=
  (reportDirShapeRules.find? fun rule => rule.1 value).map Prod.snd

/-- The rule one path segment breaks. -/
def reportDirSegmentRule (segment : String) : Option String :=
  if segment = "." || segment = ".." then
    some s!"must not contain a {Text.repr segment} segment (no traversal, no bare '.')"
  else if isWindowsReservedName segment then
    some s!"segment {Text.repr segment} is a reserved Windows device name (refused on every host)"
  else if !isPortablePathSegment segment then
    some s!"segment {Text.repr segment} is not a portable path segment"
  else none

/-- `within_subdir`: a path is a directory or lies under it. -/
def withinSubdir (path subdir : String) : Bool :=
  let normalized := Text.stripWhere (· = '/') (Text.replace path '\\' '/')
  let base := Text.stripWhere (· = '/') (Text.replace subdir '\\' '/')
  normalized = base || Text.startsWith normalized (base ++ "/")

/-- A value is a root, lies under it or contains it, in any case. -/
def overlapsRoot (value root : String) : Bool :=
  let lowered := Text.casefold value
  let rootLowered := Text.normpath (Text.casefold (Text.strip (Text.replace root '\\' '/')))
  withinSubdir lowered rootLowered || withinSubdir rootLowered lowered

/-- Refuse a value that overlaps one of the given roots. -/
def reportDirRootViolations (value : String) (category : ViolationCategory)
    (roots : List (String × String)) : List Violation :=
  roots.flatMap fun (root, what) =>
    violationIf (overlapsRoot value root)
      ⟨category, s!"flow report_dir {Text.repr value}: must not overlap {what} ({Text.repr root})"⟩

/-- The path rule of a report directory. -/
def checkReportDirValue (value : String) : List Violation :=
  let refused := fun rule => ceilingViolation s!"flow report_dir {Text.repr value}: {rule}"
  match reportDirShapeRule value with
  | some rule => [refused rule]
  | none =>
      ((Text.split value '/').filterMap fun segment =>
        (reportDirSegmentRule segment).map refused) ++
      reportDirRootViolations value .ceiling reservedReportRoots

/-- The text with its braces of a variable reference, plain or conditional. -/
def variableReferences (token : String) : List String :=
  ["\x7b" ++ token ++ "\x7d", "\x7b?" ++ token ++ "\x7d"]

/-- Some readable role file references the variable. -/
def referencesVariable (roleFiles : String → Option String) (files : List (Option String))
    (token : String) : Bool :=
  files.any fun file =>
    match file.bind roleFiles with
    | none => false
    | some template => (variableReferences token).any (Text.contains template)

/-- The prompts of a node that may name variables. -/
def promptFiles : FlowNode → List (Option String)
  | .agent node => [some node.roleFile, node.resumeRoleFile]
  | .evaluator node => [some node.roleFile, node.resumeRoleFile]
  | _ => []

/-- A flow without a report directory may not reference one. -/
def checkReportDirReferences (snapshot : FlowSnapshot) : List Violation :=
  match snapshot.roleFiles with
  | none => []
  | some roleFiles => snapshot.doc.nodes.flatMap fun node =>
      violationIf (referencesVariable roleFiles (promptFiles node) "report_dir") (ceilingViolation
        (s!"node {Text.repr node.id}: role prompt references \x7breport_dir\x7d, but " ++
          "output_policy 'code_change' resolves no report directory — the variable would render " ++
          "empty (name the directory literally, or select a report output_policy)"))

/-- The report directory layer of the validator. -/
def checkReportDir (snapshot : FlowSnapshot) : List Violation :=
  (match snapshot.doc.reportDir with
  | none => []
  | some value => checkReportDirValue value) ++
  match snapshot.doc.outputPolicy with
  | .codeChange =>
      (match snapshot.doc.reportDir with
      | none => []
      | some value => [ceilingViolation
          (s!"flow report_dir {Text.repr value}: output_policy 'code_change' resolves no " ++
            "report directory, so the key would be silently ignored (drop it, or select a " ++
            "report output_policy)")]) ++
      checkReportDirReferences snapshot
  | _ => []

end Orchestrator.Flow
