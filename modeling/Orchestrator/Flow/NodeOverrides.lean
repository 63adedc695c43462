import Orchestrator.Flow.EngineTurns
import Orchestrator.Flow.Validator

/-! # A task's node overrides

A task may lay a provider, a model and a reasoning level over a node for one run.
Every field is checked by itself and dropped with a warning where it does not fit.
-/

/-! ## The executors of a flow's nodes

The rules that a configuration sets for the provider, the reasoning level and the
network of every agent and evaluator node.
-/

namespace Orchestrator.Flow

open Orchestrator.Foundation

/-! ## Capabilities -/

/-- `reasoning_levels_for`. -/
def reasoningLevelsFor : ProviderId → List String
  | .codex => ["minimal", "low", "medium", "high", "xhigh", "max"]
  | .claude => ["low", "medium", "high", "xhigh", "max"]

/-- `all_reasoning_levels`: what some provider accepts. -/
def allReasoningLevels : List String :=
  ([ProviderId.claude, .codex].flatMap reasoningLevelsFor).dedup

/-- `is_reasoning_supported`. -/
def isReasoningSupported (provider : ProviderId) (reasoning : String) : Bool :=
  decide (reasoning ∈ reasoningLevelsFor provider)

/-- The levels a node may use: those of its provider, or any when no provider resolves. -/
def reasoningOk (provider : Option ProviderId) (reasoning : String) : Bool :=
  match provider with
  | none => decide (reasoning ∈ allReasoningLevels)
  | some provider => isReasoningSupported provider reasoning

/-! ## The configuration -/

structure ProviderConfig where
  primary : Bool := false

/-- What the rules on executors read of the configuration. -/
structure OrchestratorConfig where
  allowed : List ProviderId
  providers : List (ProviderId × ProviderConfig)
  strictIsolation : Bool := true

/-- `global_primary`: the one provider marked primary, if there is one. -/
def globalPrimary (config : OrchestratorConfig) : Option ProviderId :=
  match (config.providers.filter fun entry => entry.2.primary).map Prod.fst with
  | [primary] => some primary
  | _ => none

/-- `sorted(p.value for p in allowed)`, rendered. -/
def OrchestratorConfig.allowedText (config : OrchestratorConfig) : String :=
  Text.reprSorted (config.allowed.map ProviderId.value).dedup

/-! ## The rules -/

/-- The provider and the reasoning level a node declares. -/
structure Executor where
  provider : Option ProviderId
  reasoning : Option String

/-- The kinds that run an agent have an executor. -/
def FlowNode.executor : FlowNode → Option Executor
  | .agent node => some ⟨node.provider, node.reasoning⟩
  | .evaluator node => some ⟨node.provider, node.reasoning⟩
  | _ => none

/-- The provider that runs an executor: its own or the global primary. -/
def Executor.resolved (executor : Executor) (config : OrchestratorConfig) : Option ProviderId :=
  executor.provider <|> globalPrimary config

/-- An agent whose profile writes the clone and whose network is granted. -/
def AgentNode.writesWithNetwork (node : AgentNode) (doc : FlowDoc) : Bool :=
  decide (node.permissionProfile.getD doc.permissionCeiling = .workspaceWrite) &&
    resolveNetworkAccess node.networkAccess doc.networkPolicy

def configViolation (message : String) : Violation := ⟨.config, message⟩

/-- A declared provider must be allowed. -/
def checkProvider (config : OrchestratorConfig) (nodeId : String) (executor : Executor) :
    List Violation :=
  match executor.provider with
  | none => []
  | some provider =>
      violationIf (decide (provider ∉ config.allowed)) (configViolation
        (s!"node {Text.repr nodeId}: provider {Text.repr provider.value} not in agents.allowed " ++
          config.allowedText))

/-- A declared reasoning level must be one of the provider that runs the node. -/
def checkReasoning (config : OrchestratorConfig) (nodeId : String) (executor : Executor) :
    List Violation :=
  match executor.reasoning with
  | none => []
  | some reasoning =>
      violationIf (!reasoningOk (executor.resolved config) reasoning) (configViolation
        (s!"node {Text.repr nodeId}: reasoning {Text.repr reasoning} " ++
          match executor.resolved config with
          | none => s!"not in {Text.reprSorted allReasoningLevels}"
          | some provider => s!"is not supported by provider {Text.repr provider.value}; " ++
              s!"expected one of {Text.reprSorted (reasoningLevelsFor provider)}"))

/-- Under strict isolation Codex does not both write the clone and reach the network. -/
def checkCodexNetwork (config : OrchestratorConfig) (doc : FlowDoc) (executor : Executor) :
    FlowNode → List Violation
  | .agent node =>
      violationIf (config.strictIsolation && decide (executor.resolved config = some .codex) &&
          node.writesWithNetwork doc)
        (configViolation
          (s!"node {Text.repr node.id}: codex cannot run with workspace-write and " ++
            "network_access=true; split network research into a read-only node or set " ++
            "network_access: false"))
  | _ => []

/-- The rules on one node. -/
def checkNodeExecutor (config : OrchestratorConfig) (doc : FlowDoc) (node : FlowNode) :
    List Violation :=
  match node.executor with
  | none => []
  | some executor =>
      checkProvider config node.id executor ++ checkReasoning config node.id executor ++
        checkCodexNetwork config doc executor node

/-- Rule 1 of `_check_config_consistency`: the executor of every node suits the configuration. -/
def checkExecutors (snapshot : FlowSnapshot) (config : OrchestratorConfig) : List Violation :=
  snapshot.doc.nodes.flatMap (checkNodeExecutor config snapshot.doc)

/-! ## What the rules say -/

/-- An executor that the configuration accepts, on a node that may write with network access. -/
structure Executor.Suits (executor : Executor) (config : OrchestratorConfig)
    (writesWithNetwork : Bool) : Prop where
  allowed : ∀ provider ∈ executor.provider, provider ∈ config.allowed
  reasoning : ∀ reasoning ∈ executor.reasoning,
    reasoningOk (executor.resolved config) reasoning = true
  network : config.strictIsolation = true → writesWithNetwork = true →
    executor.resolved config ≠ some .codex

/-- Only agents are subject to the rule on the network. -/
def FlowNode.writesWithNetwork (doc : FlowDoc) : FlowNode → Bool
  | .agent node => node.writesWithNetwork doc
  | _ => false

theorem checkProvider_eq_nil_iff {config : OrchestratorConfig} {nodeId : String}
    {executor : Executor} : checkProvider config nodeId executor = [] ↔
      ∀ provider ∈ executor.provider, provider ∈ config.allowed := by
  unfold checkProvider
  cases executor.provider <;> simp

theorem checkReasoning_eq_nil_iff {config : OrchestratorConfig} {nodeId : String}
    {executor : Executor} : checkReasoning config nodeId executor = [] ↔
      ∀ reasoning ∈ executor.reasoning,
        reasoningOk (executor.resolved config) reasoning = true := by
  unfold checkReasoning
  cases executor.reasoning <;> simp

theorem checkCodexNetwork_eq_nil_iff {config : OrchestratorConfig} {doc : FlowDoc}
    {executor : Executor} {node : FlowNode} : checkCodexNetwork config doc executor node = [] ↔
      (config.strictIsolation = true → node.writesWithNetwork doc = true →
        executor.resolved config ≠ some .codex) := by
  cases node with
  | agent node =>
      simp only [checkCodexNetwork, FlowNode.writesWithNetwork, violationIf_eq_nil_iff,
        Bool.and_eq_false_iff, decide_eq_false_iff_not, ne_eq]
      cases config.strictIsolation <;> cases node.writesWithNetwork doc <;> simp
  | _ => simp [checkCodexNetwork, FlowNode.writesWithNetwork]

theorem checkNodeExecutor_eq_nil_iff {config : OrchestratorConfig} {doc : FlowDoc}
    {node : FlowNode} : checkNodeExecutor config doc node = [] ↔
      ∀ executor ∈ node.executor, executor.Suits config (node.writesWithNetwork doc) := by
  unfold checkNodeExecutor
  cases node.executor with
  | none => simp
  | some executor =>
      simp only [List.append_eq_nil_iff, checkProvider_eq_nil_iff, checkReasoning_eq_nil_iff,
        checkCodexNetwork_eq_nil_iff, Option.mem_some_iff, forall_eq']
      exact ⟨fun rules => ⟨rules.1.1, rules.1.2, rules.2⟩,
        fun suits => ⟨⟨suits.allowed, suits.reasoning⟩, suits.network⟩⟩

theorem checkExecutors_eq_nil_iff {snapshot : FlowSnapshot} {config : OrchestratorConfig} :
    checkExecutors snapshot config = [] ↔ ∀ node ∈ snapshot.doc.nodes,
      ∀ executor ∈ node.executor,
        executor.Suits config (node.writesWithNetwork snapshot.doc) := by
  unfold checkExecutors
  simp only [List.flatMap_eq_nil_iff, checkNodeExecutor_eq_nil_iff]

end Orchestrator.Flow

namespace Orchestrator.Task

/-! ## A task's node overrides -/

/-- What a task's front matter says about one node. -/
structure NodeOverride where
  enabled : Option Bool := none
  model : Option String := none
  reasoning : Option String := none
  provider : Option String := none

end Orchestrator.Task

namespace Orchestrator.Flow

open Orchestrator.Foundation

/-! ## Resolution -/

/-- `_coerce_provider`. -/
def coerceProvider (value : String) : Option ProviderId :=
  [ProviderId.claude, .codex].find? fun provider => provider.value = value

/-- The provider an override puts on its node: the one it names, if that is an allowed one. -/
def admittedProvider (config : OrchestratorConfig) (override : Task.NodeOverride) :
    Option ProviderId :=
  (override.provider.bind coerceProvider).filter fun provider => provider ∈ config.allowed

/-- `_reasoning_expectation`. -/
def reasoningExpectation : Option ProviderId → String
  | none => s!"not in {Text.reprSorted allReasoningLevels}"
  | some provider => s!"is not supported by provider {Text.repr provider.value} " ++
      s!"(expected one of {Text.reprSorted (reasoningLevelsFor provider)})"

/-- The level an override puts on its node: the one it names, if the provider supports it. -/
def admittedReasoning (provider : Option ProviderId) (override : Task.NodeOverride) :
    Option String :=
  override.reasoning.filter (reasoningOk provider)

/-- The fields an override lays over an executor. -/
def overlayFields (config : OrchestratorConfig) (executor : Executor)
    (override : Task.NodeOverride) : NodeOverride where
  provider := admittedProvider config override
  reasoning := admittedReasoning (admittedProvider config override <|> executor.resolved config)
    override
  model := override.model

/-- The warnings for the fields of an override that are dropped. -/
def overlayWarnings (config : OrchestratorConfig) (nodeId : String) (executor : Executor)
    (override : Task.NodeOverride) : List String :=
  let fields := overlayFields config executor override
  (match override.provider with
    | none => []
    | some value =>
        if fields.provider.isSome then []
        else [s!"node {Text.repr nodeId}: provider {Text.repr value} not in agents.allowed " ++
          config.allowedText ++ "; using the flow's provider"]) ++
  match override.reasoning with
    | none => []
    | some reasoning =>
        if fields.reasoning.isSome then []
        else [s!"node {Text.repr nodeId}: reasoning {Text.repr reasoning} " ++
          reasoningExpectation (fields.provider <|> executor.resolved config) ++
          "; using the flow's reasoning"]

def NodeOverride.isEmpty (fields : NodeOverride) : Bool :=
  fields.provider.isNone && fields.model.isNone && fields.reasoning.isNone

/-- The override of one node: the fields to lay over it, if any, and the warnings. -/
def resolveOverride (snapshot : FlowSnapshot) (config : OrchestratorConfig) (nodeId : String)
    (override : Task.NodeOverride) : Option NodeOverride × List String :=
  if override.model.isNone && override.reasoning.isNone && override.provider.isNone then (none, [])
  else match snapshot.nodesById nodeId with
    | none => (none, [s!"node {Text.repr nodeId}: override ignored (no such node in the flow)"])
    | some node =>
        match node.executor with
        | none => (none, [s!"node {Text.repr nodeId} ({node.kind.value}): " ++
            "takes no model/reasoning/provider override; ignored"])
        | some executor =>
            (some (overlayFields config executor override) |>.filter fun fields => !fields.isEmpty,
              overlayWarnings config nodeId executor override)

structure NodeOverrideResolution where
  overlay : List (String × NodeOverride)
  warnings : List String

/-- `resolve_node_overrides`. -/
def resolveNodeOverrides (snapshot : FlowSnapshot) (overrides : Dict Task.NodeOverride)
    (config : OrchestratorConfig) : NodeOverrideResolution where
  overlay := overrides.entries.filterMap fun item =>
    (resolveOverride snapshot config item.1 item.2).1.map fun fields => (item.1, fields)
  warnings := overrides.entries.flatMap fun item =>
    (resolveOverride snapshot config item.1 item.2).2

/-- The engine of a run, with the task's overrides resolved. -/
def FlowEngine.withOverrides (engine : FlowEngine) (overrides : Dict Task.NodeOverride)
    (config : OrchestratorConfig) : FlowEngine :=
  { engine with nodeOverrides := fun nodeId =>
      (resolveNodeOverrides engine.snapshot overrides config).overlay.lookup nodeId }

/-- The flow that an engine runs: every node as it is fetched. -/
def FlowEngine.effectiveFlow (engine : FlowEngine) : FlowSnapshot where
  doc := { engine.snapshot.doc with nodes := engine.snapshot.doc.nodes.map engine.applyOverrides }
  flowFingerprint := engine.snapshot.flowFingerprint
  roleFiles := engine.snapshot.roleFiles
  idsValid := by
    intro node member
    obtain ⟨fetched, among, rfl⟩ := List.mem_map.mp member
    rw [engine.applyOverrides_id]
    exact engine.snapshot.idsValid fetched among
  idsUnique := by
    have same : FlowNode.id ∘ engine.applyOverrides = FlowNode.id :=
      funext engine.applyOverrides_id
    rw [List.map_map, same]
    exact engine.snapshot.idsUnique

/-! ## What a resolved override does -/

/-- The executor a node runs with. -/
def Executor.overlaid (executor : Executor) (config : OrchestratorConfig) :
    Option Task.NodeOverride → Executor
  | none => executor
  | some override => {
      provider := admittedProvider config override <|> executor.provider
      reasoning := (overlayFields config executor override).reasoning <|> executor.reasoning }

/-- What is laid over an agent or evaluator of the flow. -/
theorem resolveOverride_eq {snapshot : FlowSnapshot} {node : FlowNode}
    (member : node ∈ snapshot.doc.nodes) {executor : Executor}
    (declared : node.executor = some executor) (config : OrchestratorConfig)
    (override : Task.NodeOverride) :
    (resolveOverride snapshot config node.id override).1 =
      (some (overlayFields config executor override)).filter fun fields => !fields.isEmpty := by
  unfold resolveOverride
  split
  · rename_i unset
    simp only [Bool.and_eq_true, Option.isNone_iff_eq_none] at unset
    have nothing : (overlayFields config executor override).isEmpty = true := by
      simp [overlayFields, NodeOverride.isEmpty, admittedProvider, admittedReasoning, unset.1.1,
        unset.1.2, unset.2]
    rw [Option.filter_some, nothing]
    rfl
  · rw [snapshot.nodesById_of_mem member]
    simp only [declared]

variable {engine : FlowEngine} {overrides : Dict Task.NodeOverride} {config : OrchestratorConfig}

/-- Fields laid over an executor. -/
def Executor.over (executor : Executor) (fields : NodeOverride) : Executor where
  provider := fields.provider <|> executor.provider
  reasoning := fields.reasoning <|> executor.reasoning

theorem applyOverrides_executor (node : FlowNode) :
    (engine.applyOverrides node).executor = node.executor.map fun executor =>
      (engine.nodeOverrides node.id).elim executor executor.over := by
  unfold FlowEngine.applyOverrides
  cases engine.nodeOverrides node.id with
  | none => cases node <;> rfl
  | some fields => cases node <;> rfl

/-- Fields that are all absent change nothing. -/
theorem Executor.over_of_isEmpty (executor : Executor) {fields : NodeOverride}
    (empty : fields.isEmpty = true) : executor.over fields = executor := by
  simp only [NodeOverride.isEmpty, Bool.and_eq_true, Option.isNone_iff_eq_none] at empty
  rw [Executor.over, empty.1.1, empty.2]
  rfl

/-- A node of the flow is fetched with its executor overlaid. -/
theorem withOverrides_executor {node : FlowNode} (member : node ∈ engine.snapshot.doc.nodes) :
    ((engine.withOverrides overrides config).applyOverrides node).executor =
      node.executor.map fun executor =>
        executor.overlaid config (overrides.lookup node.id) := by
  have laid : (engine.withOverrides overrides config).nodeOverrides node.id =
      (overrides.lookup node.id).bind fun override =>
        (resolveOverride engine.snapshot config node.id override).1 :=
    overrides.lookup_filterMap
      (fun nodeId override => (resolveOverride engine.snapshot config nodeId override).1) node.id
  rw [applyOverrides_executor, laid]
  cases declared : node.executor with
  | none => rfl
  | some executor =>
      cases overrides.lookup node.id with
      | none => rfl
      | some override =>
          rw [Option.bind_some, resolveOverride_eq member declared, Option.filter_some]
          cases empty : (overlayFields config executor override).isEmpty with
          | false => rfl
          | true => exact congrArg some (executor.over_of_isEmpty empty).symm

@[simp] theorem applyOverrides_writesWithNetwork (node : FlowNode) (doc : FlowDoc) :
    (engine.applyOverrides node).writesWithNetwork doc = node.writesWithNetwork doc := by
  unfold FlowEngine.applyOverrides
  split
  · rfl
  · split <;> rfl

end Orchestrator.Flow
