import Orchestrator.Flow.NodeOverrides

/-! # Node overrides and the provider rules

Every field of an override is checked by itself, while the rules relate several
fields or several nodes. What it takes for the rules to survive the overrides.
-/

namespace Orchestrator.Flow

open Orchestrator.Foundation

/-- The rules of the validator that depend on the providers of the nodes. -/
def KeepsProviderRules (snapshot : FlowSnapshot) (config : OrchestratorConfig) : Prop :=
  checkExecutors snapshot config = [] ∧ checkLineage snapshot = []

instance (snapshot : FlowSnapshot) (config : OrchestratorConfig) :
    Decidable (KeepsProviderRules snapshot config) :=
  inferInstanceAs (Decidable (_ ∧ _))

/-- An override that moves its executor only to a provider that supports the level it has then, and
no writer with network access to Codex. -/
structure SafeOverride (config : OrchestratorConfig) (override : Task.NodeOverride)
    (executor : Executor) (writesWithNetwork : Bool) : Prop where
  reasoning : ∀ provider ∈ admittedProvider config override,
    (∃ reasoning ∈ override.reasoning, isReasoningSupported provider reasoning = true) ∨
      ∀ reasoning ∈ executor.reasoning, isReasoningSupported provider reasoning = true
  network : config.strictIsolation = true → writesWithNetwork = true →
    admittedProvider config override ≠ some .codex

/-- The provider an agent declares or, before it, the one that an override puts on it. -/
def overlaidProvider (overrides : Dict Task.NodeOverride) (config : OrchestratorConfig)
    (node : AgentNode) : Option ProviderId :=
  (overrides.lookup node.id).bind (admittedProvider config) <|> node.provider

/-- Overrides that are safe one by one and that move no agent away from the provider of the agent
whose lineage it joins. -/
structure SafeOverrides (snapshot : FlowSnapshot) (overrides : Dict Task.NodeOverride)
    (config : OrchestratorConfig) : Prop where
  executors : ∀ node ∈ snapshot.doc.nodes, ∀ executor ∈ node.executor,
    ∀ override ∈ overrides.lookup node.id,
      SafeOverride config override executor (node.writesWithNetwork snapshot.doc)
  lineages : ∀ node owner : AgentNode, FlowNode.agent node ∈ snapshot.doc.nodes →
    FlowNode.agent owner ∈ snapshot.doc.nodes → node.lineageAffinity = some owner.id →
    ∀ first ∈ overlaidProvider overrides config node,
      ∀ second ∈ overlaidProvider overrides config owner, first = second

/-! ## One executor -/

/-- The level an override leaves passes a test exactly when the override's own does or the declared
one, which is kept otherwise. -/
theorem forall_mem_filter_orElse {test : String → Bool} {own declared : Option String} :
    (∀ level ∈ (own.filter test <|> declared), test level = true) ↔
      (∃ level ∈ own, test level = true) ∨ ∀ level ∈ declared, test level = true := by
  cases own with
  | none => simp
  | some level =>
      rw [Option.filter_some]
      by_cases passes : test level = true
      · simp [passes]
      · simp [passes]

/-- An executor that suits the configuration still does under an override exactly when that is
safe. -/
theorem Executor.Suits.overlaid_iff {executor : Executor} {config : OrchestratorConfig}
    {writesWithNetwork : Bool} (suits : executor.Suits config writesWithNetwork)
    (override : Task.NodeOverride) :
    (executor.overlaid config (some override)).Suits config writesWithNetwork ↔
      SafeOverride config override executor writesWithNetwork := by
  have levels : (executor.overlaid config (some override)).reasoning =
      (override.reasoning.filter
        (reasoningOk (admittedProvider config override <|> executor.resolved config)) <|>
        executor.reasoning) := rfl
  cases admitted : admittedProvider config override with
  | none =>
      have resolved : (executor.overlaid config (some override)).resolved config =
          executor.resolved config := by
        simp [Executor.resolved, Executor.overlaid, admitted]
      rw [admitted] at levels
      constructor
      · intro _
        exact ⟨by simp [admitted], by simp [admitted]⟩
      · intro _
        refine ⟨?_, ?_, ?_⟩
        · simpa [Executor.overlaid, admitted] using suits.allowed
        · rw [resolved, levels]
          exact forall_mem_filter_orElse.mpr (.inr suits.reasoning)
        · rw [resolved]
          exact suits.network
  | some provider =>
      have among : provider ∈ config.allowed := by
        unfold admittedProvider at admitted
        exact of_decide_eq_true (Option.filter_eq_some_iff.mp admitted).2
      have resolved : (executor.overlaid config (some override)).resolved config =
          some provider := by
        simp [Executor.resolved, Executor.overlaid, admitted]
      rw [admitted] at levels
      constructor
      · intro overlaid
        refine ⟨?_, ?_⟩
        · intro other same
          cases admitted.symm.trans same
          have kept := overlaid.reasoning
          rw [resolved, levels] at kept
          exact forall_mem_filter_orElse.mp kept
        · intro strict writes
          rw [admitted, ← resolved]
          exact overlaid.network strict writes
      · intro safe
        refine ⟨?_, ?_, ?_⟩
        · simp [Executor.overlaid, admitted, among]
        · rw [resolved, levels]
          exact forall_mem_filter_orElse.mpr (safe.reasoning provider admitted)
        · rw [resolved, ← admitted]
          exact safe.network

/-! ## Lineages -/

/-- A lineage is joined at an editing owner that declares no other provider. -/
theorem lineageError_eq_none_iff {snapshot : FlowSnapshot} {node : AgentNode} {affinity : String} :
    lineageError snapshot node affinity = none ↔ ∃ owner : AgentNode,
      snapshot.nodesById affinity = some (.agent owner) ∧
      owner.sessionScope = .editingLineage ∧ owner.lineageAffinity = none ∧
      ∀ first ∈ node.provider, ∀ second ∈ owner.provider, first = second := by
  unfold lineageError
  cases snapshot.nodesById affinity with
  | none => simp
  | some found =>
      cases found with
      | agent owner =>
          by_cases editing : owner.sessionScope = .editingLineage
          · cases chained : owner.lineageAffinity with
            | some other => simp [editing, chained]
            | none =>
                cases node.provider with
                | none => simp [editing, chained]
                | some first =>
                    cases owned : owner.provider with
                    | none => simp [editing, chained, owned]
                    | some second =>
                        by_cases same : first = second
                        · simp [editing, chained, owned, same]
                        · simp [editing, chained, owned, same]
          · simp [editing]
      | _ => simp

theorem checkLineage_eq_nil_iff {snapshot : FlowSnapshot} : checkLineage snapshot = [] ↔
    ∀ node : AgentNode, FlowNode.agent node ∈ snapshot.doc.nodes →
      ∀ affinity ∈ node.lineageAffinity, lineageError snapshot node affinity = none := by
  unfold checkLineage
  rw [List.flatMap_eq_nil_iff]
  constructor
  · intro clean node member affinity joins
    have here := clean _ member
    rw [Option.mem_def] at joins
    simpa only [joins, Option.toList_eq_nil_iff, Option.map_eq_none_iff] using here
  · intro clean node member
    cases node with
    | agent node =>
        cases joins : node.lineageAffinity with
        | none => simp only [joins]
        | some affinity =>
            simp only [joins, clean node member affinity joins, Option.map_none, Option.toList_none]
    | _ => rfl

variable {engine : FlowEngine} {overrides : Dict Task.NodeOverride} {config : OrchestratorConfig}

/-- An agent is fetched with the provider put on it, as an agent of the same lineage. -/
theorem withOverrides_agent (engine : FlowEngine) (overrides : Dict Task.NodeOverride)
    (config : OrchestratorConfig) {node : AgentNode}
    (member : FlowNode.agent node ∈ engine.snapshot.doc.nodes) : ∃ fetched : AgentNode,
      (engine.withOverrides overrides config).applyOverrides (.agent node) = .agent fetched ∧
      fetched.id = node.id ∧ fetched.sessionScope = node.sessionScope ∧
      fetched.lineageAffinity = node.lineageAffinity ∧
      fetched.provider = overlaidProvider overrides config node := by
  have laid : ((engine.withOverrides overrides config).applyOverrides (.agent node)).executor =
      (FlowNode.agent node).executor.map fun executor =>
        executor.overlaid config (overrides.lookup node.id) := withOverrides_executor member
  have shape : ∃ fetched : AgentNode,
      (engine.withOverrides overrides config).applyOverrides (.agent node) = .agent fetched ∧
      fetched.id = node.id ∧ fetched.sessionScope = node.sessionScope ∧
      fetched.lineageAffinity = node.lineageAffinity := by
    unfold FlowEngine.applyOverrides
    split
    · exact ⟨node, rfl, rfl, rfl, rfl⟩
    · exact ⟨_, rfl, rfl, rfl, rfl⟩
  obtain ⟨fetched, overlaid, sameId, sameScope, sameAffinity⟩ := shape
  refine ⟨fetched, overlaid, sameId, sameScope, sameAffinity, ?_⟩
  rw [overlaid] at laid
  have declared := congrArg Executor.provider (Option.some.inj laid)
  rw [overlaidProvider]
  cases overridden : overrides.lookup node.id with
  | none =>
      rw [overridden] at declared
      exact declared
  | some override =>
      rw [overridden] at declared
      exact declared

theorem effectiveFlow_nodesById (engine : FlowEngine) (nodeId : String) :
    engine.effectiveFlow.nodesById nodeId =
      (engine.snapshot.nodesById nodeId).map engine.applyOverrides := by
  unfold FlowSnapshot.nodesById FlowEngine.effectiveFlow
  dsimp only
  rw [List.find?_map]
  have same : (fun node : FlowNode => decide (node.id = nodeId)) ∘ engine.applyOverrides =
      fun node => decide (node.id = nodeId) :=
    funext fun node => by rw [Function.comp_apply, engine.applyOverrides_id]
  rw [same]

/-- Only the providers of a lineage change under overrides. -/
theorem effectiveFlow_lineage_iff (clean : checkLineage engine.snapshot = []) :
    checkLineage (engine.withOverrides overrides config).effectiveFlow = [] ↔
      ∀ node owner : AgentNode, FlowNode.agent node ∈ engine.snapshot.doc.nodes →
        FlowNode.agent owner ∈ engine.snapshot.doc.nodes →
        node.lineageAffinity = some owner.id →
        ∀ first ∈ overlaidProvider overrides config node,
          ∀ second ∈ overlaidProvider overrides config owner, first = second := by
  rw [checkLineage_eq_nil_iff]
  constructor
  · intro kept node owner member owned joins
    obtain ⟨fetched, overlaid, -, -, sameAffinity, provider⟩ :=
      withOverrides_agent engine overrides config member
    have among : FlowNode.agent fetched ∈
        (engine.withOverrides overrides config).effectiveFlow.doc.nodes :=
      List.mem_map.mpr ⟨_, member, overlaid⟩
    obtain ⟨other, found, -, -, agree⟩ := lineageError_eq_none_iff.mp
      (kept fetched among owner.id (sameAffinity.trans joins))
    obtain ⟨fetchedOwner, overlaidOwner, -, -, -, providerOwner⟩ :=
      withOverrides_agent engine overrides config owned
    have named : (engine.withOverrides overrides config).snapshot.nodesById owner.id =
        some (.agent owner) := engine.snapshot.nodesById_of_mem owned
    rw [effectiveFlow_nodesById, named, Option.map_some, overlaidOwner] at found
    cases found
    rw [provider, providerOwner] at agree
    exact agree
  · intro agree fetched among affinity joins
    obtain ⟨node, member, overlaid⟩ := List.mem_map.mp among
    have kind : ∃ agent, node = .agent agent := by
      cases node with
      | agent node => exact ⟨node, rfl⟩
      | _ =>
          have kinds := (engine.withOverrides overrides config).applyOverrides_kind _ ▸
            congrArg FlowNode.kind overlaid
          cases kinds
    obtain ⟨node, rfl⟩ := kind
    obtain ⟨own, overlaid', -, -, sameAffinity, provider⟩ :=
      withOverrides_agent engine overrides config member
    cases overlaid.symm.trans overlaid'
    rw [sameAffinity] at joins
    obtain ⟨owner, found, editing, root, -⟩ := lineageError_eq_none_iff.mp
      (checkLineage_eq_nil_iff.mp clean node member affinity joins)
    obtain ⟨owned, named⟩ := engine.snapshot.nodesById_eq_some found
    obtain ⟨fetchedOwner, overlaidOwner, -, sameScope, sameAffinity', providerOwner⟩ :=
      withOverrides_agent engine overrides config owned
    refine lineageError_eq_none_iff.mpr ⟨fetchedOwner, ?_, sameScope.trans editing,
      sameAffinity'.trans root, ?_⟩
    · have named : (engine.withOverrides overrides config).snapshot.nodesById affinity =
        some (.agent owner) := found
      rw [effectiveFlow_nodesById, named, Option.map_some, overlaidOwner]
    · rw [provider, providerOwner]
      exact agree node owner member owned (joins.trans (congrArg some named.symm))

/-! ## The rules under overrides -/

theorem effectiveFlow_executors_iff (consistent : checkExecutors engine.snapshot config = []) :
    checkExecutors (engine.withOverrides overrides config).effectiveFlow config = [] ↔
      ∀ node ∈ engine.snapshot.doc.nodes, ∀ executor ∈ node.executor,
        ∀ override ∈ overrides.lookup node.id,
          SafeOverride config override executor
            (node.writesWithNetwork engine.snapshot.doc) := by
  have suits := checkExecutors_eq_nil_iff.mp consistent
  rw [checkExecutors_eq_nil_iff]
  constructor
  · intro kept node member executor declared override overridden
    refine ((suits node member executor declared).overlaid_iff override).mp ?_
    have laid : ((engine.withOverrides overrides config).applyOverrides node).executor =
        node.executor.map fun executor =>
          executor.overlaid config (overrides.lookup node.id) := withOverrides_executor member
    rw [Option.mem_def.mp declared, Option.mem_def.mp overridden, Option.map_some] at laid
    have here := kept _ (List.mem_map.mpr ⟨node, member, rfl⟩) _ laid
    rwa [applyOverrides_writesWithNetwork] at here
  · intro safe fetched among executor declared
    obtain ⟨node, member, rfl⟩ := List.mem_map.mp among
    have laid : ((engine.withOverrides overrides config).applyOverrides node).executor =
        node.executor.map fun executor =>
          executor.overlaid config (overrides.lookup node.id) := withOverrides_executor member
    rw [Option.mem_def.mp declared] at laid
    obtain ⟨authored, own, rfl⟩ := Option.map_eq_some_iff.mp laid.symm
    rw [applyOverrides_writesWithNetwork]
    cases overridden : overrides.lookup node.id with
    | none => exact suits node member authored own
    | some override =>
        exact ((suits node member authored own).overlaid_iff override).mpr
          (safe node member authored own override overridden)

/-- The flow that runs under a task's overrides keeps the provider rules exactly when the overrides
are safe. -/
theorem effectiveFlow_keepsProviderRules_iff (engine : FlowEngine)
    (overrides : Dict Task.NodeOverride) (config : OrchestratorConfig)
    (accepted : Accepted engine.snapshot)
    (consistent : checkExecutors engine.snapshot config = []) :
    KeepsProviderRules (engine.withOverrides overrides config).effectiveFlow config ↔
      SafeOverrides engine.snapshot overrides config := by
  have clean : checkLineage engine.snapshot = [] :=
    (checkGraph_eq_nil_iff.mp accepted.checkGraph).2.2.2.2.2.2.1
  rw [KeepsProviderRules, effectiveFlow_executors_iff consistent, effectiveFlow_lineage_iff clean]
  exact ⟨fun rules => ⟨rules.1, rules.2⟩, fun safe => ⟨safe.executors, safe.lineages⟩⟩

/-- Plan on Codex, then code and fix in one session of Claude, with network access while coding. -/
def sessionFlow : FlowSnapshot where
  doc := {
    permissionCeiling := .workspaceWrite
    outputPolicy := .codeChange
    nodes := [
      .agent { id := "planning", roleFile := "planning.md", provider := some .codex,
               reasoning := some "minimal" },
      .agent { id := "coding", roleFile := "coding.md", sessionScope := .editingLineage,
               networkAccess := some true, provider := some .claude },
      .agent { id := "fixing", roleFile := "fixing.md", lineageAffinity := some "coding",
               provider := some .claude }]
    edges := [
      { fromNode := "planning", toNode := "coding" },
      { fromNode := "coding", toNode := "fixing" }]
    budgets := Dict.ofList [] }
  flowFingerprint := "session"
  idsValid := by decide
  idsUnique := by decide

def sessionEngine : FlowEngine where
  snapshot := sessionFlow
  agents := ⟨3, 10⟩

def sessionConfig : OrchestratorConfig where
  allowed := [.claude, .codex]
  providers := [(.claude, ⟨true⟩), (.codex, ⟨false⟩)]

/-- The flow of a run whose task moves one node to a provider. -/
def movedFlow (nodeId provider : String) : FlowSnapshot :=
  (sessionEngine.withOverrides (Dict.ofList [(nodeId, { provider := some provider })])
    sessionConfig).effectiveFlow

set_option maxRecDepth 4000 in
theorem sessionFlow_accepted : Accepted sessionFlow := by decide

set_option maxRecDepth 4000 in
theorem sessionFlow_consistent : checkExecutors sessionFlow sessionConfig = [] := by decide

/-- An override of the provider alone leaves a level that the provider does not support, lets Codex
write with network access, and parts a lineage. -/
theorem movedFlow_breaks_rules :
    Accepted sessionFlow ∧ checkExecutors sessionFlow sessionConfig = [] ∧
    checkExecutors (movedFlow "planning" "claude") sessionConfig ≠ [] ∧
    checkExecutors (movedFlow "coding" "codex") sessionConfig ≠ [] ∧
    checkLineage (movedFlow "fixing" "codex") ≠ [] := by
  refine ⟨sessionFlow_accepted, sessionFlow_consistent, ?_, ?_, ?_⟩ <;> decide

set_option maxRecDepth 4000 in
/-- Planning may move to Claude with a level that Claude supports. -/
theorem sessionFlow_safeOverrides : SafeOverrides sessionEngine.snapshot
    (Dict.ofList [("planning", { provider := some "claude", reasoning := some "high" })])
    sessionConfig := by
  apply (effectiveFlow_keepsProviderRules_iff sessionEngine _ sessionConfig sessionFlow_accepted
    sessionFlow_consistent).mp
  decide

end Orchestrator.Flow
