import Orchestrator.Flow.Resume

/-! # Outcomes and edges

What a node can return is fixed by its kind, which edges it has is up to the
author of the flow. The validator checks that no edge carries a foreign outcome,
not that each outcome has an edge.
-/

namespace Orchestrator.Flow

open Orchestrator.Foundation

/-- The outcomes the node runners of a kind return. -/
def kindOutcomes : NodeKind → List String
  | .evaluator => ["accept", "rework"]
  | .checks => ["pass", "fail"]
  | .tool => ["pass", "fail"]
  | _ => ["done"]

/-- A node with an edge for each outcome of its kind: a check or a verdict needs one of each, any
other kind a single unconditional edge. -/
def coversOutcomes (snapshot : FlowSnapshot) (node : FlowNode) : Bool :=
  let edges := snapshot.adjacency node.id
  match node.kind with
  | .evaluator => edges.any (fun edge => edge.outcome = some "accept") &&
      edges.any fun edge => edge.outcome = some "rework"
  | .checks => edges.any (fun edge => edge.outcome = some "pass") &&
      edges.any fun edge => edge.outcome = some "fail"
  | .tool => edges.any (fun edge => edge.outcome = some "pass") &&
      edges.any fun edge => edge.outcome = some "fail"
  | _ => (edges.filter fun edge => decide (edge.outcome = none)).length = 1

/-- On every node with outgoing edges every outcome of its kind selects an edge. -/
def EveryOutcomeSelects (snapshot : FlowSnapshot) : Prop :=
  ∀ node ∈ snapshot.doc.nodes, snapshot.adjacency node.id ≠ [] →
    ∀ kind ∈ kindOutcomes node.kind, ∀ outcome : NodeOutcome, outcome.kind = kind →
      ∃ edge, selectEdge node (snapshot.adjacency node.id) outcome = .ok edge

/-- The node runners return outcomes of their kind. -/
def EngineAnswers.OfKind (answers : EngineAnswers) : Prop :=
  ∀ node context outcome, answers.run node context = .ok outcome →
    outcome.kind ∈ kindOutcomes node.kind

/-- The errors of an outcome that selects no edge. -/
def EngineInternalError.isUnmatched : EngineInternalError → Bool
  | .routeMatchesNoEdge _ _ => true
  | .outcomeMatchesNoEdge _ _ _ => true
  | _ => false

/-- No run whose runners return outcomes of their kind ends for want of an edge. -/
def NoUnmatchedRun (snapshot : FlowSnapshot) : Prop :=
  ∀ engine : FlowEngine, engine.snapshot = snapshot → ∀ answers : Nat → EngineAnswers,
    (∀ turn, (answers turn).OfKind) → ∀ start turns error,
      (engine.run answers start turns).result = some (.internalError error) →
        error.isUnmatched = false

/-! ## Selection -/

/-- An outcome that is no route selects its own edge or, when done, the one unconditional edge. -/
theorem selectEdge_ok_iff {node : FlowNode} {edges : List Edge} {outcome : NodeOutcome}
    (plain : Text.startsWith outcome.kind "route:" = false) :
    (∃ edge, selectEdge node edges outcome = .ok edge) ↔
      (∃ edge ∈ edges, edge.outcome = some outcome.kind) ∨
      (outcome.kind = "done" ∧
        (edges.filter fun edge => decide (edge.outcome = none)).length = 1) := by
  unfold selectEdge
  simp only [plain, Bool.false_eq_true, ↓reduceIte]
  cases exact : edges.find? fun edge => decide (edge.outcome = some outcome.kind) with
  | some found =>
      obtain ⟨member, carries⟩ := carries_of_find exact
      exact ⟨fun _ => .inl ⟨found, member, carries⟩, fun _ => ⟨found, rfl⟩⟩
  | none =>
      have absent : ¬ ∃ edge ∈ edges, edge.outcome = some outcome.kind := by
        rintro ⟨edge, member, carries⟩
        have missed := List.find?_eq_none.mp exact edge member
        rw [decide_eq_true_eq] at missed
        exact missed carries
      simp only [absent, false_or]
      by_cases finished : outcome.kind = "done"
      · simp only [finished, ↓reduceIte, true_and, List.length_eq_one_iff]
        split
        · rename_i single only
          exact ⟨fun _ => ⟨single, only⟩, fun _ => ⟨single, rfl⟩⟩
        · rename_i several
          exact ⟨fun ⟨_, impossible⟩ => (nomatch impossible),
            fun ⟨single, only⟩ => absurd only (several single)⟩
      · simp [finished]

theorem not_route_of_mem {kind : NodeKind} {outcome : String}
    (member : outcome ∈ kindOutcomes kind) : Text.startsWith outcome "route:" = false := by
  cases kind <;> simp only [kindOutcomes, List.mem_cons, List.not_mem_nil, or_false] at member
  all_goals rcases member with rfl | rfl <;> decide

/-- An edge of an accepted flow carries a route or an outcome its node's kind allows. -/
theorem Accepted.outcome_of_adjacency {snapshot : FlowSnapshot} (accepted : Accepted snapshot)
    {node : FlowNode} (listed : node ∈ snapshot.doc.nodes) {edge : Edge}
    (outgoing : edge ∈ snapshot.adjacency node.id) :
    isRoute edge.outcome = true ∨ edge.outcome ∈ allowedOutcomes node.kind := by
  obtain ⟨member, source⟩ := (snapshot.mem_adjacency_iff node.id edge).mp outgoing
  have allowed := accepted.outcome_allowed member (source ▸ snapshot.nodesById_of_mem listed)
  simpa only [outcomeAllowed, Bool.or_eq_true, decide_eq_true_eq] using allowed

/-! ## Coverage -/

/-- An edge for the outcome, or a single unconditional edge to fall back on when done. -/
def CoversOutcome (edges : List Edge) (kind : String) : Prop :=
  (∃ edge ∈ edges, edge.outcome = some kind) ∨
    (kind = "done" ∧ (edges.filter fun edge => decide (edge.outcome = none)).length = 1)

/-- No edge of an accepted flow carries "done" itself. -/
theorem Accepted.done_unnamed {snapshot : FlowSnapshot} (accepted : Accepted snapshot)
    {node : FlowNode} (listed : node ∈ snapshot.doc.nodes) :
    ¬ ∃ edge ∈ snapshot.adjacency node.id, edge.outcome = some "done" := by
  rintro ⟨edge, outgoing, carries⟩
  rcases accepted.outcome_of_adjacency listed outgoing with route | allowed
  · rw [carries] at route
    exact absurd route (by decide)
  · rw [carries] at allowed
    generalize node.kind = kind at allowed
    cases kind
    all_goals exact absurd allowed (by decide)

/-- The coverage of a node is the coverage of each outcome of its kind. -/
theorem Accepted.coversOutcomes_iff {snapshot : FlowSnapshot} (accepted : Accepted snapshot)
    {node : FlowNode} (listed : node ∈ snapshot.doc.nodes) :
    coversOutcomes snapshot node = true ↔
      ∀ kind ∈ kindOutcomes node.kind, CoversOutcome (snapshot.adjacency node.id) kind := by
  have unnamed := accepted.done_unnamed listed
  have verdict : ("accept" = "done") = False ∧ ("rework" = "done") = False ∧
      ("pass" = "done") = False ∧ ("fail" = "done") = False := by decide
  simp only [coversOutcomes, CoversOutcome]
  cases node.kind with
  | evaluator => simp [kindOutcomes, verdict]
  | checks => simp [kindOutcomes, verdict]
  | tool => simp [kindOutcomes, verdict]
  | agent => simp [kindOutcomes, unnamed]
  | hitl => simp [kindOutcomes, unnamed]
  | publish => simp [kindOutcomes, unnamed]

/-- The outcomes of a node all select an edge exactly when its edges cover them. -/
theorem Accepted.selects_iff {snapshot : FlowSnapshot} (accepted : Accepted snapshot)
    {node : FlowNode} (listed : node ∈ snapshot.doc.nodes) :
    (∀ kind ∈ kindOutcomes node.kind, ∀ outcome : NodeOutcome, outcome.kind = kind →
      ∃ edge, selectEdge node (snapshot.adjacency node.id) outcome = .ok edge) ↔
    coversOutcomes snapshot node = true := by
  rw [accepted.coversOutcomes_iff listed]
  refine forall₂_congr fun kind member => ?_
  constructor
  · intro selects
    have plain : Text.startsWith ({ kind } : NodeOutcome).kind "route:" = false :=
      not_route_of_mem member
    exact (selectEdge_ok_iff plain).mp (selects { kind } rfl)
  · rintro covered outcome rfl
    exact (selectEdge_ok_iff (not_route_of_mem member)).mpr covered

theorem Accepted.everyOutcomeSelects_iff {snapshot : FlowSnapshot}
    (accepted : Accepted snapshot) : EveryOutcomeSelects snapshot ↔
      ∀ node ∈ snapshot.doc.nodes, snapshot.adjacency node.id ≠ [] →
        coversOutcomes snapshot node = true :=
  forall₂_congr fun _ listed => imp_congr_right fun _ => accepted.selects_iff listed

/-! ## Runs -/

/-- A skipped node passes with an outcome of its kind. -/
theorem skipOutcome_mem (node : FlowNode) : (skipOutcome node).kind ∈ kindOutcomes node.kind := by
  cases node
  all_goals exact List.mem_cons_self

/-- A run that cannot start lacks a single entry node. -/
theorem FlowEngine.seed_error {engine : FlowEngine} {runState : FlowRunState}
    {error : EngineInternalError} (failed : engine.seed runState = .error error) :
    error.isUnmatched = false := by
  simp only [seed, entryNodeId] at failed
  split at failed
  · cases failed
  · split at failed
    · rename_i reason several
      split at several
      · cases several
      · cases several
        cases failed
        rfl
    · cases failed

/-- An overlaid node selects like the node of the flow. -/
theorem selectEdge_isOk_congr {node other : FlowNode} (edges : List Edge) (outcome : NodeOutcome)
    (plain : Text.startsWith outcome.kind "route:" = false) :
    (∃ edge, selectEdge node edges outcome = .ok edge) ↔
      ∃ edge, selectEdge other edges outcome = .ok edge := by
  rw [selectEdge_ok_iff plain, selectEdge_ok_iff plain]

/-- The outcome of a dispatched node is one of its kind. -/
theorem FlowEngine.Returns.outcome_mem {engine : FlowEngine} {answers : EngineAnswers}
    {state ready : EngineState} {node : FlowNode} {outcome : NodeOutcome}
    (returns : engine.Returns answers state node outcome ready) (kinds : answers.OfKind) :
    outcome.kind ∈ kindOutcomes node.kind := by
  obtain ⟨runState, next, _, executed, _⟩ := returns.executed
  rcases engine.executeNode_ok executed with rfl | ran
  · exact skipOutcome_mem node
  · exact kinds _ _ _ ran

/-- Where every outcome selects an edge no turn ends for want of one. -/
theorem FlowEngine.turn_matched (engine : FlowEngine)
    (selects : EveryOutcomeSelects engine.snapshot) {answers : EngineAnswers}
    (kinds : answers.OfKind) (state : EngineState) {error : EngineInternalError}
    (raised : (engine.turn answers state).result = some (.internalError error)) :
    error.isUnmatched = false := by
  have path := engine.turn_path answers state
  generalize engine.turn answers state = turn at path raised
  cases path with
  | noEntry reason unseeded =>
      cases raised
      exact seed_error unseeded
  | cancelled runState nodeId seeded stopped => cases raised
  | missing runState nodeId seeded absent => cases raised
  | failed runState node next ended seeded known failure =>
      cases raised
      rcases engine.executeNode_error failure with ⟨_, same⟩ | ⟨message, same⟩
      · cases same
        rfl
      · cases same
  | finished node outcome ready returns terminal => cases raised
  | unmatched node outcome ready reason returns inner unselected =>
      obtain ⟨fetched, found, overlaid⟩ := returns.known
      obtain ⟨listed, same⟩ := engine.snapshot.nodesById_eq_some found
      have member := returns.outcome_mem kinds
      have kind : node.kind = fetched.kind := by rw [overlaid, engine.applyOverrides_kind]
      rw [← same] at inner unselected
      obtain ⟨edge, selected⟩ := (selectEdge_isOk_congr _ outcome (not_route_of_mem member)).mp
        (selects fetched listed inner outcome.kind (kind ▸ member) outcome rfl)
      rw [selected] at unselected
      cases unselected
  | parked node outcome ready next edge stuck returns selected rework held => cases raised
  | charged node outcome ready next edge returns selected rework admitted =>
      cases (engine.follow_ended raised).2
  | forward node outcome ready edge returns selected plain =>
      cases (engine.follow_ended raised).2

/-- Where every outcome selects an edge no run ends for want of one. -/
theorem noUnmatchedRun_of_selects {snapshot : FlowSnapshot}
    (selects : EveryOutcomeSelects snapshot) : NoUnmatchedRun snapshot := by
  rintro engine rfl answers kinds start turns error raised
  obtain ⟨last, _, _, ended⟩ := engine.machine.exists_last_turn raised
  exact engine.turn_matched selects (kinds last) _ ended

/-- A review that knows only how to ask for rework. -/
def reworkOnlyFlow : FlowSnapshot where
  doc := {
    permissionCeiling := .workspaceWrite
    outputPolicy := .codeChange
    nodes := [
      .agent { id := "coding", roleFile := "coding.md" },
      .evaluator { id := "review", role := "review", roleFile := "review.md" },
      .publish { id := "publish" }]
    edges := [
      { fromNode := "coding", toNode := "review" },
      { fromNode := "review", toNode := "publish", outcome := some "rework", budget := some 1 }]
    budgets := ∅ }
  flowFingerprint := "rework_only"
  idsValid := by decide
  idsUnique := by decide

def reworkOnlyEngine : FlowEngine :=
  { snapshot := reworkOnlyFlow, agents := { maxFixCycles := 3, maxTotalFixIterations := 4 } }

end Orchestrator.Flow
