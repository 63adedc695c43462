import Orchestrator.Flow.Evaluator
import Orchestrator.Flow.Validator

/-! # Non-blocking evaluators never park a task

The evaluator is told what the engine would refuse before it runs, so a round it
asks for is one the engine admits, whatever the counters a run started from.
-/

/-! ## Runs that start at a given node

A checkpoint may name any node, so what a flow does at one node is seen in the
first turn of a run that starts there.
-/

namespace Orchestrator.Flow

open Orchestrator.Foundation

/-- An engine that runs every kind of node, with none disabled and no field overlaid. -/
def plainEngine (snapshot : FlowSnapshot) (region : Option (List String) := none) : FlowEngine :=
  { snapshot, region, agents := { maxFixCycles := large, maxTotalFixIterations := large } }

/-- A checkpoint at a node with every counter at zero. -/
def startAt (nodeId : String) : EngineState :=
  { runState := { flowFingerprint := "", currentNode := some nodeId } }

/-- The value of every fact with which a node is not skipped. -/
def runningFact (node : FlowNode) : Bool := (node.when.map WhenPredicate.equals).getD true

/-- Answers under which a node is run. -/
def answersAt (node : FlowNode) (run : FlowNode → NodeContext → Except String NodeOutcome) :
    EngineAnswers where
  isCancelled := false
  facts _ := runningFact node
  run

theorem shouldSkip_answersAt {engine : FlowEngine} {node : FlowNode}
    (run : FlowNode → NodeContext → Except String NodeOutcome)
    (enabled : node.id ∉ engine.disabledNodes) :
    engine.shouldSkip (answersAt node run) node = false := by
  simp only [FlowEngine.shouldSkip, enabled, ↓reduceIte]
  cases condition : node.when with
  | none => rfl
  | some predicate => simp [answersAt, runningFact, condition]

/-- The first turn at a node is the one of the outcome its runner returns. -/
theorem returns_answersAt {snapshot : FlowSnapshot} {node : FlowNode}
    (listed : node ∈ snapshot.doc.nodes) (region : Option (List String))
    (run : FlowNode → NodeContext → Except String NodeOutcome) {outcome : NodeOutcome}
    (ran : run node ((plainEngine snapshot region).nodeContext (startAt node.id).runState node) =
      .ok outcome) :
    ∃ ready, (plainEngine snapshot region).Returns (answersAt node run) (startAt node.id) node
      outcome ready := by
  have registered : node.kind ∈ (plainEngine snapshot region).runnerKinds := by
    simp only [plainEngine]
    cases node.kind <;> decide
  have executed : (plainEngine snapshot region).executeNode (answersAt node run) (startAt node.id)
      node = (_, .ok outcome) :=
    FlowEngine.executeNode_of_run _ (shouldSkip_answersAt run List.not_mem_nil) registered ran rfl
  exact ⟨_, {
    notCancelled := rfl
    known := ⟨node, snapshot.nodesById_of_mem listed, rfl⟩
    executed := ⟨_, _, rfl, executed, rfl⟩ }⟩

open Orchestrator.Foundation

/-! ## Non-blocking evaluators never park a task -/

/-- Evaluators are run by the evaluator runner, on whatever it reads. -/
def EngineAnswers.RunsEvaluators (answers : EngineAnswers) : Prop :=
  ∀ node context, ∃ inputs, answers.run (.evaluator node) context = evaluate node context inputs

/-- No run parks at a non-blocking evaluator; one that gives up, or whose rework edge would be
refused, moves on along an accept edge. -/
def AdvisoryKept (snapshot : FlowSnapshot) : Prop :=
  ∀ engine : FlowEngine, engine.snapshot = snapshot → ∀ answers : Nat → EngineAnswers,
    (∀ turn, (answers turn).RunsEvaluators) → ∀ start turns,
      (∀ result, (engine.run answers start turns).result = some (.returned result) →
        result.status = .manualActionRequired →
        ∀ node, snapshot.nodesById result.finalNode = some node → advisory node = false) ∧
      ((engine.run answers start turns).result = none →
        let state := (engine.run answers start turns).state
        ∀ node outcome ready, engine.Returns (answers turns) state node outcome ready →
          advisory node = true → snapshot.adjacency node.id ≠ [] →
          (outcome.reworkExhausted = true ∨
            engine.nodeReworkRefusal state.runState node.id ≠ none) →
          ∃ edge, (engine.turn (answers turns) state).event.taken = some edge ∧
            edge.outcome = some "accept")

/-- The non-blocking evaluators with outgoing edges have an accept edge. -/
def AdvisoryAccepts (snapshot : FlowSnapshot) : Prop :=
  ∀ node ∈ snapshot.doc.nodes, advisory node = true → snapshot.adjacency node.id ≠ [] →
    ∃ edge ∈ snapshot.adjacency node.id, edge.outcome = some "accept"

/-! ## What an advisory node asks for -/

/-- The refusal a node is told of reads the checkpoint only through its counters. -/
theorem FlowEngine.nodeReworkRefusal_congr (engine : FlowEngine) {left right : FlowRunState}
    (same : left.counter = right.counter) (nodeId : String) :
    engine.nodeReworkRefusal left nodeId = engine.nodeReworkRefusal right nodeId := by
  have each : ∀ edge, engine.reworkRefusal left edge = engine.reworkRefusal right edge :=
    fun edge => reworkRefusal_congr engine.snapshot same edge _ _
  simp only [nodeReworkRefusal, each]

/-- When a node is told of no refusal none of its rework edges is refused. -/
theorem FlowEngine.reworkRefusal_eq_none_of_node {engine : FlowEngine} {runState : FlowRunState}
    {nodeId : String} (room : engine.nodeReworkRefusal runState nodeId = none) {edge : Edge}
    (outgoing : edge ∈ engine.snapshot.adjacency nodeId) (rework : edge.outcome = some "rework") :
    engine.reworkRefusal runState edge = none := by
  simp only [nodeReworkRefusal, List.findSome?_eq_none_iff] at room
  have here := room edge outgoing
  rw [if_pos rework] at here
  exact Option.map_eq_none_iff.mp here

/-- An advisory node is a non-blocking evaluator. -/
theorem eq_evaluator_of_advisory {node : FlowNode} (exempt : advisory node = true) :
    ∃ evaluator : EvaluatorNode, node = .evaluator evaluator ∧ evaluator.blocking = false := by
  cases node with
  | evaluator evaluator => exact ⟨evaluator, rfl, by simpa [advisory] using exempt⟩
  | agent agent => cases exempt
  | checks checks => cases exempt
  | tool tool => cases exempt
  | hitl hitl => cases exempt
  | publish publish => cases exempt

namespace FlowEngine.Returns

variable {engine : FlowEngine} {answers : EngineAnswers} {state ready : EngineState}
  {node : FlowNode} {outcome : NodeOutcome}

/-- An advisory node accepts, or asks for a round that the engine would not refuse. -/
theorem advisory_kind (returns : engine.Returns answers state node outcome ready)
    (evaluators : answers.RunsEvaluators) (exempt : advisory node = true) :
    outcome.kind = "accept" ∨
      (outcome.kind = "rework" ∧ outcome.reworkExhausted = false ∧
        engine.nodeReworkRefusal state.runState node.id = none) := by
  obtain ⟨evaluator, rfl, nonBlocking⟩ := eq_evaluator_of_advisory exempt
  obtain ⟨runState, next, seeded, executed, _⟩ := returns.executed
  rcases engine.executeNode_ok executed with rfl | ran
  · exact .inl rfl
  · obtain ⟨inputs, evaluated⟩ := evaluators evaluator
      (engine.nodeContext runState (.evaluator evaluator))
    rw [evaluated] at ran
    rcases evaluate_ok ran with accepts | ⟨reworks, stays, room⟩
    · exact .inl accepts
    · refine .inr ⟨reworks, stays, ?_⟩
      rw [← engine.nodeReworkRefusal_congr (seed_ok seeded).2.1]
      exact (room nonBlocking).1

end FlowEngine.Returns

/-- No turn parks at an advisory node. -/
theorem FlowEngine.turn_parks (engine : FlowEngine) {answers : EngineAnswers}
    (evaluators : answers.RunsEvaluators) (state : EngineState) {result : FlowRunResult}
    (ended : (engine.turn answers state).result = some (.returned result))
    (manual : result.status = .manualActionRequired) {node : FlowNode}
    (known : engine.snapshot.nodesById result.finalNode = some node) : advisory node = false := by
  obtain ⟨current, outcome, ready, returns, final, ended⟩ :=
    engine.turn_returned answers state ended
  rcases ended with ⟨done, _⟩ | ⟨done, _⟩ | ⟨_, next, edge, stuck, selected, rework, held⟩
  · rw [done] at manual
    cases manual
  · rw [done] at manual
    cases manual
  · obtain ⟨fetched, found, overlaid⟩ := returns.known
    have same : fetched = node := Option.some.inj (found.symm.trans (final ▸ known))
    have exempts : advisory current = advisory node := by
      rw [overlaid, engine.applyOverrides_advisory, same]
    by_contra exempt
    rw [Bool.not_eq_false, ← exempts] at exempt
    have carries := (carries_of_find (find_of_selectEdge selected rework)).2
    rcases returns.advisory_kind evaluators exempt with accepts | ⟨reworks, _, room⟩
    · rw [Edge.isRework, carries, accepts] at rework
      exact absurd rework (by decide)
    · obtain ⟨_, _, guarded | ⟨refusal, refused⟩⟩ := engine.admitRework_stuck held
      · exact absurd guarded.1 (by simp [exempt])
      · have admitted := reworkRefusal_eq_none_of_node room (mem_of_selectEdge selected)
          (carries.trans (congrArg some reworks))
        rw [returns.reworkRefusal_eq, admitted] at refused
        cases refused

/-- An advisory node that gives up, or whose rework edge would be refused, takes an accept edge when
it has one. -/
theorem FlowEngine.Returns.advisory_accepts {engine : FlowEngine} {answers : EngineAnswers}
    {state ready : EngineState} {node : FlowNode} {outcome : NodeOutcome}
    (returns : engine.Returns answers state node outcome ready)
    (evaluators : answers.RunsEvaluators) (exempt : advisory node = true)
    (accepts : ∃ edge ∈ engine.snapshot.adjacency node.id, edge.outcome = some "accept")
    (exhausted : outcome.reworkExhausted = true ∨
      engine.nodeReworkRefusal state.runState node.id ≠ none) :
    ∃ edge, (engine.turn answers state).event.taken = some edge ∧
      edge.outcome = some "accept" := by
  have accept : outcome.kind = "accept" := by
    rcases returns.advisory_kind evaluators exempt with accept | ⟨_, stays, room⟩
    · exact accept
    · rcases exhausted with gaveUp | refused
      · rw [stays] at gaveUp
        cases gaveUp
      · exact absurd room refused
  cases exact : (engine.snapshot.adjacency node.id).find? fun edge =>
      decide (edge.outcome = some outcome.kind) with
  | none =>
      obtain ⟨edge, outgoing, carries⟩ := accepts
      have missed := List.find?_eq_none.mp exact edge outgoing
      exact absurd (carries.trans (congrArg some accept.symm)) (by simpa using missed)
  | some edge =>
      have carries : edge.outcome = some "accept" := accept ▸ (carries_of_find exact).2
      have plain : edge.isRework = false := by
        rw [Edge.isRework, carries]
        decide
      refine ⟨edge, ?_, carries⟩
      rw [returns.turn_eq_traverse (selectEdge_of_find exact)]
      simp only [traverse, plain, Bool.false_eq_true, ↓reduceIte, moveTurn, follow]

/-! ## An evaluator that gives up -/

/-- As many rework verdicts of a node as asked for, each after the last. -/
def spentVerdicts (nodeId : String) (rounds : Nat) : EvaluationStore where
  evaluations := (List.range rounds).map fun round => {
    id := round + 1
    kind := .inFlowVerdict
    verdict := "rework"
    nodeId := some nodeId
    sourceNodeRunId := some round }
  nodeRunIds := List.range rounds

theorem countReworkVerdicts_spentVerdicts (nodeId : String) (rounds : Nat) :
    (spentVerdicts nodeId rounds).countReworkVerdicts nodeId none = rounds := by
  have reset : (spentVerdicts nodeId rounds).latestReset = 0 := by
    have unmarked : ((spentVerdicts nodeId rounds).evaluations.filter fun row =>
        decide (row.kind = .reworkBudgetReset)) = [] := by
      rw [List.filter_eq_nil_iff]
      intro row member
      obtain ⟨round, _, rfl⟩ := List.mem_map.mp member
      simp
    rw [EvaluationStore.latestReset, unmarked]
    rfl
  simp only [EvaluationStore.countReworkVerdicts, EvaluationStore.inForce, reset]
  simp only [spentVerdicts, List.countP_map]
  rw [List.countP_eq_length.mpr, List.length_range]
  intro round member
  simpa using member

/-- A gating finding after all the rounds of an evaluator's own cap. -/
def spentInputs (evaluator : EvaluatorNode) : EvaluatorInputs where
  reply := .ran (some [{ blocking := true }])
  store := spentVerdicts evaluator.id evaluator.maxReworkPerStage.toNat

/-- Every evaluator has a gating finding and its own cap spent. -/
def spentRun (node : FlowNode) (context : NodeContext) : Except String NodeOutcome :=
  match node with
  | .evaluator evaluator => evaluate evaluator context (spentInputs evaluator)
  | _ => .ok (skipOutcome node)

theorem spentRun_runsEvaluators (node : FlowNode) : (answersAt node spentRun).RunsEvaluators :=
  fun evaluator _ => ⟨spentInputs evaluator, rfl⟩

theorem evaluate_spent {evaluator : EvaluatorNode} (nonBlocking : evaluator.blocking = false)
    {context : NodeContext} (unit : context.subtaskOrder = none) :
    evaluate evaluator context (spentInputs evaluator) = .ok {
      kind := "accept"
      reworkExhausted := true
      reworkLimit := some (exhaustedLimit evaluator context) } := by
  have gaveUp : verdict evaluator context (spentInputs evaluator).store
      (gatingFlags evaluator (some [{ blocking := true }])) = ("accept", true) := by
    apply verdict_spent context rfl nonBlocking
    rw [unit]
    simp only [spentInputs, countReworkVerdicts_spentVerdicts]
    exact Int.self_le_toNat _
  have replied : (spentInputs evaluator).reply = .ran (some [{ blocking := true }]) := rfl
  simp only [evaluate, replied, gaveUp, ↓reduceIte]

/-! ## The promise -/

/-- A non-blocking evaluator keeps its promise in every run exactly when those with outgoing edges
have an accept edge. -/
theorem advisory_kept_iff (snapshot : FlowSnapshot) :
    AdvisoryKept snapshot ↔ AdvisoryAccepts snapshot := by
  constructor
  · intro kept node listed exempt inner
    obtain ⟨evaluator, rfl, nonBlocking⟩ := eq_evaluator_of_advisory exempt
    obtain ⟨ready, returns⟩ := returns_answersAt listed none spentRun
      (evaluate_spent nonBlocking rfl)
    obtain ⟨edge, taken, accepts⟩ := (kept (plainEngine snapshot) rfl
      (fun _ => answersAt (.evaluator evaluator) spentRun)
      (fun _ => spentRun_runsEvaluators (.evaluator evaluator)) (startAt evaluator.id) 0).2 rfl
      _ _ ready returns exempt inner (.inl rfl)
    have takes := FlowEngine.turn_takes taken
    exact ⟨edge, (snapshot.mem_adjacency_iff _ edge).mpr
      ⟨takes.outgoing, takes.current evaluator.id rfl⟩, accepts⟩
  · rintro accepts engine rfl answers evaluators start turns
    constructor
    · intro result ended manual node known
      obtain ⟨last, _, _, lastTurn⟩ := engine.machine.exists_last_turn ended
      exact engine.turn_parks (evaluators last) _ lastTurn manual known
    · intro running state node outcome ready returns exempt inner exhausted
      obtain ⟨fetched, found, overlaid⟩ := returns.known
      obtain ⟨listed, same⟩ := engine.snapshot.nodesById_eq_some found
      have exemptFetched : advisory fetched = true := by
        rw [← exempt, overlaid, engine.applyOverrides_advisory]
      have accept := accepts fetched listed exemptFetched (same ▸ inner)
      exact returns.advisory_accepts (evaluators turns) exempt (same ▸ accept) exhausted

/-- The repair flow, whose review does not block, keeps the promise. -/
example : AdvisoryAccepts repairFlow := by
  simp only [AdvisoryAccepts]
  decide

/-- A non-blocking review that knows only how to ask for rework. -/
def stubbornFlow : FlowSnapshot where
  doc := {
    permissionCeiling := .workspaceWrite
    outputPolicy := .codeChange
    nodes := [
      .agent { id := "coding", roleFile := "coding.md" },
      .evaluator { id := "review", role := "review", roleFile := "review.md", blocking := false },
      .publish { id := "publish" }]
    edges := [
      { fromNode := "coding", toNode := "review" },
      { fromNode := "review", toNode := "publish", outcome := some "rework", budget := some 1 }]
    budgets := ∅ }
  flowFingerprint := "stubborn"
  idsValid := by decide
  idsUnique := by decide

/-- A checkpoint at the review with its inline budget spent. -/
def stubbornStart : EngineState :=
  { runState := {
      flowFingerprint := "stubborn"
      currentNode := some "review"
      loopCounters := Dict.ofList [("review->publish:rework", 1)] } }

/-- The validator accepts a non-blocking review without an accept edge; when its inline budget is
spent and it still has a finding the run ends in the engine's internal error. -/
theorem stubbornFlow_breaks : Accepted stubbornFlow ∧ ¬ AdvisoryKept stubbornFlow := by
  refine ⟨by decide, fun kept => ?_⟩
  let review := FlowNode.evaluator
    { id := "review", role := "review", roleFile := "review.md", blocking := false }
  obtain ⟨edge, taken, _⟩ := (kept (plainEngine stubbornFlow) rfl
    (fun _ => answersAt review spentRun) (fun _ => spentRun_runsEvaluators review)
    stubbornStart 0).2 rfl review _ _ ⟨rfl, ⟨_, rfl, rfl⟩, _, _, rfl, rfl, rfl⟩ rfl
    (by decide) (.inr (by decide))
  have stays : ((plainEngine stubbornFlow).turn (answersAt review spentRun)
      stubbornStart).event.taken = none := by decide
  exact nomatch stays.symm.trans taken

end Orchestrator.Flow
