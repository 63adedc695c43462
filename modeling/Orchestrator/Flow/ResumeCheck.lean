import Orchestrator.Flow.Advisory

/-! # The budget check before a resume

The check looks at the named loops ahead of the resumed node and at the global
backstop. Edges with an inline budget are outside it; on all other rework and
fail edges it agrees with the engine.
-/

namespace Orchestrator.Flow

open Orchestrator.Foundation

variable {snapshot : FlowSnapshot} {counters : Dict Nat} {maxFixCycles maxTotalFixIterations : Int}
  {start : String}

/-- The check reports a loop. -/
def ReportsLoop (snapshot : FlowSnapshot) (counters : Dict Nat) (maxFixCycles : Int)
    (start loop : String) : Prop :=
  ∃ exhausted ∈ exhaustedFixLoops snapshot counters maxFixCycles start, exhausted.loop = loop

/-- The check reports neither a loop nor the backstop. -/
def ReportsNothing (snapshot : FlowSnapshot) (counters : Dict Nat)
    (maxFixCycles maxTotalFixIterations : Int) (start : String) : Prop :=
  exhaustedFixLoops snapshot counters maxFixCycles start = [] ∧
    globalBackstopExhausted snapshot.doc.budgets maxTotalFixIterations counters = false

/-- The rework and fail edges of the nodes on the way forward. -/
def ChargedAhead (snapshot : FlowSnapshot) (start : String) (edge : Edge) : Prop :=
  edge ∈ snapshot.doc.edges ∧ snapshot.graph.Reaches start edge.fromNode ∧ edge.isRework = true

/-- The inline budget of an edge is spent. -/
def InlineSpent (counters : Dict Nat) (edge : Edge) : Prop :=
  edge.loop = none ∧ ∃ budget, edge.budget = some budget ∧
    budget ≤ (Dict.get counters (edgeKey edge) 0 : Nat)

/-- The checkpoint a run is resumed from. -/
def resumedState (start : String) (counters : Dict Nat) : FlowRunState :=
  { flowFingerprint := "", currentNode := some start, loopCounters := counters }

/-- The engine would refuse an edge at the resumed checkpoint. -/
def RefusedAt (snapshot : FlowSnapshot) (counters : Dict Nat)
    (maxFixCycles maxTotalFixIterations : Int) (start : String) (edge : Edge) : Prop :=
  reworkRefusal snapshot (resumedState start counters) edge maxFixCycles maxTotalFixIterations ≠
    none

/-! ## One edge -/

theorem reportsLoop_iff {loop : String} :
    ReportsLoop snapshot counters maxFixCycles start loop ↔
      (∃ edge, ChargedAhead snapshot start edge ∧ edge.loop = some loop) ∧
        loopCap snapshot.doc.budgets maxFixCycles loop ≤ (Dict.get counters loop 0 : Nat) := by
  simp only [ReportsLoop, exhaustedFixLoops, List.mem_flatMap, List.mem_filterMap,
    snapshot.mem_reachableNodes_iff, snapshot.mem_adjacency_iff]
  constructor
  · rintro ⟨exhausted, ⟨nodeId, reached, edge, ⟨listed, rfl⟩, found⟩, rfl⟩
    simp only [exhaustedLoop] at found
    split at found
    · cases found
    · rename_i loop named
      split at found
      · rename_i rework
        split at found
        · rename_i spent
          cases found
          exact ⟨⟨edge, ⟨listed, reached, rework⟩, named⟩, spent⟩
        · cases found
      · cases found
  · rintro ⟨⟨edge, ⟨listed, reached, rework⟩, named⟩, spent⟩
    have found : exhaustedLoop snapshot counters maxFixCycles edge.fromNode edge =
        some ⟨loop, edge.fromNode, Dict.get counters loop 0,
          loopCap snapshot.doc.budgets maxFixCycles loop⟩ := by
      simp only [exhaustedLoop, named, rework, ↓reduceIte]
      exact if_pos spent
    exact ⟨_, ⟨_, reached, edge, ⟨listed, rfl⟩, found⟩, rfl⟩

theorem globalBackstopExhausted_iff :
    globalBackstopExhausted snapshot.doc.budgets maxTotalFixIterations counters = true ↔
      globalCap snapshot.doc.budgets maxTotalFixIterations ≤
        ((resumedState start counters).fixIterations : Int) := by
  simp only [globalBackstopExhausted, ge_iff_le, decide_eq_true_eq]
  rfl

/-- An edge ahead is refused exactly when its loop is reported, its inline budget is spent or the
backstop is reported. -/
theorem refusedAt_iff {edge : Edge} (ahead : ChargedAhead snapshot start edge) :
    RefusedAt snapshot counters maxFixCycles maxTotalFixIterations start edge ↔
      (∃ loop, edge.loop = some loop ∧ ReportsLoop snapshot counters maxFixCycles start loop) ∨
      InlineSpent counters edge ∨
      globalBackstopExhausted snapshot.doc.budgets maxTotalFixIterations counters = true := by
  rw [RefusedAt, Ne, reworkRefusal_eq_none_iff, not_and_or, not_lt,
    ← globalBackstopExhausted_iff, ← or_assoc]
  refine or_congr_left ?_
  cases named : edge.loop with
  | some loop =>
      have reported : ReportsLoop snapshot counters maxFixCycles start loop ↔
          loopCap snapshot.doc.budgets maxFixCycles loop ≤ (Dict.get counters loop 0 : Nat) :=
        reportsLoop_iff.trans (and_iff_right ⟨edge, ahead, named⟩)
      rw [ownRefusal_eq_none_of_loop named, not_lt]
      simp only [InlineSpent, named, reduceCtorEq, false_and, or_false, Option.some.injEq,
        exists_eq_left', reported]
      rfl
  | none =>
      rw [ownRefusal_eq_none_iff]
      simp only [InlineSpent, named, reduceCtorEq, false_and, exists_false, false_or, true_and,
        false_implies, implies_true, true_implies, not_forall, not_lt, exists_prop]
      rfl

/-- A loop with an edge ahead, or the backstop, is reported exactly when the engine would refuse
every edge charged to that loop. -/
theorem reports_iff_refused {loop : String}
    (ahead : ∃ edge, ChargedAhead snapshot start edge ∧ edge.loop = some loop) :
    (ReportsLoop snapshot counters maxFixCycles start loop ∨
      globalBackstopExhausted snapshot.doc.budgets maxTotalFixIterations counters = true) ↔
    ∀ edge, ChargedAhead snapshot start edge → edge.loop = some loop →
      RefusedAt snapshot counters maxFixCycles maxTotalFixIterations start edge := by
  constructor
  · rintro reported edge charged named
    rw [refusedAt_iff charged]
    rcases reported with spent | backstop
    · exact .inl ⟨loop, named, spent⟩
    · exact .inr (.inr backstop)
  · intro refused
    obtain ⟨edge, charged, named⟩ := ahead
    rcases (refusedAt_iff charged).mp (refused edge charged named) with
      ⟨other, same, spent⟩ | inline | backstop
    · exact .inl (Option.some.inj (named.symm.trans same) ▸ spent)
    · rw [inline.1] at named
      cases named
    · exact .inr backstop

/-! ## A resumed run -/

/-- The edges taken are all forward ones. -/
def OnlyForward (events : List EngineStep) : Prop :=
  ∀ event ∈ events, ∀ edge, event.taken = some edge → edge.isRework = false

/-- Until its first rework or fail edge a run stays ahead of its start and raises no counter. -/
theorem FlowEngine.run_onlyForward (engine : FlowEngine) (answers : Nat → EngineAnswers)
    {resumed : EngineState} (current : resumed.runState.currentNode = some start) (turns : Nat)
    (running : (engine.run answers resumed turns).result = none)
    (forward : OnlyForward (engine.run answers resumed turns).events) :
    (∃ nodeId, (engine.run answers resumed turns).state.runState.currentNode = some nodeId ∧
      engine.snapshot.graph.Reaches start nodeId) ∧
    ∀ key, (engine.run answers resumed turns).state.runState.counter key ≤
      resumed.runState.counter key := by
  revert running forward
  refine engine.machine.trace_induction (fun trace => trace.result = none →
    OnlyForward trace.events → (∃ nodeId, trace.state.runState.currentNode = some nodeId ∧
      engine.snapshot.graph.Reaches start nodeId) ∧
      ∀ key, trace.state.runState.counter key ≤ resumed.runState.counter key)
    (fun _ _ => ⟨⟨start, current, .refl⟩, fun _ => le_rfl⟩) ?_ turns
  intro count before ih still _ running forward
  obtain ⟨⟨nodeId, here, reached⟩, bounded⟩ :=
    ih still fun event member => forward event (List.mem_append_left _ member)
  have counted := engine.turn_counter (answers count) before.state
  have last := forward _ (List.mem_append_right _ (List.mem_singleton_self _))
  change (engine.turn (answers count) before.state).result = none at running
  change ∀ edge, (engine.turn (answers count) before.state).event.taken = some edge → _ at last
  obtain ⟨edge, followed⟩ := turn_goesOn running
  have taken := turn_takes followed
  have plain := last edge followed
  refine ⟨⟨edge.toNode, taken.moved, reached.tail ?_⟩, fun key => ?_⟩
  · exact (engine.snapshot.graph_step_iff _ _).mpr
      ⟨edge, taken.outgoing, taken.current nodeId here, rfl⟩
  · change (engine.turn (answers count) before.state).next.runState.counter key ≤ _
    rw [counted key, followed]
    simp only [countersAfter, plain, Bool.false_eq_true, ↓reduceIte]
    split
    · exact Nat.zero_le _
    · exact bounded key

/-- When lower counters refuse an edge the higher ones they came from do. -/
theorem reworkRefusal_mono {lower higher : FlowRunState}
    (le : ∀ key, lower.counter key ≤ higher.counter key) {edge : Edge}
    (refused : reworkRefusal snapshot lower edge maxFixCycles maxTotalFixIterations ≠ none) :
    reworkRefusal snapshot higher edge maxFixCycles maxTotalFixIterations ≠ none := by
  contrapose! refused
  obtain ⟨own, total⟩ := (reworkRefusal_eq_none_iff ..).mp refused
  obtain ⟨loops, inlines⟩ := ownRefusal_eq_none_iff.mp own
  refine (reworkRefusal_eq_none_iff ..).mpr ⟨ownRefusal_eq_none_iff.mpr ⟨?_, ?_⟩, ?_⟩
  · intro loop named
    have under := le loop
    have room := loops loop named
    omega
  · intro budget unnamed inline
    have under := le (edgeKey edge)
    have room := inlines budget unnamed inline
    omega
  · have under := le FlowRunState.globalFixKey
    simp only [FlowRunState.fixIterations] at total ⊢
    omega

/-- When the check reports nothing, the first rework or fail edge a resumed run selects is refused
only for a spent inline budget. -/
theorem FlowEngine.resumed_refusal (engine : FlowEngine) (answers : Nat → EngineAnswers)
    {resumed : EngineState} (current : resumed.runState.currentNode = some start)
    (persisted : resumed.runState.loopCounters = counters)
    (clean : ReportsNothing engine.snapshot counters engine.agents.maxFixCycles
      engine.agents.maxTotalFixIterations start)
    {turns : Nat} (running : (engine.run answers resumed turns).result = none)
    (forward : OnlyForward (engine.run answers resumed turns).events)
    {node : FlowNode} {outcome : NodeOutcome} {ready : EngineState} {edge : Edge}
    (returns : engine.Returns (answers turns) (engine.run answers resumed turns).state node outcome
      ready)
    (selected : selectEdge node (engine.snapshot.adjacency node.id) outcome = .ok edge)
    (rework : edge.isRework = true) :
    engine.reworkRefusal ready.runState edge ≠ none → InlineSpent counters edge := by
  intro refused
  obtain ⟨⟨nodeId, here, reached⟩, bounded⟩ := engine.run_onlyForward answers current turns running
    forward
  obtain ⟨listed, source⟩ := listed_of_selectEdge selected
  have ahead : ChargedAhead engine.snapshot start edge :=
    ⟨listed, by rwa [source, returns.nodeId_eq here], rework⟩
  have persistedCounter : resumed.runState.counter = (resumedState start counters).counter := by
    funext key
    rw [FlowRunState.counter, persisted]
    rfl
  rw [returns.reworkRefusal_eq] at refused
  have earlier := reworkRefusal_mono
    (fun key => (bounded key).trans_eq (congrFun persistedCounter key)) refused
  rcases (refusedAt_iff ahead).mp earlier with ⟨loop, _, exhausted, member, _⟩ | inline | backstop
  · rw [clean.1] at member
    cases member
  · exact inline
  · rw [clean.2] at backstop
    cases backstop

/-! ## The check and the engine -/

/-- The check agrees with the engine up to inline budgets, on each edge ahead of the resumed node,
on each loop charged there and on the first rework or fail edge that a resumed run selects. -/
theorem resume_check_agrees (engine : FlowEngine) (counters : Dict Nat) (start : String) :
    let snapshot := engine.snapshot
    let maxFixCycles := engine.agents.maxFixCycles
    let maxTotalFixIterations := engine.agents.maxTotalFixIterations
    let backstop := globalBackstopExhausted snapshot.doc.budgets maxTotalFixIterations counters
    (∀ edge, ChargedAhead snapshot start edge →
      (RefusedAt snapshot counters maxFixCycles maxTotalFixIterations start edge ↔
        (∃ loop, edge.loop = some loop ∧ ReportsLoop snapshot counters maxFixCycles start loop) ∨
        InlineSpent counters edge ∨ backstop = true)) ∧
    (∀ loop, (∃ edge, ChargedAhead snapshot start edge ∧ edge.loop = some loop) →
      (ReportsLoop snapshot counters maxFixCycles start loop ∨ backstop = true ↔
        ∀ edge, ChargedAhead snapshot start edge → edge.loop = some loop →
          RefusedAt snapshot counters maxFixCycles maxTotalFixIterations start edge)) ∧
    (ReportsNothing snapshot counters maxFixCycles maxTotalFixIterations start →
      ∀ (answers : Nat → EngineAnswers) (resumed : EngineState),
        resumed.runState.currentNode = some start → resumed.runState.loopCounters = counters →
        ∀ turns, (engine.run answers resumed turns).result = none →
          OnlyForward (engine.run answers resumed turns).events →
          ∀ node outcome ready edge, engine.Returns (answers turns)
              (engine.run answers resumed turns).state node outcome ready →
            selectEdge node (snapshot.adjacency node.id) outcome = .ok edge →
            edge.isRework = true →
            engine.reworkRefusal ready.runState edge ≠ none → InlineSpent counters edge) :=
  ⟨fun _ ahead => refusedAt_iff ahead, fun _ ahead => reports_iff_refused ahead,
    fun clean answers _ current persisted _ running forward _ _ _ _ returns selected rework =>
      engine.resumed_refusal answers current persisted clean running forward returns selected
        rework⟩

/-- With three failed tests behind it the test loop of the repair flow is reported and refused. -/
theorem resume_check_agrees_repair :
    ReportsLoop repairFlow (Dict.ofList [("test_fix", 3)]) large "coding" "test_fix" ∧
    ∀ edge, ChargedAhead repairFlow "coding" edge → edge.loop = some "test_fix" →
      RefusedAt repairFlow (Dict.ofList [("test_fix", 3)]) large large "coding" edge := by
  have reported :
      ReportsLoop repairFlow (Dict.ofList [("test_fix", 3)]) large "coding" "test_fix" :=
    ⟨⟨"test_fix", "testing", 3, 3⟩, by decide, rfl⟩
  exact ⟨reported, ((resume_check_agrees (plainEngine repairFlow) (Dict.ofList [("test_fix", 3)])
    "coding").2.1 "test_fix" (reportsLoop_iff.mp reported).1).mp (.inl reported)⟩

/-- Failed tests charge an inline budget. -/
def inlineFlow : FlowSnapshot where
  doc := {
    permissionCeiling := .workspaceWrite
    outputPolicy := .codeChange
    nodes := [
      .agent { id := "planning", roleFile := "planning.md" },
      .agent { id := "coding", roleFile := "coding.md" },
      .checks { id := "testing" },
      .publish { id := "publish" }]
    edges := [
      { fromNode := "planning", toNode := "coding" },
      { fromNode := "coding", toNode := "testing" },
      { fromNode := "testing", toNode := "publish", outcome := some "pass" },
      { fromNode := "testing", toNode := "coding", outcome := some "fail", budget := some 1 }]
    budgets := ∅ }
  flowFingerprint := "inline"
  idsValid := by decide
  idsUnique := by decide

/-- A checkpoint after one failed test. -/
def inlineCounters : Dict Nat :=
  Dict.ofList [("testing->coding:fail", 1), ("global_fix_iterations", 1)]

/-- The check reports nothing, yet the run resumed at the test parks on its first fail edge. -/
theorem inlineFlow_parks : Accepted inlineFlow ∧
    ReportsNothing inlineFlow inlineCounters large large "testing" ∧
    ((plainEngine inlineFlow).run
      (fun _ => answersAt (.checks { id := "testing" }) fun _ _ => .ok { kind := "fail" })
      { runState := resumedState "testing" inlineCounters } 1).result =
        some (.returned {
          status := .manualActionRequired
          finalNode := "testing"
          limitName := some "budget:testing->coding"
          failureReportPath := some "" }) :=
  ⟨by decide, ⟨by decide, by decide⟩, by decide⟩

end Orchestrator.Flow
