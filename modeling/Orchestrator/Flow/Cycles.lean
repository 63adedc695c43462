import Orchestrator.Flow.Termination

/-! # Charged cycles

The validator bounds each rework and fail edge but does not look for cycles of
other edges. A flow whose forward edges can be peeled away has none, and then no
run goes on for ever without a charge.
-/

namespace Orchestrator.Flow

open Orchestrator.Foundation
open Relation

/-- A directed path along edges of the flow. -/
inductive EdgePath (snapshot : FlowSnapshot) : String → List Edge → String → Prop
  | nil (nodeId : String) : EdgePath snapshot nodeId [] nodeId
  | cons {edge : Edge} {rest : List Edge} {last : String} (listed : edge ∈ snapshot.doc.edges)
      (path : EdgePath snapshot edge.toNode rest last) :
      EdgePath snapshot edge.fromNode (edge :: rest) last

/-- Every directed cycle has a rework or fail edge. -/
def EveryCycleCharged (snapshot : FlowSnapshot) : Prop :=
  ∀ nodeId path, path ≠ [] → EdgePath snapshot nodeId path nodeId →
    ∃ edge ∈ path, edge.isRework = true

/-- No run goes on for ever without taking a rework or fail edge. -/
def NoUnchargedRun (snapshot : FlowSnapshot) : Prop :=
  ∀ engine : FlowEngine, engine.snapshot = snapshot → ∀ answers start,
    ¬ ∀ turns, (engine.run answers start turns).result = none ∧
      ∀ event ∈ (engine.run answers start turns).events, ∀ edge,
        event.taken = some edge → edge.isRework = false

variable {snapshot : FlowSnapshot}

/-- Forward steps are paths without a charged edge. -/
theorem exists_path_of_transGen {first last : String}
    (steps : TransGen (ForwardStep snapshot) first last) :
    ∃ path, path ≠ [] ∧ EdgePath snapshot first path last ∧
      ∀ edge ∈ path, edge.isRework = false := by
  induction steps using TransGen.head_induction_on with
  | single step =>
      obtain ⟨edge, listed, forward, rfl, rfl⟩ := step
      refine ⟨[edge], List.cons_ne_nil _ _, .cons listed (.nil _), fun other member => ?_⟩
      exact List.mem_singleton.mp member ▸ forward
  | head step _ ih =>
      obtain ⟨edge, listed, forward, rfl, rfl⟩ := step
      obtain ⟨path, _, rest, plain⟩ := ih
      refine ⟨edge :: path, List.cons_ne_nil _ _, .cons listed rest, fun other member => ?_⟩
      rcases List.mem_cons.mp member with rfl | later
      · exact forward
      · exact plain other later

/-- A path without a charged edge goes by forward steps. -/
theorem reflTransGen_of_path {first last : String} {path : List Edge}
    (walk : EdgePath snapshot first path last) (plain : ∀ edge ∈ path, edge.isRework = false) :
    ReflTransGen (ForwardStep snapshot) first last := by
  induction walk with
  | nil nodeId => exact .refl
  | cons listed _ ih =>
      refine ReflTransGen.head ⟨_, listed, plain _ List.mem_cons_self, rfl, rfl⟩ ?_
      exact ih fun edge member => plain edge (List.mem_cons_of_mem _ member)

theorem everyCycleCharged_iff : EveryCycleCharged snapshot ↔ ForwardAcyclic snapshot := by
  constructor
  · intro charged nodeId cycle
    obtain ⟨path, nonempty, walk, plain⟩ := exists_path_of_transGen cycle
    obtain ⟨edge, member, rework⟩ := charged nodeId path nonempty walk
    rw [plain edge member] at rework
    cases rework
  · intro acyclic nodeId path nonempty walk
    by_contra uncharged
    have plain : ∀ edge ∈ path, edge.isRework = false := fun edge member =>
      Bool.eq_false_iff.mpr fun rework => uncharged ⟨edge, member, rework⟩
    cases walk with
    | nil => exact nonempty rfl
    | cons listed rest =>
        refine acyclic _ (TransGen.head' ⟨_, listed, plain _ List.mem_cons_self, rfl, rfl⟩ ?_)
        exact reflTransGen_of_path rest fun edge member =>
          plain edge (List.mem_cons_of_mem _ member)

/-- Without a charge each turn of a run lowers the rank of the current node. -/
theorem noUnchargedRun_of_acyclic (acyclic : ForwardAcyclic snapshot) :
    NoUnchargedRun snapshot := by
  rintro engine rfl answers start endless
  have descends : ∀ turns,
      turns + engine.stepsLeft (engine.run answers start turns).state.runState ≤
        engine.stepsLeft start.runState := by
    intro turns
    induction turns with
    | zero => rw [Nat.zero_add]; exact Nat.le_refl _
    | succ turns ih =>
        obtain ⟨running, plain⟩ := endless (turns + 1)
        have extended : engine.run answers start (turns + 1) = _ :=
          engine.machine.extend_of_running (endless turns).1
        rw [extended] at running plain ⊢
        obtain ⟨edge, same⟩ : ∃ edge, (engine.turn (answers turns)
            (engine.run answers start turns).state).event.taken = some edge :=
          FlowEngine.turn_goesOn running
        have forward := plain _ (List.mem_append_right _ List.mem_cons_self) edge same
        have lower : _ < engine.stepsLeft (engine.run answers start turns).state.runState :=
          FlowEngine.stepsLeft_lt_of_forward acyclic (FlowEngine.turn_takes same) forward
        change turns + 1 + engine.stepsLeft (engine.turn (answers turns)
          (engine.run answers start turns).state).next.runState ≤ _
        omega
  have late := descends (engine.stepsLeft start.runState + 1)
  omega

/-- In an accepted flow every cycle is charged, and no run goes on for ever without a charge,
exactly when peeling removes all nodes of its forward edges. -/
theorem cycles_charged_iff_forwardPeels (accepted : Accepted snapshot) :
    EveryCycleCharged snapshot ∧ NoUnchargedRun snapshot ↔ forwardPeels snapshot = true := by
  rw [accepted.forwardPeels_iff]
  constructor
  · exact fun sound => everyCycleCharged_iff.mp sound.1
  · exact fun acyclic => ⟨everyCycleCharged_iff.mpr acyclic, noUnchargedRun_of_acyclic acyclic⟩

theorem cycles_charged_repairFlow :
    EveryCycleCharged repairFlow ∧ NoUnchargedRun repairFlow :=
  (cycles_charged_iff_forwardPeels (show Accepted repairFlow by decide)).mpr (by decide)

/-! ## A cycle the validator accepts -/

/-- A check whose `pass` edge leads back: building and testing alternate as long as tests pass. -/
def spinningFlow : FlowSnapshot where
  doc := {
    permissionCeiling := .workspaceWrite
    outputPolicy := .codeChange
    nodes := [
      .agent { id := "start", roleFile := "start.md" },
      .agent { id := "build", roleFile := "build.md" },
      .checks { id := "testing" },
      .publish { id := "publish" }]
    edges := [
      { fromNode := "start", toNode := "build" },
      { fromNode := "build", toNode := "testing" },
      { fromNode := "testing", toNode := "build", outcome := some "pass" },
      { fromNode := "testing", toNode := "publish", outcome := some "fail", budget := some 1 }]
    budgets := ∅ }
  flowFingerprint := "spinning"
  idsValid := by decide
  idsUnique := by decide

def spinningEngine : FlowEngine :=
  { snapshot := spinningFlow, agents := { maxFixCycles := 3, maxTotalFixIterations := 4 } }

/-- The nodes at which the spinning run finds itself. -/
def Spinning (state : EngineState) : Prop :=
  state.runState.currentNode = none ∨ state.runState.currentNode = some "build" ∨
    state.runState.currentNode = some "testing"

theorem spinning_turn {state : EngineState} (spinning : Spinning state) :
    let turn := spinningEngine.turn passingAnswers state
    Spinning turn.next ∧ turn.result = none ∧
      ∃ edge, turn.event.taken = some edge ∧ edge.isRework = false := by
  obtain ⟨⟨flowFingerprint, currentNode, completedNodes, loopCounters⟩, stallFp, stallStreak,
    store⟩ := state
  simp only [Spinning] at spinning
  rcases spinning with rfl | rfl | rfl
  · exact ⟨.inr (.inl rfl), rfl, _, rfl, rfl⟩
  · exact ⟨.inr (.inr rfl), rfl, _, rfl, rfl⟩
  · exact ⟨.inr (.inl rfl), rfl, _, rfl, rfl⟩

theorem spinning_run (turns : Nat) :
    let trace := spinningEngine.run (fun _ => passingAnswers)
      { runState := { flowFingerprint := "spinning" } } turns
    Spinning trace.state ∧ trace.result = none ∧
      ∀ event ∈ trace.events, ∀ edge, event.taken = some edge → edge.isRework = false := by
  refine spinningEngine.machine.trace_induction (fun trace => Spinning trace.state ∧
    trace.result = none ∧ ∀ event ∈ trace.events, ∀ edge, event.taken = some edge →
      edge.isRework = false) ⟨.inl rfl, rfl, nofun⟩ ?_ turns
  intro count before ⟨spinning, _, plain⟩ _ _
  obtain ⟨next, running, edge, taken, forward⟩ := spinning_turn spinning
  refine ⟨next, running, fun event member other same => ?_⟩
  rcases List.mem_append.mp member with earlier | last
  · exact plain event earlier other same
  · rw [List.mem_singleton.mp last] at same
    exact Option.some.inj (taken.symm.trans same) ▸ forward

/-- The validator accepts the spinning flow, whose cycle of uncharged edges is run for ever. -/
theorem spinningFlow_uncharged : Accepted spinningFlow ∧
    ¬ EveryCycleCharged spinningFlow ∧ ¬ NoUnchargedRun spinningFlow := by
  have accepted : Accepted spinningFlow := by decide
  refine ⟨accepted, ?_, ?_⟩
  · rw [everyCycleCharged_iff, ← accepted.forwardPeels_iff]
    decide
  · intro none
    exact none spinningEngine rfl (fun _ => passingAnswers) _ fun turns => (spinning_run turns).2

end Orchestrator.Flow
