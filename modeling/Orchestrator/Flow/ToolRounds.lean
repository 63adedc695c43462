import Orchestrator.Flow.ToolNode
import Orchestrator.Foundation.Transitions

/-! # The rounds of a tool node

A tool node runs, the engine charges its fix edge or resets it, and the node runs again. Other nodes
may charge rounds in between, and a restart forgets the failures in a row but not the rounds. The
repeated failure that parks the node is counted, and its round is not yet charged: with a budget of
N the node is parked after N failures and N - 1 rounds.
-/

namespace Orchestrator.Flow

open Orchestrator.Foundation
open Orchestrator.Foundation.PyText (ofString asString)
open Orchestrator.Providers (Rendering)

/-! ## The loop -/

section Loop

variable {digest : Type} [DecidableEq digest] (sha256 : PyText → digest) (render : Rendering)
  (engine : FlowEngine) (node : ToolNode)

/-- What a process remembers of the node, and the engine. -/
structure ToolLoop (digest : Type) where
  memory : Option (IdenticalFailures digest)
  state : EngineState

inductive ToolEvent where
  | ran (answers : EngineAnswers) (process : ToolProcess)
  | chargedElsewhere (edge : Edge)
  | restarted

/-- One event; there is none after the node or the engine has parked the task. -/
def toolStep : ToolEvent → ToolLoop digest → Option (ToolLoop digest)
  | .ran answers process, loop =>
      match settleTool sha256 render engine.snapshot node.id loop.memory process with
      | .error _ => none
      | .ok (contract, memory) =>
          let move := engine.advance answers loop.state (.tool node)
            { kind := asString contract.outcome }
          match move.ended with
          | some _ => none
          | none => some ⟨memory, move.state⟩
  | .chargedElsewhere edge, loop =>
      some { loop with
        state := loop.state.mapRunState fun runState =>
          FlowEngine.chargeOwn (recordRework runState) edge }
  | .restarted, loop => some { loop with memory := none }

end Loop

/-- The counter of the budget of an edge. -/
def budgetKey (edge : Edge) : String := edge.loop.getD (edgeKey edge)

/-- The fix edge of a tool node, with the budget that it declares. -/
structure FailBudget (snapshot : FlowSnapshot) where
  node : ToolNode
  edge : Edge
  budget : Int
  selected : selectEdge (.tool node) (snapshot.adjacency node.id) { kind := "fail" } = .ok edge
  fails : edge.outcome = some "fail"
  declared : declaredBudget snapshot edge = some budget

namespace FailBudget

variable {snapshot : FlowSnapshot} (failing : FailBudget snapshot)

theorem isRework : failing.edge.isRework = true :=
  failing.edge.isRework_iff.mpr (.inr failing.fails)

theorem outgoing : failing.edge ∈ snapshot.adjacency failing.node.id :=
  mem_of_selectEdge failing.selected

/-- A charge of the fix edge raises its counter. -/
theorem charged : 1 ≤ (chargedKeys failing.edge).count (budgetKey failing.edge) := by
  have declared := failing.declared
  apply List.one_le_count_iff.mpr
  rw [chargedKeys, budgetKey]
  rw [declaredBudget] at declared
  cases named : failing.edge.loop with
  | some loop => exact List.mem_cons_of_mem _ List.mem_cons_self
  | none =>
      rw [named] at declared
      dsimp only at declared ⊢
      rw [declared]
      exact List.mem_cons_of_mem _ List.mem_cons_self

end FailBudget

/-! ## One event -/

section Charged

variable {engine : FlowEngine} {node : FlowNode} {answers : EngineAnswers} {state : EngineState}

/-- The engine goes on over a fix edge after charging it. -/
theorem advance_charged {outcome : NodeOutcome} {edge : Edge}
    (selected : selectEdge node (engine.snapshot.adjacency node.id) outcome = .ok edge)
    (rework : edge.isRework = true)
    (goesOn : (engine.advance answers state node outcome).ended = none) (key : String) :
    (engine.advance answers state node outcome).state.runState.counter key =
      state.runState.counter key + (chargedKeys edge).count key := by
  rw [FlowEngine.advance] at goesOn ⊢
  split at goesOn
  · cases goesOn
  · rw [selected] at goesOn ⊢
    dsimp only at goesOn ⊢
    rw [FlowEngine.traverse, if_pos rework] at goesOn ⊢
    split at goesOn
    · cases goesOn
    · next next admitted =>
      obtain ⟨-, kept, -⟩ := engine.admitRework_admitted admitted
      rw [← charge_counter, ← kept]
      rfl

end Charged

section Rounds

variable {digest : Type} [DecidableEq digest] {sha256 : PyText → digest} {render : Rendering}
  {engine : FlowEngine} {start last : ToolLoop digest}
  {transitions : List (Transition (ToolLoop digest) ToolEvent)}

/-- The rounds charged to the fix edge. -/
def rounds (failing : FailBudget engine.snapshot) (loop : ToolLoop digest) : Nat :=
  loop.state.runState.counter (budgetKey failing.edge)

/-- Every failure in a row has been charged a round. -/
def FailuresCharged (failing : FailBudget engine.snapshot) (loop : ToolLoop digest) : Prop :=
  failuresInRow loop.memory ≤ rounds failing loop

theorem FailuresCharged.step {failing : FailBudget engine.snapshot} {event : ToolEvent}
    {before after : ToolLoop digest} (charged : FailuresCharged failing before)
    (moved : toolStep sha256 render engine failing.node event before = some after) :
    FailuresCharged failing after := by
  cases event with
  | ran answers process =>
      rw [toolStep] at moved
      split at moved
      · cases moved
      · next contract memory settled =>
        dsimp only at moved
        split at moved
        · cases moved
        · next goesOn =>
          cases moved
          rcases settleTool_eq_ok settled with rfl | ⟨failed, oneMore⟩
          · exact Nat.zero_le _
          · have kind : asString contract.outcome = "fail" := by rw [failed]; rfl
            have selected := failing.selected
            rw [kind] at goesOn ⊢
            have counter := advance_charged selected failing.isRework goesOn
              (budgetKey failing.edge)
            have raised := failing.charged
            rw [FailuresCharged, rounds] at charged ⊢
            dsimp only
            rw [counter]
            omega
  | chargedElsewhere edge =>
      cases moved
      rw [FailuresCharged, rounds] at charged ⊢
      rw [EngineState.mapRunState_runState, charge_counter]
      exact charged.trans (Nat.le_add_right _ _)
  | restarted =>
      cases moved
      exact Nat.zero_le _

/-- A process that starts remembers no failure. -/
theorem failuresCharged_run {failing : FailBudget engine.snapshot} (fresh : start.memory = none)
    (run : Run (toolStep sha256 render engine failing.node) start transitions last) :
    FailuresCharged failing last := by
  have initial : FailuresCharged failing start := by
    rw [FailuresCharged, fresh]
    exact Nat.zero_le _
  have keeps : ∀ transition : Transition (ToolLoop digest) ToolEvent,
      toolStep sha256 render engine failing.node transition.event transition.before =
          some transition.after → True → FailuresCharged failing transition.before →
        FailuresCharged failing transition.after := fun _ moved _ charged => charged.step moved
  exact (run.invariant initial keeps fun _ _ => trivial).2

/-- The detector parks the node on a failure with data: what is charged by then, against a number
of rounds. -/
def ParksAfter (sha256 : PyText → digest) (render : Rendering)
    (failing : FailBudget engine.snapshot)
    (least : Int) : Prop :=
  ∀ {start last : ToolLoop digest} {transitions : List (Transition (ToolLoop digest) ToolEvent)},
    start.memory = none →
      Run (toolStep sha256 render engine failing.node) start transitions last →
        ∀ (process : ToolProcess) (contract : ToolContract) (repeats : Nat),
          parseToolOutput render process.exitCode process.stdout = some contract →
            (contract.data.getD []).isEmpty = false →
              settleTool sha256 render engine.snapshot failing.node.id last.memory process =
                .error (.stalled repeats) →
                  least ≤ rounds failing last

end Rounds

/-! ## A budget of two -/

/-- A form is checked by a tool, and drafted again when it fails. -/
def formFlow : FlowSnapshot where
  doc := {
    permissionCeiling := .workspaceWrite
    outputPolicy := .codeChange
    nodes := [
      .agent { id := "draft", roleFile := "draft.md" },
      .tool { id := "form" },
      .publish { id := "publish" }]
    edges := [
      { fromNode := "draft", toNode := "form" },
      { fromNode := "form", toNode := "publish", outcome := some "pass" },
      { fromNode := "form", toNode := "draft", outcome := some "fail", budget := some 2 }]
    budgets := ∅ }
  flowFingerprint := "form"
  idsValid := by decide
  idsUnique := by decide

def formEngine : FlowEngine :=
  { snapshot := formFlow, agents := { maxFixCycles := 3, maxTotalFixIterations := 4 } }

def formBudget : FailBudget formEngine.snapshot where
  node := { id := "form" }
  edge := { fromNode := "form", toNode := "draft", outcome := some "fail", budget := some 2 }
  budget := 2
  selected := rfl
  fails := rfl
  declared := rfl

/-- A failure with data and without findings. -/
def formFailure : ToolProcess where
  exitCode := some 1
  stdout := ofString "\x7b\"outcome\":\"fail\",\"data\":\x7b\"n\":1\x7d\x7d"

def plainRendering : Rendering := ⟨fun _ => [], fun _ => false⟩

def quietAnswers : EngineAnswers where
  isCancelled := false
  facts _ := true
  run _ _ := .error ""

def formStart : ToolLoop PyText := ⟨none, { runState := { flowFingerprint := "form" } }⟩

theorem formFailure_goesOn : (toolStep id plainRendering formEngine formBudget.node
    (.ran quietAnswers formFailure) formStart).isSome = true := by
  decide +kernel

/-- The loop after the first failure. -/
def formFailedOnce : ToolLoop PyText := Option.get _ formFailure_goesOn

/-- The stop of a run, if it is one. -/
def stopOf {α : Type} : Except ToolStop α → Option ToolStop
  | .error stop => some stop
  | .ok _ => none

theorem eq_error_of_stopOf {α : Type} {result : Except ToolStop α} {stop : ToolStop}
    (stopped : stopOf result = some stop) : result = .error stop := by
  cases result with
  | error other => exact congrArg Except.error (Option.some.inj stopped)
  | ok value => cases stopped

def contractOf (process : ToolProcess) : Option ToolContract :=
  parseToolOutput plainRendering process.exitCode process.stdout

end Orchestrator.Flow
