import Orchestrator.Flow.EngineTurns
import Orchestrator.Foundation.Json
import Orchestrator.Routing.Providers

/-! # The evaluator runner

An evaluator asks for rework when one of its findings gates. A blocking one
leaves the number of rounds to the engine's budgets; a non-blocking one counts
its own recorded verdicts and also looks at what the engine would refuse.
-/

namespace Orchestrator.Flow

open Orchestrator.Foundation
open Orchestrator.Routing (ErrorClass)

/-! ## Findings -/

/-- What is read of a finding the provider returned. -/
structure RawFinding where
  severity : String := ""
  blocking : Bool := false

/-- The rank of a severity token, lower for more severe; an unknown one ranks below all. -/
def severityRank (token : String) : Nat :=
  severityOrder.findIdx fun severity => decide (severity.value = Text.lower token)

/-- A finding gates when it says so or is at least as severe as the gate. -/
def isBlocking (gateRank : Nat) (finding : RawFinding) : Bool :=
  finding.blocking || decide (severityRank finding.severity ≤ gateRank)

/-- Each finding's gate decision, in the findings' own order. -/
def gatingFlags (node : EvaluatorNode) : Option (List RawFinding) → List Bool
  | none => []
  | some findings => findings.map (isBlocking (severityRank node.gateSeverity.value))

theorem severityRank_value_lt (severity : Severity) :
    severityRank severity.value < severityOrder.length := by
  cases severity <;> decide

/-- A token outside the order never gates by itself. -/
theorem isBlocking_of_unknown (node : EvaluatorNode) {finding : RawFinding}
    (unknown : ∀ severity : Severity, severity.value ≠ Text.lower finding.severity) :
    isBlocking (severityRank node.gateSeverity.value) finding = finding.blocking := by
  have last : severityRank finding.severity = severityOrder.length :=
    List.findIdx_eq_length_of_false fun severity _ => decide_eq_false (unknown severity)
  have gate := severityRank_value_lt node.gateSeverity
  simp only [isBlocking, last, Nat.not_le.mpr gate, decide_false, Bool.or_false]

/-! ## Recorded verdicts -/

inductive EvaluationKind where
  | inFlowVerdict
  | supervisorStep
  | supervisorFinal
  | reworkBudgetReset
  deriving DecidableEq

/-- One append-only row of the task's `evaluations`. -/
structure EvaluationRow where
  id : Nat
  kind : EvaluationKind
  verdict : String
  nodeId : Option String := none
  sourceNodeRunId : Option Nat := none
  subtaskOrder : Option Nat := none

/-- The task's evaluations and the ids of its node runs. -/
structure EvaluationStore where
  evaluations : List EvaluationRow := []
  nodeRunIds : List Nat := []

namespace EvaluationStore

variable (store : EvaluationStore)

/-- The id of the latest budget reset, zero when there is none. -/
def latestReset : Nat :=
  ((store.evaluations.filter fun row => decide (row.kind = .reworkBudgetReset)).map
    EvaluationRow.id).foldr max 0

/-- A rework verdict whose node run still exists, after the latest reset. -/
def inForce (row : EvaluationRow) : Bool :=
  decide (row.kind = .inFlowVerdict) && decide (row.verdict = "rework") &&
    row.sourceNodeRunId.any (fun run => decide (run ∈ store.nodeRunIds)) &&
    decide (store.latestReset < row.id)

/-- `count_rework_verdicts`: the rounds charged to one node, in one subtask if there is one. -/
def countReworkVerdicts (nodeId : String) (subtaskOrder : Option Nat) : Nat :=
  store.evaluations.countP fun row =>
    store.inForce row && decide (row.nodeId = some nodeId) &&
      match subtaskOrder with
      | none => true
      | some order => decide (row.subtaskOrder = some order)

end EvaluationStore

/-! ## The verdict -/

/-- What became of the attempt: something around it raised, no provider could run it, or one did and
its output has findings or not. -/
inductive EvaluatorReply where
  | raised (message : String)
  | noProvider (errorClass : Option ErrorClass)
  | ran (findings : Option (List RawFinding))

/-- What an evaluator run reads of the outside. -/
structure EvaluatorInputs where
  reply : EvaluatorReply
  store : EvaluationStore := {}

/-- `_verdict` of a run with findings: the edge kind, and whether an advisory evaluator gave up. -/
def verdict (node : EvaluatorNode) (context : NodeContext) (store : EvaluationStore)
    (gating : List Bool) : String × Bool :=
  if !gating.any id then ("accept", false)
  else if node.blocking then ("rework", false)
  else
    let priorRework := store.countReworkVerdicts node.id context.subtaskOrder
    if (priorRework : Int) < node.maxReworkPerStage ∧ context.reworkRefusal = none then
      ("rework", false)
    else ("accept", true)

/-- With a gating finding and its own cap spent a non-blocking evaluator gives up. -/
theorem verdict_spent {node : EvaluatorNode} (context : NodeContext) {store : EvaluationStore}
    {gating : List Bool} (gates : gating.any id = true) (nonBlocking : node.blocking = false)
    (spent : node.maxReworkPerStage ≤ store.countReworkVerdicts node.id context.subtaskOrder) :
    verdict node context store gating = ("accept", true) := by
  simp only [verdict, gates, nonBlocking, Bool.not_true, Bool.false_eq_true, ↓reduceIte]
  exact if_neg fun room => absurd room.1 (not_lt.mpr spent)

/-- Which limit ended a non-blocking evaluator's rounds. -/
def exhaustedLimit (node : EvaluatorNode) (context : NodeContext) : String :=
  match context.reworkRefusal with
  | some refusal => refusal
  | none => s!"max_rework_per_stage ({node.maxReworkPerStage}) spent"

/-- Run an evaluator and map its verdict; without findings it fails closed. -/
def evaluate (node : EvaluatorNode) (context : NodeContext) (inputs : EvaluatorInputs) :
    Except String NodeOutcome :=
  match inputs.reply with
  | .raised message => .error message
  | .noProvider errorClass => .error (s!"evaluator node {Text.repr node.id}: " ++
      "no provider could run it (" ++
      (errorClass.map ErrorClass.value).getD "no_provider_available" ++ ")")
  | .ran none => .error (s!"evaluator node {Text.repr node.id}: verdict fail-closed — " ++
      "structured_output did not include a parseable 'findings' array (schema not honored)")
  | .ran (some findings) =>
      let (kind, reworkExhausted) :=
        verdict node context inputs.store (gatingFlags node (some findings))
      .ok {
        kind
        reworkExhausted
        reworkLimit := if reworkExhausted then some (exhaustedLimit node context) else none }

/-- An evaluator accepts or asks for rework, a non-blocking one only for a round within both its own
cap and the engine's budgets. It gives up by accepting. -/
theorem evaluate_ok {node : EvaluatorNode} {context : NodeContext} {inputs : EvaluatorInputs}
    {outcome : NodeOutcome} (returned : evaluate node context inputs = .ok outcome) :
    outcome.kind = "accept" ∨
      (outcome.kind = "rework" ∧ outcome.reworkExhausted = false ∧
        (node.blocking = false → context.reworkRefusal = none ∧
          (inputs.store.countReworkVerdicts node.id context.subtaskOrder : Int) <
            node.maxReworkPerStage)) := by
  simp only [evaluate] at returned
  split at returned
  · cases returned
  · cases returned
  · cases returned
  · rename_i findings replied
    cases returned
    simp only [verdict]
    split
    · exact .inl rfl
    · split
      · rename_i blocking
        exact .inr ⟨rfl, rfl, fun advisory => absurd blocking (by simp [advisory])⟩
      · split
        · rename_i room
          exact .inr ⟨rfl, rfl, fun _ => ⟨room.2, room.1⟩⟩
        · exact .inl rfl

end Orchestrator.Flow

/-! ## Findings of any output

An evaluator reads the findings of whatever its provider returns. Elements that are no objects are
left out, and a severity that the order does not know never gates, so a blocking evaluator accepts
exactly when no element gates.
-/

namespace Orchestrator.Flow

open Orchestrator.Foundation
open Orchestrator.Foundation.PyText (ofString ofChar asString)

/-! ## Reading an output -/

/-- A severity's text, ready to be lowered within ASCII: the Kelvin sign is lowered to a `k`. -/
def severityToken (text : PyText) : String :=
  asString (text.map fun point => if point.val = 0x212A then ofChar 'k' else point)

/-- `str(value)`. A list or an object is told by its bracket. -/
def textOfValue : Json → String
  | .null => "None"
  | .bool true => "True"
  | .bool false => "False"
  | .number literal => asString literal
  | .string text => severityToken text
  | .array _ => "["
  | .object _ => "\x7b"

/-- What is read of a finding: its severity, empty where it has none, and whether it says that it
blocks. -/
def rawFinding (finding : Json) : RawFinding where
  severity := textOfValue ((finding.get? "severity").getD (.string []))
  blocking := match finding.get? "blocking" with
    | some (.bool true) => true
    | _ => false

/-- The array of findings of an output. -/
def findingsArray (structured : Json) : Option (List Json) :=
  match structured.get? "findings" with
  | some (.array elements) => some elements
  | _ => none

def isObject : Json → Bool
  | .object _ => true
  | _ => false

/-- `_findings_or_none`: the objects among the findings. -/
def findingsOrNone (structured : Json) : Option (List RawFinding) :=
  (findingsArray structured).map fun elements => (elements.filter isObject).map rawFinding

/-! ## Gating -/

/-- An element gates when it is an object that says that it blocks, or whose severity is one of the
order, in any case, and at least as severe as the gate. -/
def Gates (node : EvaluatorNode) (element : Json) : Prop :=
  isObject element = true ∧ ((rawFinding element).blocking = true ∨
    ∃ severity : Severity, severity.value = Text.lower (rawFinding element).severity ∧
      severityRank severity.value ≤ severityRank node.gateSeverity.value)

/-- An element that ranks below the gate: an object that does not say that it blocks, with a
severity of the order that is less severe than the gate. -/
def RanksBelow (node : EvaluatorNode) (element : Json) : Prop :=
  isObject element = true ∧ (rawFinding element).blocking = false ∧
    ∃ severity : Severity, severity.value = Text.lower (rawFinding element).severity ∧
      severityRank node.gateSeverity.value < severityRank severity.value

theorem severityRank_of_known {severity : Severity} {token : String}
    (known : severity.value = Text.lower token) :
    severityRank token = severityRank severity.value := by
  have lowered : Text.lower severity.value = severity.value := by cases severity <;> decide
  rw [severityRank, severityRank, lowered, known]

/-- A finding gates when it says so or its severity is known and severe enough. -/
theorem isBlocking_iff (node : EvaluatorNode) (finding : RawFinding) :
    isBlocking (severityRank node.gateSeverity.value) finding = true ↔
      finding.blocking = true ∨
        ∃ severity : Severity, severity.value = Text.lower finding.severity ∧
          severityRank severity.value ≤ severityRank node.gateSeverity.value := by
  by_cases known : ∃ severity : Severity, severity.value = Text.lower finding.severity
  · obtain ⟨severity, same⟩ := known
    rw [isBlocking, Bool.or_eq_true, decide_eq_true_eq, severityRank_of_known same]
    apply or_congr_right
    constructor
    · exact fun enough => ⟨severity, same, enough⟩
    · rintro ⟨other, alike, enough⟩
      rwa [same, ← alike]
  · have unknown : ∀ severity : Severity, severity.value ≠ Text.lower finding.severity :=
      fun severity same => known ⟨severity, same⟩
    rw [isBlocking_of_unknown node unknown]
    exact (or_iff_left fun found => known ⟨found.choose, found.choose_spec.1⟩).symm

theorem any_gatingFlags_iff (node : EvaluatorNode) (elements : List Json) :
    (gatingFlags node (some ((elements.filter isObject).map rawFinding))).any id = true ↔
      ∃ element ∈ elements, Gates node element := by
  rw [gatingFlags, List.any_map, List.any_map, List.any_eq_true]
  constructor
  · rintro ⟨element, among, gates⟩
    obtain ⟨listed, object⟩ := List.mem_filter.mp among
    exact ⟨element, listed, object, (isBlocking_iff node _).mp gates⟩
  · rintro ⟨element, listed, object, gates⟩
    exact ⟨element, List.mem_filter.mpr ⟨listed, object⟩, (isBlocking_iff node _).mpr gates⟩

/-- A blocking evaluator accepts an output exactly when it has an array of findings and none of
its elements gates; without the array it fails. -/
theorem accepts_iff_none_gates (node : EvaluatorNode) (blocking : node.blocking = true)
    (context : NodeContext) (store : EvaluationStore) (structured : Json) :
    (∃ outcome, evaluate node context ⟨.ran (findingsOrNone structured), store⟩ = .ok outcome ∧
        outcome.kind = "accept") ↔
      ∃ elements, findingsArray structured = some elements ∧
        ∀ element ∈ elements, ¬ Gates node element := by
  rw [findingsOrNone]
  cases findingsArray structured with
  | none => exact iff_of_false nofun nofun
  | some elements =>
      have gates := any_gatingFlags_iff node elements
      simp only [Option.map_some, evaluate, verdict, blocking, if_true, Except.ok.injEq,
        exists_eq_left', Option.some.injEq]
      cases gating :
        (gatingFlags node (some ((elements.filter isObject).map rawFinding))).any id with
      | true =>
          obtain ⟨element, among, found⟩ := gates.mp gating
          exact iff_of_false (by decide) fun none => none element among found
      | false =>
          refine iff_of_true rfl fun element among found => ?_
          rw [gates.mpr ⟨element, among, found⟩] at gating
          cases gating

/-- A node that blocks on high findings. -/
def reviewNode : EvaluatorNode where
  id := "review"
  role := "review"
  roleFile := "review.md"

def reviewContext : NodeContext where
  runState := { flowFingerprint := "f1" }
  node := .evaluator reviewNode
  subtaskOrder := none
  reworkRefusal := none

/-- An output with a list of findings. -/
def outputOf (elements : List Json) : Json := .object [(ofString "findings", .array elements)]

/-- A finding of a severity. -/
def findingOf (severity : String) : Json :=
  .object [(ofString "severity", .string (ofString severity))]

theorem accepts_iff_none_gates_medium :
    (∃ outcome, evaluate reviewNode reviewContext
        ⟨.ran (findingsOrNone (outputOf [findingOf "medium"])), {}⟩ = .ok outcome ∧
        outcome.kind = "accept") ↔
      ∃ elements, findingsArray (outputOf [findingOf "medium"]) = some elements ∧
        ∀ element ∈ elements, ¬ Gates reviewNode element :=
  accepts_iff_none_gates reviewNode rfl reviewContext {} _

/-- A finding that is a text, one without a severity and one of an unknown severity are accepted. -/
theorem unranked_accepted :
    let elements := [.string (ofString "critical: data is lost"), .object [], findingOf "severe"]
    (∃ outcome, evaluate reviewNode reviewContext
        ⟨.ran (findingsOrNone (outputOf elements)), {}⟩ = .ok outcome ∧
        outcome.kind = "accept") ∧
      ∀ element ∈ elements, ¬ RanksBelow reviewNode element := by
  intro elements
  refine ⟨⟨{ kind := "accept" }, by decide +kernel, rfl⟩, ?_⟩
  have unknown (token : String) (other : ∀ severity ∈ severityOrder,
      severity.value ≠ Text.lower token) (severity : Severity) :
      severity.value ≠ Text.lower token := by
    apply other
    cases severity <;> decide
  intro element among below
  obtain ⟨object, -, severity, known, -⟩ := below
  rcases List.mem_cons.mp among with rfl | among
  · cases object
  · rcases List.mem_cons.mp among with rfl | among
    · exact unknown _ (by decide) severity known
    · rw [List.mem_singleton.mp among] at known
      exact unknown _ (by decide) severity known

end Orchestrator.Flow
