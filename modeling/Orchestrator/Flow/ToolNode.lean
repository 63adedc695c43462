import Orchestrator.Flow.Evaluator
import Orchestrator.Providers.ClaudeStream

/-! # Tool nodes

What an operator's program reports by its exit code and its standard output, and what becomes of the
node. The same failure over and over ends the loop: after two strikes where it carries no data, and
else after as many as the largest budget that a fix edge of the node declares.
-/

namespace Orchestrator.Flow

open Orchestrator.Foundation
open Orchestrator.Foundation.PyText (ofString strip lower startsWith)
open Orchestrator.Providers (Rendering)

/-! ## The contract -/

structure ToolFinding where
  severity : Severity
  reason : PyText
  paths : List PyText

/-- The parsed result of a run: the outcome, and what is recorded beside it. -/
structure ToolContract where
  outcome : PyText
  findings : List ToolFinding := []
  data : Option (List (PyText × Json)) := none

/-- `_parse_json_object`. -/
def parseJsonObject (stdout : PyText) : Option Json :=
  if strip stdout = [] then none
  else
    match Json.loads (strip stdout) with
    | some (.object members) => some (.object members)
    | _ => none

def highSeverities : List PyText := ["error", "critical", "blocking", "high"].map ofString

def mediumSeverities : List PyText := ["warning", "medium", "moderate"].map ofString

section Findings

variable (render : Rendering)

/-- The first of the keys with a true value, as a text. -/
def firstTrue (raw : Json) : List String → PyText
  | [] => []
  | key :: keys =>
      if render.truth (raw.get? key) then render.text (raw.get? key) else firstTrue raw keys

/-- `_to_tool_finding`. -/
def toToolFinding (raw : Json) : ToolFinding where
  severity :=
    let token := lower (render.text (some ((raw.get? "severity").getD (.string []))))
    if token ∈ highSeverities then .high
    else if token ∈ mediumSeverities then .medium
    else .low
  reason := firstTrue render raw ["reason", "what", "message"]
  paths :=
    match raw.get? "paths" with
    | some (.array paths) => paths.map fun path => render.text (some path)
    | _ => if render.truth (raw.get? "path") then [render.text (raw.get? "path")] else []

/-- `_findings_from`: the objects in the array of findings. -/
def findingsFrom (parsed : Option Json) : List ToolFinding :=
  match parsed.bind (Json.get? "findings") with
  | some (.array items) => (items.filter isObject).map (toToolFinding render)
  | _ => []

end Findings

/-- `_data_from`. -/
def dataFrom (parsed : Option Json) : Option (List (PyText × Json)) :=
  match parsed.bind (Json.get? "data") with
  | some (.object members) => some members
  | _ => none

/-- `_validated_outcome`. -/
def validatedOutcome : Json → Option PyText
  | .string raw =>
      if raw = ofString "pass" ∨ raw = ofString "fail" ∨
          (startsWith raw (ofString "route:") = true ∧ (ofString "route:").length < raw.length) then
        some raw
      else none
  | _ => none

/-- `parse_tool_output`, nothing where the outcome is invalid. -/
def parseToolOutput (render : Rendering) (exitCode : Option Int) (stdout : PyText) :
    Option ToolContract :=
  let parsed := parseJsonObject stdout
  let outcome :=
    match parsed.bind (Json.get? "outcome") with
    | some raw => validatedOutcome raw
    | none => some (ofString (if exitCode = some 0 then "pass" else "fail"))
  outcome.map fun outcome => ⟨outcome, findingsFrom render parsed, dataFrom parsed⟩

/-! ## Repeated failures -/

/-- The budget of a rework or fail edge: that of its loop, or its own. -/
def declaredBudget (snapshot : FlowSnapshot) (edge : Edge) : Option Int :=
  match edge.loop with
  | some loop => snapshot.doc.budgets.lookup loop
  | none => edge.budget

/-- `declared_loop_budget`: the largest budget of a rework or fail edge that leaves the node. -/
def declaredLoopBudget (snapshot : FlowSnapshot) (nodeId : String) : Option Int :=
  (((snapshot.adjacency nodeId).filter Edge.isRework).filterMap (declaredBudget snapshot)).max?

/-- How many times in a row a tool node returned one failure. -/
structure IdenticalFailures (digest : Type) where
  fingerprint : digest
  count : Nat

/-- `_UNSTRUCTURED_REPEAT_LIMIT`. -/
def unstructuredRepeatLimit : Int := 2

/-- The number of identical failures in a row that stops the loop. -/
def repeatLimit (snapshot : FlowSnapshot) (nodeId : String) (contract : ToolContract) : Int :=
  if (contract.data.getD []).isEmpty then unstructuredRepeatLimit
  else
    match declaredLoopBudget snapshot nodeId with
    | some declared => max declared unstructuredRepeatLimit
    | none => unstructuredRepeatLimit

/-- `str(exit_code)`. -/
def exitText : Option Int → PyText
  | none => ofString "None"
  | some code => ofString (toString code)

section Detector

variable {digest : Type} [DecidableEq digest] (sha256 : PyText → digest)

/-- The fingerprint of a failure. -/
def failureFingerprint (exitCode : Option Int) (stdout : PyText) : digest :=
  sha256 (exitText exitCode ++ 0 :: stdout)

/-- The failures in a row, the one at hand included. -/
def nextFailures (memory : Option (IdenticalFailures digest)) (fingerprint : digest) :
    IdenticalFailures digest :=
  match memory with
  | some previous =>
      if previous.fingerprint = fingerprint then ⟨fingerprint, previous.count + 1⟩
      else ⟨fingerprint, 1⟩
  | none => ⟨fingerprint, 1⟩

/-- `_repeated_unfixable_failure`: the repeats that stop the loop, if they do, and what is
remembered of the node. -/
def repeatedUnfixableFailure (snapshot : FlowSnapshot) (nodeId : String)
    (memory : Option (IdenticalFailures digest)) (contract : ToolContract)
    (exitCode : Option Int) (stdout : PyText) :
    Option Nat × Option (IdenticalFailures digest) :=
  if contract.outcome ≠ ofString "fail" ∨ ¬ contract.findings.isEmpty then (none, none)
  else
    let failures := nextFailures memory (failureFingerprint sha256 exitCode stdout)
    (if (failures.count : Int) ≥ repeatLimit snapshot nodeId contract then some failures.count
      else none, some failures)

/-! ## One run -/

/-- What is left of a child process: its exit code and its redacted streams. -/
structure ToolProcess where
  launchError : Option PyText := none
  timedOut : Bool := false
  exitCode : Option Int
  stdout : PyText
  stderr : PyText := []

/-- Why a tool node parks its task. -/
inductive ToolStop where
  | timedOut
  | launchError
  | crashed
  | invalidOutput
  | stalled (repeats : Nat)
  deriving DecidableEq

/-- What the node makes of a process: the contract and what is remembered of the node, or a stop. -/
def settleTool (render : Rendering) (snapshot : FlowSnapshot) (nodeId : String)
    (memory : Option (IdenticalFailures digest)) (process : ToolProcess) :
    Except ToolStop (ToolContract × Option (IdenticalFailures digest)) :=
  if process.timedOut then .error .timedOut
  else if process.launchError.isSome then .error .launchError
  else if process.exitCode ∉ [none, some 0] ∧ strip process.stdout = [] ∧
      strip process.stderr ≠ [] then
    .error .crashed
  else
    match parseToolOutput render process.exitCode process.stdout with
    | none => .error .invalidOutput
    | some contract =>
        match repeatedUnfixableFailure sha256 snapshot nodeId memory contract process.exitCode
            process.stdout with
        | (some repeats, _) => .error (.stalled repeats)
        | (none, failures) => .ok (contract, failures)

end Detector

/-! ## What the detector counts -/

/-- The budget of a fix edge is not above the largest one. -/
theorem le_declaredLoopBudget {snapshot : FlowSnapshot} {nodeId : String} {edge : Edge}
    (outgoing : edge ∈ snapshot.adjacency nodeId) (rework : edge.isRework = true) {budget : Int}
    (declared : declaredBudget snapshot edge = some budget) :
    ∃ largest, declaredLoopBudget snapshot nodeId = some largest ∧ budget ≤ largest := by
  have among : budget ∈
      ((snapshot.adjacency nodeId).filter Edge.isRework).filterMap (declaredBudget snapshot) :=
    List.mem_filterMap.mpr ⟨edge, List.mem_filter.mpr ⟨outgoing, rework⟩, declared⟩
  obtain ⟨largest, is⟩ := Option.isSome_iff_exists.mp (List.isSome_max?_of_mem among)
  exact ⟨largest, is, (List.max?_eq_some_iff.mp is).2 budget among⟩

/-- A failure with data is bounded by no less than the budget of a fix edge. -/
theorem le_repeatLimit {snapshot : FlowSnapshot} {nodeId : String} {edge : Edge}
    (outgoing : edge ∈ snapshot.adjacency nodeId) (rework : edge.isRework = true) {budget : Int}
    (declared : declaredBudget snapshot edge = some budget) {contract : ToolContract}
    (reported : (contract.data.getD []).isEmpty = false) :
    budget ≤ repeatLimit snapshot nodeId contract := by
  obtain ⟨largest, is, bound⟩ := le_declaredLoopBudget outgoing rework declared
  rw [repeatLimit, reported, if_neg Bool.false_ne_true, is]
  exact bound.trans (le_max_left _ _)

section Settled

variable {digest : Type} [DecidableEq digest] {sha256 : PyText → digest} {render : Rendering}
  {snapshot : FlowSnapshot} {nodeId : String} {memory : Option (IdenticalFailures digest)}
  {process : ToolProcess}

/-- The failures that are remembered of a node. -/
def failuresInRow (memory : Option (IdenticalFailures digest)) : Nat :=
  (memory.map IdenticalFailures.count).getD 0

theorem count_nextFailures_le (fingerprint : digest) :
    (nextFailures memory fingerprint).count ≤ failuresInRow memory + 1 := by
  cases memory with
  | none => exact Nat.le_refl _
  | some previous =>
      rw [nextFailures]
      split
      · exact Nat.le_refl _
      · exact Nat.le_add_left 1 _

/-- A run that goes on has remembered nothing, or failed once more. -/
theorem settleTool_eq_ok {contract : ToolContract} {after : Option (IdenticalFailures digest)}
    (settled : settleTool sha256 render snapshot nodeId memory process = .ok (contract, after)) :
    after = none ∨
      contract.outcome = ofString "fail" ∧ failuresInRow after ≤ failuresInRow memory + 1 := by
  rw [settleTool] at settled
  split at settled
  · cases settled
  split at settled
  · cases settled
  split at settled
  · cases settled
  split at settled
  · cases settled
  · next contract' parsed =>
    rw [repeatedUnfixableFailure] at settled
    split at settled
    · next repeats memory' stopped => cases settled
    · next failures goesOn =>
      cases settled
      split at goesOn
      · exact .inl (Prod.mk.inj goesOn).2.symm
      · next failed =>
        rw [not_or, not_not] at failed
        refine .inr ⟨failed.1, ?_⟩
        rw [← (Prod.mk.inj goesOn).2]
        exact count_nextFailures_le _

/-- A stalled run is one failure too many. -/
theorem settleTool_eq_stalled {repeats : Nat}
    (stalled : settleTool sha256 render snapshot nodeId memory process =
      .error (.stalled repeats)) :
    ∃ contract, parseToolOutput render process.exitCode process.stdout = some contract ∧
      repeatLimit snapshot nodeId contract ≤ repeats ∧ repeats ≤ failuresInRow memory + 1 := by
  rw [settleTool] at stalled
  split at stalled
  · cases stalled
  split at stalled
  · cases stalled
  split at stalled
  · cases stalled
  split at stalled
  · cases stalled
  · next contract parsed =>
    refine ⟨contract, parsed, ?_⟩
    rw [repeatedUnfixableFailure] at stalled
    split at stalled
    · next repeats' memory' stopped =>
      cases stalled
      split at stopped
      · cases (Prod.mk.inj stopped).1
      · obtain ⟨counted, -⟩ := Prod.mk.inj stopped
        split at counted
        · next enough =>
          cases counted
          exact ⟨enough, count_nextFailures_le _⟩
        · cases counted
    · cases stalled

end Settled

end Orchestrator.Flow
