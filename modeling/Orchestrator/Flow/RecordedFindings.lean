import Orchestrator.Foundation.JsonLine

/-! # Recorded findings

The findings of a verdict as the row of the evaluation keeps them: each with its gate decision and
its remedy, as the text of one array.
-/

namespace Orchestrator.Flow

open Orchestrator.Foundation
open Orchestrator.Foundation.PyText (ofString)

/-- A typed finding of an evaluator, and whether it gates. -/
structure RecordedFinding where
  severity : String
  reason : PyText
  paths : List PyText := []
  gating : Bool
  fix : Option PyText := none

/-- The members of a finding. -/
def RecordedFinding.members (finding : RecordedFinding) : List (PyText × Json) :=
  [(ofString "severity", .string (ofString finding.severity)),
    (ofString "reason", .string finding.reason),
    (ofString "paths", .array (finding.paths.map .string)),
    (ofString "gating", .bool finding.gating),
    (ofString "fix", (finding.fix.map Json.string).getD .null)]

def RecordedFinding.document (finding : RecordedFinding) : Json := .object finding.members

/-- `_findings_json`. -/
def findingsJson (findings : List RecordedFinding) : PyText :=
  Json.line (.array (findings.map RecordedFinding.document))

theorem RecordedFinding.numeric_document (finding : RecordedFinding) :
    Json.numeric finding.document = true := by
  have paths : Json.numericItems (finding.paths.map .string) = true := by
    rw [Json.numericItems_eq_all, List.all_map, List.all_eq_true]
    exact fun _ _ => rfl
  have fix : Json.numeric ((finding.fix.map Json.string).getD .null) = true := by
    cases finding.fix with
    | none => rfl
    | some text => rfl
  simp only [document, members, Json.numeric, Json.numericMembers, paths, fix, Bool.and_self]

/-- What the row keeps is read back. -/
theorem loads_findingsJson (findings : List RecordedFinding) :
    Json.loads (findingsJson findings) =
      some (.array (findings.map RecordedFinding.document)) := by
  apply Json.loads_line
  rw [Json.numeric, Json.numericItems_eq_all, List.all_map, List.all_eq_true]
  exact fun finding _ => finding.numeric_document

/-- The kind of the verdicts that nodes of the flow give. -/
def inFlowVerdict : String := "in_flow_verdict"

/-- A row of `evaluations`. The findings of a verdict are those that the evaluator wrote. -/
structure RecordedEvaluation where
  kind : String
  verdict : String
  nodeId : Option String := none
  subtaskOrder : Option Nat := none
  sourceNodeRunId : Option Nat := none
  findingsJson : PyText
  written : kind = inFlowVerdict → ∃ findings, findingsJson = Flow.findingsJson findings

/-- `record_evaluation` of an evaluator's verdict. -/
def recordVerdict (verdict nodeId : String) (subtaskOrder : Option Nat) (runId : Nat)
    (findings : List RecordedFinding) : RecordedEvaluation where
  kind := inFlowVerdict
  verdict := verdict
  nodeId := nodeId
  subtaskOrder := subtaskOrder
  sourceNodeRunId := runId
  findingsJson := findingsJson findings
  written _ := ⟨findings, rfl⟩

end Orchestrator.Flow
