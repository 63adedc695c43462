import Orchestrator.Foundation.JsonSorted
import Orchestrator.Foundation.Lines
import Orchestrator.Store.Ledger

/-! # Files of one record a line

The completed-task ledger and the files of the memory store hold a JSON document on each line. A
record is written with its texts as they are, and the readers split what they read at every end
of a line that Python knows.
-/

namespace Orchestrator.Store

open Orchestrator.Foundation PyText

/-- The bytes of a file, or that there is none. -/
abbrev RecordFile := Option (List UInt8)

/-! ## Writing and reading -/

/-- A record with its line feed. -/
def recordLine (document : Json) : PyText := document.line ++ [10]

/-- A write at the end of a file, which a text without an encoding fails. -/
def RecordFile.write (file : RecordFile) (text : PyText) : Option RecordFile :=
  (encodeUtf8 text).map fun bytes => some (file.getD [] ++ bytes)

/-- `read_text().splitlines()`: no lines where there is no file. -/
def RecordFile.lines : RecordFile → Option (List PyText)
  | none => some []
  | some bytes => (decodeUtf8 bytes).map fun text => splitLines (universalNewlines text)

/-- `append_jsonl`. -/
def appendJsonl (file : RecordFile) (row : Json) : Option RecordFile :=
  file.write (recordLine row.sortKeys)

/-- `atomic_write_jsonl`. -/
def atomicWriteJsonl (rows : List Json) : Option RecordFile :=
  RecordFile.write none (rows.flatMap fun row => recordLine row.sortKeys)

/-- `read_jsonl`: each line stripped, the blank ones skipped. -/
def readJsonl (file : RecordFile) : Option (List Json) := do
  ((← file.lines).map strip |>.filter (· ≠ [])).mapM Json.loads

/-! ## The ledger -/

/-- A text, or `null`. -/
def optionalText (value : Option String) : Json :=
  value.elim .null fun text => .string (ofString text)

/-- A number, or `null`. -/
def optionalNumber (value : Option Nat) : Json :=
  value.elim .null fun number => .number (Json.naturalLiteral number)

/-- `to_json`. -/
def LedgerRecord.toJson (record : LedgerRecord) : Json :=
  .object [
    (ofString "id", .string (ofString record.id)),
    (ofString "title", .string (ofString record.title)),
    (ofString "branch", optionalText record.branch),
    (ofString "pr_url", optionalText record.prUrl),
    (ofString "final_status", .string (ofString record.finalStatus)),
    (ofString "auto_merged", .bool record.autoMerged),
    (ofString "merge_outcome", optionalText record.mergeOutcome),
    (ofString "fix_iterations", .number (Json.naturalLiteral record.fixIterations)),
    (ofString "terminal_cleanup", optionalText record.terminalCleanup),
    (ofString "finished_at", .string (ofString record.finishedAt)),
    (ofString "failure_report", optionalText record.failureReport),
    (ofString "validation_reason", optionalText record.validationReason),
    (ofString "decomposed", .bool record.decomposed),
    (ofString "subtask_count", optionalNumber record.subtaskCount),
    (ofString "subtasks_completed", optionalNumber record.subtasksCompleted),
    (ofString "attempt", .number (Json.naturalLiteral record.attempt)),
    (ofString "rerun_of", optionalText record.rerunOf),
    (ofString "manual", .bool record.manual),
    (ofString "note", optionalText record.note),
    (ofString "outcome", optionalText record.outcome),
    (ofString "governance_changed", .array
      (record.governanceChanged.map fun path => .string (ofString path))),
    (ofString "advanced_mode", .bool record.advancedMode),
    (ofString "recovered_from_stuck", .bool record.recoveredFromStuck),
    (ofString "recovered_loop", optionalText record.recoveredLoop),
    (ofString "stop_node", optionalText record.stopNode),
    (ofString "stuck_loop", optionalText record.stuckLoop),
    (ofString "stuck_limit", optionalText record.stuckLimit)]

namespace LedgerFile

/-- `append`. -/
def append (file : RecordFile) (record : LedgerRecord) : Option RecordFile :=
  file.write (recordLine record.toJson)

/-- `records`: the blank lines skipped. -/
def records (file : RecordFile) : Option (List Json) := do
  ((← file.lines).filter (strip · ≠ [])).mapM Json.loads

end LedgerFile

end Orchestrator.Store
