import Orchestrator.Flow.Engine

/-! # The ledger of terminal transitions

The append-only list of records, one for each transition of a task into a terminal status, with
the reads that the gates decide by.
-/

namespace Orchestrator.Flow

def Status.value : Status → String
  | .new => "new"
  | .validated => "validated"
  | .preparing => "preparing"
  | .running => "running"
  | .done => "done"
  | .failed => "failed"
  | .manualActionRequired => "manual_action_required"
  | .pending => "pending"

/-- The statuses that own the processing slot. -/
def Status.isActive (status : Status) : Bool :=
  status = .validated || status = .preparing || status = .running

/-- The statuses that end a task. -/
def Status.isTerminal (status : Status) : Bool :=
  status = .done || status = .failed || status = .manualActionRequired

end Orchestrator.Flow

namespace Orchestrator.Store

/-- A record of `completed.jsonl`. -/
structure LedgerRecord where
  id : String
  title : String
  finalStatus : String
  finishedAt : String
  branch : Option String := none
  prUrl : Option String := none
  autoMerged : Bool := false
  mergeOutcome : Option String := none
  fixIterations : Nat := 0
  terminalCleanup : Option String := none
  failureReport : Option String := none
  validationReason : Option String := none
  decomposed : Bool := false
  subtaskCount : Option Nat := none
  subtasksCompleted : Option Nat := none
  attempt : Nat := 1
  rerunOf : Option String := none
  manual : Bool := false
  note : Option String := none
  outcome : Option String := none
  governanceChanged : List String := []
  advancedMode : Bool := false
  recoveredFromStuck : Bool := false
  recoveredLoop : Option String := none
  stopNode : Option String := none
  stuckLoop : Option String := none
  stuckLimit : Option String := none

/-- A record of a gate refusal: its validation reason is a text that is not empty. -/
def LedgerRecord.isReject (record : LedgerRecord) : Bool :=
  record.validationReason.any fun reason => reason ≠ ""

/-- The record that a reject appends, at an instant. -/
def rejectRecord (now : String) (advancedMode : Bool) (taskId reason : String) : LedgerRecord where
  id := taskId
  title := taskId
  finalStatus := Flow.Status.failed.value
  finishedAt := now
  validationReason := some reason
  advancedMode := advancedMode

/-- The records of the ledger, in the order of their appends. -/
abbrev Ledger := List LedgerRecord

namespace Ledger

def hasTaskId (ledger : Ledger) (taskId : String) : Bool :=
  ledger.any fun record => record.id = taskId

theorem hasTaskId_iff {ledger : Ledger} {taskId : String} :
    ledger.hasTaskId taskId = true ↔ ∃ record ∈ ledger, record.id = taskId := by
  simp only [hasTaskId, List.any_eq_true, decide_eq_true_eq]

end Ledger

end Orchestrator.Store
