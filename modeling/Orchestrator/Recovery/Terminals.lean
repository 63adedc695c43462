import Orchestrator.Store.Ledger
import Orchestrator.Store.Tables

/-! # The terminal transitions of a task and their records

The row of one task id and the ledger, under what the gate, the pipeline, the operator and the
resumption do with them. A producer writes the status first and appends its record later; a crash
may come between. The transitions are kept beside, in their order.
-/

namespace Orchestrator.Recovery

open Orchestrator.Store (Ledger LedgerRecord TaskRow rejectRecord)

/-- What a terminal cleanup came to. -/
structure CleanupOutcome where
  safe : Bool
  targetBranch : String
  error : Option String := none

/-- What a pipeline that ends knows of its task. -/
structure PipelineFacts where
  title : String
  branch : String := ""
  prUrl : Option String := none
  mergeOutcome : Option String := none
  fixIterations : Nat := 0
  accepted : Bool := false
  units : Nat := 1
  governanceChanged : List String := []
  recoveredLoop : Option String := none
  stopNode : Option String := none
  stuckLoop : Option String := none
  stuckLimit : Option String := none

/-- Who appends a record: the pipeline, the operator's finalization with the row it read, the park
of an ambiguous task, and the retry of a cleanup with the row it read. -/
inductive Producer where
  | pipeline (facts : PipelineFacts) (cleanup : CleanupOutcome)
  | operator (row : TaskRow) (prUrl note : Option String)
  | ambiguous
  | cleanup (row : TaskRow) (cleanup : CleanupOutcome)

/-- The row of a task, the ledger, the terminal statuses that were written and the producer that
has yet to append its record. -/
structure TaskLife where
  row : Option TaskRow := none
  ledger : Ledger := []
  terminals : List Flow.Status := []
  appending : Option Producer := none

inductive LifeEvent where
  | reject (now reason : String)
  | other (record : LedgerRecord)
  | submit (row : TaskRow)
  | work (change : TaskRow → TaskRow)
  | resetForRerun
  | revive (status : Flow.Status)
  | terminate (facts : PipelineFacts) (cleanup : CleanupOutcome) (status : Flow.Status)
      (now : String)
  | finalize (declared : Flow.Status) (prUrl note : Option String) (cleanup : CleanupOutcome)
      (now : String)
  | park (reason : Option String) (now : String)
  | resumeCleanup (outcome : CleanupOutcome) (now : String)
  | append (now : String)
  | crash

/-- `_ledger_attempt_count`: the records of a task but those of the gate. -/
def ledgerAttemptCount (ledger : Ledger) (taskId : String) : Nat :=
  ledger.countP fun record => record.id = taskId && !record.isReject

/-- `find_incomplete_cleanup`, of one row. -/
def incompleteCleanup (row : TaskRow) : Bool :=
  row.status.isTerminal && row.branch.isSome && row.cleanupCompleted ≠ some true

section Records

variable (taskId : String) (advancedMode : Bool) (now : String) (row : TaskRow)

/-- The record of `_append_ledger`, with the attempt that it counts. -/
def pipelineRecord (facts : PipelineFacts) (cleanup : CleanupOutcome) (attempt : Nat) :
    LedgerRecord where
  id := taskId
  title := facts.title
  branch := Store.textOf (some facts.branch)
  prUrl := facts.prUrl
  finalStatus := row.status.value
  autoMerged := facts.mergeOutcome.isSome
  mergeOutcome := facts.mergeOutcome
  fixIterations := facts.fixIterations
  terminalCleanup := some (if cleanup.safe then "completed" else "blocked")
  finishedAt := now
  failureReport := row.failureReportPath
  decomposed := facts.accepted
  subtaskCount := if facts.accepted then some facts.units else none
  subtasksCompleted := some row.subtasksCompleted
  attempt := attempt
  rerunOf := if 1 < attempt then some taskId else none
  governanceChanged := facts.governanceChanged
  advancedMode := advancedMode
  recoveredFromStuck := facts.recoveredLoop.isSome
  recoveredLoop := facts.recoveredLoop
  stopNode := if row.status = .done then none else facts.stopNode
  stuckLoop := if row.status = .done then none else facts.stuckLoop
  stuckLimit := if row.status = .done then none else facts.stuckLimit

/-- The record of `finalize_task`, of the row that it read and the status that it declared. -/
def finalizeRecord (read : TaskRow) (prUrl note : Option String) : LedgerRecord where
  id := taskId
  title := read.title
  branch := read.branch
  prUrl := prUrl
  finalStatus := row.status.value
  fixIterations := read.fixIterations
  terminalCleanup := some "completed"
  finishedAt := now
  failureReport := read.failureReportPath
  decomposed := read.decompositionAccepted = some true
  subtaskCount := read.subtaskCount
  subtasksCompleted := some read.subtasksCompleted
  manual := true
  note := note
  outcome := if row.status = .manualActionRequired then some "abandoned" else none
  advancedMode := advancedMode

/-- The record of `_resume_manual`. -/
def parkRecord : LedgerRecord where
  id := taskId
  title := row.title
  finalStatus := Flow.Status.manualActionRequired.value
  finishedAt := now
  branch := row.branch
  fixIterations := row.fixIterations
  advancedMode := advancedMode

/-- The record of `_resume_cleanup`, of the row that it read. -/
def cleanupRecord (read : TaskRow) (cleanup : CleanupOutcome) : LedgerRecord where
  id := taskId
  title := read.title
  branch := read.branch
  finalStatus := read.status.value
  fixIterations := read.fixIterations
  terminalCleanup := some (if cleanup.safe then "completed" else "blocked")
  finishedAt := now
  advancedMode := advancedMode

/-- The append of a producer: the resumption leaves a ledger that has the task as it is. -/
def Producer.append (ledger : Ledger) : Producer → Ledger
  | .pipeline facts outcome =>
      let attempt := ledgerAttemptCount ledger taskId + 1
      ledger ++ [pipelineRecord taskId advancedMode now row facts outcome attempt]
  | .operator read prUrl note =>
      ledger ++ [finalizeRecord taskId advancedMode now row read prUrl note]
  | .ambiguous =>
      if ledger.hasTaskId taskId then ledger
      else ledger ++ [parkRecord taskId advancedMode now row]
  | .cleanup read outcome =>
      if ledger.hasTaskId taskId then ledger
      else ledger ++ [cleanupRecord taskId advancedMode now read outcome]

end Records

/-- The columns that every terminal cleanup writes. -/
def cleanedRow (cleanup : CleanupOutcome) (now : String) (error : Option String)
    (row : TaskRow) : TaskRow :=
  { row with
    cleanupTargetBranch := some cleanup.targetBranch
    cleanupCompleted := some cleanup.safe
    cleanupCompletedAt := if cleanup.safe then some now else none
    cleanupLastError := error }

/-- The row of a task that a pipeline ends: one that is done keeps no checkpoint and no failure
report. -/
def concludedRow (facts : PipelineFacts) (cleanup : CleanupOutcome) (status : Flow.Status)
    (now : String) (row : TaskRow) : TaskRow :=
  let ended := { cleanedRow cleanup now cleanup.error row with
    status := status
    finishedAt := some now
    blockedSince := none
    blockedUntil := none }
  if status = .done then
    { ended with
      currentNode := none
      flowRunCounters := none
      flowFingerprint := none
      failureReportPath := none
      recoveredLoop := facts.recoveredLoop }
  else ended

/-- The row of a task that the operator finalizes. -/
def finalizedRow (declared : Flow.Status) (note : Option String) (cleanup : CleanupOutcome)
    (now : String) (row : TaskRow) : TaskRow :=
  { cleanedRow cleanup now note row with status := declared, finishedAt := some now }

/-- The row of a task that is parked as ambiguous. -/
def parkedRow (reason : Option String) (now : String) (row : TaskRow) : TaskRow :=
  { row with
    status := .manualActionRequired
    finishedAt := some now
    cleanupLastError := reason }

namespace TaskLife

variable (life : TaskLife)

/-- A terminal status is written; the record is to follow. -/
def conclude (row : TaskRow) (producer : Producer) : TaskLife :=
  { life with
    row := some row
    terminals := life.terminals ++ [row.status]
    appending := some producer }

/-- The resumption will still retry the cleanup of the task and append the record that is
missing. -/
def owed (taskId : String) : Bool :=
  life.row.any incompleteCleanup && !life.ledger.hasTaskId taskId

end TaskLife

/-- One step in the life of a task. A producer that has yet to append does nothing else, and a
finalization whose cleanup is not safe stops before the status. -/
def TaskLife.step (taskId : String) (advancedMode : Bool) (event : LifeEvent) (life : TaskLife) :
    Option TaskLife :=
  match life.appending, event, life.row with
  | some producer, .append now, some row =>
      let ledger := Producer.append taskId advancedMode now row life.ledger producer
      some { life with ledger, appending := none }
  | _, .crash, _ => some { life with appending := none }
  | none, .reject now reason, row =>
      if reason = "" then none
      else if row.any fun row => row.status.isTerminal then some life
      else
        let record := rejectRecord now advancedMode taskId reason
        some { life with ledger := life.ledger ++ [record] }
  | none, .other record, _ =>
      if record.id = taskId then none
      else some { life with ledger := life.ledger ++ [record] }
  | none, .submit row, old =>
      if row.status.isTerminal ∨ ¬ old.all fun old => old.status.isTerminal then none
      else some { life with row := some ((old.map row.refreshed).getD row.inserted) }
  | none, .work change, some row =>
      if row.status.isTerminal ∨ (change row).status.isTerminal then none
      else some { life with row := some (change row) }
  | none, .resetForRerun, some row =>
      if row.status.isTerminal then some { life with row := some row.resetForRerun } else none
  | none, .revive status, some row =>
      if row.status.isTerminal ∧ ¬ status.isTerminal then
        some { life with row := some (row.revived status) }
      else none
  | none, .terminate facts cleanup status now, some row =>
      if row.status.isTerminal ∨ ¬ status.isTerminal then none
      else
        let ended := concludedRow facts cleanup status now row
        some (life.conclude ended (.pipeline facts cleanup))
  | none, .finalize declared prUrl note cleanup now, some row =>
      if ¬ declared.isTerminal then none
      else if cleanup.safe then
        let ended := finalizedRow declared note cleanup now row
        some (life.conclude ended (.operator row prUrl note))
      else some { life with row := some (cleanedRow cleanup now cleanup.error row) }
  | none, .park reason now, some row =>
      if row.status.isActive then some (life.conclude (parkedRow reason now row) .ambiguous)
      else none
  | none, .resumeCleanup outcome now, some row =>
      if incompleteCleanup row then
        let cleaned := cleanedRow outcome now outcome.error row
        some { life with row := some cleaned, appending := some (.cleanup row outcome) }
      else none
  | _, _, _ => none

end Orchestrator.Recovery
