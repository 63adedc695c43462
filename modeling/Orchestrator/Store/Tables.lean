import Orchestrator.Flow.ReworkCounts
import Orchestrator.Foundation.Transitions

/-! # The tables of the state store

The row of a task and the tables that hold rows by task, with the methods that write them and
the reads that an attempt decides by. A history is any sequence of the methods.
-/

namespace Orchestrator.Store

open Orchestrator.Foundation
open Orchestrator.Flow (EvaluationKind StateStore)

/-! ## Rows -/

/-- A row of `tasks`, under its id; the defaults are those of the columns. -/
structure TaskRow where
  title : String
  status : Flow.Status
  sourcePath : Option String := none
  sourceSha256 : Option String := none
  branch : Option String := none
  slug : Option String := none
  validationPassed : Option Bool := none
  validationReason : Option String := none
  refinementRan : Option Bool := none
  refinementSkipReason : Option String := none
  testFixCycles : Nat := 0
  reviewFixCycles : Nat := 0
  testFixTotal : Nat := 0
  reviewFixTotal : Nat := 0
  fixIterations : Nat := 0
  decompositionEnabled : Option Bool := none
  decompositionAccepted : Option Bool := none
  decompositionReason : Option String := none
  subtaskCount : Option Nat := none
  activeSubtask : Option Nat := none
  subtasksCompleted : Nat := 0
  failureReportPath : Option String := none
  recoveredLoop : Option String := none
  cleanupTargetBranch : Option String := none
  cleanupCompleted : Option Bool := none
  cleanupCompletedAt : Option String := none
  cleanupLastError : Option String := none
  finishedAt : Option String := none
  currentNode : Option String := none
  flowRunCounters : Option String := none
  flowFingerprint : Option String := none
  blockedSince : Option String := none
  blockedUntil : Option String := none
  controlBundleDigest : Option String := none
  instructionManifestDigest : Option String := none
  exchangeContaminated : Bool := false
  exchangeActiveUnsafe : Bool := false
  gateReferenceSha : Option String := none
  pushUrlDigest : Option String := none
  baseRef : Option String := none
  quarantineRefs : Option String := none

/-- A row of `check_runs`. -/
structure CheckRunRow where
  taskId : String
  subtaskOrder : Option Nat := none
  command : String
  passed : Bool
  logPath : String
  skipped : Bool := false

/-- A row of `publish_operations`. -/
structure PublishOpRow where
  taskId : String
  kind : String
  subtaskOrder : Option Nat := none
  fingerprint : String
  resultRef : Option String := none
  pushedSha : Option String := none
  status : String

/-- A row of `subtasks`. -/
structure SubtaskRow where
  taskId : String
  order : Nat
  slug : String
  title : String
  status : String
  dependsOn : List Nat
  commitSha : Option String := none
  artifactPath : Option String := none

/-- A row of `editing_lineage` or `node_lineage`: the session of a lineage key or of a node. -/
structure LineageRow where
  taskId : String
  subtaskOrder : Option Nat
  key : String
  provider : String
  rawSessionId : String

/-- The tables, with the evaluations and the node runs in a store of their own. -/
structure Database where
  tasks : Dict TaskRow := ∅
  runs : StateStore := {}
  checkRuns : List CheckRunRow := []
  publishOperations : List PublishOpRow := []
  subtasks : List SubtaskRow := []
  editingLineage : List LineageRow := []
  nodeLineage : List LineageRow := []

/-- `INSERT … ON CONFLICT … DO UPDATE` on the rows of one key. -/
def upsert {Row : Type} (same : Row → Bool) (refresh : Row → Row) (row : Row)
    (rows : List Row) : List Row :=
  if rows.any same then rows.map fun old => if same old then refresh old else old
  else rows ++ [row]

/-! ## Methods -/

/-- What `insert_task` writes of a row that is not there yet: the columns that it does not name
have their defaults. -/
def TaskRow.inserted (row : TaskRow) : TaskRow :=
  { row with
    recoveredLoop := none
    currentNode := none
    flowRunCounters := none
    flowFingerprint := none
    blockedSince := none
    blockedUntil := none
    controlBundleDigest := none
    instructionManifestDigest := none
    exchangeContaminated := false
    exchangeActiveUnsafe := false
    gateReferenceSha := none
    pushUrlDigest := none
    baseRef := none
    quarantineRefs := none }

/-- What `insert_task` writes of a row that is there. -/
def TaskRow.refreshed (row old : TaskRow) : TaskRow :=
  { old with
    title := row.title
    status := row.status
    sourcePath := row.sourcePath
    sourceSha256 := row.sourceSha256
    validationPassed := row.validationPassed }

/-- What `reset_task_for_rerun` clears of a row. -/
def TaskRow.resetForRerun (row : TaskRow) : TaskRow :=
  { row with
    branch := none
    slug := none
    validationPassed := none
    validationReason := none
    refinementRan := none
    refinementSkipReason := none
    testFixCycles := 0
    reviewFixCycles := 0
    testFixTotal := 0
    reviewFixTotal := 0
    fixIterations := 0
    decompositionEnabled := none
    decompositionAccepted := none
    decompositionReason := none
    subtaskCount := none
    activeSubtask := none
    subtasksCompleted := 0
    failureReportPath := none
    recoveredLoop := none
    cleanupTargetBranch := none
    cleanupCompleted := none
    cleanupCompletedAt := none
    cleanupLastError := none
    finishedAt := none
    currentNode := none
    flowRunCounters := none
    flowFingerprint := none
    exchangeContaminated := false
    exchangeActiveUnsafe := false }

/-- What `revive_task_for_continue` changes of a row. -/
def TaskRow.revived (stageStatus : Flow.Status) (row : TaskRow) : TaskRow :=
  { row with
    status := stageStatus
    blockedUntil := none
    finishedAt := none
    cleanupCompleted := none
    cleanupCompletedAt := none
    cleanupLastError := none
    cleanupTargetBranch := none }

/-- A text column, where an empty text counts as none. -/
def textOf : Option String → Option String
  | some "" => none
  | value => value

/-- What `insert_subtasks` writes of a row that is there: one with a commit is kept. -/
def SubtaskRow.refresh (row old : SubtaskRow) : SubtaskRow :=
  if old.commitSha = none then
    { old with
      slug := row.slug
      title := row.title
      status := row.status
      dependsOn := row.dependsOn
      artifactPath := row.artifactPath }
  else old

/-- One row of `insert_subtasks`. -/
def insertSubtask (rows : List SubtaskRow) (row : SubtaskRow) : List SubtaskRow :=
  upsert (fun old => old.taskId = row.taskId && old.order = row.order) row.refresh row rows

namespace Database

variable (database : Database) (taskId : String)

def insertTask (row : TaskRow) : Database :=
  { database with tasks := database.tasks.insert taskId (match database.tasks.lookup taskId with
      | some old => row.refreshed old
      | none => row.inserted) }

/-- `update_task`, of any columns. -/
def updateTask (change : TaskRow → TaskRow) : Database :=
  { database with tasks := match database.tasks.lookup taskId with
      | some row => database.tasks.insert taskId (change row)
      | none => database.tasks }

def setGateReference (sha : String) : Database :=
  database.updateTask taskId fun row => { row with gateReferenceSha := some sha }

def resetTaskForRerun : Database :=
  { database.updateTask taskId TaskRow.resetForRerun with
    runs := database.runs.write (.resetTaskForRerun taskId)
    publishOperations := database.publishOperations.filter fun row => row.taskId ≠ taskId
    subtasks := database.subtasks.filter fun row => row.taskId ≠ taskId
    editingLineage := database.editingLineage.filter fun row => row.taskId ≠ taskId
    nodeLineage := database.nodeLineage.filter fun row => row.taskId ≠ taskId }

def recordPublishOp (row : PublishOpRow) : Database :=
  let same (old : PublishOpRow) : Bool :=
    old.taskId = row.taskId && old.kind = row.kind && old.subtaskOrder = row.subtaskOrder
  let refresh (old : PublishOpRow) : PublishOpRow := { old with
    fingerprint := row.fingerprint
    resultRef := row.resultRef
    pushedSha := row.pushedSha
    status := row.status }
  { database with publishOperations := upsert same refresh row database.publishOperations }

def insertSubtasks (rows : List SubtaskRow) : Database :=
  { database with subtasks := rows.foldl insertSubtask database.subtasks }

def setSubtaskCommit (order : Nat) (commitSha status : String) : Database :=
  { database with subtasks := database.subtasks.map fun row =>
      if row.taskId = taskId ∧ row.order = order then
        { row with commitSha := some commitSha, status }
      else row }

def upsertLineage (row : LineageRow) (rows : List LineageRow) : List LineageRow :=
  let same (old : LineageRow) : Bool :=
    old.taskId = row.taskId && old.subtaskOrder = row.subtaskOrder && old.key = row.key
  let refresh (old : LineageRow) : LineageRow :=
    { old with provider := row.provider, rawSessionId := row.rawSessionId }
  upsert same refresh row rows

/-! ## Reads -/

def column {Value : Type} (read : TaskRow → Value) : Option Value :=
  (database.tasks.lookup taskId).map read

def getGateReference : Option String :=
  (database.tasks.lookup taskId).bind fun row => textOf row.gateReferenceSha

def getBaseRef : Option String :=
  (database.tasks.lookup taskId).bind fun row => textOf row.baseRef

def getPublishOp (kind : String) (subtaskOrder : Option Nat) : Option PublishOpRow :=
  database.publishOperations.find? fun row =>
    row.taskId = taskId && row.kind = kind && row.subtaskOrder = subtaskOrder

def getSubtasks : List SubtaskRow :=
  (database.subtasks.filter fun row => row.taskId = taskId).insertionSort fun first second =>
    first.order ≤ second.order

/-- `latest_failed_check_log`: of the last run that failed and was not skipped. -/
def latestFailedCheckLog (subtaskOrder : Option Nat) : Option String :=
  (database.checkRuns.filter fun run => run.taskId = taskId && run.subtaskOrder = subtaskOrder &&
    !run.passed && !run.skipped).getLast?.map CheckRunRow.logPath

def taskHadSkippedChecks : Bool :=
  database.checkRuns.any fun run => run.taskId = taskId && run.skipped

end Database

/-! ## Histories -/

/-- A method of the store, with what it is called with. -/
inductive Write where
  | insertTask (taskId : String) (row : TaskRow)
  | updateTask (taskId : String) (change : TaskRow → TaskRow)
  | resetTaskForRerun (taskId : String)
  | recordNodeRun (taskId : String)
  | recordEvaluation (taskId : String) (kind : EvaluationKind) (verdict : String)
      (nodeId : Option String) (sourceNodeRunId subtaskOrder : Option Nat)
  | recordReworkBudgetReset (taskId : String)
  | recordCheckRun (row : CheckRunRow)
  | recordPublishOp (row : PublishOpRow)
  | insertSubtasks (rows : List SubtaskRow)
  | setSubtaskCommit (taskId : String) (order : Nat) (commitSha status : String)
  | upsertEditingLineage (row : LineageRow)
  | upsertNodeLineage (row : LineageRow)

namespace Database

/-- A method of the store; an evaluation is given for a node run of its own task. -/
def step : Write → Database → Option Database
  | .insertTask taskId row, database => some (database.insertTask taskId row)
  | .updateTask taskId change, database => some (database.updateTask taskId change)
  | .resetTaskForRerun taskId, database => some (database.resetTaskForRerun taskId)
  | .recordNodeRun taskId, database =>
      some { database with runs := database.runs.write (.openNodeRun taskId) }
  | .recordEvaluation taskId kind verdict nodeId source subtaskOrder, database =>
      if source.all fun id => ⟨id, taskId⟩ ∈ database.runs.nodeRuns then
        let write := .recordEvaluation taskId kind verdict nodeId source subtaskOrder
        some { database with runs := database.runs.write write }
      else none
  | .recordReworkBudgetReset taskId, database =>
      some { database with runs := database.runs.write (.recordReworkBudgetReset taskId) }
  | .recordCheckRun row, database =>
      some { database with checkRuns := database.checkRuns ++ [row] }
  | .recordPublishOp row, database => some (database.recordPublishOp row)
  | .insertSubtasks rows, database => some (database.insertSubtasks rows)
  | .setSubtaskCommit taskId order commitSha status, database =>
      some (database.setSubtaskCommit taskId order commitSha status)
  | .upsertEditingLineage row, database =>
      some { database with editingLineage := upsertLineage row database.editingLineage }
  | .upsertNodeLineage row, database =>
      some { database with nodeLineage := upsertLineage row database.nodeLineage }

end Database

end Orchestrator.Store

/-! ## Recorded publish operations

What a read of a key finds after a row was inserted or refreshed, for any table and for the
publish operations.
-/

namespace Orchestrator.Store

section Recorded

variable {Row : Type} {same test : Row → Bool} {refresh : Row → Row} {row : Row} {rows : List Row}

/-- A read of another key finds what it found before. -/
theorem find?_upsert_of_ne (kept : ∀ old, test (refresh old) = test old)
    (other : test row = false) : (upsert same refresh row rows).find? test =
      (rows.find? test).map fun old => if same old then refresh old else old := by
  rw [upsert]
  split
  · rw [List.find?_map]
    refine congrArg (Option.map _) (congrArg (rows.find? ·) (funext fun old => ?_))
    rw [Function.comp_apply]
    split
    · exact kept old
    · rfl
  · next free =>
    have unlike : ∀ old ∈ rows, same old = false := fun old listed =>
      Bool.eq_false_iff.mpr fun same => free (List.any_eq_true.mpr ⟨old, listed, same⟩)
    rw [List.find?_append, List.find?_singleton, if_neg (by rw [other]; exact Bool.false_ne_true),
      Option.or_none]
    cases found : rows.find? test with
    | none => rfl
    | some old =>
        rw [Option.map_some, if_neg]
        rw [unlike old (List.mem_of_find?_eq_some found)]
        exact Bool.false_ne_true

/-- A read of the key finds the new row, or the refreshed one. -/
theorem find?_upsert_self (kept : ∀ old, same (refresh old) = same old) (isNew : same row = true) :
    (upsert same refresh row rows).find? same =
      some (((rows.find? same).map refresh).getD row) := by
  rw [upsert]
  cases found : rows.find? same with
  | none =>
      have free : rows.any same = false := by
        refine List.any_eq_false.mpr fun old listed => ?_
        exact List.find?_eq_none.mp found old listed
      rw [free, if_neg Bool.false_ne_true, List.find?_append, found, Option.none_or,
        List.find?_singleton, if_pos isNew]
      rfl
  | some old =>
      have taken : rows.any same = true :=
        List.any_eq_true.mpr ⟨old, List.mem_of_find?_eq_some found, List.find?_some found⟩
      have tests : (same ∘ fun old => if same old then refresh old else old) = same := by
        funext old
        rw [Function.comp_apply]
        split
        · exact kept old
        · rfl
      rw [taken, if_pos rfl, List.find?_map, tests, found, Option.map_some,
        if_pos (List.find?_some found)]
      rfl

end Recorded

variable {database : Database}

/-- The recorded operation, with the values of the latest. -/
def refreshOp (row old : PublishOpRow) : PublishOpRow :=
  { old with
    fingerprint := row.fingerprint
    resultRef := row.resultRef
    pushedSha := row.pushedSha
    status := row.status }

/-- The operations under the key of one. -/
def sameOp (row old : PublishOpRow) : Bool :=
  old.taskId = row.taskId && old.kind = row.kind && old.subtaskOrder = row.subtaskOrder

theorem sameOp_iff {row old : PublishOpRow} : sameOp row old = true ↔
    old.taskId = row.taskId ∧ old.kind = row.kind ∧ old.subtaskOrder = row.subtaskOrder := by
  rw [sameOp, Bool.and_eq_true, Bool.and_eq_true, decide_eq_true_eq, decide_eq_true_eq,
    decide_eq_true_eq, and_assoc]

theorem recordPublishOp_eq (row : PublishOpRow) :
    (database.recordPublishOp row).publishOperations =
      upsert (sameOp row) (refreshOp row) row database.publishOperations := rfl

theorem getPublishOp_eq (row : PublishOpRow) :
    database.getPublishOp row.taskId row.kind row.subtaskOrder =
      database.publishOperations.find? (sameOp row) := rfl

/-- What a recorded operation leaves under its key. -/
theorem getPublishOp_self (row : PublishOpRow) :
    (database.recordPublishOp row).getPublishOp row.taskId row.kind row.subtaskOrder =
      some (((database.getPublishOp row.taskId row.kind row.subtaskOrder).map
        (refreshOp row)).getD row) := by
  rw [getPublishOp_eq, getPublishOp_eq, recordPublishOp_eq, find?_upsert_self]
  · exact fun _ => rfl
  · exact sameOp_iff.mpr ⟨rfl, rfl, rfl⟩

/-- Another key has what it had. -/
theorem getPublishOp_of_ne {row other : PublishOpRow} (elsewhere : sameOp other row = false) :
    (database.recordPublishOp row).getPublishOp other.taskId other.kind other.subtaskOrder =
      database.getPublishOp other.taskId other.kind other.subtaskOrder := by
  have kept : ∀ old, sameOp other (refreshOp row old) = sameOp other old := fun _ => rfl
  rw [getPublishOp_eq, getPublishOp_eq, recordPublishOp_eq, find?_upsert_of_ne kept elsewhere]
  cases found : database.publishOperations.find? (sameOp other) with
  | none => rfl
  | some old =>
      rw [Option.map_some, if_neg fun same => ?_]
      have here := sameOp_iff.mp (List.find?_some found)
      have there := sameOp_iff.mp same
      have both : sameOp other row = true := sameOp_iff.mpr
        ⟨there.1.symm.trans here.1, there.2.1.symm.trans here.2.1, there.2.2.symm.trans here.2.2⟩
      rw [elsewhere] at both
      cases both
end Orchestrator.Store
