import Mathlib.Data.List.Range
import Orchestrator.Store.Tables

/-! # Splits of a task, their rows and their commits

The rule that accepts a split, what a decision persists, and what a resume rebuilds of it. The
rows are keyed by order alone, and a row with a commit is kept as it is.
-/

namespace Orchestrator.Decomposition

open Orchestrator.Store

/-! ## The decision -/

/-- One subtask of a split. -/
structure SubtaskSpec where
  order : Nat
  title : String
  slug : String
  acceptanceCriteria : List String
  dependsOn : List Nat
  specBody : Option String := none
  deriving DecidableEq

structure DecompositionDecision where
  accepted : Bool
  reason : String
  n : Nat
  subtasks : List SubtaskSpec := []

def singleUnit (reason : String) : DecompositionDecision := ⟨false, reason, 1, []⟩

/-- Orders count from a number, and a subtask depends on earlier ones. -/
def linearFrom : Nat → List SubtaskSpec → Bool
  | _, [] => true
  | index, spec :: rest =>
      spec.order = index &&
        (spec.dependsOn.all fun earlier => 1 ≤ earlier && earlier < spec.order) &&
        linearFrom (index + 1) rest

/-- `_decide_from_specs`. -/
def decideFromSpecs (specs : List SubtaskSpec) (maxSubtasks : Nat) : DecompositionDecision :=
  let ordered := specs.insertionSort fun first second => first.order ≤ second.order
  if specs.length < 2 ∨ maxSubtasks < specs.length then singleUnit "n_out_of_range"
  else if linearFrom 1 ordered then ⟨true, "accepted", specs.length, ordered⟩
  else singleUnit "non_linear_dependencies"

/-- What a planning output says: no split, a malformed one, or its subtasks. -/
inductive Proposal where
  | notRecommended
  | malformed
  | split (specs : List SubtaskSpec)

/-- `decide_decomposition`. -/
def decideDecomposition (proposal : Proposal) (gateOn : Bool) (maxSubtasks : Nat) :
    DecompositionDecision :=
  if gateOn then
    match proposal with
    | .notRecommended => singleUnit "not_recommended"
    | .malformed => singleUnit "malformed_subtask"
    | .split specs => decideFromSpecs specs maxSubtasks
  else singleUnit "gate_off"

/-- `decide_operator_decomposition`. -/
def decideOperatorDecomposition (specs : List SubtaskSpec) (maxSubtasks : Nat) :
    DecompositionDecision :=
  let decision := decideFromSpecs specs maxSubtasks
  if decision.accepted then { decision with reason := "operator_authored" } else decision

/-! ## Rows -/

def SubtaskSpec.row (taskId : String) (spec : SubtaskSpec) : SubtaskRow where
  taskId := taskId
  order := spec.order
  slug := spec.slug
  title := spec.title
  status := "pending"
  dependsOn := spec.dependsOn

/-- `_persist_decomposition`, on the database. -/
def persistDecomposition (taskId : String) (decision : DecompositionDecision) (gateOn : Bool)
    (database : Database) : Database :=
  let marked := database.updateTask taskId fun row => { row with
    decompositionEnabled := some gateOn
    decompositionAccepted := some decision.accepted
    decompositionReason := some decision.reason
    subtaskCount := if decision.accepted then some decision.n else none
    activeSubtask := if decision.accepted then some 1 else none }
  if decision.accepted then
    marked.insertSubtasks (decision.subtasks.map (SubtaskSpec.row taskId))
  else marked

def specOf (row : SubtaskRow) : SubtaskSpec where
  order := row.order
  title := row.title
  slug := row.slug
  acceptanceCriteria := []
  dependsOn := row.dependsOn

/-- A text, or its default where there is none or it is empty. -/
def textOr (text : Option String) (default : String) : String := (textOf text).getD default

/-- `_rebuild_decomposition`. -/
def rebuildDecomposition (taskId : String) (row : TaskRow) (database : Database) :
    DecompositionDecision :=
  if row.decompositionAccepted = some true then
    let specs := (database.getSubtasks taskId).map specOf
    { accepted := true
      reason := textOr row.decompositionReason "accepted"
      n := match row.subtaskCount with
        | some (count + 1) => count + 1
        | _ => specs.length
      subtasks := specs }
  else ⟨false, textOr row.decompositionReason "single", 1, []⟩

/-- The orders that the fan-out finds committed. -/
def committedOrders (taskId : String) (database : Database) : List Nat :=
  ((database.getSubtasks taskId).filter fun row => textOf row.commitSha ≠ none).map
    SubtaskRow.order

/-! ## The run of a task -/

/-- A task's rows, the decision in memory, the commit at `HEAD` and the diff base, the commit that
is returned and not yet recorded in the row of its subtask, and which subtask each commit was made
for. -/
structure PlanState where
  database : Database := {}
  decision : Option DecompositionDecision := none
  head : String := ""
  diffBase : String := ""
  returned : Option (SubtaskSpec × String) := none
  made : List (String × SubtaskSpec) := []

/-- A step of a task's run, or of its process. -/
inductive PlanEvent where
  | register (row : TaskRow)
  | plan (proposal : Proposal) (gateOn : Bool) (maxSubtasks : Nat)
  | operatorPlan (specs : List SubtaskSpec) (gateOn : Bool) (maxSubtasks : Nat)
  | commitInside (unit : SubtaskSpec) (sha : String)
  | commitSubtask (unit : SubtaskSpec) (sha fingerprint : String) (changed : Bool)
  | setSubtaskCommit
  | crash
  | resume
  | reset

def subtaskCommitKind : String := "subtask_commit"

/-- The recorded commit of a subtask, which is not made again. -/
def recordedCommit (taskId : String) (database : Database) (order : Nat) : Option String :=
  (database.getPublishOp taskId subtaskCommitKind (some order)).bind fun operation =>
    if operation.status = "completed" then operation.resultRef else none

/-- The operation of a subtask's commit; it has a result once it is completed. -/
def commitOperation (taskId : String) (unit : SubtaskSpec) (fingerprint : String)
    (result : Option String) : PublishOpRow where
  taskId := taskId
  kind := subtaskCommitKind
  subtaskOrder := some unit.order
  fingerprint := fingerprint
  resultRef := result
  status := if result.isSome then "completed" else "started"

namespace PlanState

variable (taskId : String)

/-- `gate_reference`. -/
def gateReference (state : PlanState) : String :=
  (state.database.getGateReference taskId).getD state.diffBase

def persist (decision : DecompositionDecision) (gateOn : Bool) (state : PlanState) : PlanState :=
  { state with
    database := persistDecomposition taskId decision gateOn state.database
    decision := some decision
    returned := none }

/-- The fan-out runs the region of a subtask: the split is accepted and the subtask has no
commit. -/
def running (unit : SubtaskSpec) (state : PlanState) : Bool :=
  state.decision.any (fun decision => decision.accepted && unit ∈ decision.subtasks) &&
    unit.order ∉ committedOrders taskId state.database

/-- A completed operation is recorded, and the gate measures from its commit. -/
def recordCompleted (unit : SubtaskSpec) (sha fingerprint : String) (state : PlanState) :
    PlanState :=
  let recorded :=
    state.database.recordPublishOp (commitOperation taskId unit fingerprint (some sha))
  { state with database := recorded.setGateReference taskId sha }

/-- `commit_subtask`: a new commit where something has changed, else the commit at `HEAD`, which
is recorded if it is not the one that the gate measures from. -/
def commitSubtask (unit : SubtaskSpec) (sha fingerprint : String) (changed : Bool)
    (state : PlanState) : PlanState :=
  match recordedCommit taskId state.database unit.order with
  | some recorded => { state with returned := some (unit, recorded) }
  | none =>
      if changed then
        let committed := { state with
          head := sha
          returned := some (unit, sha)
          made := state.made ++ [(sha, unit)] }
        committed.recordCompleted taskId unit sha fingerprint
      else
        let started := state.database.recordPublishOp (commitOperation taskId unit fingerprint none)
        let returned := { state with database := started, returned := some (unit, state.head) }
        if state.head = state.gateReference taskId then returned
        else returned.recordCompleted taskId unit state.head state.head

/-- A step. While a subtask runs there may be commits in its name that no operation records: of
an agent, or of `commit_subtask` where the process stops before its record. A crash loses what is
in memory. -/
def step : PlanEvent → PlanState → Option PlanState
  | .register row, state => some { state with database := state.database.insertTask taskId row }
  | .plan proposal gateOn maxSubtasks, state =>
      some (state.persist taskId (decideDecomposition proposal gateOn maxSubtasks) gateOn)
  | .operatorPlan specs gateOn maxSubtasks, state =>
      some (state.persist taskId (decideOperatorDecomposition specs maxSubtasks) gateOn)
  | .commitInside unit sha, state =>
      if state.running taskId unit then
        some { state with head := sha, made := state.made ++ [(sha, unit)] }
      else none
  | .commitSubtask unit sha fingerprint changed, state =>
      if state.running taskId unit then
        some (state.commitSubtask taskId unit sha fingerprint changed)
      else none
  | .setSubtaskCommit, state =>
      match state.returned with
      | some (unit, sha) =>
          some { state with
            database := state.database.setSubtaskCommit taskId unit.order sha "committed"
            returned := none }
      | none => none
  | .crash, state => some { state with decision := none, returned := none }
  | .resume, state =>
      match state.decision, state.database.tasks.lookup taskId with
      | none, some row =>
          some { state with decision := some (rebuildDecomposition taskId row state.database) }
      | _, _ => none
  | .reset, state =>
      some { state with
        database := state.database.resetTaskForRerun taskId
        decision := none
        returned := none }

end PlanState

end Orchestrator.Decomposition
