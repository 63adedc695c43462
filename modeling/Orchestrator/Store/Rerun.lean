import Orchestrator.Store.Tables

/-! # A fresh rerun

What an attempt decides by, read after `reset_task_for_rerun` and the registration that follows
it. The reset clears the columns it lists and some of the tables: the gate reference, the task
base, the park instants and the check runs stay.
-/

namespace Orchestrator.Store

open Orchestrator.Foundation
open Orchestrator.Flow (StateStore)

/-- The loop counters of a task row. -/
structure LoopCounters where
  testFixCycles : Nat
  reviewFixCycles : Nat
  testFixTotal : Nat
  reviewFixTotal : Nat
  fixIterations : Nat

namespace TaskRow

def counters (row : TaskRow) : LoopCounters :=
  ⟨row.testFixCycles, row.reviewFixCycles, row.testFixTotal, row.reviewFixTotal,
    row.fixIterations⟩

/-- `get_flow_checkpoint`. -/
def checkpoint (row : TaskRow) : Option String × Option String × Option String :=
  (row.currentNode, row.flowRunCounters, row.flowFingerprint)

/-- Whether a decomposition was accepted, its count, the active subtask and how many are done. -/
def decomposition (row : TaskRow) : Option Bool × Option Nat × Option Nat × Nat :=
  (row.decompositionAccepted, row.subtaskCount, row.activeSubtask, row.subtasksCompleted)

/-- The row that `_register_task` inserts. -/
def registered (title sourcePath sourceSha256 : String) : TaskRow where
  title := title
  status := .new
  sourcePath := some sourcePath
  sourceSha256 := some sourceSha256
  validationPassed := some true

end TaskRow

/-- What the decisions of an attempt read of the store. -/
@[ext]
structure Decisions where
  gateReference : Option String
  baseRef : Option String
  parked : Option (Option String × Option String)
  counters : Option LoopCounters
  checkpoint : Option (Option String × Option String × Option String)
  decomposition : Option (Option Bool × Option Nat × Option Nat × Nat)
  reworkVerdicts : Option String → Option Nat → Nat
  publishOp : String → Option Nat → Option PublishOpRow
  subtasks : List SubtaskRow
  latestFailedCheckLog : Option Nat → Option String
  hadSkippedChecks : Bool

namespace Database

variable (database : Database) (taskId : String)

def decisions : Decisions where
  gateReference := database.getGateReference taskId
  baseRef := database.getBaseRef taskId
  parked := database.column taskId fun row => (row.blockedSince, row.blockedUntil)
  counters := database.column taskId TaskRow.counters
  checkpoint := database.column taskId TaskRow.checkpoint
  decomposition := database.column taskId TaskRow.decomposition
  reworkVerdicts := database.runs.countReworkVerdicts taskId
  publishOp := database.getPublishOp taskId
  subtasks := database.getSubtasks taskId
  latestFailedCheckLog := database.latestFailedCheckLog taskId
  hadSkippedChecks := database.taskHadSkippedChecks taskId

/-- A fresh rerun: the reset of the task and its new registration. -/
def rerun (row : TaskRow) : Database := (database.resetTaskForRerun taskId).insertTask taskId row

/-- The earlier attempts left nothing that the reset does not clear: no gate reference, no task
base, no park instant, and no check run but those that passed. -/
structure LeftNothing : Prop where
  row : ∀ row ∈ database.tasks.lookup taskId, textOf row.gateReferenceSha = none ∧
    textOf row.baseRef = none ∧ row.blockedSince = none ∧ row.blockedUntil = none
  checkRuns : ∀ run ∈ database.checkRuns, run.taskId = taskId →
    run.passed = true ∧ run.skipped = false

end Database

/-! ## Evaluations and their node runs -/

/-- An evaluation's node run is one of its own task, or was deleted. -/
structure OwnRuns (store : StateStore) : Prop where
  sound : store.Sound
  known : ∀ entry ∈ store.evaluations, ∀ id ∈ entry.row.sourceNodeRunId,
    id < store.nextRun ∧ ∀ run ∈ store.nodeRuns, run.id = id → run.taskId = entry.taskId

theorem ownRuns_empty : OwnRuns {} :=
  ⟨⟨List.nodup_nil, fun _ among => absurd among List.not_mem_nil⟩,
    fun _ among => absurd among List.not_mem_nil⟩

theorem OwnRuns.openNodeRun {store : StateStore} (own : OwnRuns store) (taskId : String) :
    OwnRuns (store.write (.openNodeRun taskId)) := by
  refine ⟨own.sound.write _, fun entry among id source => ?_⟩
  obtain ⟨below, same⟩ := own.known entry among id source
  refine ⟨Nat.lt_succ_of_lt below, fun run listed isId => ?_⟩
  rcases List.mem_append.mp listed with old | new
  · exact same run old isId
  · rw [List.mem_singleton.mp new] at isId
    exact absurd isId (Nat.ne_of_gt below)

theorem OwnRuns.recordEvaluation {store : StateStore} (own : OwnRuns store) {taskId : String}
    {kind : Flow.EvaluationKind} {verdict : String} {nodeId : Option String}
    {source subtaskOrder : Option Nat}
    (ofTask : ∀ id ∈ source, ⟨id, taskId⟩ ∈ store.nodeRuns) :
    OwnRuns (store.recordEvaluation taskId kind verdict nodeId source subtaskOrder) := by
  refine ⟨⟨own.sound.distinct, own.sound.below⟩, fun entry among id isSource => ?_⟩
  rcases List.mem_append.mp among with old | new
  · exact own.known entry old id isSource
  · cases List.mem_singleton.mp new
    have listed := ofTask id isSource
    refine ⟨own.sound.below _ listed, fun run here isId => ?_⟩
    rw [List.inj_on_of_nodup_map own.sound.distinct here listed isId]

theorem OwnRuns.resetTaskForRerun {store : StateStore} (own : OwnRuns store) (taskId : String) :
    OwnRuns (store.write (.resetTaskForRerun taskId)) := by
  refine ⟨own.sound.write _, fun entry among id source => ?_⟩
  obtain ⟨below, same⟩ := own.known entry among id source
  exact ⟨below, fun run listed isId => same run (List.mem_filter.mp listed).1 isId⟩

/-- No method but those on the runs changes them, and each keeps them the task's own. -/
theorem ownRuns_step {write : Write} {before after : Database}
    (moved : Database.step write before = some after) (own : OwnRuns before.runs) :
    OwnRuns after.runs := by
  cases write with
  | insertTask taskId row =>
      cases moved
      exact own
  | updateTask taskId change =>
      cases moved
      exact own
  | resetTaskForRerun taskId =>
      cases moved
      exact own.resetTaskForRerun taskId
  | recordNodeRun taskId =>
      cases moved
      exact own.openNodeRun taskId
  | recordEvaluation taskId kind verdict nodeId source subtaskOrder =>
      rw [Database.step] at moved
      split at moved
      · next known =>
        cases moved
        refine own.recordEvaluation fun id isSource => ?_
        rw [Option.mem_def.mp isSource, Option.all_some, decide_eq_true_eq] at known
        exact known
      · cases moved
  | recordReworkBudgetReset taskId =>
      cases moved
      exact own.recordEvaluation fun _ none => absurd none (Option.not_mem_none _)
  | recordCheckRun | recordPublishOp | insertSubtasks | setSubtaskCommit | upsertEditingLineage
  | upsertNodeLineage =>
      cases moved
      exact own

theorem ownRuns_of_run {transitions : List (Transition Database Write)} {last : Database}
    (run : Run Database.step {} transitions last) : OwnRuns last.runs := by
  induction run with
  | start => exact ownRuns_empty
  | next _ moved ih => exact ownRuns_step moved ih

/-! ## What is read after a rerun -/

section Reads

variable {database : Database} {taskId : String} {title sourcePath digest : String}

/-- No verdict is in force once the node runs of the task are deleted. -/
theorem reworkVerdictsInForce_reset {store : StateStore} (own : OwnRuns store) :
    (store.write (.resetTaskForRerun taskId)).reworkVerdictsInForce taskId = [] := by
  rw [StateStore.reworkVerdictsInForce, List.map_eq_nil_iff, List.filter_eq_nil_iff]
  intro entry among counts
  obtain ⟨other, listed, joined⟩ := List.mem_flatMap.mp among
  obtain ⟨run, kept, rfl⟩ := List.mem_map.mp joined
  obtain ⟨here, isSource⟩ := List.mem_filter.mp kept
  obtain ⟨known, elsewhere⟩ := List.mem_filter.mp here
  have owner := (own.known other listed run.id (of_decide_eq_true isSource)).2 run known rfl
  simp only [Bool.and_eq_true, decide_eq_true_eq] at counts
  exact of_decide_eq_true elsewhere (owner.trans counts.1.1.1)

/-- The row of a task after a rerun: what was left of the old one, if there was one. -/
theorem lookup_rerun (row : TaskRow) :
    (database.rerun taskId row).tasks.lookup taskId =
      some (match database.tasks.lookup taskId with
        | some old => row.refreshed old.resetForRerun
        | none => row.inserted) := by
  rw [Database.rerun, Database.insertTask, AList.lookup_insert, Database.resetTaskForRerun,
    Database.updateTask]
  cases found : database.tasks.lookup taskId with
  | none =>
      dsimp only
      rw [found]
  | some old =>
      dsimp only
      rw [AList.lookup_insert]

/-- The reads of a database without check runs that have failed or were skipped. -/
theorem checks_eq_iff :
    ((∀ order, database.latestFailedCheckLog taskId order = none) ∧
        database.taskHadSkippedChecks taskId = false) ↔
      ∀ run ∈ database.checkRuns, run.taskId = taskId →
        run.passed = true ∧ run.skipped = false := by
  constructor
  · rintro ⟨noLog, noSkip⟩ run among ofTask
    have unskipped : run.skipped = false := by
      have each := List.any_eq_false.mp noSkip run among
      simpa [ofTask] using each
    refine ⟨?_, unskipped⟩
    have empty := List.getLast?_eq_none_iff.mp (Option.map_eq_none_iff.mp (noLog run.subtaskOrder))
    have each := List.filter_eq_nil_iff.mp empty run among
    simpa [ofTask, unskipped] using each
  · intro passed
    refine ⟨fun order => ?_, ?_⟩
    · refine Option.map_eq_none_iff.mpr (List.getLast?_eq_none_iff.mpr
        (List.filter_eq_nil_iff.mpr fun run among counts => ?_))
      simp only [Bool.and_eq_true, decide_eq_true_eq, Bool.not_eq_true'] at counts
      rw [(passed run among counts.1.1.1).1] at counts
      exact absurd counts.1.2 Bool.noConfusion
    · refine List.any_eq_false.mpr fun run among counts => ?_
      simp only [Bool.and_eq_true, decide_eq_true_eq] at counts
      rw [(passed run among counts.1).2] at counts
      exact absurd counts.2 Bool.noConfusion

/-- What an attempt reads in a database where its task was registered for the first time. -/
theorem decisions_insertTask_empty :
    (({} : Database).insertTask taskId (.registered title sourcePath digest)).decisions taskId =
      { gateReference := none
        baseRef := none
        parked := some (none, none)
        counters := some ⟨0, 0, 0, 0, 0⟩
        checkpoint := some (none, none, none)
        decomposition := some (none, none, none, 0)
        reworkVerdicts := fun _ _ => 0
        publishOp := fun _ _ => none
        subtasks := []
        latestFailedCheckLog := fun _ => none
        hadSkippedChecks := false } := by
  have row : (({} : Database).insertTask taskId
      (.registered title sourcePath digest)).tasks.lookup taskId =
        some (TaskRow.registered title sourcePath digest).inserted := by
    rw [Database.insertTask, AList.lookup_insert]
    rfl
  rw [Database.decisions, Database.getGateReference, Database.getBaseRef]
  simp only [Database.column, row]
  rfl

/-- What an attempt reads after a rerun: the rest is as at a first registration. -/
theorem decisions_rerun (own : OwnRuns database.runs) :
    (database.rerun taskId (.registered title sourcePath digest)).decisions taskId =
      { gateReference := database.getGateReference taskId
        baseRef := database.getBaseRef taskId
        parked := some ((database.column taskId fun row =>
          (row.blockedSince, row.blockedUntil)).getD (none, none))
        counters := some ⟨0, 0, 0, 0, 0⟩
        checkpoint := some (none, none, none)
        decomposition := some (none, none, none, 0)
        reworkVerdicts := fun _ _ => 0
        publishOp := fun _ _ => none
        subtasks := []
        latestFailedCheckLog := database.latestFailedCheckLog taskId
        hadSkippedChecks := database.taskHadSkippedChecks taskId } := by
  have rework : ∀ nodeId order, (database.rerun taskId
      (.registered title sourcePath digest)).runs.countReworkVerdicts taskId nodeId order = 0 := by
    intro nodeId order
    rw [StateStore.countReworkVerdicts]
    exact congrArg (List.countP _) (reworkVerdictsInForce_reset own)
  have operations : ∀ kind order, (database.rerun taskId
      (.registered title sourcePath digest)).getPublishOp taskId kind order = none := by
    intro kind order
    refine List.find?_eq_none.mpr fun other among same => ?_
    have elsewhere := of_decide_eq_true (List.mem_filter.mp among).2
    simp only [Bool.and_eq_true, decide_eq_true_eq] at same
    exact elsewhere same.1.1
  have subtasks : (database.rerun taskId
      (.registered title sourcePath digest)).getSubtasks taskId = [] := by
    have none : ((database.subtasks.filter fun row => row.taskId ≠ taskId).filter fun row =>
        row.taskId = taskId) = [] := by
      refine List.filter_eq_nil_iff.mpr fun other among same => ?_
      exact of_decide_eq_true (List.mem_filter.mp among).2 (of_decide_eq_true same)
    rw [Database.getSubtasks]
    exact congrArg _ none
  have row := @lookup_rerun database taskId (.registered title sourcePath digest)
  have columns : ∀ {Value : Type} (read : TaskRow → Value),
      (database.rerun taskId (.registered title sourcePath digest)).column taskId read =
        some (read (match database.tasks.lookup taskId with
          | some old => (TaskRow.registered title sourcePath digest).refreshed old.resetForRerun
          | none => (TaskRow.registered title sourcePath digest).inserted)) := by
    intro Value read
    rw [Database.column, row]
    rfl
  ext1
  · rw [Database.decisions, Database.getGateReference, row, Database.getGateReference]
    cases database.tasks.lookup taskId <;> rfl
  · rw [Database.decisions, Database.getBaseRef, row, Database.getBaseRef]
    cases database.tasks.lookup taskId <;> rfl
  · refine (columns _).trans ?_
    rw [Database.column]
    cases database.tasks.lookup taskId <;> rfl
  · refine (columns _).trans ?_
    cases database.tasks.lookup taskId <;> rfl
  · refine (columns _).trans ?_
    cases database.tasks.lookup taskId <;> rfl
  · refine (columns _).trans ?_
    cases database.tasks.lookup taskId <;> rfl
  · funext nodeId order
    exact rework nodeId order
  · funext kind order
    exact operations kind order
  · exact subtasks
  · rfl
  · rfl

/-- What is left of a row, by what is read of it. -/
theorem row_eq_iff :
    (database.getGateReference taskId = none ∧ database.getBaseRef taskId = none ∧
        (database.column taskId fun row => (row.blockedSince, row.blockedUntil)).getD (none, none) =
          (none, none)) ↔
      ∀ row ∈ database.tasks.lookup taskId, textOf row.gateReferenceSha = none ∧
        textOf row.baseRef = none ∧ row.blockedSince = none ∧ row.blockedUntil = none := by
  rw [Database.getGateReference, Database.getBaseRef, Database.column]
  cases database.tasks.lookup taskId with
  | none => simp
  | some row => simp

/-- After any history, a rerun reads what a first registration would exactly when the earlier
attempts left nothing that the reset does not clear. -/
theorem rerun_forgets_iff {transitions : List (Transition Database Write)}
    (history : Run Database.step {} transitions database)
    (taskId title sourcePath digest : String) :
    (database.rerun taskId (.registered title sourcePath digest)).decisions taskId =
        (({} : Database).insertTask taskId
          (.registered title sourcePath digest)).decisions taskId ↔
      database.LeftNothing taskId := by
  have own : OwnRuns database.runs := ownRuns_of_run history
  rw [decisions_rerun own, decisions_insertTask_empty, Decisions.mk.injEq]
  constructor
  · rintro ⟨gate, base, parked, -, -, -, -, -, -, log, skipped⟩
    exact ⟨row_eq_iff.mp ⟨gate, base, Option.some.inj parked⟩,
      checks_eq_iff.mp ⟨congrFun log, skipped⟩⟩
  · intro left
    obtain ⟨gate, base, parked⟩ := row_eq_iff.mpr left.row
    obtain ⟨log, skipped⟩ := checks_eq_iff.mpr left.checkRuns
    exact ⟨gate, base, congrArg some parked, rfl, rfl, rfl, rfl, rfl, rfl, funext log, skipped⟩

end Reads

/-! ## Two attempts -/

/-- An attempt with one check, which passed or not, and with or without a commit of code. -/
def attempt (passed committed : Bool) : List Write :=
  [.insertTask "task" (.registered "Task" "tasks/task.md" "digest"),
    .updateTask "task" fun row => { row with status := .running },
    .recordCheckRun ⟨"task", none, "pytest", passed, "check.log", false⟩,
    .updateTask "task" fun row =>
      if committed then { row with gateReferenceSha := some "0a1b" } else row,
    .updateTask "task" fun row => { row with status := .failed }]

/-- An attempt without a commit, whose checks passed, is forgotten. -/
theorem passed_attempt_forgotten :
    ∃ transitions database, Run Database.step {} transitions database ∧
      (database.rerun "task" (.registered "Task" "tasks/task.md" "digest")).decisions "task" =
        (({} : Database).insertTask "task"
          (.registered "Task" "tasks/task.md" "digest")).decisions "task" := by
  have left : (replay Database.step {} (attempt true false)).any (fun replayed =>
      (replayed.2.tasks.lookup "task").all (fun row => textOf row.gateReferenceSha = none ∧
        textOf row.baseRef = none ∧ row.blockedSince = none ∧ row.blockedUntil = none) &&
          replayed.2.checkRuns.all fun run => run.passed && !run.skipped) = true := by
    decide
  obtain ⟨⟨transitions, database⟩, replayed, both⟩ := (Option.any_eq_true _ _).mp left
  rw [Bool.and_eq_true] at both
  have history := run_of_replay replayed
  refine ⟨transitions, database, history, (rerun_forgets_iff history _ _ _ _).mpr ⟨?_, ?_⟩⟩
  · intro row found
    have clean := both.1
    rw [Option.mem_def.mp found, Option.all_some] at clean
    exact of_decide_eq_true clean
  · intro run among _
    have clean := List.all_eq_true.mp both.2 run among
    simpa using clean

/-- After a rerun of an attempt that committed, the gate is measured from its commit, and the
log of its failed check is the latest. -/
theorem committed_attempt_measured :
    ∃ transitions database, Run Database.step {} transitions database ∧
      (database.rerun "task" (.registered "Task" "tasks/task.md" "digest")).getGateReference
          "task" = some "0a1b" ∧
        (database.rerun "task" (.registered "Task" "tasks/task.md" "digest")).latestFailedCheckLog
            "task" none = some "check.log" ∧
          (database.rerun "task" (.registered "Task" "tasks/task.md" "digest")).decisions "task" ≠
            (({} : Database).insertTask "task"
              (.registered "Task" "tasks/task.md" "digest")).decisions "task" := by
  have measured : (replay Database.step {} (attempt false true)).any (fun replayed =>
      (replayed.2.rerun "task" (.registered "Task" "tasks/task.md" "digest")).getGateReference
          "task" = some "0a1b" ∧
        (replayed.2.rerun "task" (.registered "Task" "tasks/task.md" "digest")).latestFailedCheckLog
            "task" none = some "check.log") = true := by
    decide
  obtain ⟨⟨transitions, database⟩, replayed, both⟩ := (Option.any_eq_true _ _).mp measured
  obtain ⟨gate, log⟩ := of_decide_eq_true both
  refine ⟨transitions, database, run_of_replay replayed, gate, log, fun same => ?_⟩
  have fresh := congrArg Decisions.gateReference same
  rw [decisions_insertTask_empty] at fresh
  exact Option.some_ne_none _ (gate.symm.trans fresh)

end Orchestrator.Store
