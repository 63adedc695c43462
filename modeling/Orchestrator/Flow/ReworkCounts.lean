import Orchestrator.Flow.Evaluator

/-! # Counting rework verdicts

The state store counts the rework verdicts of a node in force in two ways: those of one
subtask, and all of them split by subtask. A history is a sequence of the store's writes.
-/

namespace Orchestrator.Flow

/-- A row of `evaluations`. -/
structure TaskEvaluation where
  taskId : String
  row : EvaluationRow

/-- A row of `node_runs`. -/
structure StoredRun where
  id : Nat
  taskId : String
  deriving DecidableEq

/-- The evaluations and node runs of all tasks, and the next ids of both tables. -/
structure StateStore where
  evaluations : List TaskEvaluation := []
  nodeRuns : List StoredRun := []
  nextEvaluation : Nat := 1
  nextRun : Nat := 1

/-- The writes that the counts depend on. -/
inductive StoreWrite where
  | openNodeRun (taskId : String)
  | recordEvaluation (taskId : String) (kind : EvaluationKind) (verdict : String)
      (nodeId : Option String) (sourceNodeRunId subtaskOrder : Option Nat)
  | recordReworkBudgetReset (taskId : String)
  | resetTaskForRerun (taskId : String)

namespace StateStore

variable (store : StateStore) (taskId : String)

def recordEvaluation (kind : EvaluationKind) (verdict : String) (nodeId : Option String)
    (sourceNodeRunId subtaskOrder : Option Nat) : StateStore :=
  { store with
    evaluations := store.evaluations ++
      [⟨taskId, ⟨store.nextEvaluation, kind, verdict, nodeId, sourceNodeRunId, subtaskOrder⟩⟩]
    nextEvaluation := store.nextEvaluation + 1 }

def write : StoreWrite → StateStore
  | .openNodeRun taskId => { store with
      nodeRuns := store.nodeRuns ++ [⟨store.nextRun, taskId⟩]
      nextRun := store.nextRun + 1 }
  | .recordEvaluation taskId kind verdict nodeId source subtaskOrder =>
      store.recordEvaluation taskId kind verdict nodeId source subtaskOrder
  | .recordReworkBudgetReset taskId =>
      store.recordEvaluation taskId .reworkBudgetReset "reset" none none none
  | .resetTaskForRerun taskId =>
      { store with nodeRuns := store.nodeRuns.filter fun run => run.taskId ≠ taskId }

/-- The store after a history, from an empty one. -/
def after (history : List StoreWrite) : StateStore := history.foldl write {}

/-- The id of the task's latest budget reset, zero when there is none. -/
def latestResetOf : Nat :=
  ((store.evaluations.filter fun entry =>
    entry.taskId = taskId && entry.row.kind = .reworkBudgetReset).map fun entry =>
      entry.row.id).foldr max 0

/-- `_REWORK_VERDICTS_IN_FORCE`: evaluations joined with their node runs. -/
def reworkVerdictsInForce : List EvaluationRow :=
  ((store.evaluations.flatMap fun entry =>
    (store.nodeRuns.filter fun run => entry.row.sourceNodeRunId = some run.id).map fun _ =>
      entry).filter fun entry =>
        entry.taskId = taskId && entry.row.kind = .inFlowVerdict && entry.row.verdict = "rework" &&
          decide (store.latestResetOf taskId < entry.row.id)).map TaskEvaluation.row

/-- `count_rework_verdicts`: a node or a subtask that is not given does not restrict the count. -/
def countReworkVerdicts (nodeId : Option String) (subtaskOrder : Option Nat) : Nat :=
  (store.reworkVerdictsInForce taskId).countP fun row =>
    nodeId.all (fun id => row.nodeId = some id) &&
      subtaskOrder.all fun order => row.subtaskOrder = some order

/-- The subtasks of a node's verdicts in force. -/
def reworkSubtasks (nodeId : String) : List (Option Nat) :=
  ((store.reworkVerdictsInForce taskId).filter fun row => row.nodeId = some nodeId).map
    EvaluationRow.subtaskOrder

/-- `count_rework_verdicts_by_subtask`: the groups of the node's verdicts. -/
def countReworkVerdictsBySubtask (nodeId : String) : List (Option Nat × Nat) :=
  let orders := store.reworkSubtasks taskId nodeId
  orders.dedup.map fun order => (order, orders.count order)

end StateStore

variable {store : StateStore} {taskId nodeId : String}

/-! ## The counts -/

/-- The entry of a subtask, zero when absent, is the number of its verdicts. -/
theorem lookup_countReworkVerdictsBySubtask (subtaskOrder : Option Nat) :
    ((store.countReworkVerdictsBySubtask taskId nodeId).lookup subtaskOrder).getD 0 =
      (store.reworkSubtasks taskId nodeId).count subtaskOrder := by
  unfold StateStore.countReworkVerdictsBySubtask
  by_cases among : subtaskOrder ∈ (store.reworkSubtasks taskId nodeId).dedup
  · rw [List.lookup_graph _ among, Option.getD_some]
  · have absent : ((store.reworkSubtasks taskId nodeId).dedup.map fun order =>
        (order, (store.reworkSubtasks taskId nodeId).count order)).lookup subtaskOrder = none := by
      refine List.lookup_eq_none_iff.mpr fun entry member => ?_
      obtain ⟨order, kept, rfl⟩ := List.mem_map.mp member
      exact bne_iff_ne.mpr fun (same : subtaskOrder = order) => among (same.symm ▸ kept)
    rw [absent, Option.getD_none,
      List.count_eq_zero_of_not_mem fun member => among (List.mem_dedup.mpr member)]

/-- The count of a subtask counts its verdicts. -/
theorem countReworkVerdicts_some (order : Nat) :
    store.countReworkVerdicts taskId (some nodeId) (some order) =
      (store.reworkSubtasks taskId nodeId).count (some order) := by
  rw [StateStore.countReworkVerdicts, StateStore.reworkSubtasks, List.count_eq_countP,
    List.countP_map, List.countP_filter]
  refine List.countP_congr fun row _ => ?_
  simp only [Option.all_some, Function.comp_apply, Bool.and_eq_true, decide_eq_true_eq,
    beq_iff_eq]
  exact and_comm

/-- The count without a subtask counts the verdicts of them all. -/
theorem countReworkVerdicts_none :
    store.countReworkVerdicts taskId (some nodeId) none =
      (store.reworkSubtasks taskId nodeId).length := by
  rw [StateStore.countReworkVerdicts, StateStore.reworkSubtasks, List.length_map,
    ← List.countP_eq_length_filter]
  refine List.countP_congr fun row _ => ?_
  simp only [Option.all_some, Option.all_none, Bool.and_true]

/-- The two counts agree on a subtask always, and without one exactly when no verdict of the node in
force was given in a subtask. -/
theorem countReworkVerdicts_agrees (history : List StoreWrite) (taskId nodeId : String)
    (subtaskOrder : Option Nat) :
    let store := StateStore.after history
    store.countReworkVerdicts taskId (some nodeId) subtaskOrder =
        ((store.countReworkVerdictsBySubtask taskId nodeId).lookup subtaskOrder).getD 0 ↔
      subtaskOrder.isSome ∨ ∀ row ∈ store.reworkVerdictsInForce taskId,
        row.nodeId = some nodeId → row.subtaskOrder = none := by
  intro store
  rw [lookup_countReworkVerdictsBySubtask]
  cases subtaskOrder with
  | some order => exact iff_of_true (countReworkVerdicts_some order) (.inl rfl)
  | none =>
      rw [countReworkVerdicts_none, eq_comm, List.count_eq_length, Option.isSome_none]
      simp only [Bool.false_eq_true, false_or]
      constructor
      · intro outside row among named
        have member : row.subtaskOrder ∈ store.reworkSubtasks taskId nodeId :=
          List.mem_map_of_mem (List.mem_filter.mpr ⟨among, decide_eq_true named⟩)
        exact (outside _ member).symm
      · intro outside order member
        obtain ⟨row, kept, rfl⟩ := List.mem_map.mp member
        obtain ⟨among, named⟩ := List.mem_filter.mp kept
        exact (outside row among (of_decide_eq_true named)).symm

/-- A rework verdict given in the first subtask. -/
def subtaskVerdict : List StoreWrite :=
  [.openNodeRun "task", .recordEvaluation "task" .inFlowVerdict "rework" (some "review") (some 1)
    (some 1)]

/-- Outside the subtasks one count finds the verdict of a subtask, the other does not. -/
theorem countReworkVerdicts_subtaskVerdict :
    (StateStore.after subtaskVerdict).countReworkVerdicts "task" (some "review") none = 1 ∧
      (((StateStore.after subtaskVerdict).countReworkVerdictsBySubtask "task" "review").lookup
        none).getD 0 = 0 := by decide

/-! ## The evaluator's view -/

/-- Node runs have distinct ids, all below the next one. -/
structure StateStore.Sound (store : StateStore) : Prop where
  distinct : (store.nodeRuns.map StoredRun.id).Nodup
  below : ∀ run ∈ store.nodeRuns, run.id < store.nextRun

theorem StateStore.Sound.write (sound : store.Sound) (next : StoreWrite) :
    (store.write next).Sound := by
  cases next with
  | openNodeRun taskId =>
      constructor
      · rw [StateStore.write, List.map_append]
        refine List.nodup_append.mpr ⟨sound.distinct, List.nodup_singleton _, ?_⟩
        rintro id old other new rfl
        obtain ⟨run, among, rfl⟩ := List.mem_map.mp old
        have fresh : run.id = store.nextRun := List.mem_singleton.mp new
        exact absurd (sound.below run among) (fresh ▸ lt_irrefl _)
      · intro run among
        rcases List.mem_append.mp among with old | new
        · exact Nat.lt_succ_of_lt (sound.below run old)
        · cases List.mem_singleton.mp new
          exact Nat.lt_succ_self _
  | recordEvaluation => exact ⟨sound.distinct, sound.below⟩
  | recordReworkBudgetReset => exact ⟨sound.distinct, sound.below⟩
  | resetTaskForRerun taskId =>
      exact ⟨sound.distinct.sublist (List.filter_sublist.map _), fun run among =>
        sound.below run (List.mem_filter.mp among).1⟩

theorem StateStore.sound_after (history : List StoreWrite) : (after history).Sound := by
  have start : ({} : StateStore).Sound :=
    ⟨List.nodup_nil, fun run none => absurd none List.not_mem_nil⟩
  unfold after
  generalize ({} : StateStore) = store at start
  induction history generalizing store with
  | nil => exact start
  | cons next rest ih => exact ih _ (start.write next)

/-- What an evaluator of the task reads of the store. -/
def StateStore.ofTask (store : StateStore) (taskId : String) : EvaluationStore where
  evaluations := (store.evaluations.filter fun entry => entry.taskId = taskId).map
    TaskEvaluation.row
  nodeRunIds := store.nodeRuns.map StoredRun.id

theorem latestReset_ofTask : (store.ofTask taskId).latestReset = store.latestResetOf taskId := by
  unfold EvaluationStore.latestReset StateStore.latestResetOf StateStore.ofTask
  rw [List.filter_map, List.filter_filter, List.map_map]
  refine congrArg (List.foldr max 0) (congrArg (List.map _) (List.filter_congr fun entry _ => ?_))
  simp only [Function.comp_apply, Bool.and_comm]

/-- The runs of one id, each replaced by a value: one where the id is known, or none. -/
theorem map_const_filter_id {β : Type} (value : β) (id : Nat) {runs : List StoredRun}
    (distinct : (runs.map StoredRun.id).Nodup) :
    ((runs.filter fun run => some id = some run.id).map fun _ => value) =
      if id ∈ runs.map StoredRun.id then [value] else [] := by
  induction runs with
  | nil => rfl
  | cons run runs ih =>
      rw [List.map_cons, List.nodup_cons] at distinct
      rw [List.filter_cons, List.map_cons]
      by_cases same : id = run.id
      · subst same
        rw [if_pos (by simp), List.map_cons, ih distinct.2, if_neg distinct.1,
          if_pos List.mem_cons_self]
      · rw [if_neg (by simp [same]), ih distinct.2]
        simp only [List.mem_cons, same, false_or]

/-- An evaluation joins one node run at most. -/
theorem joined_eq_filter (sound : store.Sound) (entries : List TaskEvaluation) :
    (entries.flatMap fun entry => (store.nodeRuns.filter fun run =>
      entry.row.sourceNodeRunId = some run.id).map fun _ => entry) =
    entries.filter fun entry => entry.row.sourceNodeRunId.any fun run =>
      decide (run ∈ store.nodeRuns.map StoredRun.id) := by
  induction entries with
  | nil => rfl
  | cons entry entries ih =>
      rw [List.flatMap_cons, ih, List.filter_cons]
      cases source : entry.row.sourceNodeRunId with
      | none => simp
      | some id =>
          rw [map_const_filter_id entry id sound.distinct, Option.any_some]
          by_cases known : id ∈ store.nodeRuns.map StoredRun.id
          · rw [if_pos known, if_pos (decide_eq_true known)]
            rfl
          · rw [if_neg known, if_neg (by simp [known])]
            rfl

/-- After any history an evaluator counts what the store counts for its task. -/
theorem countReworkVerdicts_ofTask (history : List StoreWrite) (subtaskOrder : Option Nat) :
    ((StateStore.after history).ofTask taskId).countReworkVerdicts nodeId subtaskOrder =
      (StateStore.after history).countReworkVerdicts taskId (some nodeId) subtaskOrder := by
  have sound := StateStore.sound_after history
  generalize StateStore.after history = store at sound
  have reset : (store.ofTask taskId).latestReset = store.latestResetOf taskId :=
    latestReset_ofTask
  unfold StateStore.ofTask at reset
  rw [StateStore.countReworkVerdicts, StateStore.reworkVerdictsInForce, joined_eq_filter sound,
    EvaluationStore.countReworkVerdicts, StateStore.ofTask, List.filter_filter, List.countP_map,
    List.countP_map, List.countP_filter, List.countP_filter]
  refine List.countP_congr fun entry _ => ?_
  simp only [EvaluationStore.inForce, Function.comp_apply, reset]
  cases subtaskOrder <;> simp <;> tauto

end Orchestrator.Flow
