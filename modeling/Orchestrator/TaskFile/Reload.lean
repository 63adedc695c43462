import Orchestrator.TaskFile.Persistence

/-! # A task read back

Each field of the document of a task is read back as it was written, so that a task is reloaded
exactly when its texts have an encoding.
-/

namespace Orchestrator.TaskFile

open Orchestrator.Foundation
open Orchestrator.Foundation.PyText (ofString encodable)

section Fields

variable {document : Json} {key : String}

theorem requiredText_of_get? {letters : PyText}
    (found : document.get? key = some (.string letters)) :
    requiredText document key = .ok letters := by
  rw [requiredText, found]

theorem textOrEmpty_of_get? {letters : PyText}
    (found : document.get? key = some (.string letters)) :
    textOrEmpty document key = .ok letters := by
  rw [textOrEmpty, found]

theorem readText_of_get? {value : Option PyText}
    (found : document.get? key = some (textJson value)) : readText document key = .ok value := by
  rw [readText, found]
  cases value <;> rfl

theorem readBool_of_get? {value : Option Bool}
    (found : document.get? key = some (boolJson value)) : readBool document key = .ok value := by
  rw [readBool, found]
  cases value <;> rfl

theorem mapM_itemText (key : String) (values : List PyText) :
    (values.map Json.string).mapM (itemText key) = .ok values := by
  induction values with
  | nil => rfl
  | cons value values ih =>
      rw [List.map_cons, List.mapM_cons, ih]
      rfl

theorem readTexts_of_get? {values : List PyText}
    (found : document.get? key = some (textsJson values)) :
    readTexts document key = .ok values := by
  rw [readTexts, found]
  exact mapM_itemText key values

/-- An enumeration whose members are found by their values is read back. -/
theorem readEnum_of_get? {ε : Type} {value : ε → String} {all : List ε}
    (finds : ∀ candidate, member value all (ofString (value candidate)) = some candidate)
    {choice : Option ε}
    (found : document.get? key =
      some (textJson (choice.map fun candidate => ofString (value candidate)))) :
    readEnum value all document key = choice := by
  rw [readEnum, found]
  cases choice with
  | none => rfl
  | some candidate => exact finds candidate

theorem member_branchMode (mode : BranchMode) :
    member BranchMode.value BranchMode.all (ofString mode.value) = some mode := by
  cases mode <;> decide

theorem member_publishScope (scope : PublishScope) :
    member PublishScope.value PublishScope.all (ofString scope.value) = some scope := by
  cases scope <;> decide

/-- A priority is its own normal form. -/
theorem normalizePriority_value (priority : TaskPriority) :
    normalizePriority (some (ofString priority.value)) = priority := by
  cases priority <;> decide

end Fields

/-! ## Nodes -/

/-- An override is read back, whatever is not set. -/
theorem readOverride_nodeOverrideJson (override : NodeOverride) :
    readOverride (nodeOverrideJson override) = .ok override := by
  rcases override with ⟨_ | enabled, _ | model, _ | reasoning, _ | provider⟩ <;> rfl

theorem mapM_readOverride (items : List (PyText × NodeOverride)) :
    (items.map fun item => (item.1, nodeOverrideJson item.2)).mapM
      (fun member => (member.1, ·) <$> readOverride member.2) = .ok items := by
  induction items with
  | nil => rfl
  | cons item items ih =>
      rw [List.map_cons, List.mapM_cons, ih, readOverride_nodeOverrideJson]
      rfl

/-! ## Tasks -/

variable (task : NormalizedTask)

theorem get?_taskJson {key : String} {value : Json} (among : (key, value) ∈ taskFields task) :
    (taskJson task).get? key = some value := by
  apply Json.get?_of_mem
  · have distinct : ((taskFields task).map Prod.fst).Nodup := by
      rw [show (taskFields task).map Prod.fst =
        ["id", "title", "description", "task_type", "branch_name", "branch_mode", "branch_ref",
          "publish", "auto_merge", "prompt_audit", "decomposition", "commit_type", "trust_level",
          "contacts", "depends_on", "priority", "queue", "subtasks", "references", "nodes"]
        from rfl]
      decide
    rw [List.map_map]
    have injective := distinct.map Json.ofString_injective
    rwa [List.map_map] at injective
  · exact List.mem_map.mpr ⟨_, among, rfl⟩

theorem readNodes_taskJson : readNodes (taskJson task) = .ok task.nodeOverrides := by
  have found : (taskJson task).get? "nodes" = some (nodesJson task.nodeOverrides) :=
    get?_taskJson task (by simp [taskFields])
  rw [readNodes, found]
  dsimp only [nodesJson]
  rw [mapM_readOverride]
  exact congrArg Except.ok (OrderedDict.ofItems_items task.nodeOverrides)

theorem readQueue_taskJson : readQueue (taskJson task) = .ok task.queue := by
  have found : (taskJson task).get? "queue" = some (.string task.queue.val) :=
    get?_taskJson task (by simp [taskFields])
  rw [readQueue, found]
  exact congrArg Except.ok (dif_pos task.queue.property)

theorem readPriority_taskJson : readPriority (taskJson task) = task.priority := by
  have found : (taskJson task).get? "priority" = some (.string (ofString task.priority.value)) :=
    get?_taskJson task (by simp [taskFields])
  rw [readPriority, found]
  exact normalizePriority_value task.priority

/-- A task is read back from its document. -/
theorem taskOf_taskJson : taskOf (taskJson task) = .ok task := by
  have idRead : requiredText (taskJson task) "id" = .ok task.id :=
    requiredText_of_get? (get?_taskJson task (by simp [taskFields]))
  have titleRead : requiredText (taskJson task) "title" = .ok task.title :=
    requiredText_of_get? (get?_taskJson task (by simp [taskFields]))
  have descriptionRead : textOrEmpty (taskJson task) "description" = .ok task.description :=
    textOrEmpty_of_get? (get?_taskJson task (by simp [taskFields]))
  have taskTypeRead : readText (taskJson task) "task_type" = .ok task.taskType :=
    readText_of_get? (get?_taskJson task (by simp [taskFields]))
  have branchNameRead : readText (taskJson task) "branch_name" = .ok task.branchName :=
    readText_of_get? (get?_taskJson task (by simp [taskFields]))
  have branchRefRead : readText (taskJson task) "branch_ref" = .ok task.branchRef :=
    readText_of_get? (get?_taskJson task (by simp [taskFields]))
  have commitTypeRead : readText (taskJson task) "commit_type" = .ok task.commitType :=
    readText_of_get? (get?_taskJson task (by simp [taskFields]))
  have trustLevelRead : readText (taskJson task) "trust_level" = .ok task.trustLevel :=
    readText_of_get? (get?_taskJson task (by simp [taskFields]))
  have autoMergeRead : readBool (taskJson task) "auto_merge" = .ok task.autoMerge :=
    readBool_of_get? (get?_taskJson task (by simp [taskFields]))
  have promptAuditRead : readBool (taskJson task) "prompt_audit" = .ok task.promptAudit :=
    readBool_of_get? (get?_taskJson task (by simp [taskFields]))
  have decompositionRead : readBool (taskJson task) "decomposition" = .ok task.decomposition :=
    readBool_of_get? (get?_taskJson task (by simp [taskFields]))
  have contactsRead : readTexts (taskJson task) "contacts" = .ok task.contacts :=
    readTexts_of_get? (get?_taskJson task (by simp [taskFields]))
  have dependsOnRead : readTexts (taskJson task) "depends_on" = .ok task.dependsOn :=
    readTexts_of_get? (get?_taskJson task (by simp [taskFields]))
  have subtasksRead : readTexts (taskJson task) "subtasks" = .ok task.subtasks :=
    readTexts_of_get? (get?_taskJson task (by simp [taskFields]))
  have referencesRead : readTexts (taskJson task) "references" = .ok task.references :=
    readTexts_of_get? (get?_taskJson task (by simp [taskFields]))
  have modeRead : readEnum BranchMode.value BranchMode.all (taskJson task) "branch_mode" =
      task.branchMode :=
    readEnum_of_get? member_branchMode (get?_taskJson task (by simp [taskFields]))
  have publishRead : readEnum PublishScope.value PublishScope.all (taskJson task) "publish" =
      task.publish :=
    readEnum_of_get? member_publishScope (get?_taskJson task (by simp [taskFields]))
  rw [taskOf, readNodes_taskJson, readQueue_taskJson, readPriority_taskJson, modeRead,
    publishRead]
  rw [idRead, titleRead, descriptionRead, taskTypeRead, branchNameRead, branchRefRead,
    autoMergeRead, promptAuditRead, decompositionRead, commitTypeRead, trustLevelRead,
    contactsRead, dependsOnRead, subtasksRead, referencesRead]
  rfl

/-! ## The texts of a task -/

/-- The texts that the document of a task holds. -/
def NormalizedTask.texts (task : NormalizedTask) : List PyText :=
  [task.id, task.title, task.description] ++ task.taskType.toList ++ task.branchName.toList ++
    task.branchRef.toList ++ task.commitType.toList ++ task.trustLevel.toList ++ task.contacts ++
    task.dependsOn ++ [task.queue.val] ++ task.subtasks ++ task.references ++
    task.nodeOverrides.items.flatMap fun item => item.1 :: item.2.texts

section Texts

variable {test : PyText → Bool}

theorem allTexts_textJson (value : Option PyText) :
    Json.allTexts test (textJson value) = value.toList.all test := by
  cases value with
  | none => rfl
  | some letters => exact (Bool.and_true _).symm

theorem allTexts_boolJson (value : Option Bool) : Json.allTexts test (boolJson value) = true := by
  cases value <;> rfl

theorem allTexts_textsJson (values : List PyText) :
    Json.allTexts test (textsJson values) = values.all test := by
  rw [textsJson, Json.allTexts, Json.allTextsItems_map_string]

theorem all_encodable_value {ε : Type} (value : ε → String) (choice : Option ε) :
    (choice.map fun candidate => ofString (value candidate)).toList.all encodable = true := by
  cases choice with
  | none => rfl
  | some candidate =>
      exact (Bool.and_true _).trans (PyText.encodable_ofString (value candidate))

theorem allTexts_nodeOverrideJson (override : NodeOverride) :
    Json.allTexts encodable (nodeOverrideJson override) = override.texts.all encodable := by
  rw [nodeOverrideJson, Json.allTexts, Json.allTextsMembers_eq_all, NodeOverride.texts]
  simp only [List.all_append, List.all_map, Function.comp_def, Json.allTexts,
    PyText.encodable_ofString, Bool.and_true, Bool.true_and]
  cases override.enabled <;> rfl

theorem allTexts_nodesJson (nodes : OrderedDict PyText NodeOverride) :
    Json.allTexts encodable (nodesJson nodes) =
      (nodes.items.flatMap fun item => item.1 :: item.2.texts).all encodable := by
  rw [nodesJson, Json.allTexts, Json.allTextsMembers_eq_all, List.all_map, List.all_flatMap]
  refine congrArg nodes.items.all (funext fun item => ?_)
  rw [Function.comp_apply, List.all_cons, allTexts_nodeOverrideJson]

/-- A task has an encoding exactly when its texts do. -/
theorem allTexts_taskJson : Json.allTexts encodable (taskJson task) = task.texts.all encodable := by
  rw [taskJson, Json.allTexts, Json.allTextsMembers_eq_all, taskFields, NormalizedTask.texts]
  simp only [List.map_cons, List.map_nil, List.all_cons, List.all_nil, List.all_append,
    PyText.encodable_ofString, allTexts_textJson, all_encodable_value, allTexts_boolJson,
    allTexts_textsJson, allTexts_nodesJson, Json.allTexts, Bool.and_true, Bool.true_and,
    Bool.and_assoc]

end Texts

/-! ## The document -/

theorem readable_false (letters : PyText) : Json.readable false letters = true := rfl

/-- The document of a task has no numbers. -/
theorem dumpable_taskJson : Json.dumpable false (taskJson task) = true := by
  have text : ∀ value, Json.dumpable false (textJson value) = true := fun value => by
    cases value <;> rfl
  have bool : ∀ value, Json.dumpable false (boolJson value) = true := fun value => by
    cases value <;> rfl
  have texts : ∀ values, Json.dumpable false (textsJson values) = true := fun values => by
    rw [textsJson, Json.dumpable, Json.dumpableItems_map_string]
    exact List.all_eq_true.mpr fun _ _ => rfl
  have override : ∀ override, Json.dumpable false (nodeOverrideJson override) = true :=
    fun override => by
      rw [nodeOverrideJson, Json.dumpable, Json.dumpableMembers_eq_all]
      simp [readable_false, Json.dumpable]
  have nodes : Json.dumpable false (nodesJson task.nodeOverrides) = true := by
    rw [nodesJson, Json.dumpable, Json.dumpableMembers_eq_all, List.all_map]
    exact List.all_eq_true.mpr fun item _ => override item.2
  rw [taskJson, Json.dumpable, Json.dumpableMembers_eq_all, taskFields]
  simp only [List.map_cons, List.map_nil, List.all_cons, List.all_nil, readable_false,
    Json.dumpable, text, bool, texts, nodes, Bool.and_true]

/-- A task is reloaded exactly when its texts have an encoding. -/
theorem reload_eq_ok_iff : reload task = .ok task ↔ task.texts.all encodable = true := by
  have fine := dumpable_taskJson task
  have written : encodable (Json.dumps false (taskJson task) ++ [10]) =
      task.texts.all encodable := by
    rw [PyText.encodable_append, Json.encodable_dumps fine, allTexts_taskJson]
    exact Bool.and_true _
  by_cases plain : task.texts.all encodable = true
  · refine iff_of_true ?_ plain
    have encoded : PyText.encodeUtf8 (Json.dumps false (taskJson task) ++ [10]) = some _ :=
      if_pos (written.trans plain)
    rw [reload, writeNormalized, encoded]
    change loadNormalized _ = _
    rw [loadNormalized, PyText.decodeUtf8_of_encodeUtf8 encoded]
    dsimp only
    rw [Json.loads_universalNewlines fine]
    exact taskOf_taskJson task
  · refine iff_of_false ?_ plain
    have refused : PyText.encodeUtf8 (Json.dumps false (taskJson task) ++ [10]) = none :=
      if_neg (written.symm ▸ plain)
    rw [reload, writeNormalized, refused]
    exact nofun

end Orchestrator.TaskFile
