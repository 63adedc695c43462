import Orchestrator.Foundation.Fallible
import Orchestrator.Foundation.JsonCharacters
import Orchestrator.TaskFile.Model

/-! # The persisted task

The normalized task is written as a JSON file and read back when a task is resumed. What is
written is read back as the same task; it can be written when its texts have an encoding.
-/

namespace Orchestrator.TaskFile

open Orchestrator.Foundation
open Orchestrator.Foundation.PyText (ofString)

/-! ## Writing -/

/-- A text or null. -/
def textJson (value : Option PyText) : Json := value.elim .null .string

/-- A boolean or null. -/
def boolJson (value : Option Bool) : Json := value.elim .null .bool

/-- A list of texts. -/
def textsJson (values : List PyText) : Json := .array (values.map .string)

/-- `_node_override_json`: without what is not set. -/
def nodeOverrideJson (override : NodeOverride) : Json :=
  .object <|
    (override.enabled.toList.map fun value => (ofString "enabled", .bool value)) ++
    (override.model.toList.map fun value => (ofString "model", .string value)) ++
    (override.reasoning.toList.map fun value => (ofString "reasoning", .string value)) ++
    (override.provider.toList.map fun value => (ofString "provider", .string value))

/-- The nodes of a task. -/
def nodesJson (nodes : OrderedDict PyText NodeOverride) : Json :=
  .object (nodes.items.map fun item => (item.1, nodeOverrideJson item.2))

/-- The members of the document of a task. -/
def taskFields (task : NormalizedTask) : List (String × Json) :=
  [("id", .string task.id),
    ("title", .string task.title),
    ("description", .string task.description),
    ("task_type", textJson task.taskType),
    ("branch_name", textJson task.branchName),
    ("branch_mode", textJson (task.branchMode.map fun mode => ofString mode.value)),
    ("branch_ref", textJson task.branchRef),
    ("publish", textJson (task.publish.map fun scope => ofString scope.value)),
    ("auto_merge", boolJson task.autoMerge),
    ("prompt_audit", boolJson task.promptAudit),
    ("decomposition", boolJson task.decomposition),
    ("commit_type", textJson task.commitType),
    ("trust_level", textJson task.trustLevel),
    ("contacts", textsJson task.contacts),
    ("depends_on", textsJson task.dependsOn),
    ("priority", .string (ofString task.priority.value)),
    ("queue", .string task.queue.val),
    ("subtasks", textsJson task.subtasks),
    ("references", textsJson task.references),
    ("nodes", nodesJson task.nodeOverrides)]

/-- The document of a task. -/
def taskJson (task : NormalizedTask) : Json :=
  .object ((taskFields task).map fun field => (ofString field.1, field.2))

/-- Why a task is not written or not read back. -/
inductive PersistError where
  | unencodable
  | undecodable
  | malformed
  | missing (key : String)
  | illTyped (key : String)

/-- `write_normalized`: the bytes of the file. -/
def writeNormalized (task : NormalizedTask) : Except PersistError (List UInt8) :=
  match PyText.encodeUtf8 (Json.dumps false (taskJson task) ++ [10]) with
  | some bytes => .ok bytes
  | none => .error .unencodable

/-! ## Reading

A value of a type that the field of a task does not have is refused here. -/

/-- `data[key]` of a text. -/
def requiredText (document : Json) (key : String) : Except PersistError PyText :=
  match document.get? key with
  | none => .error (.missing key)
  | some (.string letters) => .ok letters
  | some _ => .error (.illTyped key)

/-- `data.get(key)` of a text. -/
def readText (document : Json) (key : String) : Except PersistError (Option PyText) :=
  match document.get? key with
  | none => .ok none
  | some .null => .ok none
  | some (.string letters) => .ok (some letters)
  | some _ => .error (.illTyped key)

/-- `data.get(key, "")` of a text. -/
def textOrEmpty (document : Json) (key : String) : Except PersistError PyText :=
  match document.get? key with
  | none => .ok []
  | some (.string letters) => .ok letters
  | some _ => .error (.illTyped key)

/-- `data.get(key)` of a boolean. -/
def readBool (document : Json) (key : String) : Except PersistError (Option Bool) :=
  match document.get? key with
  | none => .ok none
  | some .null => .ok none
  | some (.bool value) => .ok (some value)
  | some _ => .error (.illTyped key)

/-- The text of an item. -/
def itemText (key : String) : Json → Except PersistError PyText
  | .string letters => .ok letters
  | _ => .error (.illTyped key)

/-- `data.get(key, [])` of a list of texts. -/
def readTexts (document : Json) (key : String) : Except PersistError (List PyText) :=
  match document.get? key with
  | none => .ok []
  | some (.array items) => items.mapM (itemText key)
  | some _ => .error (.illTyped key)

/-- `_opt_enum`: none for any other value. -/
def readEnum {ε : Type} (value : ε → String) (all : List ε) (document : Json) (key : String) :
    Option ε :=
  match document.get? key with
  | some (.string letters) => member value all letters
  | _ => none

/-- The priority, normalized. -/
def readPriority (document : Json) : TaskPriority :=
  match document.get? "priority" with
  | some (.string letters) => normalizePriority (some letters)
  | _ => normalizePriority none

/-- `data.get("queue") or DEFAULT_QUEUE`. -/
def readQueue (document : Json) : Except PersistError Queue :=
  match document.get? "queue" with
  | none | some .null | some (.bool false) | some (.array []) | some (.object []) =>
      .ok defaultQueue
  | some (.string letters) =>
      .ok (if named : letters ≠ [] then ⟨letters, named⟩ else defaultQueue)
  | some _ => .error (.illTyped "queue")

/-- The override of a node. -/
def readOverride (document : Json) : Except PersistError NodeOverride :=
  match document with
  | .object _ => do
      let enabled ← readBool document "enabled"
      let model ← readText document "model"
      let reasoning ← readText document "reasoning"
      let provider ← readText document "provider"
      return ⟨enabled, model, reasoning, provider⟩
  | _ => .error (.illTyped "nodes")

/-- `data.get("nodes") or {}`. -/
def readNodes (document : Json) : Except PersistError (OrderedDict PyText NodeOverride) :=
  match document.get? "nodes" with
  | none | some .null | some (.bool false) | some (.array []) => .ok OrderedDict.empty
  | some (.object members) =>
      OrderedDict.ofItems <$> members.mapM fun member => (member.1, ·) <$> readOverride member.2
  | some _ => .error (.illTyped "nodes")

/-- The task of a document. -/
def taskOf (document : Json) : Except PersistError NormalizedTask := do
  let nodeOverrides ← readNodes document
  let id ← requiredText document "id"
  let title ← requiredText document "title"
  let description ← textOrEmpty document "description"
  let taskType ← readText document "task_type"
  let branchName ← readText document "branch_name"
  let branchRef ← readText document "branch_ref"
  let autoMerge ← readBool document "auto_merge"
  let promptAudit ← readBool document "prompt_audit"
  let decomposition ← readBool document "decomposition"
  let commitType ← readText document "commit_type"
  let trustLevel ← readText document "trust_level"
  let contacts ← readTexts document "contacts"
  let dependsOn ← readTexts document "depends_on"
  let queue ← readQueue document
  let subtasks ← readTexts document "subtasks"
  let references ← readTexts document "references"
  return {
    id, title, description, taskType, branchName, branchRef, autoMerge, promptAudit, decomposition
    commitType, trustLevel, contacts, dependsOn, queue, subtasks, references, nodeOverrides
    branchMode := readEnum BranchMode.value BranchMode.all document "branch_mode"
    publish := readEnum PublishScope.value PublishScope.all document "publish"
    priority := readPriority document }

/-- `load_normalized`, of the bytes of the file. -/
def loadNormalized (bytes : List UInt8) : Except PersistError NormalizedTask :=
  match PyText.decodeUtf8 bytes with
  | none => .error .undecodable
  | some text =>
      match Json.loads (PyText.universalNewlines text) with
      | none => .error .malformed
      | some document => taskOf document

/-- A task that is written and read back. -/
def reload (task : NormalizedTask) : Except PersistError NormalizedTask :=
  writeNormalized task >>= loadNormalized

end Orchestrator.TaskFile
