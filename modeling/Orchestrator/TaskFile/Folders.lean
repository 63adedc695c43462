import Orchestrator.Foundation.FileMoves
import Orchestrator.Foundation.PosixPath
import Orchestrator.Foundation.Steps
import Orchestrator.Scheduling.Watch
import Orchestrator.TaskFile.Parser

/-! # The folders of task files

A task file is promoted from staging into the queue, quarantined when the gate rejects it, and
filed under its outcome when its task ends. A decomposition root names spec files beside it, which
go with it. Each file is moved by a rename of its own, which the host may refuse.
-/

namespace Orchestrator.TaskFile

open Orchestrator.Flow (Status)
open Orchestrator.Foundation
open Orchestrator.Foundation.PathParts (fileName isAbsolute parts suffix)
open Orchestrator.Foundation.PyText (asString lower ofString strip)

/-- The names on the way to a file. -/
abbrev FilePath := List PyText

/-- A folder that task files travel through. -/
inductive Folder where
  | preparing
  | pending
  | done
  | failed
  deriving DecidableEq

def Folder.dirname : Folder → PyText
  | .preparing => ofString "preparing"
  | .pending => ofString "pending"
  | .done => ofString "done"
  | .failed => ofString "failed"

/-- `TRACKED_LIFECYCLE_STATES`. -/
def trackedLifecycleStates : List PyText :=
  [Folder.preparing, .pending, .done, .failed].map Folder.dirname

/-- The folder that an outcome files a task under. -/
def outcomeFolder : Status → Option Folder
  | .done => some .done
  | .failed => some .failed
  | _ => none

/-- `lifecycle_destination`: beside the lifecycle folder that a file is in, and otherwise below the
directory that it is in. -/
def lifecycleDestination (taskFile : Option FilePath) (final : Status) : Option FilePath := do
  let folder ← outcomeFolder final
  let source ← taskFile
  let parent := source.dropLast
  let tasksRoot := if fileName parent ∈ trackedLifecycleStates then parent.dropLast else parent
  return tasksRoot ++ [folder.dirname, fileName source]

/-! ## Manifests -/

/-- How a file on disk is read as a task file. -/
structure TaskReader (Leaf : Type) where
  bytes : Leaf → List UInt8
  yaml : PyText → YamlResult
  wording : Wording

namespace TaskReader

variable {Leaf : Type} (reader : TaskReader Leaf) (name : PyText) (file : Leaf)

/-- The front matter under a name, when there is a usable one: no result when reading raises. -/
def frontmatter : Option (Option Frontmatter) :=
  match PyText.decodeUtf8 (reader.bytes file) with
  | none => some none
  | some text =>
      (splitFrontmatter reader.yaml reader.wording (asString (lower (suffix name))) text).map
        fun parse =>
          match parse with
          | .split fields _ => some fields
          | _ => none

/-- A reference that stays below its directory. -/
def isLocalRef (ref : PyText) : Bool := !isAbsolute ref && ofString ".." ∉ parts ref

/-- `read_subtask_refs`, each as the names of its path. -/
def readSubtaskRefs : Option (List FilePath) :=
  (reader.frontmatter name file).map fun fields =>
    match fields.bind fun fields => OrderedDict.get? fields (ofString "subtasks") with
    | some (.list entries) =>
        (((entries.filterMap Value.text?).map strip).filter fun ref =>
          decide (ref ≠ []) && isLocalRef ref).map parts
    | _ => []

/-- `_scan_pending_meta(path).task_id`. -/
def scannedId : Option (Option PyText) :=
  (reader.frontmatter name file).map fun fields =>
    (fields.bind fun fields => OrderedDict.get? fields (ofString "id")).bind Value.text?

end TaskReader

/-! ## Listing -/

/-- `Path.stem`. -/
def stem (name : PyText) : PyText := name.take (name.length - (suffix name).length)

/-- The name ends as that of a task file. -/
def hasTaskSuffix (name : PyText) : Bool :=
  lower (suffix name) ∈ [".md", ".json"].map ofString

/-- Where task files are kept, and how they are read and ordered. -/
structure TaskFolders (Leaf : Type) extends TaskReader Leaf where
  tasksDir : FilePath
  quarantineDir : FilePath
  casefold : String → String

/-- What the host refuses during a call: to make a directory, or to rename a file. -/
structure Refusals where
  directory : FilePath → Bool
  rename : FilePath → FilePath → Bool

/-- The files on disk. -/
abbrev TaskTree (Leaf : Type) := FileTree PyText Leaf

namespace TaskFolders

variable {Leaf : Type} (folders : TaskFolders Leaf)

def folder (folder : Folder) : FilePath := folders.tasksDir ++ [folder.dirname]

def subtasks : PyText := ofString "subtasks"

/-- `select_pending`, by name. -/
def selectPending (directory : FilePath) (tree : TaskTree Leaf) : List PyText :=
  ((tree.namesAt directory).filter hasTaskSuffix).insertionSort fun first second =>
    Scheduling.naturalSortKey folders.casefold (asString first) ≤
      Scheduling.naturalSortKey folders.casefold (asString second)

/-- The id of a listed file; a directory has none. -/
def listedId (name : PyText) (tree : TaskTree Leaf) : Option (Option PyText) :=
  match tree.read (folders.folder .preparing ++ [name]) with
  | none => some none
  | some file => folders.scannedId name file

/-- `find_task_file` among listed names: by name, stem or id. -/
def findAmong (target : PyText) (tree : TaskTree Leaf) : List PyText → Option (Option PyText)
  | [] => some none
  | name :: names => do
      let id ← folders.listedId name tree
      if target = name ∨ target = stem name ∨ id = some target then some (some name)
      else findAmong target tree names

/-! ## Moves -/

/-- The tree after `target.parent.mkdir(parents=True, exist_ok=True)`. -/
def madeFor (refusals : Refusals) (target : FilePath) (tree : TaskTree Leaf) :
    Option (TaskTree Leaf) :=
  if refusals.directory target.dropLast then none else tree.makeDirs target.dropLast

/-- The tree after `source.replace(target)`. -/
def renamed (refusals : Refusals) (source target : FilePath) (tree : TaskTree Leaf) :
    Option (TaskTree Leaf) :=
  if refusals.rename source target then none else tree.move source target

/-- A file moved into a directory that is made first: whether no `OSError` was raised. -/
def moveFile (refusals : Refusals) (source target : FilePath) :
    Steps (TaskTree Leaf) Unit Bool := do
  let tree ← Steps.current
  match madeFor refusals target tree with
  | none => pure false
  | some made => do
      Steps.perform fun _ => made
      match renamed refusals source target made with
      | none => pure false
      | some moved => do
          Steps.perform fun _ => moved
          pure true

/-! ## Promotion -/

/-- What a promotion has to tell. -/
structure Promotion where
  moved : List PyText := []
  errors : List PyText := []

def Promotion.refused (outcome : Promotion) (error : PyText) : Promotion :=
  { outcome with errors := outcome.errors ++ [error] }

/-- `_promote_one`: what is queued already is not overwritten. -/
def promoteOne (refusals : Refusals) (source target : FilePath) (outcome : Promotion) :
    Steps (TaskTree Leaf) Unit Promotion := do
  let tree ← Steps.current
  if (tree.read source).isNone then
    pure (outcome.refused (ofString "no such staged file: " ++ fileName source))
  else if tree.stands target then
    pure (outcome.refused
      (fileName target ++ ofString " already in pending — not overwriting a queued task"))
  else do
    let done ← moveFile refusals source target
    if done then pure { outcome with moved := outcome.moved ++ [fileName target] }
    else Steps.raise ()

/-- Files promoted one after the other, each under the path that it is staged at. -/
def promoteEach (refusals : Refusals) :
    List FilePath → Promotion → Steps (TaskTree Leaf) Unit Promotion
  | [], outcome => pure outcome
  | path :: paths, outcome => do
      let outcome ← promoteOne refusals (folders.folder .preparing ++ path)
        (folders.folder .pending ++ path) outcome
      promoteEach refusals paths outcome

/-- `promote_tasks` with `all_files`. -/
def promoteAll (refusals : Refusals) : Steps (TaskTree Leaf) Unit Promotion := do
  let tree ← Steps.current
  let specs := folders.selectPending (folders.folder .preparing ++ [subtasks]) tree
  let outcome ← folders.promoteEach refusals (specs.map fun name => [subtasks, name]) {}
  let tree ← Steps.current
  let roots := folders.selectPending (folders.folder .preparing) tree
  let outcome ← folders.promoteEach refusals (roots.map fun name => [name]) outcome
  if outcome.moved = [] ∧ outcome.errors = [] then
    pure (outcome.refused (ofString "nothing staged in preparing/"))
  else pure outcome

/-- `promote_tasks` of one target: a root comes after the specs that it names. -/
def promoteTarget (refusals : Refusals) (target : PyText) :
    Steps (TaskTree Leaf) Unit Promotion := do
  let tree ← Steps.current
  let preparing := folders.folder .preparing
  match folders.findAmong target tree (folders.selectPending preparing tree) with
  | none => Steps.raise ()
  | some none =>
      pure (({} : Promotion).refused
        (folders.wording.repr (.text target) ++ ofString " is not a staged file in preparing/"))
  | some (some name) =>
      match (tree.read (preparing ++ [name])).elim (some []) (folders.readSubtaskRefs name) with
      | none => Steps.raise ()
      | some refs => folders.promoteEach refusals (refs ++ [[name]]) {}

/-- `promote_tasks`. -/
def promoteTasks (refusals : Refusals) (target : Option PyText) (allFiles : Bool) :
    Steps (TaskTree Leaf) Unit Promotion :=
  if allFiles then folders.promoteAll refusals
  else
    match target with
    | none | some [] =>
        pure (({} : Promotion).refused
          (ofString "nothing to promote: give a task id/file or --all"))
    | some target => folders.promoteTarget refusals target

/-! ## Relocation and quarantine -/

/-- `_relocate_subtask_specs`: a spec that is missing and one whose place is taken are skipped. -/
def relocateSubtaskSpecs (refusals : Refusals) (sourceDir targetDir : FilePath) :
    List FilePath → Steps (TaskTree Leaf) Unit Unit
  | [] => pure ()
  | ref :: refs => do
      let tree ← Steps.current
      if (tree.read (sourceDir ++ ref)).isNone || tree.stands (targetDir ++ ref) then
        relocateSubtaskSpecs refusals sourceDir targetDir refs
      else do
        let _ ← moveFile refusals (sourceDir ++ ref) (targetDir ++ ref)
        relocateSubtaskSpecs refusals sourceDir targetDir refs

/-- A file moved to its destination, and the specs of its manifest after it: they are read while
the root is still beside them. -/
def relocateTo (refusals : Refusals) (source target : FilePath) :
    Steps (TaskTree Leaf) Unit (Option FilePath) := do
  let tree ← Steps.current
  match tree.read source with
  | none => pure (if tree.stands target then some target else none)
  | some file =>
      match folders.readSubtaskRefs (fileName source) file with
      | none => Steps.raise ()
      | some refs => do
          let done ← moveFile refusals source target
          if done then do
            relocateSubtaskSpecs refusals source.dropLast target.dropLast refs
            pure (some target)
          else pure none

/-- `_relocate_task_file`. -/
def relocateTaskFile (refusals : Refusals) (taskFile : Option FilePath) (final : Status) :
    Steps (TaskTree Leaf) Unit (Option FilePath) :=
  match taskFile, lifecycleDestination taskFile final with
  | some source, some target =>
      if source = target then pure (some target) else folders.relocateTo refusals source target
  | _, _ => pure none

/-- `_quarantine`. -/
def quarantine (refusals : Refusals) (taskFile : FilePath) :
    Steps (TaskTree Leaf) Unit (Option FilePath) := do
  let tree ← Steps.current
  if (tree.read taskFile).isNone then pure none
  else do
    let target := folders.quarantineDir ++ [fileName taskFile]
    let done ← moveFile refusals taskFile target
    pure (if done then some target else none)

end TaskFolders

end Orchestrator.TaskFile
