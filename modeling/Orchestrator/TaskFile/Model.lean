import Orchestrator.Foundation.OrderedDict
import Orchestrator.Foundation.PyText
import Orchestrator.Security.Identifiers

/-! # The model of a task file

The normalized task, the values of front matter, and the vocabularies of its fields.
-/

namespace Orchestrator.TaskFile

open Orchestrator.Foundation
open Orchestrator.Foundation.PyText (ofString ofChar strip lower)

/-- A key of a mapping: a text, or another key as it is printed. -/
inductive Key where
  | text (letters : PyText)
  | other (printed : PyText)
  deriving DecidableEq

/-- `str(key)`. -/
def Key.printed : Key → PyText
  | .text letters => letters
  | .other printed => printed

/-- A value of front matter; a number, a date, bytes or a set is kept as it is written. -/
inductive Value where
  | none
  | bool (value : Bool)
  | text (letters : PyText)
  | list (items : List Value)
  | mapping (entries : List (Key × Value))
  | other (written : PyText)

namespace Value

/-- `isinstance(value, str)`. -/
def text? : Value → Option PyText
  | .text letters => some letters
  | _ => Option.none

/-- `isinstance(value, bool)`. -/
def bool? : Value → Option Bool
  | .bool value => some value
  | _ => Option.none

def isNone : Value → Bool
  | .none => true
  | _ => false

/-- `value.get(key)` of a mapping. -/
def entry (key : String) (entries : List (Key × Value)) : Value :=
  ((entries.find? fun entry => entry.1 = .text (ofString key)).map Prod.snd).getD .none

end Value

/-- The front matter of a task file. -/
abbrev Frontmatter := OrderedDict PyText Value

/-- `frontmatter.get(key)`. -/
def Frontmatter.field (frontmatter : Frontmatter) (key : String) : Value :=
  (OrderedDict.get? frontmatter (ofString key)).getD .none

/-- `BranchMode`. -/
inductive BranchMode where
  | new
  | existing
  | current
  deriving DecidableEq

def BranchMode.value : BranchMode → String
  | .new => "new"
  | .existing => "existing"
  | .current => "current"

def BranchMode.all : List BranchMode := [.new, .existing, .current]

/-- `PublishScope`. -/
inductive PublishScope where
  | commit
  | push
  | pullRequest
  deriving DecidableEq

def PublishScope.value : PublishScope → String
  | .commit => "commit"
  | .push => "push"
  | .pullRequest => "pull_request"

def PublishScope.all : List PublishScope := [.commit, .push, .pullRequest]

/-- `TaskPriority`. -/
inductive TaskPriority where
  | low
  | mid
  | high
  deriving DecidableEq

def TaskPriority.value : TaskPriority → String
  | .low => "low"
  | .mid => "mid"
  | .high => "high"

/-- `enum_cls(text)`: the member of a value. -/
def member {ε : Type} (value : ε → String) (all : List ε) (text : PyText) : Option ε :=
  all.find? fun candidate => ofString (value candidate) = text

/-- `normalize_priority`. -/
def normalizePriority : Option PyText → TaskPriority
  | none => .mid
  | some text =>
      let folded := lower (strip text)
      if folded = ofString "low" then .low
      else if folded = ofString "high" then .high
      else .mid

def allowedTaskKeys : List String :=
  ["id", "title", "task_type", "branch_name", "branch_mode", "branch_ref", "publish",
    "auto_merge", "prompt_audit", "decomposition", "trust_level", "commit_type", "contacts",
    "depends_on", "subtasks", "priority", "queue", "nodes", "references"]

/-- The required fields, sorted. -/
def requiredTaskFields : List String := ["id", "title"]

def referencesMaxItems : Nat := 16

def referenceMaxChars : Nat := 200

/-- `COMMIT_TYPES`, sorted. -/
def commitTypes : List String :=
  ["build", "chore", "ci", "docs", "feat", "fix", "perf", "refactor", "revert", "style", "test"]

/-- `TRUST_LEVELS`, sorted. -/
def trustLevels : List String := ["auto", "strict"]

/-- A queue is never the empty text. -/
abbrev Queue := { queue : PyText // queue ≠ [] }

def defaultQueue : Queue := ⟨ofString "default", by decide⟩

def branchNameMaxBytes : Nat := 255

def branchNameMaxLen : Nat := 50

/-- `_BRANCH_FORBIDDEN_CHARS`. -/
def branchForbiddenChars : List Char := [' ', '~', '^', ':', '?', '*', '[', '\\']

/-- One component of a branch name is fine. -/
def isValidBranchComponent (component : PyText) : Bool :=
  !(component.isEmpty || PyText.startsWith component (ofString ".") ||
    PyText.startsWith component (ofString "-") || PyText.endsWith component (ofString ".lock") ||
    PyText.endsWith component (ofString "."))

/-- `is_valid_branch_name`; a name without an encoding raises. -/
def isValidBranchName (branchName : PyText) : Option Bool :=
  if branchName = [] then some false
  else (PyText.encodeUtf8 branchName).map fun bytes =>
    !(decide (branchNameMaxBytes < bytes.length) ||
      branchName != strip branchName ||
      branchName = ofString "@" || PyText.upper branchName = ofString "HEAD" ||
      PyText.startsWith branchName (ofString "/") || PyText.startsWith branchName (ofString "-") ||
      PyText.startsWith branchName (ofString "refs/") ||
      PyText.endsWith branchName (ofString "/") || PyText.endsWith branchName (ofString ".") ||
      PyText.contains branchName (ofString "..") || PyText.contains branchName (ofString "//") ||
      PyText.contains branchName (ofString "@\x7b") ||
      branchName.any (fun point => point.val < 0x20 || point.val = 0x7F ||
        (branchForbiddenChars.map ofChar).contains point)) &&
    (branchName.splitOn (ofChar '/')).all isValidBranchComponent

/-- The characters of a task id after its first. -/
def isTaskIdTail (point : CodePoint) : Bool :=
  (97 ≤ point.val && point.val ≤ 122) || (48 ≤ point.val && point.val ≤ 57) ||
    point = ofChar '.' || point = ofChar '_' || point = ofChar '-'

/-- `TASK_ID_PATTERN`: a lowercase letter or a digit, then at most 63 characters. -/
def matchesTaskIdPattern : PyText → Bool
  | [] => false
  | head :: tail =>
      ((97 ≤ head.val && head.val ≤ 122) || (48 ≤ head.val && head.val ≤ 57)) &&
        tail.length ≤ 63 && tail.all isTaskIdTail

/-- `is_valid_task_id`. -/
def isValidTaskId (taskId : PyText) : Bool :=
  matchesTaskIdPattern taskId && !PyText.endsWith taskId (ofString ".") &&
    !Security.isWindowsReservedName (PyText.asString taskId)

/-- What a task says about one node. -/
structure NodeOverride where
  enabled : Option Bool := none
  model : Option PyText := none
  reasoning : Option PyText := none
  provider : Option PyText := none
  deriving DecidableEq

/-- The texts of an override. -/
def NodeOverride.texts (override : NodeOverride) : List PyText :=
  override.model.toList ++ override.reasoning.toList ++ override.provider.toList

/-- A parsed and normalized task. -/
structure NormalizedTask where
  id : PyText
  title : PyText
  description : PyText
  taskType : Option PyText
  branchName : Option PyText
  branchMode : Option BranchMode
  branchRef : Option PyText
  publish : Option PublishScope
  autoMerge : Option Bool
  promptAudit : Option Bool
  decomposition : Option Bool
  trustLevel : Option PyText
  commitType : Option PyText
  contacts : List PyText
  dependsOn : List PyText
  priority : TaskPriority
  queue : Queue
  subtasks : List PyText
  references : List PyText
  nodeOverrides : OrderedDict PyText NodeOverride
  deriving DecidableEq

/-! ## The scan for injected arguments

Each text of the front matter, however deep, has to look like no argument of a command.
-/

open Orchestrator.Foundation
open Orchestrator.Foundation.PyText (ofString strip)

/-- The first value that is refused. -/
structure InjectionFinding where
  key : PyText
  reason : String

/-- `InjectionFinding.detail`. -/
def InjectionFinding.detail (finding : InjectionFinding) : PyText :=
  finding.key ++ ofString (": " ++ finding.reason)

/-- `INJECTION_SUBSTRINGS`. -/
def injectionSubstrings : List String := [";", "\x60", "|", "$(", "\n", "\r"]

/-- What is wrong with a text. -/
def scanText (key text : PyText) : Option InjectionFinding :=
  let stripped := strip text
  if PyText.startsWith stripped (ofString "-") then some ⟨key, "value starts with '-'"⟩
  else if injectionSubstrings.any fun token => PyText.contains text (ofString token) then
    some ⟨key, "argv-shaped token"⟩
  else if Security.findForbiddenArgs [PyText.asString stripped] ≠ [] then
    some ⟨key, "forbidden flag shape"⟩
  else none

mutual

/-- `scan_value`. -/
def scanValue (key : PyText) : Value → Option InjectionFinding
  | .text letters => scanText key letters
  | .mapping entries => scanEntries key entries
  | .list items => scanItems key 0 items
  | _ => none

def scanEntries (key : PyText) : List (Key × Value) → Option InjectionFinding
  | [] => none
  | (inner, value) :: entries =>
      scanValue (key ++ ofString "." ++ inner.printed) value <|> scanEntries key entries

def scanItems (key : PyText) (index : Nat) : List Value → Option InjectionFinding
  | [] => none
  | value :: items =>
      scanValue (key ++ ofString s!"[{index}]") value <|> scanItems key (index + 1) items

end

/-- `scan_frontmatter`. -/
def scanFrontmatter (frontmatter : Frontmatter) : Option InjectionFinding :=
  frontmatter.items.findSome? fun item => scanValue item.1 item.2

end Orchestrator.TaskFile
