import Mathlib.Data.List.Lex
import Mathlib.Data.List.Sort
import Mathlib.Data.Prod.Lex
import Orchestrator.Scheduling.Dependencies

/-! # One pass of the scheduler

The pending files of a queue, ranked by priority and natural name, and the pass that hands them to
the pipeline one after the other. What the pipeline makes of a file, of an active task and what
the operator answers are parameters.
-/

namespace Orchestrator.Scheduling

open Orchestrator.Foundation
open Orchestrator.Store (Database TaskRow rejectRecord)

/-! ## Pending files -/

/-- The front matter that the scan reads: a field that is not a string is none, and so is a
dependency list that is not a list. -/
structure Frontmatter where
  id : Option String := none
  title : Option String := none
  priority : Option String := none
  queue : Option String := none
  dependsOn : Option (List (Option String)) := some []
  deriving DecidableEq

/-- A file of the pending folder, with the digest of its bytes; what cannot be read is none. -/
structure PendingFile where
  name : String
  digest : Option String := none
  frontmatter : Option Frontmatter := none
  deriving DecidableEq

/-- What the scheduler reads of a pending file. -/
structure PendingScan where
  taskId : Option String
  dependsOn : List String
  priorityRank : Nat
  queue : String
  title : Option String := none

def defaultQueue : String := "default"

/-- `priority_rank`: high before mid before low, and mid for anything else. -/
def priorityRank (priority : Option String) : Nat :=
  match priority.map fun text => Text.lower (Text.strip text) with
  | some "high" => 0
  | some "low" => 2
  | _ => 1

/-- A text that is not blank, stripped. -/
def strippedText (text : Option String) : Option String :=
  Store.textOf (text.map Text.strip)

/-- The dependencies of a front matter: none when one of them is not a text or is blank. -/
def Frontmatter.dependencies (frontmatter : Frontmatter) : List String :=
  ((frontmatter.dependsOn.getD []).mapM strippedText).getD []

/-- `_scan_pending_meta`. -/
def PendingFile.scan (file : PendingFile) : PendingScan :=
  match file.frontmatter with
  | none => ⟨none, [], priorityRank none, defaultQueue, none⟩
  | some frontmatter =>
      { taskId := frontmatter.id
        dependsOn := frontmatter.dependencies
        priorityRank := priorityRank frontmatter.priority
        queue := (strippedText frontmatter.queue).getD defaultQueue
        title := strippedText frontmatter.title }

/-- `Path.stem` and `Path.suffix` of a name. -/
def stemAndSuffix (name : String) : String × String :=
  let tail := name.toList.reverse.takeWhile (· ≠ '.')
  let stem := (name.toList.reverse.drop (tail.length + 1)).reverse
  if stem = [] ∨ tail = [] then (name, "")
  else (String.ofList stem, String.ofList ('.' :: tail.reverse))

/-! ## Order -/

/-- A run of digits or of other characters: whether it is digits, the count of its digits and its
text. -/
abbrev NaturalToken := Nat ×ₗ Nat ×ₗ String

abbrev NaturalKey := List NaturalToken ×ₗ String

def naturalToken (run : List Char) : NaturalToken :=
  if run.all Char.isDigit then
    let stripped := run.dropWhile (· = '0')
    toLex (1, toLex (stripped.length, String.ofList stripped))
  else toLex (0, toLex (0, String.ofList run))

/-- `natural_sort_key`, over the folding of case. -/
def naturalSortKey (casefold : String → String) (name : String) : NaturalKey :=
  let runs := (casefold name).toList.splitBy fun first second => first.isDigit = second.isDigit
  toLex (runs.map naturalToken, name)

/-- What the files of a queue are ranked by. -/
def sortKey (casefold : String → String) (file : PendingFile) : Nat ×ₗ NaturalKey :=
  toLex (file.scan.priorityRank, naturalSortKey casefold file.name)

/-- `select_pending`. -/
def selectPending (casefold : String → String) (folder : List PendingFile) : List PendingFile :=
  (folder.filter fun file =>
    Text.lower (stemAndSuffix file.name).2 ∈ [".md", ".json"]).insertionSort
    fun first second => naturalSortKey casefold first.name ≤ naturalSortKey casefold second.name

/-- `scan_pending_sorted`. -/
def scanPendingSorted (casefold : String → String) (folder : List PendingFile)
    (selector : String) : List PendingFile :=
  ((selectPending casefold folder).filter fun file => file.scan.queue = selector).insertionSort
    fun first second => sortKey casefold first ≤ sortKey casefold second

/-- The pending map with a file that has an id. -/
def Pending.add (pending : Pending) (file : PendingFile) : Pending :=
  match file.scan.taskId with
  | some taskId => pending.insert taskId file.scan.dependsOn
  | none => pending

/-- The pending map of a pass: of two files with one id the later counts. -/
def pendingMap (files : List PendingFile) : Pending := files.foldl Pending.add ∅

/-! ## The store of a home -/

/-- The home of a scheduler: what is resolved from, and the pending folder. -/
structure Home where
  world : World
  folder : List PendingFile := []

/-- `acquire_slot`. -/
def acquireSlot (database : Database) (taskId : String) : Bool :=
  !database.tasks.entries.any fun entry => entry.2.status.isActive && entry.1 ≠ taskId

inductive SettledFile where
  | notSettled
  | own
  | foreign
  | unverifiable
  deriving DecidableEq

/-- `_classify_settled`. -/
def classifySettled (row : Option TaskRow) (file : PendingFile) : SettledFile :=
  match row with
  | none => .notSettled
  | some row =>
      if row.status.isTerminal then
        match Store.textOf row.sourceSha256, file.digest with
        | some recorded, some found => if found = recorded then .own else .foreign
        | _, _ => .unverifiable
      else .notSettled

/-- `settled_own_file`. -/
def settledOwnFile (database : Database) (taskId : String) (file : PendingFile) : Bool :=
  classifySettled (database.tasks.lookup taskId) file = .own

/-- `_quarantine`: the file leaves the pending folder. -/
def Home.quarantine (home : Home) (file : PendingFile) : Home :=
  { home with folder := home.folder.filter fun other => other.name ≠ file.name }

/-- `reject_dependency`: the file goes by its name, and a settled id is not recorded again. -/
def Home.rejectDependency (home : Home) (file : PendingFile) (now : String)
    (advancedMode : Bool) : Home :=
  let taskId := (stemAndSuffix file.name).1
  let record := rejectRecord now advancedMode taskId "invalid_depends_on"
  match classifySettled (home.world.database.tasks.lookup taskId) file with
  | .notSettled =>
      let kept := home.quarantine file
      { kept with world.ledger := kept.world.ledger ++ [record] }
  | .foreign => home.quarantine file
  | .own | .unverifiable => home

/-! ## The pass -/

/-- The configuration of a pass, with the pipeline and the operator's answers. -/
structure Watcher where
  auto : Bool
  confirmNextTask : Bool
  queue : String
  advancedMode : Bool := false
  casefold : String → String
  now : Home → String
  resume : Home → Home × Option Flow.Status
  claimAllowed : Home → PendingScan → Bool
  runTask : Home → PendingFile → Home × Flow.Status

/-- What a pass does with a file. -/
inductive Decision where
  | settled
  | waiting (detail : String)
  | broken (detail : String)
  | declined
  | launched
  deriving DecidableEq

/-- A file that a pass came to, the home it found and how the pipeline ended. -/
structure Turn where
  home : Home
  file : PendingFile
  decision : Decision
  status : Option Flow.Status := none

namespace Watcher

variable (watcher : Watcher)

/-- The dependency check of a file, with the store after it. -/
def eligibility (pending : Pending) (home : Home) (file : PendingFile) :
    DependencyVerdict × Database :=
  match file.scan.taskId with
  | some taskId =>
      if file.scan.dependsOn = [] then ({ state := .eligible }, home.world.database)
      else dependencyEligibility home.world taskId file.scan.dependsOn pending
  | none => ({ state := .eligible }, home.world.database)

def isSettled (home : Home) (file : PendingFile) : Bool :=
  file.scan.taskId.any fun taskId => settledOwnFile home.world.database taskId file

def decision (pending : Pending) (home : Home) (file : PendingFile) : Decision :=
  if isSettled home file then .settled
  else
    let verdict := (eligibility pending home file).1
    match verdict.state with
    | .waiting => .waiting verdict.detail
    | .broken => .broken verdict.detail
    | .eligible =>
        if watcher.confirmNextTask && !watcher.claimAllowed home file.scan then .declined
        else .launched

/-- The home after the dependency check of a file. -/
def checked (pending : Pending) (home : Home) (file : PendingFile) : Home :=
  if isSettled home file then home
  else { home with world.database := (eligibility pending home file).2 }

/-- The loop of `watch_once`. -/
def watchLoop (pending : Pending) : List PendingFile → Home → List Turn × Home
  | [], home => ([], home)
  | file :: rest, home =>
      if acquireSlot home.world.database "" then
        let checked := checked pending home file
        match watcher.decision pending home file with
        | .declined => ([⟨home, file, .declined, none⟩], checked)
        | .launched =>
            let (after, status) := watcher.runTask checked file
            let turn : Turn := ⟨home, file, .launched, some status⟩
            if status = .manualActionRequired ∨ watcher.auto = false then ([turn], after)
            else
              let (turns, last) := watchLoop pending rest after
              (turn :: turns, last)
        | .broken detail =>
            let after := checked.rejectDependency file (watcher.now home) watcher.advancedMode
            let (turns, last) := watchLoop pending rest after
            (⟨home, file, .broken detail, some .failed⟩ :: turns, last)
        | decision =>
            let (turns, last) := watchLoop pending rest checked
            (⟨home, file, decision, none⟩ :: turns, last)
      else ([], home)

/-- The files of the queue, in the order of a pass. -/
def files (home : Home) : List PendingFile :=
  scanPendingSorted watcher.casefold home.folder watcher.queue

/-- Whether a pass goes on after its resumption: the resumed task, if there was one, ended without
asking for a hand. -/
def continues (resumed : Option Flow.Status) : Bool :=
  resumed.all fun status => status.isTerminal && status ≠ .manualActionRequired

/-- `watch_once`: the turns of a pass and the home after it. -/
def watchOnce (home : Home) : List Turn × Home :=
  let (start, resumed) := watcher.resume home
  if continues resumed then
    let files := watcher.files start
    watcher.watchLoop (pendingMap files) files start
  else ([], start)

end Watcher

end Orchestrator.Scheduling
