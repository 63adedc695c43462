import Mathlib.Data.List.Basic
import Mathlib.Tactic.Common
import Orchestrator.Foundation.Steps
import Orchestrator.Git.WorkTree

/-! # The state of a clone, and what it would commit

What `git status` lists of a clone, what `git add` puts into its index, and the paths that
the code commit takes in. Paths are taken literally as pathspecs.
-/

/-! ## Commits

A commit is its tree, its message and its parents, so two commits of one name are one commit.
What a commit reaches is what is in its history.
-/

namespace Orchestrator.Git

mutual

/-- A commit, named by all that it holds. -/
inductive Commit (Tree : Type) where
  | mk (tree : Tree) (message : String) (parents : Parents Tree)
  deriving DecidableEq

/-- The parents of a commit, in order. -/
inductive Parents (Tree : Type) where
  | none
  | more (first : Commit Tree) (rest : Parents Tree)
  deriving DecidableEq

end

variable {Tree : Type}

mutual

/-- The commits that a commit reaches, itself first. -/
def Commit.ancestors : Commit Tree → List (Commit Tree)
  | .mk tree message parents => .mk tree message parents :: parents.ancestors

def Parents.ancestors : Parents Tree → List (Commit Tree)
  | .none => []
  | .more first rest => first.ancestors ++ rest.ancestors

end

namespace Commit

def tree : Commit Tree → Tree
  | mk tree _ _ => tree

/-- A commit on top of another. -/
def child (parent : Commit Tree) (tree : Tree) (message : String) : Commit Tree :=
  mk tree message (.more parent .none)

/-- A commit that merges a second parent into the first. -/
def merge (first second : Commit Tree) (tree : Tree) (message : String) : Commit Tree :=
  mk tree message (.more first (.more second .none))

/-- `git merge-base --is-ancestor`. -/
def isAncestor [DecidableEq Tree] (older newer : Commit Tree) : Bool := older ∈ newer.ancestors

theorem mem_ancestors_self (commit : Commit Tree) : commit ∈ commit.ancestors := by
  cases commit
  exact List.mem_cons_self

theorem mem_ancestors_child {older parent : Commit Tree} {tree : Tree} {message : String} :
    older ∈ (parent.child tree message).ancestors ↔
      older = parent.child tree message ∨ older ∈ parent.ancestors := by
  rw [child, ancestors, List.mem_cons, Parents.ancestors, Parents.ancestors, List.append_nil]

theorem mem_ancestors_merge {older first second : Commit Tree} {tree : Tree} {message : String} :
    older ∈ (first.merge second tree message).ancestors ↔
      older = first.merge second tree message ∨ older ∈ first.ancestors ∨
        older ∈ second.ancestors := by
  rw [merge, ancestors, List.mem_cons, Parents.ancestors, Parents.ancestors, Parents.ancestors,
    List.append_nil, List.mem_append]

end Commit

mutual

/-- What an ancestor reaches is reached. -/
theorem Commit.mem_ancestors_trans {oldest older : Commit Tree}
    (first : oldest ∈ older.ancestors) (commit : Commit Tree) (second : older ∈ commit.ancestors) :
    oldest ∈ commit.ancestors := by
  cases commit with
  | mk tree message parents =>
      rcases List.mem_cons.mp second with rfl | later
      · exact first
      · exact List.mem_cons_of_mem _ (Parents.mem_ancestors_trans first parents later)

theorem Parents.mem_ancestors_trans {oldest older : Commit Tree}
    (first : oldest ∈ older.ancestors) (parents : Parents Tree)
    (second : older ∈ parents.ancestors) : oldest ∈ parents.ancestors := by
  cases parents with
  | none => cases second
  | more parent rest =>
      rcases List.mem_append.mp second with here | later
      · exact List.mem_append_left _ (Commit.mem_ancestors_trans first parent here)
      · exact List.mem_append_right _ (Parents.mem_ancestors_trans first rest later)

end

end Orchestrator.Git

namespace Orchestrator.Git

open Orchestrator.Foundation

/-! ## The state of a clone, and what it would commit -/

/-- A clone: its HEAD, its index and its files, and what git is configured to ignore and to run. -/
structure Clone (Entry : Type) where
  head : Commit (Dict Entry)
  index : Dict Entry
  files : Dict Entry
  ignored : String → Bool
  tasksIgnored : Bool
  programs : List String

/-- The directories that a commit leaves out: the task tree, and a declared private report. -/
structure Exclusions where
  tasksDir : String
  reportDir : Option String := none

/-- A record of `git status --porcelain -z`: the codes against HEAD and against the index. -/
structure StatusRecord where
  code : Char × Char
  path : String
  deriving DecidableEq

/-- `_under_declared_dir`. -/
def underDeclaredDir (path : String) : Option String → Bool
  | none => false
  | some declared =>
      let normalized := Text.stripWhere (· = '/') (Text.replace path '\\' '/')
      let base := Text.stripWhere (· = '/') (Text.replace declared '\\' '/')
      normalized = base || Text.startsWith normalized (base ++ "/") ||
        Text.startsWith base (normalized ++ "/")

/-- The path is the listed one, or lies below the listed directory. -/
def listedBy (entry path : String) : Bool :=
  path = entry || Text.endsWith entry "/" && Text.startsWith path entry

/-- A pathspec matches its path and what is below it. -/
def matchesPathspec (entry path : String) : Bool :=
  listedBy entry path || Text.startsWith path (entry ++ "/")

/-- The directories above a path, the outermost first, each with its slash. -/
def directoriesAbove (path : String) : List String :=
  (path.toList.inits.filter fun start => start.getLast? = some '/').map String.ofList

section Listings

variable {Entry : Type} [DecidableEq Entry]

namespace Clone

variable (detectRenames : RenameDetection Entry) (clone : Clone Entry)

/-- What git sees at a path: a file that it tracks or does not ignore. -/
def visible (path : String) : Option Entry :=
  if path ∈ clone.index ∨ clone.ignored path = false then clone.files.lookup path else none

def untracked : List String :=
  clone.files.keys.filter fun path => path ∉ clone.index ∧ clone.ignored path = false

/-- The paths that HEAD and the index do not agree on. -/
def staged : List String :=
  (clone.head.tree.keys ++ clone.index.keys).dedup.filter fun path =>
    clone.head.tree.lookup path ≠ clone.index.lookup path

/-- The renames from HEAD to the index. -/
def stagedRenames : List (String × String) :=
  detectRenames
    (entriesAt (clone.head.tree.lookup ·) (clone.staged.filter fun path => path ∉ clone.index))
    (entriesAt (clone.index.lookup ·) (clone.staged.filter fun path => path ∉ clone.head.tree))

/-- The path is the old end of a rename, which has no record of its own. -/
def renamedAway (path : String) : Bool :=
  path ∈ clone.staged && path ∉ clone.index &&
    (clone.stagedRenames detectRenames).any fun rename => rename.1 = path

def stagedCode (path : String) : Char :=
  if (clone.stagedRenames detectRenames).any fun rename => rename.2 = path then 'R'
  else
    match clone.head.tree.lookup path, clone.index.lookup path with
    | none, none => ' '
    | none, some _ => 'A'
    | some _, none => 'D'
    | some old, some new => if old = new then ' ' else 'M'

def unstagedCode (path : String) : Char :=
  match clone.index.lookup path, clone.files.lookup path with
  | none, _ => ' '
  | some _, none => 'D'
  | some old, some new => if old = new then ' ' else 'M'

/-- The paths of HEAD and the index, in order. -/
def known : List String := Text.sorted (clone.head.tree.keys ++ clone.index.keys).dedup

/-- The records of what HEAD or the index holds. -/
def trackedRecords : List StatusRecord :=
  clone.known.filterMap fun path =>
    let code := (clone.stagedCode detectRenames path, clone.unstagedCode path)
    if clone.renamedAway detectRenames path ∨ code = (' ', ' ') then none else some ⟨code, path⟩

/-- The entry that lists an untracked file: a directory that holds no tracked file, or itself. -/
def untrackedEntry (path : String) : String :=
  ((directoriesAbove path).find? fun directory =>
    clone.index.keys.all fun tracked => !Text.startsWith tracked directory).getD path

def untrackedRecords : List StatusRecord :=
  (Text.sorted (clone.untracked.map clone.untrackedEntry).dedup).map fun path =>
    ⟨('?', '?'), path⟩

/-- `git status --porcelain -z`, read by `_parse_porcelain_status_z`. -/
def status : List StatusRecord := clone.trackedRecords detectRenames ++ clone.untrackedRecords

/-- `changed_code_paths`. -/
def changedCodePaths (exclusions : Exclusions) : List String :=
  ((clone.status detectRenames).filter fun record =>
    !(isArtifactPath exclusions.tasksDir record.path ||
      underDeclaredDir record.path exclusions.reportDir)).map StatusRecord.path

/-- `_fully_staged_deletions`. -/
def fullyStagedDeletions (tasksDir : String) : List String :=
  ((clone.status detectRenames).filter fun record =>
    record.code = ('D', ' ') && !isArtifactPath tasksDir record.path).map StatusRecord.path

/-! ## Staging -/

/-- The paths that `git add` considers. -/
def candidates : List String :=
  (clone.index.keys ++ clone.files.keys).filter fun path =>
    path ∈ clone.index ∨ clone.ignored path = false

/-- `git add -- entries`: each entry has to match; what is under an excluded directory is left. -/
def add (entries : List String) (excluded : Option String) : Option (Dict Entry) :=
  if entries.all fun entry => clone.candidates.any fun path => matchesPathspec entry path then
    let taken (path : String) : Bool :=
      path ∈ clone.candidates && (entries.any fun entry => matchesPathspec entry path) &&
        !excluded.any fun directory => Text.startsWith path directory
    some (Dict.ofList (entriesAt
      (fun path => if taken path then clone.files.lookup path else clone.index.lookup path)
      (clone.index.keys ++ clone.files.keys).dedup))
  else none

end Clone

end Listings

end Orchestrator.Git

/-! ## The code commits of a task

Each commit is recorded under its kind and subtask, and a recorded one is not made again. A
call keeps what it finds unless its operation was recorded and the tree changed since.
-/

namespace Orchestrator.Git

open Orchestrator.Foundation
open Orchestrator.Foundation.Steps (current raise ofExcept perform)

/-- The kinds of code commit. -/
inductive CommitKind where
  | code
  | subtask
  deriving DecidableEq

abbrev OperationKey := CommitKind × Option Nat

inductive OperationStatus where
  | started
  | completed
  deriving DecidableEq

/-- A row of `publish_operations`. -/
structure PublishOperation (Entry : Type) where
  status : OperationStatus
  resultRef : Option (Commit (Dict Entry)) := none

/-- A clone, the records of its task, and what the base of the task resolves to. -/
structure TaskState (Entry : Type) where
  clone : Clone Entry
  operations : OperationKey → Option (PublishOperation Entry)
  gate : Option (Commit (Dict Entry))
  diffBase : Option (Commit (Dict Entry))

/-- Why a commit is refused. -/
inductive CommitError where
  | untrustedFilters
  | pathspecUnmatched
  | runtimeArtifactStaged
  | stagedOutsideAllowlist
  | nothingToCommit

namespace TaskState

variable {Entry : Type}

/-- `gate_reference`, resolved. -/
def gateReference (state : TaskState Entry) : Option (Commit (Dict Entry)) :=
  state.gate.or state.diffBase

/-- `record_publish_op`. -/
def record (key : OperationKey) (operation : PublishOperation Entry)
    (state : TaskState Entry) : TaskState Entry :=
  { state with operations := fun other => if other = key then some operation
      else state.operations other }

/-- `_advance_gate_reference`: both kinds carry code. -/
def advanceGate (commit : Commit (Dict Entry)) (state : TaskState Entry) : TaskState Entry :=
  { state with gate := some commit }

def setIndex (index : Dict Entry) (state : TaskState Entry) : TaskState Entry :=
  { state with clone := { state.clone with index := index } }

def setHead (commit : Commit (Dict Entry)) (state : TaskState Entry) : TaskState Entry :=
  { state with clone := { state.clone with head := commit } }

end TaskState

/-- The runtime homes. -/
def runtimeExcludedDirs : List String := [".worc", ".worc-io"]

def underDir (directory path : String) : Bool :=
  path = directory || Text.startsWith path (directory ++ "/")

section Operations

variable {Entry : Type} [DecidableEq Entry] (detectRenames : RenameDetection Entry)
  (exclusions : Exclusions)

/-- `assert_exchange_never_staged`. -/
def exchangeNeverStaged (clone : Clone Entry) : Bool :=
  (clone.index.keys.all fun path => !underDir ".worc-io" path) &&
    clone.staged.all fun path => !runtimeExcludedDirs.any fun directory => underDir directory path

/-- `_within_allowlist`. -/
def withinAllowlist (allowed : List String) (path : String) : Bool :=
  allowed.any fun entry => listedBy entry path

/-- `assert_staged_allowed` with an allowlist, over the staged changes with renames detected. -/
def assertStagedAllowed (allowed : List String) (clone : Clone Entry) : Except CommitError Unit :=
  if exchangeNeverStaged clone then
    let shown := clone.staged.filter fun path => !clone.renamedAway detectRenames path
    let sources := (clone.stagedRenames detectRenames).map Prod.fst
    if (shown.all (withinAllowlist allowed)) && sources.all fun source =>
        !isArtifactPath exclusions.tasksDir source || withinAllowlist allowed source
    then .ok () else .error .stagedOutsideAllowlist
  else .error .runtimeArtifactStaged

/-- `staged_pathspec`: the entries to add, and the directory excluded beside them. -/
def stagedPathspec (clone : Clone Entry) (paths : List String) : List String × Option String :=
  let deletions := clone.fullyStagedDeletions detectRenames exclusions.tasksDir
  (paths.filter fun path => path ∉ deletions,
    if clone.tasksIgnored then none else some (exclusions.tasksDir ++ "/"))

/-- The index of a clone once the paths are added to it. -/
def addPaths (clone : Clone Entry) (paths : List String) : Except CommitError (Dict Entry) :=
  let (positive, excluded) := stagedPathspec detectRenames exclusions clone paths
  if positive = [] then .ok clone.index
  else
    match clone.add positive excluded with
    | some index => .ok index
    | none => .error .pathspecUnmatched

/-- `git commit -m`: of the whole index, which has to differ from HEAD. -/
def gitCommit (message : String) (clone : Clone Entry) :
    Except CommitError (Commit (Dict Entry)) :=
  if clone.staged = [] then .error .nothingToCommit
  else .ok (clone.head.child clone.index message)

/-- `_commit`, of an operation that is not recorded as completed. -/
def makeCommit (key : OperationKey) (message : String) (paths : List String) :
    Steps (TaskState Entry) CommitError (Option (Commit (Dict Entry))) := do
  perform (TaskState.record key { status := .started })
  let state ← current
  if paths = [] then return none
  else if state.clone.programs ≠ [] then raise .untrustedFilters
  else do
    let index ← ofExcept (addPaths detectRenames exclusions state.clone paths)
    perform (TaskState.setIndex index)
    let staged ← current
    ofExcept (assertStagedAllowed detectRenames exclusions paths staged.clone)
    let made ← ofExcept (gitCommit message staged.clone)
    perform (TaskState.setHead made)
    perform (TaskState.record key { status := .completed, resultRef := some made })
    perform (TaskState.advanceGate made)
    return some made

/-- `_commit`. -/
def commit (key : OperationKey) (message : String) (paths : List String) :
    Steps (TaskState Entry) CommitError (Option (Commit (Dict Entry))) := do
  let state ← current
  match state.operations key with
  | some { status := .completed, resultRef } => return resultRef
  | _ => makeCommit detectRenames exclusions key message paths

/-- `_adopt_committed_head`. -/
def adoptCommittedHead (key : OperationKey) :
    Steps (TaskState Entry) CommitError (Option (Commit (Dict Entry))) := do
  let state ← current
  match state.gateReference with
  | none => return some state.clone.head
  | some reference =>
      if state.clone.head = reference then return some state.clone.head
      else do
        perform (TaskState.record key { status := .completed, resultRef := some state.clone.head })
        perform (TaskState.advanceGate state.clone.head)
        return some state.clone.head

/-- `commit_code`. -/
def commitCode (message : String) :
    Steps (TaskState Entry) CommitError (Option (Commit (Dict Entry))) := do
  let state ← current
  if state.clone.changedCodePaths detectRenames exclusions = [] then
    adoptCommittedHead (.code, none)
  else
    commit detectRenames exclusions (.code, none) message
      (state.clone.changedCodePaths detectRenames exclusions)

/-- `commit_subtask`. -/
def commitSubtask (order : Nat) (message : String) :
    Steps (TaskState Entry) CommitError (Option (Commit (Dict Entry))) := do
  let state ← current
  let made ← commit detectRenames exclusions (.subtask, some order) message
    (state.clone.changedCodePaths detectRenames exclusions)
  match made with
  | some made => return some made
  | none => adoptCommittedHead (.subtask, some order)

/-- A call of one of the two. -/
inductive Call where
  | code (message : String)
  | subtask (order : Nat) (message : String)

def Call.key : Call → OperationKey
  | .code _ => (.code, none)
  | .subtask order _ => (.subtask, some order)

def Call.program : Call → Steps (TaskState Entry) CommitError (Option (Commit (Dict Entry)))
  | .code message => commitCode detectRenames exclusions message
  | .subtask order message => commitSubtask detectRenames exclusions order message

end Operations

end Orchestrator.Git
