import Orchestrator.Store.Ledger
import Orchestrator.Store.Tables

/-! # Merge-gated dependencies

Whether a pending task may run, waits or is rejected, resolved from the store, the ledger, the
pull requests and the graph of the pending tasks. The only writes are the audit operations of an
observed merge.
-/

namespace Orchestrator.Scheduling

open Orchestrator.Foundation
open Orchestrator.Store (Database Ledger LedgerRecord)

/-- The readiness of a pending task. -/
inductive Eligibility where
  | eligible
  | waiting
  | broken
  deriving DecidableEq

structure DependencyVerdict where
  state : Eligibility
  detail : String := ""

/-- A pull request, as `gh pr view` shows it. -/
structure PullRequest where
  state : String
  mergeCommit : Option String := none

/-- The pull requests by address, and the addresses that `gh` gets an answer for. -/
structure GitHub where
  pulls : String → Option PullRequest := fun _ => none
  answers : String → Bool := fun _ => true

/-- What a dependency is resolved from, with the tasks whose commits were made on the base
branch. -/
structure World where
  database : Database := {}
  ledger : Ledger := []
  github : GitHub := {}
  base : List String := []

/-- The pending tasks with the dependencies that they name. -/
abbrev Pending := Dict (List String)

/-! ## Git manager -/

def kindPr : String := "pr"

def kindPrMerge : String := "pr_merge"

def statusCompleted : String := "completed"

/-- `pr_merge_state`: the state and the merge commit of a pull request; an empty text is none. -/
def GitHub.prMergeState (github : GitHub) (prUrl : String) : Option String × Option String :=
  if github.answers prUrl then
    match github.pulls prUrl with
    | some pull => (Store.textOf (some pull.state), Store.textOf pull.mergeCommit)
    | none => (none, none)
  else (none, none)

section GitManager

variable (database : Database) (taskId : String)

def recordedPrUrl : Option String :=
  (database.getPublishOp taskId kindPr none).bind fun existing =>
    if existing.status = statusCompleted then existing.resultRef else none

def recordCompleted (kind fingerprint resultRef : String) : Database :=
  database.recordPublishOp
    { taskId, kind, fingerprint, resultRef := some resultRef, status := statusCompleted }

def recordExternalMerge (prUrl : String) : Database :=
  if (database.getPublishOp taskId kindPrMerge none).any fun row => row.status = statusCompleted
  then database
  else recordCompleted database taskId kindPrMerge prUrl "merged"

def backfillMergeSha (sha : String) : Database :=
  match database.getPublishOp taskId kindPrMerge none with
  | some existing =>
      if sha = "" ∨ existing.status ≠ statusCompleted ∨ existing.resultRef = some sha then database
      else recordCompleted database taskId kindPrMerge existing.fingerprint sha
  | none => database

end GitManager

/-! ## The pending graph -/

/-- The dependencies of a pending task that are pending themselves. -/
def Pending.next (pending : Pending) (taskId : String) : List String :=
  (pending.get taskId []).filter fun dep => dep ∈ pending

/-- The edges of the pending graph. -/
def Pending.graph (pending : Pending) : SuccessorGraph String where
  next := pending.next
  sources := pending.keys
  next_eq_nil := by
    intro taskId absent
    have unlisted : pending.lookup taskId = none :=
      AList.lookup_eq_none.mpr fun present => absent (AList.mem_keys.mp present)
    rw [Pending.next, Dict.get, unlisted]
    rfl

/-- The loop of `_in_cycle`. -/
def inCycleLoop (next : String → List String) (start : String) :
    Nat → List String → List String → Bool
  | 0, _, _ => false
  | _ + 1, [], _ => false
  | fuel + 1, node :: stack, seen =>
      if node = start then true
      else if node ∈ seen then inCycleLoop next start fuel stack seen
      else inCycleLoop next start fuel ((next node).reverse ++ stack) (node :: seen)

/-- `_in_cycle`: the last entry of the stack comes first. -/
def inCycle (start : String) (pending : Pending) : Bool :=
  let stack := (pending.next start).reverse
  inCycleLoop pending.next start (pending.graph.searchFuel stack) stack []

/-! ## One dependency -/

/-- `" ".join(text.lower().split())`. -/
def normalizedTitle (title : String) : List String :=
  ((Text.lower title).toList.splitOnP Text.isSpace).filterMap fun word =>
    if word.isEmpty then none else some (String.ofList word)

/-- `_replacement_hint`. -/
def replacementHint (ledger : Ledger) (dep : String) (title : Option String) : String :=
  match Store.textOf title with
  | none => ""
  | some title =>
      let done (record : LedgerRecord) : Bool :=
        record.id ≠ dep && record.finalStatus = Flow.Status.done.value &&
          normalizedTitle record.title = normalizedTitle title
      match ledger.find? done with
      | some record =>
          s!" — '{dep}' looks abandoned; did you mean '{record.id}' (same title, done)?"
      | none => ""

section Resolution

variable (world : World) (database : Database) (dep : String)

/-- `_dependency_merged`, with the audit operations of a merge that it observes. -/
def dependencyMerged : DependencyVerdict × Database :=
  match recordedPrUrl database dep with
  | none => ({ state := .eligible }, database)
  | some prUrl =>
      match world.github.prMergeState prUrl with
      | (some "MERGED", sha) =>
          let merged := recordExternalMerge database dep prUrl
          ({ state := .eligible }, (sha.map (backfillMergeSha merged dep)).getD merged)
      | (none, _) => (⟨.waiting, s!"dependency '{dep}' merge state unconfirmable"⟩, database)
      | (some state, _) => (⟨.waiting, s!"dependency '{dep}' PR is {state} (unmerged)"⟩, database)

/-- `_resolve_dependency`. -/
def resolveDependency (pending : Pending) : DependencyVerdict × Database :=
  match database.tasks.lookup dep with
  | some row =>
      match row.status with
      | .done => dependencyMerged world database dep
      | .failed | .manualActionRequired =>
          let hint := replacementHint world.ledger dep (some row.title)
          (⟨.waiting, s!"dependency '{dep}' is {row.status.value} (unmerged){hint}"⟩, database)
      | _ => (⟨.waiting, s!"dependency '{dep}' is in flight ({row.status.value})"⟩, database)
  | none =>
      if dep ∈ pending then
        (⟨.waiting, s!"dependency '{dep}' is pending (not yet run)"⟩, database)
      else if world.ledger.hasTaskId dep then
        let done (record : LedgerRecord) : Bool :=
          record.id = dep && record.finalStatus = Flow.Status.done.value
        if world.ledger.any done then dependencyMerged world database dep
        else
          let named := world.ledger.find? fun record => record.id = dep
          let hint := replacementHint world.ledger dep (named.map LedgerRecord.title)
          (⟨.waiting, s!"dependency '{dep}' terminated unmerged{hint}"⟩, database)
      else (⟨.broken, s!"depends on unknown task '{dep}'"⟩, database)

end Resolution

/-! ## The verdict -/

/-- The loop of `dependency_eligibility`: the first broken dependency decides, else the first that
waits. -/
def resolveAll (world : World) (pending : Pending) :
    DependencyVerdict → Database → List String → DependencyVerdict × Database
  | verdict, database, [] => (verdict, database)
  | verdict, database, dep :: rest =>
      let (found, after) := resolveDependency world database dep pending
      match found.state, verdict.state with
      | .broken, _ => (found, after)
      | .waiting, .eligible => resolveAll world pending found after rest
      | _, _ => resolveAll world pending verdict after rest

/-- `dependency_eligibility`, with the store after it. -/
def dependencyEligibility (world : World) (taskId : String) (dependsOn : List String)
    (pending : Pending) : DependencyVerdict × Database :=
  if dependsOn = [] then ({ state := .eligible }, world.database)
  else if inCycle taskId pending then
    (⟨.broken, s!"dependency cycle involving '{taskId}'"⟩, world.database)
  else resolveAll world pending { state := .eligible } world.database dependsOn

end Orchestrator.Scheduling
