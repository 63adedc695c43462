import Orchestrator.Decomposition.Plan

/-! # The fan-out over subtasks, effect by effect

Each subtask's region runs and is committed before the next one. What outlives the process is
written in separate steps, a crash may fall between any two of them, and a resume goes on from what
they wrote.
-/

namespace Orchestrator.Decomposition

open Orchestrator.Flow

/-- The orders of a split's subtasks. -/
def DecompositionDecision.orders (decision : DecompositionDecision) : List Nat :=
  decision.subtasks.map SubtaskSpec.order

/-- A commit of the task branch: the subtask that it was made for, and the changes in it. -/
structure BranchCommit where
  sha : String
  subtask : Option Nat
  changes : List String

/-- A row of `publish_operations` for a subtask's commit. -/
inductive CommitOperation where
  | started
  | completed (resultRef : String)

/-- How far a subtask has come: its region, the checkpoint after it, and the steps of its commit. -/
inductive Progress where
  | region
  | leaving
  | committing
  | started
  | committed (sha : String)
  | completed (sha : String)
  | returned (sha : String)
  | indexed (sha : String)
  | marked
  | counted
  | refreshed

/-- Where the fan-out is: about to take the next of the remaining subtasks, at one of them, or at
the nodes after the region. -/
inductive Stage where
  | selecting (remaining : List Nat)
  | unit (order : Nat) (rest : List Nat) (progress : Progress)
  | post

inductive FanOutProcess where
  | running (runState : FlowRunState) (stage : Stage)
  | crashed
  | parked
  | ended

/-- What the fan-out has written, the latest commit first, and its process. What a region left in
the tree at its end, and the counters that the first uncommitted subtask starts with where nothing
interrupts the fan-out, are kept for reference only. -/
structure FanOutState where
  branch : List BranchCommit
  tree : List String
  operation : Nat → Option CommitOperation := fun _ => none
  gateReference : String
  subtaskIndex : Nat → Option String := fun _ => none
  commitSha : Nat → Option String := fun _ => none
  subtasksCompleted : Nat := 0
  activeSubtask : Nat := 1
  checkpoint : FlowRunState
  process : FanOutProcess
  work : Nat → List String := fun _ => []
  nextStart : FlowRunState

inductive FanOutEvent where
  /-- The next step of the fan-out, with the id of a commit that it makes. -/
  | advance (sha : String)
  /-- A node changes the tree. -/
  | edit (tree : List String)
  /-- The engine goes on to a node, with its counters. -/
  | charge (runState : FlowRunState)
  /-- The phase is done, or it is not. -/
  | finish
  | fail
  | crash
  | resume

namespace FanOutState

variable (orders : List Nat) (regionEntry postEntry : String)

def isLast (order : Nat) : Bool := orders.getLast? = some order

/-- The fan-out of a new split, on a branch without commits of its subtasks. -/
def begin (branch : List BranchCommit) (tree : List String) (gateReference : String)
    (runState : FlowRunState) : FanOutState where
  branch := branch
  tree := tree
  gateReference := gateReference
  checkpoint := runState
  process := .running runState (.selecting orders)
  nextStart := runState

variable (state : FanOutState)

/-- The commit at `HEAD`. -/
def head : String := (state.branch.head?.map BranchCommit.sha).getD ""

def goTo (runState : FlowRunState) (stage : Stage) : FanOutState :=
  { state with process := .running runState stage }

/-- `save_checkpoint`, with the node that is next. -/
def saveCheckpoint (runState : FlowRunState) (node : String) : FanOutState :=
  { state with checkpoint := runState.setCurrentNode node }

/-- The counters that the next subtask starts with, after a subtask has ended with some. -/
def startAfter (order : Nat) (runState : FlowRunState) : FlowRunState :=
  if isLast orders order then runState else runState.resetConsecutiveFixBudget

/-- The start of `_commit`: a completed operation is not done again. -/
def startCommit (order : Nat) : FanOutState × Progress :=
  match state.operation order with
  | some (.completed sha) => (state, .returned sha)
  | _ => ({ state with operation := Function.update state.operation order (some .started) },
      .started)

/-- The commit of what has changed or, where nothing has, the commit at `HEAD`: it is recorded if it
is not the one that the gate measures from. -/
def makeCommit (order : Nat) (sha : String) : FanOutState × Progress :=
  if state.tree = [] then
    if state.head = state.gateReference then (state, .returned state.head)
    else ({ state with
      operation := Function.update state.operation order (some (.completed state.head)) },
      .completed state.head)
  else ({ state with branch := ⟨sha, some order, state.tree⟩ :: state.branch, tree := [] },
    .committed sha)

/-- One step of a subtask after its region. -/
def advanceUnit (order : Nat) (rest : List Nat) (runState : FlowRunState) (sha : String) :
    Progress → Option FanOutState
  | .region => none
  | .leaving =>
      let saved := if isLast orders order then state else state.saveCheckpoint runState regionEntry
      some (saved.goTo runState (.unit order rest .committing))
  | .committing =>
      let (state, progress) := state.startCommit order
      some (state.goTo runState (.unit order rest progress))
  | .started =>
      let (state, progress) := state.makeCommit order sha
      some (state.goTo runState (.unit order rest progress))
  | .committed sha =>
      let recorded := { state with
        operation := Function.update state.operation order (some (.completed sha)) }
      some (recorded.goTo runState (.unit order rest (.completed sha)))
  | .completed sha =>
      some ({ state with gateReference := sha }.goTo runState (.unit order rest (.returned sha)))
  | .returned sha =>
      let indexed := { state with
        subtaskIndex := Function.update state.subtaskIndex order (some sha) }
      some (indexed.goTo runState (.unit order rest (.indexed sha)))
  | .indexed sha =>
      let marked := { state with
        commitSha := Function.update state.commitSha order (some sha)
        nextStart := startAfter orders order runState }
      some (marked.goTo runState (.unit order rest .marked))
  | .marked =>
      some ({ state with subtasksCompleted := order }.goTo runState (.unit order rest .counted))
  | .counted =>
      if isLast orders order then some (state.goTo runState (.selecting rest))
      else some (state.goTo runState.resetConsecutiveFixBudget (.unit order rest .refreshed))
  | .refreshed =>
      some ({ state with activeSubtask := order + 1 }.goTo runState (.selecting rest))

/-- The next step of `_fan_out_subtasks`. A new commit's id is not that of another. -/
def advance (runState : FlowRunState) (sha : String) : Stage → Option FanOutState
  | .selecting [] =>
      some ((state.saveCheckpoint runState postEntry).goTo runState .post)
  | .selecting (order :: rest) =>
      some ((state.saveCheckpoint runState regionEntry).goTo runState (.unit order rest .region))
  | .unit order rest progress =>
      if sha ∈ state.branch.map BranchCommit.sha then none
      else state.advanceUnit orders regionEntry order rest runState sha progress
  | .post => none

/-- The orders without a commit in their row. -/
def uncommitted : List Nat := orders.filter fun order => state.commitSha order = none

/-- `reconcile_decomposed`: each recorded commit is on the branch, and no more are recorded than
counted. -/
def reconcileDecomposed : Bool :=
  (orders.all fun order =>
    (state.commitSha order).all fun sha => sha ∈ state.branch.map BranchCommit.sha) &&
  (orders.filter fun order => state.commitSha order ≠ none).length ≤ state.subtasksCompleted

def step : FanOutEvent → FanOutState → Option FanOutState
  | .advance sha, state =>
      match state.process with
      | .running runState stage => state.advance orders regionEntry postEntry runState sha stage
      | _ => none
  | .edit tree, state =>
      match state.process with
      | .running _ (.unit _ _ .region) => some { state with tree }
      | .running _ .post => some { state with tree }
      | _ => none
  | .charge runState, state =>
      match state.process with
      | .running _ (.unit order rest .region) =>
          some ({ state with checkpoint := runState }.goTo runState (.unit order rest .region))
      | .running _ .post => some ({ state with checkpoint := runState }.goTo runState .post)
      | _ => none
  | .finish, state =>
      match state.process with
      | .running runState (.unit order rest .region) =>
          some ({ state with work := Function.update state.work order state.tree }.goTo runState
            (.unit order rest .leaving))
      | .running _ .post => some { state with process := .ended }
      | _ => none
  | .fail, state =>
      match state.process with
      | .running _ (.unit _ _ .region) => some { state with process := .ended }
      | .running _ .post => some { state with process := .ended }
      | _ => none
  | .crash, state =>
      match state.process with
      | .running _ _ => some { state with process := .crashed }
      | _ => none
  | .resume, state =>
      match state.process with
      | .crashed =>
          if state.reconcileDecomposed orders then
            some (state.goTo state.checkpoint (.selecting (state.uncommitted orders)))
          else some { state with process := .parked }
      | _ => none

end FanOutState

end Orchestrator.Decomposition
