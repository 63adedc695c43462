import Orchestrator.Foundation.Transitions
import Orchestrator.Git.Status

/-! # Pushing a task branch

What origin holds decides how a branch goes out: nothing to send, an ordinary push, a forced
one under a lease on the recorded commit, or a merge first. Others push to origin at any time.
-/

namespace Orchestrator.Git

open Orchestrator.Foundation

variable {Tree : Type}

/-- The row of the push operation. -/
structure PushRow (Tree : Type) where
  completed : Bool
  pushedSha : Option (Commit Tree)
  deriving DecidableEq

/-- How a branch goes out. -/
inductive PushPlan (Tree : Type) where
  | skip (sha : Commit Tree)
  | plain
  | lease (sha : Commit Tree)
  | adopt

/-- Where a call of `push` or `adopt_foreign_commits` is. -/
inductive PushPhase (Tree : Type) where
  | idle
  | probed (remoteSha : Option (Commit Tree)) (publishing : Bool)
  | adopting (publishing : Bool)
  | merged (publishing : Bool)
  | sending (lease : Option (Commit Tree))
  | sent
  deriving DecidableEq

/-- The task branch here and on origin, the records of the task, and the commits that others have
put on origin's branch. -/
structure BranchState (Tree : Type) where
  branch : Option (Commit Tree)
  origin : Option (Commit Tree)
  tracking : Option (Commit Tree)
  row : Option (PushRow Tree)
  mergeRecorded : Bool
  foreign : List (Commit Tree)
  phase : PushPhase Tree
  deriving DecidableEq

/-- What an event brings from outside the orchestrator's records. -/
inductive PushEvent (Tree : Type) where
  | commit (tree : Tree) (message : String)
  | rewrite (branch : Option (Commit Tree))
  | foreignPush (origin : Option (Commit Tree))
  | rerun
  | probe (answered publishing : Bool)
  | decide
  | merge (fetched conflicts : Bool) (tree : Tree) (message : String)
  | recordMerge
  | send
  | record
  | stop
  deriving DecidableEq

section Functions

variable [DecidableEq Tree]

/-- `_recorded_push_sha_for`. -/
def recordedPushSha (row : Option (PushRow Tree)) : Option (Commit Tree) :=
  row.bind PushRow.pushedSha

/-- `_already_published`. -/
def alreadyPublished (row : Option (PushRow Tree)) (branch : Option (Commit Tree)) : Bool :=
  match row with
  | none => false
  | some row => row.completed && (row.pushedSha = none || row.pushedSha = branch)

/-- The four cases of `push`. -/
def pushPlan (recorded localSha remoteSha : Option (Commit Tree)) : PushPlan Tree :=
  match remoteSha, localSha with
  | some remote, some here =>
      if remote = here then .skip remote
      else if remote.isAncestor here then .plain
      else if recorded = some remote then .lease remote
      else .adopt
  | _, _ => .plain

/-- What `git merge --no-commit` of the tracking ref comes to. -/
inductive MergeStart (Tree : Type) where
  | upToDate
  | fastForward (sha : Commit Tree)
  | inProgress (theirs : Commit Tree)

/-- The start of a merge: none when it fails or conflicts, and is aborted. -/
def startMerge (here : Commit Tree) (tracking : Option (Commit Tree)) (conflicts : Bool) :
    Option (MergeStart Tree) :=
  match tracking with
  | none => none
  | some theirs =>
      if theirs.isAncestor here then some .upToDate
      else if here.isAncestor theirs then some (.fastForward theirs)
      else if conflicts then none
      else some (.inProgress theirs)

/-- `_adopt_remote_commits`: the branch after it; a merge that needs a commit is refused when the
task has recorded one. -/
def adoptRemoteCommits (here : Commit Tree) (tracking : Option (Commit Tree))
    (mergeRecorded conflicts : Bool) (tree : Tree) (message : String) :
    Option (Commit Tree × Bool) :=
  match startMerge here tracking conflicts with
  | none => none
  | some .upToDate => some (here, false)
  | some (.fastForward theirs) => some (theirs, false)
  | some (.inProgress theirs) =>
      if mergeRecorded then none else some (here.merge theirs tree message, true)

/-- What origin holds after `git push`: an ordinary push has to be a fast-forward, a leased one has
to find the commit of the lease. -/
def gitPush (lease origin : Option (Commit Tree)) (here : Commit Tree) : Option (Commit Tree) :=
  match lease, origin with
  | none, none => some here
  | none, some remote => if remote.isAncestor here then some here else none
  | some expected, remote => if remote = some expected then some here else none

/-- The commits that a push by others puts on origin's branch. -/
def putByOthers (before after : Option (Commit Tree)) : List (Commit Tree) :=
  match before, after with
  | _, none => []
  | none, some new => new.ancestors
  | some old, some new => new.ancestors.filter fun commit => !commit.isAncestor old

/-- A ref reaches a commit. -/
def reaches (ref : Option (Commit Tree)) (commit : Commit Tree) : Bool :=
  match ref with
  | none => false
  | some tip => commit.isAncestor tip

namespace BranchState

/-- What follows an adoption: `push` marks its operation and sends. -/
def afterAdoption (publishing : Bool) (state : BranchState Tree) : BranchState Tree :=
  if publishing then
    { state with row := some ⟨false, recordedPushSha state.row⟩, phase := .sending none }
  else { state with phase := .idle }

/-- The decision of a call that has probed origin; `adopt_foreign_commits` only adopts. -/
def decide (remoteSha : Option (Commit Tree)) (publishing : Bool) (state : BranchState Tree) :
    BranchState Tree :=
  let started : PushRow Tree := ⟨false, recordedPushSha state.row⟩
  match pushPlan (recordedPushSha state.row) state.branch remoteSha with
  | .adopt => { state with phase := .adopting publishing }
  | .skip sha =>
      if publishing then { state with row := some ⟨true, some sha⟩, phase := .idle }
      else { state with phase := .idle }
  | .plain =>
      if publishing then { state with row := some started, phase := .sending none }
      else { state with phase := .idle }
  | .lease sha =>
      if publishing then { state with row := some started, phase := .sending (some sha) }
      else { state with phase := .idle }

/-- The fetch and the merge of an adoption. -/
def merge (publishing fetched conflicts : Bool) (tree : Tree) (message : String)
    (state : BranchState Tree) : BranchState Tree :=
  let tracking := if fetched then state.origin else state.tracking
  match state.branch with
  | none => { state with tracking := tracking, phase := .idle }
  | some here =>
      match adoptRemoteCommits here tracking state.mergeRecorded conflicts tree message with
      | none => { state with tracking := tracking, phase := .idle }
      | some (branch, made) =>
          let adopted := { state with branch := some branch, tracking := tracking }
          if made then { adopted with phase := .merged publishing }
          else adopted.afterAdoption publishing

/-- The push itself, which origin may refuse. -/
def send (lease : Option (Commit Tree)) (state : BranchState Tree) : BranchState Tree :=
  match state.branch.bind (gitPush lease state.origin) with
  | none => { state with phase := .idle }
  | some sha => { state with origin := some sha, phase := .sent }

/-- What an event does, in the phases that it can come in. The branch changes only between calls;
others push, and a call stops, at any time. -/
def step (event : PushEvent Tree) (state : BranchState Tree) : Option (BranchState Tree) :=
  match event, state.phase with
  | .foreignPush origin, _ =>
      some { state with
        origin := origin
        foreign := state.foreign ++ putByOthers state.origin origin }
  | .stop, _ => some { state with phase := .idle }
  | .commit tree message, .idle =>
      state.branch.map fun here => { state with branch := some (here.child tree message) }
  | .rewrite branch, .idle => some { state with branch := branch }
  | .rerun, .idle => some { state with row := none, mergeRecorded := false }
  | .probe answered publishing, .idle =>
      if alreadyPublished state.row state.branch then none
      else some { state with
        phase := .probed (if answered then state.origin else none) publishing }
  | .decide, .probed remoteSha publishing => some (state.decide remoteSha publishing)
  | .merge fetched conflicts tree message, .adopting publishing =>
      some (state.merge publishing fetched conflicts tree message)
  | .recordMerge, .merged publishing =>
      some ({ state with mergeRecorded := true }.afterAdoption publishing)
  | .send, .sending lease => some (state.send lease)
  | .record, .sent => some { state with row := some ⟨true, state.branch⟩, phase := .idle }
  | _, _ => none

/-- The branch has every commit of others that the recorded push reaches. -/
def HoldsForeign (state : BranchState Tree) : Prop :=
  ∀ commit ∈ state.foreign, reaches (recordedPushSha state.row) commit = true →
    state.branch ≠ none → reaches state.branch commit = true

instance : DecidablePred (@HoldsForeign Tree _) := fun state =>
  inferInstanceAs (Decidable (∀ commit ∈ state.foreign,
    reaches (recordedPushSha state.row) commit = true →
      state.branch ≠ none → reaches state.branch commit = true))

end BranchState

/-- No commit of others becomes unreachable from origin's branch. -/
def Preserves (transition : Transition (BranchState Tree) (PushEvent Tree)) : Prop :=
  ∀ commit ∈ transition.before.foreign, reaches transition.before.origin commit = true →
    reaches transition.after.origin commit = true

instance : DecidablePred (@Preserves Tree _) := fun transition =>
  inferInstanceAs (Decidable (∀ commit ∈ transition.before.foreign,
    reaches transition.before.origin commit = true →
      reaches transition.after.origin commit = true))

/-- The events that may change the branch. -/
def PushEvent.movesBranch : PushEvent Tree → Bool
  | .commit .. => true
  | .rewrite _ => true
  | .merge .. => true
  | _ => false

/-- The events that the orchestrator has no part in. -/
def PushEvent.isOutside : PushEvent Tree → Bool
  | .rewrite _ => true
  | .foreignPush _ => true
  | _ => false

/-- A rewrite of the branch, or a push by others, leaves in the branch every commit of others that
the recorded push reaches. -/
def KeepsForeign (transition : Transition (BranchState Tree) (PushEvent Tree)) : Prop :=
  transition.event.isOutside = true → transition.after.HoldsForeign

instance : DecidablePred (@KeepsForeign Tree _) := fun transition =>
  inferInstanceAs (Decidable (transition.event.isOutside = true → transition.after.HoldsForeign))

end Functions

end Orchestrator.Git
