import Orchestrator.Git.Conflicts

/-! # Committing a base merge

`merge-task` merges the base into a task's branch. After a conflict a flow edits the working tree,
and the merge is committed when each conflicted path shows a decision. A path that left the index is
taken as decided, and the leftover markers are looked for in what was staged.
-/

namespace Orchestrator.Git

open Orchestrator.Foundation

/-! ## The gate -/

/-- Why a conflicted path shows no decision. -/
inductive Undecided where
  | outOfBand
  | unreadable
  | identical

def Undecided.reason : Undecided → String
  | outOfBand => "cannot be resolved by editing a file in this working tree"
  | unreadable => "the working tree holds nothing readable at this path"
  | identical => "byte-identical to what the merge left there"

/-- The body of the loop of `_undecided_conflicts`, for a path that is still in the index. -/
def undecidedBetween (entry current : ConflictedPath) : Option Undecided :=
  match entry.shape.evidence with
  | .nothingToDecide => none
  | .outOfBand => some .outOfBand
  | .worktreeBytes =>
      if entry.probe.existing ≠ current.probe.existing then none
      else
        match entry.probe.digest, current.probe.digest with
        | some before, some after => if before = after then some .identical else none
        | _, _ => some .unreadable

/-- `current_by_path.get(path)`: the last entry of a path counts. -/
def currentByPath (after : List ConflictedPath) (path : String) : Option ConflictedPath :=
  after.reverse.find? fun entry => entry.path = path

/-- `_undecided_conflicts`. -/
def undecidedConflicts (before after : List ConflictedPath) : List (ConflictedPath × Undecided) :=
  before.filterMap fun entry =>
    (currentByPath after entry.path).bind fun current =>
      (undecidedBetween entry current).map fun why => (entry, why)

/-- `_UNDECIDED_EVIDENCE_CAP`. -/
def undecidedEvidenceCap : Nat := 20

/-! ## The routine -/

/-- Why `merge-task` stops. -/
inductive MergeError where
  | pipelineFailed (reason : String)
  | manualAction (reason : String)
  | undecided (shown : List (ConflictedPath × Undecided)) (more total : Nat)

/-- What the routine does. -/
inductive MergeStep where
  | aborted
  | enteredCommit
  | committed (sha : String)
  | pushed
  | merged
  deriving DecidableEq

/-- How the merge flow ends. -/
inductive MergeFlowEnd where
  | manualRequired (reason : String)
  | unresolved
  | resolved

/-- An inventory's surroundings: what `git ls-files -u -z` prints, or its failure, and the working
tree at that time. -/
structure ConflictScene where
  unmerged : Except String String
  files : String → WorkFile

/-- What `commit_merge_resolution` meets: a completed operation, whether a merge is in flight, and
what its git commands and checks give. -/
structure MergeResolution where
  completed : Option String := none
  inFlight : Bool := true
  untrustedFilters : Option String := none
  add : Except String Unit := .ok ()
  diffCheck : String := ""
  stagedRefused : Option String := none
  commit : Except String String

/-- What a call of `merge_task` meets, in the order it meets it. -/
structure MergeWorld where
  known : Bool := true
  otherActive : Bool := false
  prUrl : Option String
  prState : Option String := some "OPEN"
  branch : Option String
  resolve : Bool := true
  update : Except String Bool
  before : ConflictScene
  flow : MergeFlowEnd
  after : ConflictScene
  resolution : MergeResolution
  push : Except String Unit := .ok ()
  mergePr : Except String Unit := .ok ()

/-- What a call has done, and its end. -/
structure MergeRun where
  steps : List MergeStep
  result : Except MergeError Unit

/-- The checks before anything is merged: an end without a merge, if there is one. -/
def MergeWorld.early (world : MergeWorld) : Option (Except MergeError Unit) :=
  if !world.known then some (.error (.pipelineFailed "unknown task id"))
  else if world.otherActive then
    some (.error
      (.pipelineFailed "another task owns the processing slot; merge-task needs it idle"))
  else if world.prUrl.isNone then
    some (.error (.pipelineFailed "the task has no recorded PR to merge"))
  else if world.prState = some "MERGED" then some (.ok ())
  else if world.prState = some "CLOSED" then
    some (.error (.pipelineFailed "the PR is CLOSED (not merged); nothing to do"))
  else if (world.branch.getD "").isEmpty then
    some (.error (.pipelineFailed "the task has no recorded branch to merge"))
  else none

section Routine

variable (sha256 : List UInt8 → String)

/-- `conflicted_paths` at a scene; a failing git command is a pipeline failure. -/
def ConflictScene.inventory (scene : ConflictScene) : Except MergeError (List ConflictedPath) :=
  match scene.unmerged with
  | .error reason => .error (.pipelineFailed reason)
  | .ok output => .ok (conflictedPaths sha256 output scene.files)

/-- What is done about conflicts before the merge is committed. -/
def MergeWorld.decide (world : MergeWorld) : Except MergeError Unit :=
  if !world.resolve then
    .error (.pipelineFailed "base merge conflicts and --no-resolve was set; PR left open")
  else do
    let before ← world.before.inventory sha256
    match world.flow with
    | .manualRequired reason => .error (.manualAction ("merge flow stopped: " ++ reason))
    | .unresolved =>
        .error (.pipelineFailed "the merge flow produced no clean, passing tree; PR left open")
    | .resolved => do
        let after ← world.after.inventory sha256
        let undecided := undecidedConflicts before after
        if undecided = [] then .ok ()
        else .error (.undecided (undecided.take undecidedEvidenceCap)
          (undecided.length - undecidedEvidenceCap) before.length)

/-- `commit_merge_resolution`. -/
def commitMergeResolution (resolution : MergeResolution) : MergeRun :=
  if resolution.completed.isSome || !resolution.inFlight then { steps := [], result := .ok () }
  else
    match resolution.untrustedFilters with
    | some reason => { steps := [], result := .error (.manualAction reason) }
    | none =>
        match resolution.add with
        | .error reason => { steps := [], result := .error (.pipelineFailed reason) }
        | .ok () =>
            if Text.contains (Text.lower resolution.diffCheck) "leftover conflict marker" then {
              steps := []
              result := .error
                (.pipelineFailed "merge resolution left conflict markers; refusing to commit") }
            else
              match resolution.stagedRefused with
              | some reason => { steps := [], result := .error (.manualAction reason) }
              | none =>
                  match resolution.commit with
                  | .error reason => { steps := [], result := .error (.pipelineFailed reason) }
                  | .ok sha => { steps := [.committed sha], result := .ok () }

/-- The end of the routine, after the merge is committed or was none. -/
def MergeWorld.publish (world : MergeWorld) : MergeRun :=
  match world.push with
  | .error reason => { steps := [.aborted], result := .error (.pipelineFailed reason) }
  | .ok () =>
      match world.mergePr with
      | .error reason => { steps := [.pushed, .aborted], result := .error (.pipelineFailed reason) }
      | .ok () => { steps := [.pushed, .merged], result := .ok () }

/-- From `commit_merge_resolution` on. -/
def MergeWorld.finish (world : MergeWorld) : MergeRun :=
  let commit := commitMergeResolution world.resolution
  match commit.result with
  | .error error =>
    { steps := .enteredCommit :: (commit.steps ++ [.aborted]), result := .error error }
  | .ok () =>
      { steps := .enteredCommit :: (commit.steps ++ world.publish.steps)
        result := world.publish.result }

/-- `merge_task`. A stale merge is aborted before it starts. -/
def mergeTask (world : MergeWorld) : MergeRun :=
  match world.early with
  | some result => { steps := [], result := result }
  | none =>
      match world.update with
      | .error reason =>
          { steps := [.aborted, .aborted], result := .error (.pipelineFailed reason) }
      | .ok conflicted =>
          match (if conflicted then world.decide sha256 else .ok ()) with
          | .error error => { steps := [.aborted, .aborted], result := .error error }
          | .ok () => { steps := .aborted :: world.finish.steps, result := world.finish.result }

end Routine

/-! ## Decided conflicts -/

/-- Whether what stands at a path shows a decision: another content, a deleted file, or a file where
there was none to read. -/
def ShowsDecision (before after : WorkFile) : Prop :=
  match after with
  | .regular _ => before ≠ after
  | .missing => ∃ content, before = .regular content
  | _ => False

/-- What stands at a path can be told: a regular file that can be read, or nothing. -/
def Plain (file : WorkFile) : Prop := file = .missing ∨ ∃ content, file = .regular content

section Decided

variable {sha256 : List UInt8 → String}

/-- An accepted path that is still in the index shows a decision, when it can be told. -/
theorem shows_of_undecidedBetween {filesBefore filesAfter : String → WorkFile}
    {item current : String × List (String × Nat)} (same : current.1 = item.1)
    (accepted : undecidedBetween (conflictEntry sha256 filesBefore item)
      (conflictEntry sha256 filesAfter current) = none)
    (requires : (entryShape item.2).evidence ≠ .nothingToDecide) :
    (entryShape item.2).evidence = .worktreeBytes ∧
      (Plain (filesAfter item.1) → ShowsDecision (filesBefore item.1) (filesAfter item.1)) := by
  rw [undecidedBetween] at accepted
  have shape : (conflictEntry sha256 filesBefore item).shape = entryShape item.2 := rfl
  have before : (conflictEntry sha256 filesBefore item).probe =
      probeConflictFile sha256 (filesBefore item.1) := rfl
  have after : (conflictEntry sha256 filesAfter current).probe =
      probeConflictFile sha256 (filesAfter item.1) := by rw [conflictEntry, same]
  rw [shape, before, after] at accepted
  cases evidence : (entryShape item.2).evidence with
  | nothingToDecide => exact absurd evidence requires
  | outOfBand =>
      rw [evidence] at accepted
      cases accepted
  | worktreeBytes =>
      rw [evidence] at accepted
      dsimp only at accepted
      refine ⟨rfl, fun plain => ?_⟩
      rcases plain with missing | ⟨content, regular⟩
      · rw [missing] at accepted ⊢
        cases was : filesBefore item.1 with
        | regular content => exact ⟨content, rfl⟩
        | missing => rw [was] at accepted; cases accepted
        | unreadable => rw [was] at accepted; cases accepted
        | other => rw [was] at accepted; cases accepted
      · rw [regular] at accepted ⊢
        intro identical
        rw [identical] at accepted
        simp only [probeConflictFile, ne_eq, not_true_eq_false, if_false, if_true] at accepted
        cases accepted

/-- The gate, unpacked. -/
theorem decide_eq_ok {world : MergeWorld} (decided : world.decide sha256 = .ok ()) :
    ∃ outputBefore outputAfter, world.before.unmerged = .ok outputBefore ∧
      world.after.unmerged = .ok outputAfter ∧
        undecidedConflicts (conflictedPaths sha256 outputBefore world.before.files)
          (conflictedPaths sha256 outputAfter world.after.files) = [] := by
  rw [MergeWorld.decide] at decided
  split at decided
  · cases decided
  · cases first : world.before.unmerged with
    | error reason =>
        rw [ConflictScene.inventory, first] at decided
        cases decided
    | ok outputBefore =>
        rw [ConflictScene.inventory, first] at decided
        change (match world.flow with
          | .manualRequired _ => _
          | .unresolved => _
          | .resolved => _) = _ at decided
        split at decided
        · cases decided
        · cases decided
        · cases second : world.after.unmerged with
          | error reason =>
              rw [ConflictScene.inventory, second] at decided
              cases decided
          | ok outputAfter =>
              rw [ConflictScene.inventory, second] at decided
              change (if _ then _ else _) = _ at decided
              split at decided
              · rename_i none
                exact ⟨outputBefore, outputAfter, rfl, rfl, none⟩
              · cases decided

/-- A path without a verdict that is still in the index was compared. -/
theorem compared_of_none {before after : List ConflictedPath}
    (none : undecidedConflicts before after = []) {entry : ConflictedPath} (among : entry ∈ before)
    (still : entry.path ∈ after.map ConflictedPath.path) :
    ∃ current ∈ after, current.path = entry.path ∧ undecidedBetween entry current = .none := by
  obtain ⟨other, member, named⟩ := List.mem_map.mp still
  have found : ((after.reverse.find? fun current => current.path = entry.path)).isSome := by
    rw [List.find?_isSome]
    exact ⟨other, List.mem_reverse.mpr member, decide_eq_true named⟩
  obtain ⟨current, searched⟩ := Option.isSome_iff_exists.mp found
  have same := List.find?_some searched
  refine ⟨current, List.mem_reverse.mp (List.mem_of_find?_eq_some searched),
    of_decide_eq_true same, ?_⟩
  have verdict := List.filterMap_eq_nil_iff.mp none entry among
  have looked : currentByPath after entry.path = some current := searched
  rw [looked, Option.bind_some, Option.map_eq_none_iff] at verdict
  exact verdict

/-- A step other than an abort is made from the commit on, after the conflicts were decided. -/
theorem decided_of_step {world : MergeWorld} {step : MergeStep} (forward : step ≠ .aborted)
    (among : step ∈ (mergeTask sha256 world).steps) :
    (world.update = .ok true → world.decide sha256 = .ok ()) ∧ step ∈ world.finish.steps := by
  have never : step ∉ [MergeStep.aborted, MergeStep.aborted] := fun inside => by
    rcases List.mem_cons.mp inside with same | same
    · exact forward same
    · exact forward (List.mem_singleton.mp same)
  rw [mergeTask] at among
  cases early : world.early with
  | some result =>
      rw [early] at among
      cases among
  | none =>
      rw [early] at among
      dsimp only at among
      cases update : world.update with
      | error reason =>
          rw [update] at among
          exact absurd among never
      | ok conflicted =>
          rw [update] at among
          dsimp only at among
          cases gate : (if conflicted then world.decide sha256 else .ok ()) with
          | error error =>
              rw [gate] at among
              exact absurd among never
          | ok done =>
              rw [gate] at among
              refine ⟨fun same => ?_, (List.mem_cons.mp among).resolve_left forward⟩
              cases same
              exact gate

/-- A commit is made of a staged tree without leftover markers. -/
theorem noMarkers_of_committed {resolution : MergeResolution} {sha : String}
    (among : .committed sha ∈ (commitMergeResolution resolution).steps) :
    Text.contains (Text.lower resolution.diffCheck) "leftover conflict marker" = false := by
  rw [commitMergeResolution] at among
  split at among
  · cases among
  · split at among
    · cases among
    · split at among
      · cases among
      · split at among
        · cases among
        · rename_i clean
          exact Bool.eq_false_iff.mpr clean

theorem committed_of_finish {world : MergeWorld} {sha : String}
    (among : .committed sha ∈ world.finish.steps) :
    .committed sha ∈ (commitMergeResolution world.resolution).steps := by
  have published : MergeStep.committed sha ∉ world.publish.steps := by
    rw [MergeWorld.publish]
    split
    · simp
    · split <;> simp
  rw [MergeWorld.finish] at among
  split at among
  · simpa using among
  · simpa [published] using among

/-- When `merge-task` comes to commit a merge with conflicts, each conflicted path that needs a
decision and is still in the index can be decided by its file and shows a decision, when what stands
there can be told; and what is committed has no leftover markers. -/
theorem mergeTask_decided (sha256 : List UInt8 → String) (world : MergeWorld) :
    (.enteredCommit ∈ (mergeTask sha256 world).steps → world.update = .ok true →
      ∃ outputBefore outputAfter, world.before.unmerged = .ok outputBefore ∧
        world.after.unmerged = .ok outputAfter ∧
        ∀ item ∈ (parseLsFilesUnmergedZ outputBefore).items,
          (entryShape item.2).evidence ≠ .nothingToDecide →
            item.1 ∈ (parseLsFilesUnmergedZ outputAfter).items.map Prod.fst →
              (entryShape item.2).evidence = .worktreeBytes ∧
                (Plain (world.after.files item.1) →
                  ShowsDecision (world.before.files item.1) (world.after.files item.1))) ∧
    ∀ sha, .committed sha ∈ (mergeTask sha256 world).steps →
      Text.contains (Text.lower world.resolution.diffCheck) "leftover conflict marker" = false := by
  constructor
  · intro entered conflicted
    have forward : MergeStep.enteredCommit ≠ .aborted := nofun
    obtain ⟨decided, -⟩ := decided_of_step forward entered
    obtain ⟨outputBefore, outputAfter, first, second, none⟩ := decide_eq_ok (decided conflicted)
    refine ⟨outputBefore, outputAfter, first, second, fun item among requires still => ?_⟩
    obtain ⟨other, member, named⟩ := List.mem_map.mp still
    have stillListed : (conflictEntry sha256 world.before.files item).path ∈
        (conflictedPaths sha256 outputAfter world.after.files).map ConflictedPath.path :=
      List.mem_map.mpr ⟨_, mem_conflictedPaths.mpr ⟨other, member, rfl⟩, named⟩
    obtain ⟨current, listed, path, accepted⟩ :=
      compared_of_none none (mem_conflictedPaths.mpr ⟨item, among, rfl⟩) stillListed
    obtain ⟨now, -, rfl⟩ := mem_conflictedPaths.mp listed
    exact shows_of_undecidedBetween path accepted requires
  · intro sha committed
    have forward : MergeStep.committed sha ≠ .aborted := nofun
    obtain ⟨-, finished⟩ := decided_of_step forward committed
    exact noMarkers_of_committed (committed_of_finish finished)

end Decided

/-! ## A path that the agent has staged -/

/-- What git prints of a file that the base has deleted and the task has modified. -/
def deletedByBase : String := "100644 1a 1\tnotes.txt\x00100644 2b 2\tnotes.txt\x00"

/-- A merge with that conflict: what is printed afterwards, and the file afterwards. -/
def notesMerge (unmerged : String) (content : List UInt8) : MergeWorld where
  prUrl := some "pull/1"
  branch := some "worc/t1"
  update := .ok true
  before := { unmerged := .ok deletedByBase, files := fun _ => .regular [1] }
  flow := .resolved
  after := { unmerged := .ok unmerged, files := fun _ => .regular content }
  resolution := { commit := .ok "c0ffee" }

/-- With another content the merge is committed, and the path shows the decision. -/
theorem notesMerge_decided :
    .enteredCommit ∈ (mergeTask (fun bytes => toString bytes.length)
      (notesMerge deletedByBase [2, 2])).steps ∧
    ∃ outputBefore outputAfter,
      (notesMerge deletedByBase [2, 2]).before.unmerged = .ok outputBefore ∧
      (notesMerge deletedByBase [2, 2]).after.unmerged = .ok outputAfter ∧
        ∀ item ∈ (parseLsFilesUnmergedZ outputBefore).items,
          (entryShape item.2).evidence ≠ .nothingToDecide →
            item.1 ∈ (parseLsFilesUnmergedZ outputAfter).items.map Prod.fst →
              (entryShape item.2).evidence = .worktreeBytes ∧
                (Plain ((notesMerge deletedByBase [2, 2]).after.files item.1) →
                  ShowsDecision ((notesMerge deletedByBase [2, 2]).before.files item.1)
                    ((notesMerge deletedByBase [2, 2]).after.files item.1)) := by
  have entered : .enteredCommit ∈ (mergeTask (fun bytes => toString bytes.length)
      (notesMerge deletedByBase [2, 2])).steps := by decide +kernel
  exact ⟨entered, (mergeTask_decided (fun bytes => toString bytes.length)
      (notesMerge deletedByBase [2, 2])).1 entered rfl⟩

/-- A path that was staged as it stood has left the index, and the merge is committed without a
decision on it. -/
theorem stagedUnchanged_not_decided :
    ¬ ∀ world : MergeWorld,
      .enteredCommit ∈ (mergeTask (fun bytes => toString bytes.length) world).steps →
        ∀ outputBefore, world.before.unmerged = .ok outputBefore →
          ∀ item ∈ (parseLsFilesUnmergedZ outputBefore).items,
            (entryShape item.2).evidence ≠ .nothingToDecide →
              ShowsDecision (world.before.files item.1) (world.after.files item.1) := by
  intro decided
  have shown : ShowsDecision (.regular [1]) (.regular [1]) :=
    decided (notesMerge "" [1]) (by decide +kernel) deletedByBase rfl
      ("notes.txt", [("100644", 1), ("100644", 2)]) (by decide +kernel) (by decide)
  exact shown rfl

end Orchestrator.Git
