import Orchestrator.Git.Status

/-! # Runs of code commits

A run edits the clone at will, and makes calls that return, fail or are stopped between two of
their steps. A call whose operation is new, or whose change is in HEAD, loses nothing.
-/

namespace Orchestrator.Git

open Orchestrator.Foundation
open Orchestrator.Foundation.Steps

/-! ## Listings -/

section Staging

variable {Entry : Type} [DecidableEq Entry] {detectRenames : RenameDetection Entry}
  {exclusions : Exclusions} {clone : Clone Entry}

/-- A path is one of the changed code paths, or an untracked file that one of them lists. -/
def ChangedCode (detectRenames : RenameDetection Entry) (exclusions : Exclusions)
    (clone : Clone Entry) (path : String) : Prop :=
  isArtifactPath exclusions.tasksDir path = false ∧
    ∃ entry ∈ clone.changedCodePaths detectRenames exclusions,
      path = entry ∨ listedBy entry path = true ∧ path ∈ clone.untracked

omit [DecidableEq Entry] in
theorem lookup_entriesAt (lookup : String → Option Entry) (paths : List String) (path : String) :
    (Dict.ofList (entriesAt lookup paths)).lookup path =
      if path ∈ paths then lookup path else none := by
  rw [Dict.ofList, AList.lookup_to_alist]
  induction paths with
  | nil => rfl
  | cons first rest ih =>
      have skips : path ≠ first → (path ∈ first :: rest ↔ path ∈ rest) := fun other => by
        rw [List.mem_cons, or_iff_right other]
      rw [entriesAt, List.filterMap_cons]
      cases found : lookup first with
      | none =>
          refine ih.trans ?_
          by_cases here : path = first
          · rw [here, found, ite_self, ite_self]
          · rw [if_congr (skips here) rfl rfl]
      | some entry =>
          rw [Option.map_some, List.map_cons]
          by_cases here : path = first
          · rw [here, List.dlookup_cons_eq, if_pos List.mem_cons_self, found]
          · rw [List.dlookup_cons_ne _ _ here, if_congr (skips here) rfl rfl]
            exact ih

omit [DecidableEq Entry] in
/-- The new index has what is visible at each path that was added. -/
theorem lookup_add {entries : List String} {excluded : Option String} {index : Dict Entry}
    (added : clone.add entries excluded = some index) (path : String) :
    index.lookup path =
      if (entries.any fun entry => matchesPathspec entry path) = true ∧
          (excluded.any fun directory => Text.startsWith path directory) = false then
        clone.visible path
      else clone.index.lookup path := by
  have unseen : path ∉ clone.candidates →
      clone.visible path = none ∧ clone.index.lookup path = none := fun outside => by
    have untracked : path ∉ clone.index := fun tracked => outside <| List.mem_filter.mpr
      ⟨List.mem_append_left _ tracked, decide_eq_true (.inl tracked)⟩
    refine ⟨?_, AList.lookup_eq_none.mpr untracked⟩
    rw [Clone.visible]
    by_cases shown : clone.ignored path = false
    · rw [if_pos (.inr shown), AList.lookup_eq_none]
      exact fun present => outside <| List.mem_filter.mpr
        ⟨List.mem_append_right _ present, decide_eq_true (.inr shown)⟩
    · exact if_neg (not_or.mpr ⟨untracked, shown⟩)
  have seen : path ∈ clone.candidates → path ∈ (clone.index.keys ++ clone.files.keys).dedup ∧
      clone.visible path = clone.files.lookup path := fun inside => by
    obtain ⟨listed, shown⟩ := List.mem_filter.mp inside
    exact ⟨List.mem_dedup.mpr listed, if_pos (of_decide_eq_true shown)⟩
  rw [Clone.add] at added
  split at added
  · cases added
    rw [lookup_entriesAt]
    by_cases inside : path ∈ clone.candidates
    · obtain ⟨listed, same⟩ := seen inside
      rw [if_pos listed, same]
      simp only [inside, decide_true, Bool.true_and, Bool.and_eq_true, Bool.not_eq_true']
    · obtain ⟨hidden, untracked⟩ := unseen inside
      rw [hidden, untracked, ite_self]
      simp only [inside, decide_false, Bool.false_and, Bool.false_eq_true, if_false, ite_self]
  · cases added

/-- A fully staged deletion is not in the index. -/
theorem lookup_of_fullyStagedDeletion {tasksDir path : String}
    (gone : path ∈ clone.fullyStagedDeletions detectRenames tasksDir) :
    clone.index.lookup path = none := by
  obtain ⟨record, kept, rfl⟩ := List.mem_map.mp gone
  obtain ⟨listed, deleted⟩ := List.mem_filter.mp kept
  have code : record.code = ('D', ' ') := of_decide_eq_true (Bool.and_eq_true_iff.mp deleted).1
  rcases List.mem_append.mp listed with tracked | untracked
  · obtain ⟨path, -, shown⟩ := List.mem_filterMap.mp tracked
    dsimp only at shown
    split at shown
    · cases shown
    · cases shown
      have staged : clone.stagedCode detectRenames path = 'D' := congrArg Prod.fst code
      rw [Clone.stagedCode] at staged
      split at staged
      · cases staged
      · split at staged
        · cases staged
        · cases staged
        · assumption
        · split at staged <;> cases staged
  · obtain ⟨path, -, rfl⟩ := List.mem_map.mp untracked
    cases code

/-- The changed files are listed by entries that are added. -/
def Addable (detectRenames : RenameDetection Entry) (exclusions : Exclusions)
    (clone : Clone Entry) : Prop :=
  ∀ path, ChangedCode detectRenames exclusions clone path → clone.visible path ≠ none →
    ∃ entry ∈ (stagedPathspec detectRenames exclusions clone
      (clone.changedCodePaths detectRenames exclusions)).1, listedBy entry path = true

omit [DecidableEq Entry] in
theorem visible_of_untracked {path : String} (untracked : path ∈ clone.untracked) :
    clone.visible path ≠ none := by
  obtain ⟨present, shown⟩ := List.mem_filter.mp untracked
  rw [Clone.visible, if_pos (.inr (of_decide_eq_true shown).2), ne_eq, AList.lookup_eq_none,
    not_not]
  exact present

/-- A path below the task directory is an artifact. -/
theorem startsWith_tasksDir {tasksDir path : String} (slashes : '\\' ∉ tasksDir.toList)
    (code : isArtifactPath tasksDir path = false) :
    Text.startsWith path (tasksDir ++ "/") = false := by
  rw [Bool.eq_false_iff]
  intro below
  apply Bool.false_ne_true
  rw [← code, isArtifactPath, List.any_eq_true]
  refine ⟨tasksDir, by simp [excludedDirs], ?_⟩
  rw [Bool.or_eq_true]
  right
  rw [Text.startsWith, List.isPrefixOf_iff_prefix] at below ⊢
  obtain ⟨rest, whole⟩ := below
  have plain : ((tasksDir ++ "/").toList.map fun letter => if letter = '\\' then '/' else letter) =
      (tasksDir ++ "/").toList := by
    refine (List.map_congr_left fun letter among => ?_).trans (List.map_id _)
    refine if_neg fun same => ?_
    rw [String.toList_append, List.mem_append] at among
    rcases among with inside | last
    · exact slashes (same ▸ inside)
    · rw [List.mem_singleton.mp last] at same
      cases same
  refine ⟨rest.map fun letter => if letter = '\\' then '/' else letter, ?_⟩
  rw [Text.replace, String.toList_ofList, ← whole, List.map_append, plain]

/-- The paths that are added have their visible entries in the index. -/
theorem lookup_addPaths {index : Dict Entry} {path : String}
    (added : addPaths detectRenames exclusions clone
      (clone.changedCodePaths detectRenames exclusions) = .ok index)
    (slashes : '\\' ∉ exclusions.tasksDir.toList)
    (addable : Addable detectRenames exclusions clone)
    (changed : ChangedCode detectRenames exclusions clone path) :
    index.lookup path = clone.visible path := by
  let positive := (stagedPathspec detectRenames exclusions clone
    (clone.changedCodePaths detectRenames exclusions)).1
  obtain ⟨code, entry, listed, same⟩ := changed
  have unexcluded : ((stagedPathspec detectRenames exclusions clone
      (clone.changedCodePaths detectRenames exclusions)).2.any
        fun directory => Text.startsWith path directory) = false := by
    by_cases ignored : clone.tasksIgnored = true
    · simp only [stagedPathspec, ignored, if_true, Option.any_none]
    · simp only [stagedPathspec, ignored, Bool.false_eq_true, if_false, Option.any_some]
      exact startsWith_tasksDir slashes code
  have dropped : (positive.any fun entry => matchesPathspec entry path) = false →
      clone.visible path = none ∧ clone.index.lookup path = none := fun unmatched => by
    have hidden : clone.visible path = none := by
      by_contra shown
      obtain ⟨other, kept, lists⟩ := addable path ⟨code, entry, listed, same⟩ shown
      apply Bool.false_ne_true
      rw [← unmatched, List.any_eq_true]
      exact ⟨other, kept, by rw [matchesPathspec, lists, Bool.true_or]⟩
    refine ⟨hidden, ?_⟩
    rcases same with rfl | ⟨-, untracked⟩
    · by_contra tracked
      have kept : path ∈ positive := List.mem_filter.mpr
        ⟨listed, decide_eq_true fun deleted => tracked (lookup_of_fullyStagedDeletion deleted)⟩
      apply Bool.false_ne_true
      rw [← unmatched, List.any_eq_true]
      exact ⟨path, kept, by simp [matchesPathspec, listedBy]⟩
    · exact absurd hidden (visible_of_untracked untracked)
  rw [addPaths] at added
  dsimp only at added
  by_cases empty : positive = []
  · rw [if_pos empty] at added
    cases added
    obtain ⟨hidden, untracked⟩ := dropped (by rw [empty]; rfl)
    rw [hidden, untracked]
  · rw [if_neg empty] at added
    split at added
    · cases added
      rename_i result
      rw [lookup_add result, unexcluded]
      by_cases matched : (positive.any fun entry => matchesPathspec entry path) = true
      · rw [if_pos ⟨matched, rfl⟩]
      · obtain ⟨hidden, untracked⟩ := dropped (Bool.eq_false_iff.mpr matched)
        rw [hidden, untracked, ite_self]
    · cases added

end Staging

/-! ## Calls -/

section Calls

variable {Entry : Type} [DecidableEq Entry] (detectRenames : RenameDetection Entry)
  (exclusions : Exclusions)

/-- The call left its changed code in HEAD, made at most one commit, of something new, and the gate
measures from HEAD. -/
structure Kept (before after : TaskState Entry) : Prop where
  contains : ∀ path, ChangedCode detectRenames exclusions before.clone path →
    after.clone.head.tree.lookup path = before.clone.visible path
  once : after.clone.head = before.clone.head ∨ ∃ tree message path,
    after.clone.head = before.clone.head.child tree message ∧
      tree.lookup path ≠ before.clone.head.tree.lookup path
  gate : after.gateReference = some after.clone.head

/-- The operation of a call is recorded as completed. -/
def Recorded (call : Call) (state : TaskState Entry) : Prop :=
  ∃ operation, state.operations call.key = some operation ∧ operation.status = .completed

/-- The call comes in time: nothing changed since its operation was recorded, the gate's reference
resolves, and what it would add can be added. -/
structure Timely (call : Call) (state : TaskState Entry) : Prop where
  settled : Recorded call state → ∀ path, ChangedCode detectRenames exclusions state.clone path →
    state.clone.head.tree.lookup path = state.clone.visible path
  atHead : Recorded call state →
    (∀ message, call = .code message →
      state.clone.changedCodePaths detectRenames exclusions ≠ []) →
    state.gateReference = some state.clone.head
  resolves : state.clone.changedCodePaths detectRenames exclusions = [] →
    state.gateReference ≠ none
  slashes : '\\' ∉ exclusions.tasksDir.toList
  addable : ¬ Recorded call state → Addable detectRenames exclusions state.clone

variable {detectRenames exclusions}

omit [DecidableEq Entry] in
theorem not_changedCode_of_nil {clone : Clone Entry} [DecidableEq Entry] {path : String}
    (none : clone.changedCodePaths detectRenames exclusions = []) :
    ¬ ChangedCode detectRenames exclusions clone path := by
  rintro ⟨-, entry, listed, -⟩
  rw [none] at listed
  cases listed

/-- An adoption leaves the clone alone and the gate at HEAD. -/
theorem of_adopt_ok {key : OperationKey} {state after : TaskState Entry}
    {value : Option (Commit (Dict Entry))} (resolves : state.gateReference ≠ none)
    (result : (adoptCommittedHead key state).2 = .ok (value, after)) :
    after.clone = state.clone ∧ after.gateReference = some state.clone.head := by
  obtain ⟨_, _, started, rest⟩ := of_result_bind result
  obtain ⟨here, unchanged⟩ := of_result_current started
  rw [here, unchanged] at rest
  obtain ⟨reference, found⟩ := Option.ne_none_iff_exists'.mp resolves
  rw [found] at rest
  dsimp only at rest
  by_cases current : state.clone.head = reference
  · rw [if_pos current] at rest
    cases rest
    exact ⟨rfl, current ▸ found⟩
  · rw [if_neg current] at rest
    obtain ⟨_, _, recorded, rest⟩ := of_result_bind rest
    obtain ⟨_, _, advanced, rest⟩ := of_result_bind rest
    cases recorded
    cases advanced
    cases rest
    exact ⟨rfl, rfl⟩

/-- A recorded operation is not made again. -/
theorem of_commit_recorded {key : OperationKey} {message : String} {paths : List String}
    {operation : PublishOperation Entry} {state after : TaskState Entry}
    {value : Option (Commit (Dict Entry))} (recorded : state.operations key = some operation)
    (completed : operation.status = .completed)
    (result : (commit detectRenames exclusions key message paths state).2 = .ok (value, after)) :
    after = state := by
  obtain ⟨_, _, started, rest⟩ := of_result_bind result
  obtain ⟨here, unchanged⟩ := of_result_current started
  obtain ⟨status, resultRef⟩ := operation
  cases completed
  rw [here, unchanged, recorded] at rest
  cases rest
  rfl

/-- What a commit that returns has done when its operation was not recorded. -/
theorem of_makeCommit_ok {key : OperationKey} {message : String} {paths : List String}
    {state after : TaskState Entry} {value : Option (Commit (Dict Entry))}
    (result : (makeCommit detectRenames exclusions key message paths state).2 =
      .ok (value, after)) :
    (paths = [] ∧ value = none ∧ after.clone = state.clone ∧
        after.gateReference = state.gateReference) ∨
      paths ≠ [] ∧ ∃ index, addPaths detectRenames exclusions state.clone paths = .ok index ∧
        { state.clone with index := index }.staged ≠ [] ∧ value.isSome = true ∧
          after.clone.head = state.clone.head.child index message ∧
            after.gate = some (state.clone.head.child index message) := by
  obtain ⟨_, _, marked, rest⟩ := of_result_bind result
  cases marked
  obtain ⟨_, _, started, rest⟩ := of_result_bind rest
  cases started
  by_cases empty : paths = []
  · rw [if_pos empty] at rest
    cases rest
    exact .inl ⟨empty, rfl, rfl, rfl⟩
  · right
    rw [if_neg empty] at rest
    split at rest
    · cases rest
    · obtain ⟨index, _, added, rest⟩ := of_result_bind rest
      obtain ⟨indexed, unchanged⟩ := of_result_ofExcept added
      rw [unchanged] at rest
      obtain ⟨_, _, placed, rest⟩ := of_result_bind rest
      cases placed
      obtain ⟨_, _, seen, rest⟩ := of_result_bind rest
      cases seen
      obtain ⟨_, _, allowed, rest⟩ := of_result_bind rest
      obtain ⟨-, unchanged⟩ := of_result_ofExcept allowed
      rw [unchanged] at rest
      obtain ⟨made, _, committed, rest⟩ := of_result_bind rest
      obtain ⟨commits, unchanged⟩ := of_result_ofExcept committed
      rw [unchanged] at rest
      obtain ⟨_, _, moved, rest⟩ := of_result_bind rest
      cases moved
      obtain ⟨_, _, recorded, rest⟩ := of_result_bind rest
      cases recorded
      obtain ⟨_, _, advanced, rest⟩ := of_result_bind rest
      cases advanced
      cases rest
      rw [gitCommit] at commits
      split at commits
      · cases commits
      · rename_i differs
        cases commits
        exact ⟨empty, index, indexed, differs, rfl, rfl, rfl⟩

/-- A commit whose operation is not recorded is made. -/
theorem of_commit_fresh {key : OperationKey} {message : String} {paths : List String}
    {state after : TaskState Entry} {value : Option (Commit (Dict Entry))}
    (fresh : ¬ ∃ operation, state.operations key = some operation ∧ operation.status = .completed)
    (result : (commit detectRenames exclusions key message paths state).2 = .ok (value, after)) :
    (makeCommit detectRenames exclusions key message paths state).2 = .ok (value, after) := by
  obtain ⟨_, _, started, rest⟩ := of_result_bind result
  obtain ⟨here, unchanged⟩ := of_result_current started
  rw [here, unchanged] at rest
  cases found : state.operations key with
  | none =>
      rw [found] at rest
      exact rest
  | some operation =>
      obtain ⟨status, resultRef⟩ := operation
      cases status with
      | started =>
          rw [found] at rest
          exact rest
      | completed => exact absurd ⟨_, found, rfl⟩ fresh

/-- A commit that is made of its changed code paths keeps them. -/
theorem kept_makeCommit {key : OperationKey} {message : String} {state after : TaskState Entry}
    {value : Option (Commit (Dict Entry))} (slashes : '\\' ∉ exclusions.tasksDir.toList)
    (addable : Addable detectRenames exclusions state.clone)
    (listed : state.clone.changedCodePaths detectRenames exclusions ≠ [])
    (result : (makeCommit detectRenames exclusions key message
      (state.clone.changedCodePaths detectRenames exclusions) state).2 = .ok (value, after)) :
    Kept detectRenames exclusions state after ∧ value.isSome = true := by
  rcases of_makeCommit_ok result with ⟨none, -⟩ | ⟨-, index, added, differs, made, head, gate⟩
  · exact absurd none listed
  · refine ⟨⟨fun path changed => ?_, .inr ?_, ?_⟩, made⟩
    · rw [head]
      exact lookup_addPaths added slashes addable changed
    · obtain ⟨path, among⟩ := List.exists_mem_of_ne_nil _ differs
      have other := of_decide_eq_true (List.mem_filter.mp among).2
      exact ⟨index, message, path, head, other.symm⟩
    · rw [TaskState.gateReference, gate, head]
      rfl

/-- A timely call that returns keeps what it found. -/
theorem kept_of_timely {call : Call} {state after : TaskState Entry}
    {value : Option (Commit (Dict Entry))} (timely : Timely detectRenames exclusions call state)
    (result : (call.program detectRenames exclusions state).2 = .ok (value, after)) :
    Kept detectRenames exclusions state after := by
  -- a call that changes nothing keeps what is settled
  have same : (∀ path, ChangedCode detectRenames exclusions state.clone path →
      state.clone.head.tree.lookup path = state.clone.visible path) →
        after.clone = state.clone → after.gateReference = some state.clone.head →
          Kept detectRenames exclusions state after := fun settled clone gate =>
    ⟨fun path changed => clone ▸ settled path changed, .inl (clone ▸ rfl), clone ▸ gate⟩
  cases call with
  | code message =>
      obtain ⟨_, _, started, rest⟩ := of_result_bind result
      obtain ⟨here, unchanged⟩ := of_result_current started
      rw [here, unchanged] at rest
      by_cases none : state.clone.changedCodePaths detectRenames exclusions = []
      · rw [if_pos none] at rest
        obtain ⟨clone, gate⟩ := of_adopt_ok (timely.resolves none) rest
        exact same (fun path changed => absurd changed (not_changedCode_of_nil none)) clone gate
      · rw [if_neg none] at rest
        by_cases recorded : Recorded (.code message) state
        · obtain ⟨operation, found, completed⟩ := recorded
          obtain rfl := of_commit_recorded found completed rest
          exact same (timely.settled ⟨operation, found, completed⟩) rfl
            (timely.atHead ⟨operation, found, completed⟩ fun _ _ => none)
        · exact (kept_makeCommit timely.slashes (timely.addable recorded) none
            (of_commit_fresh recorded rest)).1
  | subtask order message =>
      obtain ⟨_, _, started, rest⟩ := of_result_bind result
      obtain ⟨here, unchanged⟩ := of_result_current started
      rw [here, unchanged] at rest
      obtain ⟨made, middle, committed, rest⟩ := of_result_bind rest
      by_cases recorded : Recorded (.subtask order message) state
      · have atHead := timely.atHead recorded nofun
        have settled := timely.settled recorded
        obtain ⟨operation, found, completed⟩ := recorded
        obtain rfl := of_commit_recorded found completed committed
        cases made with
        | some made =>
            cases rest
            exact same settled rfl atHead
        | none =>
            obtain ⟨clone, gate⟩ := of_adopt_ok (by rw [atHead]; nofun) rest
            exact same settled clone gate
      · have fresh := of_commit_fresh recorded committed
        by_cases none : state.clone.changedCodePaths detectRenames exclusions = []
        · rcases of_makeCommit_ok fresh with ⟨-, rfl, clone, gate⟩ | ⟨some, -⟩
          · obtain ⟨adopted, head⟩ := of_adopt_ok (by rw [gate]; exact timely.resolves none) rest
            rw [clone] at adopted head
            exact same (fun path changed => absurd changed (not_changedCode_of_nil none)) adopted
              head
          · exact absurd none some
        · obtain ⟨kept, isSome⟩ := kept_makeCommit timely.slashes (timely.addable recorded) none
            fresh
          obtain ⟨made, rfl⟩ := Option.isSome_iff_exists.mp isSome
          cases rest
          exact kept

end Calls

/-! ## Runs -/

section Runs

variable {Entry : Type} [DecidableEq Entry]

/-- A run, with its calls that returned: any edit of the clone, a call that returns, and one that
fails or is stopped after some of its steps. -/
inductive CommitRun (detectRenames : RenameDetection Entry) (exclusions : Exclusions) :
    TaskState Entry → List (Call × TaskState Entry × TaskState Entry) → TaskState Entry → Prop
  | start (state : TaskState Entry) : CommitRun detectRenames exclusions state [] state
  | edit {first state : TaskState Entry} {calls : List (Call × TaskState Entry × TaskState Entry)}
      (clone : Clone Entry) (diffBase : Option (Commit (Dict Entry)))
      (run : CommitRun detectRenames exclusions first calls state) :
      CommitRun detectRenames exclusions first calls
        { state with clone := clone, diffBase := diffBase }
  | returns {first state after : TaskState Entry}
      {calls : List (Call × TaskState Entry × TaskState Entry)} {call : Call}
      {value : Option (Commit (Dict Entry))}
      (run : CommitRun detectRenames exclusions first calls state)
      (result : (call.program detectRenames exclusions state).2 = .ok (value, after)) :
      CommitRun detectRenames exclusions first (calls ++ [(call, state, after)]) after
  | stops {first state visited : TaskState Entry}
      {calls : List (Call × TaskState Entry × TaskState Entry)} {call : Call}
      (run : CommitRun detectRenames exclusions first calls state)
      (among : visited ∈ (call.program detectRenames exclusions state).1) :
      CommitRun detectRenames exclusions first calls visited

variable {detectRenames : RenameDetection Entry} {exclusions : Exclusions}

theorem result_of_mem_run {first last before after : TaskState Entry} {call : Call}
    {calls : List (Call × TaskState Entry × TaskState Entry)}
    (run : CommitRun detectRenames exclusions first calls last)
    (among : (call, before, after) ∈ calls) :
    ∃ value, (call.program detectRenames exclusions before).2 = .ok (value, after) := by
  induction run with
  | start => cases among
  | edit clone diffBase run ih => exact ih among
  | stops run visited ih => exact ih among
  | returns run result ih =>
      rcases List.mem_append.mp among with earlier | last
      · exact ih earlier
      · cases List.mem_singleton.mp last
        exact ⟨_, result⟩

/-- In every run whose calls come in time, every call that returned kept what it found. -/
theorem commitRun_kept {first last : TaskState Entry}
    {calls : List (Call × TaskState Entry × TaskState Entry)}
    (run : CommitRun detectRenames exclusions first calls last)
    (timely : ∀ call ∈ calls, Timely detectRenames exclusions call.1 call.2.1) :
    ∀ call ∈ calls, Kept detectRenames exclusions call.2.1 call.2.2 := by
  intro call among
  obtain ⟨value, result⟩ := result_of_mem_run run among
  exact kept_of_timely (timely call among) result

end Runs

/-! ## A later edit -/

/-- A clone of one commit with one file changed. -/
def editedClone (head : Commit (Dict String)) (index files : Dict String) : Clone String where
  head := head
  index := index
  files := files
  ignored := fun _ => false
  tasksIgnored := true
  programs := []

def rootCommit : Commit (Dict String) := .mk (Dict.ofList []) "root" .none

/-- The commit of the first version of a file. -/
def firstCommit : Commit (Dict String) := rootCommit.child (Dict.ofList [("a.py", "1")]) "feat: a"

def beforeCommit : TaskState String where
  clone := editedClone rootCommit (Dict.ofList []) (Dict.ofList [("a.py", "1")])
  operations := fun _ => none
  gate := none
  diffBase := some rootCommit

def afterCommit : TaskState String where
  clone := editedClone firstCommit (Dict.ofList [("a.py", "1")]) (Dict.ofList [("a.py", "1")])
  operations := fun key => if key = (.code, none) then
      some { status := .completed, resultRef := some firstCommit }
    else if key = (.code, none) then some { status := .started } else none
  gate := some firstCommit
  diffBase := some rootCommit

/-- The file is edited again. -/
def editedAgain : TaskState String :=
  { afterCommit with
    clone := editedClone firstCommit (Dict.ofList [("a.py", "1")]) (Dict.ofList [("a.py", "2")]) }

theorem result_beforeCommit :
    (Call.program exactRenames { tasksDir := "tasks" } (.code "feat: a") beforeCommit).2 =
      .ok (some firstCommit, afterCommit) := rfl

theorem run_afterCommit :
    CommitRun exactRenames { tasksDir := "tasks" } beforeCommit
      [(.code "feat: a", beforeCommit, afterCommit)] afterCommit :=
  .returns (.start beforeCommit) result_beforeCommit

theorem timely_beforeCommit :
    Timely exactRenames { tasksDir := "tasks" } (.code "feat: a") beforeCommit := by
  have fresh : ¬ Recorded (.code "feat: a") beforeCommit := by
    rintro ⟨operation, found, -⟩
    cases found
  refine ⟨fun recorded => absurd recorded fresh, fun recorded => absurd recorded fresh, nofun,
    by decide, fun _ path changed _ => ?_⟩
  obtain ⟨-, entry, listed, same⟩ := changed
  obtain rfl : entry = "a.py" := List.mem_singleton.mp listed
  refine ⟨"a.py", by decide, ?_⟩
  rcases same with rfl | ⟨lists, -⟩
  · decide
  · exact lists

theorem commitRun_kept_first :
    Kept exactRenames { tasksDir := "tasks" } beforeCommit afterCommit :=
  commitRun_kept run_afterCommit
    (fun _ among => List.mem_singleton.mp among ▸ timely_beforeCommit) _ List.mem_cons_self

/-- A second call returns the recorded commit and leaves the later edit out of HEAD. -/
theorem later_edit_left_out :
    CommitRun exactRenames { tasksDir := "tasks" } beforeCommit
        [(.code "feat: a", beforeCommit, afterCommit), (.code "fix: a", editedAgain, editedAgain)]
        editedAgain ∧
      ¬ Kept exactRenames { tasksDir := "tasks" } editedAgain editedAgain := by
  have second : (Call.program exactRenames { tasksDir := "tasks" } (.code "fix: a") editedAgain).2 =
      .ok (some firstCommit, editedAgain) := rfl
  refine ⟨.returns (.edit _ _ run_afterCommit) second, fun kept => ?_⟩
  have changed : ChangedCode exactRenames { tasksDir := "tasks" } editedAgain.clone "a.py" :=
    ⟨by decide, "a.py", by decide, .inl rfl⟩
  have same : (some "1" : Option String) = some "2" := kept.contains "a.py" changed
  exact absurd same (by decide)

end Orchestrator.Git
