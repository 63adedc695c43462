import Mathlib.Data.List.DropRight
import Orchestrator.Git.CommitRuns

/-! # What a code commit stages

A code commit is made of the whole index, behind a gate that lists what it may hold. An untracked
directory is one entry of that list, and the task lifecycle directory may lie below it.
-/

namespace Orchestrator.Git

open Orchestrator.Foundation
open Orchestrator.Foundation.Steps

/-! ## Directories and what lists them -/

/-- Trailing marks are dropped behind the last part that is kept. -/
theorem rdropWhile_append_mark (front tail : List Char) (mark : Char) :
    front.rdropWhile (fun letter => letter = mark) ++ [mark] <+: front ++ mark :: tail := by
  induction front using List.reverseRecOn generalizing tail with
  | nil => exact ⟨tail, rfl⟩
  | append_singleton front last ih =>
      rw [List.rdropWhile_concat]
      by_cases same : last = mark
      · rw [if_pos (decide_eq_true same), List.append_assoc, same]
        exact ih (mark :: tail)
      · rw [if_neg (by simpa using same)]
        exact ⟨tail, by simp⟩

/-- Behind a mark, either all is dropped or the mark is kept. -/
theorem rdropWhile_append_cons (front rest : List Char) (mark : Char) :
    (front ++ mark :: rest).rdropWhile (fun letter => letter = mark) =
        front.rdropWhile (fun letter => letter = mark) ∨
      front.rdropWhile (fun letter => letter = mark) ++ [mark] <+:
        (front ++ mark :: rest).rdropWhile fun letter => letter = mark := by
  induction rest using List.reverseRecOn with
  | nil => exact .inl (List.rdropWhile_concat_pos _ _ _ (decide_eq_true rfl))
  | append_singleton rest last ih =>
      rw [← List.cons_append, ← List.append_assoc, List.rdropWhile_concat]
      by_cases same : last = mark
      · rw [if_pos (decide_eq_true same)]
        exact ih
      · rw [if_neg (by simpa using same), List.append_assoc, List.cons_append]
        exact .inr (rdropWhile_append_mark front (rest ++ [last]) mark)

/-- A path in slashes alone. -/
def slashed (path : List Char) : List Char :=
  path.map fun letter => if letter = '\\' then '/' else letter

theorem slashed_append_slash (front rest : List Char) :
    slashed (front ++ '/' :: rest) = slashed front ++ '/' :: slashed rest := by
  rw [slashed, List.map_append, List.map_cons]
  rfl

/-- A declared directory is a relative one. -/
def IsRelative (directory : String) : Prop :=
  ∃ first rest, directory.toList = first :: rest ∧ first ≠ '/' ∧ first ≠ '\\'

theorem toList_normalized {path : String} {first : Char} {rest : List Char}
    (starts : path.toList = first :: rest) (inner : first ≠ '/' ∧ first ≠ '\\') :
    (Text.stripWhere (· = '/') (Text.replace path '\\' '/')).toList =
      (slashed path.toList).rdropWhile fun letter => letter = '/' := by
  have kept : (slashed path.toList).dropWhile (fun letter => decide (letter = '/')) =
      slashed path.toList := by
    rw [starts, slashed, List.map_cons, if_neg inner.2]
    exact List.dropWhile_cons_of_neg (by simpa using inner.1)
  rw [Text.stripWhere, Text.replace, String.toList_ofList, String.toList_ofList]
  change ((slashed path.toList).dropWhile _).rdropWhile _ = _
  rw [kept]

/-- An entry that lists a path below a directory is in the directory, or above it. -/
theorem entry_cases {entry directory path : String} (below : underDir directory path = true)
    (lists : listedBy entry path = true) :
    entry.toList = directory.toList ∨
      (∃ rest, entry.toList = directory.toList ++ '/' :: rest) ∨
        ∃ front rest, entry.toList = front ++ ['/'] ∧ directory.toList = front ++ '/' :: rest := by
  rw [listedBy, Bool.or_eq_true, Bool.and_eq_true, decide_eq_true_eq] at lists
  rw [underDir, Bool.or_eq_true, decide_eq_true_eq, Text.startsWith, List.isPrefixOf_iff_prefix,
    String.toList_append] at below
  have above (front : List Char) (whole : entry.toList = front ++ ['/'])
      (starts : entry.toList <+: directory.toList) :
      ∃ front rest, entry.toList = front ++ ['/'] ∧ directory.toList = front ++ '/' :: rest := by
    obtain ⟨rest, directory_eq⟩ := starts
    refine ⟨front, rest, whole, ?_⟩
    rw [← directory_eq, whole, List.append_assoc, List.singleton_append]
  have inside (longer : directory.toList ++ ['/'] <+: entry.toList) :
      ∃ rest, entry.toList = directory.toList ++ '/' :: rest := by
    obtain ⟨rest, entry_eq⟩ := longer
    exact ⟨rest, by rw [← entry_eq, List.append_assoc, List.singleton_append]⟩
  rcases lists with rfl | ⟨ends, starts⟩
  · rcases below with rfl | longer
    · exact .inl rfl
    · exact .inr (.inl (inside longer))
  · rw [Text.endsWith, List.isSuffixOf_iff_suffix] at ends
    rw [Text.startsWith, List.isPrefixOf_iff_prefix] at starts
    obtain ⟨front, whole⟩ := ends
    rcases below with rfl | longer
    · exact .inr (.inr (above front whole.symm starts))
    · rcases List.prefix_or_prefix_of_prefix starts longer with shorter | further
      · rcases List.prefix_concat_iff.mp shorter with same | shorter
        · exact .inr (.inl ⟨[], same⟩)
        · exact .inr (.inr (above front whole.symm shorter))
      · exact .inr (.inl (inside further))

/-- An entry that lists a path of the declared directory would stage it. -/
theorem underDeclaredDir_of_listedBy {entry declared path : String}
    (relative : IsRelative declared) (below : underDir declared path = true)
    (lists : listedBy entry path = true) : underDeclaredDir entry (some declared) = true := by
  obtain ⟨first, rest, starts, inner⟩ := relative
  have base := toList_normalized starts inner
  simp only [underDeclaredDir, Bool.or_eq_true, decide_eq_true_eq, Text.startsWith,
    List.isPrefixOf_iff_prefix, String.toList_append, ← String.toList_inj]
  rcases entry_cases below lists with same | ⟨tail, longer⟩ | ⟨front, tail, whole, shorter⟩
  · rw [toList_normalized (same.trans starts) inner, base, same]
    exact .inl (.inl rfl)
  · have entryStarts : entry.toList = first :: (rest ++ '/' :: tail) := by
      rw [longer, starts, List.cons_append]
    rw [toList_normalized entryStarts inner, base, longer, slashed_append_slash]
    exact .inl (rdropWhile_append_cons (slashed declared.toList) (slashed tail) '/')
  · cases front with
    | nil =>
        rw [starts] at shorter
        exact absurd (List.cons.inj shorter).1 inner.1
    | cons other front =>
        obtain rfl : first = other := (List.cons.inj (starts.symm.trans shorter)).1
        have entryStarts : entry.toList = first :: (front ++ ['/']) := whole
        have dropped : (slashed entry.toList).rdropWhile (fun letter => decide (letter = '/')) =
            (slashed (first :: front)).rdropWhile fun letter => decide (letter = '/') := by
          rw [whole, slashed_append_slash]
          exact List.rdropWhile_concat_pos _ _ _ rfl
        rw [toList_normalized entryStarts inner, base, dropped, shorter, slashed_append_slash]
        rcases rdropWhile_append_cons (slashed (first :: front))
          (slashed tail) '/' with same | longer
        · exact .inl (.inl same.symm)
        · exact .inr longer

/-! ## The lifecycle directory -/

/-- `tasks_ignore_root`: the lifecycle directory as git spells it. -/
def tasksIgnoreRoot (tasksDir : String) : String :=
  Text.stripWhere (· = '/') (Text.strip (Text.replace tasksDir '\\' '/'))

section Lifecycle

variable {Entry : Type} [DecidableEq Entry]

/-- The names of a clone are those of files. -/
def Clone.Named (clone : Clone Entry) : Prop :=
  ∀ path ∈ clone.head.tree.keys ++ clone.index.keys ++ clone.files.keys,
    Text.endsWith path "/" = false

/-- The staged set holds nothing of the runtime homes and of the lifecycle directory, old ends of
renames included; and but for those, no private report and only what the paths list. -/
structure StagesOnlyCode (detectRenames : RenameDetection Entry) (exclusions : Exclusions)
    (paths : List String) (clone : Clone Entry) : Prop where
  homes : ∀ path ∈ clone.staged, ∀ directory ∈ runtimeExcludedDirs, underDir directory path = false
  lifecycle : ∀ path ∈ clone.staged,
    Text.startsWith path (tasksIgnoreRoot exclusions.tasksDir ++ "/") = false
  report : ∀ path ∈ clone.staged, clone.renamedAway detectRenames path = false →
    ∀ directory ∈ exclusions.reportDir, underDir directory path = false
  listed : ∀ path ∈ clone.staged, clone.renamedAway detectRenames path = false →
    ∃ entry ∈ paths, listedBy entry path = true

/-- An untracked directory above the lifecycle directory is a changed code path, and HEAD does not
hold of some lifecycle path what is left there: nothing behind the guard, what git sees without. -/
def ExposesLifecycle (detectRenames : RenameDetection Entry) (exclusions : Exclusions)
    (clone : Clone Entry) : Prop :=
  ∃ entry ∈ clone.changedCodePaths detectRenames exclusions,
    Text.endsWith entry "/" = true ∧ Text.startsWith exclusions.tasksDir entry = true ∧
      ∃ path, Text.startsWith path (exclusions.tasksDir ++ "/") = true ∧
        clone.head.tree.lookup path ≠ if clone.tasksIgnored then clone.visible path else none

variable {detectRenames : RenameDetection Entry} {exclusions : Exclusions} {clone : Clone Entry}

theorem mem_staged {path : String} : path ∈ clone.staged ↔
    clone.head.tree.lookup path ≠ clone.index.lookup path := by
  rw [Clone.staged, List.mem_filter, List.mem_dedup, decide_eq_true_eq, List.mem_append]
  refine and_iff_right_of_imp fun differs => ?_
  by_contra outside
  obtain ⟨unknown, untracked⟩ := not_or.mp outside
  exact differs ((AList.lookup_eq_none.mpr unknown).trans (AList.lookup_eq_none.mpr untracked).symm)

omit [DecidableEq Entry] in
theorem replace_of_plain {text : String} (plain : '\\' ∉ text.toList) :
    Text.replace text '\\' '/' = text := by
  rw [Text.replace, ← String.toList_inj, String.toList_ofList]
  refine (List.map_congr_left fun letter among => ?_).trans (List.map_id _)
  refine if_neg fun same => ?_
  exact plain (same ▸ among)

/-- A code path that lists a lifecycle path is a directory above. -/
theorem above_of_listedBy {tasksDir entry path : String} (slashes : '\\' ∉ tasksDir.toList)
    (code : isArtifactPath tasksDir entry = false)
    (below : Text.startsWith path (tasksDir ++ "/") = true) (lists : listedBy entry path = true) :
    Text.endsWith entry "/" = true ∧ Text.startsWith tasksDir entry = true := by
  have inside : underDir tasksDir path = true := by rw [underDir, below, Bool.or_true]
  rcases entry_cases inside lists with same | ⟨rest, longer⟩ | ⟨front, rest, whole, shorter⟩
  · rw [String.toList_inj] at same
    have artifact : isArtifactPath tasksDir tasksDir = true := by
      simp [isArtifactPath, excludedDirs, replace_of_plain slashes]
    rw [same, artifact] at code
    cases code
  · have outside := startsWith_tasksDir slashes code
    have starts : Text.startsWith entry (tasksDir ++ "/") = true := by
      rw [Text.startsWith, List.isPrefixOf_iff_prefix, String.toList_append, longer]
      exact ⟨rest, by rw [List.append_assoc]; rfl⟩
    rw [starts] at outside
    cases outside
  · constructor
    · rw [Text.endsWith, List.isSuffixOf_iff_suffix, whole]
      exact ⟨front, rfl⟩
    · rw [Text.startsWith, List.isPrefixOf_iff_prefix, whole, shorter]
      exact ⟨rest, by rw [List.append_assoc, List.singleton_append]⟩

/-- A changed code path is no artifact and would stage no private report. -/
theorem of_mem_changedCodePaths {entry : String}
    (listed : entry ∈ clone.changedCodePaths detectRenames exclusions) :
    isArtifactPath exclusions.tasksDir entry = false ∧
      underDeclaredDir entry exclusions.reportDir = false ∧
        ∃ code, ⟨code, entry⟩ ∈ clone.status detectRenames := by
  obtain ⟨record, kept, rfl⟩ := List.mem_map.mp listed
  obtain ⟨among, outside⟩ := List.mem_filter.mp kept
  rw [Bool.not_eq_true', Bool.or_eq_false_iff] at outside
  exact ⟨outside.1, outside.2, record.code, among⟩

/-- A directory is listed for an untracked file, and holds no tracked one. -/
theorem of_status_directory {record : StatusRecord} (named : clone.Named)
    (among : record ∈ clone.status detectRenames) (ends : Text.endsWith record.path "/" = true) :
    record.code = ('?', '?') ∧
      ∀ path, Text.startsWith path record.path = true → path ∉ clone.index := by
  rcases List.mem_append.mp among with tracked | untracked
  · obtain ⟨path, known, shown⟩ := List.mem_filterMap.mp tracked
    dsimp only at shown
    split at shown
    · cases shown
    · cases shown
      have file := named path (List.mem_append_left _
        (List.mem_dedup.mp ((List.mem_insertionSort (· ≤ ·)).mp known)))
      rw [file] at ends
      cases ends
  · obtain ⟨directory, listed, rfl⟩ := List.mem_map.mp untracked
    refine ⟨rfl, fun path below tracked => ?_⟩
    have collapsed := List.mem_dedup.mp ((List.mem_insertionSort (· ≤ ·)).mp listed)
    obtain ⟨file, present, same⟩ := List.mem_map.mp collapsed
    rw [Clone.untrackedEntry] at same
    cases found : (directoriesAbove file).find? fun directory =>
        clone.index.keys.all fun tracked => !Text.startsWith tracked directory with
    | none =>
        rw [found, Option.getD_none] at same
        have plain := named file (List.mem_append_right _ (List.mem_filter.mp present).1)
        rw [same] at plain
        exact Bool.false_ne_true (plain.symm.trans ends)
    | some other =>
        rw [found, Option.getD_some] at same
        have every := List.find?_some found
        have empty := List.all_eq_true.mp every path tracked
        rw [same, Bool.not_eq_true'] at empty
        exact Bool.false_ne_true (empty.symm.trans below)

/-- What the index holds of a lifecycle path below a directory that was added. -/
theorem lookup_addPaths_below {entry path : String} {index : Dict Entry} (named : clone.Named)
    (listed : entry ∈ clone.changedCodePaths detectRenames exclusions)
    (ends : Text.endsWith entry "/" = true)
    (above : Text.startsWith exclusions.tasksDir entry = true)
    (below : Text.startsWith path (exclusions.tasksDir ++ "/") = true)
    (added : addPaths detectRenames exclusions clone
      (clone.changedCodePaths detectRenames exclusions) = .ok index) :
    index.lookup path = if clone.tasksIgnored then clone.visible path else none := by
  obtain ⟨-, -, code, among⟩ := of_mem_changedCodePaths listed
  obtain ⟨-, untracked⟩ := of_status_directory named among ends
  have starts : Text.startsWith path entry = true := by
    rw [Text.startsWith, List.isPrefixOf_iff_prefix] at above below ⊢
    rw [String.toList_append] at below
    exact above.trans ((List.prefix_append _ _).trans below)
  have absent : clone.index.lookup path = none := AList.lookup_eq_none.mpr (untracked path starts)
  have kept : entry ∈ (stagedPathspec detectRenames exclusions clone
      (clone.changedCodePaths detectRenames exclusions)).1 := by
    refine List.mem_filter.mpr ⟨listed, decide_eq_true fun deleted => ?_⟩
    obtain ⟨record, found, same⟩ := List.mem_map.mp deleted
    obtain ⟨here, gone⟩ := List.mem_filter.mp found
    obtain ⟨unknown, -⟩ := of_status_directory named here (same ▸ ends)
    rw [unknown] at gone
    cases gone
  have matched : ((stagedPathspec detectRenames exclusions clone
      (clone.changedCodePaths detectRenames exclusions)).1.any fun entry =>
        matchesPathspec entry path) = true := by
    refine List.any_eq_true.mpr ⟨entry, kept, ?_⟩
    rw [matchesPathspec, listedBy, ends, starts, Bool.and_true, Bool.or_true, Bool.true_or]
  rw [addPaths] at added
  dsimp only at added
  rw [if_neg (List.ne_nil_of_mem kept)] at added
  split at added
  · cases added
    rename_i result
    rw [lookup_add result, absent]
    by_cases ignored : clone.tasksIgnored = true
    · rw [if_pos ignored, if_pos ⟨matched, by rw [stagedPathspec, if_pos ignored]; rfl⟩]
    · rw [if_neg ignored, if_neg]
      rintro ⟨-, unguarded⟩
      rw [stagedPathspec, if_neg ignored, Option.any_some, below] at unguarded
      cases unguarded
  · cases added

theorem mem_of_mem_stripWhere {test : Char → Bool} {text : String} {letter : Char}
    (among : letter ∈ (Text.stripWhere test text).toList) : letter ∈ text.toList := by
  rw [Text.stripWhere, String.toList_ofList, List.mem_reverse] at among
  have kept := List.mem_reverse.mp ((List.dropWhile_suffix _).subset among)
  exact (List.dropWhile_suffix _).subset kept

theorem slashes_tasksIgnoreRoot (tasksDir : String) :
    '\\' ∉ (tasksIgnoreRoot tasksDir).toList := by
  intro among
  have kept := mem_of_mem_stripWhere (mem_of_mem_stripWhere among)
  rw [Text.replace, String.toList_ofList] at kept
  obtain ⟨letter, -, same⟩ := List.mem_map.mp kept
  split at same
  · cases same
  · next other => exact other same

/-! ## The gate -/

/-- What the gate has checked of a staged set. -/
structure Gated (detectRenames : RenameDetection Entry) (exclusions : Exclusions)
    (paths : List String) (clone : Clone Entry) : Prop where
  homes : ∀ path ∈ clone.staged, ∀ directory ∈ runtimeExcludedDirs, underDir directory path = false
  shown : ∀ path ∈ clone.staged, clone.renamedAway detectRenames path = false →
    ∃ entry ∈ paths, listedBy entry path = true
  sources : ∀ path, clone.renamedAway detectRenames path = true →
    isArtifactPath exclusions.tasksDir path = true → ∃ entry ∈ paths, listedBy entry path = true

theorem gated_of_assertStagedAllowed {paths : List String}
    (allowed : assertStagedAllowed detectRenames exclusions paths clone = .ok ()) :
    Gated detectRenames exclusions paths clone := by
  rw [assertStagedAllowed] at allowed
  split at allowed
  · next outside =>
      dsimp only at allowed
      split at allowed
      · next every =>
          rw [exchangeNeverStaged, Bool.and_eq_true, List.all_eq_true, List.all_eq_true] at outside
          rw [Bool.and_eq_true, List.all_eq_true, List.all_eq_true] at every
          refine ⟨fun path among directory home => ?_, fun path among shown => ?_, ?_⟩
          · have apart := outside.2 path among
            rw [Bool.not_eq_true', List.any_eq_false] at apart
            exact Bool.eq_false_iff.mpr (apart directory home)
          · have kept : path ∈ clone.staged.filter fun path =>
                !clone.renamedAway detectRenames path :=
              List.mem_filter.mpr ⟨among, by rw [shown]; rfl⟩
            exact List.any_eq_true.mp (every.1 path kept)
          · intro path moved artifact
            rw [Clone.renamedAway, Bool.and_eq_true, List.any_eq_true] at moved
            obtain ⟨-, rename, detected, same⟩ := moved
            have source := every.2 rename.1 (List.mem_map_of_mem detected)
            rw [of_decide_eq_true same, artifact] at source
            exact List.any_eq_true.mp source
      · cases allowed
  · cases allowed

theorem isArtifactPath_of_lifecycle {tasksDir path : String} (slashes : '\\' ∉ tasksDir.toList)
    (below : Text.startsWith path (tasksDir ++ "/") = true) :
    isArtifactPath tasksDir path = true := by
  by_contra outside
  have apart := startsWith_tasksDir slashes (Bool.eq_false_iff.mpr outside)
  rw [below] at apart
  cases apart

/-- A lifecycle path that passes the gate is listed by a directory above. -/
theorem Gated.above {paths : List String} {path : String}
    (gated : Gated detectRenames exclusions paths clone)
    (slashes : '\\' ∉ exclusions.tasksDir.toList)
    (code : ∀ entry ∈ paths, isArtifactPath exclusions.tasksDir entry = false)
    (among : path ∈ clone.staged)
    (below : Text.startsWith path (exclusions.tasksDir ++ "/") = true) :
    ∃ entry ∈ paths, Text.endsWith entry "/" = true ∧
      Text.startsWith exclusions.tasksDir entry = true := by
  have listed : ∃ entry ∈ paths, listedBy entry path = true := by
    by_cases moved : clone.renamedAway detectRenames path = true
    · exact gated.sources path moved (isArtifactPath_of_lifecycle slashes below)
    · exact gated.shown path among (Bool.eq_false_iff.mpr moved)
  obtain ⟨entry, present, lists⟩ := listed
  exact ⟨entry, present, above_of_listedBy slashes (code entry present) below lists⟩

/-! ## The commits of a call -/

variable {state visited : TaskState Entry}

/-- What was staged where a commit moved HEAD. -/
def StagedFor (detectRenames : RenameDetection Entry) (exclusions : Exclusions)
    (paths : List String) (clone : Clone Entry) (index : Dict Entry) : Prop :=
  addPaths detectRenames exclusions clone paths = .ok index ∧
    assertStagedAllowed detectRenames exclusions paths { clone with index := index } = .ok ()

theorem of_visited_makeCommit {key : OperationKey} {message : String} {paths : List String}
    (among : visited ∈ (makeCommit detectRenames exclusions key message paths state).1) :
    visited.clone.head = state.clone.head ∨
      StagedFor detectRenames exclusions paths state.clone visited.clone.index := by
  rcases of_visited_bind among with marked | ⟨_, _, marked, rest⟩
  · rw [List.mem_singleton.mp marked]
    exact .inl rfl
  cases marked
  rcases of_visited_bind rest with none | ⟨_, _, started, rest⟩
  · cases none
  cases started
  split at rest
  · cases rest
  split at rest
  · cases rest
  rcases of_visited_bind rest with none | ⟨index, _, added, rest⟩
  · exact absurd none not_visited_ofExcept
  obtain ⟨indexed, unchanged⟩ := of_result_ofExcept added
  rw [unchanged] at rest
  rcases of_visited_bind rest with placed | ⟨_, _, placed, rest⟩
  · rw [List.mem_singleton.mp placed]
    exact .inl rfl
  cases placed
  rcases of_visited_bind rest with none | ⟨_, _, seen, rest⟩
  · cases none
  cases seen
  rcases of_visited_bind rest with none | ⟨_, _, allowed, rest⟩
  · exact absurd none not_visited_ofExcept
  obtain ⟨passed, unchanged⟩ := of_result_ofExcept allowed
  rw [unchanged] at rest
  rcases of_visited_bind rest with none | ⟨made, _, committed, rest⟩
  · exact absurd none not_visited_ofExcept
  obtain ⟨-, unchanged⟩ := of_result_ofExcept committed
  rw [unchanged] at rest
  -- From here on the index is the one that passed the gate.
  have kept : visited.clone.index = index := by
    rcases of_visited_bind rest with moved | ⟨_, _, moved, rest⟩
    · rw [List.mem_singleton.mp moved]
      rfl
    cases moved
    rcases of_visited_bind rest with recorded | ⟨_, _, recorded, rest⟩
    · rw [List.mem_singleton.mp recorded]
      rfl
    cases recorded
    rcases of_visited_bind rest with advanced | ⟨_, _, -, rest⟩
    · rw [List.mem_singleton.mp advanced]
      rfl
    cases rest
  rw [kept]
  exact .inr ⟨indexed, passed⟩

theorem of_visited_commit {key : OperationKey} {message : String} {paths : List String}
    (among : visited ∈ (commit detectRenames exclusions key message paths state).1) :
    visited.clone.head = state.clone.head ∨
      StagedFor detectRenames exclusions paths state.clone visited.clone.index := by
  rcases of_visited_bind among with none | ⟨_, _, started, rest⟩
  · cases none
  cases started
  cases found : state.operations key with
  | none =>
      rw [found] at rest
      exact of_visited_makeCommit rest
  | some operation =>
      obtain ⟨status, resultRef⟩ := operation
      rw [found] at rest
      cases status with
      | started => exact of_visited_makeCommit rest
      | completed => cases rest

theorem of_visited_adopt {key : OperationKey}
    (among : visited ∈ (@adoptCommittedHead Entry _ key state).1) :
    visited.clone = state.clone := by
  rcases of_visited_bind among with none | ⟨_, _, started, rest⟩
  · cases none
  cases started
  cases found : state.gateReference with
  | none =>
      rw [found] at rest
      cases rest
  | some reference =>
      rw [found] at rest
      dsimp only at rest
      split at rest
      · cases rest
      rcases of_visited_bind rest with recorded | ⟨_, _, recorded, rest⟩
      · rw [List.mem_singleton.mp recorded]
        rfl
      cases recorded
      rcases of_visited_bind rest with advanced | ⟨_, _, -, rest⟩
      · rw [List.mem_singleton.mp advanced]
        rfl
      cases rest

/-- A commit that makes nothing leaves the clone as it was. -/
theorem clone_of_commit_none {key : OperationKey} {message : String} {paths : List String}
    {after : TaskState Entry}
    (result : (commit detectRenames exclusions key message paths state).2 = .ok (none, after)) :
    after.clone = state.clone := by
  by_cases recorded : ∃ operation, state.operations key = some operation ∧
      operation.status = .completed
  · obtain ⟨operation, found, completed⟩ := recorded
    rw [of_commit_recorded found completed result]
  · rcases of_makeCommit_ok (of_commit_fresh recorded result) with
      ⟨-, -, clone, -⟩ | ⟨-, _, -, -, made, -⟩
    · exact clone
    · cases made

/-- A state that a call passes through has the HEAD it began with, or what it staged was gated. -/
theorem of_visited_call {call : Call}
    (among : visited ∈ (call.program detectRenames exclusions state).1) :
    visited.clone.head = state.clone.head ∨
      StagedFor detectRenames exclusions (state.clone.changedCodePaths detectRenames exclusions)
        state.clone visited.clone.index := by
  cases call with
  | code message =>
      rcases of_visited_bind among with none | ⟨_, _, started, rest⟩
      · cases none
      cases started
      split at rest
      · exact .inl (congrArg Clone.head (of_visited_adopt rest))
      · exact of_visited_commit rest
  | subtask order message =>
      rcases of_visited_bind among with none | ⟨_, _, started, rest⟩
      · cases none
      cases started
      rcases of_visited_bind rest with made | ⟨value, middle, ended, rest⟩
      · exact of_visited_commit made
      cases value with
      | some made => cases rest
      | none =>
          have same := (of_visited_adopt rest).trans (clone_of_commit_none ended)
          exact .inl (congrArg Clone.head same)

/-- The commit of a call holds only code, if and only if no untracked directory above the lifecycle
directory takes lifecycle paths along. -/
theorem stagesOnlyCode_iff {call : Call}
    (canonical : tasksIgnoreRoot exclusions.tasksDir = exclusions.tasksDir)
    (relative : ∀ directory ∈ exclusions.reportDir, IsRelative directory)
    (named : state.clone.Named)
    (among : visited ∈ (call.program detectRenames exclusions state).1)
    (moved : visited.clone.head ≠ state.clone.head) :
    StagesOnlyCode detectRenames exclusions
        (state.clone.changedCodePaths detectRenames exclusions)
        { state.clone with index := visited.clone.index } ↔
      ¬ ExposesLifecycle detectRenames exclusions state.clone := by
  have slashes : '\\' ∉ exclusions.tasksDir.toList := canonical ▸ slashes_tasksIgnoreRoot _
  obtain ⟨added, allowed⟩ := (of_visited_call among).resolve_left moved
  have gated := gated_of_assertStagedAllowed allowed
  have code : ∀ entry ∈ state.clone.changedCodePaths detectRenames exclusions,
      isArtifactPath exclusions.tasksDir entry = false := fun entry listed =>
    (of_mem_changedCodePaths listed).1
  constructor
  · rintro lawful ⟨entry, listed, ends, above, path, below, differs⟩
    have here : path ∈ { state.clone with index := visited.clone.index }.staged := by
      rw [mem_staged, lookup_addPaths_below named listed ends above below added]
      exact differs
    have apart := lawful.lifecycle path here
    rw [canonical, below] at apart
    cases apart
  · intro sealed
    refine ⟨gated.homes, fun path here => ?_, fun path here shown directory declared => ?_,
      gated.shown⟩
    · rw [canonical, Bool.eq_false_iff]
      intro below
      obtain ⟨entry, listed, ends, above⟩ := gated.above slashes code here below
      refine sealed ⟨entry, listed, ends, above, path, below, ?_⟩
      rw [mem_staged, lookup_addPaths_below named listed ends above below added] at here
      exact here
    · obtain ⟨entry, listed, lists⟩ := gated.shown path here shown
      rw [Bool.eq_false_iff]
      intro below
      have dropped := (of_mem_changedCodePaths listed).2.1
      rw [Option.mem_def.mp declared,
        underDeclaredDir_of_listedBy (relative directory declared) below lists] at dropped
      cases dropped

/-- A private report is declared. -/
def reportExclusions : Exclusions := { tasksDir := "tasks", reportDir := some "reports/t1" }

/-- A first file. -/
theorem stagesOnlyCode_first :
    StagesOnlyCode exactRenames reportExclusions
      (beforeCommit.clone.changedCodePaths exactRenames reportExclusions)
      { beforeCommit.clone with index := afterCommit.clone.index } := by
  have last : (Call.program exactRenames reportExclusions (.code "feat: a") beforeCommit).1[4]? =
      some afterCommit := rfl
  have moved : afterCommit.clone.head ≠ beforeCommit.clone.head := fun same =>
    absurd (congrArg (fun commit => commit.tree.lookup "a.py") same) (by decide)
  have canonical : tasksIgnoreRoot "tasks" = "tasks" := by decide +kernel
  have relative : ∀ directory ∈ some "reports/t1", IsRelative directory := by
    rintro _ ⟨⟩
    exact ⟨'r', _, rfl, by decide, by decide⟩
  have named : beforeCommit.clone.Named := by
    rw [Clone.Named]
    decide +kernel
  have law := @stagesOnlyCode_iff String _ exactRenames reportExclusions beforeCommit afterCommit
    (.code "feat: a") canonical relative named (List.mem_of_getElem? last) moved
  refine law.mpr ?_
  rintro ⟨entry, listed, ends, -⟩
  obtain rfl : entry = "a.py" := List.mem_singleton.mp listed
  exact absurd ends (by decide)

/-! ## A lifecycle directory below an untracked one -/

def taskCommit : Commit (Dict String) :=
  .mk (Dict.ofList [("docs/tasks/T1.md", "task")]) "root" .none

def notesIndex : Dict String := Dict.ofList [("docs/notes.md", "notes")]

/-- A task of `docs/tasks` is out of the index, where `docs` holds nothing else, and beside it is an
untracked file. -/
def unlistedTask : TaskState String where
  clone :=
    { head := taskCommit
      index := Dict.ofList []
      files := Dict.ofList [("docs/tasks/T1.md", "task"), ("docs/notes.md", "notes")]
      ignored := fun path => Text.startsWith path "docs/tasks/"
      tasksIgnored := true
      programs := [] }
  operations := fun _ => none
  gate := none
  diffBase := none

/-- The state right after the commit. -/
def deletedTask : TaskState String :=
  ((unlistedTask.record (.code, none) { status := .started }).setIndex notesIndex).setHead
    (taskCommit.child notesIndex "docs: notes")

/-- The code commit deletes the task. -/
theorem not_stagesOnlyCode_unlistedTask :
    deletedTask ∈ (Call.program exactRenames { tasksDir := "docs/tasks" } (.code "docs: notes")
        unlistedTask).1 ∧
      deletedTask.clone.head ≠ unlistedTask.clone.head ∧
        ¬ StagesOnlyCode exactRenames { tasksDir := "docs/tasks" }
          (unlistedTask.clone.changedCodePaths exactRenames { tasksDir := "docs/tasks" })
          { unlistedTask.clone with index := deletedTask.clone.index } := by
  have visited : (Call.program exactRenames { tasksDir := "docs/tasks" } (.code "docs: notes")
      unlistedTask).1[2]? = some deletedTask := rfl
  refine ⟨List.mem_of_getElem? visited, fun same => ?_, fun lawful => ?_⟩
  · exact absurd (congrArg (fun commit => commit.tree.lookup "docs/notes.md") same) (by decide)
  · have apart := lawful.lifecycle "docs/tasks/T1.md" (mem_staged.mpr (by decide))
    exact absurd apart (by decide +kernel)

end Lifecycle

end Orchestrator.Git
