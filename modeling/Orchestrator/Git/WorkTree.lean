import Mathlib.Data.List.Dedup
import Orchestrator.Foundation.OrderedDict
import Orchestrator.Foundation.Text

/-! # The working tree against a commit

What `git diff --name-only` and `git ls-files --others` list of a checkout. A tree gives
each path an entry, its mode and content together.
-/

namespace Orchestrator.Git

open Orchestrator.Foundation

/-- A checkout: the paths git tracks, the files on disk, and the ignore rules. -/
structure WorkTree (Entry : Type) where
  index : List String
  files : Dict Entry
  ignored : String → Bool

/-- A rename detection: of the deleted and the added entries, the old and new path of each
rename. -/
abbrev RenameDetection (Entry : Type) :=
  List (String × Entry) → List (String × Entry) → List (String × String)

/-- The detection of unchanged content: each added entry takes the first equal one deleted. -/
def exactRenames {Entry : Type} [DecidableEq Entry] : RenameDetection Entry
  | _, [] => []
  | deleted, (path, entry) :: added =>
      match deleted.find? fun old => old.2 = entry with
      | some old =>
        (old.1, path) :: exactRenames (deleted.filter fun other => other.1 ≠ old.1) added
      | none => exactRenames deleted added

section Listings

variable {Entry : Type} [DecidableEq Entry]

/-- The entry of a tracked path, if it is on disk. -/
def WorkTree.tracked (tree : WorkTree Entry) (path : String) : Option Entry :=
  if path ∈ tree.index then tree.files.lookup path else none

/-- What git sees at a path: a file that it tracks or does not ignore. -/
def WorkTree.visible (tree : WorkTree Entry) (path : String) : Option Entry :=
  if path ∈ tree.index ∨ tree.ignored path = false then tree.files.lookup path else none

/-- `git ls-files --others --exclude-standard`. -/
def WorkTree.untracked (tree : WorkTree Entry) : List String :=
  tree.files.keys.filter fun path => path ∉ tree.index ∧ tree.ignored path = false

variable (base : Dict Entry) (tree : WorkTree Entry)

/-- The paths whose tracked entry is not the base's. -/
def trackedChanges : List String :=
  (base.keys ++ tree.index).dedup.filter fun path => base.lookup path ≠ tree.tracked path

/-- The entries a lookup gives a list of paths. -/
def entriesAt (lookup : String → Option Entry) (paths : List String) : List (String × Entry) :=
  paths.filterMap fun path => (lookup path).map fun entry => (path, entry)

/-- The base's entries that are no longer tracked files. -/
def deletedEntries : List (String × Entry) :=
  entriesAt (base.lookup ·) ((trackedChanges base tree).filter fun path => tree.tracked path = none)

/-- The tracked files that the base does not have. -/
def addedEntries : List (String × Entry) :=
  entriesAt tree.tracked ((trackedChanges base tree).filter fun path => base.lookup path = none)

variable (detectRenames : RenameDetection Entry)

/-- The deleted paths that are the old end of a detected rename. -/
def movedAway : List String :=
  ((deletedEntries base tree).map Prod.fst).filter fun path =>
    (detectRenames (deletedEntries base tree) (addedEntries base tree)).any fun rename =>
      rename.1 = path

/-- `git diff --name-only base`: a detected rename is named by its new path alone. -/
def diffNameOnly : List String :=
  (trackedChanges base tree).filter fun path => path ∉ movedAway base tree detectRenames

/-- The directories whose files are no code. -/
def excludedDirs (tasksDir : String) : List String := [".worc", ".worc-io", tasksDir]

/-- `_is_artifact_path`. -/
def isArtifactPath (tasksDir path : String) : Bool :=
  (excludedDirs tasksDir).any fun dir => Text.replace path '\\' '/' = dir ||
    Text.startsWith (Text.replace path '\\' '/') (dir ++ "/")

/-- `changed_code_paths_since_base`. -/
def changedCodePathsSinceBase (tasksDir : String) : List String :=
  ((diffNameOnly base tree detectRenames ++ tree.untracked).filter fun path =>
    !isArtifactPath tasksDir path).dedup

/-! ## What changed and what is listed -/

/-- The path exists in one of the trees only, or differs between them. -/
def Touched (path : String) : Prop := base.lookup path ≠ tree.visible path

/-- The path is named by the diff or by the untracked listing, once renames are undone. -/
def Named (path : String) : Prop := path ∈ trackedChanges base tree ∨ path ∈ tree.untracked

/-- The path is the old end of a rename, with no new file in its place. -/
def MovedOut (path : String) : Prop :=
  path ∈ movedAway base tree detectRenames ∧ path ∉ tree.untracked

variable {base tree detectRenames}

theorem mem_trackedChanges {path : String} :
    path ∈ trackedChanges base tree ↔ base.lookup path ≠ tree.tracked path := by
  rw [trackedChanges, List.mem_filter, List.mem_dedup, decide_eq_true_eq]
  refine and_iff_right_of_imp fun differs => ?_
  by_cases tracked : path ∈ tree.index
  · exact List.mem_append_right _ tracked
  · rw [WorkTree.tracked, if_neg tracked] at differs
    obtain ⟨entry, found⟩ := Option.ne_none_iff_exists'.mp differs
    exact List.mem_append_left _ (Dict.mem_keys_of_lookup found)

/-- Every touched path is named. -/
theorem named_of_touched {path : String} (touched : Touched base tree path) :
    Named base tree path := by
  unfold Touched WorkTree.visible at touched
  by_cases tracked : path ∈ tree.index
  · left
    rw [if_pos (.inl tracked)] at touched
    rwa [mem_trackedChanges, WorkTree.tracked, if_pos tracked]
  · by_cases hidden : tree.ignored path = false
    · rw [if_pos (.inr hidden)] at touched
      cases found : tree.files.lookup path with
      | none =>
          left
          rw [found] at touched
          rwa [mem_trackedChanges, WorkTree.tracked, if_neg tracked]
      | some entry =>
          right
          rw [WorkTree.untracked, List.mem_filter]
          exact ⟨Dict.mem_keys_of_lookup found, decide_eq_true ⟨tracked, hidden⟩⟩
    · left
      rw [if_neg (not_or.mpr ⟨tracked, hidden⟩)] at touched
      rwa [mem_trackedChanges, WorkTree.tracked, if_neg tracked]

omit [DecidableEq Entry] in
theorem mem_entriesAt {lookup : String → Option Entry} {paths : List String} {path : String} :
    path ∈ (entriesAt lookup paths).map Prod.fst ↔ path ∈ paths ∧ lookup path ≠ none := by
  rw [entriesAt, List.mem_map]
  constructor
  · rintro ⟨⟨_, entry⟩, among, rfl⟩
    obtain ⟨other, kept, found⟩ := List.mem_filterMap.mp among
    obtain ⟨value, isValue, same⟩ := Option.map_eq_some_iff.mp found
    cases same
    exact ⟨kept, by rw [isValue]; exact Option.some_ne_none _⟩
  · rintro ⟨kept, found⟩
    obtain ⟨entry, isEntry⟩ := Option.ne_none_iff_exists'.mp found
    exact ⟨(path, entry), List.mem_filterMap.mpr ⟨path, kept, by rw [isEntry]; rfl⟩, rfl⟩

/-- A deleted entry is the base's and is no tracked file. -/
theorem mem_deletedEntries {path : String} :
    path ∈ (deletedEntries base tree).map Prod.fst ↔
      base.lookup path ≠ none ∧ tree.tracked path = none := by
  rw [deletedEntries, mem_entriesAt, List.mem_filter, mem_trackedChanges, decide_eq_true_eq]
  constructor
  · rintro ⟨⟨-, gone⟩, found⟩
    exact ⟨found, gone⟩
  · rintro ⟨found, gone⟩
    exact ⟨⟨by rw [gone]; exact found, gone⟩, found⟩

/-- An added entry is a tracked file and not the base's. -/
theorem mem_addedEntries {path : String} :
    path ∈ (addedEntries base tree).map Prod.fst ↔
      base.lookup path = none ∧ tree.tracked path ≠ none := by
  rw [addedEntries, mem_entriesAt, List.mem_filter, mem_trackedChanges, decide_eq_true_eq]
  constructor
  · rintro ⟨⟨-, absent⟩, found⟩
    exact ⟨absent, found⟩
  · rintro ⟨absent, found⟩
    exact ⟨⟨by rw [absent]; exact Ne.symm found, absent⟩, found⟩

/-- The old end of a rename was in the base and is no tracked file. -/
theorem deleted_of_movedAway {path : String} (moved : path ∈ movedAway base tree detectRenames) :
    base.lookup path ≠ none ∧ tree.tracked path = none :=
  mem_deletedEntries.mp (List.mem_filter.mp moved).1

/-- A path moved out is touched. -/
theorem touched_of_movedOut {path : String} (moved : MovedOut base tree detectRenames path) :
    Touched base tree path := by
  obtain ⟨inBase, untracked⟩ := deleted_of_movedAway moved.1
  suffices gone : tree.visible path = none by
    rwa [Touched, gone]
  unfold WorkTree.tracked at untracked
  unfold WorkTree.visible
  by_cases tracked : path ∈ tree.index
  · rw [if_pos tracked] at untracked
    rwa [if_pos (.inl tracked)]
  · by_cases hidden : tree.ignored path = false
    · rw [if_pos (.inr hidden)]
      by_contra present
      obtain ⟨entry, found⟩ := Option.ne_none_iff_exists'.mp present
      apply moved.2
      rw [WorkTree.untracked, List.mem_filter]
      exact ⟨Dict.mem_keys_of_lookup found, decide_eq_true ⟨tracked, hidden⟩⟩
    · exact if_neg (not_or.mpr ⟨tracked, hidden⟩)

/-- The listing has every named path of the code, but those moved out. -/
theorem mem_changedCodePathsSinceBase {tasksDir path : String} :
    path ∈ changedCodePathsSinceBase base tree detectRenames tasksDir ↔
      Named base tree path ∧ ¬ MovedOut base tree detectRenames path ∧
        isArtifactPath tasksDir path = false := by
  rw [changedCodePathsSinceBase, List.mem_dedup, List.mem_filter, List.mem_append, diffNameOnly,
    List.mem_filter, decide_eq_true_eq, Bool.not_eq_true', ← and_assoc]
  refine and_congr_left fun _ => ?_
  unfold Named MovedOut
  tauto

end Listings

end Orchestrator.Git
