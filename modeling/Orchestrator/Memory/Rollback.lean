import Orchestrator.Memory.Cleanup
import Orchestrator.Memory.Window

/-! # What a rollback brings back

Nothing but a snapshot into the same directory changes what the directory holds of a tier file. So
a rollback brings a file back exactly when no other snapshot of the directory captured something
else of it.
-/

/-! ## The files of the memory store and its snapshots

A snapshot copies tier files into the directory of its label, over what an earlier one left there.
A rollback removes the tier files that the directory does not hold and writes the others back.
Paths are relative to the root of the store, one name to each directory.
-/

namespace Orchestrator.Memory

abbrev RelPath := List String

abbrev Bytes := List UInt8

/-- `_LONG_TERM_FILES`. -/
def longTermFile : LongTermKind → String
  | .semantic => "semantic.jsonl"
  | .procedural => "procedural.jsonl"
  | .reviewer => "reviewer.jsonl"
  | .failure => "failures.jsonl"

/-- `_tier_candidates`: every canonical tier file, there or not. -/
def tierCandidates : List RelPath :=
  [["short_term", "recent.jsonl"], ["entities", "entities.jsonl"],
    ["quarantine", "pending.jsonl"]] ++
    LongTermKind.all.map fun kind => ["long_term", longTermFile kind]

abbrev TierPath := { path : RelPath // path ∈ tierCandidates }

def auditLogPath : RelPath := ["audit", "log.jsonl"]

/-- The files of a store. -/
abbrev MemoryFiles := RelPath → Option Bytes

namespace MemoryFiles

/-- `write_bytes`. -/
def put (files : MemoryFiles) (path : RelPath) (bytes : Bytes) : MemoryFiles :=
  Function.update files path (some bytes)

/-- The audit log with the bytes of one more row. -/
def logged (files : MemoryFiles) (row : Bytes) : MemoryFiles :=
  files.put auditLogPath ((files auditLogPath).getD [] ++ row)

/-- The step of `take_snapshot` for one path: a file that exists is copied. -/
def copyInto (directory : RelPath) (files : MemoryFiles) (path : TierPath) : MemoryFiles :=
  match files path.1 with
  | none => files
  | some bytes => files.put (directory ++ path.1) bytes

/-- `take_snapshot`. -/
def takeSnapshot (files : MemoryFiles) (directory : RelPath) (paths : List TierPath) :
    MemoryFiles :=
  paths.foldl (copyInto directory) files

/-- The tier files that a snapshot holds none of, removed. -/
def pruned (files : MemoryFiles) (directory : RelPath) : MemoryFiles := fun path =>
  if path ∈ tierCandidates ∧ files (directory ++ path) = none then none else files path

/-- `restore_snapshot`: every file below the directory is written below the root. -/
def restoreSnapshot (files : MemoryFiles) (directory : RelPath) : MemoryFiles := fun path =>
  (files (directory ++ path)).or (files path)

/-- `MemoryService.restore`. -/
def restore (files : MemoryFiles) (directory : RelPath) (row : Bytes) : MemoryFiles :=
  ((files.pruned directory).restoreSnapshot directory).logged row

end MemoryFiles

/-- Where a snapshot of a label goes: `layout.snapshots / _safe_label(label)`. -/
def snapshotDirectory (text : TextFunctions) (label : String) : RelPath :=
  let name := safeLabel text label
  if name = "." then ["audit", "snapshots"]
  else if name = ".." then ["audit"]
  else ["audit", "snapshots", name]

/-- A store whose snapshots hold no file of the audit directory. -/
structure MemoryTree where
  files : MemoryFiles
  apart : ∀ name path, files ("audit" :: "snapshots" :: name :: "audit" :: path) = none

/-- What is done to the store: a snapshot under a label, an audited write of one tier file, or a
rollback to a directory that is listed. -/
inductive MemoryStep where
  | snapshot (label : String) (paths : List TierPath)
  | write (path : TierPath) (bytes row : Bytes)
  | rollback (name : String) (listed : name ≠ "." ∧ name ≠ "..") (row : Bytes)

/-- The files after a step. -/
def MemoryStep.apply (text : TextFunctions) (files : MemoryFiles) : MemoryStep → MemoryFiles
  | snapshot label paths => files.takeSnapshot (snapshotDirectory text label) paths
  | write path bytes row => (files.put path.1 bytes).logged row
  | rollback name _ row => files.restore ["audit", "snapshots", name] row

/-! ## Paths -/

/-- The files of the audit directory, the log apart. -/
def IsKept (path : RelPath) : Prop := path.head? = some "audit" ∧ path ≠ auditLogPath

theorem length_of_tier {path : RelPath} (tier : path ∈ tierCandidates) : path.length = 2 := by
  have two : ∀ path ∈ tierCandidates, path.length = 2 := by decide
  exact two path tier

theorem head_of_tier {path : RelPath} (tier : path ∈ tierCandidates) :
    path.head? ≠ some "audit" := by
  have other : ∀ path ∈ tierCandidates, path.head? ≠ some "audit" := by decide
  exact other path tier

theorem tier_ne_auditLog {path : RelPath} (tier : path ∈ tierCandidates) : path ≠ auditLogPath := by
  rintro rfl
  exact head_of_tier tier rfl

theorem audit_notMem_of_tier {path : RelPath} (tier : path ∈ tierCandidates) : "audit" ∉ path := by
  have none_there : ∀ path ∈ tierCandidates, "audit" ∉ path := by decide
  exact none_there path tier

variable {text : TextFunctions}

theorem head_snapshotDirectory (label : String) (path : RelPath) :
    (snapshotDirectory text label ++ path).head? = some "audit" := by
  unfold snapshotDirectory
  dsimp only
  split_ifs <;> rfl

/-- A path that a snapshot holds in an audit directory of its own has that directory's name. -/
theorem audit_mem_of_append (label : String) {name : String} {tier path : RelPath}
    (same : snapshotDirectory text label ++ tier =
      "audit" :: "snapshots" :: name :: "audit" :: path) : "audit" ∈ tier := by
  unfold snapshotDirectory at same
  dsimp only at same
  split_ifs at same with dot dots
  · obtain rfl : tier = name :: "audit" :: path := by simpa using same
    simp
  · obtain rfl : tier = "snapshots" :: name :: "audit" :: path := by simpa using same
    simp
  · obtain ⟨-, rfl⟩ : safeLabel text label = name ∧ tier = "audit" :: path := by simpa using same
    simp

/-- The files that a snapshot holds of the tiers are in the audit directory. -/
theorem isKept_of_tier (label : String) (path : TierPath) :
    IsKept (snapshotDirectory text label ++ path.1) := by
  refine ⟨head_snapshotDirectory label path.1, ?_⟩
  intro same
  have lengths := congrArg List.length same
  rw [List.length_append, length_of_tier path.2] at lengths
  have some := @head_snapshotDirectory text label []
  cases shape : snapshotDirectory text label with
  | nil =>
      rw [shape] at some
      cases some
  | cons first rest =>
      rw [shape, List.length_cons] at lengths
      have two : auditLogPath.length = 2 := rfl
      omega

/-- Two directories hold a tier file at one place when they are one and so is the file. -/
theorem append_tier_inj {directory other : RelPath} {path more : TierPath}
    (same : directory ++ path.1 = other ++ more.1) : directory = other ∧ path = more := by
  obtain ⟨directories, paths⟩ := List.append_inj' same
    ((length_of_tier path.2).trans (length_of_tier more.2).symm)
  exact ⟨directories, Subtype.ext paths⟩

end Orchestrator.Memory

namespace Orchestrator.Memory

/-! ## What a rollback brings back -/

variable {text : TextFunctions}

namespace MemoryFiles

variable {files : MemoryFiles} {directory path : RelPath}

theorem put_of_ne (bytes : Bytes) (other : path ≠ directory) :
    files.put directory bytes path = files path := Function.update_of_ne other _ _

theorem logged_of_ne (row : Bytes) (other : path ≠ auditLogPath) :
    files.logged row path = files path := put_of_ne _ other

theorem copyInto_of_ne {tier : TierPath} (other : path ≠ directory ++ tier.1) :
    files.copyInto directory tier path = files path := by
  rw [copyInto]
  cases files tier.1 with
  | none => rfl
  | some bytes => exact put_of_ne bytes other

/-- A snapshot writes below its directory only. -/
theorem takeSnapshot_of_ne {paths : List TierPath}
    (other : ∀ tier ∈ paths, path ≠ directory ++ tier.1) :
    files.takeSnapshot directory paths path = files path := by
  induction paths generalizing files with
  | nil => rfl
  | cons tier paths ih =>
      rw [takeSnapshot, List.foldl_cons]
      have later := @ih (files.copyInto directory tier)
        fun more among => other more (List.mem_cons_of_mem _ among)
      exact later.trans (copyInto_of_ne (other tier List.mem_cons_self))

/-- Tier files are not below a snapshot's directory. -/
theorem tier_ne_append (label : String) {tier : RelPath} (among : tier ∈ tierCandidates)
    (more : RelPath) : tier ≠ snapshotDirectory text label ++ more := by
  rintro rfl
  exact head_of_tier among (head_snapshotDirectory label more)

theorem copyInto_at (label : String) (tier path : TierPath) :
    files.copyInto (snapshotDirectory text label) tier
        (snapshotDirectory text label ++ path.1) =
      if path = tier then (files path.1).or (files (snapshotDirectory text label ++ path.1))
      else files (snapshotDirectory text label ++ path.1) := by
  by_cases same : path = tier
  · subst same
    rw [if_pos rfl, copyInto]
    cases held : files path.1 with
    | none => rw [Option.none_or]
    | some bytes => exact Function.update_self _ _ _
  · rw [if_neg same]
    apply copyInto_of_ne
    intro equal
    exact same (append_tier_inj equal).2

/-- A snapshot holds each file that it was given and that exists, and keeps what it held of the
others. -/
theorem takeSnapshot_at (label : String) (paths : List TierPath) (path : TierPath) :
    files.takeSnapshot (snapshotDirectory text label) paths
        (snapshotDirectory text label ++ path.1) =
      if path ∈ paths then (files path.1).or (files (snapshotDirectory text label ++ path.1))
      else files (snapshotDirectory text label ++ path.1) := by
  induction paths generalizing files with
  | nil => rfl
  | cons tier paths ih =>
      have kept : files.copyInto (snapshotDirectory text label) tier path.1 = files path.1 :=
        copyInto_of_ne (tier_ne_append label path.2 _)
      have later := @ih (files.copyInto (snapshotDirectory text label) tier)
      rw [kept, copyInto_at] at later
      rw [takeSnapshot, List.foldl_cons, ← takeSnapshot, later]
      by_cases here : path = tier
      · rw [if_pos here, if_pos (List.mem_cons.mpr (Or.inl here))]
        split
        · cases files path.1 <;> rfl
        · rfl
      · have elsewhere : path ∈ tier :: paths ↔ path ∈ paths := by
          rw [List.mem_cons, or_iff_right here]
        simp only [if_neg here, elsewhere]

/-- A rollback leaves a tier file as the directory holds it. -/
theorem restore_tier (label : String) (row : Bytes) (path : TierPath) :
    files.restore (snapshotDirectory text label) row path.1 =
      files (snapshotDirectory text label ++ path.1) := by
  have outside : snapshotDirectory text label ++ path.1 ∉ tierCandidates := fun among =>
    tier_ne_append label among path.1 rfl
  rw [restore, logged_of_ne row (tier_ne_auditLog path.2), restoreSnapshot, pruned,
    if_neg fun both => outside both.1, pruned]
  cases held : files (snapshotDirectory text label ++ path.1) with
  | none => rw [if_pos ⟨path.2, rfl⟩, Option.none_or]
  | some bytes => rw [Option.some_or]

end MemoryFiles

namespace MemoryTree

variable {tree : MemoryTree}

/-- A rollback to a listed directory leaves the audit directory alone, its log apart. -/
theorem restore_kept (tree : MemoryTree) (name : String) (row : Bytes) {path : RelPath}
    (kept : IsKept path) : tree.files.restore ["audit", "snapshots", name] row path =
      tree.files path := by
  obtain ⟨head, log⟩ := kept
  cases path with
  | nil => cases head
  | cons first rest =>
      cases head
      have outside (more : RelPath) : "audit" :: more ∉ tierCandidates := fun among =>
        head_of_tier among rfl
      have none_there : tree.files (["audit", "snapshots", name] ++ "audit" :: rest) = none :=
        tree.apart name rest
      rw [MemoryFiles.restore, MemoryFiles.logged_of_ne row log, MemoryFiles.restoreSnapshot,
        MemoryFiles.pruned, if_neg fun both => outside _ both.1, none_there, Option.none_or,
        MemoryFiles.pruned, if_neg fun both => outside _ both.1]

end MemoryTree

/-- What a step captures of a tier file into a directory. -/
def MemoryStep.capture (text : TextFunctions) (directory : RelPath) (path : TierPath)
    (files : MemoryFiles) : MemoryStep → Option Bytes
  | snapshot label paths =>
      if snapshotDirectory text label = directory ∧ path ∈ paths then files path.1 else none
  | write .. => none
  | rollback .. => none

namespace MemoryTree

/-- A step changes the files of the audit directory by the captures of a snapshot only. -/
theorem apply_kept (tree : MemoryTree) (step : MemoryStep) {path : RelPath} (kept : IsKept path)
    (free : ∀ label paths, step = .snapshot label paths → ∀ tier ∈ paths,
      path ≠ snapshotDirectory text label ++ tier.1) :
    step.apply text tree.files path = tree.files path := by
  cases step with
  | snapshot label paths =>
      exact MemoryFiles.takeSnapshot_of_ne (free label paths rfl)
  | write tier bytes row =>
      have other : path ≠ tier.1 := by
        rintro rfl
        exact head_of_tier tier.2 kept.1
      rw [MemoryStep.apply, MemoryFiles.logged_of_ne row kept.2, MemoryFiles.put_of_ne _ other]
  | rollback name listed row => exact tree.restore_kept name row kept

/-- What a directory holds of a tier file after a step. -/
theorem apply_at (tree : MemoryTree) (step : MemoryStep) (label : String) (path : TierPath) :
    step.apply text tree.files (snapshotDirectory text label ++ path.1) =
      (step.capture text (snapshotDirectory text label) path tree.files).or
        (tree.files (snapshotDirectory text label ++ path.1)) := by
  have kept := @isKept_of_tier text label path
  cases step with
  | snapshot other paths =>
      rw [MemoryStep.capture]
      by_cases same : snapshotDirectory text other = snapshotDirectory text label
      · rw [MemoryStep.apply, ← same, MemoryFiles.takeSnapshot_at]
        simp only [true_and]
        split <;> rfl
      · rw [if_neg fun both => same both.1, Option.none_or]
        apply tree.apply_kept _ kept
        intro given files shape tier _ equal
        cases shape
        exact same (append_tier_inj equal).1.symm
  | write tier bytes row => exact tree.apply_kept _ kept fun _ _ shape => by cases shape
  | rollback name listed row => exact tree.apply_kept _ kept fun _ _ shape => by cases shape

/-- No step puts a file of the audit directory into a snapshot. -/
def step (text : TextFunctions) (tree : MemoryTree) (step : MemoryStep) : MemoryTree where
  files := step.apply text tree.files
  apart := by
    intro name path
    have kept : IsKept ("audit" :: "snapshots" :: name :: "audit" :: path) :=
      ⟨rfl, by simp [auditLogPath]⟩
    rw [tree.apply_kept step kept, tree.apart name path]
    intro label paths _ tier _ equal
    exact audit_notMem_of_tier tier.2 (audit_mem_of_append label equal.symm)

@[simp] theorem step_files (tree : MemoryTree) (given : MemoryStep) :
    (tree.step text given).files = given.apply text tree.files := rfl

/-- The store after a list of steps. -/
def run (text : TextFunctions) : MemoryTree → List MemoryStep → MemoryTree
  | tree, [] => tree
  | tree, step :: rest => run text (tree.step text step) rest

/-- What the steps of a list capture of a tier file into a directory, in their order. -/
def captures (text : TextFunctions) (directory : RelPath) (path : TierPath) :
    MemoryTree → List MemoryStep → List Bytes
  | _, [] => []
  | tree, step :: rest =>
      (step.capture text directory path tree.files).toList ++
        captures text directory path (tree.step text step) rest

/-- What a directory holds of a tier file after a list of steps. -/
theorem run_at (tree : MemoryTree) (steps : List MemoryStep) (label : String) (path : TierPath) :
    (tree.run text steps).files (snapshotDirectory text label ++ path.1) =
      (captures text (snapshotDirectory text label) path tree steps).getLast?.or
        (tree.files (snapshotDirectory text label ++ path.1)) := by
  induction steps generalizing tree with
  | nil => rfl
  | cons step rest ih =>
      rw [run, ih, captures, step_files, apply_at, List.getLast?_append, Option.or_assoc]
      cases step.capture text (snapshotDirectory text label) path tree.files <;> rfl

end MemoryTree

/-! ## Rollbacks -/

/-- No other snapshot of a label's directory disturbs what the one taken now holds of a tier file:
the last to capture a file that exists captures the same bytes, and the directory holds none
of a file that does not exist and comes to hold none. -/
def MemoryTree.Undisturbed (text : TextFunctions) (tree : MemoryTree) (label : String)
    (after : MemoryTree) (steps : List MemoryStep) (path : TierPath) : Prop :=
  let directory := snapshotDirectory text label
  match tree.files path.1 with
  | some bytes => ∀ last ∈ (after.captures text directory path steps).getLast?, last = bytes
  | none =>
      tree.files (directory ++ path.1) = none ∧ after.captures text directory path steps = []

/-- A rollback to the directory of a label brings back every tier file of the snapshot taken under
it, whatever is done in between, exactly when no other snapshot of the directory disturbs one. -/
theorem rollback_exact_iff (tree : MemoryTree) (label : String) (paths : List TierPath)
    (steps : List MemoryStep) (row : Bytes) :
    let taken := tree.step text (.snapshot label paths)
    (∀ path ∈ paths, ((taken.run text steps).files.restore (snapshotDirectory text label) row)
        path.1 = tree.files path.1) ↔
      ∀ path ∈ paths, tree.Undisturbed text label taken steps path := by
  intro taken
  apply forall₂_congr
  intro path among
  rw [MemoryFiles.restore_tier, MemoryTree.run_at, MemoryTree.step_files, MemoryStep.apply,
    MemoryFiles.takeSnapshot_at, if_pos among, MemoryTree.Undisturbed]
  cases tree.files path.1 with
  | none =>
      dsimp only
      rw [Option.none_or, Option.or_eq_none_iff, List.getLast?_eq_none_iff, and_comm]
  | some bytes =>
      dsimp only
      cases (taken.captures text (snapshotDirectory text label) path steps).getLast? with
      | none => simp
      | some last => simp

/-- The short-term records. -/
def recentPath : TierPath := ⟨["short_term", "recent.jsonl"], List.mem_cons_self⟩

/-- A store that holds one byte of short-term records. -/
def recentTree (byte : UInt8) : MemoryTree where
  files := MemoryFiles.put (fun _ => none) recentPath.1 [byte]
  apart _ _ := MemoryFiles.put_of_ne _ (by simp [recentPath])

/-- Two labels that differ in their punctuation have one directory: a rollback to the first brings
back what the records were when the second was taken. -/
theorem sameDirectory_not_exact :
    let first := "before:merge"
    let second := "before/merge"
    let steps := [MemoryStep.write recentPath [66] [10], .snapshot second [recentPath],
      .write recentPath [67] [10]]
    let taken := (recentTree 65).step sampleText (.snapshot first [recentPath])
    first ≠ second ∧ (recentTree 65).files recentPath.1 = some [65] ∧
      ((taken.run sampleText steps).files.restore (snapshotDirectory sampleText first) [10])
        recentPath.1 = some [66] := by
  decide +kernel

end Orchestrator.Memory
