import Orchestrator.Checks.Selection
import Orchestrator.Git.CommitRuns

/-! # The guard against a changed working tree

A capture hashes `git status` and `git diff HEAD`. Between them they show every tracked change,
but neither the content of an untracked file nor the commit that HEAD is.
-/

namespace Orchestrator.Git

open Orchestrator.Foundation

/-- What a capture looks at: the status with its renames, and the tracked changes from HEAD. -/
structure Listing (Entry : Type) where
  status : List StatusRecord
  renames : List (String × String)
  diff : List (String × Option Entry × Option Entry)
  deriving DecidableEq

/-- The texts of the two listings, and the hash over them. -/
structure Rendering (Entry : Type) where
  status : List StatusRecord → List (String × String) → String
  diff : List (String × Option Entry × Option Entry) → String
  sha256 : String → String

/-- A snapshot of the working tree; its list of artifacts is always empty. -/
structure WorkingTreeSnapshot (Entry : Type) where
  commitSha : Commit (Dict Entry)
  porcelainStatus : String
  diffChecksum : String

/-- A change that an attempt left behind. -/
structure PartialChange (Entry : Type) where
  before : WorkingTreeSnapshot Entry
  after : WorkingTreeSnapshot Entry
  diff : String
  note : String

section Captures

variable {Entry : Type} [DecidableEq Entry]

namespace Clone

/-- The entry of a tracked path, if it is on disk. -/
def tracked (clone : Clone Entry) (path : String) : Option Entry :=
  if path ∈ clone.index then clone.files.lookup path else none

/-- `git diff HEAD`: the old and the new entry of each changed path. -/
def diffHead (clone : Clone Entry) : List (String × Option Entry × Option Entry) :=
  clone.known.filterMap fun path =>
    if clone.head.tree.lookup path = clone.tracked path then none
    else some (path, clone.head.tree.lookup path, clone.tracked path)

def listing (detectRenames : RenameDetection Entry) (clone : Clone Entry) : Listing Entry where
  status := clone.status detectRenames
  renames := clone.stagedRenames detectRenames
  diff := clone.diffHead

end Clone

variable (rendering : Rendering Entry) (detectRenames : RenameDetection Entry)

/-- The text that is hashed. -/
def Rendering.text (listing : Listing Entry) : String :=
  rendering.status listing.status listing.renames ++ "\n" ++ rendering.diff listing.diff

/-- `capture`. -/
def capture (clone : Clone Entry) : WorkingTreeSnapshot Entry :=
  let listing := clone.listing detectRenames
  { commitSha := clone.head
    porcelainStatus := rendering.status listing.status listing.renames
    diffChecksum := rendering.sha256 (rendering.text listing) }

/-- `partial_change_since`, on the clone as it is now. -/
def partialChangeSince (before : WorkingTreeSnapshot Entry) (clone : Clone Entry) :
    Option (PartialChange Entry) :=
  let after := capture rendering detectRenames clone
  if after.diffChecksum = before.diffChecksum then none
  else some {
    before := before
    after := after
    diff := rendering.diff (clone.listing detectRenames).diff
    note := "partial attempt from a prior provider; build on it rather than restart" }

/-- `_mutated_working_tree`: false when no snapshot was taken. -/
def mutatedWorkingTree (before : Option (WorkingTreeSnapshot Entry)) (clone : Clone Entry) : Bool :=
  match before with
  | none => false
  | some snapshot => (capture rendering detectRenames clone).diffChecksum ≠ snapshot.diffChecksum

/-! ## What the listings show -/

variable {rendering detectRenames} {before after : Clone Entry}

omit [DecidableEq Entry] in
theorem mem_known {clone : Clone Entry} {path : String} :
    path ∈ clone.known ↔ path ∈ clone.head.tree ∨ path ∈ clone.index := by
  rw [Clone.known, Text.sorted, (List.perm_insertionSort _ _).mem_iff, List.mem_dedup,
    List.mem_append]
  rfl

theorem mem_diffHead {clone : Clone Entry} {path : String} {old new : Option Entry} :
    (path, old, new) ∈ clone.diffHead ↔
      clone.head.tree.lookup path = old ∧ clone.tracked path = new ∧ old ≠ new := by
  rw [Clone.diffHead, List.mem_filterMap]
  constructor
  · rintro ⟨shown, -, change⟩
    by_cases same : clone.head.tree.lookup shown = clone.tracked shown
    · rw [if_pos same] at change
      cases change
    · rw [if_neg same] at change
      cases change
      exact ⟨rfl, rfl, same⟩
  · rintro ⟨rfl, rfl, differs⟩
    refine ⟨path, mem_known.mpr ?_, if_neg differs⟩
    by_contra unknown
    rw [not_or] at unknown
    apply differs
    rw [Clone.tracked, if_neg unknown.2, AList.lookup_eq_none]
    exact unknown.1

/-- Clones of one HEAD and one diff have the same tracked files. -/
theorem tracked_eq_of_diffHead (head : before.head = after.head)
    (diff : before.diffHead = after.diffHead) (path : String) :
    before.tracked path = after.tracked path := by
  by_cases changed : before.head.tree.lookup path = before.tracked path
  · by_contra differs
    have shown : (path, after.head.tree.lookup path, after.tracked path) ∈ after.diffHead :=
      mem_diffHead.mpr ⟨rfl, rfl, by rw [← head, changed]; exact differs⟩
    rw [← diff] at shown
    exact differs (mem_diffHead.mp shown).2.1
  · have shown : (path, before.head.tree.lookup path, before.tracked path) ∈ before.diffHead :=
      mem_diffHead.mpr ⟨rfl, rfl, changed⟩
    rw [diff] at shown
    exact (mem_diffHead.mp shown).2.1.symm

omit [DecidableEq Entry] in
/-- A path that is no untracked file is seen as tracked. -/
theorem visible_of_notMem_untracked {clone : Clone Entry} {path : String}
    (outside : path ∉ clone.untracked) : clone.visible path = clone.tracked path := by
  unfold Clone.visible Clone.tracked
  by_cases tracked : path ∈ clone.index
  · rw [if_pos (.inl tracked), if_pos tracked]
  · rw [if_neg tracked]
    by_cases shown : clone.ignored path = false
    · rw [if_pos (.inr shown), AList.lookup_eq_none]
      exact fun present => outside (List.mem_filter.mpr ⟨present, decide_eq_true ⟨tracked, shown⟩⟩)
    · exact if_neg (not_or.mpr ⟨tracked, shown⟩)

/-! ## The guard -/

variable (rendering detectRenames) (exclusions : Exclusions)

/-- The commit candidate of two clones is the same: one HEAD, and one entry at every path that the
code commit of either would take in. -/
structure SameCandidate (before after : Clone Entry) : Prop where
  head : before.head = after.head
  paths : ∀ path, ChangedCode detectRenames exclusions before path ∨
    ChangedCode detectRenames exclusions after path → before.visible path = after.visible path

/-- Equal checksums mean the same commit candidate. -/
def GuardHolds (before after : Clone Entry) : Prop :=
  (capture rendering detectRenames after).diffChecksum =
    (capture rendering detectRenames before).diffChecksum →
      SameCandidate detectRenames exclusions before after

/-- The same HEAD, and the same untracked files of the code. -/
structure SameUnlisted (before after : Clone Entry) : Prop where
  head : before.head = after.head
  untracked : ∀ path, ChangedCode detectRenames exclusions before path ∨
    ChangedCode detectRenames exclusions after path →
      path ∈ before.untracked ∨ path ∈ after.untracked → before.visible path = after.visible path

variable {rendering detectRenames exclusions}

theorem sameCandidate_of_sameUnlisted
    (listing : before.listing detectRenames = after.listing detectRenames)
    (unlisted : SameUnlisted detectRenames exclusions before after) :
    SameCandidate detectRenames exclusions before after := by
  refine ⟨unlisted.head, fun path changed => ?_⟩
  by_cases loose : path ∈ before.untracked ∨ path ∈ after.untracked
  · exact unlisted.untracked path changed loose
  · rw [not_or] at loose
    rw [visible_of_notMem_untracked loose.1, visible_of_notMem_untracked loose.2]
    exact tracked_eq_of_diffHead unlisted.head (congrArg Listing.diff listing) path

/-- The guard holds exactly when the listings tell the clones apart, or the clones agree on HEAD and
on the untracked files of the code. The hash and the texts are taken to tell the two listings apart
when they are. -/
theorem guardHolds_iff
    (separate : rendering.sha256 (rendering.text (after.listing detectRenames)) =
      rendering.sha256 (rendering.text (before.listing detectRenames)) →
        before.listing detectRenames = after.listing detectRenames) :
    GuardHolds rendering detectRenames exclusions before after ↔
      before.listing detectRenames ≠ after.listing detectRenames ∨
        SameUnlisted detectRenames exclusions before after := by
  constructor
  · intro guard
    by_cases listing : before.listing detectRenames = after.listing detectRenames
    · right
      have checksum : (capture rendering detectRenames after).diffChecksum =
          (capture rendering detectRenames before).diffChecksum := by
        unfold capture
        rw [listing]
      have same := guard checksum
      exact ⟨same.head, fun path changed _ => same.paths path changed⟩
    · exact .inl listing
  · rintro (differs | unlisted) checksum
    · exact absurd (separate checksum) differs
    · exact sameCandidate_of_sameUnlisted (separate checksum) unlisted

/-- A guard that reports no change has compared equal checksums. -/
theorem guard_silent {clone : Clone Entry} {snapshot : WorkingTreeSnapshot Entry} :
    (mutatedWorkingTree rendering detectRenames (some snapshot) clone = false ↔
        (capture rendering detectRenames clone).diffChecksum = snapshot.diffChecksum) ∧
      (partialChangeSince rendering detectRenames snapshot clone = none ↔
        (capture rendering detectRenames clone).diffChecksum = snapshot.diffChecksum) := by
  constructor
  · rw [mutatedWorkingTree, decide_eq_false_iff_not, not_not]
  · unfold partialChangeSince
    dsimp only
    by_cases same : (capture rendering detectRenames clone).diffChecksum = snapshot.diffChecksum
    · rw [if_pos same]
      exact iff_of_true rfl same
    · rw [if_neg same]
      exact iff_of_false nofun same

end Captures

/-! ## A new file rewritten -/

/-- Listings as lines of their paths and entries. -/
def plainRendering : Rendering String where
  status := fun records _ =>
    String.join (records.map fun record =>
      String.ofList [record.code.1, record.code.2, ' '] ++ record.path ++ "\n")
  diff := fun changes =>
    String.join (changes.map fun change => change.1 ++ "\n-" ++ change.2.1.getD "" ++ "\n+" ++
      change.2.2.getD "" ++ "\n")
  sha256 := id

/-- A clone that tracks one file, with what is on disk. -/
def cloneOf (files : List (String × String)) : Clone String :=
  editedClone firstCommit (Dict.ofList [("a.py", "1")]) (Dict.ofList files)

theorem guardHolds_iff_edited :
    GuardHolds plainRendering exactRenames { tasksDir := "tasks" }
        (cloneOf [("a.py", "2")]) (cloneOf [("a.py", "3")]) ↔
      (cloneOf [("a.py", "2")]).listing exactRenames ≠
        (cloneOf [("a.py", "3")]).listing exactRenames ∨
        SameUnlisted exactRenames { tasksDir := "tasks" }
          (cloneOf [("a.py", "2")]) (cloneOf [("a.py", "3")]) :=
  guardHolds_iff fun same => absurd same (by decide)

/-- A check rewrites a new file: the captures are equal, and the checks pass. -/
theorem new_file_rewritten :
    let before := cloneOf [("a.py", "1"), ("new.py", "x=1")]
    let after := cloneOf [("a.py", "1"), ("new.py", "x = 1")]
    let cset : Checks.ResolvedCheckSet := { name := "format", paths := [] }
    (Checks.runCommandProfile "testing" [cset] (some ["new.py"]) (fun _ => {})
        (mutatedWorkingTree plainRendering exactRenames
          (some (capture plainRendering exactRenames before)) after)).result = .completed true ∧
      ¬ GuardHolds plainRendering exactRenames { tasksDir := "tasks" } before after := by
  intro before after cset
  have listing : after.listing exactRenames = before.listing exactRenames := by decide +kernel
  have checksum : (capture plainRendering exactRenames after).diffChecksum =
      (capture plainRendering exactRenames before).diffChecksum := by
    unfold capture
    rw [listing]
  have silent : mutatedWorkingTree plainRendering exactRenames
      (some (capture plainRendering exactRenames before)) after = false :=
    guard_silent.1.mpr checksum
  apply And.intro
  · rw [silent]
    decide +kernel
  · intro guard
    have changed : ChangedCode exactRenames { tasksDir := "tasks" } before "new.py" :=
      ⟨by decide, "new.py", by decide, .inl rfl⟩
    have same : (some "x=1" : Option String) = some "x = 1" :=
      (guard checksum).paths "new.py" (.inl changed)
    exact absurd same (by decide)

end Orchestrator.Git
