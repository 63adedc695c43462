import Mathlib.Data.List.Dedup
import Orchestrator.Checks.Selection

/-! # Dangerous diffs

Which changes need a human approval: deletions and dependency manifests under the strict
trust level, and the operator's protected paths under any.
-/

namespace Orchestrator.Hitl

open Orchestrator.Foundation
open Orchestrator.Checks (pathMatchesAny fnmatchCase)

/-- A changed path with its git status. -/
structure ChangedPath where
  status : String
  path : String
  previousPath : Option String := none

def dependencyPatterns : List String :=
  ["pyproject.toml", "uv.lock", "poetry.lock", "Pipfile", "Pipfile.lock", "requirements*.txt",
    "setup.py", "setup.cfg", "package.json", "package-lock.json", "npm-shrinkwrap.json",
    "pnpm-lock.yaml", "yarn.lock", "bun.lock", "bun.lockb", "Cargo.toml", "Cargo.lock", "go.mod",
    "go.sum", "Gemfile", "Gemfile.lock", "composer.json", "composer.lock", "pom.xml",
    "build.gradle", "build.gradle.kts", "gradle.lockfile", "libs.versions.toml", "Package.swift",
    "Package.resolved", "Podfile", "Podfile.lock", "Cartfile", "Cartfile.resolved",
    "pubspec.yaml", "pubspec.lock", "mix.exs", "mix.lock", "*.csproj", "*.fsproj", "*.vbproj",
    "Directory.Packages.props", "packages.lock.json", "packages.config", "paket.dependencies",
    "paket.lock", "deps.edn", "project.clj", "build.sbt", "conanfile.py", "conanfile.txt",
    "conan.lock", "vcpkg.json", "MODULE.bazel", "WORKSPACE", "flake.nix", "flake.lock",
    ".terraform.lock.hcl"]

/-- `_is_dependency_path`: by the last component of the path. -/
def isDependencyPath (path : String) : Bool :=
  let name := ((Text.replace path '\\' '/').toList.reverse.takeWhile (· ≠ '/')).reverse
  dependencyPatterns.any fun pattern => fnmatchCase pattern.toList name

/-- `sorted(set(paths))`. -/
def sortedSet (paths : List String) : List String := Text.sorted paths.dedup

/-- The path of an entry and the one it had before. -/
def ChangedPath.candidates (entry : ChangedPath) : List String :=
  entry.path :: entry.previousPath.toList

/-- The path an entry removes, if any. -/
def ChangedPath.removed (entry : ChangedPath) : Option String :=
  match (Text.upper entry.status).toList.head? with
  | some 'D' => some entry.path
  | some 'R' => entry.previousPath
  | _ => none

/-- `_deleted_paths`. -/
def deletedPaths (entries : List ChangedPath) : List String :=
  entries.filterMap ChangedPath.removed

/-- The changed paths that are dependency manifests or locks. -/
def dependencyPaths (entries : List ChangedPath) : List String :=
  (entries.flatMap ChangedPath.candidates).filter isDependencyPath

/-- The changed paths that match the protected globs. -/
def protectedHits (entries : List ChangedPath) (protectedPaths : List String) : List String :=
  (entries.flatMap ChangedPath.candidates).filter fun path => pathMatchesAny path protectedPaths

structure DangerousDiff where
  risk : String
  paths : List String
  deletedPaths : List String
  dependencyPaths : List String
  protectedPaths : List String := []
  deriving DecidableEq

/-- `classify_dangerous_diff`. -/
def classifyDangerousDiff (entries : List ChangedPath) : Option DangerousDiff :=
  let deleted := deletedPaths entries
  let dependencies := dependencyPaths entries
  if deleted = [] ∧ dependencies = [] then none
  else some {
    risk := if deleted ≠ [] ∧ dependencies ≠ [] then "other"
      else if deleted ≠ [] then "deletion" else "dependency"
    paths := sortedSet (deleted ++ dependencies)
    deletedPaths := sortedSet deleted
    dependencyPaths := sortedSet dependencies }

/-- `_combined_risk`. -/
def combinedRisk (deleted dependencies protectedHits : List String) : String :=
  let present := ([deleted, dependencies, protectedHits].filter fun group => group ≠ []).length
  if 1 < present then "other"
  else if protectedHits ≠ [] then "protected"
  else if deleted ≠ [] then "deletion"
  else "dependency"

/-- `evaluate_diff_gate`. -/
def evaluateDiffGate (entries : List ChangedPath) (trustLevel : String)
    (protectedPaths : List String) : Option DangerousDiff :=
  let hits := sortedSet (protectedHits entries protectedPaths)
  let base := if trustLevel = "strict" then classifyDangerousDiff entries else none
  if hits = [] ∧ base = none then none
  else
    let deleted := (base.map DangerousDiff.deletedPaths).getD []
    let dependencies := (base.map DangerousDiff.dependencyPaths).getD []
    some {
      risk := combinedRisk deleted dependencies hits
      paths := sortedSet (deleted ++ dependencies ++ hits)
      deletedPaths := deleted
      dependencyPaths := dependencies
      protectedPaths := hits }

/-! ## Sorted sets -/

@[simp] theorem mem_sortedSet {path : String} {paths : List String} :
    path ∈ sortedSet paths ↔ path ∈ paths := by
  rw [sortedSet, Text.sorted, (List.perm_insertionSort _ _).mem_iff, List.mem_dedup]

@[simp] theorem sortedSet_eq_nil {paths : List String} : sortedSet paths = [] ↔ paths = [] := by
  rw [List.eq_nil_iff_forall_not_mem, List.eq_nil_iff_forall_not_mem]
  exact forall_congr' fun path => not_congr mem_sortedSet

/-- Sorted sets are equal exactly when they have the same members. -/
theorem sortedSet_inj {first second : List String} :
    sortedSet first = sortedSet second ↔ ∀ path, path ∈ first ↔ path ∈ second := by
  constructor
  · intro same path
    rw [← mem_sortedSet, same, mem_sortedSet]
  · intro same
    have perm : first.dedup.Perm second.dedup :=
      (List.perm_ext_iff_of_nodup (List.nodup_dedup _) (List.nodup_dedup _)).mpr fun path => by
        rw [List.mem_dedup, List.mem_dedup, same]
    refine List.Perm.eq_of_pairwise' (List.pairwise_insertionSort _ _)
      (List.pairwise_insertionSort _ _) ?_
    exact ((List.perm_insertionSort _ _).trans perm).trans (List.perm_insertionSort _ _).symm

/-! ## The gate by its categories -/

section Categories

variable (entries : List ChangedPath) (trustLevel : String) (protectedPaths : List String)

/-- The deletions that gate. -/
def gatedDeletions : List String := if trustLevel = "strict" then deletedPaths entries else []

/-- The dependency changes that gate. -/
def gatedDependencies : List String :=
  if trustLevel = "strict" then dependencyPaths entries else []

/-- The paths that gate. -/
def gatedPaths : List String :=
  gatedDeletions entries trustLevel ++ gatedDependencies entries trustLevel ++
    protectedHits entries protectedPaths

theorem combinedRisk_sortedSet {deleted dependencies hits : List String} :
    combinedRisk (sortedSet deleted) (sortedSet dependencies) (sortedSet hits) =
      combinedRisk deleted dependencies hits := by
  unfold combinedRisk
  simp only [List.filter_cons, List.filter_nil, ne_eq, sortedSet_eq_nil]
  by_cases deletes : deleted = [] <;> by_cases depends : dependencies = [] <;>
    by_cases protects : hits = [] <;> simp [deletes, depends, protects]

theorem sortedSet_append {first second third : List String} :
    sortedSet (sortedSet first ++ sortedSet second ++ sortedSet third) =
      sortedSet (first ++ second ++ third) := by
  refine sortedSet_inj.mpr fun path => ?_
  simp only [List.mem_append, mem_sortedSet]

theorem sortedSet_sortedSet {paths : List String} :
    sortedSet (sortedSet paths) = sortedSet paths :=
  sortedSet_inj.mpr fun _ => mem_sortedSet

theorem combinedRisk_hits {hits : List String} :
    combinedRisk [] [] (sortedSet hits) = combinedRisk [] [] hits := by
  have empty : sortedSet [] = [] := rfl
  calc
    combinedRisk [] [] (sortedSet hits) =
        combinedRisk (sortedSet []) (sortedSet []) (sortedSet hits) := by rw [empty]
    _ = combinedRisk [] [] hits := combinedRisk_sortedSet

/-- The gate finds what gates, when anything does. -/
theorem evaluateDiffGate_eq : evaluateDiffGate entries trustLevel protectedPaths =
    if gatedPaths entries trustLevel protectedPaths = [] then none else some {
      risk := combinedRisk (gatedDeletions entries trustLevel)
        (gatedDependencies entries trustLevel) (protectedHits entries protectedPaths)
      paths := sortedSet (gatedPaths entries trustLevel protectedPaths)
      deletedPaths := sortedSet (gatedDeletions entries trustLevel)
      dependencyPaths := sortedSet (gatedDependencies entries trustLevel)
      protectedPaths := sortedSet (protectedHits entries protectedPaths) } := by
  have nothing : sortedSet [] = [] := rfl
  unfold evaluateDiffGate gatedPaths gatedDeletions gatedDependencies classifyDangerousDiff
  by_cases strict : trustLevel = "strict"
  · simp only [strict, if_true]
    by_cases ordinary : deletedPaths entries = [] ∧ dependencyPaths entries = []
    · obtain ⟨deletes, depends⟩ := ordinary
      simp only [deletes, depends, and_self, if_true, Option.map_none, Option.getD_none,
        and_true, sortedSet_eq_nil, List.nil_append, combinedRisk_hits, sortedSet_sortedSet,
        nothing]
    · have some : ¬ (deletedPaths entries ++ dependencyPaths entries ++
          protectedHits entries protectedPaths = []) := fun none => by
        obtain ⟨base, -⟩ := List.append_eq_nil_iff.mp none
        exact ordinary (List.append_eq_nil_iff.mp base)
      rw [if_neg ordinary, if_neg (fun none => by cases none.2), if_neg some]
      simp only [Option.map_some, Option.getD_some, combinedRisk_sortedSet, sortedSet_append]
  · simp only [strict, if_false, Option.map_none, Option.getD_none, and_true, sortedSet_eq_nil,
      List.nil_append, combinedRisk_hits, sortedSet_sortedSet, nothing]

end Categories

/-! ## What gates is touched -/

variable {entries : List ChangedPath} {trustLevel : String} {protectedPaths : List String}

theorem mem_candidates_of_removed {entry : ChangedPath} {path : String}
    (removed : entry.removed = some path) : path ∈ entry.candidates := by
  unfold ChangedPath.removed at removed
  split at removed
  · cases removed
    exact List.mem_cons_self
  · exact List.mem_cons_of_mem _ (Option.mem_toList.mpr removed)
  · cases removed

/-- Every path that gates is one that the diff touches. -/
theorem mem_candidates_of_gated {path : String}
    (gated : path ∈ gatedPaths entries trustLevel protectedPaths) :
    path ∈ entries.flatMap ChangedPath.candidates := by
  rcases List.mem_append.mp gated with base | hit
  · rcases List.mem_append.mp base with deleted | depends
    · unfold gatedDeletions at deleted
      split at deleted
      · obtain ⟨entry, among, removed⟩ := List.mem_filterMap.mp deleted
        exact List.mem_flatMap.mpr ⟨entry, among, mem_candidates_of_removed removed⟩
      · cases deleted
    · unfold gatedDependencies at depends
      split at depends
      · exact (List.mem_filter.mp depends).1
      · cases depends
  · exact (List.mem_filter.mp hit).1

/-- A path that gates is a gated dependency exactly when it is one by its name and level. -/
theorem mem_gatedDependencies_iff {path : String}
    (gated : path ∈ gatedPaths entries trustLevel protectedPaths) :
    path ∈ gatedDependencies entries trustLevel ↔
      trustLevel = "strict" ∧ isDependencyPath path = true := by
  unfold gatedDependencies
  split
  · rename_i strict
    exact List.mem_filter.trans
      ⟨fun both => ⟨strict, both.2⟩, fun both => ⟨mem_candidates_of_gated gated, both.2⟩⟩
  · rename_i lenient
    exact iff_of_false List.not_mem_nil fun both => lenient both.1

/-- A path that gates is a protected hit exactly when a protected glob matches it. -/
theorem mem_protectedHits_iff {path : String}
    (gated : path ∈ gatedPaths entries trustLevel protectedPaths) :
    path ∈ protectedHits entries protectedPaths ↔ pathMatchesAny path protectedPaths = true :=
  List.mem_filter.trans (and_iff_right (mem_candidates_of_gated gated))

end Orchestrator.Hitl
