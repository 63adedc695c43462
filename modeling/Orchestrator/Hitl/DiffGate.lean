import Orchestrator.Hitl.DangerousDiff
import Orchestrator.Hitl.Interactions

/-! # The approval of a dangerous diff

An approval is kept with the risk and the paths of the diff that was asked about, and is
honoured for any later diff of the same risk and paths.
-/

namespace Orchestrator.Hitl

open Orchestrator.Foundation

/-- `dangerous_diff_signal`. -/
def dangerousDiffSignal (nodeId : String) (dangerous : DangerousDiff) : InteractionRequest :=
  let line (title : String) (paths : List String) : List String :=
    if paths = [] then [] else [title ++ ": " ++ String.intercalate ", " paths]
  let detail := line "Protected paths (always require approval)" dangerous.protectedPaths ++
    line "Deleted paths" dangerous.deletedPaths ++
    line "Dependency manifests/locks" dangerous.dependencyPaths
  { kind := "approval"
    question := "Approve changes requiring approval produced by the " ++ Text.repr nodeId ++
      " node?"
    context := String.intercalate "\n" detail
    risk := dangerous.risk
    paths := dangerous.paths }

/-- `guardrail_request_matches`: the same kind, risk and paths. -/
def guardrailRequestMatches (persisted : PersistedInteraction) (dangerous : DangerousDiff) :
    Bool :=
  persisted.request.kind = "approval" && persisted.request.risk = dangerous.risk &&
    Text.sorted persisted.request.paths = dangerous.paths

/-- An approved record of the request for this diff. -/
def honours (persisted : PersistedInteraction) (dangerous : DangerousDiff) : Bool :=
  persisted.approved = some true && guardrailRequestMatches persisted dangerous

/-- `already_approved_in_task`, over the task's records. -/
def alreadyApprovedInTask (records : List PersistedInteraction) (dangerous : DangerousDiff) :
    Bool := records.any fun persisted => honours persisted dangerous

/-- `consume_prior_approval`: the gate's own record decides when there is one. -/
def consumePriorApproval (own : Option PersistedInteraction)
    (records : List PersistedInteraction) (dangerous : DangerousDiff) : Bool :=
  match own with
  | some persisted => honours persisted dangerous
  | none => alreadyApprovedInTask records dangerous

/-- The record of a diff's request once it is approved; its texts are redacted. -/
def approvalFor (redactText : String → String) (nodeId : String) (dangerous : DangerousDiff) :
    PersistedInteraction where
  request := { dangerousDiffSignal nodeId dangerous with
    question := redactText (dangerousDiffSignal nodeId dangerous).question
    context := redactText (dangerousDiffSignal nodeId dangerous).context }
  status := "answered"
  approved := some true

/-- No gate is suppressed but by one approved record. -/
theorem honours_of_consumePriorApproval {own : Option PersistedInteraction}
    {records : List PersistedInteraction} {dangerous : DangerousDiff}
    (suppressed : consumePriorApproval own records dangerous = true) :
    ∃ persisted, (own = some persisted ∨ own = none ∧ persisted ∈ records) ∧
      honours persisted dangerous = true := by
  cases own with
  | some persisted => exact ⟨persisted, .inl rfl, suppressed⟩
  | none =>
      obtain ⟨persisted, among, honoured⟩ := List.any_eq_true.mp suppressed
      exact ⟨persisted, .inr ⟨rfl, among⟩, honoured⟩

/-! ## What an approval covers -/

/-- What makes a diff dangerous. -/
inductive Danger where
  | deletion
  | dependency
  | protectedPath

/-- The paths of a diff in one category. -/
def DangerousDiff.pathsOf (diff : DangerousDiff) : Danger → List String
  | .deletion => diff.deletedPaths
  | .dependency => diff.dependencyPaths
  | .protectedPath => diff.protectedPaths

/-- The later diff raises no risk, path or category that the earlier one did not. -/
structure Covers (earlier later : DangerousDiff) : Prop where
  risk : later.risk = earlier.risk
  paths : ∀ path ∈ later.paths, path ∈ earlier.paths
  dangers : ∀ danger, later.pathsOf danger ≠ [] → earlier.pathsOf danger ≠ []

/-- The first diff touches dependency manifests and protected paths and deletes nothing; the second
deletes or moves away some of them, and only them. -/
structure Escalates (trustLevel : String) (protectedPaths : List String)
    (first second : List ChangedPath) : Prop where
  strict : trustLevel = "strict"
  keeps : deletedPaths first = []
  deletes : deletedPaths second ≠ []
  depends : dependencyPaths first ≠ []
  protects : protectedHits first protectedPaths ≠ []
  samePaths : ∀ path, path ∈ gatedPaths first trustLevel protectedPaths ↔
    path ∈ gatedPaths second trustLevel protectedPaths

/-- A diff that deletes is called a deletion when it does nothing else, or other. -/
theorem combinedRisk_of_deletes {deleted dependencies hits : List String}
    (deletes : deleted ≠ []) : combinedRisk deleted dependencies hits =
      if dependencies = [] ∧ hits = [] then "deletion" else "other" := by
  unfold combinedRisk
  by_cases depends : dependencies = [] <;> by_cases protects : hits = [] <;>
    simp [deletes, depends, protects]

/-- A diff that deletes nothing is never called a deletion. -/
theorem combinedRisk_of_keeps {dependencies hits : List String} :
    combinedRisk [] dependencies hits =
      if dependencies ≠ [] ∧ hits ≠ [] then "other"
      else if hits ≠ [] then "protected" else "dependency" := by
  unfold combinedRisk
  by_cases depends : dependencies = [] <;> by_cases protects : hits = [] <;>
    simp [depends, protects]

section Coverage

variable {trustLevel : String} {protectedPaths : List String} {first second : List ChangedPath}

/-- The gate's finding lists what gates, by category. -/
theorem mem_evaluateDiffGate_iff {diff : DangerousDiff} :
    diff ∈ evaluateDiffGate first trustLevel protectedPaths ↔
      gatedPaths first trustLevel protectedPaths ≠ [] ∧ {
        risk := combinedRisk (gatedDeletions first trustLevel)
          (gatedDependencies first trustLevel) (protectedHits first protectedPaths)
        paths := sortedSet (gatedPaths first trustLevel protectedPaths)
        deletedPaths := sortedSet (gatedDeletions first trustLevel)
        dependencyPaths := sortedSet (gatedDependencies first trustLevel)
        protectedPaths := sortedSet (protectedHits first protectedPaths) } = diff := by
  rw [evaluateDiffGate_eq]
  by_cases ordinary : gatedPaths first trustLevel protectedPaths = []
  · simp only [ordinary, if_true, Option.mem_def, reduceCtorEq, ne_eq, not_true_eq_false,
      false_and]
  · simp only [ordinary, if_false, Option.mem_def, Option.some.injEq, ne_eq, not_false_eq_true,
      true_and]

/-- A record is honoured for a finding of its own risk and paths. -/
theorem honours_iff {persisted : PersistedInteraction} {dangerous : DangerousDiff} :
    honours persisted dangerous = true ↔ persisted.approved = some true ∧
      persisted.request.kind = "approval" ∧ persisted.request.risk = dangerous.risk ∧
        Text.sorted persisted.request.paths = dangerous.paths := by
  simp only [honours, guardrailRequestMatches, Bool.and_eq_true, decide_eq_true_eq, and_assoc]

/-- An approval holds for a later finding exactly when risk and paths are its own. -/
theorem honours_approvalFor_iff {redactText : String → String} {nodeId : String}
    {earlier later : DangerousDiff} :
    honours (approvalFor redactText nodeId earlier) later = true ↔
      earlier.risk = later.risk ∧ Text.sorted earlier.paths = later.paths := by
  rw [honours_iff]
  exact ⟨fun honoured => honoured.2.2, fun own => ⟨rfl, rfl, own⟩⟩

theorem sorted_sortedSet (paths : List String) :
    Text.sorted (sortedSet paths) = sortedSet paths :=
  List.Perm.eq_of_pairwise' (List.pairwise_insertionSort _ _) (List.pairwise_insertionSort _ _)
    (List.perm_insertionSort _ _)

/-- Diffs with the same gating paths touch dependency manifests alike. -/
theorem gatedDependencies_of_samePaths
    (same : ∀ path, path ∈ gatedPaths first trustLevel protectedPaths ↔
      path ∈ gatedPaths second trustLevel protectedPaths)
    (depends : gatedDependencies first trustLevel ≠ []) :
    gatedDependencies second trustLevel ≠ [] := by
  obtain ⟨path, among⟩ := List.exists_mem_of_ne_nil _ depends
  have gated : path ∈ gatedPaths first trustLevel protectedPaths :=
    List.mem_append_left _ (List.mem_append_right _ among)
  have dependency := (mem_gatedDependencies_iff gated).mp among
  exact List.ne_nil_of_mem ((mem_gatedDependencies_iff ((same path).mp gated)).mpr dependency)

/-- Diffs with the same gating paths touch protected paths alike. -/
theorem protectedHits_of_samePaths
    (same : ∀ path, path ∈ gatedPaths first trustLevel protectedPaths ↔
      path ∈ gatedPaths second trustLevel protectedPaths)
    (protects : protectedHits first protectedPaths ≠ []) :
    protectedHits second protectedPaths ≠ [] := by
  obtain ⟨path, among⟩ := List.exists_mem_of_ne_nil _ protects
  have gated : path ∈ gatedPaths first trustLevel protectedPaths := List.mem_append_right _ among
  have matched := (mem_protectedHits_iff gated).mp among
  exact List.ne_nil_of_mem ((mem_protectedHits_iff ((same path).mp gated)).mpr matched)

/-- Equal risks hide a new deletion only behind the label of a mixed diff. -/
theorem mixed_of_hidden_deletion {deleted dependencies hits dependencies' hits' : List String}
    (deletes : deleted ≠ [])
    (same : combinedRisk [] dependencies' hits' = combinedRisk deleted dependencies hits) :
    dependencies' ≠ [] ∧ hits' ≠ [] := by
  rw [combinedRisk_of_deletes deletes, combinedRisk_of_keeps] at same
  by_contra simple
  rw [if_neg simple] at same
  revert same
  split <;> split <;> decide

/-- An approval that holds for a later diff covers it, unless the later diff deletes what the
earlier one only changed and the mixed risk of both hides it. -/
theorem approval_covers (redactText : String → String) (nodeId trustLevel : String)
    (protectedPaths : List String) (first second : List ChangedPath) :
    (∀ earlier ∈ evaluateDiffGate first trustLevel protectedPaths,
      ∀ later ∈ evaluateDiffGate second trustLevel protectedPaths,
        honours (approvalFor redactText nodeId earlier) later = true → Covers earlier later) ↔
      ¬ Escalates trustLevel protectedPaths first second := by
  constructor
  · intro covered escalates
    have depends : gatedDependencies first trustLevel ≠ [] := by
      rw [gatedDependencies, if_pos escalates.strict]
      exact escalates.depends
    have deletes : gatedDeletions second trustLevel ≠ [] := by
      rw [gatedDeletions, if_pos escalates.strict]
      exact escalates.deletes
    have keeps : gatedDeletions first trustLevel = [] := by
      rw [gatedDeletions, if_pos escalates.strict]
      exact escalates.keeps
    have protects := escalates.protects
    have dependsAgain := gatedDependencies_of_samePaths escalates.samePaths depends
    have firstGates : gatedPaths first trustLevel protectedPaths ≠ [] :=
      List.append_ne_nil_of_right_ne_nil _ protects
    have secondGates : gatedPaths second trustLevel protectedPaths ≠ [] :=
      List.append_ne_nil_of_left_ne_nil (List.append_ne_nil_of_left_ne_nil deletes _) _
    have covers := covered _ (mem_evaluateDiffGate_iff.mpr ⟨firstGates, rfl⟩) _
      (mem_evaluateDiffGate_iff.mpr ⟨secondGates, rfl⟩) (honours_approvalFor_iff.mpr ⟨?_, ?_⟩)
    · apply covers.dangers .deletion
      · exact fun none => deletes (sortedSet_eq_nil.mp none)
      · exact sortedSet_eq_nil.mpr keeps
    · rw [keeps, combinedRisk_of_keeps, combinedRisk_of_deletes deletes, if_pos ⟨depends, protects⟩,
        if_neg fun none => dependsAgain none.1]
    · rw [sorted_sortedSet]
      exact sortedSet_inj.mpr escalates.samePaths
  · intro bounded earlier found later foundLater honoured
    obtain ⟨-, rfl⟩ := mem_evaluateDiffGate_iff.mp found
    obtain ⟨-, rfl⟩ := mem_evaluateDiffGate_iff.mp foundLater
    obtain ⟨sameRisk, sorted⟩ := honours_approvalFor_iff.mp honoured
    have same : ∀ path, path ∈ gatedPaths first trustLevel protectedPaths ↔
        path ∈ gatedPaths second trustLevel protectedPaths := by
      apply sortedSet_inj.mp
      exact (sorted_sortedSet _).symm.trans sorted
    have back := fun path => (same path).symm
    refine ⟨sameRisk.symm, fun path among => ?_, fun danger raised => ?_⟩
    · exact mem_sortedSet.mpr ((same path).mpr (mem_sortedSet.mp among))
    · cases danger with
      | deletion =>
          have deletes : gatedDeletions second trustLevel ≠ [] := fun none =>
            raised (sortedSet_eq_nil.mpr none)
          have strict : trustLevel = "strict" := by
            by_contra lenient
            exact deletes (if_neg lenient)
          intro kept
          have keeps : gatedDeletions first trustLevel = [] := sortedSet_eq_nil.mp kept
          simp only [keeps] at sameRisk
          obtain ⟨depends, protects⟩ := mixed_of_hidden_deletion deletes sameRisk
          rw [gatedDependencies, if_pos strict] at depends
          rw [gatedDeletions, if_pos strict] at keeps deletes
          exact bounded ⟨strict, keeps, deletes, depends, protects, same⟩
      | dependency =>
          have depends : gatedDependencies second trustLevel ≠ [] := fun none =>
            raised (sortedSet_eq_nil.mpr none)
          exact fun none => gatedDependencies_of_samePaths back depends (sortedSet_eq_nil.mp none)
      | protectedPath =>
          have protects : protectedHits second protectedPaths ≠ [] := fun none =>
            raised (sortedSet_eq_nil.mpr none)
          exact fun none => protectedHits_of_samePaths back protects (sortedSet_eq_nil.mp none)

/-- The approval of a change of a protected manifest holds for its deletion. -/
theorem approval_uncovered :
    ∃ earlier ∈ evaluateDiffGate [{ status := "M", path := "package.json" }] "strict"
        ["package.json"],
      ∃ later ∈ evaluateDiffGate [{ status := "D", path := "package.json" }] "strict"
          ["package.json"],
        honours (approvalFor id "implementation" earlier) later = true ∧
          earlier.deletedPaths = [] ∧ later.deletedPaths = ["package.json"] ∧
          ¬ Covers earlier later := by
  let changed : DangerousDiff := {
    risk := "other"
    paths := ["package.json"]
    deletedPaths := []
    dependencyPaths := ["package.json"]
    protectedPaths := ["package.json"] }
  let removed : DangerousDiff := { changed with deletedPaths := ["package.json"] }
  refine ⟨changed, ?_, removed, ?_, ?_, rfl, rfl,
    fun covers => covers.dangers .deletion (List.cons_ne_nil _ _) rfl⟩
  · decide +kernel
  · decide +kernel
  · decide +kernel

end Coverage

end Orchestrator.Hitl
