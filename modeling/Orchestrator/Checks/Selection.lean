import Orchestrator.Git.WorkTree

/-! # Selecting check sets by diff

Which command sets run is a function of the changed paths and each set's globs. A listing
that names only the new end of a rename leaves out the sets of the old end.
-/

/-! ## Repo-relative globs

The dialect of the operator's path lists: `**` crosses separators, `*` and `?` stay within
a segment. A compiled part leaves the rests of a text after what it may take of it.
-/

namespace Orchestrator.Checks

open Orchestrator.Foundation

/-- The rests of a text after some of its first letters, all of which satisfy a test. -/
def dropsWhile (test : Char → Bool) : List Char → List (List Char)
  | [] => [[]]
  | letter :: rest => (letter :: rest) :: if test letter then dropsWhile test rest else []

/-- A part of a compiled glob. -/
inductive GlobPart where
  | plain (letter : Char)
  | one
  | segment
  | anything
  | directories

/-- `compile_glob`, of a pattern whose separators are slashes. -/
def compileGlob : List Char → List GlobPart
  | '*' :: '*' :: '/' :: rest => .directories :: compileGlob rest
  | '*' :: '*' :: rest => .anything :: compileGlob rest
  | '*' :: rest => .segment :: compileGlob rest
  | '?' :: rest => .one :: compileGlob rest
  | letter :: rest => .plain letter :: compileGlob rest
  | [] => []

/-- What is left of a text after a part: `.` takes anything but the end of a line. -/
def GlobPart.rests : GlobPart → List Char → List (List Char)
  | .plain letter, text => if text.head? = some letter then [text.tail] else []
  | .one, text => if text.head?.any (· ≠ '/') then [text.tail] else []
  | .segment, text => dropsWhile (· ≠ '/') text
  | .anything, text => dropsWhile (· ≠ '\n') text
  | .directories, text => text :: ((dropsWhile (· ≠ '\n') text).filter fun rest =>
      rest.head? = some '/').map List.tail

/-- `fullmatch` of a compiled glob. -/
def globFullMatch : List GlobPart → List Char → Bool
  | [], text => text.isEmpty
  | part :: parts, text => (part.rests text).any (globFullMatch parts)

/-- `path_matches_any`. -/
def pathMatchesAny (path : String) (patterns : List String) : Bool :=
  patterns.any fun pattern => globFullMatch (compileGlob (Text.replace pattern '\\' '/').toList)
    (Text.replace path '\\' '/').toList

/-- `fnmatch.fnmatchcase` for patterns without brackets. -/
def fnmatchCase : List Char → List Char → Bool
  | [], name => name.isEmpty
  | '*' :: rest, name => (dropsWhile (fun _ => true) name).any (fnmatchCase rest)
  | '?' :: rest, name => name.head?.isSome && fnmatchCase rest name.tail
  | letter :: rest, name => decide (name.head? = some letter) && fnmatchCase rest name.tail

example : pathMatchesAny "docs/a/b.md" ["**/*.md"] = true ∧
    pathMatchesAny "docs/a/b.md" ["docs/*.md"] = false := by decide

open Orchestrator.Foundation
open Orchestrator.Git

/-! ## Selecting check sets by diff -/

/-- A named command set with its selection globs; none select it for every change. -/
structure ResolvedCheckSet where
  name : String
  paths : List String
  deriving DecidableEq

/-- The sets of `normalize_command_sets`, each named by its own configuration key. -/
structure CheckSets where
  sets : List ResolvedCheckSet
  distinct : (sets.map ResolvedCheckSet.name).Nodup

/-- `_set_matches_path`. -/
def setMatchesPath (cset : ResolvedCheckSet) (path : String) : Bool :=
  pathMatchesAny path cset.paths

/-- The loop of `select_check_sets`, after the names seen. -/
def selectFrom (paths seen : List String) : List ResolvedCheckSet → List ResolvedCheckSet
  | [] => []
  | cset :: rest =>
      let runs := cset.paths = [] || paths.any (setMatchesPath cset)
      if runs && decide (cset.name ∉ seen) then cset :: selectFrom paths (cset.name :: seen) rest
      else selectFrom paths seen rest

/-- `select_check_sets`: an unknown diff runs every set, an empty one none. -/
def selectCheckSets (sets : List ResolvedCheckSet) :
    Option (List String) → List ResolvedCheckSet
  | none => sets
  | some [] => []
  | some changed => selectFrom (changed.map fun path => Text.replace path '\\' '/') [] sets

/-- The aggregate result of a run of checks. -/
structure CheckOutcome where
  anyQualityFailed : Bool := false
  anyLaunchFailed : Bool := false
  nothingRan : Bool := false
  deriving DecidableEq

/-- How a checks node ends. -/
inductive ChecksResult where
  | completed (passed : Bool)
  | manualRequired (message : String)
  deriving DecidableEq

/-- The sets a checks node ran and how it ended. -/
structure ChecksRun where
  ran : List ResolvedCheckSet
  result : ChecksResult

/-- `_run_command_profile`, given the changed paths, the runner and whether the working tree changed
across the run. -/
def runCommandProfile (nodeId : String) (sets : List ResolvedCheckSet)
    (changed : Option (List String)) (runChecks : List ResolvedCheckSet → CheckOutcome)
    (mutatedWorkingTree : Bool) : ChecksRun :=
  let selected := selectCheckSets sets changed
  if selected = [] then { ran := [], result := .completed true }
  else
    let outcome := runChecks selected
    let result : ChecksResult :=
      if outcome.anyLaunchFailed || outcome.nothingRan then
        .manualRequired ("checks node " ++ Text.repr nodeId ++ ": the quality gate could not " ++
          "fully run (a required toolchain is absent on the host, or every selected check was " ++
          "skipped) — changed code must not be handed on unchecked")
      else if outcome.anyQualityFailed then .completed false
      else if mutatedWorkingTree then
        .manualRequired ("checks node " ++ Text.repr nodeId ++ ": a check mutated the working " ++
          "tree (commit-candidate files changed across the check run) — a green-but-dirtying " ++
          "check must not pass silently")
      else .completed true
    { ran := selected, result := result }

/-! ## The selection as a filter -/

/-- The loop keeps the sets that run, as long as no name comes twice. -/
theorem selectFrom_eq_filter {paths seen : List String} {sets : List ResolvedCheckSet}
    (distinct : (sets.map ResolvedCheckSet.name).Nodup)
    (fresh : ∀ cset ∈ sets, cset.name ∉ seen) :
    selectFrom paths seen sets =
      sets.filter fun cset => cset.paths = [] || paths.any (setMatchesPath cset) := by
  induction sets generalizing seen with
  | nil => rfl
  | cons cset rest ih =>
      rw [List.map_cons, List.nodup_cons] at distinct
      have unseen := fresh cset List.mem_cons_self
      have later : ∀ other ∈ rest, other.name ∉ seen := fun other among =>
        fresh other (List.mem_cons_of_mem _ among)
      unfold selectFrom
      by_cases runs : (decide (cset.paths = []) || paths.any (setMatchesPath cset)) = true
      · simp only [runs, unseen, not_false_eq_true, decide_true, Bool.and_self, if_true,
          List.filter_cons_of_pos, List.cons.injEq, true_and]
        apply ih distinct.2
        intro other among
        rw [List.mem_cons, not_or]
        exact ⟨fun same => distinct.1 (List.mem_map.mpr ⟨other, among, same⟩), later other among⟩
      · simp only [runs, Bool.false_and, Bool.false_eq_true, if_false, not_false_eq_true,
          List.filter_cons_of_neg]
        exact ih distinct.2 later

theorem replace_replace (path : String) :
    Text.replace (Text.replace path '\\' '/') '\\' '/' = Text.replace path '\\' '/' := by
  unfold Text.replace
  rw [String.toList_ofList, List.map_map]
  congr 1
  refine List.map_congr_left fun letter _ => ?_
  by_cases back : letter = '\\'
  · simp [back]
  · simp [back]

@[simp] theorem setMatchesPath_replace {cset : ResolvedCheckSet} {path : String} :
    setMatchesPath cset (Text.replace path '\\' '/') = setMatchesPath cset path := by
  unfold setMatchesPath pathMatchesAny
  rw [replace_replace]

/-- A set is selected when there is a change and its globs, if any, match one. -/
theorem selectCheckSets_eq_filter (checks : CheckSets) (changed : List String) :
    selectCheckSets checks.sets (some changed) = checks.sets.filter fun cset =>
      changed ≠ [] ∧ (cset.paths = [] ∨ changed.any (setMatchesPath cset) = true) := by
  cases changed with
  | nil => simp [selectCheckSets]
  | cons first rest =>
      rw [selectCheckSets, selectFrom_eq_filter checks.distinct fun _ _ => List.not_mem_nil]
      · refine List.filter_congr fun cset _ => ?_
        have same : ((first :: rest).map fun path => Text.replace path '\\' '/').any
            (setMatchesPath cset) = (first :: rest).any (setMatchesPath cset) := by
          rw [List.any_map]
          simp only [Function.comp_def, setMatchesPath_replace]
        rw [same, Bool.eq_iff_iff, Bool.or_eq_true, decide_eq_true_eq, decide_eq_true_eq]
        exact (and_iff_right (List.cons_ne_nil _ _)).symm
      · exact fun none => List.cons_ne_nil _ _ none

variable {checks : CheckSets} {changed : List String} {cset : ResolvedCheckSet}

/-- A set that claims a listed path is selected. -/
theorem mem_selectCheckSets_of_listed {path : String} (among : cset ∈ checks.sets)
    (listed : path ∈ changed) (claims : setMatchesPath cset path = true) :
    cset ∈ selectCheckSets checks.sets (some changed) := by
  rw [selectCheckSets_eq_filter, List.mem_filter, decide_eq_true_eq]
  exact ⟨among, List.ne_nil_of_mem listed, .inr (List.any_eq_true.mpr ⟨path, listed, claims⟩)⟩

/-- A selected set that has globs claims a listed path. -/
theorem listed_of_mem_selectCheckSets {path : String}
    (selected : cset ∈ selectCheckSets checks.sets (some changed))
    (claims : setMatchesPath cset path = true) :
    ∃ other ∈ changed, setMatchesPath cset other = true := by
  rw [selectCheckSets_eq_filter, List.mem_filter, decide_eq_true_eq] at selected
  rcases selected.2.2 with always | matched
  · rw [setMatchesPath, pathMatchesAny, always, List.any_nil] at claims
    cases claims
  · exact List.any_eq_true.mp matched

/-- A node runs what is selected. -/
theorem ran_runCommandProfile (nodeId : String) (sets : List ResolvedCheckSet)
    (listing : Option (List String)) (runChecks : List ResolvedCheckSet → CheckOutcome)
    (mutated : Bool) :
    (runCommandProfile nodeId sets listing runChecks mutated).ran =
      selectCheckSets sets listing := by
  unfold runCommandProfile
  dsimp only
  split
  · rename_i none
    exact none.symm
  · rfl

/-! ## No touched set is left out -/

section Coverage

variable {Entry : Type} [DecidableEq Entry]

/-- What a node runs over a change: every set that claims a touched path of the code, in order and
once each, and nothing only when no set claims one. -/
structure RunsTouched (checks : CheckSets) (base : Dict Entry) (tree : WorkTree Entry)
    (tasksDir : String) (run : ChecksRun) : Prop where
  claimed : ∀ cset ∈ checks.sets, ∀ path, Touched base tree path →
    isArtifactPath tasksDir path = false → setMatchesPath cset path = true → cset ∈ run.ran
  ordered : run.ran.Sublist checks.sets
  distinct : (run.ran.map ResolvedCheckSet.name).Nodup
  vacuous : run.ran = [] → run.result = .completed true → ∀ path, Touched base tree path →
    isArtifactPath tasksDir path = false → ∀ cset ∈ checks.sets, setMatchesPath cset path = false

/-- The checks node leaves no touched set out, exactly when every set that claims a code path moved
away also claims a changed code path that is still named. -/
theorem runCommandProfile_runsTouched (nodeId tasksDir : String) (checks : CheckSets)
    (base : Dict Entry) (tree : WorkTree Entry) (detectRenames : RenameDetection Entry)
    (runChecks : List ResolvedCheckSet → CheckOutcome) (mutated : Bool) :
    RunsTouched checks base tree tasksDir (runCommandProfile nodeId checks.sets
        (some (changedCodePathsSinceBase base tree detectRenames tasksDir)) runChecks mutated) ↔
      ∀ cset ∈ checks.sets, ∀ path, MovedOut base tree detectRenames path →
        isArtifactPath tasksDir path = false → setMatchesPath cset path = true →
          ∃ other, Named base tree other ∧ ¬ MovedOut base tree detectRenames other ∧
            isArtifactPath tasksDir other = false ∧ setMatchesPath cset other = true := by
  constructor
  · intro runs cset among path moved code claims
    have ran := runs.claimed cset among path (touched_of_movedOut moved) code claims
    rw [ran_runCommandProfile] at ran
    obtain ⟨other, listed, claimsOther⟩ := listed_of_mem_selectCheckSets ran claims
    obtain ⟨named, kept, codeOther⟩ := mem_changedCodePathsSinceBase.mp listed
    exact ⟨other, named, kept, codeOther, claimsOther⟩
  · intro covered
    have claimed : ∀ cset ∈ checks.sets, ∀ path, Touched base tree path →
        isArtifactPath tasksDir path = false → setMatchesPath cset path = true →
          cset ∈ selectCheckSets checks.sets
            (some (changedCodePathsSinceBase base tree detectRenames tasksDir)) := by
      intro cset among path touched code claims
      by_cases moved : MovedOut base tree detectRenames path
      · obtain ⟨other, named, kept, codeOther, claimsOther⟩ :=
          covered cset among path moved code claims
        apply mem_selectCheckSets_of_listed among _ claimsOther
        exact mem_changedCodePathsSinceBase.mpr ⟨named, kept, codeOther⟩
      · apply mem_selectCheckSets_of_listed among _ claims
        exact mem_changedCodePathsSinceBase.mpr ⟨named_of_touched touched, moved, code⟩
    have ordered : (selectCheckSets checks.sets
        (some (changedCodePathsSinceBase base tree detectRenames tasksDir))).Sublist
          checks.sets := by
      rw [selectCheckSets_eq_filter]
      exact List.filter_sublist
    refine ⟨?_, ?_, ?_, ?_⟩
    · rwa [ran_runCommandProfile]
    · rwa [ran_runCommandProfile]
    · rw [ran_runCommandProfile]
      exact (ordered.map _).nodup checks.distinct
    · intro nothing _ path touched code cset among
      rw [ran_runCommandProfile] at nothing
      by_contra claims
      have selected := claimed cset among path touched code (Bool.eq_true_of_not_eq_false claims)
      rw [nothing] at selected
      exact List.not_mem_nil selected

/-- A file moved from the backend to the frontend runs the frontend's checks only. -/
theorem moved_file_unchecked :
    let backend : ResolvedCheckSet := { name := "backend", paths := ["backend/**"] }
    let frontend : ResolvedCheckSet := { name := "frontend", paths := ["frontend/**"] }
    let base : Dict Nat := Dict.ofList [("backend/shared.py", 7)]
    let tree : WorkTree Nat := {
      index := ["frontend/shared.py"]
      files := Dict.ofList [("frontend/shared.py", 7)]
      ignored := fun _ => false }
    let run := runCommandProfile "testing" [backend, frontend]
      (some (changedCodePathsSinceBase base tree exactRenames "tasks")) (fun _ => {}) false
    Touched base tree "backend/shared.py" ∧ isArtifactPath "tasks" "backend/shared.py" = false ∧
      setMatchesPath backend "backend/shared.py" = true ∧ run.ran = [frontend] ∧
        run.result = .completed true ∧
          ∀ checks : CheckSets, checks.sets = [backend, frontend] →
            ¬ RunsTouched checks base tree "tasks" run := by
  intro backend frontend base tree run
  have touched : Touched base tree "backend/shared.py" := by
    unfold Touched
    decide +kernel
  have code : isArtifactPath "tasks" "backend/shared.py" = false := by decide +kernel
  have claims : setMatchesPath backend "backend/shared.py" = true := by decide +kernel
  have ran : run.ran = [frontend] := by decide +kernel
  refine ⟨touched, code, claims, ran, by decide +kernel, fun checks sets runs => ?_⟩
  have left := runs.claimed backend (sets ▸ List.mem_cons_self) _ touched code claims
  rw [ran, List.mem_singleton] at left
  exact absurd left (by decide)

end Coverage

end Orchestrator.Checks
