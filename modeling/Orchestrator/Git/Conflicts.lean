import Orchestrator.Foundation.OrderedDict
import Orchestrator.Foundation.Text

/-! # The conflicted paths of a merge

What `git ls-files -u -z` prints gives the unmerged paths with their stages, and a probe of the
working tree what stands at each of them.
-/

namespace Orchestrator.Git

open Orchestrator.Foundation

/-! ## The unmerged entries of the index -/

/-- `text.split()`. -/
def words (text : String) : List String :=
  ((text.toList.splitOnP Text.isSpace).filter fun word => word ≠ []).map String.ofList

/-- `int` of decimal digits, when there are any and nothing else. -/
def stageNumber (text : String) : Option Nat :=
  if text ≠ "" ∧ text.toList.all Char.isDigit then
    some (text.toList.foldl (fun number letter => 10 * number + (letter.toNat - '0'.toNat)) 0)
  else none

/-- A record of `git ls-files -u`: a mode, an object, a stage, and after a tab the path. -/
def unmergedRecord (record : String) : Option (String × String × Nat) :=
  match Text.partition record '\t' with
  | (_, false, _) => none
  | (fields, true, path) =>
      match words fields with
      | [mode, _, stage] => (stageNumber stage).map fun number => (path, mode, number)
      | _ => none

/-- `entries.setdefault(path, []).append(...)`. -/
def addStage (entries : OrderedDict String (List (String × Nat)))
    (record : String × String × Nat) : OrderedDict String (List (String × Nat)) :=
  entries.set record.1 ((entries.get? record.1).getD [] ++ [record.2])

/-- `_parse_ls_files_unmerged_z`. -/
def parseLsFilesUnmergedZ (output : String) : OrderedDict String (List (String × Nat)) :=
  ((Text.split output '\x00').filterMap unmergedRecord).foldl addStage .empty

/-! ## Evidence -/

/-- What could show that a conflict was decided. -/
inductive ConflictEvidence where
  | worktreeBytes
  | nothingToDecide
  | outOfBand
  deriving DecidableEq

/-- Git's two letters for a set of stages, a clause, and the evidence. -/
structure ConflictShape where
  code : String
  description : String
  evidence : ConflictEvidence

/-- `_CONFLICT_BY_STAGES`. -/
def conflictByStages : List (List Nat × ConflictShape) :=
  [([1, 2, 3], ⟨"UU", "both sides modified it", .worktreeBytes⟩),
    ([2, 3], ⟨"AA", "both sides added it", .worktreeBytes⟩),
    ([1, 2], ⟨"UD", "we modified it, base deleted it", .worktreeBytes⟩),
    ([1, 3], ⟨"DU", "we deleted it, base modified it", .worktreeBytes⟩),
    ([2], ⟨"AU", "only we added it", .worktreeBytes⟩),
    ([3], ⟨"UA", "only base added it", .worktreeBytes⟩),
    ([1], ⟨"DD", "both sides deleted it", .nothingToDecide⟩)]

/-- Whether two lists have the same members. -/
def sameSet (first second : List Nat) : Bool :=
  first.all (fun number => decide (number ∈ second)) &&
    second.all (fun number => decide (number ∈ first))

/-- The shape of the stages that the index holds. -/
def shapeOf (stages : List Nat) : ConflictShape :=
  match conflictByStages.find? fun row => sameSet stages row.1 with
  | some (_, shape) => shape
  | none => ⟨"??", "an unmerged entry Git described in a shape we do not model", .outOfBand⟩

/-- `_GITLINK_MODE`. -/
def gitlinkMode : String := "160000"

/-- The shape of an entry; a submodule is decided out of band. -/
def entryShape (stages : List (String × Nat)) : ConflictShape :=
  let shape := shapeOf (stages.map Prod.snd)
  if stages.any fun stage => stage.1 = gitlinkMode then
    { shape with
      description := shape.description ++ " (a submodule gitlink — the answer is a commit id)"
      evidence := .outOfBand }
  else shape

/-! ## The working tree -/

/-- What stands at a path of the working tree. A link, a directory and a device are other things. -/
inductive WorkFile where
  | missing
  | regular (content : List UInt8)
  | unreadable
  | other

/-- What a probe of a path finds. -/
structure ConflictProbe where
  existing : Bool
  digest : Option String
  binary : Bool
  hasMarkers : Bool

/-- `_CONFLICT_SCAN_BYTES`. -/
def conflictScanBytes : Nat := 1048576

/-- The bytes that a conflict marker starts with. -/
def markerStart : List UInt8 := [60, 60, 60, 60, 60, 60, 60, 32]

/-- A marker at the start or after a line feed. -/
def headHasMarkers (head : List UInt8) : Bool :=
  markerStart.isPrefixOf head || head.tails.any fun rest => (10 :: markerStart).isPrefixOf rest

/-- A conflicted path: what the index holds, and what the probe has found. -/
structure ConflictedPath where
  path : String
  shape : ConflictShape
  hasBase : Bool
  hasOurs : Bool
  hasTheirs : Bool
  probe : ConflictProbe

section Inventory

variable (sha256 : List UInt8 → String)

/-- `_probe_conflict_file`. -/
def probeConflictFile : WorkFile → ConflictProbe
  | .regular content => {
      existing := true
      digest := some (sha256 content)
      binary := decide (0 ∈ content.take conflictScanBytes)
      hasMarkers := headHasMarkers (content.take conflictScanBytes) }
  | _ => { existing := false, digest := none, binary := false, hasMarkers := false }

/-- One entry of the inventory. -/
def conflictEntry (files : String → WorkFile) (item : String × List (String × Nat)) :
    ConflictedPath where
  path := item.1
  shape := entryShape item.2
  hasBase := decide (1 ∈ item.2.map Prod.snd)
  hasOurs := decide (2 ∈ item.2.map Prod.snd)
  hasTheirs := decide (3 ∈ item.2.map Prod.snd)
  probe := probeConflictFile sha256 (files item.1)

/-- `conflicted_paths`, of what git prints and of the working tree. -/
def conflictedPaths (output : String) (files : String → WorkFile) : List ConflictedPath :=
  ((parseLsFilesUnmergedZ output).items.map (conflictEntry sha256 files)).insertionSort
    fun first second => first.path ≤ second.path

variable {sha256} {output : String} {files : String → WorkFile}

/-- An entry of the inventory is one of the index, probed. -/
theorem mem_conflictedPaths {entry : ConflictedPath} :
    entry ∈ conflictedPaths sha256 output files ↔
      ∃ item ∈ (parseLsFilesUnmergedZ output).items, conflictEntry sha256 files item = entry := by
  rw [conflictedPaths, List.mem_insertionSort, List.mem_map]

end Inventory

end Orchestrator.Git
