import Mathlib.Data.List.DropRight
import Mathlib.Data.String.Basic
import Orchestrator.Flow.RecordedFindings
import Orchestrator.Foundation.Merging
import Orchestrator.Foundation.OrderedDict
import Orchestrator.Foundation.Text

/-! # The steps of a supervisor packet

The record of a run that the summary is written from: its steps in the order they ran, each with the
findings of the verdict it gave, and the interruptions between them. The findings of final verdicts
are bounded one by one, those of superseded verdicts together.
-/

namespace Orchestrator.Supervisor

open Orchestrator.Foundation
open Orchestrator.Foundation.PyText (ofString ofChar strip isSpace)
open Orchestrator.Flow (RecordedEvaluation inFlowVerdict)

/-! ## The step record -/

/-- A row of `node_runs`. -/
structure NodeRun where
  id : Option Nat
  nodeId : String
  nodeKind : String
  subtaskOrder : Option Nat := none
  status : Option String := none
  outcome : Option String := none
  routePrimary : Option String := none
  providerUsed : Option String := none
  errorClass : Option String := none
  stageAttempts : Nat := 0
  startedAt : Option String := none
  finishedAt : Option String := none
  skipped : Bool := false
  skipReason : Option String := none

/-- What one executed node did. -/
structure StepFacts where
  nodeId : String
  nodeKind : String
  status : Option String
  outcome : Option String
  stageAttempts : Nat
  subtaskOrder : Option Nat
  providerUsed : Option String
  fallbackFrom : Option String
  errorClass : Option String
  skipped : Bool
  skipReason : Option String
  startedAt : Option String
  finishedAt : Option String
  message : Option PyText
  toolData : Option PyText
  toolStdout : Option PyText
  findings : Option PyText

/-- A text that is there and not empty. -/
def present (text : Option String) : Option String := text.filter fun value => value ≠ ""

/-- `fell_back_from`. -/
def fellBackFrom (row : NodeRun) : Option String :=
  match present row.providerUsed, present row.routePrimary with
  | some used, some primary => if used ≠ primary then some primary else none
  | _, _ => none

/-- The files of the runs: closing messages, and the data and the output of tools. -/
structure RunFiles where
  message : NodeRun → Option PyText
  toolOutput : NodeRun → Option PyText × Option PyText

/-- `_verdicts_by_run`, at one run: the last verdict that names it. -/
def verdictOfRun (evaluations : List RecordedEvaluation) (runId : Nat) : Option PyText :=
  (evaluations.reverse.find? fun row =>
    row.kind = inFlowVerdict && row.sourceNodeRunId = some runId).map
      RecordedEvaluation.findingsJson

/-- `step_facts`. -/
def stepFacts (files : RunFiles) (evaluations : List RecordedEvaluation) (row : NodeRun) :
    StepFacts where
  nodeId := row.nodeId
  nodeKind := row.nodeKind
  status := row.status
  outcome := row.outcome
  stageAttempts := row.stageAttempts
  subtaskOrder := row.subtaskOrder
  providerUsed := row.providerUsed
  fallbackFrom := fellBackFrom row
  errorClass := row.errorClass
  skipped := row.skipped
  skipReason := row.skipReason
  startedAt := row.startedAt
  finishedAt := row.finishedAt
  message := files.message row
  toolData := (files.toolOutput row).1
  toolStdout := (files.toolOutput row).2
  findings := row.id.bind (verdictOfRun evaluations)

/-- `collect_step_facts`. -/
def collectStepFacts (files : RunFiles) (nodeRuns : List NodeRun)
    (evaluations : List RecordedEvaluation) : List StepFacts :=
  nodeRuns.map (stepFacts files evaluations)

/-! ## Bounds -/

def finalFindingReasonMax : Nat := 1200

def finalFindingsBudget : Int := 40000

def supersededFindingReasonMax : Nat := 300

def supersededFindingsBudget : Int := 8000

/-- All superseded verdicts of a packet together. -/
def supersededFindingsPacketBudget : Int := 24000

/-- `_bounded`. -/
def bounded (text : PyText) (limit : Nat) : PyText :=
  let stripped := strip text
  if stripped.length ≤ limit then stripped
  else (stripped.take (limit - 1)).rdropWhile isSpace ++ [ofChar '…']

/-! ## Findings -/

/-- The findings of a step: bounded text where they are no array, and else whole items. -/
inductive FindingsEntry where
  | text (text : PyText)
  | listed (items : List Json) (total left malformed : Nat) (superseded : Bool)

/-- A finding as it is shown. Only free text is bounded. -/
def shownItem (reasonMax : Nat) (members : List (PyText × Json)) : Json :=
  .object ((OrderedDict.ofItems members).items.filterMap fun member =>
    match member.2 with
    | .null => none
    | .string text => some (member.1, .string (bounded text reasonMax))
    | value => some (member.1, value))

/-- The characters of an item. -/
def size (item : Json) : Nat := (Json.line item).length

/-- The items within a budget, and the characters they use. The first item of a final verdict is
shown whatever it uses. -/
def takeItems (final : Bool) (budget : Int) : Bool → Nat → List Json → List Json × Nat
  | _, used, [] => ([], used)
  | shown, used, item :: items =>
      if budget < used + size item ∧ (shown = true ∨ final = false) then ([], used)
      else
        let later := takeItems final budget true (used + size item) items
        (item :: later.1, later.2)

/-- The objects of an array. -/
def objectsOf (items : List Json) : List (List (PyText × Json)) :=
  items.filterMap fun
    | .object members => some members
    | _ => none

/-- `_findings_entry`. -/
def findingsEntry (findingsJson : PyText) (final : Bool) (budget : Int) : FindingsEntry × Nat :=
  let reasonMax := if final then finalFindingReasonMax else supersededFindingReasonMax
  match Json.loads findingsJson with
  | some (.array parsed) =>
      let wellFormed := objectsOf parsed
      let taken := takeItems final budget false 0 (wellFormed.map (shownItem reasonMax))
      (.listed taken.1 wellFormed.length (wellFormed.length - taken.1.length)
        (parsed.length - wellFormed.length) (!final), taken.2)
  | _ => (.text (bounded findingsJson reasonMax), (bounded findingsJson reasonMax).length)

/-- The step has findings that are not empty. -/
def findingsToShow (facts : StepFacts) : Option PyText :=
  facts.findings.filter fun findings =>
    strip findings ∉ [ofString "", ofString "[]", ofString "\x7b\x7d"]

/-- The verdict of a step is the last one of its node and subtask. -/
def isFinalVerdict (facts : StepFacts) (later : List StepFacts) : Bool :=
  later.all fun other => other.findings.isNone ||
    !(other.nodeId = facts.nodeId && other.subtaskOrder = facts.subtaskOrder)

/-! ## Steps and interruptions -/

/-- An earlier attempt of the task that ended without finishing. -/
structure Interruption where
  attempt : Nat
  status : String
  finishedAt : String
  node : Option String
  loop : Option String
  limit : Option String

/-- An interruption is due at a step that started when it was over. -/
def due (facts : StepFacts) (item : Interruption) : Bool :=
  match present facts.startedAt with
  | some startedAt => item.finishedAt ≤ startedAt
  | none => false

/-- The findings of every step, of what is left for superseded verdicts. -/
def stepFindings : Int → List StepFacts → List (StepFacts × Option FindingsEntry)
  | _, [] => []
  | left, facts :: later =>
      match findingsToShow facts with
      | none => (facts, none) :: stepFindings left later
      | some findings =>
          if isFinalVerdict facts later then
            (facts, some (findingsEntry findings true finalFindingsBudget).1) ::
              stepFindings left later
          else
            let entry := findingsEntry findings false (min supersededFindingsBudget left)
            (facts, some entry.1) :: stepFindings (left - entry.2) later

/-- The steps with their findings, and the interruptions where they are due. -/
def packetEntries (steps : List StepFacts) (interruptions : List Interruption) :
    List (Interruption ⊕ StepFacts × Option FindingsEntry) :=
  interleave (fun step => due step.1) (stepFindings supersededFindingsPacketBudget steps)
    (interruptions.mergeSort fun first second => first.finishedAt ≤ second.finishedAt)

def natural (number : Nat) : Json := .number (Json.naturalLiteral number)

/-- The members of a step's document that report its findings. -/
def FindingsEntry.members : FindingsEntry → List (PyText × Json)
  | .text shown => [(ofString "findings", .string shown)]
  | .listed items total left malformed superseded =>
      [(ofString "findings", .array items), (ofString "findings_total", natural total)] ++
        (if 0 < left then [(ofString "findings_omitted", natural left)] else []) ++
        (if 0 < malformed then [(ofString "findings_malformed", natural malformed)] else []) ++
        (if superseded then [(ofString "findings_superseded", .bool true)] else [])

end Orchestrator.Supervisor
