import Orchestrator.Foundation.NumberedNames
import Orchestrator.Security.Identifiers

/-! # Interaction artifacts

Where the exchanges with a human are kept, one file for each. The names are built from
node ids, tags and numbers with one hyphen, which node ids may contain.
-/

namespace Orchestrator.Hitl

open Orchestrator.Foundation

/-- An exchange with a human: one a node embeds, one about a diff, that of a `hitl` node, or one
about a node's turns. -/
inductive Interaction where
  | embedded (nodeId : String) (subtask : Option Nat)
  | guardrail (nodeId : String) (subtask : Option Nat) (cycle : Nat)
  | gateNode (nodeId : String) (subtask : Option Nat)
  | turnGate (nodeId : String) (subtask : Option Nat)

/-- The node an interaction belongs to. -/
def Interaction.nodeId : Interaction → String
  | .embedded nodeId _ => nodeId
  | .guardrail nodeId _ _ => nodeId
  | .gateNode nodeId _ => nodeId
  | .turnGate nodeId _ => nodeId

/-- `f"-subtask-{subtask}" if subtask is not None else ""`. -/
def subtaskSuffix : Option Nat → String
  | none => ""
  | some order => "-subtask-" ++ toString order

def taskArtifactDir (artifactsRoot taskId : String) : String :=
  artifactsRoot ++ "/logs/" ++ taskId

section Paths

variable (artifactsRoot taskId nodeId : String) (subtask : Option Nat)

/-- A file among the task's interactions. -/
def hitlFile (name : String) : String :=
  taskArtifactDir artifactsRoot taskId ++ "/hitl/" ++ (name ++ ".json")

def interactionPath : String := hitlFile artifactsRoot taskId (nodeId ++ subtaskSuffix subtask)

def guardrailInteractionPath (cycle : Nat) : String :=
  hitlFile artifactsRoot taskId
    ("guardrail-" ++ nodeId ++ subtaskSuffix subtask ++ "-cycle-" ++ toString cycle)

def nodeInteractionPath : String :=
  hitlFile artifactsRoot taskId ("node-" ++ nodeId ++ subtaskSuffix subtask)

def turnGateInteractionPath : String :=
  hitlFile artifactsRoot taskId ("turn-gate-" ++ nodeId ++ subtaskSuffix subtask)

end Paths

/-- The file of an interaction. -/
def Interaction.path (artifactsRoot taskId : String) : Interaction → String
  | .embedded nodeId subtask => interactionPath artifactsRoot taskId nodeId subtask
  | .guardrail nodeId subtask cycle =>
      guardrailInteractionPath artifactsRoot taskId nodeId subtask cycle
  | .gateNode nodeId subtask => nodeInteractionPath artifactsRoot taskId nodeId subtask
  | .turnGate nodeId subtask => turnGateInteractionPath artifactsRoot taskId nodeId subtask

/-! ## When names are the same -/

/-- One name with its subtask reads as the other with its own: both parts are the same, or one name
ends as the other's subtask does. -/
def ReadsAs (first : String) (subtask : Option Nat) (second : String) (other : Option Nat) :
    Prop :=
  match subtask, other with
  | none, none => first = second
  | some order, some order' => first = second ∧ order = order'
  | some order, none => second = first ++ "-subtask-" ++ toString order
  | none, some order => first = second ++ "-subtask-" ++ toString order

instance (first : String) (subtask : Option Nat) (second : String) (other : Option Nat) :
    Decidable (ReadsAs first subtask second other) := by
  unfold ReadsAs
  split <;> infer_instance

/-- Two interactions are kept in one file: their node ids differ by the tag of the subtask within a
kind, and an embedded one's node id may have the tag of another kind in front. -/
def Clash : Interaction → Interaction → Prop
  | .embedded first subtask, .embedded second other => ReadsAs first subtask second other
  | .gateNode first subtask, .gateNode second other => ReadsAs first subtask second other
  | .turnGate first subtask, .turnGate second other => ReadsAs first subtask second other
  | .guardrail first subtask cycle, .guardrail second other cycle' =>
      ReadsAs first subtask second other ∧ cycle = cycle'
  | .embedded first subtask, .gateNode second other
  | .gateNode second other, .embedded first subtask =>
      ReadsAs first subtask ("node-" ++ second) other
  | .embedded first subtask, .turnGate second other
  | .turnGate second other, .embedded first subtask =>
      ReadsAs first subtask ("turn-gate-" ++ second) other
  | .embedded first none, .guardrail second other cycle
  | .guardrail second other cycle, .embedded first none =>
      first = "guardrail-" ++ second ++ subtaskSuffix other ++ "-cycle-" ++ toString cycle
  | _, _ => False

theorem not_isDigit_of_tag {name tag : String} (ends : tag.toList.getLast? = some '-') :
    ∀ letter ∈ (name ++ tag).toList.getLast?, letter.isDigit = false := by
  intro letter last
  rw [String.toList_append, List.getLast?_append, ends, Option.some_or] at last
  cases last
  decide

/-- A name and its subtask are the same as another's exactly when they read as them. -/
theorem withSubtask_inj {first second : String} {subtask other : Option Nat} :
    first ++ subtaskSuffix subtask = second ++ subtaskSuffix other ↔
      ReadsAs first subtask second other := by
  cases subtask with
  | none =>
      cases other with
      | none => rw [String.append_left_inj, ReadsAs]
      | some order => rw [subtaskSuffix, subtaskSuffix, String.append_empty, ReadsAs,
          String.append_assoc]
  | some order =>
      cases other with
      | none => rw [subtaskSuffix, subtaskSuffix, String.append_empty, ReadsAs,
          String.append_assoc, eq_comm]
      | some order' =>
          rw [subtaskSuffix, subtaskSuffix, ← String.append_assoc, ← String.append_assoc,
            numbered_inj (not_isDigit_of_tag (by decide)) (not_isDigit_of_tag (by decide)),
            String.append_left_inj, ReadsAs]

/-- Names with a cycle are the same exactly when what is before the cycle is, and the cycles are. -/
theorem withCycle_inj {first second : String} {cycle cycle' : Nat} :
    first ++ "-cycle-" ++ toString cycle = second ++ "-cycle-" ++ toString cycle' ↔
      first = second ∧ cycle = cycle' := by
  rw [numbered_inj (not_isDigit_of_tag (by decide)) (not_isDigit_of_tag (by decide)),
    String.append_left_inj]

/-- A name that ends in a subtask does not end in a cycle. -/
theorem withSubtask_ne_withCycle {first second : String} {order cycle : Nat} :
    first ++ subtaskSuffix (some order) ≠ second ++ "-cycle-" ++ toString cycle := by
  rw [subtaskSuffix, ← String.append_assoc]
  intro same
  have tags := ((numbered_inj (not_isDigit_of_tag (by decide))
    (not_isDigit_of_tag (by decide))).mp same).1
  have ends := congrArg (fun name => name.toList.reverse.take 2) tags
  simp at ends

theorem hitlFile_inj {artifactsRoot taskId first second : String} :
    hitlFile artifactsRoot taskId first = hitlFile artifactsRoot taskId second ↔
      first = second := by
  rw [hitlFile, hitlFile, String.append_right_inj, String.append_left_inj]

/-- Names whose first letters differ are different. -/
theorem ne_of_first {first second : String} (apart : first.toList.head? ≠ second.toList.head?) :
    first ≠ second := fun same => apart (same ▸ rfl)

/-- Two interactions have one file exactly when they are the same or clash. -/
theorem path_eq_iff {artifactsRoot taskId : String} {first second : Interaction} :
    first.path artifactsRoot taskId = second.path artifactsRoot taskId ↔ Clash first second := by
  cases first with
  | embedded first subtask =>
      cases second with
      | embedded second other => exact hitlFile_inj.trans withSubtask_inj
      | guardrail second other cycle =>
          refine hitlFile_inj.trans ?_
          cases subtask with
          | none => rw [subtaskSuffix, String.append_empty, Clash]
          | some order => exact iff_of_false withSubtask_ne_withCycle id
      | gateNode second other => exact hitlFile_inj.trans withSubtask_inj
      | turnGate second other => exact hitlFile_inj.trans withSubtask_inj
  | guardrail first subtask cycle =>
      cases second with
      | embedded second other =>
          refine hitlFile_inj.trans (eq_comm.trans ?_)
          cases other with
          | none => rw [subtaskSuffix, String.append_empty, Clash]
          | some order => exact iff_of_false withSubtask_ne_withCycle id
      | guardrail second other cycle' =>
          rw [Clash, ← withSubtask_inj]
          refine hitlFile_inj.trans (withCycle_inj.trans (and_congr_left fun _ => ?_))
          rw [String.append_assoc, String.append_assoc, String.append_right_inj]
      | gateNode second other =>
          refine iff_of_false (fun same => ?_) id
          exact ne_of_first (by simp) (hitlFile_inj.mp same)
      | turnGate second other =>
          refine iff_of_false (fun same => ?_) id
          exact ne_of_first (by simp) (hitlFile_inj.mp same)
  | gateNode first subtask =>
      cases second with
      | embedded second other =>
          exact hitlFile_inj.trans (eq_comm.trans withSubtask_inj)
      | guardrail second other cycle =>
          refine iff_of_false (fun same => ?_) id
          exact ne_of_first (by simp) (hitlFile_inj.mp same)
      | gateNode second other =>
          refine hitlFile_inj.trans (Iff.trans ?_ withSubtask_inj)
          rw [String.append_assoc, String.append_assoc, String.append_right_inj]
      | turnGate second other =>
          refine iff_of_false (fun same => ?_) id
          exact ne_of_first (by simp) (hitlFile_inj.mp same)
  | turnGate first subtask =>
      cases second with
      | embedded second other =>
          exact hitlFile_inj.trans (eq_comm.trans withSubtask_inj)
      | guardrail second other cycle =>
          refine iff_of_false (fun same => ?_) id
          exact ne_of_first (by simp) (hitlFile_inj.mp same)
      | gateNode second other =>
          refine iff_of_false (fun same => ?_) id
          exact ne_of_first (by simp) (hitlFile_inj.mp same)
      | turnGate second other =>
          refine hitlFile_inj.trans (Iff.trans ?_ withSubtask_inj)
          rw [String.append_assoc, String.append_assoc, String.append_right_inj]

/-! ## Records -/

/-- What an interaction asked for. -/
structure InteractionRequest where
  kind : String
  question : String := ""
  context : String := ""
  risk : String
  paths : List String := []

/-- A durable record of an interaction. -/
structure PersistedInteraction where
  request : InteractionRequest
  status : String := "waiting"
  answer : Option String := none
  approved : Option Bool := none
  failure : Option String := none

/-- The records on disk by their paths. -/
abbrev InteractionFiles := String → Option PersistedInteraction

/-- `_atomic_json` of a record. -/
def InteractionFiles.put (files : InteractionFiles) (path : String)
    (record : PersistedInteraction) : InteractionFiles := Function.update files path (some record)

/-- The paths of two interactions differ, and no record of the second is ever read back as the
first's, exactly when they do not clash. -/
theorem interactions_apart (artifactsRoot taskId : String) (first second : Interaction) :
    (first.path artifactsRoot taskId ≠ second.path artifactsRoot taskId ↔ ¬ Clash first second) ∧
    ((∀ (files : InteractionFiles) (record : PersistedInteraction),
      files.put (second.path artifactsRoot taskId) record (first.path artifactsRoot taskId) =
        files (first.path artifactsRoot taskId)) ↔ ¬ Clash first second) := by
  have apart : first.path artifactsRoot taskId ≠ second.path artifactsRoot taskId ↔
      ¬ Clash first second := not_congr path_eq_iff
  refine ⟨apart, ?_⟩
  rw [← apart]
  constructor
  · intro unread same
    have lost := unread (fun _ => none) ⟨⟨"", "", "", "", []⟩, "", none, none, none⟩
    rw [same, InteractionFiles.put, Function.update_self] at lost
    cases lost
  · intro apart files record
    exact Function.update_of_ne apart _ _

/-- A node `node-review` that asks in a run and a `hitl` node `review` share a file. -/
theorem interactions_shared :
    Security.isValidNodeId "node-review" = true ∧ Security.isValidNodeId "review" = true ∧
      (Interaction.embedded "node-review" none).path "." "task" =
        (Interaction.gateNode "review" none).path "." "task" := by
  refine ⟨by decide, by decide, ?_⟩
  rfl

end Orchestrator.Hitl
