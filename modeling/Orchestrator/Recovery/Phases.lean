import Orchestrator.Decomposition.Plan
import Orchestrator.Flow.EngineDriver

/-! # Where a resumed run enters its flow

The driver of the phases computes its position from the partition, the accepted split and the
committed rows, and each phase overwrites the checkpoint with its own entry.
-/

namespace Orchestrator.Recovery

open Orchestrator.Decomposition
open Orchestrator.Flow

/-! ## The driver -/

/-- One call of `phase`: the node that it seeds, its region and its subtask. -/
structure Phase where
  entry : String
  region : Option (List String) := none
  subtask : Option Nat := none

/-- What the driver asks of the run: the checkpoint, the split, the orders of the committed rows, a
phase, and the commit of a subtask with what follows unless it is the last. -/
structure PhaseDriver (World : Type) where
  currentNode : World → Option String
  decomposition : World → DecompositionDecision
  committed : World → List Nat
  phase : Phase → World → FlowRunEnd × World
  finishSubtask : SubtaskSpec → Bool → World → Option FlowRunEnd × World

/-- The phases that were entered and how the run ended. -/
structure Driven (World : Type) where
  entered : List Phase
  ended : FlowRunEnd
  world : World

inductive PhasesError where
  | internal (error : EngineInternalError)
  | partition (error : PartitionError)

namespace PhaseDriver

variable {World : Type} (driver : PhaseDriver World)

/-- A phase that ends the run. -/
def lastPhase (call : Phase) (world : World) : Driven World :=
  let (ended, world) := driver.phase call world
  ⟨[call], ended, world⟩

/-- A phase, and what follows if it is done. -/
def followed (call : Phase) (world : World) (next : World → Driven World) : Driven World :=
  match driver.phase call world with
  | (.returned result, world) =>
      if result.status = .done then
        let rest := next world
        { rest with entered := call :: rest.entered }
      else ⟨[call], .returned result, world⟩
  | (ended, world) => ⟨[call], ended, world⟩

/-- `_fan_out_subtasks`, with the rows that were committed when it began. -/
def fanOutSubtasks (regions : DecompositionRegions) (committed : List Nat) :
    List SubtaskSpec → World → Driven World
  | [], world => driver.lastPhase ⟨regions.postEntry, none, none⟩ world
  | unit :: units, world =>
      if unit.order ∈ committed then fanOutSubtasks regions committed units world
      else
        driver.followed ⟨regions.regionEntry, some regions.region, some unit.order⟩ world
          fun world =>
            match driver.finishSubtask unit units.isEmpty world with
            | (some ended, world) => ⟨[], ended, world⟩
            | (none, world) => fanOutSubtasks regions committed units world

/-- What follows the part before the region: the whole rest at once, or the subtasks. -/
def afterPre (regions : DecompositionRegions) (resumed : Option String) (world : World) :
    Driven World :=
  if (driver.decomposition world).accepted then
    driver.fanOutSubtasks regions (driver.committed world) (driver.decomposition world).subtasks
      world
  else driver.lastPhase ⟨resumed.getD regions.regionEntry, none, none⟩ world

/-- `_run_phases`, on a region whose members are iterated in the given order. -/
def runPhases (snapshot : FlowSnapshot) (order : List String) (resume : Bool) (world : World) :
    Except PhasesError (Driven World) :=
  let resumed := if resume then driver.currentNode world else none
  let entry : Except PhasesError String := match resumed with
    | some node => .ok node
    | none => (entryNodeId snapshot).mapError .internal
  match snapshot.doc.decomposition with
  | none => entry.map fun entry => driver.lastPhase ⟨entry, none, none⟩ world
  | some _ =>
      match partitionDecomposition snapshot order with
      | .error error => .error (.partition error)
      | .ok regions =>
          match resumed with
          | none => entry.map fun entry =>
              driver.followed ⟨entry, some regions.pre, none⟩ world (driver.afterPre regions none)
          | some node =>
              if node ∈ regions.pre then
                .ok (driver.followed ⟨node, some regions.pre, none⟩ world
                  (driver.afterPre regions none))
              else .ok (driver.afterPre regions (some node) world)

end PhaseDriver

/-- The engine of a phase, seeded at its entry. -/
def Phase.firstVisited (call : Phase) (engine : FlowEngine) (answers : EngineAnswers)
    (state : EngineState) : Option String :=
  let unit := { engine with region := call.region, subtaskOrder := call.subtask }
  let seeded := state.mapRunState fun runState => runState.setCurrentNode call.entry
  (unit.turn answers seeded.saveCheckpoint).event.visited

/-- The first node that a phase executes is its entry. -/
theorem Phase.eq_of_firstVisited {call : Phase} {engine : FlowEngine} {answers : EngineAnswers}
    {state : EngineState} {node : String}
    (visited : call.firstVisited engine answers state = some node) : node = call.entry :=
  (FlowEngine.turn_visited _ answers _ visited).2 call.entry rfl

/-! ## The first phase of a resumed run -/

section Resumed

variable {World : Type} {driver : PhaseDriver World} {snapshot : FlowSnapshot}
  {order : List String} {world : World} {node : String} {regions : DecompositionRegions}

@[simp] theorem PhaseDriver.entered_lastPhase (call : Phase) :
    (driver.lastPhase call world).entered = [call] := rfl

theorem PhaseDriver.head?_followed (call : Phase) (next : World → Driven World) :
    (driver.followed call world next).entered.head? = some call := by
  rw [followed]
  split
  · split <;> rfl
  · rfl

/-- The fan-out enters the region for the first subtask without a commit, or the part after it. -/
theorem PhaseDriver.head?_fanOutSubtasks (committed : List Nat) (units : List SubtaskSpec) :
    (driver.fanOutSubtasks regions committed units world).entered.head? =
      some (match units.find? fun unit => unit.order ∉ committed with
        | some unit => ⟨regions.regionEntry, some regions.region, some unit.order⟩
        | none => ⟨regions.postEntry, none, none⟩) := by
  induction units with
  | nil => rfl
  | cons unit units ih =>
      rw [fanOutSubtasks]
      by_cases skipped : unit.order ∈ committed
      · rw [if_pos skipped, List.find?_cons_of_neg (by simpa using skipped)]
        exact ih
      · rw [if_neg skipped, List.find?_cons_of_pos (by simpa using skipped)]
        exact head?_followed _ _

/-- A resumed run enters its flow with a phase, and the first node that it executes is the entry of
that phase. -/
def Enters (driver : PhaseDriver World) (snapshot : FlowSnapshot) (order : List String)
    (world : World) (first : Phase) : Prop :=
  ∃ driven, driver.runPhases snapshot order true world = .ok driven ∧
    driven.entered.head? = some first ∧
      ∀ engine answers state node, engine.snapshot = snapshot →
        first.firstVisited engine answers state = some node → node = first.entry

theorem enters_of_head {driven : Driven World} {first : Phase}
    (runs : driver.runPhases snapshot order true world = .ok driven)
    (isFirst : driven.entered.head? = some first) : Enters driver snapshot order world first :=
  ⟨driven, runs, isFirst, fun _ _ _ _ _ => Phase.eq_of_firstVisited⟩

/-- Without a split the run goes on at the checkpoint. -/
theorem enters_whole (checkpoint : driver.currentNode world = some node)
    (whole : snapshot.doc.decomposition = none) :
    Enters driver snapshot order world ⟨node, none, none⟩ := by
  have runs : driver.runPhases snapshot order true world =
      .ok (driver.lastPhase ⟨node, none, none⟩ world) := by
    rw [PhaseDriver.runPhases, if_pos rfl, checkpoint, whole]
    rfl
  exact enters_of_head runs rfl

/-- The part before the region is run again from the checkpoint. -/
theorem enters_pre (checkpoint : driver.currentNode world = some node)
    (partitioned : partitionDecomposition snapshot order = .ok regions)
    (before : node ∈ regions.pre) :
    Enters driver snapshot order world ⟨node, some regions.pre, none⟩ := by
  obtain ⟨decomposition, declared, -⟩ := partitionDecomposition_ok partitioned
  have runs : driver.runPhases snapshot order true world =
      .ok (driver.followed ⟨node, some regions.pre, none⟩ world
        (driver.afterPre regions none)) := by
    rw [PhaseDriver.runPhases, if_pos rfl, checkpoint, declared]
    dsimp only
    rw [partitioned]
    exact if_pos before
  exact enters_of_head runs (PhaseDriver.head?_followed _ _)

/-- After that part, the run goes on as the split says. -/
theorem enters_afterPre {first : Phase} (checkpoint : driver.currentNode world = some node)
    (partitioned : partitionDecomposition snapshot order = .ok regions)
    (past : node ∉ regions.pre)
    (isFirst : (driver.afterPre regions (some node) world).entered.head? = some first) :
    Enters driver snapshot order world first := by
  obtain ⟨decomposition, declared, -⟩ := partitionDecomposition_ok partitioned
  have runs : driver.runPhases snapshot order true world =
      .ok (driver.afterPre regions (some node) world) := by
    rw [PhaseDriver.runPhases, if_pos rfl, checkpoint, declared]
    dsimp only
    rw [partitioned]
    exact if_neg past
  exact enters_of_head runs isFirst

end Resumed

/-- The subtask that a fan-out would run first. -/
def PhaseDriver.nextSubtask {World : Type} (driver : PhaseDriver World) (world : World) :
    Option SubtaskSpec :=
  (driver.decomposition world).subtasks.find? fun unit => unit.order ∉ driver.committed world

/-- A resumed run enters its flow at the checkpoint, unless a split is accepted and the checkpoint
is past the part before the region: then it enters the region for the first subtask without a
commit. Once all are committed, a checkpoint at the entry of the part after the region is where it
enters. -/
theorem resumed_enters {World : Type} (driver : PhaseDriver World) {snapshot : FlowSnapshot}
    (accepted : Accepted snapshot) {order : List String}
    (enumerates : ∀ decomposition, snapshot.doc.decomposition = some decomposition →
      Enumerates order decomposition.subFlow)
    {world : World} {node : String} (checkpoint : driver.currentNode world = some node) :
    (snapshot.doc.decomposition = none →
      Enters driver snapshot order world ⟨node, none, none⟩) ∧
    (snapshot.doc.decomposition ≠ none →
      ∃ regions, partitionDecomposition snapshot order = .ok regions ∧
        (node ∈ regions.pre → Enters driver snapshot order world ⟨node, some regions.pre, none⟩) ∧
        (node ∉ regions.pre → (driver.decomposition world).accepted = false →
          Enters driver snapshot order world ⟨node, none, none⟩) ∧
        (node ∉ regions.pre → (driver.decomposition world).accepted = true →
          (∀ unit ∈ driver.nextSubtask world, Enters driver snapshot order world
            ⟨regions.regionEntry, some regions.region, some unit.order⟩) ∧
          (driver.nextSubtask world = none → node = regions.postEntry →
            Enters driver snapshot order world ⟨node, none, none⟩))) := by
  refine ⟨enters_whole checkpoint, fun split => ?_⟩
  obtain ⟨decomposition, declared⟩ := Option.ne_none_iff_exists'.mp split
  obtain ⟨regions, partitioned⟩ :=
    accepted.partitionDecomposition_isOk declared (enumerates decomposition declared)
  refine ⟨regions, partitioned, enters_pre checkpoint partitioned, ?_, ?_⟩
  · intro past refused
    apply enters_afterPre checkpoint partitioned past
    rw [PhaseDriver.afterPre, if_neg (by rw [refused]; exact Bool.false_ne_true)]
    rfl
  · intro past isAccepted
    have first := @PhaseDriver.head?_fanOutSubtasks World driver world regions
      (driver.committed world) (driver.decomposition world).subtasks
    refine ⟨fun unit next => ?_, fun none isPost => ?_⟩
    · apply enters_afterPre checkpoint partitioned past
      rw [PhaseDriver.afterPre, if_pos isAccepted, first]
      rw [PhaseDriver.nextSubtask] at next
      rw [Option.mem_def.mp next]
    · apply enters_afterPre checkpoint partitioned past
      rw [PhaseDriver.afterPre, if_pos isAccepted, first]
      rw [PhaseDriver.nextSubtask] at none
      rw [none, isPost]

/-! ## A flow with two nodes after the region -/

/-- The documentation follows the region, and is followed by the publication. -/
def documentedFlow : FlowSnapshot where
  doc := {
    permissionCeiling := .workspaceWrite
    outputPolicy := .codeChange
    nodes := [
      .agent { id := "planning", roleFile := "planning.md" },
      .agent { id := "coding", roleFile := "coding.md" },
      .checks { id := "testing" },
      .agent { id := "documentation", roleFile := "documentation.md" },
      .publish { id := "publish" }]
    edges := [
      { fromNode := "planning", toNode := "coding" },
      { fromNode := "coding", toNode := "testing" },
      { fromNode := "testing", toNode := "coding", outcome := some "fail", budget := some 2 },
      { fromNode := "testing", toNode := "documentation", outcome := some "pass" },
      { fromNode := "documentation", toNode := "publish" }]
    budgets := ∅
    decomposition := some { proposedBy := "planning", subFlow := ["coding", "testing"] } }
  flowFingerprint := "documented"
  idsValid := by decide
  idsUnique := by decide

/-- A split of two subtasks, of which some are committed, and a checkpoint; every phase is done. -/
def splitDriver (checkpoint : String) (committed : List Nat) : PhaseDriver Unit where
  currentNode _ := some checkpoint
  decomposition _ := ⟨true, "accepted", 2,
    [⟨1, "Parser", "parser", [], [], none⟩, ⟨2, "Printer", "printer", [], [], none⟩]⟩
  committed _ := committed
  phase call _ := (.returned { status := .done, finalNode := call.entry }, ())
  finishSubtask _ _ _ := (none, ())

theorem splitDriver_order (decomposition : DecompositionConfig)
    (declared : documentedFlow.doc.decomposition = some decomposition) :
    Enumerates ["coding", "testing"] decomposition.subFlow := by
  cases Option.some.inj declared
  exact ⟨by decide, fun _ => .rfl⟩

/-- With one subtask committed, a run whose checkpoint is the publication enters the region for the
other. -/
theorem splitDriver_enters : Enters (splitDriver "publish" [1]) documentedFlow
    ["coding", "testing"] () ⟨"coding", some ["coding", "testing"], some 2⟩ := by
  obtain ⟨-, split⟩ := resumed_enters (splitDriver "publish" [1])
    (show Accepted documentedFlow by decide) splitDriver_order
    (show (splitDriver "publish" [1]).currentNode () = some "publish" from rfl)
  obtain ⟨regions, partitioned, -, -, fans⟩ := split (by decide)
  cases Except.ok.inj partitioned.symm
  exact (fans (by decide) rfl).1 ⟨2, "Printer", "printer", [], [], none⟩ (by decide)

/-- With a subtask to run, a run whose checkpoint is the publication enters the region, and with all
of them committed it runs the documentation again. -/
theorem splitDriver_passes_checkpoint : Accepted documentedFlow ∧
    (∀ committed, (splitDriver "publish" committed).currentNode () = some "publish") ∧
      Enters (splitDriver "publish" [1]) documentedFlow ["coding", "testing"] ()
        ⟨"coding", some ["coding", "testing"], some 2⟩ ∧
      Enters (splitDriver "publish" [1, 2]) documentedFlow ["coding", "testing"] ()
        ⟨"documentation", none, none⟩ :=
  ⟨by decide, fun _ => rfl, enters_of_head rfl rfl, enters_of_head rfl rfl⟩

end Orchestrator.Recovery
