import Mathlib.Data.List.Pairwise
import Orchestrator.Foundation.Fallible
import Orchestrator.Supervisor.AttemptDirs

/-! # The launches of a task attempt

A run of a node is reserved in the database before its stage, under a number that was never used;
a completed run is observed once. Subtask boundaries and the publish node are met again after a
crash or a continue, and the turn of the supervisor there takes the number it took before.
-/

namespace Orchestrator.Supervisor

open Orchestrator.Foundation.Fallible (foldlM_invariant)

/-! ## Histories -/

/-- What happens in one task attempt, with the artifacts kept throughout. -/
inductive TaskEvent where
  /-- A row of `node_runs` is inserted. -/
  | reserved (nodeId : String) (runId : Nat)
  | turn (turn : Turn)

/-- What the events so far allow. -/
structure History where
  reserved : List (String × Nat)
  lastRunId : Nat
  sources : List TurnSource

namespace History

def start : History := ⟨[], 0, []⟩

/-- Each reserved run has one stage and is observed once. -/
def Apart : TurnSource → TurnSource → Prop
  | .node _ runId, .node _ other => runId ≠ other
  | .observe runId, .observe other => runId ≠ other
  | _, _ => True

instance decidableApart : ∀ first second : TurnSource, Decidable (Apart first second)
  | .node _ runId, .node _ other => inferInstanceAs (Decidable (runId ≠ other))
  | .observe runId, .observe other => inferInstanceAs (Decidable (runId ≠ other))
  | .node _ _, .observe _ => .isTrue trivial
  | .node _ _, .handoff _ => .isTrue trivial
  | .node _ _, .finalize => .isTrue trivial
  | .observe _, .node _ _ => .isTrue trivial
  | .observe _, .handoff _ => .isTrue trivial
  | .observe _, .finalize => .isTrue trivial
  | .handoff _, _ => .isTrue trivial
  | .finalize, _ => .isTrue trivial

/-- The run of a node or of an observation is reserved. -/
def known (history : History) : TurnSource → Bool
  | .node nodeId runId => history.reserved.contains (nodeId, runId)
  | .observe runId => history.reserved.any fun row => row.2 = runId
  | _ => true

/-- The history after an event, when it can happen. -/
def step (history : History) : TaskEvent → Except Unit History
  | .reserved nodeId runId =>
      if history.lastRunId < runId then
        .ok { history with
          reserved := history.reserved ++ [(nodeId, runId)]
          lastRunId := runId }
      else .error ()
  | .turn turn =>
      if history.known turn.source ∧ ∀ source ∈ history.sources, Apart source turn.source then
        .ok { history with sources := history.sources ++ [turn.source] }
      else .error ()

end History

/-- The turns among the events. -/
def turnsOf (events : List TaskEvent) : List Turn :=
  events.filterMap fun
    | .turn turn => some turn
    | .reserved _ _ => none

/-- The events can happen one after another. -/
def Happens (events : List TaskEvent) : Prop :=
  ∃ history, events.foldlM History.step .start = .ok history

/-- No launch of the turns is refused over its directory. -/
def NoneRefused (taskId : String) (events : List TaskEvent) : Prop :=
  ∃ made, ((turnsOf events).flatMap (Turn.directories taskId)).foldlM createAttemptDir [] = .ok made

/-- The turns under the supervisor's name that have one number run no provider with one attempt
number twice. -/
def Unshared (turns : List Turn) : Prop :=
  turns.Pairwise fun first second =>
    first.source.name = supervisorIdentity → second.source.name = supervisorIdentity →
      first.source.number = second.source.number →
        List.Disjoint first.invocations second.invocations

variable {events : List TaskEvent} {history : History}

/-- What is kept of the turns that were run, and of the numbers of runs. -/
structure Recorded (turns : List Turn) (history : History) : Prop where
  sources : history.sources = turns.map Turn.source
  apart : (turns.map Turn.source).Pairwise History.Apart
  rows : ∀ row ∈ history.reserved, 0 < row.2
  observed : ∀ turn ∈ turns, ∀ runId, turn.source = .observe runId → 0 < runId

theorem turnsOf_append (events more : List TaskEvent) :
    turnsOf (events ++ more) = turnsOf events ++ turnsOf more := List.filterMap_append

theorem Recorded.step {turns : List Turn} {history next : History} {event : TaskEvent}
    (recorded : Recorded turns history) (moved : history.step event = .ok next) :
    Recorded (turns ++ turnsOf [event]) next := by
  cases event with
  | reserved nodeId runId =>
      rw [History.step] at moved
      split_ifs at moved with fresh
      cases moved
      rw [show turnsOf [TaskEvent.reserved nodeId runId] = [] from rfl, List.append_nil]
      refine ⟨recorded.sources, recorded.apart, fun row among => ?_, recorded.observed⟩
      rcases List.mem_append.mp among with before | last
      · exact recorded.rows row before
      · rw [List.mem_singleton.mp last]
        exact Nat.zero_lt_of_lt fresh
  | turn turn =>
      rw [History.step] at moved
      split_ifs at moved with may
      cases moved
      rw [show turnsOf [TaskEvent.turn turn] = [turn] from rfl]
      constructor
      · rw [List.map_append, recorded.sources]
        rfl
      · rw [List.map_append]
        refine List.pairwise_append.mpr ⟨recorded.apart, List.pairwise_singleton _ _, ?_⟩
        intro source among other single
        rw [List.mem_singleton.mp single]
        exact may.2 source (recorded.sources ▸ among)
      · exact recorded.rows
      · intro other among runId observes
        rcases List.mem_append.mp among with before | last
        · exact recorded.observed other before runId observes
        · rw [List.mem_singleton.mp last] at observes
          have known := may.1
          rw [observes, History.known, List.any_eq_true] at known
          obtain ⟨row, listed, same⟩ := known
          rw [← of_decide_eq_true same]
          exact recorded.rows row listed

theorem recorded_run (run : events.foldlM History.step .start = .ok history) :
    Recorded (turnsOf events) history := by
  refine foldlM_invariant (fun seen history => Recorded (turnsOf seen) history) ?_ ?_ run
  · exact ⟨rfl, List.Pairwise.nil, List.forall_mem_nil _, List.forall_mem_nil _⟩
  · intro seen history event next recorded moved
    rw [turnsOf_append]
    exact recorded.step moved

/-- Turns that share name and number are both under the supervisor's name. -/
theorem supervised_of_shared {first second : TurnSource} (apart : History.Apart first second)
    (names : first.name = second.name) (numbers : first.number = second.number) :
    first.name = supervisorIdentity ∧ second.name = supervisorIdentity := by
  cases first with
  | node nodeId runId =>
      cases second with
      | node other number => exact absurd numbers apart
      | observe number => exact ⟨names, rfl⟩
      | handoff order => exact ⟨names, rfl⟩
      | finalize => exact ⟨names, rfl⟩
  | observe runId => exact ⟨rfl, names.symm⟩
  | handoff order => exact ⟨rfl, names.symm⟩
  | finalize => exact ⟨rfl, names.symm⟩

/-- No node with a stage is named like the supervisor, the observed runs are numbered below the
handoffs, a task is finalized once and each subtask handed over once. -/
structure Ordinary (turns : List Turn) : Prop where
  named : ∀ turn ∈ turns, ∀ nodeId runId, turn.source = .node nodeId runId →
    nodeId ≠ supervisorIdentity
  observed : ∀ turn ∈ turns, ∀ runId, turn.source = .observe runId → runId < handoffRunIdBase
  finalized : turns.Pairwise fun first second =>
    first.source = .finalize → second.source ≠ .finalize
  handed : turns.Pairwise fun first second =>
    ∀ order, first.source = .handoff order → second.source ≠ .handoff order

/-- Ordinary turns share nothing. -/
theorem Ordinary.unshared (ordinary : Ordinary (turnsOf events)) (happens : Happens events) :
    Unshared (turnsOf events) := by
  obtain ⟨history, run⟩ := happens
  have recorded := recorded_run run
  have apart := List.pairwise_map.mp recorded.apart
  refine List.Pairwise.imp_of_mem ?_ (apart.and (ordinary.finalized.and ordinary.handed))
  rintro first second here there ⟨apart, finalized, handed⟩ named named' numbers
  exfalso
  have below := ordinary.observed first here
  have below' := ordinary.observed second there
  have positive := recorded.observed first here
  have positive' := recorded.observed second there
  have graph := ordinary.named first here
  have graph' := ordinary.named second there
  generalize first.source = source at *
  generalize second.source = other at *
  simp only [TurnSource.number, handoffRunIdBase] at numbers below below'
  cases source with
  | node nodeId runId => exact graph nodeId runId rfl named
  | observe runId =>
      have small := below runId rfl
      have large := positive runId rfl
      cases other with
      | node nodeId number => exact graph' nodeId number rfl named'
      | observe number => exact apart numbers
      | handoff order => dsimp only at numbers; omega
      | finalize => dsimp only at numbers; omega
  | handoff order =>
      cases other with
      | node nodeId number => exact graph' nodeId number rfl named'
      | observe number =>
          have small := below' number rfl
          dsimp only at numbers
          omega
      | handoff order' =>
          dsimp only at numbers
          have same : order = order' := by omega
          exact handed order rfl (by rw [same])
      | finalize => dsimp only at numbers; omega
  | finalize =>
      cases other with
      | node nodeId number => exact graph' nodeId number rfl named'
      | observe number =>
          have large := positive' number rfl
          dsimp only at numbers
          omega
      | handoff order => dsimp only at numbers; omega
      | finalize => exact finalized rfl rfl

/-- A turn whose only attempt is answered. -/
def answeredTurn (source : TurnSource) : Turn where
  source := source
  call := {
    config := {
      maxStageAttempts := 1
      retry := { maxAttempts := 0, baseDelayS := 0, maxDelayS := 0 }
      providers _ := { model := "", permissionProfile := "read-only" }
      isolationReasons _ := some [] }
    request := { attempt := 1 }
    route := { primary := .claude, fallback := none } }
  answers _ := { run := .ok { status := .succeeded }, isCancelled := false, partialChange := none }
  exchanges := 1

/-- A node that is observed, a subtask that is handed over, and a publish node. -/
def plainTask : List TaskEvent :=
  [.reserved "implement" 1, .turn (answeredTurn (.node "implement" 1)),
    .turn (answeredTurn (.observe 1)), .turn (answeredTurn (.handoff 2)), .reserved "publish" 2,
    .turn (answeredTurn .finalize)]

/-- A publish node that is entered again after its summary turn. -/
def reenteredTask : List TaskEvent :=
  [.reserved "publish" 1, .turn (answeredTurn .finalize), .reserved "publish" 2,
    .turn (answeredTurn .finalize)]

end Orchestrator.Supervisor
