import Orchestrator.Flow.Schema

/-! # The run checkpoint

One dictionary holds every fix counter: the global one under a reserved key, the
consecutive and the cumulative count of each named loop, and one count for each
edge with an inline budget.
-/

namespace Orchestrator.Flow

open Orchestrator.Foundation

/-- The checkpoint of one traversal of a flow. -/
structure FlowRunState where
  flowFingerprint : String
  currentNode : Option String := none
  completedNodes : List String := []
  loopCounters : Dict Nat := ∅

namespace FlowRunState

/-- The reserved key of the global fix counter. -/
def globalFixKey : String := "global_fix_iterations"

/-- The start of the key of a loop's cumulative total. -/
def totalStart : String := "total_fix:"

/-- The key of a loop's cumulative total. -/
def totalKey (loop : String) : String := totalStart ++ loop

theorem totalKey_inj {first second : String} :
    totalKey first = totalKey second ↔ first = second := by
  unfold totalKey
  rw [← String.toList_inj, String.toList_append, String.toList_append,
    List.append_cancel_left_eq, String.toList_inj]

variable (runState : FlowRunState)

/-- The value of a counter, zero when it was never incremented. -/
def counter (key : String) : Nat := Dict.get runState.loopCounters key 0

/-- The global fix counter. -/
def fixIterations : Nat := runState.counter globalFixKey

/-- The cumulative rework total of a loop. -/
def total (loop : String) : Nat := runState.counter (totalKey loop)

/-- Add one to a counter. -/
def bump (key : String) : FlowRunState :=
  { runState with loopCounters := runState.loopCounters.insert key (runState.counter key + 1) }

/-- Drop a counter. -/
def reset (key : String) : FlowRunState :=
  { runState with loopCounters := runState.loopCounters.erase key }

/-- A counter that a fresh budget keeps: the global one and the totals. -/
def isCumulative (key : String) : Bool := key = globalFixKey || Text.startsWith key totalStart

/-- `reset_consecutive_fix_budget`. -/
def resetConsecutiveFixBudget : FlowRunState :=
  { runState with
    loopCounters := Dict.ofList (runState.loopCounters.entries.filterMap fun item =>
      (if isCumulative item.1 then some item.2 else none).map fun value => (item.1, value)) }

def markCompleted (nodeId : String) : FlowRunState :=
  { runState with completedNodes := runState.completedNodes ++ [nodeId] }

def setCurrentNode (nodeId : String) : FlowRunState :=
  { runState with currentNode := some nodeId }

@[simp] theorem bump_currentNode (key : String) :
    (runState.bump key).currentNode = runState.currentNode := rfl

@[simp] theorem reset_currentNode (key : String) :
    (runState.reset key).currentNode = runState.currentNode := rfl

@[simp] theorem markCompleted_currentNode (nodeId : String) :
    (runState.markCompleted nodeId).currentNode = runState.currentNode := rfl

@[simp] theorem setCurrentNode_currentNode (nodeId : String) :
    (runState.setCurrentNode nodeId).currentNode = some nodeId := rfl

@[simp] theorem markCompleted_counter (nodeId key : String) :
    (runState.markCompleted nodeId).counter key = runState.counter key := rfl

@[simp] theorem setCurrentNode_counter (nodeId key : String) :
    (runState.setCurrentNode nodeId).counter key = runState.counter key := rfl

theorem bump_counter (key other : String) :
    (runState.bump key).counter other =
      runState.counter other + if key = other then 1 else 0 := by
  unfold bump counter
  split
  · rename_i same
    rw [← same, Dict.get_insert_self]
  · rename_i differ
    rw [Dict.get_insert_of_ne _ (Ne.symm differ), Nat.add_zero]

theorem reset_counter (key other : String) :
    (runState.reset key).counter other = if other = key then 0 else runState.counter other := by
  unfold reset counter
  split
  · rename_i same
    rw [same, Dict.get_erase_self]
  · rename_i differ
    rw [Dict.get_erase_of_ne _ differ]

end FlowRunState

end Orchestrator.Flow

/-! ## Fix budgets

A budget of N is N fix rounds, for a named loop, an edge with an inline budget
and the global backstop alike. The same limits are read once per edge by the
engine and once per loop by the check before a resume.
-/

namespace Orchestrator.Flow

open Orchestrator.Foundation

/-- The budget of a loop the flow does not bound. -/
def large : Int := 2 ^ 60

/-- The effective cap of a named loop: the flow's budget clamped by the configuration. -/
def loopCap (budgets : Dict Int) (maxFixCycles : Int) (loop : String) : Int :=
  min (Dict.get budgets loop large) maxFixCycles

/-- The effective cap of the global fix counter. -/
def globalCap (budgets : Dict Int) (maxTotalFixIterations : Int) : Int :=
  min (Dict.get budgets FlowRunState.globalFixKey large) maxTotalFixIterations

/-- The counter key of an edge with an inline budget. -/
def edgeKey (edge : Edge) : String :=
  edge.fromNode ++ "->" ++ edge.toNode ++ ":" ++ edge.outcome.getD "None"

/-- The global counter is raised here and only here. -/
def recordRework (runState : FlowRunState) : FlowRunState :=
  runState.bump FlowRunState.globalFixKey

/-- Why a rework or fail edge may not be taken: the loop it charges and the limit. -/
structure ReworkRefusal where
  loop : Option String
  limitName : String

/-- The refusal by the edge's own budget, that of its loop or its inline one. -/
def ownRefusal (snapshot : FlowSnapshot) (runState : FlowRunState) (edge : Edge)
    (maxFixCycles : Int) : Option ReworkRefusal :=
  match edge.loop with
  | some loop =>
      if (runState.counter loop : Int) ≥ loopCap snapshot.doc.budgets maxFixCycles loop then
        some ⟨some loop, "max_fix_cycles"⟩
      else none
  | none =>
      match edge.budget with
      | some budget =>
          if (runState.counter (edgeKey edge) : Int) ≥ budget then
            some ⟨none, "budget:" ++ edge.fromNode ++ "->" ++ edge.toNode⟩
          else none
      | none => none

/-- `rework_refusal`: the limit that refuses one more round, the edge's own one first. -/
def reworkRefusal (snapshot : FlowSnapshot) (runState : FlowRunState) (edge : Edge)
    (maxFixCycles maxTotalFixIterations : Int) : Option ReworkRefusal :=
  match ownRefusal snapshot runState edge maxFixCycles with
  | some refusal => some refusal
  | none =>
      if (runState.fixIterations : Int) ≥ globalCap snapshot.doc.budgets maxTotalFixIterations then
        some ⟨edge.loop, "max_total_fix_iterations"⟩
      else none

/-- An edge may be taken exactly when its own budget and the global one have room. -/
theorem reworkRefusal_eq_none_iff (snapshot : FlowSnapshot) (runState : FlowRunState)
    (edge : Edge) (maxFixCycles maxTotalFixIterations : Int) :
    reworkRefusal snapshot runState edge maxFixCycles maxTotalFixIterations = none ↔
      ownRefusal snapshot runState edge maxFixCycles = none ∧
        (runState.fixIterations : Int) < globalCap snapshot.doc.budgets maxTotalFixIterations := by
  unfold reworkRefusal
  cases ownRefusal snapshot runState edge maxFixCycles with
  | some refusal => simp
  | none => simp

/-- The own budget has room when the loop is under its cap, or else the inline budget unspent. -/
theorem ownRefusal_eq_none_iff {snapshot : FlowSnapshot} {runState : FlowRunState} {edge : Edge}
    {maxFixCycles : Int} :
    ownRefusal snapshot runState edge maxFixCycles = none ↔
      (∀ loop, edge.loop = some loop →
        (runState.counter loop : Int) < loopCap snapshot.doc.budgets maxFixCycles loop) ∧
      ∀ budget, edge.loop = none → edge.budget = some budget →
        (runState.counter (edgeKey edge) : Int) < budget := by
  unfold ownRefusal
  cases edge.loop with
  | some loop => simp
  | none =>
      cases edge.budget with
      | none => simp
      | some budget => simp

theorem ownRefusal_eq_none_of_loop {snapshot : FlowSnapshot} {runState : FlowRunState}
    {edge : Edge} {maxFixCycles : Int} {loop : String} (named : edge.loop = some loop) :
    ownRefusal snapshot runState edge maxFixCycles = none ↔
      (runState.counter loop : Int) < loopCap snapshot.doc.budgets maxFixCycles loop := by
  rw [ownRefusal_eq_none_iff]
  simp [named]

/-- A refusal reads the checkpoint only through its counters. -/
theorem reworkRefusal_congr (snapshot : FlowSnapshot) {left right : FlowRunState}
    (same : left.counter = right.counter) (edge : Edge)
    (maxFixCycles maxTotalFixIterations : Int) :
    reworkRefusal snapshot left edge maxFixCycles maxTotalFixIterations =
      reworkRefusal snapshot right edge maxFixCycles maxTotalFixIterations := by
  unfold reworkRefusal ownRefusal FlowRunState.fixIterations
  rw [same]

/-- A named fix loop whose consecutive counter is at or over its cap. -/
structure ExhaustedLoop where
  loop : String
  node : String
  counter : Nat
  cap : Int
  deriving DecidableEq

/-- The report on one edge: only a rework or fail edge of a named loop can be listed. -/
def exhaustedLoop (snapshot : FlowSnapshot) (counters : Dict Nat) (maxFixCycles : Int)
    (nodeId : String) (edge : Edge) : Option ExhaustedLoop :=
  match edge.loop with
  | none => none
  | some loop =>
      if edge.isRework then
        let cap := loopCap snapshot.doc.budgets maxFixCycles loop
        let counter := Dict.get counters loop 0
        if (counter : Int) ≥ cap then some ⟨loop, nodeId, counter, cap⟩ else none
      else none

/-- `exhausted_fix_loops`: the loops at or over their cap on the way forward from a node. -/
def exhaustedFixLoops (snapshot : FlowSnapshot) (counters : Dict Nat) (maxFixCycles : Int)
    (start : String) : List ExhaustedLoop :=
  (snapshot.reachableNodes start).flatMap fun nodeId =>
    (snapshot.adjacency nodeId).filterMap (exhaustedLoop snapshot counters maxFixCycles nodeId)

/-- The global ceiling is already at or over its cap. -/
def globalBackstopExhausted (budgets : Dict Int) (maxTotalFixIterations : Int)
    (counters : Dict Nat) : Bool :=
  ((Dict.get counters FlowRunState.globalFixKey 0 : Nat) : Int) ≥
    globalCap budgets maxTotalFixIterations

end Orchestrator.Flow
