import Orchestrator.Flow.CounterOwners

/-! # The counters of a run

When the keys of a flow are distinct, a charge adds one to each counter of the
backstop and of the owner it charges and to no other. What a run keeps of its
counters follows turn by turn.
-/

namespace Orchestrator.Flow

open Orchestrator.Foundation

/-- The counter that keeps count of all charges of an owner: a loop's total is never reset. -/
def CounterOwner.auditKey : CounterOwner → String
  | .backstop => FlowRunState.globalFixKey
  | .loop name => FlowRunState.totalKey name
  | .inline edge => edgeKey edge

theorem CounterOwner.auditKey_mem (owner : CounterOwner) : owner.auditKey ∈ owner.keys := by
  cases owner with
  | backstop => exact List.mem_cons_self
  | loop name => exact List.mem_cons_of_mem _ List.mem_cons_self
  | inline edge => exact List.mem_cons_self

variable {snapshot : FlowSnapshot}

theorem chargedKeys_nodup (distinct : (counterKeys snapshot).Nodup) {edge : Edge}
    (listed : edge ∈ snapshot.doc.edges) (rework : edge.isRework = true) :
    (chargedKeys edge).Nodup := by
  unfold chargedKeys
  cases named : edge.loop with
  | some loop =>
      have charged := (mem_chargedLoops_iff loop).mpr ⟨edge, listed, rework, named⟩
      have reserved : FlowRunState.globalFixKey ≠ loop := fun same =>
        reserved_of_nodup distinct (same ▸ charged)
      simp [reserved, globalFixKey_ne_totalKey loop, loop_ne_totalKey loop]
  | none =>
      cases edge.budget with
      | none => simp
      | some budget => simpa using globalFixKey_ne_edgeKey edge

/-- A charge adds one to a counter when it is a counter of the owner charged, and else nothing. -/
theorem count_chargedKeys (distinct : (counterKeys snapshot).Nodup) {edge : Edge}
    (listed : edge ∈ snapshot.doc.edges) (rework : edge.isRework = true) {owner : CounterOwner}
    (member : owner ∈ budgetOwners snapshot) {key : String} (owned : key ∈ owner.keys) :
    (chargedKeys edge).count key = if edge.owner = some owner then 1 else 0 := by
  have ownerMem : owner ∈ counterOwners snapshot := List.mem_cons_of_mem _ member
  by_cases charged : edge.owner = some owner
  · simp only [charged, ↓reduceIte]
    apply List.count_eq_one_of_mem (chargedKeys_nodup distinct listed rework)
    rw [mem_chargedKeys_iff rework]
    exact ⟨owner, List.mem_cons_of_mem _ (Option.mem_toList.mpr charged), owned⟩
  · simp only [charged, ↓reduceIte, List.count_eq_zero, mem_chargedKeys_iff rework]
    rintro ⟨other, owns, shared⟩
    rcases List.mem_cons.mp owns with rfl | own
    · have backstop := owner_eq_of_mem_keys distinct key ownerMem List.mem_cons_self owned shared
      simp [backstop, budgetOwners] at member
    · have otherOwns := Option.mem_toList.mp own
      have same := owner_eq_of_mem_keys distinct key ownerMem
        (Edge.owner_mem listed otherOwns) owned shared
      exact charged (same ▸ otherOwns)

/-- No reset touches a total. -/
theorem totalKey_not_mem_resetKeys (distinct : (counterKeys snapshot).Nodup) {loop : String}
    (charged : loop ∈ chargedLoops snapshot) (nodeId : String) :
    FlowRunState.totalKey loop ∉ resetKeys snapshot nodeId := by
  obtain ⟨_, totals, edges, _⟩ := counterKeys_nodup_iff.mp distinct
  intro reset
  rcases List.mem_append.mp (mem_of_mem_resetKeys reset) with other | inline
  · exact totals _ other loop charged rfl
  · obtain ⟨edge, edgeMem, same⟩ := List.mem_map.mp inline
    exact (edges loop charged edge edgeMem).2 same.symm

theorem budgetOwners_nodup (distinct : (counterKeys snapshot).Nodup) :
    (budgetOwners snapshot).Nodup := by
  obtain ⟨_, _, _, places⟩ := counterKeys_nodup_iff.mp distinct
  unfold budgetOwners
  rw [List.nodup_append]
  refine ⟨(List.nodup_dedup _).map fun _ _ same => CounterOwner.loop.inj same,
    places.of_map.map fun _ _ same => CounterOwner.inline.inj same, ?_⟩
  intro first inLoops second inEdges same
  obtain ⟨loop, _, rfl⟩ := List.mem_map.mp inLoops
  obtain ⟨edge, _, rfl⟩ := List.mem_map.mp inEdges
  cases same

/-- At most one of distinct owners is charged. -/
theorem sum_charged_le_one {owners : List CounterOwner} (unique : owners.Nodup)
    (charged : Option CounterOwner) :
    (owners.map fun owner => if charged = some owner then 1 else 0).sum ≤ 1 := by
  induction owners with
  | nil => simp
  | cons head rest ih =>
      obtain ⟨fresh, uniqueRest⟩ := List.nodup_cons.mp unique
      rw [List.map_cons, List.sum_cons]
      by_cases here : charged = some head
      · have none : (rest.map fun owner => if charged = some owner then 1 else 0).sum = 0 := by
          rw [List.sum_eq_zero_iff]
          intro value member
          obtain ⟨owner, ownerMem, rfl⟩ := List.mem_map.mp member
          have differ : charged ≠ some owner := fun same =>
            fresh (Option.some.inj (here.symm.trans same) ▸ ownerMem)
          simp only [differ, ↓reduceIte]
        simp only [here, ↓reduceIte] at none ⊢
        omega
      · have bound := ih uniqueRest
        simp only [here, ↓reduceIte]
        omega

/-! ## What a run keeps -/

/-- The rework and fail edges taken in a run. -/
def chargesTaken (events : List EngineStep) : Nat :=
  (events.map fun event => reworksTaken event.taken).sum

/-- By how much the audit counters of all loops and inline edges have risen, summed. -/
def auditRise (snapshot : FlowSnapshot) (start now : FlowRunState) : Nat :=
  ((budgetOwners snapshot).map fun owner =>
    now.counter owner.auditKey - start.counter owner.auditKey).sum

/-- The counters of a run against those it started from. -/
structure BudgetsKept (engine : FlowEngine) (start : FlowRunState) (events : List EngineStep)
    (now : FlowRunState) : Prop where
  global : now.fixIterations = start.fixIterations + chargesTaken events
  capped : (now.fixIterations : Int) ≤ max (start.fixIterations : Int) engine.globalCap
  consecutive : ∀ loop ∈ chargedLoops engine.snapshot,
    start.counter loop ≤ start.total loop → now.counter loop ≤ now.total loop
  limited : ∀ loop ∈ chargedLoops engine.snapshot,
    (start.counter loop : Int) ≤
        loopCap engine.snapshot.doc.budgets engine.agents.maxFixCycles loop →
      (now.counter loop : Int) ≤
        loopCap engine.snapshot.doc.budgets engine.agents.maxFixCycles loop
  shared : auditRise engine.snapshot start now ≤ chargesTaken events

theorem BudgetsKept.refl (engine : FlowEngine) (start : FlowRunState) :
    BudgetsKept engine start [] start where
  global := rfl
  capped := le_max_left _ _
  consecutive := fun _ _ held => held
  limited := fun _ _ held => held
  shared := by
    unfold auditRise
    simp

section Turn

variable {engine : FlowEngine} (distinct : (counterKeys engine.snapshot).Nodup)
include distinct

/-- The counters of a loop after a charge. -/
theorem loop_counter_of_rework {edge : Edge} (listed : edge ∈ engine.snapshot.doc.edges)
    (rework : edge.isRework = true) {loop : String} (charged : loop ∈ chargedLoops engine.snapshot)
    {key : String} (owned : key ∈ (CounterOwner.loop loop).keys) (before : String → Nat) :
    FlowEngine.countersAfter engine.snapshot before (some edge) key =
      before key + if edge.loop = some loop then 1 else 0 := by
  have member : .loop loop ∈ budgetOwners engine.snapshot := by simpa [budgetOwners] using charged
  unfold FlowEngine.countersAfter
  simp only [rework, ↓reduceIte, count_chargedKeys distinct listed rework member owned,
    edge.owner_eq_loop_iff, true_and]

/-- The audit counters rise by one charge in all. -/
theorem auditRise_turn (answers : EngineAnswers) (state : EngineState) (start : FlowRunState) :
    auditRise engine.snapshot start (engine.turn answers state).next.runState ≤
      auditRise engine.snapshot start state.runState +
        reworksTaken (engine.turn answers state).event.taken := by
  unfold auditRise
  simp only [engine.turn_counter]
  cases same : (engine.turn answers state).event.taken with
  | none => exact Nat.le_refl _
  | some edge =>
      have taken := FlowEngine.turn_takes same
      cases rework : edge.isRework with
      | true =>
          have one := sum_charged_le_one (budgetOwners_nodup distinct) edge.owner
          have each : ((budgetOwners engine.snapshot).map fun owner =>
                FlowEngine.countersAfter engine.snapshot state.runState.counter (some edge)
                  owner.auditKey - start.counter owner.auditKey).sum ≤
              ((budgetOwners engine.snapshot).map fun owner =>
                (state.runState.counter owner.auditKey - start.counter owner.auditKey) +
                  if edge.owner = some owner then 1 else 0).sum := by
            apply List.sum_le_sum
            intro owner member
            unfold FlowEngine.countersAfter
            simp only [rework, ↓reduceIte,
              count_chargedKeys distinct taken.outgoing rework member owner.auditKey_mem]
            omega
          rw [List.sum_map_add] at each
          simp only [reworksTaken, rework, ↓reduceIte]
          omega
      | false =>
          simp only [reworksTaken, rework, Bool.false_eq_true, ↓reduceIte, Nat.add_zero]
          apply List.sum_le_sum
          intro owner _
          unfold FlowEngine.countersAfter
          simp only [rework, Bool.false_eq_true, ↓reduceIte]
          split <;> omega

/-- In one turn the global counter rises only below its cap. -/
theorem turn_capped (answers : EngineAnswers) (state : EngineState) :
    ((engine.turn answers state).next.runState.fixIterations : Int) ≤
      max (state.runState.fixIterations : Int) engine.globalCap := by
  rw [turn_fixIterations (reserved_of_nodup distinct)]
  cases same : (engine.turn answers state).event.taken with
  | none => exact le_max_left _ _
  | some edge =>
      have taken := FlowEngine.turn_takes same
      cases rework : edge.isRework with
      | false =>
          simp only [reworksTaken, rework, Bool.false_eq_true, ↓reduceIte, Nat.add_zero]
          exact le_max_left _ _
      | true =>
          have room := FlowEngine.fixIterations_lt_of_admitted (taken.admitted rework)
          simp only [reworksTaken, rework, ↓reduceIte]
          omega

/-- In one turn a loop is charged, below its limit, or its consecutive counter does not rise and its
total stays. -/
theorem turn_loop (answers : EngineAnswers) (state : EngineState) {loop : String}
    (charged : loop ∈ chargedLoops engine.snapshot) :
    ((engine.turn answers state).next.runState.counter loop = state.runState.counter loop + 1 ∧
      (engine.turn answers state).next.runState.total loop = state.runState.total loop + 1 ∧
      (state.runState.counter loop : Int) <
        loopCap engine.snapshot.doc.budgets engine.agents.maxFixCycles loop) ∨
    ((engine.turn answers state).next.runState.counter loop ≤ state.runState.counter loop ∧
      (engine.turn answers state).next.runState.total loop = state.runState.total loop) := by
  simp only [FlowRunState.total, engine.turn_counter]
  cases same : (engine.turn answers state).event.taken with
  | none => exact .inr ⟨Nat.le_refl _, rfl⟩
  | some edge =>
      have taken := FlowEngine.turn_takes same
      cases rework : edge.isRework with
      | true =>
          have consecutive := loop_counter_of_rework distinct taken.outgoing rework charged
            List.mem_cons_self state.runState.counter
          have total := loop_counter_of_rework distinct taken.outgoing rework charged
            (List.mem_cons_of_mem _ List.mem_cons_self) state.runState.counter
          rw [consecutive, total]
          by_cases named : edge.loop = some loop
          · have room := (reworkRefusal_eq_none_iff _ _ _ _ _).mp (taken.admitted rework)
            simp only [named, ↓reduceIte, true_and]
            exact .inl ((ownRefusal_eq_none_of_loop named).mp room.1)
          · simp only [named, ↓reduceIte]
            exact .inr ⟨Nat.le_refl _, rfl⟩
      | false =>
          simp only [FlowEngine.countersAfter, rework, Bool.false_eq_true, ↓reduceIte,
            totalKey_not_mem_resetKeys distinct charged, and_true]
          apply Or.inr
          split
          · exact Nat.zero_le _
          · exact Nat.le_refl _

/-- One turn keeps what a run keeps. -/
theorem BudgetsKept.turn {start : FlowRunState} {events : List EngineStep} {state : EngineState}
    (kept : BudgetsKept engine start events state.runState) (answers : EngineAnswers) :
    BudgetsKept engine start (events ++ [(engine.turn answers state).event])
      (engine.turn answers state).next.runState := by
  have total : chargesTaken (events ++ [(engine.turn answers state).event]) =
      chargesTaken events + reworksTaken (engine.turn answers state).event.taken := by
    simp [chargesTaken]
  constructor
  · rw [turn_fixIterations (reserved_of_nodup distinct), total, kept.global, Nat.add_assoc]
  · have before := kept.capped
    have step := turn_capped distinct answers state
    omega
  · intro loop charged held
    have before := kept.consecutive loop charged held
    have step := turn_loop distinct answers state charged
    omega
  · intro loop charged held
    have before := kept.limited loop charged held
    have step := turn_loop distinct answers state charged
    omega
  · have before := kept.shared
    have step := auditRise_turn distinct answers state start
    omega

end Turn

/-- In every run of a flow with distinct counter keys the global counter counts the rework and fail
edges taken and is never raised above its cap; a loop's consecutive counter stays within its total
and its limit when it starts there; all other charges together are covered by the global ones; and
a turn that takes no edge leaves every counter as it was. -/
theorem budgets_kept (engine : FlowEngine) (distinct : (counterKeys engine.snapshot).Nodup)
    (answers : Nat → EngineAnswers) (start : EngineState) (turns : Nat) :
    let trace := engine.run answers start turns
    let turn := engine.turn (answers turns) trace.state
    BudgetsKept engine start.runState trace.events trace.state.runState ∧
    trace.state.runState.fixIterations ≤ turn.next.runState.fixIterations ∧
    (turn.event.taken = none → turn.next.runState.counter = trace.state.runState.counter) := by
  refine ⟨?_, ?_, fun stayed => ?_⟩
  · exact engine.machine.trace_induction
      (fun trace => BudgetsKept engine start.runState trace.events trace.state.runState)
      (BudgetsKept.refl engine start.runState)
      (fun count before kept _ _ => kept.turn distinct (answers count)) turns
  · have counted := turn_fixIterations (reserved_of_nodup distinct) (answers turns)
      (engine.run answers start turns).state
    omega
  · funext key
    rw [engine.turn_counter, stayed]
    rfl

/-- A run of the repair flow that parks at a test that keeps failing. -/
theorem budgets_kept_repair :
    let trace := repairEngine.run (fun _ => failingAnswers)
      { runState := { flowFingerprint := "repair" } } 12
    BudgetsKept repairEngine { flowFingerprint := "repair" } trace.events trace.state.runState :=
  (budgets_kept repairEngine (by decide) (fun _ => failingAnswers)
    { runState := { flowFingerprint := "repair" } } 12).1

/-- Counters may be restored with a consecutive count above the total. -/
theorem repairFlow_total_exceeded : (counterKeys repairFlow).Nodup ∧
    "test_fix" ∈ chargedLoops repairFlow ∧
    let start : EngineState := { runState := {
      flowFingerprint := "repair"
      loopCounters := Dict.ofList [("test_fix", 1)] } }
    let now := (repairEngine.run (fun _ => failingAnswers) start 1).state.runState
    now.total "test_fix" < now.counter "test_fix" := by
  decide

end Orchestrator.Flow
