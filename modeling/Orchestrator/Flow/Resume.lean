import Orchestrator.Flow.Termination

/-! # Resuming from a checkpoint

The engine acts on the current node and the counters of its checkpoint only, as
long as no diff fingerprint is watched. Hydrating a saved checkpoint restores
both, so a resumed run and the uninterrupted one go through the same turns.
-/

namespace Orchestrator.Flow

open Orchestrator.Foundation

/-- Two checkpoints that differ at most in the trace of earlier executions and in how the counters
are stored. -/
structure FlowRunState.Agrees (left right : FlowRunState) : Prop where
  flowFingerprint : left.flowFingerprint = right.flowFingerprint
  currentNode : left.currentNode = right.currentNode
  counter : left.counter = right.counter

/-- Two contexts of a node that show agreeing checkpoints. -/
structure NodeContext.Agrees (left right : NodeContext) : Prop where
  runState : left.runState.Agrees right.runState
  node : left.node = right.node
  subtaskOrder : left.subtaskOrder = right.subtaskOrder
  reworkRefusal : left.reworkRefusal = right.reworkRefusal

/-- The outside answers alike: a node runner returns the same outcome in agreeing contexts. -/
structure SameAnswers (left right : EngineAnswers) : Prop where
  isCancelled : left.isCancelled = right.isCancelled
  facts : left.facts = right.facts
  run : ∀ node context context', context.Agrees context' →
    left.run node context = right.run node context'
  postNode : left.postNode = right.postNode
  repeatedFindings : left.repeatedFindings = right.repeatedFindings

/-! ## Save and hydrate -/

theorem dumpCounters_perm (counters : Dict Nat) :
    (dumpCounters counters).Perm (counters.entries.map fun item => (item.1, item.2)) :=
  List.perm_insertionSort _ _

/-- Hydrating a store that a checkpoint was saved to restores the checkpoint. -/
theorem hydrate_saveCheckpoint (state : EngineState) :
    ∃ hydrated, hydrateRunState state.saveCheckpoint.store = some hydrated ∧
      hydrated.Agrees state.runState := by
  refine ⟨_, rfl, rfl, rfl, ?_⟩
  funext key
  exact Dict.get_ofList_of_perm _ (dumpCounters_perm _) key 0

namespace FlowEngine

variable (engine : FlowEngine)

/-- Where a run stands: at its current node or, before it started, at the entry. -/
def standsAt (runState : FlowRunState) : Except EngineInternalError String :=
  match runState.currentNode with
  | some nodeId => .ok nodeId
  | none => entryNodeId engine.snapshot

theorem seed_eq (runState : FlowRunState) : engine.seed runState =
    (engine.standsAt runState).map fun nodeId => (runState.setCurrentNode nodeId, nodeId) := by
  unfold seed standsAt
  cases current : runState.currentNode with
  | some nodeId =>
      have same : runState.setCurrentNode nodeId = runState := by
        unfold FlowRunState.setCurrentNode
        rw [← current]
      simp only [Except.map, same]
  | none => cases entryNodeId engine.snapshot <;> rfl

/-- Two states from which the engine goes on in the same way. -/
structure Resumes (left right : EngineState) : Prop where
  flowFingerprint : left.runState.flowFingerprint = right.runState.flowFingerprint
  counter : left.runState.counter = right.runState.counter
  stands : engine.standsAt left.runState = engine.standsAt right.runState

variable {engine}

theorem Resumes.of_agrees {left right : EngineState}
    (agrees : left.runState.Agrees right.runState) : engine.Resumes left right where
  flowFingerprint := agrees.flowFingerprint
  counter := agrees.counter
  stands := by
    unfold standsAt
    rw [agrees.currentNode]

theorem Resumes.symm {left right : EngineState} (resumes : engine.Resumes left right) :
    engine.Resumes right left :=
  ⟨resumes.flowFingerprint.symm, resumes.counter.symm, resumes.stands.symm⟩

theorem Resumes.trans {left middle right : EngineState} (first : engine.Resumes left middle)
    (second : engine.Resumes middle right) : engine.Resumes left right :=
  ⟨first.flowFingerprint.trans second.flowFingerprint, first.counter.trans second.counter,
    first.stands.trans second.stands⟩

theorem setCurrentNode_agrees {left right : FlowRunState}
    (fingerprint : left.flowFingerprint = right.flowFingerprint)
    (counter : left.counter = right.counter) (nodeId : String) :
    (left.setCurrentNode nodeId).Agrees (right.setCurrentNode nodeId) :=
  ⟨fingerprint, rfl, counter⟩

/-! ## One turn from two agreeing states -/

theorem reworkRefusal_agrees {left right : FlowRunState} (agrees : left.Agrees right)
    (edge : Edge) : engine.reworkRefusal left edge = engine.reworkRefusal right edge :=
  reworkRefusal_congr engine.snapshot agrees.counter edge _ _

theorem nodeContext_agrees {left right : FlowRunState} (agrees : left.Agrees right)
    (node : FlowNode) : (engine.nodeContext left node).Agrees (engine.nodeContext right node) where
  runState := agrees
  node := rfl
  subtaskOrder := rfl
  reworkRefusal := by
    change engine.nodeReworkRefusal left node.id = engine.nodeReworkRefusal right node.id
    unfold nodeReworkRefusal
    simp only [reworkRefusal_agrees agrees]

theorem executeNode_agrees {answers resumed : EngineAnswers} (same : SameAnswers answers resumed)
    {left right : EngineState} (agrees : left.runState.Agrees right.runState) (node : FlowNode) :
    (engine.executeNode answers left node).2 = (engine.executeNode resumed right node).2 := by
  have skips : engine.shouldSkip answers node = engine.shouldSkip resumed node := by
    unfold shouldSkip
    rw [same.facts]
  unfold executeNode
  rw [skips, same.run node _ _ (nodeContext_agrees agrees node), same.postNode]
  split
  · rfl
  · split <;> rfl

/-- Without a watched fingerprint the guards read only the recorded verdicts. -/
theorem checkStall_unwatched (unwatched : engine.watchesDiff = false) (answers : EngineAnswers)
    (state : EngineState) (nodeId loop : String) :
    engine.checkStall answers state nodeId loop =
      (state, engine.checkRepeatedFindings answers nodeId loop) := by
  simp only [checkStall, checkNoFileChange, unwatched, Bool.false_eq_true, ↓reduceIte]
  rfl

theorem chargeOwn_fingerprint (runState : FlowRunState) (edge : Edge) :
    (chargeOwn runState edge).flowFingerprint = runState.flowFingerprint := by
  unfold chargeOwn
  split
  · rfl
  · split <;> rfl

theorem chargeRework_agrees {left right : EngineState}
    (agrees : left.runState.Agrees right.runState) (edge : Edge) :
    (engine.chargeRework left edge).2 = (engine.chargeRework right edge).2 ∧
      (engine.chargeRework left edge).1.runState.Agrees
        (engine.chargeRework right edge).1.runState := by
  unfold chargeRework
  rw [reworkRefusal_agrees agrees]
  split
  · exact ⟨rfl, agrees⟩
  · refine ⟨rfl, ?_, ?_, ?_⟩
    · simp only [EngineState.mapRunState_runState, chargeOwn_fingerprint]
      exact agrees.flowFingerprint
    · simp only [EngineState.mapRunState_runState, chargeOwn_currentNode]
      exact agrees.currentNode
    · funext key
      simp only [EngineState.mapRunState_runState, charge_counter, agrees.counter]

theorem admitRework_agrees (unwatched : engine.watchesDiff = false)
    {answers resumed : EngineAnswers} (same : SameAnswers answers resumed)
    {left right : EngineState} (agrees : left.runState.Agrees right.runState) (node : FlowNode)
    (edge : Edge) :
    (engine.admitRework answers left node edge).2 =
        (engine.admitRework resumed right node edge).2 ∧
      (engine.admitRework answers left node edge).1.runState.Agrees
        (engine.admitRework resumed right node edge).1.runState := by
  have findings (loop : String) : engine.checkRepeatedFindings answers node.id loop =
      engine.checkRepeatedFindings resumed node.id loop := by
    unfold checkRepeatedFindings
    rw [same.repeatedFindings]
  unfold admitRework
  split
  · rename_i loop _ _
    rw [checkStall_unwatched unwatched, checkStall_unwatched unwatched, findings]
    cases engine.checkRepeatedFindings resumed node.id loop with
    | none => exact chargeRework_agrees agrees edge
    | some stuck => exact ⟨rfl, agrees⟩
  · exact chargeRework_agrees agrees edge

theorem resetLoopsAt_agrees {left right : EngineState}
    (agrees : left.runState.Agrees right.runState) (nodeId : String) :
    (engine.resetLoopsAt left nodeId).runState.Agrees
      (engine.resetLoopsAt right nodeId).runState := by
  unfold resetLoopsAt
  generalize engine.snapshot.adjacency nodeId = edges
  induction edges generalizing left right with
  | nil => exact agrees
  | cons edge rest ih =>
      apply ih
      refine ⟨?_, ?_, ?_⟩
      · unfold resetEdge
        repeat' split
        all_goals exact agrees.flowFingerprint
      · unfold resetEdge
        repeat' split
        all_goals exact agrees.currentNode
      · funext key
        rw [resetEdge_counter, resetEdge_counter, agrees.counter]

/-- Two moves that take the same edge, end alike and leave agreeing checkpoints. -/
structure Move.Alike (left right : Move) : Prop where
  agrees : left.state.runState.Agrees right.state.runState
  taken : left.taken = right.taken
  ended : left.ended = right.ended

theorem follow_alike {left right : EngineState} (agrees : left.runState.Agrees right.runState)
    (node : FlowNode) (edge : Edge) :
    (engine.follow left node edge).Alike (engine.follow right node edge) :=
  ⟨setCurrentNode_agrees agrees.flowFingerprint agrees.counter edge.toNode, rfl, rfl⟩

section Turn

variable (unwatched : engine.watchesDiff = false) {answers resumed : EngineAnswers}
  (same : SameAnswers answers resumed)
include unwatched same

theorem traverse_alike {left right : EngineState} (agrees : left.runState.Agrees right.runState)
    (node : FlowNode) (edge : Edge) :
    (engine.traverse answers left node edge).Alike (engine.traverse resumed right node edge) := by
  unfold traverse
  cases edge.isRework with
  | false => exact follow_alike (resetLoopsAt_agrees agrees node.id) node edge
  | true =>
      simp only [↓reduceIte]
      have admits := admitRework_agrees unwatched same agrees node edge
      generalize engine.admitRework answers left node edge = first at admits ⊢
      generalize engine.admitRework resumed right node edge = second at admits ⊢
      obtain ⟨next, stuck⟩ := first
      obtain ⟨next', stuck'⟩ := second
      obtain ⟨rfl, nexts⟩ := admits
      cases stuck with
      | none => exact follow_alike nexts node edge
      | some stuck => exact ⟨nexts, rfl, rfl⟩

theorem advance_alike {left right : EngineState} (agrees : left.runState.Agrees right.runState)
    (node : FlowNode) (outcome : NodeOutcome) :
    (engine.advance answers left node outcome).Alike
      (engine.advance resumed right node outcome) := by
  unfold advance
  split
  · exact ⟨agrees, rfl, rfl⟩
  · split
    · exact ⟨agrees, rfl, rfl⟩
    · exact traverse_alike unwatched same agrees node _

theorem dispatch_alike {left right : EngineState} (agrees : left.runState.Agrees right.runState)
    (node : FlowNode) :
    (engine.dispatch answers left node).Alike (engine.dispatch resumed right node) := by
  have outcomes : (engine.executeNode answers left node).2 =
      (engine.executeNode resumed right node).2 := executeNode_agrees same agrees node
  have kept := engine.executeNode_runState answers left node
  have kept' := engine.executeNode_runState resumed right node
  unfold dispatch
  generalize engine.executeNode answers left node = first at outcomes kept ⊢
  generalize engine.executeNode resumed right node = second at outcomes kept' ⊢
  obtain ⟨next, result⟩ := first
  obtain ⟨next', result'⟩ := second
  obtain rfl : result = result' := outcomes
  dsimp only at kept kept'
  have nexts : next.runState.Agrees next'.runState := by rw [kept, kept']; exact agrees
  cases result with
  | error ended => exact ⟨nexts, rfl, rfl⟩
  | ok outcome =>
      have marked :
          (next.mapRunState fun runState => runState.markCompleted node.id).runState.Agrees
            (next'.mapRunState fun runState => runState.markCompleted node.id).runState :=
        ⟨nexts.flowFingerprint, nexts.currentNode, nexts.counter⟩
      exact advance_alike unwatched same marked node outcome

/-- One turn from resuming states shows the same event, ends alike and leaves resuming states. -/
theorem turn_resumes {left right : EngineState} (resumes : engine.Resumes left right) :
    engine.Resumes (engine.turn answers left).next (engine.turn resumed right).next ∧
    (engine.turn answers left).event = (engine.turn resumed right).event ∧
    (engine.turn answers left).result = (engine.turn resumed right).result := by
  unfold turn
  rw [engine.seed_eq, engine.seed_eq, resumes.stands, same.isCancelled, resumes.counter]
  cases engine.standsAt right.runState with
  | error error => exact ⟨resumes, rfl, rfl⟩
  | ok nodeId =>
      have agrees := setCurrentNode_agrees resumes.flowFingerprint resumes.counter nodeId
      simp only [Except.map]
      cases resumed.isCancelled with
      | true => exact ⟨.of_agrees agrees, rfl, rfl⟩
      | false =>
          simp only [Bool.false_eq_true, ↓reduceIte]
          cases engine.snapshot.nodesById nodeId with
          | none => exact ⟨.of_agrees agrees, rfl, rfl⟩
          | some fetched =>
              have alike := dispatch_alike unwatched same
                (show ({ left with runState := left.runState.setCurrentNode nodeId } :
                    EngineState).runState.Agrees
                  ({ right with runState := right.runState.setCurrentNode nodeId } :
                    EngineState).runState from agrees) (engine.applyOverrides fetched)
              exact ⟨.of_agrees alike.agrees, by simp only [alike.taken], alike.ended⟩

end Turn

/-! ## Whole runs -/

/-- Resuming states run alike for ever. -/
theorem run_resumes (unwatched : engine.watchesDiff = false) {answers resumed : Nat → EngineAnswers}
    (same : ∀ turn, SameAnswers (answers turn) (resumed turn)) {left right : EngineState}
    (resumes : engine.Resumes left right) (turns : Nat) :
    (engine.run answers left turns).events = (engine.run resumed right turns).events ∧
    (engine.run answers left turns).result = (engine.run resumed right turns).result := by
  exact (engine.machine.simulation engine.machine engine.Resumes
    (fun turn _ _ resumes => turn_resumes unwatched (same turn) resumes) resumes turns).2

/-- A turn that goes on, returns or is cancelled has saved the checkpoint it leaves. -/
theorem turn_saves {answers : EngineAnswers} {state : EngineState}
    (saved : match (engine.turn answers state).result with
      | none => True
      | some (.returned _) => True
      | some (.flowCancelled _) => True
      | some _ => False) :
    ∃ before : EngineState, (engine.turn answers state).next = before.saveCheckpoint := by
  have path := engine.turn_path answers state
  generalize engine.turn answers state = turn at path saved ⊢
  cases path with
  | noEntry error unseeded => cases saved
  | cancelled runState nodeId seeded stopped => exact ⟨_, rfl⟩
  | missing runState nodeId seeded absent => cases saved
  | failed runState node next ended seeded known raised =>
      rcases engine.executeNode_error raised with ⟨_, rfl⟩ | ⟨message, rfl⟩
      · cases saved
      · cases saved
  | finished node outcome ready returns terminal => exact ⟨_, rfl⟩
  | unmatched node outcome ready error returns inner unselected => cases saved
  | parked node outcome ready next edge stuck returns selected rework held => exact ⟨_, rfl⟩
  | charged node outcome ready next edge returns selected rework admitted => exact ⟨_, rfl⟩
  | forward node outcome ready edge returns selected plain => exact ⟨_, rfl⟩

theorem hydrate_of_saved {state before : EngineState} (saved : state = before.saveCheckpoint) :
    ∃ hydrated, hydrateRunState state.store = some hydrated ∧
      hydrated.Agrees state.runState := by
  subst saved
  exact hydrate_saveCheckpoint before

theorem stands_of_seed {runState seeded : FlowRunState} {nodeId : String}
    (found : engine.seed runState = .ok (seeded, nodeId)) :
    seeded = runState.setCurrentNode nodeId ∧ engine.standsAt runState = .ok nodeId := by
  rw [engine.seed_eq] at found
  cases stands : engine.standsAt runState with
  | error error => rw [stands] at found; cases found
  | ok current =>
      rw [stands] at found
      simp only [Except.map, Except.ok.injEq, Prod.mk.injEq] at found
      obtain ⟨rfl, rfl⟩ := found
      exact ⟨rfl, rfl⟩

/-- From the seeded checkpoint the run goes on as from the unseeded one. -/
theorem resumes_of_seed {state next : EngineState} {seeded : FlowRunState} {nodeId : String}
    (found : engine.seed state.runState = .ok (seeded, nodeId))
    (agrees : next.runState.Agrees seeded) : engine.Resumes state next := by
  obtain ⟨rfl, stands⟩ := stands_of_seed found
  refine ⟨agrees.flowFingerprint.symm, agrees.counter.symm, ?_⟩
  rw [stands]
  unfold standsAt
  rw [agrees.currentNode]
  rfl

theorem Returns.resumes {answers : EngineAnswers} {state ready : EngineState} {node : FlowNode}
    {outcome : NodeOutcome} (returns : engine.Returns answers state node outcome ready)
    {next : EngineState} (kept : next.runState = ready.runState) : engine.Resumes state next := by
  obtain ⟨runState, executed, seeded, execution, rfl⟩ := returns.executed
  have unchanged := engine.executeNode_runState answers { state with runState } node
  rw [execution] at unchanged
  refine resumes_of_seed seeded ?_
  rw [kept]
  dsimp only at unchanged
  simp only [EngineState.mapRunState_runState, unchanged]
  exact ⟨rfl, rfl, rfl⟩

/-- A turn that saves without taking an edge leaves the run where it stood. -/
theorem turn_stays {answers : EngineAnswers} {state : EngineState}
    (stayed : (engine.turn answers state).event.taken = none)
    (saved : match (engine.turn answers state).result with
      | some (.returned _) => True
      | some (.flowCancelled _) => True
      | _ => False) :
    engine.Resumes state (engine.turn answers state).next := by
  have path := engine.turn_path answers state
  generalize engine.turn answers state = turn at path saved stayed ⊢
  cases path with
  | noEntry error unseeded => cases saved
  | cancelled runState nodeId seeded stopped => exact resumes_of_seed seeded ⟨rfl, rfl, rfl⟩
  | missing runState nodeId seeded absent => cases saved
  | failed runState node next ended seeded known raised =>
      rcases engine.executeNode_error raised with ⟨_, rfl⟩ | ⟨message, rfl⟩
      · cases saved
      · cases saved
  | finished node outcome ready returns terminal => exact returns.resumes rfl
  | unmatched node outcome ready error returns inner unselected => cases saved
  | parked node outcome ready next edge stuck returns selected rework held =>
      exact returns.resumes (engine.admitRework_stuck held).1
  | charged node outcome ready next edge returns selected rework admitted => cases stayed
  | forward node outcome ready edge returns selected plain => cases stayed

/-- The stores from which a run stopped after some turns is resumed: what the last of these turns
saved, or what a stop observed before the next node saved. -/
inductive StoppedAfter (engine : FlowEngine) (answers : Nat → EngineAnswers) (start : EngineState)
    (turns : Nat) : FlowStore → Prop
  | crashed (started : 0 < turns) :
      StoppedAfter engine answers start turns (engine.run answers start turns).state.store
  | cancelled (stop : EngineAnswers) (nodeId : String)
      (observed : (engine.turn stop (engine.run answers start turns).state).result =
        some (.flowCancelled nodeId)) :
      StoppedAfter engine answers start turns
        (engine.turn stop (engine.run answers start turns).state).next.store

theorem StoppedAfter.hydrates {answers : Nat → EngineAnswers} {start : EngineState} {turns : Nat}
    (running : (engine.run answers start turns).result = none) {store : FlowStore}
    (stopped : StoppedAfter engine answers start turns store) :
    ∃ hydrated, hydrateRunState store = some hydrated ∧
      engine.Resumes (engine.run answers start turns).state { runState := hydrated, store } := by
  cases stopped with
  | crashed started =>
      obtain ⟨count, rfl⟩ := Nat.exists_eq_add_one.mpr started
      have earlier := engine.machine.running_of_le (Nat.le_succ count) running
      have extended : engine.run answers start (count + 1) = _ :=
        engine.machine.extend_of_running earlier
      rw [extended] at running ⊢
      have ongoing : (engine.turn (answers count) (engine.run answers start count).state).result =
        none := running
      obtain ⟨before, saved⟩ := turn_saves (by rw [ongoing]; trivial)
      obtain ⟨hydrated, found, agrees⟩ := hydrate_of_saved saved
      exact ⟨hydrated, found, (Resumes.of_agrees agrees).symm⟩
  | cancelled stop nodeId observed =>
      have stayed :
          (engine.turn stop (engine.run answers start turns).state).event.taken = none := by
        cases same : (engine.turn stop (engine.run answers start turns).state).event.taken with
        | none => rfl
        | some edge =>
            rw [(turn_takes same).result] at observed
            split at observed
            · cases observed
            · cases observed
      obtain ⟨before, saved⟩ := turn_saves (by rw [observed]; trivial)
      obtain ⟨hydrated, found, agrees⟩ := hydrate_of_saved saved
      exact ⟨hydrated, found,
        (turn_stays stayed (by rw [observed]; trivial)).trans (Resumes.of_agrees agrees).symm⟩

/-- After its last turn a run that ended at a node repeats that turn when it is resumed; a run that
left its region is resumed at the node after the region. -/
theorem last_turn_repeats (unwatched : engine.watchesDiff = false)
    {answers resumed : EngineAnswers} (same : SameAnswers answers resumed) {state : EngineState}
    {result : FlowRunResult}
    (ended : (engine.turn answers state).result = some (.returned result)) :
    let turn := engine.turn answers state
    ∃ hydrated, hydrateRunState turn.next.store = some hydrated ∧
      match turn.event.taken with
      | none =>
          let again := engine.turn resumed { runState := hydrated, store := turn.next.store }
          again.event = turn.event ∧ again.result = turn.result
      | some edge => hydrated.currentNode = some edge.toNode := by
  obtain ⟨before, saved⟩ := turn_saves (by rw [ended]; trivial)
  obtain ⟨hydrated, found, agrees⟩ := hydrate_of_saved saved
  refine ⟨hydrated, found, ?_⟩
  cases stayed : (engine.turn answers state).event.taken with
  | some edge => exact agrees.currentNode.trans (turn_takes stayed).moved
  | none =>
      have resumes : engine.Resumes state
          { runState := hydrated, store := (engine.turn answers state).next.store } :=
        (turn_stays stayed (by rw [ended]; trivial)).trans (Resumes.of_agrees agrees).symm
      obtain ⟨_, event, result⟩ := turn_resumes unwatched same resumes
      exact ⟨event.symm, result.symm⟩

end FlowEngine

end Orchestrator.Flow
