import Orchestrator.Flow.EngineTurns

/-! # The keys of the fix counters

The counters of a flow share one dictionary, and every limit is read from a key
of it: the reserved global key, the name of a charged loop or the key of an edge
charged to an inline budget.
-/

namespace Orchestrator.Flow

open Orchestrator.Foundation

/-- A rework or fail edge charged to its own inline budget. -/
def Edge.isInline (edge : Edge) : Bool := edge.isRework && edge.loop.isNone && edge.budget.isSome

variable (snapshot : FlowSnapshot)

/-- The loops that some rework or fail edge charges. -/
def chargedLoops : List String :=
  ((snapshot.doc.edges.filter Edge.isRework).filterMap Edge.loop).dedup

/-- The edges charged to inline budgets, in document order. -/
def inlineEdges : List Edge := snapshot.doc.edges.filter Edge.isInline

/-- The keys that limits are read from: the global one, the loops and the inline edges. -/
def budgetKeys : List String :=
  FlowRunState.globalFixKey :: (chargedLoops snapshot ++ (inlineEdges snapshot).map edgeKey)

variable {snapshot}

theorem mem_chargedLoops_iff (loop : String) : loop ∈ chargedLoops snapshot ↔
    ∃ edge ∈ snapshot.doc.edges, edge.isRework = true ∧ edge.loop = some loop := by
  unfold chargedLoops
  simp only [List.mem_dedup, List.mem_filterMap, List.mem_filter, and_assoc]

theorem Edge.isInline_iff (edge : Edge) : edge.isInline = true ↔
    edge.isRework = true ∧ edge.loop = none ∧ edge.budget.isSome = true := by
  unfold Edge.isInline
  simp only [Bool.and_eq_true, Option.isNone_iff_eq_none, and_assoc]

theorem mem_inlineEdges_iff (edge : Edge) : edge ∈ inlineEdges snapshot ↔
    edge ∈ snapshot.doc.edges ∧ edge.isInline = true := List.mem_filter

/-- What an edge resets is the loop or the inline budget it is charged to. -/
theorem mem_edgeResetKeys_iff (edge : Edge) (key : String) : key ∈ edgeResetKeys edge ↔
    (edge.isRework = true ∧ edge.loop = some key) ∨
      (edge.isInline = true ∧ key = edgeKey edge) := by
  unfold edgeResetKeys Edge.isInline
  cases edge.isRework <;> cases edge.loop <;> cases edge.budget <;> simp [eq_comm]

theorem mem_resetKeys_iff (nodeId key : String) : key ∈ resetKeys snapshot nodeId ↔
    ∃ edge ∈ snapshot.adjacency nodeId, key ∈ edgeResetKeys edge := by
  unfold resetKeys
  rw [List.mem_flatMap]

/-- Every key that is reset is the key of a loop or of an inline edge. -/
theorem mem_of_mem_resetKeys {nodeId key : String} (member : key ∈ resetKeys snapshot nodeId) :
    key ∈ chargedLoops snapshot ++ (inlineEdges snapshot).map edgeKey := by
  obtain ⟨edge, outgoing, anchored⟩ := (mem_resetKeys_iff nodeId key).mp member
  have listed := ((snapshot.mem_adjacency_iff nodeId edge).mp outgoing).1
  rw [List.mem_append]
  rcases (mem_edgeResetKeys_iff edge key).mp anchored with ⟨charged, named⟩ | ⟨inline, rfl⟩
  · exact .inl ((mem_chargedLoops_iff key).mpr ⟨edge, listed, charged, named⟩)
  · exact .inr (List.mem_map_of_mem ((mem_inlineEdges_iff edge).mpr ⟨listed, inline⟩))

/-! ## Spellings -/

/-- A total is kept under a key with a colon. -/
theorem colon_mem_totalKey (loop : String) : ':' ∈ (FlowRunState.totalKey loop).toList := by
  unfold FlowRunState.totalKey
  rw [String.toList_append, List.mem_append]
  exact .inl (by decide)

theorem globalFixKey_ne_totalKey (loop : String) :
    FlowRunState.globalFixKey ≠ FlowRunState.totalKey loop := by
  intro same
  have colon := colon_mem_totalKey loop
  rw [← same] at colon
  exact absurd colon (by decide)

/-- An inline edge's key has a colon. -/
theorem colon_mem_edgeKey (edge : Edge) : ':' ∈ (edgeKey edge).toList := by
  unfold edgeKey
  simp only [String.toList_append, List.mem_append]
  exact .inl (.inr (by decide))

theorem globalFixKey_ne_edgeKey (edge : Edge) : FlowRunState.globalFixKey ≠ edgeKey edge := by
  intro same
  have colon := colon_mem_edgeKey edge
  rw [← same] at colon
  exact absurd colon (by decide)

/-! ## The global counter -/

/-- The global key is nobody's loop: all that keeps the global counter apart. -/
theorem globalFixKey_not_mem_of_nodup (distinct : (budgetKeys snapshot).Nodup) :
    FlowRunState.globalFixKey ∉ chargedLoops snapshot := by
  have apart := (List.nodup_cons.mp distinct).1
  exact fun member => apart (List.mem_append_left _ member)

theorem count_globalFixKey_chargedKeys {edge : Edge} (listed : edge ∈ snapshot.doc.edges)
    (charged : edge.isRework = true)
    (reserved : FlowRunState.globalFixKey ∉ chargedLoops snapshot) :
    (chargedKeys edge).count FlowRunState.globalFixKey = 1 := by
  unfold chargedKeys
  rw [List.count_cons_self, Nat.add_eq_right, List.count_eq_zero]
  cases named : edge.loop with
  | some loop =>
      simp only [List.mem_cons, List.not_mem_nil, or_false, not_or]
      refine ⟨?_, globalFixKey_ne_totalKey loop⟩
      exact fun same => reserved
        (same ▸ (mem_chargedLoops_iff loop).mpr ⟨edge, listed, charged, named⟩)
  | none =>
      cases edge.budget with
      | none => simp
      | some budget => simpa using globalFixKey_ne_edgeKey edge

theorem globalFixKey_not_mem_resetKeys
    (reserved : FlowRunState.globalFixKey ∉ chargedLoops snapshot) (nodeId : String) :
    FlowRunState.globalFixKey ∉ resetKeys snapshot nodeId := by
  intro member
  rcases List.mem_append.mp (mem_of_mem_resetKeys member) with loop | inline
  · exact reserved loop
  · obtain ⟨edge, _, same⟩ := List.mem_map.mp inline
    exact globalFixKey_ne_edgeKey edge same.symm

/-- The number of rework and fail edges among those taken. -/
def reworksTaken (taken : Option Edge) : Nat :=
  match taken with
  | none => 0
  | some edge => if edge.isRework then 1 else 0

/-- One turn raises the global counter by one on a rework or fail edge and never lowers it. -/
theorem turn_fixIterations {engine : FlowEngine}
    (reserved : FlowRunState.globalFixKey ∉ chargedLoops engine.snapshot)
    (answers : EngineAnswers) (state : EngineState) :
    (engine.turn answers state).next.runState.fixIterations =
      state.runState.fixIterations + reworksTaken (engine.turn answers state).event.taken := by
  unfold FlowRunState.fixIterations
  rw [FlowEngine.turn_counter]
  cases same : (engine.turn answers state).event.taken with
  | none => rfl
  | some edge =>
      have taken := FlowEngine.turn_takes same
      unfold FlowEngine.countersAfter reworksTaken
      cases rework : edge.isRework with
      | true =>
          simp only [rework, ↓reduceIte,
            count_globalFixKey_chargedKeys taken.outgoing rework reserved]
      | false =>
          simp only [rework, Bool.false_eq_true, ↓reduceIte, Nat.add_zero,
            globalFixKey_not_mem_resetKeys reserved]

end Orchestrator.Flow
