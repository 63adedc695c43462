import Orchestrator.Flow.Cycles

/-! # Whose counter a key is

The backstop, the charged loops and the edges with inline budgets own the
counters of a flow. Loop names are free text, so two owners share a key for
particular spellings only, and then one is charged or reset for the other.
-/

namespace Orchestrator.Flow

open Orchestrator.Foundation

/-- Who a counter belongs to. -/
inductive CounterOwner where
  | backstop
  | loop (name : String)
  | inline (edge : Edge)
  deriving DecidableEq

/-- The counters of an owner; a loop has a consecutive and a cumulative one. -/
def CounterOwner.keys : CounterOwner → List String
  | .backstop => [FlowRunState.globalFixKey]
  | .loop name => [name, FlowRunState.totalKey name]
  | .inline edge => [edgeKey edge]

/-- What a rework or fail edge is charged to beside the backstop. -/
def Edge.owner (edge : Edge) : Option CounterOwner :=
  if edge.isRework then
    match edge.loop with
    | some loop => some (.loop loop)
    | none => if edge.budget.isSome then some (.inline edge) else none
  else none

/-- The loops and the inline edges that are charged beside the backstop. -/
def budgetOwners (snapshot : FlowSnapshot) : List CounterOwner :=
  (chargedLoops snapshot).map .loop ++ (inlineEdges snapshot).map .inline

/-- The owners of a flow's counters. -/
def counterOwners (snapshot : FlowSnapshot) : List CounterOwner :=
  .backstop :: budgetOwners snapshot

/-- All counter keys, owner by owner. -/
def counterKeys (snapshot : FlowSnapshot) : List String :=
  (counterOwners snapshot).flatMap CounterOwner.keys

/-- The owners whose budget a turn may change: those an edge charges, or those anchored at the node
that a forward edge leaves. -/
def touchedOwners (snapshot : FlowSnapshot) (taken : Option Edge) : List CounterOwner :=
  match taken with
  | none => []
  | some edge =>
      if edge.isRework then .backstop :: edge.owner.toList
      else (snapshot.adjacency edge.fromNode).filterMap Edge.owner

/-- In every run each turn leaves the counters of every other owner as they were, and the backstop
counts the rework and fail edges taken and nothing else. -/
def OthersKept (snapshot : FlowSnapshot) : Prop :=
  ∀ engine : FlowEngine, engine.snapshot = snapshot → ∀ answers start turns,
    let before := (engine.run answers start turns).state
    let turn := engine.turn (answers turns) before
    (∀ owner ∈ counterOwners snapshot, owner ∉ touchedOwners snapshot turn.event.taken →
      ∀ key ∈ owner.keys, turn.next.runState.counter key = before.runState.counter key) ∧
    turn.next.runState.fixIterations =
      before.runState.fixIterations + reworksTaken turn.event.taken

variable {snapshot : FlowSnapshot}

theorem loop_mem_counterOwners_iff (name : String) :
    .loop name ∈ counterOwners snapshot ↔ name ∈ chargedLoops snapshot := by
  simp [counterOwners, budgetOwners]

theorem inline_mem_counterOwners_iff (edge : Edge) :
    .inline edge ∈ counterOwners snapshot ↔ edge ∈ inlineEdges snapshot := by
  simp [counterOwners, budgetOwners]

theorem Edge.owner_eq_loop_iff (edge : Edge) (name : String) :
    edge.owner = some (.loop name) ↔ edge.isRework = true ∧ edge.loop = some name := by
  unfold Edge.owner
  cases edge.isRework <;> cases edge.loop <;> cases edge.budget <;> simp

theorem Edge.owner_eq_inline_iff (edge other : Edge) :
    edge.owner = some (.inline other) ↔ edge.isInline = true ∧ edge = other := by
  unfold Edge.owner Edge.isInline
  cases edge.isRework <;> cases edge.loop <;> cases edge.budget <;> simp

/-- The owner of an edge of the flow is one of the flow's owners. -/
theorem Edge.owner_mem {edge : Edge} (listed : edge ∈ snapshot.doc.edges) {owner : CounterOwner}
    (owned : edge.owner = some owner) : owner ∈ counterOwners snapshot := by
  cases owner with
  | backstop => exact List.mem_cons_self
  | loop name =>
      obtain ⟨rework, named⟩ := (edge.owner_eq_loop_iff name).mp owned
      exact (loop_mem_counterOwners_iff name).mpr
        ((mem_chargedLoops_iff name).mpr ⟨edge, listed, rework, named⟩)
  | inline other =>
      obtain ⟨inline, rfl⟩ := (edge.owner_eq_inline_iff other).mp owned
      exact (inline_mem_counterOwners_iff edge).mpr
        ((mem_inlineEdges_iff edge).mpr ⟨listed, inline⟩)

/-- A charge touches the counters of the backstop and of the edge's owner. -/
theorem mem_chargedKeys_iff {edge : Edge} (rework : edge.isRework = true) (key : String) :
    key ∈ chargedKeys edge ↔
      ∃ owner, owner ∈ (.backstop :: edge.owner.toList) ∧ key ∈ owner.keys := by
  unfold chargedKeys Edge.owner
  cases edge.loop <;> cases edge.budget <;> simp [rework, CounterOwner.keys]

/-- A reset touches a counter of the owner of the edge it is anchored at. -/
theorem mem_keys_of_mem_edgeResetKeys {edge : Edge} {key : String}
    (anchored : key ∈ edgeResetKeys edge) :
    ∃ owner, edge.owner = some owner ∧ key ∈ owner.keys := by
  rcases (mem_edgeResetKeys_iff edge key).mp anchored with ⟨rework, named⟩ | ⟨inline, rfl⟩
  · exact ⟨.loop key, (edge.owner_eq_loop_iff key).mpr ⟨rework, named⟩, List.mem_cons_self⟩
  · exact ⟨.inline edge, (edge.owner_eq_inline_iff edge).mpr ⟨inline, rfl⟩, List.mem_cons_self⟩

/-- Distinct keys tell the owner. -/
theorem owner_eq_of_mem_keys (distinct : (counterKeys snapshot).Nodup) (key : String)
    {first second : CounterOwner} (firstMem : first ∈ counterOwners snapshot)
    (secondMem : second ∈ counterOwners snapshot) (left : key ∈ first.keys)
    (right : key ∈ second.keys) : first = second := by
  by_contra differ
  have apart := (List.nodup_flatMap.mp distinct).2
  have symmetric : Std.Symm (Function.onFun List.Disjoint CounterOwner.keys) :=
    ⟨fun _ _ disjoint => disjoint.symm⟩
  exact apart.forall firstMem secondMem differ left right

/-- With distinct keys an owner that a turn does not touch keeps its counters. -/
theorem countersAfter_of_untouched (distinct : (counterKeys snapshot).Nodup) (before : String → Nat)
    {taken : Option Edge} (outgoing : ∀ edge, taken = some edge → edge ∈ snapshot.doc.edges)
    {owner : CounterOwner} (listed : owner ∈ counterOwners snapshot)
    (untouched : owner ∉ touchedOwners snapshot taken) {key : String} (owned : key ∈ owner.keys) :
    FlowEngine.countersAfter snapshot before taken key = before key := by
  cases taken with
  | none => rfl
  | some edge =>
      have member := outgoing edge rfl
      unfold FlowEngine.countersAfter
      unfold touchedOwners at untouched
      cases rework : edge.isRework with
      | true =>
          simp only [rework, ↓reduceIte] at untouched ⊢
          rw [Nat.add_eq_left, List.count_eq_zero, mem_chargedKeys_iff rework]
          rintro ⟨charged, owns, shared⟩
          have chargedMem : charged ∈ counterOwners snapshot := by
            rcases List.mem_cons.mp owns with rfl | own
            · exact List.mem_cons_self
            · exact Edge.owner_mem member (Option.mem_toList.mp own)
          exact untouched (owner_eq_of_mem_keys distinct key listed chargedMem owned shared ▸ owns)
      | false =>
          simp only [rework, Bool.false_eq_true, ↓reduceIte] at untouched ⊢
          rw [ite_eq_right_iff]
          intro anchored
          obtain ⟨back, outgoingBack, resets⟩ := (mem_resetKeys_iff _ key).mp anchored
          obtain ⟨other, ownedBack, shared⟩ := mem_keys_of_mem_edgeResetKeys resets
          have backMem := ((snapshot.mem_adjacency_iff _ back).mp outgoingBack).1
          have same := owner_eq_of_mem_keys distinct key listed (Edge.owner_mem backMem ownedBack)
            owned shared
          exact absurd (List.mem_filterMap.mpr ⟨back, outgoingBack, ownedBack⟩) (same ▸ untouched)

/-- Distinct keys keep the reserved key from being a loop's name. -/
theorem reserved_of_nodup (distinct : (counterKeys snapshot).Nodup) :
    FlowRunState.globalFixKey ∉ chargedLoops snapshot := by
  intro member
  have backstop : CounterOwner.backstop ∈ counterOwners snapshot := List.mem_cons_self
  cases owner_eq_of_mem_keys distinct FlowRunState.globalFixKey backstop
    ((loop_mem_counterOwners_iff _).mpr member) List.mem_cons_self List.mem_cons_self

theorem othersKept_of_nodup (distinct : (counterKeys snapshot).Nodup) : OthersKept snapshot := by
  rintro engine rfl answers start turns before turn
  have reserved := reserved_of_nodup distinct
  refine ⟨fun owner listed untouched key owned => ?_, turn_fixIterations reserved _ _⟩
  change (engine.turn (answers turns) before).next.runState.counter key = _
  rw [FlowEngine.turn_counter]
  exact countersAfter_of_untouched distinct _
    (fun edge same => (FlowEngine.turn_takes same).outgoing) listed untouched owned

/-! ## Spellings that keep the keys apart -/

/-- No charged loop is spelled like a key of another owner, and no two inline budgets sit on edges
with the same ends and outcome. -/
structure SpeltApart (snapshot : FlowSnapshot) : Prop where
  reserved : FlowRunState.globalFixKey ∉ chargedLoops snapshot
  totals : ∀ loop ∈ chargedLoops snapshot, ∀ other ∈ chargedLoops snapshot,
    loop ≠ FlowRunState.totalKey other
  edges : ∀ loop ∈ chargedLoops snapshot, ∀ edge ∈ inlineEdges snapshot, loop ≠ edgeKey edge
  places : ((inlineEdges snapshot).map fun edge =>
    (edge.fromNode, edge.toNode, edge.outcome)).Nodup

/-- The characters of an edge's key, cut at its arrow and its colon. -/
theorem edgeKey_toList (edge : Edge) : (edgeKey edge).toList =
    (edge.fromNode.toList ++ ['-']) ++ '>' ::
      (edge.toNode.toList ++ ':' :: (edge.outcome.getD "None").toList) := by
  unfold edgeKey
  simp only [String.toList_append, List.append_assoc]
  rfl

/-- Node ids have neither of the characters that separate the parts of an edge's key. -/
theorem FlowSnapshot.separators_not_mem (snapshot : FlowSnapshot) {nodeId : String}
    (listed : nodeId ∈ snapshot.nodeIds) : '>' ∉ nodeId.toList ∧ ':' ∉ nodeId.toList := by
  obtain ⟨node, member, rfl⟩ := List.mem_map.mp listed
  have valid := snapshot.idsValid node member
  exact ⟨Security.not_mem_of_isIdTail_eq_false valid (by decide),
    Security.not_mem_of_isIdTail_eq_false valid (by decide)⟩

/-- Inline edges of an accepted flow share a key only when ends and outcome agree. -/
theorem Accepted.edgeKey_inj (accepted : Accepted snapshot) {first second : Edge}
    (firstMem : first ∈ inlineEdges snapshot) (secondMem : second ∈ inlineEdges snapshot) :
    edgeKey first = edgeKey second ↔
      (first.fromNode, first.toNode, first.outcome) =
        (second.fromNode, second.toNode, second.outcome) := by
  obtain ⟨firstListed, firstInline⟩ := (mem_inlineEdges_iff first).mp firstMem
  obtain ⟨secondListed, secondInline⟩ := (mem_inlineEdges_iff second).mp secondMem
  obtain ⟨_, firstOutcome⟩ := first.outcome_of_isRework (first.isInline_iff.mp firstInline).1
  obtain ⟨_, secondOutcome⟩ := second.outcome_of_isRework (second.isInline_iff.mp secondInline).1
  have firstSource := snapshot.separators_not_mem (accepted.edge_fromNode_mem firstListed)
  have secondSource := snapshot.separators_not_mem (accepted.edge_fromNode_mem secondListed)
  have firstTarget := snapshot.separators_not_mem (accepted.edge_toNode_mem firstListed)
  have secondTarget := snapshot.separators_not_mem (accepted.edge_toNode_mem secondListed)
  rw [← String.toList_inj, edgeKey_toList, edgeKey_toList,
    Text.append_cons_inj (by simp [firstSource.1]) (by simp [secondSource.1]),
    Text.append_cons_inj firstTarget.2 secondTarget.2, List.append_cancel_right_eq,
    String.toList_inj, String.toList_inj, String.toList_inj, firstOutcome, secondOutcome]
  simp

/-- A total's key is no edge's key: the text before the colon has no arrow. -/
theorem totalKey_ne_edgeKey (accepted : Accepted snapshot) (loop : String) {edge : Edge}
    (listed : edge ∈ snapshot.doc.edges) : FlowRunState.totalKey loop ≠ edgeKey edge := by
  intro same
  have source := snapshot.separators_not_mem (accepted.edge_fromNode_mem listed)
  have target := snapshot.separators_not_mem (accepted.edge_toNode_mem listed)
  have total : (FlowRunState.totalKey loop).toList =
      "total_fix".toList ++ ':' :: loop.toList := by
    unfold FlowRunState.totalKey
    rw [String.toList_append]
    rfl
  have key : (edgeKey edge).toList =
      (edge.fromNode.toList ++ '-' :: '>' :: edge.toNode.toList) ++
        ':' :: (edge.outcome.getD "None").toList := by
    rw [edgeKey_toList]
    simp
  have cut := (Text.append_cons_inj (by decide) (by simp [source.2, target.2])).mp
    (total.symm.trans ((congrArg String.toList same).trans key))
  have arrow : '>' ∈ "total_fix".toList := by
    rw [cut.1]
    simp
  exact absurd arrow (by decide)

theorem loop_ne_totalKey (loop : String) : loop ≠ FlowRunState.totalKey loop := by
  intro same
  have lengths := congrArg (fun text => text.toList.length) same
  simp only [FlowRunState.totalKey, String.toList_append, List.length_append] at lengths
  have start : FlowRunState.totalStart.toList.length = 10 := by decide
  omega

/-- Distinctness of the keys, owner against owner. -/
theorem counterKeys_nodup_iff : (counterKeys snapshot).Nodup ↔
    (∀ loop ∈ chargedLoops snapshot, FlowRunState.globalFixKey ≠ loop) ∧
    (∀ loop ∈ chargedLoops snapshot, ∀ other ∈ chargedLoops snapshot,
      loop ≠ FlowRunState.totalKey other) ∧
    (∀ loop ∈ chargedLoops snapshot, ∀ edge ∈ inlineEdges snapshot,
      loop ≠ edgeKey edge ∧ FlowRunState.totalKey loop ≠ edgeKey edge) ∧
    ((inlineEdges snapshot).map edgeKey).Nodup := by
  have listed : counterKeys snapshot = FlowRunState.globalFixKey ::
      ((chargedLoops snapshot).flatMap (fun loop => [loop, FlowRunState.totalKey loop]) ++
        (inlineEdges snapshot).map edgeKey) := by
    unfold counterKeys counterOwners budgetOwners
    rw [List.flatMap_cons, List.flatMap_append, List.flatMap_map, List.flatMap_map]
    simp [CounterOwner.keys, List.map_eq_flatMap]
  constructor
  · intro distinct
    refine ⟨fun loop member same => ?_, fun loop member other otherMem same => ?_,
      fun loop member edge edgeMem => ⟨fun same => ?_, fun same => ?_⟩, ?_⟩
    · exact reserved_of_nodup distinct (same ▸ member)
    · have owners := owner_eq_of_mem_keys distinct loop
        ((loop_mem_counterOwners_iff loop).mpr member)
        ((loop_mem_counterOwners_iff other).mpr otherMem) List.mem_cons_self
        (by rw [same]; exact List.mem_cons_of_mem _ List.mem_cons_self)
      exact loop_ne_totalKey loop ((CounterOwner.loop.inj owners).symm ▸ same)
    · cases owner_eq_of_mem_keys distinct loop ((loop_mem_counterOwners_iff loop).mpr member)
        ((inline_mem_counterOwners_iff edge).mpr edgeMem) List.mem_cons_self
        (same ▸ List.mem_cons_self)
    · cases owner_eq_of_mem_keys distinct (FlowRunState.totalKey loop)
        ((loop_mem_counterOwners_iff loop).mpr member)
        ((inline_mem_counterOwners_iff edge).mpr edgeMem)
        (List.mem_cons_of_mem _ List.mem_cons_self) (same ▸ List.mem_cons_self)
    · rw [listed] at distinct
      exact (List.nodup_append.mp (List.nodup_cons.mp distinct).2).2.1
  · rintro ⟨reserved, totals, edges, places⟩
    rw [listed, List.nodup_cons, List.nodup_append, List.nodup_flatMap]
    refine ⟨?_, ⟨?_, ?_⟩, places, ?_⟩
    · simp only [List.mem_append, List.mem_flatMap, List.mem_cons, List.not_mem_nil, or_false,
        List.mem_map]
      rintro (⟨loop, member, same | same⟩ | ⟨edge, _, same⟩)
      · exact reserved loop member same
      · exact globalFixKey_ne_totalKey loop same
      · exact globalFixKey_ne_edgeKey edge same.symm
    · intro loop _
      simpa using loop_ne_totalKey loop
    · refine (List.nodup_dedup _).pairwise_of_forall_ne fun loop member other otherMem differ => ?_
      simp only [Function.onFun, List.disjoint_cons_left, List.disjoint_nil_left, and_true,
        List.mem_cons, List.not_mem_nil, or_false, not_or, FlowRunState.totalKey_inj]
      exact ⟨⟨differ, totals loop member other otherMem⟩,
        fun same => totals other otherMem loop member same.symm, differ⟩
    · intro key inLoops other inEdges same
      obtain ⟨loop, member, place⟩ := List.mem_flatMap.mp inLoops
      obtain ⟨edge, edgeMem, rfl⟩ := List.mem_map.mp inEdges
      rcases List.mem_cons.mp place with rfl | total
      · exact (edges key member edge edgeMem).1 same
      · exact (edges loop member edge edgeMem).2 (List.mem_singleton.mp total ▸ same)

/-- In an accepted flow distinct owners have distinct keys, and every run keeps the counters that a
turn does not touch, exactly when the names are spelt apart. -/
theorem counters_separate_iff_speltApart (accepted : Accepted snapshot) :
    (counterKeys snapshot).Nodup ∧ OthersKept snapshot ↔ SpeltApart snapshot := by
  have places : ((inlineEdges snapshot).map edgeKey).Nodup ↔
      ((inlineEdges snapshot).map fun edge =>
        (edge.fromNode, edge.toNode, edge.outcome)).Nodup := by
    rw [List.Nodup, List.Nodup, List.pairwise_map, List.pairwise_map]
    exact List.Pairwise.iff_of_mem fun firstMem secondMem =>
      not_congr (accepted.edgeKey_inj firstMem secondMem)
  constructor
  · rintro ⟨distinct, _⟩
    obtain ⟨reserved, totals, edges, unique⟩ := counterKeys_nodup_iff.mp distinct
    exact ⟨fun member => reserved _ member rfl, totals,
      fun loop member edge edgeMem => (edges loop member edge edgeMem).1, places.mp unique⟩
  · intro spelt
    have distinct : (counterKeys snapshot).Nodup := by
      refine counterKeys_nodup_iff.mpr ⟨fun loop member same => spelt.reserved (same ▸ member),
        spelt.totals, fun loop member edge edgeMem => ⟨spelt.edges loop member edge edgeMem, ?_⟩,
        places.mpr spelt.places⟩
      exact totalKey_ne_edgeKey accepted loop ((mem_inlineEdges_iff edge).mp edgeMem).1
    exact ⟨distinct, othersKept_of_nodup distinct⟩

theorem counters_separate_repairFlow :
    (counterKeys repairFlow).Nodup ∧ OthersKept repairFlow :=
  (counters_separate_iff_speltApart (show Accepted repairFlow by decide)).mpr
    ⟨by decide, by decide, by decide, by decide⟩

/-! ## A loop named like the backstop -/

/-- The test loop is named like the reserved key, whose budget the flow declares. -/
def collidingFlow : FlowSnapshot where
  doc := {
    permissionCeiling := .workspaceWrite
    outputPolicy := .codeChange
    nodes := [
      .agent { id := "start", roleFile := "start.md" },
      .agent { id := "build", roleFile := "build.md" },
      .checks { id := "testing" },
      .publish { id := "publish" }]
    edges := [
      { fromNode := "start", toNode := "build" },
      { fromNode := "build", toNode := "testing" },
      { fromNode := "testing", toNode := "publish", outcome := some "pass" },
      { fromNode := "testing", toNode := "build", outcome := some "fail",
        loop := some "global_fix_iterations" }]
    budgets := Dict.ofList [("global_fix_iterations", 3)] }
  flowFingerprint := "colliding"
  idsValid := by decide
  idsUnique := by decide

def collidingEngine : FlowEngine :=
  { snapshot := collidingFlow, agents := { maxFixCycles := 3, maxTotalFixIterations := 4 } }

/-- The first test fails, later ones pass. -/
def failOnce (turn : Nat) : EngineAnswers := if turn ≤ 2 then failingAnswers else passingAnswers

/-- The validator accepts a loop with the reserved name; leaving the loop resets the backstop, which
that loop's edge had charged twice. -/
theorem collidingFlow_shares : Accepted collidingFlow ∧
    ¬ (counterKeys collidingFlow).Nodup ∧ ¬ OthersKept collidingFlow := by
  refine ⟨by decide, by decide, fun kept => ?_⟩
  have reset := (kept collidingEngine rfl failOnce { runState := { flowFingerprint := "" } } 4).1
    .backstop (by decide) (by decide) FlowRunState.globalFixKey (by decide)
  exact absurd reset (by decide)

end Orchestrator.Flow
