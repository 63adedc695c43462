import Orchestrator.Decomposition.SubtaskRows

/-! # The subtasks that are skipped as committed

The rows of the table are those of the current split, and the commit of a row was made for its
subtask, as long as no new split disagrees with what was committed under an earlier one and no
subtask takes the commit of another from `HEAD`.
-/

namespace Orchestrator.Decomposition

open Orchestrator.Foundation
open Orchestrator.Store

/-- A commit was made for a subtask of a slug and a title. -/
def MadeFor (made : List (String × SubtaskSpec)) (sha slug title : String) : Prop :=
  ∃ entry ∈ made, entry.1 = sha ∧ entry.2.slug = slug ∧ entry.2.title = title

instance (made : List (String × SubtaskSpec)) (sha slug title : String) :
    Decidable (MadeFor made sha slug title) :=
  inferInstanceAs (Decidable (∃ entry ∈ made, _))

/-- A new split has a subtask for every row of the task, says of a row with a commit what the row
says, and keeps the slug and the title of a row whose commit is recorded. -/
structure Agrees (taskId : String) (database : Database) (units : List SubtaskSpec) : Prop where
  covers : ∀ row ∈ database.subtasks, row.taskId = taskId → ∃ unit ∈ units, unit.order = row.order
  keeps : ∀ unit ∈ units, KeepsCommitted taskId database.subtasks unit
  recorded : ∀ unit ∈ units, recordedCommit taskId database unit.order ≠ none →
    ∀ row ∈ database.subtasks, row.taskId = taskId → row.order = unit.order →
      row.slug = unit.slug ∧ row.title = unit.title

instance (taskId : String) (rows : List SubtaskRow) (unit : SubtaskSpec) :
    Decidable (KeepsCommitted taskId rows unit) :=
  inferInstanceAs (Decidable (∀ row ∈ rows, _))

instance (taskId : String) (database : Database) (units : List SubtaskSpec) :
    Decidable (Agrees taskId database units) :=
  decidable_of_iff (_ ∧ _ ∧ _) ⟨fun all => ⟨all.1, all.2.1, all.2.2⟩,
    fun agrees => ⟨agrees.covers, agrees.keeps, agrees.recorded⟩⟩

/-- A decision agrees, if it is accepted. -/
def Accepts (taskId : String) (database : Database) (decision : DecompositionDecision) : Prop :=
  decision.accepted = true → Agrees taskId database decision.subtasks

instance (taskId : String) (database : Database) (decision : DecompositionDecision) :
    Decidable (Accepts taskId database decision) :=
  inferInstanceAs (Decidable (_ → _))

namespace PlanState

/-- What a step has to meet: an accepted split agrees with what is committed, and a subtask that
leaves nothing to commit finds at `HEAD` a commit that was made for it. -/
def Permitted (taskId : String) (transition : Transition PlanState PlanEvent) : Prop :=
  match transition.event with
  | .plan proposal gateOn maxSubtasks =>
      Accepts taskId transition.before.database
        (decideDecomposition proposal gateOn maxSubtasks)
  | .operatorPlan specs _ maxSubtasks =>
      Accepts taskId transition.before.database (decideOperatorDecomposition specs maxSubtasks)
  | .commitSubtask unit _ _ false =>
      recordedCommit taskId transition.before.database unit.order = none →
        MadeFor transition.before.made transition.before.head unit.slug unit.title
  | _ => True

instance (taskId : String) : ∀ transition : Transition PlanState PlanEvent,
    Decidable (Permitted taskId transition)
  | ⟨before, .plan proposal gateOn maxSubtasks, _⟩ =>
      inferInstanceAs (Decidable (Accepts taskId before.database
        (decideDecomposition proposal gateOn maxSubtasks)))
  | ⟨before, .operatorPlan specs _ maxSubtasks, _⟩ =>
      inferInstanceAs (Decidable (Accepts taskId before.database
        (decideOperatorDecomposition specs maxSubtasks)))
  | ⟨before, .commitSubtask unit _ _ false, _⟩ =>
      inferInstanceAs (Decidable (recordedCommit taskId before.database unit.order = none →
        MadeFor before.made before.head unit.slug unit.title))
  | ⟨_, .commitSubtask _ _ _ true, _⟩ | ⟨_, .register _, _⟩ | ⟨_, .commitInside _ _, _⟩
  | ⟨_, .setSubtaskCommit, _⟩ | ⟨_, .crash, _⟩ | ⟨_, .resume, _⟩ | ⟨_, .reset, _⟩ =>
      inferInstanceAs (Decidable True)

/-- The rows of the task are those of the split, and a subtask that is skipped as committed has a
commit that was made for one of its slug and title. -/
structure Faithful (taskId : String) (state : PlanState) (decision : DecompositionDecision) :
    Prop where
  rows : (state.database.getSubtasks taskId).map planned =
    decision.subtasks.map SubtaskSpec.planned
  skipped : ∀ unit ∈ decision.subtasks, unit.order ∈ committedOrders taskId state.database →
    ∃ row ∈ state.database.getSubtasks taskId, row.order = unit.order ∧
      ∃ sha, row.commitSha = some sha ∧ MadeFor state.made sha unit.slug unit.title

/-- What holds between the steps: each commit that a row or an operation carries was made for the
subtask of the row. -/
structure Honest (taskId : String) (state : PlanState) : Prop where
  distinct : DistinctOrders taskId state.database.subtasks
  committed : ∀ row ∈ state.database.subtasks, row.taskId = taskId → ∀ sha ∈ row.commitSha,
    MadeFor state.made sha row.slug row.title
  recorded : ∀ order, ∀ sha ∈ recordedCommit taskId state.database order,
    ∃ row ∈ state.database.subtasks, row.taskId = taskId ∧ row.order = order ∧
      MadeFor state.made sha row.slug row.title
  returned : ∀ unit sha, state.returned = some (unit, sha) →
    Settled taskId unit state.database.subtasks ∧ MadeFor state.made sha unit.slug unit.title
  reflects : ∀ decision ∈ state.decision, decision.accepted = true →
    Reflects taskId decision.subtasks state.database.subtasks

end PlanState

/-! ## Accepted splits -/

theorem linearFrom_ordered {specs : List SubtaskSpec} {index : Nat}
    (linear : linearFrom index specs = true) : (∀ spec ∈ specs, index ≤ spec.order) ∧
      specs.Pairwise fun first second => first.order < second.order := by
  induction specs generalizing index with
  | nil => exact ⟨fun _ among => absurd among List.not_mem_nil, .nil⟩
  | cons first rest ih =>
      rw [linearFrom, Bool.and_eq_true, Bool.and_eq_true, decide_eq_true_eq] at linear
      obtain ⟨⟨isIndex, -⟩, later⟩ := linear
      obtain ⟨above, ordered⟩ := ih later
      refine ⟨fun spec among => ?_, List.pairwise_cons.mpr ⟨fun spec among => ?_, ordered⟩⟩
      · rcases List.mem_cons.mp among with rfl | inRest
        · exact Nat.le_of_eq isIndex.symm
        · exact Nat.le_of_succ_le (above spec inRest)
      · rw [isIndex]
        exact above spec among

/-- The subtasks of a decision are in their order. -/
theorem decideFromSpecs_ordered (specs : List SubtaskSpec) (maxSubtasks : Nat) :
    (decideFromSpecs specs maxSubtasks).subtasks.Pairwise fun first second =>
      first.order < second.order := by
  rw [decideFromSpecs]
  split
  · exact .nil
  · split
    · next linear => exact (linearFrom_ordered linear).2
    · exact .nil

theorem decideOperatorDecomposition_ordered (specs : List SubtaskSpec) (maxSubtasks : Nat) :
    (decideOperatorDecomposition specs maxSubtasks).subtasks.Pairwise fun first second =>
      first.order < second.order := by
  rw [decideOperatorDecomposition]
  split
  · exact decideFromSpecs_ordered specs maxSubtasks
  · exact decideFromSpecs_ordered specs maxSubtasks

theorem decideDecomposition_ordered (proposal : Proposal) (gateOn : Bool) (maxSubtasks : Nat) :
    (decideDecomposition proposal gateOn maxSubtasks).subtasks.Pairwise fun first second =>
      first.order < second.order := by
  cases gateOn with
  | false => exact .nil
  | true =>
      cases proposal with
      | notRecommended => exact .nil
      | malformed => exact .nil
      | split specs => exact decideFromSpecs_ordered specs maxSubtasks

/-! ## Steps -/

theorem MadeFor.append {made more : List (String × SubtaskSpec)} {sha slug title : String}
    (madeFor : MadeFor made sha slug title) : MadeFor (made ++ more) sha slug title := by
  obtain ⟨entry, among, same⟩ := madeFor
  exact ⟨entry, List.mem_append_left _ among, same⟩

section Steps

variable {taskId : String} {state : PlanState} {decision : DecompositionDecision} {gateOn : Bool}

open PlanState

theorem honest_empty : Honest taskId {} := by
  refine ⟨List.nodup_nil, ?_, ?_, ?_, ?_⟩
  · exact fun _ among => absurd among List.not_mem_nil
  · exact fun _ _ recorded => absurd recorded (Option.not_mem_none _)
  · exact fun _ _ returned => absurd returned.symm (Option.some_ne_none _)
  · exact fun _ current => absurd current (Option.not_mem_none _)

/-- The state of the plan is honest by its rows, its operations and its memory. -/
theorem PlanState.Honest.congr {after : PlanState} (honest : Honest taskId state)
    (rows : after.database.subtasks = state.database.subtasks)
    (operations : after.database.publishOperations = state.database.publishOperations)
    (made : ∀ sha slug title, MadeFor state.made sha slug title → MadeFor after.made sha slug title)
    (returned : after.returned = state.returned ∨ after.returned = none)
    (reflects : ∀ decision ∈ after.decision, decision.accepted = true →
      Reflects taskId decision.subtasks state.database.subtasks) : Honest taskId after := by
  have recorded : recordedCommit taskId after.database =
      recordedCommit taskId state.database := by
    funext order
    rw [recordedCommit, recordedCommit, Database.getPublishOp, Database.getPublishOp, operations]
  refine ⟨?_, ?_, ?_, ?_, ?_⟩
  · rw [rows]
    exact honest.distinct
  · rw [rows]
    exact fun row listed task sha isSha => made _ _ _ (honest.committed row listed task sha isSha)
  · rw [recorded, rows]
    intro order sha isSha
    obtain ⟨row, listed, task, isOrder, madeFor⟩ := honest.recorded order sha isSha
    exact ⟨row, listed, task, isOrder, made _ _ _ madeFor⟩
  · rw [rows]
    rcases returned with same | none
    · rw [same]
      exact fun unit sha isReturned =>
        ⟨(honest.returned unit sha isReturned).1,
          made _ _ _ (honest.returned unit sha isReturned).2⟩
    · rw [none]
      exact fun _ _ returned => absurd returned.symm (Option.some_ne_none _)
  · rw [rows]
    exact reflects

/-- A decision that agrees with what is committed is persisted. -/
theorem honest_persist (honest : Honest taskId state)
    (ordered : decision.subtasks.Pairwise fun first second => first.order < second.order)
    (agrees : Accepts taskId state.database decision) :
    Honest taskId (state.persist taskId decision gateOn) := by
  by_cases accepted : decision.accepted = true
  · have agree := agrees accepted
    have reflects := (reflects_insertSubtasks_iff ordered).mpr ⟨agree.keeps, agree.covers⟩
    have inserted : (state.persist taskId decision gateOn).database.subtasks =
        (decision.subtasks.map (SubtaskSpec.row taskId)).foldl insertSubtask
          state.database.subtasks := by
      rw [PlanState.persist, persistDecomposition, if_pos accepted]
      rfl
    have operations : (state.persist taskId decision gateOn).database.publishOperations =
        state.database.publishOperations := by
      rw [PlanState.persist, persistDecomposition, if_pos accepted]
      rfl
    refine ⟨?_, ?_, ?_, ?_, ?_⟩
    · rw [inserted]
      exact honest.distinct.insertSubtasks _
    · rw [inserted]
      intro row among task sha isSha
      refine honest.committed row (mem_of_committed_insertSubtasks ?_ among ?_) task sha isSha
      · intro new listed
        obtain ⟨unit, -, rfl⟩ := List.mem_map.mp listed
        rfl
      · rw [Option.mem_def.mp isSha]
        exact Option.some_ne_none _
    · intro order sha isSha
      have before : sha ∈ recordedCommit taskId state.database order := by
        rw [recordedCommit, Database.getPublishOp, operations] at isSha
        exact isSha
      obtain ⟨row, listed, task, isOrder, madeFor⟩ := honest.recorded order sha before
      obtain ⟨unit, isUnit, sameOrder⟩ := agree.covers row listed task
      obtain ⟨slug, title⟩ := agree.recorded unit isUnit
        (by rw [sameOrder, isOrder, Option.mem_def.mp before]; exact Option.some_ne_none _)
        row listed task sameOrder.symm
      have settled := reflects.settled unit isUnit
      obtain ⟨kept, there, keptTask, keptOrder⟩ := settled.exists_row
      obtain ⟨keptSlug, keptTitle⟩ := settled.slug_title kept there keptTask keptOrder
      rw [inserted]
      refine ⟨kept, there, keptTask, keptOrder.trans (sameOrder.trans isOrder), ?_⟩
      rw [keptSlug, keptTitle, ← slug, ← title]
      exact madeFor
    · exact fun _ _ returned => absurd returned.symm (Option.some_ne_none _)
    · rw [inserted]
      intro other current _
      cases current
      exact reflects
  · refine honest.congr ?_ ?_ (fun _ _ _ => id) (.inr rfl) ?_
    · rw [PlanState.persist, persistDecomposition, if_neg accepted]
      rfl
    · rw [PlanState.persist, persistDecomposition, if_neg accepted]
      rfl
    · intro other current taken
      cases current
      exact absurd taken accepted

/-- A commit is returned for a subtask: one that was made for it. -/
theorem PlanState.Honest.commit {after : PlanState} {unit : SubtaskSpec} {sha : String}
    (honest : Honest taskId state) (settled : Settled taskId unit state.database.subtasks)
    (rows : after.database.subtasks = state.database.subtasks)
    (recorded : ∀ order, ∀ result ∈ recordedCommit taskId after.database order,
      (order = unit.order ∧ result = sha) ∨ result ∈ recordedCommit taskId state.database order)
    (made : ∀ sha slug title, MadeFor state.made sha slug title → MadeFor after.made sha slug title)
    (madeFor : MadeFor after.made sha unit.slug unit.title)
    (returned : after.returned = some (unit, sha)) (decision : after.decision = state.decision) :
    Honest taskId after := by
  refine ⟨?_, ?_, ?_, ?_, ?_⟩
  · rw [rows]
    exact honest.distinct
  · rw [rows]
    exact fun row listed task sha isSha => made _ _ _ (honest.committed row listed task sha isSha)
  · rw [rows]
    intro order result isResult
    rcases recorded order result isResult with ⟨rfl, rfl⟩ | earlier
    · obtain ⟨row, listed, task, isOrder⟩ := settled.exists_row
      obtain ⟨slug, title⟩ := settled.slug_title row listed task isOrder
      refine ⟨row, listed, task, isOrder, ?_⟩
      rw [slug, title]
      exact madeFor
    · obtain ⟨row, listed, task, isOrder, before⟩ := honest.recorded order result earlier
      exact ⟨row, listed, task, isOrder, made _ _ _ before⟩
  · rw [rows, returned]
    intro other result same
    cases same
    exact ⟨settled, madeFor⟩
  · rw [rows, decision]
    exact honest.reflects

/-- The subtask that runs is one of an accepted split, and settled. -/
theorem settled_of_running {unit : SubtaskSpec} (honest : Honest taskId state)
    (running : state.running taskId unit = true) :
    Settled taskId unit state.database.subtasks := by
  rw [PlanState.running, Bool.and_eq_true, Option.any_eq_true] at running
  obtain ⟨⟨decision, current, both⟩, -⟩ := running
  rw [Bool.and_eq_true, decide_eq_true_eq] at both
  exact (honest.reflects decision current both.1).settled unit both.2

/-- A subtask is committed, with a commit that was made for it. -/
theorem honest_commitSubtask {unit : SubtaskSpec} {sha fingerprint : String} {changed : Bool}
    (honest : Honest taskId state) (settled : Settled taskId unit state.database.subtasks)
    (own : changed = false → recordedCommit taskId state.database unit.order = none →
      MadeFor state.made state.head unit.slug unit.title) :
    Honest taskId (state.commitSubtask taskId unit sha fingerprint changed) := by
  have recordedOr {database : Database} {fingerprint : String} {result : Option String}
      (order : Nat) (recorded : String)
      (isRecorded : recorded ∈ recordedCommit taskId
        (database.recordPublishOp (commitOperation taskId unit fingerprint result)) order) :
      (order = unit.order ∧ some recorded = result) ∨
        recorded ∈ recordedCommit taskId database order := by
    by_cases same : unit.order = order
    · rw [← same, recordedCommit_self] at isRecorded
      exact .inl ⟨same.symm, isRecorded.symm⟩
    · rw [recordedCommit_of_ne same] at isRecorded
      exact .inr isRecorded
  rw [PlanState.commitSubtask]
  split
  · next recorded found =>
    obtain ⟨row, listed, task, isOrder, madeFor⟩ := honest.recorded unit.order recorded found
    obtain ⟨slug, title⟩ := settled.slug_title row listed task isOrder
    rw [slug, title] at madeFor
    exact honest.commit settled rfl (fun _ _ => .inr) (fun _ _ _ => id) madeFor rfl rfl
  · next none =>
    split
    · have madeFor : MadeFor (state.made ++ [(sha, unit)]) sha unit.slug unit.title :=
        ⟨(sha, unit), List.mem_append_right _ List.mem_cons_self, rfl, rfl, rfl⟩
      refine honest.commit settled rfl ?_ (fun _ _ _ => MadeFor.append) madeFor rfl rfl
      intro order result isResult
      rcases recordedOr order result isResult with ⟨same, is⟩ | earlier
      · exact .inl ⟨same, Option.some.inj is⟩
      · exact .inr earlier
    · next unchanged =>
      have madeFor := own (Bool.eq_false_iff.mpr unchanged) none
      have started (order : Nat) (result : String)
          (isResult : result ∈ recordedCommit taskId (state.database.recordPublishOp
            (commitOperation taskId unit fingerprint .none)) order) :
          result ∈ recordedCommit taskId state.database order := by
        rcases recordedOr order result isResult with ⟨-, is⟩ | earlier
        · exact absurd is (Option.some_ne_none _)
        · exact earlier
      dsimp only
      split
      · refine honest.commit settled rfl ?_ (fun _ _ _ => id) madeFor rfl rfl
        exact fun order result isResult => .inr (started order result isResult)
      · refine honest.commit settled rfl ?_ (fun _ _ _ => id) madeFor rfl rfl
        intro order result isResult
        rcases recordedOr order result isResult with ⟨same, is⟩ | earlier
        · exact .inl ⟨same, Option.some.inj is⟩
        · exact .inr (started order result earlier)

/-- The returned commit is recorded in the row of its subtask. -/
theorem honest_setSubtaskCommit {unit : SubtaskSpec} {sha status : String}
    (honest : Honest taskId state) (returned : state.returned = some (unit, sha)) :
    Honest taskId { state with
      database := state.database.setSubtaskCommit taskId unit.order sha status
      returned := none } := by
  obtain ⟨settled, madeFor⟩ := honest.returned unit sha returned
  have keeps (row : SubtaskRow) : ∀ changed : SubtaskRow,
      changed = (if row.taskId = taskId ∧ row.order = unit.order then
        { row with commitSha := some sha, status } else row) →
      (changed.taskId = row.taskId ∧ planned changed = planned row) := by
    rintro changed rfl
    split <;> exact ⟨rfl, rfl⟩
  refine ⟨?_, ?_, ?_, ?_, ?_⟩
  · exact (distinctOrders_map fun row =>
      ⟨(keeps row _ rfl).1, congrArg Prod.fst (keeps row _ rfl).2⟩).mpr honest.distinct
  · intro row among task result isResult
    obtain ⟨old, listed, rfl⟩ := List.mem_map.mp among
    split at isResult
    · next here =>
      cases isResult
      rw [if_pos here]
      obtain ⟨slug, title⟩ := settled.slug_title old listed here.1 here.2
      dsimp only
      rw [slug, title]
      exact madeFor
    · next elsewhere =>
      rw [if_neg elsewhere] at task ⊢
      exact honest.committed old listed task result isResult
  · intro order result isResult
    obtain ⟨row, listed, task, isOrder, before⟩ := honest.recorded order result isResult
    refine ⟨_, List.mem_map_of_mem listed, ?_, ?_, ?_⟩
    · exact (keeps row _ rfl).1.trans task
    · exact (congrArg Prod.fst (keeps row _ rfl).2).trans isOrder
    · split <;> exact before
  · exact fun _ _ none => absurd none.symm (Option.some_ne_none _)
  · intro decision current accepted
    exact (honest.reflects decision current accepted).map fun row => keeps row _ rfl

theorem honest_reset : Honest taskId { state with
    database := state.database.resetTaskForRerun taskId
    decision := none
    returned := none } := by
  have noRow : ∀ row ∈ (state.database.resetTaskForRerun taskId).subtasks,
      row.taskId ≠ taskId := fun row among => of_decide_eq_true (List.mem_filter.mp among).2
  have noOperation (order : Nat) :
      recordedCommit taskId (state.database.resetTaskForRerun taskId) order = none := by
    rw [recordedCommit, Database.getPublishOp, List.find?_eq_none.mpr]
    · rfl
    · intro operation among same
      have elsewhere := of_decide_eq_true (List.mem_filter.mp among).2
      simp only [Bool.and_eq_true, decide_eq_true_eq] at same
      exact elsewhere same.1.1
  refine ⟨?_, ?_, ?_, ?_, ?_⟩
  · rw [DistinctOrders, List.filter_eq_nil_iff.mpr fun row among => by simpa using noRow row among]
    exact List.nodup_nil
  · exact fun row among task => absurd task (noRow row among)
  · intro order sha isSha
    rw [noOperation] at isSha
    exact absurd isSha (Option.not_mem_none _)
  · exact fun _ _ none => absurd none.symm (Option.some_ne_none _)
  · exact fun _ current => absurd current (Option.not_mem_none _)

/-- Every permitted step keeps the commits with their subtasks. -/
theorem honest_step (transition : Transition PlanState PlanEvent)
    (moved : PlanState.step taskId transition.event transition.before = some transition.after)
    (permitted : Permitted taskId transition) (honest : Honest taskId transition.before) :
    Honest taskId transition.after := by
  obtain ⟨before, event, after⟩ := transition
  dsimp only at moved honest ⊢
  cases event with
  | register row =>
      cases moved
      exact honest.congr rfl rfl (fun _ _ _ => id) (.inl rfl) honest.reflects
  | plan proposal gateOn maxSubtasks =>
      cases moved
      exact honest_persist honest
        (decideDecomposition_ordered proposal gateOn maxSubtasks) permitted
  | operatorPlan specs gateOn maxSubtasks =>
      cases moved
      exact honest_persist honest (decideOperatorDecomposition_ordered specs maxSubtasks) permitted
  | commitInside unit sha =>
      rw [PlanState.step] at moved
      split at moved
      · cases moved
        exact honest.congr rfl rfl (fun _ _ _ => MadeFor.append) (.inl rfl) honest.reflects
      · cases moved
  | commitSubtask unit sha fingerprint changed =>
      rw [PlanState.step] at moved
      split at moved
      · next running =>
        cases moved
        refine honest_commitSubtask honest (settled_of_running honest running) ?_
        rintro rfl
        exact permitted
      · cases moved
  | setSubtaskCommit =>
      rw [PlanState.step] at moved
      split at moved
      · next unit sha returned =>
        cases moved
        exact honest_setSubtaskCommit honest returned
      · cases moved
  | crash =>
      cases moved
      exact honest.congr rfl rfl (fun _ _ _ => id) (.inr rfl) fun _ current =>
        absurd current (Option.not_mem_none _)
  | resume =>
      rw [PlanState.step] at moved
      split at moved
      · next row _ _ =>
        cases moved
        refine honest.congr rfl rfl (fun _ _ _ => id) (.inl rfl) fun decision current accepted => ?_
        cases current
        rw [rebuildDecomposition] at accepted ⊢
        split
        · exact reflects_rebuilt honest.distinct
        · next refused =>
          rw [if_neg refused] at accepted
          cases accepted
      · cases moved
  | reset =>
      cases moved
      exact honest_reset

/-- A decision in an honest state is faithful to the rows. -/
theorem PlanState.Honest.faithful (honest : Honest taskId state)
    (current : decision ∈ state.decision) (accepted : decision.accepted = true) :
    Faithful taskId state decision := by
  have reflects := honest.reflects decision current accepted
  refine ⟨reflects.map_planned honest.distinct, fun unit isUnit isCommitted => ?_⟩
  obtain ⟨row, kept, order⟩ := List.mem_map.mp isCommitted
  obtain ⟨among, carries⟩ := List.mem_filter.mp kept
  obtain ⟨listed, task⟩ := mem_rowsOf.mp among
  refine ⟨row, among, order, ?_⟩
  cases isSha : row.commitSha with
  | none =>
      rw [isSha] at carries
      exact absurd rfl (of_decide_eq_true carries)
  | some sha =>
      have madeFor := honest.committed row listed task sha isSha
      obtain ⟨slug, title⟩ := (reflects.settled unit isUnit).slug_title row listed task order
      rw [slug, title] at madeFor
      exact ⟨sha, rfl, madeFor⟩

end Steps

/-- In a run whose splits agree with what is committed, and whose subtasks take no commit of
another from `HEAD`, the rows are those of the current split in every state, and each subtask that
is skipped as committed has a commit that was made for it. -/
theorem faithful_of_permitted {taskId : String}
    {transitions : List (Transition PlanState PlanEvent)} {last : PlanState}
    (run : Run (PlanState.step taskId) {} transitions last)
    (permitted : ∀ transition ∈ transitions, PlanState.Permitted taskId transition)
    (decision : DecompositionDecision) :
    (∀ transition ∈ transitions, decision ∈ transition.before.decision →
      decision.accepted = true → PlanState.Faithful taskId transition.before decision) ∧
    (decision ∈ last.decision → decision.accepted = true →
      PlanState.Faithful taskId last decision) := by
  obtain ⟨before, here⟩ := run.invariant honest_empty honest_step permitted
  exact ⟨fun transition among current accepted =>
      (before transition among).faithful current accepted,
    fun current accepted => here.faithful current accepted⟩

/-! ## Two splits of one task -/

def subtask (order : Nat) (slug title : String) : SubtaskSpec := ⟨order, title, slug, [], [], none⟩

/-- Two subtasks, the first committed, and a second planning run, with other slugs and titles or
with the same. -/
def replanned (again : List SubtaskSpec) : List PlanEvent :=
  [.register { title := "Task", status := .new },
    .plan (.split [subtask 1 "parser" "Parser", subtask 2 "printer" "Printer"]) true 5,
    .commitSubtask (subtask 1 "parser" "Parser") "0a1b" "f1" true,
    .setSubtaskCommit,
    .crash,
    .resume,
    .plan (.split again) true 5]

/-- The same split is planned again: the first subtask is skipped, and its commit is its own. -/
theorem same_split_faithful :
    ∃ transitions last, Run (PlanState.step "task") {} transitions last ∧
      last.decision.any (fun decision => decision.subtasks.map SubtaskSpec.order = [1, 2]) = true ∧
        committedOrders "task" last.database = [1] ∧
          ∀ decision ∈ last.decision, decision.accepted = true →
            PlanState.Faithful "task" last decision := by
  have replays : (replay (PlanState.step "task") {}
      (replanned [subtask 1 "parser" "Parser", subtask 2 "printer" "Printer"])).any
        (fun replayed => replayed.1.all (fun transition => PlanState.Permitted "task" transition) &&
          (replayed.2.decision.any (fun decision =>
            decision.subtasks.map SubtaskSpec.order = [1, 2]) &&
              decide (committedOrders "task" replayed.2.database = [1]))) = true := by
    decide
  obtain ⟨⟨transitions, last⟩, replayed, all⟩ := (Option.any_eq_true _ _).mp replays
  rw [Bool.and_eq_true, Bool.and_eq_true] at all
  have run := run_of_replay replayed
  refine ⟨transitions, last, run, all.2.1, of_decide_eq_true all.2.2, fun decision => ?_⟩
  refine (faithful_of_permitted run (fun transition among => ?_) decision).2
  exact of_decide_eq_true (List.all_eq_true.mp all.1 transition among)

/-- Another split is planned: its first subtask is skipped for the commit of the earlier one. -/
theorem other_split_skipped :
    ∃ transitions last decision unit, Run (PlanState.step "task") {} transitions last ∧
      decision ∈ last.decision ∧ decision.accepted = true ∧ unit ∈ decision.subtasks ∧
        unit.order ∈ committedOrders "task" last.database ∧
          (∀ row ∈ last.database.getSubtasks "task", row.order = unit.order →
            ∀ sha ∈ row.commitSha, ¬ MadeFor last.made sha unit.slug unit.title) ∧
          (last.database.getSubtasks "task").map planned ≠
            decision.subtasks.map SubtaskSpec.planned := by
  have replays : (replay (PlanState.step "task") {}
      (replanned [subtask 1 "store" "Store", subtask 2 "index" "Index"])).any
        (fun replayed => replayed.2.decision.any fun decision =>
          decide (decision.accepted = true ∧
            subtask 1 "store" "Store" ∈ decision.subtasks ∧
            1 ∈ committedOrders "task" replayed.2.database ∧
            (∀ row ∈ replayed.2.database.getSubtasks "task", row.order = 1 →
              ∀ sha ∈ row.commitSha, ¬ MadeFor replayed.2.made sha "store" "Store") ∧
            (replayed.2.database.getSubtasks "task").map planned ≠
              decision.subtasks.map SubtaskSpec.planned)) = true := by
    decide
  obtain ⟨⟨transitions, last⟩, replayed, found⟩ := (Option.any_eq_true _ _).mp replays
  obtain ⟨decision, current, all⟩ := (Option.any_eq_true _ _).mp found
  exact ⟨transitions, last, decision, subtask 1 "store" "Store", run_of_replay replayed, current,
    of_decide_eq_true all⟩

end Orchestrator.Decomposition
