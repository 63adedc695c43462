import Orchestrator.Decomposition.Plan

/-! # The subtasks that are skipped as committed

The rows of the table are those of the current split, and the commit of a row was made for its
subtask, as long as no new split disagrees with what was committed under an earlier one.
-/

namespace Orchestrator.Decomposition

open Orchestrator.Store

/-! ## Rows after an insertion -/

section Insertion

/-- The rows that a row's key names. -/
def sameKey (row old : SubtaskRow) : Bool := old.taskId = row.taskId && old.order = row.order

theorem sameKey_iff {row old : SubtaskRow} :
    sameKey row old = true ↔ old.taskId = row.taskId ∧ old.order = row.order := by
  rw [sameKey, Bool.and_eq_true, decide_eq_true_eq, decide_eq_true_eq]

/-- A refreshed row keeps its key. -/
theorem refresh_key (row old : SubtaskRow) :
    (row.refresh old).taskId = old.taskId ∧ (row.refresh old).order = old.order := by
  rw [SubtaskRow.refresh]
  split <;> exact ⟨rfl, rfl⟩

/-- A row of the table after an insertion is an old one, refreshed if it has the key, or the new
one where no row had the key. -/
theorem mem_insertSubtask {rows : List SubtaskRow} {row other : SubtaskRow} :
    other ∈ insertSubtask rows row ↔
      (∃ old ∈ rows, other = if sameKey row old then row.refresh old else old) ∨
        (other = row ∧ ∀ old ∈ rows, sameKey row old = false) := by
  rw [insertSubtask, upsert]
  change other ∈ (if rows.any (sameKey row) then
    rows.map fun old => if sameKey row old then row.refresh old else old else rows ++ [row]) ↔ _
  split
  · next taken =>
    obtain ⟨old, listed, same⟩ := List.any_eq_true.mp taken
    rw [List.mem_map]
    constructor
    · rintro ⟨old, listed, rfl⟩
      exact .inl ⟨old, listed, rfl⟩
    · rintro (⟨old, listed, rfl⟩ | ⟨-, free⟩)
      · exact ⟨old, listed, rfl⟩
      · rw [free old listed] at same
        cases same
  · next free =>
    have unlike : ∀ old ∈ rows, sameKey row old = false := by
      intro old listed
      exact Bool.eq_false_iff.mpr fun same => free (List.any_eq_true.mpr ⟨old, listed, same⟩)
    rw [List.mem_append, List.mem_singleton]
    constructor
    · rintro (listed | rfl)
      · refine .inl ⟨other, listed, ?_⟩
        rw [unlike other listed]
        rfl
      · exact .inr ⟨rfl, unlike⟩
    · rintro (⟨old, listed, rfl⟩ | ⟨rfl, -⟩)
      · left
        rw [unlike old listed]
        exact listed
      · exact .inr rfl

end Insertion

/-! ## The rows of a split -/

/-- What a split says of a subtask. -/
abbrev Planned := Nat × String × String × List Nat

def SubtaskSpec.planned (spec : SubtaskSpec) : Planned :=
  (spec.order, spec.slug, spec.title, spec.dependsOn)

def planned (row : SubtaskRow) : Planned := (row.order, row.slug, row.title, row.dependsOn)

section Rows

variable {taskId : String} {rows : List SubtaskRow} {unit other : SubtaskSpec}

/-- The table has a row for a subtask, and no other row in its place. -/
structure Settled (taskId : String) (unit : SubtaskSpec) (rows : List SubtaskRow) : Prop where
  exists_row : ∃ row ∈ rows, row.taskId = taskId ∧ row.order = unit.order
  planned_eq : ∀ row ∈ rows, row.taskId = taskId → row.order = unit.order →
    planned row = unit.planned

theorem Settled.slug_title (settled : Settled taskId unit rows) (row : SubtaskRow)
    (listed : row ∈ rows) (task : row.taskId = taskId) (order : row.order = unit.order) :
    row.slug = unit.slug ∧ row.title = unit.title := by
  have same := settled.planned_eq row listed task order
  exact ⟨congrArg (fun plan : Planned => plan.2.1) same,
    congrArg (fun plan : Planned => plan.2.2.1) same⟩

/-- A committed row at the place of a subtask is the subtask's. -/
def KeepsCommitted (taskId : String) (rows : List SubtaskRow) (unit : SubtaskSpec) : Prop :=
  ∀ row ∈ rows, row.taskId = taskId → row.order = unit.order → row.commitSha ≠ none →
    planned row = unit.planned

/-- A row that an insertion leaves with a commit was there. -/
theorem mem_of_committed {row kept : SubtaskRow} (pending : row.commitSha = none)
    (among : kept ∈ insertSubtask rows row) (committed : kept.commitSha ≠ none) : kept ∈ rows := by
  rcases mem_insertSubtask.mp among with ⟨old, listed, rfl⟩ | ⟨rfl, -⟩
  · by_cases same : sameKey row old = true
    · rw [if_pos same] at committed ⊢
      rw [SubtaskRow.refresh] at committed ⊢
      split at committed
      · next none => exact absurd none committed
      · next some =>
        rw [if_neg some]
        exact listed
    · rw [if_neg same]
      exact listed
  · exact absurd pending committed

/-- A row of the table after an insertion has the key of an old one, or of the new one. -/
theorem key_cases {row kept : SubtaskRow} (among : kept ∈ insertSubtask rows row) :
    (∃ old ∈ rows, old.taskId = kept.taskId ∧ old.order = kept.order) ∨
      (kept.taskId = row.taskId ∧ kept.order = row.order) := by
  rcases mem_insertSubtask.mp among with ⟨old, listed, rfl⟩ | ⟨rfl, -⟩
  · left
    refine ⟨old, listed, ?_⟩
    split
    · exact ⟨(refresh_key row old).1.symm, (refresh_key row old).2.symm⟩
    · exact ⟨rfl, rfl⟩
  · exact .inr ⟨rfl, rfl⟩

theorem settled_insertSubtask (keeps : KeepsCommitted taskId rows unit) :
    Settled taskId unit (insertSubtask rows (unit.row taskId)) := by
  constructor
  · by_cases taken : ∃ old ∈ rows, sameKey (unit.row taskId) old = true
    · obtain ⟨old, listed, same⟩ := taken
      obtain ⟨task, order⟩ := sameKey_iff.mp same
      refine ⟨_, mem_insertSubtask.mpr (.inl ⟨old, listed, rfl⟩), ?_⟩
      rw [if_pos same, (refresh_key _ old).1, (refresh_key _ old).2]
      exact ⟨task, order⟩
    · refine ⟨_, mem_insertSubtask.mpr (.inr ⟨rfl, fun old listed => ?_⟩), rfl, rfl⟩
      exact Bool.eq_false_iff.mpr fun same => taken ⟨old, listed, same⟩
  · intro row among task order
    rcases mem_insertSubtask.mp among with ⟨old, listed, rfl⟩ | ⟨rfl, -⟩
    · by_cases same : sameKey (unit.row taskId) old = true
      · obtain ⟨oldTask, oldOrder⟩ := sameKey_iff.mp same
        rw [if_pos same, SubtaskRow.refresh]
        split
        · rw [planned, SubtaskSpec.planned]
          dsimp only
          rw [oldOrder]
          rfl
        · next committed => exact keeps old listed oldTask oldOrder committed
      · rw [if_neg same] at task order
        exact absurd (sameKey_iff.mpr ⟨task, order⟩) same
    · rfl

/-- The insertion of another subtask leaves the rows in the place of a subtask. -/
theorem mem_insertSubtask_of_ne (elsewhere : other.order ≠ unit.order) {row : SubtaskRow}
    (order : row.order = unit.order) :
    row ∈ insertSubtask rows (other.row taskId) ↔ row ∈ rows := by
  rw [mem_insertSubtask]
  constructor
  · rintro (⟨old, listed, rfl⟩ | ⟨rfl, -⟩)
    · by_cases same : sameKey (other.row taskId) old = true
      · rw [if_pos same, (refresh_key _ old).2, (sameKey_iff.mp same).2] at order
        exact absurd order elsewhere
      · rw [if_neg same]
        exact listed
    · exact absurd order elsewhere
  · intro listed
    refine .inl ⟨row, listed, ?_⟩
    rw [if_neg fun same => elsewhere ((sameKey_iff.mp same).2.symm.trans order)]

theorem Settled.insertSubtask (settled : Settled taskId unit rows)
    (elsewhere : other.order ≠ unit.order) :
    Settled taskId unit (insertSubtask rows (other.row taskId)) := by
  obtain ⟨row, listed, task, order⟩ := settled.exists_row
  refine ⟨⟨row, (mem_insertSubtask_of_ne elsewhere order).mpr listed, task, order⟩, ?_⟩
  intro row among task order
  exact settled.planned_eq row ((mem_insertSubtask_of_ne elsewhere order).mp among) task order

theorem Settled.insertSubtasks {units : List SubtaskSpec} (settled : Settled taskId unit rows)
    (elsewhere : ∀ other ∈ units, other.order ≠ unit.order) :
    Settled taskId unit
      ((units.map (SubtaskSpec.row taskId)).foldl Store.insertSubtask rows) := by
  induction units generalizing rows with
  | nil => exact settled
  | cons next units ih =>
      exact ih (settled.insertSubtask (elsewhere next List.mem_cons_self)) fun other among =>
        elsewhere other (List.mem_cons_of_mem _ among)

/-- Every subtask of a split with distinct orders is settled by its insertion. -/
theorem settled_insertSubtasks {units : List SubtaskSpec}
    (distinct : (units.map SubtaskSpec.order).Nodup)
    (keeps : ∀ unit ∈ units, KeepsCommitted taskId rows unit) :
    ∀ unit ∈ units, Settled taskId unit
      ((units.map (SubtaskSpec.row taskId)).foldl insertSubtask rows) := by
  induction units generalizing rows with
  | nil => exact fun _ among => absurd among List.not_mem_nil
  | cons first units ih =>
      rw [List.map_cons, List.nodup_cons] at distinct
      have elsewhere : ∀ unit ∈ units, first.order ≠ unit.order := fun unit among same =>
        distinct.1 (same ▸ List.mem_map_of_mem among)
      have later : ∀ unit ∈ units,
          KeepsCommitted taskId (insertSubtask rows (first.row taskId)) unit := by
        intro unit among row listed task order committed
        exact keeps unit (List.mem_cons_of_mem _ among) row
          (mem_of_committed rfl listed committed) task order committed
      intro unit among
      rw [List.map_cons, List.foldl_cons]
      rcases List.mem_cons.mp among with rfl | rest
      · have first := settled_insertSubtask (keeps unit List.mem_cons_self)
        exact first.insertSubtasks fun other listed =>
          Ne.symm (elsewhere other listed)
      · exact ih distinct.2 later unit rest

theorem key_cases_insertSubtasks {new : List SubtaskRow} {kept : SubtaskRow}
    (among : kept ∈ new.foldl insertSubtask rows) :
    (∃ old ∈ rows, old.taskId = kept.taskId ∧ old.order = kept.order) ∨
      ∃ row ∈ new, kept.taskId = row.taskId ∧ kept.order = row.order := by
  induction new generalizing rows with
  | nil => exact .inl ⟨kept, among, rfl, rfl⟩
  | cons row new ih =>
      rw [List.foldl_cons] at among
      rcases ih among with ⟨old, listed, task, order⟩ | ⟨later, listed, same⟩
      · rcases key_cases listed with ⟨first, isFirst, task', order'⟩ | ⟨task', order'⟩
        · exact .inl ⟨first, isFirst, task'.trans task, order'.trans order⟩
        · exact .inr ⟨row, List.mem_cons_self, task.symm.trans task', order.symm.trans order'⟩
      · exact .inr ⟨later, List.mem_cons_of_mem _ listed, same⟩

theorem mem_of_committed_insertSubtasks {new : List SubtaskRow} {kept : SubtaskRow}
    (pending : ∀ row ∈ new, row.commitSha = none) (among : kept ∈ new.foldl insertSubtask rows)
    (committed : kept.commitSha ≠ none) : kept ∈ rows := by
  induction new generalizing rows with
  | nil => exact among
  | cons row new ih =>
      rw [List.foldl_cons] at among
      exact mem_of_committed (pending row List.mem_cons_self)
        (ih (fun row listed => pending row (List.mem_cons_of_mem _ listed)) among) committed

/-- A row with a commit stays as it is. -/
theorem mem_insertSubtasks_of_committed {new : List SubtaskRow} {kept : SubtaskRow}
    (listed : kept ∈ rows) (committed : kept.commitSha ≠ none) :
    kept ∈ new.foldl insertSubtask rows := by
  induction new generalizing rows with
  | nil => exact listed
  | cons row new ih =>
      refine ih (mem_insertSubtask.mpr (.inl ⟨kept, listed, ?_⟩))
      rw [SubtaskRow.refresh, if_neg committed, ite_self]

/-- Every row leaves one with its key. -/
theorem exists_key_insertSubtasks (new : List SubtaskRow) {old : SubtaskRow}
    (listed : old ∈ rows) : ∃ kept ∈ new.foldl insertSubtask rows,
      kept.taskId = old.taskId ∧ kept.order = old.order := by
  induction new generalizing rows old with
  | nil => exact ⟨old, listed, rfl, rfl⟩
  | cons row new ih =>
      obtain ⟨kept, among, task, order⟩ := ih (mem_insertSubtask.mpr (.inl ⟨old, listed, rfl⟩))
      refine ⟨kept, among, ?_⟩
      split at task
      · rw [if_pos ‹_›] at order
        exact ⟨task.trans (refresh_key row old).1, order.trans (refresh_key row old).2⟩
      · rw [if_neg ‹_›] at order
        exact ⟨task, order⟩

/-! ## Distinct orders -/

/-- The rows of one task have distinct orders. -/
def DistinctOrders (taskId : String) (rows : List SubtaskRow) : Prop :=
  ((rows.filter fun row => row.taskId = taskId).map SubtaskRow.order).Nodup

theorem DistinctOrders.eq_of_order (distinct : DistinctOrders taskId rows)
    {first second : SubtaskRow} (isFirst : first ∈ rows) (isSecond : second ∈ rows)
    (firstTask : first.taskId = taskId) (secondTask : second.taskId = taskId)
    (same : first.order = second.order) : first = second :=
  List.inj_on_of_nodup_map distinct
    (List.mem_filter.mpr ⟨isFirst, decide_eq_true firstTask⟩)
    (List.mem_filter.mpr ⟨isSecond, decide_eq_true secondTask⟩) same

/-- A change of rows that keeps their keys keeps the orders distinct. -/
theorem distinctOrders_map {change : SubtaskRow → SubtaskRow}
    (keeps : ∀ row, (change row).taskId = row.taskId ∧ (change row).order = row.order) :
    DistinctOrders taskId (rows.map change) ↔ DistinctOrders taskId rows := by
  have same : ((rows.map change).filter fun row => row.taskId = taskId).map SubtaskRow.order =
      (rows.filter fun row => row.taskId = taskId).map SubtaskRow.order := by
    rw [List.filter_map, List.map_map]
    have tests : ((fun row : SubtaskRow => decide (row.taskId = taskId)) ∘ change) =
        fun row => decide (row.taskId = taskId) :=
      funext fun row => by rw [Function.comp_apply, (keeps row).1]
    rw [tests]
    exact List.map_congr_left fun row _ => (keeps row).2
  rw [DistinctOrders, DistinctOrders, same]

theorem DistinctOrders.insertSubtask (distinct : DistinctOrders taskId rows) (row : SubtaskRow) :
    DistinctOrders taskId (insertSubtask rows row) := by
  rw [Store.insertSubtask, upsert]
  split
  · refine (distinctOrders_map fun old => ?_).mpr distinct
    split
    · exact refresh_key row old
    · exact ⟨rfl, rfl⟩
  · next free =>
    rw [DistinctOrders, List.filter_append, List.map_append]
    refine List.nodup_append.mpr ⟨distinct, ?_, ?_⟩
    · exact ((List.nodup_singleton row).filter _).map_on fun _ first _ second _ => by
        rw [List.mem_singleton.mp (List.mem_filter.mp first).1,
          List.mem_singleton.mp (List.mem_filter.mp second).1]
    · rintro order old _ new rfl
      obtain ⟨kept, listed, isOrder⟩ := List.mem_map.mp old
      obtain ⟨fresh, added, isFresh⟩ := List.mem_map.mp new
      obtain ⟨isRow, task⟩ := List.mem_filter.mp added
      rw [List.mem_singleton.mp isRow] at isFresh task
      obtain ⟨among, ofTask⟩ := List.mem_filter.mp listed
      refine free (List.any_eq_true.mpr ⟨kept, among, ?_⟩)
      exact sameKey_iff.mpr ⟨(of_decide_eq_true ofTask).trans (of_decide_eq_true task).symm,
        isOrder.trans isFresh.symm⟩

theorem DistinctOrders.insertSubtasks (distinct : DistinctOrders taskId rows)
    (new : List SubtaskRow) : DistinctOrders taskId (new.foldl Store.insertSubtask rows) := by
  induction new generalizing rows with
  | nil => exact distinct
  | cons row new ih => exact ih (distinct.insertSubtask row)

end Rows

/-! ## The rows of a split, as a whole -/

/-- The rows of a task are those of a split. -/
structure Reflects (taskId : String) (units : List SubtaskSpec) (rows : List SubtaskRow) :
    Prop where
  ordered : units.Pairwise fun first second => first.order < second.order
  settled : ∀ unit ∈ units, Settled taskId unit rows
  covers : ∀ row ∈ rows, row.taskId = taskId → ∃ unit ∈ units, unit.order = row.order

section Split

variable {taskId : String} {rows : List SubtaskRow} {units : List SubtaskSpec}

/-- The rows that are read of a task, in their order. -/
def rowsOf (taskId : String) (rows : List SubtaskRow) : List SubtaskRow :=
  (rows.filter fun row => row.taskId = taskId).insertionSort fun first second =>
    first.order ≤ second.order

theorem mem_rowsOf {row : SubtaskRow} : row ∈ rowsOf taskId rows ↔
    row ∈ rows ∧ row.taskId = taskId := by
  rw [rowsOf, List.mem_insertionSort, List.mem_filter, decide_eq_true_eq]

theorem nodup_orders (ordered : units.Pairwise fun first second => first.order < second.order) :
    (units.map SubtaskSpec.order).Nodup :=
  List.pairwise_map.mpr (ordered.imp Nat.ne_of_lt)

/-- The orders of the rows of a task go up. -/
theorem DistinctOrders.pairwise (distinct : DistinctOrders taskId rows) :
    (rowsOf taskId rows).Pairwise fun first second => first.order < second.order := by
  have perm := List.perm_insertionSort
    (fun first second : SubtaskRow => first.order ≤ second.order)
    (rows.filter fun row => row.taskId = taskId)
  have nodup : ((rowsOf taskId rows).map SubtaskRow.order).Nodup :=
    (perm.map SubtaskRow.order).nodup_iff.mpr distinct
  have total : Std.Total fun first second : SubtaskRow => first.order ≤ second.order :=
    ⟨fun first second => Nat.le_total first.order second.order⟩
  have trans : IsTrans SubtaskRow fun first second => first.order ≤ second.order :=
    ⟨fun _ _ _ => Nat.le_trans⟩
  have sorted : (rowsOf taskId rows).Pairwise fun first second => first.order ≤ second.order :=
    List.pairwise_insertionSort _ _
  exact (sorted.and (List.pairwise_map.mp nodup)).imp fun both =>
    Nat.lt_of_le_of_ne both.1 both.2

/-- The rows that are read are the split's subtasks, one after another. -/
theorem Reflects.map_planned (reflects : Reflects taskId units rows)
    (distinct : DistinctOrders taskId rows) :
    (rowsOf taskId rows).map planned = units.map SubtaskSpec.planned := by
  have asymm : Std.Antisymm fun first second : Planned => first.1 < second.1 :=
    ⟨fun _ _ below above => absurd below (Nat.lt_asymm above)⟩
  have irrefl : Std.Irrefl fun first second : Planned => first.1 < second.1 :=
    ⟨fun _ => Nat.lt_irrefl _⟩
  have rowsSorted : ((rowsOf taskId rows).map planned).Pairwise fun first second =>
      first.1 < second.1 := List.pairwise_map.mpr distinct.pairwise
  have unitsSorted : (units.map SubtaskSpec.planned).Pairwise fun first second =>
      first.1 < second.1 := List.pairwise_map.mpr reflects.ordered
  refine rowsSorted.eq_of_mem_iff unitsSorted fun what => ?_
  rw [List.mem_map, List.mem_map]
  constructor
  · rintro ⟨row, among, rfl⟩
    obtain ⟨listed, task⟩ := mem_rowsOf.mp among
    obtain ⟨unit, isUnit, order⟩ := reflects.covers row listed task
    exact ⟨unit, isUnit,
      ((reflects.settled unit isUnit).planned_eq row listed task order.symm).symm⟩
  · rintro ⟨unit, isUnit, rfl⟩
    obtain ⟨row, listed, task, order⟩ := (reflects.settled unit isUnit).exists_row
    exact ⟨row, mem_rowsOf.mpr ⟨listed, task⟩,
      (reflects.settled unit isUnit).planned_eq row listed task order⟩

/-- The rows after the insertion of a split are the split's exactly when it has a subtask for every
row and says of the rows with a commit what these say. -/
theorem reflects_insertSubtasks_iff
    (ordered : units.Pairwise fun first second => first.order < second.order) :
    Reflects taskId units ((units.map (SubtaskSpec.row taskId)).foldl insertSubtask rows) ↔
      (∀ unit ∈ units, KeepsCommitted taskId rows unit) ∧
        ∀ row ∈ rows, row.taskId = taskId → ∃ unit ∈ units, unit.order = row.order := by
  constructor
  · intro reflects
    refine ⟨fun unit isUnit row listed task order committed => ?_, fun row listed task => ?_⟩
    · exact (reflects.settled unit isUnit).planned_eq row
        (mem_insertSubtasks_of_committed listed committed) task order
    · obtain ⟨kept, among, keptTask, keptOrder⟩ :=
        exists_key_insertSubtasks (units.map (SubtaskSpec.row taskId)) listed
      rw [← keptOrder]
      exact reflects.covers kept among (keptTask.trans task)
  · rintro ⟨keeps, covers⟩
    refine ⟨ordered, settled_insertSubtasks (nodup_orders ordered) keeps, ?_⟩
    intro row among task
    rcases key_cases_insertSubtasks among with ⟨old, listed, oldTask, oldOrder⟩ |
      ⟨new, listed, same⟩
    · rw [← oldOrder]
      exact covers old listed (oldTask.trans task)
    · obtain ⟨unit, isUnit, rfl⟩ := List.mem_map.mp listed
      exact ⟨unit, isUnit, same.2.symm⟩

/-- A change of rows that keeps what a split says of them. -/
theorem Reflects.map {change : SubtaskRow → SubtaskRow} (reflects : Reflects taskId units rows)
    (keeps : ∀ row, (change row).taskId = row.taskId ∧ planned (change row) = planned row) :
    Reflects taskId units (rows.map change) := by
  have order (row : SubtaskRow) : (change row).order = row.order := congrArg Prod.fst (keeps row).2
  refine ⟨reflects.ordered, fun unit isUnit => ⟨?_, ?_⟩, ?_⟩
  · obtain ⟨row, listed, task, isOrder⟩ := (reflects.settled unit isUnit).exists_row
    exact ⟨change row, List.mem_map_of_mem listed, (keeps row).1.trans task,
      (order row).trans isOrder⟩
  · intro row among task isOrder
    obtain ⟨old, listed, rfl⟩ := List.mem_map.mp among
    rw [(keeps old).2]
    exact (reflects.settled unit isUnit).planned_eq old listed ((keeps old).1.symm.trans task)
      ((order old).symm.trans isOrder)
  · intro row among task
    obtain ⟨old, listed, rfl⟩ := List.mem_map.mp among
    rw [order old]
    exact reflects.covers old listed ((keeps old).1.symm.trans task)

/-- The split that is rebuilt of the rows is theirs. -/
theorem reflects_rebuilt (distinct : DistinctOrders taskId rows) :
    Reflects taskId ((rowsOf taskId rows).map specOf) rows := by
  refine ⟨List.pairwise_map.mpr distinct.pairwise, ?_, ?_⟩
  · intro unit isUnit
    obtain ⟨row, among, rfl⟩ := List.mem_map.mp isUnit
    obtain ⟨listed, task⟩ := mem_rowsOf.mp among
    refine ⟨⟨row, listed, task, rfl⟩, fun other otherListed otherTask order => ?_⟩
    rw [distinct.eq_of_order otherListed listed otherTask task order]
    rfl
  · intro row listed task
    exact ⟨specOf row, List.mem_map_of_mem (mem_rowsOf.mpr ⟨listed, task⟩), rfl⟩

end Split

/-! ## Recorded commits -/

variable {taskId : String} {database : Database} {unit : SubtaskSpec} {fingerprint : String}
  {result : Option String}

/-- The recorded commit of a subtask after its operation was recorded: the operation's. -/
theorem recordedCommit_self : recordedCommit taskId
    (database.recordPublishOp (commitOperation taskId unit fingerprint result)) unit.order =
      result := by
  have found := @getPublishOp_self database (commitOperation taskId unit fingerprint result)
  rw [recordedCommit]
  refine (congrArg (Option.bind · _) found).trans ?_
  rw [Option.bind_some]
  cases database.getPublishOp _ _ _ with
  | none => cases result <;> rfl
  | some old => cases result <;> rfl

/-- The recorded commits of the other subtasks stay. -/
theorem recordedCommit_of_ne {order : Nat} (elsewhere : unit.order ≠ order) : recordedCommit taskId
    (database.recordPublishOp (commitOperation taskId unit fingerprint result)) order =
      recordedCommit taskId database order := by
  have same := @getPublishOp_of_ne database (commitOperation taskId unit fingerprint result)
    (commitOperation taskId { unit with order } fingerprint result)
    (Bool.eq_false_iff.mpr fun same => elsewhere (Option.some.inj (sameOp_iff.mp same).2.2))
  exact congrArg (Option.bind · _) same

end Orchestrator.Decomposition
