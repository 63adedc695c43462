import Orchestrator.Foundation.Transitions
import Orchestrator.ProcessControl.ProcessTable

/-! # What a proof of quiescence shows

When the proof returns, the group is empty and nothing tracked lives. What still lives escaped, and
escaped unseen: between two snapshot attempts, unless a listing failed or a process that had lost
its parents forked or left the group.
-/

namespace Orchestrator.ProcessControl

open Orchestrator.Foundation
open Relation (ReflTransGen)

namespace ProcessTable

variable {table other : ProcessTable} {root pid : Nat}

/-! ## Chains of parents -/

theorem step_iff {parent child : Nat} : table.childGraph.Step parent child ↔
    ∃ row ∈ table, row.pid = child ∧ row.ppid = parent := by
  rw [SuccessorGraph.Step]
  change child ∈ (table.filter fun row => row.ppid = parent).map ProcessRow.pid ↔ _
  simp only [List.mem_map, List.mem_filter, decide_eq_true_eq]
  exact exists_congr fun row => by tauto

/-- A process is linked when a chain of parents leads to it from the root. -/
theorem isLinked_iff : table.isLinked root pid = true ↔ table.childGraph.Reaches root pid := by
  rw [isLinked, Bool.or_eq_true, decide_eq_true_eq, decide_eq_true_eq, posixDescendants,
    List.mem_filter, SuccessorGraph.mem_reachableFrom_iff, decide_eq_true_eq]
  constructor
  · rintro (rfl | ⟨⟨child, isChild, reaches⟩, -⟩)
    · exact .refl
    · exact .head (List.mem_reverse.mp isChild) reaches
  · intro reaches
    by_cases same : pid = root
    · exact .inl same
    · rcases ReflTransGen.cases_head reaches with rfl | ⟨child, isChild, below⟩
      · exact absurd rfl same
      · exact .inr ⟨⟨child, List.mem_reverse.mpr isChild, below⟩, same⟩

/-- Tables with the same links. -/
theorem isLinked_mono (links : ∀ parent child, table.childGraph.Step parent child →
    other.childGraph.Step parent child) (linked : table.isLinked root pid = true) :
    other.isLinked root pid = true :=
  isLinked_iff.mpr (ReflTransGen.mono (fun parent child => links parent child) _ _
    (isLinked_iff.mp linked))

/-- Changes that keep numbers and parents keep the links. -/
theorem isLinked_map {change : ProcessRow → ProcessRow}
    (keeps : ∀ row, (change row).pid = row.pid ∧ (change row).ppid = row.ppid) :
    isLinked (table.map change) root pid = table.isLinked root pid := by
  rw [Bool.eq_iff_iff]
  constructor
  · apply isLinked_mono
    intro parent child link
    obtain ⟨row, among, isChild, isParent⟩ := step_iff.mp link
    obtain ⟨old, listed, rfl⟩ := List.mem_map.mp among
    exact step_iff.mpr ⟨old, listed, (keeps old).1 ▸ isChild, (keeps old).2 ▸ isParent⟩
  · apply isLinked_mono
    intro parent child link
    obtain ⟨row, among, isChild, isParent⟩ := step_iff.mp link
    exact step_iff.mpr ⟨change row, List.mem_map_of_mem among, (keeps row).1.trans isChild,
      (keeps row).2.trans isParent⟩

/-- What is linked after a process exited was linked before. -/
theorem isLinked_of_exit (rootInit : root ≠ initPid) (noInit : ∀ row ∈ table, row.pid ≠ initPid)
    {gone : Nat} (linked : isLinked (table.exit gone) root pid = true) :
    table.isLinked root pid = true := by
  rw [isLinked_iff] at linked ⊢
  induction linked with
  | refl => exact .refl
  | tail reaches link ih =>
      obtain ⟨row, among, isChild, isParent⟩ := step_iff.mp link
      obtain ⟨old, kept, rfl⟩ := List.mem_map.mp among
      have listed := (List.mem_filter.mp kept).1
      refine .tail ih (step_iff.mpr ?_)
      split at isChild
      · next orphaned =>
        rw [if_pos orphaned] at isParent
        -- The chain would lead through init.
        rw [← isParent] at ih
        rcases ReflTransGen.cases_tail ih with same | ⟨parent, -, toInit⟩
        · exact absurd same.symm rootInit
        · obtain ⟨init, isListed, isInit, -⟩ := step_iff.mp toInit
          exact absurd isInit (noInit init isListed)
      · next kept =>
        rw [if_neg kept] at isParent
        exact ⟨old, listed, isChild, isParent⟩

/-- A new process is linked when its parent is, and the others as before. -/
theorem isLinked_of_fork {parent : ProcessRow} {child : Nat} (below : parent.pid < child)
    (parents : ∀ row ∈ table, row.ppid < child)
    (linked : isLinked (table ++ [table.forkedBy root parent child]) root pid = true) :
    pid = child ∧ table.isLinked root parent.pid = true ∨ table.isLinked root pid = true := by
  simp only [isLinked_iff] at linked ⊢
  induction linked with
  | refl => exact .inr .refl
  | tail reaches link ih =>
      obtain ⟨row, among, isChild, isParent⟩ := step_iff.mp link
      rcases List.mem_append.mp among with old | new
      · right
        rcases ih with ⟨isNew, -⟩ | before
        · have small := parents row old
          rw [isParent, isNew] at small
          exact absurd small (Nat.lt_irrefl _)
        · exact .tail before (step_iff.mpr ⟨row, old, isChild, isParent⟩)
      · left
        rw [List.mem_singleton.mp new] at isChild isParent
        refine ⟨isChild.symm, ?_⟩
        rcases ih with ⟨isNew, -⟩ | before
        · have small := below
          rw [show parent.pid = _ from isParent, isNew] at small
          exact absurd small (Nat.lt_irrefl _)
        · rw [show parent.pid = _ from isParent]
          exact before

theorem isLinked_fork_of {row : ProcessRow} (linked : table.isLinked root pid = true) :
    isLinked (table ++ [row]) root pid = true := by
  refine isLinked_mono (fun parent child link => ?_) linked
  obtain ⟨old, among, isChild, isParent⟩ := step_iff.mp link
  exact step_iff.mpr ⟨old, List.mem_append_left _ among, isChild, isParent⟩

end ProcessTable

/-! ## What a run keeps -/

open ProcessTable

/-- The processes as the containment needs them: numbered below the next number, with the root, if
it lives, at the head of its group and above all that is linked. -/
structure Tabled (root : Nat) (table : ProcessTable) (nextPid : Nat) : Prop where
  rootInit : root ≠ initPid
  noInit : ∀ row ∈ table, row.pid ≠ initPid
  below : ∀ row ∈ table, row.pid < nextPid ∧ row.ppid < nextPid
  initBelow : initPid < nextPid
  rootBelow : root < nextPid
  alive : ∀ row ∈ table, row.ppid = root → root ∈ table.pids
  leads : ∀ row ∈ table, row.pid = root → row.pgid = root

/-- How the gaps go with what is tracked. -/
structure Watched (root : Nat) (table : ProcessTable) (tracked : List Nat) : Prop where
  linked : ∀ row ∈ table, table.isLinked root row.pid = true → row.wasLinked = true
  attached : ∀ row ∈ table, row.pgid = root → row.attached = true
  detached : ∀ row ∈ table, row.descends = true → row.pgid ≠ root →
    table.isLinked root row.pid = true → row.pid ∈ tracked ∨ row.attached = true
  escaped : ∀ row ∈ table, row.descends = true → table.Escaped root row →
    row.pid ∈ tracked ∨ row.attached = true ∧ row.wasLinked = true

/-- What is known of the processes tracked when a stage is reached. -/
def StageSound (table : ProcessTable) (tracked : List Nat) : ContainmentStage → Prop
  | .probing left alive => ∀ pid ∈ tracked, pid ∈ left ∨ pid ∈ alive ∨ pid ∉ table.pids
  | .checked survivors => ∀ pid ∈ tracked, pid ∈ survivors ∨ pid ∉ table.pids
  | _ => True

structure Containment.Sound (root : Nat) (state : Containment) : Prop where
  tabled : Tabled root state.table state.nextPid
  watched : Watched root state.table state.tracked
  tracked : ∀ pid ∈ state.tracked, pid < state.nextPid
  stage : StageSound state.table state.tracked state.stage

section Exits

variable {root nextPid gone : Nat} {table : ProcessTable} {tracked : List Nat}

/-- What is left of an exit changed its parent only. -/
theorem mem_exit {row : ProcessRow} (among : row ∈ table.exit gone) : ∃ old ∈ table, ∃ ppid,
    old.pid ≠ gone ∧ row = { old with ppid } ∧
      (ppid = old.ppid ∧ old.ppid ≠ gone ∨ ppid = initPid) := by
  obtain ⟨old, kept, rfl⟩ := List.mem_map.mp among
  obtain ⟨listed, stays⟩ := List.mem_filter.mp kept
  by_cases orphaned : old.ppid = gone
  · exact ⟨old, listed, initPid, of_decide_eq_true stays, if_pos orphaned, .inr rfl⟩
  · exact ⟨old, listed, old.ppid, of_decide_eq_true stays, if_neg orphaned, .inl ⟨rfl, orphaned⟩⟩

theorem mem_pids_exit {pid : Nat} :
    pid ∈ (table.exit gone).pids ↔ pid ∈ table.pids ∧ pid ≠ gone := by
  rw [pids, pids, ProcessTable.exit, List.map_map]
  constructor
  · intro among
    obtain ⟨row, kept, rfl⟩ := List.mem_map.mp among
    obtain ⟨listed, stays⟩ := List.mem_filter.mp kept
    have same : (ProcessRow.pid ∘ fun row : ProcessRow =>
        if row.ppid = gone then { row with ppid := initPid } else row) row = row.pid := by
      rw [Function.comp_apply]
      split <;> rfl
    rw [same]
    exact ⟨List.mem_map_of_mem listed, of_decide_eq_true stays⟩
  · rintro ⟨among, stays⟩
    obtain ⟨row, listed, rfl⟩ := List.mem_map.mp among
    refine List.mem_map.mpr ⟨row, List.mem_filter.mpr ⟨listed, decide_eq_true stays⟩, ?_⟩
    rw [Function.comp_apply]
    split <;> rfl

theorem Tabled.exit (tabled : Tabled root table nextPid) :
    Tabled root (table.exit gone) nextPid := by
  refine ⟨tabled.rootInit, ?_, ?_, tabled.initBelow, tabled.rootBelow, ?_, ?_⟩
  · intro row among
    obtain ⟨old, listed, ppid, -, rfl, -⟩ := mem_exit among
    exact tabled.noInit old listed
  · intro row among
    obtain ⟨old, listed, ppid, -, rfl, parent⟩ := mem_exit among
    refine ⟨(tabled.below old listed).1, ?_⟩
    rcases parent with ⟨rfl, -⟩ | rfl
    · exact (tabled.below old listed).2
    · exact tabled.initBelow
  · intro row among isChild
    obtain ⟨old, listed, ppid, -, rfl, parent⟩ := mem_exit among
    rcases parent with ⟨rfl, kept⟩ | rfl
    · have apart : root ≠ gone := fun same => kept (isChild.trans same)
      exact mem_pids_exit.mpr ⟨tabled.alive old listed isChild, apart⟩
    · exact absurd isChild.symm tabled.rootInit
  · intro row among
    obtain ⟨old, listed, ppid, -, rfl, -⟩ := mem_exit among
    exact tabled.leads old listed

/-- An exit takes links away only: what escapes by it was linked in this gap. -/
theorem Watched.exit (watched : Watched root table tracked) (tabled : Tabled root table nextPid) :
    Watched root (table.exit gone) tracked := by
  have before : ∀ {pid}, isLinked (table.exit gone) root pid = true →
      table.isLinked root pid = true := isLinked_of_exit tabled.rootInit tabled.noInit
  constructor
  · intro row among linked
    obtain ⟨old, listed, ppid, -, rfl, -⟩ := mem_exit among
    exact watched.linked old listed (before linked)
  · intro row among inGroup
    obtain ⟨old, listed, ppid, -, rfl, -⟩ := mem_exit among
    exact watched.attached old listed inGroup
  · intro row among descends left linked
    obtain ⟨old, listed, ppid, -, rfl, -⟩ := mem_exit among
    exact watched.detached old listed descends left (before linked)
  · intro row among descends escaped
    obtain ⟨old, listed, ppid, -, rfl, -⟩ := mem_exit among
    cases linked : table.isLinked root old.pid with
    | true =>
        rcases watched.detached old listed descends escaped.1 linked with isTracked | attached
        · exact .inl isTracked
        · exact .inr ⟨attached, watched.linked old listed linked⟩
    | false => exact watched.escaped old listed descends ⟨escaped.1, linked⟩

theorem StageSound.of_pids {other : ProcessTable} {stage : ContainmentStage}
    (sound : StageSound table tracked stage)
    (less : ∀ pid ∈ tracked, pid ∈ other.pids → pid ∈ table.pids) :
    StageSound other tracked stage := by
  cases stage with
  | probing left alive =>
      intro pid isTracked
      rcases sound pid isTracked with isLeft | lives | dead
      · exact .inl isLeft
      · exact .inr (.inl lives)
      · exact .inr (.inr fun there => dead (less pid isTracked there))
  | checked survivors =>
      intro pid isTracked
      rcases sound pid isTracked with survives | dead
      · exact .inl survives
      · exact .inr fun there => dead (less pid isTracked there)
  | tracking | proving | proven | unproven survivors => trivial

end Exits

namespace Containment

variable {root : Nat} {state after : Containment}

theorem Sound.exit (sound : state.Sound root) (gone : Nat) :
    Sound root { state with table := state.table.exit gone } :=
  ⟨sound.tabled.exit, sound.watched.exit sound.tabled, sound.tracked,
    sound.stage.of_pids fun _ _ among => (mem_pids_exit.mp among).1⟩

theorem Sound.exits (sound : state.Sound root) (dying : List Nat) :
    Sound root { state with table := dying.foldl ProcessTable.exit state.table } := by
  induction dying generalizing state with
  | nil => exact sound
  | cons gone dying ih => exact ih (sound.exit gone)

/-- A new process escapes only from a parent that did. -/
theorem Sound.fork (sound : state.Sound root) {parent : ProcessRow} {child : Nat}
    (new : state.nextPid ≤ child) (listed : parent ∈ state.table)
    (fits : parent.descends = true → ¬ state.table.Escaped root parent) :
    Sound root { state with
      table := state.table ++ [state.table.forkedBy root parent child]
      nextPid := child + 1 } := by
  obtain ⟨tabled, watched, tracked, stage⟩ := sound
  have below := (tabled.below parent listed).1
  have parents : ∀ row ∈ state.table, row.ppid < child := fun row among =>
    Nat.lt_of_lt_of_le (tabled.below row among).2 new
  have apart : ∀ row ∈ state.table, row.pid ≠ child := fun row among =>
    Nat.ne_of_lt (Nat.lt_of_lt_of_le (tabled.below row among).1 new)
  have linkedBefore : ∀ row ∈ state.table,
      isLinked (state.table ++ [state.table.forkedBy root parent child]) root row.pid = true →
        state.table.isLinked root row.pid = true := by
    intro row among linked
    rcases isLinked_of_fork (Nat.lt_of_lt_of_le below new) parents linked with ⟨same, -⟩ | before
    · exact absurd same (apart row among)
    · exact before
  have childLinked : isLinked (state.table ++ [state.table.forkedBy root parent child]) root
      child = true ↔ state.table.isLinked root parent.pid = true := by
    constructor
    · intro linked
      rcases isLinked_of_fork (Nat.lt_of_lt_of_le below new) parents linked with ⟨-, above⟩ | before
      · exact above
      · rcases ReflTransGen.cases_tail (isLinked_iff.mp before) with same | ⟨_, -, link⟩
        · exact absurd (same ▸ tabled.rootBelow) (Nat.not_lt.mpr new)
        · obtain ⟨row, among, isChild, -⟩ := step_iff.mp link
          exact absurd isChild (apart row among)
    · intro linked
      refine isLinked_iff.mpr (.tail (isLinked_iff.mp (isLinked_fork_of linked)) ?_)
      exact step_iff.mpr ⟨_, List.mem_append_right _ (List.mem_singleton_self _), rfl, rfl⟩
  have cases_row : ∀ row ∈ state.table ++ [state.table.forkedBy root parent child],
      row ∈ state.table ∨ row = state.table.forkedBy root parent child := fun row among =>
    (List.mem_append.mp among).imp_right List.mem_singleton.mp
  refine ⟨⟨tabled.rootInit, ?_, ?_, ?_, ?_, ?_, ?_⟩, ⟨?_, ?_, ?_, ?_⟩, ?_, ?_⟩
  · intro row among
    rcases cases_row row among with old | rfl
    · exact tabled.noInit row old
    · exact (Nat.ne_of_lt (Nat.lt_of_lt_of_le tabled.initBelow new)).symm
  · intro row among
    rcases cases_row row among with old | rfl
    · exact (tabled.below row old).imp (fun low => Nat.lt_succ_of_lt (Nat.lt_of_lt_of_le low new))
        fun low => Nat.lt_succ_of_lt (Nat.lt_of_lt_of_le low new)
    · exact ⟨Nat.lt_succ_self _, Nat.lt_succ_of_lt (Nat.lt_of_lt_of_le below new)⟩
  · exact Nat.lt_succ_of_lt (Nat.lt_of_lt_of_le tabled.initBelow new)
  · exact Nat.lt_succ_of_lt (Nat.lt_of_lt_of_le tabled.rootBelow new)
  · intro row among isChild
    rw [pids, List.map_append, List.mem_append]
    left
    rcases cases_row row among with old | rfl
    · exact tabled.alive row old isChild
    · exact List.mem_map.mpr ⟨parent, listed, isChild⟩
  · intro row among isRoot
    rcases cases_row row among with old | rfl
    · exact tabled.leads row old isRoot
    · exact absurd isRoot (Nat.ne_of_gt (Nat.lt_of_lt_of_le tabled.rootBelow new))
  · intro row among linked
    rcases cases_row row among with old | rfl
    · exact watched.linked row old (linkedBefore row old linked)
    · exact childLinked.mp linked
  · intro row among inGroup
    rcases cases_row row among with old | rfl
    · exact watched.attached row old inGroup
    · rfl
  · intro row among descends left linked
    rcases cases_row row among with old | rfl
    · exact watched.detached row old descends left (linkedBefore row old linked)
    · exact .inr rfl
  · intro row among descends escaped
    rcases cases_row row among with old | rfl
    · apply watched.escaped row old descends
      refine ⟨escaped.1, eq_false_of_ne_true fun linked => ?_⟩
      have unlinked : isLinked (state.table ++ [state.table.forkedBy root parent child]) root
        row.pid = false := escaped.2
      rw [isLinked_fork_of linked] at unlinked
      cases unlinked
    · refine absurd ⟨escaped.1, eq_false_of_ne_true fun linked => ?_⟩ (fits descends)
      have isChild : isLinked (state.table ++ [state.table.forkedBy root parent child]) root
        child = false := escaped.2
      rw [childLinked.mpr linked] at isChild
      cases isChild
  · exact fun pid isTracked => Nat.lt_succ_of_lt (Nat.lt_of_lt_of_le (tracked pid isTracked) new)
  · refine stage.of_pids fun pid isTracked there => ?_
    obtain ⟨row, among, rfl⟩ := List.mem_map.mp there
    rcases cases_row row among with old | rfl
    · exact List.mem_map_of_mem old
    · exact absurd (tracked _ isTracked) (Nat.not_lt.mpr new)

/-- What leaves the group was linked in this gap. -/
theorem Sound.setsid (sound : state.Sound root) {pid : Nat}
    (fits : ∀ row ∈ state.table, row.pid = pid → row.descends = true →
      row.wasLinked = true ∨ row.pid ∈ state.tracked) :
    Sound root { state with table := state.table.setsid pid } := by
  obtain ⟨tabled, watched, tracked, stage⟩ := sound
  have linked : ∀ {other}, isLinked (state.table.setsid pid) root other =
      state.table.isLinked root other := by
    intro other
    apply isLinked_map
    intro row
    split <;> exact ⟨rfl, rfl⟩
  have cases_row : ∀ row ∈ state.table.setsid pid, row ∈ state.table ∨
      ∃ old ∈ state.table, old.pid = pid ∧ row = { old with pgid := pid } := by
    intro row among
    obtain ⟨old, listed, rfl⟩ := List.mem_map.mp among
    split
    · next isPid => exact .inr ⟨old, listed, isPid, rfl⟩
    · exact .inl listed
  have pids_eq : (state.table.setsid pid).pids = state.table.pids := by
    rw [pids, ProcessTable.setsid, List.map_map]
    apply List.map_congr_left
    intro row _
    rw [Function.comp_apply]
    split <;> rfl
  refine ⟨⟨tabled.rootInit, ?_, ?_, tabled.initBelow, tabled.rootBelow, ?_, ?_⟩, ⟨?_, ?_, ?_, ?_⟩,
    tracked, stage.of_pids fun _ _ there => pids_eq ▸ there⟩
  · intro row among
    rcases cases_row row among with old | ⟨old, listed, -, rfl⟩
    · exact tabled.noInit row old
    · exact tabled.noInit old listed
  · intro row among
    rcases cases_row row among with old | ⟨old, listed, -, rfl⟩
    · exact tabled.below row old
    · exact tabled.below old listed
  · intro row among
    rw [pids_eq]
    rcases cases_row row among with old | ⟨old, listed, -, rfl⟩
    · exact tabled.alive row old
    · exact tabled.alive old listed
  · intro row among isRoot
    rcases cases_row row among with old | ⟨old, listed, isPid, rfl⟩
    · exact tabled.leads row old isRoot
    · exact isPid.symm.trans isRoot
  · intro row among isLinked
    rw [linked] at isLinked
    rcases cases_row row among with old | ⟨old, listed, -, rfl⟩
    · exact watched.linked row old isLinked
    · exact watched.linked old listed isLinked
  · intro row among inGroup
    rcases cases_row row among with old | ⟨old, listed, isPid, rfl⟩
    · exact watched.attached row old inGroup
    · exact watched.attached old listed (tabled.leads old listed (isPid.trans inGroup))
  · intro row among descends left isLinked
    rw [linked] at isLinked
    rcases cases_row row among with old | ⟨old, listed, -, rfl⟩
    · exact watched.detached row old descends left isLinked
    · by_cases inGroup : old.pgid = root
      · exact .inr (watched.attached old listed inGroup)
      · exact watched.detached old listed descends inGroup isLinked
  · intro row among descends escaped
    rw [Escaped, linked] at escaped
    rcases cases_row row among with old | ⟨old, listed, isPid, rfl⟩
    · exact watched.escaped row old descends escaped
    · by_cases inGroup : old.pgid = root
      · rcases fits old listed isPid descends with wasLinked | isTracked
        · exact .inr ⟨watched.attached old listed inGroup, wasLinked⟩
        · exact .inl isTracked
      · exact watched.escaped old listed descends ⟨inGroup, escaped.2⟩

theorem lt_of_snapshot (tabled : Tabled root state.table state.nextPid) {listed : Bool} {pid : Nat}
    (seen : pid ∈ state.snapshot root listed) : pid < state.nextPid := by
  rw [snapshot] at seen
  split at seen
  · rw [posixDescendants, List.mem_filter, SuccessorGraph.mem_reachableFrom_iff] at seen
    obtain ⟨⟨child, isChild, reaches⟩, -⟩ := seen
    have below : ∀ {other}, other ∈ state.table.pids → other < state.nextPid := by
      intro other among
      obtain ⟨row, listed, rfl⟩ := List.mem_map.mp among
      exact (tabled.below row listed).1
    rcases ReflTransGen.cases_tail reaches with rfl | ⟨_, -, link⟩
    · obtain ⟨row, listed, rfl⟩ := List.mem_map.mp (List.mem_reverse.mp isChild)
      exact below (List.mem_map_of_mem (List.mem_filter.mp listed).1)
    · obtain ⟨row, listed, rfl, -⟩ := step_iff.mp link
      exact below (List.mem_map_of_mem listed)
  · cases seen

/-- A snapshot attempt leaves nothing untracked that is linked and left the group. -/
theorem Sound.attempt (sound : state.Sound root) (early : state.stage = .tracking) {listed : Bool}
    (fits : state.Fits root (.attempt listed)) :
    Sound root { state with
      table := state.table.attempted root
      tracked := state.tracked ∪ state.snapshot root listed } := by
  obtain ⟨tabled, watched, tracked, stage⟩ := sound
  have linked : ∀ {other}, isLinked (state.table.attempted root) root other =
      state.table.isLinked root other := by
    intro other
    apply isLinked_map
    intro row
    split <;> exact ⟨rfl, rfl⟩
  have cases_row : ∀ row ∈ state.table.attempted root, row ∈ state.table ∧
      state.table.Escaped root row ∨ ∃ old ∈ state.table, ¬ state.table.Escaped root old ∧
        row = { old with
          attached := old.pgid = root
          wasLinked := state.table.isLinked root old.pid } := by
    intro row among
    obtain ⟨old, isOld, rfl⟩ := List.mem_map.mp among
    split
    · next escaped => exact .inl ⟨isOld, escaped⟩
    · next stays => exact .inr ⟨old, isOld, stays, rfl⟩
  have pids_eq : (state.table.attempted root).pids = state.table.pids := by
    rw [pids, ProcessTable.attempted, List.map_map]
    apply List.map_congr_left
    intro row _
    rw [Function.comp_apply]
    split <;> rfl
  refine ⟨⟨tabled.rootInit, ?_, ?_, tabled.initBelow, tabled.rootBelow, ?_, ?_⟩, ⟨?_, ?_, ?_, ?_⟩,
    ?_, ?_⟩
  · intro row among
    rcases cases_row row among with ⟨old, -⟩ | ⟨old, isOld, -, rfl⟩
    · exact tabled.noInit row old
    · exact tabled.noInit old isOld
  · intro row among
    rcases cases_row row among with ⟨old, -⟩ | ⟨old, isOld, -, rfl⟩
    · exact tabled.below row old
    · exact tabled.below old isOld
  · intro row among
    rw [pids_eq]
    rcases cases_row row among with ⟨old, -⟩ | ⟨old, isOld, -, rfl⟩
    · exact tabled.alive row old
    · exact tabled.alive old isOld
  · intro row among
    rcases cases_row row among with ⟨old, -⟩ | ⟨old, isOld, -, rfl⟩
    · exact tabled.leads row old
    · exact tabled.leads old isOld
  · intro row among isLinked
    rw [linked] at isLinked
    rcases cases_row row among with ⟨old, -⟩ | ⟨old, isOld, -, rfl⟩
    · exact watched.linked row old isLinked
    · exact isLinked
  · intro row among inGroup
    rcases cases_row row among with ⟨old, -⟩ | ⟨old, isOld, -, rfl⟩
    · exact watched.attached row old inGroup
    · exact decide_eq_true inGroup
  · intro row among descends left isLinked
    rw [linked] at isLinked
    left
    rcases cases_row row among with ⟨-, escaped⟩ | ⟨old, isOld, -, rfl⟩
    · rw [escaped.2] at isLinked
      cases isLinked
    · rw [List.mem_union_iff]
      cases listed with
      | false => exact .inl (fits old isOld descends left isLinked)
      | true =>
          right
          rw [ProcessTable.isLinked, Bool.or_eq_true, decide_eq_true_eq, decide_eq_true_eq]
            at isLinked
          rcases isLinked with isRoot | seen
          · exact absurd (tabled.leads old isOld isRoot) left
          · exact seen
  · intro row among descends escaped
    rw [Escaped, linked] at escaped
    rcases cases_row row among with ⟨old, -⟩ | ⟨old, isOld, stays, rfl⟩
    · exact (watched.escaped row old descends escaped).imp_left fun known =>
        List.mem_union_left known _
    · exact absurd escaped stays
  · intro pid isTracked
    rcases List.mem_union_iff.mp isTracked with old | seen
    · exact tracked pid old
    · exact lt_of_snapshot tabled seen
  · dsimp only
    rw [early]
    trivial

/-- What lives when a proof returns escaped unseen. -/
theorem Sound.quiet (sound : state.Sound root) (checked : state.stage = .checked [])
    (empty : ¬ state.table.any (fun row => row.pgid = root)) : state.Quiet root := by
  obtain ⟨tabled, watched, -, stage⟩ := sound
  rw [checked] at stage
  have left : ∀ row ∈ state.table, row.pgid ≠ root := by
    intro row among inGroup
    exact empty (List.any_eq_true.mpr ⟨row, among, decide_eq_true inGroup⟩)
  have rootDead : root ∉ state.table.pids := by
    intro alive
    obtain ⟨row, among, isRoot⟩ := List.mem_map.mp alive
    exact left row among (tabled.leads row among isRoot)
  intro row among descends
  have unlinked : state.table.isLinked root row.pid = false := by
    refine eq_false_of_ne_true fun linked => ?_
    rcases ReflTransGen.cases_head (isLinked_iff.mp linked) with same | ⟨child, link, -⟩
    · exact rootDead (same ▸ List.mem_map_of_mem among)
    · obtain ⟨first, isFirst, -, isChild⟩ := step_iff.mp link
      exact rootDead (tabled.alive first isFirst isChild)
  have escaped : state.table.Escaped root row := ⟨left row among, unlinked⟩
  refine ⟨escaped, ?_⟩
  rcases watched.escaped row among descends escaped with isTracked | slipped
  · rcases stage row.pid isTracked with survives | dead
    · cases survives
    · exact absurd (List.mem_map_of_mem among) dead
  · exact slipped

/-- Every step that fits keeps the table and the gaps sound. -/
theorem Sound.step {event : ContainmentEvent} (sound : state.Sound root)
    (fits : state.Fits root event) (moved : Containment.step root event state = some after) :
    after.Sound root := by
  have enter : ∀ {stage : ContainmentStage}, StageSound state.table state.tracked stage →
      Sound root { state with stage } := fun ok => ⟨sound.tabled, sound.watched, sound.tracked, ok⟩
  have stage := sound.stage
  cases event with
  | fork parent child =>
      rw [Containment.step] at moved
      split at moved
      · cases moved
      · next fresh =>
        obtain ⟨row, found, rfl⟩ := Option.map_eq_some_iff.mp moved
        have listed := List.mem_of_find?_eq_some found
        have isParent : row.pid = parent := by
          simpa only [decide_eq_true_eq] using List.find?_some found
        exact sound.fork (Nat.not_lt.mp fresh) listed (fits row listed isParent)
  | exit pid =>
      cases moved
      exact sound.exit pid
  | setsid pid =>
      rw [Containment.step] at moved
      split at moved
      · cases moved
        exact sound.setsid fits
      · cases moved
  | attempt listed =>
      cases isStage : state.stage <;>
        simp only [Containment.step, isStage, reduceCtorEq] at moved
      cases moved
      have attempted := sound.attempt isStage fits
      rwa [isStage] at attempted
  | killAll dying =>
      cases isStage : state.stage <;>
        simp only [Containment.step, isStage, reduceCtorEq] at moved
      all_goals
        split at moved
        · cases moved
          have killed := sound.exits dying
          rwa [isStage] at killed
        · cases moved
  | prove =>
      cases isStage : state.stage <;>
        simp only [Containment.step, isStage, reduceCtorEq] at moved
      cases moved
      exact enter trivial
  | candidates listed =>
      cases isStage : state.stage <;>
        simp only [Containment.step, isStage, reduceCtorEq] at moved
      cases moved
      exact enter fun pid isTracked => .inl (List.mem_union_left isTracked _)
  | probe =>
      cases isStage : state.stage <;>
        simp only [Containment.step, isStage, reduceCtorEq] at moved
      next left alive =>
      rw [isStage] at stage
      cases left with
      | nil =>
          cases moved
          exact enter fun pid isTracked => (stage pid isTracked).resolve_left List.not_mem_nil
      | cons first left =>
          cases moved
          refine enter fun pid isTracked => ?_
          rcases stage pid isTracked with isLeft | lives | dead
          · rcases List.mem_cons.mp isLeft with rfl | later
            · right
              by_cases there : pid ∈ state.table.pids
              · left
                rw [if_pos there]
                exact List.mem_append_right _ (List.mem_singleton_self _)
              · exact .inr there
            · exact .inl later
          · right
            left
            split
            · exact List.mem_append_left _ lives
            · exact lives
          · exact .inr (.inr dead)
  | probeGroup late =>
      cases isStage : state.stage <;>
        simp only [Containment.step, isStage, reduceCtorEq] at moved
      split at moved
      · cases moved
        exact enter trivial
      · split at moved <;> cases moved <;> exact enter trivial

/-- A proof that returns leaves what escaped unseen. -/
theorem Sound.proven {late : Bool} (sound : state.Sound root)
    (moved : Containment.step root (.probeGroup late) state = some after)
    (proven : after.stage = .proven) : after.Quiet root := by
  cases isStage : state.stage <;>
    simp only [Containment.step, isStage, reduceCtorEq] at moved
  split at moved
  · next none =>
    obtain ⟨rfl, empty⟩ := none
    cases moved
    exact sound.quiet isStage empty
  · split at moved <;> cases moved <;> cases proven

/-- Of the child that was just launched there is nothing but itself. -/
theorem Launched.sound (launched : Launched root state) : state.Sound root := by
  obtain ⟨⟨first, isFirst, isRoot, -⟩, alone, group, attached, below, init, tracking⟩ := launched
  have only : ∀ row ∈ state.table, state.table.isLinked root row.pid = true → row.pid = root := by
    intro row among linked
    rcases ReflTransGen.cases_head (isLinked_iff.mp linked) with same | ⟨child, link, -⟩
    · exact same.symm
    · obtain ⟨other, isOther, -, isChild⟩ := step_iff.mp link
      exact absurd isChild (alone other isOther).1
  refine ⟨⟨init.1, init.2.2, below, init.2.1, isRoot ▸ (below first isFirst).1, ?_, ?_⟩,
    ⟨?_, attached, ?_, ?_⟩, ?_, ?_⟩
  · exact fun row among isChild => absurd isChild (alone row among).1
  · exact fun row among isRoot => (group row among isRoot).1
  · exact fun row among linked => (group row among (only row among linked)).2
  · exact fun row among _ left linked => absurd (group row among (only row among linked)).1 left
  · intro row among descends escaped
    have isRoot : row.pid = root := by
      by_contra other
      rw [(alone row among).2 other] at descends
      cases descends
    exact absurd (group row among isRoot).1 escaped.1
  · rw [tracking.1]
    exact fun pid isTracked => absurd isTracked List.not_mem_nil
  · rw [tracking.2]
    trivial

end Containment

/-- A child with number ten. -/
def launchedTen : Containment where
  table := [⟨10, 2, 10, true, true, true⟩]
  nextPid := 11

theorem launched_ten : Containment.Launched 10 launchedTen := by
  refine ⟨⟨_, List.mem_cons_self, rfl, rfl⟩, ?_, ?_, ?_, ?_, ⟨by decide, by decide, ?_⟩, rfl, rfl⟩
  all_goals
    intro row among
    rw [List.mem_singleton.mp among]
    decide

end Orchestrator.ProcessControl
