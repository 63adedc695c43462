import Orchestrator.Decomposition.FanOut

/-! # Crashes of the fan-out

Where a crash falls before the commit of a subtask or after its count, and the stored counters are
those that the next subtask starts with, a resume goes on as if nothing had happened.
-/

namespace Orchestrator.Decomposition

open Orchestrator.Foundation
open Orchestrator.Flow

/-! ## The orders of an accepted split -/

theorem orders_of_linearFrom {specs : List SubtaskSpec} {index : Nat}
    (linear : linearFrom index specs = true) :
    specs.map SubtaskSpec.order = List.range' index specs.length := by
  induction specs generalizing index with
  | nil => rfl
  | cons spec rest ih =>
      rw [linearFrom, Bool.and_eq_true, Bool.and_eq_true, decide_eq_true_eq] at linear
      rw [List.map_cons, linear.1.1, ih linear.2, List.length_cons, List.range'_succ]

theorem orders_decideFromSpecs {specs : List SubtaskSpec} {maxSubtasks : Nat}
    (accepted : (decideFromSpecs specs maxSubtasks).accepted = true) :
    (decideFromSpecs specs maxSubtasks).orders = List.range' 1 specs.length := by
  rw [decideFromSpecs] at accepted ⊢
  split at accepted
  · cases accepted
  · next fits =>
    rw [if_neg fits]
    split at accepted
    · next linear =>
      rw [if_pos linear, DecompositionDecision.orders, orders_of_linearFrom linear,
        List.length_insertionSort]
    · cases accepted

/-- The steps of a subtask up to its commit. -/
def Progress.isUncommitted : Progress → Bool
  | .region | .leaving | .committing | .started => true
  | _ => false

/-- The commit of a subtask that is not yet in its row. -/
def Progress.made : Progress → Option String
  | .committed sha | .completed sha | .returned sha | .indexed sha => some sha
  | _ => none

/-- The subtasks of an accepted split are numbered from one. -/
theorem orders_of_accepted {decision : DecompositionDecision} {proposal : Proposal} {gateOn : Bool}
    {specs : List SubtaskSpec} {maxSubtasks : Nat}
    (decided : decision = decideDecomposition proposal gateOn maxSubtasks ∨
      decision = decideOperatorDecomposition specs maxSubtasks)
    (accepted : decision.accepted = true) : ∃ count, decision.orders = List.range' 1 count := by
  rcases decided with rfl | rfl
  · unfold decideDecomposition at accepted ⊢
    split at accepted
    · next on =>
      rw [if_pos on]
      cases proposal with
      | split specs => exact ⟨_, orders_decideFromSpecs accepted⟩
      | _ => cases accepted
    · cases accepted
  · rw [decideOperatorDecomposition] at accepted ⊢
    split at accepted
    · next inner =>
      rw [if_pos inner]
      exact ⟨_, orders_decideFromSpecs inner⟩
    · next outer => exact absurd accepted outer

namespace FanOutState

/-! ## What a state has -/

variable {count done order : Nat} {sha regionEntry postEntry : String} {state after : FanOutState}
  {runState : FlowRunState} {stage : Stage}

/-- One commit on the branch is recorded for a subtask: its own, with all that its region left, and
the only one that was made for it; or, for a subtask that left nothing to commit, an earlier one. -/
structure CommittedOnce (order : Nat) (sha : String) (state : FanOutState) : Prop where
  onBranch : sha ∈ state.branch.map BranchCommit.sha
  made : state.branch.filter (fun commit => commit.subtask = some order) =
    if state.work order = [] then [] else [⟨sha, some order, state.work order⟩]

/-- Nothing is committed for a subtask, and no commit of it is recorded as completed. -/
structure Unmade (order : Nat) (state : FanOutState) : Prop where
  branch : ∀ commit ∈ state.branch, commit.subtask ≠ some order
  operation : ∀ sha, state.operation order ≠ some (.completed sha)

/-- The first subtasks are committed, and their rows say so. -/
structure Kept (count done : Nat) (state : FanOutState) : Prop where
  bound : done ≤ count
  rooted : state.branch ≠ []
  rows : ∀ order, state.commitSha order ≠ none ↔ 1 ≤ order ∧ order ≤ done
  once : ∀ order sha, state.commitSha order = some sha → state.CommittedOnce order sha

/-- Nothing is made for the subtasks after the first. -/
def Beyond (done : Nat) (state : FanOutState) : Prop := ∀ order, done < order → state.Unmade order

/-- Where the fan-out stands, with what it has written. -/
inductive Standing (count : Nat) (state : FanOutState) (runState : FlowRunState) : Stage → Prop
  | selecting {done : Nat} (kept : state.Kept count done) (beyond : state.Beyond done)
      (counted : state.subtasksCompleted = done)
      (start : done < count → runState.counter = state.nextStart.counter) :
      Standing count state runState (.selecting (List.range' (done + 1) (count - done)))
  | uncommitted {done : Nat} {progress : Progress} (kept : state.Kept count done)
      (beyond : state.Beyond done) (counted : state.subtasksCompleted = done) (below : done < count)
      (before : progress.isUncommitted = true)
      (left : progress ≠ .region → state.work (done + 1) = state.tree) :
      Standing count state runState
        (.unit (done + 1) (List.range' (done + 2) (count - (done + 1))) progress)
  | made {done : Nat} {progress : Progress} {sha : String} (kept : state.Kept count done)
      (beyond : state.Beyond (done + 1)) (counted : state.subtasksCompleted = done)
      (below : done < count) (made : progress.made = some sha)
      (once : state.CommittedOnce (done + 1) sha) :
      Standing count state runState
        (.unit (done + 1) (List.range' (done + 2) (count - (done + 1))) progress)
  | marked {done : Nat} (kept : state.Kept count (done + 1)) (beyond : state.Beyond (done + 1))
      (counted : state.subtasksCompleted = done)
      (start : state.nextStart = startAfter (List.range' 1 count) (done + 1) runState) :
      Standing count state runState
        (.unit (done + 1) (List.range' (done + 2) (count - (done + 1))) .marked)
  | counted {done : Nat} (kept : state.Kept count (done + 1)) (beyond : state.Beyond (done + 1))
      (counted : state.subtasksCompleted = done + 1)
      (start : state.nextStart = startAfter (List.range' 1 count) (done + 1) runState) :
      Standing count state runState
        (.unit (done + 1) (List.range' (done + 2) (count - (done + 1))) .counted)
  | refreshed {done : Nat} (kept : state.Kept count (done + 1)) (beyond : state.Beyond (done + 1))
      (counted : state.subtasksCompleted = done + 1)
      (start : runState.counter = state.nextStart.counter) :
      Standing count state runState
        (.unit (done + 1) (List.range' (done + 2) (count - (done + 1))) .refreshed)
  | post (kept : state.Kept count count) (beyond : state.Beyond count)
      (counted : state.subtasksCompleted = count) : Standing count state runState .post

/-- What holds between any two steps of the fan-out, its crashes and its resumes. -/
def Sound (count : Nat) (state : FanOutState) : Prop :=
  match state.process with
  | .running runState stage => Standing count state runState stage
  | .crashed => ∃ done, state.Kept count done ∧ state.Beyond done ∧
      state.subtasksCompleted = done ∧
      (done < count → state.checkpoint.counter = state.nextStart.counter)
  | .parked => False
  | .ended => ∃ done, state.Kept count done

/-- A crash that nothing is lost in: no subtask has a commit, or a completed commit operation,
without the commit in its row; all rows with a commit are counted; and the stored counters are
those that the next subtask starts with. -/
structure Survivable (orders : List Nat) (state : FanOutState) : Prop where
  recorded : ∀ order, state.commitSha order = none → state.Unmade order
  counted : (orders.filter fun order => state.commitSha order ≠ none).length ≤
    state.subtasksCompleted
  charged : (∃ order ∈ orders, state.commitSha order = none) →
    state.checkpoint.counter = state.nextStart.counter

/-! ## Rows -/

theorem Kept.commitSha_eq_none (kept : state.Kept count done) :
    state.commitSha order = none ↔ order = 0 ∨ done < order := by
  have row := not_congr (kept.rows order)
  rw [not_not] at row
  rw [row]
  omega

/-- The orders of a split are the committed ones and the others. -/
theorem range_split (bound : done ≤ count) :
    List.range' 1 count = List.range' 1 done ++ List.range' (done + 1) (count - done) := by
  have joined : List.range' 1 done ++ List.range' (1 + done) (count - done) =
      List.range' 1 (done + (count - done)) := List.range'_append_1
  rw [Nat.add_comm done 1, joined, Nat.add_sub_cancel' bound]

theorem Kept.uncommitted (kept : state.Kept count done) :
    state.uncommitted (List.range' 1 count) = List.range' (done + 1) (count - done) := by
  have none :
      (List.range' 1 done).filter (fun order => state.commitSha order = Option.none) = [] := by
    refine List.filter_eq_nil_iff.mpr fun order among => ?_
    rw [decide_eq_true_eq, kept.commitSha_eq_none]
    have range := List.mem_range'_1.mp among
    omega
  have all : (List.range' (done + 1) (count - done)).filter
      (fun order => state.commitSha order = Option.none) =
        List.range' (done + 1) (count - done) := by
    refine List.filter_eq_self.mpr fun order among => ?_
    rw [decide_eq_true_eq, kept.commitSha_eq_none]
    have range := List.mem_range'_1.mp among
    omega
  rw [FanOutState.uncommitted, range_split kept.bound, List.filter_append, none, all,
    List.nil_append]

theorem Kept.recorded (kept : state.Kept count done) :
    ((List.range' 1 count).filter fun order => state.commitSha order ≠ none).length = done := by
  have all : (List.range' 1 done).filter (fun order => state.commitSha order ≠ none) =
      List.range' 1 done := by
    refine List.filter_eq_self.mpr fun order among => ?_
    rw [decide_eq_true_eq, kept.rows]
    have range := List.mem_range'_1.mp among
    omega
  have none : (List.range' (done + 1) (count - done)).filter
      (fun order => state.commitSha order ≠ Option.none) = [] := by
    refine List.filter_eq_nil_iff.mpr fun order among => ?_
    rw [decide_eq_true_eq, kept.rows]
    have range := List.mem_range'_1.mp among
    omega
  rw [range_split kept.bound, List.filter_append, none, all, List.append_nil, List.length_range']

/-- The reconciler finds nothing inconsistent. -/
theorem Kept.reconcileDecomposed (kept : state.Kept count done)
    (counted : state.subtasksCompleted = done) :
    state.reconcileDecomposed (List.range' 1 count) = true := by
  rw [FanOutState.reconcileDecomposed, Bool.and_eq_true, decide_eq_true_eq, kept.recorded, counted]
  refine ⟨List.all_eq_true.mpr fun order _ => ?_, le_refl done⟩
  cases row : state.commitSha order with
  | none => rfl
  | some sha => exact decide_eq_true (kept.once order sha row).onBranch

theorem isLast_range : isLast (List.range' 1 count) (done + 1) = true ↔ done + 1 = count := by
  rw [isLast, decide_eq_true_eq]
  cases count with
  | zero => exact ⟨(nomatch ·), (nomatch ·)⟩
  | succ rest =>
      rw [List.range'_1_concat, List.getLast?_concat, Option.some_inj]
      omega

/-! ## The steps of a subtask -/

/-- Another subtask's commit is as before when a commit is made. -/
theorem CommittedOnce.cons {commit : BranchCommit}
    (once : state.CommittedOnce order sha) (other : commit.subtask ≠ some order)
    (branch : after.branch = commit :: state.branch) (work : after.work order = state.work order) :
    after.CommittedOnce order sha := by
  constructor
  · rw [branch, List.map_cons]
    exact List.mem_cons_of_mem _ once.onBranch
  · rw [branch, List.filter_cons_of_neg (by rw [decide_eq_true_eq]; exact other), once.made, work]

theorem CommittedOnce.congr (once : state.CommittedOnce order sha)
    (branch : after.branch = state.branch) (work : after.work order = state.work order) :
    after.CommittedOnce order sha :=
  ⟨by rw [branch]; exact once.onBranch, by rw [branch, work]; exact once.made⟩

/-- What keeps the branch, the rows and what the regions left keeps the commits. -/
theorem Kept.congr (kept : state.Kept count done) (branch : after.branch = state.branch)
    (rows : after.commitSha = state.commitSha)
    (work : ∀ order ≤ done, after.work order = state.work order) : after.Kept count done := by
  refine ⟨kept.bound, by rw [branch]; exact kept.rooted, by rw [rows]; exact kept.rows, ?_⟩
  intro order sha row
  rw [rows] at row
  have within := (kept.rows order).mp (by rw [row]; exact Option.some_ne_none sha)
  exact (kept.once order sha row).congr branch (work order within.2)

theorem Beyond.congr (beyond : state.Beyond done) (branch : after.branch = state.branch)
    (operation : ∀ order, done < order → after.operation order = state.operation order) :
    after.Beyond done := by
  intro order later
  have unmade := beyond order later
  exact ⟨by rw [branch]; exact unmade.branch, by rw [operation order later]; exact unmade.operation⟩

/-- The commit at `HEAD` is recorded for a subtask that left nothing to commit. -/
theorem committedOnce_head (rooted : state.branch ≠ []) (unmade : state.Unmade order)
    (empty : state.work order = []) : state.CommittedOnce order state.head := by
  constructor
  · obtain ⟨first, rest, same⟩ := List.exists_cons_of_ne_nil rooted
    rw [head, same]
    exact List.mem_cons_self
  · rw [if_pos empty, List.filter_eq_nil_iff]
    intro commit among
    rw [decide_eq_true_eq]
    exact unmade.branch commit among

/-- A new commit is the only one of its subtask. -/
theorem committedOnce_new (unmade : state.Unmade order) (left : state.work order = state.tree)
    (changed : state.tree ≠ []) :
    ({ state with branch := ⟨sha, some order, state.tree⟩ :: state.branch, tree := [] } :
      FanOutState).CommittedOnce order sha := by
  have others : state.branch.filter (fun commit => commit.subtask = some order) = [] := by
    refine List.filter_eq_nil_iff.mpr fun commit among => ?_
    rw [decide_eq_true_eq]
    exact unmade.branch commit among
  constructor
  · exact List.mem_cons_self
  · dsimp only
    rw [List.filter_cons, if_pos (decide_eq_true rfl), others, left, if_neg changed]

theorem sound_startCommit (kept : state.Kept count done) (beyond : state.Beyond done)
    (counted : state.subtasksCompleted = done) (below : done < count)
    (left : state.work (done + 1) = state.tree) :
    ((state.startCommit (done + 1)).1.goTo runState (.unit (done + 1)
      (List.range' (done + 2) (count - (done + 1))) (state.startCommit (done + 1)).2)).Sound
        count := by
  have unmade := beyond (done + 1) (Nat.lt_succ_self done)
  rw [startCommit]
  split
  · next recorded => exact absurd recorded (unmade.operation _)
  · have beyondStarted : Beyond done { state with
        operation := Function.update state.operation (done + 1) (some .started) } := by
      intro order later
      refine ⟨(beyond order later).branch, fun sha => ?_⟩
      dsimp only
      by_cases same : order = done + 1
      · subst same
        rw [Function.update_self]
        exact fun recorded => nomatch recorded
      · rw [Function.update_of_ne same]
        exact (beyond order later).operation sha
    exact .uncommitted (kept.congr rfl rfl fun _ _ => rfl) (beyondStarted.congr rfl fun _ _ => rfl)
      counted below rfl fun _ => left

theorem sound_makeCommit (kept : state.Kept count done) (beyond : state.Beyond done)
    (counted : state.subtasksCompleted = done) (below : done < count)
    (left : state.work (done + 1) = state.tree) :
    ((state.makeCommit (done + 1) sha).1.goTo runState (.unit (done + 1)
      (List.range' (done + 2) (count - (done + 1))) (state.makeCommit (done + 1) sha).2)).Sound
        count := by
  have unmade := beyond (done + 1) (Nat.lt_succ_self done)
  have later : state.Beyond (done + 1) := fun order above => beyond order (Nat.lt_of_succ_lt above)
  rw [makeCommit]
  split
  · next clean =>
    have once := committedOnce_head kept.rooted unmade (left.trans clean)
    split
    · exact .made (kept.congr rfl rfl fun _ _ => rfl) (later.congr rfl fun _ _ => rfl) counted below
        rfl (once.congr rfl rfl)
    · have others : ∀ order, done + 1 < order → Function.update state.operation (done + 1)
          (some (.completed state.head)) order = state.operation order :=
        fun order above => Function.update_of_ne (Nat.ne_of_gt above) _ _
      exact .made (kept.congr rfl rfl fun _ _ => rfl) (later.congr rfl others) counted below rfl
        (once.congr rfl rfl)
  · next changed =>
    have once : CommittedOnce (done + 1) sha { state with
        branch := ⟨sha, some (done + 1), state.tree⟩ :: state.branch, tree := [] } :=
      committedOnce_new unmade left changed
    have keptNew : Kept count done { state with
        branch := ⟨sha, some (done + 1), state.tree⟩ :: state.branch, tree := [] } := by
      refine ⟨kept.bound, List.cons_ne_nil _ _, kept.rows, fun order recorded row => ?_⟩
      have within := (kept.rows order).mp (by
        rw [show state.commitSha order = some recorded from row]
        exact Option.some_ne_none recorded)
      have other : ¬ (some (done + 1) : Option Nat) = some order := by
        rw [Option.some_inj]
        omega
      exact (kept.once order recorded row).cons other rfl rfl
    have beyondNew : Beyond (done + 1) { state with
        branch := ⟨sha, some (done + 1), state.tree⟩ :: state.branch, tree := [] } := by
      intro order above
      refine ⟨fun commit among => ?_, (later order above).operation⟩
      rcases List.mem_cons.mp among with rfl | earlier
      · dsimp only
        rw [ne_eq, Option.some_inj]
        omega
      · exact (later order above).branch commit earlier
    exact .made (keptNew.congr rfl rfl fun _ _ => rfl) (beyondNew.congr rfl fun _ _ => rfl) counted
      below rfl (once.congr rfl rfl)

/-- The next step of a subtask whose commit is not made. -/
theorem sound_advanceUnit_uncommitted {progress : Progress} (kept : state.Kept count done)
    (beyond : state.Beyond done) (counted : state.subtasksCompleted = done) (below : done < count)
    (before : progress.isUncommitted = true)
    (left : progress ≠ .region → state.work (done + 1) = state.tree)
    (moved : state.advanceUnit (List.range' 1 count) regionEntry (done + 1)
      (List.range' (done + 2) (count - (done + 1))) runState sha progress = some after) :
    after.Sound count := by
  cases progress with
  | region => cases moved
  | leaving =>
      have leaves := left (nomatch ·)
      cases moved
      split
      · exact .uncommitted (kept.congr rfl rfl fun _ _ => rfl) (beyond.congr rfl fun _ _ => rfl)
          counted below rfl fun _ => leaves
      · exact .uncommitted (kept.congr rfl rfl fun _ _ => rfl) (beyond.congr rfl fun _ _ => rfl)
          counted below rfl fun _ => leaves
  | committing =>
      cases moved
      exact sound_startCommit kept beyond counted below (left (nomatch ·))
  | started =>
      cases moved
      exact sound_makeCommit kept beyond counted below (left (nomatch ·))
  | _ => cases before

/-- A subtask's row is set to its commit. -/
theorem Kept.mark (kept : state.Kept count done) (below : done < count)
    (once : state.CommittedOnce (done + 1) sha) (branch : after.branch = state.branch)
    (work : after.work = state.work)
    (rows : after.commitSha = Function.update state.commitSha (done + 1) (some sha)) :
    after.Kept count (done + 1) := by
  have marked : after.commitSha (done + 1) = some sha := by rw [rows, Function.update_self]
  have others : ∀ order, order ≠ done + 1 → after.commitSha order = state.commitSha order :=
    fun order other => by rw [rows, Function.update_of_ne other]
  refine ⟨below, by rw [branch]; exact kept.rooted, fun order => ?_, fun order recorded row => ?_⟩
  · by_cases same : order = done + 1
    · subst same
      rw [marked]
      exact ⟨fun _ => ⟨Nat.le_add_left 1 done, le_refl _⟩, fun _ => Option.some_ne_none sha⟩
    · rw [others order same, kept.rows]
      omega
  · by_cases same : order = done + 1
    · subst same
      cases marked.symm.trans row
      exact once.congr branch (congrFun work _)
    · rw [others order same] at row
      exact (kept.once order recorded row).congr branch (congrFun work _)

/-- The next step of a subtask whose commit is made and not yet in its row. -/
theorem sound_advanceUnit_made {progress : Progress} {made new : String}
    (kept : state.Kept count done) (beyond : state.Beyond (done + 1))
    (counted : state.subtasksCompleted = done) (below : done < count)
    (isMade : progress.made = some made) (once : state.CommittedOnce (done + 1) made)
    (moved : state.advanceUnit (List.range' 1 count) regionEntry (done + 1)
      (List.range' (done + 2) (count - (done + 1))) runState new progress = some after) :
    after.Sound count := by
  cases progress with
  | committed sha =>
      cases isMade
      cases moved
      have others : ∀ order, done + 1 < order → Function.update state.operation (done + 1)
          (some (.completed made)) order = state.operation order :=
        fun order above => Function.update_of_ne (Nat.ne_of_gt above) _ _
      exact .made (kept.congr rfl rfl fun _ _ => rfl) (beyond.congr rfl others) counted below rfl
        (once.congr rfl rfl)
  | completed sha =>
      cases isMade
      cases moved
      exact .made (kept.congr rfl rfl fun _ _ => rfl) (beyond.congr rfl fun _ _ => rfl) counted
        below rfl (once.congr rfl rfl)
  | returned sha =>
      cases isMade
      cases moved
      exact .made (kept.congr rfl rfl fun _ _ => rfl) (beyond.congr rfl fun _ _ => rfl) counted
        below rfl (once.congr rfl rfl)
  | indexed sha =>
      cases isMade
      cases moved
      exact .marked (kept.mark below once rfl rfl rfl) (beyond.congr rfl fun _ _ => rfl) counted rfl
  | _ => cases isMade

theorem sound_counted (kept : state.Kept count (done + 1)) (beyond : state.Beyond (done + 1))
    (counted : state.subtasksCompleted = done + 1)
    (start : state.nextStart = startAfter (List.range' 1 count) (done + 1) runState)
    (moved : state.advanceUnit (List.range' 1 count) regionEntry (done + 1)
      (List.range' (done + 2) (count - (done + 1))) runState sha .counted = some after) :
    after.Sound count := by
  rw [advanceUnit] at moved
  split at moved
  · next last =>
    cases moved
    refine .selecting (kept.congr rfl rfl fun _ _ => rfl)
      (beyond.congr rfl fun _ _ => rfl) counted ?_
    exact fun more => absurd (isLast_range.mp last) (Nat.ne_of_lt more)
  · next more =>
    cases moved
    refine .refreshed (kept.congr rfl rfl fun _ _ => rfl)
      (beyond.congr rfl fun _ _ => rfl) counted ?_
    rw [startAfter, if_neg more] at start
    exact congrArg FlowRunState.counter start.symm

/-- The next subtask is taken, or the nodes after the region are. -/
theorem sound_selecting (kept : state.Kept count done) (beyond : state.Beyond done)
    (counted : state.subtasksCompleted = done)
    (moved : state.advance (List.range' 1 count) regionEntry postEntry runState sha
      (.selecting (List.range' (done + 1) (count - done))) = some after) : after.Sound count := by
  cases more : count - done with
  | zero =>
      rw [more] at moved
      cases moved
      have all : done = count := Nat.le_antisymm kept.bound (Nat.sub_eq_zero_iff_le.mp more)
      subst all
      exact .post (kept.congr rfl rfl fun _ _ => rfl) (beyond.congr rfl fun _ _ => rfl) counted
  | succ rest =>
      rw [more, List.range'_succ] at moved
      cases moved
      have below : done < count := by omega
      have others : rest = count - (done + 1) := by omega
      rw [others]
      exact .uncommitted (kept.congr rfl rfl fun _ _ => rfl) (beyond.congr rfl fun _ _ => rfl)
        counted below rfl fun other => absurd rfl other

theorem sound_advance (running : state.process = .running runState stage)
    (sound : state.Sound count)
    (moved : state.advance (List.range' 1 count) regionEntry postEntry runState sha stage =
      some after) : after.Sound count := by
  rw [Sound, running] at sound
  cases sound with
  | selecting kept beyond counted start => exact sound_selecting kept beyond counted moved
  | post kept beyond counted => cases moved
  | uncommitted kept beyond counted below before left =>
      rw [advance] at moved
      split at moved
      · cases moved
      · exact sound_advanceUnit_uncommitted kept beyond counted below before left moved
  | made kept beyond counted below isMade once =>
      rw [advance] at moved
      split at moved
      · cases moved
      · exact sound_advanceUnit_made kept beyond counted below isMade once moved
  | marked kept beyond counted start =>
      rw [advance] at moved
      split at moved <;> cases moved
      exact .counted (kept.congr rfl rfl fun _ _ => rfl) (beyond.congr rfl fun _ _ => rfl) rfl start
  | counted kept beyond counted start =>
      rw [advance] at moved
      split at moved
      · cases moved
      · exact sound_counted kept beyond counted start moved
  | refreshed kept beyond counted start =>
      rw [advance] at moved
      split at moved <;> cases moved
      exact .selecting (kept.congr rfl rfl fun _ _ => rfl) (beyond.congr rfl fun _ _ => rfl) counted
        fun _ => start

/-! ## The steps of a process -/

/-- Wherever the fan-out stands, some first subtasks are committed, and no more are counted. -/
theorem Standing.kept (standing : Standing count state runState stage) :
    ∃ done, state.Kept count done ∧ state.subtasksCompleted ≤ done := by
  cases standing with
  | selecting kept beyond counted start => exact ⟨_, kept, Nat.le_of_eq counted⟩
  | uncommitted kept beyond counted below before left => exact ⟨_, kept, Nat.le_of_eq counted⟩
  | made kept beyond counted below isMade once => exact ⟨_, kept, Nat.le_of_eq counted⟩
  | marked kept beyond counted start => exact ⟨_, kept, Nat.le_succ_of_le (Nat.le_of_eq counted)⟩
  | counted kept beyond counted start => exact ⟨_, kept, Nat.le_of_eq counted⟩
  | refreshed kept beyond counted start => exact ⟨_, kept, Nat.le_of_eq counted⟩
  | post kept beyond counted => exact ⟨_, kept, Nat.le_of_eq counted⟩

theorem sound_crash (standing : Standing count state runState stage)
    (survivable : state.Survivable (List.range' 1 count)) :
    Sound count { state with process := .crashed } := by
  obtain ⟨done, kept, counted⟩ := standing.kept
  have recorded := survivable.counted
  rw [kept.recorded] at recorded
  refine ⟨done, kept.congr rfl rfl fun _ _ => rfl, ?_, Nat.le_antisymm counted recorded, ?_⟩
  · intro order later
    have unmade := survivable.recorded order (kept.commitSha_eq_none.mpr (.inr later))
    exact ⟨unmade.branch, unmade.operation⟩
  · intro below
    refine survivable.charged ⟨done + 1, ?_, kept.commitSha_eq_none.mpr (.inr (Nat.lt_succ_self _))⟩
    exact List.mem_range'_1.mpr ⟨Nat.le_add_left 1 done, by omega⟩

/-- Only the subtask in its region and the nodes after the region change anything at will. -/
theorem Standing.edit {progress : Progress} {rest : List Nat}
    (standing : Standing count state runState (.unit order rest progress)) (after : FanOutState)
    (region : progress = .region) (branch : after.branch = state.branch)
    (rows : after.commitSha = state.commitSha) (work : after.work = state.work)
    (operation : after.operation = state.operation)
    (counted : after.subtasksCompleted = state.subtasksCompleted) (next : FlowRunState) :
    Standing count after next (.unit order rest progress) := by
  subst region
  cases standing with
  | uncommitted kept beyond isCounted below before left =>
      exact .uncommitted (kept.congr branch rows fun order _ => congrFun work order)
        (beyond.congr branch fun order _ => congrFun operation order) (counted.trans isCounted)
        below before fun other => absurd rfl other
  | made kept beyond isCounted below isMade once => cases isMade

theorem Standing.finish {rest : List Nat}
    (standing : Standing count state runState (.unit order rest .region)) :
    Sound count ({ state with work := Function.update state.work order state.tree }.goTo runState
      (.unit order rest .leaving)) := by
  cases standing with
  | @uncommitted done _ kept beyond counted below before left =>
      have others : ∀ earlier ≤ done, Function.update state.work (done + 1) state.tree earlier =
          state.work earlier :=
        fun earlier within => Function.update_of_ne (Nat.ne_of_lt (Nat.lt_succ_of_le within)) _ _
      exact .uncommitted (kept.congr rfl rfl others) (beyond.congr rfl fun _ _ => rfl) counted below
        rfl fun _ => Function.update_self _ _ _
  | made kept beyond isCounted below isMade once => cases isMade

theorem Standing.post_congr (standing : Standing count state runState .post) (after : FanOutState)
    (branch : after.branch = state.branch) (rows : after.commitSha = state.commitSha)
    (work : after.work = state.work) (operation : after.operation = state.operation)
    (counted : after.subtasksCompleted = state.subtasksCompleted) (next : FlowRunState) :
    Standing count after next .post := by
  cases standing with
  | post kept beyond isCounted =>
      exact .post (kept.congr branch rows fun order _ => congrFun work order)
        (beyond.congr branch fun order _ => congrFun operation order) (counted.trans isCounted)

theorem sound_ended (standing : Standing count state runState stage) :
    Sound count { state with process := .ended } := by
  obtain ⟨done, kept, -⟩ := standing.kept
  exact ⟨done, kept.congr rfl rfl fun _ _ => rfl⟩

theorem sound_of_standing (running : state.process = .running runState stage)
    (standing : Standing count state runState stage) : state.Sound count := by
  rw [Sound, running]
  exact standing

/-- Every step keeps what holds between steps, a crash when it is survivable. -/
theorem sound_step {event : FanOutEvent}
    (moved : step (List.range' 1 count) regionEntry postEntry event state = some after)
    (survivable : event = .crash → state.Survivable (List.range' 1 count))
    (sound : state.Sound count) : after.Sound count := by
  cases event with
  | advance sha =>
      rw [step] at moved
      split at moved
      · next running => exact sound_advance running sound moved
      · cases moved
  | edit tree =>
      rw [step] at moved
      split at moved <;> cases moved
      · next running =>
        rw [Sound, running] at sound
        exact sound_of_standing running (sound.edit { state with tree } rfl rfl rfl rfl rfl rfl _)
      · next running =>
        rw [Sound, running] at sound
        exact sound_of_standing running (sound.post_congr { state with tree } rfl rfl rfl rfl rfl _)
  | charge next =>
      rw [step] at moved
      split at moved <;> cases moved
      · next running =>
        rw [Sound, running] at sound
        exact sound.edit
          ({ state with checkpoint := next }.goTo next _) rfl rfl rfl rfl rfl rfl next
      · next running =>
        rw [Sound, running] at sound
        exact sound.post_congr
          ({ state with checkpoint := next }.goTo next _) rfl rfl rfl rfl rfl next
  | finish =>
      rw [step] at moved
      split at moved <;> cases moved
      · next running =>
        rw [Sound, running] at sound
        exact sound.finish
      · next running =>
        rw [Sound, running] at sound
        exact sound_ended sound
  | fail =>
      rw [step] at moved
      split at moved <;> cases moved
      · next running =>
        rw [Sound, running] at sound
        exact sound_ended sound
      · next running =>
        rw [Sound, running] at sound
        exact sound_ended sound
  | crash =>
      rw [step] at moved
      split at moved <;> cases moved
      next running =>
        rw [Sound, running] at sound
        exact sound_crash sound (survivable rfl)
  | resume =>
      rw [step] at moved
      split at moved
      · next crashed =>
        rw [Sound, crashed] at sound
        obtain ⟨done, kept, beyond, counted, start⟩ := sound
        rw [if_pos (kept.reconcileDecomposed counted)] at moved
        cases moved
        rw [kept.uncommitted]
        exact .selecting (kept.congr rfl rfl fun _ _ => rfl) (beyond.congr rfl fun _ _ => rfl)
          counted start
      · cases moved

/-- The fan-out has survived so far: the reconciler lets a crashed one go on, every recorded commit
is the one commit of its subtask, no subtask is taken that has a commit, each is taken with the
counters that it starts with where nothing interrupts, and the nodes after the region are reached
with every subtask committed. -/
structure Survives (orders : List Nat) (state : FanOutState) : Prop where
  continues : state.process = .crashed → state.reconcileDecomposed orders = true
  unparked : state.process ≠ .parked
  once : ∀ order sha, state.commitSha order = some sha → state.CommittedOnce order sha
  starts : ∀ runState order rest, state.process = .running runState (.selecting (order :: rest)) →
    state.Unmade order ∧ runState.counter = state.nextStart.counter
  finished : ∀ runState, state.process = .running runState .post →
    ∀ order ∈ orders, state.commitSha order ≠ none

theorem Sound.survives (sound : state.Sound count) : state.Survives (List.range' 1 count) := by
  have kept : ∃ done, state.Kept count done := by
    unfold Sound at sound
    split at sound
    · exact sound.kept.imp fun _ facts => facts.1
    · exact sound.imp fun _ facts => facts.1
    · exact sound.elim
    · exact sound
  obtain ⟨done, kept⟩ := kept
  refine ⟨fun crashed => ?_, fun parked => ?_, kept.once, fun runState order rest running => ?_,
    fun runState running order among => ?_⟩
  · rw [Sound, crashed] at sound
    obtain ⟨done, kept, -, counted, -⟩ := sound
    exact kept.reconcileDecomposed counted
  · rw [Sound, parked] at sound
    exact sound
  · rw [Sound, running] at sound
    generalize isStage : Stage.selecting (order :: rest) = stage at sound
    cases sound with
    | @selecting done kept beyond counted start =>
        cases more : count - done with
        | zero =>
            rw [more] at isStage
            cases isStage
        | succ others =>
            rw [more, List.range'_succ] at isStage
            cases isStage
            exact ⟨beyond _ (Nat.lt_succ_self done), start (by omega)⟩
    | _ => cases isStage
  · rw [Sound, running] at sound
    cases sound with
    | post kept beyond counted =>
        rw [kept.rows]
        have range := List.mem_range'_1.mp among
        omega

theorem sound_begin {branch : List BranchCommit} {tree : List String} {gateReference : String}
    {runState : FlowRunState} (rooted : branch ≠ [])
    (base : ∀ commit ∈ branch, commit.subtask = none) :
    (begin (List.range' 1 count) branch tree gateReference runState).Sound count := by
  have kept : Kept count 0 (begin (List.range' 1 count) branch tree gateReference runState) := by
    refine ⟨Nat.zero_le count, rooted, fun order => ?_, fun order sha row => nomatch row⟩
    exact ⟨fun some => absurd rfl some, fun within => by omega⟩
  have beyond : Beyond 0 (begin (List.range' 1 count) branch tree gateReference runState) := by
    refine fun order _ => ⟨fun commit among => ?_, fun sha => (nomatch ·)⟩
    rw [base commit among]
    exact (nomatch ·)
  exact .selecting kept beyond rfl fun _ => rfl

end FanOutState

open FanOutState

/-- A split into two subtasks. -/
def twoSubtasks : List SubtaskSpec :=
  [⟨1, "First", "first", ["a"], [], none⟩, ⟨2, "Second", "second", ["b"], [1], none⟩]

/-- The split, before its first subtask. -/
def twoSubtasksBegun : FanOutState :=
  begin [1, 2] [⟨"base", none, []⟩] [] "base" ⟨"flow", none, [], ∅⟩

theorem survivable_entered : ({ twoSubtasksBegun with
    checkpoint := ⟨"flow", some "implement", [], ∅⟩
    process := .running ⟨"flow", none, [], ∅⟩ (.unit 1 [2] .region) } : FanOutState).Survivable
      [1, 2] := by
  refine ⟨fun order _ => ⟨fun commit among => ?_, fun sha => (nomatch ·)⟩, le_refl 0, fun _ => rfl⟩
  rw [List.mem_singleton.mp among]
  exact (nomatch ·)

end Orchestrator.Decomposition
