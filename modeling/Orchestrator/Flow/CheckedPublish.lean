import Orchestrator.Checks.Selection
import Orchestrator.Git.PushSafety

/-! # Attempts to publish

An attempt merges in what others put on origin's branch, checks the combination again and then
pushes. The merge stays when the attempt stops; the duty to check does not.
-/

namespace Orchestrator.Flow

open Orchestrator.Foundation
open Orchestrator.Git
open Orchestrator.Checks (CheckOutcome ResolvedCheckSet selectCheckSets)

/-- Where a publish attempt is. -/
inductive PublishStage where
  | idle
  | adopting
  | recording (found : Bool)
  | rechecking
  | pushing
  deriving DecidableEq

/-- A run of the selected check sets over a commit. -/
structure CheckRecord (Tree : Type) where
  tip : Commit Tree
  selected : List ResolvedCheckSet
  outcome : CheckOutcome
  deriving DecidableEq

/-- The refs, the stage of the attempt, the tips that adoptions made, and the checks that ran. -/
structure PublishState (Tree : Type) where
  refs : BranchState Tree
  stage : PublishStage
  adopted : List (Commit Tree)
  checks : List (CheckRecord Tree)
  deriving DecidableEq

/-- What an attempt and its surroundings do. -/
inductive PublishEvent (Tree : Type) where
  | outside (event : PushEvent Tree)
  | start
  | adoptProbe (answered : Bool)
  | adoptDecide
  | adoptMerge (fetched listed conflicts : Bool) (tree : Tree) (message : String)
  | adoptRecord
  | recheck (changed : Option (List String)) (outcome : CheckOutcome)
  | publish (event : PushEvent Tree)
  | stop
  deriving DecidableEq

/-- The aggregate `passed` of a run of checks. -/
def outcomePassed (outcome : CheckOutcome) : Bool :=
  !(outcome.anyQualityFailed || outcome.anyLaunchFailed || outcome.nothingRan)

/-- `_recheck_adopted` returns: nothing is selected, or what is selected passed. -/
def recheckAdopted (selected : List ResolvedCheckSet) (outcome : CheckOutcome) : Bool :=
  selected = [] || outcomePassed outcome && !(outcome.anyLaunchFailed || outcome.nothingRan)

variable {Tree : Type} [DecidableEq Tree]

/-- `_commits_only_on_remote`: none when git does not answer. -/
def commitsOnlyOnRemote (here : Commit Tree) (tracking : Option (Commit Tree)) (listed : Bool) :
    List (Commit Tree) :=
  match tracking, listed with
  | some theirs, true => theirs.ancestors.filter fun commit => !commit.isAncestor here
  | _, _ => []

namespace PublishState

variable (sets : List ResolvedCheckSet)

/-- The merge of `adopt_foreign_commits`, and whether it reports commits. -/
def adoptMerge (fetched listed conflicts : Bool) (tree : Tree) (message : String)
    (state : PublishState Tree) : PublishState Tree :=
  let tracking := if fetched then state.refs.origin else state.refs.tracking
  let refs := state.refs.merge false fetched conflicts tree message
  match state.refs.branch with
  | none => { state with refs := refs, stage := .idle }
  | some here =>
      match adoptRemoteCommits here tracking state.refs.mergeRecorded conflicts tree message with
      | none => { state with refs := refs, stage := .idle }
      | some (tip, made) =>
          let found := decide (commitsOnlyOnRemote here tracking listed ≠ [])
          { state with
            refs := refs
            adopted := if tip = here then state.adopted else state.adopted ++ [tip]
            stage := if made then .recording found else if found then .rechecking else .pushing }

/-- `_recheck_adopted`: it returns, or the attempt is parked. -/
def recheck (changed : Option (List String)) (outcome : CheckOutcome) (state : PublishState Tree) :
    Option (PublishState Tree) :=
  state.refs.branch.map fun tip =>
    let selected := selectCheckSets sets changed
    { state with
      checks := state.checks ++ [⟨tip, selected, outcome⟩]
      stage := if recheckAdopted selected outcome then .pushing else .idle }

/-- A step of `push`; the attempt is over when `push` is. -/
def publish (event : PushEvent Tree) (state : PublishState Tree) : Option (PublishState Tree) :=
  match event with
  | .probe answered true =>
      if alreadyPublished state.refs.row state.refs.branch then some { state with stage := .idle }
      else (BranchState.step (.probe answered true) state.refs).map fun refs =>
        { state with refs := refs }
  | .decide | .merge .. | .recordMerge | .send | .record =>
      (BranchState.step event state.refs).map fun refs =>
        { state with refs := refs, stage := if refs.phase = .idle then .idle else .pushing }
  | _ => none

/-- What an event does, at the stages that it can come in. -/
def step (event : PublishEvent Tree) (state : PublishState Tree) :
    Option (PublishState Tree) :=
  match event, state.stage with
  | .outside (.foreignPush origin), _ =>
      (BranchState.step (.foreignPush origin) state.refs).map fun refs =>
        { state with refs := refs }
  | .stop, _ => some { state with refs := { state.refs with phase := .idle }, stage := .idle }
  | .outside (.commit tree message), .idle =>
      (BranchState.step (.commit tree message) state.refs).map fun refs =>
        { state with refs := refs }
  | .outside (.rewrite branch), .idle =>
      (BranchState.step (.rewrite branch) state.refs).map fun refs => { state with refs := refs }
  | .outside .rerun, .idle =>
      (BranchState.step .rerun state.refs).map fun refs => { state with refs := refs }
  | .start, .idle => some { state with stage := .adopting }
  | .adoptProbe answered, .adopting =>
      if alreadyPublished state.refs.row state.refs.branch then
        some { state with stage := .pushing }
      else (BranchState.step (.probe answered false) state.refs).map fun refs =>
        { state with refs := refs }
  | .adoptDecide, .adopting =>
      (BranchState.step .decide state.refs).map fun refs =>
        { state with refs := refs, stage := if refs.phase = .idle then .pushing else .adopting }
  | .adoptMerge fetched listed conflicts tree message, .adopting =>
      match state.refs.phase with
      | .adopting false => some (state.adoptMerge fetched listed conflicts tree message)
      | _ => none
  | .adoptRecord, .recording found =>
      (BranchState.step .recordMerge state.refs).map fun refs =>
        { state with refs := refs, stage := if found then .rechecking else .pushing }
  | .recheck changed outcome, .rechecking => state.recheck sets changed outcome
  | .publish event, .pushing => state.publish event
  | _, _ => none

end PublishState

end Orchestrator.Flow

/-! ## What a publish sends

As long as no attempt leaves a merge of others on the branch that no passed check covers, every
push sends a checked combination.
-/

namespace Orchestrator.Flow

open Orchestrator.Foundation
open Orchestrator.Git
open Orchestrator.Checks (CheckOutcome ResolvedCheckSet selectCheckSets)

variable {Tree : Type} [DecidableEq Tree]

namespace PublishState

/-- Each adopted tip that a ref reaches is in a commit of the ref on which the selected checks
passed. -/
def Covered (state : PublishState Tree) (ref : Option (Commit Tree)) : Prop :=
  ∀ tip ∈ state.adopted, reaches ref tip = true →
    ∃ record ∈ state.checks, recheckAdopted record.selected record.outcome = true ∧
      tip.isAncestor record.tip = true ∧ reaches ref record.tip = true

instance (state : PublishState Tree) (ref : Option (Commit Tree)) :
    Decidable (state.Covered ref) :=
  inferInstanceAs (Decidable (∀ tip ∈ state.adopted, reaches ref tip = true →
    ∃ record ∈ state.checks, recheckAdopted record.selected record.outcome = true ∧
      tip.isAncestor record.tip = true ∧ reaches ref record.tip = true))

/-- The merge of an adoption is made and not checked yet. -/
def window (state : PublishState Tree) : Bool :=
  match state.stage with
  | .recording found => found
  | .rechecking => true
  | _ => false

end PublishState

/-- The step leaves nothing unchecked on the branch: no stop and no failed check between a merge
and the check of it, no merge whose commits git fails to list, and no other change of the branch
that brings in an adopted tip without a check of it. -/
def settles (sets : List ResolvedCheckSet)
    (transition : Transition (PublishState Tree) (PublishEvent Tree)) : Bool :=
  let before := transition.before
  let branch := transition.after.refs.branch
  match transition.event with
  | .stop => before.Covered before.refs.branch
  | .recheck changed outcome =>
      recheckAdopted (selectCheckSets sets changed) outcome || before.Covered before.refs.branch
  | .adoptMerge _ listed _ _ _ => listed || branch = before.refs.branch
  | .outside (.commit ..) => before.Covered branch
  | .outside (.rewrite _) => before.Covered branch
  | .publish (.merge ..) => before.Covered branch
  | _ => true

/-- A push that origin accepts sends a checked combination. -/
def SendsChecked (transition : Transition (PublishState Tree) (PublishEvent Tree)) : Prop :=
  transition.event = .publish .send → transition.after.refs.phase = .sent →
    transition.before.Covered transition.after.refs.origin

instance : DecidablePred (@SendsChecked Tree _) := fun transition =>
  inferInstanceAs (Decidable (transition.event = .publish .send →
    transition.after.refs.phase = .sent →
      transition.before.Covered transition.after.refs.origin))

/-! ## The branch -/

section Branch

variable {refs : BranchState Tree}

omit [DecidableEq Tree] in
@[simp] theorem branch_afterAdoption (publishing : Bool) :
    (refs.afterAdoption publishing).branch = refs.branch := by
  cases publishing <;> rfl

@[simp] theorem branch_decide (remoteSha : Option (Commit Tree)) (publishing : Bool) :
    (refs.decide remoteSha publishing).branch = refs.branch := by
  unfold BranchState.decide
  dsimp only
  cases pushPlan (recordedPushSha refs.row) refs.branch remoteSha <;> cases publishing <;> rfl

@[simp] theorem branch_send (lease : Option (Commit Tree)) :
    (refs.send lease).branch = refs.branch := by
  unfold BranchState.send
  cases refs.branch.bind (gitPush lease refs.origin) <;> rfl

/-- Only commits, rewrites and merges change the branch. -/
theorem branch_step {event : PushEvent Tree} {after : BranchState Tree}
    (moved : BranchState.step event refs = some after) (still : event.movesBranch = false) :
    after.branch = refs.branch := by
  unfold BranchState.step at moved
  split at moved
  case h_3 => cases still
  case h_4 => cases still
  case h_6 =>
    split at moved
    · cases moved
    · cases moved
      rfl
  case h_7 =>
    cases moved
    exact branch_decide _ _
  case h_8 => cases still
  case h_9 =>
    cases moved
    exact branch_afterAdoption _
  case h_10 =>
    cases moved
    exact branch_send _
  case h_12 => cases moved
  all_goals
    cases moved
    rfl

/-- A push that is accepted sends the branch. -/
theorem origin_of_sent {lease : Option (Commit Tree)} (sent : (refs.send lease).phase = .sent) :
    (refs.send lease).origin = refs.branch := by
  unfold BranchState.send at sent ⊢
  cases accepted : refs.branch.bind (gitPush lease refs.origin) with
  | none =>
      rw [accepted] at sent
      cases sent
  | some sha =>
      obtain ⟨here, found, accepts⟩ := Option.bind_eq_some_iff.mp accepted
      rw [found]
      unfold gitPush at accepts
      split at accepts
      · exact accepts.symm
      · split at accepts
        · exact accepts.symm
        · cases accepts
      · split at accepts
        · exact accepts.symm
        · cases accepts

end Branch

/-- An adoption that reports nothing has merged nothing. -/
theorem eq_of_nothing_found {here tip : Commit Tree} {tracking : Option (Commit Tree)}
    {mergeRecorded conflicts made : Bool} {tree : Tree} {message : String}
    (adopted : adoptRemoteCommits here tracking mergeRecorded conflicts tree message =
      some (tip, made)) (nothing : commitsOnlyOnRemote here tracking true = []) : tip = here := by
  cases tracking with
  | none => cases adopted
  | some theirs =>
      have behind : theirs.isAncestor here = true := by
        by_contra ahead
        have listed : theirs ∈ commitsOnlyOnRemote here (some theirs) true := by
          refine List.mem_filter.mpr ⟨theirs.mem_ancestors_self, ?_⟩
          rw [Bool.eq_false_of_not_eq_true ahead]
          rfl
        rw [nothing] at listed
        cases listed
      unfold adoptRemoteCommits startMerge at adopted
      dsimp only at adopted
      rw [if_pos behind] at adopted
      cases adopted
      rfl

namespace PublishState

variable {sets : List ResolvedCheckSet} {state after : PublishState Tree}

/-- Outside the window nothing on the branch is unchecked. -/
def Sound (state : PublishState Tree) : Prop :=
  state.window = false → state.Covered state.refs.branch

theorem Covered.congr {other : PublishState Tree} {ref : Option (Commit Tree)}
    (covered : state.Covered ref) (adopted : other.adopted = state.adopted)
    (checks : other.checks = state.checks) : other.Covered ref := by
  unfold Covered at covered ⊢
  rw [adopted, checks]
  exact covered

/-- A state with the same branch, adoptions and checks is sound when the first had nothing
unchecked. -/
theorem sound_of_same {refs : BranchState Tree} {stage : PublishStage}
    (covered : state.Covered state.refs.branch) (branch : refs.branch = state.refs.branch) :
    ({ state with refs := refs, stage := stage } : PublishState Tree).Sound := by
  intro _
  dsimp only
  rw [branch]
  exact covered.congr rfl rfl

/-- The merge of an adoption is checked next, or merges nothing. -/
theorem sound_adoptMerge (covered : state.Covered state.refs.branch)
    {fetched listed conflicts : Bool} {tree : Tree} {message : String}
    (settled : listed = true ∨
      (state.adoptMerge fetched listed conflicts tree message).refs.branch = state.refs.branch) :
    (state.adoptMerge fetched listed conflicts tree message).Sound := by
  unfold PublishState.adoptMerge BranchState.merge at settled ⊢
  dsimp only at settled ⊢
  cases found : state.refs.branch with
  | none => exact sound_of_same covered found.symm
  | some here =>
      rw [found] at settled
      dsimp only at settled ⊢
      cases adopted : adoptRemoteCommits here
          (if fetched then state.refs.origin else state.refs.tracking)
          state.refs.mergeRecorded conflicts tree message with
      | none => exact sound_of_same covered found.symm
      | some result =>
          obtain ⟨tip, made⟩ := result
          rw [adopted] at settled
          dsimp only at settled ⊢
          have branch : (if made then
              { state.refs with
                branch := some tip
                tracking := if fetched then state.refs.origin else state.refs.tracking
                phase := .merged false }
            else
              { state.refs with
                branch := some tip
                tracking := if fetched then state.refs.origin else state.refs.tracking
                }.afterAdoption false : BranchState Tree).branch = some tip := by
            cases made <;> rfl
          by_cases unmoved : tip = here
          · rw [if_pos unmoved]
            apply sound_of_same covered
            rw [branch, unmoved, found]
          · have lists : listed = true := by
              apply settled.resolve_right
              intro same
              exact unmoved (Option.some.inj (branch.symm.trans same))
            have news : commitsOnlyOnRemote here
                (if fetched then state.refs.origin else state.refs.tracking) listed ≠ [] := by
              rw [lists]
              exact fun nothing => unmoved (eq_of_nothing_found adopted nothing)
            intro closed
            dsimp only [window] at closed
            rw [decide_eq_true news] at closed
            cases made <;> cases closed

/-- Checks that pass over the branch cover it. -/
theorem covered_recheck {changed : Option (List String)} {outcome : CheckOutcome}
    (moved : state.recheck sets changed outcome = some after)
    (settled : recheckAdopted (selectCheckSets sets changed) outcome = true ∨
      state.Covered state.refs.branch) : after.Covered after.refs.branch := by
  obtain ⟨here, found, rfl⟩ := Option.map_eq_some_iff.mp moved
  intro tip among reached
  rcases settled with passed | covered
  · refine ⟨⟨here, selectCheckSets sets changed, outcome⟩,
      List.mem_append_right _ (List.mem_singleton.mpr rfl), passed, ?_, ?_⟩
    · dsimp only at reached
      rw [found] at reached
      exact reached
    · dsimp only
      rw [found]
      exact decide_eq_true here.mem_ancestors_self
  · obtain ⟨record, ran, rest⟩ := covered tip among reached
    exact ⟨record, List.mem_append_left _ ran, rest⟩

/-- Of the steps of a push, only a merge of its own changes the branch. -/
theorem covered_publish {event : PushEvent Tree} (covered : state.Covered state.refs.branch)
    (moved : state.publish event = some after)
    (settled : settles sets ⟨state, .publish event, after⟩ = true) :
    after.Covered after.refs.branch := by
  unfold publish at moved
  split at moved
  case h_1 =>
    split at moved
    · cases moved
      exact covered.congr rfl rfl
    · obtain ⟨refs, probed, rfl⟩ := Option.map_eq_some_iff.mp moved
      dsimp only
      rw [branch_step probed rfl]
      exact covered.congr rfl rfl
  case h_3 =>
    obtain ⟨refs, merged, rfl⟩ := Option.map_eq_some_iff.mp moved
    exact (of_decide_eq_true settled : state.Covered refs.branch).congr rfl rfl
  case h_7 => cases moved
  all_goals
    obtain ⟨refs, pushed, rfl⟩ := Option.map_eq_some_iff.mp moved
    dsimp only
    rw [branch_step pushed rfl]
    exact covered.congr rfl rfl

/-- An event leaves the state sound when it settles what it may leave. -/
theorem sound_step {event : PublishEvent Tree} (sound : state.Sound)
    (moved : PublishState.step sets event state = some after)
    (settled : settles sets ⟨state, event, after⟩ = true) : after.Sound := by
  have idle : state.stage = .idle → state.Covered state.refs.branch := fun stage =>
    sound (by rw [window, stage])
  have adopting : state.stage = .adopting → state.Covered state.refs.branch := fun stage =>
    sound (by rw [window, stage])
  have pushing : state.stage = .pushing → state.Covered state.refs.branch := fun stage =>
    sound (by rw [window, stage])
  unfold PublishState.step at moved
  split at moved
  case h_1 =>
    obtain ⟨refs, pushed, rfl⟩ := Option.map_eq_some_iff.mp moved
    intro closed
    dsimp only
    rw [branch_step pushed rfl]
    exact (sound closed).congr rfl rfl
  case h_2 =>
    cases moved
    exact sound_of_same (of_decide_eq_true settled) rfl
  case h_3 =>
    obtain ⟨refs, pushed, rfl⟩ := Option.map_eq_some_iff.mp moved
    exact fun _ => (of_decide_eq_true settled : state.Covered refs.branch).congr rfl rfl
  case h_4 =>
    obtain ⟨refs, pushed, rfl⟩ := Option.map_eq_some_iff.mp moved
    exact fun _ => (of_decide_eq_true settled : state.Covered refs.branch).congr rfl rfl
  case h_5 stage =>
    obtain ⟨refs, pushed, rfl⟩ := Option.map_eq_some_iff.mp moved
    exact sound_of_same (idle stage) (branch_step pushed rfl)
  case h_6 stage =>
    cases moved
    exact sound_of_same (idle stage) rfl
  case h_7 stage =>
    split at moved
    · cases moved
      exact sound_of_same (adopting stage) rfl
    · obtain ⟨refs, probed, rfl⟩ := Option.map_eq_some_iff.mp moved
      exact sound_of_same (adopting stage) (branch_step probed rfl)
  case h_8 stage =>
    obtain ⟨refs, decided, rfl⟩ := Option.map_eq_some_iff.mp moved
    exact sound_of_same (adopting stage) (branch_step decided rfl)
  case h_9 stage =>
    split at moved
    · cases moved
      apply sound_adoptMerge (adopting stage)
      rcases Bool.or_eq_true _ _ ▸ settled with lists | same
      · exact .inl lists
      · exact .inr (of_decide_eq_true same)
    · cases moved
  case h_10 found stage =>
    obtain ⟨refs, recorded, rfl⟩ := Option.map_eq_some_iff.mp moved
    cases found with
    | true =>
        intro closed
        cases closed
    | false =>
        have covered : state.Covered state.refs.branch := sound (by rw [window, stage])
        exact sound_of_same covered (branch_step recorded rfl)
  case h_11 =>
    intro _
    apply covered_recheck moved
    rcases Bool.or_eq_true _ _ ▸ settled with passed | covered
    · exact .inl passed
    · exact .inr (of_decide_eq_true covered)
  case h_12 stage => exact fun _ => covered_publish (pushing stage) moved settled
  case h_13 => cases moved

/-- A push sends the branch, and nothing on it is unchecked. -/
theorem sendsChecked_of_sound {event : PublishEvent Tree} (sound : state.Sound)
    (moved : PublishState.step sets event state = some after) :
    SendsChecked ⟨state, event, after⟩ := by
  intro sends sent
  dsimp only at sends sent ⊢
  subst sends
  cases stage : state.stage with
  | pushing =>
      have covered : state.Covered state.refs.branch := sound (by rw [window, stage])
      unfold PublishState.step at moved
      rw [stage] at moved
      obtain ⟨refs, pushed, rfl⟩ := Option.map_eq_some_iff.mp moved
      dsimp only at sent ⊢
      cases phase : state.refs.phase with
      | sending lease =>
          unfold BranchState.step at pushed
          rw [phase] at pushed
          cases pushed
          rw [origin_of_sent sent]
          exact covered
      | _ =>
          unfold BranchState.step at pushed
          rw [phase] at pushed
          cases pushed
  | _ =>
      unfold PublishState.step at moved
      rw [stage] at moved
      cases moved

end PublishState

/-- In a run whose steps leave nothing unchecked on the branch, a push sends only checked
combinations. -/
theorem publishRun_checked {sets : List ResolvedCheckSet} {start last : PublishState Tree}
    {transitions : List (Transition (PublishState Tree) (PublishEvent Tree))}
    (run : Run (PublishState.step sets) start transitions last) (fresh : start.adopted = [])
    (settled : ∀ transition ∈ transitions, settles sets transition = true) :
    ∀ transition ∈ transitions, SendsChecked transition := by
  have initial : start.Sound := by
    intro _ tip among
    rw [fresh] at among
    cases among
  have sound := (run.invariant initial
    (fun _ moved settled sound => PublishState.sound_step sound moved settled) settled).1
  intro transition among
  exact PublishState.sendsChecked_of_sound (sound transition among) (run.moved_of_mem among)

/-- A published branch, before an attempt on which others have pushed. -/
def divergedBranch : PublishState Nat :=
  let base : Commit Nat := .mk 1 "base" .none
  { refs :=
      { branch := some (base.child 2 "task")
        origin := some (base.child 3 "theirs")
        tracking := some base
        row := none
        mergeRecorded := false
        foreign := [base.child 3 "theirs"]
        phase := .idle }
    stage := .idle
    adopted := []
    checks := [] }

/-- The events of an adoption, up to its check. -/
def adoptionEvents (outcome : CheckOutcome) : List (PublishEvent Nat) :=
  [.start, .adoptProbe true, .adoptDecide, .adoptMerge true true false 5 "merge", .adoptRecord,
    .recheck none outcome]

/-- The events of a push. -/
def pushEvents : List (PublishEvent Nat) :=
  [.publish (.probe true true), .publish .decide, .publish .send]

/-- A set that every change selects. -/
def everyChange : List ResolvedCheckSet := [⟨"all", []⟩]

/-- An attempt in which the checks over the merge pass. -/
def passedAttempt : List (PublishEvent Nat) := adoptionEvents {} ++ pushEvents

/-- An attempt in which they fail, and the next one. -/
def failedAttempt : List (PublishEvent Nat) :=
  adoptionEvents { anyQualityFailed := true } ++
    [.outside .rerun, .start, .adoptProbe true, .adoptDecide] ++ pushEvents

theorem publishRun_checked_passed :
    ((replay (PublishState.step everyChange) divergedBranch passedAttempt).getD
      ([], divergedBranch)).1 ≠ [] ∧
    ∀ transition ∈ ((replay (PublishState.step everyChange) divergedBranch passedAttempt).getD
        ([], divergedBranch)).1, SendsChecked transition :=
  ⟨by decide, publishRun_checked
    (run_of_replay (by decide :
      replay (PublishState.step everyChange) divergedBranch passedAttempt =
        some ((replay (PublishState.step everyChange) divergedBranch passedAttempt).getD
          ([], divergedBranch))))
    rfl (by decide)⟩

/-- The checks over a merge fail, and the next attempt pushes it. -/
theorem failed_merge_sent :
    ∃ transitions last,
      Run (PublishState.step everyChange) divergedBranch transitions last ∧
        ∃ transition ∈ transitions, ¬ SendsChecked transition := by
  have unchecked : (replay (PublishState.step everyChange) divergedBranch failedAttempt).any
      (fun replayed => replayed.1.any fun transition => ¬ SendsChecked transition) = true := by
    decide
  obtain ⟨⟨transitions, last⟩, replayed, any⟩ := (Option.any_eq_true _ _).mp unchecked
  obtain ⟨transition, among, sends⟩ := List.any_eq_true.mp any
  exact ⟨transitions, last, run_of_replay replayed, transition, among, of_decide_eq_true sends⟩

end Orchestrator.Flow
