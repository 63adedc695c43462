import Orchestrator.Git.Push

/-! # What a push keeps

As long as the branch has every commit of others that the recorded push reaches, no push makes
a commit of others unreachable from origin: a lease only matches the recorded commit.
-/

namespace Orchestrator.Git

open Orchestrator.Foundation

variable {Tree : Type} [DecidableEq Tree]

theorem reaches_some {tip commit : Commit Tree} :
    reaches (some tip) commit = true ↔ commit ∈ tip.ancestors := by
  rw [reaches, Commit.isAncestor, decide_eq_true_eq]

/-- What an ancestor reaches is reached. -/
theorem reaches_of_isAncestor {older newer commit : Commit Tree}
    (ancestor : older.isAncestor newer = true) (reached : reaches (some older) commit = true) :
    reaches (some newer) commit = true := by
  rw [reaches_some] at reached ⊢
  exact Commit.mem_ancestors_trans reached newer (of_decide_eq_true ancestor)

/-- An adopted branch reaches what the branch reached. -/
theorem isAncestor_of_adoptRemoteCommits {here branch : Commit Tree}
    {tracking : Option (Commit Tree)} {mergeRecorded conflicts made : Bool} {tree : Tree}
    {message : String}
    (adopted : adoptRemoteCommits here tracking mergeRecorded conflicts tree message =
      some (branch, made)) : here.isAncestor branch = true := by
  have itself : here.isAncestor here = true := decide_eq_true here.mem_ancestors_self
  unfold adoptRemoteCommits at adopted
  cases started : startMerge here tracking conflicts with
  | none =>
      rw [started] at adopted
      cases adopted
  | some start =>
      rw [started] at adopted
      cases start with
      | upToDate =>
          cases adopted
          exact itself
      | fastForward theirs =>
          cases adopted
          unfold startMerge at started
          cases tracking with
          | none => cases started
          | some found =>
              dsimp only at started
              by_cases behind : found.isAncestor here = true
              · rw [if_pos behind] at started
                cases started
              · rw [if_neg behind] at started
                by_cases ahead : here.isAncestor found = true
                · rw [if_pos ahead] at started
                  cases started
                  exact ahead
                · rw [if_neg ahead] at started
                  split at started <;> cases started
      | inProgress theirs =>
          dsimp only at adopted
          by_cases recorded : mergeRecorded = true
          · rw [if_pos recorded] at adopted
            cases adopted
          · rw [if_neg recorded] at adopted
            cases adopted
            exact decide_eq_true (Commit.mem_ancestors_merge.mpr
              (.inr (.inl here.mem_ancestors_self)))

namespace BranchState

variable {state : BranchState Tree}

/-- A leased push carries the recorded commit. -/
def LeaseRecorded (state : BranchState Tree) : Prop :=
  ∀ lease, state.phase = .sending (some lease) → recordedPushSha state.row = some lease

/-- What holds between any two events. -/
structure Sound (state : BranchState Tree) : Prop where
  holds : state.HoldsForeign
  lease : state.LeaseRecorded

/-- A state of the same commits, with the same recorded push, holds the same. -/
theorem HoldsForeign.congr {other : BranchState Tree} (holds : state.HoldsForeign)
    (foreign : other.foreign = state.foreign)
    (row : recordedPushSha other.row = recordedPushSha state.row)
    (branch : other.branch = state.branch) : other.HoldsForeign := by
  intro commit among reached
  rw [foreign] at among
  rw [row] at reached
  rw [branch]
  exact holds commit among reached

/-- A longer branch holds the same. -/
theorem HoldsForeign.extend {other : BranchState Tree} {here tip : Commit Tree}
    (holds : state.HoldsForeign) (foreign : other.foreign = state.foreign)
    (row : recordedPushSha other.row = recordedPushSha state.row)
    (old : state.branch = some here) (new : other.branch = some tip)
    (ancestor : here.isAncestor tip = true) : other.HoldsForeign := by
  intro commit among reached _
  rw [foreign] at among
  rw [row] at reached
  rw [new]
  apply reaches_of_isAncestor ancestor
  rw [← old]
  exact holds commit among reached (by rw [old]; exact Option.some_ne_none here)

/-- A record of the branch itself holds. -/
theorem holdsForeign_of_recorded {other : BranchState Tree}
    (row : recordedPushSha other.row = other.branch) : other.HoldsForeign := by
  intro commit _ reached _
  rwa [row] at reached

theorem Sound.afterAdoption (holds : state.HoldsForeign) (publishing : Bool) :
    (state.afterAdoption publishing).Sound := by
  cases publishing with
  | false => exact ⟨holds, nofun⟩
  | true => exact ⟨holds.congr rfl rfl rfl, nofun⟩

/-- What the plans that name a commit are taken for. -/
theorem of_pushPlan {recorded localSha remoteSha : Option (Commit Tree)} {sha : Commit Tree} :
    (pushPlan recorded localSha remoteSha = .skip sha → localSha = some sha) ∧
      (pushPlan recorded localSha remoteSha = .lease sha → recorded = some sha) := by
  unfold pushPlan
  cases remoteSha with
  | none => exact ⟨nofun, nofun⟩
  | some remote =>
      cases localSha with
      | none => exact ⟨nofun, nofun⟩
      | some here =>
          dsimp only
          by_cases same : remote = here
          · rw [if_pos same]
            exact ⟨fun plan => by cases plan; rw [same], nofun⟩
          · rw [if_neg same]
            by_cases behind : remote.isAncestor here = true
            · rw [if_pos behind]
              exact ⟨nofun, nofun⟩
            · rw [if_neg behind]
              by_cases ours : recorded = some remote
              · rw [if_pos ours]
                exact ⟨nofun, fun plan => by cases plan; exact ours⟩
              · rw [if_neg ours]
                exact ⟨nofun, nofun⟩

theorem Sound.decide (sound : state.Sound) (remoteSha : Option (Commit Tree))
    (publishing : Bool) : (state.decide remoteSha publishing).Sound := by
  unfold BranchState.decide
  dsimp only
  cases plan : pushPlan (recordedPushSha state.row) state.branch remoteSha with
  | adopt => exact ⟨sound.holds.congr rfl rfl rfl, nofun⟩
  | plain =>
      cases publishing with
      | false => exact ⟨sound.holds.congr rfl rfl rfl, nofun⟩
      | true => exact ⟨sound.holds.congr rfl rfl rfl, nofun⟩
  | skip sha =>
      cases publishing with
      | false => exact ⟨sound.holds.congr rfl rfl rfl, nofun⟩
      | true => exact ⟨holdsForeign_of_recorded (of_pushPlan.1 plan).symm, nofun⟩
  | lease sha =>
      cases publishing with
      | false => exact ⟨sound.holds.congr rfl rfl rfl, nofun⟩
      | true =>
          refine ⟨sound.holds.congr rfl rfl rfl, fun lease sending => ?_⟩
          cases sending
          exact of_pushPlan.2 plan

theorem Sound.merge (sound : state.Sound) (publishing fetched conflicts : Bool) (tree : Tree)
    (message : String) : (state.merge publishing fetched conflicts tree message).Sound := by
  unfold BranchState.merge
  dsimp only
  cases old : state.branch with
  | none => exact ⟨sound.holds.congr rfl rfl old.symm, nofun⟩
  | some here =>
      dsimp only
      cases adopted : adoptRemoteCommits here (if fetched then state.origin else state.tracking)
          state.mergeRecorded conflicts tree message with
      | none => exact ⟨sound.holds.congr rfl rfl old.symm, nofun⟩
      | some result =>
          obtain ⟨tip, made⟩ := result
          have holds : BranchState.HoldsForeign { state with
              branch := some tip
              tracking := if fetched then state.origin else state.tracking } :=
            sound.holds.extend rfl rfl old rfl (isAncestor_of_adoptRemoteCommits adopted)
          cases made with
          | true => exact ⟨holds.congr rfl rfl rfl, nofun⟩
          | false => exact Sound.afterAdoption holds publishing

theorem Sound.send (sound : state.Sound) (lease : Option (Commit Tree)) :
    (state.send lease).Sound := by
  unfold BranchState.send
  cases state.branch.bind (gitPush lease state.origin) with
  | none => exact ⟨sound.holds.congr rfl rfl rfl, nofun⟩
  | some sha => exact ⟨sound.holds.congr rfl rfl rfl, nofun⟩

omit [DecidableEq Tree] in
theorem leaseRecorded_of_idle (idle : state.phase = .idle) : state.LeaseRecorded :=
  fun lease sending => by
    rw [idle] at sending
    cases sending

/-- An event keeps a state sound, when a rewrite and a push by others leave what is recorded. -/
theorem Sound.step {event : PushEvent Tree} {after : BranchState Tree} (sound : state.Sound)
    (moved : BranchState.step event state = some after)
    (kept : KeepsForeign ⟨state, event, after⟩) : after.Sound := by
  unfold BranchState.step at moved
  split at moved
  case h_1 =>
    cases moved
    exact ⟨kept rfl, sound.lease⟩
  case h_2 =>
    cases moved
    exact ⟨sound.holds.congr rfl rfl rfl, nofun⟩
  case h_3 idle =>
    obtain ⟨here, found, rfl⟩ := Option.map_eq_some_iff.mp moved
    refine ⟨sound.holds.extend rfl rfl found rfl ?_, leaseRecorded_of_idle idle⟩
    exact decide_eq_true (Commit.mem_ancestors_child.mpr (.inr here.mem_ancestors_self))
  case h_4 idle =>
    cases moved
    exact ⟨kept rfl, leaseRecorded_of_idle idle⟩
  case h_5 idle =>
    cases moved
    exact ⟨fun _ _ reached => absurd reached Bool.false_ne_true, leaseRecorded_of_idle idle⟩
  case h_6 =>
    split at moved
    · cases moved
    · cases moved
      exact ⟨sound.holds.congr rfl rfl rfl, nofun⟩
  case h_7 =>
    cases moved
    exact sound.decide _ _
  case h_8 =>
    cases moved
    exact sound.merge _ _ _ _ _
  case h_9 =>
    cases moved
    have holds : HoldsForeign { state with mergeRecorded := true } :=
      sound.holds.congr rfl rfl rfl
    exact Sound.afterAdoption holds _
  case h_10 =>
    cases moved
    exact sound.send _
  case h_11 =>
    cases moved
    exact ⟨holdsForeign_of_recorded rfl, nofun⟩
  case h_12 => cases moved

omit [DecidableEq Tree] in
@[simp] theorem origin_afterAdoption (publishing : Bool) :
    (state.afterAdoption publishing).origin = state.origin := by
  cases publishing <;> rfl

@[simp] theorem origin_decide (remoteSha : Option (Commit Tree)) (publishing : Bool) :
    (state.decide remoteSha publishing).origin = state.origin := by
  unfold BranchState.decide
  dsimp only
  cases pushPlan (recordedPushSha state.row) state.branch remoteSha <;> cases publishing <;> rfl

@[simp] theorem origin_merge (publishing fetched conflicts : Bool) (tree : Tree)
    (message : String) :
    (state.merge publishing fetched conflicts tree message).origin = state.origin := by
  unfold BranchState.merge
  dsimp only
  cases state.branch with
  | none => rfl
  | some here =>
      dsimp only
      cases adoptRemoteCommits here (if fetched then state.origin else state.tracking)
          state.mergeRecorded conflicts tree message with
      | none => rfl
      | some result =>
          dsimp only
          split
          · rfl
          · rw [origin_afterAdoption]

/-- A push keeps what origin reached of others: it goes forward, or replaces the recorded commit,
whose commits of others the branch has. -/
theorem reaches_send (sound : state.Sound) {lease : Option (Commit Tree)}
    (sending : state.phase = .sending lease) {commit : Commit Tree}
    (among : commit ∈ state.foreign) (reached : reaches state.origin commit = true) :
    reaches (state.send lease).origin commit = true := by
  unfold BranchState.send
  cases sent : state.branch.bind (gitPush lease state.origin) with
  | none => exact reached
  | some sha =>
      obtain ⟨here, found, accepted⟩ := Option.bind_eq_some_iff.mp sent
      dsimp only
      cases lease with
      | none =>
          cases held : state.origin with
          | none =>
              rw [held] at reached
              cases reached
          | some remote =>
              rw [held] at accepted reached
              unfold gitPush at accepted
              dsimp only at accepted
              by_cases behind : remote.isAncestor here = true
              · rw [if_pos behind] at accepted
                cases accepted
                exact reaches_of_isAncestor behind reached
              · rw [if_neg behind] at accepted
                cases accepted
      | some expected =>
          unfold gitPush at accepted
          dsimp only at accepted
          by_cases matched : state.origin = some expected
          · rw [if_pos matched] at accepted
            cases accepted
            have recorded := sound.lease expected sending
            rw [matched, ← recorded] at reached
            rw [← found]
            exact sound.holds commit among reached (by rw [found]; exact Option.some_ne_none _)
          · rw [if_neg matched] at accepted
            cases accepted

/-- No event but a push by others takes a commit of others from origin. -/
theorem preserves_step {event : PushEvent Tree} {after : BranchState Tree} (sound : state.Sound)
    (ours : ∀ origin, event ≠ .foreignPush origin)
    (moved : BranchState.step event state = some after) : Preserves ⟨state, event, after⟩ := by
  intro commit among reached
  dsimp only at among reached ⊢
  unfold BranchState.step at moved
  split at moved
  case h_1 => exact absurd rfl (ours _)
  case h_2 =>
    cases moved
    exact reached
  case h_3 =>
    obtain ⟨here, -, rfl⟩ := Option.map_eq_some_iff.mp moved
    exact reached
  case h_4 =>
    cases moved
    exact reached
  case h_5 =>
    cases moved
    exact reached
  case h_6 =>
    split at moved
    · cases moved
    · cases moved
      exact reached
  case h_7 =>
    cases moved
    rwa [origin_decide]
  case h_8 =>
    cases moved
    rwa [origin_merge]
  case h_9 =>
    cases moved
    rwa [origin_afterAdoption]
  case h_10 sending =>
    cases moved
    exact reaches_send sound sending among reached
  case h_11 =>
    cases moved
    exact reached
  case h_12 => cases moved

end BranchState

/-- In every run of a task whose rewrites, and pushes by others, leave in the branch the commits of
others that the recorded push reaches, no push makes a commit of others unreachable from origin. -/
theorem pushRun_preserves {start last : BranchState Tree}
    {transitions : List (Transition (BranchState Tree) (PushEvent Tree))}
    (run : Run BranchState.step start transitions last) (fresh : start.row = none)
    (idle : start.phase = .idle) (kept : ∀ transition ∈ transitions, KeepsForeign transition) :
    ∀ transition ∈ transitions, (∀ origin, transition.event ≠ .foreignPush origin) →
      Preserves transition := by
  have initial : start.Sound := by
    refine ⟨fun _ _ reached => ?_, BranchState.leaseRecorded_of_idle idle⟩
    rw [fresh] at reached
    cases reached
  obtain ⟨sound, -⟩ := run.invariant initial
    (fun transition moved kept sound => sound.step moved kept) kept
  intro transition among ours
  exact BranchState.preserves_step (sound transition among) ours (run.moved_of_mem among)

/-- A branch chosen with a commit of someone else, and one of ours on top. -/
def chosenBranch : BranchState Nat where
  branch := some (.mk 1 "theirs" .none)
  origin := some (.mk 1 "theirs" .none)
  tracking := none
  row := none
  mergeRecorded := false
  foreign := [.mk 1 "theirs" .none]
  phase := .idle

/-- A commit of ours goes out. -/
def firstPush : List (PushEvent Nat) :=
  [.commit 2 "ours", .probe true true, .decide, .send, .record]

theorem pushRun_preserves_first :
    ((replay BranchState.step chosenBranch firstPush).getD ([], chosenBranch)).1 ≠ [] ∧
    ∀ transition ∈ ((replay BranchState.step chosenBranch firstPush).getD ([], chosenBranch)).1,
      (∀ origin, transition.event ≠ .foreignPush origin) → Preserves transition :=
  ⟨by decide, pushRun_preserves
    (run_of_replay (by decide :
      replay BranchState.step chosenBranch firstPush =
        some ((replay BranchState.step chosenBranch firstPush).getD ([], chosenBranch))))
    rfl rfl (by decide)⟩

/-- The branch is rewritten without their commit, and forced over it. -/
theorem rewritten_branch_discards :
    ∃ transitions last, Run BranchState.step chosenBranch transitions last ∧
      ∃ transition ∈ transitions, transition.event = .send ∧ ¬ Preserves transition := by
  let events : List (PushEvent Nat) :=
    firstPush ++ [.rewrite (some (.mk 3 "rewritten" .none)), .probe true true, .decide, .send]
  have lost : (replay BranchState.step chosenBranch events).any (fun replayed =>
      replayed.1.any fun transition => transition.event = .send ∧ ¬ Preserves transition) = true :=
    by decide
  obtain ⟨⟨transitions, last⟩, replayed, any⟩ := (Option.any_eq_true _ _).mp lost
  obtain ⟨transition, among, discards⟩ := List.any_eq_true.mp any
  exact ⟨transitions, last, run_of_replay replayed, transition, among, of_decide_eq_true discards⟩

end Orchestrator.Git
