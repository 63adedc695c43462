import Orchestrator.Routing.Router

/-! # What one turn of a stage can do

What each function of the router goes on to, from these the turns of a stage,
and from the turns that every stage comes to an end.
-/

namespace Orchestrator.Routing

open Orchestrator.Flow (ProviderId)

namespace StageCall

variable (call : StageCall)

/-- What holds of the state between two exchanges: the working tree is captured before any attempt,
and compared only when another provider is going to run. -/
def Sound (state : StageState) : Prop :=
  match state.phase with
  | .capture => state.progress.stageAttempts = 0
  | .compare _ rest => rest ≠ [] ∧ call.attemptsSpent state.progress = false
  | _ => True

/-- The turns one provider may take, with its poll, its retries and the comparison after it. -/
def hopTurns (call : StageCall) : Nat := 2 * call.config.retry.maxAttempts + 5

/-- A bound on the turns left, by what the stage exchanges next. -/
def turnsLeft (call : StageCall) : StagePhase → Nat
  | .capture => call.route.providers.length * call.hopTurns + 1
  | .run hop => (hop.rest.length + 1) * call.hopTurns
  | .poll hop _ => hop.rest.length * call.hopTurns + 2 * call.config.retry.maxAttempts + 4
  | .freshRun hop => hop.rest.length * call.hopTurns + 2
  | .backoff retry => retry.hop.rest.length * call.hopTurns +
      2 * (call.config.retry.maxAttempts - retry.index) + 3
  | .retryRun retry => retry.hop.rest.length * call.hopTurns +
      2 * (call.config.retry.maxAttempts - retry.index) + 2
  | .compare _ rest => rest.length * call.hopTurns + 1

variable {call}

/-! ## What each function goes on to -/

/-- Entering a sequence goes on to run its first provider. -/
theorem enter_goesOn {progress : StageProgress} {previous : Option ProviderId}
    {sequence : List ProviderId} {next : StageState}
    (entered : call.enter progress previous sequence = .goesOn next) :
    call.Sound next ∧ call.turnsLeft next.phase ≤ sequence.length * call.hopTurns := by
  cases sequence with
  | nil => cases entered
  | cons provider rest =>
      simp only [enter] at entered
      split at entered
      · cases entered
      · cases entered
        exact ⟨trivial, le_rfl⟩

/-- A stage with an attempt left goes on to run the next provider. -/
theorem enter_cons {progress : StageProgress} (left : call.attemptsSpent progress = false)
    (previous : Option ProviderId) (provider : ProviderId) (rest : List ProviderId) :
    ∃ next, call.enter progress previous (provider :: rest) = .goesOn next ∧
      ∃ hop, next.phase = .run hop := by
  simp only [enter, left, Bool.false_eq_true, ↓reduceIte]
  exact ⟨_, rfl, _, rfl⟩

/-- A fallback goes on to the comparison before the next provider, or to that provider. -/
theorem fallBack_goesOn {progress : StageProgress} {hop : Hop} {errorClass : ErrorClass}
    {next : StageState} (fell : call.fallBack progress hop errorClass = .goesOn next) :
    call.Sound next ∧ call.turnsLeft next.phase ≤ hop.rest.length * call.hopTurns + 1 := by
  simp only [fallBack] at fell
  split at fell
  · cases fell
  · rename_i provider rest others
    split at fell
    · cases fell
    · rename_i left
      split at fell
      · cases fell
      · split at fell
        · cases fell
          have nonempty : hop.rest ≠ [] := by
            rw [others]
            exact List.cons_ne_nil _ _
          exact ⟨⟨nonempty, Bool.eq_false_iff.mpr left⟩, le_rfl⟩
        · obtain ⟨sound, bound⟩ := enter_goesOn fell
          exact ⟨sound, bound.trans (Nat.le_succ _)⟩

/-- After its poll a hop goes on to a fresh session, to a back-off or to the fallback. -/
theorem afterPoll_goesOn {progress : StageProgress} {hop : Hop} {error : ProviderError}
    {next : StageState} (followed : call.afterPoll progress hop error = .goesOn next) :
    call.Sound next ∧ call.turnsLeft next.phase <
      hop.rest.length * call.hopTurns + 2 * call.config.retry.maxAttempts + 4 := by
  simp only [afterPoll] at followed
  split at followed
  · cases followed
    refine ⟨trivial, ?_⟩
    simp only [turnsLeft]
    omega
  · split at followed
    · cases followed
      refine ⟨trivial, ?_⟩
      simp only [turnsLeft]
      omega
    · obtain ⟨sound, bound⟩ := fallBack_goesOn followed
      exact ⟨sound, by omega⟩

/-- A failed retry goes on to the next back-off or to the fallback. -/
theorem afterRetry_goesOn {progress : StageProgress} {retry : TransientRetry}
    {error : ProviderError} {next : StageState}
    (followed : call.afterRetry progress retry error = .goesOn next) :
    call.Sound next ∧ call.turnsLeft next.phase < retry.hop.rest.length * call.hopTurns +
      2 * (call.config.retry.maxAttempts - retry.index) + 2 := by
  simp only [afterRetry] at followed
  split at followed
  · obtain ⟨sound, bound⟩ := fallBack_goesOn followed
    exact ⟨sound, by omega⟩
  · split at followed
    · rename_i room
      cases followed
      refine ⟨trivial, ?_⟩
      simp only [turnsLeft]
      split
      · dsimp only
        omega
      · omega
    · obtain ⟨sound, bound⟩ := fallBack_goesOn followed
      exact ⟨sound, by omega⟩

/-- Every exchange keeps the state sound and leaves fewer turns. -/
theorem exchange_goesOn {answers : StageAnswers} {progress : StageProgress} {phase : StagePhase}
    {next : StageState} (followed : (call.exchange answers progress phase).2 = .goesOn next) :
    call.Sound next ∧ call.turnsLeft next.phase < call.turnsLeft phase := by
  cases phase with
  | capture =>
      simp only [exchange] at followed
      obtain ⟨sound, bound⟩ := enter_goesOn followed
      exact ⟨sound, Nat.lt_succ_of_le bound⟩
  | run hop =>
      simp only [exchange] at followed
      split at followed
      · cases followed
      · split at followed
        · cases followed
        · cases followed
          refine ⟨trivial, ?_⟩
          simp only [turnsLeft, hopTurns, Nat.add_mul]
          omega
  | poll hop error =>
      simp only [exchange] at followed
      split at followed
      · cases followed
      · exact afterPoll_goesOn followed
  | freshRun hop =>
      simp only [exchange] at followed
      split at followed
      · cases followed
      · split at followed
        · cases followed
        · obtain ⟨sound, bound⟩ := fallBack_goesOn followed
          exact ⟨sound, Nat.lt_succ_of_le bound⟩
  | backoff retry =>
      cases followed
      exact ⟨trivial, Nat.lt_succ_self _⟩
  | retryRun retry =>
      simp only [exchange] at followed
      split at followed
      · cases followed
      · exact afterRetry_goesOn followed
  | compare provider rest =>
      simp only [exchange] at followed
      obtain ⟨sound, bound⟩ := enter_goesOn followed
      exact ⟨sound, Nat.lt_succ_of_le bound⟩

/-! ## Turns -/

theorem turn_event (answers : StageAnswers) (state : StageState) :
    (call.turn answers state).event = (call.exchange answers state.progress state.phase).1 := by
  rcases followed : call.exchange answers state.progress state.phase with ⟨event, next | final⟩
  · simp only [turn, followed]
  · simp only [turn, followed]

theorem turn_goesOn {answers : StageAnswers} {state next : StageState}
    (followed : (call.exchange answers state.progress state.phase).2 = .goesOn next) :
    (call.turn answers state).next = next ∧ (call.turn answers state).result = none := by
  rcases exchanged : call.exchange answers state.progress state.phase with ⟨event, step⟩
  rw [exchanged] at followed
  cases followed
  simp only [turn, exchanged, and_self]

theorem turn_ends {answers : StageAnswers} {state : StageState} {final : StageEnd}
    (followed : (call.exchange answers state.progress state.phase).2 = .ends final) :
    (call.turn answers state).result = some final := by
  rcases exchanged : call.exchange answers state.progress state.phase with ⟨event, step⟩
  rw [exchanged] at followed
  cases followed
  simp only [turn, exchanged]

/-- A turn that goes on leaves a sound state and fewer turns. -/
theorem turn_sound {answers : StageAnswers} {state : StageState}
    (running : (call.turn answers state).result = none) :
    call.Sound (call.turn answers state).next ∧
      call.turnsLeft (call.turn answers state).next.phase < call.turnsLeft state.phase := by
  cases followed : (call.exchange answers state.progress state.phase).2 with
  | goesOn next =>
      rw [(turn_goesOn followed).1]
      exact exchange_goesOn followed
  | ends final =>
      rw [turn_ends followed] at running
      cases running

/-! ## Runs of a stage -/

theorem start_sound {first : StageState} (started : call.start = .goesOn first) :
    call.Sound first := by
  simp only [start] at started
  split at started
  · cases started
    rfl
  · exact (enter_goesOn started).1

theorem trace_sound {first : StageState} (started : call.start = .goesOn first)
    (answers : Nat → StageAnswers) (turns : Nat)
    (running : (call.machine.trace answers first turns).result = none) :
    call.Sound (call.machine.trace answers first turns).state := by
  revert running
  exact call.machine.trace_induction (fun trace => trace.result = none → call.Sound trace.state)
    (fun _ => start_sound started) (fun _ _ _ _ _ running => (turn_sound running).1) turns

variable {first : StageState} {answers : Nat → StageAnswers} {turns : Nat}

theorem trace_events (running : (call.machine.trace answers first turns).result = none) :
    (call.machine.trace answers first (turns + 1)).events =
      (call.machine.trace answers first turns).events ++
        [(call.exchange (answers turns) (call.machine.trace answers first turns).state.progress
          (call.machine.trace answers first turns).state.phase).1] := by
  rw [call.machine.trace_succ, call.machine.extend_of_running running, ← turn_event]
  rfl

theorem trace_goesOn (running : (call.machine.trace answers first turns).result = none)
    {next : StageState}
    (followed : (call.exchange (answers turns)
      (call.machine.trace answers first turns).state.progress
      (call.machine.trace answers first turns).state.phase).2 = .goesOn next) :
    (call.machine.trace answers first (turns + 1)).state = next ∧
      (call.machine.trace answers first (turns + 1)).result = none := by
  rw [call.machine.trace_succ, call.machine.extend_of_running running]
  exact turn_goesOn followed

theorem trace_ends (running : (call.machine.trace answers first turns).result = none)
    {final : StageEnd}
    (followed : (call.exchange (answers turns)
      (call.machine.trace answers first turns).state.progress
      (call.machine.trace answers first turns).state.phase).2 = .ends final) :
    (call.machine.trace answers first (turns + 1)).result = some final := by
  rw [call.machine.trace_succ, call.machine.extend_of_running running]
  exact turn_ends followed

/-! ## Every stage ends -/

/-- A stage ends, whatever it is answered, within a number of turns fixed by its arguments. -/
theorem runStage_ends (call : StageCall) :
    ∃ turns, ∀ answers, (call.runStage answers turns).result ≠ none := by
  cases started : call.start with
  | ends final =>
      refine ⟨0, fun answers => ?_⟩
      simp only [runStage, started]
      exact nofun
  | goesOn first =>
      refine ⟨call.turnsLeft first.phase + 1, fun answers => ?_⟩
      simp only [runStage, started]
      exact call.machine.stops_within_potential (fun _ => True)
        (fun state => call.turnsLeft state.phase) (fun _ _ _ _ => trivial)
        (fun _ _ _ running => (turn_sound running).2)
        answers first trivial

end StageCall

end Orchestrator.Routing
