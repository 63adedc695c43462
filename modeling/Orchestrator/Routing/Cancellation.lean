import Orchestrator.Routing.StageTurns

/-! # Cancelling a stage

The router asks whether it was cancelled in one place, after the first failed run
of a hop. Whether a cancellation stops the stage is decided by what the stage is
about to do when it comes.
-/

namespace Orchestrator.Routing

open Orchestrator.Flow (ProviderId)

def StageEvent.isRun : StageEvent → Bool
  | .ran _ _ => true
  | _ => false

/-- The next exchange of the phase is a provider run. -/
def StagePhase.runsNext : StagePhase → Bool
  | .run _ => true
  | .freshRun _ => true
  | .retryRun _ => true
  | _ => false

/-- The provider runs started so far. -/
def providerRuns (events : List StageEvent) : Nat := events.countP StageEvent.isRun

namespace StageCall

variable (call : StageCall)

/-- The phases without a provider run between them and the next question: the question itself, and
the beginning of a stage that is allowed no attempt. -/
def AsksFirst : StagePhase → Prop
  | .poll _ _ => True
  | .capture => call.config.maxStageAttempts ≤ 0
  | _ => False

variable {call}

@[simp] theorem exchange_isRun (answers : StageAnswers) (progress : StageProgress)
    (phase : StagePhase) : (call.exchange answers progress phase).1.isRun = phase.runsNext := by
  cases phase <;> rfl

variable {first : StageState} {answers : Nat → StageAnswers} {turns : Nat}

/-- A turn starts a provider exactly when its phase is about to. -/
theorem providerRuns_succ (running : (call.machine.trace answers first turns).result = none) :
    providerRuns (call.machine.trace answers first (turns + 1)).events =
      providerRuns (call.machine.trace answers first turns).events +
        if (call.machine.trace answers first turns).state.phase.runsNext then 1 else 0 := by
  rw [trace_events running, providerRuns, providerRuns, List.countP_append, List.countP_singleton,
    exchange_isRun]

theorem providerRuns_of_runsNext
    (running : (call.machine.trace answers first turns).result = none)
    (runs : (call.machine.trace answers first turns).state.phase.runsNext = true) :
    providerRuns (call.machine.trace answers first turns).events <
      providerRuns (call.machine.trace answers first (turns + 1)).events := by
  rw [providerRuns_succ running, if_pos runs]
  exact Nat.lt_succ_self _

/-- A turn that leads to a run is followed by it. -/
theorem providerRuns_of_goesOn
    (running : (call.machine.trace answers first turns).result = none) {next : StageState}
    (followed : (call.exchange (answers turns)
      (call.machine.trace answers first turns).state.progress
      (call.machine.trace answers first turns).state.phase).2 = .goesOn next)
    (runs : next.phase.runsNext = true) :
    providerRuns (call.machine.trace answers first turns).events <
      providerRuns (call.machine.trace answers first (turns + 2)).events := by
  obtain ⟨reached, still⟩ := trace_goesOn running followed
  have later := providerRuns_of_runsNext still (reached ▸ runs)
  rw [providerRuns_succ running] at later
  exact (Nat.le_add_right _ _).trans_lt later

/-- A stage that does not ask first runs a provider within two turns, whatever it is answered. -/
theorem runs_soon (started : call.start = .goesOn first)
    (running : (call.machine.trace answers first turns).result = none)
    (unasked : ¬ call.AsksFirst (call.machine.trace answers first turns).state.phase) :
    ∃ later, providerRuns (call.machine.trace answers first turns).events <
      providerRuns (call.machine.trace answers first (turns + later)).events := by
  have sound := trace_sound started answers turns running
  have ahead : ∀ next, (call.exchange (answers turns)
      (call.machine.trace answers first turns).state.progress
      (call.machine.trace answers first turns).state.phase).2 = .goesOn next →
        next.phase.runsNext = true → ∃ later,
          providerRuns (call.machine.trace answers first turns).events <
            providerRuns (call.machine.trace answers first (turns + later)).events :=
    fun next followed runs => ⟨2, providerRuns_of_goesOn running followed runs⟩
  simp only [Sound] at sound
  cases phase : (call.machine.trace answers first turns).state.phase with
  | capture =>
      simp only [phase, AsksFirst, not_le] at unasked sound ahead
      have left : call.attemptsSpent (call.machine.trace answers first turns).state.progress =
          false := by
        rw [attemptsSpent, sound]
        exact decide_eq_false (not_le.mpr unasked)
      obtain ⟨next, entered, hop, runs⟩ :=
        enter_cons left none call.route.primary call.route.fallback.toList
      exact ahead next entered (by rw [runs]; rfl)
  | run hop => exact ⟨1, providerRuns_of_runsNext running (by rw [phase]; rfl)⟩
  | poll hop error => exact absurd (by rw [phase]; trivial) unasked
  | freshRun hop => exact ⟨1, providerRuns_of_runsNext running (by rw [phase]; rfl)⟩
  | backoff retry =>
      simp only [phase] at ahead
      exact ahead _ rfl rfl
  | retryRun retry => exact ⟨1, providerRuns_of_runsNext running (by rw [phase]; rfl)⟩
  | compare provider rest =>
      simp only [phase] at sound ahead
      obtain ⟨others, left⟩ := sound
      cases rest with
      | nil => exact absurd rfl others
      | cons other rest =>
          have kept : call.attemptsSpent
              { (call.machine.trace answers first turns).state.progress with
                partialChange := (answers turns).partialChange } = false := left
          obtain ⟨next, entered, hop, runs⟩ := enter_cons kept (some provider) other rest
          exact ahead next entered (by rw [runs]; rfl)

/-- Where no attempt is allowed none is made. -/
theorem enter_ends {progress : StageProgress} (none : call.config.maxStageAttempts ≤ 0)
    (previous : Option ProviderId) (sequence : List ProviderId) :
    ∃ final, call.enter progress previous sequence = .ends final := by
  have spent : call.attemptsSpent progress = true :=
    decide_eq_true (none.trans (Int.natCast_nonneg _))
  cases sequence with
  | nil => exact ⟨_, rfl⟩
  | cons provider rest =>
      simp only [enter, spent, ↓reduceIte]
      exact ⟨_, rfl⟩

/-- An exchange that asks first, and is told of a cancellation, ends the stage without a run. -/
theorem exchange_ends {answers : StageAnswers} (cancelled : answers.isCancelled = true)
    (progress : StageProgress) {phase : StagePhase} (asks : call.AsksFirst phase) :
    phase.runsNext = false ∧
      ∃ final, (call.exchange answers progress phase).2 = .ends final := by
  cases phase with
  | capture => exact ⟨rfl, enter_ends asks none call.route.providers⟩
  | run hop => cases asks
  | poll hop error =>
      simp only [exchange, cancelled, ↓reduceIte, exhaust]
      exact ⟨rfl, _, rfl⟩
  | freshRun hop => cases asks
  | backoff retry => cases asks
  | retryRun retry => cases asks
  | compare provider rest => cases asks

/-- A stage that asks first when it is cancelled runs no provider any more. -/
theorem stops_of_asksFirst (running : (call.machine.trace answers first turns).result = none)
    (asks : call.AsksFirst (call.machine.trace answers first turns).state.phase)
    (cancelled : (answers turns).isCancelled = true) (later : Nat) :
    providerRuns (call.machine.trace answers first (turns + later)).events =
      providerRuns (call.machine.trace answers first turns).events := by
  obtain ⟨quiet, final, ends⟩ := exchange_ends cancelled
    (call.machine.trace answers first turns).state.progress asks
  cases later with
  | zero => rfl
  | succ later =>
      have ended := trace_ends running ends
      rw [Nat.add_comm later, ← Nat.add_assoc, call.machine.trace_add_of_result ended,
        providerRuns_succ running, quiet]
      rfl

/-! ## Cancelled stages -/

/-- From the turn on in which the cancellation is requested the stage starts no provider run exactly
when it has ended by then or asks first. -/
theorem cancelled_runs_iff (call : StageCall) (answers : Nat → StageAnswers) (stop : Nat)
    (cancelled : ∀ turn, stop ≤ turn → (answers turn).isCancelled = true) :
    (∀ later, providerRuns (call.runStage answers (stop + later)).events =
      providerRuns (call.runStage answers stop).events) ↔
    (call.runStage answers stop).result ≠ none ∨
      call.AsksFirst (call.runStage answers stop).state.phase := by
  cases started : call.start with
  | ends final =>
      simp only [runStage, started, implies_true, ne_eq, reduceCtorEq, not_false_eq_true, true_or]
  | goesOn first =>
      simp only [runStage, started]
      constructor
      · intro quiet
        by_contra unasked
        simp only [ne_eq, not_or, not_not] at unasked
        obtain ⟨later, more⟩ := runs_soon started unasked.1 unasked.2
        exact absurd (quiet later) more.ne'
      · rintro (ended | asks) later
        · obtain ⟨final, ended⟩ := Option.ne_none_iff_exists'.mp ended
          rw [call.machine.trace_add_of_result ended]
        · cases running : (call.machine.trace answers first stop).result with
          | some final => rw [call.machine.trace_add_of_result running]
          | none => exact stops_of_asksFirst running asks (cancelled stop le_rfl) later

end StageCall

/-! ## A stage -/

/-- A stage on Codex with Claude as its fallback and two retries. -/
def pairedStage : StageCall where
  config := {
    maxStageAttempts := 3
    retry := { maxAttempts := 2, baseDelayS := 2, maxDelayS := 30 }
    providers _ := { model := "", permissionProfile := "workspace-write" }
    isolationReasons _ := some [] }
  request := {}
  route := { primary := .codex, fallback := some .claude }

/-- Every run fails with one class; the stage is cancelled from some turn on. -/
def failingFrom (errorClass : ErrorClass) (stop turn : Nat) : StageAnswers where
  run := .error { errorClass, message := "" }
  isCancelled := decide (stop ≤ turn)
  partialChange := none

/-- Cancelled while its first run fails, the stage is over after that run. -/
theorem cancelled_runs_pairedStage :
    (∀ later, providerRuns (pairedStage.runStage (failingFrom .timeout 1) (1 + later)).events =
      providerRuns (pairedStage.runStage (failingFrom .timeout 1) 1).events) ∧
    providerRuns (pairedStage.runStage (failingFrom .timeout 1) 2).events = 1 :=
  ⟨(pairedStage.cancelled_runs_iff (failingFrom .timeout 1) 1
    fun _ late => decide_eq_true late).mpr (.inr trivial), by decide⟩

/-- Cancelled during the back-off that follows its first run, the stage runs the provider again. -/
theorem pairedStage_runs_on :
    (∀ turn, 2 ≤ turn → (failingFrom .providerUnavailable 2 turn).isCancelled = true) ∧
    providerRuns (pairedStage.runStage (failingFrom .providerUnavailable 2) 2).events = 1 ∧
    providerRuns (pairedStage.runStage (failingFrom .providerUnavailable 2) 7).events = 4 :=
  ⟨fun _ late => decide_eq_true late, by decide, by decide⟩

end Orchestrator.Routing
