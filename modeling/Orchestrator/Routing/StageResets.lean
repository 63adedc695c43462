import Orchestrator.Routing.ResetTimes
import Orchestrator.Routing.StageTurns

/-! # The reset instant a stage reports

What the failed runs of a stage report about when their provider can be asked
again, and what of it the terminal error carries. The stage folds the instants of
its first tries and fresh sessions; those of transient retries it passes over.
-/

namespace Orchestrator.Routing

open Orchestrator.Foundation
open Orchestrator.Flow (ProviderId)

/-- What one failed run tells the stage; `retried` marks a transient retry. -/
structure ResetReport where
  retried : Bool
  errorClass : ErrorClass
  resetsAt : Option ResetInstant

/-- The texts of the reports. -/
def textsOf (reports : List ResetReport) : List (Option ResetInstant) :=
  reports.map ResetReport.resetsAt

/-- The texts a stage folds: those of its first tries and fresh sessions. -/
def ownTexts (reports : List ResetReport) : List (Option ResetInstant) :=
  textsOf (reports.filter fun report => !report.retried)

/-- The class of the last failure. -/
def lastClass (reports : List ResetReport) : Option ErrorClass :=
  reports.getLast?.map ResetReport.errorClass

/-- The text of the last failure that was not a transient retry. -/
def lastOwnText (reports : List ResetReport) : Option ResetInstant :=
  (ownTexts reports).getLast?.join

/-- The report of a run that raised. -/
def StageAnswers.report (answers : StageAnswers) (retried : Bool) : List ResetReport :=
  match answers.run with
  | .ok _ => []
  | .error error => [⟨retried, error.errorClass, error.resetsAt⟩]

/-- The report of one turn, where the phase runs a provider and the run raises. -/
def StagePhase.report (answers : StageAnswers) : StagePhase → List ResetReport
  | .run _ => answers.report false
  | .freshRun _ => answers.report false
  | .retryRun _ => answers.report true
  | _ => []

/-- All that the failed runs of a stage reported within some number of turns. -/
def StageCall.reports (call : StageCall) (answers : Nat → StageAnswers) : Nat → List ResetReport
  | 0 => []
  | turns + 1 =>
      match (call.runStage answers turns).result with
      | none => call.reports answers turns ++
          (call.runStage answers turns).state.phase.report (answers turns)
      | some _ => call.reports answers turns

/-- The stage was stopped by its operator. -/
def Stopped (events : List StageEvent) : Prop := StageEvent.polled true ∈ events

/-- What a stage that ended without success reports is the earliest instant of all its runs; a stage
that raised reports nothing. -/
def StageEnd.ReportsEarliest (offset : Int) (reports : List ResetReport) : StageEnd → Prop
  | .typeError => False
  | .returned outcome => IsEarliest offset (textsOf reports)
      (outcome.terminalError.bind NormalizedError.resetsAt)

/-- A stage ended with no result of a provider. -/
def StageEnd.Unsuccessful : StageEnd → Prop
  | .typeError => True
  | .returned outcome => outcome.result = none

/-- When the terminal error carries the earliest instant: a stopped stage carries none, one that
ended on a cancelled run carries the text of its last run, and any other has the earliest at hand
when the first text of its own runs parses and none of its retries reports an earlier instant. -/
def CarriesEarliest (offset : Int) (reports : List ResetReport) (events : List StageEvent) : Prop :=
  Comparable (ownTexts reports) ∧
    (Stopped events ∧ parsedOf (textsOf reports) = [] ∨
      ¬ Stopped events ∧
        (lastClass reports = some .cancelled ∧
            IsEarliest offset (textsOf reports) (lastOwnText reports) ∨
          lastClass reports ≠ some .cancelled ∧
            HasEarliest offset (ownTexts reports) (textsOf reports)))

/-- What the terminal error of a stage that was not stopped carries. -/
def Carries (reports : List ResetReport) (reported : Option ResetInstant) : Prop :=
  if lastClass reports = some .cancelled then reported = lastOwnText reports
  else foldEarlier (ownTexts reports) = .ok reported

/-- The last error of a stage is its last failure, with the text of its last own run. -/
def Settled (reports : List ResetReport) (progress : StageProgress) : Prop :=
  progress.lastError.map NormalizedError.errorClass = lastClass reports ∧
    progress.lastError.bind NormalizedError.resetsAt = lastOwnText reports

/-- The progress of a stage agrees with its reports. -/
structure Informed (reports : List ResetReport) (state : StageState) : Prop where
  folded : foldEarlier (ownTexts reports) = .ok state.progress.earliestReset
  last : match state.phase with
    | .poll _ error => Settled reports state.progress ∧ lastOwnText reports = error.resetsAt
    | .backoff retry => lastOwnText reports = retry.firstError.resetsAt
    | .retryRun retry => lastOwnText reports = retry.firstError.resetsAt
    | _ => Settled reports state.progress

/-- What holds of a step after some reports, in a stage that is not stopped. -/
def Tells (reports : List ResetReport) : StageStep → Prop
  | .goesOn next => Informed reports next
  | .ends .typeError => foldEarlier (ownTexts reports) = .error .naiveAndAware
  | .ends (.returned outcome) => outcome.result = none →
      Comparable (ownTexts reports) ∧
        Carries reports (outcome.terminalError.bind NormalizedError.resetsAt)

variable {call : StageCall} {reports : List ResetReport} {progress : StageProgress}

/-! ## Reports -/

@[simp] theorem textsOf_append (reports more : List ResetReport) :
    textsOf (reports ++ more) = textsOf reports ++ textsOf more := List.map_append

@[simp] theorem ownTexts_append (reports more : List ResetReport) :
    ownTexts (reports ++ more) = ownTexts reports ++ ownTexts more := by
  simp only [ownTexts, List.filter_append, textsOf_append]

theorem ownTexts_subset (reports : List ResetReport) :
    ∀ text ∈ ownTexts reports, text ∈ textsOf reports := by
  intro text found
  obtain ⟨report, among, rfl⟩ := List.mem_map.mp found
  exact List.mem_map_of_mem (List.mem_of_mem_filter among)

@[simp] theorem lastClass_concat (reports : List ResetReport) (report : ResetReport) :
    lastClass (reports ++ [report]) = some report.errorClass := by
  rw [lastClass, List.getLast?_concat]
  rfl

@[simp] theorem lastOwnText_own (reports : List ResetReport) (errorClass : ErrorClass)
    (text : Option ResetInstant) :
    lastOwnText (reports ++ [⟨false, errorClass, text⟩]) = text := by
  have own : ownTexts [⟨false, errorClass, text⟩] = [text] := rfl
  rw [lastOwnText, ownTexts_append, own, List.getLast?_concat]
  rfl

@[simp] theorem ownTexts_retried (reports : List ResetReport) (errorClass : ErrorClass)
    (text : Option ResetInstant) :
    ownTexts (reports ++ [⟨true, errorClass, text⟩]) = ownTexts reports := by
  rw [ownTexts_append]
  exact List.append_nil _

/-- A failure that was not retried is folded in. -/
theorem foldEarlier_own {earliest : Option ResetInstant}
    (folded : foldEarlier (ownTexts reports) = .ok earliest) (errorClass : ErrorClass)
    (text : Option ResetInstant) :
    foldEarlier (ownTexts (reports ++ [⟨false, errorClass, text⟩])) = earlier earliest text := by
  have own : ownTexts [⟨false, errorClass, text⟩] = [text] := rfl
  have step : foldEarlier (ownTexts reports ++ [text]) =
      (foldEarlier (ownTexts reports)).bind fun current => [text].foldlM earlier current :=
    List.foldlM_append
  rw [ownTexts_append, own, step, folded]
  cases compared : earlier earliest text <;>
    simp only [Except.bind, List.foldlM_cons, List.foldlM_nil, compared] <;> rfl

/-! ## What each function tells -/

namespace StageCall

theorem exhaust_tells (folded : foldEarlier (ownTexts reports) = .ok progress.earliestReset)
    (settled : Settled reports progress) : Tells reports (call.exhaust progress) := by
  intro _
  refine ⟨(foldEarlier_comparable _).mp ⟨_, folded⟩, ?_⟩
  obtain ⟨classified, carried⟩ := settled
  cases last : progress.lastError with
  | none =>
      rw [last] at classified
      have nothing : reports = [] := by
        simpa [lastClass] using classified.symm
      subst nothing
      exact rfl
  | some error =>
      rw [last] at classified carried
      simp only [Option.map_some, Option.bind_some] at classified carried
      simp only [Carries, ← classified, Option.some.injEq, Option.map_some, Option.bind_some]
      by_cases cancelled : error.errorClass = .cancelled
      · simp only [cancelled, ↓reduceIte]
        exact carried
      · simp only [cancelled, ↓reduceIte]
        exact folded

theorem enter_tells (folded : foldEarlier (ownTexts reports) = .ok progress.earliestReset)
    (settled : Settled reports progress) (previous : Option ProviderId)
    (sequence : List ProviderId) : Tells reports (call.enter progress previous sequence) := by
  cases sequence with
  | nil => exact exhaust_tells folded settled
  | cons provider rest =>
      simp only [enter]
      split
      · exact exhaust_tells folded settled
      · exact ⟨folded, settled⟩

theorem fallBack_tells (folded : foldEarlier (ownTexts reports) = .ok progress.earliestReset)
    (settled : Settled reports progress) (hop : Hop) (errorClass : ErrorClass) :
    Tells reports (call.fallBack progress hop errorClass) := by
  simp only [fallBack]
  split
  · exact exhaust_tells folded settled
  · split
    · exact exhaust_tells folded settled
    · split
      · exact exhaust_tells folded settled
      · split
        · exact ⟨folded, settled⟩
        · exact enter_tells folded settled _ _

/-- A failure that was not retried is noted, or cannot be compared. -/
theorem noteFailure_tells (call : StageCall)
    (folded : foldEarlier (ownTexts reports) = .ok progress.earliestReset)
    (hop : Hop) (error : ProviderError) :
    match call.noteFailure progress hop error with
    | .error _ => foldEarlier (ownTexts (reports ++ [⟨false, error.errorClass, error.resetsAt⟩])) =
        .error .naiveAndAware
    | .ok noted =>
        foldEarlier (ownTexts (reports ++ [⟨false, error.errorClass, error.resetsAt⟩])) =
            .ok noted.earliestReset ∧
          Settled (reports ++ [⟨false, error.errorClass, error.resetsAt⟩]) noted := by
  have told := foldEarlier_own folded error.errorClass error.resetsAt
  simp only [noteFailure]
  cases compared : earlier progress.earliestReset error.resetsAt with
  | error raised =>
      cases raised
      exact told.trans compared
  | ok earliest =>
      refine ⟨told.trans compared, ?_, ?_⟩
      · rw [lastClass_concat]
        rfl
      · rw [lastOwnText_own]
        rfl

theorem afterPoll_tells (folded : foldEarlier (ownTexts reports) = .ok progress.earliestReset)
    (settled : Settled reports progress) {error : ProviderError}
    (last : lastOwnText reports = error.resetsAt) (hop : Hop) :
    Tells reports (call.afterPoll progress hop error) := by
  simp only [afterPoll]
  split
  · exact ⟨folded, settled⟩
  · split
    · exact ⟨folded, last⟩
    · exact fallBack_tells folded settled _ _

/-- The last of the retries settles the stage with the text of its own run. -/
theorem afterRetry_tells {retry : TransientRetry} {error : ProviderError}
    (folded : foldEarlier (ownTexts reports) = .ok progress.earliestReset)
    (classified : lastClass reports = some error.errorClass)
    (last : lastOwnText reports = retry.firstError.resetsAt) :
    Tells reports (call.afterRetry progress retry error) := by
  have exhausted : Tells reports (call.retriesExhausted progress retry error.errorClass) := by
    apply fallBack_tells
    · exact folded
    · exact ⟨classified.symm, last.symm⟩
  simp only [afterRetry]
  split
  · exact exhausted
  · split
    · exact ⟨folded, last⟩
    · exact exhausted

/-- Every exchange keeps the reports and the progress of a stage in agreement, unless it stops
it. -/
theorem exchange_tells {state : StageState} (informed : Informed reports state)
    (answers : StageAnswers)
    (going : (call.exchange answers state.progress state.phase).1 ≠ .polled true) :
    Tells (reports ++ state.phase.report answers)
      (call.exchange answers state.progress state.phase).2 := by
  obtain ⟨phase, progress⟩ := state
  obtain ⟨folded, last⟩ := informed
  dsimp only at folded last going ⊢
  cases phase with
  | capture =>
      simp only [exchange, StagePhase.report, List.append_nil]
      exact enter_tells folded last _ _
  | run hop =>
      cases ran : answers.run with
      | ok result =>
        simp only [exchange, ran]
        intro unsuccessful
        cases unsuccessful
      | error error =>
        simp only [exchange, StagePhase.report, StageAnswers.report, ran]
        have noted := call.noteFailure_tells folded hop error
        cases told : call.noteFailure progress hop error with
        | error incomparable =>
            rw [told] at noted
            exact noted
        | ok progress =>
            rw [told] at noted
            exact ⟨noted.1, noted.2, lastOwnText_own _ _ _⟩
  | poll hop error =>
      simp only [exchange] at going ⊢
      have unstopped : answers.isCancelled = false := by
        cases stopped : answers.isCancelled with
        | false => rfl
        | true =>
            rw [stopped] at going
            exact absurd rfl going
      simp only [unstopped, Bool.false_eq_true, ↓reduceIte, StagePhase.report, List.append_nil]
      exact afterPoll_tells folded last.1 last.2 hop
  | freshRun hop =>
      cases ran : answers.run with
      | ok result =>
        simp only [exchange, ran]
        intro unsuccessful
        cases unsuccessful
      | error error =>
        simp only [exchange, StagePhase.report, StageAnswers.report, ran]
        have noted := call.noteFailure_tells folded hop error
        cases told : call.noteFailure progress hop error with
        | error incomparable =>
            rw [told] at noted
            exact noted
        | ok progress =>
            rw [told] at noted
            exact fallBack_tells noted.1 noted.2 _ _
  | backoff retry =>
      simp only [StagePhase.report, List.append_nil]
      exact ⟨folded, last⟩
  | retryRun retry =>
      cases ran : answers.run with
      | ok result =>
        simp only [exchange, ran]
        intro unsuccessful
        cases unsuccessful
      | error error =>
        simp only [exchange, StagePhase.report, StageAnswers.report, ran]
        have own := ownTexts_retried reports error.errorClass error.resetsAt
        apply afterRetry_tells
        · rw [own]
          exact folded
        · exact lastClass_concat _ _
        · rw [lastOwnText, own]
          exact last
  | compare provider rest =>
      simp only [exchange, StagePhase.report, List.append_nil]
      apply enter_tells
      · exact folded
      · exact last

/-- A stop ends the stage with an error that carries no instant. -/
theorem exchange_stopped {state : StageState} {answers : StageAnswers}
    (stopped : (call.exchange answers state.progress state.phase).1 = .polled true) :
    state.phase.report answers = [] ∧ ∃ outcome,
      (call.exchange answers state.progress state.phase).2 = .ends (.returned outcome) ∧
        outcome.terminalError.bind NormalizedError.resetsAt = none := by
  obtain ⟨phase, progress⟩ := state
  cases phase with
  | poll hop error =>
      simp only [exchange, StageEvent.polled.injEq] at stopped
      simp only [exchange, stopped, ↓reduceIte]
      exact ⟨rfl, _, rfl, rfl⟩
  | capture => cases stopped
  | run hop => cases stopped
  | freshRun hop => cases stopped
  | backoff retry => cases stopped
  | retryRun retry => cases stopped
  | compare provider rest => cases stopped

/-! ## Runs -/

theorem start_tells (call : StageCall) : Tells [] call.start := by
  have settled : Settled [] ({} : StageProgress) := ⟨rfl, rfl⟩
  simp only [start]
  split
  · exact ⟨rfl, settled⟩
  · exact enter_tells rfl settled _ _

variable {answers : Nat → StageAnswers} {turns : Nat}

theorem runStage_of_result {final : StageEnd}
    (ended : (call.runStage answers turns).result = some final) :
    call.runStage answers (turns + 1) = call.runStage answers turns := by
  cases started : call.start with
  | ends final => simp only [runStage, started]
  | goesOn first =>
      simp only [runStage, started] at ended ⊢
      exact call.machine.trace_add_of_result ended 1

theorem runStage_of_running (running : (call.runStage answers turns).result = none) :
    call.runStage answers (turns + 1) =
      ⟨(call.turn (answers turns) (call.runStage answers turns).state).next,
        (call.runStage answers turns).events ++
          [(call.turn (answers turns) (call.runStage answers turns).state).event],
        (call.turn (answers turns) (call.runStage answers turns).state).result⟩ := by
  cases started : call.start with
  | ends final =>
      simp only [runStage, started] at running
      cases running
  | goesOn first =>
      simp only [runStage, started] at running ⊢
      rw [call.machine.trace_succ, call.machine.extend_of_running running]
      rfl

theorem reports_of_result {final : StageEnd}
    (ended : (call.runStage answers turns).result = some final) :
    call.reports answers (turns + 1) = call.reports answers turns := by
  simp only [reports, ended]

theorem reports_of_running (running : (call.runStage answers turns).result = none) :
    call.reports answers (turns + 1) = call.reports answers turns ++
      (call.runStage answers turns).state.phase.report (answers turns) := by
  simp only [reports, running]

/-- What holds of a trace of a stage and its reports. -/
def Told (reports : List ResetReport) (trace : Trace StageState StageEvent StageEnd) : Prop :=
  match trace.result with
  | none => Informed reports trace.state ∧ ¬ Stopped trace.events
  | some final =>
      (Stopped trace.events → Comparable (ownTexts reports) ∧ ∃ outcome, final = .returned outcome ∧
        outcome.terminalError.bind NormalizedError.resetsAt = none) ∧
      (¬ Stopped trace.events → Tells reports (.ends final))

theorem stopped_concat {events : List StageEvent} (going : ¬ Stopped events) (event : StageEvent) :
    Stopped (events ++ [event]) ↔ event = .polled true := by
  rw [Stopped, List.mem_append, List.mem_singleton]
  exact ⟨fun found => (found.resolve_left going).symm, fun found => .inr found.symm⟩

/-- Every run of a stage reports what it was told. -/
theorem runStage_told (call : StageCall) (answers : Nat → StageAnswers) (turns : Nat) :
    Told (call.reports answers turns) (call.runStage answers turns) := by
  have unstopped : ¬ Stopped [] := fun stopped => by cases stopped
  induction turns with
  | zero =>
      have told := call.start_tells
      cases started : call.start with
      | ends final =>
          rw [started] at told
          simp only [Told, runStage, started]
          exact ⟨fun stopped => absurd stopped unstopped, fun _ => told⟩
      | goesOn first =>
          rw [started] at told
          simp only [Told, runStage, started, Machine.trace_zero]
          exact ⟨told, unstopped⟩
  | succ turns ih =>
      cases status : (call.runStage answers turns).result with
      | some final => rwa [runStage_of_result status, reports_of_result status]
      | none =>
          rw [Told, status] at ih
          obtain ⟨informed, going⟩ := ih
          rw [runStage_of_running status, reports_of_running status]
          have stops := stopped_concat going
            (call.turn (answers turns) (call.runStage answers turns).state).event
          rw [turn_event] at stops ⊢
          by_cases stopped : (call.exchange (answers turns)
              (call.runStage answers turns).state.progress
              (call.runStage answers turns).state.phase).1 = .polled true
          · obtain ⟨silent, outcome, ended, carried⟩ := exchange_stopped stopped
            simp only [Told, turn_ends ended, silent, List.append_nil]
            refine ⟨fun _ => ⟨(foldEarlier_comparable _).mp ⟨_, informed.folded⟩, outcome, rfl,
              carried⟩, fun unstopped => absurd (stops.mpr stopped) unstopped⟩
          · have told := exchange_tells informed (answers turns) stopped
            cases followed : (call.exchange (answers turns)
                (call.runStage answers turns).state.progress
                (call.runStage answers turns).state.phase).2 with
            | goesOn next =>
                rw [followed] at told
                obtain ⟨reached, still⟩ := turn_goesOn followed
                simp only [Told, reached, still]
                exact ⟨told, fun found => stopped (stops.mp found)⟩
            | ends final =>
                rw [followed] at told
                simp only [Told, turn_ends followed]
                exact ⟨fun found => absurd (stops.mp found) stopped, fun _ => told⟩

/-- A stage that ends without success reports the earliest instant of all its runs exactly when its
terminal error carries it. -/
theorem reportsEarliest_iff (call : StageCall) (answers : Nat → StageAnswers) (turns : Nat)
    (offset : Int) {final : StageEnd} (ended : (call.runStage answers turns).result = some final)
    (unsuccessful : final.Unsuccessful) :
    final.ReportsEarliest offset (call.reports answers turns) ↔
      CarriesEarliest offset (call.reports answers turns)
        (call.runStage answers turns).events := by
  have told := call.runStage_told answers turns
  rw [Told, ended] at told
  generalize call.reports answers turns = reports at told ⊢
  generalize (call.runStage answers turns).events = events at told ⊢
  obtain ⟨whenStopped, otherwise⟩ := told
  by_cases stopped : Stopped events
  · obtain ⟨comparable, outcome, rfl, carried⟩ := whenStopped stopped
    simp only [StageEnd.ReportsEarliest, carried, IsEarliest, CarriesEarliest, comparable, stopped,
      not_true_eq_false, false_and, or_false, true_and]
  · have told := otherwise stopped
    simp only [CarriesEarliest, stopped, false_and, not_false_eq_true, true_and, false_or]
    cases final with
    | typeError =>
        refine iff_of_false id fun carries => ?_
        obtain ⟨reported, folded⟩ := (foldEarlier_comparable _).mpr carries.1
        cases Eq.trans (Eq.symm told) folded
    | returned outcome =>
        obtain ⟨comparable, carries⟩ := told unsuccessful
        simp only [StageEnd.ReportsEarliest]
        rw [Carries] at carries
        by_cases cancelled : lastClass reports = some .cancelled
        · rw [if_pos cancelled] at carries
          simp only [carries, comparable, cancelled, true_and, ne_eq, not_true_eq_false, false_and,
            or_false]
        · rw [if_neg cancelled] at carries
          have earliest := foldEarlier_isEarliest offset (ownTexts_subset reports)
          simp only [carries, Except.ok.injEq, exists_eq_left', comparable, true_and] at earliest
          simp only [earliest, comparable, cancelled, ne_eq, not_false_eq_true, false_and, true_and,
            false_or]

end StageCall

/-! ## A rate-limited stage -/

/-- A stage on Codex with Claude as its fallback and one retry. -/
def limitedStage : StageCall where
  config := {
    maxStageAttempts := 3
    retry := { maxAttempts := 1, baseDelayS := 2, maxDelayS := 30 }
    providers _ := { model := "", permissionProfile := "workspace-write" }
    isolationReasons _ := some [] }
  request := {}
  route := { primary := .codex, fallback := some .claude }

/-- The first run fails with one class and text, every later one with others. -/
def failingWith (first later : ErrorClass × Option ResetInstant) (turn : Nat) : StageAnswers where
  run :=
    let failure := if turn = 0 then first else later
    .error { errorClass := failure.1, message := "", resetsAt := failure.2 }
  isCancelled := false
  partialChange := none

def unreadable : ResetInstant := ⟨"in an hour", none⟩

def atFive : ResetInstant := ⟨"2026-08-06T05:00:00+00:00", some (.aware 1785992400000000)⟩

def atNine : ResetInstant := ⟨"2026-08-06T09:00:00+00:00", some (.aware 1786006800000000)⟩

def atFiveNaive : ResetInstant := ⟨"2026-08-06T05:00:00", some (.naive 1785992400000000)⟩

/-- Both providers are limited, the primary for longer: the stage reports the fallback's instant. -/
theorem reportsEarliest_limitedStage :
    ∃ final, (limitedStage.runStage
        (failingWith (.rateLimited, some atNine) (.rateLimited, some atFive)) 4).result =
          some final ∧
      final.ReportsEarliest 0 (limitedStage.reports
        (failingWith (.rateLimited, some atNine) (.rateLimited, some atFive)) 4) := by
  have told : limitedStage.reports
      (failingWith (.rateLimited, some atNine) (.rateLimited, some atFive)) 4 =
        [⟨false, .rateLimited, some atNine⟩, ⟨false, .rateLimited, some atFive⟩] := rfl
  have events : (limitedStage.runStage
      (failingWith (.rateLimited, some atNine) (.rateLimited, some atFive)) 4).events.all
        fun event => match event with
          | .polled cancelled => !cancelled
          | _ => true := by decide
  refine ⟨_, rfl, (limitedStage.reportsEarliest_iff
    (failingWith (.rateLimited, some atNine) (.rateLimited, some atFive)) 4 0 rfl rfl).mpr ?_⟩
  refine ⟨?_, .inr ⟨fun stopped => absurd (List.all_eq_true.mp events _ stopped) (by decide),
    .inr ⟨?_, .inr ⟨atNine, ?_, rfl, ?_⟩⟩⟩⟩
  · rw [told]
    intro first isFirst instant parsed other found
    cases isFirst
    cases parsed
    have instants : parsedOf (ownTexts [⟨false, .rateLimited, some atNine⟩,
      ⟨false, .rateLimited, some atFive⟩]) =
        [.aware 1786006800000000, .aware 1785992400000000] := rfl
    rw [instants] at found
    simp only [List.mem_cons, List.not_mem_nil, or_false] at found
    rcases found with rfl | rfl <;> rfl
  · rw [told]
    decide
  · rw [told]
    rfl
  · rw [told]
    intro other found
    exact ⟨other, found, le_rfl⟩

/-- An unreadable text hides a later instant, a naive and an aware one raise, and the instant of a
transient retry is lost. -/
theorem limitedStage_misreports :
    (∃ final, (limitedStage.runStage
        (failingWith (.rateLimited, some unreadable) (.rateLimited, some atFive)) 4).result =
          some final ∧
      final.Unsuccessful ∧ ¬ final.ReportsEarliest 0 (limitedStage.reports
        (failingWith (.rateLimited, some unreadable) (.rateLimited, some atFive)) 4)) ∧
    (limitedStage.runStage
      (failingWith (.rateLimited, some atNine) (.rateLimited, some atFiveNaive)) 3).result =
        some .typeError ∧
    ∃ final, ({ limitedStage with route := ⟨.codex, none⟩ }.runStage
        (failingWith (.networkUnavailable, none) (.rateLimited, some atFive)) 4).result =
          some final ∧
      final.Unsuccessful ∧ ¬ final.ReportsEarliest 0
        ({ limitedStage with route := ⟨.codex, none⟩ }.reports
          (failingWith (.networkUnavailable, none) (.rateLimited, some atFive)) 4) := by
  refine ⟨⟨_, rfl, rfl, ?_⟩, rfl, _, rfl, rfl, ?_⟩
  · rintro ⟨instant, parsed, -⟩
    cases parsed
  · intro nothing
    have some : parsedOf (textsOf [⟨false, .networkUnavailable, none⟩,
      ⟨true, .rateLimited, some atFive⟩]) = [] := nothing
    revert some
    decide

end Orchestrator.Routing
