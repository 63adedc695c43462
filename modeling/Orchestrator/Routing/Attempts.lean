import Mathlib.Data.List.Chain
import Orchestrator.Routing.StageTurns

/-! # The attempts of a stage

Which provider runs a stage starts, how it records them and what lets one follow
another. First tries and fresh sessions are bounded by the cap of the stage,
transient retries by their own budget.
-/

namespace Orchestrator.Routing

open Orchestrator.Foundation
open Orchestrator.Flow (ProviderId)

/-- The provider and the number of a run, where the event is one. -/
def StageEvent.run? : StageEvent → Option (ProviderId × Nat)
  | .ran provider request => some (provider, request.attempt)
  | _ => none

def StageEvent.isBackoff : StageEvent → Bool
  | .slept _ => true
  | _ => false

/-- The provider runs of a history, in the order they were started. -/
def runsOf (events : List StageEvent) : List (ProviderId × Nat) := events.filterMap StageEvent.run?

/-- The back-offs of a history, each of which one transient retry follows. -/
def backoffs (events : List StageEvent) : Nat := events.countP StageEvent.isBackoff

/-- What a row of the audit says about the run it records. -/
def ProviderAttempt.key (row : ProviderAttempt) : ProviderId × Nat := (row.provider, row.attempt)

/-- The provider run the phase is about to start. -/
def StagePhase.nextRun : StagePhase → Option (ProviderId × AgentRunRequest)
  | .run hop => some (hop.provider, hop.request)
  | .freshRun hop => some (hop.provider, hop.request)
  | .retryRun retry => some (retry.hop.provider, retry.hop.request)
  | _ => none

/-- The classes after which the same provider is tried again. -/
def triedAgain (errorClass : ErrorClass) : Prop :=
  errorClass = .sessionUnavailable ∨ errorClass ∈ transientRetryable

/-- The last row is the failure of a provider with some class. -/
def FailedLast (rows : List ProviderAttempt) (provider : ProviderId)
    (errorClass : ErrorClass) : Prop :=
  ∃ row, rows.getLast? = some row ∧ row.provider = provider ∧ row.status = none ∧
    row.errorClass = some errorClass

namespace StageCall

variable (call : StageCall)

/-- What lets a run of `next` follow a recorded one: that one raised, and its class is one the same
provider is tried again for, or one that permits this fallback. -/
def MayFollow (row : ProviderAttempt) (next : ProviderId) : Prop :=
  row.status = none ∧ ∃ errorClass, row.errorClass = some errorClass ∧
    (row.provider = next ∧ triedAgain errorClass ∨
      fallbackAllowed errorClass (call.profileOf row.provider) (call.profileOf next)
        (call.canIsolate next) = true)

/-- A run of `next` may follow the rows recorded so far. -/
def Follows (rows : List ProviderAttempt) (next : ProviderId) : Prop :=
  ∀ last ∈ rows.getLast?, call.MayFollow last next

/-- Every row may follow the one before it. -/
def Linked (rows : List ProviderAttempt) : Prop :=
  rows.IsChain fun row next => call.MayFollow row next.provider

/-- The rows and counters agree with the history; `pending` runs are numbered but not started, and
`left` back-offs may still come. -/
structure Ledger (events : List StageEvent) (progress : StageProgress) (pending left : Nat) :
    Prop where
  rows : progress.attempts.map ProviderAttempt.key = runsOf events
  numbered : (runsOf events).map Prod.snd = List.range' 1 (runsOf events).length
  linked : call.Linked progress.attempts
  audited : progress.auditAttempt = progress.attempts.length + pending
  counted : progress.auditAttempt = progress.stageAttempts + backoffs events
  capped : (progress.stageAttempts : Int) ≤ max 0 call.config.maxStageAttempts
  affordable : backoffs events + left ≤
    call.route.providers.length * call.config.retry.maxAttempts

/-- The back-offs that may still come. -/
def backoffsLeft (call : StageCall) : StagePhase → Nat
  | .capture => call.route.providers.length * call.config.retry.maxAttempts
  | .run hop => (hop.rest.length + 1) * call.config.retry.maxAttempts
  | .poll hop _ => (hop.rest.length + 1) * call.config.retry.maxAttempts
  | .freshRun hop => hop.rest.length * call.config.retry.maxAttempts
  | .backoff retry => retry.hop.rest.length * call.config.retry.maxAttempts +
      (call.config.retry.maxAttempts - retry.index)
  | .retryRun retry => retry.hop.rest.length * call.config.retry.maxAttempts +
      (call.config.retry.maxAttempts - (retry.index + 1))
  | .compare _ rest => rest.length * call.config.retry.maxAttempts

/-- What the rows must say before each exchange. -/
def Due (rows : List ProviderAttempt) : StagePhase → Prop
  | .capture => rows = []
  | .run hop => hop.request.attempt = rows.length + 1 ∧ call.Follows rows hop.provider
  | .poll hop error => FailedLast rows hop.provider error.errorClass
  | .freshRun hop => hop.request.attempt = rows.length + 1 ∧ call.Follows rows hop.provider
  | .backoff retry => FailedLast rows retry.hop.provider retry.lastClass ∧
      triedAgain retry.lastClass ∧ retry.index < call.config.retry.maxAttempts
  | .retryRun retry =>
      retry.hop.request.attempt = rows.length + 1 ∧ call.Follows rows retry.hop.provider
  | .compare _ rest => ∀ next ∈ rest.head?, call.Follows rows next

/-- The ledger of a stage between two exchanges, and what is due. -/
structure Accounted (events : List StageEvent) (state : StageState) : Prop where
  ledger : call.Ledger events state.progress (if state.phase.nextRun.isSome then 1 else 0)
    (call.backoffsLeft state.phase)
  due : call.Due state.progress.attempts state.phase

/-- The runs of a history are numbered in order, and those beyond the cap are paid for by
back-offs. -/
structure Paid (events : List StageEvent) : Prop where
  numbered : (runsOf events).map Prod.snd = List.range' 1 (runsOf events).length
  capped : ((runsOf events).length : Int) ≤
    max 0 call.config.maxStageAttempts + backoffs events
  affordable : backoffs events ≤ call.route.providers.length * call.config.retry.maxAttempts

/-- What holds of a step after a history: a stage that goes on is accounted for, one that returns
has recorded its runs. -/
def Keeps (events : List StageEvent) : StageStep → Prop
  | .goesOn next => call.Accounted events next
  | .ends (.returned outcome) => call.Paid events ∧
      outcome.attempts.map ProviderAttempt.key = runsOf events ∧ call.Linked outcome.attempts
  | .ends .typeError => call.Paid events

variable {call} {events : List StageEvent} {progress : StageProgress} {pending left : Nat}

/-! ## Histories and rows -/

@[simp] theorem runsOf_append (events more : List StageEvent) :
    runsOf (events ++ more) = runsOf events ++ runsOf more := List.filterMap_append

@[simp] theorem backoffs_append (events more : List StageEvent) :
    backoffs (events ++ more) = backoffs events + backoffs more := List.countP_append

/-- A row may be added that the rows so far permit. -/
theorem Linked.concat {rows : List ProviderAttempt} (linked : call.Linked rows)
    {row : ProviderAttempt} (follows : call.Follows rows row.provider) :
    call.Linked (rows ++ [row]) := by
  refine List.isChain_append.mpr ⟨linked, List.isChain_singleton _, ?_⟩
  intro last isLast next isNext
  cases isNext
  exact follows last isLast

theorem follows_nil (next : ProviderId) : call.Follows [] next := by
  intro last isLast
  cases isLast

/-- After a failure with a class the same provider is tried again for, it may run once more. -/
theorem follows_again {rows : List ProviderAttempt} {provider : ProviderId}
    {errorClass : ErrorClass} (failed : FailedLast rows provider errorClass)
    (again : triedAgain errorClass) : call.Follows rows provider := by
  obtain ⟨row, isLast, same, raised, classified⟩ := failed
  intro last found
  cases isLast.symm.trans found
  exact ⟨raised, errorClass, classified, .inl ⟨same, again⟩⟩

/-- After a failure that permits the fallback, the fallback may run. -/
theorem follows_fallback {rows : List ProviderAttempt} {provider next : ProviderId}
    {errorClass : ErrorClass} (failed : FailedLast rows provider errorClass)
    (allowed : fallbackAllowed errorClass (call.profileOf provider) (call.profileOf next)
      (call.canIsolate next) = true) : call.Follows rows next := by
  obtain ⟨row, isLast, rfl, raised, classified⟩ := failed
  intro last found
  cases isLast.symm.trans found
  exact ⟨raised, errorClass, classified, .inr allowed⟩

/-- Recording a failure makes it the last row. -/
theorem failedLast_record (progress : StageProgress) (hop : Hop) (error : ProviderError) :
    FailedLast (call.record progress hop (.error error)).attempts hop.provider error.errorClass :=
  ⟨_, List.getLast?_concat, rfl, rfl, rfl⟩

/-! ## The ledger -/

theorem Ledger.weaken {less : Nat} (ledger : call.Ledger events progress pending left)
    (le : less ≤ left) : call.Ledger events progress pending less :=
  { ledger with affordable := (Nat.add_le_add_left le _).trans ledger.affordable }

/-- The runs of a ledger are paid for. -/
theorem Ledger.paid (ledger : call.Ledger events progress pending left) : call.Paid events where
  numbered := ledger.numbered
  capped := by
    have rows := congrArg List.length ledger.rows
    rw [List.length_map] at rows
    have audited := ledger.audited
    have counted := ledger.counted
    have capped := ledger.capped
    omega
  affordable := (Nat.le_add_right _ _).trans ledger.affordable

/-- A run that was due is recorded. -/
theorem Ledger.record {hop : Hop} (ledger : call.Ledger events progress 1 left)
    (numbered : hop.request.attempt = progress.attempts.length + 1)
    (follows : call.Follows progress.attempts hop.provider)
    (outcome : Except ProviderError AgentRunResult) :
    call.Ledger (events ++ [.ran hop.provider hop.request]) (call.record progress hop outcome)
      0 left where
  rows := by
    simp only [StageCall.record, List.map_append, ledger.rows, runsOf_append]
    rfl
  numbered := by
    have rows := congrArg List.length ledger.rows
    rw [List.length_map] at rows
    have once : runsOf [.ran hop.provider hop.request] =
      [(hop.provider, hop.request.attempt)] := rfl
    rw [runsOf_append, once, List.map_append, ledger.numbered, List.length_append,
      List.length_singleton, List.range'_concat, numbered, rows]
    simp only [List.map_cons, List.map_nil, Nat.one_mul, Nat.add_comm]
  linked := ledger.linked.concat follows
  audited := by
    simp only [StageCall.record, List.length_append, List.length_singleton]
    exact ledger.audited
  counted := by
    rw [backoffs_append]
    exact ledger.counted
  capped := ledger.capped
  affordable := by
    rw [backoffs_append]
    exact ledger.affordable

/-- A ledger reads the rows and the two counters alone. -/
theorem Ledger.annotate (ledger : call.Ledger events progress pending left)
    {lastError : Option NormalizedError} {earliestReset : Option ResetInstant}
    {partialChange : Option PartialChange} :
    call.Ledger events { progress with lastError, earliestReset, partialChange } pending left :=
  ⟨ledger.rows, ledger.numbered, ledger.linked, ledger.audited, ledger.counted, ledger.capped,
    ledger.affordable⟩

/-- An event that is neither a run nor a back-off changes no ledger. -/
theorem Ledger.quiet (ledger : call.Ledger events progress pending left) {event : StageEvent}
    (silent : event.run? = none) (awake : event.isBackoff = false) :
    call.Ledger (events ++ [event]) progress pending left := by
  have runs : runsOf (events ++ [event]) = runsOf events := by
    rw [runsOf_append, runsOf, runsOf, List.filterMap_cons_none silent, List.filterMap_nil,
      List.append_nil]
  have sleeps : backoffs (events ++ [event]) = backoffs events := by
    rw [backoffs_append, backoffs, backoffs, List.countP_singleton, awake]
    rfl
  exact ⟨runs ▸ ledger.rows, runs ▸ ledger.numbered, ledger.linked, ledger.audited,
    sleeps ▸ ledger.counted, ledger.capped, sleeps ▸ ledger.affordable⟩

/-- A back-off numbers the retry after it. -/
theorem Ledger.sleep {delay : Rat} (ledger : call.Ledger events progress 0 (left + 1)) :
    call.Ledger (events ++ [.slept delay])
      { progress with auditAttempt := progress.auditAttempt + 1 } 1 left := by
  have runs : runsOf (events ++ [.slept delay]) = runsOf events := by
    rw [runsOf_append]
    exact List.append_nil _
  have sleeps : backoffs (events ++ [.slept delay]) = backoffs events + 1 := backoffs_append _ _
  refine ⟨runs ▸ ledger.rows, runs ▸ ledger.numbered, ledger.linked,
    congrArg (· + 1) ledger.audited, ?_, ledger.capped, ?_⟩
  · have counted := ledger.counted
    dsimp only
    omega
  · have affordable := ledger.affordable
    omega

/-- Numbering one more hop. -/
theorem Ledger.enterHop (ledger : call.Ledger events progress 0 left)
    (room : call.attemptsSpent progress = false) :
    call.Ledger events { progress with
      stageAttempts := progress.stageAttempts + 1
      auditAttempt := progress.auditAttempt + 1 } 1 left where
  rows := ledger.rows
  numbered := ledger.numbered
  linked := ledger.linked
  audited := congrArg (· + 1) ledger.audited
  counted := by
    have counted := ledger.counted
    dsimp only
    omega
  capped := by
    have room := of_decide_eq_false room
    dsimp only
    omega
  affordable := ledger.affordable

/-! ## What each function keeps -/

@[simp] theorem buildRequest_attempt (attempt : Nat) (partialChange : Option PartialChange)
    (fromProvider : Option ProviderId) (toProvider : ProviderId) :
    (call.buildRequest attempt partialChange fromProvider toProvider).attempt = attempt := by
  cases fromProvider with
  | none => cases partialChange <;> rfl
  | some source =>
      simp only [buildRequest]
      split
      · cases partialChange <;> rfl
      · cases partialChange <;> rfl

theorem exhaust_keeps (ledger : call.Ledger events progress 0 left) :
    call.Keeps events (call.exhaust progress) :=
  ⟨ledger.paid, ledger.rows, ledger.linked⟩

/-- A returned result is the last row of its stage. -/
theorem succeed_keeps {hop : Hop} (ledger : call.Ledger events progress 1 left)
    (numbered : hop.request.attempt = progress.attempts.length + 1)
    (follows : call.Follows progress.attempts hop.provider) (result : AgentRunResult) :
    call.Keeps (events ++ [.ran hop.provider hop.request]) (call.succeed progress hop result) := by
  have recorded := ledger.record numbered follows (.ok result)
  exact ⟨recorded.paid, recorded.rows, recorded.linked⟩

theorem enter_keeps {sequence : List ProviderId}
    (ledger : call.Ledger events progress 0 (sequence.length * call.config.retry.maxAttempts))
    (due : ∀ next ∈ sequence.head?, call.Follows progress.attempts next)
    (previous : Option ProviderId) :
    call.Keeps events (call.enter progress previous sequence) := by
  cases sequence with
  | nil => exact exhaust_keeps ledger
  | cons provider rest =>
      simp only [enter]
      split
      · exact exhaust_keeps ledger
      · rename_i room
        refine ⟨ledger.enterHop (Bool.eq_false_iff.mpr room), ?_, due provider rfl⟩
        rw [buildRequest_attempt, ledger.audited]

theorem fallBack_keeps {hop : Hop} {errorClass : ErrorClass}
    (ledger : call.Ledger events progress 0
      (hop.rest.length * call.config.retry.maxAttempts))
    (failed : FailedLast progress.attempts hop.provider errorClass) :
    call.Keeps events (call.fallBack progress hop errorClass) := by
  simp only [fallBack]
  split
  · exact exhaust_keeps ledger
  · rename_i next others rest
    split
    · exact exhaust_keeps ledger
    · split
      · exact exhaust_keeps ledger
      · rename_i allowed
        have due : ∀ provider ∈ hop.rest.head?, call.Follows progress.attempts provider := by
          intro provider isNext
          rw [rest] at isNext
          cases isNext
          exact follows_fallback failed (by simpa using allowed)
        split
        · exact ⟨ledger, due⟩
        · exact enter_keeps ledger due (some hop.provider)

/-- A session reset and the first back-off follow the failure of a run. -/
theorem afterPoll_keeps {hop : Hop} {error : ProviderError}
    (ledger : call.Ledger events progress 0
      ((hop.rest.length + 1) * call.config.retry.maxAttempts))
    (failed : FailedLast progress.attempts hop.provider error.errorClass) :
    call.Keeps events (call.afterPoll progress hop error) := by
  have rest : hop.rest.length * call.config.retry.maxAttempts ≤
      (hop.rest.length + 1) * call.config.retry.maxAttempts :=
    Nat.mul_le_mul_right _ (Nat.le_succ _)
  simp only [afterPoll]
  split
  · rename_i lost
    have again : triedAgain error.errorClass := .inl lost.1
    refine ⟨(ledger.weaken rest).enterHop lost.2.2, ?_, follows_again failed again⟩
    exact congrArg (· + 1) ledger.audited
  · split
    · rename_i transient
      refine ⟨ledger.weaken ?_, failed, .inr transient.1, transient.2⟩
      simp only [backoffsLeft, Nat.add_mul, Nat.one_mul]
      omega
    · exact fallBack_keeps (ledger.weaken rest) failed

theorem afterRetry_keeps {retry : TransientRetry} {error : ProviderError}
    (ledger : call.Ledger events progress 0
      (retry.hop.rest.length * call.config.retry.maxAttempts +
        (call.config.retry.maxAttempts - (retry.index + 1))))
    (failed : FailedLast progress.attempts retry.hop.provider error.errorClass) :
    call.Keeps events (call.afterRetry progress retry error) := by
  have exhausted : call.Keeps events
      (call.retriesExhausted progress retry error.errorClass) :=
    fallBack_keeps (ledger.weaken (Nat.le_add_right _ _)).annotate failed
  simp only [afterRetry]
  split
  · exact exhausted
  · rename_i lasting
    split
    · rename_i room
      have again : triedAgain error.errorClass := by
        by_cases lost : error.errorClass = .sessionUnavailable
        · exact .inl lost
        · exact .inr (not_not.mp fun final => lasting ⟨lost, final⟩)
      by_cases lost : error.errorClass = .sessionUnavailable
      · simp only [lost, ↓reduceIte] at failed again ⊢
        exact ⟨ledger, failed, again, room⟩
      · simp only [lost, ↓reduceIte]
        exact ⟨ledger, failed, again, room⟩
    · exact exhausted

/-- A failed run is recorded before anything else is made of it. -/
theorem noteFailure_ledger {hop : Hop} {error : ProviderError} {noted : StageProgress}
    (ledger : call.Ledger events progress 1 left)
    (numbered : hop.request.attempt = progress.attempts.length + 1)
    (follows : call.Follows progress.attempts hop.provider)
    (done : call.noteFailure progress hop error = .ok noted) :
    call.Ledger (events ++ [.ran hop.provider hop.request]) noted 0 left ∧
      FailedLast noted.attempts hop.provider error.errorClass := by
  simp only [noteFailure] at done
  split at done
  · cases done
  · cases done
    exact ⟨(ledger.record numbered follows (.error error)).annotate, failedLast_record _ _ _⟩

/-- Numbers alone survive a run whose failure is not recorded. -/
theorem Ledger.paid_run {hop : Hop} (ledger : call.Ledger events progress 1 left)
    (numbered : hop.request.attempt = progress.attempts.length + 1)
    (follows : call.Follows progress.attempts hop.provider) (outcome : Except ProviderError
      AgentRunResult) : call.Paid (events ++ [.ran hop.provider hop.request]) :=
  (ledger.record numbered follows outcome).paid

/-- Every exchange keeps a stage accounted for. -/
theorem exchange_keeps {state : StageState} (accounted : call.Accounted events state)
    (answers : StageAnswers) :
    call.Keeps (events ++ [(call.exchange answers state.progress state.phase).1])
      (call.exchange answers state.progress state.phase).2 := by
  obtain ⟨phase, progress⟩ := state
  obtain ⟨ledger, due⟩ := accounted
  cases phase with
  | capture =>
      refine enter_keeps (ledger.quiet rfl rfl) ?_ none
      intro next _
      rw [show progress.attempts = [] from due]
      exact follows_nil next
  | run hop =>
      obtain ⟨numbered, follows⟩ := due
      simp only [exchange]
      split
      · exact succeed_keeps ledger numbered follows _
      · split
        · exact ledger.paid_run numbered follows (.error ‹_›)
        · rename_i noted done
          obtain ⟨recorded, failed⟩ := noteFailure_ledger ledger numbered follows done
          exact ⟨recorded, failed⟩
  | poll hop error =>
      simp only [exchange]
      split
      · exact exhaust_keeps (ledger.quiet rfl rfl).annotate
      · exact afterPoll_keeps (ledger.quiet rfl rfl) due
  | freshRun hop =>
      obtain ⟨numbered, follows⟩ := due
      simp only [exchange]
      split
      · exact succeed_keeps ledger numbered follows _
      · split
        · exact ledger.paid_run numbered follows (.error ‹_›)
        · rename_i noted done
          obtain ⟨recorded, failed⟩ := noteFailure_ledger ledger numbered follows done
          exact fallBack_keeps recorded failed
  | backoff retry =>
      obtain ⟨failed, again, room⟩ := due
      refine ⟨(ledger.weaken ?_).sleep, congrArg (· + 1) ledger.audited,
        follows_again failed again⟩
      simp only [backoffsLeft]
      omega
  | retryRun retry =>
      obtain ⟨numbered, follows⟩ := due
      simp only [exchange]
      split
      · exact succeed_keeps ledger numbered follows _
      · exact afterRetry_keeps (ledger.record numbered follows _) (failedLast_record _ _ _)
  | compare provider rest =>
      have compared : call.Ledger (events ++ [.compared])
          { progress with partialChange := answers.partialChange } 0
          (rest.length * call.config.retry.maxAttempts) := (ledger.quiet rfl rfl).annotate
      exact enter_keeps compared due (some provider)

/-- A run that is due may follow the rows so far. -/
theorem Accounted.follows_of_nextRun {state : StageState} (accounted : call.Accounted events state)
    {provider : ProviderId} {request : AgentRunRequest}
    (next : state.phase.nextRun = some (provider, request)) :
    call.Follows state.progress.attempts provider := by
  obtain ⟨phase, progress⟩ := state
  have due := accounted.due
  cases phase with
  | capture => cases next
  | run hop =>
      cases next
      exact due.2
  | poll hop error => cases next
  | freshRun hop =>
      cases next
      exact due.2
  | backoff retry => cases next
  | retryRun retry =>
      cases next
      exact due.2
  | compare provider rest => cases next

/-! ## Runs -/

/-- What holds of a trace of a stage. -/
def Kept (call : StageCall) (trace : Trace StageState StageEvent StageEnd) : Prop :=
  call.Keeps trace.events (trace.result.elim (.goesOn trace.state) .ends)

theorem start_keeps (call : StageCall) : call.Keeps [] call.start := by
  have ledger : call.Ledger [] {} 0
      (call.route.providers.length * call.config.retry.maxAttempts) :=
    ⟨rfl, rfl, List.isChain_nil, rfl, rfl, le_max_left _ _, (Nat.zero_add _).le⟩
  simp only [start]
  split
  · exact ⟨ledger, rfl⟩
  · exact enter_keeps ledger (fun next _ => follows_nil next) none

/-- Every run of a stage is accounted for. -/
theorem runStage_kept (call : StageCall) (answers : Nat → StageAnswers) (turns : Nat) :
    call.Kept (call.runStage answers turns) := by
  have started := call.start_keeps
  cases first : call.start with
  | ends final =>
      rw [first] at started
      simp only [runStage, first]
      exact started
  | goesOn state =>
      rw [first] at started
      simp only [runStage, first]
      refine call.machine.trace_induction call.Kept started ?_ turns
      intro count before kept running _
      rw [Kept, running] at kept
      have next := exchange_keeps kept (answers count)
      rw [← turn_event] at next
      cases followed : (call.exchange (answers count) before.state.progress
          before.state.phase).2 with
      | goesOn later =>
          obtain ⟨reached, still⟩ := turn_goesOn followed
          simp only [Kept, machine, reached, still, Option.elim_none]
          rwa [followed] at next
      | ends final =>
          simp only [Kept, machine, turn_ends followed, Option.elim_some]
          rwa [followed] at next

/-- The runs of a stage beyond its cap are transient retries, of which each provider has its budget;
all are numbered in order. A stage that returns has recorded every run, in order, and each may
follow the one before it; no other run is ever started. -/
theorem runStage_attempts (call : StageCall) (answers : Nat → StageAnswers) (turns : Nat) :
    let trace := call.runStage answers turns
    ((runsOf trace.events).length : Int) ≤
        max 0 call.config.maxStageAttempts + backoffs trace.events ∧
      backoffs trace.events ≤ call.route.providers.length * call.config.retry.maxAttempts ∧
      (runsOf trace.events).map Prod.snd = List.range' 1 (runsOf trace.events).length ∧
      (∀ outcome, trace.result = some (.returned outcome) →
        outcome.attempts.map ProviderAttempt.key = runsOf trace.events ∧
        call.Linked outcome.attempts) ∧
      (trace.result = none → ∀ provider request,
        trace.state.phase.nextRun = some (provider, request) →
        trace.state.progress.attempts.map ProviderAttempt.key = runsOf trace.events ∧
        call.Follows trace.state.progress.attempts provider) := by
  intro trace
  have kept : call.Kept trace := call.runStage_kept answers turns
  have paid : call.Paid trace.events := by
    rw [Kept] at kept
    rcases stopped : trace.result with _ | outcome | _
    · rw [stopped] at kept
      exact kept.ledger.paid
    · rw [stopped] at kept
      exact kept.1
    · rw [stopped] at kept
      exact kept
  refine ⟨paid.capped, paid.affordable, paid.numbered, ?_, ?_⟩
  · intro outcome returned
    rw [Kept, returned] at kept
    exact kept.2
  · intro running provider request due
    rw [Kept, running] at kept
    exact ⟨kept.ledger.rows, kept.follows_of_nextRun due⟩

end StageCall

/-- One attempt allowed, and two transient retries. -/
def retriedStage : StageCall where
  config := {
    maxStageAttempts := 1
    retry := { maxAttempts := 2, baseDelayS := 2, maxDelayS := 30 }
    providers _ := { model := "", permissionProfile := "workspace-write" }
    isolationReasons _ := some [] }
  request := {}
  route := { primary := .codex, fallback := none }

/-- Retries of a transient failure are not counted against the cap. -/
theorem retriedStage_exceeds :
    ¬ ∀ (call : StageCall) (answers : Nat → StageAnswers) (turns : Nat),
      ((runsOf (call.runStage answers turns).events).length : Int) ≤
        max 0 call.config.maxStageAttempts := by
  intro capped
  have unreachable := capped retriedStage (fun _ => {
    run := .error { errorClass := .providerUnavailable, message := "" }
    isCancelled := false
    partialChange := none }) 7
  revert unreachable
  decide

end Orchestrator.Routing
