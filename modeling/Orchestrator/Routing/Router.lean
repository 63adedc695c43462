import Mathlib.Algebra.Order.Ring.Rat
import Orchestrator.Foundation.Machine
import Orchestrator.Routing.Providers

/-! # The agent router

A stage runs its primary provider and, for infrastructure failures only, the
fallback. One turn of the stage is one exchange with the outside: a provider
run, a poll of the cancellation check, a back-off or a look at the working tree.
-/

namespace Orchestrator.Routing

open Orchestrator.Foundation
open Orchestrator.Flow (ProviderId)

/-- Whether a raised error permits fallback, given both profiles. -/
def fallbackAllowed (errorClass : ErrorClass) (primaryProfile fallbackProfile : String)
    (fallbackCanIsolate : Bool) : Bool :=
  if errorClass ∈ fallbackEligible then true
  else if errorClass ∈ conditionalFallback then
    let sameOrStricter := Security.isSameOrStricter fallbackProfile primaryProfile
    if errorClass = .capabilityUnavailable then sameOrStricter && fallbackCanIsolate
    else sameOrStricter
  else false

/-- Comparing a naive with an aware instant raises in Python. -/
inductive TypeError where
  | naiveAndAware

/-- `candidate < current` on parsed instants. -/
def Instant.isBefore : Instant → Instant → Except TypeError Bool
  | .naive candidate, .naive current => .ok (decide (candidate < current))
  | .aware candidate, .aware current => .ok (decide (candidate < current))
  | _, _ => .error .naiveAndAware

/-- `_earlier`: the earlier of two reset instants; one that does not parse gives way. -/
def earlier (current candidate : Option ResetInstant) :
    Except TypeError (Option ResetInstant) :=
  match current, candidate with
  | current, none => .ok current
  | none, candidate => .ok candidate
  | some current, some candidate =>
      match current.parsed, candidate.parsed with
      | some first, some second =>
          match second.isBefore first with
          | .error error => .error error
          | .ok before => .ok (some (if before then candidate else current))
      | _, _ => .ok (some current)

/-! ## The arguments of a stage -/

structure RetryConfig where
  maxAttempts : Nat
  baseDelayS : Rat
  maxDelayS : Rat

/-- What the router reads of the configuration. The isolation check of a provider, where there is
one, lists what stands in the way of isolating. -/
structure RouterConfig where
  maxStageAttempts : Int
  retry : RetryConfig
  providers : ProviderId → ProviderConfig
  isolationReasons : ProviderId → Option (List String)

/-- The chosen primary and fallback of a node. -/
structure ResolvedRoute where
  primary : ProviderId
  fallback : Option ProviderId

/-- Every provider an attempt may land on, the primary first. -/
def ResolvedRoute.providers (route : ResolvedRoute) : List ProviderId :=
  route.primary :: route.fallback.toList

/-- One call of `run_stage`. -/
structure StageCall where
  config : RouterConfig
  request : AgentRunRequest
  route : ResolvedRoute
  hasSnapshot : Bool := false

/-- One provider invocation within a stage. -/
structure ProviderAttempt where
  provider : ProviderId
  attempt : Nat
  status : Option RunStatus
  errorClass : Option ErrorClass
  result : Option AgentRunResult
  model : Option String
  reasoning : Option String
  resumed : Bool

/-- Everything a stage returns. -/
structure StageOutcome where
  route : ResolvedRoute
  result : Option AgentRunResult
  providerUsed : Option ProviderId
  stageAttempts : Nat
  terminalError : Option NormalizedError
  attempts : List ProviderAttempt
  partialChange : Option PartialChange

/-- A stage returns its outcome, or raises on instants that cannot be compared. -/
inductive StageEnd where
  | returned (outcome : StageOutcome)
  | typeError

/-! ## The state between two exchanges -/

/-- What a stage has accumulated. -/
structure StageProgress where
  stageAttempts : Nat := 0
  auditAttempt : Nat := 0
  lastError : Option NormalizedError := none
  earliestReset : Option ResetInstant := none
  partialChange : Option PartialChange := none
  attempts : List ProviderAttempt := []

/-- A provider being run with a request, and the providers after it. -/
structure Hop where
  provider : ProviderId
  request : AgentRunRequest
  rest : List ProviderId

/-- The state of `_retry_transient` before its try number `index`. -/
structure TransientRetry where
  hop : Hop
  firstError : ProviderError
  lastClass : ErrorClass
  index : Nat

/-- What a stage exchanges with the outside next. -/
inductive StagePhase where
  | capture
  | run (hop : Hop)
  | poll (hop : Hop) (error : ProviderError)
  | freshRun (hop : Hop)
  | backoff (retry : TransientRetry)
  | retryRun (retry : TransientRetry)
  | compare (provider : ProviderId) (rest : List ProviderId)

structure StageState where
  phase : StagePhase
  progress : StageProgress

/-- The answers of the outside during one turn, of which the phase uses one. -/
structure StageAnswers where
  run : Except ProviderError AgentRunResult
  isCancelled : Bool
  partialChange : Option PartialChange

/-- The exchange of one turn. -/
inductive StageEvent where
  | captured
  | ran (provider : ProviderId) (request : AgentRunRequest)
  | polled (cancelled : Bool)
  | slept (delay : Rat)
  | compared

/-- The stage goes on to its next exchange or ends. -/
inductive StageStep where
  | goesOn (state : StageState)
  | ends (stageEnd : StageEnd)

namespace StageCall

variable (call : StageCall)

/-- The budget of hops is spent. -/
def attemptsSpent (progress : StageProgress) : Bool :=
  decide ((progress.stageAttempts : Int) ≥ call.config.maxStageAttempts)

/-- A missing isolation check fails closed. -/
def canIsolate (provider : ProviderId) : Bool :=
  match call.config.isolationReasons provider with
  | none => false
  | some reasons => reasons.isEmpty

def profileOf (provider : ProviderId) : String :=
  (call.config.providers provider).permissionProfile

/-- The request of one attempt: the fallback gets the partial diff alone, and a different provider
none of the fields that belong to the one before. -/
def buildRequest (attempt : Nat) (partialChange : Option PartialChange)
    (fromProvider : Option ProviderId) (toProvider : ProviderId) : AgentRunRequest :=
  let request := { call.request with attempt }
  let request := match partialChange with
    | none => request
    | some change => { request with
        diffPath := some change.diffPath
        changeOverviewPath := none
        diffBase := none
        changeGuidance := none }
  match fromProvider with
  | none => request
  | some source =>
      if source = toProvider then request
      else { request with
        model := none
        reasoning := mapReasoningForProviderSwitch source toProvider call.request.reasoning
        extraArgs := []
        sessionId := none }

/-- The audit row of one invocation. -/
def attemptRow (provider : ProviderId) (request : AgentRunRequest)
    (outcome : Except ProviderError AgentRunResult) : ProviderAttempt :=
  let config := call.config.providers provider
  { provider
    attempt := request.attempt
    status := match outcome with
      | .ok result => some result.status
      | .error _ => none
    errorClass := match outcome with
      | .ok result => result.error.map NormalizedError.errorClass
      | .error error => some error.errorClass
    result := match outcome with
      | .ok result => some result
      | .error error => error.result
    model := config.effectiveModel request.model
    reasoning := config.effectiveReasoning request.reasoning
    resumed := request.sessionId.isSome }

/-- Append the row of one invocation. -/
def record (progress : StageProgress) (hop : Hop)
    (outcome : Except ProviderError AgentRunResult) : StageProgress :=
  { progress with
    attempts := progress.attempts ++ [call.attemptRow hop.provider hop.request outcome] }

/-- A result, good or bad, ends the stage. -/
def succeed (progress : StageProgress) (hop : Hop) (result : AgentRunResult) : StageStep :=
  .ends (.returned {
    route := call.route
    result := some result
    providerUsed := some hop.provider
    stageAttempts := progress.stageAttempts
    terminalError := none
    attempts := (call.record progress hop (.ok result)).attempts
    partialChange := progress.partialChange })

/-- The end of a stage without a result: the last error, with the earliest reset reported unless the
stage was cancelled. -/
def exhaust (progress : StageProgress) : StageStep :=
  .ends (.returned {
    route := call.route
    result := none
    providerUsed := none
    stageAttempts := progress.stageAttempts
    terminalError := progress.lastError.map fun error =>
      if error.errorClass = .cancelled then error
      else { error with resetsAt := progress.earliestReset }
    attempts := progress.attempts
    partialChange := progress.partialChange })

/-- The next round of the loop over the providers. -/
def enter (progress : StageProgress) (previous : Option ProviderId) :
    List ProviderId → StageStep
  | [] => call.exhaust progress
  | provider :: rest =>
      if call.attemptsSpent progress then call.exhaust progress
      else
        let attempt := progress.auditAttempt + 1
        .goesOn {
          phase := .run {
            provider
            request := call.buildRequest attempt progress.partialChange previous provider
            rest }
          progress := { progress with
            stageAttempts := progress.stageAttempts + 1
            auditAttempt := attempt } }

/-- After the last failure of a provider: fall back, if there is an attempt left and the class
permits it. -/
def fallBack (progress : StageProgress) (hop : Hop) (errorClass : ErrorClass) : StageStep :=
  match hop.rest with
  | [] => call.exhaust progress
  | next :: _ =>
      if call.attemptsSpent progress then call.exhaust progress
      else if !fallbackAllowed errorClass (call.profileOf hop.provider) (call.profileOf next)
          (call.canIsolate next) then
        call.exhaust progress
      else if call.hasSnapshot then .goesOn { phase := .compare hop.provider hop.rest, progress }
      else call.enter progress (some hop.provider) hop.rest

/-- Note a raised error: the earliest reset first, then the error and its row. -/
def noteFailure (progress : StageProgress) (hop : Hop) (error : ProviderError) :
    Except TypeError StageProgress :=
  match earlier progress.earliestReset error.resetsAt with
  | .error raised => .error raised
  | .ok earliestReset =>
      .ok (call.record
        { progress with
          earliestReset
          lastError := some ⟨error.errorClass, error.message, error.resetsAt⟩ }
        hop (.error error))

/-- All tries of `_retry_transient` failed, or one failed for good. -/
def retriesExhausted (progress : StageProgress) (retry : TransientRetry)
    (lastClass : ErrorClass) : StageStep :=
  call.fallBack
    { progress with
      lastError := some {
        errorClass := lastClass
        message := s!"transient retries exhausted on {retry.hop.provider.value}"
        resetsAt := retry.firstError.resetsAt } }
    retry.hop lastClass

/-- After a failed run and a poll that found no cancellation: a lost session is retried fresh, a
transient failure after a back-off, any other falls back. -/
def afterPoll (progress : StageProgress) (hop : Hop) (error : ProviderError) : StageStep :=
  if error.errorClass = .sessionUnavailable ∧ hop.request.sessionId.isSome ∧
      call.attemptsSpent progress = false then
    let attempt := progress.auditAttempt + 1
    .goesOn {
      phase := .freshRun { hop with request := { hop.request with sessionId := none, attempt } }
      progress := { progress with
        stageAttempts := progress.stageAttempts + 1
        auditAttempt := attempt } }
  else if error.errorClass ∈ transientRetryable ∧ 0 < call.config.retry.maxAttempts then
    .goesOn { phase := .backoff ⟨hop, error, error.errorClass, 0⟩, progress }
  else call.fallBack progress hop error.errorClass

/-- After a failed retry: a lost session is dropped, a class not transient ends the retries. -/
def afterRetry (progress : StageProgress) (retry : TransientRetry) (error : ProviderError) :
    StageStep :=
  let hop := if error.errorClass = .sessionUnavailable then
      { retry.hop with request := { retry.hop.request with sessionId := none } }
    else retry.hop
  if error.errorClass ≠ .sessionUnavailable ∧ error.errorClass ∉ transientRetryable then
    call.retriesExhausted progress retry error.errorClass
  else if retry.index + 1 < call.config.retry.maxAttempts then
    .goesOn {
      phase := .backoff { retry with hop, lastClass := error.errorClass, index := retry.index + 1 }
      progress }
  else call.retriesExhausted progress retry error.errorClass

/-- The back-off before a try. -/
def delay (index : Nat) : Rat :=
  min (call.config.retry.baseDelayS * 2 ^ index) call.config.retry.maxDelayS

/-- One exchange with the outside and what follows from its answer. -/
def exchange (answers : StageAnswers) (progress : StageProgress) :
    StagePhase → StageEvent × StageStep
  | .capture => (.captured, call.enter progress none call.route.providers)
  | .run hop =>
      (.ran hop.provider hop.request,
        match answers.run with
        | .ok result => call.succeed progress hop result
        | .error error =>
            match call.noteFailure progress hop error with
            | .error _ => .ends .typeError
            | .ok progress => .goesOn { phase := .poll hop error, progress })
  | .poll hop error =>
      (.polled answers.isCancelled,
        if answers.isCancelled then
          call.exhaust { progress with
            lastError := some {
              errorClass := .cancelled
              message := "stop requested; agent cancelled, not falling back" } }
        else call.afterPoll progress hop error)
  | .freshRun hop =>
      (.ran hop.provider hop.request,
        match answers.run with
        | .ok result => call.succeed progress hop result
        | .error error =>
            match call.noteFailure progress hop error with
            | .error _ => .ends .typeError
            | .ok progress => call.fallBack progress hop error.errorClass)
  | .backoff retry =>
      let attempt := progress.auditAttempt + 1
      (.slept (call.delay retry.index),
        .goesOn {
          phase := .retryRun { retry with
            hop := { retry.hop with request := { retry.hop.request with attempt } } }
          progress := { progress with auditAttempt := attempt } })
  | .retryRun retry =>
      (.ran retry.hop.provider retry.hop.request,
        match answers.run with
        | .ok result => call.succeed progress retry.hop result
        | .error error =>
            call.afterRetry (call.record progress retry.hop (.error error)) retry error)
  | .compare provider rest =>
      (.compared,
        call.enter { progress with partialChange := answers.partialChange } (some provider) rest)

/-- One turn of a stage. -/
def turn (answers : StageAnswers) (state : StageState) : Turn StageState StageEvent StageEnd :=
  match call.exchange answers state.progress state.phase with
  | (event, .goesOn next) => ⟨next, event, none⟩
  | (event, .ends stageEnd) => ⟨state, event, some stageEnd⟩

/-- A stage as a machine whose inputs are the answers of the outside. -/
def machine : Machine StageAnswers StageState StageEvent StageEnd where
  turn := call.turn

/-- Before anything else a stage captures the working tree, when it is given a way to. -/
def start : StageStep :=
  if call.hasSnapshot then .goesOn { phase := .capture, progress := {} }
  else call.enter {} none call.route.providers

/-- `run_stage`: the first turns of a stage, if it makes any exchange at all. -/
def runStage (answers : Nat → StageAnswers) (turns : Nat) :
    Trace StageState StageEvent StageEnd :=
  match call.start with
  | .goesOn state => call.machine.trace answers state turns
  | .ends stageEnd => ⟨⟨.capture, {}⟩, [], some stageEnd⟩

end StageCall

end Orchestrator.Routing
