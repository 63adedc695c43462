import Orchestrator.Flow.Schema

/-! # The provider contract

What the router sends to a provider and gets back from it. The fields of a
request are those the router reads or rewrites, all others it passes on.
-/

namespace Orchestrator.Routing

open Orchestrator.Flow (ProviderId)

/-- Normalized provider error classes. -/
inductive ErrorClass where
  | binaryNotFound
  | unsupportedVersion
  | authenticationFailed
  | authorizationFailed
  | rateLimited
  | networkUnavailable
  | providerUnavailable
  | timeout
  | processCrashed
  | invalidOutput
  | permissionDenied
  | configurationError
  | invalidInvocation
  | modelRequestInvalid
  | taskFailure
  | agentNoProgress
  | sessionUnavailable
  | cancelled
  | containmentUnverified
  | backgroundWorkLost
  | capabilityUnavailable
  deriving DecidableEq

def ErrorClass.value : ErrorClass → String
  | .binaryNotFound => "binary_not_found"
  | .unsupportedVersion => "unsupported_version"
  | .authenticationFailed => "authentication_failed"
  | .authorizationFailed => "authorization_failed"
  | .rateLimited => "rate_limited"
  | .networkUnavailable => "network_unavailable"
  | .providerUnavailable => "provider_unavailable"
  | .timeout => "timeout"
  | .processCrashed => "process_crashed"
  | .invalidOutput => "invalid_output"
  | .permissionDenied => "permission_denied"
  | .configurationError => "configuration_error"
  | .invalidInvocation => "invalid_invocation"
  | .modelRequestInvalid => "model_request_invalid"
  | .taskFailure => "task_failure"
  | .agentNoProgress => "agent_no_progress"
  | .sessionUnavailable => "session_unavailable"
  | .cancelled => "cancelled"
  | .containmentUnverified => "containment_unverified"
  | .backgroundWorkLost => "background_work_lost"
  | .capabilityUnavailable => "capability_unavailable"

/-- `FALLBACK_ELIGIBLE`: the classes that allow fallback unconditionally. -/
def fallbackEligible : List ErrorClass :=
  [.binaryNotFound, .unsupportedVersion, .authenticationFailed, .rateLimited, .networkUnavailable,
    .providerUnavailable, .timeout, .processCrashed, .invalidOutput, .agentNoProgress]

/-- `TRANSIENT_RETRYABLE`: the classes retried on the same provider first. -/
def transientRetryable : List ErrorClass := [.providerUnavailable, .networkUnavailable]

/-- `CONDITIONAL_FALLBACK`: the classes that allow fallback under conditions. -/
def conditionalFallback : List ErrorClass :=
  [.authorizationFailed, .permissionDenied, .capabilityUnavailable]

/-- A parsed instant, in microseconds, without an offset or with it taken into account. -/
inductive Instant where
  | naive (micros : Int)
  | aware (micros : Int)
  deriving DecidableEq

/-- A reset instant as the provider reported it, with what `datetime.fromisoformat` makes of it. -/
structure ResetInstant where
  text : String
  parsed : Option Instant
  deriving DecidableEq

structure NormalizedError where
  errorClass : ErrorClass
  message : String
  resetsAt : Option ResetInstant := none

inductive RunStatus where
  | succeeded
  | failed

/-- A provider's own account of a run it finished, which may be a quality failure. -/
structure AgentRunResult where
  status : RunStatus
  error : Option NormalizedError := none

/-- Raised for an infrastructure failure. -/
structure ProviderError where
  errorClass : ErrorClass
  message : String
  resetsAt : Option ResetInstant := none
  result : Option AgentRunResult := none

structure AgentRunRequest where
  attempt : Nat := 0
  diffPath : Option String := none
  changeOverviewPath : Option String := none
  diffBase : Option String := none
  changeGuidance : Option String := none
  model : Option String := none
  reasoning : Option String := none
  extraArgs : List String := []
  sessionId : Option String := none

/-- What a failed attempt had changed in the working tree. -/
structure PartialChange where
  diffPath : String
  note : String

structure ProviderConfig where
  model : String
  reasoning : Option String := none
  permissionProfile : String

/-- A string that Python's `or` does not pass over. -/
private def truthy (text : Option String) : Option String := text.filter fun value => value ≠ ""

/-- The model an attempt runs on: the override, else the provider's own. -/
def ProviderConfig.effectiveModel (config : ProviderConfig) (override : Option String) :
    Option String := truthy override <|> truthy (some config.model)

/-- The reasoning level an attempt runs at, resolved like the model. -/
def ProviderConfig.effectiveReasoning (config : ProviderConfig) (override : Option String) :
    Option String := truthy override <|> truthy config.reasoning

/-- The reasoning level that survives a switch of providers: only Codex's lowest has a
counterpart. -/
def mapReasoningForProviderSwitch (fromProvider toProvider : ProviderId)
    (reasoning : Option String) : Option String :=
  if fromProvider = .codex ∧ toProvider = .claude ∧ reasoning = some "minimal" then some "low"
  else none

end Orchestrator.Routing
