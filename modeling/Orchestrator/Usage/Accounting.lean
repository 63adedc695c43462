import Mathlib.Algebra.Order.Ring.Int
import Mathlib.Data.Rat.Defs
import Orchestrator.Flow.Schema

/-! # Usage accounting

How the usage the providers report becomes usage per attempt: a provider whose
counters are cumulative is charged against the usage its session had before. The
session and that usage are kept in the editing lineage.
-/

namespace Orchestrator.Usage

open Orchestrator.Flow (ProviderId)

inductive UsageScope where
  | sessionCumulative
  | perInvocation
  deriving DecidableEq

/-- Provider-neutral token usage; a count the provider does not report is absent. -/
structure NormalizedUsage where
  scope : UsageScope
  inputTotal : Option Int := none
  cacheRead : Option Int := none
  cacheWrite : Option Int := none
  uncachedInput : Option Int := none
  outputTotal : Option Int := none
  reasoningOutput : Option Int := none
  cost : Option Rat := none

/-- The additive token fields. -/
inductive DeltaField where
  | inputTotal
  | cacheRead
  | cacheWrite
  | uncachedInput
  | outputTotal
  | reasoningOutput

def NormalizedUsage.count (usage : NormalizedUsage) : DeltaField → Option Int
  | .inputTotal => usage.inputTotal
  | .cacheRead => usage.cacheRead
  | .cacheWrite => usage.cacheWrite
  | .uncachedInput => usage.uncachedInput
  | .outputTotal => usage.outputTotal
  | .reasoningOutput => usage.reasoningOutput

/-- What the accounting reads of a result. -/
structure AgentRunResult where
  normalizedUsage : Option NormalizedUsage := none
  sessionId : Option String := none

/-- An attempt of a stage; one that never got a result has none. -/
structure ProviderAttempt where
  result : Option AgentRunResult := none

structure StageOutcome where
  attempts : List ProviderAttempt
  result : Option AgentRunResult
  providerUsed : Option ProviderId

/-- `usage_delta_status`. -/
inductive DeltaStatus where
  | ok
  | unknown

/-! ## Deltas -/

/-- `current - baseline` of one field: an absent current count stays absent, an absent baseline
takes nothing away, and a negative difference is no delta. -/
def countDelta (current baseline : Option Int) : Option (Option Int) :=
  match current, baseline with
  | none, _ => some none
  | some current, none => some (some current)
  | some current, some baseline =>
      if current - baseline < 0 then none else some (some (current - baseline))

/-- `_subtract`: the difference field by field, unless one would be negative. -/
def subtract (current baseline : NormalizedUsage) : Option NormalizedUsage := do
  let inputTotal ← countDelta current.inputTotal baseline.inputTotal
  let cacheRead ← countDelta current.cacheRead baseline.cacheRead
  let cacheWrite ← countDelta current.cacheWrite baseline.cacheWrite
  let uncachedInput ← countDelta current.uncachedInput baseline.uncachedInput
  let outputTotal ← countDelta current.outputTotal baseline.outputTotal
  let reasoningOutput ← countDelta current.reasoningOutput baseline.reasoningOutput
  return { scope := current.scope, inputTotal, cacheRead, cacheWrite, uncachedInput, outputTotal,
           reasoningOutput, cost := none }

/-- `compute_usage_delta`: the usage of one attempt alone. -/
def computeUsageDelta (current baseline : Option NormalizedUsage)
    (currentSessionId baselineSessionId : Option String) :
    Option NormalizedUsage × Option DeltaStatus :=
  match current with
  | none => (none, none)
  | some current =>
      if current.scope ≠ .sessionCumulative then (some current, some .ok)
      else match baseline with
        | none => (some current, some .ok)
        | some baseline =>
            if currentSessionId ≠ baselineSessionId then (some current, some .ok)
            else match subtract current baseline with
              | none => (none, some .unknown)
              | some delta => (some delta, some .ok)

/-- The usage columns of one attempt's row. -/
structure UsageFields where
  scope : Option UsageScope
  delta : Option NormalizedUsage
  status : Option DeltaStatus

/-- `_usage_fields`. -/
def usageFields (result : Option AgentRunResult) (baseline : Option NormalizedUsage)
    (baselineSessionId : Option String) : UsageFields :=
  match result with
  | none => ⟨none, none, none⟩
  | some result =>
      match result.normalizedUsage with
      | none => ⟨none, none, none⟩
      | some usage =>
          let (delta, status) := computeUsageDelta (some usage) baseline result.sessionId
            baselineSessionId
          ⟨some usage.scope, delta, status⟩

/-- `record_provider_attempts`: a row for every attempt of a stage. -/
def recordProviderAttempts (outcome : StageOutcome) (baseline : Option NormalizedUsage)
    (baselineSessionId : Option String) : List UsageFields :=
  outcome.attempts.map fun attempt => usageFields attempt.result baseline baselineSessionId

/-! ## The editing lineage -/

/-- `snapshot_for_lineage`: only cumulative usage is carried on. -/
def snapshotForLineage (usage : Option NormalizedUsage) : Option NormalizedUsage :=
  usage.filter fun usage => usage.scope = .sessionCumulative

/-- The stored session of a lineage. The snapshot is stored as JSON text and read back unchanged. -/
structure EditingLineageRow where
  provider : ProviderId
  rawSessionId : String
  usageSnapshot : Option NormalizedUsage

/-- The session a result names; an empty id names none. -/
def AgentRunResult.session (result : AgentRunResult) : Option String :=
  result.sessionId.filter fun id => id ≠ ""

/-- `_persist_session`: the lineage after a stage. -/
def persistSession (lineage : Option EditingLineageRow) (outcome : StageOutcome) :
    Option EditingLineageRow :=
  match outcome.result.bind fun result => result.session.map fun id => (result, id),
    outcome.providerUsed with
  | some (result, id), some provider =>
      some ⟨provider, id, snapshotForLineage result.normalizedUsage⟩
  | _, _ => lineage

/-- `_same_provider_session_id`: the session of a stage that a run on the same route resumes. -/
def sameProviderSessionId (outcome : StageOutcome) (primary : ProviderId) : Option String :=
  if outcome.providerUsed = some primary then outcome.result.bind AgentRunResult.session else none

/-- The session a run resumes, the usage it is charged against and the session of that usage. -/
structure ResumePoint where
  sessionId : Option String
  baseline : Option NormalizedUsage
  baselineSessionId : Option String

/-- `_resolve_resume`: an explicit session wins, else the lineage of the same provider. -/
def resolveResume (lineage : Option EditingLineageRow) (primary : ProviderId)
    (explicitSessionId : Option String) (explicitBaseline : Option NormalizedUsage) :
    ResumePoint :=
  match explicitSessionId with
  | some id => ⟨some id, explicitBaseline, some id⟩
  | none =>
      match lineage.filter fun row => row.provider = primary with
      | none => ⟨none, none, none⟩
      | some row => ⟨some row.rawSessionId, row.usageSnapshot, some row.rawSessionId⟩

/-! ## Runs of a node -/

/-- One invocation of an agent node: whether it re-runs the node after an operator's answer, the
outcome of its stage, and whether the exchange was found unchanged after it. -/
structure Invocation where
  answersPrevious : Bool := false
  outcome : StageOutcome
  exchangeUnchanged : Bool := true

/-- What is kept from one invocation to the next: the lineage, the outcome the node goes on with and
the rows recorded. -/
structure Books where
  lineage : Option EditingLineageRow
  previous : Option StageOutcome := none
  rows : List UsageFields := []

/-- The resume point of an invocation: an answer resumes the run before it, with that run's
usage. -/
def Books.resumePoint (books : Books) (primary : ProviderId) (invocation : Invocation) :
    ResumePoint :=
  if invocation.answersPrevious then
    resolveResume books.lineage primary
      (books.previous.bind fun outcome => sameProviderSessionId outcome primary)
      (books.previous.bind fun outcome => outcome.result.bind AgentRunResult.normalizedUsage)
  else resolveResume books.lineage primary none none

/-- `_invoke_open`, as far as usage goes: the rows are recorded first; a stage without a result and
one that changed the exchange end the node without storing the session. -/
def Books.invoke (books : Books) (primary : ProviderId) (invocation : Invocation) : Books :=
  let point := books.resumePoint primary invocation
  let rows := books.rows ++
    recordProviderAttempts invocation.outcome point.baseline point.baselineSessionId
  if invocation.outcome.result.isSome ∧ invocation.exchangeUnchanged then
    { lineage := persistSession books.lineage invocation.outcome
      previous := some invocation.outcome
      rows }
  else { lineage := books.lineage, previous := none, rows }

/-- The invocations of a unit, one after another. -/
def Books.run (books : Books) (primary : ProviderId) (invocations : List Invocation) : Books :=
  invocations.foldl (fun books invocation => books.invoke primary invocation) books

/-- What the rows charge for one field. -/
def recordedTotal (field : DeltaField) (rows : List UsageFields) : Int :=
  (rows.map fun row => ((row.delta.bind fun delta => delta.count field).getD 0)).sum

end Orchestrator.Usage
