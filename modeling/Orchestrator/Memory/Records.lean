import Mathlib.Data.List.Dedup
import Orchestrator.Foundation.Text

/-! # Memory records

The rows of the memory store, as they are read back: a field that a row lacks is
absent. A file that does not exist is absent too, and reads as no rows.
-/

namespace Orchestrator.Memory

inductive LongTermKind where
  | semantic
  | procedural
  | reviewer
  | failure
  deriving DecidableEq

def LongTermKind.value : LongTermKind → String
  | .semantic => "semantic"
  | .procedural => "procedural"
  | .reviewer => "reviewer"
  | .failure => "failure"

/-- The kinds in the order of their enumeration. -/
def LongTermKind.all : List LongTermKind := [.semantic, .procedural, .reviewer, .failure]

inductive TrustLevel where
  | repoObserved
  | humanCurated
  | reviewVerified
  | artifactBacked
  | agentInferred
  | externalUntrusted
  deriving DecidableEq

/-- `DURABLE_TRUST_LEVELS`. -/
def durableTrustLevels : List TrustLevel :=
  [.repoObserved, .humanCurated, .reviewVerified, .artifactBacked]

/-- A time stamp with the instant it denotes, in microseconds, if it can be parsed. The
orchestrator's stamps are all in UTC. -/
structure Stamp where
  text : String
  instant : Option Int
  deriving DecidableEq

/-- A pointer to what backs a record. -/
structure Evidence where
  type : String
  ref : String
  deriving DecidableEq

structure Relationship where
  type : String
  target : String
  deriving DecidableEq

structure Scope where
  paths : List String := []
  symbols : List String := []
  nodes : List String := []
  deriving DecidableEq

/-- A distilled outcome of a run. -/
structure EpisodeRow where
  id : Option String
  taskId : Option String
  createdAt : Option Stamp
  expiresAt : Option Stamp := none

/-- A lesson. -/
structure LongTermRow where
  memoryId : Option String
  kind : LongTermKind
  subject : Option String
  statement : Option String
  trustLevel : TrustLevel
  rationale : Option String := none
  scope : Option Scope := none
  evidence : List Evidence := []
  remedy : Option String := none
  status : Option String := none
  lastVerifiedAt : Option Stamp := none
  usageCount : Option Int := none
  firstSeenAt : Option Stamp := none
  seenTaskIds : List String := []
  deriving DecidableEq

/-- A card about a file, a module or another entity of the repository. -/
structure EntityRow where
  entityId : Option String
  entityType : Option String
  canonicalName : Option String
  trustLevel : TrustLevel
  paths : List String := []
  symbols : List String := []
  summary : Option String := none
  relationships : List Relationship := []
  riskNotes : List String := []
  lastSeenTaskIds : List String := []
  status : Option String := none
  deriving DecidableEq

/-- A row held in quarantine. -/
inductive PendingRow where
  | lesson (row : LongTermRow)
  | entity (row : EntityRow)

/-- `_id_of`: an empty id is none. -/
def LongTermRow.idOf (row : LongTermRow) : Option String := row.memoryId.filter fun id => id ≠ ""

def EntityRow.idOf (row : EntityRow) : Option String := row.entityId.filter fun id => id ≠ ""

def PendingRow.idOf : PendingRow → Option String
  | .lesson row => row.idOf
  | .entity row => row.idOf

/-- `_record_active`: a row without a status is active. -/
def isActive (status : Option String) : Bool :=
  match status with
  | none => true
  | some status => status = "" || status = "active"

/-! ## Redaction -/

section Redaction

variable (scrub : String → String)

def Scope.redact (scope : Scope) : Scope where
  paths := scope.paths.map scrub
  symbols := scope.symbols.map scrub
  nodes := scope.nodes.map scrub

def Evidence.redact (evidence : Evidence) : Evidence where
  type := scrub evidence.type
  ref := scrub evidence.ref

def Relationship.redact (relationship : Relationship) : Relationship where
  type := scrub relationship.type
  target := scrub relationship.target

/-- `redact_mapping` on an episode; stamps have no shape that redaction changes. -/
def EpisodeRow.redact (row : EpisodeRow) : EpisodeRow :=
  { row with id := row.id.map scrub, taskId := row.taskId.map scrub }

/-- `redact_mapping` on a lesson. -/
def LongTermRow.redact (row : LongTermRow) : LongTermRow :=
  { row with
    memoryId := row.memoryId.map scrub
    subject := row.subject.map scrub
    statement := row.statement.map scrub
    rationale := row.rationale.map scrub
    scope := row.scope.map (Scope.redact scrub)
    evidence := row.evidence.map (Evidence.redact scrub)
    remedy := row.remedy.map scrub
    status := row.status.map scrub
    seenTaskIds := row.seenTaskIds.map scrub }

/-- `redact_mapping` on an entity card. -/
def EntityRow.redact (row : EntityRow) : EntityRow :=
  { row with
    entityId := row.entityId.map scrub
    entityType := row.entityType.map scrub
    canonicalName := row.canonicalName.map scrub
    paths := row.paths.map scrub
    symbols := row.symbols.map scrub
    summary := row.summary.map scrub
    relationships := row.relationships.map (Relationship.redact scrub)
    riskNotes := row.riskNotes.map scrub
    lastSeenTaskIds := row.lastSeenTaskIds.map scrub
    status := row.status.map scrub }

def PendingRow.redact : PendingRow → PendingRow
  | .lesson row => .lesson (row.redact scrub)
  | .entity row => .entity (row.redact scrub)

end Redaction

/-! ## The store -/

/-- The tier files. -/
structure Tiers where
  recent : Option (List EpisodeRow) := none
  longTerm : LongTermKind → Option (List LongTermRow) := fun _ => none
  entities : Option (List EntityRow) := none
  pending : Option (List PendingRow) := none

namespace Tiers

variable (tiers : Tiers)

/-- `read_episodes`. -/
def readEpisodes : List EpisodeRow := tiers.recent.getD []

/-- `read_long_term`. -/
def readLongTerm (kind : LongTermKind) : List LongTermRow := (tiers.longTerm kind).getD []

/-- `read_entities`. -/
def readEntities : List EntityRow := tiers.entities.getD []

/-- `read_quarantine`. -/
def readPending : List PendingRow := tiers.pending.getD []

/-- Some tier file exists. -/
def anyFile : Bool :=
  tiers.recent.isSome || tiers.entities.isSome || tiers.pending.isSome ||
    LongTermKind.all.any fun kind => (tiers.longTerm kind).isSome

/-- The files of a snapshot taken over an earlier one under the same label. -/
def overlay (earlier : Tiers) : Tiers where
  recent := tiers.recent <|> earlier.recent
  longTerm kind := tiers.longTerm kind <|> earlier.longTerm kind
  entities := tiers.entities <|> earlier.entities
  pending := tiers.pending <|> earlier.pending

end Tiers

inductive AuditAction where
  | append
  | merge
  | quarantine
  | prune

/-- A row of the audit log, as far as the operations decide it. -/
structure AuditEntry where
  action : AuditAction
  affectedIds : List String

/-- The memory store: the tier files, the audit log and the snapshots by label. -/
structure MemoryStore where
  tiers : Tiers := {}
  audit : List AuditEntry := []
  snapshots : String → Option Tiers := fun _ => none

end Orchestrator.Memory

/-! ## Lifecycle rules of the memory

Trust, the keys of lessons and the promotion gate.
-/

namespace Orchestrator.Memory

open Orchestrator.Foundation

/-- The functions of the language that keys are built with: `str.strip`, `str.lower`, `str.split`,
`str.isalnum` of a character, and the first twelve hexadecimal digits of a text's SHA-256. -/
structure TextFunctions where
  strip : String → String
  lower : String → String
  split : String → List String
  isAlnum : Char → Bool
  digest : String → String

variable (text : TextFunctions)

/-! ## Trust -/

/-- The evidence types that ground a trust level. -/
def externalTypes : List String := ["web", "mcp", "url", "external", "api"]
def operatorTypes : List String := ["operator", "human", "hitl"]
def reviewTypes : List String := ["review", "fixing"]
def repoTypes : List String := ["repo", "repo_doc", "code", "config", "doc", "file"]
def artifactTypes : List String := ["artifact", "check", "diff", "test", "plan", "commit"]

/-- `_AUTO_PROMOTE`. -/
def autoPromote : List TrustLevel := [.repoObserved, .humanCurated, .reviewVerified]

/-- `assign_trust`: external evidence dominates, otherwise the best-grounded class wins. -/
def assignTrust (evidence : List Evidence) : TrustLevel :=
  let types := evidence.map fun item => text.lower (text.strip item.type)
  if types.any (· ∈ externalTypes) then .externalUntrusted
  else if types.any (· ∈ operatorTypes) then .humanCurated
  else if types.any (· ∈ reviewTypes) then .reviewVerified
  else if types.any (· ∈ repoTypes) then .repoObserved
  else if types.any (· ∈ artifactTypes) then .artifactBacked
  else .agentInferred

/-- `assign_entity_trust`: a card is grounded in the paths it names, as far as they exist. -/
def assignEntityTrust (paths : List String) (pathExists : Option (String → Bool)) : TrustLevel :=
  if paths = [] then .agentInferred
  else match pathExists with
    | none => .repoObserved
    | some pathExists => if paths.all pathExists then .repoObserved else .agentInferred

/-! ## Keys -/

/-- `normalize_subject`. -/
def normalizeSubject (subject : String) : String :=
  String.intercalate " " (text.split (text.lower subject))

/-- `_scope_key`: the paths of a lesson, however they are ordered and slashed. -/
def scopeKey (paths : List String) : String :=
  String.intercalate "\n" (Text.sorted ((paths.filter fun path => text.strip path ≠ "").map
    fun path => Text.replace (text.strip path) '\\' '/').dedup)

/-- `derive_long_term_id`: a lesson is known by its kind and its paths, or its subject without
paths. -/
def deriveLongTermId (kind : LongTermKind) (subject : String) (paths : List String) : String :=
  let basis := if scopeKey text paths = "" then normalizeSubject text subject
    else scopeKey text paths
  "ltm_" ++ text.digest (kind.value ++ ":" ++ basis)

/-! ## The promotion gate -/

/-- `should_promote`. -/
def shouldPromote (trust : TrustLevel) (hasEvidence : Bool) (recurrenceTasks minTasks : Int)
    (explainedFailure : Bool) : Bool :=
  if trust ∉ durableTrustLevels || !hasEvidence then false
  else decide (minTasks ≤ recurrenceTasks) || decide (trust ∈ autoPromote) || explainedFailure

/-- The microseconds of a day. -/
def microsPerDay : Int := 86400000000

/-- `_within_window`: a stamp that cannot be parsed is within. -/
def withinWindow (firstSeenAt now : Stamp) (days : Int) : Bool :=
  match firstSeenAt.instant, now.instant with
  | some start, some last => decide (last - start ≤ days * microsPerDay)
  | _, _ => true

end Orchestrator.Memory
