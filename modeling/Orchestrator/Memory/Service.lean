import Orchestrator.Foundation.Collapse
import Orchestrator.Memory.Records

/-! # The memory service

Candidates that a task proposes go through one funnel: they are promoted, merged
into what is known already, or held in quarantine. Every row written is redacted.
-/

namespace Orchestrator.Memory

open Orchestrator.Foundation

structure MemoryConfig where
  shortTermTtlDays : Int := 30
  promoteMinTasks : Int := 2
  promoteWindowDays : Int := 60
  cleanupMaxScanned : Int := 200
  cleanupMaxEdits : Int := 50

/-- A service: how it redacts a text, its thresholds and the live-repository test of paths. -/
structure MemoryService where
  redactText : String → String
  config : MemoryConfig := {}
  pathExists : Option (String → Bool) := none

/-- Which seam produced a delta. -/
inductive WriteSource where
  | success
  | failure
  deriving DecidableEq

structure CandidateLesson where
  kind : LongTermKind
  subject : String
  statement : String
  rationale : Option String := none
  scope : Scope := {}
  evidence : List Evidence := []

structure CandidateFailure where
  signature : String
  paths : List String := []
  remedy : Option String := none
  evidence : List Evidence := []

structure CandidateEntity where
  entityId : String
  entityType : String
  paths : List String := []
  symbols : List String := []
  summary : String := ""
  relationships : List Relationship := []
  riskNotes : List String := []

structure CandidateDelta where
  lessons : List CandidateLesson := []
  failures : List CandidateFailure := []
  entities : List CandidateEntity := []

structure EpisodeRecord where
  id : String
  taskId : String
  createdAt : Stamp
  expiresAt : Option Stamp := none

/-- What became of a candidate. -/
inductive Ingested where
  | promoted
  | quarantined
  | merged
  | entity

structure ApplyResult where
  episodeId : String
  promoted : Nat := 0
  quarantined : Nat := 0
  merged : Nat := 0
  entities : Nat := 0
  deriving DecidableEq

/-- `_bump`. -/
def ApplyResult.bump (result : ApplyResult) : Ingested → ApplyResult
  | .promoted => { result with promoted := result.promoted + 1 }
  | .quarantined => { result with quarantined := result.quarantined + 1 }
  | .merged => { result with merged := result.merged + 1 }
  | .entity => { result with entities := result.entities + 1 }

/-! ## Writes -/

namespace MemoryStore

variable (store : MemoryStore)

def note (action : AuditAction) (affectedIds : List String) : MemoryStore :=
  { store with audit := store.audit ++ [⟨action, affectedIds⟩] }

variable (service : MemoryService)

/-- `append` of an episode. -/
def appendEpisode (row : EpisodeRow) (id : String) : MemoryStore :=
  { store with tiers := { store.tiers with
      recent := some (store.tiers.readEpisodes ++ [row.redact service.redactText]) } }.note
    .append [id]

/-- `append` of a lesson. -/
def appendLongTerm (row : LongTermRow) (id : String) : MemoryStore :=
  { store with tiers := { store.tiers with
      longTerm := Function.update store.tiers.longTerm row.kind
        (some (store.tiers.readLongTerm row.kind ++ [row.redact service.redactText])) } }.note
    .append [id]

/-- `append` of an entity card. -/
def appendEntity (row : EntityRow) (id : String) : MemoryStore :=
  { store with tiers := { store.tiers with
      entities := some (store.tiers.readEntities ++ [row.redact service.redactText]) } }.note
    .append [id]

/-- `replace_episodes`. -/
def replaceEpisodes (rows : List EpisodeRow) (action : AuditAction) : MemoryStore :=
  { store with tiers := { store.tiers with
      recent := some (rows.map (EpisodeRow.redact service.redactText)) } }.note
    action (rows.filterMap EpisodeRow.id)

/-- `replace_long_term`, naming the affected ids. -/
def replaceLongTerm (kind : LongTermKind) (rows : List LongTermRow) (ids : List String)
    (action : AuditAction) : MemoryStore :=
  { store with tiers := { store.tiers with
      longTerm := Function.update store.tiers.longTerm kind
        (some (rows.map (LongTermRow.redact service.redactText))) } }.note action ids

/-- `replace_entities`. -/
def replaceEntities (rows : List EntityRow) (action : AuditAction) : MemoryStore :=
  { store with tiers := { store.tiers with
      entities := some (rows.map (EntityRow.redact service.redactText)) } }.note
    action (rows.filterMap EntityRow.idOf)

/-- `replace_quarantine`, naming the affected ids. -/
def replacePending (rows : List PendingRow) (ids : List String) (action : AuditAction) :
    MemoryStore :=
  { store with tiers := { store.tiers with
      pending := some (rows.map (PendingRow.redact service.redactText)) } }.note action ids

/-! ### What a write leaves -/

@[simp] theorem note_tiers (action : AuditAction) (affectedIds : List String) :
    (store.note action affectedIds).tiers = store.tiers := rfl

@[simp] theorem appendEpisode_tiers (row : EpisodeRow) (id : String) :
    (store.appendEpisode service row id).tiers = { store.tiers with
      recent := some (store.tiers.readEpisodes ++ [row.redact service.redactText]) } := rfl

@[simp] theorem appendLongTerm_tiers (row : LongTermRow) (id : String) :
    (store.appendLongTerm service row id).tiers = { store.tiers with
      longTerm := Function.update store.tiers.longTerm row.kind
        (some (store.tiers.readLongTerm row.kind ++ [row.redact service.redactText])) } := rfl

@[simp] theorem appendEntity_tiers (row : EntityRow) (id : String) :
    (store.appendEntity service row id).tiers = { store.tiers with
      entities := some (store.tiers.readEntities ++ [row.redact service.redactText]) } := rfl

@[simp] theorem replaceEpisodes_tiers (rows : List EpisodeRow) (action : AuditAction) :
    (store.replaceEpisodes service rows action).tiers = { store.tiers with
      recent := some (rows.map (EpisodeRow.redact service.redactText)) } := rfl

@[simp] theorem replaceLongTerm_tiers (kind : LongTermKind) (rows : List LongTermRow)
    (ids : List String) (action : AuditAction) :
    (store.replaceLongTerm service kind rows ids action).tiers = { store.tiers with
      longTerm := Function.update store.tiers.longTerm kind
        (some (rows.map (LongTermRow.redact service.redactText))) } := rfl

@[simp] theorem replaceEntities_tiers (rows : List EntityRow) (action : AuditAction) :
    (store.replaceEntities service rows action).tiers = { store.tiers with
      entities := some (rows.map (EntityRow.redact service.redactText)) } := rfl

@[simp] theorem replacePending_tiers (rows : List PendingRow) (ids : List String)
    (action : AuditAction) : (store.replacePending service rows ids action).tiers =
      { store.tiers with
        pending := some (rows.map (PendingRow.redact service.redactText)) } := rfl

theorem readLongTerm_replaceLongTerm (kind other : LongTermKind) (rows : List LongTermRow)
    (ids : List String) (action : AuditAction) :
    (store.replaceLongTerm service kind rows ids action).tiers.readLongTerm other =
      if other = kind then rows.map (LongTermRow.redact service.redactText)
      else store.tiers.readLongTerm other := by
  by_cases same : other = kind
  · subst same
    simp [Tiers.readLongTerm]
  · simp [Tiers.readLongTerm, same]

theorem readLongTerm_appendLongTerm (row : LongTermRow) (id : String) (other : LongTermKind) :
    (store.appendLongTerm service row id).tiers.readLongTerm other =
      if other = row.kind then
        store.tiers.readLongTerm row.kind ++ [row.redact service.redactText]
      else store.tiers.readLongTerm other := by
  by_cases same : other = row.kind
  · subst same
    simp [Tiers.readLongTerm]
  · simp [Tiers.readLongTerm, same]

/-- `_put_pending`: the record replaces what quarantine holds under its id. -/
def putPending (record : PendingRow) (id : String) : MemoryStore :=
  store.replacePending service
    ((store.tiers.readPending.filter fun row => row.idOf ≠ some id) ++ [record]) [id] .quarantine

/-- `_drop_pending`. -/
def dropPending (id : String) : MemoryStore :=
  store.replacePending service (store.tiers.readPending.filter fun row => row.idOf ≠ some id) [id]
    .prune

end MemoryStore

/-! ## Lessons -/

/-- A lesson or a failure as it enters the funnel. -/
structure Proposal where
  kind : LongTermKind
  subject : String
  statement : String
  rationale : Option String := none
  scope : Scope := {}
  evidence : List Evidence := []
  remedy : Option String := none
  explainedFailure : Bool := false

/-- `_ingest_lesson`. -/
def CandidateLesson.proposal (candidate : CandidateLesson) : Proposal where
  kind := candidate.kind
  subject := candidate.subject
  statement := candidate.statement
  rationale := candidate.rationale
  scope := candidate.scope
  evidence := candidate.evidence

/-- `_ingest_failure`: a failure with a remedy explains itself. -/
def CandidateFailure.proposal (candidate : CandidateFailure) : Proposal where
  kind := .failure
  subject := candidate.signature
  statement := (candidate.remedy.filter fun remedy => remedy ≠ "").getD candidate.signature
  scope := { paths := candidate.paths }
  evidence := candidate.evidence
  remedy := candidate.remedy
  explainedFailure := candidate.remedy.isSome

/-- Who proposes and when. -/
structure WriteContext where
  source : WriteSource
  now : Stamp
  taskId : String

/-- `_merge_long_term` and `_absorb`: the evidence that is not there yet is added. -/
def unionEvidence (known new : List Evidence) : List Evidence :=
  new.foldl (fun union item => if item ∈ union then union else union ++ [item]) known

/-- The lesson of an id, if the row is it. -/
def PendingRow.lessonOf (memoryId : String) : PendingRow → Option LongTermRow
  | .lesson row => if row.memoryId = some memoryId then some row else none
  | .entity _ => none

/-- `_find(pending, "memory_id", memory_id)`. -/
def findPending (pending : List PendingRow) (memoryId : String) : Option LongTermRow :=
  pending.findSome? (PendingRow.lessonOf memoryId)

variable (text : TextFunctions)

def Proposal.memoryId (proposal : Proposal) : String :=
  deriveLongTermId text proposal.kind proposal.subject proposal.scope.paths

/-- The tasks that have proposed a lesson, this one included. -/
def seenTasks (prior : Option LongTermRow) (taskId : String) : List String :=
  ((prior.map LongTermRow.seenTaskIds).getD [] ++ [taskId]).eraseDups

/-- When a lesson was first proposed. -/
def firstSeen (prior : Option LongTermRow) (now : Stamp) : Stamp :=
  ((prior.bind LongTermRow.firstSeenAt).filter fun stamp => stamp.text ≠ "").getD now

/-- `build`: the record of a proposal. -/
def Proposal.record (proposal : Proposal) (prior : Option LongTermRow) (context : WriteContext)
    (status : String) : LongTermRow where
  memoryId := some (proposal.memoryId text)
  kind := proposal.kind
  subject := some proposal.subject
  statement := some proposal.statement
  trustLevel := assignTrust text proposal.evidence
  rationale := proposal.rationale
  scope := some proposal.scope
  evidence := proposal.evidence
  remedy := proposal.remedy
  status := some status
  lastVerifiedAt := some context.now
  usageCount := some (seenTasks prior context.taskId).length
  firstSeenAt := some (firstSeen prior context.now)
  seenTaskIds := seenTasks prior context.taskId

/-- `_merge_long_term`: the newest wording, the union of the evidence, one more task. -/
def LongTermRow.merge (existing : LongTermRow) (proposal : Proposal) (context : WriteContext) :
    LongTermRow :=
  let seen := (existing.seenTaskIds ++ [context.taskId]).eraseDups
  { existing with
    statement := some proposal.statement
    evidence := unionEvidence existing.evidence proposal.evidence
    seenTaskIds := seen
    usageCount := some seen.length
    lastVerifiedAt := some context.now
    status := some "active" }

/-- Nothing but quarantine is open to a proposal of a failed task, without evidence, or of a trust
level that is not durable. -/
def Proposal.weak (proposal : Proposal) (source : WriteSource) : Bool :=
  source = .failure || proposal.evidence = [] ||
    decide (assignTrust text proposal.evidence ∉ durableTrustLevels)

/-- The promotion gate for a proposal that is not weak. -/
def Proposal.promotes (proposal : Proposal) (config : MemoryConfig) (prior : Option LongTermRow)
    (context : WriteContext) : Bool :=
  let within := withinWindow (firstSeen prior context.now) context.now config.promoteWindowDays
  let recurrence : Int := if within then (seenTasks prior context.taskId).length else 1
  shouldPromote (assignTrust text proposal.evidence) true recurrence config.promoteMinTasks
    proposal.explainedFailure

variable (service : MemoryService)

/-- `_ingest_long_term`. -/
def ingestLongTerm (context : WriteContext) (store : MemoryStore) (proposal : Proposal) :
    MemoryStore × Ingested :=
  let memoryId := proposal.memoryId text
  let prior := findPending store.tiers.readPending memoryId
  let hold := store.putPending service
    (.lesson (proposal.record text prior context "quarantined")) memoryId
  if proposal.weak text context.source then (hold, .quarantined)
  else match updateFirst (fun row : LongTermRow => row.memoryId = some memoryId)
      (fun row => row.merge proposal context) (store.tiers.readLongTerm proposal.kind) with
    | some rows => (store.replaceLongTerm service proposal.kind rows [memoryId] .merge, .merged)
    | none =>
        if proposal.promotes text service.config prior context then
          let promoted := store.appendLongTerm service
            (proposal.record text prior context "active") memoryId
          (if prior.isSome then promoted.dropPending service memoryId else promoted, .promoted)
        else (hold, .quarantined)

/-- What becomes of a proposal: it is merged into the row of its id, promoted or held. -/
theorem ingestLongTerm_cases (context : WriteContext) (store : MemoryStore)
    (proposal : Proposal) :
    let memoryId := proposal.memoryId text
    let prior := findPending store.tiers.readPending memoryId
    let known := updateFirst (fun row : LongTermRow => row.memoryId = some memoryId)
      (fun row => row.merge proposal context) (store.tiers.readLongTerm proposal.kind)
    let promoted := store.appendLongTerm service
      (proposal.record text prior context "active") memoryId
    (∃ rows, proposal.weak text context.source = false ∧ known = some rows ∧
      ingestLongTerm text service context store proposal =
        (store.replaceLongTerm service proposal.kind rows [memoryId] .merge, .merged)) ∨
    (proposal.weak text context.source = false ∧ known = none ∧
      proposal.promotes text service.config prior context = true ∧
      ingestLongTerm text service context store proposal =
        (if prior.isSome then promoted.dropPending service memoryId else promoted, .promoted)) ∨
    ((proposal.weak text context.source = true ∨
        known = none ∧ proposal.promotes text service.config prior context = false) ∧
      ingestLongTerm text service context store proposal =
        (store.putPending service
          (.lesson (proposal.record text prior context "quarantined")) memoryId,
          .quarantined)) := by
  intro memoryId prior known promoted
  unfold ingestLongTerm
  by_cases weak : proposal.weak text context.source = true
  · exact .inr (.inr ⟨.inl weak, if_pos weak⟩)
  · have strong := Bool.eq_false_iff.mpr weak
    dsimp only
    rw [if_neg weak]
    cases found : known with
    | some rows =>
        refine .inl ⟨rows, strong, rfl, ?_⟩
        simp only [known] at found
        rw [found]
    | none =>
        simp only [known] at found
        rw [found]
        by_cases gate : proposal.promotes text service.config prior context = true
        · exact .inr (.inl ⟨strong, rfl, gate, if_pos gate⟩)
        · exact .inr (.inr ⟨.inr ⟨rfl, Bool.eq_false_iff.mpr gate⟩, if_neg gate⟩)

/-! ## Entity cards -/

/-- The key of a card: its first path, or else its id. -/
def CandidateEntity.canonicalName (candidate : CandidateEntity) : String :=
  candidate.paths.headD candidate.entityId

/-- The card of a candidate. -/
def CandidateEntity.record (candidate : CandidateEntity) (trust : TrustLevel) (taskId : String)
    (status : String) : EntityRow where
  entityId := some candidate.entityId
  entityType := some candidate.entityType
  canonicalName := some candidate.canonicalName
  trustLevel := trust
  paths := candidate.paths
  symbols := candidate.symbols
  summary := some candidate.summary
  relationships := candidate.relationships
  riskNotes := candidate.riskNotes
  lastSeenTaskIds := [taskId]
  status := some status

/-- The latest card of a name takes over, with the tasks of the one before. -/
def EntityRow.succeed (prior record : EntityRow) (taskId : String) : EntityRow :=
  { record with lastSeenTaskIds :=
      if taskId ∈ prior.lastSeenTaskIds then prior.lastSeenTaskIds
      else prior.lastSeenTaskIds ++ [taskId] }

/-- `_ingest_entity`. -/
def ingestEntity (context : WriteContext) (store : MemoryStore) (candidate : CandidateEntity) :
    MemoryStore × Ingested :=
  let trust := assignEntityTrust candidate.paths service.pathExists
  if context.source = .failure || decide (trust ∉ durableTrustLevels) then
    (store.putPending service
      (.entity (candidate.record trust context.taskId "quarantined")) candidate.entityId,
      .quarantined)
  else
    let record := candidate.record trust context.taskId "active"
    match updateFirst (fun row : EntityRow => row.canonicalName = some candidate.canonicalName)
        (fun row => row.succeed record context.taskId) store.tiers.readEntities with
    | some rows => (store.replaceEntities service rows .merge, .merged)
    | none => (store.appendEntity service record candidate.entityId, .entity)

/-- What becomes of a card: it is held, succeeds the card of its name or is new. -/
theorem ingestEntity_cases (context : WriteContext) (store : MemoryStore)
    (candidate : CandidateEntity) :
    let trust := assignEntityTrust candidate.paths service.pathExists
    let record := candidate.record trust context.taskId "active"
    let known := updateFirst
      (fun row : EntityRow => row.canonicalName = some candidate.canonicalName)
      (fun row => row.succeed record context.taskId) store.tiers.readEntities
    ingestEntity service context store candidate =
        (store.putPending service
          (.entity (candidate.record trust context.taskId "quarantined")) candidate.entityId,
          .quarantined) ∨
    (∃ rows, known = some rows ∧ ingestEntity service context store candidate =
      (store.replaceEntities service rows .merge, .merged)) ∨
    (known = none ∧ ingestEntity service context store candidate =
      (store.appendEntity service record candidate.entityId, .entity)) := by
  intro trust record known
  unfold ingestEntity
  dsimp only
  split
  · exact .inl rfl
  · cases found : known with
    | some rows =>
        refine .inr (.inl ⟨rows, rfl, ?_⟩)
        simp only [known, record, trust] at found
        rw [found]
    | none =>
        refine .inr (.inr ⟨rfl, ?_⟩)
        simp only [known, record, trust] at found
        rw [found]

/-! ## The funnel -/

/-- One candidate after another, each counted by what became of it. -/
def ingestAll {β : Type} (ingest : MemoryStore → β → MemoryStore × Ingested)
    (state : MemoryStore × ApplyResult) (candidates : List β) : MemoryStore × ApplyResult :=
  candidates.foldl (fun state candidate =>
    let (store, became) := ingest state.1 candidate
    (store, state.2.bump became)) state

/-- `apply_delta`: the episode is recorded, then every candidate goes through the funnel. -/
def applyDelta (store : MemoryStore) (delta : Option CandidateDelta) (episode : EpisodeRecord)
    (source : WriteSource) (now : Stamp) : MemoryStore × ApplyResult :=
  let recorded := store.appendEpisode service
    ⟨some episode.id, some episode.taskId, some episode.createdAt, episode.expiresAt⟩ episode.id
  match delta with
  | none => (recorded, { episodeId := episode.id })
  | some delta =>
      let context : WriteContext := ⟨source, now, episode.taskId⟩
      let lessons := ingestAll (ingestLongTerm text service context)
        (recorded, { episodeId := episode.id })
        (delta.lessons.map CandidateLesson.proposal ++
          delta.failures.map CandidateFailure.proposal)
      ingestAll (ingestEntity service context) lessons delta.entities

end Orchestrator.Memory
