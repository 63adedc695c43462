import Orchestrator.Foundation.StableSort
import Orchestrator.Memory.Records

/-! # Memory packets

The records of the store that belong in a node's packet, ranked, bounded and rendered to one bullet
each. Lessons that are held in quarantine are shown when their trust is durable.
-/

namespace Orchestrator.Memory

open Orchestrator.Foundation

/-! ## Inputs -/

/-- The caps of a packet. -/
structure PacketConfig where
  packetMaxLines : Int := 120
  packetMaxLongTerm : Int := 3
  packetMaxEntity : Int := 5

/-- The node that is about to run, and what it touches. -/
structure PacketContext where
  nodeId : String
  touchedPaths : List String := []

/-- The records of a packet. -/
structure SelectedPacket where
  longTerm : List LongTermRow := []
  entities : List EntityRow := []
  deriving DecidableEq

def SelectedPacket.isEmpty (packet : SelectedPacket) : Bool :=
  packet.longTerm.isEmpty && packet.entities.isEmpty

/-! ## Ranking -/

def TrustLevel.value : TrustLevel → String
  | .repoObserved => "repo-observed"
  | .humanCurated => "human-curated"
  | .reviewVerified => "review-verified"
  | .artifactBacked => "artifact-backed"
  | .agentInferred => "agent-inferred"
  | .externalUntrusted => "external-untrusted"

/-- `_TRUST_RANK`. -/
def trustRank : TrustLevel → Nat
  | .humanCurated => 5
  | .reviewVerified => 4
  | .repoObserved => 3
  | .artifactBacked => 2
  | .agentInferred => 1
  | .externalUntrusted => 0

def reviewerPrefNodes : List String := ["review", "fixing"]

def entityHeavyNodes : List String := ["implementation"]

def entityCapBump : Int := 2

/-- `_paths_related`: the same path, or one below the other. -/
def pathsRelated (path other : String) : Bool :=
  path = other || Text.startsWith path (other ++ "/") || Text.startsWith other (path ++ "/")

/-- `_path_overlap`: how many touched paths a record names. -/
def pathOverlap (recordPaths touched : List String) : Nat :=
  (touched.filter fun path => recordPaths.any (pathsRelated path)).length

/-- `_node_ok`. -/
def nodeOk (context : PacketContext) (row : LongTermRow) : Bool :=
  let nodes := (row.scope.map Scope.nodes).getD []
  nodes.isEmpty || decide (context.nodeId ∈ nodes)

/-- `_reviewer_pref`, as the first or the second place. -/
def reviewerPlace (context : PacketContext) (row : LongTermRow) : Nat :=
  if context.nodeId ∈ reviewerPrefNodes ∧ row.kind = .reviewer then 0 else 1

def LongTermRow.overlap (context : PacketContext) (row : LongTermRow) : Nat :=
  pathOverlap ((row.scope.map Scope.paths).getD []) context.touchedPaths

/-- `str(last_verified_at or "")`. -/
def LongTermRow.recency (row : LongTermRow) : String := (row.lastVerifiedAt.map Stamp.text).getD ""

/-- `str(_id_of(row))`. -/
def LongTermRow.idText (row : LongTermRow) : String := row.idOf.getD "None"

def EntityRow.overlap (context : PacketContext) (row : EntityRow) : Nat :=
  pathOverlap row.paths context.touchedPaths

/-- `str(entity_id or "")`. -/
def EntityRow.idText (row : EntityRow) : String := row.entityId.getD ""

section Selection

variable (tiers : Tiers) (context : PacketContext)

/-- The durable lessons held in quarantine. -/
def durableQuarantine : List LongTermRow :=
  tiers.readPending.filterMap fun
    | .lesson row => if row.trustLevel ∈ durableTrustLevels then some row else none
    | .entity _ => none

/-- The lessons that apply: the active ones, and the durable ones in quarantine. -/
def eligibleLongTerm : List LongTermRow :=
  ((LongTermKind.all.flatMap tiers.readLongTerm).filter fun row =>
    isActive row.status && nodeOk context row) ++ (durableQuarantine tiers).filter (nodeOk context)

/-- `_select_long_term`: the least significant key first. -/
def selectLongTerm : List LongTermRow :=
  (((((eligibleLongTerm tiers context).insertionSort (ByKey LongTermRow.idText)).insertionSort
    (ByKeyDown LongTermRow.recency)).insertionSort
    (ByKey (reviewerPlace context))).insertionSort
    (ByKeyDown (LongTermRow.overlap context))).insertionSort
    (ByKeyDown fun row => trustRank row.trustLevel)

def eligibleEntities : List EntityRow := tiers.readEntities.filter fun row => isActive row.status

/-- `_select_entities`. -/
def selectEntities : List EntityRow :=
  (((eligibleEntities tiers).insertionSort (ByKey EntityRow.idText)).insertionSort
    (ByKeyDown fun row => trustRank row.trustLevel)).insertionSort
    (ByKeyDown (EntityRow.overlap context))

end Selection

/-- `rows[:cap]`. -/
def sliceTo {α : Type} (cap : Int) (rows : List α) : List α :=
  if 0 ≤ cap then rows.take cap.toNat else rows.take (rows.length - (-cap).toNat)

/-- The cap of the cards of a node. -/
def entityCap (config : PacketConfig) (nodeId : String) : Int :=
  if nodeId ∈ entityHeavyNodes then config.packetMaxEntity + entityCapBump
  else config.packetMaxEntity

/-- `PacketBuilder.build`. -/
def buildPacket (config : PacketConfig) (tiers : Tiers) (context : PacketContext) :
    SelectedPacket where
  longTerm := sliceTo config.packetMaxLongTerm (selectLongTerm tiers context)
  entities := sliceTo (entityCap config context.nodeId) (selectEntities tiers context)

/-! ## Rendering -/

section Rendering

variable (text : TextFunctions)

/-- `_one_line`. -/
def oneLine (value : String) : String := String.intercalate " " (text.split value)

def ephemeralEvidenceTypes : List String := ["task", "commit", "diff"]

/-- `_COMMIT_SHA.match`. -/
def isCommitSha (ref : String) : Bool :=
  7 ≤ ref.toList.length && ref.toList.length ≤ 40 &&
    ref.toList.all fun letter => letter ∈ "0123456789abcdef".toList

/-- `_is_durable_evidence_ref`. -/
def isDurableEvidenceRef (item : Evidence) : Bool :=
  let ref := oneLine text item.ref
  text.lower (text.strip item.type) ∉ ephemeralEvidenceTypes && ref ≠ "" &&
    !Text.contains ref ".worc/logs/" && !isCommitSha ref

/-- `_first_durable_evidence_ref`. -/
def firstDurableEvidenceRef (evidence : List Evidence) : Option String :=
  (evidence.find? (isDurableEvidenceRef text)).map fun item => oneLine text item.ref

/-- `value or other`. -/
def orElse (value other : Option String) : String :=
  (value.filter fun value => value ≠ "").getD (other.getD "")

/-- `_lesson_bullet`. -/
def lessonBullet (row : LongTermRow) : String :=
  let statement := oneLine text (orElse row.statement row.subject)
  let remedy := oneLine text (row.remedy.getD "")
  "- [" ++ row.kind.value ++ "] " ++ statement ++ " (trust: " ++ row.trustLevel.value ++ ")" ++
    (if remedy ≠ "" ∧ remedy ≠ statement then " — remedy: " ++ remedy else "") ++
    ((firstDurableEvidenceRef text row.evidence).map fun ref => " — see " ++ ref).getD ""

/-- `_entity_bullet`. -/
def entityBullet (row : EntityRow) : String :=
  let summary := oneLine text (row.summary.getD "")
  "- [" ++ orElse row.entityType (some "entity") ++ "] " ++
    orElse row.canonicalName row.entityId ++
    (if summary ≠ "" then ": " ++ summary else "") ++
    (if row.paths ≠ [] then " (" ++ String.intercalate ", " row.paths ++ ")" else "")

/-- A heading with its bullets, where there are any. -/
def renderTier (heading : String) (bullets : List String) : List String :=
  if bullets.isEmpty then [] else "" :: heading :: bullets

/-- `_render_lines`. -/
def renderLines (packet : SelectedPacket) : List String :=
  "# Repository memory (advisory — verify against the code)" ::
    (renderTier "## Lessons" (packet.longTerm.map (lessonBullet text)) ++
      renderTier "## Entities" (packet.entities.map (entityBullet text)))

/-- `_drop_lowest`: a card, or else a lesson. -/
def dropLowest (packet : SelectedPacket) : SelectedPacket :=
  if packet.entities.isEmpty then { packet with longTerm := packet.longTerm.dropLast }
  else { packet with entities := packet.entities.dropLast }

/-- The drops of `_fit`, no more than there are records. -/
def fitWithin (config : PacketConfig) : Nat → SelectedPacket → SelectedPacket
  | 0, packet => packet
  | drops + 1, packet =>
      if packet.isEmpty = false ∧ config.packetMaxLines < (renderLines text packet).length then
        fitWithin config drops (dropLowest packet)
      else packet

/-- `PacketBuilder._fit`. -/
def fit (config : PacketConfig) (packet : SelectedPacket) : SelectedPacket :=
  fitWithin text config (packet.longTerm.length + packet.entities.length) packet

/-- The records that are written. -/
def packetFor (config : PacketConfig) (tiers : Tiers) (context : PacketContext) : SelectedPacket :=
  fit text config (buildPacket config tiers context)

/-- `PacketBuilder.write_packet`: the text of the file, if one is written. -/
def writePacket (config : PacketConfig) (tiers : Tiers) (context : PacketContext) :
    Option String :=
  let packet := packetFor text config tiers context
  if packet.isEmpty then none
  else some (String.intercalate "\n" (renderLines text packet) ++ "\n")

end Rendering

end Orchestrator.Memory
