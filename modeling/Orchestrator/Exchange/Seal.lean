import Orchestrator.Exchange.Manifest
import Orchestrator.Foundation.JsonCharacters
import Orchestrator.Foundation.Fallible
import Orchestrator.Foundation.Steps

/-! # Sealing an exchange and restoring it

The active exchange is copied into a private snapshot with a manifest beside the files,
verified, promoted and then removed; a continue copies the latest verified snapshot back.
-/

namespace Orchestrator.Exchange

open Orchestrator.Foundation
open Orchestrator.Foundation.PyText (ofString encodeUtf8 decodeUtf8 universalNewlines)
open Orchestrator.Foundation.Steps (current raise ofExcept perform performAll)

def manifestName : PyText := ofString "manifest.json"

/-- A snapshot's number and its directory. -/
abbrev Snapshot := Nat × ExchangeTree

/-- The directories of one task that sealing and restoring work on. -/
structure World where
  live : Option ExchangeTree
  staging : Option ExchangeTree := none
  seals : List Snapshot := []
  restoring : Option ExchangeTree := none

/-- `_next_index`. -/
def nextIndex (seals : List Snapshot) : Nat :=
  seals.foldl (fun highest snapshot => max highest snapshot.1) 0 + 1

/-- `_latest_seal_dir`: the snapshot of the highest number, the first of them. -/
def latestSeal (seals : List Snapshot) : Option Snapshot :=
  seals.foldl (fun best snapshot =>
    match best with
    | none => some snapshot
    | some found => if found.1 < snapshot.1 then some snapshot else some found) none

/-! ## The manifest of a snapshot -/

def entryDocument (entry : ExchangeEntry) : Json :=
  .object [
    (ofString "link_count", .number (Json.naturalLiteral entry.linkCount)),
    (ofString "path", .string entry.relname),
    (ofString "sha256", .string (ofString entry.sha256)),
    (ofString "size", .number (Json.naturalLiteral entry.size))]

/-- The document of `_write_manifest`, its keys sorted. -/
def manifestDocument (taskId : String) (metadata : List (String × String)) (sealNo : Nat)
    (digest : PyText) (entries : List ExchangeEntry) : Json :=
  .object [
    (ofString "entries", .array
      ((entries.insertionSort fun first second => first.relname ≤ second.relname).map
        entryDocument)),
    (ofString "format", .number (ofString "1")),
    (ofString "manifest_digest", .string digest),
    (ofString "metadata", .object
      ((metadata.insertionSort fun first second => first.1 ≤ second.1).map fun item =>
        (ofString item.1, .string (ofString item.2)))),
    (ofString "seal_no", .number (Json.naturalLiteral sealNo)),
    (ofString "task_id", .string (ofString taskId))]

/-- The checks of a snapshot's manifest, and the digest that it records. -/
def recordedDigest : Json → Except ExchangeError PyText
  | .object members =>
      match Json.get? "entries" (.object members) with
      | some (.array _) =>
          match Json.get? "format" (.object members) with
          | some (.number literal) =>
              if literal = ofString "1" then
                match Json.get? "manifest_digest" (.object members) with
                | some (.string recorded) => .ok recorded
                | _ => .error .digestMissing
              else .error .formatUnsupported
          | _ => .error .formatUnsupported
      | _ => .error .manifestMalformed
  | _ => .error .manifestMalformed

/-- `_read_manifest_digest`. -/
def readManifestDigest (sealed : ExchangeTree) : Except ExchangeError PyText :=
  match sealed.read [manifestName] with
  | some (.regular _ _ bytes) =>
      match decodeUtf8 bytes with
      | some text =>
          match Json.loads (universalNewlines text) with
          | some document => recordedDigest document
          | none => .error .manifestUnreadable
      | none => .error .manifestUnreadable
  | _ => .error .manifestUnreadable

/-! ## Copying -/

/-- `inspect_frozen_source`. -/
def inspectFrozenSource (source : ExchangeTree) (path : List PyText) : Except ExchangeError Leaf :=
  match source.read path with
  | none => .error (.missing path)
  | some leaf => (inspectLeaf path leaf).map fun _ => leaf

/-- Copy the files of a manifest, each a step, into a directory at a place. -/
def copyEntries (source : ExchangeTree) (place : ExchangeTree → World → World) :
    List ExchangeEntry → ExchangeTree → Steps World ExchangeError ExchangeTree
  | [], dest => pure dest
  | entry :: rest, dest => do
      let leaf ← ofExcept (inspectFrozenSource source entry.path)
      match dest.write (.regular 1 [] leaf.bytes) entry.path with
      | none => raise (.unwritable entry.path)
      | some changed => do
          perform (place changed)
          copyEntries source place rest changed

section Operations

variable (fold : PyText → PyText) (sha256 : List UInt8 → String)

/-- `_copy_tree_verified`, into a new directory at a place. -/
def copyTreeVerified (entries : List ExchangeEntry) (source : ExchangeTree)
    (place : ExchangeTree → World → World) : Steps World ExchangeError ExchangeTree := do
  let copied ← copyEntries source place entries .empty
  let verified ← ofExcept (buildExchangeManifest fold sha256 copied)
  let found ← ofExcept (manifestDigest sha256 verified)
  let expected ← ofExcept (manifestDigest sha256 entries)
  if found = expected then return copied else raise .copyMismatch

/-- The result of sealing. -/
structure SealResult where
  sealNo : Nat
  manifestDigest : PyText
  entryCount : Nat

def stage (tree : ExchangeTree) (world : World) : World := { world with staging := some tree }

def prepare (tree : ExchangeTree) (world : World) : World := { world with restoring := some tree }

/-- The worlds of removing a directory, entry by entry. -/
def removeStaging (world : World) : List World :=
  match world.staging with
  | none => []
  | some tree => (tree.removals.map fun left => { world with staging := some left }) ++
      [{ world with staging := none }]

def removeRestoring (world : World) : List World :=
  match world.restoring with
  | none => []
  | some tree => (tree.removals.map fun left => { world with restoring := some left }) ++
      [{ world with restoring := none }]

def removeLive (world : World) : List World :=
  match world.live with
  | none => []
  | some tree => (tree.removals.map fun left => { world with live := some left }) ++
      [{ world with live := none }]

/-- `_write_manifest`, into the staged copy. -/
def writeManifest (taskId : String) (metadata : List (String × String)) (sealNo : Nat)
    (entries : List ExchangeEntry) (copied : ExchangeTree) :
    Steps World ExchangeError (PyText × ExchangeTree) := do
  let digest ← ofExcept (manifestDigest sha256 entries)
  let document := manifestDocument taskId metadata sealNo digest entries
  match encodeUtf8 (Json.dumps true document ++ [10]) with
  | none => raise .unencodable
  | some bytes =>
      match copied.write (.regular 1 [] bytes) [manifestName] with
      | none => raise (.unwritable [manifestName])
      | some sealed => do
          perform (stage sealed)
          return (digest, sealed)

/-- `seal_exchange`: nothing when there is no active exchange. -/
def sealExchange (taskId : String) (metadata : List (String × String)) :
    Steps World ExchangeError (Option SealResult) := do
  let world ← current
  match world.live with
  | none => return none
  | some tree => do
      let entries ← ofExcept (buildExchangeManifest fold sha256 tree)
      let sealNo := nextIndex world.seals
      performAll removeStaging
      perform (stage .empty)
      let copied ← copyTreeVerified fold sha256 entries tree stage
      let (digest, sealed) ← writeManifest sha256 taskId metadata sealNo entries copied
      perform fun world =>
        { world with staging := none, seals := world.seals ++ [(sealNo, sealed)] }
      performAll removeLive
      return some { sealNo := sealNo, manifestDigest := digest, entryCount := entries.length }

/-- The files of a snapshot, verified against the digest it records. -/
def verifiedContent (sealed : ExchangeTree) :
    Except ExchangeError (PyText × List ExchangeEntry) := do
  let recorded ← readManifestDigest sealed
  let entries ← buildExchangeManifest fold sha256 sealed
  let content := entries.filter fun entry => entry.relname ≠ manifestName
  let found ← manifestDigest sha256 content
  if found = recorded then .ok (recorded, content) else .error .snapshotDrifted

/-- `restore_for_continue`. -/
def restoreForContinue : Steps World ExchangeError PyText := do
  let world ← current
  match latestSeal world.seals with
  | none => raise .noSnapshot
  | some (_, sealed) => do
      let (recorded, content) ← ofExcept (verifiedContent fold sha256 sealed)
      if world.live.isSome then raise .activeExchange
      else do
        performAll removeRestoring
        perform (prepare .empty)
        let copied ← copyTreeVerified fold sha256 content sealed prepare
        perform fun world => { world with restoring := none, live := some copied }
        let verified ← ofExcept (buildExchangeManifest fold sha256 copied)
        let found ← ofExcept (manifestDigest sha256 verified)
        if found = recorded then return recorded else raise .restoreMismatch

end Operations

end Orchestrator.Exchange
