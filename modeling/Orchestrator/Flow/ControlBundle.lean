import Orchestrator.Exchange.Manifest
import Orchestrator.Flow.ControlTree
import Orchestrator.Memory.AuditRows

/-! # The frozen control bundle

A task's control inputs are copied into a bundle with a manifest of their digests. A bundle is
loaded again when the listed files have the digest that the state store holds, and the live inputs
are hashed in the same way.
-/

namespace Orchestrator.Flow

open Orchestrator.Foundation PyText PathParts
open Orchestrator.Memory (ContentHash)
open Orchestrator.Exchange (lineLe)

/-- Why a bundle is not frozen, loaded or hashed. -/
inductive ControlBundleError where
  | toolUnresolved (error : ToolResolutionError)
  | collision
  | missing (key : PyText)
  | symlink (key : PyText)
  | notRegular (key : PyText)
  | hardLinked (linkCount : Nat) (key : PyText)
  | alternateStreams (streams : List PyText) (key : PyText)
  | unreadable (key : PyText)
  | escapes (key : PyText)
  | unencodable
  | manifestUnreadable
  | manifestMalformed
  | formatUnsupported
  | digestDiffers
  | sourceMissing
  | entryMalformed
  | drifted
  deriving DecidableEq

/-- What freezing and loading take from outside: the content hash, the folding of names, the text
of a value that is none, and which number literals are the bundle format. -/
structure BundleHost where
  hash : ContentHash
  fold : PyText → PyText
  shown : Json → PyText
  isFormat : PyText → Bool
  isFormat_two : isFormat (ofString "2") = true

/-- `_inspect_source`, and what opening the source gives. -/
def inspectSource (key : PyText) : Option DiskEntry → Except ControlBundleError Opened
  | none => .error (.missing key)
  | some found =>
      if found.isSymlink then .error (.symlink key)
      else if !found.isRegular then .error (.notRegular key)
      else if found.linkCount ≠ 1 then .error (.hardLinked found.linkCount key)
      else if !found.altStreams.isEmpty then .error (.alternateStreams found.altStreams key)
      else
        match found.opened with
        | some opened => .ok opened
        | none => .error (.unreadable key)

/-- The lines of `digest_entries`. -/
def digestPayload (entries : List (PyText × PyText)) : PyText :=
  [10].intercalate ((entries.insertionSort lineLe).map fun entry => entry.1 ++ 0 :: entry.2)

/-! ## Freezing -/

/-- One part further down a path, or up again. -/
def stepInto (here : List PyText) (part : PyText) : Option (List PyText) :=
  if part = ofString ".." then if here = [] then none else some here.dropLast
  else some (here ++ [part])

/-- The place of a path in a directory without links. -/
def within (path : List PyText) : Option (List PyText) := path.foldlM stepInto []

/-- A frozen copy: its key, its place in the bundle, and what it holds. -/
structure FrozenCopy where
  key : PyText
  place : List PyText
  opened : Opened

/-- The copy is a regular file of its own. -/
def FrozenCopy.file (copy : FrozenCopy) : List PyText × DiskEntry :=
  (copy.place, { opened := some copy.opened })

/-- The inspection of an input and its copy into the bundle. -/
def copyRef (ref : Ref) : Except ControlBundleError FrozenCopy := do
  let opened ← inspectSource ref.key ref.source
  match within (parts ref.key) with
  | none => .error (.escapes ref.key)
  | some place => return { key := ref.key, place := place, opened := opened }

/-- The handle of a bundle: where its flow file is, below it, and its digest. -/
structure BundleHandle where
  flowSource : PyText
  bundleDigest : PyText
  deriving DecidableEq

/-- A bundle as it was frozen: its files, the last written first, and its handle. -/
structure FrozenBundle where
  files : List (List PyText × DiskEntry)
  handle : BundleHandle
  deriving DecidableEq

def manifestPath : List PyText := [ofString "manifest.json"]

/-- The directory of a frozen bundle. -/
def FrozenBundle.directory (frozen : FrozenBundle) : Directory where
  entry path :=
    if ∀ part ∈ path, 0 ∉ part then
      (within path).bind fun place =>
        (frozen.files.find? fun file => file.1 = place).map Prod.snd
    else none
  inside path := (within path).isSome
  below _ := none
  entry_zeroFree path present := by
    by_contra broken
    rw [if_neg broken] at present
    exact absurd present (by decide)
  below_zeroFree := below_zeroFree_none
  below_parts := below_parts_none

section Operations

variable (host : BundleHost)

/-- `digest_entries`. -/
def digestEntries (entries : List (PyText × PyText)) : Except ControlBundleError PyText :=
  match encodeUtf8 (digestPayload entries) with
  | some payload => .ok (host.hash.digest payload)
  | none => .error .unencodable

/-- The key of a copy with the digest of its content. -/
def FrozenCopy.hashed (copy : FrozenCopy) : PyText × PyText :=
  (copy.key, host.hash.digest copy.opened.content)

def entryDocument (entry : PyText × PyText) : Json :=
  .object [(ofString "path", .string entry.1), (ofString "sha256", .string entry.2)]

/-- The manifest of a bundle, its keys sorted. -/
def manifestDocument (flow : ControlFlow) (metadata : List (String × String)) (digest : PyText)
    (entries : List (PyText × PyText)) : Json :=
  .object [
    (ofString "bundle_digest", .string digest),
    (ofString "entries", .array ((entries.insertionSort lineLe).map entryDocument)),
    (ofString "flow_fingerprint", .string (ofString flow.snapshot.flowFingerprint)),
    (ofString "flow_source", .string (flowsKey flow.sourceName)),
    (ofString "format", .number (ofString "2")),
    (ofString "metadata", .object
      ((metadata.insertionSort fun first second => first.1 ≤ second.1).map fun item =>
        (ofString item.1, .string (ofString item.2))))]

/-- `freeze_control_bundle`. -/
def freezeControlBundle (flow : ControlFlow) (tree : ControlTree)
    (metadata : List (String × String)) : Except ControlBundleError FrozenBundle := do
  let refs ← (referencedInputs flow tree).mapError .toolUnresolved
  if (refs.map fun ref => host.fold ref.key).Nodup then do
    let copies ← refs.mapM copyRef
    let entries := copies.map (FrozenCopy.hashed host)
    let digest ← digestEntries host entries
    match encodeUtf8 (Json.dumps true (manifestDocument flow metadata digest entries) ++ [10]) with
    | none => .error .unencodable
    | some bytes => return {
        files := (manifestPath, { opened := some { content := bytes } }) ::
          (copies.map FrozenCopy.file).reverse
        handle := { flowSource := flowsKey flow.sourceName, bundleDigest := digest } }
  else .error .collision

/-! ## Loading -/

/-- `_read_manifest`. -/
def readManifest (root : Directory) : Except ControlBundleError Json :=
  match (root.contentAt manifestPath).bind decodeUtf8 with
  | none => .error .manifestUnreadable
  | some text =>
      match Json.loads (universalNewlines text) with
      | none => .error .manifestUnreadable
      | some document =>
          match document.get? "entries" with
          | some (.array _) =>
              match document.get? "format" with
              | some (.number literal) =>
                  if host.isFormat literal then .ok document else .error .formatUnsupported
              | _ => .error .formatUnsupported
          | _ => .error .manifestMalformed

/-- `str` of a value. -/
def keyText : Json → PyText
  | .string text => text
  | other => host.shown other

/-- The check of a listed file, and its key with its digest. -/
def hashListed (root : Directory) (item : Json) : Except ControlBundleError (PyText × PyText) :=
  match item.get? "path" with
  | none => .error .entryMalformed
  | some value =>
      let key := keyText host value
      if root.contains key then do
        let opened ← inspectSource key (root.lookup key)
        return (key, host.hash.digest opened.content)
      else .error (.escapes key)

/-- `load_control_bundle`. -/
def loadControlBundle (root : Directory) (expected : PyText) :
    Except ControlBundleError BundleHandle := do
  let manifest ← readManifest host root
  if Memory.AuditLog.isText (manifest.get? "bundle_digest") expected then
    match manifest.get? "flow_source", manifest.get? "entries" with
    | some (.string flowSource), some (.array items) => do
        let entries ← items.mapM (hashListed host root)
        let digest ← digestEntries host entries
        if digest ≠ expected then .error .drifted
        else if root.contains flowSource then
          return { flowSource := flowSource, bundleDigest := expected }
        else .error (.escapes flowSource)
    | _, _ => .error .sourceMissing
  else .error .digestDiffers

/-- A live input with its digest. -/
def hashRef (ref : Ref) : Except ControlBundleError (PyText × PyText) := do
  let opened ← inspectSource ref.key ref.source
  return (ref.key, host.hash.digest opened.content)

/-- `digest_live_control_inputs`. -/
def digestLiveControlInputs (flow : ControlFlow) (tree : ControlTree) :
    Except ControlBundleError PyText := do
  let refs ← (referencedInputs flow tree).mapError .toolUnresolved
  let entries ← refs.mapM (hashRef host)
  digestEntries host entries

end Operations

/-! ## A bundle on resume -/

/-- A bundle directory on resume: what it holds, and what resolves inside its tools. -/
structure BundleDir where
  root : Directory
  insideTools : List PyText → Bool

/-- `tools_dir` of the bundle. No absolute name leads below it. -/
def BundleDir.toolsDir (bundle : BundleDir) : Directory where
  entry path := bundle.root.entry (ofString "tools" :: path)
  inside := bundle.insideTools
  below _ := none
  entry_zeroFree _ present part among :=
    bundle.root.entry_zeroFree _ present part (List.mem_cons_of_mem _ among)
  below_zeroFree := below_zeroFree_none
  below_parts := below_parts_none

/-- The tool registry of the bundle. -/
def BundleDir.tools (bundle : BundleDir) (windows : Bool) : ToolRegistry :=
  { dir := bundle.toolsDir, windows := windows }

/-- The bytes of a role file under the bundle's flow directory. -/
def BundleDir.roleContent (bundle : BundleDir) (roleFile : PyText) : Option (List UInt8) :=
  bundle.root.contentAt (ofString "flows" :: parts roleFile)

end Orchestrator.Flow
