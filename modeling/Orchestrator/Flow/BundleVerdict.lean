import Orchestrator.Flow.BundleReload
import Orchestrator.Flow.LiveInputs

/-! # When a verified bundle is the frozen one

Role files and frozen launchers are always read as they were frozen. The flow file is when the
manifest still names it, and a tool is when nothing unlisted stands before its launcher.
-/

namespace Orchestrator.Flow

open Orchestrator.Foundation PyText PathParts Fallible
open Orchestrator.Memory (ContentHash)

variable {host : BundleHost} {flow : ControlFlow} {tree : ControlTree}
  {metadata : List (String × String)} {frozen : FrozenBundle}

/-- The consumers of a loaded bundle read what was frozen: the flow file, the role files, and each
tool that resolves. -/
structure BoundTo (flow : ControlFlow) (tree : ControlTree) (bundle : BundleDir)
    (handle : BundleHandle) : Prop where
  source : ∃ content, bundle.root.content handle.flowSource = some content ∧
    tree.flowDir.content flow.sourceName = some content
  roles : ∀ roleFile ∈ flow.snapshot.doc.roleFiles, ∃ content,
    bundle.roleContent roleFile = some content ∧ tree.flowDir.content roleFile = some content
  tools : ∀ name ∈ flow.toolNames, ∀ candidate,
    (bundle.tools tree.tools.windows).resolve name = .ok candidate →
      ∃ launcher, tree.tools.resolve name = .ok launcher ∧
        bundle.toolsDir.content candidate = tree.tools.dir.content launcher

/-- The manifest names the flow file that was frozen, or one with its bytes. -/
def SourceKept (host : BundleHost) (flow : ControlFlow) (tree : ControlTree) (root : Directory) :
    Prop :=
  ∀ manifest flowSource, readManifest host root = .ok manifest →
    manifest.get? "flow_source" = some (.string flowSource) →
      flowSource = flowsKey flow.sourceName ∨
        root.content flowSource = tree.flowDir.content flow.sourceName

/-- A tool resolves to a file that was frozen, or to one with the bytes of its frozen launcher. -/
def LaunchersKept (flow : ControlFlow) (tree : ControlTree) (bundle : BundleDir) : Prop :=
  ∀ name ∈ flow.toolNames, ∀ candidate launcher,
    (bundle.tools tree.tools.windows).resolve name = .ok candidate →
      tree.tools.resolve name = .ok launcher →
        tree.tools.isFile candidate = true ∨
          bundle.toolsDir.content candidate = tree.tools.dir.content launcher

/-- What a loaded bundle is bound to. -/
theorem boundTo_iff {refs : List Ref} {copies : List FrozenCopy}
    (froze : Froze host flow tree metadata frozen refs copies)
    (collisionFree : Function.Injective host.hash.digest) {bundle : BundleDir}
    {handle : BundleHandle}
    (loaded : loadControlBundle host bundle.root frozen.handle.bundleDigest = .ok handle) :
    BoundTo flow tree bundle handle ↔
      SourceKept host flow tree bundle.root ∧ LaunchersKept flow tree bundle := by
  obtain ⟨manifest, flowSource, items, entries, read, -, named, -, -, -, -, same⟩ :=
    load_eq_ok.mp loaded
  have source : handle.flowSource = flowSource := by rw [same]
  constructor
  · intro bound
    constructor
    · intro other found readOther namedOther
      cases read.symm.trans readOther
      cases named.symm.trans namedOther
      obtain ⟨content, present, before⟩ := bound.source
      rw [source] at present
      exact .inr (present.trans before.symm)
    · intro name tool candidate launcher resolved launched
      obtain ⟨other, launchedOther, contents⟩ := bound.tools name tool candidate resolved
      cases launched.symm.trans launchedOther
      exact .inr contents
  · rintro ⟨sourceKept, launchersKept⟩
    have file (text : PyText) (among : text ∈ flow.flowFiles) :=
      flowFile_of_load collisionFree froze.listed froze.digest loaded among
    refine ⟨?_, ?_, ?_⟩
    · obtain ⟨content, present, before⟩ := file flow.sourceName List.mem_cons_self
      refine ⟨content, ?_, before⟩
      rw [source]
      rcases sourceKept manifest flowSource read named with kept | bytes
      · rw [kept]
        exact present
      · exact bytes.trans before
    · intro roleFile role
      obtain ⟨content, present, before⟩ := file roleFile (List.mem_cons_of_mem _ role)
      rw [Directory.content_relative (relative_flowsKey roleFile), parts_flowsKey] at present
      exact ⟨content, present, before⟩
    · intro name tool candidate resolved
      obtain ⟨launcher, launched⟩ := exists_launcher froze.referenced tool
      refine ⟨launcher, launched, ?_⟩
      rcases launchersKept name tool candidate launcher resolved launched with listed | bytes
      · exact frozen_launcher collisionFree froze.listed froze.digest loaded tool resolved launched
          listed
      · exact bytes

/-- The digest of a freeze is the one of its live inputs. -/
theorem digestLive_of_froze {refs : List Ref} {copies : List FrozenCopy}
    (froze : Froze host flow tree metadata frozen refs copies) :
    digestLiveControlInputs host flow tree = .ok frozen.handle.bundleDigest := by
  rw [digestLiveControlInputs]
  refine bind_eq_ok.mpr ⟨refs, mapError_eq_ok.mpr froze.referenced, ?_⟩
  exact bind_eq_ok.mpr ⟨_, mapM_hashRef_of_copies froze.copied, froze.digest⟩

/-- For every accepted freeze and a hash without collisions: what a later load of the bundle,
however it was changed, binds its consumers to; when the unchanged bundle is loaded; and what the
digest of the live inputs tells. -/
theorem verified_bundle_frozen_iff (collisionFree : Function.Injective host.hash.digest)
    (froze : freezeControlBundle host flow tree metadata = .ok frozen) :
    (∀ bundle handle,
      loadControlBundle host bundle.root frozen.handle.bundleDigest = .ok handle →
        (BoundTo flow tree bundle handle ↔
          SourceKept host flow tree bundle.root ∧ LaunchersKept flow tree bundle)) ∧
    (loadControlBundle host frozen.directory frozen.handle.bundleDigest = .ok frozen.handle ↔
      frozen.Kept flow tree) ∧
    (NoParents flow tree → frozen.Kept flow tree) ∧
    digestLiveControlInputs host flow tree = .ok frozen.handle.bundleDigest ∧
    ∀ later, tree.SamePlace later → ∀ found, digestLiveControlInputs host flow later = .ok found →
      (found = frozen.handle.bundleDigest ↔ SameInputs flow tree later) := by
  obtain ⟨refs, copies, read⟩ := exists_froze froze
  have live := digestLive_of_froze read
  refine ⟨fun bundle handle => boundTo_iff read collisionFree,
    read.load_unchanged_iff collisionFree, read.kept, live, ?_⟩
  exact fun later place found hashed => digestLive_eq_iff collisionFree place live hashed

/-! ## A bundle whose manifest is rewritten -/

/-- Two hexadecimal digits. -/
def hexByte (byte : UInt8) : PyText :=
  [Json.hexDigit (byte.toNat / 16), Json.hexDigit (byte.toNat % 16)]

theorem hexByte_injective : Function.Injective hexByte := by
  intro first second same
  obtain ⟨high, rest⟩ := List.cons.inj same
  obtain ⟨low, -⟩ := List.cons.inj rest
  have digits (byte : UInt8) :
      Json.hexValue (Json.hexDigit (byte.toNat / 16)) = some (byte.toNat / 16) ∧
        Json.hexValue (Json.hexDigit (byte.toNat % 16)) = some (byte.toNat % 16) :=
    have bound := byte.toNat_lt
    ⟨Json.hexValue_hexDigit (by omega), Json.hexValue_hexDigit (by omega)⟩
  have highs := (digits first).1.symm.trans ((congrArg Json.hexValue high).trans (digits second).1)
  have lows := (digits first).2.symm.trans ((congrArg Json.hexValue low).trans (digits second).2)
  have quotients := Option.some.inj highs
  have remainders := Option.some.inj lows
  apply UInt8.toNat_inj.mp
  omega

theorem hexDigit_mem {digit : Nat} (small : digit < 16) :
    Json.hexDigit digit ∈ Security.hexDigits := by
  have all : ∀ digit : Fin 16, Json.hexDigit digit.val ∈ Security.hexDigits := by decide
  exact all ⟨digit, small⟩

/-- A hash that writes its input out. -/
def writtenHash : ContentHash where
  digest content := ofString "0" ++ content.flatMap hexByte
  hex content := by
    intro point among
    rcases List.mem_append.mp among with first | rest
    · cases List.mem_singleton.mp first
      decide
    · obtain ⟨byte, -, inside⟩ := List.mem_flatMap.mp rest
      have bound := byte.toNat_lt
      rcases List.mem_cons.mp inside with rfl | last
      · exact hexDigit_mem (by omega)
      · cases List.mem_singleton.mp last
        exact hexDigit_mem (by omega)
  nonempty _ := List.cons_ne_nil _ _

theorem writtenHash_injective : Function.Injective writtenHash.digest := by
  intro first second same
  have texts : first.flatMap hexByte = second.flatMap hexByte := List.append_cancel_left same
  clear same
  induction first generalizing second with
  | nil =>
      cases second with
      | nil => rfl
      | cons byte second => cases texts
  | cons byte first ih =>
      cases second with
      | nil => cases texts
      | cons other second =>
          rw [List.flatMap_cons, List.flatMap_cons] at texts
          obtain ⟨here, rest⟩ := List.append_inj texts rfl
          rw [hexByte_injective here, ih rest]

/-- A directory of some files. -/
def directoryOf (files : List (List PyText × DiskEntry)) : Directory where
  entry path :=
    if ∀ part ∈ path, 0 ∉ part then (files.find? fun file => file.1 = path).map Prod.snd else none
  inside _ := true
  below _ := none
  entry_zeroFree path present := by
    by_contra broken
    rw [if_neg broken] at present
    exact absurd present (by decide)
  below_zeroFree := below_zeroFree_none
  below_parts := below_parts_none

def plainFile (path : List String) (content : List UInt8) : List PyText × DiskEntry :=
  (path.map ofString, { opened := some { content := content } })

def plainHost : BundleHost where
  hash := writtenHash
  fold := lower
  shown _ := []
  isFormat literal := literal = ofString "2"
  isFormat_two := by decide

/-- A flow with one agent and one tool. -/
def checkFlow : ControlFlow where
  snapshot := {
    doc := {
      permissionCeiling := .workspaceWrite
      outputPolicy := .codeChange
      nodes := [.agent { id := "plan", roleFile := "plan.md" }, .tool { id := "lint" }]
      edges := [{ fromNode := "plan", toNode := "lint" }]
      budgets := ∅ }
    flowFingerprint := "check"
    idsValid := by decide
    idsUnique := by decide }
  sourceName := ofString "flow.yaml"
  toolOf _ := ofString "check"
  source_relative := by decide
  roles_relative := by decide

/-- Its live directories on Windows, where the tool is a script with a launcher. -/
def checkTree : ControlTree where
  flowDir := directoryOf [plainFile ["flow.yaml"] [1], plainFile ["plan.md"] [2]]
  tools := {
    dir := directoryOf [plainFile ["check"] [3], plainFile ["check.cmd"] [4]]
    windows := true }

/-- The bundle that is frozen from them. -/
def checkFrozen : FrozenBundle :=
  (freezeControlBundle plainHost checkFlow checkTree []).toOption.getD
    { files := [], handle := { flowSource := [], bundleDigest := [] } }

/-- A bundle with another file, and a manifest that may name another flow file. -/
def tamperedBundle (flowSource : PyText) (added : List PyText × DiskEntry) : BundleDir where
  root := directoryOf <|
    (manifestPath, { opened := some { content := (encodeUtf8 (Json.dumps true (.object [
      (ofString "bundle_digest", .string checkFrozen.handle.bundleDigest),
      (ofString "entries", .array ((checkFrozen.files.drop 1).map fun file =>
        .object [(ofString "path", .string (asPosix file.1))])),
      (ofString "flow_source", .string flowSource),
      (ofString "format", .number (ofString "2"))]) ++ [10])).getD [] } }) ::
    added :: checkFrozen.files
  insideTools _ := true

theorem check_froze :
    freezeControlBundle plainHost checkFlow checkTree [] = .ok checkFrozen := by
  decide +kernel

/-- The freeze of the flow binds its consumers as it should when nothing is changed. -/
theorem check_bound :
    Function.Injective plainHost.hash.digest ∧
    freezeControlBundle plainHost checkFlow checkTree [] = .ok checkFrozen ∧
    loadControlBundle plainHost checkFrozen.directory checkFrozen.handle.bundleDigest =
      .ok checkFrozen.handle ∧
    ∀ later, checkTree.SamePlace later → ∀ found,
      digestLiveControlInputs plainHost checkFlow later = .ok found →
        (found = checkFrozen.handle.bundleDigest ↔ SameInputs checkFlow checkTree later) := by
  obtain ⟨-, unchanged, plain, -, live⟩ :=
    @verified_bundle_frozen_iff plainHost checkFlow checkTree [] checkFrozen writtenHash_injective
      check_froze
  refine ⟨writtenHash_injective, check_froze, unchanged.mpr (plain ?_), live⟩
  exact ⟨by decide, by decide +kernel⟩

/-- Both bundles are loaded. In one the manifest names an unlisted flow file, in the other an
unlisted launcher comes before the frozen one. -/
theorem tampered_bundle_not_frozen :
    Function.Injective plainHost.hash.digest ∧
    freezeControlBundle plainHost checkFlow checkTree [] = .ok checkFrozen ∧
    (∃ bundle handle,
      loadControlBundle plainHost bundle.root checkFrozen.handle.bundleDigest = .ok handle ∧
        bundle.root.content handle.flowSource ≠ checkTree.flowDir.content checkFlow.sourceName ∧
        ¬ BoundTo checkFlow checkTree bundle handle) ∧
    ∃ bundle handle,
      loadControlBundle plainHost bundle.root checkFrozen.handle.bundleDigest = .ok handle ∧
        handle = checkFrozen.handle ∧ ¬ BoundTo checkFlow checkTree bundle handle := by
  refine ⟨writtenHash_injective, check_froze, ?_, ?_⟩
  · have differs : (tamperedBundle (ofString "flows/evil.yaml")
        (plainFile ["flows", "evil.yaml"] [9])).root.content (ofString "flows/evil.yaml") ≠
          checkTree.flowDir.content checkFlow.sourceName := by decide +kernel
    refine ⟨tamperedBundle (ofString "flows/evil.yaml") (plainFile ["flows", "evil.yaml"] [9]),
      { checkFrozen.handle with flowSource := ofString "flows/evil.yaml" }, by decide +kernel,
      differs, fun bound => ?_⟩
    obtain ⟨content, present, before⟩ := bound.source
    exact differs (present.trans before.symm)
  · refine ⟨tamperedBundle (ofString "flows/flow.yaml") (plainFile ["tools", "check.bat"] [9]),
      checkFrozen.handle, by decide +kernel, rfl, fun bound => ?_⟩
    have resolved : ((tamperedBundle (ofString "flows/flow.yaml")
        (plainFile ["tools", "check.bat"] [9])).tools true).resolve (ofString "check") =
          .ok (ofString "check.bat") := by decide +kernel
    have launched : checkTree.tools.resolve (ofString "check") = .ok (ofString "check.cmd") := by
      decide +kernel
    obtain ⟨launcher, launchedToo, contents⟩ :=
      bound.tools (ofString "check") (by decide +kernel) (ofString "check.bat") resolved
    cases launched.symm.trans launchedToo
    have differs : (tamperedBundle (ofString "flows/flow.yaml")
        (plainFile ["tools", "check.bat"] [9])).toolsDir.content (ofString "check.bat") ≠
          checkTree.tools.dir.content (ofString "check.cmd") := by decide +kernel
    exact differs contents

end Orchestrator.Flow
