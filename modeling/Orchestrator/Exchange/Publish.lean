import Mathlib.Data.List.Dedup
import Orchestrator.Exchange.Manifest
import Orchestrator.Foundation.FileNodes
import Orchestrator.Foundation.PosixPath
import Orchestrator.Security.Identifiers
import Orchestrator.Security.Redaction

/-! # Publishing into an exchange

A content is redacted and written under a relative name. The name is checked, the directories above
it are made, and the file at its place is replaced by way of a temporary file beside it. Two
manifests are compared name by name.
-/

namespace Orchestrator.Exchange

open Orchestrator.Foundation
open Orchestrator.Foundation.PyText (ofString ofChar encodeUtf8 decodePoint continuation)
open Orchestrator.Security (WordTest isPortablePathSegment redactText)

/-! ## Contents -/

/-- The second byte may follow the first of a sequence of three or four. -/
def maySecond (first second : UInt8) : Bool :=
  (continuation second).isSome && (first ≠ 0xE0 || 0xA0 ≤ second) &&
    (first ≠ 0xED || second < 0xA0) &&
    (first ≠ 0xF0 || 0x90 ≤ second) && (first ≠ 0xF4 || second < 0x90)

/-- How many bytes at the front of a list that begins with no sequence stand for one replacement
character. -/
def badLength : List UInt8 → Nat
  | first :: second :: rest =>
      if 0xE0 ≤ first && first < 0xF5 && maySecond first second then
        match rest with
        | third :: _ => if 0xF0 ≤ first && (continuation third).isSome then 3 else 2
        | [] => 2
      else 1
  | _ => 1

/-- Decode at most a number of characters, `U+FFFD` for what is no sequence. -/
def decodeReplaceWithin : Nat → List UInt8 → PyText
  | _, [] => []
  | 0, _ :: _ => []
  | fuel + 1, bytes =>
      match decodePoint bytes with
      | some (point, rest) => point :: decodeReplaceWithin fuel rest
      | none =>
        ofChar (Char.ofNat 0xFFFD) :: decodeReplaceWithin fuel (bytes.drop (badLength bytes))

/-- `bytes.decode("utf-8", errors="replace")`. -/
def decodeReplace (bytes : List UInt8) : PyText := decodeReplaceWithin bytes.length bytes

/-- What is published. -/
inductive Content where
  | text (letters : PyText)
  | bytes (raw : List UInt8)

def Content.decoded : Content → PyText
  | .text letters => letters
  | .bytes raw => decodeReplace raw

/-! ## One publication -/

/-- Why a publication is refused. -/
inductive PublishRefusal where
  | untrimmed (relpath : String)
  | absolute (relpath : String)
  | nonPortable (segment relpath : String)
  | componentSymlink (path : List PyText)
  | componentNotDirectory (path : List PyText)
  | targetNotRegular (path : List PyText)

/-- `_validate_relpath`, and the segments of the name. -/
def validateRelpath (relpath : String) : Except PublishRefusal (List PyText) :=
  if relpath = "" ∨ ofString relpath ≠ PyText.strip (ofString relpath) then
    .error (.untrimmed relpath)
  else if PosixPath.root relpath.toList ≠ [] then .error (.absolute relpath)
  else
    let segments := (PosixPath.parts relpath.toList).map String.ofList
    match segments.find? fun segment => !isPortablePathSegment segment with
    | some segment => .error (.nonPortable segment relpath)
    | none => .ok (segments.map ofString)

/-- The first file on the way down a path. -/
def obstacle : List PyText → ExchangeTree → Option (List PyText × Leaf)
  | [], _ => none
  | name :: path, tree =>
      match tree.find? name with
      | some (.file leaf) => some ([name], leaf)
      | some (.dir children) =>
          (obstacle path children).map fun (below, leaf) => (name :: below, leaf)
      | none => none

/-- `_assert_real_dir` of the component that is no directory. -/
def blockedBy (parent : List PyText) (tree : ExchangeTree) : PublishRefusal :=
  match obstacle parent tree with
  | some (path, .symlink) => .componentSymlink path
  | some (path, _) => .componentNotDirectory path
  | none => .componentNotDirectory parent

/-- What `_assert_target_replaceable` refuses: an entry that is no regular file. -/
def irreplaceable (path : List PyText) (tree : ExchangeTree) : Bool :=
  tree.isDir path ||
    match tree.read path with
    | some .symlink | some .special => true
    | some (.regular ..) | none => false

/-- The name of the temporary file beside a file. -/
def temporaryName (name : PyText) : PyText := name ++ ofString ".worc-io.tmp"

/-- The temporary file written over what its name had before. -/
def rewritten (bytes : List UInt8) : Option Leaf → Leaf
  | none => .regular 1 [] bytes
  | some (.regular linkCount altStreams _) => .regular linkCount altStreams bytes
  | some other => other

/-- `_atomic_write_text`, and whether it returns: a text without an encoding leaves no temporary
file, and a directory of the temporary name stays. -/
def atomicWriteText (parent : List PyText) (last : PyText) (encoded : Option (List UInt8))
    (tree : ExchangeTree) : Bool × ExchangeTree :=
  let temporary := temporaryName last
  if tree.isDir (parent ++ [temporary]) then (false, tree)
  else
    let spare := tree.remove temporary parent
    match encoded with
    | none => (false, spare)
    | some bytes =>
        (true, spare.place (rewritten bytes (tree.read (parent ++ [temporary]))) last parent)

/-- The arguments of a call. -/
structure PublishCall where
  relpath : String
  content : Content
  extraSecrets : List PyText

/-- How a call ends: with its path, with an `ExchangeError`, or with another exception. -/
inductive PublishEnd where
  | returned (path : List PyText)
  | refused (reason : PublishRefusal)
  | failed

section Publish

variable (words : WordTest)

/-- The bytes that a call writes, when they have an encoding. -/
def PublishCall.redactedBytes (call : PublishCall) : Option (List UInt8) :=
  encodeUtf8 (redactText words call.extraSecrets call.content.decoded)

/-- `publish_to_exchange` into a task directory that may not exist yet. A portable name stays below
the directory, and a link on the way is refused wherever it leads. -/
def publishToExchange (call : PublishCall) (directory : Option ExchangeTree) :
    PublishEnd × Option ExchangeTree :=
  match validateRelpath call.relpath with
  | .error reason => (.refused reason, directory)
  | .ok path =>
      let tree := directory.getD .empty
      match path.getLast? with
      | none => (.failed, some tree)
      | some last =>
          let parent := path.dropLast
          match tree.makeDirs parent with
          | none => (.refused (blockedBy parent tree), some tree)
          | some made =>
              if irreplaceable path made then (.refused (.targetNotRegular path), some made)
              else
                let (done, changed) := atomicWriteText parent last (call.redactedBytes words) made
                (if done then .returned path else .failed, some changed)

end Publish

/-! ## Comparing manifests -/

/-- One line of a comparison. -/
inductive Drift where
  | added (name : PyText)
  | removed (name : PyText)
  | contentChanged (name : PyText)
  | linkIdentityChanged (name : PyText)
  | more (count : Nat)

def driftEvidenceCap : Nat := 20

/-- The entry of a name in the dictionary of a manifest: the last of that name. -/
def entryNamed (entries : List ExchangeEntry) (name : PyText) : Option ExchangeEntry :=
  entries.reverse.find? fun entry => entry.relname = name

/-- What changed about a name. -/
def driftOf (before after : List ExchangeEntry) (name : PyText) : Option Drift :=
  match entryNamed before name, entryNamed after name with
  | none, _ => some (.added name)
  | some _, none => some (.removed name)
  | some old, some new =>
      if old.sha256 ≠ new.sha256 ∨ old.size ≠ new.size then some (.contentChanged name)
      else if old.linkCount ≠ new.linkCount then some (.linkIdentityChanged name)
      else none

/-- `diff_exchange_manifests`. -/
def diffExchangeManifests (before after : List ExchangeEntry) : List Drift :=
  let names := ((before ++ after).map ExchangeEntry.relname).dedup.insertionSort (· ≤ ·)
  let changes := names.filterMap (driftOf before after)
  if driftEvidenceCap < changes.length then
    changes.take driftEvidenceCap ++ [.more (changes.length - driftEvidenceCap)]
  else changes

end Orchestrator.Exchange
