import Orchestrator.Flow.Schema
import Orchestrator.Foundation.Fallible
import Orchestrator.Foundation.PosixPath

/-! # The control inputs of a flow

A directory is what stands at each path below it. The tool registry resolves a name to the first of
its candidates that can be launched; a flow refers to its own file, to role files and to the
existing candidates of its tools.
-/

namespace Orchestrator.Flow

open Orchestrator.Foundation PyText PathParts

/-! ## Directories -/

/-- What opening a path reads, through the links on its way. -/
structure Opened where
  content : List UInt8
  executable : Bool := false
  deriving DecidableEq

/-- What stands at a path: the facts that are inspected, and what opening it gives when it is, or
leads to, a file. The suffix is that of the file a link leads to. -/
structure DiskEntry where
  isSymlink : Bool := false
  linkSuffix : PyText := []
  isRegular : Bool := true
  linkCount : Nat := 1
  altStreams : List PyText := []
  opened : Option Opened
  deriving DecidableEq

/-- A directory: what stands at the paths below it, which of them resolve inside of it, and where
absolute texts lead below it. No path has a NUL in it. -/
structure Directory where
  entry : List PyText → Option DiskEntry
  inside : List PyText → Bool
  below : PyText → Option (List PyText)
  entry_zeroFree : ∀ path, (entry path).isSome → ∀ part ∈ path, 0 ∉ part
  below_zeroFree : ∀ text, (below text).isSome → 0 ∉ text
  below_parts : ∀ text, ∀ path ∈ below text, ∀ part ∈ path, IsPart part

/-- A directory that no absolute text reaches. -/
theorem below_zeroFree_none (text : PyText) (present : (none : Option (List PyText)).isSome) :
    0 ∉ text := by
  cases present

theorem below_parts_none (_ : PyText) :
    ∀ path ∈ (none : Option (List PyText)), ∀ part ∈ path, IsPart part := by
  intro path located
  cases located

namespace Directory

variable (directory : Directory)

/-- `directory / text`. -/
def locate (text : PyText) : Option (List PyText) :=
  if isAbsolute text then directory.below text else some (parts text)

def lookup (text : PyText) : Option DiskEntry := (directory.locate text).bind directory.entry

/-- Whether `directory / text` resolves inside the directory. -/
def contains (text : PyText) : Bool := (directory.locate text).any directory.inside

/-- The bytes at a path that is, or leads to, a file. -/
def contentAt (path : List PyText) : Option (List UInt8) :=
  ((directory.entry path).bind DiskEntry.opened).map Opened.content

/-- The bytes of `directory / text`. -/
def content (text : PyText) : Option (List UInt8) :=
  (directory.locate text).bind directory.contentAt

variable {directory}

theorem locate_relative {text : PyText} (relative : isAbsolute text = false) :
    directory.locate text = some (parts text) := if_neg (by rw [relative]; decide)

theorem content_relative {text : PyText} (relative : isAbsolute text = false) :
    directory.content text = directory.contentAt (parts text) := by
  rw [content, locate_relative relative]
  rfl

theorem content_eq_lookup (text : PyText) :
    directory.content text =
      ((directory.lookup text).bind DiskEntry.opened).map Opened.content := by
  rw [content, lookup]
  cases directory.locate text with
  | none => rfl
  | some path => rfl

/-- A place has the parts of a path. -/
theorem isPart_of_locate {text : PyText} {path : List PyText}
    (located : directory.locate text = some path) : ∀ part ∈ path, IsPart part := by
  rw [locate] at located
  split at located
  · exact directory.below_parts text path located
  · cases located
    exact fun part among => isPart_of_mem_parts among

/-- A path that is there has no NUL. -/
theorem zeroFree_of_lookup {text : PyText} {found : DiskEntry}
    (present : directory.lookup text = some found) : 0 ∉ text := by
  obtain ⟨path, located, stands⟩ := Option.bind_eq_some_iff.mp present
  rw [locate] at located
  split at located
  · exact directory.below_zeroFree text (Option.isSome_of_eq_some located)
  · cases located
    intro among
    obtain ⟨part, found, inside⟩ := exists_part_of_mem among (by decide) (by decide)
    exact directory.entry_zeroFree _ (Option.isSome_of_eq_some stands) part found inside

end Directory

/-! ## The tool registry -/

/-- The tool registry over a directory, with the rules of Windows or of POSIX. -/
structure ToolRegistry where
  dir : Directory
  windows : Bool

/-- Why a tool name does not resolve. -/
inductive ToolResolutionError where
  | emptyName
  | outside (name : PyText)
  | notFound (name : PyText)
  | notExecutable (name : PyText)
  deriving DecidableEq

/-- `_WINDOWS_EXECUTABLE_SUFFIXES`, sorted. -/
def windowsExecutableSuffixes : List PyText :=
  [ofString ".bat", ofString ".cmd", ofString ".com", ofString ".exe"]

namespace ToolRegistry

variable (registry : ToolRegistry)

/-- `_candidate_names`. -/
def candidateNames (name : PyText) : List PyText :=
  if !registry.windows ||
      decide (lower (suffix (fileName (parts name))) ∈ windowsExecutableSuffixes) then [name]
  else name :: windowsExecutableSuffixes.map (name ++ ·)

/-- `_is_executable`, of the file that an entry at a path leads to. -/
def isExecutable (path : List PyText) (found : DiskEntry) (opened : Opened) : Bool :=
  if registry.windows then
    decide (lower (if found.isSymlink then found.linkSuffix else suffix (fileName path)) ∈
      windowsExecutableSuffixes)
  else opened.executable

/-- Whether what stands at a path can be launched. -/
def launchableAt (path : List PyText) : Bool :=
  (registry.dir.entry path).any fun found =>
    found.opened.any fun opened => registry.isExecutable path found opened

/-- Whether a candidate can be launched. -/
def launchable (candidate : PyText) : Bool :=
  (registry.dir.locate candidate).any registry.launchableAt

/-- Whether a candidate is a file. -/
def isFile (candidate : PyText) : Bool := (registry.dir.content candidate).isSome

/-- `resolve`: the candidate that is launched. -/
def resolve (name : PyText) : Except ToolResolutionError PyText :=
  if strip name = [] then .error .emptyName
  else if registry.dir.contains name then
    match (registry.candidateNames name).find? registry.launchable with
    | some candidate => .ok candidate
    | none =>
        if registry.isFile name then .error (.notExecutable name) else .error (.notFound name)
  else .error (.outside name)

/-- `existing_candidates`: the places of the candidates that are files. -/
def existingCandidates (name : PyText) : Except ToolResolutionError (List (List PyText)) := do
  let _ ← registry.resolve name
  return ((registry.candidateNames name).filter registry.isFile).filterMap registry.dir.locate

variable {registry} {name candidate : PyText}

theorem find?_of_resolve (resolved : registry.resolve name = .ok candidate) :
    (registry.candidateNames name).find? registry.launchable = some candidate ∧
      registry.dir.contains name = true ∧ strip name ≠ [] := by
  rw [resolve] at resolved
  split at resolved
  · cases resolved
  · rename_i filled
    split at resolved
    · rename_i contained
      cases first : (registry.candidateNames name).find? registry.launchable with
      | none =>
          rw [first] at resolved
          dsimp only at resolved
          split at resolved <;> cases resolved
      | some found =>
          rw [first] at resolved
          cases resolved
          exact ⟨rfl, contained, filled⟩
    · cases resolved

/-- POSIX tries the bare name alone. -/
theorem candidateNames_posix (posix : registry.windows = false) :
    registry.candidateNames name = [name] := by
  rw [candidateNames, posix]
  rfl

/-- A launcher is a file. -/
theorem isFile_of_launchable (ready : registry.launchable candidate = true) :
    registry.isFile candidate = true := by
  obtain ⟨path, located, launched⟩ := (Option.any_eq_true _ _).mp ready
  obtain ⟨found, stands, launched⟩ := (Option.any_eq_true _ _).mp launched
  obtain ⟨opened, reads, -⟩ := (Option.any_eq_true _ _).mp launched
  rw [isFile, Directory.content, located, Option.bind_some, Directory.contentAt, stands,
    Option.bind_some, reads]
  rfl

end ToolRegistry

/-! ## References -/

/-- The role files of a node. -/
def FlowNode.roleFiles : FlowNode → List String
  | .agent node => node.roleFile :: node.resumeRoleFile.toList
  | .evaluator node => node.roleFile :: node.resumeRoleFile.toList
  | _ => []

/-- The role files of a supervisor block. -/
def SupervisorBlock.roleFiles (block : SupervisorBlock) : List String :=
  [block.roleFile, block.finalizeRoleFile, block.handoffRoleFile].reduceOption

/-- `_add_role`. -/
def addRole (seen : List PyText) (roleFile : PyText) : List PyText :=
  if roleFile ≠ [] ∧ roleFile ∉ seen then seen ++ [roleFile] else seen

/-- The role files that a document refers to, each once. -/
def FlowDoc.roleFiles (doc : FlowDoc) : List PyText :=
  ((doc.nodes.flatMap FlowNode.roleFiles ++ doc.supervisor.elim [] SupervisorBlock.roleFiles).map
    ofString).foldl addRole []

/-- A loaded flow with the name of its file and the tool of each tool node. The validator has
refused role files that start at the root. -/
structure ControlFlow where
  snapshot : FlowSnapshot
  sourceName : PyText
  toolOf : String → PyText
  source_relative : isAbsolute sourceName = false
  roles_relative : ∀ roleFile ∈ snapshot.doc.roleFiles, isAbsolute roleFile = false

/-- The tool of a tool node. -/
def ControlFlow.toolName (flow : ControlFlow) : FlowNode → Option PyText
  | .tool node => some (flow.toolOf node.id)
  | _ => none

/-- The tools of a flow, sorted. -/
def ControlFlow.toolNames (flow : ControlFlow) : List PyText :=
  (flow.snapshot.doc.nodes.filterMap flow.toolName).dedup.insertionSort (· ≤ ·)

/-- A control input: its key in the bundle, and what stands at its source. -/
structure Ref where
  key : PyText
  source : Option DiskEntry

def flowsKey (text : PyText) : PyText := ofString "flows" ++ slash :: text

def toolsKey (path : List PyText) : PyText := ofString "tools" ++ slash :: asPosix path

/-- The live directories that a flow's control inputs stand in. -/
structure ControlTree where
  flowDir : Directory
  tools : ToolRegistry

/-- The texts that a flow resolves under its directory: its own file, then its role files. -/
def ControlFlow.flowFiles (flow : ControlFlow) : List PyText :=
  flow.sourceName :: flow.snapshot.doc.roleFiles

/-- The launch set of a tool. -/
def ControlTree.toolRefs (tree : ControlTree) (name : PyText) :
    Except ToolResolutionError (List Ref) := do
  let candidates ← tree.tools.existingCandidates name
  return candidates.map fun path => { key := toolsKey path, source := tree.tools.dir.entry path }

/-- `_referenced_inputs`. -/
def referencedInputs (flow : ControlFlow) (tree : ControlTree) :
    Except ToolResolutionError (List Ref) := do
  let launchSets ← flow.toolNames.mapM tree.toolRefs
  return flow.flowFiles.map (fun text =>
    { key := flowsKey text, source := tree.flowDir.lookup text }) ++ launchSets.flatten

theorem ControlFlow.relative (flow : ControlFlow) {text : PyText} (among : text ∈ flow.flowFiles) :
    isAbsolute text = false := by
  rcases List.mem_cons.mp among with rfl | role
  · exact flow.source_relative
  · exact flow.roles_relative text role

theorem parts_flowsKey (text : PyText) :
    parts (flowsKey text) = ofString "flows" :: parts text := by
  rw [flowsKey, parts_append_slash]
  rfl

theorem parts_toolsKey {path : List PyText} (all : ∀ part ∈ path, IsPart part) :
    parts (toolsKey path) = ofString "tools" :: path := by
  rw [toolsKey, parts_append_slash, parts_asPosix all]
  rfl

theorem toolsKey_injective {first second : List PyText} (all : ∀ part ∈ first, IsPart part)
    (other : ∀ part ∈ second, IsPart part) (same : toolsKey first = toolsKey second) :
    first = second := by
  have keys := congrArg parts same
  rw [parts_toolsKey all, parts_toolsKey other] at keys
  exact (List.cons.inj keys).2

/-- A flow's own files and its tools have different keys. -/
theorem flowsKey_ne_toolsKey (text : PyText) (path : List PyText) :
    flowsKey text ≠ toolsKey path := by
  intro same
  have first : some (ofChar 'f') = some (ofChar 't') := congrArg List.head? same
  exact absurd first (by decide)

end Orchestrator.Flow
