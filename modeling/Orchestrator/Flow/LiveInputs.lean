import Orchestrator.Flow.BundleSources

/-! # The live control inputs

The digest of the live inputs is that of the freeze exactly when the flow's files and the launch
sets of its tools are as they were.
-/

namespace Orchestrator.Flow

open Orchestrator.Foundation Fallible

variable {host : BundleHost} {flow : ControlFlow} {tree later : ControlTree}

/-- The same directories under the same rules, at another time. -/
structure ControlTree.SamePlace (tree later : ControlTree) : Prop where
  windows : later.tools.windows = tree.tools.windows
  below : later.tools.dir.below = tree.tools.dir.below

/-- The flow's files have the same bytes, and the candidates of its tools are the same files with
the same bytes. -/
structure SameInputs (flow : ControlFlow) (tree later : ControlTree) : Prop where
  files : ∀ text ∈ flow.flowFiles, later.flowDir.content text = tree.flowDir.content text
  launchSets : ∀ name ∈ flow.toolNames, ∀ candidate ∈ tree.tools.candidateNames name,
    later.tools.dir.content candidate = tree.tools.dir.content candidate

namespace ControlTree.SamePlace

variable (place : tree.SamePlace later)

include place

theorem locate (candidate : PyText) :
    later.tools.dir.locate candidate = tree.tools.dir.locate candidate := by
  rw [Directory.locate, Directory.locate, place.below]

theorem candidateNames (name : PyText) :
    later.tools.candidateNames name = tree.tools.candidateNames name := by
  rw [ToolRegistry.candidateNames, ToolRegistry.candidateNames, place.windows]

theorem symm : later.SamePlace tree where
  windows := place.windows.symm
  below := place.below.symm

end ControlTree.SamePlace

/-! ## Equal inputs have equal entries -/

/-- The digest of what an input holds. -/
def contentDigest (host : BundleHost) (content : Option (List UInt8)) : PyText :=
  host.hash.digest (content.getD [])

/-- The entry of a file of the flow. -/
def fileEntry (host : BundleHost) (tree : ControlTree) (text : PyText) : PyText × PyText :=
  (flowsKey text, contentDigest host (tree.flowDir.content text))

/-- The entry of a candidate that is a file. -/
def candidateEntry (host : BundleHost) (tree : ControlTree) (candidate : PyText) :
    Option (PyText × PyText) :=
  if tree.tools.isFile candidate then
    (tree.tools.dir.locate candidate).map fun path =>
      (toolsKey path, contentDigest host (tree.tools.dir.contentAt path))
  else none

/-- The entries of a flow's control inputs. -/
def inputEntries (host : BundleHost) (flow : ControlFlow) (tree : ControlTree) :
    List (PyText × PyText) :=
  flow.flowFiles.map (fileEntry host tree) ++
    flow.toolNames.flatMap fun name =>
      (tree.tools.candidateNames name).filterMap (candidateEntry host tree)

/-- The entry of a reference. -/
def refEntry (host : BundleHost) (ref : Ref) : PyText × PyText :=
  (ref.key, contentDigest host ((ref.source.bind DiskEntry.opened).map Opened.content))

theorem refEntry_of_hashRef {ref : Ref} {entry : PyText × PyText}
    (hashed : hashRef host ref = .ok entry) : entry = refEntry host ref := by
  obtain ⟨opened, inspected, rfl⟩ := hashRef_eq_ok.mp hashed
  obtain ⟨found, stands, -, reads⟩ := inspectSource_eq_ok inspected
  rw [refEntry, stands, Option.bind_some, reads]
  rfl

theorem refEntry_file (text : PyText) :
    refEntry host { key := flowsKey text, source := tree.flowDir.lookup text } =
      fileEntry host tree text := by
  rw [refEntry, fileEntry, Directory.content_eq_lookup]

theorem refEntry_candidates (candidates : List PyText) :
    (((candidates.filter tree.tools.isFile).filterMap tree.tools.dir.locate).map fun path =>
        ({ key := toolsKey path, source := tree.tools.dir.entry path } : Ref)).map
      (refEntry host) = candidates.filterMap (candidateEntry host tree) := by
  induction candidates with
  | nil => rfl
  | cons candidate candidates ih =>
      by_cases file : tree.tools.isFile candidate = true
      · rw [List.filter_cons_of_pos file, List.filterMap_cons, List.filterMap_cons, candidateEntry,
          if_pos file]
        cases tree.tools.dir.locate candidate with
        | none => exact ih
        | some path => exact congrArg _ ih
      · rw [List.filter_cons_of_neg file, List.filterMap_cons, candidateEntry, if_neg file]
        exact ih

/-- The entries that are hashed. -/
theorem eq_inputEntries {refs : List Ref} {entries : List (PyText × PyText)}
    (referenced : referencedInputs flow tree = .ok refs)
    (hashed : refs.mapM (hashRef host) = .ok entries) : entries = inputEntries host flow tree := by
  rw [referencedInputs] at referenced
  obtain ⟨launchSets, listed, same⟩ := bind_eq_ok.mp referenced
  cases same
  have sets := eq_map_of_mapM (fun name _ found => toolRefs_eq_ok) listed
  rw [eq_map_of_mapM (fun ref _ entry => refEntry_of_hashRef) hashed, sets, List.map_append,
    List.map_map, inputEntries, ← List.flatMap_def, List.map_flatMap]
  simp only [refEntry_candidates]
  exact congrArg (· ++ _) (List.map_congr_left fun text _ => refEntry_file text)

/-- The same inputs have the same entries. -/
theorem inputEntries_of_same (place : tree.SamePlace later) (same : SameInputs flow tree later) :
    inputEntries host flow later = inputEntries host flow tree := by
  rw [inputEntries, inputEntries]
  apply congrArg₂
  · apply List.map_congr_left
    intro text among
    rw [fileEntry, fileEntry, same.files text among]
  · apply List.flatMap_congr
    intro name tool
    rw [place.candidateNames]
    apply List.filterMap_congr
    intro candidate named
    have content := same.launchSets name tool candidate named
    rw [candidateEntry, candidateEntry, ToolRegistry.isFile, ToolRegistry.isFile, content,
      place.locate]
    rw [Directory.content, Directory.content, place.locate] at content
    cases located : tree.tools.dir.locate candidate with
    | none => rfl
    | some path =>
        rw [located, Option.bind_some, Option.bind_some] at content
        rw [Option.map_some, Option.map_some, content]

/-! ## Equal entries have equal inputs -/

variable {entries others : List (PyText × PyText)}

/-- What the entries of one time hold of a candidate holds at another time with the same entries. -/
theorem candidate_of_perm (collisionFree : Function.Injective host.hash.digest)
    (place : tree.SamePlace later) (listed : Listed host flow tree entries)
    (listedLater : Listed host flow later others) (same : others.Perm entries)
    {name candidate : PyText}
    (tool : name ∈ flow.toolNames) (named : candidate ∈ tree.tools.candidateNames name)
    {content : List UInt8} (present : later.tools.dir.content candidate = some content) :
    tree.tools.dir.content candidate = some content := by
  obtain ⟨path, located, reads⟩ := Option.bind_eq_some_iff.mp present
  rw [← place.candidateNames] at named
  obtain ⟨entry, -⟩ := listedLater.launcher name tool candidate named path content located reads
  obtain ⟨before, readsBefore, digests⟩ := listed.ofToolsKey path _
    (Directory.isPart_of_locate located) (same.mem_iff.mp entry)
  rw [Directory.content, ← place.locate, located, Option.bind_some, readsBefore,
    collisionFree digests]

/-- Inputs with the same entries are the same. -/
theorem same_of_perm (collisionFree : Function.Injective host.hash.digest)
    (place : tree.SamePlace later) (listed : Listed host flow tree entries)
    (listedLater : Listed host flow later others) (same : others.Perm entries) :
    SameInputs flow tree later where
  files text among := by
    obtain ⟨content, present, entry⟩ := listedLater.flowFile text among
    obtain ⟨before, presentBefore, digests⟩ := listed.ofFlowsKey text _ (same.mem_iff.mp entry)
    rw [present, presentBefore, collisionFree digests]
  launchSets name tool candidate named := by
    apply Option.ext
    intro content
    constructor
    · exact candidate_of_perm collisionFree place listed listedLater same tool named
    · rw [← place.candidateNames] at named
      exact candidate_of_perm collisionFree place.symm listedLater listed same.symm tool named

/-- The entries behind a digest of live inputs. -/
theorem exists_entries_of_digestLive {digest : PyText}
    (hashed : digestLiveControlInputs host flow tree = .ok digest) :
    Listed host flow tree (inputEntries host flow tree) ∧
      digestEntries host (inputEntries host flow tree) = .ok digest := by
  rw [digestLiveControlInputs] at hashed
  obtain ⟨refs, referenced, rest⟩ := bind_eq_ok.mp hashed
  obtain ⟨entries, made, digested⟩ := bind_eq_ok.mp rest
  cases eq_inputEntries (mapError_eq_ok.mp referenced) made
  exact ⟨listed_of_hashed (mapError_eq_ok.mp referenced) made, digested⟩

/-- The live digest is the one of another time exactly when the inputs are. -/
theorem digestLive_eq_iff (collisionFree : Function.Injective host.hash.digest)
    (place : tree.SamePlace later) {digest found : PyText}
    (hashed : digestLiveControlInputs host flow tree = .ok digest)
    (hashedLater : digestLiveControlInputs host flow later = .ok found) :
    found = digest ↔ SameInputs flow tree later := by
  obtain ⟨listed, digested⟩ := exists_entries_of_digestLive hashed
  obtain ⟨listedLater, digestedLater⟩ := exists_entries_of_digestLive hashedLater
  rw [digestEntries_inj collisionFree listed.readable listedLater.readable digested digestedLater]
  constructor
  · exact same_of_perm collisionFree place listed listedLater
  · intro same
    rw [inputEntries_of_same place same]

end Orchestrator.Flow
