import Mathlib.Data.Prod.Lex
import Orchestrator.Flow.ControlBundle
import Orchestrator.Foundation.PairLines

/-! # The listed control inputs

What the list of a flow's control inputs with their digests tells of the directories that they were
read from.
-/

/-! ## What a bundle's digest tells

The digest of listed files is that of their lines in order, so that two lists with one digest have
the same entries.
-/

namespace Orchestrator.Flow

open Orchestrator.Foundation PyText PathParts
open Orchestrator.Exchange (lineLe)

/-! ## The order of the lines -/

theorem lineLe_iff (first second : PyText × PyText) :
    lineLe first second ↔ toLex first ≤ toLex second := Prod.Lex.toLex_le_toLex.symm

instance : Std.Total lineLe where
  total first second := by
    rw [lineLe_iff, lineLe_iff]
    exact le_total _ _

instance : IsTrans (PyText × PyText) lineLe where
  trans first second third before after := by
    rw [lineLe_iff] at before after ⊢
    exact le_trans before after

instance : Std.Antisymm lineLe where
  antisymm first second before after := by
    rw [lineLe_iff] at before after
    exact toLex.injective (le_antisymm before after)

/-- Entries in another order are sorted alike. -/
theorem insertionSort_eq_of_perm {entries others : List (PyText × PyText)}
    (same : entries.Perm others) : entries.insertionSort lineLe = others.insertionSort lineLe :=
  ((entries.perm_insertionSort lineLe).trans
    (same.trans (others.perm_insertionSort lineLe).symm)).eq_of_pairwise'
      (entries.pairwise_insertionSort lineLe) (others.pairwise_insertionSort lineLe)

/-- Entries that can be read back: no key has a NUL and no digest a line feed. -/
def Readable (entries : List (PyText × PyText)) : Prop :=
  ∀ entry ∈ entries, (0 : CodePoint) ∉ entry.1 ∧ (10 : CodePoint) ∉ entry.2

/-- Two lists with one payload have the same entries. -/
theorem perm_of_digestPayload {entries others : List (PyText × PyText)}
    (plain : Readable entries) (plainOther : Readable others)
    (same : digestPayload entries = digestPayload others) : entries.Perm others := by
  have sorted : entries.insertionSort lineLe = others.insertionSort lineLe :=
    PairLines.lines_injective
      (fun entry among => plain entry ((entries.mem_insertionSort lineLe).mp among))
      (fun entry among => plainOther entry ((others.mem_insertionSort lineLe).mp among)) same
  calc
    entries.Perm (entries.insertionSort lineLe) := (entries.perm_insertionSort lineLe).symm
    _ = others.insertionSort lineLe := sorted
    List.Perm _ others := others.perm_insertionSort lineLe

theorem encodeUtf8_injective {text other : PyText} {bytes : List UInt8}
    (encoded : encodeUtf8 text = some bytes) (encodedOther : encodeUtf8 other = some bytes) :
    text = other :=
  Option.some.inj
    ((decodeUtf8_of_encodeUtf8 encoded).symm.trans (decodeUtf8_of_encodeUtf8 encodedOther))

variable {host : BundleHost}

theorem digestEntries_eq_ok {entries : List (PyText × PyText)} {digest : PyText} :
    digestEntries host entries = .ok digest ↔
      ∃ bytes, encodeUtf8 (digestPayload entries) = some bytes ∧
        host.hash.digest bytes = digest := by
  rw [digestEntries]
  cases encodeUtf8 (digestPayload entries) with
  | none => exact iff_of_false nofun fun ⟨_, encoded, _⟩ => nomatch encoded
  | some bytes =>
      constructor
      · rintro ⟨⟩
        exact ⟨bytes, rfl, rfl⟩
      · rintro ⟨_, ⟨⟩, rfl⟩
        rfl

/-- The digest does not depend on the order of the entries. -/
theorem digestEntries_of_perm {entries others : List (PyText × PyText)}
    (same : entries.Perm others) : digestEntries host entries = digestEntries host others := by
  rw [digestEntries, digestEntries, digestPayload, digestPayload, insertionSort_eq_of_perm same]

/-- With a hash without collisions, lists have one digest exactly when they have the same
entries. -/
theorem digestEntries_inj (collisionFree : Function.Injective host.hash.digest)
    {entries others : List (PyText × PyText)} {digest found : PyText}
    (plain : Readable entries) (plainOther : Readable others)
    (hashed : digestEntries host entries = .ok digest)
    (hashedOther : digestEntries host others = .ok found) :
    found = digest ↔ others.Perm entries := by
  constructor
  · rintro rfl
    obtain ⟨bytes, encoded, here⟩ := digestEntries_eq_ok.mp hashed
    obtain ⟨others, encodedOther, there⟩ := digestEntries_eq_ok.mp hashedOther
    have same : others = bytes := collisionFree (there.trans here.symm)
    subst same
    exact perm_of_digestPayload plainOther plain (encodeUtf8_injective encodedOther encoded)
  · intro same
    have both := @digestEntries_of_perm host _ _ same
    rw [hashed, hashedOther] at both
    exact Except.ok.inj both

/-- A digest of the hash has no line feed. -/
theorem lineFeed_notMem_digest (content : List UInt8) :
    (10 : CodePoint) ∉ host.hash.digest content := fun among =>
  absurd (host.hash.hex content among) (by decide)

end Orchestrator.Flow

namespace Orchestrator.Flow

open Orchestrator.Foundation PyText PathParts Fallible

/-! ## Inspected sources -/

/-- An accepted source is there, no link, and can be opened. -/
theorem inspectSource_eq_ok {key : PyText} {source : Option DiskEntry} {opened : Opened}
    (accepted : inspectSource key source = .ok opened) :
    ∃ found, source = some found ∧ found.isSymlink = false ∧ found.opened = some opened := by
  cases source with
  | none => cases accepted
  | some found =>
      rw [inspectSource] at accepted
      split at accepted
      · cases accepted
      · rename_i noLink
        refine ⟨found, rfl, Bool.eq_false_iff.mpr noLink, ?_⟩
        split at accepted
        · cases accepted
        · split at accepted
          · cases accepted
          · split at accepted
            · cases accepted
            · cases reads : found.opened with
              | none =>
                  rw [reads] at accepted
                  cases accepted
              | some other =>
                  rw [reads] at accepted
                  cases accepted
                  rfl

/-- A regular file of its own is accepted. -/
theorem inspectSource_copy (key : PyText) (opened : Opened) :
    inspectSource key (some { opened := some opened }) = .ok opened := rfl

variable {host : BundleHost}

theorem copyRef_eq_ok {ref : Ref} {copy : FrozenCopy} (copied : copyRef ref = .ok copy) :
    inspectSource ref.key ref.source = .ok copy.opened ∧ copy.key = ref.key ∧
      within (parts ref.key) = some copy.place := by
  rw [copyRef] at copied
  obtain ⟨opened, inspected, rest⟩ := bind_eq_ok.mp copied
  cases placed : within (parts ref.key) with
  | none =>
      rw [placed] at rest
      cases rest
  | some place =>
      rw [placed] at rest
      cases rest
      exact ⟨inspected, rfl, rfl⟩

theorem hashRef_eq_ok {ref : Ref} {entry : PyText × PyText} :
    hashRef host ref = .ok entry ↔ ∃ opened, inspectSource ref.key ref.source = .ok opened ∧
      (ref.key, host.hash.digest opened.content) = entry := by
  rw [hashRef]
  constructor
  · intro hashed
    obtain ⟨opened, inspected, same⟩ := bind_eq_ok.mp hashed
    cases same
    exact ⟨opened, inspected, rfl⟩
  · rintro ⟨opened, inspected, rfl⟩
    exact bind_eq_ok.mpr ⟨opened, inspected, rfl⟩

/-- The copies of a freeze carry the digests of its inputs. -/
theorem mapM_hashRef_of_copies {refs : List Ref} {copies : List FrozenCopy}
    (copied : refs.mapM copyRef = .ok copies) :
    refs.mapM (hashRef host) = .ok (copies.map (FrozenCopy.hashed host)) := by
  apply mapM_eq_ok.mpr
  apply List.forall₂_map_right_iff.mpr
  refine (mapM_eq_ok.mp copied).imp fun ref copy made => ?_
  obtain ⟨inspected, key, -⟩ := copyRef_eq_ok made
  exact hashRef_eq_ok.mpr ⟨copy.opened, inspected, by rw [FrozenCopy.hashed, key]⟩

/-! ## References -/

variable {flow : ControlFlow} {tree : ControlTree} {refs : List Ref}

theorem toolRefs_eq_ok {name : PyText} {found : List Ref}
    (listed : tree.toolRefs name = .ok found) :
    found = (((tree.tools.candidateNames name).filter tree.tools.isFile).filterMap
      tree.tools.dir.locate).map fun path =>
        { key := toolsKey path, source := tree.tools.dir.entry path } := by
  rw [ControlTree.toolRefs] at listed
  obtain ⟨candidates, existing, same⟩ := bind_eq_ok.mp listed
  rw [ToolRegistry.existingCandidates] at existing
  obtain ⟨launcher, -, files⟩ := bind_eq_ok.mp existing
  cases same
  cases files
  rfl

/-- Each tool of a flow with references resolves. -/
theorem exists_launcher (referenced : referencedInputs flow tree = .ok refs) {name : PyText}
    (tool : name ∈ flow.toolNames) : ∃ launcher, tree.tools.resolve name = .ok launcher := by
  rw [referencedInputs] at referenced
  obtain ⟨launchSets, listed, -⟩ := bind_eq_ok.mp referenced
  obtain ⟨found, -, listedHere⟩ := exists_result_of_mapM listed tool
  rw [ControlTree.toolRefs] at listedHere
  obtain ⟨candidates, existing, -⟩ := bind_eq_ok.mp listedHere
  rw [ToolRegistry.existingCandidates] at existing
  obtain ⟨launcher, resolved, -⟩ := bind_eq_ok.mp existing
  exact ⟨launcher, resolved⟩

/-- The references of a flow: its own files, and the files among its tools' candidates. -/
theorem mem_refs_iff (referenced : referencedInputs flow tree = .ok refs) (ref : Ref) :
    ref ∈ refs ↔
      (∃ text ∈ flow.flowFiles,
        { key := flowsKey text, source := tree.flowDir.lookup text } = ref) ∨
      ∃ name ∈ flow.toolNames, ∃ candidate ∈ tree.tools.candidateNames name,
        tree.tools.isFile candidate = true ∧ ∃ path, tree.tools.dir.locate candidate = some path ∧
          { key := toolsKey path, source := tree.tools.dir.entry path } = ref := by
  rw [referencedInputs] at referenced
  obtain ⟨launchSets, listed, same⟩ := bind_eq_ok.mp referenced
  cases same
  rw [List.mem_append, List.mem_map]
  refine or_congr Iff.rfl ?_
  constructor
  · intro among
    obtain ⟨found, set, here⟩ := List.mem_flatten.mp among
    obtain ⟨name, tool, listedHere⟩ := exists_item_of_mapM listed set
    rw [toolRefs_eq_ok listedHere] at here
    obtain ⟨path, located, made⟩ := List.mem_map.mp here
    obtain ⟨candidate, kept, place⟩ := List.mem_filterMap.mp located
    obtain ⟨named, file⟩ := List.mem_filter.mp kept
    exact ⟨name, tool, candidate, named, file, path, place, made⟩
  · rintro ⟨name, tool, candidate, named, file, path, place, made⟩
    obtain ⟨found, set, listedHere⟩ := exists_result_of_mapM listed tool
    refine List.mem_flatten.mpr ⟨found, set, ?_⟩
    rw [toolRefs_eq_ok listedHere]
    exact List.mem_map.mpr ⟨path, List.mem_filterMap.mpr
      ⟨candidate, List.mem_filter.mpr ⟨named, file⟩, place⟩, made⟩

/-! ## Listed entries -/

/-- What a list of inputs with their digests tells of the directories they were read from. -/
structure Listed (host : BundleHost) (flow : ControlFlow) (tree : ControlTree)
    (entries : List (PyText × PyText)) : Prop where
  readable : Readable entries
  flowFile : ∀ text ∈ flow.flowFiles, ∃ content, tree.flowDir.content text = some content ∧
    (flowsKey text, host.hash.digest content) ∈ entries
  launcher : ∀ name ∈ flow.toolNames, ∀ candidate ∈ tree.tools.candidateNames name,
    ∀ path content, tree.tools.dir.locate candidate = some path →
      tree.tools.dir.contentAt path = some content →
        (toolsKey path, host.hash.digest content) ∈ entries ∧
          ∀ found ∈ tree.tools.dir.entry path, found.isSymlink = false
  ofFlowsKey : ∀ text digest, (flowsKey text, digest) ∈ entries →
    ∃ content, tree.flowDir.content text = some content ∧ host.hash.digest content = digest
  ofToolsKey : ∀ path digest, (∀ part ∈ path, IsPart part) → (toolsKey path, digest) ∈ entries →
    ∃ content, tree.tools.dir.contentAt path = some content ∧ host.hash.digest content = digest

theorem flowsKey_injective : Function.Injective flowsKey := fun _ _ same =>
  (List.cons.inj (List.append_cancel_left same)).2

/-- The bytes of an inspected source are those of its directory. -/
theorem contentAt_of_inspect {directory : Directory} {path : List PyText} {key : PyText}
    {opened : Opened} (inspected : inspectSource key (directory.entry path) = .ok opened) :
    directory.contentAt path = some opened.content := by
  obtain ⟨found, stands, -, reads⟩ := inspectSource_eq_ok inspected
  rw [Directory.contentAt, stands, Option.bind_some, reads]
  rfl

theorem content_of_inspect {directory : Directory} {text key : PyText} {opened : Opened}
    (inspected : inspectSource key (directory.lookup text) = .ok opened) :
    directory.content text = some opened.content := by
  cases located : directory.locate text with
  | none =>
      rw [Directory.lookup, located] at inspected
      cases inspected
  | some path =>
      rw [Directory.lookup, located] at inspected
      rw [Directory.content, located]
      exact contentAt_of_inspect inspected

theorem zeroFree_flowsKey {text : PyText} (plain : 0 ∉ text) : 0 ∉ flowsKey text := by
  intro among
  rcases List.mem_append.mp among with first | rest
  · exact absurd first (by decide)
  · rcases List.mem_cons.mp rest with same | later
    · exact absurd same (by decide)
    · exact plain later

theorem zeroFree_toolsKey {path : List PyText} (plain : ∀ part ∈ path, 0 ∉ part) :
    0 ∉ toolsKey path := by
  intro among
  rcases List.mem_append.mp among with first | rest
  · exact absurd first (by decide)
  · rcases List.mem_cons.mp rest with same | later
    · exact absurd same (by decide)
    · obtain ⟨part, inside, found⟩ := exists_part_of_mem_asPosix later (by decide) (by decide)
      exact plain part inside found

variable {entries : List (PyText × PyText)}

/-- Each entry is of an inspected reference. -/
theorem mem_entries_iff (hashed : refs.mapM (hashRef host) = .ok entries)
    (entry : PyText × PyText) :
    entry ∈ entries ↔ ∃ ref ∈ refs, ∃ opened, inspectSource ref.key ref.source = .ok opened ∧
      (ref.key, host.hash.digest opened.content) = entry := by
  constructor
  · intro among
    obtain ⟨ref, member, made⟩ := exists_item_of_mapM hashed among
    exact ⟨ref, member, hashRef_eq_ok.mp made⟩
  · rintro ⟨ref, member, made⟩
    obtain ⟨other, among, here⟩ := exists_result_of_mapM hashed member
    have same := (hashRef_eq_ok.mpr made).symm.trans here
    cases same
    exact among

/-- The hashed references of a flow. -/
theorem listed_of_hashed (referenced : referencedInputs flow tree = .ok refs)
    (hashed : refs.mapM (hashRef host) = .ok entries) : Listed host flow tree entries where
  readable entry among := by
    obtain ⟨ref, member, opened, inspected, rfl⟩ := (mem_entries_iff hashed entry).mp among
    refine ⟨?_, lineFeed_notMem_digest _⟩
    obtain ⟨found, stands, -, -⟩ := inspectSource_eq_ok inspected
    rcases (mem_refs_iff referenced ref).mp member with
      ⟨text, -, rfl⟩ | ⟨-, -, -, -, -, path, -, rfl⟩
    · exact zeroFree_flowsKey (Directory.zeroFree_of_lookup stands)
    · exact zeroFree_toolsKey
        (tree.tools.dir.entry_zeroFree path (Option.isSome_of_eq_some stands))
  flowFile text among := by
    have member := (mem_refs_iff referenced _).mpr (.inl ⟨text, among, rfl⟩)
    obtain ⟨entry, listed, made⟩ := exists_result_of_mapM hashed member
    obtain ⟨opened, inspected, rfl⟩ := hashRef_eq_ok.mp made
    exact ⟨opened.content, content_of_inspect inspected, listed⟩
  launcher name tool candidate named path content located present := by
    have file : tree.tools.isFile candidate = true := by
      rw [ToolRegistry.isFile, Directory.content, located, Option.bind_some, present]
      rfl
    have member := (mem_refs_iff referenced _).mpr
      (.inr ⟨name, tool, candidate, named, file, path, located, rfl⟩)
    obtain ⟨entry, listed, made⟩ := exists_result_of_mapM hashed member
    obtain ⟨opened, inspected, rfl⟩ := hashRef_eq_ok.mp made
    have same : opened.content = content :=
      Option.some.inj ((contentAt_of_inspect inspected).symm.trans present)
    obtain ⟨found, stands, noLink, -⟩ := inspectSource_eq_ok inspected
    refine ⟨same ▸ listed, fun other there => ?_⟩
    cases stands.symm.trans there
    exact noLink
  ofFlowsKey text digest among := by
    obtain ⟨ref, member, opened, inspected, same⟩ := (mem_entries_iff hashed _).mp among
    obtain ⟨key, value⟩ := Prod.mk.inj same
    rcases (mem_refs_iff referenced ref).mp member with
      ⟨other, -, rfl⟩ | ⟨-, -, -, -, -, path, -, rfl⟩
    · cases flowsKey_injective key
      exact ⟨opened.content, content_of_inspect inspected, value⟩
    · exact absurd key.symm (flowsKey_ne_toolsKey text path)
  ofToolsKey path digest all among := by
    obtain ⟨ref, member, opened, inspected, same⟩ := (mem_entries_iff hashed _).mp among
    obtain ⟨key, value⟩ := Prod.mk.inj same
    rcases (mem_refs_iff referenced ref).mp member with
      ⟨other, -, rfl⟩ | ⟨-, -, candidate, -, -, place, located, rfl⟩
    · exact absurd key (flowsKey_ne_toolsKey other path)
    · cases toolsKey_injective (Directory.isPart_of_locate located) all key
      exact ⟨opened.content, contentAt_of_inspect inspected, value⟩

end Orchestrator.Flow
