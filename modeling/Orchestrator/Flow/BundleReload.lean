import Orchestrator.Flow.BundleIntegrity

/-! # Loading an unchanged bundle

A bundle that nobody has changed is loaded when each copy is still in its place, and then with the
handle of the freeze. No copy is overwritten when no path goes up.
-/

namespace Orchestrator.Flow

open Orchestrator.Foundation PyText PathParts Fallible

variable {host : BundleHost} {flow : ControlFlow} {tree : ControlTree}
  {metadata : List (String × String)} {frozen : FrozenBundle} {refs : List Ref}
  {copies : List FrozenCopy}

/-- The bundle holds what was read, for each input. -/
structure FrozenBundle.Kept (frozen : FrozenBundle) (flow : ControlFlow) (tree : ControlTree) :
    Prop where
  files : ∀ text ∈ flow.flowFiles,
    frozen.directory.content (flowsKey text) = tree.flowDir.content text
  launchers : ∀ name ∈ flow.toolNames, ∀ candidate ∈ tree.tools.candidateNames name,
    ∀ path content, tree.tools.dir.locate candidate = some path →
      tree.tools.dir.contentAt path = some content →
        frozen.directory.content (toolsKey path) = some content

/-! ## The manifest that was written -/

section Document

variable {digest : PyText} {entries : List (PyText × PyText)}

/-- The keys of entries with a digest have an encoding, and so do their digests. -/
theorem encodable_of_digestEntries (digested : digestEntries host entries = .ok digest)
    {entry : PyText × PyText} (among : entry ∈ entries) :
    encodable entry.1 = true ∧ encodable entry.2 = true := by
  obtain ⟨bytes, encoded, -⟩ := digestEntries_eq_ok.mp digested
  have plain : encodable (digestPayload entries) = true := by
    rw [encodeUtf8] at encoded
    split at encoded
    · assumption
    · cases encoded
  rw [digestPayload, encodable_intercalate (by decide)] at plain
  have line := List.all_eq_true.mp plain _
    (List.mem_map_of_mem ((entries.mem_insertionSort Exchange.lineLe).mpr among))
  rw [encodable_append, Bool.and_eq_true] at line
  exact ⟨line.1, List.all_eq_true.mpr fun point inside =>
    List.all_eq_true.mp line.2 point (List.mem_cons_of_mem _ inside)⟩

theorem dumpable_entryDocument {entry : PyText × PyText} (key : encodable entry.1 = true)
    (digest : encodable entry.2 = true) : Json.dumpable true (entryDocument entry) = true := by
  simp only [entryDocument, Json.dumpable, Json.dumpableMembers, Json.readable,
    encodable_ofString, key, digest, Bool.or_true, Bool.and_true]

theorem dumpable_entries {items : List (PyText × PyText)}
    (plain : ∀ entry ∈ items, encodable entry.1 = true ∧ encodable entry.2 = true) :
    Json.dumpableItems true (items.map entryDocument) = true := by
  induction items with
  | nil => rfl
  | cons entry items ih =>
      obtain ⟨key, digest⟩ := plain entry List.mem_cons_self
      rw [List.map_cons, Json.dumpableItems, dumpable_entryDocument key digest,
        ih fun other among => plain other (List.mem_cons_of_mem _ among)]
      rfl

theorem dumpable_manifestDocument (digestPlain : encodable digest = true)
    (sourcePlain : encodable (flowsKey flow.sourceName) = true)
    (plain : ∀ entry ∈ entries, encodable entry.1 = true ∧ encodable entry.2 = true) :
    Json.dumpable true (manifestDocument flow metadata digest entries) = true := by
  have two : Json.isNatural (ofString "2") = true := by decide
  have sorted : Json.dumpableItems true
      ((entries.insertionSort Exchange.lineLe).map entryDocument) = true :=
    dumpable_entries fun entry among => plain entry ((entries.mem_insertionSort _).mp among)
  have digestRead : Json.readable true digest = true := digestPlain
  have sourceRead : Json.readable true (flowsKey flow.sourceName) = true := sourcePlain
  simp only [manifestDocument, Json.dumpable, Json.dumpableMembers, Json.readable_ofString, two,
    sorted, digestRead, sourceRead, Json.dumpableMembers_map_ofString, Bool.and_true]

/-- A hexadecimal text has an encoding. -/
theorem encodable_digest (content : List UInt8) :
    encodable (host.hash.digest content) = true := by
  have digits : Security.hexDigits.all (fun point => !isSurrogate point) = true := by decide
  exact List.all_eq_true.mpr fun point among =>
    List.all_eq_true.mp digits point (host.hash.hex content among)

end Document

/-! ## The files of a frozen bundle -/

/-- The file that stands at a place of a frozen bundle. -/
def FrozenBundle.fileAt (frozen : FrozenBundle) (place : List PyText) : Option DiskEntry :=
  (frozen.files.find? fun file => file.1 = place).map Prod.snd

theorem FrozenBundle.entry_directory {path place : List PyText}
    (plain : ∀ part ∈ path, 0 ∉ part) (placed : within path = some place) :
    frozen.directory.entry path = frozen.fileAt place := by
  have entry : frozen.directory.entry path =
      if ∀ part ∈ path, 0 ∉ part then (within path).bind frozen.fileAt else none := rfl
  rw [entry, if_pos plain, placed]
  rfl

theorem mem_of_mem_part {text part : PyText} {point : CodePoint} (among : part ∈ parts text)
    (inside : point ∈ part) : point ∈ text := by
  have whole : [slash].intercalate (text.splitOn slash) = text := List.intercalate_splitOn slash
  have split := (List.mem_filter.mp among).1
  rw [← whole]
  generalize text.splitOn slash = pieces at split
  induction pieces with
  | nil => cases split
  | cons piece pieces ih =>
      cases pieces with
      | nil =>
          rw [List.intercalate_singleton, ← List.mem_singleton.mp split]
          exact inside
      | cons next rest =>
          rw [List.intercalate_cons_cons]
          rcases List.mem_cons.mp split with rfl | later
          · exact List.mem_append_left _ (List.mem_append_left _ inside)
          · exact List.mem_append_right _ (ih later)

namespace Froze

variable (froze : Froze host flow tree metadata frozen refs copies)

include froze

/-- Each file of the bundle is a regular one of its own. -/
theorem fresh {place : List PyText} {found : DiskEntry}
    (stands : frozen.fileAt place = some found) :
    ∃ opened, found = { opened := some opened } := by
  obtain ⟨bytes, -, files⟩ := froze.files
  rw [FrozenBundle.fileAt, files] at stands
  obtain ⟨file, searched, rfl⟩ := Option.map_eq_some_iff.mp stands
  rcases List.mem_cons.mp (List.mem_of_find?_eq_some searched) with rfl | copied
  · exact ⟨_, rfl⟩
  · obtain ⟨copy, -, rfl⟩ := List.mem_map.mp (List.mem_reverse.mp copied)
    exact ⟨copy.opened, rfl⟩

/-- There is a file at the place of each copy. -/
theorem exists_file {copy : FrozenCopy} (among : copy ∈ copies) :
    ∃ found, frozen.fileAt copy.place = some found := by
  obtain ⟨bytes, -, files⟩ := froze.files
  have present : (frozen.files.find? fun file => file.1 = copy.place).isSome := by
    rw [List.find?_isSome]
    refine ⟨copy.file, ?_, decide_eq_true rfl⟩
    rw [files]
    exact List.mem_cons_of_mem _ (List.mem_reverse.mpr (List.mem_map_of_mem among))
  obtain ⟨file, searched⟩ := Option.isSome_iff_exists.mp present
  exact ⟨file.2, by rw [FrozenBundle.fileAt, searched]; rfl⟩

/-- The reference of a copy. -/
theorem exists_ref {copy : FrozenCopy} (among : copy ∈ copies) : ∃ ref ∈ refs,
    inspectSource ref.key ref.source = .ok copy.opened ∧ copy.key = ref.key ∧
      within (parts ref.key) = some copy.place := by
  obtain ⟨ref, member, made⟩ := exists_item_of_mapM froze.copied among
  exact ⟨ref, member, copyRef_eq_ok made⟩

/-- Where a copy is looked up. -/
theorem lookup_key {copy : FrozenCopy} (among : copy ∈ copies) :
    frozen.directory.lookup copy.key = frozen.fileAt copy.place ∧
      frozen.directory.contains copy.key = true := by
  obtain ⟨ref, member, inspected, key, placed⟩ := froze.exists_ref among
  have plain : 0 ∉ copy.key := (froze.listed.readable (copy.hashed host)
    (List.mem_map_of_mem among)).1
  have located : frozen.directory.locate copy.key = some (parts copy.key) := by
    rw [key]
    rcases (mem_refs_iff froze.referenced ref).mp member with
      ⟨text, -, rfl⟩ | ⟨-, -, -, -, -, path, -, rfl⟩
    · exact Directory.locate_relative (relative_flowsKey text)
    · exact Directory.locate_relative (relative_toolsKey path)
  rw [← key] at placed
  constructor
  · rw [Directory.lookup, located, Option.bind_some]
    exact FrozenBundle.entry_directory
      (fun part inside zero => plain (mem_of_mem_part inside zero)) placed
  · rw [Directory.contains, located]
    exact Option.isSome_of_eq_some placed

/-- The manifest that is read is the one that was written. -/
theorem readManifest_eq : readManifest host frozen.directory =
    .ok (manifestDocument flow metadata frozen.handle.bundleDigest
      (copies.map (FrozenCopy.hashed host))) := by
  obtain ⟨bytes, encoded, files⟩ := froze.files
  have stands : frozen.fileAt manifestPath = some { opened := some { content := bytes } } := by
    rw [FrozenBundle.fileAt, files, List.find?_cons]
    simp only [decide_true, Option.map_some]
  have entry : frozen.directory.entry manifestPath = frozen.fileAt manifestPath :=
    FrozenBundle.entry_directory (by decide) (by decide)
  have content : frozen.directory.contentAt manifestPath = some bytes := by
    rw [Directory.contentAt, entry, stands]
    rfl
  obtain ⟨source, -, listed⟩ := froze.listed.flowFile flow.sourceName List.mem_cons_self
  obtain ⟨payload, -, digest⟩ := digestEntries_eq_ok.mp froze.digest
  have fine : Json.dumpable true (manifestDocument flow metadata frozen.handle.bundleDigest
      (copies.map (FrozenCopy.hashed host))) = true := by
    apply dumpable_manifestDocument
    · rw [← digest]
      exact encodable_digest payload
    · exact (encodable_of_digestEntries froze.digest listed).1
    · exact fun entry among => encodable_of_digestEntries froze.digest among
  rw [readManifest, content, Option.bind_some, decodeUtf8_of_encodeUtf8 encoded]
  dsimp only
  rw [Json.loads_universalNewlines fine]
  exact if_pos host.isFormat_two

/-- A kept copy is read as it was written. -/
theorem content_key (kept : frozen.Kept flow tree) {copy : FrozenCopy} (among : copy ∈ copies) :
    frozen.directory.content copy.key = some copy.opened.content := by
  obtain ⟨ref, member, inspected, key, -⟩ := froze.exists_ref among
  rw [key]
  rcases (mem_refs_iff froze.referenced ref).mp member with
    ⟨text, file, rfl⟩ | ⟨name, tool, candidate, named, -, path, located, rfl⟩
  · rw [kept.files text file]
    exact content_of_inspect inspected
  · exact kept.launchers name tool candidate named path _ located (contentAt_of_inspect inspected)

/-- An unchanged bundle is loaded exactly when each copy is still in its place. -/
theorem load_unchanged_iff (collisionFree : Function.Injective host.hash.digest) :
    loadControlBundle host frozen.directory frozen.handle.bundleDigest = .ok frozen.handle ↔
      frozen.Kept flow tree := by
  constructor
  · intro loaded
    constructor
    · intro text among
      obtain ⟨content, present, before⟩ :=
        flowFile_of_load collisionFree froze.listed froze.digest loaded among
      rw [present, before]
    · intro name tool candidate named path content located present
      obtain ⟨found, opened, stands, -, reads, same⟩ := launcher_of_load collisionFree froze.listed
        froze.digest loaded tool named located present
      rw [Directory.content_relative (relative_toolsKey path),
        parts_toolsKey (Directory.isPart_of_locate located), Directory.contentAt, stands,
        Option.bind_some, reads, ← same]
      rfl
  · intro kept
    have sorted := copies.map (FrozenCopy.hashed host) |>.perm_insertionSort Exchange.lineLe
    have hashed : ((((copies.map (FrozenCopy.hashed host)).insertionSort Exchange.lineLe).map
        entryDocument).mapM (hashListed host frozen.directory)) =
          .ok ((copies.map (FrozenCopy.hashed host)).insertionSort Exchange.lineLe) := by
      apply mapM_eq_ok.mpr
      apply List.forall₂_map_left_iff.mpr
      apply List.forall₂_same.mpr
      intro entry among
      obtain ⟨copy, member, rfl⟩ := List.mem_map.mp (sorted.mem_iff.mp among)
      obtain ⟨found, stands⟩ := froze.exists_file member
      obtain ⟨opened, rfl⟩ := froze.fresh stands
      obtain ⟨lookup, inside⟩ := froze.lookup_key member
      have content := froze.content_key kept member
      rw [Directory.content_eq_lookup, lookup, stands] at content
      refine hashListed_eq_ok.mpr ⟨.string copy.key, rfl, inside, opened, ?_, ?_⟩
      · rw [keyText, lookup, stands]
        exact inspectSource_copy copy.key opened
      · exact congrArg (fun bytes => (copy.key, host.hash.digest bytes)) (Option.some.inj content)
    obtain ⟨source, -, listed⟩ := froze.listed.flowFile flow.sourceName List.mem_cons_self
    obtain ⟨copy, member, same⟩ := List.mem_map.mp listed
    have key : copy.key = flowsKey flow.sourceName := congrArg Prod.fst same
    refine load_eq_ok.mpr ⟨_, flowsKey flow.sourceName, _, _, froze.readManifest_eq, ?_, rfl, rfl,
      hashed, (digestEntries_of_perm sorted).trans froze.digest, ?_, ?_⟩
    · exact decide_eq_true rfl
    · rw [← key]
      exact (froze.lookup_key member).2
    · rw [← froze.flowSource]

/-- The file at the place of a copy is a copy with that place. -/
theorem exists_copy_at {copy : FrozenCopy} (among : copy ∈ copies)
    (apart : copy.place ≠ manifestPath) : ∃ other ∈ copies, other.place = copy.place ∧
      frozen.fileAt copy.place = some { opened := some other.opened } := by
  obtain ⟨found, stands⟩ := froze.exists_file among
  obtain ⟨bytes, -, files⟩ := froze.files
  rw [FrozenBundle.fileAt, files,
    List.find?_cons_of_neg fun same => apart (of_decide_eq_true same).symm] at stands ⊢
  obtain ⟨file, searched, rfl⟩ := Option.map_eq_some_iff.mp stands
  obtain ⟨other, member, rfl⟩ :=
    List.mem_map.mp (List.mem_reverse.mp (List.mem_of_find?_eq_some searched))
  have place := List.find?_some searched
  exact ⟨other, member, of_decide_eq_true place, stands⟩

/-- References whose keys have the same parts hold the same. -/
theorem content_eq_of_parts {first second : Ref} {opened other : Opened} (member : first ∈ refs)
    (memberOther : second ∈ refs) (inspected : inspectSource first.key first.source = .ok opened)
    (inspectedOther : inspectSource second.key second.source = .ok other)
    (same : parts first.key = parts second.key) : opened.content = other.content := by
  rcases (mem_refs_iff froze.referenced first).mp member with
    ⟨text, file, rfl⟩ | ⟨_, -, candidate, -, -, path, located, rfl⟩ <;>
  rcases (mem_refs_iff froze.referenced second).mp memberOther with
    ⟨text', file', rfl⟩ | ⟨_, -, candidate', -, -, path', located', rfl⟩
  · rw [parts_flowsKey, parts_flowsKey] at same
    have here := content_of_inspect inspected
    have there := content_of_inspect inspectedOther
    rw [Directory.content_relative (flow.relative file), (List.cons.inj same).2] at here
    rw [Directory.content_relative (flow.relative file')] at there
    exact Option.some.inj (here.symm.trans there)
  · rw [parts_flowsKey, parts_toolsKey (Directory.isPart_of_locate located')] at same
    exact absurd (List.cons.inj same).1 (by decide)
  · rw [parts_flowsKey, parts_toolsKey (Directory.isPart_of_locate located)] at same
    exact absurd (List.cons.inj same).1 (by decide)
  · rw [parts_toolsKey (Directory.isPart_of_locate located),
      parts_toolsKey (Directory.isPart_of_locate located')] at same
    cases (List.cons.inj same).2
    exact Option.some.inj
      ((contentAt_of_inspect inspected).symm.trans (contentAt_of_inspect inspectedOther))

end Froze

/-! ## Paths that do not go up -/

/-- No input is reached through a parent directory. -/
structure NoParents (flow : ControlFlow) (tree : ControlTree) : Prop where
  files : ∀ text ∈ flow.flowFiles, ofString ".." ∉ parts text
  launchers : ∀ name ∈ flow.toolNames, ∀ candidate ∈ tree.tools.candidateNames name,
    ∀ path ∈ tree.tools.dir.locate candidate, ofString ".." ∉ path

theorem foldlM_stepInto {path : List PyText} (plain : ofString ".." ∉ path) (here : List PyText) :
    path.foldlM stepInto here = some (here ++ path) := by
  induction path generalizing here with
  | nil => rw [List.foldlM_nil, List.append_nil]; rfl
  | cons part path ih =>
      have down : part ≠ ofString ".." := fun same => plain (same ▸ List.mem_cons_self)
      rw [List.foldlM_cons, stepInto, if_neg down]
      exact (ih (fun later => plain (List.mem_cons_of_mem _ later)) (here ++ [part])).trans
        (by rw [List.append_assoc, List.singleton_append])

/-- A path that does not go up is its own place. -/
theorem within_of_plain {path : List PyText} (plain : ofString ".." ∉ path) :
    within path = some path := foldlM_stepInto plain []

/-- No copy is overwritten when no path goes up. -/
theorem Froze.kept (froze : Froze host flow tree metadata frozen refs copies)
    (plain : NoParents flow tree) : frozen.Kept flow tree := by
  have keyPlain : ∀ ref ∈ refs, ∃ top ∈ [ofString "flows", ofString "tools"], ∃ rest,
      parts ref.key = top :: rest ∧ within (parts ref.key) = some (parts ref.key) := by
    intro ref member
    rcases (mem_refs_iff froze.referenced ref).mp member with
      ⟨text, file, rfl⟩ | ⟨name, tool, candidate, named, -, path, located, rfl⟩
    · refine ⟨ofString "flows", by decide, parts text, parts_flowsKey text, within_of_plain ?_⟩
      rw [parts_flowsKey]
      exact List.not_mem_cons_of_ne_of_not_mem (by decide) (plain.files text file)
    · have all := Directory.isPart_of_locate located
      refine ⟨ofString "tools", by decide, path, parts_toolsKey all, within_of_plain ?_⟩
      rw [parts_toolsKey all]
      exact List.not_mem_cons_of_ne_of_not_mem (by decide)
        (plain.launchers name tool candidate named path located)
  have stands : ∀ copy ∈ copies,
      frozen.directory.content copy.key = some copy.opened.content := by
    intro copy among
    obtain ⟨ref, member, inspected, key, placed⟩ := froze.exists_ref among
    obtain ⟨top, tops, rest, keyParts, ownPlace⟩ := keyPlain ref member
    have place : copy.place = parts ref.key := Option.some.inj (placed.symm.trans ownPlace)
    have apart : copy.place ≠ manifestPath := by
      rw [place, keyParts]
      intro same
      rw [(List.cons.inj same).1] at tops
      exact absurd tops (by decide)
    obtain ⟨other, otherAmong, samePlace, file⟩ := froze.exists_copy_at among apart
    obtain ⟨otherRef, otherMember, otherInspected, -, otherPlaced⟩ := froze.exists_ref otherAmong
    obtain ⟨-, -, -, -, otherOwn⟩ := keyPlain otherRef otherMember
    have sameParts : parts otherRef.key = parts ref.key := by
      rw [← place, ← samePlace]
      exact Option.some.inj (otherOwn.symm.trans otherPlaced)
    rw [Directory.content_eq_lookup, (froze.lookup_key among).1, file, Option.bind_some,
      Option.map_some, froze.content_eq_of_parts otherMember member otherInspected inspected
        sameParts]
  constructor
  · intro text file
    have member := (mem_refs_iff froze.referenced _).mpr (.inl ⟨text, file, rfl⟩)
    obtain ⟨copy, among, made⟩ := exists_result_of_mapM froze.copied member
    obtain ⟨inspected, key, -⟩ := copyRef_eq_ok made
    rw [content_of_inspect inspected, ← stands copy among, key]
  · intro name tool candidate named path content located present
    have file : tree.tools.isFile candidate = true := by
      rw [ToolRegistry.isFile, Directory.content, located, Option.bind_some, present]
      rfl
    have member := (mem_refs_iff froze.referenced _).mpr
      (.inr ⟨name, tool, candidate, named, file, path, located, rfl⟩)
    obtain ⟨copy, among, made⟩ := exists_result_of_mapM froze.copied member
    obtain ⟨inspected, key, -⟩ := copyRef_eq_ok made
    rw [← present, contentAt_of_inspect inspected, ← stands copy among, key]

end Orchestrator.Flow
