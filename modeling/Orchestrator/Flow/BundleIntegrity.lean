import Orchestrator.Flow.BundleSources

/-! # A loaded bundle is the frozen one

The digest in the state store fixes the listed files. What it does not fix is which file the
manifest names as the flow, and which unlisted launchers stand beside a tool.
-/

namespace Orchestrator.Flow

open Orchestrator.Foundation PyText PathParts Fallible

variable {host : BundleHost} {flow : ControlFlow} {tree : ControlTree}
  {metadata : List (String × String)} {frozen : FrozenBundle} {refs : List Ref}

/-- What an accepted freeze has read and written. -/
structure Froze (host : BundleHost) (flow : ControlFlow) (tree : ControlTree)
    (metadata : List (String × String)) (frozen : FrozenBundle) (refs : List Ref)
    (copies : List FrozenCopy) : Prop where
  referenced : referencedInputs flow tree = .ok refs
  copied : refs.mapM copyRef = .ok copies
  digest : digestEntries host (copies.map (FrozenCopy.hashed host)) =
    .ok frozen.handle.bundleDigest
  flowSource : frozen.handle.flowSource = flowsKey flow.sourceName
  files : ∃ bytes, encodeUtf8 (Json.dumps true (manifestDocument flow metadata
      frozen.handle.bundleDigest (copies.map (FrozenCopy.hashed host))) ++ [10]) = some bytes ∧
    frozen.files = (manifestPath, { opened := some { content := bytes } }) ::
      (copies.map FrozenCopy.file).reverse

theorem exists_froze (froze : freezeControlBundle host flow tree metadata = .ok frozen) :
    ∃ refs copies, Froze host flow tree metadata frozen refs copies := by
  rw [freezeControlBundle] at froze
  obtain ⟨refs, referenced, rest⟩ := bind_eq_ok.mp froze
  split at rest
  · obtain ⟨copies, copied, rest⟩ := bind_eq_ok.mp rest
    obtain ⟨digest, hashed, rest⟩ := bind_eq_ok.mp rest
    split at rest
    · cases rest
    · rename_i bytes encoded
      cases rest
      exact ⟨refs, copies, mapError_eq_ok.mp referenced, copied, hashed, rfl, bytes, encoded, rfl⟩
  · cases rest

theorem Froze.listed {copies : List FrozenCopy}
    (froze : Froze host flow tree metadata frozen refs copies) :
    Listed host flow tree (copies.map (FrozenCopy.hashed host)) :=
  listed_of_hashed froze.referenced (mapM_hashRef_of_copies froze.copied)

/-! ## Loading -/

variable {root : Directory} {expected : PyText} {handle : BundleHandle}

theorem hashListed_eq_ok {item : Json} {entry : PyText × PyText} :
    hashListed host root item = .ok entry ↔ ∃ value, item.get? "path" = some value ∧
      root.contains (keyText host value) = true ∧ ∃ opened,
        inspectSource (keyText host value) (root.lookup (keyText host value)) = .ok opened ∧
          (keyText host value, host.hash.digest opened.content) = entry := by
  rw [hashListed]
  cases item.get? "path" with
  | none => exact iff_of_false nofun fun ⟨_, same, _⟩ => nomatch same
  | some value =>
      dsimp only
      by_cases inside : root.contains (keyText host value) = true
      · rw [if_pos inside]
        constructor
        · intro hashed
          obtain ⟨opened, inspected, same⟩ := bind_eq_ok.mp hashed
          cases same
          exact ⟨value, rfl, inside, opened, inspected, rfl⟩
        · rintro ⟨_, ⟨⟩, -, opened, inspected, rfl⟩
          exact bind_eq_ok.mpr ⟨opened, inspected, rfl⟩
      · rw [if_neg inside]
        refine iff_of_false nofun ?_
        rintro ⟨_, ⟨⟩, within, -⟩
        exact inside within

/-- When a bundle is loaded. -/
theorem load_eq_ok :
    loadControlBundle host root expected = .ok handle ↔ ∃ manifest flowSource items entries,
      readManifest host root = .ok manifest ∧
      Memory.AuditLog.isText (manifest.get? "bundle_digest") expected = true ∧
      manifest.get? "flow_source" = some (.string flowSource) ∧
      manifest.get? "entries" = some (.array items) ∧
      items.mapM (hashListed host root) = .ok entries ∧
      digestEntries host entries = .ok expected ∧ root.contains flowSource = true ∧
      handle = { flowSource := flowSource, bundleDigest := expected } := by
  rw [loadControlBundle]
  constructor
  · intro loaded
    obtain ⟨manifest, read, rest⟩ := bind_eq_ok.mp loaded
    split at rest
    · rename_i recorded
      split at rest
      · rename_i flowSource items source list
        obtain ⟨entries, hashed, rest⟩ := bind_eq_ok.mp rest
        obtain ⟨digest, digested, rest⟩ := bind_eq_ok.mp rest
        split at rest
        · cases rest
        · rename_i same
          cases not_not.mp same
          split at rest
          · rename_i inside
            cases rest
            exact ⟨manifest, flowSource, items, entries, read, recorded, source, list, hashed,
              digested, inside, rfl⟩
          · cases rest
      · cases rest
    · cases rest
  · rintro ⟨manifest, flowSource, items, entries, read, recorded, source, list, hashed, digested,
      inside, rfl⟩
    refine bind_eq_ok.mpr ⟨manifest, read, ?_⟩
    rw [if_pos recorded, source, list]
    refine bind_eq_ok.mpr ⟨entries, hashed, bind_eq_ok.mpr ⟨expected, digested, ?_⟩⟩
    rw [if_neg (not_not.mpr rfl), if_pos inside]
    rfl

theorem readable_of_hashListed {items : List Json} {entries : List (PyText × PyText)}
    (hashed : items.mapM (hashListed host root) = .ok entries) : Readable entries := by
  intro entry among
  obtain ⟨item, -, made⟩ := exists_item_of_mapM hashed among
  obtain ⟨value, -, -, opened, inspected, rfl⟩ := hashListed_eq_ok.mp made
  obtain ⟨found, stands, -, -⟩ := inspectSource_eq_ok inspected
  exact ⟨Directory.zeroFree_of_lookup stands, lineFeed_notMem_digest _⟩

/-- Each entry of the digest that the state store holds is a file of the loaded bundle. -/
theorem inspected_of_load (collisionFree : Function.Injective host.hash.digest)
    {entries : List (PyText × PyText)} (plain : Readable entries)
    (digest : digestEntries host entries = .ok expected)
    (loaded : loadControlBundle host root expected = .ok handle) {key found : PyText}
    (among : (key, found) ∈ entries) :
    ∃ opened, inspectSource key (root.lookup key) = .ok opened ∧
      host.hash.digest opened.content = found := by
  obtain ⟨-, -, items, others, -, -, -, -, hashed, digested, -, -⟩ := load_eq_ok.mp loaded
  have same := (digestEntries_inj collisionFree plain (readable_of_hashListed hashed) digest
    digested).mp rfl
  obtain ⟨item, -, made⟩ := exists_item_of_mapM hashed (same.mem_iff.mpr among)
  obtain ⟨value, -, -, opened, inspected, pair⟩ := hashListed_eq_ok.mp made
  obtain ⟨keys, values⟩ := Prod.mk.inj pair
  cases keys
  exact ⟨opened, inspected, values⟩

theorem relative_flowsKey (text : PyText) : isAbsolute (flowsKey text) = false :=
  decide_eq_false (fun same : some (ofChar 'f') = some slash => absurd same (by decide))

theorem relative_toolsKey (path : List PyText) : isAbsolute (toolsKey path) = false :=
  decide_eq_false (fun same : some (ofChar 't') = some slash => absurd same (by decide))

/-! ## The consumers of a loaded bundle -/

/-- The bundle holds a file of the flow as it was frozen. -/
theorem flowFile_of_load (collisionFree : Function.Injective host.hash.digest)
    {entries : List (PyText × PyText)} (listed : Listed host flow tree entries)
    (digest : digestEntries host entries = .ok expected)
    (loaded : loadControlBundle host root expected = .ok handle) {text : PyText}
    (among : text ∈ flow.flowFiles) :
    ∃ content, root.content (flowsKey text) = some content ∧
      tree.flowDir.content text = some content := by
  obtain ⟨content, present, entry⟩ := listed.flowFile text among
  obtain ⟨opened, inspected, same⟩ :=
    inspected_of_load collisionFree listed.readable digest loaded entry
  cases collisionFree same
  exact ⟨opened.content, content_of_inspect inspected, present⟩

/-- The bundle holds a file of a launch set as it was frozen, and no link in its place. -/
theorem launcher_of_load (collisionFree : Function.Injective host.hash.digest)
    {entries : List (PyText × PyText)} (listed : Listed host flow tree entries)
    (digest : digestEntries host entries = .ok expected)
    (loaded : loadControlBundle host root expected = .ok handle) {name candidate : PyText}
    (tool : name ∈ flow.toolNames) (named : candidate ∈ tree.tools.candidateNames name)
    {path : List PyText} {content : List UInt8}
    (located : tree.tools.dir.locate candidate = some path)
    (present : tree.tools.dir.contentAt path = some content) :
    ∃ found opened, root.entry (ofString "tools" :: path) = some found ∧
      found.isSymlink = false ∧ found.opened = some opened ∧ opened.content = content := by
  obtain ⟨entry, -⟩ := listed.launcher name tool candidate named path content located present
  obtain ⟨opened, inspected, same⟩ :=
    inspected_of_load collisionFree listed.readable digest loaded entry
  obtain ⟨found, stands, noLink, reads⟩ := inspectSource_eq_ok inspected
  rw [Directory.lookup, Directory.locate_relative (relative_toolsKey path),
    parts_toolsKey (Directory.isPart_of_locate located)] at stands
  exact ⟨found, opened, stands, noLink, reads, collisionFree same⟩

/-- Two searches that each accept what the other finds have found the same. -/
theorem find?_agree {α : Type} {test other : α → Bool} {items : List α} {first second : α}
    (found : items.find? test = some first) (foundOther : items.find? other = some second)
    (accepted : test second = true) (acceptedOther : other first = true) : first = second := by
  induction items with
  | nil => cases found
  | cons item items ih =>
      by_cases here : test item = true
      · rw [List.find?_cons_of_pos here] at found
        cases found
        rw [List.find?_cons_of_pos acceptedOther] at foundOther
        exact Option.some.inj foundOther
      · by_cases there : other item = true
        · rw [List.find?_cons_of_pos there] at foundOther
          cases foundOther
          exact absurd accepted here
        · rw [List.find?_cons_of_neg here] at found
          rw [List.find?_cons_of_neg there] at foundOther
          exact ih found foundOther

/-- On Windows what can be launched is known from the name of a file. -/
theorem launchable_windows {registry : ToolRegistry} (windows : registry.windows = true)
    {candidate : PyText} {path : List PyText} {found : DiskEntry} {opened : Opened}
    (located : registry.dir.locate candidate = some path)
    (stands : registry.dir.entry path = some found) (noLink : found.isSymlink = false)
    (reads : found.opened = some opened) :
    registry.launchable candidate =
      decide (lower (suffix (fileName path)) ∈ windowsExecutableSuffixes) := by
  rw [ToolRegistry.launchable, located, Option.any_some, ToolRegistry.launchableAt, stands,
    Option.any_some, reads, Option.any_some, ToolRegistry.isExecutable, if_pos windows, noLink]
  rfl

/-- The candidates of a relative name are relative. -/
theorem relative_candidate {registry : ToolRegistry} {name candidate : PyText}
    (filled : name ≠ []) (relative : isAbsolute name = false)
    (named : candidate ∈ registry.candidateNames name) : isAbsolute candidate = false := by
  obtain ⟨point, rest, rfl⟩ := List.exists_cons_of_ne_nil filled
  rw [ToolRegistry.candidateNames] at named
  split at named
  · cases List.mem_singleton.mp named
    exact relative
  · rcases List.mem_cons.mp named with rfl | suffixed
    · exact relative
    · obtain ⟨ending, -, rfl⟩ := List.mem_map.mp suffixed
      exact relative

/-- A name that resolves in a bundle is relative. -/
theorem relative_of_resolve {bundle : BundleDir} {windows : Bool} {name candidate : PyText}
    (resolved : (bundle.tools windows).resolve name = .ok candidate) :
    name ≠ [] ∧ isAbsolute name = false := by
  obtain ⟨-, contained, filled⟩ := ToolRegistry.find?_of_resolve resolved
  refine ⟨fun empty => filled (by rw [empty]; rfl), ?_⟩
  by_contra absolute
  rw [Bool.not_eq_false] at absolute
  rw [Directory.contains, Directory.locate, if_pos absolute] at contained
  exact absurd contained Bool.false_ne_true

/-- A tool of the flow that resolves in a loaded bundle to a file that was frozen has the bytes of
the launcher that was frozen. -/
theorem frozen_launcher (collisionFree : Function.Injective host.hash.digest)
    {entries : List (PyText × PyText)} (listed : Listed host flow tree entries)
    (digest : digestEntries host entries = .ok expected) {bundle : BundleDir}
    (loaded : loadControlBundle host bundle.root expected = .ok handle)
    {name candidate launcher : PyText} (tool : name ∈ flow.toolNames)
    (resolved : (bundle.tools tree.tools.windows).resolve name = .ok candidate)
    (launched : tree.tools.resolve name = .ok launcher)
    (file : tree.tools.isFile candidate = true) :
    bundle.toolsDir.content candidate = tree.tools.dir.content launcher := by
  obtain ⟨filled, relative⟩ := relative_of_resolve resolved
  obtain ⟨here, -, -⟩ := ToolRegistry.find?_of_resolve resolved
  obtain ⟨there, -, -⟩ := ToolRegistry.find?_of_resolve launched
  have inBundle : ∀ other ∈ tree.tools.candidateNames name, tree.tools.isFile other = true →
      ∃ kept before opened, bundle.toolsDir.entry (parts other) = some kept ∧
        kept.isSymlink = false ∧ kept.opened = some opened ∧
        tree.tools.dir.entry (parts other) = some before ∧ before.isSymlink = false ∧
        before.opened.map Opened.content = some opened.content := by
    intro other named present
    have located : tree.tools.dir.locate other = some (parts other) :=
      Directory.locate_relative (relative_candidate filled relative named)
    rw [ToolRegistry.isFile, Directory.content, located, Option.bind_some] at present
    obtain ⟨content, reads⟩ := Option.isSome_iff_exists.mp present
    obtain ⟨kept, opened, stands, noLink, opens, same⟩ :=
      launcher_of_load collisionFree listed digest loaded tool named located reads
    obtain ⟨-, plain⟩ := listed.launcher name tool other named _ content located reads
    rw [Directory.contentAt] at reads
    cases before : tree.tools.dir.entry (parts other) with
    | none =>
        rw [before] at reads
        cases reads
    | some entry =>
        rw [before, Option.bind_some] at reads
        exact ⟨kept, entry, opened, stands, noLink, opens, rfl, plain entry before,
          by rw [reads, same]⟩
  have contents : ∀ other ∈ tree.tools.candidateNames name, tree.tools.isFile other = true →
      bundle.toolsDir.content other = tree.tools.dir.content other := by
    intro other named present
    obtain ⟨kept, before, opened, stands, -, opens, was, -, reads⟩ := inBundle other named present
    rw [Directory.content_relative (relative_candidate filled relative named),
      Directory.content_relative (relative_candidate filled relative named), Directory.contentAt,
      Directory.contentAt, stands, was, Option.bind_some, Option.bind_some, opens, reads]
    rfl
  have named : candidate ∈ tree.tools.candidateNames name := List.mem_of_find?_eq_some here
  have namedOther : launcher ∈ tree.tools.candidateNames name := List.mem_of_find?_eq_some there
  have fileOther : tree.tools.isFile launcher = true :=
    ToolRegistry.isFile_of_launchable (List.find?_some there)
  have same : candidate = launcher := by
    cases windows : tree.tools.windows with
    | false =>
        rw [ToolRegistry.candidateNames_posix windows] at named namedOther
        rw [List.mem_singleton.mp named, List.mem_singleton.mp namedOther]
    | true =>
        have agree : ∀ other ∈ tree.tools.candidateNames name, tree.tools.isFile other = true →
            (bundle.tools tree.tools.windows).launchable other = tree.tools.launchable other := by
          intro other among present
          obtain ⟨kept, before, opened, stands, noLink, opens, was, plain, reads⟩ :=
            inBundle other among present
          have relativeOther := relative_candidate filled relative among
          obtain ⟨first, firstReads, -⟩ := Option.map_eq_some_iff.mp reads
          rw [launchable_windows windows (Directory.locate_relative relativeOther) was plain
              firstReads,
            @launchable_windows (bundle.tools tree.tools.windows) windows _ _ _ _
              (Directory.locate_relative relativeOther) stands noLink opens]
        exact find?_agree here there
          ((agree launcher namedOther fileOther).trans (List.find?_some there))
          ((agree candidate named file).symm.trans (List.find?_some here))
  rw [contents candidate named file, same]

end Orchestrator.Flow
