import Orchestrator.Exchange.Seal

/-! # What a seal keeps

Sealing and restoring give the files back unless a root name folds to the manifest's or a
name has no encoding. At every step the live exchange or the new snapshot is complete.
-/

namespace Orchestrator.Exchange

open Orchestrator.Foundation
open Orchestrator.Foundation.PyText (ofString ofChar encodable encodeUtf8)
open Orchestrator.Foundation.Steps

/-! ## The recorded digest -/

section Document

variable {taskId : String} {metadata : List (String × String)} {sealNo : Nat} {digest : String}
  {entries : List ExchangeEntry}

theorem dumpable_entryDocument {entry : ExchangeEntry} (plain : encodable entry.relname = true) :
    Json.dumpable true (entryDocument entry) = true := by
  simp only [entryDocument, Json.dumpable, Json.dumpableMembers, Json.isNatural_naturalLiteral,
    Json.readable, plain, PyText.encodable_ofString, Bool.or_true, Bool.and_true]

theorem dumpableItems_map {items : List ExchangeEntry}
    (plain : ∀ entry ∈ items, encodable entry.relname = true) :
    Json.dumpableItems true (items.map entryDocument) = true := by
  induction items with
  | nil => rfl
  | cons entry items ih =>
      rw [List.map_cons, Json.dumpableItems,
        dumpable_entryDocument (plain entry List.mem_cons_self),
        ih fun other among => plain other (List.mem_cons_of_mem _ among)]
      rfl

theorem dumpable_manifestDocument (plain : ∀ entry ∈ entries, encodable entry.relname = true) :
    Json.dumpable true (manifestDocument taskId metadata sealNo (ofString digest) entries) =
      true := by
  have one : Json.isNatural (ofString "1") = true := by decide
  have sorted : Json.dumpableItems true
      ((entries.insertionSort fun first second => first.relname ≤ second.relname).map
        entryDocument) = true :=
    dumpableItems_map fun entry among =>
      plain entry ((List.perm_insertionSort _ _).mem_iff.mp among)
  simp only [manifestDocument, Json.dumpable, Json.dumpableMembers, Json.readable_ofString,
    Json.isNatural_naturalLiteral, one, sorted, Json.dumpableMembers_map_ofString, Bool.and_true]

theorem recordedDigest_manifestDocument :
    recordedDigest (manifestDocument taskId metadata sealNo (ofString digest) entries) =
      .ok (ofString digest) := rfl

/-- The manifest's bytes, and what is read from them. -/
theorem exists_manifest_bytes (plain : ∀ entry ∈ entries, encodable entry.relname = true) :
    ∃ bytes, encodeUtf8 (Json.dumps true
          (manifestDocument taskId metadata sealNo (ofString digest) entries) ++ [10]) =
        some bytes ∧
      ∀ sealed : ExchangeTree, sealed.read [manifestName] = some (.regular 1 [] bytes) →
        readManifestDigest sealed = .ok (ofString digest) := by
  let document := manifestDocument taskId metadata sealNo (ofString digest) entries
  have fine : Json.dumpable true document = true := dumpable_manifestDocument plain
  have written : encodable (Json.dumps true document ++ [10]) = true := by
    rw [PyText.encodable_append, Json.encodable_dumps_ascii fine]
    rfl
  have encoded : encodeUtf8 (Json.dumps true document ++ [10]) = some _ := if_pos written
  refine ⟨_, encoded, fun sealed present => ?_⟩
  rw [readManifestDigest, present]
  dsimp only
  rw [PyText.decodeUtf8_of_encodeUtf8 encoded]
  dsimp only
  rw [Json.loads_universalNewlines fine]
  exact recordedDigest_manifestDocument

end Document

/-! ## The latest snapshot -/

theorem latestSeal_le {seals : List Snapshot} {best : Option Snapshot} {highest : Nat}
    (bounded : ∀ snapshot ∈ best, snapshot.1 ≤ highest) {found : Snapshot}
    (latest : found ∈ seals.foldl (fun best snapshot =>
      match best with
      | none => some snapshot
      | some found => if found.1 < snapshot.1 then some snapshot else some found) best) :
    found.1 ≤ seals.foldl (fun highest snapshot => max highest snapshot.1) highest := by
  induction seals generalizing best highest with
  | nil => exact bounded found latest
  | cons snapshot seals ih =>
      rw [List.foldl_cons] at latest ⊢
      refine ih (fun other among => ?_) latest
      cases best with
      | none =>
          cases among
          exact Nat.le_max_right _ _
      | some kept =>
          dsimp only at among
          split at among
          · cases among
            exact Nat.le_max_right _ _
          · cases among
            exact Nat.le_trans (bounded _ rfl) (Nat.le_max_left _ _)

/-- The snapshot of the next number is the latest. -/
theorem latestSeal_append (seals : List Snapshot) (sealed : ExchangeTree) :
    latestSeal (seals ++ [(nextIndex seals, sealed)]) = some (nextIndex seals, sealed) := by
  rw [latestSeal, List.foldl_append]
  cases before : seals.foldl (fun best snapshot =>
      match best with
      | none => some snapshot
      | some found => if found.1 < snapshot.1 then some snapshot else some found) none with
  | none => rfl
  | some found =>
      have nothing : ∀ snapshot ∈ (none : Option Snapshot), snapshot.1 ≤ 0 := fun _ among => by
        cases among
      have bound := latestSeal_le nothing before
      have below : found.1 < nextIndex seals := Nat.lt_succ_of_le bound
      exact if_pos below

/-! ## Copies -/

section Copies

variable {fold : PyText → PyText} {sha256 : List UInt8 → String} {kept : World → Prop}
  {source : ExchangeTree} {place : ExchangeTree → World → World}

theorem regular_bytes_of_clean {leaf : Leaf} (clean : leaf.clean = true) :
    Leaf.regular 1 [] leaf.bytes = leaf := by
  cases leaf with
  | symlink => cases clean
  | special => cases clean
  | regular linkCount altStreams bytes =>
      rw [Leaf.clean, Bool.and_eq_true, decide_eq_true_eq, List.isEmpty_iff] at clean
      rw [clean.1, clean.2]
      rfl

theorem inspectFrozenSource_of_read {path : List PyText} {leaf : Leaf}
    (present : source.read path = some leaf) (clean : leaf.clean = true) :
    inspectFrozenSource source path = .ok leaf := by
  rw [inspectFrozenSource, present]
  dsimp only
  rw [inspectLeaf_eq_ok.mpr clean]
  rfl

/-- Copying clean files that are there writes them all. -/
theorem ends_copyEntries {world : World}
    (again : ∀ first second : ExchangeTree, place second (place first world) = place second world)
    (keeps : ∀ tree, kept (place tree world)) {files : List (List PyText × Leaf)}
    (present : ∀ file ∈ files, source.read file.1 = some file.2 ∧ file.2.clean = true)
    {dest result : ExchangeTree} (written : FileTree.writeAll files dest = some result) :
    Ends kept (copyEntries source place
        (files.map fun file => entryAt sha256 file.1 file.2) dest) (place dest world)
      fun value final => value = result ∧ final = place result world := by
  induction files generalizing dest with
  | nil =>
      cases written
      exact ends_pure ⟨rfl, rfl⟩
  | cons file files ih =>
      obtain ⟨path, leaf⟩ := file
      obtain ⟨there, clean⟩ := present _ List.mem_cons_self
      rw [FileTree.writeAll] at written
      obtain ⟨changed, one, rest⟩ := Option.bind_eq_some_iff.mp written
      have inspected : inspectFrozenSource source (entryAt sha256 path leaf).path = .ok leaf :=
        inspectFrozenSource_of_read there clean
      rw [List.map_cons, copyEntries, inspected]
      refine ends_bind (ends_ofExcept ?_)
      rw [regular_bytes_of_clean clean]
      have writes : dest.write leaf (entryAt sha256 path leaf).path = some changed := one
      rw [writes]
      dsimp only
      refine ends_bind (ends_perform ?_ ?_)
      · rw [again]
        exact keeps changed
      · rw [again]
        exact ih (fun other among => present other (List.mem_cons_of_mem _ among)) rest

/-- A verified copy of the files of an accepted tree is that tree without its empty directories. -/
theorem ends_copyTreeVerified {world : World} {tree : ExchangeTree} {digest : PyText}
    (again : ∀ first second : ExchangeTree, place second (place first world) = place second world)
    (keeps : ∀ tree, kept (place tree world)) (apart : Apart fold [] tree) (clean : Clean tree)
    (present : ∀ file ∈ tree.files, source.read file.1 = some file.2)
    (digested : manifestDigest sha256
      (tree.files.map fun file => entryAt sha256 file.1 file.2) = .ok digest) :
    Ends kept (copyTreeVerified fold sha256
        (tree.files.map fun file => entryAt sha256 file.1 file.2) source place) (place .empty world)
      fun value final => value = tree.prune ∧ final = place tree.prune world := by
  have written : FileTree.writeAll tree.files .empty = some tree.prune := by
    have all := FileTree.writeAll_files (distinct_of_apart apart) .empty
      fun _ _ => List.not_mem_nil
    exact all
  have built : buildExchangeManifest fold sha256 tree.prune =
      .ok (tree.files.map fun file => entryAt sha256 file.1 file.2) := by
    refine (buildExchangeManifest_eq_ok fold sha256).mpr
      ⟨apart_prune apart fun _ among => among, ?_, ?_⟩
    · intro file among
      rw [FileTree.files_prune] at among
      exact clean file among
    · rw [FileTree.files_prune]
  refine ends_bind ((ends_copyEntries again keeps
    (fun file among => ⟨present file among, clean file among⟩) written).mono ?_)
  rintro value final ⟨rfl, rfl⟩
  rw [built]
  refine ends_bind (ends_ofExcept ?_)
  rw [digested]
  refine ends_bind (ends_ofExcept (ends_bind (ends_ofExcept ?_)))
  rw [if_pos rfl]
  exact ends_pure ⟨rfl, rfl⟩

end Copies

/-! ## Sealing -/

section Sealing

variable {fold : PyText → PyText} {sha256 : List UInt8 → String}

/-- A world holds the files of a tree: in the live exchange, or in the latest snapshot, which passes
its verification. -/
def CompleteCopy (fold : PyText → PyText) (sha256 : List UInt8 → String) (tree : ExchangeTree)
    (world : World) : Prop :=
  world.live = some tree ∨
    ∃ snapshot, latestSeal world.seals = some snapshot ∧
      (∃ content, verifiedContent fold sha256 snapshot.2 = .ok content) ∧
        (snapshot.2.files.filter fun file => joinPath file.1 ≠ manifestName) = tree.files

/-- Names that can be sealed: encodable, and at the root none that folds to the manifest's. -/
def Sealable (fold : PyText → PyText) (tree : ExchangeTree) : Prop :=
  ∀ file ∈ tree.files, encodable (joinPath file.1) = true ∧
    ∀ name ∈ file.1.head?, fold name ≠ fold manifestName

theorem notMem_manifestName : ofChar '/' ∉ manifestName := by decide

/-- A path that starts with another name is not the manifest's. -/
theorem joinPath_ne {path : List PyText} (named : path ≠ [])
    (other : ∀ name ∈ path.head?, name ≠ manifestName) : joinPath path ≠ manifestName := by
  obtain ⟨first, rest, rfl⟩ := List.exists_cons_of_ne_nil named
  cases rest with
  | nil =>
      rw [joinPath, List.intercalate_singleton]
      exact other first rfl
  | cons second rest =>
      intro same
      apply notMem_manifestName
      rw [← same, joinPath, List.intercalate_cons_cons]
      exact List.mem_append_left _ (List.mem_append_right _ List.mem_cons_self)

/-- In a pruned tree every name is that of a file or of a directory that holds one. -/
theorem exists_file_of_mem_names {tree : ExchangeTree} {name : PyText}
    (among : name ∈ tree.prune.names) : ∃ file ∈ tree.files, file.1.head? = some name := by
  induction tree with
  | empty => cases among
  | file other leaf rest ih =>
      rcases List.mem_cons.mp among with rfl | later
      · exact ⟨_, List.mem_cons_self, rfl⟩
      · obtain ⟨file, member, head⟩ := ih later
        exact ⟨file, List.mem_cons_of_mem _ member, head⟩
  | dir other children rest _ ih =>
      have beside : name ∈ rest.prune.names →
          ∃ file ∈ (FileTree.dir other children rest).files, file.1.head? = some name :=
            fun later => by
        obtain ⟨file, member, head⟩ := ih later
        exact ⟨file, List.mem_append_right _ member, head⟩
      rw [FileTree.prune] at among
      by_cases holds : children.files = []
      · rw [FileTree.prune_eq_empty holds] at among
        exact beside among
      · obtain ⟨inner, member⟩ := List.exists_mem_of_ne_nil _ holds
        have inside : ∃ file ∈ (FileTree.dir other children rest).files,
            file.1.head? = some other :=
          ⟨_, List.mem_append_left _ (List.mem_map.mpr ⟨inner, member, rfl⟩), rfl⟩
        cases pruned : children.prune with
        | empty =>
            rw [pruned] at among
            exact beside among
        | file first leaf others =>
            rw [pruned] at among
            rcases List.mem_cons.mp among with rfl | later
            · exact inside
            · exact beside later
        | dir first below others =>
            rw [pruned] at among
            rcases List.mem_cons.mp among with rfl | later
            · exact inside
            · exact beside later

section Sealed

variable {tree : ExchangeTree} {bytes : List UInt8} (apart : Apart fold [] tree)
  (clean : Clean tree) (sealable : Sealable fold tree)
include sealable

theorem fold_ne_of_mem_names {name : PyText} (among : name ∈ tree.prune.names) :
    fold name ≠ fold manifestName := by
  obtain ⟨file, member, head⟩ := exists_file_of_mem_names among
  exact (sealable file member).2 name head

/-- The manifest goes beside the files. -/
theorem write_manifest :
    tree.prune.write (.regular 1 [] bytes) [manifestName] =
      some (tree.prune.append (.file manifestName (.regular 1 [] bytes) .empty)) := by
  have fresh : manifestName ∉ tree.prune.names := fun among =>
    fold_ne_of_mem_names sealable among rfl
  exact FileTree.write_of_notMem fresh []

theorem joinPath_ne_of_mem_files {file : List PyText × Leaf} (among : file ∈ tree.files) :
    joinPath file.1 ≠ manifestName :=
  joinPath_ne (FileTree.path_ne_nil among) fun name head same =>
    (sealable file among).2 name head (congrArg fold same)

theorem filter_files_sealed :
    ((tree.prune.append (.file manifestName (.regular 1 [] bytes) .empty)).files.filter
      fun file => joinPath file.1 ≠ manifestName) = tree.files := by
  have itself : joinPath [manifestName] = manifestName := List.intercalate_singleton
  rw [FileTree.files_append, FileTree.files_prune, FileTree.files, FileTree.files,
    List.filter_append, List.filter_eq_self.mpr fun file among =>
      decide_eq_true (joinPath_ne_of_mem_files sealable among)]
  simp only [List.filter_cons, itself, ne_eq, not_true_eq_false, decide_false, List.filter_nil,
    Bool.false_eq_true, if_false, List.append_nil]

include apart clean

/-- A snapshot verifies and holds the files it was made of. -/
theorem verifiedContent_sealed {digest : String}
    (digested : manifestDigest sha256
      (tree.files.map fun file => entryAt sha256 file.1 file.2) = .ok (ofString digest))
    (readable : ∀ sealed : ExchangeTree,
      sealed.read [manifestName] = some (.regular 1 [] bytes) →
        readManifestDigest sealed = .ok (ofString digest)) :
    verifiedContent fold sha256
        (tree.prune.append (.file manifestName (.regular 1 [] bytes) .empty)) =
      .ok (ofString digest, tree.files.map fun file => entryAt sha256 file.1 file.2) := by
  have whole :
      Apart fold [] (tree.prune.append (.file manifestName (.regular 1 [] bytes) .empty)) :=
    apart_append_file.mpr ⟨apart_prune apart fun _ among => among, List.not_mem_nil,
      fun other among => fold_ne_of_mem_names sealable among⟩
  have listed : ([manifestName], Leaf.regular 1 [] bytes) ∈
      (tree.prune.append (.file manifestName (.regular 1 [] bytes) .empty)).files := by
    rw [FileTree.files_append]
    exact List.mem_append_right _ List.mem_cons_self
  have manifest := readable _ (FileTree.read_of_mem_files (distinct_of_apart whole) listed)
  have cleanWhole :
      Clean (tree.prune.append (.file manifestName (.regular 1 [] bytes) .empty)) := by
    intro file among
    rw [FileTree.files_append, FileTree.files_prune] at among
    rcases List.mem_append.mp among with old | new
    · exact clean file old
    · rw [List.mem_singleton.mp new]
      rfl
  have content : ((tree.prune.append
        (.file manifestName (.regular 1 [] bytes) .empty)).files.map
          fun file => entryAt sha256 file.1 file.2).filter
        (fun entry => entry.relname ≠ manifestName) =
      tree.files.map fun file => entryAt sha256 file.1 file.2 := by
    rw [List.filter_map]
    exact congrArg _ (filter_files_sealed sealable)
  rw [verifiedContent, manifest,
    (buildExchangeManifest_eq_ok fold sha256).mpr ⟨whole, cleanWhole, rfl⟩]
  show Except.bind (manifestDigest sha256 (List.filter _ _)) _ = _
  rw [content, digested]
  exact if_pos rfl

end Sealed

theorem stage_removeStaging (tree : ExchangeTree) (world : World) :
    stage tree ((removeStaging world).getLast?.getD world) = stage tree world := by
  unfold removeStaging
  cases staged : world.staging with
  | none => rfl
  | some old =>
      dsimp only
      rw [List.getLast?_append_of_ne_nil _ (List.cons_ne_nil _ _)]
      rfl

theorem prepare_removeRestoring (tree : ExchangeTree) (world : World) :
    prepare tree ((removeRestoring world).getLast?.getD world) = prepare tree world := by
  unfold removeRestoring
  cases prepared : world.restoring with
  | none => rfl
  | some old =>
      dsimp only
      rw [List.getLast?_append_of_ne_nil _ (List.cons_ne_nil _ _)]
      rfl

theorem live_of_mem_removeStaging {world state : World} (among : state ∈ removeStaging world) :
    state.live = world.live := by
  unfold removeStaging at among
  cases staged : world.staging with
  | none =>
      rw [staged] at among
      cases among
  | some old =>
      rw [staged] at among
      rcases List.mem_append.mp among with inside | last
      · obtain ⟨left, -, rfl⟩ := List.mem_map.mp inside
        rfl
      · rw [List.mem_singleton.mp last]

theorem seals_of_mem_removeLive {world state : World} (among : state ∈ removeLive world) :
    state.seals = world.seals := by
  unfold removeLive at among
  cases alive : world.live with
  | none =>
      rw [alive] at among
      cases among
  | some old =>
      rw [alive] at among
      rcases List.mem_append.mp among with inside | last
      · obtain ⟨left, -, rfl⟩ := List.mem_map.mp inside
        rfl
      · rw [List.mem_singleton.mp last]

theorem removeLive_last {world : World} {tree : ExchangeTree} (live : world.live = some tree) :
    (removeLive world).getLast?.getD world = { world with live := none } := by
  rw [removeLive, live]
  dsimp only
  rw [List.getLast?_append_of_ne_nil _ (List.cons_ne_nil _ _)]
  rfl

/-- The world after a seal. -/
def sealedWorld (world : World) (sealed : ExchangeTree) : World :=
  { world with
    live := none
    staging := none
    seals := world.seals ++ [(nextIndex world.seals, sealed)] }

/-- The snapshot of a tree: its files, and the manifest of a digest. -/
structure Snapshots (sha256 : List UInt8 → String) (tree sealed : ExchangeTree)
    (digest : String) (bytes : List UInt8) : Prop where
  shape : sealed = tree.prune.append (.file manifestName (.regular 1 [] bytes) .empty)
  digested : manifestDigest sha256
    (tree.files.map fun file => entryAt sha256 file.1 file.2) = .ok (ofString digest)
  recorded : ∀ other : ExchangeTree, other.read [manifestName] = some (.regular 1 [] bytes) →
    readManifestDigest other = .ok (ofString digest)

theorem exists_digest {tree : ExchangeTree} (sealable : Sealable fold tree) :
    ∃ digest, manifestDigest sha256 (tree.files.map fun file => entryAt sha256 file.1 file.2) =
      .ok (ofString digest) := by
  refine digestEntries_of_encodable sha256 fun line among => ?_
  obtain ⟨entry, member, rfl⟩ := List.mem_map.mp among
  obtain ⟨file, listed, rfl⟩ := List.mem_map.mp member
  exact ⟨(sealable file listed).1, PyText.encodable_ofString _⟩

/-- Sealing ends with a new snapshot, and a complete copy is there at every step. -/
theorem ends_sealExchange {tree : ExchangeTree} {world : World} (apart : Apart fold [] tree)
    (clean : Clean tree) (sealable : Sealable fold tree) (live : world.live = some tree)
    (taskId : String) (metadata : List (String × String)) :
    Ends (CompleteCopy fold sha256 tree) (sealExchange fold sha256 taskId metadata) world
      fun value final => ∃ result sealed digest bytes, value = some result ∧
        final = sealedWorld world sealed ∧ Snapshots sha256 tree sealed digest bytes := by
  have built : buildExchangeManifest fold sha256 tree =
      .ok (tree.files.map fun file => entryAt sha256 file.1 file.2) :=
    (buildExchangeManifest_eq_ok fold sha256).mpr ⟨apart, clean, rfl⟩
  obtain ⟨digest, digested⟩ := @exists_digest fold sha256 tree sealable
  have encodableNames : ∀ entry ∈ tree.files.map fun file => entryAt sha256 file.1 file.2,
      encodable entry.relname = true := by
    intro entry among
    obtain ⟨file, listed, rfl⟩ := List.mem_map.mp among
    exact (sealable file listed).1
  obtain ⟨bytes, written, recorded⟩ :=
    @exists_manifest_bytes taskId metadata (nextIndex world.seals) digest _ encodableNames
  have snapshots : Snapshots sha256 tree _ digest bytes := ⟨rfl, digested, recorded⟩
  have staged : ∀ other : ExchangeTree, CompleteCopy fold sha256 tree (stage other world) :=
    fun other => .inl live
  refine ends_bind (ends_current ?_)
  rw [live]
  dsimp only
  rw [built]
  refine ends_bind (ends_ofExcept (ends_bind (ends_performAll ?_ ?_)))
  · intro state among
    exact .inl ((live_of_mem_removeStaging among).trans live)
  refine ends_bind (ends_perform ?_ ?_)
  · rw [stage_removeStaging]
    exact staged .empty
  rw [stage_removeStaging]
  refine ends_bind ((ends_copyTreeVerified (fun _ _ => rfl) staged apart clean
    (fun file among => FileTree.read_of_mem_files (distinct_of_apart apart) among)
    digested).mono ?_)
  rintro copied final ⟨rfl, rfl⟩
  refine ends_bind ?_
  rw [writeManifest, digested]
  refine ends_bind (ends_ofExcept ?_)
  dsimp only
  rw [written]
  dsimp only
  rw [write_manifest sealable]
  dsimp only
  refine ends_bind (ends_perform (staged _) (ends_pure ?_))
  dsimp only
  refine ends_bind (ends_perform (.inl live) (ends_bind (ends_performAll ?_ (ends_pure ?_))))
  · intro state among
    right
    refine ⟨(nextIndex world.seals,
      tree.prune.append (.file manifestName (.regular 1 [] bytes) .empty)), ?_, ?_, ?_⟩
    · rw [seals_of_mem_removeLive among]
      exact latestSeal_append world.seals _
    · exact ⟨_, verifiedContent_sealed apart clean sealable digested recorded⟩
    · exact filter_files_sealed sealable
  · refine ⟨_, _, digest, bytes, rfl, ?_, snapshots⟩
    apply removeLive_last
    exact live

/-- A snapshot is restored with the files it was made of. -/
theorem ends_restoreForContinue {tree sealed : ExchangeTree} {world : World} {digest : String}
    {bytes : List UInt8} (apart : Apart fold [] tree) (clean : Clean tree)
    (sealable : Sealable fold tree) (snapshots : Snapshots sha256 tree sealed digest bytes) :
    Ends (fun _ => True) (restoreForContinue fold sha256) (sealedWorld world sealed)
      fun _ final => final.live = some tree.prune := by
  obtain ⟨rfl, digested, recorded⟩ := snapshots
  have built : buildExchangeManifest fold sha256 tree.prune =
      .ok (tree.files.map fun file => entryAt sha256 file.1 file.2) := by
    refine (buildExchangeManifest_eq_ok fold sha256).mpr
      ⟨apart_prune apart fun _ among => among, fun file among => ?_, ?_⟩
    · rw [FileTree.files_prune] at among
      exact clean file among
    · rw [FileTree.files_prune]
  have whole :
      Apart fold [] (tree.prune.append (.file manifestName (.regular 1 [] bytes) .empty)) :=
    apart_append_file.mpr ⟨apart_prune apart fun _ among => among, List.not_mem_nil,
      fun other among => fold_ne_of_mem_names sealable among⟩
  refine ends_bind (ends_current ?_)
  have latest : latestSeal (sealedWorld world _).seals = some (nextIndex world.seals,
      tree.prune.append (.file manifestName (.regular 1 [] bytes) .empty)) :=
    latestSeal_append world.seals _
  rw [latest]
  dsimp only
  rw [verifiedContent_sealed apart clean sealable digested recorded]
  refine ends_bind (ends_ofExcept ?_)
  dsimp only
  rw [if_neg fun alive => by cases alive]
  refine ends_bind (ends_performAll (fun _ _ => trivial) (ends_bind (ends_perform trivial ?_)))
  rw [prepare_removeRestoring]
  refine ends_bind ((ends_copyTreeVerified (fun _ _ => rfl) (fun _ => trivial) apart clean
    (fun file among => ?_) digested).mono ?_)
  · apply FileTree.read_of_mem_files (distinct_of_apart whole)
    rw [FileTree.files_append, FileTree.files_prune]
    exact List.mem_append_left _ among
  rintro copied final ⟨rfl, rfl⟩
  refine ends_bind (ends_perform trivial ?_)
  rw [built]
  refine ends_bind (ends_ofExcept ?_)
  rw [digested]
  refine ends_bind (ends_ofExcept ?_)
  rw [if_pos rfl]
  exact ends_pure rfl

/-! ## Seals and restores that end -/

/-- A copy holds only files of its entries. -/
theorem of_copyEntries_ok {source : ExchangeTree} {place : ExchangeTree → World → World}
    {entries : List ExchangeEntry} {dest copied : ExchangeTree} {start final : World}
    (result : (copyEntries source place entries dest start).2 = .ok (copied, final))
    {file : List PyText × Leaf} (among : file ∈ copied.files) :
    file ∈ dest.files ∨ ∃ entry ∈ entries, file.1 = entry.path := by
  induction entries generalizing dest start with
  | nil =>
      cases result
      exact .inl among
  | cons entry entries ih =>
      obtain ⟨leaf, inspected, -, rest⟩ := of_result_bind result
      cases written : dest.write (.regular 1 [] leaf.bytes) entry.path with
      | none =>
          rw [written] at rest
          cases rest
      | some changed =>
          rw [written] at rest
          obtain ⟨_, placed, -, rest⟩ := of_result_bind rest
          rcases ih rest with old | ⟨later, member, path⟩
          · rcases FileTree.mem_files_write written old with before | here
            · exact .inl before
            · exact .inr ⟨entry, List.mem_cons_self, here⟩
          · exact .inr ⟨later, List.mem_cons_of_mem _ member, path⟩

theorem of_copyTreeVerified_ok {entries : List ExchangeEntry} {source copied : ExchangeTree}
    {place : ExchangeTree → World → World} {start final : World}
    (result : (copyTreeVerified fold sha256 entries source place start).2 = .ok (copied, final)) :
    ∃ state, (copyEntries source place entries .empty start).2 = .ok (copied, state) := by
  obtain ⟨found, state, made, rest⟩ := of_result_bind result
  obtain ⟨verified, _, -, rest⟩ := of_result_bind rest
  obtain ⟨digest, _, -, rest⟩ := of_result_bind rest
  obtain ⟨expected, _, -, rest⟩ := of_result_bind rest
  by_cases same : digest = expected
  · rw [if_pos same] at rest
    cases rest
    exact ⟨state, made⟩
  · rw [if_neg same] at rest
    cases rest

/-- A verified snapshot is accepted, and its content leaves the manifest out. -/
theorem of_verifiedContent_ok {sealed : ExchangeTree} {recorded : PyText}
    {content : List ExchangeEntry}
    (verified : verifiedContent fold sha256 sealed = .ok (recorded, content)) :
    Apart fold [] sealed ∧ ∀ entry ∈ content, entry.relname ≠ manifestName := by
  obtain ⟨digest, -, rest⟩ := Fallible.bind_eq_ok.mp verified
  obtain ⟨entries, built, rest⟩ := Fallible.bind_eq_ok.mp rest
  obtain ⟨found, -, rest⟩ := Fallible.bind_eq_ok.mp rest
  refine ⟨((buildExchangeManifest_eq_ok fold sha256).mp built).1, fun entry among => ?_⟩
  by_cases same : found = digest
  · rw [if_pos same] at rest
    cases rest
    exact of_decide_eq_true (List.mem_filter.mp among).2
  · rw [if_neg same] at rest
    cases rest

/-- A restore that ends verified the latest snapshot and holds only its content. -/
theorem of_restoreForContinue_ok {sealed : ExchangeTree} {world final : World} {digest : PyText}
    (result : (restoreForContinue fold sha256 (sealedWorld world sealed)).2 =
      .ok (digest, final)) :
    ∃ recorded content copied, verifiedContent fold sha256 sealed = .ok (recorded, content) ∧
      final.live = some copied ∧
        ∀ file ∈ copied.files, ∃ entry ∈ content, file.1 = entry.path := by
  obtain ⟨_, _, started, rest⟩ := of_result_bind result
  obtain ⟨here, unchanged⟩ := of_result_current started
  rw [here, unchanged] at rest
  have latest : latestSeal (sealedWorld world sealed).seals =
      some (nextIndex world.seals, sealed) := latestSeal_append world.seals sealed
  rw [latest] at rest
  obtain ⟨⟨recorded, content⟩, _, verified, rest⟩ := of_result_bind rest
  obtain ⟨accepted, rfl⟩ := of_result_ofExcept verified
  dsimp only at rest
  rw [if_neg fun alive => by cases alive] at rest
  obtain ⟨_, _, -, rest⟩ := of_result_bind rest
  obtain ⟨_, _, -, rest⟩ := of_result_bind rest
  obtain ⟨copied, state, copies, rest⟩ := of_result_bind rest
  obtain ⟨_, restored, promoted, rest⟩ := of_result_bind rest
  cases promoted
  obtain ⟨_, _, checked, rest⟩ := of_result_bind rest
  obtain ⟨-, rfl⟩ := of_result_ofExcept checked
  obtain ⟨found, _, checked, rest⟩ := of_result_bind rest
  obtain ⟨-, rfl⟩ := of_result_ofExcept checked
  have ended : final.live = some copied := by
    by_cases same : found = recorded
    · rw [if_pos same] at rest
      cases rest
      rfl
    · rw [if_neg same] at rest
      cases rest
  refine ⟨recorded, content, copied, accepted, ended, fun file among => ?_⟩
  obtain ⟨_, made⟩ := of_copyTreeVerified_ok copies
  exact (of_copyEntries_ok made among).resolve_left List.not_mem_nil

theorem of_writeManifest_ok {taskId : String} {metadata : List (String × String)} {sealNo : Nat}
    {entries : List ExchangeEntry} {copied sealed : ExchangeTree} {digest : PyText}
    {start final : World}
    (result : (writeManifest sha256 taskId metadata sealNo entries copied start).2 =
      .ok ((digest, sealed), final)) :
    manifestDigest sha256 entries = .ok digest ∧
      ∃ bytes, copied.write (.regular 1 [] bytes) [manifestName] = some sealed ∧
        final = stage sealed start := by
  obtain ⟨found, _, hashed, rest⟩ := of_result_bind result
  obtain ⟨digested, unchanged⟩ := of_result_ofExcept hashed
  rw [unchanged] at rest
  dsimp only at rest
  cases encoded : encodeUtf8 (Json.dumps true
      (manifestDocument taskId metadata sealNo found entries) ++ [10]) with
  | none =>
      rw [encoded] at rest
      cases rest
  | some bytes =>
      rw [encoded] at rest
      dsimp only at rest
      cases written : copied.write (.regular 1 [] bytes) [manifestName] with
      | none =>
          rw [written] at rest
          cases rest
      | some changed =>
          rw [written] at rest
          obtain ⟨_, _, performed, rest⟩ := of_result_bind rest
          cases performed
          cases rest
          exact ⟨digested, bytes, written, rfl⟩

/-- A seal that ends has a digest of the names, and its manifest is written over the copy. -/
theorem of_sealExchange_ok {tree : ExchangeTree} {world final : World} {taskId : String}
    {metadata : List (String × String)} {value : Option SealResult} (apart : Apart fold [] tree)
    (clean : Clean tree) (live : world.live = some tree)
    (result : (sealExchange fold sha256 taskId metadata world).2 = .ok (value, final)) :
    (∃ digest, manifestDigest sha256
        (tree.files.map fun file => entryAt sha256 file.1 file.2) = .ok digest) ∧
      ∃ bytes sealed, tree.prune.write (.regular 1 [] bytes) [manifestName] = some sealed ∧
        final = sealedWorld world sealed := by
  have built : buildExchangeManifest fold sha256 tree =
      .ok (tree.files.map fun file => entryAt sha256 file.1 file.2) :=
    (buildExchangeManifest_eq_ok fold sha256).mpr ⟨apart, clean, rfl⟩
  obtain ⟨_, _, started, rest⟩ := of_result_bind result
  obtain ⟨here, unchanged⟩ := of_result_current started
  rw [here, unchanged, live] at rest
  dsimp only at rest
  rw [built] at rest
  obtain ⟨entries, _, listed, rest⟩ := of_result_bind rest
  obtain ⟨⟨⟩, unchanged⟩ := of_result_ofExcept listed
  rw [unchanged] at rest
  obtain ⟨_, _, removed, rest⟩ := of_result_bind rest
  cases removed
  obtain ⟨_, _, staged, rest⟩ := of_result_bind rest
  cases staged
  rw [stage_removeStaging] at rest
  obtain ⟨copied, state, copies, rest⟩ := of_result_bind rest
  obtain ⟨⟨digest, sealed⟩, _, wrote, after⟩ := of_result_bind rest
  obtain ⟨digested, bytes, written, rfl⟩ := of_writeManifest_ok wrote
  have again : ∀ first second : ExchangeTree,
      stage second (stage first world) = stage second world := fun _ _ => rfl
  have ends : Ends (fun _ => True) _ _ _ := ends_copyTreeVerified again (fun _ => trivial) apart
    clean (fun file among => FileTree.read_of_mem_files (distinct_of_apart apart) among) digested
  obtain ⟨_, _, made, rfl, rfl⟩ := ends.ends
  rw [made] at copies
  cases copies
  refine ⟨⟨digest, digested⟩, bytes, sealed, written, ?_⟩
  obtain ⟨_, _, promoted, removal⟩ := of_result_bind after
  cases promoted
  obtain ⟨_, _, gone, ended⟩ := of_result_bind removal
  cases gone
  cases ended
  apply removeLive_last
  exact live

/-! ## Lossless seals -/

/-- Sealing and then restoring gives the files back, and a complete copy is there before the seal
and after each of its steps. -/
structure Lossless (fold : PyText → PyText) (sha256 : List UInt8 → String) (taskId : String)
    (metadata : List (String × String)) (world : World) (tree : ExchangeTree) : Prop where
  restores : ∃ result produced digest restored copy,
    (sealExchange fold sha256 taskId metadata world).2 = .ok (some result, produced) ∧
      (restoreForContinue fold sha256 produced).2 = .ok (digest, restored) ∧
        restored.live = some copy ∧ ∀ file, file ∈ copy.files ↔ file ∈ tree.files
  survives : ∀ visited ∈ world :: (sealExchange fold sha256 taskId metadata world).1,
    CompleteCopy fold sha256 tree visited

variable {taskId : String} {metadata : List (String × String)} {world : World}
  {tree : ExchangeTree}

theorem lossless_of_sealable (apart : Apart fold [] tree) (clean : Clean tree)
    (live : world.live = some tree) (sealable : Sealable fold tree) :
    Lossless fold sha256 taskId metadata world tree := by
  have seals := @ends_sealExchange fold sha256 tree world apart clean sealable live taskId metadata
  constructor
  · obtain ⟨_, _, produced, result, sealed, digest, bytes, rfl, rfl, snapshots⟩ := seals.ends
    have restores := @ends_restoreForContinue fold sha256 tree sealed world digest bytes apart clean
      sealable snapshots
    obtain ⟨found, restored, ended, copied⟩ := restores.ends
    refine ⟨result, _, found, restored, tree.prune, produced, ended, copied, fun file => ?_⟩
    rw [FileTree.files_prune]
  · intro visited among
    rcases List.mem_cons.mp among with rfl | later
    · exact .inl live
    · exact seals.visits visited later

/-- A tree that is given back has encodable names. -/
theorem encodable_of_digest {digest : PyText}
    (digested : manifestDigest sha256
      (tree.files.map fun file => entryAt sha256 file.1 file.2) = .ok digest)
    {file : List PyText × Leaf} (among : file ∈ tree.files) :
    encodable (joinPath file.1) = true := by
  by_contra lone
  have listed : (joinPath file.1, ofString (sha256 file.2.bytes)) ∈
      (tree.files.map fun file => entryAt sha256 file.1 file.2).map
        fun entry => (entry.relname, ofString entry.sha256) := by
    rw [List.map_map]
    exact List.mem_map.mpr ⟨file, among, rfl⟩
  rw [manifestDigest, digestEntries_of_not_encodable sha256 listed
    (Bool.eq_false_iff.mpr lone)] at digested
  cases digested

theorem sealable_of_lossless (apart : Apart fold [] tree) (clean : Clean tree)
    (live : world.live = some tree)
    (lossless : Lossless fold sha256 taskId metadata world tree) : Sealable fold tree := by
  obtain ⟨_, produced, _, restored, copy, produces, restores, copied, same⟩ := lossless.restores
  obtain ⟨⟨digest, digested⟩, bytes, sealed, written, rfl⟩ :=
    of_sealExchange_ok apart clean live produces
  obtain ⟨recorded, content, found, verified, ended, within⟩ := of_restoreForContinue_ok restores
  obtain rfl : copy = found := Option.some.inj (copied.symm.trans ended)
  obtain ⟨accepted, others⟩ := of_verifiedContent_ok verified
  refine fun file among => ⟨encodable_of_digest digested among, fun name head clash => ?_⟩
  obtain ⟨path, leaf⟩ := file
  obtain ⟨tail, rfl⟩ := List.head?_eq_some_iff.mp head
  by_cases used : manifestName ∈ tree.prune.names
  · -- the manifest is written over a file, which is not in the content
    obtain ⟨old, listed⟩ := FileTree.exists_file_of_write used written
    rw [FileTree.files_prune] at listed
    obtain ⟨entry, member, here⟩ := within _ ((same _).mpr listed)
    apply others entry member
    rw [ExchangeEntry.relname, ← here]
    exact List.intercalate_singleton
  · -- the manifest collides with a name beside it
    have beside : name ∈ tree.prune.names := by
      apply FileTree.head_mem_names
      rw [FileTree.files_prune]
      exact among
    rw [FileTree.write_of_notMem used] at written
    cases written
    exact (apart_append_file.mp accepted).2.2 name beside clash

end Sealing

/-- A seal is lossless exactly when every name has an encoding and none at the root folds to the
manifest's. -/
theorem lossless_iff_sealable {fold : PyText → PyText} {sha256 : List UInt8 → String}
    {taskId : String} {metadata : List (String × String)} {world : World} {tree : ExchangeTree}
    {entries : List ExchangeEntry} (live : world.live = some tree)
    (accepted : buildExchangeManifest fold sha256 tree = .ok entries) :
    Lossless fold sha256 taskId metadata world tree ↔ Sealable fold tree := by
  obtain ⟨apart, clean, -⟩ := (buildExchangeManifest_eq_ok fold sha256).mp accepted
  exact ⟨sealable_of_lossless apart clean live, lossless_of_sealable apart clean live⟩

/-- An exchange of one file. -/
def singleFile (name : String) (bytes : List UInt8) : ExchangeTree :=
  .file (ofString name) (.regular 1 [] bytes) .empty

theorem lossless_iff_sealable_plan :
    Lossless PyText.lower toString "t1" [] { live := some (singleFile "plan.md" [104, 105]) }
        (singleFile "plan.md" [104, 105]) ↔
      Sealable PyText.lower (singleFile "plan.md" [104, 105]) := by
  have accepted : buildExchangeManifest PyText.lower toString (singleFile "plan.md" [104, 105]) =
      .ok [entryAt toString [ofString "plan.md"] (.regular 1 [] [104, 105])] := rfl
  exact lossless_iff_sealable rfl accepted

/-- An accepted exchange whose own `manifest.json` is written over. -/
theorem manifest_file_lost :
    buildExchangeManifest PyText.lower toString (singleFile "manifest.json" [123, 125]) =
        .ok [entryAt toString [ofString "manifest.json"] (.regular 1 [] [123, 125])] ∧
      ¬ Lossless PyText.lower toString "t1" []
        { live := some (singleFile "manifest.json" [123, 125]) }
        (singleFile "manifest.json" [123, 125]) := by
  have accepted : buildExchangeManifest PyText.lower toString
      (singleFile "manifest.json" [123, 125]) =
        .ok [entryAt toString [ofString "manifest.json"] (.regular 1 [] [123, 125])] := rfl
  obtain ⟨apart, clean, -⟩ := (buildExchangeManifest_eq_ok _ _).mp accepted
  refine ⟨accepted, fun lossless => ?_⟩
  exact (sealable_of_lossless apart clean rfl lossless _ List.mem_cons_self).2 _ rfl rfl

end Orchestrator.Exchange
