import Orchestrator.Exchange.PublishRuns

/-! # What publication keeps

A directory that holds the files of its ledger, with names apart, has a manifest that lists them.
Each call keeps this exactly when it is harmless, and two such manifests tell two ledgers apart
unless the digests and sizes of their contents do not.
-/

namespace Orchestrator.Exchange

open Orchestrator.Foundation FileTree
open Orchestrator.Foundation.PyText (ofString ofChar)
open Orchestrator.Security (WordTest)

/-! ## Relative names -/

/-- A path of names without slashes. -/
def Plain (path : List PyText) : Prop := path ≠ [] ∧ ∀ name ∈ path, ofChar '/' ∉ name

theorem joinPath_injective {path other : List PyText} (plain : Plain path)
    (plainOther : Plain other)
    (same : joinPath path = joinPath other) : path = other := by
  have split := congrArg (List.splitOn (ofChar '/')) same
  rwa [joinPath, joinPath, List.splitOn_intercalate _ plain.2 plain.1,
    List.splitOn_intercalate _ plainOther.2 plainOther.1] at split

/-- A name that is accepted has no slash in its segments. -/
theorem notMem_of_validateRelpath {relpath : String} {path : List PyText}
    (accepted : validateRelpath relpath = .ok path) : ∀ name ∈ path, ofChar '/' ∉ name := by
  rw [validateRelpath] at accepted
  split_ifs at accepted
  dsimp only at accepted
  split at accepted
  · cases accepted
  · cases accepted
    intro name among slash
    rw [List.map_map] at among
    obtain ⟨part, listed, rfl⟩ := List.mem_map.mp among
    rw [Function.comp_apply, ofString, String.toList_ofList] at slash
    obtain ⟨letter, within, same⟩ := List.mem_map.mp slash
    rw [Json.ofChar_injective same] at within
    exact (PosixPath.isPart_of_mem_parts listed).2.2 within

/-! ## Manifests and ledgers -/

section Manifests

variable {fold : PyText → PyText} {sha256 : List UInt8 → String} {tree made : ExchangeTree}
  {ledger other : Ledger} {entries more : List ExchangeEntry} {path : List PyText}

/-- The files of a tree are those of a ledger. -/
def Holds (tree : ExchangeTree) (ledger : Ledger) : Prop :=
  ∀ path, tree.read path = (ledger path).map (Leaf.regular 1 [])

/-- A tree that holds a ledger is acceptable exactly when its names are apart. -/
theorem acceptable_iff_apart (holds : Holds tree ledger) :
    Published.Acceptable fold sha256 ⟨some tree, ledger⟩ ↔ Apart fold [] tree := by
  constructor
  · rintro ⟨entries, built, -⟩
    exact ((buildExchangeManifest_eq_ok fold sha256).mp built).1
  · intro apart
    have distinct := distinct_of_apart apart
    have listed {path : List PyText} {leaf : Leaf} : (path, leaf) ∈ tree.files ↔
        ∃ bytes, ledger path = some bytes ∧ leaf = .regular 1 [] bytes := by
      rw [mem_files_iff_read distinct, holds, Option.map_eq_some_iff]
      exact exists_congr fun bytes => and_congr_right fun _ => eq_comm
    have clean : Clean tree := by
      rintro ⟨path, leaf⟩ among
      obtain ⟨bytes, -, rfl⟩ := listed.mp among
      rfl
    refine ⟨_, (buildExchangeManifest_eq_ok fold sha256).mpr ⟨apart, clean, rfl⟩, ?_, ?_⟩
    · rw [List.map_map]
      exact nodup_files distinct
    · intro entry
      constructor
      · intro among
        obtain ⟨⟨path, leaf⟩, file, rfl⟩ := List.mem_map.mp among
        obtain ⟨bytes, held, rfl⟩ := listed.mp file
        exact ⟨bytes, held, rfl⟩
      · rintro ⟨bytes, held, shape⟩
        exact List.mem_map.mpr ⟨(entry.path, .regular 1 [] bytes), listed.mpr ⟨bytes, held, rfl⟩,
          shape.symm⟩

/-- A directory that lacks a published file is not acceptable. -/
theorem not_acceptable_of_unread {bytes : List UInt8} (held : ledger path = some bytes)
    (unread : tree.read path = none) :
    ¬ Published.Acceptable fold sha256 ⟨some tree, ledger⟩ := by
  rintro ⟨entries, built, lists⟩
  obtain ⟨apart, -, rfl⟩ := (buildExchangeManifest_eq_ok fold sha256).mp built
  have among := (lists.listed (publishedEntry sha256 path bytes)).mpr ⟨bytes, held, rfl⟩
  obtain ⟨⟨read, leaf⟩, file, same⟩ := List.mem_map.mp among
  have here : read = path := congrArg ExchangeEntry.path same
  subst here
  rw [read_of_mem_files (distinct_of_apart apart) file] at unread
  cases unread

/-- What a manifest has under the name of a plain path. -/
theorem entryNamed_joinPath (lists : Lists sha256 entries ledger)
    (plain : ∀ path bytes, ledger path = some bytes → Plain path) (named : Plain path) :
    entryNamed entries (joinPath path) = (ledger path).map (publishedEntry sha256 path) := by
  rw [entryNamed]
  cases found : entries.reverse.find? fun entry => entry.relname = joinPath path with
  | some entry =>
      have among : entry ∈ entries := List.mem_reverse.mp (List.mem_of_find?_eq_some found)
      have name : entry.relname = joinPath path := by simpa using List.find?_some found
      obtain ⟨bytes, held, shape⟩ := (lists.listed entry).mp among
      have here : entry.path = path := joinPath_injective (plain _ bytes held) named name
      rw [here] at held shape
      rw [held, shape]
      rfl
  | none =>
      cases held : ledger path with
      | none => rfl
      | some bytes =>
          have among := (lists.listed (publishedEntry sha256 path bytes)).mpr ⟨bytes, held, rfl⟩
          have all := List.find?_eq_none.mp found _ (List.mem_reverse.mpr among)
          exact absurd (decide_eq_true rfl) all

/-- What a manifest keeps of a content. -/
def fingerprint (sha256 : List UInt8 → String) (bytes : List UInt8) : String × Nat :=
  (sha256 bytes, bytes.length)

/-- Nothing is reported when nothing changed about any name. -/
theorem diffExchangeManifests_eq_nil : diffExchangeManifests entries more = [] ↔
    ∀ entry ∈ entries ++ more, driftOf entries more entry.relname = none := by
  have changes : diffExchangeManifests entries more = [] ↔
      (((entries ++ more).map ExchangeEntry.relname).dedup.insertionSort (· ≤ ·)).filterMap
        (driftOf entries more) = [] := by
    rw [diffExchangeManifests]
    split
    · rename_i long
      refine iff_of_false
        (List.append_ne_nil_of_right_ne_nil _ (List.cons_ne_nil _ _)) fun none => ?_
      rw [none] at long
      cases long
    · rfl
  rw [changes, List.filterMap_eq_nil_iff]
  simp only [(List.perm_insertionSort _ _).mem_iff, List.mem_dedup, List.forall_mem_map]

/-- Two manifests agree exactly when the fingerprints of their ledgers do. -/
theorem diffExchangeManifests_eq_nil_iff (lists : Lists sha256 entries ledger)
    (listsMore : Lists sha256 more other)
    (plain : ∀ path bytes, ledger path = some bytes → Plain path)
    (plainMore : ∀ path bytes, other path = some bytes → Plain path) :
    diffExchangeManifests entries more = [] ↔
      ∀ path, (ledger path).map (fingerprint sha256) = (other path).map (fingerprint sha256) := by
  have drift {path : List PyText} (named : Plain path)
    (held : ledger path ≠ none ∨ other path ≠ none) :
      driftOf entries more (joinPath path) = none ↔
        (ledger path).map (fingerprint sha256) = (other path).map (fingerprint sha256) := by
    rw [driftOf, entryNamed_joinPath lists plain named,
      entryNamed_joinPath listsMore plainMore named]
    cases before : ledger path with
    | none =>
        cases after : other path with
        | none => exact absurd after (held.resolve_left (not_not_intro before))
        | some bytes => exact iff_of_false nofun nofun
    | some old =>
        cases other path with
        | none => exact iff_of_false nofun nofun
        | some new =>
            simp only [Option.map_some, publishedEntry, entryAt, Leaf.bytes, Leaf.linkCount,
              fingerprint, ne_eq, not_true_eq_false, ↓reduceIte, Option.some.injEq, Prod.mk.injEq]
            split
            · rename_i differ
              exact iff_of_false nofun fun same =>
                differ.elim (fun digest => digest same.1) fun size => size same.2
            · rename_i agree
              rw [not_or, not_not, not_not] at agree
              exact iff_of_true rfl agree
  rw [diffExchangeManifests_eq_nil]
  constructor
  · intro quiet path
    cases before : ledger path with
    | some bytes =>
        have among := (lists.listed (publishedEntry sha256 path bytes)).mpr ⟨bytes, before, rfl⟩
        have named := plain path bytes before
        have same := (drift named (.inl (before ▸ Option.some_ne_none bytes))).mp
          (quiet _ (List.mem_append_left _ among))
        rwa [before] at same
    | none =>
        cases after : other path with
        | none => rfl
        | some bytes =>
            have among :=
              (listsMore.listed (publishedEntry sha256 path bytes)).mpr ⟨bytes, after, rfl⟩
            have named := plainMore path bytes after
            have same := (drift named (.inr (after ▸ Option.some_ne_none bytes))).mp
              (quiet _ (List.mem_append_right _ among))
            rwa [before, after] at same
  · intro agree entry among
    rcases List.mem_append.mp among with first | second
    · obtain ⟨bytes, held, -⟩ := (lists.listed entry).mp first
      exact (drift (plain _ bytes held) (.inl (held ▸ Option.some_ne_none bytes))).mpr (agree _)
    · obtain ⟨bytes, held, -⟩ := (listsMore.listed entry).mp second
      exact (drift (plainMore _ bytes held) (.inr (held ▸ Option.some_ne_none bytes))).mpr (agree _)

/-! ## One call -/

/-- A directory that holds its ledger under plain paths, its names apart. -/
structure Faithful (fold : PyText → PyText) (tree : ExchangeTree) (ledger : Ledger) : Prop where
  holds : Holds tree ledger
  apart : Apart fold [] tree
  plain : ∀ path bytes, ledger path = some bytes → Plain path

/-- A state that is faithful where it has a directory, and has no ledger before that. -/
def Published.Faithful (fold : PyText → PyText) (state : Published) : Prop :=
  Exchange.Faithful fold (state.directory.getD .empty) state.ledger

theorem Faithful.acceptable (faithful : Faithful fold tree ledger) :
    Published.Acceptable fold sha256 ⟨some tree, ledger⟩ :=
  (acceptable_iff_apart faithful.holds).mpr faithful.apart

/-- What a step does: the state after is acceptable exactly when a condition holds, and then it is
faithful. -/
structure Keeps (fold : PyText → PyText) (sha256 : List UInt8 → String) (after : Published)
    (harmless : Prop) : Prop where
  acceptable : after.Acceptable fold sha256 ↔ harmless
  faithful : harmless → after.Faithful fold

/-- A step that changes nothing that is read keeps the directory when the names stay apart. -/
theorem Faithful.keeps {harmless : Prop} (faithful : Faithful fold tree ledger)
    (reads : ∀ path, made.read path = tree.read path)
    (apart : Apart fold [] made ↔ harmless) : Keeps fold sha256 ⟨some made, ledger⟩ harmless := by
  have holds : Holds made ledger := fun path => (reads path).trans (faithful.holds path)
  refine ⟨(acceptable_iff_apart holds).trans apart, fun fine => ?_⟩
  exact ⟨holds, apart.mpr fine, faithful.plain⟩

/-- Directories that are made keep the tree when their names fit. -/
theorem Faithful.keeps_makeDirs {parent : List PyText} (faithful : Faithful fold tree ledger)
    (makes : tree.makeDirs parent = some made) :
    Keeps fold sha256 ⟨some made, ledger⟩ (Fits fold parent tree) :=
  faithful.keeps (fun _ => read_makeDirs makes) (apart_makeDirs faithful.apart makes)

theorem temporaryName_ne (name : PyText) : temporaryName name ≠ name := by
  intro same
  have lengths := congrArg List.length same
  rw [temporaryName, List.length_append] at lengths
  have some : (ofString ".worc-io.tmp").length = 12 := rfl
  omega

variable (sha256) in
/-- Writing a file in directories that are made, where no file has the temporary name: the path has
the bytes, when they have an encoding, and its names fit. -/
theorem Faithful.keeps_write {parent : List PyText} {last : PyText}
    (encoded : Option (List UInt8))
    (faithful : Faithful fold tree ledger) (makes : tree.makeDirs parent = some made)
    (plain : Plain (parent ++ [last])) (free : made.isDir (parent ++ [last]) = false)
    (spare : made.isDir (parent ++ [temporaryName last]) = false)
    (unread : tree.read (parent ++ [temporaryName last]) = none) :
    Keeps fold sha256
      ⟨some (atomicWriteText parent last encoded made).2,
        if (atomicWriteText parent last encoded made).1 then
          Function.update ledger (parent ++ [last]) encoded else ledger⟩
      (Fits fold (if encoded.isSome then parent ++ [last] else parent) tree) := by
  have unreadMade : made.read (parent ++ [temporaryName last]) = none :=
    (read_makeDirs makes).trans unread
  have same : made.remove (temporaryName last) parent = made := remove_of_absent unreadMade spare
  rw [atomicWriteText]
  dsimp only
  rw [spare, if_neg Bool.false_ne_true, same, unreadMade]
  cases encoded with
  | none => exact faithful.keeps_makeDirs makes
  | some bytes =>
      have placed (path : List PyText) : (made.place (.regular 1 [] bytes) last parent).read path =
          if path = parent ++ [last] then some (.regular 1 [] bytes) else made.read path :=
        read_place (isDir_makeDirs makes) free
      have holds : Holds (made.place (.regular 1 [] bytes) last parent)
          (Function.update ledger (parent ++ [last]) (some bytes)) := by
        intro path
        rw [placed, Function.update_apply, read_makeDirs makes, faithful.holds]
        split <;> rfl
      have apart := apart_place faithful.apart makes (.regular 1 [] bytes) free
      have named : ∀ path other,
          Function.update ledger (parent ++ [last]) (some bytes) path = some other →
            Plain path := by
        intro path other held
        rw [Function.update_apply] at held
        split at held
        · rename_i here
          exact here ▸ plain
        · exact faithful.plain path other held
      exact ⟨(acceptable_iff_apart holds).trans apart,
        fun fits => ⟨holds, apart.mpr fits, named⟩⟩

variable (sha256) in
/-- Writing a file over a published one of the temporary name loses it. -/
theorem Faithful.not_acceptable_write {parent : List PyText} {last : PyText}
    (encoded : Option (List UInt8)) (faithful : Faithful fold tree ledger)
    (makes : tree.makeDirs parent = some made) (free : made.isDir (parent ++ [last]) = false)
    (spare : made.isDir (parent ++ [temporaryName last]) = false)
    (read : tree.read (parent ++ [temporaryName last]) ≠ none) :
    ¬ Published.Acceptable fold sha256
      ⟨some (atomicWriteText parent last encoded made).2,
        if (atomicWriteText parent last encoded made).1 then
          Function.update ledger (parent ++ [last]) encoded else ledger⟩ := by
  have distinct : made.Distinct := distinct_makeDirs (distinct_of_apart faithful.apart) makes
  have other : parent ++ [temporaryName last] ≠ parent ++ [last] := fun same =>
    temporaryName_ne last (List.singleton_inj.mp (List.append_cancel_left same))
  obtain ⟨bytes, held⟩ : ∃ bytes, ledger (parent ++ [temporaryName last]) = some bytes := by
    rw [faithful.holds] at read
    exact Option.ne_none_iff_exists'.mp fun none => read (congrArg _ none)
  have removed : (made.remove (temporaryName last) parent).read
      (parent ++ [temporaryName last]) = none := by
    rw [read_remove distinct (isDir_makeDirs makes) spare, if_pos rfl]
  rw [atomicWriteText]
  dsimp only
  rw [spare, if_neg Bool.false_ne_true]
  cases encoded with
  | none => exact not_acceptable_of_unread held removed
  | some bytes =>
      refine not_acceptable_of_unread ((Function.update_of_ne other _ _).trans held) ?_
      · rw [read_place, if_neg other, removed]
        · rw [isDir_remove distinct spare, isDir_makeDirs makes]
        · rw [isDir_remove distinct spare, free]

theorem record_ite (done : Bool) (path : List PyText) (ledger : Ledger)
    (encoded : Option (List UInt8)) :
    (if done then PublishEnd.returned path else .failed).record ledger encoded =
      if done then Function.update ledger path encoded else ledger := by
  cases done <;> rfl

variable {words : WordTest}

/-- A call that is made on a faithful state leaves an acceptable one exactly when it is harmless,
and then a faithful one. -/
theorem publish_keeps {state : Published} (faithful : state.Faithful fold) (call : PublishCall) :
    Keeps fold sha256 (state.publish words call) (Harmless fold words state.directory call) := by
  obtain ⟨directory, ledger⟩ := state
  have stays : Keeps fold sha256 ⟨some (directory.getD .empty), ledger⟩ True :=
    Faithful.keeps faithful (fun _ => rfl) (iff_of_true faithful.apart trivial)
  unfold Published.publish publishToExchange Harmless
  dsimp only
  generalize call.redactedBytes words = encoded
  cases accepted : validateRelpath call.relpath with
  | error reason =>
      refine ⟨?_, fun _ => faithful⟩
      cases directory with
      | none => exact iff_of_false nofun nofun
      | some tree => exact iff_of_true (Faithful.acceptable faithful) rfl
  | ok path =>
      dsimp only
      cases ended : path.getLast? with
      | none => exact stays
      | some last =>
          dsimp only
          have whole : path.dropLast ++ [last] = path := List.dropLast_append_getLast? last ended
          have plain : Plain (path.dropLast ++ [last]) :=
            ⟨List.append_ne_nil_of_right_ne_nil _ (List.cons_ne_nil _ _),
              whole.symm ▸ notMem_of_validateRelpath accepted⟩
          cases makes : (directory.getD .empty).makeDirs path.dropLast with
          | none => exact stays
          | some made =>
              dsimp only
              have kept : Keeps fold sha256 ⟨some made, ledger⟩
                  (Fits fold path.dropLast (directory.getD .empty)) :=
                Faithful.keeps_makeDirs faithful makes
              cases blocked : irreplaceable path made with
              | true => exact kept
              | false =>
                  have free : made.isDir (path.dropLast ++ [last]) = false := by
                    rw [whole]
                    exact (Bool.or_eq_false_iff.mp blocked).1
                  simp only [Bool.false_eq_true, if_false, false_or]
                  cases spare : made.isDir (path.dropLast ++ [temporaryName last]) with
                  | true =>
                      simp only [atomicWriteText, spare, if_true]
                      exact kept
                  | false =>
                      simp only [Bool.false_eq_true, if_false, record_ite]
                      by_cases unread : (directory.getD .empty).read
                          (path.dropLast ++ [temporaryName last]) = none
                      · have written := Faithful.keeps_write sha256 encoded
                          faithful makes plain free spare unread
                        rw [whole] at written
                        exact ⟨written.acceptable.trans (and_iff_right unread).symm,
                          fun both => written.faithful both.2⟩
                      · have lost := Faithful.not_acceptable_write sha256 encoded
                          faithful makes free spare unread
                        rw [whole] at lost
                        exact ⟨iff_of_false lost fun both => unread both.1,
                          fun both => absurd both.1 unread⟩

variable (sha256 words) in
/-- The states of a run are acceptable exactly when its calls are harmless, and then faithful. -/
theorem trail_acceptable_iff {state : Published} (faithful : state.Faithful fold)
    (calls : List PublishCall) :
    ((∀ after ∈ state.trail words calls, after.Acceptable fold sha256) ↔
        HarmlessRun fold words state calls) ∧
      (HarmlessRun fold words state calls →
        ∀ after ∈ state.trail words calls, after.Faithful fold) := by
  induction calls generalizing state with
  | nil => exact ⟨iff_of_true nofun trivial, fun _ => nofun⟩
  | cons call rest ih =>
      have step : Keeps fold sha256 (state.publish words call) _ := publish_keeps faithful call
      rw [Published.trail, HarmlessRun, List.forall_mem_cons]
      constructor
      · rw [step.acceptable]
        exact and_congr_right fun harmless => (ih (step.faithful harmless)).1
      · rintro ⟨harmless, later⟩ after among
        rcases List.mem_cons.mp among with rfl | among
        · exact step.faithful harmless
        · exact (ih (step.faithful harmless)).2 later after among

/-- A task directory before any call, made or not. -/
def Published.start (made : Bool) : Published := ⟨if made then some .empty else none, fun _ => none⟩

variable (fold) in
theorem faithful_start (made : Bool) : (Published.start made).Faithful fold := by
  have shape : (Published.start made).directory.getD .empty = .empty := by cases made <;> rfl
  rw [Published.Faithful, shape]
  exact ⟨fun path => by cases path <;> rfl, trivial, nofun⟩

/-- No two states of a run have ledgers that differ but have the fingerprints in common. -/
def Distinguished (sha256 : List UInt8 → String) (states : List Published) : Prop :=
  ∀ earlier ∈ states, ∀ later ∈ states,
    (∀ path, (earlier.ledger path).map (fingerprint sha256) =
      (later.ledger path).map (fingerprint sha256)) → earlier.ledger = later.ledger

/-- Publication keeps the exchange acceptable and its manifests telling exactly when every call is
harmless and the fingerprints tell the ledgers apart. -/
theorem publicationKept_iff (made : Bool) (calls : List PublishCall) :
    PublicationKept fold sha256 ((Published.start made).trail words calls) ↔
      HarmlessRun fold words (.start made) calls ∧
        Distinguished sha256 ((Published.start made).trail words calls) := by
  obtain ⟨acceptable, kept⟩ := trail_acceptable_iff sha256 words (faithful_start fold made) calls
  rw [PublicationKept, acceptable]
  apply and_congr_right
  intro harmless
  apply forall₂_congr
  intro earlier first
  apply forall₂_congr
  intro later second
  obtain ⟨before, built, lists⟩ := acceptable.mpr harmless earlier first
  obtain ⟨after, builtAfter, listsAfter⟩ := acceptable.mpr harmless later second
  have agree := diffExchangeManifests_eq_nil_iff lists listsAfter
    (kept harmless earlier first).plain (kept harmless later second).plain
  constructor
  · intro telling same
    exact (telling before after built builtAfter).mp (agree.mpr same)
  · intro telling given more builtGiven builtMore
    rw [built] at builtGiven
    rw [builtAfter] at builtMore
    cases builtGiven
    cases builtMore
    rw [agree]
    exact ⟨telling, fun same path => by rw [same]⟩

end Manifests

/-- The words of ASCII letters. -/
def asciiWords : WordTest := .ofAscii

/-- An empty text published under a name. -/
def emptyCall (relpath : String) : PublishCall := ⟨relpath, .text [], []⟩

/-- Two names that differ in case are both published, and the directory is refused from then on. -/
theorem siblingNames_not_kept :
    ¬ PublicationKept PyText.lower toString
      ((Published.start true).trail asciiWords [emptyCall "README.md", emptyCall "readme.md"]) := by
  intro kept
  obtain ⟨entries, built, -⟩ := kept.1 _ (List.mem_cons_of_mem _ List.mem_cons_self)
  have refused : (manifestOf PyText.lower toString
      (((Published.start true).publish asciiWords (emptyCall "README.md")).publish asciiWords
        (emptyCall "readme.md")).directory).toOption = none := by
    decide +kernel
  rw [built] at refused
  cases refused

end Orchestrator.Exchange
