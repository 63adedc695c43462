import Mathlib.Data.List.Lex
import Mathlib.Data.List.Sort
import Orchestrator.Foundation.FileTree
import Orchestrator.Foundation.PyText

/-! # The manifest of an exchange

An exchange is accepted when each of its files is regular, of one link and without streams,
and no directory has two names that fold to one. Its manifest fingerprints the files.
-/

namespace Orchestrator.Exchange

open Orchestrator.Foundation
open Orchestrator.Foundation.PyText (ofString ofChar encodable encodeUtf8)

/-- What a directory entry is, when it is no directory. -/
inductive Leaf where
  | regular (linkCount : Nat) (altStreams : List PyText) (bytes : List UInt8)
  | symlink
  | special

abbrev ExchangeTree := FileTree PyText Leaf

/-- Why an exchange is refused, or cannot be sealed or restored. -/
inductive ExchangeError where
  | nameCollision (name : PyText)
  | symlink (path : List PyText)
  | hardLinked (linkCount : Nat) (path : List PyText)
  | alternateStreams (streams : List PyText) (path : List PyText)
  | special (path : List PyText)
  | missing (path : List PyText)
  | unencodable
  | unwritable (path : List PyText)
  | copyMismatch
  | noSnapshot
  | manifestUnreadable
  | manifestMalformed
  | formatUnsupported
  | digestMissing
  | snapshotDrifted
  | activeExchange
  | restoreMismatch

/-- `as_posix` of a relative path. -/
def joinPath (path : List PyText) : PyText := [ofChar '/'].intercalate path

/-- The fingerprint of a regular file. -/
structure ExchangeEntry where
  path : List PyText
  linkCount : Nat
  size : Nat
  sha256 : String

def ExchangeEntry.relname (entry : ExchangeEntry) : PyText := joinPath entry.path

def Leaf.bytes : Leaf → List UInt8
  | .regular _ _ bytes => bytes
  | _ => []

def Leaf.linkCount : Leaf → Nat
  | .regular linkCount _ _ => linkCount
  | _ => 0

/-- Regular, of one link and without streams. -/
def Leaf.clean : Leaf → Bool
  | .regular linkCount altStreams _ => linkCount = 1 && altStreams.isEmpty
  | _ => false

/-- The checks of one file. -/
def inspectLeaf (path : List PyText) : Leaf → Except ExchangeError Unit
  | .regular linkCount altStreams _ =>
      if linkCount ≠ 1 then .error (.hardLinked linkCount path)
      else if altStreams.isEmpty then .ok ()
      else .error (.alternateStreams altStreams path)
  | .symlink => .error (.symlink path)
  | .special => .error (.special path)

section Manifest

variable (fold : PyText → PyText) (sha256 : List UInt8 → String)

/-- The fingerprint of the file at a path. -/
def entryAt (path : List PyText) (leaf : Leaf) : ExchangeEntry where
  path := path
  linkCount := leaf.linkCount
  size := leaf.bytes.length
  sha256 := sha256 leaf.bytes

/-- `_walk_dir`: names are compared as they fold. -/
def walkDir (here seen : List PyText) : ExchangeTree → Except ExchangeError (List ExchangeEntry)
  | .empty => .ok []
  | .file name leaf rest =>
      if fold name ∈ seen then .error (.nameCollision name)
      else do
        inspectLeaf (here ++ [name]) leaf
        let others ← walkDir here (fold name :: seen) rest
        return entryAt sha256 (here ++ [name]) leaf :: others
  | .dir name children rest =>
      if fold name ∈ seen then .error (.nameCollision name)
      else do
        let inner ← walkDir (here ++ [name]) [] children
        let others ← walkDir here (fold name :: seen) rest
        return inner ++ others

/-- `build_exchange_manifest`. -/
def buildExchangeManifest (tree : ExchangeTree) : Except ExchangeError (List ExchangeEntry) :=
  walkDir fold sha256 [] [] tree

/-- The order of the digest's lines. -/
def lineLe (first second : PyText × PyText) : Prop :=
  first.1 < second.1 ∨ first.1 = second.1 ∧ first.2 ≤ second.2

instance : DecidableRel lineLe := fun first second =>
  inferInstanceAs (Decidable (first.1 < second.1 ∨ first.1 = second.1 ∧ first.2 ≤ second.2))

/-- `digest_entries`: of the sorted names with their digests. -/
def digestEntries (entries : List (PyText × PyText)) : Except ExchangeError PyText :=
  let lines := (entries.insertionSort lineLe).map fun line => line.1 ++ 0 :: line.2
  match encodeUtf8 ([10].intercalate lines) with
  | some payload => .ok (ofString (sha256 payload))
  | none => .error .unencodable

/-- `_manifest_digest`. -/
def manifestDigest (entries : List ExchangeEntry) : Except ExchangeError PyText :=
  digestEntries sha256 (entries.map fun entry => (entry.relname, ofString entry.sha256))

/-- Names that have an encoding have a digest. -/
theorem digestEntries_of_encodable {entries : List (PyText × PyText)}
    (plain : ∀ entry ∈ entries, encodable entry.1 = true ∧ encodable entry.2 = true) :
    ∃ digest, digestEntries sha256 entries = .ok (ofString digest) := by
  have lines : encodable ([10].intercalate
      ((entries.insertionSort lineLe).map fun line => line.1 ++ 0 :: line.2)) = true := by
    rw [PyText.encodable_intercalate (by decide), List.all_map, List.all_eq_true]
    intro entry among
    obtain ⟨name, digest⟩ := plain entry ((List.perm_insertionSort _ _).mem_iff.mp among)
    have zero : encodable (0 :: entry.2) = true := digest
    rw [Function.comp_apply, PyText.encodable_append, name, zero]
    rfl
  exact ⟨_, by rw [digestEntries, encodeUtf8, if_pos lines]⟩

/-- A name that has no encoding has no digest. -/
theorem digestEntries_of_not_encodable {entries : List (PyText × PyText)} {entry : PyText × PyText}
    (among : entry ∈ entries) (lone : encodable entry.1 = false) :
    digestEntries sha256 entries = .error .unencodable := by
  have lines : encodable ([10].intercalate
      ((entries.insertionSort lineLe).map fun line => line.1 ++ 0 :: line.2)) ≠ true := by
    rw [PyText.encodable_intercalate (by decide), List.all_map]
    intro all
    have plain := List.all_eq_true.mp all entry ((List.perm_insertionSort _ _).mem_iff.mpr among)
    rw [Function.comp_apply, PyText.encodable_append, lone] at plain
    cases plain
  rw [digestEntries, encodeUtf8, if_neg lines]

/-! ## Accepted trees -/

/-- No directory has two names that fold to one, or to one seen. -/
def Apart (seen : List PyText) : ExchangeTree → Prop
  | .empty => True
  | .file name _ rest => fold name ∉ seen ∧ Apart (fold name :: seen) rest
  | .dir name children rest =>
      fold name ∉ seen ∧ Apart [] children ∧ Apart (fold name :: seen) rest

/-- Every file of a tree is clean. -/
def Clean (tree : ExchangeTree) : Prop := ∀ file ∈ tree.files, file.2.clean = true

theorem inspectLeaf_eq_ok {path : List PyText} {leaf : Leaf} :
    inspectLeaf path leaf = .ok () ↔ leaf.clean = true := by
  cases leaf with
  | symlink => exact iff_of_false nofun nofun
  | special => exact iff_of_false nofun nofun
  | regular linkCount altStreams bytes =>
      rw [inspectLeaf, Leaf.clean, Bool.and_eq_true, decide_eq_true_eq]
      by_cases single : linkCount = 1
      · rw [if_neg (not_not_intro single)]
        by_cases plain : altStreams.isEmpty = true
        · rw [if_pos plain]
          exact iff_of_true rfl ⟨single, plain⟩
        · rw [if_neg plain]
          exact iff_of_false nofun fun both => plain both.2
      · rw [if_pos single]
        exact iff_of_false nofun fun both => single both.1

/-- The walk accepts a tree of clean files and folded names apart, and lists its files. -/
theorem walkDir_eq_ok {here seen : List PyText} {tree : ExchangeTree}
    {entries : List ExchangeEntry} :
    walkDir fold sha256 here seen tree = .ok entries ↔
      Apart fold seen tree ∧ Clean tree ∧
        entries = tree.files.map fun file => entryAt sha256 (here ++ file.1) file.2 := by
  induction tree generalizing here seen entries with
  | empty =>
      rw [walkDir, Except.ok.injEq, eq_comm]
      exact ⟨fun none => ⟨trivial, fun _ among => absurd among List.not_mem_nil, none⟩,
        fun all => all.2.2⟩
  | file name leaf rest ih =>
      rw [walkDir]
      by_cases collides : fold name ∈ seen
      · rw [if_pos collides]
        exact iff_of_false nofun fun all => all.1.1 collides
      · rw [if_neg collides]
        cases inspected : inspectLeaf (here ++ [name]) leaf with
        | error error =>
            refine iff_of_false nofun fun all => ?_
            have clean := all.2.1 _ List.mem_cons_self
            rw [inspectLeaf_eq_ok.mpr clean] at inspected
            cases inspected
        | ok checked =>
            have clean := inspectLeaf_eq_ok.mp inspected
            cases walked : walkDir fold sha256 here (fold name :: seen) rest with
            | error error =>
                refine iff_of_false nofun fun all => ?_
                have accepted : walkDir fold sha256 here (fold name :: seen) rest = .ok _ :=
                  ih.mpr ⟨all.1.2, fun file among =>
                    all.2.1 file (List.mem_cons_of_mem _ among), rfl⟩
                rw [accepted] at walked
                cases walked
            | ok others =>
                obtain ⟨apart, cleanRest, listed⟩ := ih.mp walked
                have whole : Clean (.file name leaf rest) := fun file among => by
                  rcases List.mem_cons.mp among with rfl | later
                  · exact clean
                  · exact cleanRest file later
                constructor
                · rintro ⟨⟩
                  refine ⟨⟨collides, apart⟩, whole, ?_⟩
                  rw [listed]
                  rfl
                · rintro ⟨-, -, rfl⟩
                  rw [listed]
                  rfl
  | dir name children rest ihChildren ih =>
      rw [walkDir]
      by_cases collides : fold name ∈ seen
      · rw [if_pos collides]
        exact iff_of_false nofun fun all => all.1.1 collides
      · rw [if_neg collides]
        have inside : Clean (.dir name children rest) → Clean children := fun whole file among =>
          whole (name :: file.1, file.2)
            (List.mem_append_left _ (List.mem_map.mpr ⟨file, among, rfl⟩))
        have beside : Clean (.dir name children rest) → Clean rest := fun whole file among =>
          whole file (List.mem_append_right _ among)
        cases walkedInner : walkDir fold sha256 (here ++ [name]) [] children with
        | error error =>
            refine iff_of_false nofun fun all => ?_
            have accepted : walkDir fold sha256 (here ++ [name]) [] children = .ok _ :=
              ihChildren.mpr ⟨all.1.2.1, inside all.2.1, rfl⟩
            rw [accepted] at walkedInner
            cases walkedInner
        | ok inner =>
            cases walked : walkDir fold sha256 here (fold name :: seen) rest with
            | error error =>
                refine iff_of_false nofun fun all => ?_
                have accepted : walkDir fold sha256 here (fold name :: seen) rest = .ok _ :=
                  ih.mpr ⟨all.1.2.2, beside all.2.1, rfl⟩
                rw [accepted] at walked
                cases walked
            | ok others =>
                obtain ⟨apartInner, cleanInner, listedInner⟩ := ihChildren.mp walkedInner
                obtain ⟨apart, cleanRest, listed⟩ := ih.mp walked
                have whole : Clean (.dir name children rest) := fun file among => by
                  rcases List.mem_append.mp among with below | later
                  · obtain ⟨inner, member, rfl⟩ := List.mem_map.mp below
                    exact cleanInner inner member
                  · exact cleanRest file later
                have files : inner ++ others = (FileTree.files (.dir name children rest)).map
                    fun file => entryAt sha256 (here ++ file.1) file.2 := by
                  rw [listedInner, listed, FileTree.files, List.map_append, List.map_map]
                  simp only [Function.comp_def, List.append_assoc, List.singleton_append]
                constructor
                · rintro ⟨⟩
                  exact ⟨⟨collides, apartInner, apart⟩, whole, files⟩
                · rintro ⟨-, -, rfl⟩
                  rw [← files]
                  rfl

/-- The manifest of an accepted tree lists its files. -/
theorem buildExchangeManifest_eq_ok {tree : ExchangeTree} {entries : List ExchangeEntry} :
    buildExchangeManifest fold sha256 tree = .ok entries ↔
      Apart fold [] tree ∧ Clean tree ∧
        entries = tree.files.map fun file => entryAt sha256 file.1 file.2 :=
  walkDir_eq_ok fold sha256

variable {fold} {sha256}

theorem fold_notMem_of_apart {seen : List PyText} {tree : ExchangeTree}
    (apart : Apart fold seen tree) {name : PyText} (among : name ∈ tree.names) :
    fold name ∉ seen := by
  induction tree generalizing seen with
  | empty => cases among
  | file other leaf rest ih =>
      rcases List.mem_cons.mp among with rfl | later
      · exact apart.1
      · exact fun member => ih apart.2 later (List.mem_cons_of_mem _ member)
  | dir other children rest _ ih =>
      rcases List.mem_cons.mp among with rfl | later
      · exact apart.1
      · exact fun member => ih apart.2.2 later (List.mem_cons_of_mem _ member)

theorem distinct_of_apart {seen : List PyText} {tree : ExchangeTree}
    (apart : Apart fold seen tree) : tree.Distinct := by
  induction tree generalizing seen with
  | empty => trivial
  | file name leaf rest ih =>
      exact ⟨fun among => fold_notMem_of_apart apart.2 among List.mem_cons_self, ih apart.2⟩
  | dir name children rest ihChildren ih =>
      exact ⟨fun among => fold_notMem_of_apart apart.2.2 among List.mem_cons_self,
        ihChildren apart.2.1, ih apart.2.2⟩

theorem apart_prune {seen fewer : List PyText} {tree : ExchangeTree}
    (apart : Apart fold seen tree) (subset : ∀ name ∈ fewer, name ∈ seen) :
    Apart fold fewer tree.prune := by
  induction tree generalizing seen fewer with
  | empty => trivial
  | file name leaf rest ih =>
      refine ⟨fun among => apart.1 (subset _ among), ih apart.2 fun other among => ?_⟩
      rcases List.mem_cons.mp among with rfl | later
      · exact List.mem_cons_self
      · exact List.mem_cons_of_mem _ (subset other later)
  | dir name children rest ihChildren ih =>
      have inner : Apart fold [] children.prune := ihChildren apart.2.1 fun _ among => among
      have beside : Apart fold (fold name :: fewer) rest.prune := by
        refine ih apart.2.2 fun other among => ?_
        rcases List.mem_cons.mp among with rfl | later
        · exact List.mem_cons_self
        · exact List.mem_cons_of_mem _ (subset other later)
      have fresh : fold name ∉ fewer := fun among => apart.1 (subset _ among)
      rw [FileTree.prune]
      cases pruned : children.prune with
      | empty =>
          exact ih apart.2.2 fun other among => List.mem_cons_of_mem _ (subset other among)
      | file first leaf others => exact ⟨fresh, pruned ▸ inner, beside⟩
      | dir first below others => exact ⟨fresh, pruned ▸ inner, beside⟩

/-- One more file keeps a tree apart exactly when its name folds to none of the others. -/
theorem apart_append_file {seen : List PyText} {tree : ExchangeTree} {name : PyText}
    {leaf : Leaf} :
    Apart fold seen (tree.append (.file name leaf .empty)) ↔
      Apart fold seen tree ∧ fold name ∉ seen ∧ ∀ other ∈ tree.names, fold other ≠ fold name := by
  induction tree generalizing seen with
  | empty =>
      exact ⟨fun apart => ⟨trivial, apart.1, fun _ among => absurd among List.not_mem_nil⟩,
        fun all => ⟨all.2.1, trivial⟩⟩
  | file first old rest ih =>
      rw [FileTree.append, Apart, Apart, ih, List.mem_cons, not_or, FileTree.names,
        List.forall_mem_cons]
      constructor
      · rintro ⟨fresh, apart, ⟨other, unseen⟩, rest⟩
        exact ⟨⟨fresh, apart⟩, unseen, fun same => other same.symm, rest⟩
      · rintro ⟨⟨fresh, apart⟩, unseen, other, rest⟩
        exact ⟨fresh, apart, ⟨fun same => other same.symm, unseen⟩, rest⟩
  | dir first children rest _ ih =>
      rw [FileTree.append, Apart, Apart, ih, List.mem_cons, not_or, FileTree.names,
        List.forall_mem_cons]
      constructor
      · rintro ⟨fresh, inner, apart, ⟨other, unseen⟩, rest⟩
        exact ⟨⟨fresh, inner, apart⟩, unseen, fun same => other same.symm, rest⟩
      · rintro ⟨⟨fresh, inner, apart⟩, unseen, other, rest⟩
        exact ⟨fresh, inner, apart, ⟨fun same => other same.symm, unseen⟩, rest⟩

end Manifest

end Orchestrator.Exchange
