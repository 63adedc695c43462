import Orchestrator.Exchange.Publish

/-! # Publishing again and again

A ledger records the bytes that each path got from the last call that returned. The exchange stays
acceptable and holds just the ledger as long as no call makes a name that folds to one beside it,
none takes a published file for its temporary one, and none is refused before there is a directory.
-/

namespace Orchestrator.Exchange

open Orchestrator.Foundation FileTree
open Orchestrator.Security (WordTest)

/-- The bytes of the last call that returned, by path. -/
abbrev Ledger := List PyText → Option (List UInt8)

/-- A task directory, when it exists, and what was published into it. -/
structure Published where
  directory : Option ExchangeTree
  ledger : Ledger := fun _ => none

section Runs

variable (words : WordTest)

/-- The ledger after a call that ended. -/
def PublishEnd.record (ledger : Ledger) (encoded : Option (List UInt8)) : PublishEnd → Ledger
  | .returned path => Function.update ledger path encoded
  | .refused _ => ledger
  | .failed => ledger

/-- The directory and the ledger after a call. -/
def Published.publish (state : Published) (call : PublishCall) : Published :=
  let ended := publishToExchange words call state.directory
  ⟨ended.2, ended.1.record state.ledger (call.redactedBytes words)⟩

/-- The states after each of a list of calls. -/
def Published.trail : Published → List PublishCall → List Published
  | _, [] => []
  | state, call :: rest => state.publish words call :: (state.publish words call).trail rest

end Runs

section Manifests

variable (fold : PyText → PyText) (sha256 : List UInt8 → String)

/-- `build_exchange_manifest` of a directory that may not exist. -/
def manifestOf : Option ExchangeTree → Except ExchangeError (List ExchangeEntry)
  | none => .error (.missing [])
  | some tree => buildExchangeManifest fold sha256 tree

/-- The entry of a published file. -/
def publishedEntry (path : List PyText) (bytes : List UInt8) : ExchangeEntry :=
  entryAt sha256 path (.regular 1 [] bytes)

/-- Entries that are those of a ledger, each once. -/
structure Lists (entries : List ExchangeEntry) (ledger : Ledger) : Prop where
  once : (entries.map ExchangeEntry.path).Nodup
  listed : ∀ entry, entry ∈ entries ↔
    ∃ bytes, ledger entry.path = some bytes ∧ entry = publishedEntry sha256 entry.path bytes

/-- A directory whose manifest lists the ledger. -/
def Published.Acceptable (state : Published) : Prop :=
  ∃ entries, manifestOf fold sha256 state.directory = .ok entries ∧
    Lists sha256 entries state.ledger

/-- What publication keeps over the states of a run: each is acceptable, and the manifests of two
differ exactly when their ledgers do. -/
def PublicationKept (states : List Published) : Prop :=
  (∀ state ∈ states, state.Acceptable fold sha256) ∧
    ∀ earlier ∈ states, ∀ later ∈ states, ∀ before after,
      manifestOf fold sha256 earlier.directory = .ok before →
      manifestOf fold sha256 later.directory = .ok after →
      (diffExchangeManifests before after = [] ↔ earlier.ledger = later.ledger)

/-! ## Harmless calls -/

/-- The first name of a path that a directory does not have folds to none beside it. -/
def Fits : List PyText → ExchangeTree → Prop
  | [], _ => True
  | name :: path, tree =>
      match tree.find? name with
      | some (.dir children) => Fits path children
      | some (.file _) => True
      | none => ∀ other ∈ tree.names, fold other ≠ fold name

/-- A call that a directory bears: a refused name does not come before the directory is there, the
entries that are made fold to none beside them, and no file has the name of the temporary one. -/
def Harmless (words : WordTest) (directory : Option ExchangeTree) (call : PublishCall) : Prop :=
  match validateRelpath call.relpath with
  | .error _ => directory.isSome
  | .ok path =>
      let tree := directory.getD .empty
      match path.getLast? with
      | none => True
      | some last =>
          let parent := path.dropLast
          let temporary := parent ++ [temporaryName last]
          match tree.makeDirs parent with
          | none => True
          | some made =>
              if irreplaceable path made ∨ made.isDir temporary then Fits fold parent tree
              else tree.read temporary = none ∧
                Fits fold (if (call.redactedBytes words).isSome then path else parent) tree

/-- Every call of a list is harmless where it is made. -/
def HarmlessRun (words : WordTest) : Published → List PublishCall → Prop
  | _, [] => True
  | state, call :: rest =>
      Harmless fold words state.directory call ∧ HarmlessRun words (state.publish words call) rest

end Manifests

/-! ## Names apart -/

section Apart

variable {fold : PyText → PyText} {tree made : ExchangeTree} {path parent : List PyText}
  {name last : PyText}

/-- A tree is apart when the names of its root are and so is each directory below. -/
theorem apart_iff {seen : List PyText} : Apart fold seen tree ↔
    (tree.names.map fold).Nodup ∧ (∀ name ∈ tree.names, fold name ∉ seen) ∧
      ∀ name children, tree.find? name = some (.dir children) → Apart fold [] children := by
  induction tree generalizing seen with
  | empty =>
      exact iff_of_true trivial
        ⟨List.nodup_nil, fun _ among => absurd among List.not_mem_nil, nofun⟩
  | file first leaf rest ih =>
      rw [Apart, ih, names, List.map_cons, List.nodup_cons, List.forall_mem_cons]
      constructor
      · rintro ⟨fresh, distinct, unseen, below⟩
        refine ⟨⟨fun among => ?_, distinct⟩, ⟨fresh, fun name among => ?_⟩,
          fun name inner found => ?_⟩
        · obtain ⟨other, listed, same⟩ := List.mem_map.mp among
          exact unseen other listed (same ▸ List.mem_cons_self)
        · exact fun member => unseen name among (List.mem_cons_of_mem _ member)
        · rw [find?] at found
          split at found
          · cases found
          · exact below name inner found
      · rintro ⟨⟨alone, distinct⟩, ⟨fresh, unseen⟩, below⟩
        refine ⟨fresh, distinct, fun name among member => ?_, fun name inner found => ?_⟩
        · rcases List.mem_cons.mp member with same | later
          · exact alone (same ▸ List.mem_map_of_mem among)
          · exact unseen name among later
        · apply below name inner
          rw [find?, if_neg, found]
          rintro rfl
          exact alone (List.mem_map_of_mem (mem_names_of_find? found))
  | dir first children rest _ ih =>
      rw [Apart, ih, names, List.map_cons, List.nodup_cons, List.forall_mem_cons]
      constructor
      · rintro ⟨fresh, inside, distinct, unseen, below⟩
        refine ⟨⟨fun among => ?_, distinct⟩, ⟨fresh, fun name among => ?_⟩,
          fun name inner found => ?_⟩
        · obtain ⟨other, listed, same⟩ := List.mem_map.mp among
          exact unseen other listed (same ▸ List.mem_cons_self)
        · exact fun member => unseen name among (List.mem_cons_of_mem _ member)
        · rw [find?] at found
          split at found
          · cases found
            exact inside
          · exact below name inner found
      · rintro ⟨⟨alone, distinct⟩, ⟨fresh, unseen⟩, below⟩
        refine ⟨fresh, below first children (by rw [find?, if_pos rfl]), distinct,
          fun name among member => ?_, fun name inner found => ?_⟩
        · rcases List.mem_cons.mp member with same | later
          · exact alone (same ▸ List.mem_map_of_mem among)
          · exact unseen name among later
        · apply below name inner
          rw [find?, if_neg, found]
          rintro rfl
          exact alone (List.mem_map_of_mem (mem_names_of_find? found))

/-- An entry set into a tree keeps it apart when its name is there or folds to none, and what it
holds is apart. -/
theorem apart_set (apart : Apart fold [] tree) (node : Node PyText Leaf) :
    Apart fold [] (tree.set name node) ↔
      (name ∈ tree.names ∨ ∀ other ∈ tree.names, fold other ≠ fold name) ∧
        ∀ children, node = .dir children → Apart fold [] children := by
  obtain ⟨distinct, -, below⟩ := apart_iff.mp apart
  have unseen : ∀ other ∈ (tree.set name node).names, fold other ∉ ([] : List PyText) :=
    fun _ _ => List.not_mem_nil
  have entries : (∀ other children, (tree.set name node).find? other = some (.dir children) →
      Apart fold [] children) ↔ ∀ children, node = .dir children → Apart fold [] children := by
    constructor
    · intro all children shape
      exact all name children (by rw [find?_set, if_pos rfl, shape])
    · intro inside other children found
      rw [find?_set] at found
      split at found
      · exact inside children (Option.some.inj found)
      · exact below other children found
  rw [apart_iff, and_iff_right unseen, entries, names_set]
  apply and_congr_left
  intro _
  by_cases there : name ∈ tree.names
  · rw [if_pos there]
    exact iff_of_true distinct (Or.inl there)
  · rw [if_neg there, or_iff_right there, List.map_append, List.map_singleton, List.nodup_append]
    constructor
    · rintro ⟨-, -, other⟩ beside among
      exact other _ (List.mem_map_of_mem among) _ (List.mem_singleton_self _)
    · intro other
      refine ⟨distinct, List.nodup_singleton _, ?_⟩
      rintro _ listed _ single
      obtain ⟨beside, among, rfl⟩ := List.mem_map.mp listed
      rw [List.mem_singleton.mp single]
      exact other beside among

theorem fits_empty (path : List PyText) : Fits fold path (.empty : ExchangeTree) := by
  cases path with
  | nil => trivial
  | cons name path => exact fun _ among => absurd among List.not_mem_nil

/-- Making directories keeps a tree apart exactly when their names fit. -/
theorem apart_makeDirs (apart : Apart fold [] tree) (makes : tree.makeDirs path = some made) :
    Apart fold [] made ↔ Fits fold path tree := by
  induction path generalizing tree made with
  | nil =>
      cases makes
      exact iff_of_true apart trivial
  | cons name path ih =>
      rw [makeDirs] at makes
      rw [Fits]
      cases found : tree.find? name with
      | none =>
          rw [found] at makes
          obtain ⟨inner, below, rfl⟩ := Option.map_eq_some_iff.mp makes
          have empty : Apart fold [] (.empty : ExchangeTree) := trivial
          have inside : Apart fold [] inner := (ih empty below).mpr (fits_empty path)
          rw [apart_set apart, or_iff_right (find?_eq_none.mp found)]
          apply and_iff_left
          rintro children ⟨⟩
          exact inside
      | some node =>
          cases node with
          | file leaf =>
              rw [found] at makes
              cases makes
          | dir children =>
              rw [found] at makes
              obtain ⟨inner, below, rfl⟩ := Option.map_eq_some_iff.mp makes
              have inside := (apart_iff.mp apart).2.2 name children found
              rw [apart_set apart, and_iff_right (Or.inl (mem_names_of_find? found))]
              dsimp only
              rw [← ih inside below]
              exact ⟨fun all => all inner rfl, fun one _ same => by cases same; exact one⟩

/-- Placing a file in directories that are made keeps a tree apart exactly when its path fits. -/
theorem apart_place (apart : Apart fold [] tree) (makes : tree.makeDirs parent = some made)
    (leaf : Leaf) (free : made.isDir (parent ++ [last]) = false) :
    Apart fold [] (made.place leaf last parent) ↔ Fits fold (parent ++ [last]) tree := by
  induction parent generalizing tree made with
  | nil =>
      cases makes
      rw [place, apart_set apart, List.nil_append, Fits, and_iff_left fun _ below => by cases below]
      rw [List.nil_append, isDir] at free
      cases found : tree.find? last with
      | none => rw [or_iff_right (find?_eq_none.mp found)]
      | some node =>
          have there := mem_names_of_find? found
          cases node with
          | file old => exact iff_of_true (Or.inl there) trivial
          | dir children =>
              rw [found] at free
              cases free
  | cons name parent ih =>
      rw [makeDirs] at makes
      rw [List.cons_append, Fits]
      cases found : tree.find? name with
      | none =>
          rw [found] at makes
          obtain ⟨inner, below, rfl⟩ := Option.map_eq_some_iff.mp makes
          rw [List.cons_append, isDir, find?_set, if_pos rfl] at free
          have empty : Apart fold [] (.empty : ExchangeTree) := trivial
          have inside := (ih empty below free).mpr (fits_empty _)
          rw [place, find?_set, if_pos rfl]
          dsimp only
          rw [set_set, apart_set apart, or_iff_right (find?_eq_none.mp found)]
          apply and_iff_left
          rintro children ⟨⟩
          exact inside
      | some node =>
          cases node with
          | file old =>
              rw [found] at makes
              cases makes
          | dir children =>
              rw [found] at makes
              obtain ⟨inner, below, rfl⟩ := Option.map_eq_some_iff.mp makes
              rw [List.cons_append, isDir, find?_set, if_pos rfl] at free
              have inside := (apart_iff.mp apart).2.2 name children found
              rw [place, find?_set, if_pos rfl]
              dsimp only
              rw [set_set, apart_set apart, and_iff_right (Or.inl (mem_names_of_find? found)),
                ← ih inside below free]
              exact ⟨fun all => all _ rfl, fun one _ same => by cases same; exact one⟩

end Apart

end Orchestrator.Exchange
