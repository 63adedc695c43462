import Mathlib.Data.List.Infix
import Orchestrator.Config.MergePaths

/-! # What an upgrade keeps and adds

The result of an upgrade is told path by path: an operator's leaf stands, a topmost path of the
template that the operator lacks is taken with what is below it,
and there is nothing else. An upgrade
of the result changes nothing.
-/

namespace Orchestrator.Config

open Orchestrator.Foundation
open Orchestrator.Foundation.Nested (shape setEntry removeAt UniqueKeys lookup_cons_ite
  lookup_eq_none_iff lookup_setEntry lookup_of_mem shape_mapping_cons shape_nil)

variable {α : Type} {template operator : ConfigEntries α} {key : String} {path : List String}

/-! ## What a merge leaves as it is -/

/-- A value to which the merge of a template's value has nothing to add. -/
inductive Settled : ConfigValue α → ConfigValue α → Prop where
  | apart {value own : ConfigValue α} (leaf : value.leaf? ≠ none ∨ own.leaf? ≠ none) :
      Settled value own
  | mapping {template operator : ConfigEntries α}
      (order : template.map Prod.fst <+: operator.map Prod.fst)
      (values : ∀ key value own, template.lookup key = some value →
        operator.lookup key = some own → Settled value own) :
      Settled (.mapping template) (.mapping operator)

/-- Entries with the same keys in the same order and the same values are the same. -/
theorem entries_ext {entries other : ConfigEntries α} (nodup : (entries.map Prod.fst).Nodup)
    (keys : entries.map Prod.fst = other.map Prod.fst)
    (values : ∀ key, entries.lookup key = other.lookup key) : entries = other := by
  have otherNodup := keys ▸ nodup
  apply List.ext_getElem
  · simpa only [List.length_map] using congrArg List.length keys
  · intro index bound otherBound
    have key : entries[index].1 = other[index].1 := by
      have same := List.getElem_of_eq keys (by rwa [List.length_map])
      rwa [List.getElem_map, List.getElem_map] at same
    have left : entries.lookup entries[index].1 = some entries[index].2 :=
      lookup_of_mem nodup (List.getElem_mem bound)
    have right : other.lookup other[index].1 = some other[index].2 :=
      lookup_of_mem otherNodup (List.getElem_mem otherBound)
    rw [values, key, right] at left
    exact Prod.ext key (Option.some.inj left).symm

theorem keys_merge (start : String) (template operator : ConfigEntries α) :
    (merge start template operator).1.map Prod.fst =
      template.map Prod.fst ++ (onlyOperator template operator).map Prod.fst := by
  change ((mergeEntries start operator template).1 ++ onlyOperator template operator).map _ = _
  rw [mergeEntries_fst, List.map_append, List.map_map]
  rfl

theorem keys_onlyOperator {rest : List String} (nodup : (operator.map Prod.fst).Nodup)
    (order : operator.map Prod.fst = template.map Prod.fst ++ rest) :
    (onlyOperator template operator).map Prod.fst = rest := by
  have filtered : (onlyOperator template operator).map Prod.fst =
      (operator.map Prod.fst).filter fun key => (template.lookup key).isNone := by
    rw [onlyOperator, List.filter_map]
    rfl
  rw [order] at nodup
  rw [filtered, order, List.filter_append]
  have none_left : (template.map Prod.fst).filter
    (fun key => (template.lookup key).isNone) = [] := by
    refine List.filter_eq_nil_iff.mpr fun key among absent => ?_
    rw [Option.isNone_iff_eq_none, lookup_eq_none_iff] at absent
    exact absent among
  have all_kept : rest.filter (fun key => (template.lookup key).isNone) = rest := by
    refine List.filter_eq_self.mpr fun key among => ?_
    rw [Option.isNone_iff_eq_none, lookup_eq_none_iff]
    exact fun theirs => (List.nodup_append'.mp nodup).2.2 theirs among
  rw [none_left, all_kept, List.nil_append]

theorem added_settled (start : String) (operator : ConfigEntries α) {entries : ConfigEntries α}
    (settled : ∀ entry ∈ entries, ∃ own, operator.lookup entry.1 = some own ∧
      ∀ label, mergeValue label entry.2 own = (own, [])) :
    (mergeEntries start operator entries).2 = [] := by
  induction entries with
  | nil => rfl
  | cons entry rest ih =>
      rw [List.forall_mem_cons] at settled
      obtain ⟨⟨own, found, same⟩, later⟩ := settled
      have first : (mergeEntry start operator entry).2 = [] := by
        rw [mergeEntry.eq_def]
        dsimp only
        rw [found]
        exact congrArg Prod.snd (same _)
      change (mergeEntry start operator entry).2 ++ _ = []
      rw [first, ih later]
      rfl

/-- A merge has nothing to add to entries that begin with the keys of the template, and whose values
it leaves as they are. -/
theorem merge_eq_self (start : String) (ownUnique : (operator.map Prod.fst).Nodup)
    (order : template.map Prod.fst <+: operator.map Prod.fst)
    (found : ∀ entry ∈ template, ∃ own, operator.lookup entry.1 = some own ∧
      ∀ label, mergeValue label entry.2 own = (own, [])) :
    merge start template operator = (operator, []) := by
  obtain ⟨rest, keys⟩ := order
  have same : (merge start template operator).1 = operator := by
    have sameKeys : (merge start template operator).1.map Prod.fst = operator.map Prod.fst := by
      rw [keys_merge, keys_onlyOperator ownUnique keys.symm, keys]
    refine entries_ext (sameKeys ▸ ownUnique) sameKeys fun key => ?_
    rw [lookup_merge]
    cases theirs : template.lookup key with
    | none => rfl
    | some value =>
        obtain ⟨own, ours, merged⟩ := found _ (Nested.mem_of_lookup theirs)
        dsimp only at ours merged ⊢
        rw [mergedValue, ours]
        dsimp only
        rw [merged]
  exact Prod.ext same (added_settled start operator found)

/-- The values of settled entries are settled. -/
theorem Settled.found (settled : Settled (.mapping template) (.mapping operator))
    (unique : UniqueKeys (.mapping template)) : template.map Prod.fst <+: operator.map Prod.fst ∧
      ∀ entry ∈ template, ∃ own, operator.lookup entry.1 = some own ∧ Settled entry.2 own := by
  cases settled with
  | apart leaf => exact leaf.elim (absurd rfl) (absurd rfl)
  | mapping order values =>
      refine ⟨order, fun entry among => ?_⟩
      cases ours : operator.lookup entry.1 with
      | none =>
          have there := order.subset (List.mem_map.mpr ⟨entry, among, rfl⟩)
          exact absurd there (lookup_eq_none_iff.mp ours)
      | some own =>
          exact ⟨own, rfl, values _ _ _ (lookup_of_mem unique.keys among) ours⟩

/-- A merge has nothing to add to what is settled. -/
theorem Settled.mergeValue_eq {value own : ConfigValue α} (settled : Settled value own)
    (unique : UniqueKeys value) (ownUnique : UniqueKeys own) (label : String) :
    mergeValue label value own = (own, []) := by
  induction value using Nested.induct generalizing own label with
  | leaf value => exact mergeValue_leaf label (.inl (Option.some_ne_none value))
  | mapping entries ih =>
      cases own with
      | leaf own => exact mergeValue_leaf label (.inr (Option.some_ne_none own))
      | mapping inner =>
          obtain ⟨order, found⟩ := settled.found unique
          rw [mergeValue_mapping, merge_eq_self _ ownUnique.keys order]
          intro entry among
          obtain ⟨own, ours, within⟩ := found entry among
          exact ⟨own, ours, fun label => ih entry among within
            (unique.lookup (lookup_of_mem unique.keys among)) (ownUnique.lookup ours) label⟩

theorem Settled.merge_eq (settled : Settled (.mapping template) (.mapping operator))
    (unique : UniqueKeys (.mapping template)) (ownUnique : UniqueKeys (.mapping operator))
    (start : String) : merge start template operator = (operator, []) := by
  obtain ⟨order, found⟩ := settled.found unique
  apply merge_eq_self _ ownUnique.keys order
  intro entry among
  obtain ⟨own, ours, within⟩ := found entry among
  exact ⟨own, ours, within.mergeValue_eq (unique.lookup (lookup_of_mem unique.keys among))
    (ownUnique.lookup ours)⟩

/-- A value is settled against itself, and what a merge makes is settled. -/
theorem settled_mergeValue (value : ConfigValue α) : UniqueKeys value →
    Settled value value ∧ ∀ label own, Settled value (mergeValue label value own).1 := by
  induction value using Nested.induct with
  | leaf value =>
      exact fun _ => ⟨.apart (.inl (Option.some_ne_none value)),
        fun _ _ => .apart (.inl (Option.some_ne_none value))⟩
  | mapping entries ih =>
      intro unique
      have within {key : String} {value : ConfigValue α}
        (found : entries.lookup key = some value) :=
        ih _ (Nested.mem_of_lookup found) (unique.lookup found)
      constructor
      · refine .mapping List.prefix_rfl fun key value own theirs ours => ?_
        rw [theirs] at ours
        cases ours
        exact (within theirs).1
      · intro label own
        cases own with
        | leaf own => exact .apart (.inr (Option.some_ne_none own))
        | mapping inner =>
            rw [mergeValue_mapping]
            refine .mapping ?_ fun key value own theirs ours => ?_
            · rw [keys_merge]
              exact List.prefix_append _ _
            · rw [lookup_merge, theirs] at ours
              cases ours
              rw [mergedValue]
              cases inner.lookup key with
              | none => exact (within theirs).1
              | some own => exact (within theirs).2 _ own

theorem settled_merge (unique : UniqueKeys (.mapping template)) (start : String)
    (operator : ConfigEntries α) :
    Settled (.mapping template) (.mapping (merge start template operator).1) := by
  refine .mapping ?_ fun key value own theirs ours => ?_
  · rw [keys_merge]
    exact List.prefix_append _ _
  · have within := settled_mergeValue value (unique.lookup theirs)
    rw [lookup_merge, theirs] at ours
    cases ours
    rw [mergedValue]
    cases operator.lookup key with
    | none => exact within.1
    | some own => exact within.2 _ own

theorem prefix_keys_setEntry {keys : List String} {value : ConfigValue α}
    {entries : ConfigEntries α} (order : keys <+: entries.map Prod.fst) :
    keys <+: (setEntry key value entries).map Prod.fst := by
  refine order.trans ?_
  clear order
  induction entries with
  | nil => exact List.nil_prefix
  | cons entry rest ih =>
      rw [setEntry]
      by_cases here : entry.1 = key
      · rw [if_pos here, List.map_cons, List.map_cons]
        exact List.cons_prefix_cons.mpr ⟨here, List.prefix_rfl⟩
      · rw [if_neg here, List.map_cons, List.map_cons]
        exact List.cons_prefix_cons.mpr ⟨rfl, ih⟩

/-- A key that is set to a settled value leaves the entries settled. -/
theorem Settled.setEntry {entries : ConfigEntries α} {own : ConfigValue α}
    (settled : Settled (.mapping template) (.mapping entries))
    (set : ∀ value, template.lookup key = some value → Settled value own) :
    Settled (.mapping template) (.mapping (setEntry key own entries)) := by
  cases settled with
  | apart leaf => exact leaf.elim (absurd rfl) (absurd rfl)
  | mapping order values =>
      refine .mapping (prefix_keys_setEntry order) fun other value found theirs ours => ?_
      rw [lookup_setEntry] at ours
      by_cases same : other = key
      · rw [if_pos same] at ours
        cases ours
        exact set value (same ▸ theirs)
      · rw [if_neg same] at ours
        exact values other value found theirs ours

/-- A key that the template does not have can be removed. -/
theorem Settled.removeAt {parts : List String} {entries left : ConfigEntries α}
    (settled : Settled (.mapping template) (.mapping entries))
    (absent : shape (.mapping template) (parts ++ [key]) = none)
    (removed : removeAt key parts entries = some left) :
    Settled (.mapping template) (.mapping left) := by
  induction parts generalizing template entries left with
  | nil =>
      rw [Nested.removeAt] at removed
      split at removed
      · cases removed
        have unknown : template.lookup key = none := by
          rw [List.nil_append, shape_mapping_cons] at absent
          cases found : template.lookup key with
          | none => rfl
          | some value =>
              rw [found, Option.bind_some, shape_nil] at absent
              cases absent
        cases settled with
        | apart leaf => exact leaf.elim (absurd rfl) (absurd rfl)
        | mapping order values =>
            refine .mapping ?_ fun other value own theirs ours => ?_
            · obtain ⟨rest, keys⟩ := order
              have filtered : (Nested.eraseEntry key entries).map Prod.fst =
                  (entries.map Prod.fst).filter fun other => other ≠ key := by
                rw [Nested.eraseEntry, List.filter_map]
                rfl
              have all_kept : (template.map Prod.fst).filter (fun other => other ≠ key) =
                  template.map Prod.fst := by
                refine List.filter_eq_self.mpr fun other among => decide_eq_true ?_
                rintro rfl
                exact lookup_eq_none_iff.mp unknown among
              rw [filtered, ← keys, List.filter_append, all_kept]
              exact List.prefix_append _ _
            · rw [Nested.lookup_eraseEntry] at ours
              by_cases same : other = key
              · rw [if_pos same] at ours
                cases ours
              · rw [if_neg same] at ours
                exact values other value own theirs ours
      · cases removed
  | cons part parts ih =>
      rw [Nested.removeAt] at removed
      split at removed
      · next inner found =>
          obtain ⟨kept, gone, rfl⟩ := Option.map_eq_some_iff.mp removed
          refine settled.setEntry fun value theirs => ?_
          rw [List.cons_append, shape_mapping_cons, theirs, Option.bind_some] at absent
          cases value with
          | leaf value => exact .apart (.inl (Option.some_ne_none value))
          | mapping below =>
              refine ih ?_ absent gone
              cases settled with
              | apart leaf => exact leaf.elim (absurd rfl) (absurd rfl)
              | mapping order values => exact values part _ _ theirs found
      · cases removed

/-! ## The removed keys -/

/-- The path of a removed key. -/
def removedPath (removed : String × String) : List String :=
  parentParts removed.1 ++ [removed.2]

/-- A path is at or below a removed key. -/
def Removed (path : List String) : Prop := ∃ removed ∈ removedKeys, removedPath removed <+: path

/-- The removed keys that entries have. -/
def removedIn (entries : ConfigEntries α) (keys : List (String × String)) :
    List (String × String) :=
  keys.filter fun removed => (shape (.mapping entries) (removedPath removed)).isSome

/-- What is at and below some keys is gone, and everything else stands. -/
structure Stripped (keys : List (String × String)) (entries left : ConfigEntries α) : Prop where
  gone : ∀ path, (∃ removed ∈ keys, removedPath removed <+: path) →
    shape (.mapping left) path = none
  stands : ∀ path, (¬ ∃ removed ∈ keys, removedPath removed <+: path) →
    shape (.mapping left) path = shape (.mapping entries) path

theorem stripKey_of_none {removed : String × String} {state : ConfigEntries α × List String}
    (absent : shape (.mapping state.1) (removedPath removed) = none) :
    stripKey state removed = state := by
  rw [stripKey, Nested.removeAt_eq_none_iff.mpr absent]

/-- One key is stripped. -/
theorem stripKey_spec (removed : String × String) (entries : ConfigEntries α)
    (labels : List String) :
    Stripped [removed] entries (stripKey (entries, labels) removed).1 ∧
      (stripKey (entries, labels) removed).2 =
        labels ++ (removedIn entries [removed]).map removedLabel := by
  rw [stripKey, removedIn, List.filter_cons, List.filter_nil]
  cases found : removeAt removed.2 (parentParts removed.1) entries with
  | none =>
      have absent : shape (.mapping entries) (removedPath removed) = none :=
        Nested.removeAt_eq_none_iff.mp found
      refine ⟨⟨?_, fun _ _ => rfl⟩, ?_⟩
      · rintro path ⟨_, same, within⟩
        rw [List.mem_singleton.mp same] at within
        exact Nested.shape_eq_none_of_prefix within absent
      · rw [absent, if_neg (by exact Bool.false_ne_true)]
        exact (List.append_nil _).symm
  | some left =>
      have there : (shape (.mapping entries) (removedPath removed)).isSome = true := by
        rw [Option.isSome_iff_ne_none]
        intro absent
        rw [Nested.removeAt_eq_none_iff.mpr absent] at found
        cases found
      refine ⟨⟨?_, ?_⟩, ?_⟩
      · rintro path ⟨_, same, within⟩
        rw [List.mem_singleton.mp same] at within
        exact (Nested.shape_removeAt found path).1 within
      · intro path outside
        exact (Nested.shape_removeAt found path).2 fun within =>
          outside ⟨removed, List.mem_singleton_self _, within⟩
      · rw [if_pos there]
        rfl

/-- Keys of which none is below another are stripped one by one. -/
theorem foldl_stripKey (keys : List (String × String)) (entries : ConfigEntries α)
    (labels : List String)
    (apart : keys.Pairwise fun first later => ¬ removedPath first <+: removedPath later) :
    Stripped keys entries (keys.foldl stripKey (entries, labels)).1 ∧
      (keys.foldl stripKey (entries, labels)).2 =
        labels ++ (removedIn entries keys).map removedLabel := by
  induction keys generalizing entries labels with
  | nil =>
      refine ⟨⟨?_, fun _ _ => rfl⟩, (List.append_nil _).symm⟩
      rintro path ⟨_, none, _⟩
      exact absurd none List.not_mem_nil
  | cons first keys ih =>
      rw [List.pairwise_cons] at apart
      obtain ⟨one, oneLabels⟩ := stripKey_spec first entries labels
      obtain ⟨rest, restLabels⟩ := ih (stripKey (entries, labels) first).1
        (stripKey (entries, labels) first).2 apart.2
      have single {path : List String} (outside : ¬ removedPath first <+: path) :
          ¬ ∃ removed ∈ [first], removedPath removed <+: path := by
        rintro ⟨_, same, within⟩
        rw [List.mem_singleton.mp same] at within
        exact outside within
      rw [List.foldl_cons]
      refine ⟨⟨?_, ?_⟩, ?_⟩
      · rintro path ⟨removed, among, within⟩
        by_cases later : ∃ removed ∈ keys, removedPath removed <+: path
        · exact rest.gone path later
        · rw [rest.stands path later]
          rcases List.mem_cons.mp among with rfl | among
          · exact one.gone path ⟨_, List.mem_singleton_self _, within⟩
          · exact absurd ⟨removed, among, within⟩ later
      · intro path outside
        rw [List.exists_mem_cons_iff, not_or] at outside
        rw [rest.stands path outside.2, one.stands path (single outside.1)]
      · have same : removedIn (stripKey (entries, labels) first).1 keys =
          removedIn entries keys := by
          apply List.filter_congr
          intro removed among
          rw [one.stands _ (single (apart.1 removed among))]
        have parts : removedIn entries (first :: keys) =
            removedIn entries [first] ++ removedIn entries keys := by
          rw [removedIn, removedIn, removedIn, ← List.filter_append]
          rfl
        rw [restLabels, oneLabels, same, parts, List.map_append, List.append_assoc]

theorem removedKeys_apart :
    removedKeys.Pairwise fun first later => ¬ removedPath first <+: removedPath later := by
  decide +kernel

theorem stripRemovedKeys_spec (entries : ConfigEntries α) :
    Stripped removedKeys entries (stripRemovedKeys entries).1 ∧
      (stripRemovedKeys entries).2 = (removedIn entries removedKeys).map removedLabel :=
  foldl_stripKey removedKeys entries [] removedKeys_apart

/-- What one key of `strip_removed_keys` keeps, all of them keep. -/
theorem stripRemovedKeys_induction {property : ConfigEntries α → Prop} {entries : ConfigEntries α}
    (begins : property entries)
    (keeps : ∀ removed ∈ removedKeys, ∀ entries left, property entries →
      removeAt removed.2 (parentParts removed.1) entries = some left → property left) :
    property (stripRemovedKeys entries).1 := by
  have within (keys : List (String × String)) (known : keys ⊆ removedKeys)
      (state : ConfigEntries α × List String) (holds : property state.1) :
      property (keys.foldl stripKey state).1 := by
    induction keys generalizing state with
    | nil => exact holds
    | cons first keys ih =>
        rw [List.cons_subset] at known
        rw [List.foldl_cons]
        apply ih known.2
        rw [stripKey]
        cases found : removeAt first.2 (parentParts first.1) state.1 with
        | none => exact holds
        | some left => exact keeps first known.1 _ _ holds found
  exact within removedKeys (List.Subset.refl _) (entries, []) begins

theorem stripRemovedKeys_of_none {entries : ConfigEntries α}
    (absent : ∀ removed ∈ removedKeys, shape (.mapping entries) (removedPath removed) = none) :
    stripRemovedKeys entries = (entries, []) := by
  have within (keys : List (String × String)) (known : keys ⊆ removedKeys) :
      keys.foldl stripKey (entries, []) = (entries, []) := by
    induction keys with
    | nil => rfl
    | cons first keys ih =>
        rw [List.cons_subset] at known
        rw [List.foldl_cons, stripKey_of_none (absent first known.1), ih known.2]
  exact within removedKeys (List.Subset.refl _)

theorem unique_stripRemovedKeys {entries : ConfigEntries α}
    (unique : UniqueKeys (.mapping entries)) :
    UniqueKeys (.mapping (stripRemovedKeys entries).1) :=
  @stripRemovedKeys_induction α (fun entries => UniqueKeys (.mapping entries)) entries unique
    fun _ _ _ _ unique removed => unique.removeAt removed

/-- The parts of an upgrade. -/
theorem upgradeConfigMapping_eq (template operator : ConfigEntries α) :
    upgradeConfigMapping template operator =
      (setEntry "schema_version" (.leaf (.inl configSchemaVersion))
        (stripRemovedKeys (merge "" template operator).1).1, (merge "" template operator).2,
        (stripRemovedKeys (merge "" template operator).1).2) := by
  dsimp only [upgradeConfigMapping]

/-! ## The law -/

/-- A mapping whose keys are unique at every level. -/
structure ConfigMapping (α : Type) where
  entries : ConfigEntries α
  unique : UniqueKeys (.mapping entries)

/-- An upgrade of mappings gives a mapping. -/
def ConfigMapping.upgraded (template operator : ConfigMapping α) : ConfigMapping α where
  entries := (upgradeConfigMapping template.entries operator.entries).1
  unique := by
    rw [upgradeConfigMapping_eq]
    dsimp only
    exact (unique_stripRemovedKeys (unique_merge "" template.unique operator.unique)).setEntry
      (.leaf _)

/-- The paths that an upgrade reports as added. -/
def ConfigMapping.added (template operator : ConfigMapping α) : List String :=
  (upgradeConfigMapping template.entries operator.entries).2.1

/-- The paths that an upgrade reports as removed. -/
def ConfigMapping.removed (template operator : ConfigMapping α) : List String :=
  (upgradeConfigMapping template.entries operator.entries).2.2

/-- What is at a path of a mapping. -/
def ConfigMapping.at (mapping : ConfigMapping α) (path : List String) : Option (Option (Nat ⊕ α)) :=
  shape (.mapping mapping.entries) path

/-- The parents of a path are mappings. -/
def ConfigMapping.HasParents (mapping : ConfigMapping α) (path : List String) : Prop :=
  ∀ front, front <+: path → front ≠ path → mapping.at front = some none

/-- A mapping has none of the removed keys. -/
def ConfigMapping.Current (mapping : ConfigMapping α) : Prop :=
  ∀ removed ∈ removedKeys, mapping.at (removedPath removed) = none

instance [DecidableEq α] (mapping : ConfigMapping α) : Decidable mapping.Current :=
  inferInstanceAs (Decidable (∀ removed ∈ removedKeys, mapping.at (removedPath removed) = none))

/-- What an upgrade keeps, adds, removes and reports. -/
structure UpgradeLaw (template operator : ConfigMapping α) : Prop where
  /-- What the operator has stands, but for the removed keys and the version. -/
  kept : ∀ path kind, operator.at path = some kind → ¬ Removed path →
    path.head? ≠ some "schema_version" → (template.upgraded operator).at path = some kind
  /-- A path of the template whose parents are mappings of both is there. -/
  completed : ∀ path, template.at path ≠ none → operator.HasParents path →
    (path.head? = some "schema_version" → path = ["schema_version"]) →
      (template.upgraded operator).at path ≠ none
  /-- There is nothing else. -/
  nothingElse : ∀ path, (template.upgraded operator).at path ≠ none → path = ["schema_version"] ∨
    ¬ Removed path ∧ (operator.at path ≠ none ∨ ∃ front, front <+: path ∧
      Taken template.entries operator.entries front ∧
        (template.upgraded operator).at path = template.at path)
  /-- The version is stamped. -/
  version : (template.upgraded operator).at ["schema_version"] =
    some (some (.inl configSchemaVersion))
  /-- The topmost paths that are taken are reported, each once. -/
  added : ∃ paths : List (List String), paths.Nodup ∧
    (∀ path, path ∈ paths ↔ Taken template.entries operator.entries path) ∧
      template.added operator = paths.map dotted
  /-- The removed keys that the operator had are reported. -/
  removed : template.removed operator =
    (removedKeys.filter fun removed => (operator.at (removedPath removed)).isSome).map removedLabel
  /-- A second upgrade changes nothing and reports nothing. -/
  again : upgradeConfigMapping template.entries (template.upgraded operator).entries =
    ((template.upgraded operator).entries, [], [])

/-- A leaf of the operator stands before the end of a path only when a parent is no mapping. -/
theorem blocked_eq_false {value : ConfigValue α}
    (parents : ∀ front, front <+: path → front ≠ path → shape value front = some none) :
    blocked value path = false := by
  induction path generalizing value with
  | nil =>
      cases value with
      | leaf _ => rfl
      | mapping _ => rfl
  | cons key path ih =>
      have root := parents [] List.nil_prefix (List.cons_ne_nil key path).symm
      cases value with
      | leaf _ => cases root
      | mapping entries =>
          rw [blocked]
          cases found : entries.lookup key with
          | none => rfl
          | some value =>
              rw [Option.any_some]
              apply ih
              intro front before proper
              have outer := parents (key :: front) (List.cons_prefix_cons.mpr ⟨rfl, before⟩)
                fun same => proper (List.cons.inj same).2
              rwa [shape_mapping_cons, found, Option.bind_some] at outer

/-- A path of the template that the operator lacks is at or below a topmost one, where no leaf of
the operator stands before it. -/
theorem exists_taken (there : shape (.mapping template) path ≠ none)
    (lacking : shape (.mapping operator) path = none)
    (free : blocked (.mapping operator) path = false) :
    ∃ front, front <+: path ∧ Taken template operator front := by
  induction path generalizing template operator with
  | nil => cases lacking
  | cons key path ih =>
      rw [shape_mapping_cons] at there lacking
      obtain ⟨kind, found⟩ := Option.ne_none_iff_exists'.mp there
      obtain ⟨value, theirs, within⟩ := Option.bind_eq_some_iff.mp found
      cases ours : operator.lookup key with
      | none =>
          exact ⟨[key], List.prefix_append [key] path,
            taken_cons_iff.mpr ⟨value, theirs, .inl ⟨ours, rfl⟩⟩⟩
      | some own =>
          rw [blocked, ours, Option.any_some] at free
          rw [ours, Option.bind_some] at lacking
          cases path with
          | nil =>
              rw [shape_nil] at lacking
              cases lacking
          | cons next rest =>
              cases own with
              | leaf _ => cases free
              | mapping inner =>
                  cases value with
                  | leaf _ => cases within
                  | mapping below =>
                      have deeper : shape (.mapping below) (next :: rest) ≠ none := by
                        rw [within]
                        exact Option.some_ne_none _
                      obtain ⟨front, before, taken⟩ := ih deeper lacking free
                      exact ⟨key :: front, List.cons_prefix_cons.mpr ⟨rfl, before⟩,
                        taken_cons_iff.mpr ⟨_, theirs, .inr ⟨below, inner, rfl, ours, taken⟩⟩⟩

theorem head_removedPath : ∀ removed ∈ removedKeys,
    (removedPath removed).head? ≠ some "schema_version" ∧ removedPath removed ≠ [] := by
  decide +kernel

/-- The result, path by path. -/
theorem at_upgraded (template operator : ConfigMapping α) (path : List String) :
    (template.upgraded operator).at path =
      if path.head? = some "schema_version" then
        shape (.leaf (.inl configSchemaVersion)) path.tail
      else shape (.mapping
        (stripRemovedKeys (merge "" template.entries operator.entries).1).1) path := by
  rw [ConfigMapping.at, ConfigMapping.upgraded]
  dsimp only
  rw [upgradeConfigMapping_eq]
  dsimp only
  rw [Nested.shape_setEntry]

/-- An upgrade leaves nothing for a second one to add. -/
theorem settled_upgraded {template : ConfigMapping α} (current : template.Current)
    (operator : ConfigMapping α) :
    Settled (.mapping template.entries) (.mapping (template.upgraded operator).entries) := by
  rw [ConfigMapping.upgraded]
  dsimp only
  rw [upgradeConfigMapping_eq]
  dsimp only
  have stripped : Settled (.mapping template.entries)
      (.mapping (stripRemovedKeys (merge "" template.entries operator.entries).1).1) :=
    @stripRemovedKeys_induction α (fun entries => Settled (.mapping template.entries)
      (.mapping entries)) _ (settled_merge template.unique "" operator.entries)
      fun removed among _ _ settled gone => settled.removeAt (current removed among) gone
  exact stripped.setEntry fun _ _ => .apart (.inr (Option.some_ne_none _))

/-- Every upgrade with a template that has none of the removed keys follows the law. -/
theorem upgradeLaw {template operator : ConfigMapping α} (current : template.Current) :
    UpgradeLaw template operator := by
  obtain ⟨stripped, labels⟩ :=
    stripRemovedKeys_spec (merge "" template.entries operator.entries).1
  have paths (path : List String) := shape_merge "" template.entries operator.entries path
  have theirs {path : List String} (there : template.at path ≠ none) : ¬ Removed path := by
    rintro ⟨removed, among, within⟩
    exact there (Nested.shape_eq_none_of_prefix within (current removed among))
  have merged {path : List String} (stands : ¬ Removed path)
      (other : path.head? ≠ some "schema_version") : (template.upgraded operator).at path =
        shape (.mapping (merge "" template.entries operator.entries).1) path := by
    rw [at_upgraded, if_neg other, stripped.stands path stands]
  constructor
  · intro path kind ours stands other
    change shape (.mapping operator.entries) path = some kind at ours
    rw [merged stands other, paths, ours]
    rfl
  · intro path there parents onlyVersion
    by_cases version : path.head? = some "schema_version"
    · rw [at_upgraded, if_pos version, onlyVersion version]
      exact Option.some_ne_none _
    · rw [merged (theirs there) version, paths, blocked_eq_false parents, if_neg Bool.false_ne_true]
      intro none
      exact there (Option.or_eq_none_iff.mp none).2
  · intro path there
    by_cases version : path.head? = some "schema_version"
    · rw [at_upgraded, if_pos version] at there
      cases path with
      | nil => cases version
      | cons first rest =>
          cases Option.some.inj version
          cases rest with
          | nil => exact .inl rfl
          | cons _ _ => exact absurd rfl there
    · refine .inr ?_
      have stands : ¬ Removed path := by
        intro removed
        rw [at_upgraded, if_neg version, stripped.gone path removed] at there
        exact there rfl
      refine ⟨stands, ?_⟩
      rw [merged stands version, paths] at there ⊢
      by_cases ours : operator.at path = none
      · change shape (.mapping operator.entries) path = none at ours
        rw [ours, Option.none_or] at there ⊢
        by_cases free : blocked (.mapping operator.entries) path = true
        · rw [if_pos free] at there
          exact absurd rfl there
        · rw [if_neg free] at there ⊢
          obtain ⟨front, before, taken⟩ :=
            exists_taken there ours (Bool.eq_false_iff.mpr free)
          exact .inr ⟨front, before, taken, rfl⟩
      · exact .inl ours
  · have head : ["schema_version"].head? = some "schema_version" := rfl
    rw [at_upgraded, if_pos head]
    rfl
  · obtain ⟨listed, nodup, exactly, added⟩ := listsTaken_merge template.unique "" operator.entries
    refine ⟨listed, nodup, exactly, ?_⟩
    rw [ConfigMapping.added, upgradeConfigMapping_eq]
    dsimp only
    rw [added]
    exact List.map_congr_left fun path _ => String.empty_append
  · have same : removedIn (merge "" template.entries operator.entries).1 removedKeys =
        removedIn operator.entries removedKeys := by
      apply List.filter_congr
      intro removed among
      have absent : shape (.mapping template.entries) (removedPath removed) = none :=
        current removed among
      rw [paths, absent, ite_self, Option.or_none]
    rw [ConfigMapping.removed, upgradeConfigMapping_eq]
    dsimp only
    rw [labels, same]
    rfl
  · have version : (template.upgraded operator).entries.lookup "schema_version" =
        some (.leaf (.inl configSchemaVersion)) := by
      rw [ConfigMapping.upgraded]
      dsimp only
      rw [upgradeConfigMapping_eq]
      dsimp only
      rw [lookup_setEntry, if_pos rfl]
    have absent : ∀ removed ∈ removedKeys, shape
        (.mapping (template.upgraded operator).entries) (removedPath removed) = none := by
      intro removed among
      have told := at_upgraded template operator (removedPath removed)
      rw [if_neg (head_removedPath removed among).1,
        stripped.gone _ ⟨removed, among, List.prefix_rfl⟩] at told
      exact told
    rw [upgradeConfigMapping_eq, (settled_upgraded current operator).merge_eq template.unique
      (template.upgraded operator).unique, stripRemovedKeys_of_none absent,
      Nested.setEntry_of_lookup version]

/-- A template with a key that an operator with an old one lacks. -/
theorem upgradeLaw_oldPrompts : UpgradeLaw
    (⟨[("git", .leaf (.inr "new"))], .mapping (List.nodup_singleton _)
      (List.forall_mem_singleton.mpr (.leaf _))⟩ : ConfigMapping String)
    ⟨[("prompts", .leaf (.inr "old"))], .mapping (List.nodup_singleton _)
      (List.forall_mem_singleton.mpr (.leaf _))⟩ :=
  upgradeLaw (by decide +kernel)

/-- What a template has below the version is not there once the version is stamped. -/
theorem not_completed_version :
    ¬ ∀ template operator : ConfigMapping String, template.Current → ∀ path,
      template.at path ≠ none → operator.HasParents path →
        (template.upgraded operator).at path ≠ none := by
  intro completed
  let template : ConfigMapping String :=
    ⟨[("schema_version", .mapping [("major", .leaf (.inr "new"))])],
      .mapping (List.nodup_singleton _) (List.forall_mem_singleton.mpr
        (.mapping (List.nodup_singleton _) (List.forall_mem_singleton.mpr (.leaf _))))⟩
  let operator : ConfigMapping String :=
    ⟨[("schema_version", .mapping [])], .mapping (List.nodup_singleton _)
      (List.forall_mem_singleton.mpr (.mapping List.nodup_nil fun _ none =>
        absurd none List.not_mem_nil))⟩
  have parents : operator.HasParents ["schema_version", "major"] := by
    intro front before proper
    have all : ∀ front ∈ List.inits ["schema_version", "major"],
        front ≠ ["schema_version", "major"] → operator.at front = some none := by decide +kernel
    exact all front ((List.mem_inits _ _).mpr before) proper
  apply completed template operator (by decide +kernel) ["schema_version", "major"]
    (by decide +kernel) parents
  have head : ["schema_version", "major"].head? = some "schema_version" := rfl
  rw [at_upgraded, if_pos head]
  rfl

end Orchestrator.Config
