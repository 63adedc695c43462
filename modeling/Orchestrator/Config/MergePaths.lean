import Orchestrator.Config.Upgrade

/-! # The merge, path by path

A path of a merge is the operator's, or it is at or below a topmost path of the template that the
operator lacks. The merge lists these topmost paths, and keeps keys unique.
-/

namespace Orchestrator.Config

open Orchestrator.Foundation
open Orchestrator.Foundation.Nested
  (shape setEntry removeAt UniqueKeys lookup_cons_ite lookup_eq_none_iff
  lookup_setEntry lookup_of_mem shape_mapping_cons shape_nil)

variable {α : Type} {template operator : ConfigEntries α} {key : String} {path : List String}

/-! ## Paths -/

/-- A dotted path. -/
def dotted : List String → String
  | [] => ""
  | [key] => key
  | key :: next :: path => key ++ "." ++ dotted (next :: path)

/-- A topmost path of the template that the operator lacks: its parents are mappings of both. -/
structure Taken (template operator : ConfigEntries α) (path : List String) : Prop where
  there : shape (.mapping template) path ≠ none
  lacking : shape (.mapping operator) path = none
  parents : ∀ front, front <+: path → front ≠ path → shape (.mapping operator) front = some none

/-! ## The merge, path by path -/

theorem lookup_onlyOperator (template operator : ConfigEntries α) (key : String) :
    (onlyOperator template operator).lookup key =
      if (template.lookup key).isNone then operator.lookup key else none := by
  rw [onlyOperator]
  induction operator with
  | nil => exact (ite_self none).symm
  | cons entry rest ih =>
      rw [List.filter_cons]
      by_cases kept : (template.lookup entry.1).isNone = true
      · rw [if_pos kept, lookup_cons_ite, lookup_cons_ite, ih]
        by_cases same : key = entry.1
        · rw [if_pos same, if_pos same, same, if_pos kept]
        · rw [if_neg same, if_neg same]
      · rw [if_neg kept, ih, lookup_cons_ite]
        by_cases same : key = entry.1
        · rw [same, if_neg kept, if_neg kept]
        · rw [if_neg same]

/-- The value of a key of the template in the merge. -/
def mergedValue (start : String) (operator : ConfigEntries α) (key : String)
    (value : ConfigValue α) : ConfigValue α :=
  match operator.lookup key with
  | none => value
  | some own => (mergeValue (start ++ key) value own).1

theorem mergeEntry_fst (start : String) (operator : ConfigEntries α)
    (entry : String × ConfigValue α) :
    (mergeEntry start operator entry).1 =
      (entry.1, mergedValue start operator entry.1 entry.2) := by
  rw [mergeEntry.eq_def, mergedValue]
  dsimp only
  cases operator.lookup entry.1 with
  | none => rfl
  | some own => rfl

theorem mergeEntries_fst (start : String) (operator template : ConfigEntries α) :
    (mergeEntries start operator template).1 =
      template.map fun entry => (entry.1, mergedValue start operator entry.1 entry.2) := by
  induction template with
  | nil => rfl
  | cons entry rest ih =>
      rw [mergeEntries, List.map_cons, ← ih]
      exact congrArg (· :: _) (mergeEntry_fst start operator entry)

theorem lookup_map_values (change : String → ConfigValue α → ConfigValue α)
    (entries : ConfigEntries α) (key : String) :
    (entries.map fun entry => (entry.1, change entry.1 entry.2)).lookup key =
      (entries.lookup key).map (change key) := by
  induction entries with
  | nil => rfl
  | cons entry rest ih =>
      rw [List.map_cons, lookup_cons_ite, lookup_cons_ite, ih]
      by_cases same : key = entry.1
      · rw [if_pos same, if_pos same, same]
        rfl
      · rw [if_neg same, if_neg same]

/-- A key of a merge is the template's, merged with the operator's, or the operator's alone. -/
theorem lookup_merge (start : String) (template operator : ConfigEntries α) (key : String) :
    (merge start template operator).1.lookup key =
      match template.lookup key with
      | some value => some (mergedValue start operator key value)
      | none => operator.lookup key := by
  change ((mergeEntries start operator template).1 ++ onlyOperator template operator).lookup key = _
  rw [List.lookup_append, mergeEntries_fst, lookup_map_values, lookup_onlyOperator]
  cases template.lookup key with
  | none => rfl
  | some value => rfl

theorem mergeValue_mapping (label : String) (template operator : ConfigEntries α) :
    mergeValue label (.mapping template) (.mapping operator) =
      (.mapping (merge (label ++ ".") template operator).1,
        (merge (label ++ ".") template operator).2) := rfl

/-- Where one side is no mapping, the operator's value stands. -/
theorem mergeValue_leaf (label : String) {value own : ConfigValue α}
    (leaf : value.leaf? ≠ none ∨ own.leaf? ≠ none) : mergeValue label value own = (own, []) := by
  cases value with
  | leaf _ => rfl
  | mapping _ =>
      cases own with
      | leaf _ => rfl
      | mapping _ => exact leaf.elim (absurd rfl) (absurd rfl)

/-- A leaf of the operator stands before the end of a path. -/
def blocked : ConfigValue α → List String → Bool
  | _, [] => false
  | .leaf _, _ :: _ => true
  | .mapping entries, key :: path => (entries.lookup key).any fun value => blocked value path

/-- A path of a merge is the operator's, or the template's where no leaf of the operator stands
before it. -/
theorem shape_merge (start : String) (template operator : ConfigEntries α) (path : List String) :
    shape (.mapping (merge start template operator).1) path =
      (shape (.mapping operator) path).or
        (if blocked (.mapping operator) path then none else shape (.mapping template) path) := by
  induction path generalizing start template operator with
  | nil => rfl
  | cons key path ih =>
      rw [shape_mapping_cons, lookup_merge, shape_mapping_cons, shape_mapping_cons, blocked]
      cases theirs : template.lookup key with
      | none =>
          dsimp only
          rw [Option.bind_none, ite_self, Option.or_none]
      | some value =>
          dsimp only
          rw [Option.bind_some, Option.bind_some, mergedValue]
          cases ours : operator.lookup key with
          | none => rfl
          | some own =>
              dsimp only
              rw [Option.bind_some, Option.any_some]
              cases own with
              | leaf own =>
                  have leaf : (Nested.leaf own : ConfigValue α).leaf? ≠ none :=
                    Option.some_ne_none own
                  rw [mergeValue_leaf _ (.inr leaf)]
                  cases path with
                  | nil => rfl
                  | cons _ _ => rfl
              | mapping inner =>
                  cases value with
                  | mapping below => exact ih _ below inner
                  | leaf value =>
                      have leaf : (Nested.leaf value : ConfigValue α).leaf? ≠ none :=
                        Option.some_ne_none value
                      rw [mergeValue_leaf _ (.inl leaf)]
                      cases path with
                      | nil => rfl
                      | cons _ _ =>
                          change _ = Option.or _ (if _ then none else none)
                          rw [ite_self, Option.or_none]

/-! ## What is taken -/

theorem not_taken_nil : ¬ Taken template operator [] := fun taken =>
  absurd taken.lacking (Option.some_ne_none _)

/-- A path is taken below a key that both sides have as a mapping, or is a key of the template that
the operator lacks. -/
theorem taken_cons_iff : Taken template operator (key :: path) ↔
    ∃ value, template.lookup key = some value ∧ (operator.lookup key = none ∧ path = [] ∨
      ∃ below inner, value = .mapping below ∧ operator.lookup key = some (.mapping inner) ∧
        Taken below inner path) := by
  constructor
  · rintro ⟨there, lacking, parents⟩
    rw [shape_mapping_cons] at there lacking
    obtain ⟨kind, found⟩ := Option.ne_none_iff_exists'.mp there
    obtain ⟨value, theirs, within⟩ := Option.bind_eq_some_iff.mp found
    refine ⟨value, theirs, ?_⟩
    have parent (next : String) (rest : List String) (long : path = next :: rest) :
        (operator.lookup key).bind (fun own => shape own []) = some none := by
      apply parents [key]
      · exact List.prefix_append [key] path
      · rw [long]
        exact fun same => absurd (List.cons.inj same).2.symm (List.cons_ne_nil _ _)
    cases ours : operator.lookup key with
    | none =>
        rw [ours] at parent
        cases path with
        | nil => exact .inl ⟨rfl, rfl⟩
        | cons next rest => cases parent next rest rfl
    | some own =>
        rw [ours, Option.bind_some] at lacking
        cases path with
        | nil =>
            rw [shape_nil] at lacking
            cases lacking
        | cons next rest =>
            have isMapping := parent next rest rfl
            rw [ours, Option.bind_some, shape_nil] at isMapping
            cases own with
            | leaf _ => cases isMapping
            | mapping inner =>
                cases value with
                | leaf _ => cases within
                | mapping below =>
                    refine .inr ⟨below, inner, rfl, rfl, ⟨?_, lacking, ?_⟩⟩
                    · rw [within]
                      exact Option.some_ne_none _
                    · intro front before proper
                      have outer := parents (key :: front) (List.cons_prefix_cons.mpr ⟨rfl, before⟩)
                        fun same => proper (List.cons.inj same).2
                      rwa [shape_mapping_cons, ours, Option.bind_some] at outer
  · rintro ⟨value, theirs, ⟨ours, rfl⟩ | ⟨below, inner, rfl, ours, taken⟩⟩
    · refine ⟨?_, ?_, ?_⟩
      · rw [shape_mapping_cons, theirs, Option.bind_some, shape_nil]
        exact Option.some_ne_none _
      · rw [shape_mapping_cons, ours, Option.bind_none]
      · intro front before proper
        cases front with
        | nil => rfl
        | cons first front =>
            obtain ⟨same, rest⟩ := List.cons_prefix_cons.mp before
            rw [same, List.prefix_nil.mp rest] at proper
            exact absurd rfl proper
    · refine ⟨?_, ?_, ?_⟩
      · rw [shape_mapping_cons, theirs, Option.bind_some]
        exact taken.there
      · rw [shape_mapping_cons, ours, Option.bind_some]
        exact taken.lacking
      · intro front before proper
        cases front with
        | nil => rfl
        | cons first front =>
            obtain ⟨same, rest⟩ := List.cons_prefix_cons.mp before
            rw [same] at proper ⊢
            rw [shape_mapping_cons, ours, Option.bind_some]
            exact taken.parents front rest fun equal => proper (congrArg _ equal)

/-- The paths that a merge adds below a value of the template. -/
def ListsTaken (template operator : ConfigEntries α) (start : String) (added : List String) :
    Prop :=
  ∃ paths : List (List String), paths.Nodup ∧
    (∀ path, path ∈ paths ↔ Taken template operator path) ∧
    added = paths.map fun path => start ++ dotted path

theorem dotted_cons (long : path ≠ []) : dotted (key :: path) = key ++ "." ++ dotted path := by
  cases path with
  | nil => exact absurd rfl long
  | cons _ _ => rfl

/-- The paths that the merge of an entry adds, each below its key. -/
theorem listsTaken_entry (start : String) (operator : ConfigEntries α) (value : ConfigValue α)
    (below : ∀ label inner entries, value = .mapping entries →
      ListsTaken entries inner (label ++ ".") (mergeValue label value (.mapping inner)).2) :
    ListsTaken [(key, value)] operator start (mergeEntry start operator (key, value)).2 := by
  have alone : ([(key, value)] : ConfigEntries α).lookup key = some value := by
    rw [lookup_cons_ite, if_pos rfl]
  have only {path : List String} (taken : Taken [(key, value)] operator path) :
      ∃ rest, path = key :: rest := by
    cases path with
    | nil => exact absurd taken not_taken_nil
    | cons first rest =>
        obtain ⟨other, theirs, _⟩ := taken_cons_iff.mp taken
        rw [lookup_cons_ite] at theirs
        by_cases same : first = key
        · exact ⟨rest, same ▸ rfl⟩
        · rw [if_neg same] at theirs
          cases theirs
  rw [mergeEntry]
  cases ours : operator.lookup key with
  | none =>
      refine ⟨[[key]], List.nodup_singleton _, fun path => ?_, rfl⟩
      rw [List.mem_singleton]
      constructor
      · rintro rfl
        exact taken_cons_iff.mpr ⟨value, alone, .inl ⟨ours, rfl⟩⟩
      · intro taken
        obtain ⟨rest, rfl⟩ := only taken
        obtain ⟨_, _, ⟨_, rfl⟩ | ⟨_, _, _, other, _⟩⟩ := taken_cons_iff.mp taken
        · rfl
        · rw [ours] at other
          cases other
  | some own =>
      dsimp only
      have none_taken (apart : value.leaf? ≠ none ∨ own.leaf? ≠ none) :
          ListsTaken [(key, value)] operator start (mergeValue (start ++ key) value own).2 := by
        rw [mergeValue_leaf _ apart]
        refine ⟨[], List.nodup_nil, fun path => iff_of_false List.not_mem_nil ?_, rfl⟩
        intro taken
        obtain ⟨rest, rfl⟩ := only taken
        obtain ⟨other, theirs, ⟨lacks, _⟩ | ⟨_, _, rfl, mapped, _⟩⟩ := taken_cons_iff.mp taken
        · rw [ours] at lacks
          cases lacks
        · rw [ours] at mapped
          cases mapped
          rw [alone] at theirs
          cases theirs
          exact apart.elim (absurd rfl) (absurd rfl)
      cases value with
      | leaf value => exact none_taken (.inl (Option.some_ne_none value))
      | mapping entries =>
          cases own with
          | leaf own => exact none_taken (.inr (Option.some_ne_none own))
          | mapping inner =>
              obtain ⟨paths, nodup, exactly, listed⟩ := below (start ++ key) inner entries rfl
              refine ⟨paths.map (key :: ·), nodup.map (List.cons_injective), fun path => ?_, ?_⟩
              · rw [List.mem_map]
                constructor
                · rintro ⟨rest, among, rfl⟩
                  exact taken_cons_iff.mpr ⟨_, alone,
                    .inr ⟨entries, inner, rfl, ours, (exactly rest).mp among⟩⟩
                · intro taken
                  obtain ⟨rest, rfl⟩ := only taken
                  obtain ⟨other, theirs, ⟨lacks, _⟩ | ⟨under, within, rfl, mapped, deeper⟩⟩ :=
                    taken_cons_iff.mp taken
                  · rw [ours] at lacks
                    cases lacks
                  · rw [alone] at theirs
                    rw [ours] at mapped
                    cases theirs
                    cases mapped
                    exact ⟨rest, (exactly rest).mpr deeper, rfl⟩
              · rw [listed, List.map_map]
                apply List.map_congr_left
                intro path among
                have long : path ≠ [] := by
                  rintro rfl
                  exact not_taken_nil ((exactly []).mp among)
                rw [Function.comp_apply, dotted_cons long]
                simp only [String.append_assoc]

/-- The entries of a template have no taken path in common. -/
theorem taken_cons_entry_iff {entry : String × ConfigValue α} {rest : ConfigEntries α}
    (fresh : entry.1 ∉ rest.map Prod.fst) :
    Taken (entry :: rest) operator path ↔
      Taken [entry] operator path ∨ Taken rest operator path := by
  cases path with
  | nil => exact iff_of_false not_taken_nil fun either => either.elim not_taken_nil not_taken_nil
  | cons key path =>
      rw [taken_cons_iff, taken_cons_iff, taken_cons_iff, lookup_cons_ite, lookup_cons_ite]
      by_cases same : key = entry.1
      · rw [if_pos same, if_pos same, same, lookup_eq_none_iff.mpr fresh]
        simp only [reduceCtorEq, false_and, exists_false, or_false]
      · rw [if_neg same, if_neg same]
        simp only [List.lookup_nil, reduceCtorEq, false_and, exists_false, false_or]

theorem listsTaken_entries (start : String) (operator : ConfigEntries α)
    {entries : ConfigEntries α} (keys : (entries.map Prod.fst).Nodup)
    (below : ∀ entry ∈ entries, ∀ label inner inside, entry.2 = .mapping inside →
      ListsTaken inside inner (label ++ ".") (mergeValue label entry.2 (.mapping inner)).2) :
    ListsTaken entries operator start (mergeEntries start operator entries).2 := by
  induction entries with
  | nil =>
      refine ⟨[], List.nodup_nil, fun path => iff_of_false List.not_mem_nil ?_, rfl⟩
      intro taken
      cases path with
      | nil => exact not_taken_nil taken
      | cons key path =>
          obtain ⟨value, theirs, _⟩ := taken_cons_iff.mp taken
          cases theirs
  | cons entry rest ih =>
      rw [List.map_cons, List.nodup_cons] at keys
      rw [List.forall_mem_cons] at below
      obtain ⟨here, nodupHere, exactlyHere, listedHere⟩ :=
        listsTaken_entry start operator entry.2 below.1
      obtain ⟨later, nodupLater, exactlyLater, listedLater⟩ := ih keys.2 below.2
      refine ⟨here ++ later, List.nodup_append'.mpr ⟨nodupHere, nodupLater, ?_⟩, fun path => ?_, ?_⟩
      · intro path first second
        have hereTaken := (exactlyHere path).mp first
        have laterTaken := (exactlyLater path).mp second
        cases path with
        | nil => exact not_taken_nil hereTaken
        | cons key path =>
            obtain ⟨_, found, _⟩ := taken_cons_iff.mp hereTaken
            obtain ⟨_, again, _⟩ := taken_cons_iff.mp laterTaken
            rw [lookup_cons_ite] at found
            by_cases same : key = entry.1
            · rw [same, lookup_eq_none_iff.mpr keys.1] at again
              cases again
            · rw [if_neg same] at found
              cases found
      · rw [List.mem_append, exactlyHere, exactlyLater, taken_cons_entry_iff keys.1]
      · rw [mergeEntries, List.map_append, ← listedHere, ← listedLater]

/-- A merge adds the topmost paths of the template that the operator lacks. -/
theorem listsTaken_merge (unique : UniqueKeys (.mapping template)) (start : String)
    (operator : ConfigEntries α) :
    ListsTaken template operator start (merge start template operator).2 := by
  have within (value : ConfigValue α) : UniqueKeys value → ∀ label inner inside,
      value = .mapping inside →
        ListsTaken inside inner (label ++ ".") (mergeValue label value (.mapping inner)).2 := by
    induction value using Nested.induct with
    | leaf _ => rintro _ _ _ _ ⟨⟩
    | mapping entries ih =>
        rintro unique label inner _ ⟨⟩
        cases unique with
        | mapping keys values =>
            exact listsTaken_entries _ inner keys fun entry among => ih entry among
              (values entry among)
  cases unique with
  | mapping keys values =>
      exact listsTaken_entries start operator keys fun entry among =>
        within entry.2 (values entry among)

/-! ## Unique keys -/

theorem unique_entries (start : String) (unique : UniqueKeys (.mapping template))
    (own : UniqueKeys (.mapping operator))
    (merged : ∀ entry ∈ template, ∀ label own, UniqueKeys own →
    UniqueKeys (mergeValue label entry.2 own).1) :
    UniqueKeys (.mapping (merge start template operator).1) := by
  change UniqueKeys
    (.mapping ((mergeEntries start operator template).1 ++ onlyOperator template operator))
  rw [mergeEntries_fst]
  cases unique with
  | mapping keys values =>
      cases own with
      | mapping ownKeys ownValues =>
          refine .mapping ?_ (List.forall_mem_append.mpr ⟨?_, ?_⟩)
          · rw [List.map_append, List.map_map]
            refine List.nodup_append'.mpr ⟨keys, ownKeys.sublist (List.filter_sublist.map _), ?_⟩
            intro key theirs ours
            obtain ⟨entry, among, rfl⟩ := List.mem_map.mp ours
            have absent := (List.mem_filter.mp among).2
            rw [Option.isNone_iff_eq_none, lookup_eq_none_iff] at absent
            exact absent theirs
          · intro _ among
            obtain ⟨entry, listed, rfl⟩ := List.mem_map.mp among
            dsimp only
            rw [mergedValue]
            cases found : operator.lookup entry.1 with
            | none => exact values entry listed
            | some value =>
                exact merged entry listed _ value (ownValues _ (Nested.mem_of_lookup found))
          · exact fun entry among => ownValues entry (List.mem_of_mem_filter among)

theorem unique_mergeValue (value : ConfigValue α) :
    UniqueKeys value → ∀ label own, UniqueKeys own → UniqueKeys (mergeValue label value own).1 := by
  induction value using Nested.induct with
  | leaf value => exact fun _ _ own unique => unique
  | mapping entries ih =>
      intro unique label own ownUnique
      cases own with
      | leaf own => exact .leaf own
      | mapping inner =>
          refine unique_entries _ unique ownUnique fun entry among => ih entry among ?_
          cases unique with
          | mapping _ values => exact values entry among

/-- A merge of mappings with unique keys has unique keys. -/
theorem unique_merge (start : String) (unique : UniqueKeys (.mapping template))
    (own : UniqueKeys (.mapping operator)) : UniqueKeys
    (.mapping (merge start template operator).1) := by
  refine unique_entries start unique own fun entry among => unique_mergeValue entry.2 ?_
  cases unique with
  | mapping _ values => exact values entry among

end Orchestrator.Config
