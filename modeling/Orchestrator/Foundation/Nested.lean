import Mathlib.Data.List.Basic
import Mathlib.Data.List.Nodup

/-! # Nested mappings

A value is a leaf, or a mapping of keys to values. What a value is at a path is its shape there:
that of a leaf, that of a mapping, or nothing.
-/

namespace Orchestrator.Foundation

/-- A leaf, or a mapping of keys to values. -/
inductive Nested (κ α : Type) where
  | leaf (value : α)
  | mapping (entries : List (κ × Nested κ α))

namespace Nested

variable {κ α : Type}

/-- What holds of a mapping whose values it holds of holds of every value. -/
@[elab_as_elim]
theorem induct {motive : Nested κ α → Prop} (leaf : ∀ value, motive (.leaf value))
    (mapping : ∀ entries, (∀ entry ∈ entries, motive entry.2) → motive (.mapping entries))
    (value : Nested κ α) : motive value :=
  Nested.rec (motive_1 := motive) (motive_2 := fun entries => ∀ entry ∈ entries, motive entry.2)
    (motive_3 := fun entry => motive entry.2) leaf mapping
    (fun _ none => absurd none List.not_mem_nil)
    (fun _ _ head tail => List.forall_mem_cons.mpr ⟨head, tail⟩) (fun _ _ value => value) value

/-- No mapping of the value has a key twice. -/
inductive UniqueKeys : Nested κ α → Prop where
  | leaf (value : α) : UniqueKeys (.leaf value)
  | mapping {entries : List (κ × Nested κ α)} (keys : (entries.map Prod.fst).Nodup)
      (values : ∀ entry ∈ entries, UniqueKeys entry.2) : UniqueKeys (.mapping entries)

/-- The leaf, when it is one. -/
def leaf? : Nested κ α → Option α
  | .leaf value => some value
  | .mapping _ => none

variable [DecidableEq κ] {entries : List (κ × Nested κ α)} {key other : κ} {path : List κ}
  {value : Nested κ α}

/-- What is at a path: nothing, a mapping or a leaf. -/
def shape : Nested κ α → List κ → Option (Option α)
  | value, [] => some value.leaf?
  | .leaf _, _ :: _ => none
  | .mapping entries, key :: path => (entries.lookup key).bind fun value => value.shape path

/-- `mapping[key] = value`. -/
def setEntry (key : κ) (value : Nested κ α) : List (κ × Nested κ α) → List (κ × Nested κ α)
  | [] => [(key, value)]
  | entry :: rest =>
      if entry.1 = key then (key, value) :: rest else entry :: setEntry key value rest

/-- `del mapping[key]`. -/
def eraseEntry (key : κ) (entries : List (κ × Nested κ α)) : List (κ × Nested κ α) :=
  entries.filter fun entry => entry.1 ≠ key

/-- Remove a key below the mappings of a path, if it is there. -/
def removeAt (key : κ) : List κ → List (κ × Nested κ α) → Option (List (κ × Nested κ α))
  | [], entries => if (entries.lookup key).isSome then some (eraseEntry key entries) else none
  | part :: parts, entries =>
      match entries.lookup part with
      | some (.mapping inner) =>
          (removeAt key parts inner).map fun inner => setEntry part (.mapping inner) entries
      | _ => none

/-! ## Lookups -/

theorem lookup_cons_ite (entry : κ × Nested κ α) (entries : List (κ × Nested κ α)) (key : κ) :
    (entry :: entries).lookup key = if key = entry.1 then some entry.2 else entries.lookup key := by
  by_cases same : key = entry.1
  · rw [if_pos same, List.lookup_cons, beq_iff_eq.mpr same]
  · rw [if_neg same, List.lookup_cons, beq_eq_false_iff_ne.mpr same]

theorem mem_of_lookup (found : entries.lookup key = some value) : (key, value) ∈ entries := by
  induction entries with
  | nil => cases found
  | cons entry rest ih =>
      rw [lookup_cons_ite] at found
      by_cases same : key = entry.1
      · rw [if_pos same] at found
        cases found
        rw [same]
        exact List.mem_cons_self
      · rw [if_neg same] at found
        exact List.mem_cons_of_mem _ (ih found)

theorem lookup_of_mem (keys : (entries.map Prod.fst).Nodup) (among : (key, value) ∈ entries) :
    entries.lookup key = some value := by
  induction entries with
  | nil => exact absurd among List.not_mem_nil
  | cons entry rest ih =>
      rw [List.map_cons, List.nodup_cons] at keys
      rw [lookup_cons_ite]
      rcases List.mem_cons.mp among with rfl | later
      · exact if_pos rfl
      · have different : key ≠ entry.1 := by
          rintro rfl
          exact keys.1 (List.mem_map.mpr ⟨_, later, rfl⟩)
        rw [if_neg different, ih keys.2 later]

theorem lookup_eq_none_iff : entries.lookup key = none ↔ key ∉ entries.map Prod.fst := by
  induction entries with
  | nil => exact iff_of_true rfl List.not_mem_nil
  | cons entry rest ih =>
      rw [lookup_cons_ite, List.map_cons, List.mem_cons, not_or]
      by_cases same : key = entry.1
      · rw [if_pos same]
        exact iff_of_false (Option.some_ne_none _) fun neither => neither.1 same
      · rw [if_neg same, ih, and_iff_right same]

theorem lookup_setEntry (key other : κ) (value : Nested κ α) (entries : List (κ × Nested κ α)) :
    (setEntry key value entries).lookup other =
      if other = key then some value else entries.lookup other := by
  induction entries with
  | nil => rw [setEntry, lookup_cons_ite]
  | cons entry rest ih =>
      rw [setEntry]
      by_cases here : entry.1 = key
      · rw [if_pos here, lookup_cons_ite, lookup_cons_ite, here]
        by_cases same : other = key
        · rw [if_pos same, if_pos same]
        · rw [if_neg same, if_neg same, if_neg same]
      · rw [if_neg here, lookup_cons_ite, lookup_cons_ite, ih]
        by_cases same : other = entry.1
        · rw [if_pos same, if_pos same, if_neg fun equal => here (same.symm.trans equal)]
        · rw [if_neg same, if_neg same]

theorem lookup_eraseEntry (key other : κ) (entries : List (κ × Nested κ α)) :
    (eraseEntry key entries).lookup other =
      if other = key then none else entries.lookup other := by
  induction entries with
  | nil => exact (ite_self none).symm
  | cons entry rest ih =>
      rw [eraseEntry, List.filter_cons]
      by_cases here : entry.1 = key
      · rw [if_neg (by simpa using here)]
        rw [eraseEntry] at ih
        rw [ih, lookup_cons_ite, here]
        by_cases same : other = key
        · rw [if_pos same, if_pos same]
        · rw [if_neg same, if_neg same, if_neg same]
      · rw [if_pos (by simpa using here), lookup_cons_ite, lookup_cons_ite]
        rw [eraseEntry] at ih
        rw [ih]
        by_cases same : other = entry.1
        · rw [if_pos same, if_pos same, if_neg fun equal => here (same.symm.trans equal)]
        · rw [if_neg same, if_neg same]

/-- Setting what is there already changes nothing. -/
theorem setEntry_of_lookup (found : entries.lookup key = some value) :
    setEntry key value entries = entries := by
  induction entries with
  | nil => cases found
  | cons entry rest ih =>
      rw [lookup_cons_ite] at found
      rw [setEntry]
      by_cases same : key = entry.1
      · rw [if_pos same] at found
        cases found
        rw [if_pos same.symm, same]
      · rw [if_neg same] at found
        rw [if_neg fun equal => same equal.symm, ih found]

/-! ## Shapes -/

theorem shape_mapping_cons (entries : List (κ × Nested κ α)) (key : κ) (path : List κ) :
    shape (.mapping entries) (key :: path) =
      (entries.lookup key).bind fun value => value.shape path := rfl

theorem shape_nil (value : Nested κ α) : value.shape [] = some value.leaf? := by
  cases value with
  | leaf _ => rfl
  | mapping _ => rfl

/-- Below nothing there is nothing. -/
theorem shape_eq_none_of_prefix {value : Nested κ α} {front : List κ} (within : front <+: path)
    (absent : value.shape front = none) : value.shape path = none := by
  induction front generalizing value path with
  | nil =>
      rw [shape_nil] at absent
      cases absent
  | cons key front ih =>
      obtain ⟨rest, rfl⟩ := within
      cases value with
      | leaf _ => rfl
      | mapping entries =>
          rw [List.cons_append, shape_mapping_cons]
          rw [shape_mapping_cons] at absent
          cases found : entries.lookup key with
          | none => rfl
          | some value =>
              rw [found, Option.bind_some] at absent
              exact ih (List.prefix_append front rest) absent

/-- What is below a path is not below a key that is set. -/
theorem shape_setEntry (key : κ) (value : Nested κ α) (entries : List (κ × Nested κ α))
    (path : List κ) : shape (.mapping (setEntry key value entries)) path =
      if path.head? = some key then value.shape path.tail else shape (.mapping entries) path := by
  cases path with
  | nil => rfl
  | cons first path =>
      rw [shape_mapping_cons, lookup_setEntry, List.head?_cons, List.tail_cons]
      by_cases same : first = key
      · rw [if_pos same, if_pos (congrArg some same), Option.bind_some]
      · rw [if_neg same, if_neg fun equal => same (Option.some.inj equal), shape_mapping_cons]

/-- A key is removed when something is at its path. -/
theorem removeAt_eq_none_iff {parts : List κ} :
    removeAt key parts entries = none ↔ shape (.mapping entries) (parts ++ [key]) = none := by
  induction parts generalizing entries with
  | nil =>
      rw [removeAt, List.nil_append, shape_mapping_cons]
      cases found : entries.lookup key with
      | none => exact iff_of_true rfl rfl
      | some value =>
          rw [Option.bind_some, shape_nil]
          exact iff_of_false (Option.some_ne_none _) (Option.some_ne_none _)
  | cons part parts ih =>
      rw [removeAt, List.cons_append, shape_mapping_cons]
      cases found : entries.lookup part with
      | none => exact iff_of_true rfl rfl
      | some value =>
          cases value with
          | leaf _ =>
              refine iff_of_true rfl ?_
              cases parts with
              | nil => rfl
              | cons _ _ => rfl
          | mapping inner =>
              dsimp only
              rw [Option.map_eq_none_iff, Option.bind_some, ih]

/-- What is at and below a key that is removed is gone; everything else stands. -/
theorem shape_removeAt {parts : List κ} {left : List (κ × Nested κ α)}
    (removed : removeAt key parts entries = some left) (path : List κ) :
    ((parts ++ [key]) <+: path → shape (.mapping left) path = none) ∧
      (¬ (parts ++ [key]) <+: path →
        shape (.mapping left) path = shape (.mapping entries) path) := by
  have root (front : List κ) : ¬ (front ++ [key]) <+: [] := fun within =>
    absurd (List.prefix_nil.mp within) (List.append_ne_nil_of_right_ne_nil _ (List.cons_ne_nil _ _))
  induction parts generalizing entries left path with
  | nil =>
      rw [removeAt] at removed
      split at removed
      · cases removed
        cases path with
        | nil => exact ⟨fun within => absurd within (root []), fun _ => rfl⟩
        | cons first path =>
            rw [shape_mapping_cons, lookup_eraseEntry, List.nil_append, List.cons_prefix_cons]
            by_cases same : first = key
            · rw [if_pos same]
              exact ⟨fun _ => rfl, fun outside => absurd ⟨same.symm, List.nil_prefix⟩ outside⟩
            · rw [if_neg same]
              exact ⟨fun within => absurd within.1.symm same, fun _ => rfl⟩
      · cases removed
  | cons part parts ih =>
      rw [removeAt] at removed
      split at removed
      · next inner found =>
          obtain ⟨kept, gone, rfl⟩ := Option.map_eq_some_iff.mp removed
          rw [shape_setEntry]
          cases path with
          | nil => exact ⟨fun within => absurd within (root (part :: parts)), fun _ => rfl⟩
          | cons first path =>
              rw [List.head?_cons, List.tail_cons, List.cons_append, List.cons_prefix_cons]
              by_cases same : first = part
              · subst same
                rw [if_pos rfl, shape_mapping_cons, found, Option.bind_some]
                obtain ⟨below, beside⟩ := ih gone path
                exact ⟨fun within => below within.2, fun outside =>
                  beside fun within => outside ⟨rfl, within⟩⟩
              · rw [if_neg fun equal => same (Option.some.inj equal)]
                exact ⟨fun within => absurd within.1.symm same, fun _ => rfl⟩
      · cases removed

/-! ## Unique keys -/

omit [DecidableEq κ] in
theorem UniqueKeys.keys (unique : UniqueKeys (.mapping entries)) :
    (entries.map Prod.fst).Nodup := by
  cases unique with
  | mapping keys _ => exact keys

theorem UniqueKeys.lookup (unique : UniqueKeys (.mapping entries))
    (found : entries.lookup key = some value) :
    UniqueKeys value := by
  cases unique with
  | mapping _ values => exact values _ (mem_of_lookup found)

theorem mem_keys_setEntry {value : Nested κ α} :
    other ∈ (setEntry key value entries).map Prod.fst ↔
      other = key ∨ other ∈ entries.map Prod.fst := by
  rw [← not_iff_not, ← lookup_eq_none_iff, lookup_setEntry, not_or, ← lookup_eq_none_iff]
  by_cases same : other = key
  · rw [if_pos same]
    exact iff_of_false (Option.some_ne_none _) fun neither => neither.1 same
  · rw [if_neg same, and_iff_right same]

theorem UniqueKeys.setEntry (unique : UniqueKeys (.mapping entries)) (own : UniqueKeys value) :
    UniqueKeys (.mapping (setEntry key value entries)) := by
  induction entries with
  | nil => exact .mapping (List.nodup_singleton _) (List.forall_mem_singleton.mpr own)
  | cons entry rest ih =>
      cases unique with
      | mapping keys values =>
          rw [List.map_cons, List.nodup_cons] at keys
          rw [List.forall_mem_cons] at values
          rw [Nested.setEntry]
          by_cases here : entry.1 = key
          · rw [if_pos here]
            exact .mapping (List.nodup_cons.mpr ⟨here ▸ keys.1, keys.2⟩)
              (List.forall_mem_cons.mpr ⟨own, values.2⟩)
          · rw [if_neg here]
            have later := ih (.mapping keys.2 values.2)
            cases later with
            | mapping laterKeys laterValues =>
                refine .mapping (List.nodup_cons.mpr ⟨fun again => ?_, laterKeys⟩)
                  (List.forall_mem_cons.mpr ⟨values.1, laterValues⟩)
                exact (mem_keys_setEntry.mp again).elim here keys.1

theorem UniqueKeys.removeAt {parts : List κ} {left : List (κ × Nested κ α)}
    (unique : UniqueKeys (.mapping entries)) (removed : removeAt key parts entries = some left) :
    UniqueKeys (.mapping left) := by
  induction parts generalizing entries left with
  | nil =>
      rw [Nested.removeAt] at removed
      split at removed
      · cases removed
        cases unique with
        | mapping keys values =>
            exact .mapping (keys.sublist (List.filter_sublist.map _))
              fun entry among => values entry (List.mem_of_mem_filter among)
      · cases removed
  | cons part parts ih =>
      rw [Nested.removeAt] at removed
      split at removed
      · next inner found =>
          obtain ⟨kept, gone, rfl⟩ := Option.map_eq_some_iff.mp removed
          exact unique.setEntry (ih (unique.lookup found) gone)
      · cases removed

end Nested

end Orchestrator.Foundation
