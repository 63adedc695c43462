import Mathlib.Data.List.Dedup
import Mathlib.Data.Set.Basic
import Mathlib.Tactic.Common

/-! # Rows with keys

Updating the first row that passes a test, and folding the rows with equal keys into
the first of them: what every row becomes, and which keys are left. Rows with keys of
their own are found by them.
-/

namespace Orchestrator.Foundation

variable {κ α : Type} [DecidableEq κ]

/-- A row is absorbed by the one kept under its key, or else kept itself, after the others. -/
def absorbInto (absorb : α → α → α) (key : κ) (row : α) : List (κ × α) → List (κ × α)
  | [] => [(key, row)]
  | (other, keeper) :: rest =>
      if other = key then (other, absorb keeper row) :: rest
      else (other, keeper) :: absorbInto absorb key row rest

/-- Rows folded one after another into those already kept. -/
def collapseOnto (absorb : α → α → α) (kept rows : List (κ × α)) : List (κ × α) :=
  rows.foldl (fun kept entry => absorbInto absorb entry.1 entry.2 kept) kept

/-- The rows of every key folded into the first of them. -/
def collapse (absorb : α → α → α) (rows : List (κ × α)) : List (κ × α) :=
  collapseOnto absorb [] rows

/-- The rows with the first that passes a test remade, if one does. -/
def updateFirst (test : α → Bool) (make : α → α) : List α → Option (List α)
  | [] => none
  | row :: rest =>
      if test row then some (make row :: rest)
      else (updateFirst test make rest).map fun rest => row :: rest

/-! ## Distinct values -/

theorem eraseDups_nodup (values : List κ) : values.eraseDups.Nodup := by
  induction length : values.length using Nat.strongRecOn generalizing values with
  | ind size ih =>
      cases values with
      | nil => exact List.nodup_nil
      | cons value rest =>
          rw [List.eraseDups_cons, List.nodup_cons, List.mem_eraseDups]
          refine ⟨by simp, ih _ ?_ _ rfl⟩
          exact length ▸ Nat.lt_succ_of_le (List.length_filter_le _ _)

omit [DecidableEq κ] in
/-- Lists of distinct values with the same members are as long. -/
theorem length_eq_of_nodup {first second : List κ} (distinct : first.Nodup)
    (distinct' : second.Nodup) (same : ∀ value, value ∈ first ↔ value ∈ second) :
    first.length = second.length :=
  ((List.perm_ext_iff_of_nodup distinct distinct').mpr same).length_eq

/-! ## Updates -/

omit [DecidableEq κ] in
theorem updateFirst_eq_none_iff {test : α → Bool} {make : α → α} {rows : List α} :
    updateFirst test make rows = none ↔ ∀ row ∈ rows, test row = false := by
  induction rows with
  | nil => simp [updateFirst]
  | cons row rest ih =>
      rw [updateFirst, List.forall_mem_cons]
      by_cases passes : test row = true
      · simp [passes]
      · simp [passes, ih]

/-- An update remakes one row that passes the test. -/
theorem updateFirst_eq_some {test : α → Bool} {make : α → α} {rows updated : List α}
    (done : updateFirst test make rows = some updated) : ∃ before row after,
      rows = before ++ row :: after ∧ test row = true ∧ (∀ other ∈ before, test other = false) ∧
      updated = before ++ make row :: after := by
  induction rows generalizing updated with
  | nil => cases done
  | cons first rest ih =>
      rw [updateFirst] at done
      split at done
      · rename_i passes
        cases done
        exact ⟨[], first, rest, rfl, passes, fun _ none => absurd none List.not_mem_nil, rfl⟩
      · rename_i fails
        obtain ⟨found, later, rfl⟩ := Option.map_eq_some_iff.mp done
        obtain ⟨before, row, after, rfl, passes, others, rfl⟩ := ih later
        refine ⟨first :: before, row, after, rfl, passes, ?_, rfl⟩
        exact List.forall_mem_cons.mpr ⟨Bool.eq_false_iff.mpr fails, others⟩

variable {absorb : α → α → α}

/-! ## Keys -/

theorem absorbInto_keys (key : κ) (row : α) (kept : List (κ × α)) :
    (absorbInto absorb key row kept).map Prod.fst =
      if key ∈ kept.map Prod.fst then kept.map Prod.fst else kept.map Prod.fst ++ [key] := by
  induction kept with
  | nil => rfl
  | cons entry rest ih =>
      obtain ⟨other, keeper⟩ := entry
      by_cases same : other = key
      · subst same
        simp [absorbInto]
      · rw [absorbInto, if_neg same, List.map_cons, ih]
        by_cases among : key ∈ rest.map Prod.fst
        · simp [among]
        · simp [among, Ne.symm same]

theorem absorbInto_nodup {key : κ} {row : α} {kept : List (κ × α)}
    (nodup : (kept.map Prod.fst).Nodup) :
    ((absorbInto absorb key row kept).map Prod.fst).Nodup := by
  rw [absorbInto_keys]
  split
  · exact nodup
  · rename_i absent
    exact List.nodup_append.mpr ⟨nodup, List.nodup_singleton key, by
      intro other among single fresh
      cases List.mem_singleton.mp fresh
      intro same
      exact absent (same ▸ among)⟩

theorem collapseOnto_nodup {kept : List (κ × α)} (nodup : (kept.map Prod.fst).Nodup)
    (rows : List (κ × α)) : ((collapseOnto absorb kept rows).map Prod.fst).Nodup := by
  induction rows generalizing kept with
  | nil => exact nodup
  | cons entry rest ih => exact ih (absorbInto_nodup nodup)

/-- No key is left twice. -/
theorem collapse_nodup (rows : List (κ × α)) : ((collapse absorb rows).map Prod.fst).Nodup := by
  apply collapseOnto_nodup
  exact List.nodup_nil

theorem mem_collapseOnto_keys {kept rows : List (κ × α)} {key : κ} :
    key ∈ (collapseOnto absorb kept rows).map Prod.fst ↔
      key ∈ kept.map Prod.fst ∨ key ∈ rows.map Prod.fst := by
  induction rows generalizing kept with
  | nil => simp [collapseOnto]
  | cons entry rest ih =>
      rw [collapseOnto, List.foldl_cons, ← collapseOnto, ih, absorbInto_keys, List.map_cons,
        List.mem_cons]
      split
      · rename_i among
        constructor
        · exact fun found => found.imp_right .inr
        · rintro (old | rfl | new)
          · exact .inl old
          · exact .inl among
          · exact .inr new
      · rw [List.mem_append, List.mem_singleton, or_assoc]

/-- A row of a new key comes after the others. -/
theorem absorbInto_of_not_mem {key : κ} {row : α} {kept : List (κ × α)}
    (absent : key ∉ kept.map Prod.fst) :
    absorbInto absorb key row kept = kept ++ [(key, row)] := by
  induction kept with
  | nil => rfl
  | cons entry rest ih =>
      obtain ⟨other, keeper⟩ := entry
      rw [List.map_cons, List.mem_cons, not_or] at absent
      rw [absorbInto, if_neg (Ne.symm absent.1), ih absent.2, List.cons_append]

/-- Rows of distinct keys stay as they are. -/
theorem collapseOnto_of_nodup {kept rows : List (κ × α)}
    (nodup : ((kept ++ rows).map Prod.fst).Nodup) :
    collapseOnto absorb kept rows = kept ++ rows := by
  induction rows generalizing kept with
  | nil => exact (List.append_nil kept).symm
  | cons entry rest ih =>
      have absent : entry.1 ∉ kept.map Prod.fst := by
        rw [List.map_append, List.nodup_append] at nodup
        intro among
        exact nodup.2.2 _ among _ (List.mem_map_of_mem List.mem_cons_self) rfl
      rw [collapseOnto, List.foldl_cons, ← collapseOnto, absorbInto_of_not_mem absent, ih]
      · rw [List.append_assoc, List.singleton_append]
      · rwa [List.append_assoc, List.singleton_append]

theorem collapse_of_nodup {rows : List (κ × α)} (nodup : (rows.map Prod.fst).Nodup) :
    collapse absorb rows = rows :=
  collapseOnto_of_nodup nodup

/-- As many rows are left as there are distinct keys. -/
theorem collapse_length (rows : List (κ × α)) :
    (collapse absorb rows).length = (rows.map Prod.fst).dedup.length := by
  have same : ((collapse absorb rows).map Prod.fst).Perm (rows.map Prod.fst).dedup := by
    apply (List.perm_ext_iff_of_nodup (collapse_nodup rows) (List.nodup_dedup _)).mpr
    intro key
    rw [collapse, mem_collapseOnto_keys, List.mem_dedup, List.map_nil]
    exact or_iff_right List.not_mem_nil
  rw [← same.length_eq, List.length_map]

/-! ## Rows -/

/-- What a row is folded into comes from kept rows and new ones by absorption. -/
theorem forall_mem_absorbInto {holds : κ → α → Prop}
    (closed : ∀ key keeper row, holds key keeper → holds key row → holds key (absorb keeper row))
    {key : κ} {row : α} (new : holds key row) {kept : List (κ × α)}
    (old : ∀ entry ∈ kept, holds entry.1 entry.2) :
    ∀ entry ∈ absorbInto absorb key row kept, holds entry.1 entry.2 := by
  induction kept with
  | nil =>
      intro entry among
      cases List.mem_singleton.mp among
      exact new
  | cons first rest ih =>
      obtain ⟨other, keeper⟩ := first
      obtain ⟨here, later⟩ := List.forall_mem_cons.mp old
      rw [absorbInto]
      split
      · rename_i same
        subst same
        exact List.forall_mem_cons.mpr ⟨closed _ _ _ here new, later⟩
      · exact List.forall_mem_cons.mpr ⟨here, ih later⟩

/-- What holds of every row, and of a row that absorbs another of its key, holds of every row
left. -/
theorem forall_mem_collapse {holds : κ → α → Prop}
    (closed : ∀ key keeper row, holds key keeper → holds key row → holds key (absorb keeper row))
    {rows : List (κ × α)} (all : ∀ entry ∈ rows, holds entry.1 entry.2) :
    ∀ entry ∈ collapse absorb rows, holds entry.1 entry.2 := by
  have onto : ∀ kept : List (κ × α), (∀ entry ∈ kept, holds entry.1 entry.2) →
      ∀ entry ∈ collapseOnto absorb kept rows, holds entry.1 entry.2 := by
    induction rows with
    | nil => exact fun kept old => old
    | cons entry rest ih =>
        intro kept old
        obtain ⟨new, later⟩ := List.forall_mem_cons.mp all
        exact ih later _ (forall_mem_absorbInto closed new old)
  exact onto [] (fun entry none => absurd none List.not_mem_nil)

/-- How a row lives on: as it is, or in a row that it or its successor absorbs or is absorbed
by. -/
structure Survival (absorb : α → α → α) (alike becomes : α → α → Prop) : Prop where
  refl : ∀ row, becomes row row
  absorbs : ∀ row keeper other, becomes row keeper → becomes row (absorb keeper other)
  absorbed : ∀ row keeper other, alike keeper other → becomes row other →
    becomes row (absorb keeper other)
  alike : ∀ keeper row other, alike keeper other → alike (absorb keeper row) other

variable {alike becomes : α → α → Prop}

theorem Survival.absorbInto_old (survival : Survival absorb alike becomes) {key : κ} {row : α}
    {kept : List (κ × α)} {origin : α} {other : κ}
    (found : ∃ keeper, (other, keeper) ∈ kept ∧ becomes origin keeper) :
    ∃ keeper, (other, keeper) ∈ absorbInto absorb key row kept ∧ becomes origin keeper := by
  obtain ⟨keeper, among, lives⟩ := found
  induction kept with
  | nil => cases among
  | cons first rest ih =>
      obtain ⟨firstKey, firstRow⟩ := first
      rw [absorbInto]
      split
      · rcases List.mem_cons.mp among with here | later
        · cases here
          exact ⟨_, List.mem_cons_self, survival.absorbs _ _ _ lives⟩
        · exact ⟨keeper, List.mem_cons_of_mem _ later, lives⟩
      · rcases List.mem_cons.mp among with here | later
        · cases here
          exact ⟨_, List.mem_cons_self, lives⟩
        · obtain ⟨found, member, alive⟩ := ih later
          exact ⟨found, List.mem_cons_of_mem _ member, alive⟩

theorem Survival.absorbInto_new (survival : Survival absorb alike becomes) {key : κ} {row : α}
    {kept : List (κ × α)} (old : ∀ entry ∈ kept, entry.1 = key → alike entry.2 row) :
    ∃ keeper, (key, keeper) ∈ absorbInto absorb key row kept ∧ becomes row keeper := by
  induction kept with
  | nil => exact ⟨row, List.mem_cons_self, survival.refl row⟩
  | cons first rest ih =>
      obtain ⟨other, keeper⟩ := first
      obtain ⟨here, later⟩ := List.forall_mem_cons.mp old
      rw [absorbInto]
      split
      · rename_i same
        subst same
        exact ⟨_, List.mem_cons_self, survival.absorbed _ _ _ (here rfl) (survival.refl row)⟩
      · obtain ⟨found, member, alive⟩ := ih later
        exact ⟨found, List.mem_cons_of_mem _ member, alive⟩

/-- Every row lives on in the row left under its key, when rows of one key are alike. -/
theorem Survival.collapse (survival : Survival absorb alike becomes) {rows : List (κ × α)}
    (pairs : rows.Pairwise fun first second => first.1 = second.1 → alike first.2 second.2) :
    ∀ entry ∈ rows, ∃ keeper, (entry.1, keeper) ∈ collapse absorb rows ∧
      becomes entry.2 keeper := by
  have onto : ∀ kept : List (κ × α),
      (∀ entry ∈ kept, ∀ other ∈ rows, entry.1 = other.1 → alike entry.2 other.2) →
      (∀ key origin, (∃ keeper, (key, keeper) ∈ kept ∧ becomes origin keeper) →
        ∃ keeper, (key, keeper) ∈ collapseOnto absorb kept rows ∧ becomes origin keeper) ∧
      ∀ entry ∈ rows, ∃ keeper, (entry.1, keeper) ∈ collapseOnto absorb kept rows ∧
        becomes entry.2 keeper := by
    induction rows with
    | nil => exact fun kept old => ⟨fun key origin found => found, fun entry none => by cases none⟩
    | cons first rest ih =>
        intro kept old
        obtain ⟨here, later⟩ := List.pairwise_cons.mp pairs
        let likeRest (key : κ) (row : α) : Prop := ∀ other ∈ rest, key = other.1 → alike row other.2
        have closed (key : κ) (keeper row : α) (held : likeRest key keeper)
            (_ : likeRest key row) : likeRest key (absorb keeper row) :=
          fun other among same => survival.alike keeper row other.2 (held other among same)
        have new : likeRest first.1 first.2 := here
        have olds : ∀ entry ∈ kept, likeRest entry.1 entry.2 := fun entry among other member =>
          old entry among other (List.mem_cons_of_mem _ member)
        obtain ⟨before, after⟩ := ih later _ (forall_mem_absorbInto closed new olds)
        refine ⟨fun key origin found => before key origin (survival.absorbInto_old found), ?_⟩
        intro entry among
        rcases List.mem_cons.mp among with rfl | among
        · exact before _ _ (survival.absorbInto_new fun other member =>
            old other member entry List.mem_cons_self)
        · exact after entry among
  exact (onto [] (fun entry none => absurd none List.not_mem_nil)).2

/-- What absorption leaves as it was in the keeper is taken from rows in their order. -/
theorem collapse_map_sublist {β : Type} {project : α → β}
    (same : ∀ keeper row, project (absorb keeper row) = project keeper) (rows : List (κ × α)) :
    ((collapse absorb rows).map fun entry => project entry.2).Sublist
      (rows.map fun entry => project entry.2) := by
  have into (key : κ) (row : α) (kept : List (κ × α)) :
      ((absorbInto absorb key row kept).map fun entry => project entry.2).Sublist
        ((kept.map fun entry => project entry.2) ++ [project row]) := by
    induction kept with
    | nil => exact List.Sublist.refl _
    | cons entry rest ih =>
        rw [absorbInto]
        split
        · rw [List.map_cons, same, List.map_cons, List.cons_append]
          exact (List.sublist_append_left _ _).cons_cons _
        · exact ih.cons_cons _
  have onto (kept : List (κ × α)) :
      ((collapseOnto absorb kept rows).map fun entry => project entry.2).Sublist
        ((kept.map fun entry => project entry.2) ++ rows.map fun entry => project entry.2) := by
    induction rows generalizing kept with
    | nil => exact List.sublist_append_left _ _
    | cons entry rest ih =>
        refine (ih _).trans ?_
        rw [List.map_cons, ← List.singleton_append, ← List.append_assoc]
        exact (into entry.1 entry.2 kept).append (List.Sublist.refl _)
  exact onto []

/-! ## Rows found by their keys -/

/-- Every row has a key of a set, and no two the same one. -/
structure Located (keys : Set κ) (key : α → Option κ) (rows : List α) : Prop where
  keyed : ∀ row ∈ rows, ∃ id ∈ keys, key row = some id
  distinct : (rows.map key).Nodup

section Located

variable {keys : Set κ} {key : α → Option κ} {rows : List α}

omit [DecidableEq κ] in
theorem Located.nil : Located keys key ([] : List α) :=
  ⟨fun _ none => absurd none List.not_mem_nil, List.nodup_nil⟩

/-- Every row is the one found by its key. -/
theorem Located.find (located : Located keys key rows) {row : α} (among : row ∈ rows) :
    rows.find? (fun other => key other = key row) = some row := by
  obtain ⟨-, distinct⟩ := located
  induction rows with
  | nil => cases among
  | cons first rest ih =>
      rw [List.map_cons, List.nodup_cons] at distinct
      rcases List.mem_cons.mp among with rfl | later
      · exact List.find?_cons_of_pos (decide_eq_true rfl)
      · rw [List.find?_cons_of_neg, ih later distinct.2]
        intro same
        exact distinct.1 (of_decide_eq_true same ▸ List.mem_map_of_mem later)

omit [DecidableEq κ] in
/-- Rows whose keys are taken from those of located rows are located. -/
theorem Located.of_sublist (located : Located keys key rows) {others : List α}
    (fewer : (others.map key).Sublist (rows.map key)) : Located keys key others := by
  refine ⟨fun row among => ?_, located.distinct.sublist fewer⟩
  obtain ⟨old, member, same⟩ := List.mem_map.mp (fewer.subset (List.mem_map_of_mem among))
  exact same ▸ located.keyed old member

omit [DecidableEq κ] in
theorem Located.map (located : Located keys key rows) {remake : α → α}
    (same : ∀ row ∈ rows, key (remake row) = key row) : Located keys key (rows.map remake) := by
  have unchanged : (rows.map remake).map key = rows.map key := by
    rw [List.map_map]
    exact List.map_congr_left same
  exact located.of_sublist (unchanged ▸ List.Sublist.refl _)

omit [DecidableEq κ] in
/-- A row of a key that no other has may be added. -/
theorem Located.concat (located : Located keys key rows) {row : α} {id : κ} (known : id ∈ keys)
    (own : key row = some id) (fresh : ∀ other ∈ rows, key other ≠ some id) :
    Located keys key (rows ++ [row]) := by
  constructor
  · intro other among
    rcases List.mem_append.mp among with old | new
    · exact located.keyed other old
    · exact List.mem_singleton.mp new ▸ ⟨id, known, own⟩
  · rw [List.map_append, List.nodup_append]
    refine ⟨located.distinct, List.nodup_singleton _, ?_⟩
    intro old among new single same
    obtain ⟨other, member, rfl⟩ := List.mem_map.mp among
    rw [List.map_singleton, List.mem_singleton] at single
    exact fresh other member (same.trans (single.trans own))

/-- Rows folded by their keys are located. -/
theorem Located.collapse {entries : List (κ × α)}
    (kept : ∀ id keeper row, key keeper = some id → key row = some id →
      key (absorb keeper row) = some id)
    (own : ∀ entry ∈ entries, entry.1 ∈ keys ∧ key entry.2 = some entry.1) :
    Located keys key ((collapse absorb entries).map Prod.snd) := by
  have left : ∀ entry ∈ Foundation.collapse absorb entries,
      entry.1 ∈ keys ∧ key entry.2 = some entry.1 := by
    let holds (id : κ) (row : α) : Prop := id ∈ keys ∧ key row = some id
    have closed (id : κ) (keeper row : α) (first : holds id keeper) (second : holds id row) :
        holds id (absorb keeper row) :=
      ⟨first.1, kept id keeper row first.2 second.2⟩
    exact forall_mem_collapse closed own
  constructor
  · intro row among
    obtain ⟨entry, member, rfl⟩ := List.mem_map.mp among
    exact ⟨entry.1, left entry member⟩
  · have named : ((Foundation.collapse absorb entries).map Prod.snd).map key =
        ((Foundation.collapse absorb entries).map Prod.fst).map some := by
      rw [List.map_map, List.map_map]
      exact List.map_congr_left fun entry member => (left entry member).2
    have injective : Function.Injective (some : κ → Option κ) := fun _ _ => Option.some.inj
    exact named ▸ (collapse_nodup entries).map injective

end Located

end Orchestrator.Foundation
