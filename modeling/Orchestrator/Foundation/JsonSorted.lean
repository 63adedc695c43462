import Mathlib.Data.List.Lex
import Mathlib.Data.List.Sort
import Orchestrator.Foundation.JsonLine

/-! # Documents with their members in order

Writing with sorted keys puts the members of every object in the order of their keys. Two
documents that differ in the order of members only are the same.
-/

namespace Orchestrator.Foundation.Json

open PyText

/-- The order of the members of an object. -/
def keyLe (first second : PyText × Json) : Prop := first.1 ≤ second.1

instance : DecidableRel keyLe := fun first second =>
  inferInstanceAs (Decidable (first.1 ≤ second.1))

instance : Std.Total keyLe := ⟨fun first second => le_total first.1 second.1⟩

instance : IsTrans (PyText × Json) keyLe := ⟨fun _ _ _ first second => le_trans first second⟩

mutual

/-- `sort_keys=True`. -/
def sortKeys : Json → Json
  | array items => array (sortItems items)
  | object members => object ((sortMembers members).insertionSort keyLe)
  | null => null
  | bool value => bool value
  | number literal => number literal
  | string value => string value

def sortItems : List Json → List Json
  | [] => []
  | item :: items => sortKeys item :: sortItems items

/-- The values of members, sorted. -/
def sortMembers : List (PyText × Json) → List (PyText × Json)
  | [] => []
  | (key, value) :: members => (key, sortKeys value) :: sortMembers members

end

/-- `first == second`: the order of members does not count. -/
def Same (first second : Json) : Prop := sortKeys first = sortKeys second

theorem Same.refl (document : Json) : Same document document := Eq.refl _

theorem Same.symm {first second : Json} (same : Same first second) : Same second first :=
  Eq.symm same

theorem Same.trans {first second third : Json} (left : Same first second)
    (right : Same second third) : Same first third := Eq.trans left right

theorem sortMembers_eq_map (members : List (PyText × Json)) :
    sortMembers members = members.map fun member => (member.1, sortKeys member.2) := by
  induction members with
  | nil => rfl
  | cons member members ih => rw [sortMembers, ih, List.map_cons]

/-- The members of a sorted object. -/
theorem mem_sorted {members : List (PyText × Json)} {member : PyText × Json} :
    member ∈ (sortMembers members).insertionSort keyLe ↔
      ∃ old ∈ members, (old.1, sortKeys old.2) = member := by
  rw [List.mem_insertionSort, sortMembers_eq_map, List.mem_map]

mutual

/-- What is in order stays as it is. -/
theorem sortKeys_sortKeys : ∀ document : Json, sortKeys (sortKeys document) = sortKeys document
  | array items => by rw [sortKeys, sortKeys, sortItems_sortItems items]
  | object members => by
      have fixed := sortMembers_sortMembers members
      have values : sortMembers ((sortMembers members).insertionSort keyLe) =
          (sortMembers members).insertionSort keyLe := by
        rw [sortMembers_eq_map (sortMembers members)] at fixed
        have each := List.map_inj_left.mp (fixed.trans (List.map_id _).symm)
        rw [sortMembers_eq_map ((sortMembers members).insertionSort keyLe)]
        refine (List.map_congr_left fun member among => ?_).trans (List.map_id _)
        exact each member ((List.mem_insertionSort keyLe).mp among)
      rw [sortKeys, sortKeys, values,
        List.Pairwise.insertionSort_eq (List.pairwise_insertionSort keyLe _)]
  | null => rfl
  | bool _ => rfl
  | number _ => rfl
  | string _ => rfl

theorem sortItems_sortItems : ∀ items : List Json,
    sortItems (sortItems items) = sortItems items
  | [] => rfl
  | item :: items => by
      rw [sortItems, sortItems, sortKeys_sortKeys item, sortItems_sortItems items]

theorem sortMembers_sortMembers : ∀ members : List (PyText × Json),
    sortMembers (sortMembers members) = sortMembers members
  | [] => rfl
  | (key, value) :: members => by
      rw [sortMembers, sortMembers, sortKeys_sortKeys value, sortMembers_sortMembers members]

end

theorem same_sortKeys (document : Json) : Same (sortKeys document) document :=
  sortKeys_sortKeys document

mutual

/-- Sorting keeps the numbers. -/
theorem numeric_sortKeys : ∀ document : Json, numeric (sortKeys document) = numeric document
  | array items => by rw [sortKeys, numeric, numeric, numericItems_sortItems items]
  | object members => by
      rw [sortKeys, numeric, numeric, ← numericMembers_sortMembers members, numericMembers_eq_all,
        numericMembers_eq_all]
      exact (List.perm_insertionSort keyLe _).all_eq
  | null => rfl
  | bool _ => rfl
  | number _ => rfl
  | string _ => rfl

theorem numericItems_sortItems : ∀ items : List Json,
    numericItems (sortItems items) = numericItems items
  | [] => rfl
  | item :: items => by
      rw [sortItems, numericItems, numericItems, numeric_sortKeys item,
        numericItems_sortItems items]

theorem numericMembers_sortMembers : ∀ members : List (PyText × Json),
    numericMembers (sortMembers members) = numericMembers members
  | [] => rfl
  | (key, value) :: members => by
      rw [sortMembers, numericMembers, numericMembers, numeric_sortKeys value,
        numericMembers_sortMembers members]

end

mutual

/-- Sorting keeps the texts. -/
theorem allTexts_sortKeys (test : PyText → Bool) : ∀ document : Json,
    allTexts test (sortKeys document) = allTexts test document
  | array items => by rw [sortKeys, allTexts, allTexts, allTextsItems_sortItems test items]
  | object members => by
      rw [sortKeys, allTexts, allTexts, ← allTextsMembers_sortMembers test members,
        allTextsMembers_eq_all, allTextsMembers_eq_all]
      exact (List.perm_insertionSort keyLe _).all_eq
  | null => rfl
  | bool _ => rfl
  | number _ => rfl
  | string _ => rfl

theorem allTextsItems_sortItems (test : PyText → Bool) : ∀ items : List Json,
    allTextsItems test (sortItems items) = allTextsItems test items
  | [] => rfl
  | item :: items => by
      rw [sortItems, allTextsItems, allTextsItems, allTexts_sortKeys test item,
        allTextsItems_sortItems test items]

theorem allTextsMembers_sortMembers (test : PyText → Bool) : ∀ members : List (PyText × Json),
    allTextsMembers test (sortMembers members) = allTextsMembers test members
  | [] => rfl
  | (key, value) :: members => by
      rw [sortMembers, allTextsMembers, allTextsMembers, allTexts_sortKeys test value,
        allTextsMembers_sortMembers test members]

end

/-- Documents that are written alike in the order of their keys are the same. -/
theorem same_of_line {first second : Json} (firstFine : numeric first = true)
    (secondFine : numeric second = true)
    (alike : line (sortKeys first) = line (sortKeys second)) : Same first second :=
  line_injective ((numeric_sortKeys first).trans firstFine)
    ((numeric_sortKeys second).trans secondFine) alike

/-! ## Objects -/

mutual

/-- The keys of each object are distinct. -/
def distinctKeys : Json → Bool
  | array items => distinctItems items
  | object members => decide (members.map Prod.fst).Nodup && distinctMembers members
  | _ => true

def distinctItems : List Json → Bool
  | [] => true
  | item :: items => distinctKeys item && distinctItems items

def distinctMembers : List (PyText × Json) → Bool
  | [] => true
  | (_, value) :: members => distinctKeys value && distinctMembers members

end

theorem distinctMembers_eq_all (members : List (PyText × Json)) :
    distinctMembers members = members.all fun member => distinctKeys member.2 := by
  induction members with
  | nil => rfl
  | cons member members ih => rw [distinctMembers, ih, List.all_cons]

theorem map_fst_sortMembers (members : List (PyText × Json)) :
    (sortMembers members).map Prod.fst = members.map Prod.fst := by
  rw [sortMembers_eq_map, List.map_map]
  exact List.map_congr_left fun _ _ => rfl

mutual

/-- Sorting keeps the keys distinct. -/
theorem distinctKeys_sortKeys : ∀ document : Json,
    distinctKeys (sortKeys document) = distinctKeys document
  | array items => by rw [sortKeys, distinctKeys, distinctKeys, distinctItems_sortItems items]
  | object members => by
      have perm := List.perm_insertionSort keyLe (sortMembers members)
      have keys : (((sortMembers members).insertionSort keyLe).map Prod.fst).Nodup ↔
          (members.map Prod.fst).Nodup := by
        rw [(perm.map Prod.fst).nodup_iff, map_fst_sortMembers]
      rw [sortKeys, distinctKeys, distinctKeys, decide_eq_decide.mpr keys, distinctMembers_eq_all,
        perm.all_eq, ← distinctMembers_eq_all, distinctMembers_sortMembers members]
  | null => rfl
  | bool _ => rfl
  | number _ => rfl
  | string _ => rfl

theorem distinctItems_sortItems : ∀ items : List Json,
    distinctItems (sortItems items) = distinctItems items
  | [] => rfl
  | item :: items => by
      rw [sortItems, distinctItems, distinctItems, distinctKeys_sortKeys item,
        distinctItems_sortItems items]

theorem distinctMembers_sortMembers : ∀ members : List (PyText × Json),
    distinctMembers (sortMembers members) = distinctMembers members
  | [] => rfl
  | (key, value) :: members => by
      rw [sortMembers, distinctMembers, distinctMembers, distinctKeys_sortKeys value,
        distinctMembers_sortMembers members]

end

/-- Members with distinct keys have one order. -/
theorem insertionSort_eq_of_perm {first second : List (PyText × Json)} (perm : first.Perm second)
    (distinct : (first.map Prod.fst).Nodup) :
    first.insertionSort keyLe = second.insertionSort keyLe := by
  have sorted : (first.insertionSort keyLe).Perm (second.insertionSort keyLe) :=
    ((List.perm_insertionSort keyLe first).trans perm).trans
      (List.perm_insertionSort keyLe second).symm
  refine List.Perm.eq_of_pairwise (fun one other among back before after => ?_)
    (List.pairwise_insertionSort keyLe first) (List.pairwise_insertionSort keyLe second) sorted
  exact List.inj_on_of_nodup_map distinct ((List.mem_insertionSort keyLe).mp among)
    (perm.mem_iff.mpr ((List.mem_insertionSort keyLe).mp back)) (le_antisymm before after)

/-- Objects with the same members are the same. -/
theorem same_of_perm {first second : List (PyText × Json)} (perm : first.Perm second)
    (distinct : (first.map Prod.fst).Nodup) : Same (object first) (object second) := by
  have sorted : (sortMembers first).Perm (sortMembers second) := by
    rw [sortMembers_eq_map, sortMembers_eq_map]
    exact perm.map _
  rw [Same, sortKeys, sortKeys, insertionSort_eq_of_perm sorted]
  rwa [map_fst_sortMembers]

/-- The same objects have the same members, up to the order within their values. -/
theorem perm_of_same {first second : List (PyText × Json)}
    (same : Same (object first) (object second)) :
    (sortMembers first).Perm (sortMembers second) := by
  rw [Same, sortKeys, sortKeys, object.injEq] at same
  exact (List.perm_insertionSort keyLe _).symm.trans (same ▸ List.perm_insertionSort keyLe _)

/-- The same objects have the same texts under a key. -/
theorem mem_of_same {first second : List (PyText × Json)}
    (same : Same (object first) (object second)) {key value : PyText}
    (among : (key, string value) ∈ first) : (key, string value) ∈ second := by
  have kept : (key, string value) ∈ sortMembers first := by
    rw [sortMembers_eq_map]
    exact List.mem_map.mpr ⟨_, among, rfl⟩
  have there := (perm_of_same same).mem_iff.mp kept
  rw [sortMembers_eq_map, List.mem_map] at there
  obtain ⟨⟨other, document⟩, listed, alike⟩ := there
  obtain ⟨rfl, text⟩ := Prod.mk.inj alike
  cases document with
  | string text' =>
      rw [sortKeys] at text
      rwa [text] at listed
  | _ => cases text

theorem exists_lineMembers (members : List (PyText × Json)) :
    ∃ middle, lineMembers members = middle ++ [ofChar '\x7d'] := by
  induction members with
  | nil => exact ⟨[], rfl⟩
  | cons member members ih =>
      obtain ⟨middle, shape⟩ := ih
      refine ⟨ofChar ',' :: ofChar ' ' :: (dumpText false member.1 ++ (ofChar ':' :: ofChar ' ' ::
        (line member.2 ++ middle))), ?_⟩
      rw [lineMembers, shape]
      simp only [List.cons_append, List.append_assoc]

/-- The line of an object is within braces. -/
theorem exists_line_object (members : List (PyText × Json)) :
    ∃ middle, line (object members) = ofChar '\x7b' :: (middle ++ [ofChar '\x7d']) := by
  cases members with
  | nil => exact ⟨[], rfl⟩
  | cons member members =>
      obtain ⟨middle, shape⟩ := exists_lineMembers members
      refine ⟨dumpText false member.1 ++
        (ofChar ':' :: ofChar ' ' :: (line member.2 ++ middle)), ?_⟩
      rw [line, shape]
      simp only [List.cons_append, List.append_assoc]

end Orchestrator.Foundation.Json
