import Mathlib.Data.List.Sort

/-! # Stable sorts in a row

Sorting is stable, so a list that is sorted by one order and then by another is sorted by the second
and, where it ties, by the first.
-/

namespace Orchestrator.Foundation

variable {α : Type}

/-- By one order and, where it ties, by another. -/
def Lexed (major minor : α → α → Prop) (first second : α) : Prop :=
  major first second ∧ (major second first → minor first second)

/-- An order by a key. -/
def ByKey {κ : Type} [LE κ] (key : α → κ) (first second : α) : Prop := key first ≤ key second

/-- An order by a key, the greatest first. -/
def ByKeyDown {κ : Type} [LE κ] (key : α → κ) (first second : α) : Prop := key second ≤ key first

instance {κ : Type} [LE κ] [DecidableLE κ] (key : α → κ) : DecidableRel (ByKey key) :=
  fun first second => inferInstanceAs (Decidable (key first ≤ key second))

instance {κ : Type} [LE κ] [DecidableLE κ] (key : α → κ) : DecidableRel (ByKeyDown key) :=
  fun first second => inferInstanceAs (Decidable (key second ≤ key first))

/-- Any two are ordered, and the order is transitive. -/
structure Ranks (order : α → α → Prop) : Prop where
  total : ∀ first second, order first second ∨ order second first
  trans : ∀ {first second third}, order first second → order second third → order first third

theorem ranks_byKey {κ : Type} [LinearOrder κ] (key : α → κ) : Ranks (ByKey key) where
  total first second := le_total (key first) (key second)
  trans before after := le_trans before after

theorem ranks_byKeyDown {κ : Type} [LinearOrder κ] (key : α → κ) : Ranks (ByKeyDown key) where
  total first second := le_total (key second) (key first)
  trans before after := le_trans after before

section Sorted

variable {major minor : α → α → Prop} [DecidableRel major]

/-- An item that goes before all others where the order ties is put at its place. -/
theorem pairwise_orderedInsert_lexed (ranks : Ranks major) {item : α} {items : List α}
    (before : ∀ other ∈ items, minor item other) (sorted : items.Pairwise (Lexed major minor)) :
    (items.orderedInsert major item).Pairwise (Lexed major minor) := by
  induction items with
  | nil => exact List.pairwise_singleton _ _
  | cons first rest ih =>
      obtain ⟨ahead, others⟩ := List.pairwise_cons.mp sorted
      rw [List.orderedInsert_cons]
      split
      · next goesFirst =>
        refine List.pairwise_cons.mpr ⟨fun other among => ⟨?_, fun _ => before other among⟩, sorted⟩
        rcases List.mem_cons.mp among with rfl | later
        · exact goesFirst
        · exact ranks.trans goesFirst (ahead other later).1
      · next goesLater =>
        have later := ih (fun other among => before other (List.mem_cons_of_mem _ among)) others
        refine List.pairwise_cons.mpr ⟨fun other among => ?_, later⟩
        rcases (List.mem_orderedInsert major).mp among with rfl | inside
        · exact ⟨(ranks.total first other).resolve_right goesLater,
            fun ties => absurd ties goesLater⟩
        · exact ahead other inside

/-- Sorting keeps the order that the items are in where the new order ties. -/
theorem pairwise_insertionSort_lexed (ranks : Ranks major) {items : List α}
    (sorted : items.Pairwise minor) :
    (items.insertionSort major).Pairwise (Lexed major minor) := by
  induction items with
  | nil => exact .nil
  | cons item items ih =>
      obtain ⟨before, others⟩ := List.pairwise_cons.mp sorted
      rw [List.insertionSort_cons]
      refine pairwise_orderedInsert_lexed ranks (fun other among => ?_) (ih others)
      exact before other ((List.perm_insertionSort major items).mem_iff.mp among)

end Sorted

/-- Sorted lists of the same items are the same where items that tie are. -/
theorem eq_of_perm_of_pairwise {order : α → α → Prop} {items others : List α}
    (strict : ∀ first ∈ items, ∀ second ∈ items, order first second → order second first →
      first = second)
    (sorted : items.Pairwise order) (sortedOthers : others.Pairwise order)
    (same : items.Perm others) : items = others :=
  same.eq_of_pairwise (fun first second among amongOthers =>
    strict first among second (same.mem_iff.mpr amongOthers)) sorted sortedOthers

end Orchestrator.Foundation
