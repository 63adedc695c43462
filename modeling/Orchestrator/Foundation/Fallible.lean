import Mathlib.Data.List.Forall2
import Mathlib.Data.List.Induction

/-! # Results that may be errors

A sequence of fallible steps succeeds exactly when each of its steps does.
-/

namespace Orchestrator.Foundation.Fallible

variable {ε α β : Type}

theorem bind_eq_ok {first : Except ε α} {next : α → Except ε β} {value : β} :
    first >>= next = .ok value ↔ ∃ found, first = .ok found ∧ next found = .ok value := by
  cases first with
  | error error => exact iff_of_false nofun fun ⟨_, found, _⟩ => nomatch found
  | ok found =>
    exact ⟨fun rest => ⟨found, rfl, rest⟩, fun ⟨_, same, rest⟩ => by cases same; exact rest⟩

theorem map_eq_ok {first : Except ε α} {change : α → β} {value : β} :
    change <$> first = .ok value ↔ ∃ found, first = .ok found ∧ change found = value := by
  cases first with
  | error error => exact iff_of_false nofun fun ⟨_, found, _⟩ => nomatch found
  | ok found =>
      constructor
      · rintro ⟨⟩
        exact ⟨found, rfl, rfl⟩
      · rintro ⟨other, ⟨⟩, rfl⟩
        rfl

theorem mapError_eq_ok {ε' : Type} {change : ε → ε'} {first : Except ε α} {value : α} :
    first.mapError change = .ok value ↔ first = .ok value := by
  cases first with
  | error error => exact iff_of_false nofun nofun
  | ok found => exact ⟨fun same => congrArg Except.ok (Except.ok.inj same), fun same => by
      cases same
      rfl⟩

/-- A step over each item succeeds exactly when each of its steps does. -/
theorem mapM_eq_ok {step : α → Except ε β} {items : List α} {results : List β} :
    items.mapM step = .ok results ↔
      List.Forall₂ (fun item result => step item = .ok result) items results := by
  induction items generalizing results with
  | nil =>
      rw [List.mapM_nil, List.forall₂_nil_left_iff]
      exact ⟨fun same => (Except.ok.inj same).symm, fun same => congrArg Except.ok same.symm⟩
  | cons item items ih =>
      rw [List.mapM_cons, List.forall₂_cons_left_iff]
      constructor
      · intro both
        obtain ⟨result, here, rest⟩ := bind_eq_ok.mp both
        obtain ⟨others, later, same⟩ := bind_eq_ok.mp rest
        cases same
        exact ⟨result, others, here, ih.mp later, rfl⟩
      · rintro ⟨result, others, here, later, rfl⟩
        exact bind_eq_ok.mpr ⟨result, here, bind_eq_ok.mpr ⟨others, ih.mpr later, rfl⟩⟩

theorem exists_item_of_mapM {step : α → Except ε β} {items : List α} {results : List β}
    (all : items.mapM step = .ok results) {result : β} (among : result ∈ results) :
    ∃ item ∈ items, step item = .ok result := by
  have pairs := mapM_eq_ok.mp all
  clear all
  induction pairs with
  | nil => cases among
  | cons here _ ih =>
      rcases List.mem_cons.mp among with rfl | later
      · exact ⟨_, List.mem_cons_self, here⟩
      · obtain ⟨item, member, found⟩ := ih later
        exact ⟨item, List.mem_cons_of_mem _ member, found⟩

theorem exists_result_of_mapM {step : α → Except ε β} {items : List α} {results : List β}
    (all : items.mapM step = .ok results) {item : α} (among : item ∈ items) :
    ∃ result ∈ results, step item = .ok result := by
  have pairs := mapM_eq_ok.mp all
  clear all
  induction pairs with
  | nil => cases among
  | cons here _ ih =>
      rcases List.mem_cons.mp among with rfl | later
      · exact ⟨_, List.mem_cons_self, here⟩
      · obtain ⟨result, member, found⟩ := ih later
        exact ⟨result, List.mem_cons_of_mem _ member, found⟩

/-- The results of a step that gives each item its value. -/
theorem eq_map_of_mapM {step : α → Except ε β} {value : α → β} {items : List α} {results : List β}
    (gives : ∀ item ∈ items, ∀ result, step item = .ok result → result = value item)
    (all : items.mapM step = .ok results) : results = items.map value := by
  have pairs := mapM_eq_ok.mp all
  clear all
  induction pairs with
  | nil => rfl
  | @cons item result items results here _ ih =>
      rw [List.map_cons, gives item List.mem_cons_self result here,
        ih fun other among => gives other (List.mem_cons_of_mem _ among)]

/-- What each step of a fold keeps, about what it has read, holds at its end. -/
theorem foldlM_invariant {step : β → α → Except ε β} {start final : β} {items : List α}
    (property : List α → β → Prop) (begins : property [] start)
    (keeps : ∀ {seen state item next}, property seen state → step state item = .ok next →
      property (seen ++ [item]) next)
    (run : items.foldlM step start = .ok final) : property items final := by
  induction items using List.reverseRecOn generalizing final with
  | nil =>
      cases run
      exact begins
  | append_singleton seen item ih =>
      rw [List.foldlM_append] at run
      obtain ⟨state, before, last⟩ := bind_eq_ok.mp run
      rw [List.foldlM_cons] at last
      obtain ⟨next, moved, rest⟩ := bind_eq_ok.mp last
      cases rest
      exact keeps (ih before) moved

end Orchestrator.Foundation.Fallible
