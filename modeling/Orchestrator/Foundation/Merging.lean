import Mathlib.Data.List.Nodup
import Mathlib.Data.List.Perm.Basic
import Mathlib.Data.List.TakeWhile

/-! # Two timelines in one

Items are put between the steps of a run, each before the first step at which it is due. Items that
wait in order, so that one is due when a later one is, are put each at its own place.
-/

namespace Orchestrator.Foundation

variable {σ ι : Type} (due : σ → ι → Bool)

/-- Before each step the waiting items that are due, and after the last one all others. -/
def interleave : List σ → List ι → List (ι ⊕ σ)
  | [], waiting => waiting.map .inl
  | step :: steps, waiting =>
      (waiting.takeWhile (due step)).map .inl ++
        .inr step :: interleave steps (waiting.dropWhile (due step))

/-- An item is due whenever one that waits behind it is. -/
def WaitInOrder (waiting : List ι) : Prop :=
  waiting.Pairwise fun first second => ∀ step, due step second = true → due step first = true

/-- Steps and items in one list, both in their order, each item before the first step at which it
is due. -/
structure Interleaved (steps : List σ) (items : List ι) (merged : List (ι ⊕ σ)) : Prop where
  steps : merged.filterMap Sum.getRight? = steps
  items : merged.filterMap Sum.getLeft? = items
  notAfter : merged.Pairwise fun first second =>
    ∀ step item, first = .inr step → second = .inl item → due step item = false
  before : ∀ (front : List (ι ⊕ σ)) (item : ι) (waiting : List ι) (step : σ) (tail : List (ι ⊕ σ)),
    merged = front ++ .inl item :: (waiting.map .inl ++ .inr step :: tail) → due step item = true

section Parts

variable {due} {step other : σ} {steps : List σ} {waiting items : List ι}
  {merged tail : List (ι ⊕ σ)}

theorem getRight?_items (items : List ι) :
    (items.map (Sum.inl : ι → ι ⊕ σ)).filterMap Sum.getRight? = [] := by
  induction items with
  | nil => rfl
  | cons item items ih => exact ih

theorem getLeft?_items (items : List ι) :
    (items.map (Sum.inl : ι → ι ⊕ σ)).filterMap Sum.getLeft? = items := by
  induction items with
  | nil => rfl
  | cons item items ih => exact congrArg (item :: ·) ih

/-- After a step at which it is not due, no item that waits in order is due. -/
theorem WaitInOrder.dropWhile (inOrder : WaitInOrder due waiting) :
    ∀ item ∈ waiting.dropWhile (due step), due step item = false := by
  intro item among
  cases left : waiting.dropWhile (due step) with
  | nil =>
      rw [left] at among
      exact absurd among List.not_mem_nil
  | cons first rest =>
      have notDue : due step first = false := by
        have head := List.head?_dropWhile_not (due step) waiting
        rw [left] at head
        simpa using head
      have ordered : (first :: rest).Pairwise fun first second =>
          ∀ step, due step second = true → due step first = true := by
        rw [← left]
        exact inOrder.sublist (List.dropWhile_sublist _)
      rw [left] at among
      rcases List.mem_cons.mp among with rfl | later
      · exact notDue
      · rw [Bool.eq_false_iff]
        intro isDue
        have earlier := (List.pairwise_cons.mp ordered).1 item later step isDue
        rw [notDue] at earlier
        cases earlier

/-- The first step after some items is one and the same. -/
theorem step_eq_of_append {rest : List (ι ⊕ σ)}
    (same : items.map Sum.inl ++ .inr step :: rest = waiting.map Sum.inl ++ .inr other :: tail) :
    step = other := by
  induction items generalizing waiting with
  | nil =>
      cases waiting with
      | nil => exact Sum.inr.inj (List.cons.inj same).1
      | cons first waiting => cases (List.cons.inj same).1
  | cons item items ih =>
      cases waiting with
      | nil => cases (List.cons.inj same).1
      | cons first waiting => exact ih (List.cons.inj same).2

end Parts

variable {due}

theorem mem_interleave {steps : List σ} {waiting : List ι} {item : ι}
    (among : .inl item ∈ interleave due steps waiting) : item ∈ waiting := by
  induction steps generalizing waiting with
  | nil =>
      obtain ⟨other, ofWaiting, same⟩ := List.mem_map.mp among
      exact Sum.inl.inj same ▸ ofWaiting
  | cons step steps ih =>
      rcases List.mem_append.mp among with here | later
      · obtain ⟨other, ofWaiting, same⟩ := List.mem_map.mp here
        exact Sum.inl.inj same ▸ (List.takeWhile_sublist _).subset ofWaiting
      · rcases List.mem_cons.mp later with same | later
        · cases same
        · exact (List.dropWhile_sublist _).subset (ih later)

/-- Items that wait in order are put each at its place. -/
theorem interleaved_interleave {steps : List σ} {waiting : List ι}
    (inOrder : WaitInOrder due waiting) :
    Interleaved due steps waiting (interleave due steps waiting) := by
  induction steps generalizing waiting with
  | nil =>
      refine ⟨getRight?_items _, getLeft?_items _, ?_, ?_⟩
      · rw [interleave, List.pairwise_map]
        exact List.pairwise_of_forall fun _ _ _ _ same _ => by cases same
      · intro front item rest step tail same
        have among : Sum.inr step ∈ interleave due [] waiting := by
          rw [same]
          exact List.mem_append_right _ (.tail _ (List.mem_append_right _ List.mem_cons_self))
        obtain ⟨other, -, same⟩ := List.mem_map.mp among
        cases same
  | cons step steps ih =>
      have later := ih (inOrder.sublist (List.dropWhile_sublist (due step)))
      rw [interleave]
      refine ⟨?_, ?_, ?_, ?_⟩
      · rw [List.filterMap_append, getRight?_items, List.nil_append]
        exact congrArg (step :: ·) later.steps
      · rw [List.filterMap_append, getLeft?_items]
        refine Eq.trans ?_ (List.takeWhile_append_dropWhile (p := due step))
        exact congrArg (waiting.takeWhile (due step) ++ ·) later.items
      · rw [List.pairwise_append, List.pairwise_cons]
        refine ⟨?_, ⟨fun entry among other item same isItem => ?_, later.notAfter⟩, ?_⟩
        · rw [List.pairwise_map]
          exact List.pairwise_of_forall fun _ _ _ _ same _ => by cases same
        · cases same
          rw [isItem] at among
          exact inOrder.dropWhile item (mem_interleave among)
        · intro first among second _ other item same
          obtain ⟨_, -, rfl⟩ := List.mem_map.mp among
          cases same
      · have ready : ∀ item ∈ waiting.takeWhile (due step), due step item = true :=
          fun item among => List.mem_takeWhile_imp among
        generalize waiting.takeWhile (due step) = here at ready ⊢
        generalize interleave due steps (waiting.dropWhile (due step)) = merged at later ⊢
        intro front item rest other tail same
        induction here generalizing front with
        | nil =>
            cases front with
            | nil => cases (List.cons.inj same).1
            | cons first front =>
                exact later.before front item rest other tail (List.cons.inj same).2
        | cons first here unfolded =>
            cases front with
            | nil =>
                obtain ⟨isFirst, behind⟩ := List.cons.inj same
                rw [← step_eq_of_append behind, ← Sum.inl.inj isFirst]
                exact ready first List.mem_cons_self
            | cons entry front =>
                exact unfolded (fun item among => ready item (List.mem_cons_of_mem _ among)) front
                  (List.cons.inj same).2

end Orchestrator.Foundation

/-! ## Merging by key

The rows of a list after those of another, save the ones whose key is already there. Every key is
left, in whatever order lists are merged, and once where the list merged into has no key twice.
-/

namespace Orchestrator.Foundation

variable {α κ : Type} [DecidableEq κ] (key : α → κ)

/-- Rows after those kept, each unless its key is there already. -/
def mergeOnto (kept : List α) : List α → List α
  | [] => kept
  | row :: rest =>
      if key row ∈ kept.map key then mergeOnto kept rest else mergeOnto (kept ++ [row]) rest

/-- Lists merged one after another into the first. -/
def mergeAll : List (List α) → List α
  | [] => []
  | first :: others => others.foldl (mergeOnto key) first

variable {key}

/-- The rows that were kept stay as they are, at the front. -/
theorem mergeOnto_keeps (kept rows : List α) : kept <+: mergeOnto key kept rows := by
  induction rows generalizing kept with
  | nil => exact List.prefix_rfl
  | cons row rest ih =>
      rw [mergeOnto]
      split
      · exact ih kept
      · exact (List.prefix_append kept [row]).trans (ih _)

/-- Nothing else comes in, and of the rows only those of new keys. -/
theorem mem_mergeOnto {kept rows : List α} {row : α} (among : row ∈ mergeOnto key kept rows) :
    row ∈ kept ∨ row ∈ rows ∧ key row ∉ kept.map key := by
  induction rows generalizing kept with
  | nil => exact .inl among
  | cons first rest ih =>
      rw [mergeOnto] at among
      split at among
      · exact (ih among).imp_right fun new => ⟨List.mem_cons_of_mem _ new.1, new.2⟩
      · next fresh =>
        rcases ih among with old | ⟨later, other⟩
        · rcases List.mem_append.mp old with here | added
          · exact .inl here
          · cases List.mem_singleton.mp added
            exact .inr ⟨List.mem_cons_self, fresh⟩
        · refine .inr ⟨List.mem_cons_of_mem _ later, fun taken => other ?_⟩
          rw [List.map_append]
          exact List.mem_append_left _ taken

/-- Every key is left, and no other. -/
theorem mem_keys_mergeOnto {kept rows : List α} {value : κ} :
    value ∈ (mergeOnto key kept rows).map key ↔
      value ∈ kept.map key ∨ value ∈ rows.map key := by
  induction rows generalizing kept with
  | nil => exact (or_iff_left List.not_mem_nil).symm
  | cons row rest ih =>
      rw [mergeOnto, List.map_cons, List.mem_cons]
      split
      · next taken =>
        rw [ih]
        constructor
        · exact fun found => found.imp_right .inr
        · rintro (old | rfl | later)
          · exact .inl old
          · exact .inl taken
          · exact .inr later
      · rw [ih, List.map_append, List.mem_append, List.map_singleton, List.mem_singleton, or_assoc]

/-- A list without a key twice gets none. -/
theorem mergeOnto_nodup {kept : List α} (distinct : (kept.map key).Nodup) (rows : List α) :
    ((mergeOnto key kept rows).map key).Nodup := by
  induction rows generalizing kept with
  | nil => exact distinct
  | cons row rest ih =>
      rw [mergeOnto]
      split
      · exact ih distinct
      · next fresh =>
        apply ih
        rw [List.map_append, List.map_singleton, ← List.concat_eq_append]
        exact distinct.concat fresh

/-- A list whose keys are all there adds nothing. -/
theorem mergeOnto_of_subset {kept rows : List α} (there : ∀ row ∈ rows, key row ∈ kept.map key) :
    mergeOnto key kept rows = kept := by
  induction rows with
  | nil => rfl
  | cons row rest ih =>
      obtain ⟨here, later⟩ := List.forall_mem_cons.mp there
      rw [mergeOnto, if_pos here, ih later]

/-- Merged once more, a list adds nothing. -/
theorem mergeOnto_again (kept rows : List α) :
    mergeOnto key (mergeOnto key kept rows) rows = mergeOnto key kept rows := by
  apply mergeOnto_of_subset
  intro row among
  exact mem_keys_mergeOnto.mpr (.inr (List.mem_map_of_mem among))

theorem mem_keys_foldl {first : List α} {others : List (List α)} {value : κ} :
    value ∈ (others.foldl (mergeOnto key) first).map key ↔
      value ∈ first.map key ∨ ∃ rows ∈ others, value ∈ rows.map key := by
  induction others generalizing first with
  | nil => simp
  | cons rows rest ih =>
      rw [List.foldl_cons, ih, mem_keys_mergeOnto, or_assoc, List.exists_mem_cons_iff]

/-- The keys of merged lists are those of the lists. -/
theorem mem_keys_mergeAll {lists : List (List α)} {value : κ} :
    value ∈ (mergeAll key lists).map key ↔ ∃ rows ∈ lists, value ∈ rows.map key := by
  cases lists with
  | nil => simp [mergeAll]
  | cons first others => rw [mergeAll, mem_keys_foldl, List.exists_mem_cons_iff]

/-- The order of merging does not matter for the keys. -/
theorem mem_keys_mergeAll_of_perm {lists others : List (List α)} (same : lists.Perm others)
    {value : κ} :
    value ∈ (mergeAll key lists).map key ↔ value ∈ (mergeAll key others).map key := by
  rw [mem_keys_mergeAll, mem_keys_mergeAll]
  constructor
  · rintro ⟨rows, among, there⟩
    exact ⟨rows, same.mem_iff.mp among, there⟩
  · rintro ⟨rows, among, there⟩
    exact ⟨rows, same.mem_iff.mpr among, there⟩

/-- Lists merged into one without a key twice give one without a key twice. -/
theorem mergeAll_nodup {first : List α} (distinct : (first.map key).Nodup)
    (others : List (List α)) : ((mergeAll key (first :: others)).map key).Nodup := by
  rw [mergeAll]
  induction others generalizing first with
  | nil => exact distinct
  | cons rows rest ih => exact ih (mergeOnto_nodup distinct rows)

end Orchestrator.Foundation
