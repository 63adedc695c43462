import Mathlib.Data.List.Basic
import Mathlib.Tactic.Common

/-! # Lines of pairs

Pairs are written one on each line with a separator between their halves. When no first half has
the separator in it and no second half a line end, the text has one reading.
-/

namespace Orchestrator.Foundation.PairLines

variable {α : Type} (between lineEnd : α)

/-- A pair on a line. -/
def line (pair : List α × List α) : List α := pair.1 ++ between :: pair.2

/-- Pairs, one on each line. -/
def lines (pairs : List (List α × List α)) : List α :=
  [lineEnd].intercalate (pairs.map (line between))

/-- What follows the first line. -/
def rest (pairs : List (List α × List α)) : List α :=
  if pairs = [] then [] else lineEnd :: lines between lineEnd pairs

theorem lines_cons (pair : List α × List α) (pairs : List (List α × List α)) :
    lines between lineEnd (pair :: pairs) =
      pair.1 ++ between :: (pair.2 ++ rest between lineEnd pairs) := by
  cases pairs with
  | nil =>
      rw [rest, if_pos rfl, List.append_nil, lines, List.map_singleton, List.intercalate_singleton]
      rfl
  | cons next pairs =>
      rw [rest, if_neg (List.cons_ne_nil _ _), lines, lines, List.map_cons, List.map_cons,
        List.intercalate_cons_cons, line]
      simp only [List.append_assoc, List.cons_append, List.nil_append]

variable {between lineEnd} [DecidableEq α]

/-- Two texts are cut in one way at their first separator. -/
theorem append_cons_inj {separator : α} {first second after other : List α}
    (plain : separator ∉ first) (plainOther : separator ∉ second) :
    first ++ separator :: after = second ++ separator :: other ↔
      first = second ∧ after = other := by
  constructor
  · intro same
    have pieces := congrArg (List.splitOn separator) same
    rw [List.splitOn_append_cons_self_of_not_mem plain,
      List.splitOn_append_cons_self_of_not_mem plainOther] at pieces
    obtain ⟨heads, tails⟩ := List.cons.inj pieces
    have whole : [separator].intercalate (after.splitOn separator) = after :=
      List.intercalate_splitOn separator
    exact ⟨heads, by rw [← whole, tails, List.intercalate_splitOn]⟩
  · rintro ⟨rfl, rfl⟩
    rfl

/-- A second half ends where its line does. -/
theorem append_rest_inj {first second : List α} {pairs others : List (List α × List α)}
    (plain : lineEnd ∉ first) (plainOther : lineEnd ∉ second) :
    first ++ rest between lineEnd pairs = second ++ rest between lineEnd others →
      first = second ∧ lines between lineEnd pairs = lines between lineEnd others := by
  intro same
  by_cases none : pairs = []
  · subst none
    by_cases noneOther : others = []
    · subst noneOther
      exact ⟨List.append_cancel_right same, rfl⟩
    · rw [rest, if_pos rfl, rest, if_neg noneOther, List.append_nil] at same
      refine absurd ?_ plain
      rw [same]
      exact List.mem_append_right _ List.mem_cons_self
  · by_cases noneOther : others = []
    · subst noneOther
      rw [rest, if_neg none, rest, if_pos rfl, List.append_nil] at same
      refine absurd ?_ plainOther
      rw [← same]
      exact List.mem_append_right _ List.mem_cons_self
    · rw [rest, if_neg none, rest, if_neg noneOther] at same
      obtain ⟨halves, later⟩ := (append_cons_inj plain plainOther).mp same
      exact ⟨halves, later⟩

/-- Lines of pairs have one reading. -/
theorem lines_injective {pairs others : List (List α × List α)}
    (plain : ∀ pair ∈ pairs, between ∉ pair.1 ∧ lineEnd ∉ pair.2)
    (plainOther : ∀ pair ∈ others, between ∉ pair.1 ∧ lineEnd ∉ pair.2)
    (same : lines between lineEnd pairs = lines between lineEnd others) : pairs = others := by
  induction pairs generalizing others with
  | nil =>
      cases others with
      | nil => rfl
      | cons other others =>
          rw [lines_cons] at same
          exact absurd same.symm (List.append_ne_nil_of_right_ne_nil _ (List.cons_ne_nil _ _))
  | cons pair pairs ih =>
      cases others with
      | nil =>
          rw [lines_cons] at same
          exact absurd same (List.append_ne_nil_of_right_ne_nil _ (List.cons_ne_nil _ _))
      | cons other others =>
          have here := plain pair List.mem_cons_self
          have there := plainOther other List.mem_cons_self
          rw [lines_cons, lines_cons] at same
          obtain ⟨keys, values⟩ := (append_cons_inj here.1 there.1).mp same
          obtain ⟨values, later⟩ := append_rest_inj here.2 there.2 values
          have left := ih (fun pair among => plain pair (List.mem_cons_of_mem _ among))
            (fun pair among => plainOther pair (List.mem_cons_of_mem _ among)) later
          rw [Prod.ext keys values, left]

end Orchestrator.Foundation.PairLines
