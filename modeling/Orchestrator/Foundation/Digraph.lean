import Mathlib.Data.Finset.Card
import Mathlib.Data.Finset.Filter
import Mathlib.Logic.Relation
import Mathlib.Algebra.BigOperators.Group.List.Basic
import Mathlib.Algebra.Order.BigOperators.Group.List
import Mathlib.Algebra.Order.Group.Nat
import Mathlib.Algebra.Ring.Nat
import Mathlib.Tactic.Common

/-! # Finite directed graphs given by successor lists

A worklist search computes reachability, a rank measures how far a vertex is
from the ends of an acyclic graph, and peeling vertices without successors
decides acyclicity.
-/

namespace Orchestrator.Foundation

open Relation

variable {α : Type}

/-- A directed graph given by successor lists. Only the listed sources have
successors, so the graph has finitely many edges. -/
structure SuccessorGraph (α : Type) where
  next : α → List α
  sources : List α
  next_eq_nil : ∀ vertex, vertex ∉ sources → next vertex = []

namespace SuccessorGraph

variable (graph : SuccessorGraph α)

/-- An edge from the first vertex to the second. -/
def Step (first second : α) : Prop := second ∈ graph.next first

/-- A directed path, possibly empty. -/
def Reaches : α → α → Prop := ReflTransGen graph.Step

/-! ## Worklist search -/

section Search

variable [DecidableEq α]

/-- The search loop: pop the stack, skip a seen vertex, else mark it seen and push its successors.
The fuel bounds the number of pops. -/
def visit (next : α → List α) : Nat → List α → List α → List α
  | 0, _, seen => seen
  | _ + 1, [], seen => seen
  | fuel + 1, vertex :: stack, seen =>
      if vertex ∈ seen then visit next fuel stack seen
      else visit next fuel ((next vertex).reverse ++ stack) (vertex :: seen)

/-- Every pop consumes a stack entry, and each vertex pushes its successors once. -/
def searchFuel (stack : List α) : Nat :=
  stack.length + (graph.sources.map fun vertex => (graph.next vertex).length).sum

/-- All vertices found by the search from an initial stack. -/
def reachableFrom (stack : List α) : List α :=
  visit graph.next (graph.searchFuel stack) stack []

/-- The successors still to be pushed by unseen vertices. -/
private def pending (next : α → List α) (sources seen : List α) : Nat :=
  ((sources.filter (· ∉ seen)).map fun vertex => (next vertex).length).sum

private theorem pending_cons_le (next : α → List α) (sources seen : List α) (vertex : α) :
    pending next sources (vertex :: seen) ≤ pending next sources seen := by
  unfold pending
  apply List.Sublist.sum_le_sum
  · apply List.Sublist.map
    apply List.monotone_filter_right
    intro other unseen
    simp only [decide_eq_true_eq, List.mem_cons, not_or] at unseen ⊢
    exact unseen.2
  · exact fun _ _ => Nat.zero_le _

private theorem pending_cons_of_mem (next : α → List α) {sources seen : List α} {vertex : α}
    (source : vertex ∈ sources) (fresh : vertex ∉ seen) :
    pending next sources (vertex :: seen) + (next vertex).length ≤ pending next sources seen := by
  induction sources with
  | nil => cases source
  | cons head tail ih =>
      by_cases same : head = vertex
      · subst same
        have rest := pending_cons_le next tail seen head
        simp only [pending, List.filter_cons, List.mem_cons, true_or, not_true_eq_false,
          decide_false, Bool.false_eq_true, ↓reduceIte, fresh, not_false_eq_true, decide_true,
          List.map_cons, List.sum_cons] at rest ⊢
        omega
      · have inTail : vertex ∈ tail :=
          (List.mem_cons.mp source).resolve_left (fun equal => same equal.symm)
        have bound := ih inTail
        by_cases known : head ∈ seen
        · simp only [pending, List.filter_cons, List.mem_cons, same, known, or_true,
            not_true_eq_false, decide_false, Bool.false_eq_true, ↓reduceIte] at bound ⊢
          exact bound
        · simp only [pending, List.filter_cons, List.mem_cons, same, known, or_self,
            not_false_eq_true, decide_true, ↓reduceIte, List.map_cons, List.sum_cons] at bound ⊢
          omega

private theorem pending_nil_le (stack : List α) :
    stack.length + pending graph.next graph.sources [] ≤ graph.searchFuel stack := by
  unfold pending searchFuel
  simp

/-- What the loop keeps: the seen vertices are found, and their successors are seen or stacked. -/
private structure Searching (roots stack seen : List α) : Prop where
  sound : ∀ vertex, vertex ∈ stack ∨ vertex ∈ seen → ∃ root ∈ roots, graph.Reaches root vertex
  covered : ∀ root ∈ roots, root ∈ seen ∨ root ∈ stack
  closed : ∀ vertex ∈ seen, ∀ successor ∈ graph.next vertex, successor ∈ seen ∨ successor ∈ stack

omit [DecidableEq α] in
/-- Once the stack is empty the seen vertices are closed under steps. -/
private theorem Searching.mem_seen_iff {roots seen : List α}
    (searching : graph.Searching roots [] seen) (vertex : α) :
    vertex ∈ seen ↔ ∃ root ∈ roots, graph.Reaches root vertex := by
  constructor
  · exact fun found => searching.sound vertex (.inr found)
  · rintro ⟨root, member, path⟩
    have seenRoot : root ∈ seen := (searching.covered root member).resolve_right nofun
    induction path with
    | refl => exact seenRoot
    | tail _ edge ih => exact (searching.closed _ ih _ edge).resolve_right nofun

omit [DecidableEq α] in
/-- Popping a seen vertex keeps the invariant. -/
private theorem Searching.skip {roots stack seen : List α} {top : α}
    (searching : graph.Searching roots (top :: stack) seen) (known : top ∈ seen) :
    graph.Searching roots stack seen := by
  have settled : ∀ {vertex}, vertex ∈ seen ∨ vertex ∈ top :: stack →
      vertex ∈ seen ∨ vertex ∈ stack := by
    rintro vertex (found | waiting)
    · exact .inl found
    · rcases List.mem_cons.mp waiting with rfl | later
      · exact .inl known
      · exact .inr later
  constructor
  · exact fun vertex place => searching.sound vertex (place.imp_left (List.mem_cons_of_mem _))
  · exact fun root member => settled (searching.covered root member)
  · exact fun vertex found successor edge => settled (searching.closed vertex found successor edge)

omit [DecidableEq α] in
/-- Marking an unseen vertex and pushing its successors keeps the invariant. -/
private theorem Searching.mark {roots stack seen : List α} {top : α}
    (searching : graph.Searching roots (top :: stack) seen) :
    graph.Searching roots ((graph.next top).reverse ++ stack) (top :: seen) := by
  have settled : ∀ {vertex}, vertex ∈ seen ∨ vertex ∈ top :: stack →
      vertex ∈ top :: seen ∨ vertex ∈ (graph.next top).reverse ++ stack := by
    rintro vertex (found | waiting)
    · exact .inl (List.mem_cons_of_mem _ found)
    · rcases List.mem_cons.mp waiting with rfl | later
      · exact .inl List.mem_cons_self
      · exact .inr (List.mem_append_right _ later)
  have topFound := searching.sound top (.inl List.mem_cons_self)
  constructor
  · rintro vertex (stacked | found)
    · rcases List.mem_append.mp stacked with pushed | later
      · obtain ⟨root, member, path⟩ := topFound
        exact ⟨root, member, path.tail (List.mem_reverse.mp pushed)⟩
      · exact searching.sound vertex (.inl (List.mem_cons_of_mem _ later))
    · rcases List.mem_cons.mp found with rfl | earlier
      · exact topFound
      · exact searching.sound vertex (.inr earlier)
  · exact fun root member => settled (searching.covered root member)
  · intro vertex found successor edge
    rcases List.mem_cons.mp found with rfl | earlier
    · exact .inr (List.mem_append_left _ (List.mem_reverse.mpr edge))
    · exact settled (searching.closed vertex earlier successor edge)

/-- Enough fuel empties the stack, and what has been seen by then is what is reachable. -/
private theorem mem_visit_iff (roots : List α) (fuel : Nat) (stack seen : List α)
    (searching : graph.Searching roots stack seen)
    (enough : stack.length + pending graph.next graph.sources seen ≤ fuel) (vertex : α) :
    vertex ∈ visit graph.next fuel stack seen ↔ ∃ root ∈ roots, graph.Reaches root vertex := by
  induction fuel generalizing stack seen with
  | zero =>
      have empty : stack = [] := List.length_eq_zero_iff.mp (by omega)
      subst empty
      exact searching.mem_seen_iff graph vertex
  | succ fuel ih =>
      cases stack with
      | nil => exact searching.mem_seen_iff graph vertex
      | cons top rest =>
          rw [List.length_cons] at enough
          by_cases known : top ∈ seen
          · simp only [visit, known, ↓reduceIte]
            apply ih rest seen (searching.skip graph known)
            omega
          · simp only [visit, known, ↓reduceIte]
            apply ih _ (top :: seen) (searching.mark graph)
            rw [List.length_append, List.length_reverse]
            by_cases source : top ∈ graph.sources
            · have := pending_cons_of_mem graph.next source known
              omega
            · have := pending_cons_le graph.next graph.sources seen top
              rw [graph.next_eq_nil top source, List.length_nil]
              omega

/-- The search finds exactly the vertices reachable from its initial stack. -/
theorem mem_reachableFrom_iff (stack : List α) (vertex : α) :
    vertex ∈ graph.reachableFrom stack ↔ ∃ root ∈ stack, graph.Reaches root vertex := by
  refine graph.mem_visit_iff stack _ stack [] ⟨?_, ?_, ?_⟩ (graph.pending_nil_le stack) vertex
  · rintro other (stacked | found)
    · exact ⟨other, stacked, .refl⟩
    · cases found
  · exact fun root member => .inr member
  · exact nofun

theorem mem_reachableFrom_singleton_iff (root vertex : α) :
    vertex ∈ graph.reachableFrom [root] ↔ graph.Reaches root vertex := by
  rw [mem_reachableFrom_iff]
  simp only [List.mem_singleton, exists_eq_left]

end Search

end SuccessorGraph

/-! ## Rank in an acyclic relation -/

section Rank

variable [DecidableEq α] (step : α → α → Prop) (vertices : List α)

open Classical in
/-- The number of listed vertices strictly ahead of a vertex. -/
noncomputable def rank (vertex : α) : Nat :=
  (vertices.toFinset.filter fun ahead => TransGen step vertex ahead).card

/-- In an acyclic relation every step to a listed vertex lowers the rank. -/
theorem rank_lt_of_step {step : α → α → Prop} {vertices : List α}
    (acyclic : ∀ vertex, ¬ TransGen step vertex vertex) {first second : α}
    (edge : step first second) (listed : second ∈ vertices) :
    rank step vertices second < rank step vertices first := by
  classical
  unfold rank
  apply Finset.card_lt_card
  refine (Finset.ssubset_iff_of_subset ?_).mpr ⟨second, ?_, ?_⟩
  · intro ahead member
    rw [Finset.mem_filter] at member ⊢
    exact ⟨member.1, TransGen.head edge member.2⟩
  · rw [Finset.mem_filter, List.mem_toFinset]
    exact ⟨listed, .single edge⟩
  · rw [Finset.mem_filter]
    exact fun member => acyclic second member.2

/-- A listed vertex of an acyclic relation is not ahead of itself. -/
theorem rank_lt_length {step : α → α → Prop} {vertices : List α}
    (acyclic : ∀ vertex, ¬ TransGen step vertex vertex) {vertex : α} (listed : vertex ∈ vertices) :
    rank step vertices vertex < vertices.length := by
  classical
  have proper : rank step vertices vertex < vertices.toFinset.card := by
    unfold rank
    apply Finset.card_lt_card
    refine (Finset.ssubset_iff_of_subset (Finset.filter_subset _ _)).mpr ⟨vertex, ?_, ?_⟩
    · exact List.mem_toFinset.mpr listed
    · rw [Finset.mem_filter]
      exact fun member => acyclic vertex member.2
  exact proper.trans_le vertices.toFinset_card_le

end Rank

/-! ## Peeling -/

section Peel

variable [DecidableEq α] (next : α → List α)

/-- Keep the vertices with a successor among the kept ones; repeat. -/
def peel : Nat → List α → List α
  | 0, vertices => vertices
  | rounds + 1, vertices =>
      peel rounds (vertices.filter fun vertex => (next vertex).any (· ∈ vertices))

/-- Peeling once a vertex removes all of them. -/
def peelsAway (vertices : List α) : Bool := (peel next vertices.length vertices).isEmpty

variable {next}

private theorem mem_of_mem_peel (rounds : Nat) : ∀ (kept : List α) (vertex : α),
    vertex ∈ peel next rounds kept → vertex ∈ kept := by
  induction rounds with
  | zero => exact fun _ _ member => member
  | succ rounds ih => exact fun kept vertex member => (List.mem_filter.mp (ih _ _ member)).1

private theorem mem_peel_of_cycle (rounds : Nat) : ∀ kept : List α,
      (∀ vertex, TransGen (fun first second => second ∈ next first) vertex vertex → vertex ∈ kept) →
      ∀ vertex, TransGen (fun first second => second ∈ next first) vertex vertex →
        vertex ∈ peel next rounds kept := by
  induction rounds with
  | zero => exact fun kept cyclic vertex cycle => cyclic vertex cycle
  | succ rounds ih =>
      intro kept cyclic
      refine ih _ fun vertex cycle => ?_
      obtain ⟨successor, edge, back⟩ := TransGen.head'_iff.mp cycle
      refine List.mem_filter.mpr ⟨cyclic vertex cycle, List.any_eq_true.mpr ⟨successor, edge, ?_⟩⟩
      exact decide_eq_true (cyclic successor (TransGen.tail' back edge))

private theorem rank_of_mem_peel {vertices : List α}
    (acyclic : ∀ vertex, ¬ TransGen (fun first second => second ∈ next first) vertex vertex) :
    ∀ rounds (kept : List α), (∀ vertex ∈ kept, vertex ∈ vertices) → ∀ base,
      (∀ vertex ∈ kept, base ≤ rank (fun first second => second ∈ next first) vertices vertex) →
      ∀ vertex ∈ peel next rounds kept,
        base + rounds ≤ rank (fun first second => second ∈ next first) vertices vertex := by
  intro rounds
  induction rounds with
  | zero => exact fun kept _ base bound vertex member => bound vertex member
  | succ rounds ih =>
      intro kept listed base bound vertex member
      have later := ih _ (fun vertex member => listed vertex (List.mem_filter.mp member).1)
        (base + 1) ?_ vertex member
      · omega
      · intro other otherMember
        obtain ⟨kept', ahead⟩ := List.mem_filter.mp otherMember
        obtain ⟨successor, edge, keptSuccessor⟩ := List.any_eq_true.mp ahead
        have inside := of_decide_eq_true keptSuccessor
        exact Nat.succ_le_of_lt ((bound successor inside).trans_lt
          (rank_lt_of_step acyclic edge (listed successor inside)))

/-- When all edges lead to listed vertices, peeling removes every vertex exactly
when the graph has no cycle. -/
theorem peelsAway_iff_acyclic {vertices : List α}
    (closed : ∀ first second, second ∈ next first → second ∈ vertices) :
    peelsAway next vertices = true ↔
      ∀ vertex, ¬ TransGen (fun first second => second ∈ next first) vertex vertex := by
  unfold peelsAway
  rw [List.isEmpty_iff]
  constructor
  · intro empty vertex cycle
    have kept := mem_peel_of_cycle vertices.length vertices (fun other otherCycle => by
      obtain ⟨before, _, edge⟩ := TransGen.tail'_iff.mp otherCycle
      exact closed before other edge) vertex cycle
    rw [empty] at kept
    cases kept
  · intro acyclic
    apply List.eq_nil_iff_forall_not_mem.mpr
    intro vertex member
    have high := rank_of_mem_peel acyclic vertices.length vertices
      (fun _ member => member) 0 (fun _ _ => Nat.zero_le _) vertex member
    have listed := mem_of_mem_peel vertices.length vertices vertex member
    have low := rank_lt_length acyclic listed
    omega

end Peel

end Orchestrator.Foundation
