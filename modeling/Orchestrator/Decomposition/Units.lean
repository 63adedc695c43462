import Mathlib.Data.List.Range
import Orchestrator.Decomposition.Plan

/-! # Accepting a split

A planner's output is parsed into subtasks, and a split is accepted when its size is in range, its
orders count from one and each subtask depends on earlier ones. Orders are integers of any sign.
-/

namespace Orchestrator.Decomposition.Units

open Orchestrator.Foundation
open Orchestrator.Foundation.PyText (strip)
open Orchestrator.Foundation.Json (isDigit)

/-- One subtask of a split, as it is proposed. -/
structure SubtaskSpec where
  order : Int
  title : PyText
  slug : PyText
  acceptanceCriteria : List PyText
  dependsOn : List Int
  specBody : Option PyText := none
  deriving DecidableEq

structure DecompositionDecision where
  accepted : Bool
  reason : String
  n : Nat
  subtasks : List SubtaskSpec := []
  deriving DecidableEq

def singleUnit (reason : String) : DecompositionDecision := ⟨false, reason, 1, []⟩

/-! ## Parsing -/

/-- The number of a list of decimal digits. -/
def digitsValue (digits : PyText) : Nat :=
  digits.foldl (fun number digit => 10 * number + (digit.val - 48)) 0

/-- The integer of a literal without a fraction or an exponent. -/
def intOf : Json → Option Int
  | .number literal =>
      match literal with
      | [] => none
      | first :: digits =>
          if first.val = 45 then
            if !digits.isEmpty && digits.all isDigit then some (-(digitsValue digits : Int))
              else none
          else if (first :: digits).all isDigit then some (digitsValue (first :: digits)) else none
  | _ => none

/-- A text that is not blank. -/
def filledText : Json → Option PyText
  | .string text => if strip text = [] then none else some text
  | _ => none

/-- `_parse_subtask`. -/
def parseSubtask (raw : Json) : Option SubtaskSpec :=
  match raw with
  | .object _ => do
      let order ← intOf (← raw.get? "order")
      let title ← filledText (← raw.get? "title")
      let slug ← filledText (← raw.get? "slug")
      let .array acceptance ← raw.get? "acceptance_criteria" | none
      if acceptance.isEmpty then none
      let acceptanceCriteria ← acceptance.mapM filledText
      let .array dependencies ← raw.get? "depends_on" | none
      let dependsOn ← dependencies.mapM intOf
      return { order, title, slug, acceptanceCriteria, dependsOn }
  | _ => none

/-! ## The decision -/

/-- Orders count from a number, and a subtask depends on earlier ones. -/
def linearFrom : Int → List SubtaskSpec → Bool
  | _, [] => true
  | index, spec :: rest =>
      spec.order = index && (spec.dependsOn.all fun dep => 1 ≤ dep && dep < spec.order) &&
        linearFrom (index + 1) rest

def sortedSpecs (specs : List SubtaskSpec) : List SubtaskSpec :=
  specs.insertionSort fun first second => first.order ≤ second.order

/-- `_decide_from_specs`. -/
def decideFromSpecs (specs : List SubtaskSpec) (maxSubtasks : Int) : DecompositionDecision :=
  if specs.length < 2 ∨ maxSubtasks < specs.length then singleUnit "n_out_of_range"
  else if linearFrom 1 (sortedSpecs specs) then
    ⟨true, "accepted", specs.length, sortedSpecs specs⟩
  else singleUnit "non_linear_dependencies"

/-- The raw subtasks of an output that recommends a split. -/
def recommended : Json → Option (List Json)
  | .object members =>
      match (Json.object members).get? "decompose", (Json.object members).get? "subtasks" with
      | some (.bool true), some (.array raw) => some raw
      | _, _ => none
  | _ => none

/-- `decide_decomposition`. -/
def decideDecomposition (structuredOutput : Json) (gateOn : Bool) (maxSubtasks : Int) :
    DecompositionDecision :=
  if gateOn then
    match recommended structuredOutput with
    | none => singleUnit "not_recommended"
    | some raw =>
        match raw.mapM parseSubtask with
        | none => singleUnit "malformed_subtask"
        | some specs => decideFromSpecs specs maxSubtasks
  else singleUnit "gate_off"

/-- `decide_operator_decomposition`. -/
def decideOperatorDecomposition (specs : List SubtaskSpec) (maxSubtasks : Int) :
    DecompositionDecision :=
  let decision := decideFromSpecs specs maxSubtasks
  if decision.accepted then
    { accepted := true
      reason := "operator_authored"
      n := decision.n
      subtasks := decision.subtasks }
  else decision

/-! ## What is accepted -/

/-- The orders from one to a number. -/
def ordersUpTo (count : Nat) : List Int :=
  (List.range count).map fun index : Nat => (index : Int) + 1

/-- A split that is linear: its size is in range, its orders are those from one to its size, and
every dependency is the order of an earlier subtask. -/
structure WellFormed (specs : List SubtaskSpec) (maxSubtasks : Int) : Prop where
  several : 2 ≤ specs.length
  bounded : (specs.length : Int) ≤ maxSubtasks
  orders : (specs.map SubtaskSpec.order).Perm (ordersUpTo specs.length)
  earlier : ∀ spec ∈ specs, ∀ dep ∈ spec.dependsOn,
    dep < spec.order ∧ ∃ other ∈ specs, other.order = dep

variable {specs other : List SubtaskSpec} {maxSubtasks : Int}

theorem mem_ordersUpTo {count : Nat} {order : Int} :
    order ∈ ordersUpTo count ↔ 1 ≤ order ∧ order ≤ count := by
  rw [ordersUpTo, List.mem_map]
  constructor
  · rintro ⟨index, among, rfl⟩
    have below := List.mem_range.mp among
    omega
  · rintro ⟨positive, bounded⟩
    exact ⟨(order - 1).toNat, List.mem_range.mpr (by omega), by omega⟩

/-- A list is linear from a number when its orders are those from the number and its dependencies
are positive and earlier. -/
theorem linearFrom_iff {index : Int} : linearFrom index specs = true ↔
    specs.map SubtaskSpec.order =
      (List.range specs.length).map (fun step : Nat => index + (step : Int)) ∧
      ∀ spec ∈ specs, ∀ dep ∈ spec.dependsOn, 1 ≤ dep ∧ dep < spec.order := by
  induction specs generalizing index with
  | nil => exact iff_of_true rfl ⟨rfl, nofun⟩
  | cons spec specs ih =>
      have tail :
          (List.range specs.length).map
              (fun step : Nat => index + ((step + 1 : Nat) : Int)) =
          (List.range specs.length).map (fun step : Nat => index + 1 + (step : Int)) := by
        apply List.map_congr_left
        intro step _
        omega
      have start : index + ((0 : Nat) : Int) = index := by omega
      rw [linearFrom, Bool.and_eq_true, Bool.and_eq_true, ih, decide_eq_true_eq, List.all_eq_true,
        List.length_cons, List.range_succ_eq_map, List.map_cons, List.map_cons, List.map_map,
        List.forall_mem_cons, List.cons.injEq]
      simp only [Function.comp_def, tail, start, Bool.and_eq_true,
        decide_eq_true_eq]
      exact ⟨fun ⟨⟨head, mine⟩, orders, others⟩ => ⟨⟨head, orders⟩, mine, others⟩,
        fun ⟨⟨head, orders⟩, mine, others⟩ => ⟨⟨head, mine⟩, orders, others⟩⟩

theorem sortedSpecs_perm (specs : List SubtaskSpec) : (sortedSpecs specs).Perm specs :=
  List.perm_insertionSort _ specs

theorem map_succ_range (count : Nat) :
    (List.range count).map (fun step : Nat => 1 + (step : Int)) = ordersUpTo count := by
  apply List.map_congr_left
  intro step _
  omega

theorem pairwise_ordersUpTo (count : Nat) : (ordersUpTo count).Pairwise (· < ·) := by
  rw [ordersUpTo, List.pairwise_map]
  apply List.pairwise_lt_range.imp
  intro first second less
  omega

/-- Sorted orders that are those up to a number are them in order. -/
theorem map_order_sortedSpecs (orders : (specs.map SubtaskSpec.order).Perm
    (ordersUpTo specs.length)) :
    (sortedSpecs specs).map SubtaskSpec.order = ordersUpTo specs.length := by
  have sorted : ((sortedSpecs specs).map SubtaskSpec.order).Pairwise (· ≤ ·) := by
    rw [List.pairwise_map]
    exact List.pairwise_insertionSort _ specs
  have counting : (ordersUpTo specs.length).Pairwise (· ≤ ·) :=
    (pairwise_ordersUpTo specs.length).imp Int.le_of_lt
  exact List.Perm.eq_of_pairwise (fun _ _ _ _ => Int.le_antisymm) sorted counting
    (((sortedSpecs_perm specs).map _).trans orders)

theorem linear_iff_wellFormed (several : 2 ≤ specs.length)
    (bounded : (specs.length : Int) ≤ maxSubtasks) :
    linearFrom 1 (sortedSpecs specs) = true ↔ WellFormed specs maxSubtasks := by
  have perm := sortedSpecs_perm specs
  rw [linearFrom_iff, perm.length_eq, map_succ_range]
  constructor
  · rintro ⟨orders, earlier⟩
    have permuted : (specs.map SubtaskSpec.order).Perm (ordersUpTo specs.length) :=
      orders ▸ (perm.map SubtaskSpec.order).symm
    refine ⟨several, bounded, permuted, fun spec among dep listed => ?_⟩
    obtain ⟨positive, less⟩ := earlier spec (perm.mem_iff.mpr among) dep listed
    have mine : spec.order ∈ ordersUpTo specs.length :=
      permuted.mem_iff.mp (List.mem_map_of_mem among)
    have inRange : dep ∈ ordersUpTo specs.length :=
      mem_ordersUpTo.mpr ⟨positive, by have := (mem_ordersUpTo.mp mine).2; omega⟩
    exact ⟨less, List.mem_map.mp (permuted.mem_iff.mpr inRange)⟩
  · intro formed
    refine ⟨map_order_sortedSpecs formed.orders, fun spec among dep listed => ?_⟩
    obtain ⟨less, other, there, rfl⟩ := formed.earlier spec (perm.mem_iff.mp among) dep listed
    exact ⟨(mem_ordersUpTo.mp (formed.orders.mem_iff.mp (List.mem_map_of_mem there))).1, less⟩

/-- The decision of a list of specs. -/
theorem decideFromSpecs_eq (specs : List SubtaskSpec) (maxSubtasks : Int) :
    (WellFormed specs maxSubtasks ∧ decideFromSpecs specs maxSubtasks =
        ⟨true, "accepted", specs.length, sortedSpecs specs⟩) ∨
      (¬ WellFormed specs maxSubtasks ∧ decideFromSpecs specs maxSubtasks =
        singleUnit (if specs.length < 2 ∨ maxSubtasks < specs.length then "n_out_of_range"
          else "non_linear_dependencies")) := by
  rw [decideFromSpecs]
  by_cases outside : specs.length < 2 ∨ maxSubtasks < specs.length
  · refine .inr ⟨fun formed => ?_, by rw [if_pos outside, if_pos outside]⟩
    have several := formed.several
    have bounded := formed.bounded
    omega
  · have linear : linearFrom 1 (sortedSpecs specs) = true ↔ WellFormed specs maxSubtasks :=
      linear_iff_wellFormed (by omega) (by omega)
    rw [if_neg outside, if_neg outside]
    by_cases formed : WellFormed specs maxSubtasks
    · exact .inl ⟨formed, if_pos (linear.mpr formed)⟩
    · exact .inr ⟨formed, if_neg (mt linear.mp formed)⟩

theorem wellFormed_of_perm (perm : other.Perm specs) (formed : WellFormed specs maxSubtasks) :
    WellFormed other maxSubtasks where
  several := perm.length_eq ▸ formed.several
  bounded := perm.length_eq ▸ formed.bounded
  orders := by
    rw [perm.length_eq]
    exact (perm.map SubtaskSpec.order).trans formed.orders
  earlier spec among dep listed := by
    obtain ⟨less, before, there, same⟩ := formed.earlier spec (perm.mem_iff.mp among) dep listed
    exact ⟨less, before, perm.mem_iff.mpr there, same⟩

/-- The accepted subtasks stand in increasing order. -/
theorem pairwise_sortedSpecs (formed : WellFormed specs maxSubtasks) :
    (sortedSpecs specs).Pairwise fun first second => first.order < second.order := by
  rw [← List.pairwise_map, map_order_sortedSpecs formed.orders]
  exact pairwise_ordersUpTo specs.length

/-- Specs that are well formed have one order, however they are listed. -/
theorem sortedSpecs_eq_of_perm (perm : other.Perm specs) (formed : WellFormed specs maxSubtasks) :
    sortedSpecs other = sortedSpecs specs := by
  apply List.Perm.eq_of_pairwise _ (pairwise_sortedSpecs (wellFormed_of_perm perm formed))
    (pairwise_sortedSpecs formed)
  · exact ((sortedSpecs_perm other).trans perm).trans (sortedSpecs_perm specs).symm
  · intro first second _ _ less more
    omega

theorem decideFromSpecs_of_perm (perm : other.Perm specs) (maxSubtasks : Int) :
    decideFromSpecs other maxSubtasks = decideFromSpecs specs maxSubtasks := by
  rcases decideFromSpecs_eq specs maxSubtasks with ⟨formed, decided⟩ | ⟨illFormed, decided⟩
  · rcases decideFromSpecs_eq other maxSubtasks with ⟨-, alike⟩ | ⟨unlike, -⟩
    · rw [alike, decided, perm.length_eq, sortedSpecs_eq_of_perm perm formed]
    · exact absurd (wellFormed_of_perm perm formed) unlike
  · rcases decideFromSpecs_eq other maxSubtasks with ⟨formed, -⟩ | ⟨-, alike⟩
    · exact absurd (wellFormed_of_perm perm.symm formed) illFormed
    · rw [alike, decided, perm.length_eq]

/-- The subtasks that a decision lists stand in increasing order. -/
theorem pairwise_subtasks (specs : List SubtaskSpec) (maxSubtasks : Int) :
    (decideFromSpecs specs maxSubtasks).subtasks.Pairwise
      fun first second => first.order < second.order := by
  rcases decideFromSpecs_eq specs maxSubtasks with ⟨formed, decided⟩ | ⟨-, decided⟩
  · rw [decided]
    exact pairwise_sortedSpecs formed
  · rw [decided]
    exact List.Pairwise.nil

/-- An operator's decision is the one of the specs but for its reason. -/
theorem decideOperatorDecomposition_eq (specs : List SubtaskSpec) (maxSubtasks : Int) :
    (decideOperatorDecomposition specs maxSubtasks).accepted =
        (decideFromSpecs specs maxSubtasks).accepted ∧
      (decideOperatorDecomposition specs maxSubtasks).n = (decideFromSpecs specs maxSubtasks).n ∧
      (decideOperatorDecomposition specs maxSubtasks).subtasks =
        (decideFromSpecs specs maxSubtasks).subtasks := by
  rw [decideOperatorDecomposition]
  cases shape : (decideFromSpecs specs maxSubtasks).accepted with
  | true => exact ⟨rfl, rfl, rfl⟩
  | false => exact ⟨shape, rfl, rfl⟩

/-- A spec of a run's plan, whose numbers are natural. -/
def ofPlan (spec : Decomposition.SubtaskSpec) : SubtaskSpec where
  order := spec.order
  title := PyText.ofString spec.title
  slug := PyText.ofString spec.slug
  acceptanceCriteria := spec.acceptanceCriteria.map PyText.ofString
  dependsOn := spec.dependsOn.map Int.ofNat
  specBody := spec.specBody.map PyText.ofString

theorem linearFrom_map_ofPlan (index : Nat) (specs : List Decomposition.SubtaskSpec) :
    linearFrom index (specs.map ofPlan) = Decomposition.linearFrom index specs := by
  induction specs generalizing index with
  | nil => rfl
  | cons spec specs ih =>
      have orders : decide ((ofPlan spec).order = (index : Int)) = decide (spec.order = index) :=
        decide_eq_decide.mpr Int.ofNat_inj
      have dependencies : ((ofPlan spec).dependsOn.all fun dep =>
            decide (1 ≤ dep) && decide (dep < (ofPlan spec).order)) =
          spec.dependsOn.all fun earlier =>
            decide (1 ≤ earlier) && decide (earlier < spec.order) := by
        rw [ofPlan, List.all_map]
        apply List.all_congr rfl
        intro dep
        rw [Function.comp_apply, Bool.eq_iff_iff]
        simp only [Bool.and_eq_true, decide_eq_true_eq, Int.ofNat_eq_natCast]
        omega
      have next : (index : Int) + 1 = ((index + 1 : Nat) : Int) := by omega
      rw [List.map_cons, linearFrom, Decomposition.linearFrom, orders, dependencies, next, ih]

/-- The decision on a run's plan is the one on its specs. -/
theorem decideFromSpecs_map_ofPlan (specs : List Decomposition.SubtaskSpec) (maxSubtasks : Nat) :
    let decision := decideFromSpecs (specs.map ofPlan) maxSubtasks
    let planned := Decomposition.decideFromSpecs specs maxSubtasks
    decision.accepted = planned.accepted ∧ decision.reason = planned.reason ∧
      decision.n = planned.n ∧ decision.subtasks = planned.subtasks.map ofPlan := by
  have sorted : sortedSpecs (specs.map ofPlan) =
      (specs.insertionSort fun first second => first.order ≤ second.order).map ofPlan := by
    symm
    apply List.map_insertionSort
    intro first _ second _
    exact Int.ofNat_le.symm
  have outside : ((specs.map ofPlan).length < 2 ∨
      (maxSubtasks : Int) < ((specs.map ofPlan).length : Int)) ↔
      (specs.length < 2 ∨ maxSubtasks < specs.length) := by
    rw [List.length_map]
    omega
  have linear : linearFrom 1 (sortedSpecs (specs.map ofPlan)) = Decomposition.linearFrom 1
      (specs.insertionSort fun first second => first.order ≤ second.order) := by
    rw [sorted]
    exact linearFrom_map_ofPlan 1 _
  dsimp only
  rw [decideFromSpecs, Decomposition.decideFromSpecs, linear, sorted]
  by_cases out : specs.length < 2 ∨ maxSubtasks < specs.length
  · rw [if_pos (outside.mpr out), if_pos out]
    exact ⟨rfl, rfl, rfl, rfl⟩
  · rw [if_neg (mt outside.mp out), if_neg out]
    split
    · exact ⟨rfl, rfl, List.length_map _, rfl⟩
    · exact ⟨rfl, rfl, rfl, rfl⟩

/-- A split is accepted exactly when it is well formed, however its subtasks are listed; they come
out in increasing order, and both ways of proposing them decide alike. -/
theorem split_accepted_iff_wellFormed (specs : List SubtaskSpec) (maxSubtasks : Int) :
    ((decideFromSpecs specs maxSubtasks).accepted = true ↔ WellFormed specs maxSubtasks) ∧
      (∀ other, other.Perm specs →
        decideFromSpecs other maxSubtasks = decideFromSpecs specs maxSubtasks) ∧
      (decideFromSpecs specs maxSubtasks).subtasks.Pairwise
        (fun first second => first.order < second.order) ∧
      ((decideFromSpecs specs maxSubtasks).accepted = true →
        (decideFromSpecs specs maxSubtasks).subtasks.Perm specs) ∧
      ∀ output raw, recommended output = some raw → raw.mapM parseSubtask = some specs →
        let proposed := decideDecomposition output true maxSubtasks
        let supplied := decideOperatorDecomposition specs maxSubtasks
        proposed.accepted = supplied.accepted ∧ proposed.n = supplied.n ∧
          proposed.subtasks = supplied.subtasks := by
  refine ⟨?_, fun other perm => decideFromSpecs_of_perm perm maxSubtasks,
    pairwise_subtasks specs maxSubtasks, ?_, ?_⟩
  · rcases decideFromSpecs_eq specs maxSubtasks with ⟨formed, decided⟩ | ⟨illFormed, decided⟩
    · exact iff_of_true (by rw [decided]) formed
    · exact iff_of_false (by rw [decided]; exact Bool.false_ne_true) illFormed
  · rcases decideFromSpecs_eq specs maxSubtasks with ⟨-, decided⟩ | ⟨-, decided⟩
    · rw [decided]
      exact fun _ => sortedSpecs_perm specs
    · rw [decided]
      exact nofun
  · intro output raw splits parsed
    have proposed : decideDecomposition output true maxSubtasks =
        decideFromSpecs specs maxSubtasks := by
      rw [decideDecomposition, if_pos rfl, splits]
      dsimp only
      rw [parsed]
    obtain ⟨accepted, count, subtasks⟩ := decideOperatorDecomposition_eq specs maxSubtasks
    dsimp only
    rw [proposed]
    exact ⟨accepted.symm, count.symm, subtasks.symm⟩

end Orchestrator.Decomposition.Units
