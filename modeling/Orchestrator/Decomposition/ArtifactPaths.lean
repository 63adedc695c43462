import Orchestrator.Decomposition.Units
import Orchestrator.Foundation.JsonRoundTrip
import Orchestrator.Foundation.NumberedNames

/-! # Where the subtasks' artifacts are written

A subtask's spec and its handoff are named by its order and its slug, below the directory of the
task's subtasks. The slug is the planner's text as it is: they are all in the directory exactly
when no slug holds a slash.
-/

namespace Orchestrator.Decomposition.Units

open Orchestrator.Foundation
open Orchestrator.Foundation.PyText (ofString ofChar)

/-! ## Paths -/

def slash : CodePoint := ofChar '/'

/-- The parts of a relative path. -/
def pathParts (path : PyText) : List PyText :=
  (path.splitOn slash).filter fun part => decide (part ≠ [] ∧ part ≠ [ofChar '.'])

/-- A number as `:02d` writes it. -/
def twoDigits (number : Int) : List Char :=
  let digits := (toString number).toList
  if digits.length < 2 then '0' :: digits else digits

/-- What the names of a subtask's artifacts begin with. -/
def artifactStem (order : Int) (slug : PyText) : PyText :=
  (twoDigits order).map ofChar ++ ofChar '-' :: slug

/-- `subtask_spec_path`, below the directory of the subtasks. -/
def subtaskSpecPath (directory : List PyText) (spec : SubtaskSpec) : List PyText :=
  directory ++ pathParts (artifactStem spec.order spec.slug ++ ofString ".md")

/-- `subtask_handoff_path`. -/
def subtaskHandoffPath (directory : List PyText) (spec : SubtaskSpec) : List PyText :=
  directory ++ pathParts (artifactStem spec.order spec.slug ++ ofString ".handoff.md")

/-- The paths of a decision's artifacts. -/
def artifactPaths (directory : List PyText) (decision : DecompositionDecision) :
    List (List PyText) :=
  decision.subtasks.flatMap fun spec =>
    [subtaskSpecPath directory spec, subtaskHandoffPath directory spec]

/-- The artifacts of a decision have paths of their own, each directly in the directory. -/
structure Placed (directory : List PyText) (decision : DecompositionDecision) : Prop where
  distinct : (artifactPaths directory decision).Nodup
  children : ∀ path ∈ artifactPaths directory decision,
    ∃ name, path = directory ++ [name] ∧ name ≠ ofString ".."

/-! ## Parts of a name -/

theorem pathParts_of_notMem {name : PyText} (single : slash ∉ name) (filled : name ≠ [])
    (real : name ≠ [ofChar '.']) : pathParts name = [name] := by
  rw [pathParts, List.splitOn_eq_singleton single]
  exact List.filter_cons_of_pos (decide_eq_true ⟨filled, real⟩)

/-- A letter of joined parts that is no slash is in one of them. -/
theorem exists_part_of_mem {parts : List PyText} {letter : CodePoint} (plain : letter ≠ slash)
    (among : letter ∈ [slash].intercalate parts) : ∃ part ∈ parts, letter ∈ part := by
  induction parts with
  | nil => cases among
  | cons first rest ih =>
      cases rest with
      | nil =>
          rw [List.intercalate_singleton] at among
          exact ⟨first, List.mem_cons_self, among⟩
      | cons second rest =>
          rw [List.intercalate_cons_cons, List.mem_append, List.mem_append] at among
          rcases among with (here | between) | later
          · exact ⟨first, List.mem_cons_self, here⟩
          · exact absurd (List.mem_singleton.mp between) plain
          · obtain ⟨part, listed, within⟩ := ih later
            exact ⟨part, List.mem_cons_of_mem _ listed, within⟩

/-- A path with a letter that is neither a slash nor a dot has a part. -/
theorem pathParts_ne_nil {path : PyText} {letter : CodePoint} (among : letter ∈ path)
    (plain : letter ≠ slash) (real : letter ≠ ofChar '.') : pathParts path ≠ [] := by
  have joined : letter ∈ [slash].intercalate (path.splitOn slash) := by
    rw [List.intercalate_splitOn]
    exact among
  obtain ⟨part, listed, within⟩ := exists_part_of_mem plain joined
  refine List.ne_nil_of_mem (List.mem_filter.mpr ⟨listed, decide_eq_true ⟨?_, ?_⟩⟩)
  · rintro rfl
    cases within
  · rintro rfl
    exact real (List.mem_singleton.mp within)

/-- A path with letters on both sides of a slash has more than one part. -/
theorem pathParts_ne_singleton {front back : PyText} {first last : CodePoint}
    (before : first ∈ front) (plain : first ≠ slash) (real : first ≠ ofChar '.')
    (after : last ∈ back) (plainLast : last ≠ slash) (realLast : last ≠ ofChar '.')
    (name : PyText) : pathParts (front ++ slash :: back) ≠ [name] := by
  have split : pathParts (front ++ slash :: back) = pathParts front ++ pathParts back := by
    rw [pathParts, List.splitOn_append_cons_self, List.filter_append]
    rfl
  intro single
  have lengths := congrArg List.length single
  rw [split, List.length_append, List.length_singleton] at lengths
  have some := List.length_pos_iff.mpr (pathParts_ne_nil before plain real)
  have more := List.length_pos_iff.mpr (pathParts_ne_nil after plainLast realLast)
  omega

/-! ## Names of artifacts -/

theorem twoDigits_natCast (number : Nat) : twoDigits number =
    if (Nat.toDigits 10 number).length < 2 then '0' :: Nat.toDigits 10 number
    else Nat.toDigits 10 number := by
  rw [twoDigits, ← toList_toString]
  rfl

/-- The number that two digits or more write. -/
theorem ofDigitChars_twoDigits (number : Nat) :
    Nat.ofDigitChars 10 (twoDigits number) 0 = number := by
  rw [twoDigits_natCast]
  split
  · rw [Nat.ofDigitChars_cons]
    exact Nat.ofDigitChars_ten_toDigits
  · exact Nat.ofDigitChars_ten_toDigits

theorem isDigit_of_mem_twoDigits {number : Nat} {letter : Char}
    (among : letter ∈ twoDigits number) : letter.isDigit = true := by
  have digit {letter : Char} (among : letter ∈ Nat.toDigits 10 number) : letter.isDigit = true :=
    Nat.isDigit_of_mem_toDigits (Nat.zero_lt_succ 9) (Nat.le_refl 10) among
  rw [twoDigits_natCast] at among
  split at among
  · rcases List.mem_cons.mp among with rfl | among
    · rfl
    · exact digit among
  · exact digit among

theorem notMem_twoDigits {number : Nat} {letter : Char} (other : letter.isDigit = false) :
    ofChar letter ∉ (twoDigits number).map ofChar := by
  intro among
  obtain ⟨digit, listed, same⟩ := List.mem_map.mp among
  have isDigit := isDigit_of_mem_twoDigits listed
  rw [Json.ofChar_injective same, other] at isDigit
  cases isDigit

/-- What stands before the dash gives the order. -/
theorem order_of_artifact {first second : Nat} {slug other rest more : PyText}
    (same : artifactStem first slug ++ rest = artifactStem second other ++ more) :
    first = second := by
  have dash : (ofChar '-' != ofChar '-') = false := bne_self_eq_false _
  have stops (number : Nat) (tail : PyText) :
      ((twoDigits number).map ofChar ++ ofChar '-' :: tail).takeWhile (· != ofChar '-') =
        (twoDigits number).map ofChar := by
    rw [List.takeWhile_append_of_pos, List.takeWhile_cons, dash]
    · exact List.append_nil _
    · intro letter among
      exact bne_iff_ne.mpr fun here => notMem_twoDigits (by decide) (here ▸ among)
  rw [artifactStem, artifactStem, List.append_assoc, List.append_assoc, List.cons_append,
    List.cons_append] at same
  have fronts := congrArg (List.takeWhile (· != ofChar '-')) same
  rw [stops, stops] at fronts
  have digits := List.map_injective_iff.mpr Json.ofChar_injective fronts
  rw [← ofDigitChars_twoDigits first, digits, ofDigitChars_twoDigits]

section Names

variable {order : Nat} {slug : PyText} {ending : String} {directory : List PyText}

theorem slash_mem_artifact (plain : slash ∉ ofString ending) :
    slash ∈ artifactStem order slug ++ ofString ending ↔ slash ∈ slug := by
  have digits : slash ∉ (twoDigits order).map ofChar := notMem_twoDigits (by decide)
  have dash : slash ≠ ofChar '-' := by decide
  rw [artifactStem, List.mem_append, List.mem_append, List.mem_cons, or_iff_left plain,
    or_iff_right digits, or_iff_right dash]

/-- A name whose slug holds no slash is one part. -/
theorem pathParts_artifact (plain : slash ∉ ofString ending) (flat : slash ∉ slug) :
    pathParts (artifactStem order slug ++ ofString ending) =
      [artifactStem order slug ++ ofString ending] := by
  have dash : ofChar '-' ∈ artifactStem order slug ++ ofString ending := by
    rw [artifactStem]
    exact List.mem_append_left _ (List.mem_append_right _ List.mem_cons_self)
  apply pathParts_of_notMem (mt (slash_mem_artifact plain).mp flat) (List.ne_nil_of_mem dash)
  intro same
  rw [same, List.mem_singleton] at dash
  exact absurd dash (by decide)

/-- A name whose slug holds a slash is more than one part. -/
theorem pathParts_artifact_ne (marked : ofChar 'm' ∈ ofString ending) (nested : slash ∈ slug)
    (name : PyText) : pathParts (artifactStem order slug ++ ofString ending) ≠ [name] := by
  obtain ⟨front, back, rfl⟩ := List.append_of_mem nested
  have shape : artifactStem order (front ++ slash :: back) ++ ofString ending =
      ((twoDigits order).map ofChar ++ ofChar '-' :: front) ++
        slash :: (back ++ ofString ending) := by
    simp only [artifactStem, List.append_assoc, List.cons_append]
  rw [shape]
  exact pathParts_ne_singleton (List.mem_append_right _ List.mem_cons_self) (by decide) (by decide)
    (List.mem_append_right _ marked) (by decide) (by decide) name

end Names

/-! ## The artifacts of a decision -/

section Decisions

variable {directory : List PyText} {decision : DecompositionDecision}

theorem slash_notMem_md : slash ∉ ofString ".md" := by decide

theorem slash_notMem_handoff : slash ∉ ofString ".handoff.md" := by decide

/-- A path whose slug holds no slash. -/
theorem artifact_path {spec : SubtaskSpec} {number : Nat} (order : spec.order = number)
    (flat : slash ∉ spec.slug) {path : List PyText}
    (among : path ∈ [subtaskSpecPath directory spec, subtaskHandoffPath directory spec]) :
    ∃ ending, path = directory ++ [artifactStem number spec.slug ++ ofString ending] := by
  rw [List.mem_cons, List.mem_singleton] at among
  rcases among with rfl | rfl
  · exact ⟨".md", by rw [subtaskSpecPath, order, pathParts_artifact slash_notMem_md flat]⟩
  · exact ⟨".handoff.md",
      by rw [subtaskHandoffPath, order, pathParts_artifact slash_notMem_handoff flat]⟩

/-- Artifacts of subtasks with their own orders are placed exactly when no slug holds a slash. -/
theorem placed_iff (natural : ∀ spec ∈ decision.subtasks, ∃ number : Nat, spec.order = number)
    (increasing : decision.subtasks.Pairwise fun first second => first.order < second.order) :
    Placed directory decision ↔ ∀ spec ∈ decision.subtasks, slash ∉ spec.slug := by
  constructor
  · intro placed spec among nested
    obtain ⟨number, order⟩ := natural spec among
    obtain ⟨name, child, -⟩ := placed.children (subtaskSpecPath directory spec)
      (List.mem_flatMap.mpr ⟨spec, among, List.mem_cons_self⟩)
    rw [subtaskSpecPath, order] at child
    exact pathParts_artifact_ne (by decide) nested name (List.append_cancel_left child)
  · intro flat
    constructor
    · rw [artifactPaths, List.nodup_flatMap]
      constructor
      · intro spec among
        obtain ⟨number, order⟩ := natural spec among
        rw [List.nodup_cons]
        refine ⟨fun same => ?_, List.nodup_singleton _⟩
        rw [List.mem_singleton, subtaskSpecPath, subtaskHandoffPath, order,
          pathParts_artifact slash_notMem_md (flat spec among),
          pathParts_artifact slash_notMem_handoff (flat spec among)] at same
        have names := List.singleton_inj.mp (List.append_cancel_left same)
        exact absurd (List.append_cancel_left names) (by decide)
      · apply increasing.imp_of_mem
        intro first second among later less path mine other
        obtain ⟨number, order⟩ := natural first among
        obtain ⟨more, orderMore⟩ := natural second later
        obtain ⟨ending, rfl⟩ := artifact_path order (flat first among) mine
        obtain ⟨endingMore, same⟩ := artifact_path orderMore (flat second later) other
        have names := List.singleton_inj.mp (List.append_cancel_left same)
        have equal : number = more := order_of_artifact names
        omega
    · intro path listed
      obtain ⟨spec, among, mine⟩ := List.mem_flatMap.mp listed
      obtain ⟨number, order⟩ := natural spec among
      obtain ⟨ending, rfl⟩ := artifact_path order (flat spec among) mine
      refine ⟨_, rfl, fun dots => ?_⟩
      have dash : ofChar '-' ∈ artifactStem number spec.slug ++ ofString ending := by
        rw [artifactStem]
        exact List.mem_append_left _ (List.mem_append_right _ List.mem_cons_self)
      rw [dots] at dash
      exact absurd dash (by decide)

/-- The orders of the subtasks that a decision lists are natural numbers. -/
theorem natural_subtasks (specs : List SubtaskSpec) (maxSubtasks : Int) :
    ∀ spec ∈ (decideFromSpecs specs maxSubtasks).subtasks, ∃ number : Nat, spec.order = number := by
  rcases decideFromSpecs_eq specs maxSubtasks with ⟨formed, decided⟩ | ⟨-, decided⟩
  · rw [decided]
    intro spec among
    have listed : spec.order ∈ specs.map SubtaskSpec.order :=
      List.mem_map_of_mem ((sortedSpecs_perm specs).mem_iff.mp among)
    have positive := (mem_ordersUpTo.mp (formed.orders.mem_iff.mp listed)).1
    exact ⟨spec.order.toNat, by omega⟩
  · rw [decided]
    exact nofun

/-- The artifacts of a decision, of a planner or of an operator, are placed exactly when no slug of
its subtasks holds a slash. -/
theorem artifacts_placed_iff (directory : List PyText) :
    (∀ output gateOn maxSubtasks,
      Placed directory (decideDecomposition output gateOn maxSubtasks) ↔
        ∀ spec ∈ (decideDecomposition output gateOn maxSubtasks).subtasks, slash ∉ spec.slug) ∧
      ∀ specs maxSubtasks,
        Placed directory (decideOperatorDecomposition specs maxSubtasks) ↔
          ∀ spec ∈ (decideOperatorDecomposition specs maxSubtasks).subtasks, slash ∉ spec.slug := by
  have single (reason : String) : Placed directory (singleUnit reason) ↔
      ∀ spec ∈ (singleUnit reason).subtasks, slash ∉ spec.slug :=
    placed_iff nofun List.Pairwise.nil
  constructor
  · intro output gateOn maxSubtasks
    rw [decideDecomposition]
    cases gateOn with
    | false => exact single _
    | true =>
        cases recommended output with
        | none => exact single _
        | some raw =>
            dsimp only [if_true]
            cases raw.mapM parseSubtask with
            | none => exact single _
            | some specs =>
                exact placed_iff (natural_subtasks specs maxSubtasks)
                  (pairwise_subtasks specs maxSubtasks)
  · intro specs maxSubtasks
    obtain ⟨-, -, subtasks⟩ := decideOperatorDecomposition_eq specs maxSubtasks
    apply placed_iff
    · rw [subtasks]
      exact natural_subtasks specs maxSubtasks
    · rw [subtasks]
      exact pairwise_subtasks specs maxSubtasks

end Decisions

/-- A subtask of an output. -/
def proposedUnit (order : String) (slug : String) : Json :=
  .object [
    (ofString "order", .number (ofString order)),
    (ofString "title", .string (ofString "Part")),
    (ofString "slug", .string (ofString slug)),
    (ofString "acceptance_criteria", .array [.string (ofString "done")]),
    (ofString "depends_on", .array [])]

/-- A split into two subtasks, one of whose slugs names a directory above. -/
def climbingSplit : Json :=
  .object [
    (ofString "decompose", .bool true),
    (ofString "subtasks", .array [proposedUnit "1" "../../plan", proposedUnit "2" "docs"])]

/-- The split is accepted, and its first spec is written outside the directory. -/
theorem climbingSplit_not_placed :
    (decideDecomposition climbingSplit true 5).accepted = true ∧
      ¬ Placed [ofString "subtasks"] (decideDecomposition climbingSplit true 5) := by
  have decided : decideDecomposition climbingSplit true 5 =
      ⟨true, "accepted", 2, [
        ⟨1, ofString "Part", ofString "../../plan", [ofString "done"], [], none⟩,
        ⟨2, ofString "Part", ofString "docs", [ofString "done"], [], none⟩]⟩ := by
    decide +kernel
  rw [decided]
  refine ⟨rfl, fun placed => ?_⟩
  obtain ⟨name, child, -⟩ := placed.children _ (List.mem_flatMap.mpr
    ⟨_, List.mem_cons_self, List.mem_cons_self⟩)
  have parts : (subtaskSpecPath [ofString "subtasks"]
      ⟨1, ofString "Part", ofString "../../plan", [ofString "done"], [], none⟩).length = 4 := by
    decide +kernel
  rw [child] at parts
  cases parts

end Orchestrator.Decomposition.Units
