import Mathlib.Algebra.Ring.Nat
import Orchestrator.Supervisor.Packet

/-! # What a supervisor packet accounts for

The findings of superseded verdicts stay within their budget, every finding is shown or counted as
left out, a final verdict is shown as if there were no other, and each interruption stands once, at
its place.
-/

namespace Orchestrator.Supervisor

open Orchestrator.Foundation
open Orchestrator.Flow (RecordedEvaluation RecordedFinding findingsJson loads_findingsJson
  inFlowVerdict)

/-! ## Items within a budget -/

section Items

variable {final : Bool} {budget : Int}

/-- The characters of some items. -/
def sizes (items : List Json) : Nat := (items.map size).sum

theorem takeItems_used (shown : Bool) (used : Nat) (items : List Json) :
    (takeItems final budget shown used items).2 =
      used + sizes (takeItems final budget shown used items).1 := by
  induction items generalizing shown used with
  | nil => rfl
  | cons item items ih =>
      rw [takeItems]
      split
      · rfl
      · dsimp only
        rw [ih, sizes, sizes, List.map_cons, List.sum_cons]
        omega

theorem takeItems_isPrefix (shown : Bool) (used : Nat) (items : List Json) :
    (takeItems final budget shown used items).1 <+: items := by
  induction items generalizing shown used with
  | nil => exact List.prefix_rfl
  | cons item items ih =>
      rw [takeItems]
      split
      · exact List.nil_prefix
      · exact List.cons_prefix_cons.mpr ⟨rfl, ih _ _⟩

/-- A superseded verdict uses no more than its budget. -/
theorem takeItems_within {shown : Bool} {used : Nat} (within : (used : Int) ≤ budget)
    (items : List Json) : ((takeItems false budget shown used items).2 : Int) ≤ budget := by
  induction items generalizing shown used with
  | nil => exact within
  | cons item items ih =>
      rw [takeItems]
      split
      · exact within
      · next fits =>
        refine ih (Int.not_lt.mp fun long => fits ⟨?_, .inr rfl⟩)
        omega

end Items

/-! ## One step -/

theorem objectsOf_recorded (findings : List RecordedFinding) :
    objectsOf (findings.map RecordedFinding.document) = findings.map RecordedFinding.members := by
  rw [objectsOf, List.filterMap_map]
  exact List.filterMap_eq_map ▸ rfl

/-- A recorded verdict is shown as whole items, and what is not shown is counted. -/
theorem findingsEntry_recorded (findings : List RecordedFinding) (final : Bool) (budget : Int) :
    ∃ items left, findingsEntry (findingsJson findings) final budget =
      (.listed items findings.length left 0 (!final), sizes items) ∧
        findings.length = items.length + left ∧
          (final = false → 0 ≤ budget → (sizes items : Int) ≤ budget) := by
  rw [findingsEntry, loads_findingsJson]
  dsimp only
  rw [objectsOf_recorded]
  generalize (if final = true then finalFindingReasonMax else supersededFindingReasonMax) =
    reasonMax
  have same : ((findings.map RecordedFinding.members).map (shownItem reasonMax)).length =
      findings.length := by
    rw [List.length_map, List.length_map]
  generalize (findings.map RecordedFinding.members).map (shownItem reasonMax) = all at same ⊢
  have used := @takeItems_used final budget false 0 all
  have shown := (@takeItems_isPrefix final budget false 0 all).length_le
  rw [Nat.zero_add] at used
  rw [List.length_map, List.length_map, Nat.sub_self, used]
  refine ⟨_, _, rfl, by omega, fun superseded room => ?_⟩
  rw [← used, superseded]
  exact takeItems_within room all

/-! ## All steps -/

/-- The characters that the findings of superseded verdicts use. -/
def supersededSize : Option FindingsEntry → Nat
  | some (.listed items _ _ _ true) => sizes items
  | _ => 0

theorem supersededSize_none : supersededSize none = 0 := rfl

/-- The findings of a step, where there are any, are a recorded verdict. -/
def RecordedStep (facts : StepFacts) : Prop :=
  ∀ text, facts.findings = some text → ∃ findings, text = findingsJson findings

theorem recorded_stepFacts (files : RunFiles) (evaluations : List RecordedEvaluation)
    (row : NodeRun) : RecordedStep (stepFacts files evaluations row) := by
  intro text found
  obtain ⟨runId, -, found⟩ := Option.bind_eq_some_iff.mp found
  obtain ⟨evaluation, last, rfl⟩ := Option.map_eq_some_iff.mp found
  have kind := List.find?_some last
  rw [Bool.and_eq_true, decide_eq_true_eq] at kind
  exact evaluation.written kind.1

theorem findingsToShow_recorded {facts : StepFacts} (recorded : RecordedStep facts) {text : PyText}
    (shown : findingsToShow facts = some text) : ∃ findings, text = findingsJson findings :=
  recorded text (Option.filter_eq_some_iff.mp shown).1

/-- The superseded verdicts use no more than what is left for them. -/
theorem sum_supersededSize_le {left : Int} (room : 0 ≤ left) {steps : List StepFacts}
    (recorded : ∀ facts ∈ steps, RecordedStep facts) :
    (((stepFindings left steps).map fun entry => supersededSize entry.2).sum : Int) ≤ left := by
  induction steps generalizing left with
  | nil => exact room
  | cons facts later ih =>
      have others : ∀ facts ∈ later, RecordedStep facts := fun facts among =>
        recorded facts (List.mem_cons_of_mem _ among)
      rw [stepFindings]
      split
      · next none =>
        rw [List.map_cons, List.sum_cons, supersededSize_none, Nat.zero_add]
        exact ih room others
      · next text shown =>
        obtain ⟨findings, rfl⟩ := findingsToShow_recorded (recorded facts List.mem_cons_self) shown
        split
        · obtain ⟨items, left', entry, -, -⟩ :=
            findingsEntry_recorded findings true finalFindingsBudget
          rw [entry, List.map_cons, List.sum_cons]
          exact (Nat.zero_add _).symm ▸ ih room others
        · obtain ⟨items, left', entry, -, within⟩ :=
            findingsEntry_recorded findings false (min supersededFindingsBudget left)
          have bound := within rfl (le_min (by decide) room)
          have rest := ih (show 0 ≤ left - sizes items from by omega) others
          have here : supersededSize (some (.listed items findings.length left' 0 (!false))) =
            sizes items := rfl
          rw [entry]
          dsimp only
          rw [List.map_cons, List.sum_cons, here]
          omega

/-- Every step has its findings shown or counted. -/
theorem mem_stepFindings {left : Int} {steps : List StepFacts}
    (recorded : ∀ facts ∈ steps, RecordedStep facts) {facts : StepFacts} {entry : FindingsEntry}
    (among : (facts, some entry) ∈ stepFindings left steps) :
    ∃ findings items missing superseded, facts.findings = some (findingsJson findings) ∧
      entry = .listed items findings.length missing 0 superseded ∧
        findings.length = items.length + missing := by
  induction steps generalizing left with
  | nil => exact absurd among List.not_mem_nil
  | cons first later ih =>
      have others : ∀ facts ∈ later, RecordedStep facts := fun facts among =>
        recorded facts (List.mem_cons_of_mem _ among)
      rw [stepFindings] at among
      split at among
      · rcases List.mem_cons.mp among with here | rest
        · cases here
        · exact ih others rest
      · next text shown =>
        have has := (Option.filter_eq_some_iff.mp shown).1
        obtain ⟨findings, rfl⟩ := findingsToShow_recorded (recorded first List.mem_cons_self) shown
        split at among
        · rcases List.mem_cons.mp among with here | rest
          · obtain ⟨items, missing, made, counted, -⟩ :=
              findingsEntry_recorded findings true finalFindingsBudget
            rw [made] at here
            cases here
            exact ⟨findings, items, missing, _, has, rfl, counted⟩
          · exact ih others rest
        · rcases List.mem_cons.mp among with here | rest
          · obtain ⟨items, missing, made, counted, -⟩ :=
              findingsEntry_recorded findings false (min supersededFindingsBudget left)
            rw [made] at here
            cases here
            exact ⟨findings, items, missing, _, has, rfl, counted⟩
          · exact ih others rest

/-- A final verdict is shown as if there were no other. -/
theorem stepFindings_final {left : Int} (before : List StepFacts) {facts : StepFacts}
    {later : List StepFacts} (final : isFinalVerdict facts later = true) :
    (stepFindings left (before ++ facts :: later))[before.length]? =
      some (facts, (findingsToShow facts).map fun findings =>
        (findingsEntry findings true finalFindingsBudget).1) := by
  induction before generalizing left with
  | nil =>
      rw [List.nil_append, stepFindings]
      cases findingsToShow facts with
      | none => rfl
      | some findings =>
          dsimp only
          rw [if_pos final]
          rfl
  | cons first before ih =>
      rw [List.cons_append, stepFindings]
      split
      · exact ih
      · split
        · exact ih
        · exact ih

/-! ## The packet -/

/-- Interruptions wait in the order in which they ended. -/
theorem waitInOrder_sorted (interruptions : List Interruption) :
    WaitInOrder (fun step : StepFacts × Option FindingsEntry => due step.1)
      (interruptions.mergeSort fun first second => first.finishedAt ≤ second.finishedAt) := by
  have sorted := @List.pairwise_mergeSort _
    (fun first second : Interruption => decide (first.finishedAt ≤ second.finishedAt))
    (fun first second third before after =>
      decide_eq_true ((of_decide_eq_true before).trans (of_decide_eq_true after)))
    (fun first second => by
      rw [Bool.or_eq_true, decide_eq_true_eq, decide_eq_true_eq]
      exact le_total _ _) interruptions
  refine sorted.imp fun before step isDue => ?_
  dsimp only at isDue ⊢
  rw [due] at isDue ⊢
  cases started : present step.1.startedAt with
  | none =>
      rw [started] at isDue
      cases isDue
  | some startedAt =>
      rw [started] at isDue
      exact decide_eq_true ((of_decide_eq_true before).trans (of_decide_eq_true isDue))

/-- What a packet of some steps and interruptions accounts for. -/
structure Accounts (steps : List StepFacts) (interruptions : List Interruption) : Prop where
  budget : (((stepFindings supersededFindingsPacketBudget steps).map fun entry =>
    supersededSize entry.2).sum : Int) ≤ supersededFindingsPacketBudget
  totals : ∀ facts entry,
    (facts, some entry) ∈ stepFindings supersededFindingsPacketBudget steps →
      ∃ findings items missing superseded, facts.findings = some (findingsJson findings) ∧
        entry = .listed items findings.length missing 0 superseded ∧
          findings.length = items.length + missing
  finals : ∀ before facts later, steps = before ++ facts :: later →
    isFinalVerdict facts later = true →
      (stepFindings supersededFindingsPacketBudget steps)[before.length]? =
        some (facts, (findingsToShow facts).map fun findings =>
          (findingsEntry findings true finalFindingsBudget).1)
  places : Interleaved (fun step => due step.1) (stepFindings supersededFindingsPacketBudget steps)
    (interruptions.mergeSort fun first second => first.finishedAt ≤ second.finishedAt)
    (packetEntries steps interruptions)
  once : ((packetEntries steps interruptions).filterMap Sum.getLeft?).Perm interruptions

end Orchestrator.Supervisor
