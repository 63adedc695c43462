import Orchestrator.Flow.Evaluator
import Orchestrator.Flow.RecordedFindings
import Orchestrator.Foundation.Merging
import Orchestrator.Foundation.Lines
import Orchestrator.Providers.ClaudeStream

/-! # Follow-ups

What is left to do after a task: the findings that its last verdicts let past, each as an item of
its own, merged with the items that a summary already has.
-/

namespace Orchestrator.Flow

open Orchestrator.Foundation
open Orchestrator.Foundation.PyText (ofString strip isSpace lower)
open Orchestrator.Providers (Rendering)

/-- One follow-up record. -/
structure FollowUp where
  title : PyText
  rationale : PyText
  severity : PyText
  evidence : List PyText
  paths : List PyText := []
  actionHint : Option PyText := none

/-! ## Titles -/

def findingTitleMax : Nat := 120

/-- `" ".join(text.split())`. -/
def oneSpaced (text : PyText) : PyText := respace isSpace 32 text

/-- `text.rfind(part)`. -/
def rfind (part : PyText) : PyText → Option Nat
  | [] => if part.isEmpty then some 0 else none
  | point :: rest =>
      match rfind part rest with
      | some place => some (place + 1)
      | none => if part.isPrefixOf (point :: rest) then some 0 else none

/-- `_SENTENCE_ENDS`. -/
def sentenceEnds : List PyText := [". ", "? ", "! ", "; "].map ofString

/-- Where the start of a reason is cut: at the last end of a sentence, or else of a word. -/
def titleCut (head : PyText) : Option Nat :=
  ((sentenceEnds.filterMap fun ending => (rfind ending head).map (· + 1)).max?).or
    ((rfind [32] head).filter fun place => 1 ≤ place)

/-- `_split_reason`. -/
def splitReason (reason : PyText) : PyText × PyText :=
  let reason := oneSpaced reason
  if reason.length ≤ findingTitleMax then (reason, [])
  else
    match titleCut (reason.take (findingTitleMax + 1)) with
    | none => ((reason.take findingTitleMax).rdropWhile isSpace ++ ofString "…", reason)
    | some cut => ((reason.take cut).rdropWhile isSpace, (reason.drop cut).dropWhile isSpace)

/-! ## Items of findings -/

def severities : List PyText := ["low", "medium", "high"].map ofString

/-- The evidence line of an item. -/
def evidenceLine (nodeId : Option String) (reworkExhausted : Bool) : PyText :=
  ofString ((nodeId.filter (· ≠ "")).getD "review") ++
    if reworkExhausted then ofString " evaluator finding still open — rework budget exhausted"
    else ofString " evaluator finding (accepted with findings)"

/-- `str(finding.get("reason") or "").strip()`. -/
def reasonOf (render : Rendering) (finding : Json) : PyText :=
  strip (if render.truth (finding.get? "reason") then render.text (finding.get? "reason") else [])

/-- `_finding_to_follow_up`. -/
def findingToFollowUp (render : Rendering) (finding : Json) (nodeId : Option String)
    (reworkExhausted : Bool) : Option FollowUp :=
  let reason := reasonOf render finding
  if !isObject finding || reason.isEmpty then none
  else some {
    title := (splitReason reason).1
    rationale := (splitReason reason).2
    severity := match finding.get? "severity" with
      | some (.string severity) => if severity ∈ severities then severity else ofString "medium"
      | _ => ofString "medium"
    evidence := [evidenceLine nodeId reworkExhausted]
    paths := match finding.get? "paths" with
      | some (.array paths) =>
          (paths.map fun path => strip (render.text (some path))).filter fun path => !path.isEmpty
      | _ => []
    actionHint := match finding.get? "fix" with
      | some (.string fix) => if (strip fix).isEmpty then none else some (strip fix)
      | _ => none }

/-! ## Collecting -/

/-- The evaluator of a verdict: a node, in a subtask or not. -/
def RecordedEvaluation.evaluator (row : RecordedEvaluation) : Option String × Option Nat :=
  (row.nodeId, row.subtaskOrder)

/-- `_last_verdict_per_node`. -/
def lastVerdictPerNode (evaluations : List RecordedEvaluation) :
    OrderedDict (Option String × Option Nat) RecordedEvaluation :=
  .ofItems ((evaluations.filter fun row => row.kind = inFlowVerdict).map fun row =>
    (row.evaluator, row))

/-- `_row_findings`. -/
def rowFindings (row : RecordedEvaluation) : List Json :=
  match Json.loads row.findingsJson with
  | some (.array findings) => findings.filter isObject
  | _ => []

/-- The item of a finding, unless its gate sent the work back. -/
def letPastItem (render : Rendering) (nodeId : Option String) (verdict : String)
    (finding : Json) : Option FollowUp :=
  let gating := render.truth (finding.get? "gating")
  if gating && verdict ≠ "accept" then none else findingToFollowUp render finding nodeId gating

/-- `evaluator_finding_follow_ups`. -/
def evaluatorFindingFollowUps (render : Rendering) (evaluations : List RecordedEvaluation) :
    List FollowUp :=
  (lastVerdictPerNode evaluations).items.flatMap fun item =>
    (rowFindings item.2).filterMap (letPastItem render item.1.1 item.2.verdict)

/-! ## Merging -/

/-- `_follow_up_key`. -/
def followUpKey (item : FollowUp) : PyText × List PyText :=
  (oneSpaced (lower (item.title ++ 32 :: item.rationale)),
    item.paths.insertionSort (· ≤ ·))

/-- `merge_follow_ups`. -/
def mergeFollowUps (primary extra : List FollowUp) : List FollowUp :=
  mergeOnto followUpKey primary extra

/-! ## What a title keeps -/

theorem isPrefix_of_rfind {part text : PyText} {place : Nat}
    (found : rfind part text = some place) :
    part <+: text.drop place := by
  induction text generalizing place with
  | nil =>
      rw [rfind] at found
      split at found
      · next empty =>
        rw [List.isEmpty_iff.mp empty]
        exact List.nil_prefix
      · cases found
  | cons point rest ih =>
      rw [rfind] at found
      split at found
      · next later =>
        cases found
        exact ih later
      · split at found
        · next starts =>
          cases found
          exact List.isPrefixOf_iff_prefix.mp starts
        · cases found

/-- A title is cut at a space. -/
theorem space_at_titleCut {head : PyText} {cut : Nat} (found : titleCut head = some cut) :
    [32] <+: head.drop cut := by
  rw [titleCut, Option.or_eq_some_iff] at found
  rcases found with sentence | ⟨-, word⟩
  · obtain ⟨ending, among, placed⟩ := List.mem_filterMap.mp (List.max?_mem sentence)
    obtain ⟨place, ends, rfl⟩ := Option.map_eq_some_iff.mp placed
    have spaced : ∃ mark : CodePoint, ending = [mark, 32] := by
      simp only [sentenceEnds, List.map_cons, List.map_nil, List.mem_cons, List.not_mem_nil,
        or_false] at among
      rcases among with rfl | rfl | rfl | rfl
      · exact ⟨46, rfl⟩
      · exact ⟨63, rfl⟩
      · exact ⟨33, rfl⟩
      · exact ⟨59, rfl⟩
    obtain ⟨mark, rfl⟩ := spaced
    obtain ⟨rest, tail⟩ := isPrefix_of_rfind ends
    refine ⟨rest, ?_⟩
    rw [← List.drop_drop, ← tail]
    rfl
  · exact isPrefix_of_rfind (Option.filter_eq_some_iff.mp word).1

/-- A title and a rationale that tell a reason: the title alone, the two with a space between them,
or the whole reason after the start of its one long word. -/
def Tells (reason title rationale : PyText) : Prop :=
  title = reason ∧ rationale = [] ∨ title ++ 32 :: rationale = reason ∨ rationale = reason

theorem splitReason_tells (reason : PyText) :
    Tells (oneSpaced reason) (splitReason reason).1 (splitReason reason).2 := by
  rw [splitReason]
  split
  · exact .inl ⟨rfl, rfl⟩
  · split
    · exact .inr (.inr rfl)
    · next cut found =>
      obtain ⟨rest, tail⟩ := space_at_titleCut found
      have after : ∃ back, (oneSpaced reason).drop cut = 32 :: back := by
        rw [List.drop_take] at tail
        obtain ⟨more, same⟩ :=
          List.take_prefix (findingTitleMax + 1 - cut) ((oneSpaced reason).drop cut)
        rw [← same, ← tail]
        exact ⟨_, rfl⟩
      obtain ⟨back, behind⟩ := after
      have whole : oneSpaced reason = (oneSpaced reason).take cut ++ 32 :: back := by
        rw [← behind, List.take_append_drop]
      have space : isSpace 32 = true := rfl
      have clean := cleanCut_respace space whole
      refine .inr (.inl ?_)
      rw [clean.ends, behind, List.dropWhile_cons_of_pos space, clean.starts]
      exact whole.symm

/-! ## What is collected -/

/-- What an item keeps of a finding of a verdict. -/
structure Carries (row : RecordedEvaluation) (finding : RecordedFinding) (item : FollowUp) :
    Prop where
  tells : Tells (oneSpaced (strip finding.reason)) item.title item.rationale
  severity : item.severity = if ofString finding.severity ∈ severities
    then ofString finding.severity else ofString "medium"
  paths : item.paths = (finding.paths.map strip).filter fun path => !path.isEmpty
  action : item.actionHint = (finding.fix.map strip).filter fun fix => !fix.isEmpty
  evidence : item.evidence = [evidenceLine row.nodeId finding.gating]

/-- The gate let a finding past that has a reason: it does not gate, or the verdict accepts all the
same. -/
def LetPast (row : RecordedEvaluation) (finding : RecordedFinding) : Prop :=
  (finding.gating = false ∨ row.verdict = "accept") ∧ strip finding.reason ≠ []

instance decidableLetPast (row : RecordedEvaluation) (finding : RecordedFinding) :
    Decidable (LetPast row finding) :=
  inferInstanceAs (Decidable (_ ∧ _))

/-- No later verdict is of the same evaluator. -/
def IsFinal (history : List RecordedEvaluation) (row : RecordedEvaluation) : Prop :=
  row.kind = inFlowVerdict ∧ ∃ before after, history = before ++ row :: after ∧
    ∀ later ∈ after, later.kind = inFlowVerdict → later.evaluator ≠ row.evaluator

section Document

variable {finding : RecordedFinding}

theorem RecordedFinding.get?_document {key : String} {value : Json}
    (among : (ofString key, value) ∈ finding.members) : finding.document.get? key = some value := by
  have distinct : (finding.members.map Prod.fst).Nodup := by
    change (["severity", "reason", "paths", "gating", "fix"].map ofString).Nodup
    apply List.Nodup.map Json.ofString_injective
    decide
  exact Json.get?_of_mem distinct among

theorem reasonOf_document (render : Rendering) :
    reasonOf render finding.document = strip finding.reason := by
  have reason : finding.document.get? "reason" = some (.string finding.reason) :=
    RecordedFinding.get?_document (by simp [RecordedFinding.members])
  rw [reasonOf, reason, Rendering.truth, Rendering.text]
  cases finding.reason with
  | nil => rfl
  | cons _ _ => rfl

/-- The item of a finding with a reason, as its row keeps it. -/
theorem findingToFollowUp_document (render : Rendering) (row : RecordedEvaluation)
    (filled : strip finding.reason ≠ []) : ∃ item,
      findingToFollowUp render finding.document row.nodeId finding.gating = some item ∧
        Carries row finding item := by
  have severity : finding.document.get? "severity" = some (.string (ofString finding.severity)) :=
    RecordedFinding.get?_document (by simp [RecordedFinding.members])
  have paths : finding.document.get? "paths" = some (.array (finding.paths.map .string)) :=
    RecordedFinding.get?_document (by simp [RecordedFinding.members])
  have fix : finding.document.get? "fix" = some ((finding.fix.map Json.string).getD .null) :=
    RecordedFinding.get?_document (by simp [RecordedFinding.members])
  rw [findingToFollowUp, reasonOf_document, severity, paths, fix, if_neg]
  · refine ⟨_, rfl, splitReason_tells _, rfl, ?_, ?_, rfl⟩
    · dsimp only
      rw [List.map_map]
      rfl
    · cases finding.fix with
      | none => rfl
      | some fix =>
          dsimp only [Option.map_some, Option.getD_some]
          rw [Option.filter_some]
          cases (strip fix).isEmpty with
          | true => rfl
          | false => rfl
  · rw [RecordedFinding.document, isObject]
    simpa using filled

/-- Without a reason there is no item. -/
theorem findingToFollowUp_blank (render : Rendering) (nodeId : Option String)
    (exhausted : Bool) (blank : strip finding.reason = []) :
    findingToFollowUp render finding.document nodeId exhausted = none := by
  rw [findingToFollowUp, reasonOf_document, blank, if_pos]
  rw [List.isEmpty_nil, Bool.or_true]

/-- A finding of a row has an item exactly when it is let past. -/
theorem letPastItem_document (render : Rendering) (row : RecordedEvaluation)
    (finding : RecordedFinding) :
    if LetPast row finding then
      ∃ item, letPastItem render row.nodeId row.verdict finding.document = some item ∧
        Carries row finding item
    else letPastItem render row.nodeId row.verdict finding.document = none := by
  have gating : finding.document.get? "gating" = some (.bool finding.gating) :=
    RecordedFinding.get?_document (by simp [RecordedFinding.members])
  rw [letPastItem, gating, Rendering.truth]
  by_cases sentBack : finding.gating = true ∧ row.verdict ≠ "accept"
  · have stopped : ¬ LetPast row finding := by
      rintro ⟨clean | accepted, -⟩
      · exact Bool.false_ne_true (clean.symm.trans sentBack.1)
      · exact sentBack.2 accepted
    rw [if_neg stopped, if_pos]
    rw [Bool.and_eq_true, decide_eq_true_eq]
    exact sentBack
  · have past : finding.gating = false ∨ row.verdict = "accept" := by
      rw [not_and_or, not_not, Bool.not_eq_true] at sentBack
      exact sentBack
    have passes : ¬ (finding.gating && decide (row.verdict ≠ "accept")) = true := by
      rwa [Bool.and_eq_true, decide_eq_true_eq]
    rw [if_neg passes]
    by_cases blank : strip finding.reason = []
    · have stopped : ¬ LetPast row finding := fun both => both.2 blank
      rw [if_neg stopped]
      exact findingToFollowUp_blank render _ _ blank
    · have kept : LetPast row finding := ⟨past, blank⟩
      rw [if_pos kept]
      exact findingToFollowUp_document render row blank

/-- The items of a row carry its findings that are let past, in order. -/
theorem forall₂_carries (render : Rendering) (row : RecordedEvaluation)
    (findings : List RecordedFinding) :
    List.Forall₂ (Carries row) (findings.filter fun finding => LetPast row finding)
      ((findings.map RecordedFinding.document).filterMap
        (letPastItem render row.nodeId row.verdict)) := by
  induction findings with
  | nil => exact .nil
  | cons finding rest ih =>
      have item := letPastItem_document render row finding
      rw [List.filter_cons, List.map_cons, List.filterMap_cons]
      split at item
      · next past =>
        obtain ⟨item, made, carries⟩ := item
        rw [if_pos (decide_eq_true past), made]
        exact .cons carries ih
      · next stopped =>
        rw [if_neg (mt of_decide_eq_true stopped), item]
        exact ih

end Document

/-! ## The last verdicts -/

/-- The rows of the last verdicts, each with its findings, and the items that carry them. -/
structure CollectedFrom (history : List RecordedEvaluation)
    (rows : List (RecordedEvaluation × List RecordedFinding)) (items : List FollowUp) : Prop where
  final : ∀ entry ∈ rows, IsFinal history entry.1 ∧ entry.1.findingsJson = findingsJson entry.2
  complete : ∀ row, IsFinal history row → row ∈ rows.map Prod.fst
  once : (rows.map fun entry => entry.1.evaluator).Nodup
  carried : List.Forall₂ (fun source item => Carries source.1 source.2 item)
    (rows.flatMap fun entry =>
      (entry.2.filter fun finding => LetPast entry.1 finding).map fun finding =>
        (entry.1, finding)) items

/-- The last verdict of each evaluator is kept, and no other row. -/
theorem mem_lastVerdictPerNode {history : List RecordedEvaluation}
    {item : (Option String × Option Nat) × RecordedEvaluation} :
    item ∈ (lastVerdictPerNode history).items ↔
      item.1 = item.2.evaluator ∧ IsFinal history item.2 := by
  obtain ⟨evaluator, row⟩ := item
  rw [lastVerdictPerNode, OrderedDict.mem_ofItems_iff]
  constructor
  · rintro ⟨before, after, split, last⟩
    obtain ⟨front, tail, parts, -, behind⟩ := List.map_eq_append_iff.mp split
    obtain ⟨found, rest, rfl, same, rfl⟩ := List.map_eq_cons_iff.mp behind
    cases same
    obtain ⟨early, late, rfl, -, later⟩ := List.filter_eq_append_iff.mp parts
    obtain ⟨skipped, more, rfl, -, verdict, kept⟩ := List.filter_eq_cons_iff.mp later
    refine ⟨rfl, of_decide_eq_true verdict, early ++ skipped, more, by simp, ?_⟩
    intro other among kind alike
    rw [← kept, List.map_map] at last
    apply last
    exact List.mem_map.mpr ⟨other, List.mem_filter.mpr ⟨among, decide_eq_true kind⟩, alike⟩
  · rintro ⟨named, verdict, before, after, rfl, last⟩
    dsimp only at named
    subst named
    have kept : decide (row.kind = inFlowVerdict) = true := decide_eq_true verdict
    refine ⟨_, _, by rw [List.filter_append, List.filter_cons, if_pos kept, List.map_append,
      List.map_cons], ?_⟩
    rw [List.map_map]
    intro among
    obtain ⟨later, found, alike⟩ := List.mem_map.mp among
    obtain ⟨listed, kind⟩ := List.mem_filter.mp found
    exact last later listed (of_decide_eq_true kind) alike

/-- The objects of a row are the documents of its findings. -/
theorem rowFindings_eq {row : RecordedEvaluation} {findings : List RecordedFinding}
    (kept : row.findingsJson = findingsJson findings) :
    rowFindings row = findings.map RecordedFinding.document := by
  rw [rowFindings, kept, loads_findingsJson]
  dsimp only
  rw [List.filter_eq_self]
  intro document among
  obtain ⟨finding, -, rfl⟩ := List.mem_map.mp among
  rfl

/-- The findings of verdicts, row by row. -/
theorem exists_findings {rows : List RecordedEvaluation}
    (verdicts : ∀ row ∈ rows, row.kind = inFlowVerdict) :
    ∃ entries : List (RecordedEvaluation × List RecordedFinding),
      entries.map Prod.fst = rows ∧
        ∀ entry ∈ entries, entry.1.findingsJson = findingsJson entry.2 := by
  induction rows with
  | nil => exact ⟨[], rfl, fun _ none => absurd none List.not_mem_nil⟩
  | cons row rest ih =>
      obtain ⟨verdict, others⟩ := List.forall_mem_cons.mp verdicts
      obtain ⟨findings, kept⟩ := row.written verdict
      obtain ⟨entries, listed, all⟩ := ih others
      refine ⟨(row, findings) :: entries, ?_, List.forall_mem_cons.mpr ⟨kept, all⟩⟩
      rw [List.map_cons, listed]

/-- The items of some rows carry the findings that the rows let past. -/
theorem forall₂_carries_rows (render : Rendering)
    {entries : List (RecordedEvaluation × List RecordedFinding)}
    (kept : ∀ entry ∈ entries, entry.1.findingsJson = findingsJson entry.2) :
    List.Forall₂ (fun source item => Carries source.1 source.2 item)
      (entries.flatMap fun entry =>
        (entry.2.filter fun finding => LetPast entry.1 finding).map fun finding =>
          (entry.1, finding))
      ((entries.map Prod.fst).flatMap fun row =>
        (rowFindings row).filterMap (letPastItem render row.nodeId row.verdict)) := by
  induction entries with
  | nil => exact .nil
  | cons entry rest ih =>
      obtain ⟨here, others⟩ := List.forall_mem_cons.mp kept
      rw [List.flatMap_cons, List.map_cons, List.flatMap_cons, rowFindings_eq here]
      apply List.rel_append
      · rw [List.forall₂_map_left_iff]
        exact forall₂_carries render entry.1 entry.2
      · exact ih others

/-- What is collected carries the findings that the last verdicts let past, and nothing else. -/
theorem collectedFrom_history (render : Rendering) (history : List RecordedEvaluation) :
    ∃ rows, CollectedFrom history rows (evaluatorFindingFollowUps render history) := by
  have named : ∀ item ∈ (lastVerdictPerNode history).items, item.1 = item.2.evaluator :=
    fun item among => (mem_lastVerdictPerNode.mp among).1
  have verdicts : ∀ row ∈ (lastVerdictPerNode history).items.map Prod.snd,
      row.kind = inFlowVerdict := by
    intro row among
    obtain ⟨item, found, rfl⟩ := List.mem_map.mp among
    exact (mem_lastVerdictPerNode.mp found).2.1
  obtain ⟨rows, listed, kept⟩ := exists_findings verdicts
  refine ⟨rows, ?_, ?_, ?_, ?_⟩
  · intro entry among
    refine ⟨?_, kept entry among⟩
    have there := List.mem_map_of_mem (f := Prod.fst) among
    rw [listed] at there
    obtain ⟨item, found, same⟩ := List.mem_map.mp there
    rw [← same]
    exact (mem_lastVerdictPerNode.mp found).2
  · intro row final
    rw [listed]
    have found : (row.evaluator, row) ∈ (lastVerdictPerNode history).items :=
      mem_lastVerdictPerNode.mpr ⟨rfl, final⟩
    exact List.mem_map_of_mem (f := Prod.snd) found
  · have keys : (rows.map fun entry => entry.1.evaluator) =
        (lastVerdictPerNode history).items.map Prod.fst := by
      calc rows.map (fun entry => entry.1.evaluator)
          = (rows.map Prod.fst).map RecordedEvaluation.evaluator := by rw [List.map_map]; rfl
        _ = ((lastVerdictPerNode history).items.map Prod.snd).map RecordedEvaluation.evaluator := by
          rw [listed]
        _ = (lastVerdictPerNode history).items.map Prod.fst := by
          rw [List.map_map]
          exact List.map_congr_left fun item among => (named item among).symm
    rw [keys]
    exact (lastVerdictPerNode history).distinct
  · have items : evaluatorFindingFollowUps render history =
        (rows.map Prod.fst).flatMap fun row =>
          (rowFindings row).filterMap (letPastItem render row.nodeId row.verdict) := by
      rw [listed, List.flatMap_map, evaluatorFindingFollowUps]
      apply List.flatMap_congr
      intro item among
      rw [named item among]
      rfl
    rw [items]
    exact forall₂_carries_rows render kept

/-! ## Follow-ups of a history -/

/-- Items merged into others, by what they say and where. -/
structure MergedFrom (primary extra merged : List FollowUp) : Prop where
  kept : primary <+: merged
  known : ∀ item ∈ merged, item ∈ primary ∨ item ∈ extra
  complete : ∀ item ∈ primary ++ extra, followUpKey item ∈ merged.map followUpKey
  added : ∀ item ∈ merged, item ∈ primary ∨ followUpKey item ∉ primary.map followUpKey
  once : (primary.map followUpKey).Nodup → (merged.map followUpKey).Nodup

theorem mergedFrom_mergeFollowUps (primary extra : List FollowUp) :
    MergedFrom primary extra (mergeFollowUps primary extra) where
  kept := mergeOnto_keeps primary extra
  known _ among := (mem_mergeOnto among).imp_right And.left
  complete item among := by
    rw [mergeFollowUps, mem_keys_mergeOnto]
    rw [List.mem_append] at among
    exact among.imp List.mem_map_of_mem List.mem_map_of_mem
  added _ among := (mem_mergeOnto among).imp_right And.right
  once distinct := mergeOnto_nodup distinct extra

/-- The follow-ups of a history: they carry exactly the findings that the last verdicts let past,
and merged with others, once or again and in any order, no item is lost and none is added twice. -/
structure FollowUpsHold (history : List RecordedEvaluation) (collected : List FollowUp) : Prop where
  collects : ∃ rows, CollectedFrom history rows collected
  merged : ∀ primary, MergedFrom primary collected (mergeFollowUps primary collected)
  stored : ∀ extra, MergedFrom collected extra (mergeFollowUps collected extra)
  again : ∀ primary, mergeFollowUps (mergeFollowUps primary collected) collected =
    mergeFollowUps primary collected
  complete : ∀ lists : List (List FollowUp), collected ∈ lists →
    ∀ key, key ∈ (mergeAll followUpKey lists).map followUpKey ↔
      ∃ items ∈ lists, key ∈ items.map followUpKey
  order : ∀ lists others : List (List FollowUp), lists.Perm others →
    ∀ key, key ∈ (mergeAll followUpKey lists).map followUpKey ↔
      key ∈ (mergeAll followUpKey others).map followUpKey
  once : ∀ (first : List FollowUp) (others : List (List FollowUp)),
    (first.map followUpKey).Nodup → collected ∈ others →
      ((mergeAll followUpKey (first :: others)).map followUpKey).Nodup

/-- Follow-ups are complete and exact. -/
theorem followUpsHold_history (render : Rendering) (history : List RecordedEvaluation) :
    FollowUpsHold history (evaluatorFindingFollowUps render history) where
  collects := collectedFrom_history render history
  merged primary := mergedFrom_mergeFollowUps primary _
  stored extra := mergedFrom_mergeFollowUps _ extra
  again primary := mergeOnto_again primary _
  complete _ _ _ := mem_keys_mergeAll
  order _ _ same _ := mem_keys_mergeAll_of_perm same
  once _ others distinct _ := mergeAll_nodup distinct others

/-- One finding that two evaluators let past. -/
def sameNit : RecordedFinding where
  severity := "low"
  reason := ofString "x"
  gating := false

/-- A finding that says nothing. -/
def blankNit : RecordedFinding where
  severity := "low"
  reason := ofString " "
  gating := false

/-- Of three findings that are let past two are collected, for one says nothing. Merged onto nothing
the finding of two evaluators comes once, and with nothing merged onto it twice. -/
theorem sameNit_twice :
    ∃ (render : Rendering) (history : List RecordedEvaluation),
      history = [recordVerdict "accept" "critic" none 1 [sameNit],
        recordVerdict "accept" "review" none 2 [sameNit, blankNit]] ∧
      ((mergeFollowUps [] (evaluatorFindingFollowUps render history)).map followUpKey).Nodup ∧
      ¬ ((mergeFollowUps (evaluatorFindingFollowUps render history) []).map followUpKey).Nodup ∧
      (evaluatorFindingFollowUps render history).length = 2 := by
  refine ⟨⟨fun _ => [], fun _ => false⟩, _, rfl, ?_, ?_, ?_⟩
  · decide +kernel
  · decide +kernel
  · decide +kernel

end Orchestrator.Flow
