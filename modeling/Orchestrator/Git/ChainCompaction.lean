import Orchestrator.Git.ChainSections

/-! # The compaction of a chain's body

A section keeps its mark and its tag, and what is put in the place of its summary has no mark that
the section did not have.
-/

namespace Orchestrator.Git

open Orchestrator.Foundation PyText MarkedText TaskFile

/-! ## Parts of a text -/

theorem partitionAt_isPrefix (separator text : PyText) :
    (partitionAt separator text).1 <+: text := by
  induction text with
  | nil => exact List.prefix_rfl
  | cons first rest ih =>
      rw [partitionAt]
      split
      · exact List.nil_prefix
      · exact List.cons_prefix_cons.mpr ⟨rfl, ih⟩

theorem partitionAt_suffix (separator text : PyText) :
    (partitionAt separator text).2.2 <:+ text := by
  induction text with
  | nil => exact List.suffix_rfl
  | cons first rest ih =>
      rw [partitionAt]
      split
      · exact List.drop_suffix _ _
      · exact ih.trans (List.suffix_cons first rest)

/-- The first separator is after a text without its first character. -/
theorem partitionAt_append {first : CodePoint} {tail front text : PyText}
    (absent : first ∉ front) :
    partitionAt (first :: tail) (front ++ text) =
      (front ++ (partitionAt (first :: tail) text).1, (partitionAt (first :: tail) text).2) := by
  induction front with
  | nil => rfl
  | cons point front ih =>
      have other : (first == point) = false :=
        beq_eq_false_iff_ne.mpr fun same => absent (same ▸ List.mem_cons_self)
      have here : (first :: tail).isPrefixOf (point :: (front ++ text)) = false := by
        rw [List.isPrefixOf_cons_cons, other, Bool.false_and]
      rw [List.cons_append, partitionAt, here, if_neg Bool.false_ne_true,
        ih fun among => absent (List.mem_cons_of_mem _ among)]
      rfl

theorem removeprefix_suffix (start text : PyText) : removeprefix start text <:+ text := by
  rw [ removeprefix]
  split
  · exact List.drop_suffix _ _
  · exact List.suffix_rfl

theorem removesuffix_isPrefix (tail text : PyText) : removesuffix tail text <+: text := by
  rw [removesuffix]
  split
  · exact List.take_prefix _ _
  · exact List.prefix_rfl

theorem strip_isInfix (text : PyText) : strip text <:+: text := by
  have front :
      (text.dropWhile isSpace).reverse.dropWhile isSpace <:+ (text.dropWhile isSpace).reverse :=
    List.dropWhile_suffix _
  have kept : strip text <+: text.dropWhile isSpace := by
    rw [strip, ← List.reverse_suffix, List.reverse_reverse]
    exact front
  exact kept.isInfix.trans (List.dropWhile_suffix _).isInfix

/-- A line is the one that was begun, or of the rest. -/
theorem mem_keepLines {line start text : PyText} (among : line ∈ keepLines start text) :
    (∃ more, more <+: text ∧ line = start.reverse ++ more) ∨ line <:+: text := by
  have anew : ∀ {rest : PyText}, ((∃ more, more <+: rest ∧ line = List.reverse [] ++ more) ∨
      line <:+: rest) → line <:+: rest := by
    rintro rest (⟨more, begins, rfl⟩ | within)
    · exact begins.isInfix
    · exact within
  fun_induction keepLines start text with
  | case1 => exact absurd among List.not_mem_nil
  | case2 start =>
      refine .inl ⟨[], List.prefix_rfl, ?_⟩
      rw [List.mem_singleton.mp among, List.append_nil]
  | case3 start point =>
      refine .inl ⟨[point], List.prefix_rfl, ?_⟩
      rw [List.mem_singleton.mp among, List.reverse_cons]
  | case4 start point _ next rest _ ih =>
      rcases List.mem_cons.mp among with rfl | later
      · refine .inl ⟨[point, next], List.prefix_append [point, next] rest, ?_⟩
        rw [List.reverse_cons, List.reverse_cons, List.append_assoc]
        rfl
      · exact .inr ((anew (ih later)).trans (List.suffix_append [point, next] rest).isInfix)
  | case5 start point _ next rest _ ih =>
      rcases List.mem_cons.mp among with rfl | later
      · exact .inl ⟨[point], List.prefix_append [point] _, List.reverse_cons⟩
      · exact .inr ((anew (ih later)).trans (List.suffix_append [point] _).isInfix)
  | case6 start point rest _ _ ih =>
      rcases List.mem_cons.mp among with rfl | later
      · exact .inl ⟨[point], List.prefix_append [point] _, List.reverse_cons⟩
      · exact .inr ((anew (ih later)).trans (List.suffix_append [point] _).isInfix)
  | case7 start point rest _ _ ih =>
      rcases ih among with ⟨more, begins, rfl⟩ | within
      · refine .inl ⟨point :: more, List.cons_prefix_cons.mpr ⟨rfl, begins⟩, ?_⟩
        rw [List.reverse_cons, List.append_assoc, List.singleton_append]
      · exact .inr (within.trans (List.suffix_append [point] _).isInfix)

/-- A line of a text is of what follows its beginning, or begins with it. -/
theorem mem_splitLines_append {line front text : PyText}
    (unended : ∀ point ∈ front, isLineEnd point = false)
    (among : line ∈ splitLines (front ++ text)) :
    front <+: line ∨ line <:+: text := by
  have begun : ∀ start : PyText, keepLines start (front ++ text) =
      keepLines (front.reverse ++ start) text := by
    clear among
    induction front with
    | nil => exact fun _ => rfl
    | cons point front ih =>
        intro start
        have plain := unended point List.mem_cons_self
        have notReturn : ¬ point.val = 13 := by
          intro same
          have ended : isLineEnd point = true := by
            rw [isLineEnd, same]
            rfl
          exact absurd (plain.symm.trans ended) Bool.false_ne_true
        have here : keepLines start (point :: (front ++ text)) =
            keepLines (point :: start) (front ++ text) := by
          rw [keepLines.eq_def]
          dsimp only
          rw [if_neg notReturn, plain, if_neg Bool.false_ne_true]
        rw [List.cons_append, here, ih fun point among =>
          unended point (List.mem_cons_of_mem _ among),
          List.reverse_cons, List.append_assoc, List.singleton_append]
  obtain ⟨whole, ofLines, rfl⟩ := List.mem_map.mp among
  rw [splitKeepEnds, begun, List.append_nil] at ofLines
  rcases mem_keepLines ofLines with ⟨more, -, rfl⟩ | within
  · rw [List.reverse_reverse, List.takeWhile_append_of_pos]
    · exact .inl (List.prefix_append _ _)
    · intro point ofFront
      rw [unended point ofFront]
      rfl
  · exact .inr ((List.takeWhile_prefix _).isInfix.trans within)

/-! ## A compacted section -/

/-- A text that begins with a character that the mark does not have. -/
theorem apart_of_not_mem {first : CodePoint} {text : PyText} (absent : first ∉ taskMarkerPrefix) :
    ∀ point ∈ (first :: text).head?, point ∉ taskMarkerPrefix := by
  rintro _ ⟨⟩
  exact absent

section Compaction

variable {taskId rest : PyText} (valid : isValidTaskId taskId = true)
  (free : Free taskMarkerPrefix (taskTag taskId ++ rest))
include valid free

omit valid in
/-- What the block of a section has of it. -/
theorem block_of_section {block : PyText} (begins : block <+: rest) :
    Free taskMarkerPrefix (taskTag taskId ++ block) :=
  free.of_isInfix ((List.prefix_append_right_inj _).mpr begins).isInfix

omit valid in
theorem free_of_isInfix_rest {part : PyText} (within : part <:+: rest) :
    Free taskMarkerPrefix part :=
  free.of_isInfix (within.trans (List.suffix_append _ _).isInfix)

/-- The task that is read from a block is no second mark. -/
theorem free_markedTask : Free taskMarkerPrefix (markedTask (taskMarker taskId ++ rest)) := by
  have line : (partitionAt (ofString "\n") (taskMarker taskId ++ rest)).1 =
      taskMarkerPrefix ++ (taskTag taskId ++ (partitionAt (ofString "\n") rest).1) := by
    have split : partitionAt [newline] (taskMarker taskId ++ rest) =
        (taskMarker taskId ++ (partitionAt [newline] rest).1, (partitionAt [newline] rest).2) :=
      partitionAt_append (newline_not_mem_marker valid)
    have same : ofString "\n" = [newline] := rfl
    rw [same, split, taskMarker, List.append_assoc]
  rw [markedTask, line, removeprefix_append]
  exact (block_of_section free (partitionAt_isPrefix _ _)).of_isInfix
    (removesuffix_isPrefix _ _).isInfix

/-- The pointer that is read from a block is no mark. -/
theorem free_summaryPointer :
    Free taskMarkerPrefix (summaryPointer (taskMarker taskId ++ rest)) := by
  rw [summaryPointer]
  split
  · next line found =>
    have pointed := List.find?_some found
    have within : line <:+: rest := by
      rcases mem_splitLines_append (fun _ => isLineEnd_marker valid)
        (List.mem_of_find?_eq_some found) with begins | within
      · have both : summaryPointerPrefix <+: line := List.isPrefixOf_iff_prefix.mp pointed
        have marked : taskMarkerPrefix <+: line := (List.prefix_append _ _).trans begins
        rcases List.prefix_or_prefix_of_prefix both marked with same | same
        · exact absurd same (by decide)
        · exact absurd same (by decide)
      · exact within
    refine (free_of_isInfix_rest free within).of_isInfix ((strip_isInfix _).trans ?_)
    exact (removesuffix_isPrefix _ _).isInfix.trans (removeprefix_suffix _ _).isInfix
  · exact free_of_not_mem List.not_mem_nil

theorem free_summaryPlace :
    Free taskMarkerPrefix (summaryPlace (taskMarker taskId ++ rest)) := by
  have task := (free_markedTask valid free).of_isInfix (strip_isInfix _)
  have pointer := free_summaryPointer valid free
  rw [summaryPlace]
  split
  · refine free_append_of_not_mem (by decide) (task.append ?_ ?_)
    · exact free_of_not_mem (by decide)
    · exact apart_of_not_mem (by decide)
  · refine free_append_of_not_mem (by decide) (pointer.append ?_ ?_)
    · exact free_of_not_mem (by decide)
    · exact apart_of_not_mem (by decide)

theorem free_elisionStub (followUps : PyText) :
    Free taskMarkerPrefix (elisionStub (taskMarker taskId ++ rest) followUps) := by
  have place : Free taskMarkerPrefix (summaryPlace (taskMarker taskId ++ rest) ++ ofString "._") :=
    (free_summaryPlace valid free).append (free_of_not_mem (by decide))
      (apart_of_not_mem (by decide))
  rw [elisionStub]
  split
  · exact free_append_of_not_mem (by decide) place
  · exact free_append_of_not_mem (by decide) place

end Compaction

theorem free_followUpsOf {summary : PyText} (free : Free taskMarkerPrefix summary) :
    Free taskMarkerPrefix (followUpsOf summary) := by
  rw [followUpsOf]
  split
  · have tail := free.of_isInfix (partitionAt_suffix followUpsHeading summary).isInfix
    rw [List.append_assoc, List.append_assoc]
    refine free_append_of_not_mem (by decide) (free_append_of_not_mem (by decide) ?_)
    refine (tail.of_isInfix (List.rdropWhile_prefix _ _).isInfix).append ?_ ?_
    · exact free_of_not_mem (by decide)
    · exact apart_of_not_mem (by decide)
  · exact free_of_not_mem List.not_mem_nil

/-- A section keeps its mark when it is compacted, and has no other. -/
theorem compactPrSection_marked {listed : ChainSection} (marked : listed.Marked)
    (keepFollowUps : Bool) :
    ∃ compacted : ChainSection, compacted.taskId = listed.taskId ∧ compacted.Marked ∧
      compactPrSection keepFollowUps (taskMarkerPrefix ++ listed.text) =
        taskMarkerPrefix ++ compacted.text := by
  obtain ⟨valid, free⟩ := marked
  have whole : taskMarkerPrefix ++ listed.text = taskMarker listed.taskId ++ listed.rest :=
    (List.append_assoc _ _ _).symm
  have split : partitionAt blankLine (taskMarker listed.taskId ++ listed.rest) =
      (taskMarker listed.taskId ++ (partitionAt blankLine listed.rest).1,
        (partitionAt blankLine listed.rest).2) :=
    partitionAt_append (newline_not_mem_marker valid)
  rw [whole, compactPrSection, split]
  dsimp only
  have block := partitionAt_isPrefix blankLine listed.rest
  have after := partitionAt_suffix blankLine listed.rest
  generalize partitionAt blankLine listed.rest = parts at block after ⊢
  have blockFree := block_of_section free block
  have titleFree := free_of_isInfix_rest free
    ((partitionAt_isPrefix blankLine parts.2.2).isInfix.trans after.isInfix)
  have summaryFree := free_of_isInfix_rest free
    ((partitionAt_suffix blankLine parts.2.2).isInfix.trans after.isInfix)
  generalize partitionAt blankLine parts.2.2 = titled at titleFree summaryFree ⊢
  have followUpsFree :
      Free taskMarkerPrefix (if keepFollowUps then followUpsOf titled.2.2 else []) := by
    split
    · exact free_followUpsOf summaryFree
    · exact free_of_not_mem List.not_mem_nil
  generalize (if keepFollowUps then followUpsOf titled.2.2 else []) = followUps at followUpsFree ⊢
  have stubFree := free_elisionStub valid blockFree followUps
  generalize elisionStub (taskMarker listed.taskId ++ parts.1) followUps = stub at stubFree ⊢
  have atEnd : Free taskMarkerPrefix (stub ++ (ofString "\n" ++ followUps)) :=
    stubFree.append (free_append_of_not_mem (by decide) followUpsFree)
      (apart_of_not_mem (by decide))
  have underTitle : Free taskMarkerPrefix
      (titled.1 ++ (blankLine ++ (stub ++ (ofString "\n" ++ followUps)))) :=
    titleFree.append (free_append_of_not_mem (by decide) atEnd) (apart_of_not_mem (by decide))
  have kept : Free taskMarkerPrefix (taskTag listed.taskId ++ parts.1 ++ (blankLine ++
      (titled.1 ++ (blankLine ++ (stub ++ (ofString "\n" ++ followUps)))))) :=
    blockFree.append (free_append_of_not_mem (by decide) underTitle) (apart_of_not_mem (by decide))
  refine ⟨⟨listed.taskId, parts.1 ++ (blankLine ++
    (titled.1 ++ (blankLine ++ (stub ++ (ofString "\n" ++ followUps)))))⟩, rfl, ⟨valid, ?_⟩, ?_⟩
  · rw [List.append_assoc] at kept
    exact kept
  · rw [taskMarker, List.append_assoc, List.append_assoc]
    rfl

/-! ## A bounded body -/

theorem compactPass_cons (keepFollowUps : Bool) (total : Int) (text : PyText)
    (texts : List PyText) :
    (compactPass keepFollowUps total (text :: texts)).2 =
      if total ≤ prBodyMaxChars then text :: texts
      else compactPrSection keepFollowUps text :: (compactPass keepFollowUps
        (total - (text.length - (compactPrSection keepFollowUps text).length)) texts).2 := by
  rw [compactPass.eq_def]
  dsimp only
  split <;> rfl

/-- A pass over sections keeps one for each task. -/
theorem compactPass_marked (keepFollowUps : Bool) (total : Int) {sections : List ChainSection}
    (marked : ∀ listed ∈ sections, ChainSection.Marked listed) :
    ∃ kept : List ChainSection, (∀ listed ∈ kept, ChainSection.Marked listed) ∧
      kept.map ChainSection.taskId = sections.map ChainSection.taskId ∧
      (compactPass keepFollowUps total
        (sections.map fun listed => taskMarkerPrefix ++ listed.text)).2 =
        kept.map fun listed => taskMarkerPrefix ++ listed.text := by
  induction sections generalizing total with
  | nil => exact ⟨[], marked, rfl, rfl⟩
  | cons first rest ih =>
      rw [List.map_cons, List.map_cons, compactPass_cons]
      split
      · exact ⟨first :: rest, marked, rfl, rfl⟩
      · obtain ⟨compacted, sameTask, stillMarked, sameText⟩ :=
          compactPrSection_marked (marked first List.mem_cons_self) keepFollowUps
        rw [sameText]
        obtain ⟨kept, keptMarked, sameTasks, sameTexts⟩ := ih
          (total - ((taskMarkerPrefix ++ first.text).length -
            (taskMarkerPrefix ++ compacted.text).length))
          fun listed among => marked listed (List.mem_cons_of_mem _ among)
        refine ⟨compacted :: kept, ?_, ?_, ?_⟩
        · intro listed among
          rcases List.mem_cons.mp among with rfl | later
          · exact stillMarked
          · exact keptMarked listed later
        · rw [List.map_cons, sameTask, sameTasks]
        · rw [sameTexts, List.map_cons]

theorem joinSections_marked (head : PyText) (sections : List ChainSection) :
    joinSections head (sections.map fun listed => taskMarkerPrefix ++ listed.text) =
      chainText head sections := by
  rw [joinSections, chainText, joined, sectionsText, List.flatMap_map, List.flatMap_map]

/-- A bounded body lists the same tasks. -/
theorem Lists.boundPrBody {opened body : PyText} {tasks : List PyText}
    (lists : Lists opened body tasks) : Lists opened (boundPrBody body) tasks := by
  rw [Git.boundPrBody]
  split
  · exact lists
  · obtain ⟨head, sections, rfl, same, free, marked, rfl⟩ := lists
    have split :
        MarkedText.splitBefore sectionSeparator taskMarkerPrefix (chainText head sections) =
        head :: sections.map fun listed => taskMarkerPrefix ++ listed.text := by
      rw [chainText, delimits_taskMarkerPrefix.splitBefore_joined free (free_of_marked marked),
        List.map_map]
      rfl
    rw [split]
    cases sections with
    | nil => exact ⟨head, [], rfl, same, free, marked, rfl⟩
    | cons first rest =>
        obtain ⟨once, onceMarked, onceTasks, onceTexts⟩ := compactPass_marked true
          (joinSections head ((first :: rest).map fun listed =>
            taskMarkerPrefix ++ listed.text)).length marked
        obtain ⟨twice, twiceMarked, twiceTasks, twiceTexts⟩ := compactPass_marked false
          (compactPass true (joinSections head ((first :: rest).map fun listed =>
            taskMarkerPrefix ++ listed.text)).length ((first :: rest).map fun listed =>
            taskMarkerPrefix ++ listed.text)).1 onceMarked
        rw [← onceTexts] at twiceTexts
        refine ⟨head, twice, ?_, same, free, twiceMarked, twiceTasks.trans onceTasks⟩
        rw [← joinSections_marked head twice, ← twiceTexts]
        rfl

end Orchestrator.Git
