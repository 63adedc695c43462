import Orchestrator.Foundation.MarkedParts
import Orchestrator.Git.ChainCompaction

/-! # Stubs of sections

A compacted section has the marker block and the title of the section. Compacted once more without
its follow-ups it is the smallest stub of the section, and stays as it is.
-/

namespace Orchestrator.Git

open Orchestrator.Foundation PyText MarkedText

/-! ## Parts of a section -/

/-- The marker block of a section. -/
def blockOf (text : PyText) : PyText := (partitionAt blankLine text).1

/-- The title of a section, with its mark. -/
def titleOf (text : PyText) : PyText := (partitionAt blankLine (partitionAt blankLine text).2.2).1

/-- The summary of a section, with its follow-ups. -/
def summaryOf (text : PyText) : PyText :=
  (partitionAt blankLine (partitionAt blankLine text).2.2).2.2

/-- A section with a block and a title, a note in the place of its prose, and follow-ups. -/
def stubSection (block title followUps : PyText) : PyText :=
  block ++ (blankLine ++ (title ++ (blankLine ++
    (elisionStub block followUps ++ (ofString "\n" ++ followUps)))))

theorem compactPrSection_eq (keepFollowUps : Bool) (text : PyText) :
    compactPrSection keepFollowUps text =
      stubSection (blockOf text) (titleOf text)
        (if keepFollowUps then followUpsOf (summaryOf text) else []) :=
  rfl

/-! ## Blank lines -/

/-- A text without a blank line. -/
def Solid (text : PyText) : Prop := ¬ blankLine <:+: text

/-- A text without a blank line, in which none begins either where one follows. -/
structure Ended (text : PyText) : Prop where
  solid : Solid text
  last : text.getLast? ≠ some newline

/-- A text without the line feed at its end. -/
def chomp (text : PyText) : PyText := if text.getLast? = some newline then text.dropLast else text

theorem blankLine_eq : blankLine = [newline, newline] := rfl

theorem solid_partitionAt (text : PyText) : Solid (partitionAt blankLine text).1 := by
  induction text with
  | nil => exact fun within => absurd (List.infix_nil.mp within) (by decide)
  | cons first rest ih =>
      rw [partitionAt]
      split
      · exact fun within => absurd (List.infix_nil.mp within) (by decide)
      · next apart =>
        intro within
        rcases List.infix_cons_iff.mp within with here | later
        · refine apart (List.isPrefixOf_iff_prefix.mpr (here.trans ?_))
          exact List.cons_prefix_cons.mpr ⟨rfl, partitionAt_isPrefix blankLine rest⟩
        · exact ih later

/-- A text in which no blank line begins is what is before the first one. -/
theorem partitionAt_ended {text : PyText} (ended : Ended text) (rest : PyText) :
    partitionAt blankLine (text ++ (blankLine ++ rest)) = (text, true, rest) := by
  obtain ⟨solid, last⟩ := ended
  induction text with
  | nil => rfl
  | cons first text ih =>
      have apart : blankLine.isPrefixOf (first :: (text ++ (blankLine ++ rest))) = false := by
        rw [blankLine_eq, List.isPrefixOf_cons_cons]
        cases text with
        | nil =>
            rw [Bool.and_eq_false_iff, beq_eq_false_iff_ne]
            refine .inl fun same => last ?_
            rw [← same]
            rfl
        | cons second text =>
            rw [List.cons_append, List.isPrefixOf_cons_cons, List.isPrefixOf_nil_left,
              Bool.and_true, Bool.and_eq_false_iff, beq_eq_false_iff_ne, beq_eq_false_iff_ne]
            by_contra both
            rw [not_or, not_not, not_not] at both
            apply solid
            rw [← both.1, ← both.2]
            exact (List.prefix_append [newline, newline] text).isInfix
      rw [List.cons_append, partitionAt, apart, if_neg Bool.false_ne_true, ih]
      · exact fun within => solid (within.trans (List.suffix_cons first text).isInfix)
      · cases text with
        | nil => exact fun none => by cases none
        | cons second text => rwa [List.getLast?_cons_cons] at last

theorem ended_chomp {text : PyText} (solid : Solid text) : Ended (chomp text) := by
  rw [chomp]
  split
  · next last =>
    obtain ⟨front, rfl⟩ := List.getLast?_eq_some_iff.mp last
    rw [List.dropLast_concat]
    refine ⟨fun within => solid (within.trans (List.prefix_append front _).isInfix), fun ends => ?_⟩
    obtain ⟨before, rfl⟩ := List.getLast?_eq_some_iff.mp ends
    apply solid
    rw [List.append_assoc]
    exact (List.suffix_append before _).isInfix
  · next last => exact ⟨solid, last⟩

theorem Ended.chomp {text : PyText} (ended : Ended text) : Git.chomp text = text := by
  rw [Git.chomp, if_neg ended.last]

theorem chomp_isPrefix (text : PyText) : chomp text <+: text := by
  rw [chomp]
  split
  · exact List.dropLast_prefix text
  · exact List.prefix_rfl

/-- What stands before a blank line is chomped by the search for it. -/
theorem partitionAt_chomp {text : PyText} (solid : Solid text) (rest : PyText) :
    ∃ more, (more = rest ∨ more = newline :: rest) ∧
      partitionAt blankLine (text ++ (blankLine ++ rest)) = (chomp text, true, more) := by
  by_cases last : text.getLast? = some newline
  · obtain ⟨front, rfl⟩ := List.getLast?_eq_some_iff.mp last
    have ended := ended_chomp solid
    rw [chomp, if_pos last, List.dropLast_concat] at ended ⊢
    refine ⟨newline :: rest, .inr rfl, ?_⟩
    have shifted : front ++ [newline] ++ (blankLine ++ rest) =
        front ++ (blankLine ++ newline :: rest) := by
      rw [List.append_assoc]
      rfl
    rw [shifted]
    exact partitionAt_ended ended (newline :: rest)
  · refine ⟨rest, .inl rfl, ?_⟩
    rw [chomp, if_neg last]
    exact partitionAt_ended ⟨solid, last⟩ rest

/-- A separator follows what is before the first one, or there is none. -/
theorem partitionAt_cases (separator text : PyText) :
    (partitionAt separator text).2.1 = true ∧ text = (partitionAt separator text).1 ++
        (separator ++ (partitionAt separator text).2.2) ∨
      (partitionAt separator text).2.1 = false ∧ (partitionAt separator text).2.2 = [] := by
  induction text with
  | nil => exact .inr ⟨rfl, rfl⟩
  | cons first rest ih =>
      rw [partitionAt]
      split
      · next begins =>
        obtain ⟨after, same⟩ := List.isPrefixOf_iff_prefix.mp begins
        refine .inl ⟨rfl, ?_⟩
        rw [← same, List.drop_left, List.nil_append]
      · rcases ih with ⟨found, split⟩ | none
        · refine .inl ⟨found, ?_⟩
          dsimp only
          rw [List.cons_append, ← split]
        · exact .inr none

theorem ended_or_nil (text : PyText) :
    Ended (partitionAt blankLine text).1 ∨ (partitionAt blankLine text).2.2 = [] := by
  rcases partitionAt_cases blankLine text with ⟨-, found⟩ | ⟨-, none⟩
  · refine .inl ⟨solid_partitionAt text, fun last => ?_⟩
    obtain ⟨more, -, chomped⟩ :=
      partitionAt_chomp (solid_partitionAt text) (partitionAt blankLine text).2.2
    rw [← found] at chomped
    have same := congrArg Prod.fst chomped
    rw [chomp, if_pos last] at same
    obtain ⟨front, ends⟩ := List.getLast?_eq_some_iff.mp last
    rw [ends, List.dropLast_concat] at same
    exact absurd (congrArg List.length same) (by rw [List.length_append]; exact Nat.succ_ne_self _)
  · exact .inr none

/-! ## Stubs of stubs -/

theorem solid_blockOf (text : PyText) : Solid (blockOf text) := solid_partitionAt text

theorem solid_titleOf (text : PyText) : Solid (titleOf text) := solid_partitionAt _

/-- A section whose block ends without a blank line has no title. -/
theorem ended_blockOf (text : PyText) : Ended (blockOf text) ∨ titleOf text = [] := by
  rcases ended_or_nil text with ended | none
  · exact .inl ended
  · right
    rw [titleOf, none]
    rfl

section Stubs

variable {block title followUps : PyText}

/-- The block and the title of a stub. -/
theorem parts_stubSection (followUps : PyText) (solid : Solid block) (solidTitle : Solid title)
    (shape : Ended block ∨ title = []) :
    blockOf (stubSection block title followUps) = chomp block ∧
      titleOf (stubSection block title followUps) = chomp title := by
  rw [blockOf, titleOf, stubSection]
  generalize elisionStub block followUps ++ (ofString "\n" ++ followUps) = stub
  rcases shape with ended | rfl
  · rw [partitionAt_ended ended]
    obtain ⟨more, -, titled⟩ := partitionAt_chomp solidTitle stub
    rw [titled, ended.chomp]
    exact ⟨rfl, rfl⟩
  · obtain ⟨more, rest, blocked⟩ := partitionAt_chomp solid ([] ++ (blankLine ++ stub))
    rw [blocked]
    refine ⟨rfl, ?_⟩
    rcases rest with rfl | rfl
    · rfl
    · rfl

/-- The smallest stub of a section. -/
def smallestStub (text : PyText) : PyText :=
  stubSection (chomp (blockOf text)) (chomp (titleOf text)) []

theorem compactPrSection_compact (keepFollowUps : Bool) (text : PyText) :
    compactPrSection false (compactPrSection keepFollowUps text) = smallestStub text := by
  rw [compactPrSection_eq false, compactPrSection_eq keepFollowUps]
  generalize (if keepFollowUps then followUpsOf (summaryOf text) else []) = followUps
  obtain ⟨sameBlock, sameTitle⟩ := parts_stubSection followUps (solid_blockOf text)
    (solid_titleOf text) (ended_blockOf text)
  rw [sameBlock, sameTitle]
  rfl

/-- A smallest stub stays as it is. -/
theorem smallestStub_smallestStub (text : PyText) :
    smallestStub (smallestStub text) = smallestStub text := by
  have block := ended_chomp (solid_blockOf text)
  have title := ended_chomp (solid_titleOf text)
  obtain ⟨sameBlock, sameTitle⟩ := parts_stubSection [] block.solid title.solid (.inl block)
  rw [block.chomp] at sameBlock
  rw [title.chomp] at sameTitle
  rw [smallestStub, smallestStub, sameBlock, sameTitle, block.chomp, title.chomp]

end Stubs

/-! ## The length of a stub -/

/-- A line without its end. -/
def bareLine (line : PyText) : PyText := line.takeWhile fun point => !isLineEnd point

theorem bareLine_append {front tail : PyText} (ends : ∀ point ∈ tail, isLineEnd point = true) :
    bareLine (front ++ tail) = bareLine front := by
  have none : bareLine tail = [] := by
    cases tail with
    | nil => rfl
    | cons first tail =>
        rw [bareLine, List.takeWhile_cons, ends first List.mem_cons_self]
        rfl
  rw [bareLine, List.takeWhile_append]
  split
  · next whole =>
    rw [← bareLine, none, List.append_nil]
    exact (List.IsPrefix.eq_of_length (List.takeWhile_prefix _) whole).symm
  · rfl

/-- A line feed at the end adds at most an empty line. -/
theorem keepLines_newline (start text : PyText) :
    ∃ extra, (extra = [] ∨ extra = [[]]) ∧
      (keepLines start (text ++ [newline])).map bareLine =
        (keepLines start text).map bareLine ++ extra := by
  fun_induction keepLines start text with
  | case1 => exact ⟨[[]], .inr rfl, rfl⟩
  | case2 start some =>
      refine ⟨[], .inl rfl, ?_⟩
      have ended : keepLines start ([] ++ [newline]) = [start.reverse ++ [newline]] := by
        rw [List.nil_append, keepLines.eq_def]
        dsimp only
        rw [if_neg (by decide), if_pos (by decide), List.reverse_cons]
        rfl
      rw [ended, List.map_singleton, List.map_singleton, List.append_nil, bareLine_append]
      rintro _ (_ | ⟨_, ⟨⟩⟩)
      rfl
  | case3 start point isReturn =>
      refine ⟨[], .inl rfl, ?_⟩
      have ends : isLineEnd point = true := by
        rw [isLineEnd, isReturn]
        rfl
      have ended : keepLines start ([point] ++ [newline]) =
        [start.reverse ++ [point, newline]] := by
        rw [List.singleton_append, keepLines.eq_def]
        dsimp only
        rw [if_pos isReturn, if_pos (show newline.val = 10 from rfl), List.reverse_cons,
          List.reverse_cons, List.append_assoc]
        rfl
      rw [ended, List.map_singleton, List.map_singleton, List.append_nil, List.reverse_cons,
        bareLine_append, bareLine_append]
      · rintro _ (_ | ⟨_, ⟨⟩⟩)
        exact ends
      · rintro _ (_ | ⟨_, _ | ⟨_, ⟨⟩⟩⟩)
        · exact ends
        · rfl
  | case4 start point isReturn next rest isFeed ih =>
      obtain ⟨extra, shape, same⟩ := ih
      refine ⟨extra, shape, ?_⟩
      rw [List.cons_append, List.cons_append, keepLines.eq_def]
      dsimp only
      rw [if_pos isReturn, if_pos isFeed, List.map_cons, same, List.map_cons, List.cons_append]
  | case5 start point isReturn next rest other ih =>
      obtain ⟨extra, shape, same⟩ := ih
      refine ⟨extra, shape, ?_⟩
      rw [List.cons_append, List.cons_append, keepLines.eq_def]
      dsimp only
      rw [if_pos isReturn, if_neg other, List.map_cons, ← List.cons_append, same, List.map_cons,
        List.cons_append]
  | case6 start point rest other ends ih =>
      obtain ⟨extra, shape, same⟩ := ih
      refine ⟨extra, shape, ?_⟩
      rw [List.cons_append, keepLines.eq_def]
      dsimp only
      rw [if_neg other, if_pos ends, List.map_cons, same, List.map_cons, List.cons_append]
  | case7 start point rest other plain ih =>
      obtain ⟨extra, shape, same⟩ := ih
      refine ⟨extra, shape, ?_⟩
      rw [List.cons_append, keepLines.eq_def]
      dsimp only
      rw [if_neg other, if_neg plain, same]

/-- The pointer of a block is not on an empty line at its end. -/
theorem summaryPointer_chomp (block : PyText) :
    summaryPointer (chomp block) = summaryPointer block := by
  rw [chomp]
  split
  · next last =>
    obtain ⟨front, rfl⟩ := List.getLast?_eq_some_iff.mp last
    obtain ⟨extra, shape, same⟩ := keepLines_newline [] front
    have lines : splitLines (front ++ [newline]) = splitLines front ++ extra := same
    have none : extra.find? (fun line => startsWith line summaryPointerPrefix) = none := by
      rcases shape with rfl | rfl
      · rfl
      · rfl
    rw [List.dropLast_concat, summaryPointer, summaryPointer, lines, List.find?_append, none,
      Option.or_none]
  · rfl

theorem markedTask_chomp (block : PyText) : markedTask (chomp block) = markedTask block := by
  rw [chomp]
  split
  · next last =>
    obtain ⟨front, rfl⟩ := List.getLast?_eq_some_iff.mp last
    have line : (partitionAt (ofString "\n") (front ++ [newline])).1 =
        (partitionAt (ofString "\n") front).1 := by
      clear last
      induction front with
      | nil => rfl
      | cons first front ih =>
          have same : ∀ rest : PyText, (ofString "\n").isPrefixOf (first :: rest) =
              (newline == first) := fun rest => by
            have single : ofString "\n" = [newline] := rfl
            rw [single, List.isPrefixOf_cons_cons, List.isPrefixOf_nil_left, Bool.and_true]
          rw [List.cons_append, partitionAt, partitionAt, same, same]
          split
          · rfl
          · exact congrArg (List.cons first) ih
    rw [List.dropLast_concat, markedTask, markedTask, line]
  · rfl

theorem elisionStub_chomp (block followUps : PyText) :
    elisionStub (chomp block) followUps = elisionStub block followUps := by
  rw [elisionStub, elisionStub, summaryPlace, summaryPlace, summaryPointer_chomp, markedTask_chomp]

/-- The note is no longer without follow-ups. -/
theorem length_elisionStub_le (block followUps : PyText) :
    (elisionStub block []).length ≤ (elisionStub block followUps).length := by
  by_cases none : followUps = []
  · rw [none]
  · rw [elisionStub, elisionStub]
    rw [List.length_append]
    generalize summaryPlace block ++ ofString "._" = place
    rw [if_neg none, if_neg none, List.length_append]
    apply Nat.add_le_add_right
    decide

theorem length_smallestStub_le (text : PyText) :
    (smallestStub text).length ≤ (compactPrSection false text).length := by
  have block := (chomp_isPrefix (blockOf text)).length_le
  have title := (chomp_isPrefix (titleOf text)).length_le
  rw [compactPrSection_eq, smallestStub, stubSection, stubSection, elisionStub_chomp,
    if_neg Bool.false_ne_true]
  simp only [List.length_append]
  omega

/-- A smallest stub is not shorter when it is compacted with its follow-ups. -/
theorem length_smallestStub_le_compact (text : PyText) :
    (smallestStub text).length ≤ (compactPrSection true (smallestStub text)).length := by
  have block := ended_chomp (solid_blockOf text)
  have title := ended_chomp (solid_titleOf text)
  obtain ⟨sameBlock, sameTitle⟩ := parts_stubSection [] block.solid title.solid (.inl block)
  have stub := length_elisionStub_le (chomp (blockOf text))
    (followUpsOf (summaryOf (smallestStub text)))
  rw [compactPrSection_eq, if_pos rfl]
  generalize followUpsOf (summaryOf (smallestStub text)) = followUps at stub ⊢
  rw [smallestStub, sameBlock, sameTitle, block.chomp, title.chomp, stubSection, stubSection]
  simp only [List.length_append, List.length_nil]
  omega

/-! ## No new place to cut -/

/-- A separator that a mark follows. -/
def sectionStart : PyText := sectionSeparator ++ taskMarkerPrefix

/-- What a separator has after a blank line, with the mark. -/
def startTail : PyText := ofString "---\n\n<!-- worc-task:"

theorem sectionStart_eq : sectionStart = newline :: newline :: startTail := rfl

section Cuts

variable {text rest : PyText}

/-- No section starts in a text without a blank line where one follows. -/
theorem quiet_solid (solid : Solid text) : Quiet sectionStart text (blankLine ++ rest) := by
  intro last some isSuffix begins
  obtain ⟨first, last, rfl⟩ := List.exists_cons_of_ne_nil some
  rw [sectionStart_eq, List.cons_append, List.cons_prefix_cons] at begins
  obtain ⟨rfl, begins⟩ := begins
  cases last with
  | nil =>
      rw [List.nil_append, blankLine_eq, List.cons_append, List.cons_prefix_cons] at begins
      have other : ¬ startTail <+: newline :: rest := fun within =>
        absurd (List.cons_prefix_cons.mp within).1 (by decide)
      exact other begins.2
  | cons second last =>
      rw [List.cons_append, List.cons_prefix_cons] at begins
      obtain ⟨rfl, -⟩ := begins
      exact solid ((List.prefix_append [newline, newline] last).isInfix.trans isSuffix.isInfix)

/-- A text without a blank line, and one that a note follows, are not the rest of a separator. -/
theorem not_startTail (solid : Solid text) :
    ¬ startTail <+: text ++ (blankLine ++ (ofChar '_' :: rest)) := by
  intro begins
  have blank : blankLine <:+: startTail := ⟨ofString "---", taskMarkerPrefix, rfl⟩
  have apart : ∀ ending ∈ startTail.tails, ending ≠ [] →
      ¬ ending.take 3 <+: blankLine ++ [ofChar '_'] := by
    decide
  rcases List.prefix_or_prefix_of_prefix begins (List.prefix_append text _) with
    within | ⟨extra, same⟩
  · exact solid (blank.trans within.isInfix)
  · rw [← same, List.prefix_append_right_inj] at begins
    by_cases none : extra = []
    · rw [none, List.append_nil] at same
      exact solid (same ▸ blank)
    · exact apart extra ((List.mem_tails _ _).mpr ⟨text, same⟩) none (begins.take 3)

/-- No section starts at the blank line between a title and a note. -/
theorem quiet_blankLine (after : ¬ startTail <+: rest)
    (later : ¬ newline :: startTail <+: rest) : Quiet sectionStart blankLine rest := by
  rw [blankLine_eq, sectionStart_eq]
  refine Quiet.cons (fun begins => ?_) (Quiet.cons (fun begins => ?_) (quiet_nil _ _))
  · exact after (List.cons_prefix_cons.mp (List.cons_prefix_cons.mp begins).2).2
  · exact later (List.cons_prefix_cons.mp begins).2

theorem newline_not_mem_bareLine {line : PyText} (among : line ∈ splitLines text) :
    newline ∉ line := by
  obtain ⟨whole, -, rfl⟩ := List.mem_map.mp among
  intro within
  exact absurd (List.mem_takeWhile_imp within) (by decide)

theorem newline_not_mem_partitionAt (text : PyText) :
    newline ∉ (partitionAt (ofString "\n") text).1 := by
  induction text with
  | nil => exact List.not_mem_nil
  | cons first rest ih =>
      have single : ofString "\n" = [newline] := rfl
      rw [partitionAt, single, List.isPrefixOf_cons_cons, List.isPrefixOf_nil_left, Bool.and_true]
      split
      · exact List.not_mem_nil
      · next other =>
        rw [single] at ih
        intro among
        rcases List.mem_cons.mp among with same | later
        · exact other (by rw [same]; exact beq_self_eq_true first)
        · exact ih later

/-- The note is one line. -/
theorem newline_not_mem_elisionStub (block followUps : PyText) :
    newline ∉ elisionStub block followUps := by
  have task : newline ∉ strip (markedTask block) := by
    intro among
    have within := ((strip_isInfix _).trans (removesuffix_isPrefix _ _).isInfix).subset among
    exact newline_not_mem_partitionAt block ((removeprefix_suffix _ _).subset within)
  have pointer : newline ∉ summaryPointer block := by
    rw [summaryPointer]
    split
    · next line found =>
      intro among
      have within := ((strip_isInfix _).trans (removesuffix_isPrefix _ _).isInfix).subset among
      exact newline_not_mem_bareLine (List.mem_of_find?_eq_some found)
        ((removeprefix_suffix _ _).subset within)
    · exact List.not_mem_nil
  have place : newline ∉ summaryPlace block := by
    rw [summaryPlace]
    split
    · simp only [List.mem_append, not_or]
      exact ⟨by decide, task, by decide⟩
    · simp only [List.mem_append, not_or]
      exact ⟨by decide, pointer, by decide⟩
  rw [elisionStub]
  simp only [List.mem_append, not_or]
  refine ⟨?_, place, by decide⟩
  by_cases none : followUps = []
  · rw [if_pos none, if_pos none]
    decide
  · rw [if_neg none, if_neg none]
    decide

/-- Follow-ups start no section where the section that they are of starts none. -/
theorem free_followUps (free : Free sectionStart text) {summary : PyText}
    (within : summary <:+: text) :
    Quiet sectionStart (ofString "\n" ++ followUpsOf summary) [] := by
  have single : ofString "\n" = [newline] := rfl
  rw [followUpsOf]
  split
  · next found =>
    rcases partitionAt_cases followUpsHeading summary with ⟨-, split⟩ | ⟨missing, -⟩
    · generalize partitionAt followUpsHeading summary = parts at split ⊢
      have kept : Free sectionStart (followUpsHeading ++ rstrip parts.2.2) := by
        refine free.of_isInfix (List.IsInfix.trans ?_ within)
        rw [split]
        refine List.IsInfix.trans ?_ (List.suffix_append parts.1 _).isInfix
        exact ((List.prefix_append_right_inj _).mpr (List.rdropWhile_prefix _ _)).isInfix
      have ended : Quiet sectionStart (followUpsHeading ++ rstrip parts.2.2) ([newline] ++ []) := by
        refine quiet_of_free_of_ends kept ?_
        decide
      have marked : followUpsHeading = ofChar '#' :: ofString "# Technical debt / follow-ups" := rfl
      rw [single, List.append_assoc, List.append_assoc, ← List.append_assoc followUpsHeading]
      refine Quiet.cons (fun begins => ?_) (Quiet.cons (fun begins => ?_) ?_)
      · rw [sectionStart_eq] at begins
        have third := (List.cons_prefix_cons.mp (List.cons_prefix_cons.mp begins).2).2
        change startTail <+: followUpsHeading ++ rstrip parts.2.2 ++ [newline] ++ [] at third
        rw [marked] at third
        exact absurd (List.cons_prefix_cons.mp third).1 (by decide)
      · rw [sectionStart_eq] at begins
        have second := (List.cons_prefix_cons.mp begins).2
        rw [marked] at second
        exact absurd (List.cons_prefix_cons.mp second).1 (by decide)
      · refine ended.append ?_
        exact Quiet.cons (by decide) (quiet_nil _ _)
    · rw [missing] at found
      cases found
  · rw [List.append_nil, single]
    exact Quiet.cons (by decide) (quiet_nil _ _)

/-- A stub of a text that starts no section starts none. -/
theorem free_stubSection {block title followUps : PyText} (solid : Solid block)
    (solidTitle : Solid title)
    (quiet : Quiet sectionStart (ofString "\n" ++ followUps) []) :
    Free sectionStart (stubSection block title followUps) := by
  have some : sectionStart ≠ [] := List.cons_ne_nil _ _
  refine @free_of_quiet _ _ _ [] ?_ some
  have note : ∃ rest, elisionStub block followUps = ofChar '_' :: rest := by
    rw [elisionStub]
    by_cases none : followUps = []
    · rw [if_pos none, if_pos none]
      exact ⟨_, rfl⟩
    · rw [if_neg none, if_neg none]
      exact ⟨_, rfl⟩
  obtain ⟨rest, begun⟩ := note
  rw [stubSection]
  refine Quiet.append ?_ (Quiet.append ?_ (Quiet.append ?_ (Quiet.append ?_
    (Quiet.append ?_ quiet))))
  · simp only [List.append_assoc]
    exact quiet_solid solid
  · simp only [List.append_assoc, begun, List.cons_append]
    refine quiet_blankLine (not_startTail solidTitle) fun begins => ?_
    cases title with
    | nil =>
        have second := (List.cons_prefix_cons.mp begins).2
        exact absurd (List.cons_prefix_cons.mp second).1 (by decide)
    | cons first title =>
        rw [List.cons_append, List.cons_prefix_cons] at begins
        refine not_startTail (fun within => solidTitle (within.trans ?_)) begins.2
        exact (List.suffix_cons first title).isInfix
  · simp only [List.append_assoc]
    exact quiet_solid solidTitle
  · rw [begun]
    refine quiet_blankLine (fun begins => ?_) fun begins => ?_
    · exact absurd (List.cons_prefix_cons.mp begins).1 (by decide)
    · exact absurd (List.cons_prefix_cons.mp begins).1 (by decide)
  · exact quiet_of_not_mem (newline_not_mem_elisionStub block followUps)

/-- A compacted section starts no other. -/
theorem free_compactPrSection (free : Free sectionStart text) (keepFollowUps : Bool) :
    Free sectionStart (compactPrSection keepFollowUps text) := by
  rw [compactPrSection_eq]
  refine free_stubSection (solid_blockOf text) (solid_titleOf text) ?_
  split
  · refine free_followUps free ?_
    exact ((partitionAt_suffix _ _).trans (partitionAt_suffix _ _)).isInfix
  · exact Quiet.cons (by decide) (quiet_nil _ _)

/-- A compacted section begins with its mark. -/
theorem marked_compactPrSection (marked : taskMarkerPrefix <+: text) (keepFollowUps : Bool) :
    taskMarkerPrefix <+: compactPrSection keepFollowUps text := by
  obtain ⟨rest, rfl⟩ := marked
  have block : blockOf (taskMarkerPrefix ++ rest) =
      taskMarkerPrefix ++ (partitionAt blankLine rest).1 :=
    congrArg Prod.fst (partitionAt_append (by decide))
  rw [compactPrSection_eq, stubSection, block, List.append_assoc]
  exact List.prefix_append _ _

end Cuts

end Orchestrator.Git
