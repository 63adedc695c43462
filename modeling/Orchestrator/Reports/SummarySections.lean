import Orchestrator.Foundation.Headed
import Orchestrator.Foundation.LineWindows
import Orchestrator.Foundation.PosixPath

/-! # The sections of a summary

A section of the operator's summary replaces the block under its heading, or stands at the end. The
heading is read as `str.splitlines` reads a line, and the body's lines end at line feeds only, so a
heading with another end of a line in it is never found again.
-/

namespace Orchestrator.Reports

open Orchestrator.Foundation
open Orchestrator.Foundation.PyText (ofString startsWith splitLines isLineEnd joinLines
  joinLines_append joinLines_singleton joinLines_cons_cons getLast_joinLines)

/-- `text.rstrip("\n")`. -/
def rstripNewlines (text : PyText) : PyText := text.rdropWhile fun point => point = 10

/-- The lines of a body, up to its blank end. -/
def bodyLines (body : PyText) : List PyText := (rstripNewlines body).splitOn 10

/-- A line that is a heading. -/
def startsHeading (line : PyText) : Bool := startsWith line (ofString "## ")

/-- The place of the next heading, or the end. -/
def nextHeading (lines : List PyText) (start : Nat) : Nat :=
  start + (lines.drop start).findIdx startsHeading

/-- A body with a section in place, unless the section has no line. -/
def upsertSection (body text : PyText) : Option PyText := do
  let heading ← (splitLines text).head?
  let lines := bodyLines body
  match lines.idxOf? heading with
  | none => return rstripNewlines body ++ [10, 10] ++ text
  | some start =>
      let tail := lines.drop (nextHeading lines (start + 1))
      let replacement := if tail.isEmpty then bodyLines text else bodyLines text ++ [[]]
      return joinLines (lines.take start ++ replacement ++ tail) ++ [10]

/-- A section of one heading line and no other, whose text ends in one newline. -/
structure SummarySection where
  heading : PyText
  content : List PyText
  isHeading : startsHeading heading = true
  single : ∀ line ∈ content, startsHeading line = false
  oneLine : ∀ line ∈ heading :: content, 10 ∉ line
  ends : (heading :: content).getLast? ≠ some []

namespace SummarySection

/-- The lines of a section. -/
def lines (part : SummarySection) : List PyText := part.heading :: part.content

/-- The text of a section. -/
def text (part : SummarySection) : PyText := joinLines part.lines ++ [10]

/-- The block of a section. -/
def block (part : SummarySection) : PyText × List PyText := (part.heading, part.content)

/-- The heading has no end of a line in it. -/
def plainHeading (part : SummarySection) : Bool := part.heading.all fun point => !isLineEnd point

end SummarySection

/-- A body after some calls. -/
def upsertAll (body : PyText) (parts : List SummarySection) : Option PyText :=
  parts.foldlM (fun body part => upsertSection body part.text) body

/-- The blocks of a body. -/
def outlineOf (body : PyText) : Outline PyText := Outline.ofLines startsHeading (bodyLines body)

/-- What calls make of a body: one block for each heading, of the last call for it, and the other
lines as they were; calls for headings that were there have no order, and the last call can be
repeated. -/
structure Upserted (body : PyText) (parts : List SummarySection) (result : PyText) : Prop where
  held : ∀ earlier part later, parts = earlier ++ part :: later →
    part.heading ∉ later.map SummarySection.heading →
      (outlineOf result).Holds [] part.heading part.content
  kept : let called := parts.map SummarySection.heading
    (outlineOf result).outside called = (outlineOf body).outside called ∨
      (outlineOf result).outside called = (outlineOf body).outside called ++ [[]]
  unordered : (parts.map SummarySection.heading).Nodup →
    (∀ part ∈ parts, part.heading ∈ bodyLines body) →
      ∀ others, others.Perm parts → upsertAll body others = some result
  repeated : ∀ part, parts.getLast? = some part → upsertSection result part.text = some result

/-! ## Lines of texts -/

section Texts

variable {lines more : List PyText} {text body : PyText} {part : SummarySection}

theorem rstripNewlines_append (filled : text.getLast? ≠ some 10) :
    rstripNewlines (text ++ [10]) = text := by
  rw [rstripNewlines, List.rdropWhile_concat_pos (fun point => decide (point = 10)) _ _
    (decide_eq_true rfl), List.rdropWhile_eq_self_iff]
  intro some same
  exact filled (by rw [List.getLast?_eq_getLast_of_ne_nil some, of_decide_eq_true same])

/-- A text without its newlines at the end does not end in one. -/
theorem getLast_rstripNewlines (text : PyText) : (rstripNewlines text).getLast? ≠ some 10 := by
  intro lastly
  have filled : rstripNewlines text ≠ [] := by
    intro none
    rw [none] at lastly
    cases lastly
  have stop := List.rdropWhile_last_not (fun point : CodePoint => decide (point = 10)) text filled
  rw [List.getLast?_eq_getLast_of_ne_nil filled] at lastly
  exact stop (decide_eq_true (Option.some.inj lastly))

/-- The lines of a text made of lines. -/
theorem bodyLines_joinLines (filled : lines ≠ []) (oneLine : ∀ line ∈ lines, 10 ∉ line)
    (ends : lines.getLast? ≠ some []) : bodyLines (joinLines lines ++ [10]) = lines := by
  rw [bodyLines, rstripNewlines_append (getLast_joinLines oneLine ends), joinLines]
  exact List.splitOn_intercalate 10 oneLine filled

theorem joinLines_bodyLines (body : PyText) : joinLines (bodyLines body) = rstripNewlines body :=
  List.intercalate_splitOn 10

theorem bodyLines_ne_nil (body : PyText) : bodyLines body ≠ [] := List.splitOn_ne_nil _ _

theorem oneLine_bodyLines {line : PyText} (among : line ∈ bodyLines body) : 10 ∉ line :=
  PosixPath.not_mem_of_mem_splitOn among

/-- The last line of a body is not blank, unless there is no other. -/
theorem bodyLines_last (body : PyText) :
    bodyLines body = [[]] ∨ (bodyLines body).getLast? ≠ some [] := by
  rcases List.eq_nil_or_concat (bodyLines body) with none | ⟨front, last, whole⟩
  · exact absurd none (bodyLines_ne_nil body)
  · rw [List.concat_eq_append] at whole
    rw [whole, List.getLast?_concat]
    by_cases blank : last = []
    · left
      by_cases none : front = []
      · rw [none, blank, List.nil_append]
      · have joined := joinLines_bodyLines body
        rw [whole, joinLines_append none (List.cons_ne_nil _ _), blank] at joined
        refine absurd ?_ (getLast_rstripNewlines body)
        rw [← joined, joinLines, joinLines, List.intercalate_singleton]
        exact List.getLast?_concat
    · exact .inr fun same => blank (Option.some.inj same)

/-- The heading that a section's text is read to have. -/
def SummarySection.readHeading (part : SummarySection) : PyText :=
  part.heading.takeWhile fun point => !isLineEnd point

theorem head_splitLines_text (part : SummarySection) :
    (splitLines part.text).head? = some part.readHeading := by
  have starts : ∃ rest, part.text = part.heading ++ 10 :: rest := by
    rw [SummarySection.text, SummarySection.lines]
    cases part.content with
    | nil => exact ⟨[], by rw [joinLines, List.intercalate_singleton]⟩
    | cons next more =>
        exact ⟨joinLines (next :: more) ++ [10], by
          rw [joinLines_cons_cons, List.append_assoc, List.append_assoc]
          rfl⟩
  obtain ⟨rest, whole⟩ := starts
  have stops : (part.heading ++ 10 :: rest).takeWhile (fun point => !isLineEnd point) =
      part.readHeading := by
    rw [List.takeWhile_append]
    split
    · rename_i same
      rw [List.takeWhile_cons, if_neg (by decide), List.append_nil]
      exact ((List.takeWhile_prefix _).eq_of_length same).symm
    · rfl
  rw [whole, PyText.head_splitLines (List.append_ne_nil_of_right_ne_nil _ (List.cons_ne_nil _ _)),
    stops]

/-- The lines of a section are the lines of its text. -/
theorem bodyLines_text (part : SummarySection) : bodyLines part.text = part.lines :=
  bodyLines_joinLines (List.cons_ne_nil _ _) part.oneLine part.ends

/-- What a call makes of a body. -/
structure Made (body : PyText) (part : SummarySection) (lines : List PyText) : Prop where
  text : upsertSection body part.text = some (joinLines lines ++ [10])
  read : bodyLines (joinLines lines ++ [10]) = lines
  changed : part.readHeading ∉ bodyLines body ∧ lines = bodyLines body ++ [[]] ++ part.lines ∨
    ∃ before after, bodyLines body = before ++ part.readHeading :: after ∧
      part.readHeading ∉ before ∧
      lines = before ++ part.lines ++
        Outline.gapBefore [] (after.dropWhile fun line => !startsHeading line) ++
        after.dropWhile fun line => !startsHeading line

/-- A heading is read with a sharp in it. -/
theorem readHeading_ne_nil (part : SummarySection) : part.readHeading ≠ [] := by
  obtain ⟨rest, whole⟩ := List.isPrefixOf_iff_prefix.mp part.isHeading
  rw [SummarySection.readHeading, ← whole]
  exact List.cons_ne_nil _ _

/-- The lines of a body and a section are read back, when the last one is not blank. -/
theorem bodyLines_made (body : PyText) (part : SummarySection) {lines : List PyText}
    (among : ∀ line ∈ lines, line ∈ bodyLines body ∨ line = [] ∨ line ∈ part.lines)
    (ends : ∃ last ≠ [], lines.getLast? = some last) :
    bodyLines (joinLines lines ++ [10]) = lines := by
  obtain ⟨last, solid, lastly⟩ := ends
  refine bodyLines_joinLines (List.ne_nil_of_mem (List.mem_of_getLast? lastly)) ?_ ?_
  · intro line inside
    rcases among line inside with inside | rfl | inside
    · exact oneLine_bodyLines inside
    · exact List.not_mem_nil
    · exact part.oneLine line inside
  · rw [lastly]
    exact fun same => solid (Option.some.inj same)

/-- The last line of a section is not blank. -/
theorem getLast_lines (part : SummarySection) : ∃ last ≠ [], part.lines.getLast? = some last := by
  have lastly := List.getLast?_eq_getLast_of_ne_nil
    (show part.lines ≠ [] from List.cons_ne_nil _ _)
  exact ⟨_, fun blank => part.ends (lastly.trans (congrArg some blank)), lastly⟩

theorem exists_split_of_idxOf? {lines : List PyText} {line : PyText} {place : Nat}
    (found : lines.idxOf? line = some place) :
    ∃ before after, lines = before ++ line :: after ∧ line ∉ before ∧ before.length = place := by
  obtain ⟨inside, named, earlier⟩ := List.idxOf?_eq_some_iff.mp found
  refine ⟨lines.take place, lines.drop (place + 1), ?_, ?_, List.length_take_of_le inside.le⟩
  · rw [← named, ← List.drop_eq_getElem_cons inside, List.take_append_drop]
  · intro among
    obtain ⟨index, below, same⟩ := List.getElem_of_mem among
    rw [List.length_take] at below
    rw [List.getElem_take] at same
    exact earlier index (by omega) same

/-- A call makes some lines. -/
theorem exists_made (body : PyText) (part : SummarySection) : ∃ lines, Made body part lines := by
  have own := bodyLines_text part
  have some := List.cons_ne_nil part.heading part.content
  obtain ⟨last, solid, lastly⟩ := getLast_lines part
  cases found : (bodyLines body).idxOf? part.readHeading with
  | none =>
      have absent := List.idxOf?_eq_none_iff.mp found
      refine ⟨bodyLines body ++ [[]] ++ part.lines, ?_,
        bodyLines_made body part ?_ ⟨last, solid, ?_⟩,
        .inl ⟨absent, rfl⟩⟩
      · have joined : joinLines (bodyLines body ++ [[]] ++ part.lines) ++ [10] =
            rstripNewlines body ++ [10, 10] ++ part.text := by
          rw [List.append_assoc, joinLines_append (bodyLines_ne_nil body)
            (List.append_ne_nil_of_left_ne_nil (List.cons_ne_nil _ _) _),
            joinLines_append (List.cons_ne_nil _ _) (show part.lines ≠ [] from some),
            joinLines_bodyLines, SummarySection.text, joinLines_singleton]
          simp only [List.append_assoc, List.cons_append, List.nil_append]
        rw [upsertSection, head_splitLines_text, joined]
        simp only [Option.bind_eq_bind, Option.bind_some, found]
        rfl
      · intro line among
        simpa only [List.mem_append, List.mem_singleton, or_assoc] using among
      · rw [List.getLast?_append, lastly]
        rfl
  | some start =>
      obtain ⟨before, after, whole, first, rfl⟩ := exists_split_of_idxOf? found
      have tails : (bodyLines body).drop (nextHeading (bodyLines body) (before.length + 1)) =
          after.dropWhile fun line => !startsHeading line := by
        have later : (bodyLines body).drop (before.length + 1) = after := by
          rw [whole, ← List.drop_drop, List.drop_left]
          rfl
        rw [nextHeading, ← List.drop_drop, later, List.dropWhile_eq_drop_findIdx_not]
        simp only [Bool.not_not]
      have front : (bodyLines body).take before.length = before := by
        rw [whole, List.take_left]
      have tail := List.dropWhile_suffix (l := after) fun line => !startsHeading line
      refine ⟨before ++ part.lines ++
        Outline.gapBefore [] (after.dropWhile fun line => !startsHeading line) ++
        after.dropWhile fun line => !startsHeading line, ?_, bodyLines_made body part ?_ ?_,
        .inr ⟨before, after, whole, first, rfl⟩⟩
      · rw [upsertSection, head_splitLines_text]
        simp only [Option.bind_eq_bind, Option.bind_some, found, tails, front, own,
          Outline.gapBefore]
        split
        · rw [List.append_nil]
          rfl
        · rw [← List.append_assoc before]
          rfl
      · intro line among
        rw [List.mem_append, List.mem_append, List.mem_append] at among
        rcases among with ((among | among) | among) | among
        · exact .inl (by rw [whole]; exact List.mem_append_left _ among)
        · exact .inr (.inr among)
        · unfold Outline.gapBefore at among
          split at among
          · cases among
          · exact .inr (.inl (List.mem_singleton.mp among))
        · refine .inl ?_
          rw [whole]
          exact List.mem_append_right _ (List.mem_cons_of_mem _ (tail.subset among))
      · rcases List.eq_nil_or_concat (after.dropWhile fun line => !startsHeading line) with
          none | ⟨others, final, later⟩
        · refine ⟨last, solid, ?_⟩
          rw [none, List.append_nil, Outline.gapBefore, List.isEmpty_nil, if_pos rfl,
            List.append_nil, List.getLast?_append, lastly]
          rfl
        · rw [List.concat_eq_append] at later
          refine ⟨final, ?_, by rw [later, ← List.append_assoc, List.getLast?_concat]⟩
          rintro rfl
          have ends : (bodyLines body).getLast? = Option.some [] := by
            obtain ⟨between, parts⟩ := tail
            rw [whole, ← parts, later, ← List.cons_append, ← List.append_assoc,
              ← List.append_assoc, List.getLast?_concat]
          rcases bodyLines_last body with blank | solid
          · rw [blank] at whole
            have named : part.readHeading ∈ [[]] := by
              rw [whole]
              exact List.mem_append_right _ List.mem_cons_self
            exact readHeading_ne_nil part (List.mem_singleton.mp named)
          · exact solid ends

/-- A plain heading is read as it is. -/
theorem readHeading_plain (plain : part.plainHeading = true) :
    part.readHeading = part.heading :=
  List.takeWhile_eq_self_iff.mpr fun point among =>
    List.all_eq_true.mp plain point among

/-- A call with a plain heading is a put. -/
theorem upsertSection_plain (plain : part.plainHeading = true) (body : PyText) :
    ∃ result, upsertSection body part.text = some result ∧
      result = joinLines (outlineOf result).lines ++ [10] ∧
      outlineOf result = (outlineOf body).put [] part.block := by
  obtain ⟨lines, made⟩ := exists_made body part
  have blank : startsHeading [] = false := rfl
  refine ⟨_, made.text, ?_, ?_⟩
  · rw [outlineOf, Outline.lines_ofLines, made.read]
  · unfold outlineOf
    rw [made.read]
    have changed := made.changed
    rw [readHeading_plain plain] at changed
    rcases changed with ⟨absent, rfl⟩ | ⟨before, after, whole, first, rfl⟩
    · exact Outline.ofLines_put_absent blank part.isHeading part.single absent
    · rw [whole]
      exact Outline.ofLines_put_present blank part.isHeading part.single first

/-- A call with another heading leaves one line more with its own. -/
theorem count_lt_of_not_plain (broken : part.plainHeading = false) (body : PyText) :
    ∃ result, upsertSection body part.text = some result ∧
      (bodyLines body).count part.heading < (bodyLines result).count part.heading := by
  obtain ⟨lines, made⟩ := exists_made body part
  refine ⟨_, made.text, ?_⟩
  rw [made.read]
  have own : 0 < part.lines.count part.heading :=
    List.count_pos_iff.mpr List.mem_cons_self
  rcases made.changed with ⟨-, rfl⟩ | ⟨before, after, whole, -, rfl⟩
  · rw [List.count_append, List.count_append]
    omega
  · have unlike : part.readHeading ≠ part.heading := by
      intro same
      have plain : part.plainHeading = true :=
        List.all_eq_true.mpr (List.takeWhile_eq_self_iff.mp same)
      rw [plain] at broken
      cases broken
    have skipped : after.count part.heading =
        (after.dropWhile fun line => !startsHeading line).count part.heading := by
      conv_lhs => rw [← List.takeWhile_append_dropWhile (p := fun line => !startsHeading line)
        (l := after), List.count_append]
      rw [List.count_eq_zero.mpr, Nat.zero_add]
      intro among
      have other := List.mem_takeWhile_imp among
      rw [part.isHeading] at other
      cases other
    rw [whole, List.count_append, List.count_append, List.count_append, List.count_append,
      List.count_cons_of_ne unlike, skipped]
    omega

end Texts

/-! ## Calls after calls -/

section Calls

variable {body : PyText} {parts : List SummarySection}

/-- The blocks of a body after calls with plain headings. -/
def putAll (outline : Outline PyText) (parts : List SummarySection) : Outline PyText :=
  parts.foldl (fun outline part => outline.put [] part.block) outline

/-- Calls with plain headings put their blocks, one after the other. -/
theorem upsertAll_plain (plain : ∀ part ∈ parts, part.plainHeading = true) (body : PyText) :
    ∃ result, upsertAll body parts = some result ∧
      outlineOf result = putAll (outlineOf body) parts ∧
      (parts ≠ [] → result = joinLines (outlineOf result).lines ++ [10]) := by
  induction parts generalizing body with
  | nil => exact ⟨body, rfl, rfl, fun some => absurd rfl some⟩
  | cons part parts ih =>
      obtain ⟨next, made, joined, put⟩ :=
        upsertSection_plain (plain part List.mem_cons_self) body
      obtain ⟨result, rest, after, read⟩ :=
        ih (fun other among => plain other (List.mem_cons_of_mem _ among)) next
      refine ⟨result, ?_, ?_, ?_⟩
      · rw [upsertAll, List.foldlM_cons, made]
        exact rest
      · rw [after, putAll, putAll, List.foldl_cons, put]
      · intro _
        by_cases none : parts = []
        · rw [none] at rest
          cases rest
          exact joined
        · exact read none

/-- Every heading stays single. -/
theorem count_putAll {heading : PyText} {outline : Outline PyText}
    (single : outline.headings.count heading ≤ 1) (parts : List SummarySection) :
    (putAll outline parts).headings.count heading ≤ 1 := by
  induction parts generalizing outline with
  | nil => exact single
  | cons part parts ih => exact ih (Outline.count_headings_put part.block single)

/-- Later calls for other headings leave a block. -/
theorem holds_putAll {heading : PyText} {content : List PyText} {outline : Outline PyText}
    (stood : outline.Holds [] heading content)
    (others : heading ∉ parts.map SummarySection.heading) :
    (putAll outline parts).Holds [] heading content := by
  induction parts generalizing outline with
  | nil => exact stood
  | cons part parts ih =>
      rw [List.map_cons, List.mem_cons, not_or] at others
      exact ih (Outline.holds_put_of_ne (Ne.symm others.1) stood) others.2

/-- The lines under none of the called headings. -/
theorem outside_putAll {called : List PyText} {kept : List PyText} {outline : Outline PyText}
    (among : ∀ part ∈ parts, part.heading ∈ called)
    (stood : outline.outside called = kept ∨ outline.outside called = kept ++ [[]] ∧
      ∃ last ∈ called, outline.headings.getLast? = some last) :
    (putAll outline parts).outside called = kept ∨
      (putAll outline parts).outside called = kept ++ [[]] := by
  induction parts generalizing outline with
  | nil => exact stood.imp_right And.left
  | cons part parts ih =>
      exact ih (fun other later => among other (List.mem_cons_of_mem _ later))
        (Outline.outside_put (among part List.mem_cons_self) stood)

/-- Calls for headings that are there refresh their blocks. -/
theorem putAll_present {outline : Outline PyText}
    (present : ∀ part ∈ parts, part.heading ∈ outline.headings) :
    putAll outline parts = ⟨outline.preamble, parts.foldl (fun blocks part =>
      Outline.refresh [] part.heading part.content blocks) outline.blocks⟩ := by
  induction parts generalizing outline with
  | nil => rfl
  | cons part parts ih =>
      have first : outline.put [] part.block =
          ⟨outline.preamble, Outline.refresh [] part.heading part.content outline.blocks⟩ :=
        if_pos (present part List.mem_cons_self)
      rw [putAll, List.foldl_cons, ← putAll, first, ih, List.foldl_cons]
      intro other among
      rw [Outline.headings, Outline.map_fst_refresh]
      exact present other (List.mem_cons_of_mem _ among)

/-- Calls for different headings that are there have no order. -/
theorem putAll_perm {outline : Outline PyText} {others : List SummarySection}
    (perm : others.Perm parts) (apart : (parts.map SummarySection.heading).Nodup)
    (present : ∀ part ∈ parts, part.heading ∈ outline.headings) :
    putAll outline others = putAll outline parts := by
  rw [putAll_present present,
    putAll_present fun part among => present part (perm.subset among)]
  congr 1
  refine perm.foldl_eq' ?_ _
  intro first inFirst second inSecond blocks
  by_cases same : first = second
  · rw [same]
  · refine Outline.refresh_comm (fun named => same ?_) _ _ _
    exact List.inj_on_of_nodup_map apart (perm.subset inFirst) (perm.subset inSecond) named.symm

theorem putAll_append (outline : Outline PyText) (earlier later : List SummarySection) :
    putAll outline (earlier ++ later) = putAll (putAll outline earlier) later :=
  List.foldl_append

/-- A heading is single in the blocks when it is on the lines. -/
theorem count_headings (part : SummarySection) (body : PyText) :
    (outlineOf body).headings.count part.heading = (bodyLines body).count part.heading := by
  rw [outlineOf, Outline.headings_ofLines, List.count_filter part.isHeading]

theorem mem_headings (part : SummarySection) (body : PyText) :
    part.heading ∈ (outlineOf body).headings ↔ part.heading ∈ bodyLines body := by
  rw [← List.count_pos_iff, count_headings, List.count_pos_iff]

/-- Calls with plain headings make what calls are for. -/
theorem upserted_plain (single : ∀ part ∈ parts, (bodyLines body).count part.heading ≤ 1)
    (plain : ∀ part ∈ parts, part.plainHeading = true) :
    ∃ result, upsertAll body parts = some result ∧ Upserted body parts result := by
  obtain ⟨result, made, put, joined⟩ := upsertAll_plain plain body
  refine ⟨result, made, ?_, ?_, ?_, ?_⟩
  · rintro earlier part later rfl others
    rw [put, putAll_append, putAll, List.foldl_cons, ← putAll]
    have single : (outlineOf body).headings.count part.heading ≤ 1 := by
      rw [count_headings]
      exact single part (List.mem_append_right _ List.mem_cons_self)
    have held : ((putAll (outlineOf body) earlier).put [] part.block).Holds [] part.heading
        part.content := Outline.holds_put (count_putAll single earlier)
    exact holds_putAll held others
  · rw [put]
    exact outside_putAll (fun part among => List.mem_map_of_mem among) (.inl rfl)
  · intro apart present others perm
    obtain ⟨other, also, after, read⟩ :=
      upsertAll_plain (fun part among => plain part (perm.subset among)) body
    rw [also]
    by_cases none : parts = []
    · subst none
      rw [perm.eq_nil] at also
      exact congrArg some (Option.some.inj (also.symm.trans made))
    · have some : others ≠ [] := fun empty => none (by
        rw [empty] at perm
        exact perm.symm.eq_nil)
      rw [read some, joined none, after, put, putAll_perm perm apart
        fun part among => (mem_headings part body).mpr (present part among)]
  · intro part last
    obtain ⟨front, rfl⟩ := List.getLast?_eq_some_iff.mp last
    have own : part ∈ front ++ [part] := List.mem_append_right _ (List.mem_singleton_self _)
    obtain ⟨again, repeated, read, after⟩ := upsertSection_plain (plain part own) result
    have twice : (outlineOf result).put [] part.block = outlineOf result := by
      rw [put, putAll_append]
      exact Outline.put_put _ _
    rw [repeated, read, after, twice, ← joined (List.ne_nil_of_mem own)]

/-- At every point of a run of calls the body is what they are for, exactly when no heading has an
end of a line in it that is no newline. -/
theorem upserted_iff (single : ∀ part ∈ parts, (bodyLines body).count part.heading ≤ 1) :
    (∀ count, ∃ result, upsertAll body (parts.take count) = some result ∧
        Upserted body (parts.take count) result) ↔
      ∀ part ∈ parts, part.plainHeading = true := by
  constructor
  · intro law part among
    by_contra broken
    obtain ⟨earlier, later, whole⟩ := List.append_of_mem among
    obtain ⟨result, -, upserted⟩ := law (earlier.length + 1)
    have upTo : parts.take (earlier.length + 1) = earlier ++ [part] := by
      rw [whole, List.take_length_add_append]
      rfl
    rw [upTo] at upserted
    have same := upserted.repeated part List.getLast?_concat
    obtain ⟨again, made, more⟩ :=
      count_lt_of_not_plain (Bool.not_eq_true _ ▸ broken) result
    rw [same] at made
    rw [Option.some.inj made] at more
    exact Nat.lt_irrefl _ more
  · intro plain count
    exact upserted_plain (fun part among => single part (List.mem_of_mem_take among))
      fun part among => plain part (List.mem_of_mem_take among)

/-- A section about cost, with a word after a line separator in its heading. -/
def brokenSection : SummarySection where
  heading := ofString "## Cost\u2028of the run"
  content := [[], ofString "- 3 USD"]
  isHeading := by decide
  single := by decide
  oneLine := by decide
  ends := by decide

/-- A section about cost. -/
def costSection : SummarySection where
  heading := ofString "## Cost"
  content := [[], ofString "- 3 USD"]
  isHeading := by decide
  single := by decide
  oneLine := by decide
  ends := by decide

/-- A summary with a section about cost. -/
def costSummary : PyText := ofString "# Done\n\n## Cost\n\n- 2 USD\n"

/-- A summary is put a section about cost, and again. -/
theorem upserted_iff_cost :
    (∀ part ∈ [costSection, costSection], (bodyLines costSummary).count part.heading ≤ 1) ∧
      ∃ result, upsertAll costSummary ([costSection, costSection].take 2) = some result ∧
        Upserted costSummary ([costSection, costSection].take 2) result :=
  ⟨by decide +kernel,
    (@upserted_iff costSummary [costSection, costSection] (by decide +kernel)).mpr
      (by decide +kernel) 2⟩

/-- A section whose heading has a line separator in it stands twice after two calls. -/
theorem not_upserted_broken :
    ¬ ∃ result, upsertAll (ofString "# Done\n") [brokenSection, brokenSection] = some result ∧
      Upserted (ofString "# Done\n") [brokenSection, brokenSection] result := by
  rintro ⟨result, made, upserted⟩
  have held := upserted.held [brokenSection] brokenSection [] rfl List.not_mem_nil
  have twice : (upsertAll (ofString "# Done\n") [brokenSection, brokenSection]).map
      (fun result => ((outlineOf result).blocks.filter
        fun block => block.1 = brokenSection.heading).length) = some 2 := by decide +kernel
  unfold Outline.Holds at held
  rw [made, Option.map_some, held, List.length_singleton] at twice
  exact absurd (Option.some.inj twice) (by decide)

end Calls

end Orchestrator.Reports
