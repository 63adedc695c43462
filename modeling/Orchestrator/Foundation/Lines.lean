import Mathlib.Data.List.DropRight
import Mathlib.Data.List.Infix
import Mathlib.Data.List.TakeWhile
import Orchestrator.Foundation.PyText

/-! # The lines of a text

A text is split at more ends than a line feed. Lines that hold none of them are split as they
were joined; a line that holds one is split there.
-/

namespace Orchestrator.Foundation.PyText

variable {start text rest : PyText} {point : CodePoint}

/-- A character that is no end stays on its line. -/
theorem keepLines_plain (plain : isLineEnd point = false) (start rest : PyText) :
    keepLines start (point :: rest) = keepLines (point :: start) rest := by
  have noReturn : point.val ≠ 13 := by
    simp only [isLineEnd, Bool.or_eq_false_iff, Bool.and_eq_false_iff, decide_eq_false_iff_not]
      at plain
    omega
  rw [keepLines.eq_def]
  dsimp only
  rw [if_neg noReturn, plain, if_neg Bool.false_ne_true]

/-- An end that is no carriage return ends a line alone. -/
theorem keepLines_end (ends : isLineEnd point = true) (single : point.val ≠ 13)
    (start rest : PyText) :
    keepLines start (point :: rest) = (point :: start).reverse :: keepLines [] rest := by
  rw [keepLines.eq_def]
  dsimp only
  rw [if_neg single, if_pos ends]

theorem keepLines_append (plain : text.all (fun point => !isLineEnd point) = true)
    (start rest : PyText) : keepLines start (text ++ rest) =
    keepLines (text.reverse ++ start) rest := by
  induction text generalizing start with
  | nil => rfl
  | cons point text ih =>
      rw [List.all_cons, Bool.and_eq_true, Bool.not_eq_true'] at plain
      rw [List.cons_append, keepLines_plain plain.1, ih plain.2, List.reverse_cons,
        List.append_assoc, List.singleton_append]

/-- A text without ends is a line with the end behind it. -/
theorem splitKeepEnds_append (plain : text.all (fun point => !isLineEnd point) = true)
    {ending : PyText} (ends : ending = [10] ∨ ending = [13, 10]) (rest : PyText) :
    splitKeepEnds (text ++ ending ++ rest) = (text ++ ending) :: splitKeepEnds rest := by
  rw [splitKeepEnds, List.append_assoc, keepLines_append plain, List.append_nil]
  rcases ends with rfl | rfl
  · have ended : keepLines text.reverse (10 :: rest) = (10 :: text.reverse).reverse ::
        keepLines [] rest := keepLines_end rfl (by decide) _ _
    rw [List.singleton_append, ended, List.reverse_cons, List.reverse_reverse]
    rfl
  · have ended : keepLines text.reverse (13 :: 10 :: rest) = (10 :: 13 :: text.reverse).reverse ::
        keepLines [] rest := by
      rw [keepLines.eq_def]
      rfl
    rw [List.cons_append, List.singleton_append, ended, List.reverse_cons, List.reverse_cons,
      List.reverse_reverse, List.append_assoc]
    rfl

/-- A text without ends is a line. -/
theorem splitLines_append (plain : text.all (fun point => !isLineEnd point) = true)
    (ends : isLineEnd point = true) (single : point.val ≠ 13) (rest : PyText) :
    splitLines (text ++ point :: rest) = text :: splitLines rest := by
  have kept : ∀ {text : PyText} (start : PyText),
      text.all (fun point => !isLineEnd point) = true →
        keepLines start (text ++ point :: rest) =
          (start.reverse ++ (text ++ [point])) :: keepLines [] rest := by
    intro text
    induction text with
    | nil =>
        intro start _
        rw [List.nil_append, keepLines_end ends single, List.reverse_cons, List.nil_append]
    | cons letter text ih =>
        intro start plain
        rw [List.all_cons, Bool.and_eq_true, Bool.not_eq_true'] at plain
        rw [List.cons_append, keepLines_plain plain.1, ih _ plain.2, List.reverse_cons,
          List.append_assoc, List.singleton_append, List.cons_append]
  have stops : (text ++ [point]).takeWhile (fun point => !isLineEnd point) = text := by
    rw [List.takeWhile_append_of_pos (List.all_eq_true.mp plain), List.takeWhile_cons, ends]
    exact List.append_nil text
  rw [splitLines, splitKeepEnds, kept [] plain, List.map_cons, List.reverse_nil, List.nil_append,
    stops]
  rfl

/-- The first line of a text ends at the first end in it. -/
theorem head_splitLines (filled : text ≠ []) :
    (splitLines text).head? = some (text.takeWhile fun point => !isLineEnd point) := by
  have first : ∀ {text : PyText} (start : PyText), (∀ point ∈ start, isLineEnd point = false) →
      start ≠ [] ∨ text ≠ [] → ∃ line more, keepLines start text = line :: more ∧
        line.takeWhile (fun point => !isLineEnd point) =
          start.reverse ++ text.takeWhile fun point => !isLineEnd point := by
    intro text
    induction text with
    | nil =>
        intro start plain filled
        refine ⟨start.reverse, [], ?_, ?_⟩
        · rw [keepLines, if_neg (filled.resolve_right fun none => none rfl)]
        · rw [List.takeWhile_nil, List.append_nil, List.takeWhile_eq_self_iff]
          intro point among
          rw [plain point (List.mem_reverse.mp among)]
          rfl
    | cons point rest ih =>
        intro start plain _
        cases ends : isLineEnd point with
        | false =>
            have longer : ∀ other ∈ point :: start, isLineEnd other = false := by
              intro other among
              rcases List.mem_cons.mp among with rfl | before
              · exact ends
              · exact plain other before
            obtain ⟨line, more, kept, front⟩ :=
              ih (point :: start) longer (.inl (List.cons_ne_nil _ _))
            refine ⟨line, more, by rw [keepLines_plain ends, kept], ?_⟩
            rw [front, List.takeWhile_cons, ends, List.reverse_cons, List.append_assoc]
            rfl
        | true =>
            have stop : ∀ after : PyText, (start.reverse ++ point :: after).takeWhile
                (fun point => !isLineEnd point) = start.reverse := by
              intro after
              rw [List.takeWhile_append_of_pos, List.takeWhile_cons, ends]
              · exact List.append_nil _
              · intro other among
                rw [plain other (List.mem_reverse.mp among)]
                rfl
            rw [List.takeWhile_cons, ends, Bool.not_true, if_neg Bool.false_ne_true,
              List.append_nil]
            by_cases single : point.val = 13
            · rw [keepLines.eq_def]
              dsimp only
              rw [if_pos single]
              cases rest with
              | nil => exact ⟨_, _, rfl, by rw [List.reverse_cons]; exact stop []⟩
              | cons next after =>
                  dsimp only
                  split
                  · refine ⟨_, _, rfl, ?_⟩
                    rw [List.reverse_cons, List.reverse_cons, List.append_assoc]
                    exact stop [next]
                  · exact ⟨_, _, rfl, by rw [List.reverse_cons]; exact stop []⟩
            · exact ⟨_, _, keepLines_end ends single _ _, by
                rw [List.reverse_cons]
                exact stop []⟩
  obtain ⟨line, more, kept, front⟩ := first [] (by
    intro point among
    cases among) (.inr filled)
  rw [splitLines, splitKeepEnds, kept, List.map_cons, front]
  rfl

/-- Ends of lines are blank. -/
theorem isSpace_of_isLineEnd (ends : isLineEnd point = true) : isSpace point = true := by
  simp only [isLineEnd, isSpace, Bool.or_eq_true, Bool.and_eq_true, decide_eq_true_eq] at ends ⊢
  omega

/-- A text without a blank at either end is stripped to itself. -/
theorem strip_eq_self {first last : CodePoint} (front : isSpace first = false)
    (back : isSpace last = false) (middle : PyText) :
    strip (first :: (middle ++ [last])) = first :: (middle ++ [last]) := by
  rw [strip, List.dropWhile_cons, if_neg (by rw [front]; exact Bool.false_ne_true),
    ← List.cons_append, List.reverse_append, List.reverse_singleton, List.singleton_append,
    List.dropWhile_cons, if_neg (by rw [back]; exact Bool.false_ne_true), ← List.singleton_append,
    List.reverse_append, List.reverse_singleton, List.reverse_reverse]

/-- A text with a character that is not blank. -/
theorem strip_ne_nil (among : point ∈ text) (solid : isSpace point = false) : strip text ≠ [] := by
  intro none
  have front : ∀ other ∈ text.dropWhile isSpace, isSpace other = true := fun other among =>
    List.dropWhile_eq_nil_iff.mp (List.reverse_eq_nil_iff.mp none) other
      (List.mem_reverse.mpr among)
  rw [← List.takeWhile_append_dropWhile (p := isSpace) (l := text), List.mem_append] at among
  have blank : isSpace point = true := by
    rcases among with before | after
    · exact List.all_eq_true.mp List.all_takeWhile point before
    · exact front point after
  rw [solid] at blank
  cases blank

/-- A text with an end in it is split there first. -/
theorem splitLines_broken (noReturn : ∀ point ∈ text, point.val ≠ 13)
    (broken : text.all (fun point => !isLineEnd point) = false) (rest : PyText) :
    ∃ more, splitLines (text ++ rest) = (text.takeWhile fun point => !isLineEnd point) :: more := by
  have parts := List.takeWhile_append_dropWhile (p := fun point => !isLineEnd point) (l := text)
  have plain : (text.takeWhile fun point => !isLineEnd point).all
      (fun point => !isLineEnd point) = true := List.all_takeWhile
  cases later : text.dropWhile fun point => !isLineEnd point with
  | nil =>
      rw [later, List.append_nil] at parts
      rw [parts, broken] at plain
      cases plain
  | cons point after =>
      have ends : isLineEnd point = true := by
        have stop := List.head_dropWhile_not (fun point => !isLineEnd point)
          (show text.dropWhile _ ≠ [] by rw [later]; exact List.cons_ne_nil _ _)
        simpa only [later, List.head_cons, Bool.not_eq_false'] using stop
      rw [later] at parts
      have single : point.val ≠ 13 := noReturn point (by
        rw [← parts]
        exact List.mem_append_right _ List.mem_cons_self)
      refine ⟨splitLines (after ++ rest), ?_⟩
      conv_lhs => rw [← parts]
      rw [List.append_assoc, List.cons_append]
      exact splitLines_append plain ends single _

theorem keepLines_next (start : PyText) (point next : CodePoint) (after : PyText) :
    keepLines start (point :: next :: after) =
      if point.val = 13 then
        if next.val = 10 then (next :: point :: start).reverse :: keepLines [] after
        else (point :: start).reverse :: keepLines [] (next :: after)
      else if isLineEnd point then (point :: start).reverse :: keepLines [] (next :: after)
      else keepLines (point :: start) (next :: after) := by
  rw [keepLines.eq_def]

/-- The lines of a text whose first part ends with a line feed. -/
theorem keepLines_newline : ∀ start text rest : PyText,
    keepLines start (text ++ 10 :: rest) = keepLines start (text ++ [10]) ++ keepLines [] rest
  | start, [], rest => by
      have ends : isLineEnd 10 = true := by decide
      have single : (10 : CodePoint).val ≠ 13 := by decide
      rw [List.nil_append, List.nil_append, keepLines_end ends single, keepLines_end ends single]
      rfl
  | start, [point], rest => by
      by_cases back : point.val = 13
      · simp only [List.cons_append, List.nil_append, keepLines, back, if_true]
        rfl
      · have next := keepLines_newline (point :: start) [] rest
        have fresh := keepLines_newline [] [] rest
        simp only [List.nil_append] at next fresh
        rw [List.cons_append, List.cons_append, List.nil_append, List.nil_append, keepLines_next,
          keepLines_next, if_neg back, if_neg back]
        by_cases ends : isLineEnd point
        · rw [if_pos ends, if_pos ends, fresh, List.cons_append]
        · rw [if_neg ends, if_neg ends, next]
  | start, point :: second :: text, rest => by
      have tail := keepLines_newline [] text rest
      have whole := keepLines_newline [] (second :: text) rest
      have later := keepLines_newline (point :: start) (second :: text) rest
      simp only [List.cons_append] at whole later ⊢
      rw [keepLines_next, keepLines_next]
      by_cases back : point.val = 13
      · rw [if_pos back, if_pos back]
        by_cases feed : second.val = 10
        · rw [if_pos feed, if_pos feed, tail, List.cons_append]
        · rw [if_neg feed, if_neg feed, whole, List.cons_append]
      · rw [if_neg back, if_neg back]
        by_cases ends : isLineEnd point
        · rw [if_pos ends, if_pos ends, whole, List.cons_append]
        · rw [if_neg ends, if_neg ends, later]
  termination_by _ text => text.length

theorem splitLines_newline (text rest : PyText) :
    splitLines (text ++ 10 :: rest) = splitLines (text ++ [10]) ++ splitLines rest := by
  rw [splitLines, splitKeepEnds, keepLines_newline, List.map_append]
  rfl

/-- Changing the ends of lines goes line by line. -/
theorem newlinesFrom_newline (line rest : PyText) (afterReturn : Bool) :
    newlinesFrom afterReturn (line ++ 10 :: rest) =
      newlinesFrom afterReturn (line ++ [10]) ++ newlinesFrom false rest := by
  induction line generalizing afterReturn with
  | nil =>
      cases afterReturn with
      | true => rfl
      | false => rfl
  | cons point line ih =>
      rw [List.cons_append, List.cons_append, newlinesFrom, newlinesFrom, ih, ih]
      split
      · rfl
      · split <;> rfl

/-- A text whose last line is ended ends so when its ends are changed. -/
theorem newlinesFrom_ends (line : PyText) (afterReturn : Bool) :
    afterReturn = true ∧ newlinesFrom afterReturn (line ++ [10]) = [] ∨
      ∃ front, newlinesFrom afterReturn (line ++ [10]) = front ++ [10] := by
  induction line generalizing afterReturn with
  | nil =>
      cases afterReturn with
      | true => exact .inl ⟨rfl, rfl⟩
      | false => exact .inr ⟨[], rfl⟩
  | cons point line ih =>
      right
      rw [List.cons_append, newlinesFrom]
      have later : ∃ front, newlinesFrom false (line ++ [10]) = front ++ [10] :=
        (ih false).resolve_left fun wrong => Bool.false_ne_true wrong.1
      obtain ⟨front, whole⟩ := later
      split
      · rcases ih true with ⟨-, none⟩ | ⟨front, whole⟩
        · exact ⟨[], by rw [none]; rfl⟩
        · exact ⟨10 :: front, by rw [whole, List.cons_append]⟩
      · split
        · exact ⟨front, whole⟩
        · exact ⟨point :: front, by rw [whole, List.cons_append]⟩

/-- The lines of a text in text mode, when its first part is a line. -/
theorem splitLines_universalNewlines (line rest : PyText) :
    splitLines (universalNewlines (line ++ 10 :: rest)) =
      splitLines (universalNewlines (line ++ [10])) ++ splitLines (universalNewlines rest) := by
  obtain ⟨front, whole⟩ := (newlinesFrom_ends line false).resolve_left
    fun wrong => Bool.false_ne_true wrong.1
  unfold universalNewlines
  rw [newlinesFrom_newline, whole, List.append_assoc, List.singleton_append, splitLines_newline]

/-- A blank at the end of a text is stripped. -/
theorem strip_concat (space : isSpace point = true) (text : PyText) :
    strip (text ++ [point]) = strip text := by
  unfold strip
  rw [List.dropWhile_append]
  split
  · rename_i empty
    rw [List.isEmpty_iff.mp empty, List.dropWhile_cons, if_pos space]
    rfl
  · rw [List.reverse_append, List.reverse_singleton, List.singleton_append, List.dropWhile_cons,
      if_pos space]

end Orchestrator.Foundation.PyText

/-! ## Lines in text mode

Text mode ends a line at a carriage return too. A line that is written with carriage returns in it
is read as several: the first has its start, and each of the others stands behind a carriage return.
-/

namespace Orchestrator.Foundation.PyText

/-- The lines of a text as text mode reads them. -/
def textLines (text : PyText) : List PyText := (universalNewlines text).splitOn 10

/-- The lines that one written line is read as. -/
def returnParts : PyText → List PyText
  | [] => [[]]
  | point :: rest =>
      if point = 13 then if rest.isEmpty then [[]] else [] :: returnParts rest
      else (returnParts rest).modifyHead (point :: ·)

theorem returnParts_ne_nil (line : PyText) : returnParts line ≠ [] := by
  induction line with
  | nil => exact List.cons_ne_nil _ _
  | cons point rest ih =>
      rw [returnParts]
      split
      · split
        · exact List.cons_ne_nil _ _
        · exact List.cons_ne_nil _ _
      · cases parts : returnParts rest with
        | nil => exact absurd parts ih
        | cons _ _ => exact List.cons_ne_nil _ _

/-- The first part has the start of the line. -/
theorem returnParts_cons {point : CodePoint} (plain : point ≠ 13) (rest : PyText) :
    ∃ head tail, returnParts rest = head :: tail ∧
      returnParts (point :: rest) = (point :: head) :: tail := by
  obtain ⟨head, tail, parts⟩ := List.exists_cons_of_ne_nil (returnParts_ne_nil rest)
  exact ⟨head, tail, parts, by rw [returnParts, if_neg plain, parts, List.modifyHead_cons]⟩

/-- A line without carriage returns is one line. -/
theorem returnParts_plain {line : PyText} (plain : 13 ∉ line) : returnParts line = [line] := by
  induction line with
  | nil => rfl
  | cons point rest ih =>
      rw [List.mem_cons, not_or] at plain
      rw [returnParts, if_neg (Ne.symm plain.1), ih plain.2, List.modifyHead_cons]

/-- The other parts stand behind a carriage return. -/
theorem returnParts_tail {line part : PyText} (among : part ∈ (returnParts line).tail) :
    13 :: part <:+: line := by
  have starts (line : PyText) : ∀ head tail, returnParts line = head :: tail →
      head <+: line := by
    induction line with
    | nil =>
        rintro head tail ⟨rfl, rfl⟩
        exact List.prefix_rfl
    | cons point rest ih =>
        intro head tail parts
        rw [returnParts] at parts
        split at parts
        · split at parts
          · cases parts
            exact List.nil_prefix
          · cases parts
            exact List.nil_prefix
        · obtain ⟨first, others, found⟩ := List.exists_cons_of_ne_nil (returnParts_ne_nil rest)
          rw [found, List.modifyHead_cons] at parts
          cases parts
          exact List.cons_prefix_cons.mpr ⟨rfl, ih first _ found⟩
  induction line with
  | nil => cases among
  | cons point rest ih =>
      rw [returnParts] at among
      split at among
      · next ends =>
        split at among
        · cases among
        · rw [List.tail_cons] at among
          obtain ⟨first, others, found⟩ := List.exists_cons_of_ne_nil (returnParts_ne_nil rest)
          rw [found] at among
          rcases List.mem_cons.mp among with rfl | later
          · rw [ends]
            exact (List.cons_prefix_cons.mpr ⟨rfl, starts rest _ _ found⟩).isInfix
          · have inside := ih (by rw [found]; exact later)
            exact inside.trans (List.suffix_cons point rest).isInfix
      · obtain ⟨first, others, found⟩ := List.exists_cons_of_ne_nil (returnParts_ne_nil rest)
        rw [found, List.modifyHead_cons, List.tail_cons] at among
        have inside := ih (by rw [found]; exact among)
        exact inside.trans (List.suffix_cons point rest).isInfix

/-- Text mode reads a written line as its parts. -/
theorem textLines_line {line : PyText} (oneLine : 10 ∉ line) (rest : PyText) :
    textLines (line ++ 10 :: rest) = returnParts line ++ textLines rest := by
  have newline (text : PyText) : (10 :: text : PyText).splitOn 10 = [] :: text.splitOn 10 := by
    rw [List.splitOn_cons_eq_if_modifyHead, if_pos (beq_self_eq_true _)]
  have other {point : CodePoint} (plain : point ≠ 10) (text : PyText) :
      (point :: text).splitOn 10 = (text.splitOn 10).modifyHead (point :: ·) := by
    rw [List.splitOn_cons_eq_if_modifyHead, if_neg (mt beq_iff_eq.mp plain)]
  induction line with
  | nil => exact newline _
  | cons point line ih =>
      rw [List.mem_cons, not_or] at oneLine
      have after := ih oneLine.2
      rw [textLines, universalNewlines] at after ⊢
      rw [returnParts, List.cons_append, newlinesFrom]
      split
      · next value =>
        have ends : point = 13 := Fin.ext value
        rw [if_pos ends, newline]
        cases line with
        | nil =>
            rw [List.isEmpty_nil, if_pos rfl]
            rfl
        | cons next others =>
            have same : newlinesFrom true (next :: others ++ 10 :: rest) =
                newlinesFrom false (next :: others ++ 10 :: rest) := by
              have plain : ¬ next.val = 10 := fun value =>
                oneLine.2 (List.mem_cons.mpr (.inl (Fin.ext value.symm)))
              rw [List.cons_append, newlinesFrom, newlinesFrom, Bool.true_and, Bool.false_and,
                if_neg (mt of_decide_eq_true plain), if_neg Bool.false_ne_true]
            rw [same, after, List.isEmpty_cons, if_neg Bool.false_ne_true]
            rfl
      · next value =>
        have plain : point ≠ 13 := fun same => value (congrArg Fin.val same)
        rw [if_neg plain, Bool.false_and, if_neg Bool.false_ne_true, other (Ne.symm oneLine.1),
          after]
        cases parts : returnParts line with
        | nil => exact absurd parts (returnParts_ne_nil line)
        | cons head tail => rfl

end Orchestrator.Foundation.PyText

/-! ## Fields of a text

The parts of a text between its gaps, and the text that has one space for each gap. Wherever that
text is cut at a space, neither side has a gap at the cut.
-/

namespace Orchestrator.Foundation

variable {α : Type} (gap : α → Bool)

/-- The parts between gaps. -/
def fields (text : List α) : List (List α) :=
  (text.splitOnP gap).filter fun part => !part.isEmpty

/-- The parts with one space between them. -/
def respace (space : α) (text : List α) : List α := [space].intercalate (fields gap text)

variable {gap}

theorem gap_of_mem_splitOnP {text part : List α} (among : part ∈ text.splitOnP gap) :
    ∀ point ∈ part, gap point = false := by
  induction text generalizing part with
  | nil =>
      cases List.mem_singleton.mp among
      exact fun _ none => absurd none List.not_mem_nil
  | cons first rest ih =>
      rw [List.splitOnP_cons_eq_if_modifyHead] at among
      cases gaps : gap first with
      | true =>
          rw [if_pos gaps] at among
          rcases List.mem_cons.mp among with rfl | later
          · exact fun _ none => absurd none List.not_mem_nil
          · exact ih later
      | false =>
          rw [if_neg (Bool.eq_false_iff.mp gaps)] at among
          cases split : rest.splitOnP gap with
          | nil => exact absurd split (List.splitOnP_ne_nil gap rest)
          | cons head tail =>
              rw [split, List.modifyHead_cons] at among
              rcases List.mem_cons.mp among with rfl | later
              · exact List.forall_mem_cons.mpr ⟨gaps, ih (split ▸ List.mem_cons_self)⟩
              · exact ih (split ▸ List.mem_cons_of_mem _ later)

/-- A field is not empty and has no gap. -/
theorem mem_fields {text field : List α} (among : field ∈ fields gap text) :
    field ≠ [] ∧ ∀ point ∈ field, gap point = false := by
  obtain ⟨split, filled⟩ := List.mem_filter.mp among
  refine ⟨fun none => ?_, gap_of_mem_splitOnP split⟩
  rw [none] at filled
  cases filled

/-- Both sides of a cut have something, and no gap at the cut. -/
structure CleanCut (gap : α → Bool) (before after : List α) : Prop where
  before_ne : before ≠ []
  after_ne : after ≠ []
  ends : before.rdropWhile gap = before
  starts : after.dropWhile gap = after

/-- A part without gaps is whole at its end. -/
theorem rdropWhile_of_no_gap {field : List α} (plain : ∀ point ∈ field, gap point = false) :
    field.rdropWhile gap = field := by
  rw [List.rdropWhile_eq_self_iff]
  intro filled
  rw [plain _ (List.getLast_mem filled)]
  exact Bool.false_ne_true

theorem dropWhile_append_of_no_gap {field : List α} (filled : field ≠ [])
    (plain : ∀ point ∈ field, gap point = false) (rest : List α) :
    (field ++ rest).dropWhile gap = field ++ rest := by
  cases field with
  | nil => exact absurd rfl filled
  | cons first others =>
      rw [List.cons_append, List.dropWhile_cons_of_neg]
      rw [plain first List.mem_cons_self]
      exact Bool.false_ne_true

theorem rdropWhile_append_of_ne {front back : List α} (filled : back ≠ [])
    (whole : back.rdropWhile gap = back) : (front ++ back).rdropWhile gap = front ++ back := by
  rw [List.rdropWhile_eq_self_iff] at whole ⊢
  intro _
  rw [List.getLast_append_of_ne_nil _ filled]
  exact whole filled

/-- Joined fields start with a field. -/
theorem intercalate_starts (space : α) {word : List α} (more : List (List α)) (filled : word ≠ [])
    (solid : ∀ point ∈ word, gap point = false) :
    [space].intercalate (word :: more) ≠ [] ∧
      ([space].intercalate (word :: more)).dropWhile gap = [space].intercalate (word :: more) := by
  have starts : ∃ rest, [space].intercalate (word :: more) = word ++ rest := by
    cases more with
    | nil => exact ⟨[], by rw [List.intercalate_singleton, List.append_nil]⟩
    | cons next others =>
        exact ⟨_, by rw [List.intercalate_cons_cons, List.append_assoc]⟩
  obtain ⟨rest, same⟩ := starts
  rw [same]
  refine ⟨List.append_ne_nil_of_left_ne_nil filled _, ?_⟩
  exact dropWhile_append_of_no_gap filled solid rest

/-- A cut outside a first part is after it. -/
theorem front_of_cut {word rest front back : List α} {point : α} (outside : point ∉ word)
    (cut : word ++ rest = front ++ point :: back) :
    ∃ middle, front = word ++ middle ∧ rest = middle ++ point :: back := by
  rcases List.append_eq_append_iff.mp cut with later | ⟨middle, inside, tail⟩
  · exact later
  · cases middle with
    | nil =>
        rw [List.append_nil] at inside
        exact ⟨[], by rw [List.append_nil, inside], tail.symm⟩
    | cons first others =>
        obtain ⟨rfl, -⟩ := List.cons.inj tail
        rw [inside] at outside
        exact absurd (List.mem_append_right _ List.mem_cons_self) outside

/-- Fields joined by a space are cut cleanly at every gap, and every gap is the space. -/
theorem cleanCut_intercalate {space : α} {words : List (List α)}
    (plain : ∀ word ∈ words, word ≠ [] ∧ ∀ point ∈ word, gap point = false)
    {front back : List α} {point : α} (gaps : gap point = true)
    (cut : [space].intercalate words = front ++ point :: back) :
    point = space ∧ CleanCut gap front back := by
  induction words generalizing front with
  | nil => exact absurd cut.symm (List.append_ne_nil_of_right_ne_nil _ (List.cons_ne_nil _ _))
  | cons word rest ih =>
      obtain ⟨⟨filled, solid⟩, others⟩ := List.forall_mem_cons.mp plain
      have outside : point ∉ word := fun inside => by
        rw [solid point inside] at gaps
        cases gaps
      cases rest with
      | nil =>
          rw [List.intercalate_singleton] at cut
          rw [cut] at outside
          exact absurd (List.mem_append_right _ List.mem_cons_self) outside
      | cons next more =>
          rw [List.intercalate_cons_cons, List.append_assoc, List.singleton_append] at cut
          obtain ⟨middle, rfl, tail⟩ := front_of_cut outside cut
          cases middle with
          | nil =>
              obtain ⟨rfl, rfl⟩ := List.cons.inj tail
              obtain ⟨nextFilled, nextSolid⟩ := others next List.mem_cons_self
              obtain ⟨after, starts⟩ := intercalate_starts space more nextFilled nextSolid
              rw [List.append_nil]
              exact ⟨rfl, filled, after, rdropWhile_of_no_gap solid, starts⟩
          | cons first later =>
              obtain ⟨rfl, same⟩ := List.cons.inj tail
              obtain ⟨named, inner⟩ := ih others same
              refine ⟨named, ?_, inner.after_ne, ?_, inner.starts⟩
              · exact List.append_ne_nil_of_left_ne_nil filled _
              · rw [List.append_cons]
                exact rdropWhile_append_of_ne inner.before_ne inner.ends

/-- A text with one space for each gap is cut cleanly at every space. -/
theorem cleanCut_respace {space : α} (gaps : gap space = true) {text front back : List α}
    (cut : respace gap space text = front ++ space :: back) : CleanCut gap front back :=
  (cleanCut_intercalate (fun _ among => mem_fields among) gaps cut).2

end Orchestrator.Foundation
