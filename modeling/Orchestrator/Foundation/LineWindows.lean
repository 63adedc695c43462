import Mathlib.Data.List.Count
import Orchestrator.Foundation.Lines

/-! # Parts of a text and the lines they start on

A part of joined lines starts on a line exactly when it is in the window from that line on that is
as high as the part. What `str.splitlines` makes of a text are its lines when no other end is in it,
except for one at the very end; else it makes more of them.
-/

namespace Orchestrator.Foundation.PyText

/-- `"\n".join(lines)`. -/
def joinLines (lines : List PyText) : PyText := [10].intercalate lines

section Joined

variable {lines more : List PyText} {part text : PyText}

theorem joinLines_singleton (line : PyText) : joinLines [line] = line :=
  List.intercalate_singleton

theorem joinLines_cons_cons (line next : PyText) (more : List PyText) :
    joinLines (line :: next :: more) = line ++ [10] ++ joinLines (next :: more) :=
  List.intercalate_cons_cons

theorem joinLines_append (filled : lines ≠ []) (others : more ≠ []) :
    joinLines (lines ++ more) = joinLines lines ++ 10 :: joinLines more := by
  obtain ⟨next, rest, rfl⟩ := List.exists_cons_of_ne_nil others
  induction lines with
  | nil => exact absurd rfl filled
  | cons line lines ih =>
      cases lines with
      | nil =>
          rw [List.singleton_append, joinLines_cons_cons, List.append_assoc, joinLines_singleton]
          rfl
      | cons second lines =>
          have later := ih (List.cons_ne_nil _ _)
          rw [List.cons_append] at later ⊢
          rw [List.cons_append, joinLines_cons_cons, later, ← List.append_assoc,
            ← joinLines_cons_cons]

/-- A joined text does not end in a newline when its last line is not blank. -/
theorem getLast_joinLines (oneLine : ∀ line ∈ lines, 10 ∉ line) (ends : lines.getLast? ≠ some []) :
    (joinLines lines).getLast? ≠ some 10 := by
  rcases List.eq_nil_or_concat lines with rfl | ⟨front, last, rfl⟩
  · exact Option.some_ne_none _ ∘ Eq.symm
  · rw [List.concat_eq_append] at oneLine ends ⊢
    rw [List.getLast?_concat] at ends
    have filled : last ≠ [] := fun none => ends (congrArg some none)
    have among : last ∈ front ++ [last] := List.mem_append_right _ (List.mem_singleton_self _)
    have plain : last.getLast? ≠ some 10 := fun same =>
      oneLine last among (List.mem_of_getLast? same)
    by_cases none : front = []
    · rw [none, List.nil_append, joinLines, List.intercalate_singleton]
      exact plain
    · rw [joinLines_append none (List.cons_ne_nil _ _), ← List.singleton_append,
        ← List.append_assoc, joinLines, joinLines, List.intercalate_singleton,
        List.getLast?_append_of_ne_nil _ filled]
      exact plain

/-- A part stands in a text from a line on, the first one having number zero. -/
def StartsOn (text part : PyText) (line : Nat) : Prop :=
  ∃ before after, text = before ++ part ++ after ∧ before.count 10 = line

/-- Some lines from one on. -/
def window (lines : List PyText) (start span : Nat) : PyText :=
  joinLines ((lines.drop start).take span)

theorem contains_iff (text part : PyText) : contains text part = true ↔ part <:+: text := by
  rw [contains, List.any_eq_true]
  constructor
  · rintro ⟨rest, among, starts⟩
    exact (List.isPrefixOf_iff_prefix.mp starts).isInfix.trans
      ((List.mem_tails rest text).mp among).isInfix
  · rintro ⟨before, after, whole⟩
    refine ⟨part ++ after, (List.mem_tails _ _).mpr ⟨before, ?_⟩,
      List.isPrefixOf_iff_prefix.mpr (List.prefix_append _ _)⟩
    rw [← whole, List.append_assoc]

/-- Joined lines have at most as many newlines as there are gaps between them. -/
theorem count_joinLines_le (plain : ∀ line ∈ lines, 10 ∉ line) {gaps : Nat}
    (few : lines.length ≤ gaps + 1) : (joinLines lines).count 10 ≤ gaps := by
  induction lines generalizing gaps with
  | nil => exact Nat.zero_le _
  | cons line lines ih =>
      have none := List.count_eq_zero_of_not_mem (plain line List.mem_cons_self)
      cases lines with
      | nil =>
          rw [joinLines_singleton, none]
          exact Nat.zero_le _
      | cons second lines =>
          obtain ⟨fewer, rfl⟩ : ∃ fewer, gaps = fewer + 1 := ⟨gaps - 1, by
            simp only [List.length_cons] at few
            omega⟩
          have rest := ih (fun other among => plain other (List.mem_cons_of_mem _ among))
            (show (second :: lines).length ≤ fewer + 1 from Nat.le_of_succ_le_succ few)
          rw [joinLines_cons_cons, List.count_append, List.count_append, none,
            List.count_singleton_self]
          omega

/-- The first lines start the joined lines. -/
theorem joinLines_take_prefix (lines : List PyText) (span : Nat) :
    joinLines (lines.take span) <+: joinLines lines := by
  induction lines generalizing span with
  | nil =>
      rw [List.take_nil]
  | cons line lines ih =>
      cases span with
      | zero => exact List.nil_prefix
      | succ span =>
          rw [List.take_succ_cons]
          cases lines with
          | nil => rw [List.take_nil]
          | cons second lines =>
              cases span with
              | zero =>
                  rw [List.take_zero, joinLines_singleton, joinLines_cons_cons, List.append_assoc]
                  exact List.prefix_append _ _
              | succ span =>
                  have rest := ih (span + 1)
                  rw [List.take_succ_cons] at rest ⊢
                  rw [joinLines_cons_cons, joinLines_cons_cons]
                  exact (List.prefix_append_right_inj _).mpr rest

/-- A start of joined lines with few newlines is a start of the first of them. -/
theorem prefix_joinLines_take (plain : ∀ line ∈ lines, 10 ∉ line) {start : PyText} {gaps : Nat}
    (starts : start <+: joinLines lines) (few : start.count 10 ≤ gaps) :
    start <+: joinLines (lines.take (gaps + 1)) := by
  induction lines generalizing start gaps with
  | nil =>
      rw [List.take_nil]
      exact starts
  | cons line lines ih =>
      rw [List.take_succ_cons]
      cases lines with
      | nil =>
          rw [List.take_nil]
          exact starts
      | cons second lines =>
          rw [joinLines_cons_cons, List.append_assoc] at starts
          rcases List.prefix_or_prefix_of_prefix starts (List.prefix_append _ _) with
            short | ⟨rest, rfl⟩
          · cases gaps with
            | zero =>
                rw [List.take_zero, joinLines_singleton]
                exact short
            | succ gaps =>
                rw [List.take_succ_cons, joinLines_cons_cons, List.append_assoc]
                exact short.trans (List.prefix_append _ _)
          · rw [List.prefix_append_right_inj] at starts
            cases rest with
            | nil =>
                rw [List.append_nil]
                cases gaps with
                | zero => rw [List.take_zero, joinLines_singleton]
                | succ gaps =>
                    rw [List.take_succ_cons, joinLines_cons_cons, List.append_assoc]
                    exact List.prefix_append _ _
            | cons point rest =>
                rw [List.singleton_append, List.cons_prefix_cons] at starts
                obtain ⟨rfl, later⟩ := starts
                rw [List.count_append, List.count_cons_self] at few
                cases gaps with
                | zero => omega
                | succ gaps =>
                    have inside := ih (fun other among =>
                      plain other (List.mem_cons_of_mem _ among)) later
                      (show rest.count 10 ≤ gaps by omega)
                    rw [List.take_succ_cons] at inside ⊢
                    rw [joinLines_cons_cons, List.append_assoc, List.prefix_append_right_inj,
                      List.singleton_append, List.cons_prefix_cons]
                    exact ⟨rfl, inside⟩

/-- A part that starts after a line starts in the lines after it. -/
theorem startsOn_succ {line rest : PyText} (plain : 10 ∉ line) (index : Nat) :
    StartsOn (line ++ [10] ++ rest) part (index + 1) ↔ StartsOn rest part index := by
  constructor
  · rintro ⟨before, after, whole, count⟩
    rw [List.append_assoc, List.append_assoc] at whole
    have among : 10 ∈ before := List.count_pos_iff.mp (by omega)
    rcases List.append_eq_append_iff.mp whole with ⟨more, split, later⟩ | ⟨more, split, later⟩
    · cases more with
      | nil =>
          rw [split, List.append_nil] at among
          exact absurd among plain
      | cons point more =>
          rw [List.singleton_append, List.cons_append, List.cons.injEq] at later
          obtain ⟨rfl, later⟩ := later
          rw [split, List.count_append, List.count_cons_self,
            List.count_eq_zero_of_not_mem plain] at count
          exact ⟨more, after, by rw [later, List.append_assoc], by omega⟩
    · refine absurd ?_ plain
      rw [split]
      exact List.mem_append_left _ among
  · rintro ⟨before, after, rfl, rfl⟩
    refine ⟨line ++ [10] ++ before, after, by simp only [List.append_assoc], ?_⟩
    rw [List.count_append, List.count_append, List.count_eq_zero_of_not_mem plain,
      List.count_singleton_self]
    omega

/-- A part starts on a line exactly when the window from it on holds it. -/
theorem startsOn_iff_window (plain : ∀ line ∈ lines, 10 ∉ line) {index : Nat}
    (within : index < lines.length) :
    StartsOn (joinLines lines) part index ↔ part <:+: window lines index (part.count 10 + 1) := by
  induction index generalizing lines with
  | zero =>
      rw [window, List.drop_zero]
      constructor
      · rintro ⟨before, after, whole, count⟩
        have starts : before ++ part <+: joinLines lines := ⟨after, whole.symm⟩
        have inside := prefix_joinLines_take plain starts
          (show (before ++ part).count 10 ≤ part.count 10 by
            rw [List.count_append, count, Nat.zero_add])
        exact (List.suffix_append before part).isInfix.trans inside.isInfix
      · rintro ⟨before, after, whole⟩
        obtain ⟨rest, joined⟩ := joinLines_take_prefix lines (part.count 10 + 1)
        have few : (joinLines (lines.take (part.count 10 + 1))).count 10 ≤ part.count 10 :=
          count_joinLines_le (fun line among => plain line (List.mem_of_mem_take among)) (by
            rw [List.length_take]
            exact Nat.min_le_left _ _)
        rw [← whole, List.count_append, List.count_append] at few
        exact ⟨before, after ++ rest, by rw [← joined, ← whole, List.append_assoc], by omega⟩
  | succ index ih =>
      obtain ⟨line, rest, rfl⟩ := List.exists_cons_of_length_pos (Nat.zero_lt_of_lt within)
      have shorter : index < rest.length := Nat.lt_of_succ_lt_succ within
      obtain ⟨second, others, rfl⟩ := List.exists_cons_of_length_pos (Nat.zero_lt_of_lt shorter)
      rw [joinLines_cons_cons, startsOn_succ (plain line List.mem_cons_self),
        ih (fun other among => plain other (List.mem_cons_of_mem _ among)) shorter, window, window,
        List.drop_succ_cons]

end Joined

/-! ## Lines of a text -/

section Lines

variable {text part : PyText}

/-- The number of lines of a text: its newlines, and a last line that none ends. -/
def lineCount (text : PyText) : Nat :=
  text.count 10 + if text.getLast?.all (· = 10) then 0 else 1

/-- A text without an end of a line is a line, unless it is empty. -/
theorem splitLines_plain (filled : text ≠ [])
    (plain : text.all (fun point => !isLineEnd point) = true) : splitLines text = [text] := by
  have kept : ∀ {text : PyText} (start : PyText), start ≠ [] ∨ text ≠ [] →
      text.all (fun point => !isLineEnd point) = true →
        keepLines start text = [start.reverse ++ text] := by
    intro text
    induction text with
    | nil =>
        intro start filled _
        rw [keepLines, if_neg (filled.resolve_right fun none => none rfl), List.append_nil]
    | cons point text ih =>
        intro start _ plain
        rw [List.all_cons, Bool.and_eq_true, Bool.not_eq_true'] at plain
        rw [keepLines_plain plain.1, ih _ (.inl (List.cons_ne_nil _ _)) plain.2,
          List.reverse_cons, List.append_assoc, List.singleton_append]
  rw [splitLines, splitKeepEnds, kept [] (.inr filled) plain, List.map_singleton,
    List.reverse_nil, List.nil_append, List.takeWhile_eq_self_iff.mpr]
  exact List.all_eq_true.mp plain

/-- A text without carriage returns is a line, or starts with a line and its end. -/
theorem line_cases (noReturn : ∀ point ∈ text, point.val ≠ 13) :
    text.all (fun point => !isLineEnd point) = true ∨
      ∃ front point rest, text = front ++ point :: rest ∧
        front.all (fun point => !isLineEnd point) = true ∧ isLineEnd point = true ∧
        splitLines text = front :: splitLines rest := by
  have parts := List.takeWhile_append_dropWhile (p := fun point => !isLineEnd point) (l := text)
  have plain : (text.takeWhile fun point => !isLineEnd point).all
      (fun point => !isLineEnd point) = true := List.all_takeWhile
  cases later : text.dropWhile fun point => !isLineEnd point with
  | nil =>
      rw [later, List.append_nil] at parts
      rw [parts] at plain
      exact .inl plain
  | cons point rest =>
      have ends : isLineEnd point = true := by
        have stop := List.head_dropWhile_not (fun point => !isLineEnd point)
          (show text.dropWhile _ ≠ [] by rw [later]; exact List.cons_ne_nil _ _)
        simpa only [later, List.head_cons, Bool.not_eq_false'] using stop
      rw [later] at parts
      have single : point.val ≠ 13 := noReturn point (by
        rw [← parts]
        exact List.mem_append_right _ List.mem_cons_self)
      refine .inr ⟨_, point, rest, parts.symm, plain, ends, ?_⟩
      conv_lhs => rw [← parts]
      exact splitLines_append plain ends single rest

/-- The lines with their ends are the text. -/
theorem flatten_keepLines (start text : PyText) :
    (keepLines start text).flatten = start.reverse ++ text := by
  fun_induction keepLines start text with
  | case1 => rfl
  | case2 start _ => rw [List.flatten_singleton, List.append_nil]
  | case3 start point _ => rw [List.flatten_singleton, List.reverse_cons]
  | case4 start point _ next after _ ih =>
      rw [List.flatten_cons, ih, List.reverse_cons, List.reverse_cons]
      simp only [List.append_assoc, List.cons_append, List.nil_append, List.reverse_nil]
  | case5 start point _ next after _ ih =>
      rw [List.flatten_cons, ih, List.reverse_cons]
      simp only [List.append_assoc, List.cons_append, List.nil_append, List.reverse_nil]
  | case6 start point rest _ _ ih =>
      rw [List.flatten_cons, ih, List.reverse_cons]
      simp only [List.append_assoc, List.cons_append, List.nil_append, List.reverse_nil]
  | case7 start point rest _ _ ih =>
      rw [ih, List.reverse_cons, List.append_assoc, List.singleton_append]

/-- The characters of the lines are those of the text. -/
theorem mem_of_mem_splitLines {line : PyText} {point : CodePoint} (listed : line ∈ splitLines text)
    (among : point ∈ line) : point ∈ text := by
  obtain ⟨whole, found, rfl⟩ := List.mem_map.mp listed
  have parts := flatten_keepLines [] text
  rw [List.reverse_nil, List.nil_append] at parts
  rw [← parts]
  exact List.mem_flatten_of_mem found ((List.takeWhile_prefix _).subset among)

/-- No end of a line but newlines stands before the last character of a text. -/
def newlinesOnly (text : PyText) : Bool :=
  text.dropLast.all fun point => !isLineEnd point || point = 10

/-- A line and its newline add one to the lines of a text. -/
theorem lineCount_newline {front rest : PyText} (plain : 10 ∉ front) :
    lineCount (front ++ 10 :: rest) = lineCount rest + 1 := by
  have last : (front ++ 10 :: rest).getLast?.all (· = 10) = rest.getLast?.all (· = 10) := by
    cases rest with
    | nil => rw [List.getLast?_concat]; rfl
    | cons next more => rw [List.getLast?_append_cons, List.getLast?_cons_cons]
  rw [lineCount, lineCount, last, List.count_append, List.count_cons_self,
    List.count_eq_zero_of_not_mem plain]
  omega

/-- Another end of a line adds none, unless it is the last character. -/
theorem lineCount_other {front rest : PyText} {point : CodePoint} (plain : 10 ∉ front)
    (other : point ≠ 10) :
    lineCount (front ++ point :: rest) = if rest = [] then 1 else lineCount rest := by
  rw [lineCount, List.count_append, List.count_cons_of_ne other,
    List.count_eq_zero_of_not_mem plain, Nat.zero_add]
  cases rest with
  | nil =>
      rw [List.getLast?_concat, Option.all_some, decide_eq_false other]
      rfl
  | cons next more =>
      rw [List.getLast?_append_cons, List.getLast?_cons_cons, if_neg (List.cons_ne_nil _ _)]
      rfl

theorem lineCount_ne_zero (filled : text ≠ []) : lineCount text ≠ 0 := by
  obtain ⟨front, last, rfl⟩ := List.eq_nil_or_concat text |>.resolve_left filled
  rw [List.concat_eq_append, lineCount, List.getLast?_concat, Option.all_some]
  by_cases newline : last = 10
  · rw [newline, List.count_append, List.count_singleton_self]
    omega
  · rw [decide_eq_false newline, if_neg Bool.false_ne_true]
    omega

/-- A line has no newline in it. -/
theorem not_mem_of_plain (plain : text.all (fun point => !isLineEnd point) = true) : 10 ∉ text := by
  intro among
  have other := List.all_eq_true.mp plain 10 among
  cases other

/-- Other ends of lines stay the only ones before the last character behind the first line. -/
theorem newlinesOnly_append {front rest : PyText} {point : CodePoint}
    (plain : front.all (fun point => !isLineEnd point) = true) (ends : isLineEnd point = true)
    (more : rest ≠ []) :
    newlinesOnly (front ++ point :: rest) = (decide (point = 10) && newlinesOnly rest) := by
  rw [newlinesOnly, List.dropLast_append_of_ne_nil (List.cons_ne_nil _ _),
    List.dropLast_cons_of_ne_nil more, List.all_append, List.all_cons, ends, Bool.not_true,
    Bool.false_or, newlinesOnly, List.all_eq_true.mpr, Bool.true_and]
  intro other among
  rw [List.all_eq_true.mp plain other among, Bool.true_or]

/-- `str.splitlines` makes no fewer lines, and more of them when another end stands before the last
character. -/
theorem lineCount_le (noReturn : ∀ point ∈ text, point.val ≠ 13) :
    lineCount text ≤ (splitLines text).length ∧
      (newlinesOnly text = false → lineCount text < (splitLines text).length) := by
  induction long : text.length using Nat.strong_induction_on generalizing text with
  | _ size ih =>
    rcases line_cases noReturn with plain | ⟨front, point, rest, rfl, plain, ends, lines⟩
    · have only : newlinesOnly text = true := by
        refine List.all_eq_true.mpr fun point among => ?_
        rw [List.all_eq_true.mp plain point (List.dropLast_subset _ among), Bool.true_or]
      rw [only]
      refine ⟨?_, fun wrong => by cases wrong⟩
      by_cases filled : text = []
      · rw [filled]
        exact Nat.le_refl _
      · rw [splitLines_plain filled plain, lineCount,
          List.count_eq_zero_of_not_mem (not_mem_of_plain plain), Nat.zero_add,
          List.length_singleton]
        split
        · exact Nat.zero_le _
        · exact Nat.le_refl _
    · have shorter : rest.length < size := by
        rw [← long, List.length_append, List.length_cons]
        omega
      have later := ih rest.length shorter (fun other among => noReturn other
        (List.mem_append_right _ (List.mem_cons_of_mem _ among))) rfl
      have none := not_mem_of_plain plain
      rw [lines, List.length_cons]
      by_cases newline : point = 10
      · subst newline
        rw [lineCount_newline none]
        refine ⟨Nat.succ_le_succ later.1, fun broken => Nat.succ_lt_succ (later.2 ?_)⟩
        by_cases more : rest = []
        · rw [more, newlinesOnly, List.dropLast_concat, List.all_eq_true.mpr] at broken
          · cases broken
          · intro other among
            rw [List.all_eq_true.mp plain other among, Bool.true_or]
        · rw [newlinesOnly_append plain ends more, decide_eq_true rfl, Bool.true_and] at broken
          exact broken
      · rw [lineCount_other none newline]
        by_cases more : rest = []
        · rw [if_pos more]
          refine ⟨Nat.le_add_left _ _, fun broken => ?_⟩
          rw [more, newlinesOnly, List.dropLast_concat, List.all_eq_true.mpr] at broken
          · cases broken
          · intro other among
            rw [List.all_eq_true.mp plain other among, Bool.true_or]
        · rw [if_neg more]
          exact ⟨Nat.le_succ_of_le later.1, fun _ => Nat.lt_succ_of_le later.1⟩

/-- A text is its lines, and at most one end of a line behind them. -/
structure Lined (text : PyText) (lines : List PyText) (tail : PyText) : Prop where
  whole : text = joinLines lines ++ tail
  plain : ∀ line ∈ lines, 10 ∉ line
  short : tail = [] ∨ ∃ point, isLineEnd point = true ∧ tail = [point]
  count : lines.length = lineCount text

/-- A text with no other end of a line before its last character is its lines. -/
theorem lined_splitLines (noReturn : ∀ point ∈ text, point.val ≠ 13)
    (only : newlinesOnly text = true) : ∃ tail, Lined text (splitLines text) tail := by
  induction long : text.length using Nat.strong_induction_on generalizing text with
  | _ size ih =>
    rcases line_cases noReturn with plain | ⟨front, point, rest, rfl, plain, ends, lines⟩
    · refine ⟨[], ?_⟩
      by_cases filled : text = []
      · subst filled
        exact ⟨rfl, fun line none => absurd none List.not_mem_nil, .inl rfl, rfl⟩
      · have last : text.getLast?.all (· = 10) = false := by
          rw [List.getLast?_eq_getLast_of_ne_nil filled, Option.all_some, decide_eq_false_iff_not]
          intro same
          exact not_mem_of_plain plain (same ▸ List.getLast_mem filled)
        rw [splitLines_plain filled plain]
        refine ⟨by rw [joinLines_singleton, List.append_nil], ?_, .inl rfl, ?_⟩
        · intro line among
          rw [List.mem_singleton.mp among]
          exact not_mem_of_plain plain
        · rw [lineCount, last, List.count_eq_zero_of_not_mem (not_mem_of_plain plain)]
          rfl
    · have none := not_mem_of_plain plain
      rw [lines]
      by_cases more : rest = []
      · subst more
        refine ⟨[point], ?_, ?_, .inr ⟨point, ends, rfl⟩, ?_⟩
        · rw [show splitLines [] = [] from rfl, joinLines_singleton]
        · intro line among
          rw [List.mem_singleton.mp among]
          exact none
        · by_cases newline : point = 10
          · rw [newline, lineCount_newline none]
            rfl
          · rw [lineCount_other none newline, if_pos rfl]
            rfl
      · rw [newlinesOnly_append plain ends more, Bool.and_eq_true, decide_eq_true_eq] at only
        obtain ⟨rfl, only⟩ := only
        have shorter : rest.length < size := by
          rw [← long, List.length_append, List.length_cons]
          omega
        obtain ⟨tail, lined⟩ := ih rest.length shorter (fun other among => noReturn other
          (List.mem_append_right _ (List.mem_cons_of_mem _ among))) only rfl
        have some : splitLines rest ≠ [] := by
          intro none
          have count := lined.count
          rw [none] at count
          exact lineCount_ne_zero more count.symm
        obtain ⟨next, others, whole⟩ := List.exists_cons_of_ne_nil some
        refine ⟨tail, ?_, ?_, lined.short, ?_⟩
        · conv_lhs => rw [lined.whole]
          rw [whole, joinLines_cons_cons]
          simp only [List.append_assoc, List.cons_append, List.nil_append]
        · rw [List.forall_mem_cons]
          exact ⟨none, lined.plain⟩
        · rw [List.length_cons, lined.count, lineCount_newline none]

/-- A part that does not end in an end of a line starts in the lines of a text. -/
theorem Lined.startsOn_iff {lines : List PyText} {tail : PyText} (lined : Lined text lines tail)
    (filled : part ≠ []) (solid : ∀ point, part.getLast? = some point → isLineEnd point = false)
    (index : Nat) : StartsOn text part index ↔ StartsOn (joinLines lines) part index := by
  rcases lined.short with rfl | ⟨point, ends, rfl⟩
  · rw [lined.whole, List.append_nil]
  · rw [lined.whole]
    constructor
    · rintro ⟨before, after, whole, count⟩
      rcases List.eq_nil_or_concat after with rfl | ⟨front, last, rfl⟩
      · rw [List.append_nil] at whole
        have last := congrArg List.getLast? whole
        rw [List.getLast?_concat, List.getLast?_append_of_ne_nil _ filled] at last
        rw [solid point last.symm] at ends
        cases ends
      · rw [List.concat_eq_append, ← List.append_assoc] at whole
        exact ⟨before, front, List.append_inj_left' whole rfl, count⟩
    · rintro ⟨before, after, whole, count⟩
      exact ⟨before, after ++ [point], by rw [whole, List.append_assoc], count⟩

end Lines

end Orchestrator.Foundation.PyText
