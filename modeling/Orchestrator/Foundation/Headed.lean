import Mathlib.Data.List.Basic
import Mathlib.Data.List.Count
import Mathlib.Data.List.TakeWhile

/-! # Lines under headings

Some lines are headings. A list of lines is a preamble and then blocks, each of a heading and the
lines up to the next one. Putting a block replaces the first one under its heading, or stands it at
the end; a blank line parts it from what is beside it.
-/

namespace Orchestrator.Foundation

/-- Lines as a preamble and blocks under headings. -/
structure Outline (α : Type*) where
  preamble : List α
  blocks : List (α × List α)

namespace Outline

variable {α : Type*} {heads : α → Bool} {heading line : α} {content rest before : List α}

/-- The lines of an outline. -/
def lines (outline : Outline α) : List α :=
  outline.preamble ++ outline.blocks.flatMap fun block => block.1 :: block.2

/-- The headings of an outline. -/
def headings (outline : Outline α) : List α := outline.blocks.map Prod.fst

/-- The outline of lines. -/
def ofLines (heads : α → Bool) : List α → Outline α
  | [] => ⟨[], []⟩
  | line :: rest =>
      if heads line then ⟨[], (line, (ofLines heads rest).preamble) :: (ofLines heads rest).blocks⟩
      else ⟨line :: (ofLines heads rest).preamble, (ofLines heads rest).blocks⟩

theorem ofLines_heading (isHead : heads line = true) (rest : List α) :
    ofLines heads (line :: rest) =
      ⟨[], (line, (ofLines heads rest).preamble) :: (ofLines heads rest).blocks⟩ := by
  rw [ofLines, if_pos isHead]

theorem ofLines_plain (plain : heads line = false) (rest : List α) :
    ofLines heads (line :: rest) =
      ⟨line :: (ofLines heads rest).preamble, (ofLines heads rest).blocks⟩ := by
  rw [ofLines, plain, if_neg Bool.false_ne_true]

/-- No line is lost in the outline. -/
@[simp] theorem lines_ofLines (heads : α → Bool) (text : List α) :
    (ofLines heads text).lines = text := by
  induction text with
  | nil => rfl
  | cons line rest ih =>
      cases isHead : heads line with
      | true =>
          rw [ofLines_heading isHead]
          exact congrArg (line :: ·) ih
      | false =>
          rw [ofLines_plain isHead]
          exact congrArg (line :: ·) ih

/-- The outline of lines splits at a heading. -/
theorem ofLines_append_heading (isHead : heads heading = true) (before after : List α) :
    ofLines heads (before ++ heading :: after) =
      ⟨(ofLines heads before).preamble, (ofLines heads before).blocks ++
        (heading, (ofLines heads after).preamble) :: (ofLines heads after).blocks⟩ := by
  induction before with
  | nil => exact ofLines_heading isHead after
  | cons line rest ih =>
      cases first : heads line with
      | true => rw [List.cons_append, ofLines_heading first, ofLines_heading first, ih,
          List.cons_append]
      | false => rw [List.cons_append, ofLines_plain first, ofLines_plain first, ih]

/-- Lines before the first heading are the preamble's. -/
theorem ofLines_append_plain (plain : ∀ line ∈ content, heads line = false) (rest : List α) :
    ofLines heads (content ++ rest) =
      ⟨content ++ (ofLines heads rest).preamble, (ofLines heads rest).blocks⟩ := by
  induction content with
  | nil => rfl
  | cons line content ih =>
      rw [List.cons_append, ofLines_plain (plain line List.mem_cons_self),
        ih fun other among => plain other (List.mem_cons_of_mem _ among), List.cons_append]

/-- What is left from the next heading on is the blocks. -/
theorem ofLines_dropWhile (heads : α → Bool) (text : List α) :
    ofLines heads (text.dropWhile fun line => !heads line) = ⟨[], (ofLines heads text).blocks⟩ := by
  induction text with
  | nil => rfl
  | cons line rest ih =>
      cases isHead : heads line with
      | true =>
          rw [List.dropWhile_cons, if_neg (by rw [isHead]; exact Bool.false_ne_true),
            ofLines_heading isHead]
      | false =>
          rw [List.dropWhile_cons, if_pos (by rw [isHead]; rfl), ih, ofLines_plain isHead]

/-- The headings are the lines that are headings. -/
theorem headings_ofLines (heads : α → Bool) (text : List α) :
    (ofLines heads text).headings = text.filter heads := by
  induction text with
  | nil => rfl
  | cons line rest ih =>
      cases isHead : heads line with
      | true =>
          rw [ofLines_heading isHead, List.filter_cons, if_pos isHead]
          exact congrArg (line :: ·) ih
      | false =>
          rw [ofLines_plain isHead, List.filter_cons, isHead, if_neg Bool.false_ne_true]
          exact ih

section Puts

variable [DecidableEq α] {blank : α}

/-- The blank line that parts a block from the blocks after it. -/
def gapBefore {β : Type*} (blank : α) (later : List β) : List α :=
  if later.isEmpty then [] else [blank]

/-- Replace the first block under a heading. -/
def refresh (blank heading : α) (content : List α) : List (α × List α) → List (α × List α)
  | [] => []
  | block :: later =>
      if block.1 = heading then (heading, content ++ gapBefore blank later) :: later
      else block :: refresh blank heading content later

/-- Stand a blank line at the end. -/
def close (blank : α) (outline : Outline α) : Outline α :=
  match outline.blocks.getLast? with
  | none => ⟨outline.preamble ++ [blank], []⟩
  | some last =>
      ⟨outline.preamble, outline.blocks.dropLast ++ [(last.1, last.2 ++ [blank])]⟩

/-- Put a block under its heading. -/
def put (blank : α) (outline : Outline α) (block : α × List α) : Outline α :=
  if block.1 ∈ outline.headings then
    ⟨outline.preamble, refresh blank block.1 block.2 outline.blocks⟩
  else ⟨(outline.close blank).preamble, (outline.close blank).blocks ++ [block]⟩

/-- The lines that are under none of some headings. -/
def outside (called : List α) (outline : Outline α) : List α :=
  outline.preamble ++
    (outline.blocks.filter fun block => block.1 ∉ called).flatMap fun block => block.1 :: block.2

/-- The blank line that a block under a heading ends in, unless it is the last one. -/
def gapOf (blank : α) (outline : Outline α) (heading : α) : List α :=
  if outline.headings.getLast? = some heading then [] else [blank]

/-- One block stands under a heading, with these lines. -/
def Holds (blank : α) (outline : Outline α) (heading : α) (content : List α) : Prop :=
  outline.blocks.filter (fun block => block.1 = heading) =
    [(heading, content ++ outline.gapOf blank heading)]

/-! ## One put -/

variable {outline : Outline α} {blocks : List (α × List α)} {block : α × List α}
  {other : α} {text : List α}

theorem gapBefore_refresh (heading : α) (content : List α) (blocks : List (α × List α)) :
    gapBefore blank (refresh blank heading content blocks) = gapBefore blank blocks := by
  cases blocks with
  | nil => rfl
  | cons block later =>
      rw [refresh]
      split <;> rfl

/-- The block that a refresh replaces. -/
theorem refresh_eq (blank : α) (present : heading ∈ blocks.map Prod.fst) (content : List α) :
    ∃ front old back, blocks = front ++ (heading, old) :: back ∧
      heading ∉ front.map Prod.fst ∧
      refresh blank heading content blocks =
        front ++ (heading, content ++ gapBefore blank back) :: back := by
  induction blocks with
  | nil => cases present
  | cons block later ih =>
      by_cases named : block.1 = heading
      · refine ⟨[], block.2, later, ?_, List.not_mem_nil, ?_⟩
        · rw [← named]
          rfl
        · rw [refresh, if_pos named]
          rfl
      · rw [List.map_cons, List.mem_cons] at present
        obtain ⟨front, old, back, whole, before, made⟩ :=
          ih (present.resolve_left fun same => named same.symm)
        refine ⟨block :: front, old, back, by rw [whole, List.cons_append], ?_, ?_⟩
        · rw [List.map_cons, List.mem_cons, not_or]
          exact ⟨fun same => named same.symm, before⟩
        · rw [refresh, if_neg named, made, List.cons_append]

theorem refresh_absent (absent : heading ∉ blocks.map Prod.fst) (content : List α)
    (added : List (α × List α)) :
    refresh blank heading content (blocks ++ added) =
      blocks ++ refresh blank heading content added := by
  induction blocks with
  | nil => rfl
  | cons block later ih =>
      rw [List.map_cons, List.mem_cons, not_or] at absent
      rw [List.cons_append, refresh, if_neg (Ne.symm absent.1), ih absent.2, List.cons_append]

theorem map_fst_refresh (heading : α) (content : List α) (blocks : List (α × List α)) :
    (refresh blank heading content blocks).map Prod.fst = blocks.map Prod.fst := by
  induction blocks with
  | nil => rfl
  | cons block later ih =>
      by_cases named : block.1 = heading
      · rw [refresh, if_pos named, List.map_cons, List.map_cons, named]
      · rw [refresh, if_neg named, List.map_cons, List.map_cons, ih]

/-- Refreshing a block twice is refreshing it once. -/
theorem refresh_refresh (heading : α) (content : List α) (blocks : List (α × List α)) :
    refresh blank heading content (refresh blank heading content blocks) =
      refresh blank heading content blocks := by
  induction blocks with
  | nil => rfl
  | cons block later ih =>
      by_cases named : block.1 = heading
      · rw [refresh, if_pos named, refresh, if_pos rfl]
      · rw [refresh, if_neg named, refresh, if_neg named, ih]

/-- Blocks under two headings are refreshed in either order. -/
theorem refresh_comm (apart : heading ≠ other) (content more : List α)
    (blocks : List (α × List α)) :
    refresh blank heading content (refresh blank other more blocks) =
      refresh blank other more (refresh blank heading content blocks) := by
  induction blocks with
  | nil => rfl
  | cons block later ih =>
      by_cases named : block.1 = heading
      · have unlike : block.1 ≠ other := fun same => apart (named.symm.trans same)
        rw [refresh, if_neg unlike, refresh, if_pos named, refresh, if_pos named, refresh,
          if_neg apart, gapBefore_refresh]
      · by_cases found : block.1 = other
        · rw [refresh, if_pos found, refresh, if_neg (Ne.symm apart), refresh, if_neg named,
            refresh, if_pos found, gapBefore_refresh]
        · rw [refresh, if_neg found, refresh, if_neg named, ih, refresh, if_neg named, refresh,
            if_neg found]

omit [DecidableEq α] in
theorem headings_close (outline : Outline α) :
    (outline.close blank).headings = outline.headings := by
  obtain ⟨preamble, blocks⟩ := outline
  rcases List.eq_nil_or_concat blocks with rfl | ⟨first, last, rfl⟩
  · rfl
  · rw [List.concat_eq_append]
    simp only [close, headings, List.getLast?_append, List.getLast?_singleton, Option.some_or,
      List.dropLast_concat, List.map_append, List.map_cons, List.map_nil]

/-- The headings after a put. -/
theorem headings_put (outline : Outline α) (block : α × List α) :
    (outline.put blank block).headings =
      if block.1 ∈ outline.headings then outline.headings else outline.headings ++ [block.1] := by
  unfold put
  split
  · exact map_fst_refresh _ _ _
  · have kept : ((outline.close blank).blocks.map Prod.fst) = outline.headings :=
      headings_close outline
    rw [headings, List.map_append, kept]
    rfl

theorem mem_headings_put (outline : Outline α) (block : α × List α) :
    block.1 ∈ (outline.put blank block).headings := by
  rw [headings_put]
  split
  · assumption
  · exact List.mem_append_right _ (List.mem_singleton_self _)

/-- A put keeps every heading single. -/
theorem count_headings_put [BEq α] [LawfulBEq α] (block : α × List α)
    (single : outline.headings.count other ≤ 1) :
    (outline.put blank block).headings.count other ≤ 1 := by
  rw [headings_put]
  split
  · exact single
  · rename_i absent
    rw [List.count_append, List.count_singleton]
    by_cases same : block.1 = other
    · rw [← same, List.count_eq_zero_of_not_mem absent]
      split <;> omega
    · rw [if_neg (by simpa only [beq_iff_eq] using same)]
      exact single

/-- Repeating a put changes nothing. -/
theorem put_put (outline : Outline α) (block : α × List α) :
    (outline.put blank block).put blank block = outline.put blank block := by
  rw [put, if_pos (mem_headings_put outline block)]
  unfold put
  split
  · rw [refresh_refresh]
  · rename_i absent
    have kept : block.1 ∉ (outline.close blank).blocks.map Prod.fst := by
      rw [← headings, headings_close]
      exact absent
    rw [refresh_absent kept, refresh, if_pos rfl]
    simp only [gapBefore, List.isEmpty_nil, if_true, List.append_nil]

/-- What stands under a heading after a put there. -/
theorem holds_put [BEq α] [LawfulBEq α] (single : outline.headings.count block.1 ≤ 1) :
    (outline.put blank block).Holds blank block.1 block.2 := by
  obtain ⟨heading, content⟩ := block
  change outline.headings.count heading ≤ 1 at single
  have clear : ∀ {blocks : List (α × List α)}, heading ∉ blocks.map Prod.fst →
      blocks.filter (fun block => block.1 = heading) = [] := by
    intro blocks absent
    apply List.filter_eq_nil_iff.mpr
    intro block among named
    exact absent (List.mem_map.mpr ⟨block, among, of_decide_eq_true named⟩)
  unfold Holds gapOf
  rw [headings_put]
  unfold put
  by_cases present : heading ∈ outline.headings
  · rw [if_pos present, if_pos present]
    obtain ⟨front, old, back, whole, before, made⟩ :=
      refresh_eq blank (show heading ∈ outline.blocks.map Prod.fst from present) content
    have after : heading ∉ back.map Prod.fst := by
      rw [headings, whole, List.map_append, List.map_cons, List.count_append,
        List.count_cons_self] at single
      exact List.count_eq_zero.mp (by omega)
    have lastly : outline.headings.getLast? = some heading ↔ back = [] := by
      rw [headings, whole, List.map_append, List.map_cons, List.getLast?_append_cons]
      cases back with
      | nil => exact iff_of_true rfl rfl
      | cons next more =>
          refine iff_of_false (fun same => after ?_) (List.cons_ne_nil _ _)
          rw [List.map_cons, List.getLast?_cons_cons, ← List.map_cons (f := Prod.fst)] at same
          exact List.mem_of_getLast? same
    dsimp only at made ⊢
    rw [made, List.filter_append, clear before, List.filter_cons, if_pos (decide_eq_true rfl),
      clear after, List.nil_append]
    by_cases none : back = []
    · rw [if_pos (lastly.mpr none), none]
      rfl
    · rw [if_neg fun same => none (lastly.mp same), gapBefore,
        if_neg fun empty => none (List.isEmpty_iff.mp empty)]
  · rw [if_neg present, if_neg present]
    have kept : heading ∉ (outline.close blank).blocks.map Prod.fst := by
      rw [← headings, headings_close]
      exact present
    dsimp only
    rw [List.filter_append, clear kept, List.filter_cons, if_pos (decide_eq_true rfl),
      List.getLast?_concat, if_pos rfl, List.append_nil]
    rfl

/-- The last heading after a put. -/
theorem getLast_headings_put (outline : Outline α) (block : α × List α) :
    (outline.put blank block).headings.getLast? =
      if block.1 ∈ outline.headings then outline.headings.getLast? else some block.1 := by
  rw [headings_put]
  split
  · rfl
  · exact List.getLast?_concat

/-- A put leaves what stands under another heading. -/
theorem holds_put_of_ne (apart : block.1 ≠ other) (stood : outline.Holds blank other content) :
    (outline.put blank block).Holds blank other content := by
  have named : other ∈ outline.headings := by
    have among : (other, content ++ outline.gapOf blank other) ∈
        outline.blocks.filter fun block => block.1 = other := by
      rw [stood]
      exact List.mem_singleton_self _
    exact List.mem_map.mpr ⟨_, (List.mem_filter.mp among).1, rfl⟩
  unfold Holds gapOf at stood ⊢
  rw [getLast_headings_put]
  unfold put
  by_cases present : block.1 ∈ outline.headings
  · rw [if_pos present, if_pos present, ← stood]
    obtain ⟨front, old, back, whole, -, made⟩ := refresh_eq blank present block.2
    dsimp only
    rw [made, whole, List.filter_append, List.filter_append, List.filter_cons, List.filter_cons,
      decide_eq_false apart, if_neg Bool.false_ne_true, if_neg Bool.false_ne_true]
  · rw [if_neg present, if_neg present, if_neg fun same => apart (Option.some.inj same),
      List.filter_append, List.filter_cons, decide_eq_false apart, if_neg Bool.false_ne_true,
      List.filter_nil, List.append_nil]
    obtain ⟨preamble, blocks⟩ := outline
    rcases List.eq_nil_or_concat blocks with rfl | ⟨first, last, rfl⟩
    · cases named
    · rw [List.concat_eq_append] at stood ⊢
      simp only [close, List.getLast?_append, List.getLast?_singleton, Option.some_or,
        List.dropLast_concat]
      simp only [headings, List.map_append, List.map_cons, List.map_nil, List.getLast?_concat,
        Option.some.injEq, List.filter_append] at stood ⊢
      by_cases same : last.1 = other
      · rw [List.filter_cons, if_pos (decide_eq_true same), List.filter_nil, if_pos same,
          List.append_nil, ← List.nil_append [(other, content)]] at stood
        obtain ⟨nothing, lastly⟩ := List.append_inj' stood rfl
        have whole : last = (other, content) := List.singleton_inj.mp lastly
        rw [nothing, whole, List.filter_cons, if_pos (decide_eq_true rfl)]
        rfl
      · rw [List.filter_cons, decide_eq_false same, if_neg Bool.false_ne_true, List.filter_nil,
          if_neg same] at stood
        rw [List.filter_cons, decide_eq_false same, if_neg Bool.false_ne_true, List.filter_nil]
        exact stood

/-- The lines under none of some headings are kept, up to a blank line before the first block that
is put at the end. -/
theorem outside_put {called : List α} (among : block.1 ∈ called) {kept : List α}
    (stood : outline.outside called = kept ∨ outline.outside called = kept ++ [blank] ∧
      ∃ last ∈ called, outline.headings.getLast? = some last) :
    (outline.put blank block).outside called = kept ∨
      (outline.put blank block).outside called = kept ++ [blank] ∧
        ∃ last ∈ called, (outline.put blank block).headings.getLast? = some last := by
  by_cases present : block.1 ∈ outline.headings
  · have same : (outline.put blank block).outside called = outline.outside called := by
      obtain ⟨front, old, back, whole, -, made⟩ := refresh_eq blank present block.2
      rw [put, if_pos present]
      unfold outside
      dsimp only
      rw [made, whole, List.filter_append, List.filter_append, List.filter_cons, List.filter_cons,
        decide_eq_false (not_not_intro among), if_neg Bool.false_ne_true,
        if_neg Bool.false_ne_true]
    rw [same, getLast_headings_put, if_pos present]
    exact stood
  · rw [getLast_headings_put, if_neg present]
    have appended : (outline.put blank block).outside called =
        (outline.close blank).outside called := by
      rw [put, if_neg present]
      unfold outside
      dsimp only
      rw [List.filter_append, List.filter_cons, decide_eq_false (not_not_intro among),
        if_neg Bool.false_ne_true, List.filter_nil, List.append_nil]
    rw [appended]
    obtain ⟨preamble, blocks⟩ := outline
    rcases List.eq_nil_or_concat blocks with rfl | ⟨first, last, rfl⟩
    · refine .inr ⟨?_, block.1, among, rfl⟩
      rcases stood with stood | ⟨-, last, -, lastly⟩
      · rw [← stood]
        simp only [outside, close, List.getLast?_nil, List.filter_nil, List.flatMap_nil,
          List.append_nil]
      · cases lastly
    · rw [List.concat_eq_append] at stood ⊢
      by_cases inside : last.1 ∈ called
      · have same : (close blank ⟨preamble, first ++ [last]⟩).outside called =
            outside called ⟨preamble, first ++ [last]⟩ := by
          simp only [close, outside, List.getLast?_append, List.getLast?_singleton, Option.some_or,
            List.dropLast_concat, List.filter_append, List.filter_cons, inside, not_true,
            decide_false, Bool.false_eq_true, if_false]
        rw [same]
        rcases stood with stood | stood
        · exact .inl stood
        · exact .inr ⟨stood.1, block.1, among, rfl⟩
      · have same : (close blank ⟨preamble, first ++ [last]⟩).outside called =
            outside called ⟨preamble, first ++ [last]⟩ ++ [blank] := by
          simp only [close, outside, List.getLast?_append, List.getLast?_singleton, Option.some_or,
            List.dropLast_concat, List.filter_append, List.filter_cons, inside, not_false_eq_true,
            decide_true, if_true, List.filter_nil, List.flatMap_append, List.flatMap_cons,
            List.flatMap_nil, List.append_nil, List.append_assoc, List.cons_append]
        rcases stood with stood | ⟨-, other, within, lastly⟩
        · exact .inr ⟨by rw [same, stood], block.1, among, rfl⟩
        · refine absurd ?_ inside
          rw [headings, List.map_append, List.map_cons, List.map_nil, List.getLast?_concat]
            at lastly
          rw [Option.some.inj lastly]
          exact within

/-! ## Puts on lines -/

omit [DecidableEq α] in
/-- A blank line at the end of lines is at the end of their outline. -/
theorem ofLines_concat (plain : heads blank = false) (text : List α) :
    ofLines heads (text ++ [blank]) = (ofLines heads text).close blank := by
  induction text with
  | nil =>
      rw [List.nil_append, ofLines_plain plain]
      rfl
  | cons line rest ih =>
      rw [List.cons_append]
      cases isHead : heads line with
      | true =>
          rw [ofLines_heading isHead, ofLines_heading isHead, ih]
          unfold close
          dsimp only
          rw [List.getLast?_cons]
          cases lastly : (ofLines heads rest).blocks.getLast? with
          | none =>
              rw [List.getLast?_eq_none_iff.mp lastly]
              rfl
          | some last =>
              dsimp only [Option.getD_some]
              rw [List.dropLast_cons_of_ne_nil (by
                intro none
                rw [none] at lastly
                cases lastly), List.cons_append]
      | false =>
          rw [ofLines_plain isHead, ofLines_plain isHead, ih]
          unfold close
          dsimp only
          cases (ofLines heads rest).blocks.getLast? <;> rfl

/-- Lines with a block put at their end. -/
theorem ofLines_put_absent (plain : heads blank = false) (isHead : heads heading = true)
    (own : ∀ line ∈ content, heads line = false) (absent : heading ∉ text) :
    ofLines heads (text ++ [blank] ++ heading :: content) =
      (ofLines heads text).put blank (heading, content) := by
  have unnamed : heading ∉ (ofLines heads text).headings := by
    rw [headings_ofLines]
    exact fun among => absent (List.mem_filter.mp among).1
  have rest := ofLines_append_plain own []
  rw [List.append_nil] at rest
  rw [ofLines_append_heading isHead, rest, ofLines_concat plain, put, if_neg unnamed]
  simp only [ofLines, List.append_nil]

/-- Lines with a block put in the place of the first one under its heading. -/
theorem ofLines_put_present (plain : heads blank = false) (isHead : heads heading = true)
    (own : ∀ line ∈ content, heads line = false) {before after : List α}
    (first : heading ∉ before) :
    ofLines heads (before ++ (heading :: content) ++
        gapBefore blank (after.dropWhile fun line => !heads line) ++
        after.dropWhile fun line => !heads line) =
      (ofLines heads (before ++ heading :: after)).put blank (heading, content) := by
  have unnamed : heading ∉ (ofLines heads before).blocks.map Prod.fst := by
    rw [← headings, headings_ofLines]
    exact fun among => first (List.mem_filter.mp among).1
  have gaps : gapBefore blank (after.dropWhile fun line => !heads line) =
      gapBefore blank (ofLines heads after).blocks := by
    have whole := congrArg lines (ofLines_dropWhile heads after)
    rw [lines_ofLines] at whole
    rw [whole]
    unfold lines
    cases (ofLines heads after).blocks <;> rfl
  have within : ∀ line ∈ content ++ gapBefore blank (ofLines heads after).blocks,
      heads line = false := by
    intro line among
    rcases List.mem_append.mp among with among | among
    · exact own line among
    · unfold gapBefore at among
      split at among
      · cases among
      · rw [List.mem_singleton.mp among]
        exact plain
  rw [gaps, List.append_assoc, List.append_assoc, List.cons_append, ← List.append_assoc content,
    ofLines_append_heading isHead, ofLines_append_plain within, ofLines_dropWhile,
    ofLines_append_heading isHead, put, if_pos ?_, refresh_absent unnamed, refresh, if_pos rfl,
    List.append_nil]
  rw [headings, List.map_append]
  exact List.mem_append_right _ List.mem_cons_self

end Puts

end Outline

end Orchestrator.Foundation
