import Mathlib.Data.List.Basic
import Mathlib.Data.List.Infix

/-! # Patterns with backtracking

A pattern has its outcomes in the order in which a backtracking matcher tries them, and the
first is the match. A text is scanned from the left for matches that do not overlap.
-/

namespace Orchestrator.Foundation

/-- A pattern over characters. -/
inductive Regex (α : Type) where
  | empty
  | one (test : α → Bool)
  | look (test : List α → List α → Bool)
  | seq (first second : Regex α)
  | alt (first second : Regex α)
  | star (greedy : Bool) (body : Regex α)
  | group (index : Nat) (body : Regex α)

namespace Regex

variable {α : Type}

/-- A place in a text: what is before it, the nearest first, and what follows, with the groups
that matched. -/
structure Cursor (α : Type) where
  before : List α
  rest : List α
  groups : List (Nat × List α)

namespace Cursor

/-- The characters between two places of a text. -/
def taken (start stop : Cursor α) : List α :=
  start.rest.take (start.rest.length - stop.rest.length)

/-- The text of a group, which matched or not. -/
def group? (index : Nat) (cursor : Cursor α) : Option (List α) :=
  (cursor.groups.find? fun group => group.1 = index).map Prod.snd

end Cursor

/-- The places after repetitions, each of which consumes something. -/
def iterate (greedy : Bool) (step : Cursor α → List (Cursor α)) : Nat → Cursor α → List (Cursor α)
  | 0, cursor => [cursor]
  | fuel + 1, cursor =>
      let more := ((step cursor).filter fun next =>
        next.rest.length < cursor.rest.length).flatMap (iterate greedy step fuel)
      if greedy then more ++ [cursor] else cursor :: more

/-- The places that a match can end at, in the order of preference. -/
def outcomes : Regex α → Cursor α → List (Cursor α)
  | empty, cursor => [cursor]
  | one test, ⟨before, rest, groups⟩ =>
      match rest with
      | [] => []
      | letter :: rest => if test letter then [⟨letter :: before, rest, groups⟩] else []
  | look test, cursor => if test cursor.before cursor.rest then [cursor] else []
  | seq first second, cursor => (outcomes first cursor).flatMap (outcomes second)
  | alt first second, cursor => outcomes first cursor ++ outcomes second cursor
  | star greedy body, cursor => iterate greedy (outcomes body) cursor.rest.length cursor
  | group index body, cursor =>
      (outcomes body cursor).map fun stop =>
        { stop with groups := (index, cursor.taken stop) :: stop.groups }

/-- `body+`. -/
def plus (greedy : Bool) (body : Regex α) : Regex α := seq body (star greedy body)

/-- `body?`. -/
def optional (body : Regex α) : Regex α := alt body empty

/-- `body{0,most}`. -/
def upTo (body : Regex α) : Nat → Regex α
  | 0 => empty
  | most + 1 => optional (seq body (upTo body most))

/-- `body{count}` before a pattern. -/
def times (body next : Regex α) : Nat → Regex α
  | 0 => next
  | count + 1 => seq body (times body next count)

/-- `body{least,}`. -/
def atLeast (body : Regex α) (least : Nat) : Regex α := times body (star true body) least

/-- The patterns one after another. -/
def sequence (patterns : List (Regex α)) : Regex α := patterns.foldr seq empty

/-- The letters of a text. -/
def literal [DecidableEq α] (letters : List α) : Regex α :=
  sequence (letters.map fun letter => one fun other => other = letter)

/-- A part of a text that was scanned: a character outside the matches, or a match. -/
inductive Piece (α : Type) where
  | plain (letter : α)
  | found (start stop : Cursor α)

/-- The text of a piece. -/
def Piece.text : Piece α → List α
  | .plain letter => [letter]
  | .found start stop => start.taken stop

/-- The pieces of the rest of a text. A pattern consumes something wherever it matches. -/
def piecesFrom (pattern : Regex α) : Nat → List α → List α → List (Piece α)
  | 0, _, _ => []
  | _, _, [] => []
  | fuel + 1, before, letter :: rest =>
      let start : Cursor α := ⟨before, letter :: rest, []⟩
      match (pattern.outcomes start).head? with
      | none => .plain letter :: piecesFrom pattern fuel (letter :: before) rest
      | some stop =>
          if stop.rest.length ≤ rest.length then
            .found start stop :: piecesFrom pattern fuel stop.before stop.rest
          else .plain letter :: piecesFrom pattern fuel (letter :: before) rest

/-- The pieces of a text. -/
def pieces (pattern : Regex α) (text : List α) : List (Piece α) :=
  piecesFrom pattern text.length [] text

/-- `pattern.sub(replace, text)`. -/
def sub (pattern : Regex α) (replace : Cursor α → Cursor α → List α) (text : List α) : List α :=
  (pieces pattern text).flatMap fun piece =>
    match piece with
    | .plain letter => [letter]
    | .found start stop => replace start stop

end Regex

end Orchestrator.Foundation

/-! ## The letters that a pattern needs

A match consumes a part of what follows its start. A pattern that needs a letter which a text does
not have matches nowhere in it, and a substitution leaves the text as it is.
-/

namespace Orchestrator.Foundation.Regex

variable {α : Type}

/-- One of several patterns, the first that matches. -/
def oneOf (patterns : List (Regex α)) : Regex α :=
  patterns.foldr alt (one fun _ => false)

/-- Whether a pattern may match within some letters. -/
def mayMatch (letters : List α) : Regex α → Bool
  | empty => true
  | one test => letters.any test
  | look _ => true
  | seq first second => mayMatch letters first && mayMatch letters second
  | alt first second => mayMatch letters first || mayMatch letters second
  | star _ _ => true
  | group _ body => mayMatch letters body

/-! ## What a match consumes -/

/-- Repetitions stop at their start, or after a step. -/
theorem mem_iterate_succ {greedy : Bool} {step : Cursor α → List (Cursor α)} {fuel : Nat}
    {start stop : Cursor α} (reached : stop ∈ iterate greedy step (fuel + 1) start) :
    stop = start ∨ ∃ next ∈ step start, stop ∈ iterate greedy step fuel next := by
  rw [iterate] at reached
  split at reached
  · rcases List.mem_append.mp reached with later | here
    · obtain ⟨next, taken, later⟩ := List.mem_flatMap.mp later
      exact .inr ⟨next, (List.mem_filter.mp taken).1, later⟩
    · exact .inl (List.mem_singleton.mp here)
  · rcases List.mem_cons.mp reached with here | later
    · exact .inl here
    · obtain ⟨next, taken, later⟩ := List.mem_flatMap.mp later
      exact .inr ⟨next, (List.mem_filter.mp taken).1, later⟩

theorem mem_iterate_suffix {greedy : Bool} {step : Cursor α → List (Cursor α)}
    (shrinks : ∀ {start stop}, stop ∈ step start → stop.rest <:+ start.rest) {fuel : Nat}
    {start stop : Cursor α} (reached : stop ∈ iterate greedy step fuel start) :
    stop.rest <:+ start.rest := by
  induction fuel generalizing start with
  | zero => exact (List.mem_singleton.mp reached) ▸ List.suffix_rfl
  | succ fuel ih =>
      rcases mem_iterate_succ reached with rfl | ⟨next, taken, later⟩
      · exact List.suffix_rfl
      · exact (ih later).trans (shrinks taken)

/-- What follows a match is a part of what followed its start. -/
theorem mem_outcomes_suffix (pattern : Regex α) {start stop : Cursor α}
    (reached : stop ∈ pattern.outcomes start) : stop.rest <:+ start.rest := by
  induction pattern generalizing start stop with
  | empty =>
      exact (List.mem_singleton.mp reached) ▸ List.suffix_rfl
  | one test =>
      obtain ⟨before, rest, groups⟩ := start
      cases rest with
      | nil => cases reached
      | cons letter rest =>
          rw [outcomes] at reached
          split at reached
          · rw [List.mem_singleton.mp reached]
            exact List.suffix_cons letter rest
          · cases reached
  | look test =>
      rw [outcomes] at reached
      split at reached
      · exact (List.mem_singleton.mp reached) ▸ List.suffix_rfl
      · cases reached
  | seq first second ihFirst ihSecond =>
      obtain ⟨middle, front, back⟩ := List.mem_flatMap.mp reached
      exact (ihSecond back).trans (ihFirst front)
  | alt first second ihFirst ihSecond =>
      rcases List.mem_append.mp reached with front | back
      · exact ihFirst front
      · exact ihSecond back
  | star greedy body ih => exact mem_iterate_suffix ih reached
  | group index body ih =>
      obtain ⟨inner, found, rfl⟩ := List.mem_map.mp reached
      exact show inner.rest <:+ start.rest from ih found

/-- A pattern that matches within a text may match within its letters. -/
theorem mayMatch_of_mem_outcomes {letters : List α} (pattern : Regex α) {start stop : Cursor α}
    (within : ∀ letter ∈ start.rest, letter ∈ letters) (reached : stop ∈ pattern.outcomes start) :
    pattern.mayMatch letters = true := by
  induction pattern generalizing start stop with
  | empty => rfl
  | one test =>
      obtain ⟨before, rest, groups⟩ := start
      cases rest with
      | nil => cases reached
      | cons letter rest =>
          rw [outcomes] at reached
          split at reached
          · rename_i passes
            exact List.any_eq_true.mpr ⟨letter, within letter List.mem_cons_self, passes⟩
          · cases reached
  | look test => rfl
  | seq first second ihFirst ihSecond =>
      obtain ⟨middle, front, back⟩ := List.mem_flatMap.mp reached
      have later := mem_outcomes_suffix first front
      rw [mayMatch, ihFirst within front,
        ihSecond (fun letter among => within letter (later.subset among)) back, Bool.and_self]
  | alt first second ihFirst ihSecond =>
      rw [mayMatch, Bool.or_eq_true]
      rcases List.mem_append.mp reached with front | back
      · exact .inl (ihFirst within front)
      · exact .inr (ihSecond within back)
  | star greedy body ih => rfl
  | group index body ih =>
      obtain ⟨inner, found, rfl⟩ := List.mem_map.mp reached
      exact ih within found

/-! ## Texts without a match -/

/-- The pieces of a text that a pattern matches nowhere in. -/
theorem piecesFrom_eq_plain {pattern : Regex α} {fuel : Nat} {before rest : List α}
    (enough : rest.length ≤ fuel)
    (unmatched : ∀ front back, rest = front ++ back → back ≠ [] →
      pattern.outcomes ⟨front.reverse ++ before, back, []⟩ = []) :
    piecesFrom pattern fuel before rest = rest.map .plain := by
  induction fuel generalizing before rest with
  | zero =>
      rw [List.eq_nil_of_length_eq_zero (Nat.le_zero.mp enough)]
      rfl
  | succ fuel ih =>
      cases rest with
      | nil => rfl
      | cons letter rest =>
          have none := unmatched [] (letter :: rest) rfl (List.cons_ne_nil _ _)
          rw [List.reverse_nil, List.nil_append] at none
          rw [piecesFrom, none, List.head?_nil, List.map_cons]
          dsimp only
          rw [ih (Nat.le_of_succ_le_succ enough) fun front back shape nonempty => ?_]
          have deeper := unmatched (letter :: front) back (by rw [shape, List.cons_append]) nonempty
          rwa [List.reverse_cons, List.append_assoc, List.singleton_append] at deeper

/-- A substitution where nothing matches. -/
theorem sub_eq_self {pattern : Regex α} {replace : Cursor α → Cursor α → List α} {text : List α}
    (unmatched : ∀ front back, text = front ++ back → back ≠ [] →
      pattern.outcomes ⟨front.reverse, back, []⟩ = []) : sub pattern replace text = text := by
  have plain : pieces pattern text = text.map .plain := by
    refine piecesFrom_eq_plain (Nat.le_refl _) fun front back shape nonempty => ?_
    rw [List.append_nil]
    exact unmatched front back shape nonempty
  rw [sub, plain, List.flatMap_map]
  exact List.flatMap_singleton' text

/-- A substitution of a pattern that needs a letter which a text does not have. -/
theorem sub_eq_self_of_letters {pattern : Regex α} {replace : Cursor α → Cursor α → List α}
    {letters text : List α} (within : ∀ letter ∈ text, letter ∈ letters)
    (needs : pattern.mayMatch letters = false) : sub pattern replace text = text := by
  refine sub_eq_self fun front back shape _ => ?_
  refine List.eq_nil_iff_forall_not_mem.mpr fun stop reached => ?_
  have later : ∀ letter ∈ back, letter ∈ letters := fun letter among =>
    within letter (by rw [shape]; exact List.mem_append_right _ among)
  have may := mayMatch_of_mem_outcomes pattern later reached
  rw [needs] at may
  cases may

/-! ## The pieces of a text -/

theorem flatMap_text_piecesFrom {pattern : Regex α} {fuel : Nat} {before rest : List α}
    (enough : rest.length ≤ fuel) : (piecesFrom pattern fuel before rest).flatMap Piece.text =
    rest := by
  induction fuel generalizing before rest with
  | zero => rw [List.eq_nil_of_length_eq_zero (Nat.le_zero.mp enough), piecesFrom, List.flatMap_nil]
  | succ fuel ih =>
      cases rest with
      | nil => rfl
      | cons letter rest =>
          have shorter := Nat.le_of_succ_le_succ enough
          rw [piecesFrom]
          cases matched : (pattern.outcomes ⟨before, letter :: rest, []⟩).head? with
          | none =>
              dsimp only
              rw [List.flatMap_cons, ih shorter]
              rfl
          | some stop =>
              dsimp only
              split
              · next consumes =>
                  have later : stop.rest <:+ letter :: rest :=
                    mem_outcomes_suffix pattern (List.mem_of_head? matched)
                  obtain ⟨front, whole⟩ := later
                  have taken : Piece.text (.found ⟨before, letter :: rest, []⟩ stop) = front := by
                    rw [Piece.text, Cursor.taken, ← whole, List.length_append, Nat.add_sub_cancel,
                      List.take_left]
                  rw [List.flatMap_cons, ih (consumes.trans shorter), taken, whole]
              · rw [List.flatMap_cons, ih shorter]
                rfl

/-- The pieces are those of the text. -/
theorem flatMap_text_pieces (pattern : Regex α) (text : List α) :
    (pieces pattern text).flatMap Piece.text = text :=
  flatMap_text_piecesFrom (Nat.le_refl _)

/-- A substitution changes a text at a match only. -/
theorem exists_found_of_sub_ne {pattern : Regex α} {replace : Cursor α → Cursor α → List α}
    {text : List α} (changes : sub pattern replace text ≠ text) :
    ∃ start stop, .found start stop ∈ pieces pattern text ∧
      replace start stop ≠ start.taken stop := by
  by_contra none
  apply changes
  rw [sub]
  refine Eq.trans (List.flatMap_congr fun piece among => ?_) (flatMap_text_pieces pattern text)
  cases piece with
  | plain letter => rfl
  | found start stop => exact not_not.mp fun other => none ⟨start, stop, among, other⟩

/-! ## The letters of a substitution -/

theorem mem_iterate_groups {greedy : Bool} {step : Cursor α → List (Cursor α)}
    (shrinks : ∀ {start stop}, stop ∈ step start → stop.rest <:+ start.rest)
    (keeps : ∀ {start stop}, stop ∈ step start → ∀ group ∈ stop.groups,
      group ∈ start.groups ∨ group.2 ⊆ start.rest) {fuel : Nat} {start stop : Cursor α}
    (reached : stop ∈ iterate greedy step fuel start) {group : Nat × List α}
    (among : group ∈ stop.groups) : group ∈ start.groups ∨ group.2 ⊆ start.rest := by
  induction fuel generalizing start with
  | zero =>
      rw [List.mem_singleton.mp reached] at among
      exact .inl among
  | succ fuel ih =>
      rcases mem_iterate_succ reached with rfl | ⟨next, taken, later⟩
      · exact .inl among
      · rcases ih later with before | within
        · exact keeps taken group before
        · exact .inr (List.Subset.trans within (shrinks taken).subset)

/-- A group has a part of what followed the start of a match. -/
theorem mem_outcomes_groups (pattern : Regex α) {start stop : Cursor α}
    (reached : stop ∈ pattern.outcomes start) {group : Nat × List α}
    (among : group ∈ stop.groups) : group ∈ start.groups ∨ group.2 ⊆ start.rest := by
  induction pattern generalizing start stop group with
  | empty =>
      rw [List.mem_singleton.mp reached] at among
      exact .inl among
  | one test =>
      obtain ⟨before, rest, groups⟩ := start
      cases rest with
      | nil => cases reached
      | cons letter rest =>
          rw [outcomes] at reached
          split at reached
          · rw [List.mem_singleton.mp reached] at among
            exact .inl among
          · cases reached
  | look test =>
      rw [outcomes] at reached
      split at reached
      · rw [List.mem_singleton.mp reached] at among
        exact .inl among
      · cases reached
  | seq first second ihFirst ihSecond =>
      obtain ⟨middle, front, back⟩ := List.mem_flatMap.mp reached
      rcases ihSecond back among with before | within
      · exact ihFirst front before
      · exact .inr (List.Subset.trans within (mem_outcomes_suffix first front).subset)
  | alt first second ihFirst ihSecond =>
      rcases List.mem_append.mp reached with front | back
      · exact ihFirst front among
      · exact ihSecond back among
  | star greedy body ih =>
      exact mem_iterate_groups (mem_outcomes_suffix body) (fun found _ listed => ih found listed)
        reached among
  | group index body ih =>
      obtain ⟨inner, found, rfl⟩ := List.mem_map.mp reached
      rcases List.mem_cons.mp among with rfl | listed
      · exact .inr (List.take_subset _ _)
      · exact ih found listed

theorem group?_subset {pattern : Regex α} {before rest : List α} {stop : Cursor α}
    (reached : stop ∈ pattern.outcomes ⟨before, rest, []⟩) (index : Nat) :
    ((stop.group? index).getD []) ⊆ rest := by
  rw [Cursor.group?]
  cases found : stop.groups.find? fun group => group.1 = index with
  | none => exact List.nil_subset rest
  | some group =>
      rcases mem_outcomes_groups pattern reached (List.mem_of_find?_eq_some found) with
        before | within
      · cases before
      · exact within

/-- What a substitution gives has the letters of the text and those of the replacements. -/
theorem mem_sub {pattern : Regex α} {replace : Cursor α → Cursor α → List α} {letters : List α}
    {text : List α} (within : text ⊆ letters)
    (replaces : ∀ {before rest stop}, stop ∈ pattern.outcomes ⟨before, rest, []⟩ →
      rest ⊆ letters → replace ⟨before, rest, []⟩ stop ⊆ letters) :
    sub pattern replace text ⊆ letters := by
  have each : ∀ (write : Piece α → List α), (∀ letter, write (.plain letter) = [letter]) →
      (∀ start stop, write (.found start stop) = replace start stop) →
      ∀ (fuel : Nat) (before : List α) {rest : List α}, rest ⊆ letters →
        (piecesFrom pattern fuel before rest).flatMap write ⊆ letters := by
    intro write plain found fuel
    induction fuel with
    | zero => exact fun _ _ _ => List.nil_subset _
    | succ fuel ih =>
        intro before rest within
        cases rest with
        | nil => exact List.nil_subset _
        | cons letter rest =>
            obtain ⟨here, later⟩ := List.cons_subset.mp within
            rw [piecesFrom]
            cases matched : (pattern.outcomes ⟨before, letter :: rest, []⟩).head? with
            | none =>
                dsimp only
                rw [List.flatMap_cons, plain]
                exact List.cons_subset.mpr ⟨here, ih _ later⟩
            | some stop =>
                have reached := List.mem_of_head? matched
                dsimp only
                split
                · rw [List.flatMap_cons, found]
                  refine List.append_subset.mpr ⟨replaces reached within, ih _ ?_⟩
                  exact List.Subset.trans (mem_outcomes_suffix pattern reached).subset within
                · rw [List.flatMap_cons, plain]
                  exact List.cons_subset.mpr ⟨here, ih _ later⟩
  exact each _ (fun _ => rfl) (fun _ _ => rfl) text.length [] within

/-! ## Literals -/

/-- A literal matches where it begins what follows. -/
theorem outcomes_literal [DecidableEq α] (letters : List α) (start : Cursor α) :
    (literal letters).outcomes start =
      if letters <+: start.rest then
        [⟨letters.reverse ++ start.before, start.rest.drop letters.length, start.groups⟩]
      else [] := by
  induction letters generalizing start with
  | nil => rfl
  | cons letter letters ih =>
      obtain ⟨before, rest, groups⟩ := start
      have shape : literal (letter :: letters) =
          seq (one fun other => other = letter) (literal letters) := rfl
      rw [shape, outcomes]
      cases rest with
      | nil => rfl
      | cons first rest =>
          rw [outcomes]
          by_cases same : first = letter
          · subst same
            rw [if_pos (decide_eq_true rfl), List.flatMap_singleton, ih]
            simp only [List.cons_prefix_cons, true_and, List.reverse_cons, List.append_assoc,
              List.singleton_append, List.length_cons, List.drop_succ_cons]
          · have other : ¬ letter :: letters <+: first :: rest := fun isStart =>
              same (List.cons_prefix_cons.mp isStart).1.symm
            rw [if_neg (by rw [decide_eq_false same]; exact Bool.false_ne_true), if_neg other]
            rfl

end Orchestrator.Foundation.Regex

/-! ## Marks in place of matches

A substitution that puts a mark in brackets for the end of each match leaves the rest of the text
as it was. What such a text holds without the brackets stood in the text before it, between the
same characters but where a bracket came to stand beside it.
-/

namespace Orchestrator.Foundation.Regex

variable {α : Type}

/-- A repetition keeps what each turn of it keeps. -/
theorem mem_iterate_keeps {β : Type} (read : Cursor α → β) {greedy : Bool}
    {step : Cursor α → List (Cursor α)}
    (keeps : ∀ {start stop}, stop ∈ step start → read stop = read start) {fuel : Nat}
    {start stop : Cursor α} (reached : stop ∈ iterate greedy step fuel start) :
    read stop = read start := by
  induction fuel generalizing start with
  | zero => rw [List.mem_singleton.mp reached]
  | succ fuel ih =>
      rcases mem_iterate_succ reached with rfl | ⟨next, taken, later⟩
      · rfl
      · exact (ih later).trans (keeps taken)

/-- A pattern without groups. -/
def groupless : Regex α → Bool
  | empty => true
  | one _ => true
  | look _ => true
  | seq first second => groupless first && groupless second
  | alt first second => groupless first && groupless second
  | star _ body => groupless body
  | group _ _ => false

/-- A match keeps what each letter of it keeps, and each recording that the pattern has. -/
theorem mem_outcomes_keeps {β : Type} (read : Cursor α → β)
    (moves : ∀ before letter rest groups,
      read ⟨letter :: before, rest, groups⟩ = read ⟨before, letter :: rest, groups⟩)
    {pattern : Regex α} (records : pattern.groupless = true ∨
      ∀ cursor groups, read { cursor with groups } = read cursor)
    {start stop : Cursor α} (reached : stop ∈ pattern.outcomes start) : read stop = read start := by
  induction pattern generalizing start stop with
  | empty => rw [List.mem_singleton.mp reached]
  | one test =>
      obtain ⟨before, rest, groups⟩ := start
      cases rest with
      | nil => cases reached
      | cons letter rest =>
          rw [outcomes] at reached
          split at reached
          · rw [List.mem_singleton.mp reached]
            exact moves before letter rest groups
          · cases reached
  | look test =>
      rw [outcomes] at reached
      split at reached
      · rw [List.mem_singleton.mp reached]
      · cases reached
  | seq first second ihFirst ihSecond =>
      rw [groupless, Bool.and_eq_true] at records
      obtain ⟨middle, front, back⟩ := List.mem_flatMap.mp reached
      exact (ihSecond (records.imp_left And.right) back).trans
        (ihFirst (records.imp_left And.left) front)
  | alt first second ihFirst ihSecond =>
      rw [groupless, Bool.and_eq_true] at records
      rcases List.mem_append.mp reached with front | back
      · exact ihFirst (records.imp_left And.left) front
      · exact ihSecond (records.imp_left And.right) back
  | star greedy body ih => exact mem_iterate_keeps read (fun found => ih records found) reached
  | group index body ih =>
      rcases records with free | records
      · cases free
      · obtain ⟨inner, found, rfl⟩ := List.mem_map.mp reached
        exact (records inner _).trans (ih (.inr records) found)

/-- A match consumes a front of what follows its start. -/
theorem exists_taken {pattern : Regex α} {start stop : Cursor α}
    (reached : stop ∈ pattern.outcomes start) :
    start.rest = start.taken stop ++ stop.rest ∧
      stop.before = (start.taken stop).reverse ++ start.before := by
  obtain ⟨front, shape⟩ := mem_outcomes_suffix pattern reached
  have taken : start.taken stop = front := by
    rw [Cursor.taken, ← shape, List.length_append, Nat.add_sub_cancel, List.take_left]
  have whole := mem_outcomes_keeps (fun cursor => cursor.before.reverse ++ cursor.rest)
    (fun _ _ _ _ => by rw [List.reverse_cons, List.append_assoc, List.singleton_append])
    (.inr fun _ _ => rfl) reached
  rw [← shape, ← List.append_assoc, List.append_cancel_right_eq] at whole
  refine ⟨by rw [taken, shape], ?_⟩
  rw [taken, ← List.reverse_inj, whole, List.reverse_append, List.reverse_reverse]

/-- A group around a pattern without groups records what is consumed. -/
theorem of_mem_outcomes_group {index : Nat} {body : Regex α} (free : body.groupless = true)
    {start stop : Cursor α} (reached : stop ∈ (group index body).outcomes start) :
    start.rest = start.taken stop ++ stop.rest ∧
      stop.before = (start.taken stop).reverse ++ start.before ∧
      stop.groups = (index, start.taken stop) :: start.groups := by
  obtain ⟨shape, moved⟩ := exists_taken reached
  refine ⟨shape, moved, ?_⟩
  obtain ⟨inner, found, rfl⟩ := List.mem_map.mp reached
  exact congrArg _ (mem_outcomes_keeps Cursor.groups (fun _ _ _ _ => rfl) (.inl free) found)

/-! ### Masked texts -/

/-- The pattern consumes nothing where it matches first. -/
def Passes (pattern : Regex α) (before rest : List α) : Prop :=
  ∀ stop, (pattern.outcomes ⟨before, rest, []⟩).head? = some stop →
    ¬stop.rest.length < rest.length

/-- A mark in its brackets. -/
def bracketed (opening : α) (inner : List α) (closing : α) : List α :=
  opening :: (inner ++ [closing])

/-- What a text has in one piece is on one side of a letter that the piece does not have. -/
theorem infix_of_append_cons {front back part : List α} {letter : α} (lacks : letter ∉ part)
    (within : part <:+: front ++ letter :: back) : part <:+: front ∨ part <:+: back := by
  obtain ⟨before, after, shape⟩ := within
  rw [List.append_assoc] at shape
  rcases List.append_eq_append_iff.mp shape with ⟨rest, rfl, later⟩ | ⟨rest, rfl, later⟩
  · rcases List.append_eq_append_iff.mp later with ⟨tail, rfl, -⟩ | ⟨tail, rfl, ends⟩
    · exact .inl ⟨before, tail, List.append_assoc _ _ _⟩
    · cases tail with
      | nil => exact .inl ⟨before, [], by simp⟩
      | cons head tail =>
          obtain rfl : letter = head := (List.cons.inj ends).1
          exact absurd (List.mem_append_right rest List.mem_cons_self) lacks
  · cases rest with
    | nil =>
        cases part with
        | nil => exact .inl (List.nil_infix)
        | cons head part =>
            obtain rfl : letter = head := (List.cons.inj later).1
            exact absurd List.mem_cons_self lacks
    | cons head rest =>
        exact .inr ⟨rest, after, (List.append_assoc _ _ _).trans (List.cons.inj later).2.symm⟩

/-- A text in which a mark stands for stretches of another. A character that stays is one that may
stay at its place. -/
inductive Masked (mark : List α) (stays : List α → List α → Prop) :
    List α → List α → List α → Prop
  | done {before : List α} : Masked mark stays before [] []
  | stay {before rest after : List α} {letter : α} (here : stays before (letter :: rest))
      (later : Masked mark stays (letter :: before) rest after) :
      Masked mark stays before (letter :: rest) (letter :: after)
  | gone {before gone rest after : List α}
      (later : Masked mark stays (gone.reverse ++ before) rest after) :
      Masked mark stays before (gone ++ rest) (mark ++ after)

section Masked

variable {mark before rest after : List α} {stays : List α → List α → Prop}

/-- The mark in place of a match. -/
theorem Masked.replaced {pattern : Regex α} {start stop : Cursor α}
    (reached : stop ∈ pattern.outcomes start)
    (later : Masked mark stays stop.before stop.rest after) :
    Masked mark stays start.before start.rest (mark ++ after) := by
  obtain ⟨shape, moved⟩ := exists_taken reached
  rw [moved] at later
  rw [shape]
  exact .gone later

/-- A front that stays. -/
theorem Masked.front {front : List α}
    (later : Masked mark (fun _ _ => True) (front.reverse ++ before) rest after) :
    Masked mark (fun _ _ => True) before (front ++ rest) (front ++ after) := by
  induction front generalizing before with
  | nil => exact later
  | cons letter front ih =>
      rw [List.reverse_cons, List.append_assoc, List.singleton_append] at later
      exact .stay trivial (ih later)

/-- A match that stays. -/
theorem Masked.kept {pattern : Regex α} {start stop : Cursor α}
    (reached : stop ∈ pattern.outcomes start)
    (later : Masked mark (fun _ _ => True) stop.before stop.rest after) :
    Masked mark (fun _ _ => True) start.before start.rest (start.taken stop ++ after) := by
  obtain ⟨shape, moved⟩ := exists_taken reached
  rw [moved] at later
  have whole := later.front
  rwa [← shape] at whole

/-- A substitution that masks each match masks the text. -/
theorem masked_sub {pattern : Regex α} {replace : Cursor α → Cursor α → List α}
    (plain : ∀ before rest, pattern.Passes before rest → stays before rest)
    (replaces : ∀ {before rest stop after}, stop ∈ pattern.outcomes ⟨before, rest, []⟩ →
      Masked mark stays stop.before stop.rest after →
        Masked mark stays before rest (replace ⟨before, rest, []⟩ stop ++ after))
    (text : List α) : Masked mark stays [] text (sub pattern replace text) := by
  have each : ∀ (write : Piece α → List α), (∀ letter, write (.plain letter) = [letter]) →
      (∀ start stop, write (.found start stop) = replace start stop) →
      ∀ (fuel : Nat) (before rest : List α), rest.length ≤ fuel →
        Masked mark stays before rest ((piecesFrom pattern fuel before rest).flatMap write) := by
    intro write single found fuel
    induction fuel with
    | zero =>
        intro before rest enough
        rw [List.eq_nil_of_length_eq_zero (Nat.le_zero.mp enough)]
        exact .done
    | succ fuel ih =>
        intro before rest enough
        cases rest with
        | nil => exact .done
        | cons letter rest =>
            have shorter := Nat.le_of_succ_le_succ enough
            rw [piecesFrom]
            cases matched : (pattern.outcomes ⟨before, letter :: rest, []⟩).head? with
            | none =>
                have idle : pattern.Passes before (letter :: rest) := by
                  intro stop first
                  rw [matched] at first
                  cases first
                dsimp only
                rw [List.flatMap_cons, single]
                exact .stay (plain _ _ idle) (ih _ _ shorter)
            | some stop =>
                dsimp only
                split
                · next consumes =>
                    rw [List.flatMap_cons, found]
                    exact replaces (List.mem_of_head? matched)
                      (ih _ _ (consumes.trans shorter))
                · next keeps =>
                    have idle : pattern.Passes before (letter :: rest) := by
                      intro other first
                      rw [matched] at first
                      rw [← Option.some.inj first]
                      exact fun less => keeps (Nat.le_of_lt_succ less)
                    rw [List.flatMap_cons, single]
                    exact .stay (plain _ _ idle) (ih _ _ shorter)
  exact each _ (fun _ => rfl) (fun _ _ => rfl) text.length [] text (Nat.le_refl _)

/-- A substitution of the mark for each match. -/
theorem masked_sub_mark (pattern : Regex α) (text : List α) :
    Masked mark pattern.Passes [] text (sub pattern (fun _ _ => mark) text) :=
  masked_sub (fun _ _ passes => passes) (fun reached later => later.replaced reached) text

end Masked

/-! ### What stands apart from the marks -/

/-- A text that has none of the brackets and is no part of what stands in them. -/
structure Unmarked (opening : α) (inner : List α) (closing : α) (hole : List α) : Prop where
  nonempty : hole ≠ []
  opens : opening ∉ hole
  closes : closing ∉ hole
  outside : ¬hole <:+: inner

section Unmarked

variable {opening closing : α} {inner hole before text back : List α}
  {stays : List α → List α → Prop}

/-- A mark that a text begins with is before each part without brackets. -/
theorem Unmarked.after_mark {front after : List α} (free : Unmarked opening inner closing hole)
    (shape : front ++ (hole ++ back) = bracketed opening inner closing ++ after) :
    ∃ later, front = bracketed opening inner closing ++ later ∧
      later ++ (hole ++ back) = after := by
  rcases List.append_eq_append_iff.mp shape with ⟨within, marks, rest⟩ | ⟨later, fronts, rest⟩
  · cases front with
    | nil =>
        rw [List.nil_append] at marks
        rw [← marks] at rest
        cases hole with
        | nil => exact absurd rfl free.nonempty
        | cons letter hole =>
            have same : letter = opening := (List.cons.inj rest).1
            exact absurd (same ▸ List.mem_cons_self) free.opens
    | cons first front =>
        rw [bracketed, List.cons_append] at marks
        obtain ⟨rfl, words⟩ := List.cons.inj marks
        rcases List.eq_nil_or_concat within with rfl | ⟨word, last, rfl⟩
        · rw [List.append_nil] at words
          exact ⟨[], by rw [← words, bracketed, List.append_nil], rest⟩
        · rw [List.concat_eq_append, ← List.append_assoc] at words
          obtain ⟨rfl, ends⟩ := List.append_inj' words rfl
          obtain rfl := List.singleton_inj.mp ends
          rw [List.concat_eq_append, List.append_assoc] at rest
          rcases List.append_eq_append_iff.mp rest with ⟨more, longer, -⟩ | ⟨more, holes, closed⟩
          · exact absurd ⟨front, more, by rw [longer, List.append_assoc]⟩ free.outside
          · cases more with
            | nil =>
                rw [List.append_nil] at holes
                exact absurd ⟨front, [], by rw [holes, List.append_nil]⟩ free.outside
            | cons letter more =>
                have same : closing = letter := (List.cons.inj closed).1
                exact absurd (by rw [holes, same]; exact List.mem_append_right _ List.mem_cons_self)
                  free.closes
  · exact ⟨later, fronts, rest.symm⟩

/-- A text without brackets that begins a masked text began the text before it. -/
theorem Masked.of_append (opens : opening ∉ hole)
    (masked : Masked (bracketed opening inner closing) stays before text (hole ++ back)) :
    ∃ left, text = hole ++ left ∧ (back.head? = left.head? ∨ back.head? = some opening) ∧
      (hole ≠ [] → stays before text) := by
  induction hole generalizing before text with
  | nil =>
      rw [List.nil_append] at masked
      refine ⟨text, rfl, ?_, fun nonempty => absurd rfl nonempty⟩
      cases masked with
      | done => exact .inl rfl
      | stay => exact .inl rfl
      | gone => exact .inr rfl
  | cons letter hole ih =>
      rw [List.mem_cons, not_or] at opens
      rw [List.cons_append] at masked
      generalize shape : letter :: (hole ++ back) = after at masked
      cases masked with
      | done => cases shape
      | stay here later =>
          obtain ⟨rfl, rfl⟩ := List.cons.inj shape
          obtain ⟨left, same, beside, -⟩ := ih opens.2 later
          exact ⟨left, by rw [same, List.cons_append], beside, fun _ => here⟩
      | gone later => exact absurd (List.cons.inj shape).1.symm opens.1

/-- A part of a masked text without brackets stood in the text before it, at a place where it may
stay, between the same characters but for the brackets of marks. -/
theorem Masked.of_part {front : List α} (free : Unmarked opening inner closing hole)
    (masked : Masked (bracketed opening inner closing) stays before text
      (front ++ (hole ++ back))) :
    ∃ lead left, text = lead ++ (hole ++ left) ∧
      (front.getLast? = lead.getLast? ∨ front.getLast? = some closing) ∧
      (back.head? = left.head? ∨ back.head? = some opening) ∧
      stays (lead.reverse ++ before) (hole ++ left) := by
  generalize shape : front ++ (hole ++ back) = after at masked
  induction masked generalizing front with
  | done =>
      exact absurd (List.append_eq_nil_iff.mp (List.append_eq_nil_iff.mp shape).2).1 free.nonempty
  | @stay before rest after letter here later ih =>
      cases front with
      | nil =>
          have whole : Masked (bracketed opening inner closing) stays before (letter :: rest)
              (hole ++ back) := by
            rw [← List.nil_append (hole ++ back), shape]
            exact .stay here later
          obtain ⟨left, same, beside, kept⟩ := whole.of_append free.opens
          exact ⟨[], left, same, .inl rfl, beside, by rw [← same]; exact kept free.nonempty⟩
      | cons first front =>
          obtain ⟨rfl, tail⟩ := List.cons.inj shape
          obtain ⟨lead, left, same, last, beside, kept⟩ := ih tail
          refine ⟨first :: lead, left, by rw [same, List.cons_append], ?_, beside,
            by rwa [List.reverse_cons, List.append_assoc]⟩
          rw [List.getLast?_cons, List.getLast?_cons]
          rcases last with same | closed
          · exact .inl (by rw [same])
          · exact .inr (by rw [closed, Option.getD_some])
  | @gone before gone rest after later ih =>
      obtain ⟨front, rfl, tail⟩ := free.after_mark shape
      obtain ⟨lead, left, same, last, beside, kept⟩ := ih tail
      refine ⟨gone ++ lead, left, by rw [same, List.append_assoc], ?_, beside,
        by rwa [List.reverse_append, List.append_assoc]⟩
      have marked : (bracketed opening inner closing).getLast? = some closing := by
        rw [bracketed, ← List.cons_append]
        exact List.getLast?_concat
      rw [List.getLast?_append, List.getLast?_append, marked]
      rcases last with same | closed
      · rw [← same]
        cases front.getLast? with
        | none => exact .inr rfl
        | some letter => exact .inl rfl
      · exact .inr (by rw [closed, Option.some_or])

/-- What is nowhere in a text is nowhere in the masked text. -/
theorem Masked.lacks (free : Unmarked opening inner closing hole) {after : List α}
    (masked : Masked (bracketed opening inner closing) stays before text after)
    (absent : ¬hole <:+: text) : ¬hole <:+: after := by
  rintro ⟨front, back, rfl⟩
  rw [List.append_assoc] at masked
  obtain ⟨lead, left, rfl, -⟩ := masked.of_part free
  exact absent ⟨lead, left, List.append_assoc _ _ _⟩

end Unmarked

end Orchestrator.Foundation.Regex
