import Orchestrator.Foundation.JsonLine
import Orchestrator.Foundation.Lines

/-! # Documents that are cut at an end of a line

A text that holds an end of a line is written over it. What is before the first such end is no
document: the text that holds it has no closing quote.
-/

namespace Orchestrator.Foundation.Json

open PyText

/-- The characters before the first end of a line, without the blanks at their end or with them. -/
def cutLine (trims : Bool) : PyText → PyText
  | [] => []
  | point :: rest =>
      if isLineEnd point then []
      else if trims && isSpace point && (cutLine trims rest).isEmpty then []
      else point :: cutLine trims rest

theorem cutLine_false (text : PyText) :
    cutLine false text = text.takeWhile fun point => !isLineEnd point := by
  induction text with
  | nil => rfl
  | cons point text ih =>
      rw [cutLine, ih, List.takeWhile_cons]
      cases isLineEnd point with
      | true => rfl
      | false => rfl

theorem cutLine_true (text : PyText) :
    cutLine true text =
      ((text.takeWhile fun point => !isLineEnd point).reverse.dropWhile isSpace).reverse := by
  induction text with
  | nil => rfl
  | cons point text ih =>
      rw [cutLine, ih, List.takeWhile_cons]
      cases isLineEnd point with
      | true => rfl
      | false =>
          rw [if_neg Bool.false_ne_true, Bool.not_false, if_pos rfl, List.reverse_cons,
            List.dropWhile_append, List.isEmpty_reverse, Bool.true_and]
          split
          · rename_i blank
            rw [Bool.and_eq_true] at blank
            rw [if_pos blank.2, List.dropWhile_cons, if_pos blank.1]
            rfl
          · rename_i solid
            split
            · rename_i nothing
              rw [nothing, Bool.and_true] at solid
              rw [List.isEmpty_iff.mp nothing, List.dropWhile_cons, if_neg solid]
              rfl
            · rw [List.reverse_append]
              rfl

section Cuts

variable {trims : Bool}

theorem cutLine_cons {point : CodePoint} (solid : isSpace point = false) (rest : PyText) :
    cutLine trims (point :: rest) = point :: cutLine trims rest := by
  have noEnd : isLineEnd point = false := by
    cases ends : isLineEnd point with
    | false => rfl
    | true =>
        rw [isSpace_of_isLineEnd ends] at solid
        cases solid
  rw [cutLine, noEnd, solid, Bool.and_false, Bool.false_and, if_neg Bool.false_ne_true,
    if_neg Bool.false_ne_true]

theorem cutLine_plain {point : CodePoint} (plain : isLineEnd point = false) {rest : PyText}
    (more : cutLine trims rest ≠ []) :
    cutLine trims (point :: rest) = point :: cutLine trims rest := by
  rw [cutLine, plain, List.isEmpty_eq_false_iff.mpr more, Bool.and_false,
    if_neg Bool.false_ne_true, if_neg Bool.false_ne_true]

/-- A part without ends stays before a character that is not blank. -/
theorem cutLine_append {text : PyText} (plain : text.all (fun point => !isLineEnd point) = true)
    {rest : PyText} (more : cutLine trims rest ≠ []) :
    cutLine trims (text ++ rest) = text ++ cutLine trims rest := by
  induction text with
  | nil => rfl
  | cons point text ih =>
      rw [List.all_cons, Bool.and_eq_true, Bool.not_eq_true'] at plain
      have later := ih plain.2
      have nonempty : cutLine trims (text ++ rest) ≠ [] := by
        rw [later]
        exact List.append_ne_nil_of_right_ne_nil text more
      rw [List.cons_append, cutLine_plain plain.1 nonempty, later, List.cons_append]

/-- What is after an end of a line does not count. -/
theorem cutLine_broken {text : PyText}
    (broken : text.all (fun point => !isLineEnd point) = false) (rest : PyText) :
    cutLine trims (text ++ rest) = cutLine trims text := by
  induction text with
  | nil => cases broken
  | cons point text ih =>
      rw [List.cons_append, cutLine, cutLine]
      cases ends : isLineEnd point with
      | true => rfl
      | false =>
          rw [List.all_cons, ends, Bool.not_false, Bool.true_and] at broken
          rw [ih broken]

theorem cutLine_ne_nil {point : CodePoint} (solid : isSpace point = false) (rest : PyText) :
    cutLine trims (point :: rest) ≠ [] := by
  rw [cutLine_cons solid]
  exact List.cons_ne_nil _ _

theorem escapePoint_of_isRaw {ascii : Bool} {point : CodePoint} (raw : isRaw ascii point = true) :
    escapePoint ascii point = [point] := by
  rw [isRaw, Bool.and_eq_true, Option.isNone_iff_eq_none, Bool.not_eq_true'] at raw
  rw [escapePoint, raw.1]
  dsimp only
  rw [raw.2, if_neg Bool.false_ne_true]

theorem all_noEnd_escapePoint (point : CodePoint) :
    ((escapePoint false point).all fun point => !isLineEnd point) = !isSeparator point :=
  (all_escapePoint (graphic_of_printable fun _ => not_isLineEnd_of_isPrintable) false point).trans
    (raw_lineEnd point)

theorem all_noEnd_dumpText (text : PyText) :
    ((dumpText false text).all fun point => !isLineEnd point) = onOneLine text := by
  have all := all_dumpText (graphic_of_printable fun _ => not_isLineEnd_of_isPrintable) false text
  simp only [raw_lineEnd] at all
  exact all

theorem all_solid_escapePoint (point : CodePoint) :
    ((escapePoint false point).all fun point => !isSpace point) =
      (!isRaw false point || !isSpace point) := by
  refine all_escapePoint (fun point graphic => ?_) false point
  rw [isGraphic, Bool.and_eq_true, decide_eq_true_eq, decide_eq_true_eq] at graphic
  simp only [Bool.not_eq_true', isSpace, Bool.or_eq_false_iff, Bool.and_eq_false_iff,
    decide_eq_false_iff_not]
  omega

theorem cutLine_solid {text : PyText} (solid : (text.all fun point => !isSpace point) = true) :
    cutLine trims text = text := by
  induction text with
  | nil => rfl
  | cons point text ih =>
      rw [List.all_cons, Bool.and_eq_true, Bool.not_eq_true'] at solid
      rw [cutLine_cons solid.1, ih solid.2]

/-- A part before what is cut to nothing. -/
theorem cutLine_append_nil (text : PyText) {rest : PyText} (none : cutLine trims rest = []) :
    cutLine trims (text ++ rest) = cutLine trims text := by
  induction text with
  | nil => exact none
  | cons point text ih => rw [List.cons_append, cutLine, cutLine, ih]

variable (trims) in
/-- A character is cut whole or not at all. -/
theorem cutLine_escapePoint (point : CodePoint) :
    cutLine trims (escapePoint false point) = escapePoint false point ∨
      cutLine trims (escapePoint false point) = [] := by
  have solid := all_solid_escapePoint point
  cases raw : isRaw false point with
  | false =>
      rw [raw] at solid
      exact .inl (cutLine_solid solid)
  | true =>
      rw [escapePoint_of_isRaw raw, cutLine]
      split
      · exact .inr rfl
      · split
        · exact .inr rfl
        · exact .inl rfl

/-- A text whose closing quote is on another line is not read. -/
theorem lexText_cutLine {text : PyText} (broken : onOneLine text = false) (rest : PyText) :
    lexText (cutLine trims (text.flatMap (escapePoint false) ++ rest)) = none := by
  induction text with
  | nil => cases broken
  | cons point text ih =>
      have all := all_noEnd_escapePoint point
      rw [List.flatMap_cons, List.append_assoc]
      cases separates : isSeparator point with
      | false =>
          rw [onOneLine, List.all_cons, separates, Bool.not_false, Bool.true_and] at broken
          rw [separates] at all
          have alone : lexText (escapePoint false point) = none := by
            have lexed := lexText_escapePoint false point []
            rwa [List.append_nil] at lexed
          by_cases none : cutLine trims (text.flatMap (escapePoint false) ++ rest) = []
          · rw [cutLine_append_nil _ none]
            rcases cutLine_escapePoint trims point with same | nothing
            · rw [same, alone]
            · rw [nothing]
              rfl
          · rw [cutLine_append all none, lexText_escapePoint, ih broken]
            rfl
      | true =>
          have beyond : 0x80 ≤ point.val := by
            simp only [isSeparator, Bool.or_eq_true, decide_eq_true_eq] at separates
            omega
          rw [separates, escapePoint_of_isRaw (isRaw_of_le beyond), List.all_cons, List.all_nil,
            Bool.and_true, Bool.not_true, Bool.not_eq_false'] at all
          rw [escapePoint_of_isRaw (isRaw_of_le beyond), List.singleton_append, cutLine, if_pos all]
          rfl

theorem cutLine_dumpText {text : PyText} (broken : onOneLine text = false) (rest : PyText) :
    ∃ tail, cutLine trims (dumpText false text ++ rest) = ofChar '"' :: tail ∧
      parseText tail = none := by
  refine ⟨cutLine trims (text.flatMap (escapePoint false) ++ ([ofChar '"'] ++ rest)), ?_, ?_⟩
  · rw [dumpText, List.cons_append, List.cons_append, List.append_assoc]
    exact cutLine_cons (by decide) _
  · rw [parseText, lexText_cutLine broken]
    rfl

/-- A first item and what follows it are read one after the other. -/
theorem parseValue_bracket {fuel : Nat} {text : PyText} (plain : skipSpace text = text)
    (opens : ∀ point ∈ text.head?, point ≠ ofChar ']') :
    parseValue (fuel + 1) (ofChar '[' :: text) =
      (do
        let (item, rest) ← parseValue fuel text
        let (items, rest) ← parseItems fuel rest
        return (.array (item :: items), rest)) := by
  have notQuote : ofChar '[' ≠ ofChar '"' := by decide
  have notBrace : ofChar '[' ≠ ofChar '\x7b' := by decide
  rw [parseValue.eq_def]
  dsimp only
  rw [if_neg notQuote, if_neg notBrace, if_pos rfl, plain]
  cases text with
  | nil =>
      rw [show parseValue fuel [] = none by cases fuel <;> rfl]
      rfl
  | cons point tail =>
      dsimp only
      rw [if_neg (opens point rfl)]

theorem parseItems_comma {fuel : Nat} {text : PyText} (plain : skipSpace text = text) :
    parseItems (fuel + 1) (ofChar ',' :: ofChar ' ' :: text) =
      (do
        let (item, rest) ← parseValue fuel text
        let (items, rest) ← parseItems fuel rest
        return (item :: items, rest)) := by
  have closes : ofChar ',' ≠ ofChar ']' := by decide
  have blank : skipSpace (ofChar ' ' :: text) = text :=
    (skipSpace_append blank_space text).trans plain
  rw [parseItems.eq_def]
  dsimp only
  rw [skipSpace_cons (by decide)]
  dsimp only
  rw [if_neg closes, if_pos rfl, blank]

theorem parseValue_brace {fuel : Nat} {text : PyText} (plain : skipSpace text = text)
    (opens : ∀ point ∈ text.head?, point ≠ ofChar '\x7d') :
    parseValue (fuel + 1) (ofChar '\x7b' :: text) =
      (do
        let (key, rest) ← parseKey text
        let (value, rest) ← parseValue fuel rest
        let (members, rest) ← parseMembers fuel rest
        return (.object ((key, value) :: members), rest)) := by
  have notQuote : ofChar '\x7b' ≠ ofChar '"' := by decide
  rw [parseValue.eq_def]
  dsimp only
  rw [if_neg notQuote, if_pos rfl, plain]
  cases text with
  | nil => rfl
  | cons point tail =>
      dsimp only
      rw [if_neg (opens point rfl)]

theorem parseMembers_comma {fuel : Nat} {text : PyText} (plain : skipSpace text = text) :
    parseMembers (fuel + 1) (ofChar ',' :: ofChar ' ' :: text) =
      (do
        let (key, rest) ← parseKey text
        let (value, rest) ← parseValue fuel rest
        let (members, rest) ← parseMembers fuel rest
        return ((key, value) :: members, rest)) := by
  have closes : ofChar ',' ≠ ofChar '\x7d' := by decide
  have blank : skipSpace (ofChar ' ' :: text) = text :=
    (skipSpace_append blank_space text).trans plain
  rw [parseMembers.eq_def]
  dsimp only
  rw [skipSpace_cons (by decide)]
  dsimp only
  rw [if_neg closes, if_pos rfl, blank]

variable (trims) in
/-- The first line of a document begins as the document does. -/
theorem exists_head_cutLine {document : Json} (fine : numeric document = true) (rest : PyText) :
    ∃ point tail, cutLine trims (line document ++ rest) = point :: tail ∧
      isWhitespace point = false ∧ point ≠ ofChar ']' := by
  obtain ⟨point, tail, shape, solid, plain, opens⟩ := exists_head_line fine
  exact ⟨point, _, by rw [shape, List.cons_append, cutLine_cons solid], plain, opens⟩

variable (trims) in
theorem cutLine_line_ne_nil {document : Json} (fine : numeric document = true) (rest : PyText) :
    cutLine trims (line document ++ rest) ≠ [] := by
  obtain ⟨point, tail, shape, -⟩ := exists_head_cutLine trims fine rest
  rw [shape]
  exact List.cons_ne_nil _ _

theorem cutLine_items_ne_nil (items : List Json) : cutLine trims (lineItems items) ≠ [] := by
  cases items with
  | nil => exact cutLine_ne_nil (by decide) _
  | cons item items =>
      rw [lineItems]
      exact cutLine_ne_nil (by decide) _

theorem cutLine_members_ne_nil (members : List (PyText × Json)) :
    cutLine trims (lineMembers members) ≠ [] := by
  cases members with
  | nil => exact cutLine_ne_nil (by decide) _
  | cons member members =>
      rw [lineMembers]
      exact cutLine_ne_nil (by decide) _

variable (trims) in
theorem skipSpace_cutLine {document : Json} (fine : numeric document = true) (rest : PyText) :
    skipSpace (cutLine trims (line document ++ rest)) = cutLine trims (line document ++ rest) := by
  obtain ⟨point, tail, shape, plain, -⟩ := exists_head_cutLine trims fine rest
  rw [shape, skipSpace_cons plain]

theorem delimited_cutLine_items {items : List Json}
    (broken : (lineItems items).all (fun point => !isLineEnd point) = false) :
    Delimited (cutLine trims (lineItems items)) := by
  cases items with
  | nil => cases broken
  | cons item items =>
      rw [lineItems, cutLine_cons (by decide)]
      exact delimited_cons (by decide)

theorem delimited_cutLine_members {members : List (PyText × Json)}
    (broken : (lineMembers members).all (fun point => !isLineEnd point) = false) :
    Delimited (cutLine trims (lineMembers members)) := by
  cases members with
  | nil => cases broken
  | cons member members =>
      rw [lineMembers, cutLine_cons (by decide)]
      exact delimited_cons (by decide)

/-- A key on one line is read up to its value; another is not read. -/
theorem parseKey_cutLine {key : PyText} {value : Json} (fine : numeric value = true)
    (rest : PyText) :
    parseKey (cutLine trims
      (dumpText false key ++ (ofChar ':' :: ofChar ' ' :: (line value ++ rest)))) =
      if onOneLine key then some (key, cutLine trims (line value ++ rest)) else none := by
  cases whole : onOneLine key with
  | false =>
      obtain ⟨tail, shape, unread⟩ :=
        cutLine_dumpText whole (ofChar ':' :: ofChar ' ' :: (line value ++ rest))
      rw [shape, parseKey, if_pos rfl, unread]
      rfl
  | true =>
      have more := cutLine_line_ne_nil trims fine rest
      rw [cutLine_append (by rw [all_noEnd_dumpText, whole]) (cutLine_ne_nil (by decide) _),
        cutLine_cons (by decide), cutLine_plain (by decide) more]
      have readable : readable false key = true := rfl
      exact parseKey_dumpText readable (skipSpace_cutLine trims fine rest)

variable (trims) in
/-- A key begins no end of an object. -/
theorem exists_head_key (key rest : PyText) :
    ∃ tail, cutLine trims (dumpText false key ++ rest) = ofChar '"' :: tail := by
  rw [dumpText, List.cons_append, List.cons_append]
  exact ⟨_, cutLine_cons (by decide) _⟩

variable (trims) in
theorem skipSpace_key (key rest : PyText) :
    skipSpace (cutLine trims (dumpText false key ++ rest)) =
      cutLine trims (dumpText false key ++ rest) := by
  obtain ⟨tail, shape⟩ := exists_head_key trims key rest
  rw [shape, skipSpace_cons (by decide)]

/-- The first line of a member is as long as its value's. -/
theorem length_cutLine_member {key rest : PyText} (whole : onOneLine key = true)
    (more : cutLine trims rest ≠ []) :
    (cutLine trims rest).length + 2 ≤
      (cutLine trims (dumpText false key ++ (ofChar ':' :: ofChar ' ' :: rest))).length := by
  rw [cutLine_append (by rw [all_noEnd_dumpText, whole]) (cutLine_ne_nil (by decide) _),
    cutLine_cons (by decide), cutLine_plain (by decide) more, List.length_append, List.length_cons,
    List.length_cons]
  omega

mutual

/-- The first line of a document on more than one line is no document. -/
theorem parseValue_cutLine : ∀ (document : Json) (fuel : Nat), numeric document = true →
    (line document).all (fun point => !isLineEnd point) = false →
      (cutLine trims (line document)).length ≤ fuel →
        parseValue fuel (cutLine trims (line document)) = none
  | document, 0, _, _, _ => rfl
  | null, _ + 1, _, broken, _ => absurd broken (by decide)
  | bool true, _ + 1, _, broken, _ => absurd broken (by decide)
  | bool false, _ + 1, _, broken, _ => absurd broken (by decide)
  | number literal, _ + 1, fine, broken, _ => by
      rw [noEnd_line fine] at broken
      cases broken
  | string value, fuel + 1, fine, broken, _ => by
      rw [line, all_noEnd_dumpText] at broken
      obtain ⟨tail, shape, unread⟩ := cutLine_dumpText broken []
      rw [List.append_nil] at shape
      rw [line, shape, parseValue.eq_def]
      dsimp only
      rw [if_pos rfl, unread]
      rfl
  | array [], _ + 1, _, broken, _ => absurd broken (by decide)
  | array (item :: items), fuel + 1, fine, broken, enough => by
      rw [numeric, numericItems, Bool.and_eq_true] at fine
      obtain ⟨point, tail, shape, -, opens⟩ := exists_head_cutLine trims fine.1 (lineItems items)
      have first : ∀ point ∈ (cutLine trims (line item ++ lineItems items)).head?,
          point ≠ ofChar ']' := by
        rw [shape]
        intro other isHead
        cases isHead
        exact opens
      have plain := skipSpace_cutLine trims fine.1 (lineItems items)
      rw [line, cutLine_cons (by decide), List.length_cons] at enough
      rw [line, List.all_cons, List.all_append] at broken
      rw [line, cutLine_cons (by decide), parseValue_bracket plain first]
      cases whole : (line item).all fun point => !isLineEnd point with
      | false =>
          rw [cutLine_broken whole] at enough ⊢
          rw [parseValue_cutLine item fuel fine.1 whole (by omega)]
          rfl
      | true =>
          rw [whole, Bool.true_and, Bool.and_eq_false_iff] at broken
          have later := broken.resolve_left (by decide)
          rw [cutLine_append whole (cutLine_items_ne_nil items), List.length_append] at enough
          have bound := size_le_length_line item fine.1
          rw [cutLine_append whole (cutLine_items_ne_nil items),
            parseValue_line item fuel _ fine.1 (by omega)
            (delimited_cutLine_items later)]
          simp only [Option.bind_eq_bind, Option.bind_some,
            parseItems_cutLine items fuel fine.2 later (by omega), Option.bind_none]
  | object [], _ + 1, _, broken, _ => absurd broken (by decide)
  | object ((key, value) :: members), fuel + 1, fine, broken, enough => by
      rw [numeric, numericMembers, Bool.and_eq_true] at fine
      obtain ⟨tail, shape⟩ := exists_head_key trims key
        (ofChar ':' :: ofChar ' ' :: (line value ++ lineMembers members))
      have first : ∀ point ∈ (cutLine trims (dumpText false key ++ (ofChar ':' :: ofChar ' ' ::
          (line value ++ lineMembers members)))).head?, point ≠ ofChar '\x7d' := by
        rw [shape]
        intro other isHead
        cases isHead
        decide
      rw [line, cutLine_cons (by decide), List.length_cons] at enough
      rw [line, cutLine_cons (by decide), parseValue_brace (skipSpace_key trims key _) first,
        parseKey_cutLine fine.1]
      cases named : onOneLine key with
      | false => rfl
      | true =>
          have bound := length_cutLine_member named (cutLine_line_ne_nil trims fine.1
            (lineMembers members))
          rw [line, List.all_cons, List.all_append, all_noEnd_dumpText, named] at broken
          have ends : ((line value).all (fun point => !isLineEnd point) &&
              (lineMembers members).all fun point => !isLineEnd point) = false := by
            rw [← List.all_append]
            exact broken
          simp only [if_true, Option.bind_eq_bind, Option.bind_some]
          cases whole : (line value).all fun point => !isLineEnd point with
          | false =>
              rw [cutLine_broken whole] at bound ⊢
              rw [parseValue_cutLine value fuel fine.1 whole (by omega)]
              rfl
          | true =>
              rw [whole, Bool.true_and] at ends
              have size := size_le_length_line value fine.1
              rw [cutLine_append whole (cutLine_members_ne_nil members), List.length_append]
                at bound
              rw [cutLine_append whole (cutLine_members_ne_nil members),
                parseValue_line value fuel _ fine.1 (by omega)
                (delimited_cutLine_members ends)]
              simp only [Option.bind_some,
                parseMembers_cutLine members fuel fine.2 ends (by omega), Option.bind_none]

theorem parseItems_cutLine : ∀ (items : List Json) (fuel : Nat), numericItems items = true →
    (lineItems items).all (fun point => !isLineEnd point) = false →
      (cutLine trims (lineItems items)).length ≤ fuel →
        parseItems fuel (cutLine trims (lineItems items)) = none
  | _, 0, _, _, _ => rfl
  | [], _ + 1, _, broken, _ => absurd broken (by decide)
  | item :: items, fuel + 1, fine, broken, enough => by
      rw [numericItems, Bool.and_eq_true] at fine
      have plain := skipSpace_cutLine trims fine.1 (lineItems items)
      have more := cutLine_line_ne_nil trims fine.1 (lineItems items)
      rw [lineItems, cutLine_cons (by decide), cutLine_plain (by decide) more, List.length_cons,
        List.length_cons] at enough
      rw [lineItems, List.all_cons, List.all_cons, List.all_append] at broken
      rw [lineItems, cutLine_cons (by decide), cutLine_plain (by decide) more,
        parseItems_comma plain]
      cases whole : (line item).all fun point => !isLineEnd point with
      | false =>
          rw [cutLine_broken whole] at enough ⊢
          rw [parseValue_cutLine item fuel fine.1 whole (by omega)]
          rfl
      | true =>
          have later : (lineItems items).all (fun point => !isLineEnd point) = false := by
            rw [whole, Bool.true_and] at broken
            exact broken
          have size := size_le_length_line item fine.1
          rw [cutLine_append whole (cutLine_items_ne_nil items), List.length_append] at enough
          rw [cutLine_append whole (cutLine_items_ne_nil items),
            parseValue_line item fuel _ fine.1 (by omega)
            (delimited_cutLine_items later)]
          simp only [Option.bind_eq_bind, Option.bind_some,
            parseItems_cutLine items fuel fine.2 later (by omega), Option.bind_none]

theorem parseMembers_cutLine : ∀ (members : List (PyText × Json)) (fuel : Nat),
    numericMembers members = true →
      (lineMembers members).all (fun point => !isLineEnd point) = false →
        (cutLine trims (lineMembers members)).length ≤ fuel →
          parseMembers fuel (cutLine trims (lineMembers members)) = none
  | _, 0, _, _, _ => rfl
  | [], _ + 1, _, broken, _ => absurd broken (by decide)
  | (key, value) :: members, fuel + 1, fine, broken, enough => by
      rw [numericMembers, Bool.and_eq_true] at fine
      obtain ⟨tail, shape⟩ := exists_head_key trims key
        (ofChar ':' :: ofChar ' ' :: (line value ++ lineMembers members))
      have more : cutLine trims (dumpText false key ++ (ofChar ':' :: ofChar ' ' ::
          (line value ++ lineMembers members))) ≠ [] := by
        rw [shape]
        exact List.cons_ne_nil _ _
      rw [lineMembers, cutLine_cons (by decide), cutLine_plain (by decide) more, List.length_cons,
        List.length_cons] at enough
      rw [lineMembers, cutLine_cons (by decide), cutLine_plain (by decide) more,
        parseMembers_comma (skipSpace_key trims key _), parseKey_cutLine fine.1]
      cases named : onOneLine key with
      | false => rfl
      | true =>
          have bound := length_cutLine_member named (cutLine_line_ne_nil trims fine.1
            (lineMembers members))
          rw [lineMembers, List.all_cons, List.all_cons, List.all_append, all_noEnd_dumpText, named]
            at broken
          have ends : ((line value).all (fun point => !isLineEnd point) &&
              (lineMembers members).all fun point => !isLineEnd point) = false := by
            rw [← List.all_append]
            exact broken
          simp only [if_true, Option.bind_eq_bind, Option.bind_some]
          cases whole : (line value).all fun point => !isLineEnd point with
          | false =>
              rw [cutLine_broken whole] at bound ⊢
              rw [parseValue_cutLine value fuel fine.1 whole (by omega)]
              rfl
          | true =>
              rw [whole, Bool.true_and] at ends
              have size := size_le_length_line value fine.1
              rw [cutLine_append whole (cutLine_members_ne_nil members), List.length_append]
                at bound
              rw [cutLine_append whole (cutLine_members_ne_nil members),
                parseValue_line value fuel _ fine.1 (by omega)
                (delimited_cutLine_members ends)]
              simp only [Option.bind_some,
                parseMembers_cutLine members fuel fine.2 ends (by omega), Option.bind_none]

end

end Cuts

/-- A document on more than one line is not read from the first. -/
theorem loads_cutLine (trims : Bool) {document : Json} (fine : numeric document = true)
    (broken : document.allTexts onOneLine = false) :
    loads (cutLine trims (line document)) = none := by
  have plain := skipSpace_cutLine trims fine []
  rw [List.append_nil] at plain
  rw [loads, plain, parseValue_cutLine document _ fine ((noEnd_line fine).trans broken)
    (Nat.le_refl _)]
  rfl

end Orchestrator.Foundation.Json
